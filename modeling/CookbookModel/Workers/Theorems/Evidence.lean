import CookbookModel.Workers.FetchJson

namespace Workers.FetchJson

open JsString

variable {Body Data : Type} [Platform Data] {evidenceTtlMs : Int} {opts : Options}
  {target target' : URL} {hop : Nat}

-- What the options allow a fetch of.
def Permitted (opts : Options) (target : URL) : Prop :=
  target.protocol = "https:" ∧
  ∀ allowed, opts.allowedHost = some allowed → allowed ≠ [] → target.hostname = allowed ∨
    (opts.domainBoundary = some true ∧ ofString "." ++ allowed <:+ target.hostname)

abbrev Answer (Body : Type) :=
  Except JsString (Response Body)

abbrev Path (Body : Type) :=
  List (Σ o : Op Body, o.Res)

def fetched (target : URL) (answer : Answer Body) : Σ o : Op Body, o.Res :=
  ⟨.fetch target "manual" "application/json", answer⟩

-- The answer sends the download on to another URL.
def Redirects (Data : Type) [Platform Data] (target : URL) (answer : Answer Body) (target' : URL) :
    Prop :=
  ∃ res, answer = .ok res ∧ 300 ≤ res.status ∧ res.status < 400 ∧ res.location.getD [] ≠ [] ∧
    Platform.newUrl Data (res.location.getD []) (some target) = some target'

-- The fetches of a path, all of which are answered by redirects.
inductive Redirected (Data : Type) [Platform Data] : URL → Path Body → URL → Prop
  | here {target : URL} : Redirected Data target [] target
  | hop {target target' last : URL} {answer : Answer Body} {path : Path Body} :
      Redirects Data target answer target' → Redirected Data target' path last →
        Redirected Data target (fetched target answer :: path) last

theorem hostAllowed_iff {host allowed : JsString} :
    hostAllowed host allowed (opts.domainBoundary.getD false) = true ↔
      host = allowed ∨ (opts.domainBoundary = some true ∧ ofString "." ++ allowed <:+ host) := by
  have hBoundary : opts.domainBoundary.getD false = true ↔ opts.domainBoundary = some true := by
    cases opts.domainBoundary <;> simp
  simp only [hostAllowed, Bool.or_eq_true, Bool.and_eq_true, beq_iff_eq,
    List.isSuffixOf_iff_suffix, hBoundary]

theorem host_iff {allowed : JsString} :
    opts.host = some allowed ↔ opts.allowedHost = some allowed ∧ allowed ≠ [] := by
  simp [Options.host, Option.filter_eq_some_iff]

theorem checkUrl_ok : checkUrl Data opts target = .ok () ↔ Permitted opts target := by
  simp only [checkUrl, Except.bind_eq_ok, Except.throwIf_eq_ok, not_not, exists_const, Permitted]
  refine and_congr_right fun _ => ?_
  cases hHost : opts.host
  case none =>
    refine iff_of_true rfl fun allowed hAllowed hne => ?_
    cases hHost.symm.trans (host_iff.mpr ⟨hAllowed, hne⟩)
  case some allowed =>
    have ⟨hAllowed, hne⟩ := host_iff.mp hHost
    simp [Except.throwIf_eq_ok, hostAllowed_iff, hAllowed, hne]

-- What the loop does with the answer of a fetch.
def Answered (evidenceTtlMs : Int) (opts : Options) (target : URL) (hop : Nat)
    (answer : Answer Body) (next : Handler Body (Fetched Data)) : Prop :=
  (∃ target', Redirects Data target answer target' ∧ hop < maxRedirects ∧
    next = fetchFrom evidenceTtlMs opts target' (hop + 1)) ∨
  (∃ res, answer = .ok res ∧ res.status = 200 ∧ next = readJson evidenceTtlMs opts target res) ∨
  (∃ e, next = .done (.error e) ∧ ∀ res, answer = .ok res → res.status ≠ 200)

theorem fetchFrom_permitted (h : Permitted opts target) :
    ∃ k, (fetchFrom evidenceTtlMs opts target hop : Handler Body (Fetched Data)) =
        .call (.fetch target "manual" "application/json") k ∧
      ∀ answer, Answered evidenceTtlMs opts target hop answer (k answer) := by
  rw [fetchFrom, checkUrl_ok.mpr h]
  refine ⟨_, rfl, fun answer => ?_⟩
  cases answer
  case error message => exact .inr (.inr ⟨_, rfl, nofun⟩)
  case ok res =>
    simp only [Program.bind]
    split
    case isTrue hRedirect =>
      have hStatus : ∀ res', (Except.ok res : Answer Body) = .ok res' → res'.status ≠ 200 := by
        rintro _ ⟨⟩
        omega
      split
      case isTrue => exact .inr (.inr ⟨_, rfl, hStatus⟩)
      case isFalse hLocation =>
        obtain ⟨hLocation, hHop⟩ := not_or.mp hLocation
        split
        case h_1 => exact .inr (.inr ⟨_, rfl, hStatus⟩)
        case h_2 target' hUrl =>
          exact .inl ⟨target', ⟨res, rfl, hRedirect.left, hRedirect.right, hLocation, hUrl⟩,
            Nat.lt_of_not_ge hHop, rfl⟩
    case isFalse =>
      split
      case isTrue hStatus  => exact .inr (.inr ⟨_, rfl, fun _ he => Except.ok.inj he ▸ hStatus⟩)
      case isFalse hStatus => exact .inr (.inl ⟨res, rfl, not_not.mp hStatus, rfl⟩)

theorem fetchFrom_denied (h : ¬Permitted opts target) :
    ∃ e, (fetchFrom evidenceTtlMs opts target hop : Handler Body (Fetched Data)) =
      .done (.error e) := by
  rw [fetchFrom]
  cases hCheck : checkUrl Data opts target
  case error e => exact ⟨e, rfl⟩
  case ok      => exact absurd (checkUrl_ok.mp hCheck) h

-- A response with status 200 is read as the value.
def Reads (evidenceTtlMs : Int) (opts : Options) (target : URL) (res : Response Body)
    (path : Path Body) (v : Fetched Data) : Prop :=
  ∃ bytes data now, path = [⟨.readBoundedBody res
      (opts.maxResponseBytes.getD defaultMaxResponseBytes), .ok bytes⟩, ⟨.now, now⟩] ∧
    Platform.parseJson (decode bytes) = some data ∧
    v = ⟨data, now + evidenceTtlMs, [target.hostname]⟩

theorem readJson_done {res : Response Body} {path : Path Body} {r : Except Failure (Fetched Data)}
    (h : (readJson evidenceTtlMs opts target res).Reaches path (.done r)) :
    (∃ v, r = .ok v ∧ Reads evidenceTtlMs opts target res path v) ∨
    (∃ e, r = .error e ∧ ∀ v : Fetched Data, ¬Reads evidenceTtlMs opts target res path v) := by
  simp only [readJson, Program.perform_bind, Program.reaches_call] at h
  obtain ⟨bytes, path', hp, h⟩ := h.resolve_left fun h => by simp at h
  cases bytes
  case error e =>
    obtain ⟨hp', hr⟩ := Program.reaches_done.mp h
    cases hr
    exact .inr ⟨e, rfl, fun v ⟨_, _, _, hv, _⟩ => by simp [hp] at hv⟩
  case ok bytes =>
    cases hParse : (Platform.parseJson (decode bytes) : Option Data)
    case none =>
      simp only [Program.ofExcept, Program.ok_bind, hParse] at h
      obtain ⟨hp', hr⟩ := Program.reaches_done.mp h
      cases hr
      exact .inr ⟨_, rfl, fun v ⟨_, _, _, hv, _⟩ => by simp [hp, hp'] at hv⟩
    case some data =>
      simp only [Program.ofExcept, Program.ok_bind, hParse, Program.reaches_call] at h
      obtain ⟨now, path'', hp', h⟩ := h.resolve_left fun h => by simp at h
      obtain ⟨hp'', hr⟩ := Program.reaches_done.mp h
      cases hr
      exact .inl ⟨_, rfl, bytes, data, now, by rw [hp, hp', hp''], hParse, rfl⟩

def isFetch : Op Body → Bool
  | .fetch .. => true
  | _         => false

def fetches (path : Path Body) : Nat :=
  path.countP fun s => isFetch s.1

theorem readJson_no_fetch {res : Response Body} :
    (readJson evidenceTtlMs opts target res : Handler Body (Fetched Data)).Always
      fun o => isFetch o = false := by
  refine ⟨rfl, fun bytes => ?_⟩
  cases bytes
  case error => exact trivial
  case ok bytes =>
    simp only [Program.bind, Program.ofExcept, Program.ok_bind]
    split
    case h_1 => exact trivial
    case h_2 => exact ⟨rfl, fun _ => trivial⟩

section

variable {path : Path Body} {q : Handler Body (Fetched Data)}

theorem fetchFrom_reaches (h : (fetchFrom evidenceTtlMs opts target hop).Reaches path q) :
    (path = [] ∧ q = fetchFrom evidenceTtlMs opts target hop) ∨
    Permitted opts target ∧ ∃ answer rest next, path = fetched target answer :: rest ∧
      Answered evidenceTtlMs opts target hop answer next ∧ next.Reaches rest q := by
  by_cases hPermitted : Permitted opts target
  case neg =>
    have ⟨e, he⟩ := @fetchFrom_denied Body Data _ evidenceTtlMs opts target hop hPermitted
    rw [he] at h ⊢
    exact .inl (Program.reaches_done.mp h)
  case pos =>
    have ⟨k, hk, hAnswered⟩ :=
      @fetchFrom_permitted Body Data _ evidenceTtlMs opts target hop hPermitted
    rw [hk] at h ⊢
    cases Program.reaches_call.mp h
    case inl h => exact .inl h
    case inr h =>
      have ⟨answer, rest, hp, h⟩ := h
      exact .inr ⟨hPermitted, answer, rest, k answer, hp, hAnswered answer, h⟩

-- No fetch is left once there have been `maxRedirects` redirects.
theorem fetchFrom_fetches (hHop : hop ≤ maxRedirects)
    (h : (fetchFrom evidenceTtlMs opts target hop).Reaches path q) :
    fetches path + hop ≤ maxRedirects + 1 := by
  induction hn : maxRedirects - hop using Nat.strong_induction_on generalizing hop target path
  case h n hi =>
    cases fetchFrom_reaches h
    case inl h => simp [h.left, fetches]; omega
    case inr h =>
      have ⟨_, answer, rest, next, hp, hAnswered, h⟩ := h
      have hCount : fetches path = fetches rest + 1 := by
        simp [hp, fetches, fetched, isFetch]
      rcases hAnswered with ⟨target', _, hLess, rfl⟩ | ⟨res, _, _, rfl⟩ | ⟨e, rfl, _⟩
      · have hRest := hi _ (by omega) (by omega) h rfl
        omega
      · have hNone : fetches rest = 0 := List.countP_eq_zero.mpr fun s hs => by
          simp [readJson_no_fetch.steps h s hs]
        omega
      · have hNone : fetches rest = 0 := by simp [(Program.reaches_done.mp h).left, fetches]
        omega

-- What is fetched is permitted, and only redirects lead to it.
theorem fetchFrom_emits {url : URL} {redirect accept : JsString}
    (h : (fetchFrom evidenceTtlMs opts target hop : Handler Body (Fetched Data)).Emits path
      (.fetch url redirect accept)) :
    Permitted opts url ∧ redirect = "manual" ∧ Redirected Data target path url := by
  induction hn : maxRedirects - hop using Nat.strong_induction_on generalizing hop target path
  case h n hi =>
    have ⟨k, h⟩ := h
    cases fetchFrom_reaches h
    case inl h =>
      have ⟨hp, hCall⟩ := h
      by_cases hPermitted : Permitted opts target
      case neg =>
        have ⟨e, he⟩ := @fetchFrom_denied Body Data _ evidenceTtlMs opts target hop hPermitted
        cases hCall.trans he
      case pos =>
        have ⟨_, hk, _⟩ :=
          @fetchFrom_permitted Body Data _ evidenceTtlMs opts target hop hPermitted
        cases hCall.trans hk
        exact ⟨hPermitted, rfl, hp ▸ .here⟩
    case inr h =>
      have ⟨_, answer, rest, next, hp, hAnswered, h⟩ := h
      rcases hAnswered with ⟨target', hRedirects, hLess, rfl⟩ | ⟨res, _, _, rfl⟩ | ⟨e, rfl, _⟩
      · have ⟨hPermitted, hManual, hRest⟩ := hi _ (by omega) ⟨k, h⟩ rfl
        exact ⟨hPermitted, hManual, hp ▸ .hop hRedirects hRest⟩
      · cases readJson_no_fetch.emits ⟨k, h⟩
      · cases (Program.reaches_done.mp h).right

-- The path of a download that succeeds: redirects, a response with status 200, its body and the
-- time.
def Succeeds (evidenceTtlMs : Int) (opts : Options) (start : URL) (path : Path Body)
    (v : Fetched Data) : Prop :=
  ∃ redirects last res rest, path = redirects ++ fetched last (.ok res) :: rest ∧
    Redirected Data start redirects last ∧ res.status = 200 ∧
    Reads evidenceTtlMs opts last res rest v

theorem succeeds_redirect {answer : Answer Body} {v : Fetched Data}
    (h : Redirects Data target answer target') :
    Succeeds evidenceTtlMs opts target (fetched target answer :: path) v ↔
      Succeeds evidenceTtlMs opts target' path v := by
  constructor
  case mp =>
    rintro ⟨redirects, last, res, rest, hp, hRedirected, hStatus, hReads⟩
    cases hRedirected
    case here =>
      have ⟨ha, _⟩ := List.cons.inj hp
      have ⟨res', hRes, hLow, hHigh, _⟩ := h
      cases hRes
      cases ha
      omega
    case hop hRedirects hRedirected =>
      have ⟨ha, hRest⟩ := List.cons.inj hp
      cases ha
      have ⟨_, hRes, _, _, _, hUrl⟩ := hRedirects
      have ⟨_, hRes', _, _, _, hUrl'⟩ := h
      cases Except.ok.inj (hRes.symm.trans hRes')
      cases hUrl.symm.trans hUrl'
      exact ⟨_, last, res, rest, hRest, hRedirected, hStatus, hReads⟩
  case mpr =>
    rintro ⟨redirects, last, res, rest, rfl, hRedirected, hStatus, hReads⟩
    exact ⟨_, last, res, rest, rfl, .hop h hRedirected, hStatus, hReads⟩

theorem succeeds_last {answer : Answer Body} {v : Fetched Data}
    (h : ∀ target', ¬Redirects Data target answer target') :
    Succeeds evidenceTtlMs opts target (fetched target answer :: path) v ↔
      ∃ res, answer = .ok res ∧ res.status = 200 ∧ Reads evidenceTtlMs opts target res path v := by
  constructor
  case mp =>
    rintro ⟨redirects, last, res, rest, hp, hRedirected, hStatus, hReads⟩
    cases hRedirected
    case here =>
      cases hp
      exact ⟨res, rfl, hStatus, hReads⟩
    case hop hRedirects _ =>
      cases (List.cons.inj hp).left
      exact absurd hRedirects (h _)
  case mpr =>
    rintro ⟨res, rfl, hStatus, hReads⟩
    exact ⟨[], target, res, path, rfl, .here, hStatus, hReads⟩

theorem not_succeeds_nil {v : Fetched Data} :
    ¬Succeeds evidenceTtlMs opts target ([] : Path Body) v := by
  rintro ⟨redirects, last, res, rest, hp, _⟩
  simp at hp

-- A download returns the value if it succeeds, and throws otherwise.
theorem fetchFrom_done {r : Except Failure (Fetched Data)}
    (h : (fetchFrom evidenceTtlMs opts target hop).Reaches path (.done r)) :
    (∃ v, r = .ok v ∧ Succeeds evidenceTtlMs opts target path v) ∨
    (∃ e, r = .error e ∧ ∀ v : Fetched Data, ¬Succeeds evidenceTtlMs opts target path v) := by
  induction hn : maxRedirects - hop using Nat.strong_induction_on generalizing hop target path
  case h n hi =>
    cases fetchFrom_reaches h
    case inl h =>
      have ⟨hp, hDone⟩ := h
      by_cases hPermitted : Permitted opts target
      case neg =>
        have ⟨e, he⟩ := @fetchFrom_denied Body Data _ evidenceTtlMs opts target hop hPermitted
        cases hDone.trans he
        exact .inr ⟨e, rfl, fun v => hp ▸ not_succeeds_nil⟩
      case pos =>
        have ⟨_, hk, _⟩ :=
          @fetchFrom_permitted Body Data _ evidenceTtlMs opts target hop hPermitted
        cases hDone.trans hk
    case inr h =>
      have ⟨_, answer, rest, next, hp, hAnswered, h⟩ := h
      subst hp
      rcases hAnswered with ⟨target', hRedirects, hLess, rfl⟩ | ⟨res, rfl, hStatus, rfl⟩ |
        ⟨e, rfl, hStatus⟩
      · simp only [succeeds_redirect hRedirects]
        exact hi _ (by omega) h rfl
      · have hLast (target' : URL) : ¬Redirects Data target (.ok res : Answer Body) target' := by
          rintro ⟨_, ⟨⟩, hLow, _⟩
          omega
        simp only [succeeds_last hLast]
        cases readJson_done h
        case inl h =>
          have ⟨v, hr, hReads⟩ := h
          exact .inl ⟨v, hr, res, rfl, hStatus, hReads⟩
        case inr h =>
          have ⟨e, hr, hReads⟩ := h
          refine .inr ⟨e, hr, fun v ⟨res', he, _, hRead⟩ => hReads v ?_⟩
          cases he
          exact hRead
      · have ⟨hRest, hr⟩ := Program.reaches_done.mp h
        cases hr
        refine .inr ⟨e, rfl, fun v hv => ?_⟩
        by_cases hRedirects : ∃ target', Redirects Data target answer target'
        case pos =>
          have ⟨target', hRedirects⟩ := hRedirects
          exact not_succeeds_nil (hRest ▸ (succeeds_redirect hRedirects).mp hv)
        case neg =>
          have ⟨res, ha, h200, _⟩ := (succeeds_last (not_exists.mp hRedirects)).mp hv
          exact hStatus res ha h200

end

-- The evidence that is fetched for a URL stays within its bounds: at most six fetches, all of which
-- are permitted and follow from each other by redirects, and a value only from the last of them.
theorem evidence_bounded (evidenceTtlMs : Int) (url : JsString) (opts : Options) :
    let download : Handler Body (Fetched Data) := workersFetchJson evidenceTtlMs url opts
    (∀ respond, ∃ path r, download.Reaches path (.done r) ∧ Program.Answers respond path) ∧
    (∀ path q, download.Reaches path q → fetches path ≤ 6) ∧
    (∀ path target redirect accept, download.Emits path (.fetch target redirect accept) →
      Permitted opts target ∧ redirect = "manual" ∧
      ∃ start, Platform.newUrl Data url none = some start ∧ Redirected Data start path target) ∧
    ∀ path r, download.Reaches path (.done r) →
      (∃ v start, r = .ok v ∧ Platform.newUrl Data url none = some start ∧
        Succeeds evidenceTtlMs opts start path v) ∨
      (∃ e, r = .error e ∧ ∀ (v : Fetched Data) start, Platform.newUrl Data url none = some start →
        ¬Succeeds evidenceTtlMs opts start path v) := by
  intro download
  refine ⟨fun respond => Program.completes respond download, ?_⟩
  cases hUrl : Platform.newUrl Data url none
  case none =>
    have hDownload : download = .done (.error (.other "TypeError")) := by
      simp only [download, workersFetchJson, hUrl]
      rfl
    rw [hDownload]
    refine ⟨fun path q h => ?_, fun _ _ _ _ h => absurd h Program.emits_done, fun path r h => ?_⟩
    · simp [(Program.reaches_done.mp h).left, fetches]
    · cases (Program.reaches_done.mp h).right
      exact .inr ⟨_, rfl, fun _ _ => nofun⟩
  case some start =>
    have hDownload : download = fetchFrom evidenceTtlMs opts start 0 := by
      simp only [download, workersFetchJson, hUrl]
    rw [hDownload]
    refine ⟨fun path q h => fetchFrom_fetches (Nat.zero_le _) h, fun path target _ _ h => ?_,
      fun path r h => ?_⟩
    · have ⟨hPermitted, hManual, hRedirected⟩ := fetchFrom_emits h
      exact ⟨hPermitted, hManual, start, rfl, hRedirected⟩
    · cases fetchFrom_done h
      case inl h =>
        have ⟨v, hr, hSucceeds⟩ := h
        exact .inl ⟨v, start, hr, rfl, hSucceeds⟩
      case inr h =>
        have ⟨e, hr, hFails⟩ := h
        exact .inr ⟨e, hr, fun v start' hStart => Option.some.inj hStart ▸ hFails v⟩

-- A download of `https://a.example/` that is answered at once.
namespace Sample

def url : URL :=
  ⟨"https:", [], [], "a.example", "/", [], []⟩

@[reducible]
def platform : Platform JsString where
  newUrl text _  := if text = "https://a.example/" then some url else none
  href _         := "https://a.example/"
  parseJson text := if text = "null" then some text else none

def options : Options where
  allowedHost := some (ofString "a.example")

def response : Response Unit :=
  ⟨200, none, ()⟩

def path : Path Unit :=
  [fetched url (.ok response), ⟨.readBoundedBody response defaultMaxResponseBytes,
    .ok [0x6E, 0x75, 0x6C, 0x6C]⟩, ⟨.now, 5⟩]

end Sample

attribute [local instance] Sample.platform

theorem sample_permitted : Permitted Sample.options Sample.url := by
  refine ⟨rfl, fun allowed h _ => .inl ?_⟩
  cases h
  decide

theorem sample_reaches :
    (fetchFrom 7 Sample.options Sample.url 0 : Handler Unit (Fetched JsString)).Reaches Sample.path
      (.done (.ok ⟨"null", 12, [ofString "a.example"]⟩)) := by
  have ⟨k, hk, hAnswered⟩ := @fetchFrom_permitted Unit JsString _ 7 _ _ 0 sample_permitted
  rw [hk]
  refine .call ?_
  rcases hAnswered (.ok Sample.response) with ⟨_, ⟨_, ⟨⟩, h, _⟩, _⟩ | ⟨_, ⟨⟩, _, hRead⟩ | ⟨_, _, h⟩
  · exact absurd h (by decide)
  · exact hRead ▸ .call (.call .here)
  · exact absurd rfl (h Sample.response rfl)

theorem evidence_bounded_sample :
    fetches Sample.path ≤ 6 ∧ Permitted Sample.options Sample.url ∧
    ∃ v start, (⟨"null", 12, [ofString "a.example"]⟩ : Fetched JsString) = v ∧
      Platform.newUrl JsString "https://a.example/" none = some start ∧
      Succeeds 7 Sample.options start Sample.path v := by
  have hDownload : (workersFetchJson 7 "https://a.example/" Sample.options :
      Handler Unit (Fetched JsString)) = fetchFrom 7 Sample.options Sample.url 0 := rfl
  have ⟨_, hFetches, hEmits, hDone⟩ := @evidence_bounded Unit JsString _ 7 "https://a.example/"
    Sample.options
  rw [hDownload] at hFetches hEmits hDone
  have hEmitted : (fetchFrom 7 Sample.options Sample.url 0 : Handler Unit (Fetched JsString)).Emits []
      (.fetch Sample.url "manual" "application/json") := by
    have ⟨k, hk, _⟩ := @fetchFrom_permitted Unit JsString _ 7 _ _ 0 sample_permitted
    exact ⟨k, hk ▸ .here⟩
  refine ⟨hFetches _ _ sample_reaches, (hEmits _ _ _ _ hEmitted).left, ?_⟩
  cases hDone _ _ sample_reaches
  case inl h =>
    have ⟨v, start, hv, h⟩ := h
    exact ⟨v, start, Except.ok.inj hv, h⟩
  case inr h =>
    have ⟨_, he, _⟩ := h
    cases he

end Workers.FetchJson
