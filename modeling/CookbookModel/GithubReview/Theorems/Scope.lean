import CookbookModel.GithubReview.Bot

namespace GithubReview

open PyString PyItems
open Json (isDigit)

section Targets

variable {s : PyString} {t t' : Target}

-- What the pattern lets through
structure Target.Valid (t : Target) : Prop where
  digits  : t.number.all isDigit
  leading : t.number.head?.any (· ≠ 0x30)
  owner   : t.owner.all isNameChar
  ownerNe : t.owner ≠ []
  repo    : t.repo.all isNameChar
  repoNe  : t.repo ≠ []

def Target.text (t : Target) : PyString :=
  "Review PR #" ++ (t.number ++ (ofString " in " ++ (t.owner ++ 0x2F :: t.repo)))

theorem takeWhile_before {p : CodePoint → Bool} {l rest : PyString} (h : l.all p)
    (hn : ∀ c ∈ rest.head?, p c = false) :
    (l ++ rest).takeWhile p = l ∧ (l ++ rest).dropWhile p = rest := by
  have hAll := List.all_eq_true.mp h
  rw [List.takeWhile_append_of_pos hAll, List.dropWhile_append_of_pos hAll]
  cases rest <;> simp_all

theorem fullmatch_text (h : t.Valid) : fullmatch t.text = some t := by
  have hBlank :
      ∀ c ∈ (ofString " in " ++ (t.owner ++ 0x2F :: t.repo)).head?, isDigit c = false := by
    change ∀ c ∈ (0x20 :: (ofString "in " ++ (t.owner ++ 0x2F :: t.repo)) : PyString).head?, _
    simp only [List.head?_cons, Option.mem_some_iff, forall_eq']
    decide
  have hSlash : ∀ c ∈ (0x2F :: t.repo : PyString).head?, isNameChar c = false := by
    simp only [List.head?_cons, Option.mem_some_iff, forall_eq']
    decide
  obtain ⟨hNumber, hNumber'⟩ := takeWhile_before h.digits hBlank
  obtain ⟨hOwner, hOwner'⟩ := takeWhile_before h.owner hSlash
  have hSkip {start s : PyString} : start.isPrefixOf? (start ++ s) = some s :=
    List.isPrefixOf?_eq_some_iff_append_eq.mpr rfl
  simp only [fullmatch, Target.text, hSkip, Option.bind_eq_bind, Option.bind_some, hNumber,
    hNumber', hOwner, hOwner']
  rw [show (0x2F :: t.repo : PyString) = [0x2F] ++ t.repo from rfl, hSkip, Option.bind_some,
    if_pos ⟨h.leading, h.ownerNe, h.repoNe, h.repo⟩]

theorem fullmatch_sound (h : fullmatch s = some t) : t.Valid ∧ s = t.text := by
  simp only [fullmatch, Option.bind_eq_bind, Option.bind_eq_some_iff,
    Option.ite_none_right_eq_some, List.isPrefixOf?_eq_some_iff_append_eq, Option.some.injEq] at h
  obtain ⟨s₁, h₁, s₂, h₂, repo, h₃, ⟨hLeading, hOwnerNe, hRepoNe, hRepo⟩, rfl⟩ := h
  refine ⟨⟨List.all_takeWhile, hLeading, List.all_takeWhile, hOwnerNe, hRepo, hRepoNe⟩, ?_⟩
  have hOwner := List.takeWhile_append_dropWhile (p := isNameChar) (l := s₂)
  have hNumber := List.takeWhile_append_dropWhile (p := isDigit) (l := s₁)
  rw [h₃.symm.trans (List.singleton_append)] at hOwner
  rw [Target.text, hOwner, h₂, hNumber, h₁]

-- A prompt is a request for a review exactly if it is the text of a target.
theorem fullmatch_iff : fullmatch s = some t ↔ t.Valid ∧ s = t.text where
  mp    := fullmatch_sound
  mpr h := h.right ▸ fullmatch_text h.left

example : fullmatch "ignore this; Review PR #99 in other/repo" = none := by
  decide

end Targets

-- The requests of a review: all of them are about its pull request, comments end with who has made
-- them, and tokens and audits go where the environment says.
def Concerns (env : Environment) (owner repo : PyString) (number : Nat) : Op → Prop
  | .githubIntegration                      => True
  | .getRepoInstallation owner' repo'       => owner' = owner ∧ repo' = repo
  | .getAccessToken _                       => True
  | .getPull _ name number'                 => name = fullName owner repo ∧ number' = number
  | .getFiles _ name number'                => name = fullName owner repo ∧ number' = number
  | .createIssueComment _ name number' body =>
    name = fullName owner repo ∧ number' = number ∧ attribution env <:+ body
  | .mintDnsidToken audience domain _ _     =>
    domain = strip (environ env.botDomain) ∧
    audience = if gatewayUrl env ≠ [] then strip (environ env.reviewGatewayAudience)
      else environ env.auditEndpoint
  | .postAudit endpoint url _ _             =>
    endpoint = environ env.auditEndpoint ∧ url = prUrl owner repo number
  | .callToolSync gateway url _ _           =>
    gateway = gatewayUrl env ∧ url = prUrl owner repo number

section Requests

open Program

variable {P : Op → Prop} {o : Op} {env : Environment} {owner repo text : PyString} {number : Nat}

theorem request_always (h : P o) : (request o).Always P := by
  rw [request, perform_bind]
  exact ⟨h, fun _ => trivial⟩

theorem githubClient_always :
    (githubClient owner repo).Always (Concerns env owner repo number) := by
  refine (request_always trivial).bind fun _ => ?_
  exact (request_always ⟨rfl, rfl⟩).bind fun _ => request_always trivial

theorem githubError_always (e : Raised) : (githubError e).Always P := by
  cases e <;> trivial

theorem auditError_always (e : Raised) : (auditError e).Always P := by
  cases e <;> trivial

theorem getDnsidToken_always (h : ∀ server configDir,
    P (.mintDnsidToken text (strip (environ env.botDomain)) server configDir)) :
    (getDnsidToken env text).Always P :=
  Always.throwIf_bind <| request_always <| h _ _

theorem getPrDiff_always :
    (getPrDiff owner repo number).Always (Concerns env owner repo number) := by
  refine githubClient_always.bind fun gh => Always.handle ?_ githubError_always
  refine (request_always ⟨rfl, rfl⟩).bind fun pr => ?_
  exact (request_always ⟨rfl, rfl⟩).bind fun _ => trivial

theorem getPrMetadata_always :
    (getPrMetadata owner repo number).Always (Concerns env owner repo number) := by
  refine githubClient_always.bind fun gh => Always.handle ?_ githubError_always
  exact (request_always ⟨rfl, rfl⟩).bind fun _ => trivial

theorem postReviewComment_always :
    (postReviewComment env owner repo number text).Always (Concerns env owner repo number) := by
  refine githubClient_always.bind fun gh => Always.handle ?_ githubError_always
  refine (request_always ⟨rfl, rfl⟩).bind fun _ => ?_
  exact (request_always ⟨rfl, rfl, List.suffix_append _ _⟩).bind fun _ => trivial

theorem auditReview_always : (auditReview env (prUrl owner repo number) text).Always
    (Concerns env owner repo number) := by
  unfold auditReview
  split
  case isTrue hGateway =>
    refine Always.throwIf_bind <| Always.bind ?_ fun _ => Always.handle ?_ fun _ => trivial
    case refine_1 => exact getDnsidToken_always fun _ _ => ⟨rfl, (if_pos hGateway).symm⟩
    case refine_2 => exact (request_always ⟨rfl, rfl⟩).bind fun _ => trivial
  case isFalse hGateway =>
    split
    case isTrue  => trivial
    case isFalse =>
      refine Always.bind ?_ fun _ => Always.handle ?_ auditError_always
      case refine_1 => exact getDnsidToken_always fun _ _ => ⟨rfl, (if_neg hGateway).symm⟩
      case refine_2 => exact (request_always ⟨rfl, rfl⟩).bind fun _ => trivial

theorem toolsForPr_always (use : ToolUse) :
    (toolsForPr env owner repo number use).Always (Concerns env owner repo number) := by
  cases use
  case fetchPrDiff       => exact getPrDiff_always
  case fetchPrMetadata   => exact getPrMetadata_always
  case postReviewComment => exact postReviewComment_always
  case auditReview       => exact auditReview_always

-- Whatever the model does, it has nothing but its tools.
theorem serve_always {tools : ToolUse → BotM PyString} (h : ∀ use, (tools use).Always P)
    (x : Program ToolUse (fun _ => Except Raised PyString) Raised PyString) :
    (serve tools x).Always P := by
  induction x
  case done          => trivial
  case call use k hi => exact (h use).attempt.bind hi

end Requests

-- The prompt of a payload asks for a review of the target.
def Requests (payload : PyItems Json) (t : Target) : Prop :=
  t.Valid ∧ strip (promptOf payload) = t.text

theorem requests_unique (h : Requests payload t) (h' : Requests payload t') : t = t' :=
  Option.some.inj <| (fullmatch_iff.mpr h).symm.trans (fullmatch_iff.mpr h')

-- A prompt names one pull request or none. Whatever the model is told by that pull request, all it
-- can have requested is about it.
theorem invoke_scoped (env : Environment) (agent : Agent) (payload : PyItems Json) :
    (∃ t, Requests payload t ∧ (∀ t', Requests payload t' → t' = t) ∧
      (invoke env agent payload).Always (Concerns env t.owner t.repo (Json.natural t.number))) ∨
    (∀ t, ¬Requests payload t) ∧
      invoke env agent payload = pure (.error "prompt must be: Review PR #N in owner/repo") := by
  unfold invoke
  cases hMatch : fullmatch (strip (promptOf payload))
  case none =>
    refine .inr ⟨fun t h => ?_, rfl⟩
    rw [fullmatch_iff.mpr h] at hMatch
    contradiction
  case some t =>
    have h : Requests payload t := fullmatch_iff.mp hMatch
    refine .inl ⟨t, h, fun t' h' => requests_unique h' h, ?_⟩
    dsimp only
    rw [int, bind_assoc]
    exact Program.Always.throwIf_bind <| (serve_always toolsForPr_always _).bind fun _ => trivial

end GithubReview
