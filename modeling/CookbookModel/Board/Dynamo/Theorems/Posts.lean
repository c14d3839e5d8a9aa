import CookbookModel.Board.Dynamo.Theorems.Runs

namespace Board.Dynamo

open GoString DynamoDB

section

variable [Platform]

-- How a post comes to succeed.
inductive Posts (actor : Identity) (input : PostInput) :
    List (Σ o, Op.Res o) → PostResult → Prop
  | posted {roomKey : GoString}
      (hRoom : normalizeRoomID input.roomID = .ok roomID) (hKey : roomKey = Base64.encode roomID)
      (hStored : ⟨.transactWriteItems (postTxn roomKey actor input
        (idempotencyItem roomKey actor.agent input messageID nowText)
        (messageItem roomID roomKey actor.agent input messageID nowText)), .ok ()⟩ ∈ path) :
    Posts actor input path
      ⟨messageFromItem (messageItem roomID roomKey actor.agent input messageID nowText), false⟩
  | replayed {roomKey : GoString} {idem message : DdbItem}
      (hRoom : normalizeRoomID input.roomID = .ok roomID) (hKey : roomKey = Base64.encode roomID)
      (hRead : ⟨.getItem ⟨roomPK roomKey, idempotencySK actor.agent input.idempotencyKey⟩, r⟩ ∈ path)
      (hIdem : itemRead r = .ok idem) (hHash : idem.requestHash = input.requestHash)
      (hRead' : ⟨.getItem ⟨roomPK roomKey, messageSK idem.messageID⟩, r'⟩ ∈ path)
      (hMessage : itemRead r' = .ok message) :
    Posts actor input path ⟨messageFromItem message, true⟩

section

variable {actor : Identity} {input : PostInput} {path : List (Σ o, Op.Res o)} {result : PostResult}
  {roomKey : GoString}

omit [Platform] in
theorem returns_validated_bind {f : α → StoreM β} :
    (validated x >>= f).Returns path b ↔ ∃ a, x = .ok a ∧ (f a).Returns path b := by
  cases x <;> simp [validated]

attribute [local simp]
  returns_validated_bind Program.returns_call Program.returns_done_bind Program.returns_throwIf_bind
  now_eq ulid_eq getItem_eq transactWriteItems_eq

omit [Platform] in
theorem classify_returns :
    ¬(classifyPostConditionConflict actor roomKey version).Returns path u := by
  intro h
  simp [classifyPostConditionConflict] at h
  obtain ⟨_, _, _, h⟩ := h
  split at h <;> simp at h
  obtain ⟨_, _, _, _, h⟩ := h
  split at h <;> simp at h

omit [Platform] in
theorem replayPost_returns (h : (replayPost actor input roomKey idem).Returns path result) :
    ∃ r message, ⟨.getItem ⟨roomPK roomKey, messageSK idem.messageID⟩, r⟩ ∈ path ∧
      itemRead r = .ok message ∧ idem.requestHash = input.requestHash ∧
      result = ⟨messageFromItem message, true⟩ := by
  simp [replayPost, guardPostAuthorization] at h
  obtain ⟨_, _, rfl, h⟩ := h
  split at h
  case h_1 =>
    split at h
    case isTrue =>
      obtain ⟨_, _, _, _, h, _⟩ := Program.returns_bind.mp h
      exact absurd h classify_returns
    case isFalse => simp at h
  case h_2 =>
    simp at h
    obtain ⟨hHash, r, rfl, message, hMessage, rfl⟩ := h
    exact ⟨r, message, by simp, hMessage, hHash, rfl⟩

theorem postMessage_returns (h : (postMessage actor input).Returns path result) :
    Posts actor input path result := by
  simp [postMessage] at h
  obtain ⟨roomID, hRoom, _, r, path, rfl, h⟩ := h
  rw [roomKeyOf_normalized hRoom] at h ⊢
  split at h <;> try simp at h
  case h_1 idem hIdem =>
    obtain ⟨r', message, hRead, hMessage, hHash, rfl⟩ := replayPost_returns h
    exact .replayed hRoom rfl List.mem_cons_self hIdem hHash (List.mem_cons_of_mem _ hRead) hMessage
  case h_2 =>
    obtain ⟨t, u, r', path, rfl, h⟩ := h
    split at h
    case h_1 hr =>
      cases r' <;> cases hr
      simp at h
      obtain ⟨rfl, rfl⟩ := h
      exact .posted hRoom rfl (by simp)
    case h_2 =>
      simp at h
      obtain ⟨_, path, rfl, h⟩ := h
      split at h <;> try simp at h
      case h_1 idem hIdem =>
        obtain ⟨r', message, hRead, hMessage, hHash, rfl⟩ := replayPost_returns h
        exact .replayed hRoom rfl (by simp) hIdem hHash (by simp [hRead]) hMessage
      case h_2 =>
        obtain ⟨_, _, _, _, h, _⟩ := Program.returns_bind.mp h
        exact absurd h classify_returns
    case h_3 => simp at h

end

-- The items that only posts write.
def BoardKey.IsPost : BoardKey → Prop
  | .message .. | .idempotency .. => True
  | _                             => False

-- The idempotency items of a room and its messages, whose authors have no `#` in their names, lead
-- to each other.
structure Paired (items : BoardKey → Option DdbItem) : Prop where
  message : ∀ {roomKey id : GoString} {m : DdbItem}, items (.message roomKey id) = some m →
    0x23 ∉ m.author ∧
    ∃ i, items (.idempotency roomKey (m.author ++ "#" ++ m.idempotencyKey)) = some i ∧
      i.messageID = id
  entry   : ∀ {roomKey entry : GoString} {i : DdbItem},
    items (.idempotency roomKey entry) = some i →
      ∃ m, items (.message roomKey i.messageID) = some m ∧
        m.author ++ "#" ++ m.idempotencyKey = entry ∧ m.requestHash = i.requestHash

section Commit

variable {limits : Limits} {B B' : Contents} {c : Call} {path : List (Σ o, Op.Res o)}
  {items : List TransactWriteItem} {roomKey : GoString} {k : BoardKey} {d : DdbItem}

omit [Platform] in
theorem Paired.congr {items items' : BoardKey → Option DdbItem} (h : Paired items)
    (hk : ∀ k : BoardKey, k.IsPost → items' k = items k) : Paired items' where
  message hm := by
    rw [hk (.message _ _) trivial] at hm
    have ⟨hAuthor, i, hi, hID⟩ := h.message hm
    exact ⟨hAuthor, i, (hk (.idempotency _ _) trivial).trans hi, hID⟩
  entry hi := by
    rw [hk (.idempotency _ _) trivial] at hi
    have ⟨m, hm, he⟩ := h.entry hi
    exact ⟨m, (hk (.message _ _) trivial).trans hm, he⟩

attribute [local simp] GoMap.get_set GoMap.get_delete

-- The contents with the items of a post.
def posted (B : Contents) (actor : Identity) (input : PostInput) (id nowText : GoString) : Contents :=
  let roomKey := Base64.encode input.roomID
  (B.set (.idempotency roomKey (actor.agent ++ "#" ++ input.idempotencyKey))
    (idempotencyItem roomKey actor.agent input id nowText)).set (.message roomKey id)
    (messageItem input.roomID roomKey actor.agent input id nowText)

-- Only a post that writes touches the items of posts.
theorem Commit.posts (hc : Commit limits B c path items B') :
    (∀ k : BoardKey, k.IsPost → B'[k]? = B[k]?) ∧
      (∀ actor input, c = .postMessage actor input → items.any (·.writes) = false) ∨
    ∃ actor input id nowText, c = .postMessage actor input ∧
      B[BoardKey.idempotency (Base64.encode input.roomID)
        (actor.agent ++ "#" ++ input.idempotencyKey)]? = none ∧
      B[BoardKey.message (Base64.encode input.roomID) id]? = none ∧
      B' = posted B actor input id nowText := by
  cases hc
  case post hRoom hKey _ _ _ _ _ hNew hNewMessage _ =>
    cases normalizeRoomID_ok hRoom
    subst hKey
    exact .inr ⟨_, _, _, _, rfl, hNew, hNewMessage, rfl⟩
  case guard hWrites => exact .inl ⟨fun _ _ => rfl, fun _ _ _ => hWrites⟩
  case revoke =>
    exact .inl ⟨fun k hk => by cases k <;> cases hk <;> split_ifs <;> simp, by simp⟩
  case setNickname =>
    exact .inl ⟨fun k hk => by cases k <;> cases hk <;> split_ifs <;> simp, by simp⟩
  all_goals exact .inl ⟨fun k hk => by cases k <;> cases hk <;> simp, by simp⟩

section

variable {actor : Identity} {input : PostInput} {id nowText : GoString}

omit [Platform] in
theorem posted_message :
    (posted B actor input id nowText)[BoardKey.message (Base64.encode input.roomID) id]? =
      some (messageItem input.roomID (Base64.encode input.roomID) actor.agent input id nowText) :=
  GoMap.get_set_self

omit [Platform] in
theorem posted_idempotency :
    (posted B actor input id nowText)[BoardKey.idempotency (Base64.encode input.roomID)
      (actor.agent ++ "#" ++ input.idempotencyKey)]? =
      some (idempotencyItem (Base64.encode input.roomID) actor.agent input id nowText) :=
  (GoMap.get_set_ne (by simp)).trans GoMap.get_set_self

omit [Platform] in
theorem posted_item (hk : k.IsPost) (hd : B[k]? = some d)
    (hNew : B[BoardKey.idempotency (Base64.encode input.roomID)
      (actor.agent ++ "#" ++ input.idempotencyKey)]? = none)
    (hNewMessage : B[BoardKey.message (Base64.encode input.roomID) id]? = none) :
    (posted B actor input id nowText)[k]? = some d := by
  simp only [posted]
  rw [GoMap.get_set_ne, GoMap.get_set_ne, hd]
  · rintro rfl
    cases hd.symm.trans hNew
  · rintro rfl
    cases hd.symm.trans hNewMessage

end

-- What a post has written stays as it is.
theorem Commit.keeps (hc : Commit limits B c path items B') (hk : k.IsPost) (hd : B[k]? = some d) :
    B'[k]? = some d := by
  rcases hc.posts with ⟨hSame, _⟩ | ⟨actor, input, id, nowText, _, hNew, hNewMessage, rfl⟩
  case inl => rw [hSame k hk, hd]
  case inr => exact posted_item hk hd hNew hNewMessage

theorem Commit.paired (hc : Commit limits B c path items B') (h : Paired (B[·]?))
    (hActor : ∀ actor ∈ c.actor?, 0x23 ∉ actor.agent) : Paired (B'[·]?) := by
  rcases hc.posts with ⟨hSame, _⟩ | ⟨actor, input, id, nowText, rfl, hNew, hNewMessage, rfl⟩
  case inl => exact h.congr hSame
  case inr =>
    have hOld {k : BoardKey} {d : DdbItem} (hk : k.IsPost) (hd : B[k]? = some d) :
        (posted B actor input id nowText)[k]? = some d :=
      posted_item hk hd hNew hNewMessage
    constructor
    case message =>
      intro roomKey id' m hm
      simp only [posted, GoMap.get_set, reduceCtorEq, if_false] at hm
      split at hm
      case isTrue he =>
        cases he
        cases hm
        exact ⟨hActor _ rfl, _, posted_idempotency, rfl⟩
      case isFalse =>
        have ⟨hAuthor, i, hi, hID⟩ := h.message hm
        exact ⟨hAuthor, i, hOld trivial hi, hID⟩
    case entry =>
      intro roomKey entry i hi
      simp only [posted, GoMap.get_set, reduceCtorEq, if_false] at hi
      split at hi
      case isTrue he =>
        cases he
        cases hi
        exact ⟨_, posted_message, rfl, rfl⟩
      case isFalse =>
        have ⟨m, hm, he⟩ := h.entry hi
        exact ⟨m, hOld trivial hm, he⟩

end Commit

section Runs

variable {limits : Limits} {tr : List (system limits).Event} {C : (system limits).Config}
  {e : (system limits).Event} {actor : Identity} {input : PostInput}

-- The actors of all calls are canonical.
def Authentic (tr : List (system limits).Event) : Prop :=
  ∀ e ∈ tr, ∀ actor, e.call.actor? = some actor → canonicalDNSName actor.agent = .ok actor.agent

-- The message is stored under the author and the idempotency key of a post, with its request hash.
def Recorded
    (stored : BoardKey → Option DdbItem) (actor : Identity) (input : PostInput) (m : DdbItem) :
    Prop :=
  ∃ i, stored (.idempotency (Base64.encode input.roomID)
      (actor.agent ++ "#" ++ input.idempotencyKey)) = some i ∧
    i.requestHash = input.requestHash ∧
    stored (.message (Base64.encode input.roomID) i.messageID) = some m ∧
    m.author = actor.agent ∧ m.idempotencyKey = input.idempotencyKey

theorem run_paired (h : (system limits).Run tr C) (hAuth : Authentic tr) :
    Paired (stored C.store) := by
  have ⟨B, hRep, hB⟩ := run_contents (I := fun tr B => Authentic tr → Paired (B[·]?))
    (fun _ => by constructor <;> simp)
    (fun h _ _ hAuth => h fun e he => hAuth e (List.mem_append_left _ he))
    (fun {tr e _ _ _} h _ _ _ hCommit hAuth =>
      have hPaired := h fun e he => hAuth e (List.mem_append_left _ he)
      hCommit.paired hPaired fun actor ha => canonicalDNSName_no_hash <|
        hAuth e (by simp) actor ha) h
  have hStored : stored C.store = (B[·]?) := funext (stored_eq hRep)
  exact hStored ▸ hB hAuth

theorem run_keeps {k : BoardKey} (h : (system limits).Run tr C) (he : e ∈ tr) (hk : k.IsPost)
    (hd : stored e.store k = some d ∨ stored e.post k = some d) : stored C.store k = some d := by
  have ⟨B, hRep, hB⟩ := run_contents
    (I := fun tr B => ∀ e ∈ tr, stored e.store k = some d ∨ stored e.post k = some d →
      B[k]? = some d)
    (by simp)
    (fun {tr e B} h hRep hn e' he' hd => by
      cases List.mem_append.mp he'
      case inl he' => exact h e' he' hd
      case inr he' =>
        cases List.mem_singleton.mp he'
        have hT : e.post = e.store := committed_none hn
        rw [←hT, or_self] at hd
        exact (stored_eq hRep k).symm.trans hd)
    (fun {tr e B _ B'} h hRep hRep' _ hCommit e' he' hd => by
      cases List.mem_append.mp he'
      case inl he' => exact hCommit.keeps hk (h e' he' hd)
      case inr he' =>
        cases List.mem_singleton.mp he'
        cases hd
        case inl hd => exact hCommit.keeps hk <| (stored_eq hRep k).symm.trans hd
        case inr hd => exact (stored_eq hRep' k).symm.trans hd) h
  exact (stored_eq hRep k).trans <| hB e he hd

-- What a post writes is found in every later state.
theorem recorded_of_posted {B : Contents} {id nowText : GoString} (h : (system limits).Run tr C)
    (he : e ∈ tr) (hRep : Represents e.post (posted B actor input id nowText)) :
    Recorded (stored C.store) actor input
      (messageItem input.roomID (Base64.encode input.roomID) actor.agent input id nowText) := by
  have hi := (stored_eq hRep _).trans posted_idempotency
  have hm := (stored_eq hRep _).trans posted_message
  exact ⟨_, run_keeps h he trivial (.inr hi), rfl, run_keeps h he trivial (.inr hm), rfl, rfl⟩

theorem event_stores (h : (system limits).Run tr C) (he : e ∈ tr)
    (hCall : e.call = .postMessage actor input)
    (hc : committed e.op e.outcome e.store = some items) (hWrites : items.any (·.writes)) :
    ∃ m, Recorded (stored C.store) actor input m := by
  have ⟨B, hRep⟩ := event_represents h he
  have ⟨tr₁, tr₂, hTr⟩ := List.mem_iff_append.mp he
  cases step_commit hRep (h.event_emits hTr)
  case inl hn => cases hc.symm.trans hn.left
  case inr hCommit =>
    have ⟨items', B', hc', hCommit, hRep'⟩ := hCommit
    cases hc.symm.trans hc'
    rcases hCommit.posts with ⟨_, hn⟩ | ⟨_, _, id, nowText, hCall', _, _, rfl⟩
    case inl => simp [hn _ _ hCall] at hWrites
    case inr =>
      cases hCall.symm.trans hCall'
      exact ⟨_, recorded_of_posted h he hRep'⟩

theorem post_returns {i : Nat} {result : PostResult} (h : (system limits).Run tr C) (hAuth : Authentic tr)
    (ht : C.threads[i]? = some ⟨.postMessage actor input, .done (.ok (.posted result))⟩) :
    ∃ m, Recorded (stored C.store) actor input m ∧ result.message = messageFromItem m := by
  have hReaches := h.reaches ht
  obtain ⟨_, hReturns, he⟩ := Program.returns_bind_pure.mp hReaches
  cases he
  cases postMessage_returns hReturns
  case posted hRoom hKey hStored =>
    cases normalizeRoomID_ok hRoom
    subst hKey
    obtain ⟨e, he, hT⟩ := path_transact hStored
    obtain ⟨B, hRep⟩ := event_represents h he
    obtain ⟨_, hRep'⟩ := hRep.transact BoardKey.key_injective (realizes_post _) hT
    simp only [postRules, Rules.apply, Rule.create, Rule.check, actorRule, roomOpenRule,
      List.foldl_cons, List.foldl_nil, id, GoMap.store_get, GoMap.store_some] at hRep'
    exact ⟨_, recorded_of_posted h he hRep', rfl⟩
  case replayed idem message hRoom hKey hIdem hHash hMessage hRead hRead' =>
    cases normalizeRoomID_ok hRoom
    subst hKey
    have hKey : (⟨roomPK (Base64.encode input.roomID),
        idempotencySK actor.agent input.idempotencyKey⟩ : Key) =
        (BoardKey.idempotency (Base64.encode input.roomID)
          (actor.agent ++ "#" ++ input.idempotencyKey)).key := by
      simp [idempotencySK, BoardKey.key]
    obtain ⟨e, he, hi⟩ := path_read (hKey ▸ hRead) hIdem
    obtain ⟨e', he', hm⟩ := path_read (k := .message _ _) hRead' hMessage
    have hi := run_keeps (k := .idempotency _ _) h he trivial (.inl hi)
    have hm := run_keeps (k := .message _ _) h he' trivial (.inl hm)
    refine ⟨message, ⟨idem, hi, hHash, hm, ?_⟩, rfl⟩
    have hPaired := run_paired h hAuth
    obtain ⟨m', hm', hEntry, _⟩ := hPaired.entry hi
    cases hm.symm.trans hm'
    -- The entry was written for this author and key, as neither author has a `#` in its name.
    obtain ⟨_, hOp, hThread, _⟩ := System.mem_path hRead
    obtain ⟨t, ht', hCall⟩ := h.thread_call hOp
    cases ht.symm.trans (hThread ▸ ht')
    have hActor := canonicalDNSName_no_hash <| hAuth _ hOp actor (by rw [←hCall]; rfl)
    exact entryKey_inj (hPaired.message hm).left hActor hEntry

-- What callers rely on when they repeat a post under its idempotency key.
structure ExactlyOnce (tr : List (system limits).Event) (C : (system limits).Config) : Prop where
  unique  : ∀ {roomKey id id' : GoString} {m m' : DdbItem},
    stored C.store (.message roomKey id) = some m →
    stored C.store (.message roomKey id') = some m' →
    m.author = m'.author → m.idempotencyKey = m'.idempotencyKey → id = id'
  kept    : ∀ e ∈ tr, ∀ {k d}, BoardKey.IsPost k → stored e.post k = some d →
    stored C.store k = some d
  pointed : ∀ {roomKey id : GoString} {m : DdbItem}, stored C.store (.message roomKey id) = some m →
    ∃! entry, ∃ i, stored C.store (.idempotency roomKey entry) = some i ∧ i.messageID = id
  stores  : ∀ e ∈ tr, ∀ {actor input items}, e.call = .postMessage actor input →
    committed e.op e.outcome e.store = some items → items.any (·.writes) →
    ∃ m, Recorded (stored C.store) actor input m
  returns : ∀ t ∈ C.threads, ∀ {actor input result}, t.call = .postMessage actor input →
    t.rest = .done (.ok (.posted result)) →
    ∃ m, Recorded (stored C.store) actor input m ∧ result.message = messageFromItem m
  refused : ∀ {actor : Identity} {input : PostInput} {i},
    stored C.store (.idempotency (Base64.encode input.roomID)
      (actor.agent ++ "#" ++ input.idempotencyKey)) = some i →
    i.requestHash ≠ input.requestHash →
    (∀ e ∈ tr, e.call = .postMessage actor input →
      ∀ items ∈ committed e.op e.outcome e.store, items.any (·.writes) = false) ∧
    ∀ t ∈ C.threads, t.call = .postMessage actor input →
      ∀ result, t.rest ≠ .done (.ok (.posted result))

omit [Platform] in
theorem Recorded.hash {stored : BoardKey → Option DdbItem} (h : Recorded stored actor input m)
    (hi : stored (.idempotency (Base64.encode input.roomID)
      (actor.agent ++ "#" ++ input.idempotencyKey)) = some i) :
    i.requestHash = input.requestHash := by
  have ⟨i', hi', hHash, _⟩ := h
  cases hi.symm.trans hi'
  exact hHash

-- However posts, their repetitions and other calls interleave, and whichever answers are lost, each
-- author's idempotency key leads to one message.
theorem post_once (h : (system limits).Run tr C) (hAuth : Authentic tr) : ExactlyOnce tr C where
  unique hm hm' hAuthor hKey := by
    have hPaired := run_paired h hAuth
    have ⟨_, i, hi, hID⟩ := hPaired.message hm
    have ⟨_, i', hi', hID'⟩ := hPaired.message hm'
    rw [hAuthor, hKey] at hi
    cases hi.symm.trans hi'
    exact hID.symm.trans hID'
  kept e he _ _ hk hd := run_keeps h he hk (.inr hd)
  pointed hm := by
    have hPaired := run_paired h hAuth
    have ⟨_, i, hi, hID⟩ := hPaired.message hm
    refine ⟨_, ⟨i, hi, hID⟩, fun entry ⟨i', hi', hID'⟩ => ?_⟩
    have ⟨m', hm', hEntry, _⟩ := hPaired.entry hi'
    rw [hID'] at hm'
    cases hm.symm.trans hm'
    exact hEntry.symm
  stores e he _ _ _ hCall hc hWrites := event_stores h he hCall hc hWrites
  returns t ht actor input result hCall hRest := by
    have ⟨i, ht⟩ := List.getElem?_of_mem ht
    obtain ⟨_, _⟩ := t
    cases hCall
    cases hRest
    exact post_returns h hAuth ht
  refused {actor input i} hi hne := by
    constructor
    case left =>
      intro e he hCall items hc
      by_contra hWrites
      have ⟨_, hRecorded⟩ := event_stores h he hCall hc (by simpa using hWrites)
      exact hne <| hRecorded.hash hi
    case right =>
      intro t ht hCall result hRest
      have ⟨_, ht⟩ := List.getElem?_of_mem ht
      obtain ⟨_, _⟩ := t
      cases hCall
      cases hRest
      have ⟨_, hRecorded, _⟩ := post_returns h hAuth ht
      exact hne <| hRecorded.hash hi

end Runs

end

section

attribute [local instance] asciiPlatform

-- Alice's post is stored, but she sees an error and posts again.
def lostAnswer : List (System.Action Outcome Call) :=
  moves 0 Sample.create 3 ++
  moves 1 (Sample.post Sample.alice "k" 1) 3 ++
  [.step 1 ⟨.zero, [], .lost (.other "timeout")⟩] ++
  moves 2 (Sample.post Sample.alice "k" 1) 3

def answersReplay : Except Err Reply → Bool
  | .ok (.posted ⟨_, true⟩) => true
  | _                       => false

theorem post_once_retried : ∃ tr C, (system ⟨50, 100⟩).Run tr C ∧ Authentic tr ∧
    (∃ message, C.returned 2 = some (.ok (.posted ⟨message, true⟩))) ∧ ExactlyOnce tr C := by
  have h : ((system ⟨50, 100⟩).replay [] ⟨(system ⟨50, 100⟩).init, []⟩ lostAnswer).any fun x =>
      (x.1.all fun e => e.call.actor?.all fun actor =>
        canonicalDNSName actor.agent = .ok actor.agent) ∧
      (x.2.returned 2).any answersReplay := by
    decide
  obtain ⟨⟨tr, C⟩, hr, h⟩ := (Option.any_eq_true _ _).mp h
  obtain ⟨hAuth, hResult⟩ := of_decide_eq_true h
  have hRun := System.replay_run .init hr
  have hAuth : Authentic tr := fun e he actor ha => by
    have h := List.all_eq_true.mp hAuth e he
    simpa [ha] using h
  obtain ⟨r, hReturned, hReplay⟩ := (Option.any_eq_true _ _).mp hResult
  obtain ⟨message, hMessage⟩ : ∃ message, r = .ok (.posted ⟨message, true⟩) := by
    rw [answersReplay.eq_def] at hReplay
    split at hReplay
    case h_1 message => exact ⟨message, rfl⟩
    case h_2         => cases hReplay
  exact ⟨tr, C, hRun, hAuth, ⟨message, hMessage ▸ hReturned⟩, post_once hRun hAuth⟩

end

end Board.Dynamo
