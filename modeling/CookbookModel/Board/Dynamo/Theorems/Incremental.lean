import CookbookModel.Board.Dynamo.Reader
import CookbookModel.Board.Dynamo.Theorems.Ranges
import CookbookModel.Board.Dynamo.Theorems.Posts

namespace Board.Dynamo

open GoString DynamoDB
open DdbItem (getText_ok unmarshalMap_ok)

section Query

variable {T : Table} {B : Contents}

theorem Stored.sk (h : Stored k item d) : item[ofString "SK"]? = some (.S k.key.sk) := by
  have hSK : d.SK = k.key.sk := congrArg Key.sk h.key
  cases getText_ok.mp (unmarshalMap_ok.mp h.fields).SK
  case inl he => exact hSK ▸ he
  case inr he => exact absurd (hSK.symm.trans he.right) k.sk_ne_nil

-- The messages that a query for them returns.
theorem query_messages (h : Represents T B) (roomKey after : GoString) (limit : Nat) :
    ∃ l : List GoString, l.Pairwise (· < ·) ∧
      (∀ id, id ∈ l ↔ (∃ d, B[BoardKey.message roomKey id]? = some d) ∧ after < id) ∧
      List.Forall₂ (fun id item => ∃ d, B[BoardKey.message roomKey id]? = some d ∧
        DdbItem.unmarshalMap item = .ok d)
        (l.take limit) (T.query (afterQuery roomKey after limit)).items := by
  have hInj : Function.Injective fun id => (BoardKey.message roomKey id).key := by
    intro id id' he
    cases BoardKey.key_injective he
    rfl
  have ⟨l, hSorted, hl, hItems⟩ := Table.query_indexed (T := T)
    (q := afterQuery roomKey after limit) (P := fun id => after < id) hInj
    (fun {id id'} hlt => by
      cases Prod.Lex.toLex_lt_toLex.mp hlt
      case inl hlt => exact messageSK_lt.mp hlt
      case inr he  => exact absurd he.right (lt_irrefl _))
    (fun {key item} hItem => by
      have ⟨k, hk⟩ := h.keys key <| GoMap.mem_keys hItem
      subst hk
      have ⟨_, _, hStored⟩ := stored_of_item h hItem
      exact afterQuery_selects hStored.pk hStored.sk)
  refine ⟨l, hSorted, fun id => (hl id).trans <| and_congr_left fun _ => mem_keys_iff h, ?_⟩
  rw [hItems]
  have hAll : ∀ id ∈ l.take limit, ∃ d, B[BoardKey.message roomKey id]? = some d := fun id hid =>
    (mem_keys_iff h).mp ((hl id).mp <| List.mem_of_mem_take hid).left
  change List.Forall₂ _ (l.take limit) ((l.take limit).filterMap _)
  generalize l.take limit = page at hAll ⊢
  induction page
  case nil => exact .nil
  case cons id ids hi =>
    have ⟨⟨d, hd⟩, hAll⟩ := List.forall_mem_cons.mp hAll
    have ⟨item, hItem, hStored⟩ := item_of_stored h hd
    simp only [List.filterMap_cons, hItem]
    exact .cons ⟨d, hd, hStored.fields⟩ (hi hAll)

end Query

-- The ids of the messages of a room
def messageIDs (B : Contents) (roomKey : GoString) : Set GoString :=
  {id | ∃ d, B[BoardKey.message roomKey id]? = some d}

-- The id of a message is the one it is stored under.
def Identified (B : Contents) : Prop :=
  ∀ (roomKey id : GoString) (d : DdbItem), B[BoardKey.message roomKey id]? = some d →
    d.messageID = id

section

variable [Platform]

section Page

variable {r : Reader} {T : Table} {B : Contents} {page : List Message} {roomID after : GoString}

theorem readMessages_after (hRoom : normalizeRoomID roomID = .ok roomID) (hAfter : after ≠ [])
    (limit : Int) :
    readMessages roomID limit none after =
      .call (.query (afterQuery (Base64.encode roomID) after
        (boundLimit limit defaultMessagesLimit).toNat)) fun
      | .error e => .done (.error (translateDDBError e))
      | .ok out  => Program.done (out.items.mapM DdbItem.unmarshalMap) >>= fun items =>
          .done (.ok (items.map messageFromItem, out.lastEvaluatedKey)) := by
  simp only [readMessages, validated, hRoom, roomKey_normalized hRoom, hAfter, perform,
    Program.pure_eq, Program.ok_bind, Program.perform_bind, Program.throw_eq]
  rw [if_pos hAfter]
  congr 1
  funext out
  cases out <;> rfl

theorem Reader.read_ok (hAfter : r.after ≠ []) (h : r.read limit w T = .ok page) :
    ∃ limit items, 0 < limit ∧
      (T.query (afterQuery (Base64.encode r.roomID) r.after limit)).items.mapM
        DdbItem.unmarshalMap = .ok items ∧ page = items.map messageFromItem := by
  cases hRoom : normalizeRoomID r.roomID
  case error => simp [Reader.read, readMessages, validated, hRoom, Except.map] at h
  case ok roomID =>
    cases normalizeRoomID_ok hRoom
    have hLimit := boundLimit_pos limit defaultMessagesLimit
    rw [Reader.read, readMessages_after hRoom hAfter, Program.run] at h
    generalize boundLimit limit defaultMessagesLimit = limit at h hLimit
    cases hw : w.answer
    case served =>
      simp only [exec, hw, Answer.read] at h
      cases hItems : (T.query (afterQuery (Base64.encode r.roomID) r.after limit.toNat)).items.mapM
        DdbItem.unmarshalMap
      case error => simp [hItems, Except.map] at h
      case ok items =>
        simp only [hItems, Program.ok_bind, Program.run, Except.map, Except.ok.injEq] at h
        exact ⟨_, items, by omega, hItems, h.symm⟩
    case refused | lost => simp [exec, hw, Answer.read, Except.map] at h

omit [Platform] in
theorem mapM_forall₂ {P : ι → α → Prop} {f : β → Except ε α} {is : List ι} {raws : List β}
    (h : List.Forall₂ (fun i raw => ∃ a, P i a ∧ f raw = .ok a) is raws) :
    ∃ items, raws.mapM f = .ok items ∧ List.Forall₂ P is items := by
  induction h
  case nil => exact ⟨[], rfl, .nil⟩
  case cons ha _ hi =>
    have ⟨a, hP, ha⟩ := ha
    have ⟨items, hItems, hAll⟩ := hi
    refine ⟨a :: items, ?_, .cons hP hAll⟩
    rw [List.mapM_cons, ha, hItems]
    rfl

-- A query that DynamoDB serves has a page for an answer.
theorem Reader.read_served (h : Represents T B) (hRoom : normalizeRoomID r.roomID = .ok r.roomID)
    (hAfter : r.after ≠ []) (limit : Int) (hw : w.answer = .served) :
    ∃ page, r.read limit w T = .ok page := by
  have ⟨_, _, _, hRaws⟩ := query_messages h (Base64.encode r.roomID) r.after
    (boundLimit limit defaultMessagesLimit).toNat
  have ⟨items, hItems, _⟩ := mapM_forall₂ hRaws
  rw [Reader.read, readMessages_after hRoom hAfter, Program.run]
  simp [exec, hw, Answer.read, hItems, Except.map]

omit [Platform] in
theorem forall₂_mem {P : ι → α → Prop} {is : List ι} {as : List α} (h : List.Forall₂ P is as) :
    ∀ a ∈ as, ∃ i, P i a := by
  induction h
  case nil          => simp
  case cons hP _ hi => exact List.forall_mem_cons.mpr ⟨⟨_, hP⟩, hi⟩

-- A page has the messages with the least ids after the last one that the reader has received.
theorem Reader.read_page (h : Represents T B) (hID : Identified B) (hAfter : r.after ≠ [])
    (hRead : r.read limit w T = .ok page) :
    Cursor.Page (messageIDs B (Base64.encode r.roomID)) r.after (page.map (·.messageID)) ∧
      ∀ m ∈ page, Posted T r.roomID m := by
  have ⟨n, items, hn, hItems, he⟩ := Reader.read_ok hAfter hRead
  have ⟨l, hSorted, hl, hRaws⟩ := query_messages h (Base64.encode r.roomID) r.after n
  have ⟨_, hItems', hAll⟩ := mapM_forall₂ hRaws
  cases hItems.symm.trans hItems'
  subst he
  constructor
  case left =>
    have hIDs : l.take n = items.map (·.messageID) := by
      rw [←List.forall₂_eq_eq_eq, List.forall₂_map_right_iff]
      exact hAll.imp fun _ _ hd => (hID _ _ _ hd).symm
    rw [List.map_map]
    exact hIDs ▸ Cursor.Page.of_take hSorted hl hn
  case right =>
    intro m hm
    have ⟨d, hd, he⟩ := List.mem_map.mp hm
    have ⟨id, hd⟩ := forall₂_mem hAll d hd
    refine ⟨d, ?_, he.symm⟩
    rw [stored_eq h, ←he, ←hd]
    exact congrArg (B[BoardKey.message _ ·]?) (hID _ _ _ hd)

end Page

section Steps

variable {limits : Limits} {T T' : Table} {B B' : Contents} {c : Call}
  {path : List (Σ o, Op.Res o)} {items : List TransactWriteItem} {roomID id : GoString}

def BoardKey.IsMessage : BoardKey → Prop
  | .message .. => True
  | _           => False

attribute [local simp]
  BoardKey.IsMessage Rule.check Rule.create Rule.modify Rule.remove
  actorRule roomOpenRule roomVersionRule

-- Only posts write messages.
theorem Transacts.rules (hc : Transacts limits c path items) :
    (∃ rules, List.Forall₂ view.Realizes items rules ∧ ∀ r ∈ rules, ¬r.key.IsMessage) ∨
      ∃ roomKey actor input messageID idempotency message, List.Forall₂ view.Realizes items
        (postRules roomKey actor input messageID idempotency message) := by
  cases hc
  case createRoom => exact .inl ⟨_, realizes_createRoom _, by simp [createRoomRules, quotaRule]⟩
  case grant existing _ _ _ hRole _ _ _ _ _ _ =>
    refine .inl ⟨_, realizes_grant existing _ _ <| role_ne_zero hRole, ?_⟩
    cases existing <;> simp [grantRules, grantRoomRule, regrantRule]
  case revoke =>
    refine .inl ⟨_, realizes_revoke _ _, ?_⟩
    unfold revokeRules
    split_ifs <;> simp [revokeMemberRule, revokeRoomRule, deleteNicknameRule]
  case setNickname hNickname _ _ _ =>
    refine .inl ⟨_, realizes_setNickname _ _ <| nicknameKey_ne_nil hNickname, ?_⟩
    unfold setNicknameRules
    split_ifs <;> simp [renameRule, deleteNicknameRule, putNicknameRule]
  case grantGuard => exact .inl ⟨_, realizes_allowlistGuard _ _, by simp [allowlistGuardRules]⟩
  case setNicknameGuard | postGuard =>
    exact .inl ⟨_, realizes_membershipGuard _ _, by simp [membershipGuardRules]⟩
  case post => exact .inr ⟨_, _, _, _, _, _, realizes_post _⟩

-- What a step does to the messages of a room: it leaves them alone, or it posts one with a new id.
inductive Adds (roomID : GoString) (e : (system limits).Event) (B B' : Contents) : Prop
  | none (hSame : messageIDs B' (Base64.encode roomID) = messageIDs B (Base64.encode roomID))
      (hPost : ∀ id, ¬CommitsPost roomID id e)
  | post (id : GoString) (hNew : id ∉ messageIDs B (Base64.encode roomID))
      (hAdd : messageIDs B' (Base64.encode roomID) =
        insert id (messageIDs B (Base64.encode roomID)))
      (hPost : ∀ id', CommitsPost roomID id' e ↔ id' = id)

theorem step_adds {tr : List (system limits).Event} {e : (system limits).Event}
    (h : Represents e.store B)
    (he : (method limits e.call).Emits (System.path e.thread tr) e.op) :
    ∃ B', Represents e.post B' ∧ ∀ roomID, Adds roomID e B B' := by
  cases hc : committed e.op e.outcome e.store
  case none =>
    have hT : e.post = e.store := committed_none hc
    exact ⟨B, hT ▸ h, fun roomID => .none rfl fun id => by simp [CommitsPost, hc]⟩
  case some items =>
    have ⟨ho, hT⟩ := committed_some hc
    have hPost {rules : List (Rule BoardKey DdbItem)}
        (hRules : List.Forall₂ view.Realizes items rules) (roomID id : GoString) :
        CommitsPost roomID id e ↔
          ∃ r ∈ rules, r.key = .message (Base64.encode roomID) id := by
      rw [←View.Realizes.mem_keys BoardKey.key_injective hRules]
      simp [CommitsPost, hc, view]
    rcases (method_transacts (ho ▸ he)).rules with
      ⟨rules, hRules, hNone⟩ | ⟨roomKey, actor, input, messageID, _, _, hRules⟩
    case inl =>
      have hOther (roomKey id : GoString) : ∀ r ∈ rules, r.key ≠ .message roomKey id :=
        fun r hr he => hNone r hr (he ▸ trivial : r.key.IsMessage)
      have ⟨_, hRep⟩ := h.transact BoardKey.key_injective hRules hT
      refine ⟨_, hRep, fun roomID => .none (Set.ext fun id => ?_) fun id hp => ?_⟩
      · simp only [messageIDs, Set.mem_ofPred_eq, Rules.apply_other (hOther _ id)]
      · have ⟨r, hr, he⟩ := (hPost hRules roomID id).mp hp
        exact hOther _ id r hr he
    case inr =>
      have ⟨hAllowed, hRep⟩ := h.transact BoardKey.key_injective hRules hT
      have hPost := hPost hRules
      simp [postRules, Rules.Allowed, Rules.apply] at hAllowed hRep hPost
      refine ⟨_, hRep, fun roomID => ?_⟩
      by_cases hRoom : roomKey = Base64.encode roomID
      case pos =>
        refine .post messageID ?_ (Set.ext fun id => ?_) fun id => ?_
        · simp [messageIDs, ←hRoom, hAllowed]
        · by_cases hid : id = messageID <;> simp [messageIDs, ←hRoom, hid, GoMap.get_set]
        · simp [hPost, hRoom, eq_comm]
      case neg =>
        refine .none (Set.ext fun id => ?_) fun id => ?_
        · simp [messageIDs, GoMap.get_set, Ne.symm hRoom]
        · simp [hPost, hRoom]

theorem step_keeps {tr : List (system limits).Event} {e : (system limits).Event}
    {k : BoardKey} {d : DdbItem} (h : Represents e.store B)
    (he : (method limits e.call).Emits (System.path e.thread tr) e.op) (hk : k.IsPost)
    (hd : stored e.store k = some d) : stored e.post k = some d := by
  rw [stored_eq h] at hd
  cases step_commit h he
  case inl hn => rw [stored_eq hn.right, hd]
  case inr hc =>
    have ⟨_, B', _, hCommit, hRep⟩ := hc
    rw [stored_eq hRep, hCommit.keeps hk hd]

theorem Commit.identified (hc : Commit limits B c path items B') (h : Identified B) :
    Identified B' := by
  intro roomKey id d hd
  rcases hc.posts with ⟨hSame, _⟩ | ⟨actor, input, id', nowText, _, _, _, rfl⟩
  case inl => exact h roomKey id d <| (hSame (.message _ _) trivial).symm.trans hd
  case inr =>
    simp only [posted, GoMap.get_set, reduceCtorEq, if_false] at hd
    split at hd
    case isTrue he =>
      cases he
      cases hd
      rfl
    case isFalse => exact h roomKey id d hd

end Steps

section Runs

variable {limits : Limits} {tr : List (system limits).Event} {C : (system limits).Config}
  {seen : List (Reader × (system limits).Event)} {r r₀ : Reader} {T : Table}

theorem run_identified (h : (system limits).Run tr C) :
    ∃ B, Represents C.store B ∧ Identified B :=
  run_contents (I := fun _ B => Identified B) (fun _ _ _ hd => by simp at hd) (fun h _ _ => h)
    (fun h _ _ _ hCommit => hCommit.identified h) h

omit [Platform] in
theorem contents_unique {B B' : Contents} (h : Represents T B) (h' : Represents T B') : B = B' :=
  GoMap.ext fun k => (stored_eq h k).symm.trans (stored_eq h' k)

-- What a reader has made of the messages of its room.
structure Watches (seen : List (Reader × (system limits).Event)) (T : Table) (r : Reader) : Prop where
  follows  : ∃ B, Represents T B ∧
    Cursor.Follows (messageIDs B (Base64.encode r.roomID)) r.first r.ids
      {id | ∃ x ∈ seen, x.1.Overtaken x.2 id}
  received : ∀ m ∈ r.received, Posted T r.roomID m

theorem Watches.after_ne_nil (h : Watches seen T r) (hFirst : r.first ≠ []) : r.after ≠ [] := by
  have ⟨_, _, hFollows⟩ := h.follows
  intro he
  have hle : r.first ≤ [] := he ▸ hFollows.first_le
  exact hFirst <| le_antisymm hle (by simp [←not_lt])

theorem Watches.step {e : (system limits).Event} (h : Watches seen e.store r)
    (he : (method limits e.call).Emits (System.path e.thread tr) e.op) :
    Watches (seen ++ [(r, e)]) e.post r := by
  have ⟨B, hRep, hFollows⟩ := h.follows
  constructor
  case follows =>
    have ⟨B', hRep', hAdds⟩ := step_adds hRep he
    refine ⟨B', hRep', ?_⟩
    cases hAdds r.roomID
    case none hSame hPost =>
      have hMissed : {id | ∃ x ∈ seen ++ [(r, e)], x.1.Overtaken x.2 id} =
          {id | ∃ x ∈ seen, x.1.Overtaken x.2 id} := by
        ext id
        simp [Reader.Overtaken, hPost]
      rw [hSame, hMissed]
      exact hFollows
    case post id hNew hAdd hPost =>
      have hMissed : {id | ∃ x ∈ seen ++ [(r, e)], x.1.Overtaken x.2 id} =
          {id | ∃ x ∈ seen, x.1.Overtaken x.2 id} ∪
            {id' | id' = id ∧ r.first < id ∧ id ≤ r.after} := by
        ext id'
        simp only [List.mem_append, List.mem_singleton, or_and_right, exists_or, exists_eq_left,
          Set.mem_ofPred_eq, Set.mem_union, Reader.Overtaken, hPost]
        exact or_congr_right <| and_congr_right fun he => by rw [he]
      rw [hAdd, hMissed]
      exact hFollows.add hNew
  case received =>
    intro m hm
    have ⟨d, hd, he'⟩ := h.received m hm
    exact ⟨d, step_keeps hRep he trivial hd, he'⟩

theorem Watches.read (h : Watches seen C.store r) (hRun : (system limits).Run tr C)
    (hFirst : r.first ≠ []) (hRead : r.read limit w C.store = .ok page) :
    Watches seen C.store { r with received := r.received ++ page } := by
  have ⟨B, hRep, hFollows⟩ := h.follows
  have ⟨B', hRep', hID⟩ := run_identified hRun
  cases contents_unique hRep hRep'
  have ⟨hPage, hPosted⟩ := Reader.read_page hRep hID (h.after_ne_nil hFirst) hRead
  constructor
  case follows =>
    refine ⟨B, hRep, ?_⟩
    simpa [Reader.ids] using hFollows.read hPage
  case received =>
    intro m hm
    cases List.mem_append.mp hm
    case inl hm => exact h.received m hm
    case inr hm => exact hPosted m hm

theorem observed_watches {first : GoString} (hFirst : first ≠ [])
    (h : (system limits).Observed Reader.Reads ⟨roomID, first, []⟩ seen tr C r) :
    r.first = first ∧ Watches seen C.store r := by
  refine h.induction (I := fun seen T (r : Reader) => r.first = first ∧ Watches seen T r)
    (fun {_ C} hRun => ?_) (fun _ _ hI he => ⟨hI.left, hI.right.step he⟩) (fun hRun hI hLook => ?_)
  · have ⟨B, hRep, _⟩ := run_identified hRun
    exact ⟨rfl, ⟨B, hRep, by simpa using .start⟩, by simp⟩
  · cases hLook
    case page hRead => exact ⟨hI.left, hI.right.read hRun (hI.left ▸ hFirst) hRead⟩

-- The ids tell whether a reader is up to date.
theorem Watches.upToDate_iff {B : Contents} (h : Watches seen T r) (hRep : Represents T B)
    (hID : Identified B) : r.UpToDate T ↔
      ∀ id, id ∈ r.ids ↔ id ∈ messageIDs B (Base64.encode r.roomID) ∧ r.first < id := by
  have ⟨B', hRep', hFollows⟩ := h.follows
  cases contents_unique hRep hRep'
  have hPosted {m : Message} (hm : Posted T r.roomID m) :
      m.messageID ∈ messageIDs B (Base64.encode r.roomID) := by
    have ⟨d, hd, _⟩ := hm
    exact ⟨d, (stored_eq hRep _).symm.trans hd⟩
  constructor
  case mp =>
    intro hUp id
    constructor
    case mp =>
      intro hid
      have ⟨m, hm, he⟩ := List.mem_map.mp hid
      have ⟨hm, hFirst⟩ := (hUp.received m).mp hm
      exact he ▸ ⟨hPosted hm, hFirst⟩
    case mpr =>
      rintro ⟨⟨d, hd⟩, hFirst⟩
      have he : d.messageID = id := hID _ _ _ hd
      have hm : messageFromItem d ∈ r.received := by
        refine (hUp.received _).mpr ⟨⟨d, ?_, rfl⟩, (he ▸ hFirst : r.first < d.messageID)⟩
        rw [stored_eq hRep, ←hd]
        exact congrArg (B[BoardKey.message _ ·]?) he
      exact List.mem_map.mpr ⟨_, hm, he⟩
  case mpr =>
    intro hIDs
    refine ⟨hFollows.sorted, fun m => ⟨fun hm => ?_, fun ⟨hm, hFirst⟩ => ?_⟩⟩
    · exact ⟨h.received m hm, ((hIDs _).mp <| List.mem_map_of_mem hm).right⟩
    · have ⟨m', hm', he⟩ := List.mem_map.mp <| (hIDs _).mpr ⟨hPosted hm, hFirst⟩
      have ⟨d, hd, hm⟩ := hm
      have ⟨d', hd', hEq⟩ := h.received m' hm'
      cases hd.symm.trans (he ▸ hd')
      exact (hEq.trans hm.symm) ▸ hm'

-- A reader whose page is empty is up to date if and only if no message has been posted with an id
-- that it had passed by.
theorem incremental_exact {first : GoString} (hFirst : first ≠ [])
    (h : (system limits).Observed Reader.Reads ⟨roomID, first, []⟩ seen tr C r)
    (hEnd : r.read limit w C.store = .ok []) :
    r.UpToDate C.store ↔ ∀ x ∈ seen, ∀ id, ¬x.1.Overtaken x.2 id := by
  have ⟨he, hWatches⟩ := observed_watches hFirst h
  have ⟨B, hRep, hID⟩ := run_identified h.run
  have hAfter := hWatches.after_ne_nil (he ▸ hFirst)
  have ⟨hPage, _⟩ := Reader.read_page hRep hID hAfter hEnd
  have ⟨B', hRep', hFollows⟩ := hWatches.follows
  cases contents_unique hRep hRep'
  rw [hWatches.upToDate_iff hRep hID, hFollows.exact_iff hPage]
  constructor
  case mp  => exact fun hn x hx id ho => hn id ⟨x, hx, ho⟩
  case mpr => exact fun hn id ⟨x, hx, ho⟩ => hn x hx id ho

-- The page of a reader that is past all messages of its room.
theorem read_end (h : (system limits).Run tr C) (hRoom : normalizeRoomID r.roomID = .ok r.roomID)
    (hAfter : r.after ≠ []) (hw : w.answer = .served)
    (hLast : ∀ id d, stored C.store (.message (Base64.encode r.roomID) id) = some d →
      id ≤ r.after) (limit : Int) : r.read limit w C.store = .ok [] := by
  have ⟨B, hRep, hID⟩ := run_identified h
  have ⟨page, hRead⟩ := Reader.read_served hRep hRoom hAfter limit hw
  cases page
  case nil => exact hRead
  case cons m page =>
    have ⟨hPage, _⟩ := Reader.read_page hRep hID hAfter hRead
    have ⟨⟨d, hd⟩, hlt⟩ := hPage.listed m.messageID (by simp)
    exact absurd (hLast _ d <| (stored_eq hRep _).trans hd) (not_le.mpr hlt)

-- The page of a reader for whom there is one message.
theorem read_single (h : (system limits).Run tr C)
    (hRoom : normalizeRoomID r.roomID = .ok r.roomID) (hAfter : r.after ≠ [])
    (hw : w.answer = .served)
    (hOnly : ∀ id d, stored C.store (.message (Base64.encode r.roomID) id) = some d → id = id₀)
    (hNew : (stored C.store (.message (Base64.encode r.roomID) id₀)).isSome) (hlt : r.after < id₀)
    (limit : Int) : ∃ page, r.read limit w C.store = .ok page ∧ page.map (·.messageID) = [id₀] := by
  have ⟨B, hRep, hID⟩ := run_identified h
  have ⟨page, hRead⟩ := Reader.read_served hRep hRoom hAfter limit hw
  have ⟨hPage, _⟩ := Reader.read_page hRep hID hAfter hRead
  refine ⟨page, hRead, ?_⟩
  have hAll : ∀ id ∈ page.map (·.messageID), id = id₀ := fun id hid =>
    have ⟨⟨d, hd⟩, _⟩ := hPage.listed id hid
    hOnly id d <| (stored_eq hRep _).trans hd
  have ⟨d, hd⟩ := Option.isSome_iff_exists.mp hNew
  have hKey : id₀ ∈ messageIDs B (Base64.encode r.roomID) := ⟨d, (stored_eq hRep _).symm.trans hd⟩
  have hSorted := hPage.sorted
  have hComplete := hPage.complete
  generalize page.map (·.messageID) = ids at *
  match ids with
  | []          => exact absurd (hComplete rfl id₀ hKey) (not_le.mpr hlt)
  | [id]        => rw [hAll id (by simp)]
  | id :: id' :: _ =>
    have hlt := (List.pairwise_cons.mp hSorted).left id' (by simp)
    rw [hAll id (by simp), hAll id' (by simp)] at hlt
    exact absurd hlt (lt_irrefl _)

end Runs

end

section

attribute [local instance] asciiPlatform

-- The ids of two messages, the first of which is made before the second
def earlier : GoString :=
  "01JQ7V0000AAAAAAAAAAAAAAAA"

def later : GoString :=
  "01JQ7V0001AAAAAAAAAAAAAAAA"

-- Alice posts twice at the same time. The post whose id is made last is stored first.
def overtakingPost : List (System.Action Outcome Call) :=
  moves 0 Sample.create 3 ++
  .spawn (Sample.post Sample.alice "k" 1) :: List.replicate 3 (.step 1 ⟨.zero, earlier, .served⟩) ++
  .spawn (Sample.post Sample.alice "l" 1) :: List.replicate 4 (.step 2 ⟨.zero, later, .served⟩)

-- All messages of the table have one of the ids.
def OnlyMessages (T : Table) (ids : List GoString) : Prop :=
  ∀ key ∈ T.keys, key.sk.take 4 = "MSG#" → ∃ id ∈ ids, key.sk = messageSK id

instance : Decidable (OnlyMessages T ids) :=
  inferInstanceAs <| Decidable (∀ _ ∈ _, _ → _)

theorem OnlyMessages.mem {limits : Limits} {roomKey id : GoString} {tr : List (system limits).Event}
    {C : (system limits).Config} (h : (system limits).Run tr C) (hOnly : OnlyMessages C.store ids)
    (hd : stored C.store (.message roomKey id) = some d) : id ∈ ids := by
  have ⟨B, hRep, _⟩ := run_identified h
  have hKey := (mem_keys_iff hRep).mpr ⟨d, (stored_eq hRep _).symm.trans hd⟩
  have ⟨id', hid, he⟩ := hOnly _ hKey rfl
  exact List.append_cancel_left he ▸ hid

def overtakenReader : Reader where
  roomID   := "lobby"
  first    := "msg_0"
  received := []

theorem overtakenReader_room :
    normalizeRoomID overtakenReader.roomID = .ok overtakenReader.roomID := by
  decide

theorem overtakingPost_read : ∃ tr C page,
    (system ⟨50, 100⟩).replay [] ⟨(system ⟨50, 100⟩).init, []⟩ overtakingPost = some (tr, C) ∧
    OnlyMessages C.store ["msg_" ++ later] ∧
    overtakenReader.read 10 ⟨.zero, [], .served⟩ C.store = .ok page ∧
    page.map (·.messageID) = ["msg_" ++ later] := by
  have h : ((system ⟨50, 100⟩).replay [] ⟨(system ⟨50, 100⟩).init, []⟩ overtakingPost).any fun x =>
      OnlyMessages x.2.store ["msg_" ++ later] ∧
      (stored x.2.store (.message (Base64.encode "lobby") ("msg_" ++ later))).isSome := by
    decide
  have ⟨⟨tr, C⟩, hr, he⟩ := (Option.any_eq_true _ _).mp h
  have ⟨hOnly, hStored⟩ := of_decide_eq_true he
  have hRun := System.replay_run .init hr
  have ⟨page, hRead, hIDs⟩ := read_single (r := overtakenReader) (w := ⟨.zero, [], .served⟩) hRun
    overtakenReader_room (by decide) rfl (fun _ _ hd => List.mem_singleton.mp <| hOnly.mem hRun hd) hStored
    (by decide) 10
  exact ⟨tr, C, page, hr, hOnly, hRead, hIDs⟩

theorem incremental_exact_caughtUp : ∃ seen tr C r,
    (system ⟨50, 100⟩).Observed Reader.Reads overtakenReader seen tr C r ∧
    r.ids = ["msg_" ++ later] ∧
    (r.UpToDate C.store ↔ ∀ x ∈ seen, ∀ id, ¬x.1.Overtaken x.2 id) := by
  have ⟨tr, C, page, hr, hOnly, hRead, hIDs⟩ := overtakingPost_read
  have hRun := System.replay_run .init hr
  have h := (System.Observed.start hRun).look <| Reader.Reads.page 10 ⟨.zero, [], .served⟩ hRead
  have hAfter : Reader.after { overtakenReader with received := page } = "msg_" ++ later := by
    rw [Reader.after, Reader.ids, hIDs]
    rfl
  have hEnd := read_end (r := { overtakenReader with received := page })
    (w := ⟨.zero, [], .served⟩) hRun overtakenReader_room (by rw [hAfter]; decide) rfl
    (fun _ _ hd => by rw [hAfter, List.mem_singleton.mp <| hOnly.mem hRun hd]) 10
  exact ⟨_, _, _, _, h, hIDs, incremental_exact (by decide) h hEnd⟩

-- The reader has been given the later message when the earlier one is stored.
theorem incremental_exact_fails : ∃ seen tr C r,
    (system ⟨50, 100⟩).Observed Reader.Reads overtakenReader seen tr C r ∧
    r.read 10 ⟨.zero, [], .served⟩ C.store = .ok [] ∧
    (stored C.store (.message (Base64.encode "lobby") ("msg_" ++ earlier))).isSome ∧
    "msg_" ++ earlier ∉ r.ids ∧ ¬r.UpToDate C.store := by
  have ⟨tr, C, page, hr, _, hRead, hIDs⟩ := overtakingPost_read
  have h : ((system ⟨50, 100⟩).replay [] ⟨(system ⟨50, 100⟩).init, []⟩ overtakingPost).any fun x =>
      ((system ⟨50, 100⟩).replay x.1 x.2 [.step 1 ⟨.zero, [], .served⟩]).any fun y =>
        OnlyMessages y.2.store ["msg_" ++ earlier, "msg_" ++ later] ∧
        (stored y.2.store (.message (Base64.encode "lobby") ("msg_" ++ earlier))).isSome := by
    decide
  rw [hr, Option.any_some] at h
  have ⟨⟨tr', C'⟩, hr', he⟩ := (Option.any_eq_true _ _).mp h
  have ⟨hOnly, hStored⟩ := of_decide_eq_true he
  have hStart := (System.Observed.start <| System.replay_run .init hr).look <|
    Reader.Reads.page 10 ⟨.zero, [], .served⟩ hRead
  have ⟨seen, h⟩ := hStart.replay hr'
  have hAfter : Reader.after { overtakenReader with received := page } = "msg_" ++ later := by
    rw [Reader.after, Reader.ids, hIDs]
    rfl
  have hLast : ∀ id d, stored C'.store (.message (Base64.encode "lobby") id) = some d →
      id ≤ Reader.after { overtakenReader with received := page } := by
    intro id d hd
    rw [hAfter]
    rcases List.mem_pair.mp (hOnly.mem h.run hd) with rfl | rfl <;> decide
  have hEnd := read_end (r := { overtakenReader with received := page })
    (w := ⟨.zero, [], .served⟩) h.run overtakenReader_room (by rw [hAfter]; decide) rfl hLast 10
  have hMissed : "msg_" ++ earlier ∉ Reader.ids { overtakenReader with received := page } := by
    rw [Reader.ids, hIDs]
    decide
  refine ⟨_, _, _, _, h, hEnd, hStored, hMissed, fun hUp => ?_⟩
  have ⟨B, hRep, hID⟩ := run_identified h.run
  have ⟨d, hd⟩ := Option.isSome_iff_exists.mp hStored
  have he : d.messageID = "msg_" ++ earlier := hID _ _ _ <| (stored_eq hRep _).symm.trans hd
  have hm := (hUp.received (messageFromItem d)).mpr ⟨⟨d, by
    rw [←hd]
    exact congrArg (stored C'.store <| .message _ ·) he, rfl⟩, by
      change overtakenReader.first < d.messageID
      rw [he]
      decide⟩
  exact hMissed <| List.mem_map.mpr ⟨_, hm, he⟩

end

end Board.Dynamo
