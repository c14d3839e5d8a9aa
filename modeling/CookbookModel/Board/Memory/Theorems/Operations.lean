import CookbookModel.Board.Memory.Reads
import CookbookModel.Board.Memory.Theorems.Nicknames

namespace Board.Memory

open EStateM GoString

section

variable [CursorJson] [Platform] {s s' : MemoryStore} {maxRooms maxMembers : Int}

section ReadOnly

omit [CursorJson] [Platform] in
theorem slice_readOnly {items : List α} : ReadOnly (slice items low high) :=
  .bind .throwIf fun _ => .pure

omit [CursorJson] [Platform] in
theorem pageSlice_readOnly {items : List α} : ReadOnly (pageSlice items offset limit) := by
  unfold pageSlice
  split
  case isTrue  => exact .pure
  case isFalse => exact .bind slice_readOnly fun _ => .pure

omit [Platform] in
theorem offsetOf_readOnly : ReadOnly (offsetOf cursor) := by
  unfold offsetOf
  split
  case h_1 => exact .throw
  case h_2 => exact .pure

omit [Platform] in
theorem listRooms_readOnly : ReadOnly (listRooms agent limit cursor) :=
  .bind offsetOf_readOnly fun _ => .bind .get fun _ => pageSlice_readOnly

theorem listAllowlist_readOnly : ReadOnly (listAllowlist roomID limit cursor) :=
  .bind offsetOf_readOnly fun _ =>
  .bind validated_readOnly fun _ =>
  .bind recordByRoomIDLocked_readOnly fun _ => pageSlice_readOnly

theorem readMessages_readOnly : ReadOnly (readMessages roomID limit cursor after) := by
  refine .bind offsetOf_readOnly fun _ => .bind validated_readOnly fun _ => ?_
  refine .bind recordByRoomIDLocked_readOnly fun p => ?_
  dsimp only
  split
  case isTrue  => exact pageSlice_readOnly
  case isFalse => exact .bind slice_readOnly fun _ => .pure

theorem pages_readOnly : ReadOnly (pages q) := by
  cases q
  case listRooms     => exact listRooms_readOnly.bind fun _ => .pure
  case listAllowlist => exact listAllowlist_readOnly.bind fun _ => .pure
  case readMessages  => exact readMessages_readOnly.bind fun _ => .pure

end ReadOnly

omit [CursorJson] [Platform] in
theorem atomically_readOnly {x : MemoryM α} (h : ReadOnly x) (s : MemoryStore) :
    (atomically x s).2 = s := by
  unfold atomically
  cases hr : x.run s
  case ok    => exact h.ok hr
  case error => exact h.error hr

theorem perform_query (q : Query) (w : Stamp) (s : MemoryStore) :
    (perform (.query q) w s).2 = s :=
  atomically_readOnly (pages_readOnly.bind fun _ => .pure) s

theorem perform_call (c : Call) (w : Stamp) (s : MemoryStore) :
    perform (.call c) w s = ((exec c w s).1.map .reply, (exec c w s).2) := by
  unfold perform exec atomically operate
  rw [run_bind]
  cases (method w c).run s <;> rfl

-- An operation leaves the store alone or is a call that succeeds.
theorem perform_cases (o : Operation) (w : Stamp) (s : MemoryStore) :
    (perform o w s).2 = s ∨ ∃ c reply s', o = .call c ∧
      perform o w s = (.ok (.reply reply), s') ∧ Step w s c reply s' := by
  cases o
  case query q => exact .inl <| perform_query q w s
  case call c =>
    rw [perform_call]
    cases exec_cases c w s
    case inl h =>
      have ⟨_, h⟩ := h
      exact .inl <| by rw [h]
    case inr h =>
      have ⟨reply, s', h, hStep⟩ := h
      exact .inr ⟨c, reply, s', rfl, by rw [h]; rfl, hStep⟩

-- What the calls that succeed preserve holds in every reachable state.
theorem performed {P : MemoryStore → Prop} (h₀ : P (.new maxRooms maxMembers))
    (hs : ∀ {w s c reply s'}, P s → Step w s c reply s' → P s')
    (hh : History perform (.new maxRooms maxMembers) h s) : P s := by
  refine hh.invariant (I := fun _ s => P s) h₀ fun {_ s} o w hP => ?_
  cases perform_cases o w s
  case inl h => rwa [h]
  case inr h =>
    have ⟨c, reply, s', _, h, hStep⟩ := h
    rw [h]
    exact hs hP hStep

theorem performed_indexed (hh : History perform (.new maxRooms maxMembers) h s) :
    ∀ {key : GoString} {r : RoomRecord}, s.rooms[key]? = some r → r.Indexed :=
  performed (P := fun s => ∀ {key : GoString} {r : RoomRecord}, s.rooms[key]? = some r → r.Indexed)
    (fun hr => by simp [MemoryStore.new] at hr)
    (fun hs h => h.forall_rooms hs (fun _ => .create rfl rfl) fun hr hc => hc.indexed hr) hh

-- Operations that have nothing to change: those that fail, those that read, and those whose effect
-- is already there.
inductive Idle (s : MemoryStore) : Operation → Except Err Answer → Prop
  | failed : Idle s o (.error e)
  | query : Idle s (.query q) result
  | getRoomForAgent {roomID agent : GoString} : Idle s (.call (.getRoomForAgent roomID agent)) result
  | grant {actor : Identity} {input : GrantInput} {target : GoString} {m : Membership}
      (hLocated : Located s input.roomID key r)
      (hTarget : canonicalDNSName input.targetAgent = .ok target)
      (hMember : r.members[target]? = some m) (hRole : m.role = input.role) :
    Idle s (.call (.grantAllowlist actor input)) result
  | setNickname {actor : Identity} {input : SetNicknameInput} {m : Membership}
      (hLocated : Located s input.roomID key r) (hMember : r.members[actor.agent]? = some m)
      (hNickname : m.nickname = input.nickname) :
    Idle s (.call (.setNickname actor input)) result
  | replay {actor : Identity} {input : PostInput} {msg : Message} :
    Idle s (.call (.postMessage actor input)) (.ok (.reply (.posted ⟨msg, true⟩)))
  | recorded {actor : Identity} {input : PostInput} {idem : IdempotencyRecord}
      (hLocated : Located s input.roomID key r)
      (hRecorded : r.idempotency[actor.agent ++ "#" ++ input.idempotencyKey]? = some idem) :
    Idle s (.call (.postMessage actor input)) result

section Change

variable {r r' : RoomRecord} {actor : Identity} {m : Membership} {limit : Int}

omit [CursorJson] in
theorem Change.same_role {input : GrantInput}
    (h : Change w limit r (.grantAllowlist actor input) reply r')
    (hTarget : canonicalDNSName input.targetAgent = .ok target)
    (hMember : r.members[target]? = some m) (hRole : m.role = input.role) : r' = r := by
  cases h
  case grantSame => rfl
  case grantNew hAbsent _ _ _ hChecks _ =>
    cases hChecks.canon.symm.trans hTarget
    cases hAbsent.symm.trans hMember
  case grantChange hMember' _ _ _ hChange hChecks _ =>
    cases hChecks.canon.symm.trans hTarget
    cases hMember'.symm.trans hMember
    exact absurd hRole hChange

omit [CursorJson] in
theorem Change.same_nickname {input : SetNicknameInput} (hr : r.Indexed)
    (h : Change w limit r (.setNickname actor input) reply r')
    (hMember : r.members[actor.agent]? = some m) (hNickname : m.nickname = input.nickname) :
    r' = r := by
  cases h
  case nicknameSame => rfl
  case nicknameChange _ hChange _ hName hActor =>
    cases hActor.member.symm.trans hMember
    have hName' := nickname_eq hName
    have hKey := (nickname_ok hName).right
    refine absurd ⟨hNickname.trans hName'.symm, ?_⟩ hChange
    rw [hr.folded hMember, hKey, hName', hNickname]

omit [CursorJson] in
theorem Change.same_post {input : PostInput} {idem : IdempotencyRecord}
    (h : Change w limit r (.postMessage actor input) reply r')
    (hRecorded : r.idempotency[actor.agent ++ "#" ++ input.idempotencyKey]? = some idem) :
    r' = r := by
  cases h
  case postReplay => rfl
  case post hAbsent _ => cases hAbsent.symm.trans hRecorded

end Change

-- Operations that fail, have no effect or read leave the whole store as it was.
theorem idle_unchanged (hh : History perform (.new maxRooms maxMembers) h s)
    (hi : Idle s o (perform o w s).1) : (perform o w s).2 = s := by
  cases perform_cases o w s
  case inl h => exact h
  case inr h =>
    obtain ⟨c, reply, s', rfl, h, hStep⟩ := h
    rw [h] at hi ⊢
    cases hStep
    case create => cases hi
    case change key r r' hValid hLocated hChange =>
      suffices he : r' = r from he ▸ hLocated.putRecord
      cases hi
      case getRoomForAgent => cases hChange; rfl
      case replay          => cases hChange; rfl
      case grant hLocated' hTarget hMember hRole =>
        have ⟨_, he⟩ := hLocated.unique hLocated'
        exact hChange.same_role hTarget (he ▸ hMember) hRole
      case setNickname hLocated' hMember hNickname =>
        have ⟨_, he⟩ := hLocated.unique hLocated'
        exact hChange.same_nickname (performed_indexed hh hLocated.byKey) (he ▸ hMember) hNickname
      case recorded hLocated' hRecorded =>
        have ⟨_, he⟩ := hLocated.unique hLocated'
        exact hChange.same_post (he ▸ hRecorded)

end

section

attribute [local instance] asciiPlatform plainCursors

-- A repeated grant.
theorem idle_unchanged_grant :
    let w : Stamp := ⟨.zero, []⟩
    let s := (perform (.call Sample.create) w (.new 50 100)).2
    let s' := (perform (.call (Sample.grant .poster 1)) w s).2
    s' ≠ s ∧ (perform (.call (Sample.grant .poster 2)) w s').2 = s' := by
  intro w s s'
  have hh : History perform (.new 50 100) _ s' :=
    .call (Operation.call (Sample.grant .poster 1)) w <| .call (Operation.call Sample.create) w .init
  have hr : s'.rooms[Base64.encode "lobby"]?.any fun (r : RoomRecord) =>
      r.members[Sample.bob.agent]?.any fun (m : Membership) => m.role = .poster := by
    decide
  have ⟨r, hr, hm⟩ := (Option.any_eq_true _ _).mp hr
  have ⟨m, hm, hRole⟩ := (Option.any_eq_true _ _).mp hm
  have hLocated : Located s' "lobby" _ r := ⟨by decide, hr⟩
  have hTarget : canonicalDNSName Sample.bob.agent = .ok Sample.bob.agent := by decide
  exact ⟨by decide, idle_unchanged hh (.grant hLocated hTarget hm (of_decide_eq_true hRole))⟩

end

end Board.Memory
