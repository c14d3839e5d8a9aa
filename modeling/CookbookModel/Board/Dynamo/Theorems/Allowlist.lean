import CookbookModel.Board.Dynamo.Theorems.Runs

namespace Board.Dynamo

open GoString DynamoDB

-- The keys of the items that have the sort key of a member of the room.
def memberKeys (T : Table) (roomKey : GoString) : Finset Key :=
  T.keys.filter fun key => key.pk = roomPK roomKey ∧ ofString "MEMBER#" <+: key.sk

-- A change of a room's allowlist: the version of the room it was made for, the agent, and its role
-- afterwards.
structure AllowlistUpdate where
  expectedVersion : Int
  target          : GoString
  role            : Option Role

-- The allowlist that some changes of a new room lead to.
def replay (owner : GoString) (updates : List AllowlistUpdate) : GoMap GoString Role :=
  updates.foldl (fun allowlist u => allowlist.store u.target u.role) (GoMap.set ∅ owner .owner)

-- A room's allowlist counts its changes and is what they have led to, one after the other, each made
-- for the version that the one before has left.
structure AllowlistLinear
    (items : BoardKey → Option DdbItem) (members : Nat) (limit : Int) (roomKey : GoString)
    (room : DdbItem) (updates : List AllowlistUpdate) : Prop where
  count    : room.memberCount = members
  limit    : room.memberCount ≤ limit
  owner    : ∀ a, (items (.member roomKey a)).map (·.role) = some .owner ↔ a = room.owner
  version  : room.version - 1 = updates.length
  expected : ∀ {i : Nat} {u : AllowlistUpdate}, updates[i]? = some u → u.expectedVersion = i + 1
  replayed : ∀ a, (items (.member roomKey a)).map (·.role) = (replay room.owner updates)[a]?

-- What is so of every room, and of every room that there is not.
inductive Linear (limit : Int) (B : Contents) (roomKey : GoString) : List AllowlistUpdate → Prop
  | absent (hRoom : B[BoardKey.room roomKey]? = none)
      (hMembers : ∀ a : GoString, B[BoardKey.member roomKey a]? = none) : Linear limit B roomKey []
  | present {room : DdbItem} {updates : List AllowlistUpdate}
      (hRoom : B[BoardKey.room roomKey]? = some room)
      (hLinear : AllowlistLinear (B[·]?) (replay room.owner updates).len limit roomKey room
        updates) : Linear limit B roomKey updates

theorem memberKeys_eq {T : Table} {B : Contents} {roomKey : GoString}
    {allowlist : GoMap GoString Role} (h : Represents T B)
    (ha : ∀ a : GoString, B[BoardKey.member roomKey a]?.map (·.role) = allowlist[a]?) :
    memberKeys T roomKey = allowlist.keys.image fun a => (BoardKey.member roomKey a).key := by
  have hm (a : GoString) : (BoardKey.member roomKey a).key ∈ T.keys ↔ a ∈ allowlist.keys := by
    rw [mem_keys_iff h, GoMap.mem_keys_iff_get, ←ha a]
    cases B[BoardKey.member roomKey a]? <;> simp
  ext key
  simp only [memberKeys, Finset.mem_filter, Finset.mem_image]
  constructor
  case mp =>
    rintro ⟨hKey, hPK, a, hSK⟩
    have he : (BoardKey.member roomKey a).key = key :=
      congrArg₂ Key.mk hPK.symm hSK
    exact ⟨a, (hm a).mp (he ▸ hKey), he⟩
  case mpr =>
    rintro ⟨a, ha, rfl⟩
    exact ⟨(hm a).mpr ha, rfl, a, rfl⟩

theorem replay_append :
    replay owner (updates ++ [u]) = (replay owner updates).store u.target u.role := by
  simp [replay]

section Linear

variable {items items' : BoardKey → Option DdbItem} {members : Nat} {limit : Int}
  {roomKey : GoString} {room room' : DdbItem} {updates : List AllowlistUpdate} {u : AllowlistUpdate}

namespace AllowlistLinear

theorem congr (h : AllowlistLinear items members limit roomKey room updates)
    (hRole : ∀ a, (items' (.member roomKey a)).map (·.role) =
      (items (.member roomKey a)).map (·.role)) :
    AllowlistLinear items' members limit roomKey room updates where
  count      := h.count
  limit      := h.limit
  owner a    := by rw [hRole, h.owner]
  version    := h.version
  expected   := h.expected
  replayed a := by rw [hRole, h.replayed]

-- A change is made for the version that the room has, and of another agent than the owner.
theorem update (h : AllowlistLinear items members limit roomKey room updates)
    (hExpected : u.expectedVersion = room.version) (hTarget : u.target ≠ room.owner)
    (hRole : u.role ≠ some .owner) (hOwner : room'.owner = room.owner)
    (hVersion : room'.version = room.version + 1)
    (hCount : room'.memberCount = (replay room.owner (updates ++ [u])).len)
    (hLimit : room'.memberCount ≤ limit)
    (hRoles : ∀ a, (items' (.member roomKey a)).map (·.role) =
      if a = u.target then u.role else (items (.member roomKey a)).map (·.role)) :
    AllowlistLinear items' (replay room'.owner (updates ++ [u])).len limit roomKey room'
      (updates ++ [u]) where
  count    := hOwner ▸ hCount
  limit    := hLimit
  owner a  := by
    rw [hRoles, hOwner]
    split
    case isTrue ha  => exact iff_of_false hRole (ha ▸ hTarget)
    case isFalse    => exact h.owner a
  version  := by
    have := h.version
    simp only [hVersion, List.length_append, List.length_singleton]
    omega
  expected := by
    intro i u' hu
    rw [List.getElem?_append] at hu
    split at hu
    case isTrue  => exact h.expected hu
    case isFalse hi =>
      have := h.version
      rw [List.getElem?_singleton] at hu
      split at hu <;> cases hu
      omega
  replayed a := by rw [hRoles, hOwner, replay_append, GoMap.get_store, h.replayed]

end AllowlistLinear

theorem Linear.congr {B B' : Contents} (h : Linear limit B roomKey updates)
    (hRoom : B'[BoardKey.room roomKey]? = B[BoardKey.room roomKey]?)
    (hMember : ∀ a : GoString, B'[BoardKey.member roomKey a]?.map (·.role) =
      B[BoardKey.member roomKey a]?.map (·.role)) : Linear limit B' roomKey updates := by
  cases h
  case absent h hm  => exact .absent (hRoom ▸ h) fun a => by simpa [hm] using hMember a
  case present h hl => exact .present (hRoom ▸ h) (hl.congr hMember)

end Linear

section Runs

variable [Platform] {limits : Limits}

-- The change of the room's allowlist that a call's transaction makes. A grant that finds the role
-- to be the requested one only checks that.
def allowlistUpdate (roomKey : GoString) (items : List TransactWriteItem) :
    Call → Option AllowlistUpdate
  | .grantAllowlist _ input =>
    if items.any (·.writes) ∧ Base64.encode input.roomID = roomKey then
      some ⟨input.expectedRoomVersion, (canonicalDNSName input.targetAgent).toOption.getD [],
        some input.role⟩
    else
      none
  | .revokeAllowlist _ input =>
    if items.any (·.writes) ∧ Base64.encode input.roomID = roomKey then
      some ⟨input.expectedRoomVersion, (canonicalDNSName input.targetAgent).toOption.getD [], none⟩
    else
      none
  | _ => none

-- The changes of the room's allowlist that have been carried out.
def updates (roomKey : GoString) (tr : List (system limits).Event) : List AllowlistUpdate :=
  tr.filterMap fun e =>
    (committed e.op e.outcome e.store).bind fun items => allowlistUpdate roomKey items e.call

theorem updates_append {roomKey : GoString} {tr : List (system limits).Event} :
    updates roomKey (tr ++ [e]) = updates roomKey tr ++
      ((committed e.op e.outcome e.store).bind fun items =>
        allowlistUpdate roomKey items e.call).toList := by
  rw [updates, List.filterMap_append, ←updates]
  refine congrArg (updates roomKey tr ++ ·) ?_
  cases h : (committed e.op e.outcome e.store).bind _ <;> simp [h]

section Commit

variable {B B' : Contents} {c : Call} {path : List (Σ o, Op.Res o)}
  {items : List TransactWriteItem} {roomKey : GoString} {ups : List AllowlistUpdate}

attribute [local simp] GoMap.get_set GoMap.get_delete GoMap.get_store

omit [Platform] in
theorem Linear.get (h : Linear limit B roomKey ups)
    (hRoom : B[BoardKey.room roomKey]? = some room) :
    AllowlistLinear (B[·]?) (replay room.owner ups).len limit roomKey room ups := by
  cases h
  case absent hn _   => cases hn.symm.trans hRoom
  case present hr hl => exact Option.some.inj (hr.symm.trans hRoom) ▸ hl

omit [Platform] in
theorem Linear.get_none (h : Linear limit B roomKey ups)
    (hRoom : B[BoardKey.room roomKey]? = none) :
    ups = [] ∧ ∀ a : GoString, B[BoardKey.member roomKey a]? = none := by
  cases h
  case absent hm     => exact ⟨rfl, hm⟩
  case present hr hl => cases hr.symm.trans hRoom

omit [Platform] in
-- A new room has its owner as the only member.
theorem Linear.create (hMax : 1 ≤ limit)
    (hRoom : B'[BoardKey.room roomKey]? = some room) (hVersion : room.version = 1)
    (hCount : room.memberCount = 1)
    (hMember : ∀ a : GoString, B'[BoardKey.member roomKey a]?.map (·.role) =
      if a = room.owner then some .owner else none) : Linear limit B' roomKey [] := by
  refine .present hRoom {
    count      := by simp [hCount, replay, GoMap.len_set_new]
    limit      := hCount ▸ hMax
    owner a    := by rw [hMember]; split <;> simp_all
    version    := by simp [hVersion]
    expected   := by simp
    replayed a := by rw [hMember, replay, List.foldl_nil, GoMap.get_set, GoMap.get_empty]
  }

omit [Platform] in
-- A change that counts the members it adds or removes.
theorem Linear.update (h : Linear limit B roomKey ups)
    (hFound : B[BoardKey.room roomKey]? = some room) (hExpected : room.version = u.expectedVersion)
    (hTarget : B[BoardKey.member roomKey u.target]?.map (·.role) ≠ some .owner)
    (hRole : u.role ≠ some .owner) (hRoom : B'[BoardKey.room roomKey]? = some (changedRoom room n t))
    (hCount : n = (if u.role.isSome then 1 else 0) -
      if B[BoardKey.member roomKey u.target]?.isSome then 1 else 0)
    (hLimit : room.memberCount + n ≤ limit)
    (hRoles : ∀ a : GoString, B'[BoardKey.member roomKey a]?.map (·.role) =
      if a = u.target then u.role else B[BoardKey.member roomKey a]?.map (·.role)) :
    Linear limit B' roomKey (ups ++ [u]) := by
  have hl := h.get hFound
  have hSome : B[BoardKey.member roomKey u.target]?.isSome = (replay room.owner ups)[u.target]?.isSome := by
    rw [←hl.replayed, Option.isSome_map]
  refine .present hRoom <| hl.update hExpected.symm (fun ho => ?_) hRole rfl rfl ?_ hLimit hRoles
  · exact hTarget <| (hl.owner _).mpr ho
  · rw [replay_append, GoMap.len_store, ←hSome]
    simp only [changedRoom, hl.count, hCount]
    omega

theorem Commit.linear (hMax : 1 ≤ limits.maxMembersPerRoom) (hc : Commit limits B c path items B')
    (h : Linear limits.maxMembersPerRoom B roomKey ups) :
    Linear limits.maxMembersPerRoom B' roomKey
      (ups ++ (allowlistUpdate roomKey items c).toList) := by
  cases hc
  case guard hWrites =>
    have hn : allowlistUpdate roomKey items c = none := by
      cases c <;> simp [allowlistUpdate, hWrites]
    simpa [hn] using h
  case post => exact (List.append_nil ups).symm ▸ h.congr (by simp) (by simp)
  case setNickname actor _ roomKey' _ _ _ _ _ _ _ _ _ _ hMember _ _ _ _ _ =>
    refine (List.append_nil ups).symm ▸ h.congr ?_ fun a => ?_
    · split_ifs <;> simp
    · by_cases ha : roomKey = roomKey' ∧ a = actor.agent
      case pos =>
        obtain ⟨hr, ha⟩ := ha
        subst hr
        split_ifs <;> simp [ha, hMember, renamedMember]
      case neg => split_ifs <;> simp [ha]
  case createRoom roomKey' _ _ _ _ hNew _ _ _ _ =>
    refine (List.append_nil ups).symm ▸ ?_
    by_cases hr : roomKey = roomKey'
    case pos =>
      subst hr
      obtain ⟨hn, hm⟩ := h.get_none hNew
      subst hn
      apply Linear.create hMax
      case hRoom    => simp; rfl
      case hVersion => rfl
      case hCount   => rfl
      case hMember  =>
        intro a
        by_cases ha : a = ‹Identity›.agent <;> simp [newRoomItem, newMemberItem, ha, hm]
    case neg => exact h.congr (by simp [hr]) (by simp [hr])
  case grantNew roomID target _ _ _ input roomKey' room _ hRoom hKey hTarget _ hNotOwner _ hFound _
      hVersion hLimit hNew _ hWrites =>
    have hID := normalizeRoomID_ok hRoom
    by_cases hr : roomKey = roomKey'
    case pos =>
      subst hr
      have hu : allowlistUpdate roomKey items (.grantAllowlist ‹_› input) =
          some ⟨input.expectedRoomVersion, target, input.role⟩ := by
        simp [allowlistUpdate, hWrites, hTarget, Except.toOption, hKey, hID]
      rw [hu]
      refine h.update hFound hVersion (by simp [hNew]) (by simpa using hNotOwner) (by simp; rfl)
        (by simp [hNew]) hLimit fun a => ?_
      by_cases ha : a = target <;> simp [ha, newMemberItem]
    case neg =>
      simp only [allowlistUpdate, ←hID, ←hKey, Ne.symm hr, and_false, if_false, Option.toList_none,
        List.append_nil]
      exact h.congr (by simp [hr]) (by simp [hr])
  case regrant roomID target _ _ _ input roomKey' room member _ _ hRoom hKey hTarget _ hNotOwner _
      hFound _ hVersion hMember hOldRole _ hWrites =>
    have hID := normalizeRoomID_ok hRoom
    by_cases hr : roomKey = roomKey'
    case pos =>
      subst hr
      have hu : allowlistUpdate roomKey items (.grantAllowlist ‹_› input) =
          some ⟨input.expectedRoomVersion, target, input.role⟩ := by
        simp [allowlistUpdate, hWrites, hTarget, Except.toOption, hKey, hID]
      have hLimit := (h.get hFound).limit
      rw [hu]
      refine h.update hFound hVersion (by simp [hMember, hOldRole]) (by simpa using hNotOwner)
        (by simp; rfl) (by simp [hMember]) (by simpa using hLimit) fun a => ?_
      by_cases ha : a = target <;> simp [ha, regrantedMember, regrantedItem, newMemberItem]
    case neg =>
      simp only [allowlistUpdate, ←hID, ←hKey, Ne.symm hr, and_false, if_false, Option.toList_none,
        List.append_nil]
      exact h.congr (by simp [hr]) (by simp [hr])
  case revoke roomID target _ _ input roomKey' room member _ hRoom hKey hTarget _ hFound _ hVersion
      hMember hOldRole _ _ hWrites =>
    have hID := normalizeRoomID_ok hRoom
    by_cases hr : roomKey = roomKey'
    case pos =>
      subst hr
      have hu : allowlistUpdate roomKey items (.revokeAllowlist ‹_› input) =
          some ⟨input.expectedRoomVersion, target, none⟩ := by
        simp [allowlistUpdate, hWrites, hTarget, Except.toOption, hKey, hID]
      have hLimit := (h.get hFound).limit
      rw [hu]
      refine h.update (n := -1) hFound hVersion (by simp [hMember, hOldRole]) (by simp)
        (by split_ifs <;> simp <;> rfl) (by simp [hMember]) (by omega) fun a => ?_
      by_cases ha : a = target <;> split_ifs <;> simp [ha]
    case neg =>
      simp only [allowlistUpdate, ←hID, ←hKey, Ne.symm hr, and_false, if_false, Option.toList_none,
        List.append_nil]
      exact h.congr (by split_ifs <;> simp [hr]) (by intro a; split_ifs <;> simp [hr])

end Commit

-- Whatever calls run concurrently, and however their steps interleave, the allowlist of every room
-- is linear.
theorem allowlist_linear {roomKey : GoString} {tr : List (system limits).Event}
    {C : (system limits).Config} (h : (system limits).Run tr C)
    (hMax : 1 ≤ limits.maxMembersPerRoom) (hRoom : (BoardKey.room roomKey).key ∈ C.store.keys) :
    ∃ room, stored C.store (.room roomKey) = some room ∧
      AllowlistLinear (stored C.store) (memberKeys C.store roomKey).card limits.maxMembersPerRoom
        roomKey room (updates roomKey tr) := by
  have ⟨B, hRep, hB⟩ := run_contents
    (I := fun tr B => Linear limits.maxMembersPerRoom B roomKey (updates roomKey tr))
    (.absent GoMap.get_empty fun _ => GoMap.get_empty)
    (fun h _ hn => by rw [updates_append, hn]; simpa using h)
    (fun h _ _ hc hCommit => by rw [updates_append, hc]; exact hCommit.linear hMax h) h
  have hStored : stored C.store = (B[·]?) := funext (stored_eq hRep)
  have ⟨_, hFound⟩ := (mem_keys_iff hRep).mp hRoom
  generalize updates roomKey tr = ups at hB ⊢
  cases hB
  case absent hn _   => cases hn.symm.trans hFound
  case present hr hl =>
    have hi : Function.Injective fun a => (BoardKey.member roomKey a).key :=
      BoardKey.key_injective.comp fun _ _ => by simp
    rw [hStored, memberKeys_eq hRep hl.replayed, Finset.card_image_of_injective _ hi]
    exact ⟨_, hr, hl⟩

end Runs

attribute [local instance] asciiPlatform in
theorem allowlist_linear_grant :
    let roomKey := Base64.encode "lobby"
    ∃ tr C room, (system ⟨50, 100⟩).Run tr C ∧ stored C.store (.room roomKey) = some room ∧
      AllowlistLinear (stored C.store) (memberKeys C.store roomKey).card 100 roomKey room
        (updates roomKey tr) := by
  have h : ((system ⟨50, 100⟩).replay [] ⟨(system ⟨50, 100⟩).init, []⟩
      (moves 0 Sample.create 3 ++ moves 1 (Sample.grant .poster 1) 5)).any fun x =>
        (BoardKey.room (Base64.encode "lobby")).key ∈ x.2.store.keys := by
    decide
  have ⟨⟨tr, C⟩, hr, hRoom⟩ := (Option.any_eq_true _ _).mp h
  have hRun := System.replay_run .init hr
  have ⟨room, hStored, hLinear⟩ := allowlist_linear hRun (by decide) (of_decide_eq_true hRoom)
  exact ⟨tr, C, room, hRun, hStored, hLinear⟩

end Board.Dynamo
