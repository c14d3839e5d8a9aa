import CookbookModel.Board.Dynamo.Theorems.Reservations
import CookbookModel.Board.Theorems.SideBySide

namespace Board

open GoString DynamoDB
open Dynamo
open Memory (Stamp Step Change Located)

section

def Dynamo.drawnTime : (Σ o, Op.Res o) → Option Time
  | ⟨.now, t⟩ => some t
  | _         => none

def Dynamo.drawnID : (Σ o, Op.Res o) → Option GoString
  | ⟨.ulid, u⟩ => some u
  | _          => none

-- What a method has read from outside the table.
def Dynamo.stampOf (path : List (Σ o, Op.Res o)) : Stamp where
  now  := (path.findSome? drawnTime).getD .zero
  ulid := (path.findSome? drawnID).getD []

variable [Platform] {limits : Limits}

-- The call of a step that carries out a transaction which writes.
def commitOf (tr : List (system limits).Event) (e : (system limits).Event) : Option (Call × Stamp) :=
  (committed e.op e.outcome e.store).bind fun items =>
    if items.any (·.writes) then some (e.call, stampOf (System.path e.thread tr)) else none

def commitsFrom (before : List (system limits).Event) :
    List (system limits).Event → List (Call × Stamp)
  | []      => []
  | e :: tr => (commitOf before e).toList ++ commitsFrom (before ++ [e]) tr

-- The calls that have written, in the order in which their transactions were carried out.
def commits (tr : List (system limits).Event) : List (Call × Stamp) :=
  commitsFrom [] tr

-- The memory store on which these calls were made one after another, and what they have returned.
def serially (tr : List (system limits).Event) :
    List (Completed Call Stamp (Except Err Reply)) × MemoryStore :=
  History.replay Memory.exec (commits tr) (.new limits.maxRoomsPerAgent limits.maxMembersPerRoom)

-- A run is as good as its writing calls one after another in memory.
structure Serial (tr : List (system limits).Event) (T : Table) : Prop where
  succeed : ∀ c ∈ (serially tr).1, c.result.toOption.isSome
  rooms   : ∀ roomID, (serially tr).2.roomState roomID = Dynamo.roomState T roomID

-- When a transaction is carried out, there still is what its call has set out to change.
def Timely (stored : BoardKey → Option DdbItem) (path : List (Σ o, Op.Res o))
    (items : List TransactWriteItem) : Call → Prop
  | .grantAllowlist _ input  =>
    items.any (·.writes) → ∀ target member, canonicalDNSName input.targetAgent = .ok target →
      stored (.member (Base64.encode input.roomID) target) = some member → member.role ≠ input.role
  | .setNickname actor input =>
    FindsRead stored (Base64.encode input.roomID) path items (.setNickname actor input) ∧
    (items.any (·.writes) → ∀ nickname nicknameKey member,
      Board.nickname input.nickname = .ok (nickname, nicknameKey) →
      stored (.member (Base64.encode input.roomID) actor.agent) = some member →
      member.nickname ≠ nickname)
  | _ => True

end

variable [Platform] {limits : Limits} {s s' : MemoryStore} {B B' : Contents} {T T' : Table}
  {c : Call} {path : List (Σ o, Op.Res o)} {items : List TransactWriteItem} {reply : Reply}
  {tr : List (system limits).Event} {e : (system limits).Event}

section Commits

theorem commitsFrom_append {before : List (system limits).Event} :
    commitsFrom before (tr ++ [e]) = commitsFrom before tr ++ (commitOf (before ++ tr) e).toList := by
  induction tr generalizing before
  case nil          => simp [commitsFrom]
  case cons e tr hi => simp [commitsFrom, hi]

theorem serially_none (h : commitOf tr e = none) : serially (tr ++ [e]) = serially tr := by
  simp [serially, commits, commitsFrom_append, h]

theorem serially_some (h : commitOf tr e = some (c, w)) :
    serially (tr ++ [e]) = ((serially tr).1 ++ [⟨c, w, (Memory.exec c w (serially tr).2).1⟩],
      (Memory.exec c w (serially tr).2).2) := by
  simp [serially, commits, commitsFrom_append, h, History.replay_append, History.replay]

end Commits

section Steps

variable {key u : GoString} {r r' : RoomRecord} {rules : List (Rule BoardKey DdbItem)}

theorem Related.change_step (hR : Related limits s B) (hValid : normalizeRoomID c.roomID = .ok c.roomID)
    (hl : Located s c.roomID key r) (hChange : Change w s.maxMembersPerRoom r c reply r')
    (hAbout : About key u rules) (hm : r'.Matches key (Rules.apply rules B)) :
    ∃ reply s', Step w s c reply s' ∧ Related limits s' (Rules.apply rules B) := by
  have hStep : Step w s c reply (s.putRecord key r') := .change hValid hl hChange
  exact ⟨_, _, hStep, hR.change (hStep.sound hR.sound) hm fun _ => hAbout.other⟩

-- The room that an item belongs to.
theorem Related.located_item {k : BoardKey} (hR : Related limits s B)
    (hk : k.roomKey? = some (Base64.encode roomID)) (hd : B[k]? = some d) :
    ∃ r, Located s roomID (Base64.encode roomID) r ∧ r.Matches (Base64.encode roomID) B ∧
      r.Sound (max 1 s.maxMembersPerRoom) ∧ r.room.roomID = roomID := by
  obtain ⟨r, hr, hm⟩ := hR.record hk hd
  have hl := hR.located hr
  exact ⟨r, hl, hm, hR.sound.records hr, (hR.key_eq hl).right⟩

variable {actor : Identity} {w : Stamp}

theorem Related.acting {version : Int} {action : Action} (hR : Related limits s B)
    (h : (actorRule key agent version action).guard B[BoardKey.member key agent]?)
    (hKey : key = Base64.encode roomID) :
    ∃ r, Located s roomID key r ∧ r.Matches key B ∧ r.Sound (max 1 s.maxMembersPerRoom) ∧
      r.room.roomID = roomID := by
  subst hKey
  obtain ⟨d, hd, _⟩ := h
  exact hR.located_item rfl hd

section Allowlist

variable {target : GoString} {capabilities : List Capability}

theorem Related.grantNew_commit {input : GrantInput} (hR : Related limits s B)
    (hRoom : normalizeRoomID input.roomID = .ok input.roomID)
    (hTarget : canonicalDNSName input.targetAgent = .ok target)
    (hRole : capabilitiesForRole input.role = some capabilities) (hNotOwner : input.role ≠ .owner)
    (hKey : key = Base64.encode input.roomID) :
    let rules := grantRules key actor input limits.maxMembersPerRoom target w.ulid
      (newMemberItem input.roomID key target input.role capabilities actor.agent w.now.format)
      (auditItem key "allowlist_granted" actor.agent target input.role input.tokenJTIHash
        w.now.format w.ulid) w.now.format true
    Rules.Allowed rules B →
      ∃ reply s', Step w s (.grantAllowlist actor input) reply s' ∧
        Related limits s' (Rules.apply rules B) := by
  intro rules hAllowed
  obtain ⟨r, hl, hm, hs, hID⟩ := hR.acting (hAllowed _ List.mem_cons_self) hKey
  obtain ⟨_, _, hAbsent, hu⟩ := hm.grantNew_allowed.mp hAllowed
  have hChange := hm.grantNew_change (w := w) hs hTarget hRole hNotOwner hAllowed
  rw [←hR.maxMembers] at hChange
  refine hR.change_step hRoom hl hChange about_grant ?_
  dsimp only [rules]
  rw [←hID]
  exact hm.grantNew_effect hAbsent hu rfl

theorem Related.regrant_commit {input : GrantInput} {read : DdbItem} (hR : Related limits s B)
    (hRoom : normalizeRoomID input.roomID = .ok input.roomID)
    (hTarget : canonicalDNSName input.targetAgent = .ok target) (hSelf : target ≠ actor.agent)
    (hRole : capabilitiesForRole input.role = some capabilities) (hNotOwner : input.role ≠ .owner)
    (hKey : key = Base64.encode input.roomID)
    (hTimely : ∀ member, B[BoardKey.member key target]? = some member → member.role ≠ input.role) :
    let rules := grantRules key actor input limits.maxMembersPerRoom target w.ulid
      (regrantedItem (newMemberItem input.roomID key target input.role capabilities actor.agent
        w.now.format) read)
      (auditItem key "allowlist_granted" actor.agent target input.role input.tokenJTIHash
        w.now.format w.ulid) w.now.format false
    Rules.Allowed rules B →
      ∃ reply s', Step w s (.grantAllowlist actor input) reply s' ∧
        Related limits s' (Rules.apply rules B) := by
  intro rules hAllowed
  obtain ⟨r, hl, hm, hs, _⟩ := hR.acting (hAllowed _ List.mem_cons_self) hKey
  obtain ⟨_, _, ⟨m, hMember, _⟩, hu⟩ := hm.regrant_allowed.mp hAllowed
  obtain ⟨item, hItem, rfl⟩ := hm.member hMember
  exact hR.change_step hRoom hl
    (hm.regrant_change hs hTarget hSelf hRole hNotOwner hMember (hTimely item hItem) hAllowed)
    about_grant (hm.regrant_effect hMember hu rfl)

theorem Related.revoke_commit {input : RevokeInput} {read : DdbItem} (hR : Related limits s B)
    (hRoom : normalizeRoomID input.roomID = .ok input.roomID)
    (hTarget : canonicalDNSName input.targetAgent = .ok target) (hSelf : target ≠ actor.agent)
    (hKey : key = Base64.encode input.roomID) :
    let rules := revokeRules key actor input target w.ulid read
      (auditItem key "allowlist_revoked" actor.agent target .zero input.tokenJTIHash w.now.format
        w.ulid) w.now.format
    Rules.Allowed rules B →
      ∃ reply s', Step w s (.revokeAllowlist actor input) reply s' ∧
        Related limits s' (Rules.apply rules B) := by
  intro rules hAllowed
  obtain ⟨r, hl, hm, hs, _⟩ := hR.acting (hAllowed _ List.mem_cons_self) hKey
  obtain ⟨_, _, _, hu, _⟩ := hm.revoke_allowed.mp hAllowed
  obtain ⟨m, hMember, hNickname, hChange⟩ := hm.revoke_change hs hTarget hSelf hAllowed
  exact hR.change_step hRoom hl hChange about_revoke (hm.revoke_effect hMember hNickname hu)

end Allowlist

theorem Related.setNickname_commit {input : SetNicknameInput} {read : DdbItem}
    {name nameKey : GoString} (hR : Related limits s B)
    (hRoom : normalizeRoomID input.roomID = .ok input.roomID)
    (hNickname : nickname input.nickname = .ok (name, nameKey))
    (hRole : roleCan read.role .updateNickname) (hKey : key = Base64.encode input.roomID)
    (hFinds : ∀ member, B[BoardKey.member key actor.agent]? = some member →
      (member.nicknameKey = read.nicknameKey ∨
        read.nicknameKey = [] ∧ member.nicknameKey = nameKey) ∧ member.nickname ≠ name) :
    let rules := setNicknameRules input.roomID key actor.agent input.actorMemberVersion read name
      nameKey w.now.format
    Rules.Allowed rules B →
      ∃ reply s', Step w s (.setNickname actor input) reply s' ∧
        Related limits s' (Rules.apply rules B) := by
  intro rules hAllowed
  subst hKey
  obtain ⟨d, hd, _⟩ := hAllowed (roomOpenRule (Base64.encode input.roomID))
    (by simp [rules, setNicknameRules])
  obtain ⟨r, hl, hm, _, _⟩ := hR.located_item rfl hd
  obtain ⟨_, ⟨m, hMember, _⟩, _⟩ := hm.setNickname_allowed.mp hAllowed
  obtain ⟨item, hItem, rfl⟩ := hm.member hMember
  obtain ⟨hFinds, hChange⟩ := hFinds item hItem
  have hFree := hm.rename_free (nicknameKey_ne_nil hNickname) hMember hFinds hAllowed
  exact hR.change_step hRoom hl
    (hm.rename_change hNickname hRole hMember hFinds (fun h => hChange h.left) hAllowed)
    (about_setNickname (u := w.ulid)) (hm.rename_effect hNickname hMember hFinds hFree)

theorem Related.post_commit {input : PostInput} (hR : Related limits s B)
    (hRoom : normalizeRoomID input.roomID = .ok input.roomID)
    (hNonempty : input.idempotencyKey ≠ []) (hKey : key = Base64.encode input.roomID) :
    let rules := postRules key actor input ("msg_" ++ w.ulid)
      (idempotencyItem key actor.agent input ("msg_" ++ w.ulid) w.now.format)
      (messageItem input.roomID key actor.agent input ("msg_" ++ w.ulid) w.now.format)
    Rules.Allowed rules B →
      ∃ reply s', Step w s (.postMessage actor input) reply s' ∧
        Related limits s' (Rules.apply rules B) := by
  intro rules hAllowed
  obtain ⟨r, hl, hm, _, hID⟩ :=
    hR.acting (hAllowed _ (List.mem_cons_of_mem _ List.mem_cons_self)) hKey
  obtain ⟨_, _, _, hu⟩ := hm.post_allowed.mp hAllowed
  refine hR.change_step hRoom hl (hm.post_change hNonempty hAllowed) about_post ?_
  dsimp only [rules]
  rw [←hID]
  exact hm.post_effect hu rfl

-- A timely transaction does in the table what its call does in memory.
theorem Related.commit (hR : Related limits s B) (hRep : Represents T B)
    (hMax : 0 < limits.maxRoomsPerAgent) (hc : Transacts limits c path items)
    (hT : T.transactWriteItems items = .ok T') (hWrites : items.any (·.writes) = true)
    (hTimely : Timely (B[·]?) path items c) :
    ∃ reply s' B', Step (stampOf path) s c reply s' ∧ Represents T' B' ∧ Related limits s' B' := by
  have hInj := BoardKey.key_injective
  cases hc
  case createRoom t u actor input key hRoom hKey =>
    cases normalizeRoomID_ok hRoom
    subst hKey
    obtain ⟨hAllowed, hRep'⟩ := hRep.transact hInj (realizes_createRoom _) hT
    obtain ⟨hFresh, hQuota⟩ := (hR.createRoom_allowed hMax rfl).mp hAllowed
    have hStep : Step ⟨t, u⟩ s (.createRoom actor input) _ _ :=
      .create hRoom hFresh hQuota rfl rfl
    have hR' := hR.createRoom_effect (w := ⟨t, u⟩) hRoom hFresh hQuota rfl rfl rfl rfl
    exact ⟨_, _, _, hStep, hRep', hR'⟩
  case grant t u _ input _ existing hRoom hKey hTarget hRole hNotOwner hSelf _ _ _ _ =>
    cases normalizeRoomID_ok hRoom
    obtain ⟨hAllowed, hRep'⟩ := hRep.transact hInj
      (realizes_grant existing input limits.maxMembersPerRoom (role_ne_zero hRole)) hT
    cases existing
    case none =>
      obtain ⟨reply, s', hStep, hR'⟩ := hR.grantNew_commit (w := ⟨t, u⟩) hRoom hTarget hRole
        hNotOwner hKey hAllowed
      exact ⟨reply, s', _, hStep, hRep', hR'⟩
    case some existing =>
      have hDiffers := fun member => hTimely hWrites _ member hTarget
      rw [←hKey] at hDiffers
      obtain ⟨reply, s', hStep, hR'⟩ := hR.regrant_commit (w := ⟨t, u⟩) hRoom hTarget hSelf hRole
        hNotOwner hKey hDiffers hAllowed
      exact ⟨reply, s', _, hStep, hRep', hR'⟩
  case revoke t u _ input _ read hRoom hKey hTarget hSelf _ _ _ =>
    cases normalizeRoomID_ok hRoom
    obtain ⟨hAllowed, hRep'⟩ := hRep.transact hInj (realizes_revoke input read) hT
    obtain ⟨reply, s', hStep, hR'⟩ := hR.revoke_commit (w := ⟨t, u⟩) hRoom hTarget hSelf hKey
      hAllowed
    exact ⟨reply, s', _, hStep, hRep', hR'⟩
  case setNickname t _ input _ read _ hRoom hKey hNickname hMember hRole _ =>
    cases normalizeRoomID_ok hRoom
    obtain ⟨hAllowed, hRep'⟩ := hRep.transact hInj
      (realizes_setNickname _ read (nicknameKey_ne_nil hNickname)) hT
    obtain ⟨hFinds, hDiffers⟩ := hTimely
    rw [←hKey] at hFinds hDiffers
    obtain ⟨reply, s', hStep, hR'⟩ := hR.setNickname_commit (w := ⟨t, []⟩) hRoom hNickname hRole hKey
      (fun member hd => ⟨hFinds hWrites hKey.symm _ _ _ _ _ hNickname List.mem_cons_self hMember hd,
        hDiffers hWrites _ _ _ hNickname hd⟩) hAllowed
    exact ⟨reply, s', _, hStep, hRep', hR'⟩
  case post t u _ input _ hRoom hKey hNonempty _ =>
    cases normalizeRoomID_ok hRoom
    obtain ⟨hAllowed, hRep'⟩ := hRep.transact hInj (realizes_post input) hT
    obtain ⟨reply, s', hStep, hR'⟩ := hR.post_commit (w := ⟨t, u⟩) hRoom hNonempty hKey hAllowed
    exact ⟨reply, s', _, hStep, hRep', hR'⟩
  case grantGuard       => contradiction
  case setNicknameGuard => contradiction
  case postGuard        => contradiction

end Steps

section Differs

variable {key roomID : GoString} {r r' : RoomRecord} {actor : Identity} {w : Stamp}

-- A room of the memory store that is the same in the table.
structure Agrees (B : Contents) (key : GoString) (r : RoomRecord) : Prop where
  room      : B[BoardKey.room key]?.map roomFromItem = some r.room
  members   : ∀ a, B[BoardKey.member key a]?.map membershipFromItem = r.members[a]?
  nicknames : ∀ k, B[BoardKey.nickname key k]?.map (·.agent) = r.nicknames[k]?

omit [Platform] in
theorem agrees (hRep : Represents T B) (hl : Located s roomID (Base64.encode roomID) r)
    (h : s.roomState roomID = Dynamo.roomState T roomID) : Agrees B (Base64.encode roomID) r := by
  have hRecord : s.record roomID = some r := by simp [MemoryStore.record, hl.byID, hl.byKey]
  simp only [MemoryStore.roomState, Dynamo.roomState, hRecord, stored_eq hRep,
    RoomState.mk.injEq] at h
  obtain ⟨hRoom, hMembers, hNicknames, _⟩ := h
  exact ⟨hRoom.symm, fun a => (congrFun hMembers a).symm, fun k => (congrFun hNicknames k).symm⟩

theorem Agrees.exact (h : Agrees B key r) (hi : r.Indexed) :
    Exact (holders (B[·]?) key) (nicknameKeys (B[·]?) key) := by
  intro k a
  have hMember := h.members a
  rw [holders, h.nicknames k, hi.exact, RoomRecord.Holds, ←hMember, nicknameKeys]
  cases B[BoardKey.member key a]? <;> simp [membershipFromItem, and_comm]

-- What a call has done to a room of the memory store, it has done in the table.
theorem Related.step_agrees (hR : Related limits s B) (hStep : Step w s c reply s')
    (hc : ∀ actor input, c ≠ .createRoom actor input) (hRep' : Represents T' B')
    (hRooms : ∀ roomID, s'.roomState roomID = Dynamo.roomState T' roomID)
    (hKey : key = Base64.encode c.roomID) :
    ∃ reply r r', r.Matches key B ∧ Change w s.maxMembersPerRoom r c reply r' ∧
      Agrees B' key r' := by
  cases hStep
  case create => exact absurd rfl (hc _ _)
  case change r r' _ hl hChange =>
    obtain ⟨hKey', _⟩ := hR.key_eq hl
    cases hKey.trans hKey'.symm
    subst hKey'
    have hl' : Located (s.putRecord _ r') c.roomID _ r' := ⟨hl.byID, GoMap.get_set_self⟩
    exact ⟨reply, r, r', hR.records hl.byKey, hChange, agrees hRep' hl' (hRooms _)⟩

theorem Related.regrant_timely {input : GrantInput} {target : GoString} {member room : DdbItem}
    {change : Int} (hR : Related limits s B)
    (hStep : Step w s (.grantAllowlist actor input) reply s') (hRep' : Represents T' B')
    (hRooms : ∀ roomID, s'.roomState roomID = Dynamo.roomState T' roomID)
    (hKey : key = Base64.encode input.roomID)
    (hTarget : canonicalDNSName input.targetAgent = .ok target)
    (hRoom : B[BoardKey.room key]? = some room)
    (hRoom' : B'[BoardKey.room key]? = some (changedRoom room change nowText))
    (hMember : B[BoardKey.member key target]? = some member) : member.role ≠ input.role := by
  obtain ⟨_, r, r', hm, hChange, hAgrees⟩ := hR.step_agrees hStep (by simp) hRep' hRooms hKey
  have hMembers := hm.members target
  rw [hMember, Option.map_some] at hMembers
  revert hAgrees
  cases hChange <;> intro hAgrees
  case grantSame =>
    -- The version of the room has grown in the table, but not in memory.
    have hSame := hAgrees.room.trans hm.room.symm
    rw [hRoom, hRoom'] at hSame
    have hVersion := congrArg Room.version (Option.some_inj.mp hSame)
    simp [roomFromItem, changedRoom] at hVersion
  case grantNew hAbsent _ _ _ hChecks _ =>
    cases hTarget.symm.trans hChecks.canon
    rw [hAbsent] at hMembers
    contradiction
  case grantChange hFound _ _ _ hDiffers hChecks _ =>
    cases hTarget.symm.trans hChecks.canon
    cases hMembers.trans hFound
    exact hDiffers

theorem Related.rename_timely {input : SetNicknameInput} {name nameKey : GoString}
    {member : DdbItem} (hR : Related limits s B)
    (hStep : Step w s (.setNickname actor input) reply s') (hRep' : Represents T' B')
    (hRooms : ∀ roomID, s'.roomState roomID = Dynamo.roomState T' roomID)
    (hKey : key = Base64.encode input.roomID)
    (hNickname : nickname input.nickname = .ok (name, nameKey))
    (hMember : B[BoardKey.member key actor.agent]? = some member)
    (hMember' : B'[BoardKey.member key actor.agent]?.map (·.version) = some (member.version + 1)) :
    member.nickname ≠ name ∧ Exact (holders (B[·]?) key) (nicknameKeys (B[·]?) key) ∧
      Exact (holders (B'[·]?) key) (nicknameKeys (B'[·]?) key) := by
  obtain ⟨_, r, r', hm, hChange, hAgrees⟩ := hR.step_agrees hStep (by simp) hRep' hRooms hKey
  have hAgreed : Agrees B key r := ⟨hm.room, hm.members, hm.nicknames⟩
  refine ⟨fun hSame => ?_, hAgreed.exact hm.indexed, hAgrees.exact (hChange.indexed hm.indexed)⟩
  have hMembers := hm.members actor.agent
  have hMembers' := hAgrees.members actor.agent
  rw [hMember, Option.map_some] at hMembers
  clear hAgrees
  revert hMembers'
  cases hChange <;> intro hMembers'
  case nicknameSame =>
    -- The version of the membership has grown in the table, but not in memory.
    obtain ⟨d, hd, hVersion⟩ := Option.map_eq_some_iff.mp hMember'
    rw [hd, Option.map_some] at hMembers'
    have hSame := congrArg Membership.version (Option.some_inj.mp (hMembers'.trans hMembers.symm))
    simp [membershipFromItem, hVersion] at hSame
  case nicknameChange _ hDiffers _ hNickname' hActor =>
    cases hNickname.symm.trans hNickname'
    cases hMembers.trans hActor.member
    have hFolded := hm.indexed.folded hActor.member
    rw [show (membershipFromItem member).nickname = name from hSame, ←(nickname_ok hNickname).right]
      at hFolded
    exact hDiffers ⟨hSame, hFolded⟩

-- A transaction that is not timely makes the table differ from the memory store.
theorem Related.timely (hR : Related limits s B) (hc : Commit limits B c path items B')
    (hRooms : ∀ roomID, s'.roomState roomID = Dynamo.roomState T' roomID) :
    Step w s c reply s' → Represents T' B' → Timely (B[·]?) path items c := by
  have hFinds : ∀ key, Exact (holders (B[·]?) key) (nicknameKeys (B[·]?) key) →
      (Exact (holders (B'[·]?) key) (nicknameKeys (B'[·]?) key) ↔
        FindsRead (B[·]?) key path items c) := fun _ => hc.exact
  revert hFinds
  cases hc <;> intro hFinds hStep hRep'
  case guard hReads => cases c <;> simp [Timely, FindsRead, hReads]
  case createRoom   => trivial
  case revoke       => trivial
  case post         => trivial
  case grantNew hRoom hKey hTarget _ _ _ _ _ _ _ hNew _ _ =>
    cases normalizeRoomID_ok hRoom
    intro _ target member hTarget' hMember
    cases hTarget.symm.trans hTarget'
    rw [hKey] at hNew
    cases hMember.symm.trans hNew
  case regrant hRoom hKey hTarget _ _ _ hFound _ _ _ _ _ _ =>
    cases normalizeRoomID_ok hRoom
    intro _ target member hTarget' hMember
    cases hTarget.symm.trans hTarget'
    exact hR.regrant_timely hStep hRep' hRooms hKey hTarget hFound
      ((GoMap.get_set_ne (by simp)).trans <| (GoMap.get_set_ne (by simp)).trans GoMap.get_set_self)
      (hKey ▸ hMember)
  case setNickname hRoom hKey hNickname _ _ _ hMember _ _ _ _ _ =>
    cases normalizeRoomID_ok hRoom
    obtain ⟨hDiffers, hExact, hExact'⟩ := hR.rename_timely hStep hRep' hRooms hKey hNickname hMember
      (by split_ifs <;> simp [GoMap.get_set, GoMap.get_delete, renamedMember])
    subst hKey
    refine ⟨(hFinds _ hExact).mp hExact', fun _ nickname nicknameKey member hNickname' hMember' => ?_⟩
    cases hNickname.symm.trans hNickname'
    cases hMember.symm.trans hMember'
    exact hDiffers

end Differs

section Runs

variable {C : (system limits).Config}

-- What the step has carried out was timely.
def TimelyAt (tr : List (system limits).Event) (e : (system limits).Event) : Prop :=
  ∀ items ∈ committed e.op e.outcome e.store,
    Timely (stored e.store) (System.path e.thread tr) items e.call

theorem Timely.of_reads {stored : BoardKey → Option DdbItem} (h : items.any (·.writes) = false) :
    Timely stored path items c := by
  cases c <;> simp [Timely, FindsRead, h]

theorem Dynamo.Commit.of_reads (hc : Commit limits B c path items B')
    (h : items.any (·.writes) = false) : B' = B := by
  cases hc
  case guard => rfl
  all_goals simp_all

-- The memory store has followed the run so far.
structure Follows (tr : List (system limits).Event) (B : Contents) : Prop where
  related : Related limits (serially tr).2 B
  succeed : ∀ c ∈ (serially tr).1, c.result.toOption.isSome

theorem Follows.serial (h : Follows tr B) (hRep : Represents T B) : Serial tr T where
  succeed := h.succeed
  rooms   := h.related.roomState_eq hRep

-- A step is followed exactly if it is timely.
theorem Follows.step (h : Follows tr B) (hMax : 0 < limits.maxRoomsPerAgent)
    (hRep : Represents e.store B)
    (he : (method limits e.call).Emits (System.path e.thread tr) e.op) :
    (Serial (tr ++ [e]) e.post ↔ TimelyAt tr e) ∧
    (TimelyAt tr e → ∃ B', Represents e.post B' ∧ Follows (tr ++ [e]) B') := by
  have hStored : stored e.store = (B[·]?) := funext (stored_eq hRep)
  suffices hs : (Serial (tr ++ [e]) e.post → TimelyAt tr e) ∧
      (TimelyAt tr e → ∃ B', Represents e.post B' ∧ Follows (tr ++ [e]) B') from
    ⟨⟨hs.left, fun ht => by obtain ⟨B', hRep', h'⟩ := hs.right ht; exact h'.serial hRep'⟩, hs.right⟩
  -- A step that writes nothing leaves both the table and the memory store alone.
  have hIdle (hn : commitOf tr e = none) (hRep' : Represents e.post B) :
      ∃ B', Represents e.post B' ∧ Follows (tr ++ [e]) B' := by
    refine ⟨B, hRep', ?_, ?_⟩ <;> rw [serially_none hn]
    case refine_1 => exact h.related
    case refine_2 => exact h.succeed
  cases hc : committed e.op e.outcome e.store
  case none =>
    have hPost : e.post = e.store := committed_none hc
    exact ⟨fun _ => by simp [TimelyAt, hc], fun _ => hIdle (by simp [commitOf, hc]) (hPost ▸ hRep)⟩
  case some items =>
    obtain ⟨ho, hT⟩ := committed_some hc
    have hTransacts := method_transacts (ho ▸ he)
    obtain ⟨B', hCommit, hRep'⟩ := hTransacts.commit hRep hT
    have hTimely : TimelyAt tr e ↔ Timely (B[·]?) (System.path e.thread tr) items e.call := by
      simp [TimelyAt, hc, hStored]
    rw [hTimely]
    cases hWrites : items.any (·.writes)
    case false =>
      have hNone : commitOf tr e = none := by rw [commitOf, hc, Option.bind_some, hWrites]; rfl
      cases hCommit.of_reads hWrites
      exact ⟨fun _ => .of_reads hWrites, fun _ => hIdle hNone hRep'⟩
    case true =>
      have hSome : commitOf tr e = some (e.call, stampOf (System.path e.thread tr)) := by
        rw [commitOf, hc, Option.bind_some, if_pos hWrites]
      constructor
      case left =>
        intro hSerial
        obtain ⟨hSucceed, hRooms⟩ := hSerial
        rw [serially_some hSome] at hSucceed hRooms
        cases Memory.exec_cases e.call (stampOf (System.path e.thread tr)) (serially tr).2
        case inl hFails =>
          obtain ⟨err, hFails⟩ := hFails
          have hOk := hSucceed _ (List.mem_append_right _ (List.mem_singleton_self _))
          rw [hFails] at hOk
          contradiction
        case inr hOk =>
          obtain ⟨reply, s', hExec, hStep⟩ := hOk
          rw [hExec] at hRooms
          exact h.related.timely hCommit hRooms hStep hRep'
      case right =>
        intro ht
        obtain ⟨reply, s', B'', hStep, hRep'', hR⟩ :=
          h.related.commit hRep hMax hTransacts hT hWrites ht
        refine ⟨B'', hRep'', ?_, ?_⟩ <;> rw [serially_some hSome, Memory.exec_ok.mpr hStep]
        case refine_1 => exact hR
        case refine_2 =>
          exact List.forall_mem_append.mpr ⟨h.succeed, List.forall_mem_singleton.mpr rfl⟩

-- The rooms in the table are throughout a run those that the writing calls make one after another in
-- memory if and only if each of them was timely.
theorem commits_serialize (hMax : 0 < limits.maxRoomsPerAgent) (h : (system limits).Run tr C) :
    System.Each (fun tr e => Serial (tr ++ [e]) e.post) tr ↔ System.Each TimelyAt tr := by
  have hRun := h.induction (I := fun tr T =>
    (System.Each (fun tr e => Serial (tr ++ [e]) e.post) tr ↔ System.Each TimelyAt tr) ∧
    (System.Each TimelyAt tr → ∃ B, Represents T B ∧ Follows tr B))
    ⟨by simp, fun _ => ⟨∅, View.Represents.empty, .init, by simp [serially, commits, commitsFrom,
      History.replay]⟩⟩ ?_
  case refine_1 =>
    intro tr e hI he _
    obtain ⟨hSame, hFollows⟩ := hI
    rw [System.each_append_singleton, System.each_append_singleton, hSame]
    constructor
    case left =>
      refine and_congr_right fun hEach => ?_
      obtain ⟨B, hRep, hB⟩ := hFollows hEach
      exact (hB.step hMax hRep he).left
    case right =>
      rintro ⟨hEach, ht⟩
      obtain ⟨B, hRep, hB⟩ := hFollows hEach
      exact (hB.step hMax hRep he).right ht
  exact hRun.left

end Runs

end Board

namespace Board.Sample

open DynamoDB Dynamo

attribute [local instance] asciiPlatform

-- Bob posts a message while his nickname is being set.
def postWhileRenamed : List (System.Action Outcome Call) :=
  moves 0 create 3 ++
  moves 1 (grant .poster 1) 5 ++
  moves 2 (rename bob "Bo" 1) 1 ++
  moves 3 (post bob "key" 1) 4 ++
  List.replicate 2 (.step 2 ⟨.zero, [], .served⟩)

theorem commits_serialize_lobby :
    ∃ tr C, (system ⟨50, 100⟩).Run tr C ∧ (commits tr).length = 4 ∧
      (System.Each (fun tr e => Serial (tr ++ [e]) e.post) tr ↔ System.Each TimelyAt tr) := by
  have h : ((system ⟨50, 100⟩).replay [] ⟨(system ⟨50, 100⟩).init, []⟩ postWhileRenamed).any
      fun x => (commits x.1).length = 4 := by
    decide
  obtain ⟨⟨tr, C⟩, hr, hCommits⟩ := (Option.any_eq_true _ _).mp h
  have hRun := System.replay_run .init hr
  exact ⟨tr, C, hRun, of_decide_eq_true hCommits, commits_serialize (by decide) hRun⟩

end Board.Sample
