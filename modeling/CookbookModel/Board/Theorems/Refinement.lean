import CookbookModel.Board.Theorems.Effects

namespace Board

open GoString DynamoDB
open Dynamo
open Memory (Stamp Step Change Located Permitted AllowlistChecks)

-- What the memory store and the table say about all rooms is the same.
structure Related [Platform] (limits : Limits) (s : MemoryStore) (B : Contents) : Prop where
  maxRooms   : s.maxRoomsPerAgent = limits.maxRoomsPerAgent
  maxMembers : s.maxMembersPerRoom = limits.maxMembersPerRoom
  sound      : s.Sound
  quotas     : ∀ a, s.quota a = B[BoardKey.quota a]?.elim 0 (·.roomCount)
  records    : ∀ {key : GoString} {r : RoomRecord}, s.rooms[key]? = some r → r.Matches key B
  others     : ∀ {key : GoString} {k : BoardKey},
    s.rooms[key]? = none → k.roomKey? = some key → B[k]? = none

variable [Platform] {limits : Limits} {s s' : MemoryStore} {B B' : Contents} {T T' : Table}
  {key roomID : GoString} {r r' : RoomRecord} {w : Stamp} {actor : Identity}

namespace Related

theorem init : Related limits (.new limits.maxRoomsPerAgent limits.maxMembersPerRoom) ∅ where
  maxRooms    := rfl
  maxMembers  := rfl
  sound       := .new
  quotas a    := by simp [MemoryStore.quota, MemoryStore.new]
  records h   := by simp [MemoryStore.new] at h
  others _ _  := GoMap.get_empty

theorem located (h : Related limits s B) (hr : s.rooms[Base64.encode roomID]? = some r) :
    Located s roomID (Base64.encode roomID) r := by
  obtain ⟨_, hKey⟩ := h.sound.rooms hr
  rw [←Base64.encode_injective (h.sound.encoded hKey)] at hKey
  exact ⟨hKey, hr⟩

theorem key_eq (h : Related limits s B) (hl : Located s roomID key r) :
    key = Base64.encode roomID ∧ r.room.roomID = roomID := by
  obtain ⟨r', hr', hID⟩ := h.sound.roomKeys hl.byID
  rw [hl.byKey] at hr'
  cases hr'
  exact ⟨h.sound.encoded hl.byID, hID⟩

-- A room that has an item in the table has a record in memory.
theorem record (h : Related limits s B) {k : BoardKey} (hk : k.roomKey? = some key)
    (hd : B[k]? = some d) : ∃ r, s.rooms[key]? = some r ∧ r.Matches key B := by
  cases hr : s.rooms[key]?
  case none   => rw [h.others hr hk] at hd; contradiction
  case some r => exact ⟨r, rfl, h.records hr⟩

-- A call about one room.
theorem change (h : Related limits s B) (hSound : (s.putRecord key r').Sound)
    (hm : r'.Matches key B') (hB : ∀ k : BoardKey, k.roomKey? ≠ some key → B'[k]? = B[k]?) :
    Related limits (s.putRecord key r') B' where
  maxRooms   := h.maxRooms
  maxMembers := h.maxMembers
  sound      := hSound
  quotas a   := by
    rw [hB (.quota a) (by simp [BoardKey.roomKey?])]
    exact h.quotas a
  records {key' r''} hr' := by
    rw [MemoryStore.putRecord, GoMap.get_set] at hr'
    split at hr'
    case isTrue he  => cases hr'; exact he ▸ hm
    case isFalse he =>
      refine (h.records hr').frame fun k hk => hB k fun hk' => he ?_
      exact Option.some_inj.mp (hk.symm.trans hk')
  others {key' k} hr' hk := by
    rw [MemoryStore.putRecord, GoMap.get_set] at hr'
    split at hr'
    case isTrue     => contradiction
    case isFalse he =>
      rw [hB k fun hk' => he (Option.some_inj.mp (hk.symm.trans hk'))]
      exact h.others hr' hk

end Related

section Rooms

variable {input : CreateRoomInput} {name u : GoString} {room member audit : DdbItem}

omit [Platform] in
theorem drawn_createRoom {agent nowText : GoString} {maxRooms : Int} :
    ∀ rule ∈ createRoomRules key agent u room member audit maxRooms nowText,
      ∀ id ∈ rule.key.drawn?, id = "msg_" ++ u := by
  simp [createRoomRules, Rule.create, quotaRule, BoardKey.drawn?]

-- The first room of an agent is not counted against the limit, so it has to be one that is allowed.
theorem Related.createRoom_allowed {agent nowText : GoString} (hR : Related limits s B)
    (hMax : 0 < limits.maxRoomsPerAgent) (hKey : key = Base64.encode roomID) :
    Rules.Allowed (createRoomRules key agent u room member audit limits.maxRoomsPerAgent nowText) B ↔
      s.roomKeys[roomID]? = none ∧ s.quota agent < s.maxRoomsPerAgent := by
  have hRoom : B[BoardKey.room key]? = none ↔ s.rooms[key]? = none := by
    constructor
    case mpr => exact fun hr => hR.others hr rfl
    case mp  =>
      refine fun hn => Option.eq_none_iff_forall_ne_some.mpr fun r hr => ?_
      obtain ⟨d, hd, _⟩ := (hR.records hr).stored_room
      rw [hn] at hd
      contradiction
  have hID : s.rooms[key]? = none ↔ s.roomKeys[roomID]? = none := by
    subst hKey
    constructor
    case mpr => exact hR.sound.rooms_fresh
    case mp  =>
      refine fun hn => Option.eq_none_iff_forall_ne_some.mpr fun key hKey => ?_
      obtain ⟨r, hr, _⟩ := hR.sound.roomKeys hKey
      rw [hR.sound.encoded hKey, hn] at hr
      contradiction
  have hQuota : (∀ d, B[BoardKey.quota agent]? = some d → d.roomCount < limits.maxRoomsPerAgent) ↔
      s.quota agent < s.maxRoomsPerAgent := by
    rw [hR.quotas, hR.maxRooms]
    cases B[BoardKey.quota agent]? <;> simp [hMax]
  rw [←hID, ←hRoom, ←hQuota]
  simp only [createRoomRules, Rules.Allowed, Rule.create, quotaRule, List.forall_mem_cons,
    List.not_mem_nil, false_implies, implies_true, and_true, Option.mem_def]
  constructor
  case mp  => rintro ⟨hRoom, _, _, hQuota⟩; exact ⟨hRoom, hQuota⟩
  case mpr =>
    rintro ⟨hNone, hQuota⟩
    have hr := hRoom.mp hNone
    exact ⟨hNone, hR.others hr rfl, hR.others hr rfl, hQuota⟩

theorem Related.createRoom_effect {room : Room} {owner : Membership} (hR : Related limits s B)
    (hValid : normalizeRoomID input.roomID = .ok input.roomID)
    (hFresh : s.roomKeys[input.roomID]? = none) (hQuota : s.quota actor.agent < s.maxRoomsPerAgent)
    (hKey : key = Base64.encode input.roomID)
    (hName : name = if input.name = [] then input.roomID else input.name)
    (hRoom : room = RoomRecord.newRoom input.roomID key name input.description actor.agent w.now)
    (hOwner : owner = RoomRecord.newOwner input.roomID key actor.agent
      [.owner, .manage, .post, .read, .connect] w.now) :
    Related limits (s.addRoom input.roomID key actor.agent
        (.create room owner input.tokenJTIHash w.now)) <|
      Rules.apply (createRoomRules key actor.agent w.ulid
        (newRoomItem input.roomID key name input.description actor.agent w.now.format)
        (newMemberItem input.roomID key actor.agent .owner ((capabilitiesForRole .owner).getD [])
          actor.agent w.now.format)
        (auditItem key "room_created" actor.agent actor.agent .owner input.tokenJTIHash w.now.format
          w.ulid) limits.maxRoomsPerAgent w.now.format) B := by
  have hSound : (s.addRoom input.roomID key actor.agent
      (.create room owner input.tokenJTIHash w.now)).Sound := by
    subst hRoom hOwner hKey hName
    exact (Step.create (w := w) hValid hFresh hQuota rfl rfl).sound hR.sound
  have hNoRecord := hR.sound.rooms_fresh hFresh
  rw [←hKey] at hNoRecord
  have hNone : ∀ k : BoardKey, k.roomKey? = some key → B[k]? = none := fun _ hk =>
    hR.others hNoRecord hk
  have hQuotas := hR.quotas actor.agent
  have hMatches := RoomRecord.Matches.create input.roomID actor.agent name input.description
    input.tokenJTIHash w.ulid w.now
    (quotaItem actor.agent B[BoardKey.quota actor.agent]? w.now.format) hNone
  rw [←hRoom, ←hOwner] at hMatches
  have hOther {key' : GoString} {k : BoardKey} {room member audit : DdbItem} (he : key' ≠ key)
      (hk : k.roomKey? = some key') : (Rules.apply (createRoomRules key actor.agent w.ulid room member
        audit limits.maxRoomsPerAgent w.now.format) B)[k]? = B[k]? := by
    refine Rules.apply_other fun rule hRule hr => ?_
    subst hr
    revert hk
    simp only [createRoomRules, List.mem_cons, List.not_mem_nil, or_false] at hRule
    rcases hRule with rfl | rfl | rfl | rfl <;>
      simp [BoardKey.roomKey?, Rule.create, quotaRule, he.symm]
  constructor
  case maxRooms   => exact hR.maxRooms
  case maxMembers => exact hR.maxMembers
  case sound      => exact hSound
  case quotas     =>
    intro a
    rw [MemoryStore.quota_addRoom]
    by_cases he : a = actor.agent
    case pos => simp [createRoomRules, Rules.apply, Rule.create, quotaRule, he, hQuotas, quotaItem]
    case neg =>
      simpa [createRoomRules, Rules.apply, Rule.create, quotaRule, GoMap.get_set, he] using
        hR.quotas a
  case records    =>
    intro key' r' hr'
    rw [MemoryStore.addRoom, GoMap.get_set] at hr'
    split at hr'
    case isTrue he =>
      cases hr'
      subst he
      simpa [createRoomRules, Rules.apply, Rule.create, quotaRule, capabilitiesForRole] using hMatches
    case isFalse he => exact (hR.records hr').frame fun k hk => hOther he hk
  case others     =>
    intro key' k hr' hk
    rw [MemoryStore.addRoom, GoMap.get_set] at hr'
    split at hr'
    case isTrue     => contradiction
    case isFalse he => rw [hOther he hk, hR.others hr' hk]

end Rooms

end Board
