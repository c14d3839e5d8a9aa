import CookbookModel.Board.Dynamo.Theorems.Ranges
import CookbookModel.Board.Theorems.Alone

namespace Board

open GoString DynamoDB
open Dynamo
open Memory (Stamp Step Change Located exec_cases)

variable [Platform] {limits : Limits} {ids : List GoString} {s s' : MemoryStore} {B : Contents}
  {T T' : Table} {key roomID : GoString} {r : RoomRecord} {w : Stamp} {c : Call} {reply : Reply}

section Steps

-- What a call does to a room of the memory store, it does to the room in the table.
theorem Related.change_alone {r' : RoomRecord} (hR : Related limits s B) (hRep : Represents T B)
    (hDrawn : Drawn ids B) (hc : c.Proper) (hu : w.ulid ∉ ids)
    (hValid : normalizeRoomID c.roomID = .ok c.roomID)
    (hl : Located s c.roomID key r) (hChange : Change w s.maxMembersPerRoom r c reply r') :
    ∃ T' rules, alone limits c w T = (.ok reply, T') ∧ Represents T' (Rules.apply rules B) ∧
      About key w.ulid rules ∧ r'.Matches key (Rules.apply rules B) := by
  have hm := hR.records hl.byKey
  obtain ⟨hKey, hID⟩ := hR.key_eq hl
  have hAudit : B[BoardKey.audit key w.ulid]? = none := hDrawn.fresh hu rfl
  have hMessage : B[BoardKey.message key ("msg_" ++ w.ulid)]? = none := hDrawn.fresh hu rfl
  cases hChange <;> simp only [alone, Dynamo.method, Program.run_bind]
  case getRoomForAgent id agent =>
    have hT : (getRoomForAgent id agent).run (served w) T = (.ok ⟨r.room, r.members[agent]?⟩, T) :=
      getRoomForAgent_run hRep hValid (hKey ▸ hm)
    exact ⟨T, [], by rw [hT]; rfl, hRep, .nil, hm⟩
  case grantSame hChecks hCapabilities hRole hMember hSame =>
    obtain ⟨T', hT, hRep'⟩ := grantAllowlist_same_run (w := w) hRep hm hKey hValid hc.right.left
      hChecks hCapabilities hRole hMember hSame
    exact ⟨T', [], by rw [hT]; rfl, hRep', .nil, hm⟩
  case grantNew hChecks hCapabilities hRole hAbsent hLimit hNew =>
    obtain ⟨T', rules, hT, h⟩ := grantAllowlist_new_run hRep hm hKey hID hValid hAudit hc.right.left
      hChecks hCapabilities hRole hAbsent (hR.maxMembers ▸ hLimit) hNew
    exact ⟨T', rules, by rw [hT]; rfl, h⟩
  case grantChange hChecks hCapabilities hRole hMember hDiffers hNotOwner hNew =>
    obtain ⟨T', rules, hT, h⟩ := grantAllowlist_change_run hRep hm hKey hID hValid hAudit
      hc.right.left hChecks hCapabilities hRole hMember hDiffers hNotOwner hNew
    exact ⟨T', rules, by rw [hT]; rfl, h⟩
  case revoke hChecks hMember hNotOwner =>
    obtain ⟨T', rules, hT, h⟩ := revokeAllowlist_run hRep hm hKey hValid hAudit hc.right.left hChecks
      hMember hNotOwner
    exact ⟨T', rules, by rw [hT]; rfl, h⟩
  case nicknameSame hNickname hActive hActor _ hSame =>
    obtain ⟨T', hT, hRep'⟩ := setNickname_same_run (w := w) hRep hm hKey hValid hc.right hNickname
      hActive hActor hSame
    exact ⟨T', [], by rw [hT]; rfl, hRep', .nil, hm⟩
  case nicknameChange hNickname hActive hActor hFree hDiffers =>
    obtain ⟨T', rules, hT, h⟩ := setNickname_change_run (w := w) hRep hm hKey hValid hc.right
      (canonicalDNSName_ne_nil hc.left) hNickname hActive hActor hFree hDiffers
    exact ⟨T', rules, by rw [hT]; rfl, h⟩
  case postReplay hNonempty hActive hActor hRecorded hHash hFound =>
    obtain ⟨T', hT, hRep'⟩ := postMessage_replay_run (w := w) hRep hm hKey hValid hc.right hNonempty
      hActive hActor hRecorded hHash hFound
    exact ⟨T', [], by rw [hT]; rfl, hRep', .nil, hm⟩
  case post hNonempty hActive hActor hAbsent hNew =>
    obtain ⟨T', rules, hT, h⟩ := postMessage_run hRep hm hKey hID hValid hMessage hc.right hNonempty
      hActive hActor hAbsent hNew
    exact ⟨T', rules, by rw [hT]; rfl, h⟩

theorem Related.step_alone (hR : Related limits s B) (hRep : Represents T B) (hDrawn : Drawn ids B)
    (hMax : 0 < limits.maxRoomsPerAgent) (hc : c.Proper) (hu : w.ulid ∉ ids)
    (h : Step w s c reply s') : ∃ T' B', alone limits c w T = (.ok reply, T') ∧ Represents T' B' ∧
      Drawn (ids ++ [w.ulid]) B' ∧ Related limits s' B' := by
  have hSound := h.sound hR.sound
  cases h
  case create hValid hFresh hQuota hRoom hOwner =>
    obtain ⟨T', rules, hT, hRep', hIDs, hR'⟩ := createRoom_run hR hRep hMax hValid hFresh hQuota rfl
      rfl hRoom hOwner
    refine ⟨T', _, ?_, hRep', hDrawn.apply hIDs, hR'⟩
    simp only [alone, Dynamo.method, Program.run_bind, hT]
    rfl
  case change hValid hl hChange =>
    obtain ⟨T', rules, hT, hRep', hAbout, hm⟩ := hR.change_alone hRep hDrawn hc hu hValid hl hChange
    exact ⟨T', _, hT, hRep', hDrawn.apply hAbout.drawn, hR.change hSound hm fun _ => hAbout.other⟩

-- What succeeds on the table succeeds in memory.
theorem Related.alone_step (hR : Related limits s B) (hRep : Represents T B)
    (hMax : 0 < limits.maxRoomsPerAgent) (h : alone limits c w T = (.ok reply, T')) :
    ∃ reply' s', Step w s c reply' s' := by
  cases c <;> simp only [alone, Dynamo.method, Program.run_bind_eq_ok] at h <;>
    obtain ⟨_, _, hr, _⟩ := h
  case createRoom      => exact createRoom_succeeds hR hRep hMax hr
  case getRoomForAgent => exact getRoomForAgent_succeeds hR hRep hr
  case grantAllowlist  => exact grantAllowlist_succeeds hR hRep hr
  case revokeAllowlist => exact revokeAllowlist_succeeds hR hRep hr
  case setNickname     => exact setNickname_succeeds hR hRep hr
  case postMessage     => exact postMessage_succeeds hR hRep hr

-- A call on both stores succeeds on both with the same reply, or fails on both.
theorem Related.sideBySide (hR : Related limits s B) (hRep : Represents T B) (hDrawn : Drawn ids B)
    (hMax : 0 < limits.maxRoomsPerAgent) (hc : c.Proper) (hu : w.ulid ∉ ids) :
    ∃ B', (sideBySide limits c w (s, T)).1.1.toOption = (sideBySide limits c w (s, T)).1.2.toOption ∧
      Represents (Board.sideBySide limits c w (s, T)).2.2 B' ∧ Drawn (ids ++ [w.ulid]) B' ∧
      Related limits (Board.sideBySide limits c w (s, T)).2.1 B' := by
  simp only [Board.sideBySide]
  cases exec_cases c w s
  case inl he =>
    obtain ⟨e, he⟩ := he
    rcases hT : alone limits c w T with ⟨e' | reply, T'⟩
    case error =>
      rw [he]
      exact ⟨B, rfl, alone_error hRep hT, hDrawn.mono, hR⟩
    case ok =>
      obtain ⟨_, _, hStep⟩ := hR.alone_step hRep hMax hT
      rw [Memory.exec_ok.mpr hStep] at he
      cases he
  case inr hOk =>
    obtain ⟨reply, s', hs, hStep⟩ := hOk
    obtain ⟨T', B', hT, h⟩ := hR.step_alone hRep hDrawn hMax hc hu hStep
    rw [hs, hT]
    exact ⟨B', rfl, h⟩

end Steps

section States

omit [Platform] in
-- The keys of the items of one kind are those whose sort keys start like theirs.
theorem mem_keysUnder {start first : GoString} {item : GoString → BoardKey} {k : Key}
    (h : Represents T B) (hl : 3 ≤ start.length) (hFirst : start.take 3 = first)
    (hItem : ∀ id, (item id).key.pk = roomPK key ∧ start.isPrefixOf (item id).key.sk)
    (hOnly : ∀ k : BoardKey, k.key.pk = roomPK key → k.start = first → ∃ id, k = item id) :
    k ∈ keysUnder T key start ↔ ∃ id, k = (item id).key ∧ ∃ d, B[item id]? = some d := by
  rw [keysUnder, Finset.mem_filter]
  constructor
  case mp =>
    intro ⟨hKey, hRoom, hPrefix⟩
    have ⟨k, hk⟩ := h.keys k hKey
    subst hk
    have ⟨t, ht⟩ := List.isPrefixOf_iff_prefix.mp hPrefix
    have hStart : k.start = first := by
      rw [←k.key_start, ←hFirst]
      exact (congrArg (List.take 3) ht).symm.trans (List.take_append_of_le_length hl)
    have ⟨id, hk⟩ := hOnly k hRoom hStart
    subst hk
    exact ⟨id, rfl, (mem_keys_iff h).mp hKey⟩
  case mpr =>
    rintro ⟨id, rfl, hd⟩
    exact ⟨(mem_keys_iff h).mpr hd, hItem id⟩

omit [Platform] in
theorem mem_messageKeys (h : Represents T B) {k : Key} : k ∈ keysUnder T key "MSG#" ↔
    ∃ id, k = (BoardKey.message key id).key ∧ ∃ d, B[BoardKey.message key id]? = some d := by
  refine mem_keysUnder h (by decide) (show (ofString "MSG#").take 3 = "MSG" from rfl)
    (fun id => ⟨rfl, List.isPrefixOf_iff_prefix.mpr ⟨id, rfl⟩⟩) fun k hRoom hStart => ?_
  cases k <;> simp only [BoardKey.start, ofString_inj, String.reduceEq] at hStart
  case message => exact ⟨_, congrArg (BoardKey.message · _) (List.append_cancel_left hRoom)⟩

omit [Platform] in
theorem mem_auditKeys (h : Represents T B) {k : Key} : k ∈ keysUnder T key "AUDIT#" ↔
    ∃ u, k = (BoardKey.audit key u).key ∧ ∃ d, B[BoardKey.audit key u]? = some d := by
  refine mem_keysUnder h (by decide) (show (ofString "AUDIT#").take 3 = "AUD" from rfl)
    (fun u => ⟨rfl, List.isPrefixOf_iff_prefix.mpr ⟨"audit_" ++ u, rfl⟩⟩) fun k hRoom hStart => ?_
  cases k <;> simp only [BoardKey.start, ofString_inj, String.reduceEq] at hStart
  case audit => exact ⟨_, congrArg (BoardKey.audit · _) (List.append_cancel_left hRoom)⟩

theorem RoomRecord.Matches.find (hm : r.Matches key B) (h : msg ∈ r.messages) :
    B[BoardKey.message key msg.messageID]?.map messageFromItem = some msg := by
  rw [hm.messages, find?_messageID hm.distinct]
  exact ⟨h, rfl⟩

-- The messages are in the order of their sort keys, which is that of their ids.
theorem RoomRecord.Matches.messages_eq (h : Represents T B) (hm : r.Matches key B) :
    (((keysUnder T key "MSG#").image (·.sk)).sort (· ≤ ·)).filterMap
      (fun sk => (itemAt T ⟨roomPK key, sk⟩).map messageFromItem) = r.messages := by
  let sks := r.messages.map fun msg => messageSK msg.messageID
  have hLt : sks.Pairwise (· < ·) :=
    List.pairwise_map.mpr <| hm.increasing.imp messageSK_lt.mpr
  have hKeys : (keysUnder T key "MSG#").image (·.sk) = sks.toFinset := by
    ext sk
    simp only [Finset.mem_image, mem_messageKeys h, List.mem_toFinset, sks, List.mem_map]
    constructor
    case mp =>
      rintro ⟨_, ⟨id, rfl, d, hd⟩, rfl⟩
      have hFound := hm.messages id
      rw [hd, Option.map_some, eq_comm, find?_messageID hm.distinct] at hFound
      exact ⟨_, hFound.left, congrArg messageSK hFound.right⟩
    case mpr =>
      rintro ⟨msg, hMsg, rfl⟩
      have ⟨d, hd, _⟩ := Option.map_eq_some_iff.mp (hm.find hMsg)
      exact ⟨_, ⟨msg.messageID, rfl, d, hd⟩, rfl⟩
  rw [hKeys, (List.toFinset_sort _ <| hLt.imp ne_of_lt).mpr <| hLt.imp le_of_lt, List.filterMap_map]
  conv => rhs; rw [←List.filterMap_some (l := r.messages)]
  refine List.filterMap_congr fun msg hMsg => ?_
  exact (congrArg (Option.map messageFromItem) (stored_eq h _)).trans (hm.find hMsg)

theorem RoomRecord.Matches.audits_eq (h : Represents T B) (hm : r.Matches key B) :
    ((keysUnder T key "AUDIT#").val.filterMap fun k => (itemAt T k).map auditFromItem) =
      r.audits := by
  obtain ⟨us, hNodup, hMem, hMap⟩ := hm.audits
  have hKeys : keysUnder T key "AUDIT#" = (us.map fun u => (BoardKey.audit key u).key).toFinset := by
    ext k
    simp only [mem_auditKeys h, List.mem_toFinset, List.mem_map, hMem, eq_comm, and_comm]
  have hDistinct : (us.map fun u => (BoardKey.audit key u).key).Nodup :=
    hNodup.map fun u u' he => by simpa using BoardKey.key_injective he
  have hItems : (fun u => (itemAt T (BoardKey.audit key u).key).map auditFromItem) =
      fun u => B[BoardKey.audit key u]?.map auditFromItem :=
    funext fun u => congrArg (Option.map auditFromItem) (stored_eq h _)
  rw [hKeys, List.toFinset_val, hDistinct.dedup, Multiset.filterMap_coe, List.filterMap_map]
  have hAudits := congrArg (List.filterMap id) hMap
  simp only [List.filterMap_map, ←hItems] at hAudits
  exact congrArg _ <| hAudits.trans List.filterMap_some

theorem Related.roomState_eq (hR : Related limits s B) (hRep : Represents T B)
    (roomID : GoString) : s.roomState roomID = Dynamo.roomState T roomID := by
  cases hr : s.record roomID
  case none =>
    have hNone : s.rooms[Base64.encode roomID]? = none := by
      refine hR.sound.rooms_fresh <| Option.eq_none_iff_forall_ne_some.mpr fun key hKey => ?_
      have ⟨r, hRecord, _⟩ := hR.sound.roomKeys hKey
      simp [MemoryStore.record, hKey, hRecord] at hr
    have hEmpty (k : BoardKey) (hk : k.roomKey? = some (Base64.encode roomID)) : B[k]? = none :=
      hR.others hNone hk
    have hMessages : keysUnder T (Base64.encode roomID) "MSG#" = ∅ := by
      ext k
      simp [mem_messageKeys hRep, hEmpty (.message _ _) rfl]
    have hAudits : keysUnder T (Base64.encode roomID) "AUDIT#" = ∅ := by
      ext k
      simp [mem_auditKeys hRep, hEmpty (.audit _ _) rfl]
    simp [MemoryStore.roomState, Dynamo.roomState, hr, hMessages, hAudits, stored_eq hRep,
      hEmpty (.room _) rfl, hEmpty (.member _ _) rfl, hEmpty (.nickname _ _) rfl,
      hEmpty (.idempotency _ _) rfl]
  case some r =>
    have ⟨key, hKey, hRecord⟩ := Option.bind_eq_some_iff.mp hr
    have hl : Located s roomID key r := ⟨hKey, hRecord⟩
    have hm := hR.records hRecord
    rw [(hR.key_eq hl).left] at hm
    simp only [MemoryStore.roomState, Dynamo.roomState, hr, hm.messages_eq hRep, hm.audits_eq hRep,
      stored_eq hRep, hm.room, hm.members, hm.nicknames, hm.idempotency]
    rfl

end States

section Runs

variable {maxRooms maxMembers : Int} {T : Table}
  {calls : List (Completed Call Stamp (Except Err Reply × Except Err Reply))}

theorem related_run (hMax : 0 < maxRooms)
    (hh : History (Board.sideBySide ⟨maxRooms, maxMembers⟩) (.new maxRooms maxMembers, ∅)
      calls (s, T))
    (hProper : ∀ c ∈ calls, c.call.Proper) (hFresh : (calls.map (·.stamp.ulid)).Nodup) :
    (∀ c ∈ calls, c.result.1.toOption = c.result.2.toOption) ∧
    ∃ B, Represents T B ∧ Drawn (calls.map (·.stamp.ulid)) B ∧
      Related ⟨maxRooms, maxMembers⟩ s B := by
  refine hh.invariant (I := fun calls stores => (∀ c ∈ calls, c.call.Proper) →
    (calls.map (·.stamp.ulid)).Nodup → (∀ c ∈ calls, c.result.1.toOption = c.result.2.toOption) ∧
    ∃ B, Represents stores.2 B ∧ Drawn (calls.map (·.stamp.ulid)) B ∧
      Related ⟨maxRooms, maxMembers⟩ stores.1 B)
    (fun _ _ => ⟨by simp, ∅, View.Represents.empty, Drawn.empty, .init⟩) ?_ hProper hFresh
  intro calls stores c w hI hProper hFresh
  obtain ⟨hProper, hc⟩ := List.forall_mem_append.mp hProper
  have hc : c.Proper := hc _ (List.mem_singleton_self _)
  rw [List.map_append] at hFresh ⊢
  have hu : w.ulid ∉ calls.map (·.stamp.ulid) := fun hu =>
    List.disjoint_of_nodup_append hFresh hu (List.mem_singleton_self _)
  obtain ⟨hSame, B, hRep, hDrawn, hR⟩ := hI hProper hFresh.of_append_left
  obtain ⟨B', hReplies, h⟩ := hR.sideBySide hRep hDrawn hMax hc hu
  exact ⟨List.forall_mem_append.mpr ⟨hSame, List.forall_mem_singleton.mpr hReplies⟩, B', h⟩

-- If agents may have rooms at all, the same calls on both stores give the same replies and lead to
-- the same rooms. The ids that are drawn are fresh.
theorem stores_agree (hMax : 0 < maxRooms)
    (hh : History (Board.sideBySide ⟨maxRooms, maxMembers⟩) (.new maxRooms maxMembers, ∅)
      calls (s, T))
    (hProper : ∀ c ∈ calls, c.call.Proper) (hFresh : (calls.map (·.stamp.ulid)).Nodup) :
    (∀ c ∈ calls, c.result.1.toOption = c.result.2.toOption) ∧
    ∀ roomID, s.roomState roomID = Dynamo.roomState T roomID := by
  obtain ⟨hReplies, B, hRep, _, hR⟩ := related_run hMax hh hProper hFresh
  exact ⟨hReplies, hR.roomState_eq hRep⟩

end Runs

end Board

namespace Board.Sample

open DynamoDB
open Dynamo (Limits)
open Memory (Stamp)

attribute [local instance] asciiPlatform

-- A room with a member who takes a nickname, posts a message, and is then removed.
def lobbyCalls : List (Call × Stamp) :=
  [
    (create, ⟨.zero, "0"⟩), (grant .poster 1, ⟨.zero, "1"⟩), (rename bob "Bo" 1, ⟨.zero, "2"⟩),
    (post bob "key" 2, ⟨.zero, "3"⟩), (revoke 2, ⟨.zero, "4"⟩)
  ]

set_option maxRecDepth 20000 in
theorem stores_agree_lobby :
    let r := History.replay (sideBySide ⟨50, 100⟩) lobbyCalls (.new 50 100, ∅)
    (∀ c ∈ r.1, c.result.1.toOption = c.result.2.toOption ∧ c.result.1.toOption.isSome) ∧
    ∀ roomID, r.2.1.roomState roomID = Dynamo.roomState r.2.2 roomID := by
  intro r
  have hRun : History (sideBySide ⟨50, 100⟩) (.new 50 100, ∅) r.1 r.2 :=
    History.replay_history lobbyCalls _
  have ⟨hReplies, hRooms⟩ := stores_agree (by decide) hRun (by decide) (by decide)
  have hSome : ∀ c ∈ r.1, c.result.1.toOption.isSome := by decide
  exact ⟨fun c hc => ⟨hReplies c hc, hSome c hc⟩, hRooms⟩

-- An agent that may have no rooms gets its first one from DynamoDB.
theorem stores_differ_zero :
    let stores := (MemoryStore.new 0 100, (∅ : Table))
    ∃ calls stores', History (sideBySide ⟨0, 100⟩) stores calls stores' ∧
      (∀ c ∈ calls, c.call.Proper) ∧ (calls.map (·.stamp.ulid)).Nodup ∧
      ∃ c ∈ calls, c.result.1.toOption = none ∧ c.result.2.toOption.isSome :=
  ⟨_, _, History.replay_history [(create, ⟨.zero, "0"⟩)] _, by decide, by decide, by decide⟩

end Board.Sample
