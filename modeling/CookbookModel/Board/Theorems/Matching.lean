import CookbookModel.Board.Dynamo.Theorems.Sequential
import CookbookModel.Board.Memory.Theorems.Idempotency
import CookbookModel.Board.Memory.Theorems.Nicknames
import CookbookModel.Board.Memory.Theorems.Paging
import CookbookModel.Board.Theorems.Names

namespace Board

open GoString DynamoDB
open Dynamo (BoardKey Contents actorRoles actorRule roomOpenRule roomVersionRule grantRoomRule)
open Memory (Permitted)

-- The room whose item it is.
def Dynamo.BoardKey.roomKey? : BoardKey → Option GoString
  | .quota _                                  => none
  | .room key | .member key _ | .nickname key _ | .message key _ | .idempotency key _
  | .audit key _                              => some key

section Items

variable {roomID key agent actor : GoString} {role : Role} {capabilities : List Capability}
  {d : DdbItem}

@[simp]
theorem parseTime_format (t : Time) : parseTime t.format = t := by
  simp [parseTime, Time.parse_format]

@[simp]
theorem filterMap_ofText (capabilities : List Capability) :
    (capabilities.map (·.text)).filterMap Capability.ofText = capabilities := by
  simp [List.filterMap_map]

theorem membershipFromItem_new (t : Time) :
    membershipFromItem (Dynamo.newMemberItem roomID key agent role capabilities actor t.format) =
      ⟨roomID, key, agent, [], [], role, capabilities, actor, actor, t, t, 1⟩ := by
  simp [membershipFromItem, Dynamo.newMemberItem]

theorem membershipFromItem_renamed (nickname nicknameKey : GoString) (t : Time) :
    membershipFromItem (Dynamo.renamedMember d agent nickname nicknameKey t.format) =
      RoomRecord.renamedMember (membershipFromItem d) agent nickname nicknameKey t := by
  simp [membershipFromItem, Dynamo.renamedMember, RoomRecord.renamedMember]

theorem membershipFromItem_regranted (existing : DdbItem) (t : Time) :
    membershipFromItem (Dynamo.regrantedMember d <| Dynamo.regrantedItem
      (Dynamo.newMemberItem roomID key agent role capabilities actor t.format) existing) =
      { membershipFromItem d with
        role, capabilities
        updatedBy := actor
        updatedAt := t
        version   := d.version + 1 } := by
  simp [membershipFromItem, Dynamo.regrantedMember, Dynamo.regrantedItem, Dynamo.newMemberItem]

theorem roomFromItem_changed (h : roomFromItem d = room) (change : Int) (t : Time) :
    roomFromItem (Dynamo.changedRoom d change t.format) =
      { room with
        version     := room.version + 1
        updatedAt   := t
        memberCount := room.memberCount + change } := by
  subst h
  simp [roomFromItem, Dynamo.changedRoom]

theorem auditFromItem_audit (key eventType actor target : GoString) (role : Role)
    (tokenJTIHash : GoString) (t : Time) (u : GoString) :
    Dynamo.auditFromItem
      (Dynamo.auditItem key eventType actor target role tokenJTIHash t.format u) =
        ⟨eventType, actor, target, role, tokenJTIHash, t⟩ := by
  simp [Dynamo.auditFromItem, Dynamo.auditItem]

end Items

section Audits

variable {key : GoString} {B B' : Contents} {audits : List AuditRecord}

-- The audit items of a room are the given records.
def Dynamo.Audited (key : GoString) (B : Contents) (audits : List AuditRecord) : Prop :=
  ∃ us : List GoString, us.Nodup ∧ (∀ u, u ∈ us ↔ ∃ d, B[BoardKey.audit key u]? = some d) ∧
    us.map (fun u => B[BoardKey.audit key u]?.map Dynamo.auditFromItem) = audits.map some

namespace Dynamo.Audited

theorem single (hB : ∀ u', B[BoardKey.audit key u']? = if u' = u then some d else none) :
    Audited key B [auditFromItem d] :=
  ⟨[u], List.nodup_singleton u, fun u' => by simp [hB], by simp [hB]⟩

theorem frame (h : Audited key B audits)
    (hB : ∀ u, B'[BoardKey.audit key u]? = B[BoardKey.audit key u]?) : Audited key B' audits := by
  obtain ⟨us, hNodup, hMem, hMap⟩ := h
  exact ⟨us, hNodup, by simpa only [hB] using hMem, by simpa only [hB] using hMap⟩

theorem append (h : Audited key B audits) (hu : B[BoardKey.audit key u]? = none)
    (hB : ∀ u', B'[BoardKey.audit key u']? = if u' = u then some d else B[BoardKey.audit key u']?) :
    Audited key B' (audits ++ [auditFromItem d]) := by
  obtain ⟨us, hNodup, hMem, hMap⟩ := h
  have hNew : u ∉ us := fun hm => by
    obtain ⟨d, hd⟩ := (hMem u).mp hm
    rw [hu] at hd
    contradiction
  refine ⟨us ++ [u], ?_, fun u' => ?_, ?_⟩
  · exact hNodup.append (List.nodup_singleton u) (List.disjoint_singleton.mpr hNew)
  · rw [List.mem_append, hMem, hB]
    by_cases he : u' = u <;> simp [he]
  · rw [List.map_append, List.map_append, ←hMap]
    congr 1
    · refine List.map_congr_left fun u' hm => ?_
      rw [hB, if_neg <| ne_of_mem_of_not_mem hm hNew]
    · simp [hB]

end Dynamo.Audited

end Audits

variable [Platform]

theorem canonicalDNSName_ne_nil (h : canonicalDNSName v = .ok n) : n ≠ [] :=
  fun hn => (canonicalDNSName_iff.mp h).right.right.length <| .inl hn

-- An id that no message has been made of has not been drawn for one.
omit [Platform] in
theorem RoomRecord.Ordered.without {r : RoomRecord} (h : RoomRecord.Ordered ids r)
    (hu : ∀ msg ∈ r.messages, msg.messageID ≠ "msg_" ++ u) :
    RoomRecord.Ordered (ids.filter (· ≠ u)) r where
  sorted       := h.sorted
  distinct     := h.distinct
  drawn msg hm := by
    obtain ⟨u', hu', he⟩ := h.drawn msg hm
    have hne : u' ≠ u := fun hu' => hu msg hm <| hu' ▸ he
    exact ⟨u', List.mem_filter.mpr ⟨hu', decide_eq_true hne⟩, he⟩

-- The record that the memory store keeps of a room and the items of the room in the table say the
-- same.
structure RoomRecord.Matches (key : GoString) (r : RoomRecord) (B : Contents) : Prop where
  indexed     : r.Indexed
  ordered     : ∃ ids, r.Ordered ids
  roomKey     : r.room.roomKey = key
  belongs     : ∀ {a : GoString} {m : Membership}, r.members[a]? = some m →
    m.roomID = r.room.roomID ∧ m.roomKey = key ∧ m.agent = a
  room        : B[BoardKey.room key]?.map roomFromItem = some r.room
  members     : ∀ a, B[BoardKey.member key a]?.map membershipFromItem = r.members[a]?
  nicknames   : ∀ k, B[BoardKey.nickname key k]?.map (·.agent) = r.nicknames[k]?
  messages    : ∀ id,
    B[BoardKey.message key id]?.map messageFromItem = r.messages.find? (·.messageID = id)
  idempotency : ∀ e, B[BoardKey.idempotency key e]?.map Dynamo.idempotencyFromItem = r.idempotency[e]?
  audits      : Dynamo.Audited key B r.audits

namespace RoomRecord.Matches

variable {r r' : RoomRecord} {B B' : Contents} {key agent : GoString} {m : Membership} {d : DdbItem}

-- Only the items of the room matter.
theorem frame (h : r.Matches key B) (hB : ∀ k : BoardKey, k.roomKey? = some key → B'[k]? = B[k]?) :
    r.Matches key B' where
  indexed       := h.indexed
  ordered       := h.ordered
  roomKey       := h.roomKey
  belongs       := h.belongs
  room          := hB (.room key) rfl ▸ h.room
  members a     := hB (.member key a) rfl ▸ h.members a
  nicknames k   := hB (.nickname key k) rfl ▸ h.nicknames k
  messages id   := hB (.message key id) rfl ▸ h.messages id
  idempotency e := hB (.idempotency key e) rfl ▸ h.idempotency e
  audits        := h.audits.frame fun u => hB (.audit key u) rfl

theorem distinct (h : r.Matches key B) : (r.messages.map (·.messageID)).Nodup :=
  h.ordered.elim fun _ ho => ho.distinct

theorem increasing (h : r.Matches key B) : r.messages.Pairwise (·.messageID < ·.messageID) :=
  h.ordered.elim fun _ ho => ho.increasing

section Guards

omit [Platform] in
@[simp]
theorem actorRule_key : (actorRule key agent v action).key = .member key agent :=
  rfl

omit [Platform] in
@[simp]
theorem roomOpenRule_key : (roomOpenRule key).key = .room key :=
  rfl

omit [Platform] in
@[simp]
theorem roomVersionRule_key : (roomVersionRule key v).key = .room key :=
  rfl

omit [Platform] in
@[simp]
theorem grantRoomRule_key {created : Bool} :
    (grantRoomRule key v maxMembers nowText created).key = .room key :=
  rfl

theorem member (h : r.Matches key B) (hm : r.members[agent]? = some m) :
    ∃ d, B[BoardKey.member key agent]? = some d ∧ membershipFromItem d = m := by
  rw [←h.members, Option.map_eq_some_iff] at hm
  exact hm

theorem stored_room (h : r.Matches key B) :
    ∃ d, B[BoardKey.room key]? = some d ∧ roomFromItem d = r.room :=
  Option.map_eq_some_iff.mp h.room

omit [Platform] in
theorem roleCan_iff {role : Role} {action : Action} (ha : action ∈
    [Action.postMessage, .updateAllowList, .updateNickname]) :
    roleCan role action = true ↔ role ∈ actorRoles action := by
  simp only [List.mem_cons, List.not_mem_nil, or_false] at ha
  rcases ha with rfl | rfl | rfl <;> simp [roleCan, actorRoles, or_assoc]

-- Whom the conditions of a transaction let through, the checks of the memory store let through.
theorem permitted {action : Action} (h : r.Matches key B)
    (hActs : (actorRule key agent v action).guard B[BoardKey.member key agent]?)
    (ha : action ∈ [Action.postMessage, .updateAllowList, .updateNickname]) :
    ∃ m, Permitted r agent v action m := by
  obtain ⟨d, hd, hVersion, hRole⟩ := hActs
  refine ⟨membershipFromItem d, ?_, .inr hVersion, (roleCan_iff ha).mpr hRole⟩
  rw [←h.members, show B[BoardKey.member key agent]? = some d from hd, Option.map_some]

-- The other way round, the version has to be named.
theorem acts {action : Action} (h : r.Matches key B) (hv : v ≠ 0)
    (hActor : ∃ m, Permitted r agent v action m)
    (ha : action ∈ [Action.postMessage, .updateAllowList, .updateNickname]) :
    (actorRule key agent v action).guard B[BoardKey.member key agent]? := by
  obtain ⟨m, hActor⟩ := hActor
  obtain ⟨d, hd, hm⟩ := h.member hActor.member
  subst hm
  exact ⟨d, hd, hActor.version.resolve_left hv, (roleCan_iff ha).mp hActor.role⟩

-- A nickname that a member holds is reserved for it in the table.
theorem reserved (h : r.Matches key B) (ha : agent ≠ []) (hm : r.members[agent]? = some m)
    (hk : m.nicknameKey ≠ []) :
    ∃ d ∈ B[BoardKey.nickname key m.nicknameKey]?, d.agent = agent ∧ agent ≠ [] := by
  have hn := (h.indexed.exact m.nicknameKey agent).mpr ⟨m, hm, rfl, hk⟩
  rw [←h.nicknames, Option.map_eq_some_iff] at hn
  have ⟨d, hd, hAgent⟩ := hn
  exact ⟨d, hd, hAgent, ha⟩

theorem open_iff (h : r.Matches key B) :
    r.room.archived = false ↔ (roomOpenRule key).guard B[BoardKey.room key]? := by
  have ⟨d, hd, hr⟩ := h.stored_room
  simp [roomOpenRule, Rule.check, hd, ←hr, roomFromItem]

theorem version_iff (h : r.Matches key B) :
    r.room.archived = false ∧ r.room.version = v ↔
      (roomVersionRule key v).guard B[BoardKey.room key]? := by
  have ⟨d, hd, hr⟩ := h.stored_room
  simp [roomVersionRule, Rule.check, hd, ←hr, roomFromItem]

theorem grantRoom_iff (h : r.Matches key B) {created : Bool} :
    r.room.archived = false ∧ r.room.version = v ∧ (created → r.room.memberCount < maxMembers) ↔
      (grantRoomRule key v maxMembers nowText created).guard B[BoardKey.room key]? := by
  have ⟨d, hd, hr⟩ := h.stored_room
  simp [grantRoomRule, Rule.modify, hd, ←hr, roomFromItem]

end Guards

section Changes

variable {roomID target actor tokenJTIHash u : GoString} {now : Time}

theorem create (roomID agent name description tokenJTIHash u : GoString) (now : Time)
    (quota : DdbItem)
    (hNone : ∀ k : BoardKey, k.roomKey? = some key → B[k]? = none) :
    (RoomRecord.create (newRoom roomID key name description agent now)
      (newOwner roomID key agent [.owner, .manage, .post, .read, .connect] now)
      tokenJTIHash now).Matches key <|
      (((B.set (.room key) (Dynamo.newRoomItem roomID key name description agent now.format)).set
        (.member key agent) (Dynamo.newMemberItem roomID key agent .owner
          [.owner, .manage, .post, .read, .connect] agent now.format)).set
        (.audit key u)
          (Dynamo.auditItem key "room_created" agent agent .owner tokenJTIHash now.format u)).set
        (.quota agent) quota where
  indexed       := .create rfl rfl
  ordered       := ⟨[], .nil, .nil, by simp [RoomRecord.create]⟩
  roomKey       := rfl
  belongs h     := by
    rw [RoomRecord.create, GoMap.get_set] at h
    split at h
    case isTrue he => cases h; exact ⟨rfl, rfl, he.symm⟩
    case isFalse   => simp at h
  room          := by
    simp [GoMap.get_set, roomFromItem, Dynamo.newRoomItem, RoomRecord.create, newRoom]
  members a     := by
    have hNew := hNone (.member key a) rfl
    by_cases he : a = agent
    case pos =>
      subst he
      simp [GoMap.get_set, RoomRecord.create, membershipFromItem_new, newOwner]
    case neg => simp [GoMap.get_set, RoomRecord.create, he, hNew, newOwner]
  nicknames k   := by
    simp [GoMap.get_set, RoomRecord.create, hNone (.nickname key k) rfl]
  messages id   := by
    simp [GoMap.get_set, RoomRecord.create, hNone (.message key id) rfl]
  idempotency e := by
    simp [GoMap.get_set, RoomRecord.create, hNone (.idempotency key e) rfl]
  audits        := by
    have hItem := auditFromItem_audit key "room_created" agent agent .owner tokenJTIHash now u
    simp only [RoomRecord.create, newOwner, ←hItem]
    exact .single (u := u) fun u' => by simp [GoMap.get_set, hNone (.audit key u') rfl]

theorem grant {item : DdbItem} (actor target tokenJTIHash : GoString) (now : Time) (created : Bool)
    (h : r.Matches key B)
    (hi : (r.grant actor target m created tokenJTIHash now).Indexed)
    (hu : B[BoardKey.audit key u]? = none)
    (hd : B[BoardKey.room key]? = some d) (hItem : membershipFromItem item = m)
    (hBelongs : m.roomID = r.room.roomID ∧ m.roomKey = key ∧ m.agent = target) :
    (r.grant actor target m created tokenJTIHash now).Matches key <|
      ((B.set (.room key) (Dynamo.changedRoom d (if created then 1 else 0) now.format)).set
        (.member key target) item).set
        (.audit key u)
          (Dynamo.auditItem key "allowlist_granted" actor target m.role tokenJTIHash now.format u) where
  indexed       := hi
  ordered       := h.ordered.imp fun _ ho => ⟨ho.sorted, ho.distinct, ho.drawn⟩
  roomKey       := h.roomKey
  belongs hm    := by
    rw [RoomRecord.grant, GoMap.get_set] at hm
    split at hm
    case isTrue he => cases hm; exact he ▸ hBelongs
    case isFalse   => exact h.belongs hm
  room          := by
    have hr := h.room
    rw [hd, Option.map_some, Option.some_inj] at hr
    simp only [GoMap.get_set, reduceCtorEq, reduceIte, Option.map_some, roomFromItem_changed hr]
    cases created <;> simp [RoomRecord.grant]
  members a     := by
    by_cases he : a = target
    case pos => simp [he, GoMap.get_set, RoomRecord.grant, hItem]
    case neg => simpa [he, GoMap.get_set, RoomRecord.grant] using h.members a
  nicknames k   := by simpa [GoMap.get_set, RoomRecord.grant] using h.nicknames k
  messages id   := by simpa [GoMap.get_set, RoomRecord.grant] using h.messages id
  idempotency e := by simpa [GoMap.get_set, RoomRecord.grant] using h.idempotency e
  audits        := by
    have hItem := auditFromItem_audit key "allowlist_granted" actor target m.role tokenJTIHash now u
    simp only [RoomRecord.grant, ←hItem]
    exact h.audits.append hu fun u' => by simp [GoMap.get_set]

theorem revoke (actor tokenJTIHash : GoString) (now : Time) (h : r.Matches key B)
    (hi : (r.revoke actor target m tokenJTIHash now).Indexed)
    (hu : B[BoardKey.audit key u]? = none) (hd : B[BoardKey.room key]? = some d) :
    (r.revoke actor target m tokenJTIHash now).Matches key <|
      let B' := ((B.delete (.member key target)).set
        (.room key) (Dynamo.changedRoom d (-1) now.format)).set
        (.audit key u)
          (Dynamo.auditItem key "allowlist_revoked" actor target .zero tokenJTIHash now.format u)
      if m.nicknameKey ≠ [] then B'.delete (.nickname key m.nicknameKey) else B' where
  indexed       := hi
  ordered       := h.ordered.imp fun _ ho => ⟨ho.sorted, ho.distinct, ho.drawn⟩
  roomKey       := h.roomKey
  belongs hm    := by
    rw [RoomRecord.revoke, GoMap.get_delete] at hm
    split at hm
    case isTrue  => contradiction
    case isFalse => exact h.belongs hm
  room          := by
    have hr := h.room
    rw [hd, Option.map_some, Option.some_inj] at hr
    split <;> simp [GoMap.get_set, GoMap.get_delete, roomFromItem_changed hr, RoomRecord.revoke,
      Int.sub_eq_add_neg]
  members a     := by
    have ha := h.members a
    by_cases he : a = target
    case pos => split <;> simp [he, GoMap.get_set, GoMap.get_delete, RoomRecord.revoke]
    case neg =>
      split <;> simpa [he, GoMap.get_set, GoMap.get_delete, RoomRecord.revoke] using ha
  nicknames k   := by
    have hk := h.nicknames k
    by_cases he : k = m.nicknameKey <;> by_cases hn : m.nicknameKey = [] <;>
      simp_all [GoMap.get_set, GoMap.get_delete, RoomRecord.revoke]
  messages id   := by
    have hm := h.messages id
    split <;> simpa [GoMap.get_set, GoMap.get_delete, RoomRecord.revoke] using hm
  idempotency e := by
    have he := h.idempotency e
    split <;> simpa [GoMap.get_set, GoMap.get_delete, RoomRecord.revoke] using he
  audits        := by
    have hItem := auditFromItem_audit key "allowlist_revoked" actor target .zero tokenJTIHash now u
    simp only [RoomRecord.revoke, ←hItem]
    exact h.audits.append hu fun u' => by
      split <;> simp [GoMap.get_set, GoMap.get_delete]

theorem rename {nickname nicknameKey : GoString} {item : DdbItem} (h : r.Matches key B)
    (hi : (r.rename agent m nickname nicknameKey now).Indexed)
    (hm : r.members[agent]? = some m)
    (hItem : membershipFromItem item = renamedMember m agent nickname nicknameKey now)
    (hNickname : ∀ k, B'[BoardKey.nickname key k]?.map (·.agent) =
      (r.rename agent m nickname nicknameKey now).nicknames[k]?)
    (hMember : ∀ k : BoardKey, k.roomKey? = some key → (∀ n, k ≠ .nickname key n) →
      B'[k]? = if k = .member key agent then some item else B[k]?) :
    (r.rename agent m nickname nicknameKey now).Matches key B' where
  indexed       := hi
  ordered       := h.ordered.imp fun _ ho => ⟨ho.sorted, ho.distinct, ho.drawn⟩
  roomKey       := h.roomKey
  belongs hm'   := by
    rw [RoomRecord.rename, GoMap.get_set] at hm'
    split at hm'
    case isTrue he => cases hm'; cases he; exact h.belongs (m := m) hm
    case isFalse   => exact h.belongs hm'
  room          := by simpa [hMember (.room key) rfl, RoomRecord.rename] using h.room
  members a     := by
    by_cases he : a = agent
    case pos => simp [he, hMember (.member key agent) rfl, RoomRecord.rename, hItem]
    case neg =>
      simpa [he, hMember (.member key a) rfl, RoomRecord.rename, GoMap.get_set] using h.members a
  nicknames     := hNickname
  messages id   := by simpa [hMember (.message key id) rfl, RoomRecord.rename] using h.messages id
  idempotency e := by
    simpa [hMember (.idempotency key e) rfl, RoomRecord.rename] using h.idempotency e
  audits        := h.audits.frame fun u => by simp [hMember (.audit key u) rfl]

-- In a list of messages with distinct ids, each is found by its id.
omit [Platform] in
theorem find?_messageID {messages : List Message} {id : GoString}
    (h : (messages.map (·.messageID)).Nodup) :
    messages.find? (·.messageID = id) = some msg ↔ msg ∈ messages ∧ msg.messageID = id := by
  constructor
  case mp  => exact fun hf => ⟨List.mem_of_find?_eq_some hf, by simpa using List.find?_some hf⟩
  case mpr =>
    intro ⟨hm, hID⟩
    cases hf : messages.find? (·.messageID = id)
    case none =>
      simp only [List.find?_eq_none, decide_eq_true_eq] at hf
      exact absurd hID (hf msg hm)
    case some msg' =>
      have hID' : msg'.messageID = id := by simpa using List.find?_some hf
      rw [List.inj_on_of_nodup_map h hm (List.mem_of_find?_eq_some hf) (hID.trans hID'.symm)]

-- A message that is not there yet
theorem messageID_ne {id : GoString} (h : r.Matches key B) (hu : B[BoardKey.message key id]? = none) :
    ∀ msg ∈ r.messages, msg.messageID ≠ id := by
  rw [←Option.map_eq_none_iff (f := messageFromItem), h.messages, List.find?_eq_none] at hu
  simpa using hu

theorem post {input : PostInput} {msg : Message} (entry : GoString) (idem : DdbItem)
    (h : r.Matches key B) (hu : B[BoardKey.message key ("msg_" ++ u)]? = none)
    (hMsg : msg = r.newMessage actor input now u) (hID : r.room.roomID = roomID)
    (hIdem : Dynamo.idempotencyFromItem idem = ⟨input.requestHash, "msg_" ++ u⟩) :
    (r.post entry msg).Matches key <|
      (B.set (.idempotency key entry) idem).set (.message key ("msg_" ++ u))
        (Dynamo.messageItem roomID key actor input ("msg_" ++ u) now.format) := by
  have hMsgID : msg.messageID = "msg_" ++ u := by rw [hMsg]; rfl
  obtain ⟨ids, hOld⟩ := h.ordered
  have hOrdered := (hOld.without (h.messageID_ne hu)).post (k := entry) hMsgID (by simp)
  exact {
    indexed       := h.indexed.post
    ordered       := ⟨_, hOrdered⟩
    roomKey       := h.roomKey
    belongs       := h.belongs
    room          := by simpa [GoMap.get_set, RoomRecord.post] using h.room
    members a     := by simpa [GoMap.get_set, RoomRecord.post] using h.members a
    nicknames k   := by simpa [GoMap.get_set, RoomRecord.post] using h.nicknames k
    messages id   := by
      have hNew : messageFromItem
          (Dynamo.messageItem roomID key actor input ("msg_" ++ u) now.format) = msg := by
        simp [messageFromItem, Dynamo.messageItem, hMsg, newMessage, hID, h.roomKey]
      refine Option.ext fun msg' => ?_
      rw [find?_messageID hOrdered.distinct, Idempotent.mem_post]
      by_cases he : id = "msg_" ++ u
      case pos =>
        subst he
        simp only [GoMap.get_set_self, Option.map_some, hNew, Option.some_inj]
        constructor
        case mp  => rintro rfl; exact ⟨.inl rfl, hMsgID⟩
        case mpr =>
          rintro ⟨rfl | hm, hid⟩
          case inl => rfl
          case inr => exact absurd hid <| h.messageID_ne hu _ hm
      case neg =>
        rw [GoMap.get_set_ne (by simpa using he), GoMap.get_set_ne (by simp), h.messages,
          find?_messageID h.distinct]
        constructor
        case mp  => rintro ⟨hm, hid⟩; exact ⟨.inr hm, hid⟩
        case mpr =>
          rintro ⟨rfl | hm, hid⟩
          case inl => exact absurd (hid.symm.trans hMsgID) he
          case inr => exact ⟨hm, hid⟩
    idempotency e := by
      by_cases he : e = entry
      case pos => simp [he, GoMap.get_set, RoomRecord.post, hIdem, hMsg, newMessage]
      case neg => simpa [he, GoMap.get_set, RoomRecord.post] using h.idempotency e
    audits        := h.audits.frame fun u' => by simp [GoMap.get_set]
  }

end Changes

end RoomRecord.Matches

end Board
