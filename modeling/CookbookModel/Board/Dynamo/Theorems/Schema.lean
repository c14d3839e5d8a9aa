import CookbookModel.Board.Dynamo.Theorems.Ranges
import CookbookModel.Board.Dynamo.Theorems.Requests
import CookbookModel.Board.Memory.Theorems.Paging

namespace Board.Dynamo

open GoString DynamoDB

section

variable [Platform]

-- What an item of the store is identified by.
inductive Identifier
  | quota (agent : GoString)
  | room (roomID : GoString)
  | member (roomID agent : GoString)
  | nickname (roomID nicknameKey : GoString)
  | message (roomID messageID : GoString)
  | idempotency (roomID agent idempotencyKey : GoString)
  | audit (roomID ulid : GoString)

namespace Identifier

-- The key that the store's functions build for it.
def key : Identifier → Key
  | quota agent                      => ⟨agentPK agent, "QUOTA"⟩
  | room roomID                      => ⟨roomPK (roomKeyOf roomID), "META"⟩
  | member roomID agent              => ⟨roomPK (roomKeyOf roomID), memberSK agent⟩
  | nickname roomID nicknameKey      => ⟨roomPK (roomKeyOf roomID), nicknameSK nicknameKey⟩
  | message roomID messageID         => ⟨roomPK (roomKeyOf roomID), messageSK messageID⟩
  | idempotency roomID agent key     => ⟨roomPK (roomKeyOf roomID), idempotencySK agent key⟩
  | audit roomID ulid                => ⟨roomPK (roomKeyOf roomID), "AUDIT#audit_" ++ ulid⟩

def roomID : Identifier → Option GoString
  | quota _ => none
  | room roomID | member roomID _ | nickname roomID _ | message roomID _ | idempotency roomID _ _
  | audit roomID _ => some roomID

-- The agent whose name a `#` ends in the key.
def entryAgent : Identifier → Option GoString
  | idempotency _ agent _ => some agent
  | _                     => none

-- No canonical name has a `#`.
structure Valid (i : Identifier) : Prop where
  room  : ∀ roomID ∈ i.roomID, normalizeRoomID roomID = .ok roomID
  agent : ∀ agent ∈ i.entryAgent, (0x23 : UInt8) ∉ agent

-- What the key is about in the table.
def boardKey : Identifier → BoardKey
  | quota agent                  => .quota agent
  | room roomID                  => .room (roomKeyOf roomID)
  | member roomID agent          => .member (roomKeyOf roomID) agent
  | nickname roomID nicknameKey  => .nickname (roomKeyOf roomID) nicknameKey
  | message roomID messageID     => .message (roomKeyOf roomID) messageID
  | idempotency roomID agent key => .idempotency (roomKeyOf roomID) (agent ++ "#" ++ key)
  | audit roomID ulid            => .audit (roomKeyOf roomID) ulid

theorem boardKey_key (i : Identifier) : i.boardKey.key = i.key := by
  cases i
  case idempotency => simp [boardKey, BoardKey.key, key, idempotencySK]
  all_goals rfl

theorem roomKeyOf_inj {roomID roomID' : GoString} (h : normalizeRoomID roomID = .ok roomID)
    (h' : normalizeRoomID roomID' = .ok roomID') (he : roomKeyOf roomID = roomKeyOf roomID') :
    roomID = roomID' := by
  rw [roomKeyOf_normalized h, roomKeyOf_normalized h'] at he
  exact Base64.encode_injective he

-- Two keys are the same only if they are built of the same parts.
theorem key_inj {i j : Identifier} (hi : i.Valid) (hj : j.Valid) (h : i.key = j.key) : i = j := by
  rw [←boardKey_key, ←boardKey_key, BoardKey.key_inj] at h
  cases i <;> cases j <;> simp only [boardKey, reduceCtorEq] at h
  case quota.quota => cases h; rfl
  case idempotency.idempotency =>
    have ⟨hRoom, hEntry⟩ := BoardKey.idempotency.inj h
    have ⟨hAgent, hKey⟩ := entryKey_inj (hi.agent _ rfl) (hj.agent _ rfl) hEntry
    rw [roomKeyOf_inj (hi.room _ rfl) (hj.room _ rfl) hRoom, hAgent, hKey]
  case room.room =>
    rw [roomKeyOf_inj (hi.room _ rfl) (hj.room _ rfl) (BoardKey.room.inj h)]
  all_goals
    injection h with hRoom hPart
    rw [roomKeyOf_inj (hi.room _ rfl) (hj.room _ rfl) hRoom, hPart]

end Identifier

-- A table that holds any items of the store, each under its key.
structure OfStore (T : Table) : Prop where
  keys  : ∀ key ∈ T.keys, ∃ i : Identifier, i.Valid ∧ i.key = key
  items : ∀ (key : Key) (item : Item), T[key]? = some item → item.key = some key

section

variable {T : Table} {roomID after : GoString} {limit : Int} {q : QueryInput}
  {path : List (Σ o, Op.Res o)}

omit [Platform] in
theorem attributes_of_key {item : Item} (h : item.key = some key) :
    item[ofString "PK"]? = some (.S key.pk) ∧ item[ofString "SK"]? = some (.S key.sk) := by
  unfold Item.key at h
  split at h
  case h_1 hPK hSK => cases h; exact ⟨hPK, hSK⟩
  case h_2         => cases h

theorem OfStore.found {item : Item} (h : OfStore T) (hItem : T[key]? = some item) :
    ∃ k : BoardKey, k.key = key ∧ item[ofString "PK"]? = some (.S k.key.pk) ∧
      item[ofString "SK"]? = some (.S k.key.sk) := by
  have ⟨i, _, hi⟩ := h.keys key <| GoMap.mem_keys hItem
  have ⟨hPK, hSK⟩ := attributes_of_key <| h.items _ _ hItem
  exact ⟨i.boardKey, i.boardKey_key.trans hi, by rw [i.boardKey_key, hi]; exact ⟨hPK, hSK⟩⟩

-- The query that a read of messages makes.
theorem readMessages_emits (hRoom : normalizeRoomID roomID = .ok roomID)
    (h : (readMessages roomID limit none after).Emits path (.query q)) :
    q = (if after ≠ [] then afterQuery (roomKeyOf roomID) after
        (boundLimit limit defaultMessagesLimit).toNat
      else lastQuery (roomKeyOf roomID) (boundLimit limit defaultMessagesLimit).toNat) := by
  simp only [readMessages, validated, hRoom, roomKey_normalized hRoom, Program.pure_eq,
    Program.ok_bind, perform, Program.perform_bind] at h
  cases Program.emits_call.mp h
  case inl h =>
    have hq := Op.query.inj h.right
    rw [hq, roomKeyOf_normalized hRoom]
    rfl
  case inr h =>
    obtain ⟨out, _, _, h⟩ := h
    cases out
    case error => simp at h
    case ok    => simp [Program.ofExcept, Program.emits_done_bind] at h

variable [CursorJson] {s : MemoryStore} {r : RoomRecord}

end

end

section

attribute [local instance] asciiPlatform plainCursors

end

end Board.Dynamo
