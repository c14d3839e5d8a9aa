import CookbookModel.Board.Dynamo.Transactions
import CookbookModel.Library.DynamoDB.View

namespace Board.Dynamo

open GoString DynamoDB

-- What the items of the table are about.
inductive BoardKey
  | quota (agent : GoString)
  | room (roomKey : GoString)
  | member (roomKey agent : GoString)
  | nickname (roomKey nicknameKey : GoString)
  | message (roomKey messageID : GoString)
  | idempotency (roomKey entry : GoString)
  | audit (roomKey auditID : GoString)
  deriving DecidableEq

abbrev Contents := GoMap BoardKey DdbItem

namespace BoardKey

def key : BoardKey → Key
  | quota agent                  => ⟨agentPK agent, "QUOTA"⟩
  | room roomKey                 => ⟨roomPK roomKey, "META"⟩
  | member roomKey agent         => ⟨roomPK roomKey, memberSK agent⟩
  | nickname roomKey nicknameKey => ⟨roomPK roomKey, nicknameSK nicknameKey⟩
  | message roomKey messageID    => ⟨roomPK roomKey, messageSK messageID⟩
  | idempotency roomKey entry    => ⟨roomPK roomKey, "IDEMP#" ++ entry⟩
  | audit roomKey auditID        => ⟨roomPK roomKey, "AUDIT#audit_" ++ auditID⟩

-- The first characters of the sort key.
def start : BoardKey → GoString
  | quota ..       => "QUO"
  | room ..        => "MET"
  | member ..      => "MEM"
  | nickname ..    => "NIC"
  | message ..     => "MSG"
  | idempotency .. => "IDE"
  | audit ..       => "AUD"

theorem key_start (k : BoardKey) : k.key.sk.take 3 = k.start := by
  cases k <;> rfl

theorem key_injective : Function.Injective key := by
  intro k k' h
  have hStart : k.start = k'.start := by rw [←key_start, ←key_start, h]
  cases k <;> cases k' <;> simp only [start, ofString_inj, String.reduceEq] at hStart
  all_goals
    simpa [key, agentPK, roomPK, memberSK, nicknameSK, messageSK] using h

theorem key_inj {k k' : BoardKey} : k.key = k'.key ↔ k = k' :=
  key_injective.eq_iff

-- An item has its key among its attributes.
theorem pk_ne_nil (k : BoardKey) : k.key.pk ≠ [] := by
  cases k <;> exact List.cons_ne_nil _ _

theorem sk_ne_nil (k : BoardKey) : k.key.sk ≠ [] := by
  cases k <;> exact List.cons_ne_nil _ _

end BoardKey

-- The attributes that the conditions and updates of the store read are as they were first written:
-- they are there even if their value is zero, and not there if they are left out.
def Present (item : Item) (d : DdbItem) : BoardKey → Prop
  | .quota _     => item[ofString "roomCount"]? = some (.N d.roomCount)
  | .room _      =>
    item[ofString "version"]? = some (.N d.version) ∧
    item[ofString "archived"]? = some (.BOOL d.archived) ∧
    item[ofString "memberCount"]? = some (.N d.memberCount)
  | .member ..   =>
    item[ofString "version"]? = some (.N d.version) ∧
    item[ofString "role"]? = some (.S d.role.text) ∧
    item[ofString "nicknameKey"]? = DdbItem.text d.nicknameKey
  | .nickname .. => item[ofString "agent"]? = DdbItem.text d.agent
  | _            => True

structure Stored (k : BoardKey) (item : Item) (d : DdbItem) : Prop where
  fields  : DdbItem.unmarshalMap item = .ok d
  key     : (⟨d.PK, d.SK⟩ : Key) = k.key
  present : Present item d k

def view : View BoardKey DdbItem where
  key    := BoardKey.key
  Stored := Stored

abbrev Represents (T : Table) (B : Contents) : Prop :=
  view.Represents T B

section

variable {T : Table} {B : Contents}

theorem item_rel (h : Represents T B) (k : BoardKey) :
    Option.Rel (Stored k) T[k.key]? B[k]? :=
  h.items k

theorem mem_keys_iff (h : Represents T B) {k : BoardKey} :
    k.key ∈ T.keys ↔ ∃ d, B[k]? = some d := by
  have hk := item_rel h k
  rw [GoMap.mem_keys_iff_get]
  revert hk
  cases T[k.key]? <;> cases B[k]? <;> intro hk <;> cases hk <;> simp

theorem stored_of_item (h : Represents T B) {k : BoardKey} (hItem : T[k.key]? = some item) :
    ∃ d, B[k]? = some d ∧ Stored k item d := by
  have hk := item_rel h k
  rw [hItem] at hk
  cases hB : B[k]? <;> rw [hB] at hk <;> cases hk
  case some hStored => exact ⟨_, rfl, hStored⟩

theorem item_of_stored (h : Represents T B) {k : BoardKey} (hd : B[k]? = some d) :
    ∃ item, T[k.key]? = some item ∧ Stored k item d := by
  have hk := item_rel h k
  rw [hd] at hk
  cases hT : T[k.key]? <;> rw [hT] at hk <;> cases hk
  case some hStored => exact ⟨_, rfl, hStored⟩

-- The item that is stored for something.
def stored (T : Table) (k : BoardKey) : Option DdbItem :=
  T[k.key]?.bind fun item => (DdbItem.unmarshalMap item).toOption

theorem stored_eq (h : Represents T B) (k : BoardKey) : stored T k = B[k]? := by
  have hk := item_rel h k
  unfold stored
  revert hk
  cases T[k.key]? <;> cases B[k]? <;> intro hk <;> cases hk
  case none => rfl
  case some h => simp [h.fields, Except.toOption]

end

end Board.Dynamo
