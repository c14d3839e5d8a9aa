import CookbookModel.Board.Dynamo.Contents
import CookbookModel.Board.Dynamo.Listing
import CookbookModel.Library.DynamoDB.Query

namespace Board.Dynamo

open GoString DynamoDB

section Keys

variable {after id id' : GoString} {k : BoardKey}

-- Appending a zero byte gives the least string that is greater.
theorem append_zero_le : after ++ [0] ≤ id ↔ after < id := by
  rw [←not_lt]
  induction after generalizing id
  case nil =>
    cases id
    case nil      => simp
    case cons b _ => simp [List.cons_lt_cons_iff]
  case cons a after hi =>
    cases id
    case nil => simp
    case cons b _ =>
      rw [List.cons_append, List.cons_lt_cons_iff, List.cons_lt_cons_iff, ←hi]
      rcases lt_trichotomy a b with h | rfl | h
      case inl     => simp [h, h.asymm, h.ne']
      case inr.inl => simp
      case inr.inr => simp [h, h.asymm, h.ne']

theorem append_lt_append {s t t' : GoString} : s ++ t < s ++ t' ↔ t < t' := by
  induction s
  case nil          => rfl
  case cons b s hi => rw [List.cons_append, List.cons_append, List.cons_lt_cons_self, hi]

theorem messageSK_lt : messageSK id < messageSK id' ↔ id < id' :=
  append_lt_append

theorem messageSK_le : messageSK after ++ [0] ≤ messageSK id ↔ after < id := by
  rw [messageSK, List.append_assoc, ←not_lt, messageSK, append_lt_append, not_lt, append_zero_le]

theorem take_le_take {s t : GoString} (n : Nat) (h : s ≤ t) : s.take n ≤ t.take n := by
  rw [←not_lt] at h ⊢
  induction n generalizing s t
  case zero => simp
  case succ n hi =>
    cases s <;> cases t <;> simp only [List.take_nil, List.take_succ_cons, List.cons_lt_cons_iff] at h ⊢
    case nil.nil   => simp
    case nil.cons  => simp
    case cons.nil  => simp at h
    case cons.cons =>
      rintro (hb | ⟨rfl, ht⟩)
      case inl => exact h <| .inl hb
      case inr => exact hi (fun hl => h <| .inr ⟨rfl, hl⟩) ht

theorem messageSK_le_end : messageSK id ≤ "MSG$" := by
  change (0x4D :: 0x53 :: 0x47 :: 0x23 :: id : GoString) ≤ [0x4D, 0x53, 0x47, 0x24]
  simp [←not_lt, List.cons_lt_cons_iff]

-- The sort keys from the one after a message's to the end are those of the later messages.
theorem between_messages {k : BoardKey} :
    messageSK after ++ [0] ≤ k.key.sk ∧ k.key.sk ≤ "MSG$" ↔
      ∃ roomKey id, k = .message roomKey id ∧ after < id := by
  constructor
  case mp =>
    rintro ⟨hAfter, hEnd⟩
    have hStart : k.start = ofString "MSG" := by
      rw [←k.key_start]
      exact le_antisymm (take_le_take 3 hEnd) (take_le_take 3 hAfter)
    cases k <;> simp only [BoardKey.start, ofString_inj, String.reduceEq] at hStart
    case message => exact ⟨_, _, rfl, messageSK_le.mp hAfter⟩
  case mpr =>
    rintro ⟨_, id, rfl, hAfter⟩
    exact ⟨messageSK_le.mpr hAfter, messageSK_le_end⟩

end Keys

section Queries

variable {roomKey after : GoString} {k : BoardKey} {item : Item} {limit : Nat}

-- The query for the messages after a given one.
def afterQuery (roomKey after : GoString) (limit : Nat) : QueryInput where
  keyCondition      := "PK = :pk AND SK BETWEEN :after AND :end"
  values            := [
    (":pk", .S (roomPK roomKey)), (":after", .S (messageSK after ++ [0])), (":end", .S "MSG$")]
  exclusiveStartKey := none
  limit             := limit
  scanIndexForward  := true

-- The query for the last messages.
def lastQuery (roomKey : GoString) (limit : Nat) : QueryInput where
  keyCondition      := "PK = :pk AND SK BETWEEN :start AND :end"
  values            := [
    (":pk", .S (roomPK roomKey)), (":start", .S "MSG#"), (":end", .S "MSG$")]
  exclusiveStartKey := none
  limit             := limit
  scanIndexForward  := false

theorem afterQuery_selects (hPK : item[ofString "PK"]? = some (.S k.key.pk))
    (hSK : item[ofString "SK"]? = some (.S k.key.sk)) :
    (afterQuery roomKey after limit).selects k.key item = true ↔
      ∃ id, after < id ∧ (BoardKey.message roomKey id).key = k.key := by
  have hc : Condition.parse "PK = :pk AND SK BETWEEN :after AND :end" =
      some (.and (.compare .eq (.path (.name "PK")) (.value ":pk"))
        (.between (.path (.name "SK")) (.value ":after") (.value ":end"))) :=
    rfl
  have hSelects : (afterQuery roomKey after limit).selects k.key item = true ↔
      k.key.pk = roomPK roomKey ∧ messageSK after ++ [0] ≤ k.key.sk ∧ k.key.sk ≤ "MSG$" := by
    simp [QueryInput.selects, afterQuery, hc, Condition.eval, Operand.get, Path.get, Path.resolve,
      List.lookup_cons, Comparator.holds, hPK, hSK]
  rw [hSelects, between_messages]
  simp only [BoardKey.key_inj]
  constructor
  case mp =>
    rintro ⟨hRoom, _, id, rfl, hAfter⟩
    cases List.append_cancel_left hRoom
    exact ⟨id, hAfter, rfl⟩
  case mpr =>
    rintro ⟨id, hAfter, rfl⟩
    exact ⟨rfl, _, id, rfl, hAfter⟩

end Queries

end Board.Dynamo
