import CookbookModel.Library.GoString

namespace GoString

variable {b c : UInt8} {s : GoString}

theorem toNat_ascii (hb : b < 0x80) : b.toNat < 128 :=
  UInt8.lt_iff_toNat_lt.mp hb

theorem isContinuation_ascii (hb : b < 0x80) : isContinuation b = false := by
  simp [isContinuation, UInt8.not_le.mpr hb]

-- An ASCII byte behind a string completes no sequence that the string has begun.
theorem decodeRune_snoc (hb : b < 0x80) : decodeRune (c :: (s ++ [b])) = decodeRune (c :: s) := by
  have hc := isContinuation_ascii hb
  match s with
  | [] | [_] | [_, _] | _ :: _ :: _ :: _ => simp [decodeRune, hc]

theorem decodeRune_width :
    1 ≤ (decodeRune (c :: s)).2 ∧ (decodeRune (c :: s)).2 ≤ s.length + 1 := by
  match s with
  | [] | [_] | [_, _] | _ :: _ :: _ :: _ =>
    simp only [decodeRune, List.length_cons, List.length_nil]
    split_ifs <;> simp

theorem chunksFrom_snoc {k : Nat} (hb : b < 0x80) (hk : k ≤ s.length) :
    chunksFrom k (s ++ [b]) = chunksFrom k s ++ [⟨some b.toNat, [b]⟩] := by
  induction s generalizing k
  case nil =>
    have hk : k = 0 := Nat.le_zero.mp hk
    simp [hk, chunksFrom, decodeRune, hb]
  case cons c s hi =>
    cases k
    case succ k => exact hi (Nat.le_of_succ_le_succ hk)
    case zero   =>
      obtain ⟨hPos, hWidth⟩ := @decodeRune_width c s
      have hTake : (c :: (s ++ [b])).take (decodeRune (c :: s)).2 =
          (c :: s).take (decodeRune (c :: s)).2 := by
        rw [←List.cons_append, List.take_append_of_le_length (by simpa using hWidth)]
      rw [List.cons_append, chunksFrom, chunksFrom, decodeRune_snoc hb]
      simp only [hTake, List.cons_append]
      rw [hi (by omega)]

theorem chunks_ascii (h : ∀ b ∈ s, b < 0x80) :
    chunks s = s.map fun b => ⟨some b.toNat, [b]⟩ := by
  induction s
  case nil         => rfl
  case cons b s hi =>
    have ⟨hb, h⟩ := List.forall_mem_cons.mp h
    rw [List.map_cons, ←hi h]
    simp [chunks, chunksFrom, decodeRune, hb]

theorem trimSpace_ascii (h : ∀ b ∈ s, b < 0x80 ∧ isSpace b.toNat = false) : trimSpace s = s := by
  have hChunks := chunks_ascii fun b hb => (h b hb).left
  have hDrop (l : List Chunk) (hl : ∀ c ∈ l, isSpace c.value = false) :
      l.dropWhile (fun c => isSpace c.value) = l := by
    cases l
    case nil      => rfl
    case cons c l => simp [hl c List.mem_cons_self]
  have hBlank : ∀ c ∈ chunks s, isSpace c.value = false := by
    rw [hChunks]
    exact List.forall_mem_map.mpr fun b hb => (h b hb).right
  rw [trimSpace, hDrop _ hBlank, hDrop _ (fun c hc => hBlank c (List.mem_reverse.mp hc)),
    List.reverse_reverse, hChunks]
  simp [List.flatMap_map]

theorem lowerByte_ascii (hb : b < 0x80) : lowerByte b < 0x80 := by
  have hAll : ∀ n < 128, lowerByte (.ofNat n) < 0x80 := by decide
  exact UInt8.ofNat_toNat (x := b) ▸ hAll b.toNat (toNat_ascii hb)

theorem encodeRune_lowerRune [CaseTable] (hb : b < 0x80) :
    encodeRune (lowerRune b.toNat) = [lowerByte b] := by
  have hLower : lowerRune b.toNat = (lowerByte b).toNat := by
    rw [lowerRune, if_pos (toNat_ascii hb), UInt8.ofNat_toNat]
  rw [hLower, encodeRune, if_pos (toNat_ascii (lowerByte_ascii hb)), UInt8.ofNat_toNat]

theorem toLower_snoc [CaseTable] (hb : b < 0x80) :
    toLower (s ++ [b]) = toLower s ++ [lowerByte b] := by
  have hAll : (s ++ [b]).all (· < 0x80) = s.all (· < 0x80) := by simp [hb]
  rw [toLower, toLower, hAll]
  split
  case isTrue  => exact List.map_append
  case isFalse =>
    rw [chunks, chunksFrom_snoc hb (Nat.zero_le _), List.flatMap_append, List.flatMap_singleton,
      Chunk.value, Option.getD_some, encodeRune_lowerRune hb, chunks]

end GoString
