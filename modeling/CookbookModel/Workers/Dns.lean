import CookbookModel.Library.TextDecoder
import CookbookModel.Workers.Ingress

namespace Workers

open JsString

-- `\d`
def isDigit (u : UInt16) : Bool :=
  0x30 ≤ u && u ≤ 0x39

-- `Number(ddd[0])` where `ddd` is `/^\d{3}/.exec(text)`
def decimals (text : JsString) : Option Nat :=
  match text with
  | a :: b :: c :: _ =>
    if isDigit a && isDigit b && isDigit c then
      some ((a.toNat - 48) * 100 + (b.toNat - 48) * 10 + (c.toNat - 48))
    else
      none
  | _ => none

theorem drop_fromCodePoint_lt {s : JsString} (h : codePointAt s = some c) :
    (s.drop (fromCodePoint c).length).length < s.length := by
  have hs : 0 < s.length := by
    cases s
    case nil  => cases h
    case cons => exact Nat.succ_pos _
  have hc : 0 < (fromCodePoint c).length := List.length_pos_iff.mpr fromCodePoint_ne_nil
  rw [List.length_drop]
  omega

-- The loop over the characters of a string, up to the quote that ends it. What is left of `data`
-- stands for `i`.
def readString (bytes : List Nat) (data : JsString) : Except Thrown (List Nat × JsString) :=
  match data with
  | []        => throw <| .other "unterminated TXT string"
  | u :: rest =>
    if u = 0x22 then
      return (bytes, rest)
    else
      match if u = 0x5C then decimals (rest.take 3) else none with
      | some n => readString (bytes ++ [n]) (rest.drop 3)
      | none   =>
        let here := if u = 0x5C then rest else u :: rest
        match _hc : codePointAt here with
        | none   => throw <| .other "Invalid code point undefined"
        | some c =>
          let ch := fromCodePoint c
          readString (bytes ++ (encode ch).map (·.toNat)) (here.drop ch.length)
termination_by data.length
decreasing_by
  · simp only [List.length_drop, List.length_cons]
    omega
  · refine (drop_fromCodePoint_lt _hc).trans_le ?_
    simp only [here]
    split <;> simp

theorem readString_length (h : readString bytes data = .ok (bytes', rest)) :
    rest.length < data.length := by
  fun_induction readString bytes data
  case case1 => cases h
  case case2 => cases h; simp
  case case3 hi =>
    have hi := hi h
    rw [List.length_drop] at hi
    rw [List.length_cons]
    omega
  case case4 => cases h
  case case5 here _ hc _ hi =>
    refine (hi h).trans <| (drop_fromCodePoint_lt hc).trans_le ?_
    simp only [here]
    split <;> simp

-- The loop over the strings
def parseFrom (out : List JsString) (data : JsString) : Except Thrown (List JsString) :=
  match data with
  | []        => return out
  | u :: rest =>
    if u = 0x20 then
      parseFrom out rest
    else if u ≠ 0x22 then
      throw <| .other "malformed TXT data"
    else
      match _h : readString [] rest with
      | .error e          => throw e
      | .ok (bytes, rest') => parseFrom (out ++ [decode (bytes.map .ofNat)]) rest'
termination_by data.length
decreasing_by
  · simp
  · exact (readString_length _h).trans (Nat.lt_succ_self _)

def parseCharacterStrings (data : JsString) : Except Thrown (List JsString) :=
  parseFrom [] data

end Workers
