import CookbookModel.Board.Cli
import CookbookModel.Board.Server.Theorems.Steps

namespace Board.Cli

open GoString GoJson

-- How many bytes the client writes for a character of a body.
def writtenLength (c : Chunk) : Nat :=
  if c.value ∈ [0x22, 0x5C, 0x08, 0x0C, 0x0A, 0x0D, 0x09] then 2
  else if c.value < 0x20 ∨ c.value ∈ [0x26, 0x3C, 0x3E, 0x2028, 0x2029] then 6
  else c.bytes.length

-- The length of the request's body: that of the object around a text and that of the text.
def requestLength (body : GoString) : Nat :=
  11 + ((chunks body).map writtenLength).sum

section

variable {r : Nat} {b v rest : GoString}

theorem escape_length (c : Chunk) (hc : c.rune = some r) : (escape c).length = writtenLength c := by
  unfold escape writtenLength Chunk.value
  simp only [hc, Option.getD_some, List.mem_cons, List.not_mem_nil, or_false, Bool.or_eq_true,
    decide_eq_true_eq]
  split_ifs with h₁ h₂ h₃ h₄ h₅ h₆ h₇ h₈ h₉ h₁₀
  all_goals first | rfl | (simp only [Rune] at *; omega)

-- What the client writes before the text and after it
def opening : GoString :=
  [0x7B, 0x22, 0x62, 0x6F, 0x64, 0x79, 0x22, 0x3A, 0x22]

def closing : GoString :=
  [0x22, 0x7D]

theorem marshalStrings_body :
    marshalStrings [("body", b)] = opening ++ ((chunks b).flatMap escape ++ closing) := by
  have hName : marshalString "body" = [0x22, 0x62, 0x6F, 0x64, 0x79, 0x22] := by decide
  have hOne : marshalStrings [("body", b)] =
      0x7B :: (marshalString "body" ++ 0x3A :: marshalString b) ++ [0x7D] := by
    simp [marshalStrings]
  rw [hOne, hName, marshalString]
  simp [opening, closing]

-- The member of the object with the text as it is written.
def member (v rest : GoString) : GoString × GoString :=
  ("body", (0x22 :: v).take ((0x22 :: v).length - rest.length))

set_option maxRecDepth 20000 in
theorem members_opening {skip : GoString → Option GoString} {fuel : Nat}
    (hs : ∀ v, skip (0x22 :: v) = skipString v) :
    members skip (fuel + 1) (opening.tail ++ v) = (skipString v).bind fun rest =>
      match skipSpace rest with
      | 0x2C :: s => (members skip fuel s).bind fun p => some (member v rest :: p.1, p.2)
      | 0x7D :: s => some ([member v rest], s)
      | _         => none := by
  have hQuote : cutPrefix (skipSpace (opening.tail ++ v)) [0x22] = some (opening.drop 2 ++ v) := rfl
  have hName : skipString (opening.drop 2 ++ v) = some (opening.drop 7 ++ v) := by
    have hPlain : ∀ b ∈ ofString "body", plain b := by unfold plain; decide
    exact skipString_plain (t := opening.drop 6 ++ v) hPlain
  have hColon : cutPrefix (skipSpace (opening.drop 7 ++ v)) [0x3A] = some (0x22 :: v) := rfl
  have hValue : skipSpace (0x22 :: v) = 0x22 :: v := rfl
  have hTake : (opening.drop 2 ++ v).take ((opening.drop 2 ++ v).length -
      (opening.drop 7 ++ v).length - 1) = ofString "body" := by
    rw [List.length_append, List.length_append, Nat.add_sub_add_right]
    rfl
  rw [members, hQuote]
  simp only [Option.bind_eq_bind, Option.bind_some, hName, hColon, hValue, hs, hTake]
  rfl

theorem decodeObject_opening : decodeObject (opening ++ v) =
    (members (skipValue (maxNestingDepth - 1)) (7 + v.length + 1) (opening.tail ++ v)).map
      fun p => (p.1.map fun f => (unquote f.1, f.2), p.2) := by
  have hSpace : skipSpace (opening ++ v) = 0x7B :: (opening.tail ++ v) := rfl
  have hQuote : skipSpace (opening.tail ++ v) = 0x22 :: (opening.drop 2 ++ v) := rfl
  have hLength : (0x22 :: (opening.drop 2 ++ v)).length = 7 + v.length + 1 := by
    rw [List.length_cons, List.length_append]
    rfl
  rw [decodeObject, hSpace]
  simp only [hQuote, Option.map_eq_bind]
  rw [←hLength]
  rfl

theorem decodeObject_whole (h : skipString v = some (0x7D :: rest)) :
    decodeObject (opening ++ v) = some ([member v (0x7D :: rest)], rest) := by
  have hSpace : skipSpace (0x7D :: rest) = 0x7D :: rest := rfl
  have hName : unquote (ofString "body") = ofString "body" := by decide
  rw [decodeObject_opening, members_opening (skipValue_string _), h]
  simp only [Option.bind_some, hSpace, Option.map_some, List.map_cons, List.map_nil, member, hName]

-- A text that ends before the object does is refused.
theorem decodeObject_cut (h : ∀ rest, skipString v = some rest → rest = []) :
    decodeObject (opening ++ v) = none := by
  rw [decodeObject_opening, members_opening (skipValue_string _)]
  cases hv : skipString v
  case none      => rfl
  case some rest =>
    rw [h rest hv]
    rfl

theorem written_length (h : valid b) :
    (opening ++ ((chunks b).flatMap escape ++ closing)).length = requestLength b := by
  have hAll : ∀ c ∈ chunks b, (escape c).length = writtenLength c := by
    intro c hc
    have ⟨r, hr⟩ := Option.isSome_iff_exists.mp <| List.all_eq_true.mp h c hc
    exact escape_length c hr
  rw [List.length_append, List.length_append, List.length_flatMap, List.map_congr_left hAll,
    requestLength]
  simp only [opening, closing, List.length_cons, List.length_nil]
  omega

theorem decodeMessage_whole (h : valid b) :
    Http.decodeMessage (opening ++ ((chunks b).flatMap escape ++ closing)) =
      some ⟨["body"], some b⟩ := by
  have hSkip : skipString ((chunks b).flatMap escape ++ closing) = some [0x7D] :=
    (escape_roundTrip h _).left
  have hText : (member ((chunks b).flatMap escape ++ closing) [0x7D]).2 = marshalString b := by
    have hWhole : 0x22 :: ((chunks b).flatMap escape ++ closing) = marshalString b ++ [0x7D] := by
      simp [closing, marshalString]
    rw [member, hWhole, List.length_append, Nat.add_sub_cancel, List.take_left]
  have hName : (member ((chunks b).flatMap escape ++ closing) [0x7D]).1 = ofString "body" := rfl
  rw [Http.decodeMessage, decodeObject_whole hSkip]
  simp [field, hName, hText, unmarshalString_marshalString h]

theorem decodeMessage_cut {n : Nat} (h : valid b)
    (hn : n < (opening ++ ((chunks b).flatMap escape ++ closing)).length) (ho : 9 ≤ n) :
    Http.decodeMessage ((opening ++ ((chunks b).flatMap escape ++ closing)).take n) = none := by
  have hSkip : skipString ((chunks b).flatMap escape ++ closing) = some [0x7D] :=
    (escape_roundTrip h _).left
  generalize (chunks b).flatMap escape ++ closing = v at *
  have hTake : (opening ++ v).take n = opening ++ v.take (n - 9) := by
    rw [List.take_append, List.take_of_length_le (by exact ho)]
    rfl
  have hCut : decodeObject (opening ++ v.take (n - 9)) = none := by
    refine decodeObject_cut fun rest hr => ?_
    have hAll := skipString_append hr (v.drop (n - 9))
    rw [List.take_append_drop, hSkip] at hAll
    have hLength := congrArg List.length (Option.some.inj hAll)
    rw [List.length_append, List.length_drop] at hLength
    rw [List.length_append] at hn
    simp only [opening, List.length_cons, List.length_nil] at hn hLength
    exact List.length_eq_zero_iff.mp (by omega)
  rw [hTake, Http.decodeMessage, hCut]
  rfl

theorem received_body : ((post token roomID b key randomID).received verifyBearer).body =
    .ok (opening ++ ((chunks b).flatMap escape ++ closing)) :=
  congrArg Except.ok marshalStrings_body

theorem decodeJSON_eq {req : Http.Request} {decode : GoString → Option α} {text : GoString}
    (hBody : req.body = .ok text) (hBlank : trimSpace (text.take (32 * 1024)) ≠ []) :
    Http.decodeJSON req decode =
      (decode (text.take (32 * 1024))).elim (.error (.validation "invalid JSON body")) .ok := by
  rw [Http.decodeJSON, hBody]
  simp only [bind, Except.bind, throwIf, hBlank, if_false, pure, Except.pure]
  cases decode (text.take (32 * 1024)) <;> rfl

-- The server takes at most 32 KiB of a body.
theorem decodeJSON_post (h : valid b) :
    Http.decodeJSON ((post token roomID b key randomID).received verifyBearer) Http.decodeMessage =
      if requestLength b ≤ 32 * 1024 then .ok ⟨["body"], some b⟩
      else .error (.validation "invalid JSON body") := by
  have hBlank : trimSpace ((opening ++ ((chunks b).flatMap escape ++ closing)).take (32 * 1024)) ≠ [] :=
    trimSpace_ne_nil (by decide) (by decide)
  have hLength := written_length h
  rw [decodeJSON_eq received_body hBlank]
  split
  case isTrue hle =>
    rw [List.take_of_length_le (hLength.trans_le hle), decodeMessage_whole h]
    rfl
  case isFalse hlt =>
    rw [decodeMessage_cut h (hLength ▸ not_le.mp hlt) (by decide)]
    rfl

end

theorem messageBody_valid (h : messageBody v = .ok b) : valid b := by
  simp only [messageBody, Except.bind_eq_ok, errorIf_ok, Except.pure_eq_ok] at h
  obtain ⟨_, _, _, hValid, _, _, he⟩ := h
  simpa [he] using hValid

section

variable [Platform]

-- The server finds the text in the client's request, and what it posts for it is this text.
structure Delivered (r : Http.Request) (b : GoString) : Prop where
  decoded : Http.decodeJSON r Http.decodeMessage = .ok ⟨["body"], some b⟩
  read    : ∀ {identity roomID key}, trimSpace key ≠ [] →
    (Server.postMessage identity roomID key (Http.decodeJSON r Http.decodeMessage)).Emits []
      (.getRoomForAgent roomID identity.agent)
  posted  : ∀ {identity roomID key path actor input},
    (Server.postMessage identity roomID key (Http.decodeJSON r Http.decodeMessage)).Emits path
      (.postMessage actor input) → input.body = b

theorem body_not_identity : Server.containsIdentityField [ofString "body"] = false := by
  have hLower : toLower (ofString "body") = ofString "body" := by
    unfold toLower
    rw [if_pos (by decide)]
    decide
  simp [Server.containsIdentityField, hLower]

theorem Delivered.of_decoded {r : Http.Request} (hb : messageBody b = .ok b)
    (hd : Http.decodeJSON r Http.decodeMessage = .ok ⟨["body"], some b⟩) : Delivered r b where
  decoded := hd
  read hKey := by
    simp only [hd, Server.postMessage, Server.emits_validated_bind, Server.invoke, Program.ofExcept,
      Program.call_bind, Program.emits_done_bind, Program.emits_throwIf_bind]
    refine ⟨hKey, _, rfl, by simp [body_not_identity], b, rfl, b, hb, ?_⟩
    exact Program.emits_call.mpr <| .inl ⟨rfl, rfl⟩
  posted h := by
    simp only [hd, Server.postMessage, Server.emits_validated_bind, Server.invoke, Program.ofExcept,
      Program.call_bind, Program.emits_call, Program.emits_done_bind, Program.emits_throwIf_bind,
      Program.emits_done, reduceCtorEq, and_false, false_or, exists_false, or_false] at h
    obtain ⟨_, _, ⟨⟩, _, _, ⟨⟩, body, hBody, _, _, _, snapshot, _, _, _, _, _, _, _, he⟩ := h
    cases hBody.symm.trans hb
    cases he
    rfl

-- A message goes from the client to the server as it is exactly if the server does not cut off the
-- request that it makes.
theorem post_round_trip (hb : messageBody b = .ok b) :
    Delivered ((post token roomID b key randomID).received verifyBearer) b ↔
      requestLength b ≤ 32 * 1024 := by
  have hDecode : Http.decodeJSON ((post token roomID b key randomID).received verifyBearer)
      Http.decodeMessage = _ :=
    decodeJSON_post (messageBody_valid hb)
  constructor
  case mp =>
    intro h
    by_contra hn
    rw [if_neg hn] at hDecode
    cases h.decoded.symm.trans hDecode
  case mpr =>
    intro hle
    rw [if_pos hle] at hDecode
    exact .of_decoded hb hDecode

end

section

attribute [local instance] asciiPlatform

def noBearer (_ : GoString) : Except Err Identity :=
  .error (.other "unauthorized")

theorem post_round_trip_short :
    messageBody "a<b" = .ok "a<b" ∧
      Delivered ((post [] "lobby" "a<b" "k" []).received noBearer) "a<b" :=
  have hb : messageBody "a<b" = .ok "a<b" := by decide
  ⟨hb, (post_round_trip hb).mpr (by decide)⟩

-- Characters that take six bytes each.
def angles (n : Nat) : GoString :=
  List.replicate n 0x3C

theorem flatMap_angles (n : Nat) : (List.replicate n 0x3C).flatMap encodeRune = angles n := by
  induction n
  case zero      => rfl
  case succ n hi => rw [List.replicate_succ, List.flatMap_cons, hi]; rfl

theorem chunks_angles (n : Nat) : chunks (angles n) = List.replicate n ⟨some 0x3C, [0x3C]⟩ := by
  have hScalar : ∀ r ∈ List.replicate n 0x3C, isScalar r := fun r hr => by
    rw [List.eq_of_mem_replicate hr]
    rfl
  rw [←flatMap_angles, chunks_flatMap hScalar, List.map_replicate]
  rfl

theorem messageBody_angles {n : Nat} (h₀ : 0 < n) (hn : n ≤ maxMessageBytes) :
    messageBody (angles n) = .ok (angles n) := by
  have hTrim : trim (angles n) "\r\n" = angles n := by
    have hKeep : (0x3C : UInt8) ∉ ofString "\r\n" := by decide
    have hDrop : (angles n).dropWhile (· ∈ ofString "\r\n") = angles n := by
      rw [angles, List.dropWhile_replicate]
      simp [hKeep]
    rw [trim, hDrop, angles, List.reverse_replicate, ←angles, hDrop, angles, List.reverse_replicate]
  have hValid : valid (angles n) := by
    rw [valid, chunks_angles]
    simp
  have hne : angles n ≠ [] := by simp [angles, h₀.ne']
  have hLength : (angles n).length = n := List.length_replicate
  simp only [messageBody, hTrim, Except.bind_eq_ok, errorIf_ok, Except.pure_eq_ok]
  exact ⟨(), hne, (), by simp [hValid], (), by rwa [hLength, not_lt], trivial⟩

-- A message of 6000 angle brackets does not fit, although it is within 8 KiB.
theorem post_round_trip_fails :
    ¬∀ b, messageBody b = .ok b → Delivered ((post [] "lobby" b "k" []).received noBearer) b := by
  intro h
  have hb : messageBody (angles 6000) = .ok (angles 6000) :=
    messageBody_angles (by decide) (by decide)
  have hDecode : Http.decodeJSON ((post [] "lobby" (angles 6000) "k" []).received noBearer)
      Http.decodeMessage = _ :=
    decodeJSON_post (messageBody_valid hb)
  have hLength : requestLength (angles 6000) = 11 + 6000 * 6 := by
    rw [requestLength, chunks_angles, List.map_replicate, List.sum_replicate]
    rfl
  rw [hLength, if_neg (by decide)] at hDecode
  cases (h _ hb).decoded.symm.trans hDecode

end

end Board.Cli
