import CookbookModel.ImagePoc.ResponseBody

namespace ImagePoc

open PyString Json

section

variable {parseFloat : PyString → PyString} {v : Json} {s t u j w : PyString} {stream : EventStream}

theorem isspace_blank (hw : Blank w) : ∀ c ∈ w, isspace c := by
  intro c hc
  have hc := hw c hc
  simp only [Json.isSpace, Bool.or_eq_true, decide_eq_true_eq] at hc
  rcases hc with ((rfl | rfl) | rfl) | rfl <;> decide

theorem isspace_eol (hw : ∀ c ∈ w, c = 0x0A ∨ c = 0x0D) : ∀ c ∈ w, isspace c := by
  intro c hc
  rcases hw c hc with rfl | rfl <;> decide

theorem not_isspace_closes (h : Closes t) : ∀ c ∈ t.getLast?, isspace c = false := by
  have ⟨c, hLast, hc⟩ := h
  intro c' hc'
  cases Option.some.inj (hLast.symm.trans hc')
  rcases hc with rfl | rfl | rfl <;> decide

-- The text of an object or array is found behind the blanks around it.
theorem strip_core {left right : PyString} (h : Core parseFloat v t) (hl : ∀ c ∈ left, isspace c)
    (hr : ∀ c ∈ right, isspace c) : strip (left ++ t ++ right) = t := by
  refine strip_padded hl hr (fun c hc => ?_) (not_isspace_closes h.closes)
  have ⟨c', u, ht, hOpen⟩ := h.opens
  rw [ht] at hc
  cases hc
  rcases hOpen with rfl | rfl <;> decide

theorem parseResponseBody_plain (h : loads parseFloat j = some v) (hv : Container v) :
    parseResponseBody parseFloat j = v := by
  have ⟨w, t, w', hj, hw, hw', hCore⟩ := loads_core h hv
  have ⟨c, u, ht, hOpen⟩ := hCore.opens
  have hStrip : strip j = t := hj ▸ strip_core hCore (isspace_blank hw) (isspace_blank hw')
  have hNil : t ≠ [] := by simp [ht]
  have hStart : (startswith t "event:" || startswith t "data:") = false := by
    rw [ht]
    rcases hOpen with rfl | rfl <;> rfl
  rw [parseResponseBody, hStrip, if_neg hNil, hStart, if_neg (by simp), loadsOr, hCore.loads,
    Option.getD_some]

theorem takeWhile_data (s : PyString) : (ofString "data:" ++ s).takeWhile (!isLineBreak ·) =
    ofString "data:" ++ s.takeWhile (!isLineBreak ·) :=
  rfl

-- The first line that has data: a part of the event's line, or else the data up to where a line ends.
theorem dataLine_frame (s : PyString) :
    dataLine (splitlines (stream.eventText ++ (ofString "data:" ++ s))) =
      stream.part.or (some (ofString "data:" ++ s.takeWhile (!isLineBreak ·))) := by
  have hData : dataLine (splitlines (ofString "data:" ++ s)) =
      some (ofString "data:" ++ s.takeWhile (!isLineBreak ·)) := by
    have ⟨lines, hLines⟩ : ∃ lines, splitlines (ofString "data:" ++ s) =
        (ofString "data:" ++ s).takeWhile (!isLineBreak ·) :: lines :=
      splitlines_ne_nil <| List.append_ne_nil_of_left_ne_nil (by decide) s
    rw [hLines, takeWhile_data]
    exact List.find?_cons_of_pos (startswith_append _ _)
  rw [EventStream.eventText, EventStream.part]
  cases stream.event
  case none       => exact hData
  case some event =>
    have hLine : 0x0D ∉ event.text := by
      rw [EventLine.text, List.mem_append]
      exact not_or.mpr ⟨by decide, event.one_line.right⟩
    have hHead : (ofString "data:" ++ s).head? ≠ some 0x0A := by
      rw [List.head?_append_of_ne_nil _ (by decide)]
      decide
    simp only [List.append_assoc, Option.bind_some]
    rw [splitlines_append hLine event.ends hHead, dataLine, List.find?_append, ←hData]
    rfl

theorem strip_frame {left right : PyString} (hCore : Core parseFloat v t) (hr : Blank right) :
    strip (stream.frame (left ++ t ++ right)) =
      stream.eventText ++ (ofString "data:" ++ (left ++ t)) := by
  have hFrame : stream.frame (left ++ t ++ right) =
      [] ++ (stream.eventText ++ (ofString "data:" ++ (left ++ t))) ++ (right ++ stream.blanks) := by
    simp [EventStream.frame]
  rw [hFrame]
  refine strip_padded nofun ?_ ?_ ?_
  · exact List.forall_mem_append.mpr ⟨isspace_blank hr, isspace_eol stream.blank⟩
  · intro c hc
    rw [EventStream.eventText] at hc
    cases he : stream.event <;> rw [he] at hc
    case none       => cases hc; decide
    case some event => cases hc; decide
  · have ⟨c, hLast, hc⟩ := hCore.closes
    refine not_isspace_closes ⟨c, ?_, hc⟩
    simp only [←List.append_assoc]
    exact getLast?_behind hLast _

variable (parseFloat) in
-- The data is not cut, neither by the event's line nor within. Otherwise the value has to be that of
-- the part that is read, or what stands for a text that is not JSON.
def Intact (stream : EventStream) (j : PyString) (v : Json) : Prop :=
  match stream.part with
  | some line => loadsOr parseFloat (unparsed (strip (stream.frame j))) (dataOf line) = v
  | none      => (∀ c ∈ j, isLineBreak c = false) ∨ unparsed (strip (stream.frame j)) = v

-- Data that is cut is no JSON text.
theorem loads_cut {left : PyString} (hCore : Core parseFloat v t) (hl : Blank left)
    (hc : ∃ c ∈ t, isLineBreak c = true) :
    loads parseFloat (strip (left ++ t.takeWhile (!isLineBreak ·))) = none := by
  obtain ⟨c, u, ht, hOpen⟩ := hCore.opens
  have hBreak : isLineBreak c = false := by rcases hOpen with rfl | rfl <;> decide
  have hSpace : isspace c = false := by rcases hOpen with rfl | rfl <;> decide
  generalize hPart : t.takeWhile (!isLineBreak ·) = part
  have hStrip : strip (left ++ part) = part.rdropWhile isspace := by
    have hDrop : (left ++ part).dropWhile isspace = part := by
      rw [List.dropWhile_append_of_pos (isspace_blank hl), ←hPart, ht,
        List.takeWhile_cons_of_pos (by simp [hBreak]), List.dropWhile_cons_of_neg (by simp [hSpace])]
    rw [strip, hDrop]
  obtain ⟨spaces, hSpaces⟩ := part.rdropWhile_prefix isspace
  have hSplit : t = part.rdropWhile isspace ++ (spaces ++ t.dropWhile (!isLineBreak ·)) := by
    rw [←List.append_assoc, hSpaces, ←hPart, List.takeWhile_append_dropWhile]
  have hRest : t.dropWhile (!isLineBreak ·) ≠ [] := by
    intro he
    obtain ⟨c', hm, hc'⟩ := hc
    have hAll := List.dropWhile_eq_nil_iff.mp he c' hm
    simp [hc'] at hAll
  rw [hStrip]
  exact Core.loads_prefix (hSplit ▸ hCore) (List.append_ne_nil_of_right_ne_nil _ hRest)

theorem parseResponseBody_frame (s : PyString)
    (hText : strip (stream.frame j) = stream.eventText ++ (ofString "data:" ++ s)) :
    parseResponseBody parseFloat (stream.frame j) =
      loadsOr parseFloat (unparsed (strip (stream.frame j)))
        (dataOf (stream.part.getD (ofString "data:" ++ s.takeWhile (!isLineBreak ·)))) := by
  have hNil : strip (stream.frame j) ≠ [] := by
    rw [hText]
    exact List.append_ne_nil_of_right_ne_nil _ <| List.append_ne_nil_of_left_ne_nil (by decide) s
  have hStart : (startswith (strip (stream.frame j)) "event:" ||
      startswith (strip (stream.frame j)) "data:") = true := by
    rw [hText, EventStream.eventText]
    cases stream.event
    case none       => exact Bool.or_eq_true_iff.mpr <| .inr <| startswith_append ..
    case some event =>
      refine Bool.or_eq_true_iff.mpr <| .inl ?_
      simp only [EventLine.text, List.append_assoc]
      exact startswith_append ..
  rw [parseResponseBody, if_neg hNil, hStart, if_pos rfl, hText, dataLine_frame]
  cases stream.part <;> rfl

-- The data of an event reads as the plain text does exactly where it is not cut.
theorem event_stream_alike (stream : EventStream) (hj : loads parseFloat j = some v)
    (hv : Container v) (hLine : 0x0A ∉ j ∧ 0x0D ∉ j) :
    (parseResponseBody parseFloat (stream.frame j) = parseResponseBody parseFloat j ∧
      parseResponseBody parseFloat j = v) ↔ Intact parseFloat stream j v := by
  obtain ⟨left, t, right, he, hl, hr, hCore⟩ := loads_core hj hv
  have hNoBreak {w : PyString} (hw : Blank w) (hm : ∀ c ∈ w, c ∈ j) : ∀ c ∈ w, isLineBreak c = false := by
    intro c hc
    have hSpace := hw c hc
    simp only [Json.isSpace, Bool.or_eq_true, decide_eq_true_eq] at hSpace
    rcases hSpace with ((rfl | rfl) | rfl) | rfl
    · decide
    · decide
    · exact absurd (hm _ hc) hLine.left
    · exact absurd (hm _ hc) hLine.right
  have hLeft := hNoBreak hl fun c hc => by simp [he, hc]
  have hRight := hNoBreak hr fun c hc => by simp [he, hc]
  have hText : strip (stream.frame j) = stream.eventText ++ (ofString "data:" ++ (left ++ t)) :=
    he ▸ strip_frame hCore hr
  rw [parseResponseBody_plain hj hv, and_iff_left rfl, parseResponseBody_frame _ hText, Intact]
  cases stream.part
  case some line => rfl
  case none      =>
    have hData : dataOf (ofString "data:" ++ (left ++ t).takeWhile (!isLineBreak ·)) =
        strip (left ++ t.takeWhile (!isLineBreak ·)) := by
      rw [dataOf, removeprefix_append, List.takeWhile_append_of_pos fun c hc => by simp [hLeft c hc]]
    simp only [Option.getD_none, hData, loadsOr]
    by_cases hc : ∃ c ∈ t, isLineBreak c = true
    case pos =>
      have hj : ¬∀ c ∈ j, isLineBreak c = false := by
        obtain ⟨c, hm, hc⟩ := hc
        exact fun h => by simp [h c (by simp [he, hm])] at hc
      rw [loads_cut hCore hl hc, Option.getD_none, or_iff_right hj]
    case neg =>
      have hNone : ∀ c ∈ t, isLineBreak c = false :=
        fun c hm => Bool.eq_false_iff.mpr fun h => hc ⟨c, hm, h⟩
      have hWhole : t.takeWhile (!isLineBreak ·) = t :=
        List.takeWhile_eq_self_iff.mpr fun c hm => by simp [hNone c hm]
      have hStrip : strip (left ++ t ++ []) = t := strip_core hCore (isspace_blank hl) (by simp)
      rw [List.append_nil] at hStrip
      rw [hWhole, hStrip, hCore.loads, Option.getD_some]
      refine iff_of_true rfl <| .inl ?_
      rw [he]
      exact List.forall_mem_append.mpr ⟨List.forall_mem_append.mpr ⟨hLeft, hNone⟩, hRight⟩

end

namespace Sample

set_option maxRecDepth 20000 in
def messageStream : EventStream where
  event  := some ⟨" message", [0x0A], by decide, by decide⟩
  blanks := [0x0A, 0x0A]
  blank  := by simp

def blankData : PyString :=
  "\x7b\"a\": \"x y\"\x7d"

def separatorData : PyString :=
  "\x7b\"a\": \"x\u2028y\"\x7d"

-- An object that has a member `a` in front
def hasA : Json → Bool
  | .object ((key, _) :: _) => key = ofString "a"
  | _                       => false

theorem container_hasA {v : Json} (h : hasA v) : Container v := by
  cases v
  case object => trivial
  all_goals cases h

theorem loads_hasA {j : PyString} (h : (loads id j).any hasA) :
    ∃ v, loads id j = some v ∧ hasA v := by
  cases hj : loads id j
  case none   => simp [hj] at h
  case some v => exact ⟨v, rfl, by simpa [hj] using h⟩

end Sample

set_option maxRecDepth 20000 in
theorem event_stream_alike_message :
    ∃ v, Sample.hasA v ∧ parseResponseBody id (Sample.messageStream.frame Sample.blankData) =
        parseResponseBody id Sample.blankData ∧
      parseResponseBody id Sample.blankData = v := by
  have ⟨v, hj, hv⟩ := Sample.loads_hasA (j := Sample.blankData) (by decide +kernel)
  refine ⟨v, hv, ?_⟩
  have hAlike := event_stream_alike Sample.messageStream hj (Sample.container_hasA hv) (by decide)
  have hPart : Sample.messageStream.part = none := by decide +kernel
  rw [Intact, hPart] at hAlike
  have hData : Sample.blankData.all (!isLineBreak ·) := by decide
  exact hAlike.mpr <| .inl fun c hc => by simpa using List.all_eq_true.mp hData c hc

-- A line separator within a string ends the line of the data.
set_option maxRecDepth 20000 in
theorem separator_cuts_data : ∃ (stream : EventStream) (j : PyString) (v : Json),
    loads id j = some v ∧ Container v ∧ (0x0A ∉ j ∧ 0x0D ∉ j) ∧
    parseResponseBody id (stream.frame j) ≠ v := by
  have ⟨v, hj, hv⟩ := Sample.loads_hasA (j := Sample.separatorData) (by decide +kernel)
  refine ⟨Sample.messageStream, Sample.separatorData, v, hj, Sample.container_hasA hv, by decide, ?_⟩
  intro h
  have hCut : Sample.hasA (parseResponseBody id (Sample.messageStream.frame Sample.separatorData)) =
      false := by decide +kernel
  rw [h, hv] at hCut
  cases hCut

end ImagePoc
