import CookbookModel.Board.Memory.Theorems.Audits
import CookbookModel.Board.Memory.Theorems.Versions
import CookbookModel.Library.Cursor
import CookbookModel.Library.Paging

namespace Board

open EStateM GoString

namespace Memory

section

variable [CursorJson] {s s' : MemoryStore}

omit [CursorJson] in
theorem slice_run {items : List α} {low high : Int}
    (h : 0 ≤ low ∧ low ≤ high ∧ high ≤ items.length) :
    (slice items low high).run s = .ok ((items.take high.toNat).drop low.toNat) s :=
  bind_run_ok.mpr ⟨(), s, throwIf_run_ok.mpr ⟨not_not.mpr h, rfl⟩, rfl⟩

-- The window of a list that starts at an offset.
omit [CursorJson] in
theorem pageSlice_run {items : List α} {offset limit : Nat} (hLimit : 0 < limit) :
    (pageSlice items offset limit).run s =
      .ok ⟨(items.drop offset).take limit,
        if offset + limit < items.length then encodeOffset ((offset + limit : Nat) : Int) else []⟩
        s := by
  unfold pageSlice
  split
  case isTrue h =>
    have hl : items.length ≤ offset := by omega
    have hn : ¬offset + limit < items.length := by omega
    simp [List.drop_of_length_le hl, hn]
  case isFalse h =>
    have hLast : (if (offset : Int) + limit > items.length then (items.length : Int)
        else offset + limit) = (min (offset + limit) items.length : Nat) := by
      split <;> omega
    have hPage : (items.take (min (offset + limit) items.length)).drop offset =
        (items.drop offset).take limit := by
      rw [List.drop_take, List.take_eq_take_iff, List.length_drop]
      omega
    simp only [hLast]
    refine bind_run_ok.mpr ⟨_, s, slice_run (by omega), ?_⟩
    simp only [Int.toNat_natCast, hPage, pure_run_ok, Page.mk.injEq, true_and, and_true]
    by_cases hl : offset + limit < items.length
    case pos =>
      rw [if_pos hl, if_pos (by omega), Nat.min_eq_left hl.le]
    case neg =>
      rw [if_neg hl, if_neg (by omega)]

theorem decodeOffset_nonneg (h : decodeOffset cursor = some offset) :
    ∃ n : Nat, offset = n := by
  suffices h : 0 ≤ offset from ⟨offset.toNat, by omega⟩
  unfold decodeOffset at h
  split at h
  case isTrue  => exact (Option.some_inj.mp h).le
  case isFalse =>
    simp only [Option.bind_eq_bind, Option.bind_eq_some_iff] at h
    have ⟨_, _, n, _, h⟩ := h
    by_cases hn : n < 0
    case pos => simp [hn] at h
    case neg =>
      rw [if_neg hn, Option.some_inj] at h
      omega

omit [CursorJson] in
theorem encodeOffset_ne_nil (offset : Int) : encodeOffset offset ≠ [] := by
  intro h
  have he : Base64.encode [] = [] := by simp [Base64.encode]
  have h := Base64.encode_injective (h.trans he.symm)
  simp only [List.append_eq_nil_iff] at h
  exact absurd h.left.left (by decide)

theorem decodeOffset_encodeOffset [LawfulCursors] (n : Nat) :
    decodeOffset (encodeOffset n) = some (n : Int) := by
  have hj := LawfulCursors.unmarshal_marshal n
  have hn : ¬(n : Int) < 0 := by omega
  rw [decodeOffset, if_neg (encodeOffset_ne_nil n), encodeOffset, Base64.decode_encode]
  simp only [Option.bind_eq_bind, Option.bind_some, hj, hn, if_false]

omit [CursorJson] in
theorem boundLimit_nat (limit defaultLimit : Int) :
    ∃ n : Nat, 0 < n ∧ boundLimit limit defaultLimit = n := by
  have := boundLimit_pos limit defaultLimit
  exact ⟨(boundLimit limit defaultLimit).toNat, by omega, by omega⟩

variable [Platform] {r : RoomRecord} {cursor after : GoString} {n k : Nat}

omit [CursorJson] [Platform] in
theorem recordByRoomIDLocked_missing (h : ¬∃ key r, Located s roomID key r) :
    (recordByRoomIDLocked roomID).run s = .error .notFound s := by
  cases hr : (recordByRoomIDLocked roomID).run s
  case ok p _ => exact absurd ⟨p.1, p.2, (recordByRoomIDLocked_run_ok.mp hr).left⟩ h
  case error e s' =>
    cases recordByRoomIDLocked_readOnly.error hr
    simp only [recordByRoomIDLocked, bind_run_error, get_run_ok] at hr
    rcases hr with hr | ⟨_, _, ⟨rfl, rfl⟩, hr⟩
    case inl => simp at hr
    case inr =>
      split at hr
      case h_1 => cases hr; rfl
      case h_2 =>
        split at hr
        case h_1 => cases hr; rfl
        case h_2 => simp at hr

-- A page of the messages before an offset, by default of the last ones.
theorem readMessages_before (hRoom : normalizeRoomID roomID = .ok roomID)
    (hLocated : Located s roomID key r) (hCursor : decodeOffset cursor = some (n : Int))
    (hLimit : boundLimit limit defaultMessagesLimit = k)
    (hLast : last = if cursor = [] ∨ n > r.messages.length then r.messages.length else n) :
    (readMessages roomID limit cursor []).run s =
      .ok ⟨(r.messages.take last).drop (last - k),
        if 0 < last - k then encodeOffset ((last - k : Nat) : Int) else []⟩ s := by
  have hl : (if cursor = [] ∨ (n : Int) > r.messages.length then (r.messages.length : Int) else n)
      = (last : Nat) := by
    rw [hLast]
    simp only [gt_iff_lt, Int.ofNat_lt]
    split <;> rfl
  have hLe : last ≤ r.messages.length := by
    rw [hLast]
    split <;> omega
  have hStart : (if (last : Int) - k < 0 then (0 : Int) else last - k) = (last - k : Nat) := by
    split <;> omega
  simp only [readMessages, offsetOf, hCursor, validated, hRoom, hLimit, run_bind, pure_bind,
    hLocated.run, ne_eq, not_true, if_false, hl, hStart]
  rw [slice_run (by omega)]
  simp

-- A page of the messages after the given id, or from an offset on.
theorem readMessages_after (hRoom : normalizeRoomID roomID = .ok roomID)
    (hLocated : Located s roomID key r) (hCursor : decodeOffset cursor = some (n : Int))
    (hLimit : boundLimit limit defaultMessagesLimit = k) (hPos : 0 < k) (hAfter : after ≠ []) :
    ∃ next, (readMessages roomID limit cursor after).run s =
      .ok ⟨(if cursor = [] then r.messages.drop <|
          search r.messages.length fun i => r.messages[i]?.any (·.messageID > after)
        else r.messages.drop n).take k, next⟩ s := by
  simp only [readMessages, offsetOf, hCursor, validated, hRoom, hLimit, run_bind, pure_bind,
    hLocated.run, ne_eq, hAfter, not_false_eq_true, if_true]
  split
  case isTrue  => exact ⟨_, pageSlice_run hPos⟩
  case isFalse => exact ⟨_, pageSlice_run hPos⟩

-- Whatever it is asked, a read fails because of the cursor or the room or returns a page within the
-- limit. In particular it slices no list out of range.
theorem readMessages_total (s : MemoryStore) (roomID : GoString) (limit : Int)
    (cursor after : GoString) :
    (∃ detail, (readMessages roomID limit cursor after).run s = .error (.validation detail) s) ∨
    (readMessages roomID limit cursor after).run s = .error .notFound s ∨
    ∃ page, (readMessages roomID limit cursor after).run s = .ok page s ∧
      page.items.length ≤ boundLimit limit defaultMessagesLimit := by
  cases hCursor : decodeOffset cursor
  case none =>
    refine .inl ⟨"invalid cursor", ?_⟩
    simp [readMessages, offsetOf, hCursor]
  case some offset =>
    obtain ⟨n, hn⟩ := decodeOffset_nonneg hCursor
    obtain ⟨k, hPos, hLimit⟩ := boundLimit_nat limit defaultMessagesLimit
    subst hn
    cases hRoom : normalizeRoomID roomID
    case error detail =>
      refine .inl ⟨detail, ?_⟩
      simp [readMessages, offsetOf, hCursor, hRoom, validated]
    case ok roomID' =>
      cases normalizeRoomID_ok hRoom
      by_cases hl : ∃ key r, Located s roomID key r
      case neg =>
        refine .inr <| .inl ?_
        simp [readMessages, offsetOf, hCursor, hRoom, validated, recordByRoomIDLocked_missing hl]
      case pos =>
        obtain ⟨key, r, hLocated⟩ := hl
        refine .inr <| .inr ?_
        by_cases hAfter : after = []
        case pos =>
          subst hAfter
          refine ⟨_, readMessages_before hRoom hLocated hCursor hLimit rfl, ?_⟩
          simp only [List.length_drop, List.length_take, hLimit]
          omega
        case neg =>
          obtain ⟨next, h⟩ := readMessages_after hRoom hLocated hCursor hLimit hPos hAfter
          refine ⟨_, h, ?_⟩
          simp only [List.length_take, hLimit]
          omega

end

abbrev Operations := List (Completed Operation Stamp (Except Err Answer))

-- The ids that posts have taken from `ulid.Make`.
def drawn (h : Operations) : List GoString :=
  h.filterMap fun c =>
    match c.result with
    | .ok (.reply (.posted result)) => if result.idempotentReplay then none else some c.stamp.ulid
    | _                             => none

theorem drawn_append : drawn (h ++ h') = drawn h ++ drawn h' :=
  List.filterMap_append

end Memory

-- The messages of a room are in the order of their ids, which are made of the given ones.
structure RoomRecord.Ordered (ids : List GoString) (r : RoomRecord) : Prop where
  sorted   : r.messages.Pairwise (·.messageID ≤ ·.messageID)
  distinct : (r.messages.map (·.messageID)).Nodup
  drawn    : ∀ msg ∈ r.messages, ∃ ulid ∈ ids, msg.messageID = "msg_" ++ ulid

namespace RoomRecord.Ordered

variable {r : RoomRecord} {msg : Message} {ids ids' : List GoString} {ulid : GoString}

theorem increasing (h : RoomRecord.Ordered ids r) :
    r.messages.Pairwise (·.messageID < ·.messageID) :=
  (h.sorted.and <| List.pairwise_map.mp h.distinct).imp fun h => lt_of_le_of_ne h.left h.right

theorem mono (h : RoomRecord.Ordered ids r) (hi : ids ⊆ ids') : RoomRecord.Ordered ids' r where
  sorted   := h.sorted
  distinct := h.distinct
  drawn msg hm :=
    have ⟨ulid, hu, he⟩ := h.drawn msg hm
    ⟨ulid, hi hu, he⟩

theorem post (h : RoomRecord.Ordered ids r) (hID : msg.messageID = "msg_" ++ ulid)
    (hFresh : ulid ∉ ids) : RoomRecord.Ordered (ids ++ [ulid]) (r.post k msg) where
  sorted   := List.pairwise_insertionSort _ _
  distinct := by
    have hp := List.perm_insertionSort (·.messageID ≤ ·.messageID) (r.messages ++ [msg])
    rw [RoomRecord.post, sortMessages, (hp.map _).nodup_iff, List.map_append, List.nodup_append]
    refine ⟨h.distinct, List.nodup_singleton _, ?_⟩
    intro a ha b hb he
    have ⟨msg', hm', ha⟩ := List.mem_map.mp ha
    have ⟨ulid', hu', he'⟩ := h.drawn msg' hm'
    simp only [List.map_cons, List.map_nil, List.mem_singleton] at hb
    rw [←ha, hb, he', hID] at he
    exact hFresh <| List.append_cancel_left he ▸ hu'
  drawn msg' hm := by
    simp only [RoomRecord.post, sortMessages, List.mem_insertionSort, List.mem_append,
      List.mem_singleton] at hm
    cases hm
    case inl hm =>
      have ⟨ulid', hu', he⟩ := h.drawn msg' hm
      exact ⟨ulid', List.mem_append_left _ hu', he⟩
    case inr he => exact ⟨ulid, by simp, he ▸ hID⟩

end RoomRecord.Ordered
namespace Memory

section

variable [CursorJson] [Platform] {s s' : MemoryStore} {r r' : RoomRecord} {limit : Int}

-- A call that succeeds leaves the messages of its room alone or is a post, which adds one.
omit [CursorJson] in
theorem Change.messages (h : Change w limit r c reply r') :
    r'.messages = r.messages ∨ ∃ actor input msg k, c = .postMessage actor input ∧
      reply = .posted ⟨msg, false⟩ ∧ msg.messageID = "msg_" ++ w.ulid ∧ r' = r.post k msg := by
  cases h
  case post hNew => exact .inr ⟨_, _, _, _, rfl, rfl, by rw [hNew]; rfl, rfl⟩
  all_goals exact .inl rfl

theorem performed_ordered (hh : History perform (.new maxRooms maxMembers) h s)
    (hDistinct : (drawn h).Nodup) :
    ∀ {key : GoString} {r : RoomRecord}, s.rooms[key]? = some r → r.Ordered (drawn h) := by
  revert hDistinct
  refine hh.invariant (I := fun h s => (drawn h).Nodup →
    ∀ {key : GoString} {r : RoomRecord}, s.rooms[key]? = some r → r.Ordered (drawn h))
    (fun _ _ _ hr => by simp [MemoryStore.new] at hr) fun {h s} o w hi hDistinct => ?_
  rw [drawn_append] at hDistinct ⊢
  obtain ⟨hOld, _, hNew⟩ := List.nodup_append.mp hDistinct
  have hKeep {r : RoomRecord} (hr : r.Ordered (drawn h)) :
      r.Ordered (drawn h ++ drawn [⟨o, w, (perform o w s).1⟩]) :=
    hr.mono <| List.subset_append_left _ _
  cases perform_cases o w s
  case inl hs =>
    intro key r hr
    exact hKeep <| hi hOld (hs ▸ hr)
  case inr hs =>
    obtain ⟨c, reply, s', ho, hp, hStep⟩ := hs
    rw [hp] at hNew hKeep ⊢
    intro key r hRoom
    refine hStep.rooms (hi hOld) hKeep (fun _ => ⟨.nil, .nil, by simp [RoomRecord.create]⟩)
      (fun hr hc => ?_) hRoom
    rcases hc.messages with he | ⟨_, _, msg, k, _, rfl, hID, rfl⟩
    case inl => exact hKeep ⟨he ▸ hr.sorted, he ▸ hr.distinct, he ▸ hr.drawn⟩
    case inr => exact hr.post hID fun hm => hNew _ hm w.ulid (by simp [drawn]) rfl

-- An operation that a client's walk through a room's messages allows others: any at all, but what is
-- posted in the room gets an id after all earlier ones.
inductive Ascends (roomID : GoString) (s : MemoryStore) : MemoryStore → Prop
  | perform {o : Operation} {w : Stamp} :
    (∀ {actor input key r msg}, o = .call (.postMessage actor input) → input.roomID = roomID →
      Located s roomID key r → (perform o w s).1 = .ok (.reply (.posted ⟨msg, false⟩)) →
      ∀ old ∈ r.messages, old.messageID < msg.messageID) →
    Ascends roomID s (perform o w s).2

-- What the store looks like to a client that reads the messages of a room.
structure Shows (s : MemoryStore) (roomID : GoString) (messages : List Message) : Prop where
  sound      : s.Sound
  located    : ∃ key r, Located s roomID key r ∧ r.messages = messages
  increasing : messages.Pairwise (·.messageID < ·.messageID)

omit [CursorJson] [Platform] in
theorem sortMessages_eq {messages : List Message}
    (h : messages.Pairwise (·.messageID < ·.messageID))
    (hNew : ∀ old ∈ messages, old.messageID < msg.messageID) :
    RoomRecord.sortMessages (messages ++ [msg]) = messages ++ [msg] ∧
      (messages ++ [msg]).Pairwise (·.messageID < ·.messageID) := by
  have hp : (messages ++ [msg]).Pairwise (·.messageID < ·.messageID) :=
    List.pairwise_append.mpr ⟨h, List.pairwise_singleton _ _, by simpa using hNew⟩
  exact ⟨(hp.imp le_of_lt).insertionSort_eq, hp⟩

omit [CursorJson] in
theorem Shows.unique (h : Shows s roomID messages) (h' : Shows s roomID messages') :
    messages = messages' := by
  have ⟨_, _, hl, hm⟩ := h.located
  have ⟨_, _, hl', hm'⟩ := h'.located
  rw [←hm, ←hm', (hl.unique hl').right]

omit [CursorJson] in
theorem Shows.injective (h : Shows s roomID messages) (hm : msg ∈ messages) (hm' : msg' ∈ messages)
    (he : msg.messageID = msg'.messageID) : msg = msg' :=
  List.inj_on_of_nodup_map (List.pairwise_map.mpr <| h.increasing.imp ne_of_lt) hm hm' he

theorem Shows.ascends (h : Shows s roomID messages) (ha : Ascends roomID s s') :
    ∃ messages', Shows s' roomID messages' ∧ messages <+: messages' := by
  cases ha
  case perform o w hNew =>
  cases perform_cases o w s
  case inl hs => exact ⟨messages, hs.symm ▸ h, List.prefix_rfl⟩
  case inr hs =>
    have ⟨c, reply, s', ho, hp, hStep⟩ := hs
    have ⟨key, r, hLocated, hr⟩ := h.located
    have ⟨r', hLocated', hc⟩ := hLocated.step hStep h.sound
    have hSound := hStep.sound h.sound
    rw [hp] at hNew ⊢
    rcases hc with rfl | ⟨hRoom, hc⟩
    case inl => exact ⟨messages, ⟨hSound, ⟨key, r', hLocated', hr⟩, h.increasing⟩, List.prefix_rfl⟩
    case inr =>
      rcases hc.messages with he | ⟨actor, input, msg, k, rfl, rfl, _, rfl⟩
      case inl =>
        exact ⟨messages, ⟨hSound, ⟨key, r', hLocated', he.trans hr⟩, h.increasing⟩, List.prefix_rfl⟩
      case inr =>
        have hNew := hNew ho hRoom hLocated rfl
        rw [hr] at hNew
        have ⟨he, hi⟩ := sortMessages_eq h.increasing hNew
        refine ⟨messages ++ [msg], ⟨hSound, ⟨key, _, hLocated', ?_⟩, hi⟩, List.prefix_append _ _⟩
        rw [RoomRecord.post, hr, he]

-- A client asks for the page before the one that it has got.
def TurnsBack (roomID : GoString) (s : MemoryStore) (cursor : GoString) (page : List Message)
    (next : GoString) : Prop :=
  ∃ limit, (readMessages roomID limit cursor []).run s = .ok ⟨page, next⟩ s

-- A client asks for the messages after the last one that it has got.
def TurnsForward (roomID : GoString) (s : MemoryStore) (after : GoString) (page : List Message)
    (after' : GoString) : Prop :=
  ∃ limit next, (readMessages roomID limit [] after).run s = .ok ⟨page, next⟩ s ∧
    after' = Cursor.last after (page.map (·.messageID))

theorem readMessages_valid (h : (readMessages roomID limit cursor after).run s = .ok page s') :
    normalizeRoomID roomID = .ok roomID := by
  simp only [readMessages, bind_run_ok, validated_run_ok] at h
  obtain ⟨_, _, _, _, _, ⟨hValid, rfl⟩, _⟩ := h
  exact normalizeRoomID_ok hValid ▸ hValid

-- What a client that walks back has got.
structure Back (messages : List Message) (roomID : GoString) (s : MemoryStore)
    (got : List (List Message)) (next : GoString) : Prop where
  shows : ∃ messages', Shows s roomID messages' ∧ messages <+: messages'
  valid : normalizeRoomID roomID = .ok roomID
  turns : ∃ rest : Nat, Paging.Backward messages rest got ∧
    next = if 0 < rest then encodeOffset rest else []

variable {messages page : List Message} {got : List (List Message)}

theorem TurnsBack.start (h : Shows s roomID messages) (ht : TurnsBack roomID s [] page next) :
    Back messages roomID s [page] next := by
  have ⟨limit, hRun⟩ := ht
  have ⟨key, r, hLocated, hm⟩ := h.located
  have ⟨k, hPos, hLimit⟩ := boundLimit_nat limit defaultMessagesLimit
  have hValid := readMessages_valid hRun
  subst hm
  have hLast : r.messages.length = if [] = ([] : List UInt8) ∨ 0 > r.messages.length
      then r.messages.length else 0 := by
    simp
  rw [readMessages_before hValid hLocated rfl hLimit hLast] at hRun
  cases hRun
  rw [List.take_length]
  exact ⟨⟨_, h, List.prefix_rfl⟩, hValid, _, .start hPos, rfl⟩

theorem Back.turn [LawfulCursors] (h : Back messages roomID s got cursor) (hMore : cursor ≠ [])
    (ht : TurnsBack roomID s cursor page next) : Back messages roomID s (got ++ [page]) next := by
  have ⟨messages', hs, hp⟩ := h.shows
  have ⟨key, r, hLocated, hm⟩ := hs.located
  have ⟨rest, hTurns, hCursor⟩ := h.turns
  have ⟨limit, hRun⟩ := ht
  have ⟨k, hPos, hLimit⟩ := boundLimit_nat limit defaultMessagesLimit
  have hRest : 0 < rest := by
    by_contra hn
    exact hMore <| by rw [hCursor, if_neg hn]
  rw [if_pos hRest] at hCursor
  subst hm hCursor
  have hLast : rest = if encodeOffset rest = [] ∨ rest > r.messages.length then r.messages.length
      else rest := by
    have := hp.length_le
    have := hTurns.le
    rw [if_neg]
    simp only [encodeOffset_ne_nil, false_or]
    omega
  rw [readMessages_before h.valid hLocated (decodeOffset_encodeOffset rest) hLimit hLast] at hRun
  cases hRun
  exact ⟨h.shows, h.valid, _, hTurns.turn hRest hPos hp, rfl⟩

theorem Back.run [LawfulCursors] (h : Shows s₀ roomID messages)
    (hw : Paging.Walk (Ascends roomID) (TurnsBack roomID) (· ≠ []) s₀ [] s got next) :
    Back messages roomID s got next := by
  induction hw
  case start ht => exact ht.start h
  case change ha hi =>
    have ⟨_, hs, hp⟩ := hi.shows
    have ⟨messages', hs', hp'⟩ := hs.ascends ha
    exact ⟨⟨messages', hs', hp.trans hp'⟩, hi.valid, hi.turns⟩
  case turn hMore ht hi => exact hi.turn hMore ht

-- The next call of a client that walks back succeeds.
theorem Back.progress [LawfulCursors] (h : Back messages roomID s got next) (limit : Int) :
    ∃ page, (readMessages roomID limit next []).run s = .ok page s := by
  have ⟨_, hs, _⟩ := h.shows
  have ⟨key, r, hLocated, _⟩ := hs.located
  have ⟨rest, _, hNext⟩ := h.turns
  have ⟨k, _, hLimit⟩ := boundLimit_nat limit defaultMessagesLimit
  have hCursor : decodeOffset next = some (rest : Int) := by
    rw [hNext]
    split
    case isTrue     => exact decodeOffset_encodeOffset rest
    case isFalse hn => rw [Nat.eq_zero_of_not_pos hn]; rfl
  exact ⟨_, readMessages_before h.valid hLocated hCursor hLimit rfl⟩

-- What a client that walks forward has got.
structure Forward (first : GoString) (roomID : GoString) (s : MemoryStore)
    (got : List (List Message)) (after : GoString) : Prop where
  shows : ∃ messages, Shows s roomID messages ∧ (∀ msg ∈ got.flatten, msg ∈ messages) ∧
    Cursor.Follows {k | k ∈ messages.map (·.messageID)} first (got.flatten.map (·.messageID)) ∅
  upTo  : after = Cursor.last first (got.flatten.map (·.messageID))

-- The messages after the given one make up a page.
omit [CursorJson] [Platform] in
theorem page_after (hi : messages.Pairwise (·.messageID < ·.messageID)) (hPos : 0 < k)
    (hp : page = (messages.drop <|
      search messages.length fun i => messages[i]?.any (·.messageID > after)).take k) :
    (∀ msg ∈ page, msg ∈ messages) ∧
    Cursor.Page {k | k ∈ messages.map (·.messageID)} after (page.map (·.messageID)) := by
  have hSearch := drop_search (l := messages)
    (p := fun (msg : Message) => decide (msg.messageID > after)) <|
    hi.imp fun h h' => decide_eq_true ((of_decide_eq_true h').trans h)
  rw [hSearch] at hp
  subst hp
  refine ⟨fun msg hm => List.mem_of_mem_filter (List.mem_of_mem_take hm), ?_⟩
  rw [List.map_take]
  refine Cursor.Page.of_take (List.pairwise_map.mpr <| hi.filter _) (fun id => ?_) hPos
  simp only [List.mem_map, List.mem_filter, decide_eq_true_eq, Set.mem_ofPred_eq]
  constructor
  case mp  => rintro ⟨msg, ⟨hm, ha⟩, rfl⟩; exact ⟨⟨msg, hm, rfl⟩, ha⟩
  case mpr => rintro ⟨⟨msg, hm, rfl⟩, ha⟩; exact ⟨msg, ⟨hm, ha⟩, rfl⟩

theorem TurnsForward.reads (h : Shows s roomID messages) (hAfter : after ≠ [])
    (ht : TurnsForward roomID s after page after') :
    (∀ msg ∈ page, msg ∈ messages) ∧
    Cursor.Page {k | k ∈ messages.map (·.messageID)} after (page.map (·.messageID)) := by
  have ⟨limit, next, hRun, _⟩ := ht
  have ⟨key, r, hLocated, hm⟩ := h.located
  have ⟨k, hPos, hLimit⟩ := boundLimit_nat limit defaultMessagesLimit
  have hi := h.increasing
  subst hm
  have hStart : decodeOffset [] = some ((0 : Nat) : Int) := rfl
  have ⟨_, hRun'⟩ := readMessages_after (readMessages_valid hRun) hLocated hStart hLimit hPos hAfter
  rw [hRun'] at hRun
  cases hRun
  exact page_after hi hPos <| by rw [if_pos rfl]

omit [CursorJson] in
theorem Forward.nonempty (h : Forward first roomID s got after) (hFirst : first ≠ []) :
    after ≠ [] := by
  have ⟨_, _, _, hFollows⟩ := h.shows
  intro he
  have hl := hFollows.first_le
  rw [←h.upTo, he] at hl
  cases first
  case nil       => exact hFirst rfl
  case cons b bs => exact absurd (List.nil_lt_cons b bs) (not_lt.mpr hl)

theorem Forward.turn (h : Forward first roomID s got after) (hFirst : first ≠ [])
    (ht : TurnsForward roomID s after page after') :
    Forward first roomID s (got ++ [page]) after' := by
  have ⟨messages, hs, hGot, hFollows⟩ := h.shows
  have ⟨hm, hPage⟩ := ht.reads hs (h.nonempty hFirst)
  have ⟨_, _, _, hAfter⟩ := ht
  have hFlat : (got ++ [page]).flatten = got.flatten ++ page := by simp
  constructor
  case shows =>
    refine ⟨messages, hs, fun msg hmsg => ?_, ?_⟩
    · rw [hFlat] at hmsg
      exact (List.mem_append.mp hmsg).elim (hGot msg) (hm msg)
    · rw [hFlat, List.map_append]
      exact hFollows.read (h.upTo ▸ hPage)
  case upTo => rw [hFlat, List.map_append, Cursor.last_append, ←h.upTo, hAfter]

theorem Forward.change (h : Forward first roomID s got after) (ha : Ascends roomID s s') :
    Forward first roomID s' got after := by
  have ⟨messages, hs, hGot, hFollows⟩ := h.shows
  have ⟨messages', hs', t, ht⟩ := hs.ascends ha
  have hi := hs'.increasing
  rw [←ht] at hi
  refine ⟨⟨messages', hs', fun msg hm => ?_, hFollows.grow (fun k hk => ?_) ?_⟩, h.upTo⟩
  · rw [←ht]
    exact List.mem_append_left _ (hGot msg hm)
  · rw [Set.mem_ofPred_eq, ←ht, List.map_append]
    exact List.mem_append_left _ hk
  · intro k hk hn k' hk'
    simp only [←ht, List.map_append, List.mem_append, Set.mem_ofPred_eq] at hk hn hk'
    have ⟨new, hNew, hk⟩ := List.mem_map.mp (hk.resolve_left hn)
    have ⟨old, hOld, hk'⟩ := List.mem_map.mp hk'
    rw [←hk, ←hk']
    exact (List.pairwise_append.mp hi).right.right old hOld new hNew

theorem Forward.run (h : Shows s₀ roomID messages) (hFirst : first ≠ [])
    (hw : Paging.Walk (Ascends roomID) (TurnsForward roomID) (fun _ => True) s₀ first s got after) :
    Forward first roomID s got after := by
  induction hw
  case start ht =>
    have hStart : Forward first roomID s₀ [] first :=
      ⟨⟨messages, h, by simp, by simpa using Cursor.Follows.start⟩, rfl⟩
    exact hStart.turn hFirst ht
  case change ha hi  => exact hi.change ha
  case turn _ ht hi => exact hi.turn hFirst ht

-- A client that walks forward and gets an empty page has got every message after the first id.
theorem Forward.complete (h : Forward first roomID s got after) (hFirst : first ≠ [])
    (ht : TurnsForward roomID s after [] after') (hs : Shows s roomID messages) :
    got.flatten = messages.filter (·.messageID > first) := by
  have ⟨messages', hs', hGot, hFollows⟩ := h.shows
  have he : messages' = messages := hs'.unique hs
  subst he
  have hPage := (ht.reads hs (h.nonempty hFirst)).right
  rw [h.upTo] at hPage
  have hAll := (hFollows.exact_iff hPage).mpr (by simp)
  have hSorted := List.pairwise_map.mp hFollows.sorted
  have : Std.Irrefl fun a b : Message => a.messageID < b.messageID := ⟨fun a => lt_irrefl _⟩
  refine hSorted.eq_of_mem_iff (hs.increasing.filter _) fun msg => ?_
  have hID := hAll msg.messageID
  simp only [List.mem_map, Set.mem_ofPred_eq, List.mem_filter, decide_eq_true_eq] at hID ⊢
  constructor
  case mp  => exact fun hm => ⟨hGot msg hm, (hID.mp ⟨msg, hm, rfl⟩).right⟩
  case mpr =>
    rintro ⟨hm, hAfter⟩
    have ⟨msg', hm', he⟩ := hID.mpr ⟨⟨msg, hm, rfl⟩, hAfter⟩
    rwa [←hs.injective (hGot msg' hm') hm he]

theorem performed_shows (hh : History perform (.new maxRooms maxMembers) h s)
    (hDistinct : (drawn h).Nodup) (hLocated : Located s roomID key r) :
    Shows s roomID r.messages where
  sound      := performed_sound hh
  located    := ⟨key, r, hLocated, rfl⟩
  increasing := (performed_ordered hh hDistinct hLocated.byKey).increasing

-- Paging through a room's messages loses none, whatever the limits are and whatever is posted after
-- them while a client is under way.
theorem read_messages_lossless [LawfulCursors] :
    (∀ (s : MemoryStore) (roomID : GoString) (limit : Int) (cursor after : GoString),
      (∃ detail, (readMessages roomID limit cursor after).run s = .error (.validation detail) s) ∨
      (readMessages roomID limit cursor after).run s = .error .notFound s ∨
      ∃ page, (readMessages roomID limit cursor after).run s = .ok page s ∧
        page.items.length ≤ boundLimit limit defaultMessagesLimit) ∧
    ∀ {maxRooms maxMembers h s₀ roomID key r},
      History perform (.new maxRooms maxMembers) h s₀ → (drawn h).Nodup →
      Located s₀ roomID key r →
      -- back from the last page
      (∀ {s got next},
        Paging.Walk (Ascends roomID) (TurnsBack roomID) (· ≠ []) s₀ [] s got next →
        got.reverse.flatten.Pairwise (·.messageID < ·.messageID) ∧
        got.length ≤ max 1 r.messages.length ∧
        (∀ limit, ∃ page, (readMessages roomID limit next []).run s = .ok page s) ∧
        (next = [] → got.reverse.flatten = r.messages)) ∧
      -- forward from an id
      ∀ {first s got after},
        first ≠ [] →
        Paging.Walk (Ascends roomID) (TurnsForward roomID) (fun _ => True) s₀ first s got after →
        got.flatten.Pairwise (·.messageID < ·.messageID) ∧
        ∀ {after' key' r'}, TurnsForward roomID s after [] after' → Located s roomID key' r' →
          got.flatten = r'.messages.filter (·.messageID > first) := by
  refine ⟨readMessages_total, fun hh hDistinct hLocated => ⟨fun hw => ?_, fun hFirst hw => ?_⟩⟩
  case refine_1 =>
    have hs := performed_shows hh hDistinct hLocated
    have hBack := Back.run hs hw
    have ⟨rest, hTurns, hNext⟩ := hBack.turns
    refine ⟨?_, ?_, hBack.progress, fun hn => ?_⟩
    · rw [hTurns.flatten]
      exact hs.increasing.sublist <| List.drop_sublist _ _
    · exact (Nat.le_add_left _ _).trans hTurns.bound
    · rw [hn] at hNext
      have hRest : ¬0 < rest := fun hr => encodeOffset_ne_nil rest <| by rw [hNext, if_pos hr]
      rw [hTurns.flatten, Nat.eq_zero_of_not_pos hRest, List.drop_zero]
  case refine_2 =>
    have hForward := Forward.run (performed_shows hh hDistinct hLocated) hFirst hw
    have ⟨messages, hs, _, hFollows⟩ := hForward.shows
    refine ⟨List.pairwise_map.mp hFollows.sorted, fun ht hLocated' => ?_⟩
    have ⟨_, _, hl, hm⟩ := hs.located
    rw [hForward.complete hFirst ht hs, ←hm, (hl.unique hLocated').right]

end

section

attribute [local instance] asciiPlatform plainCursors

theorem plainCursors_lawful : LawfulCursors where
  unmarshal_marshal n := by
    have hDigits : ofString n.repr ≠ [] := by
      rw [Time.ofString_repr]
      split <;> simp
    have hPrefix (t : GoString) : (ofString "\x7b\"offset\":").isPrefixOf?
        (ofString "\x7b\"offset\":" ++ t) = some t :=
      List.isPrefixOf?_eq_some_iff_append_eq.mpr rfl
    have hSuffix (t : GoString) : (ofString "\x7d").isSuffixOf? (t ++ ofString "\x7d") = some t :=
      List.isSuffixOf?_eq_some_iff_append_eq.mpr rfl
    have hText : toString (n : Int) = n.repr := rfl
    simp only [CursorJson.unmarshal, hText, List.append_assoc, hPrefix, hSuffix,
      Option.bind_eq_bind, Option.bind_some, if_neg hDigits, Time.number_repr, Option.map_some]
    rfl

attribute [local instance] plainCursors_lawful

-- Two messages, read back one by one and forward at once.
theorem read_messages_lossless_two :
    let w (ulid : GoString) : Stamp := ⟨.zero, ulid⟩
    let s := (perform (.call Sample.create) (w []) (.new 50 100)).2
    let s₁ := (perform (.call (Sample.post Sample.alice "k" 1)) (w "1") s).2
    let s₂ := (perform (.call (Sample.post Sample.alice "l" 1)) (w "2") s₁).2
    ∃ (r : RoomRecord) (back : List (List Message)) (first : List Message) (after : GoString),
      s₂.rooms[Base64.encode "lobby"]? = some r ∧ r.messages.length = 2 ∧ back.length = 2 ∧
      back.reverse.flatten = r.messages ∧ TurnsForward "lobby" s₂ "msg_" first after ∧
      first.Pairwise (·.messageID < ·.messageID) := by
  intro w s s₁ s₂
  have hh : History perform (.new 50 100) _ s₂ :=
    .call (Operation.call (Sample.post Sample.alice "l" 1)) (w "2") <|
    .call (Operation.call (Sample.post Sample.alice "k" 1)) (w "1") <|
    .call (Operation.call Sample.create) (w []) .init
  have hr : s₂.rooms[Base64.encode "lobby"]?.any fun (r : RoomRecord) =>
      r.messages.length = 2 := by
    decide
  have ⟨r, hr, hLength⟩ := (Option.any_eq_true _ _).mp hr
  have hLength := of_decide_eq_true hLength
  have hLocated : Located s₂ "lobby" _ r := ⟨by decide, hr⟩
  have hValid : normalizeRoomID "lobby" = .ok "lobby" := by decide
  have ⟨hBack, hForward⟩ := read_messages_lossless.right hh (by decide) hLocated
  clear_value s₂
  have hStart : TurnsBack "lobby" s₂ [] (r.messages.drop 1) (encodeOffset (1 : Nat)) := by
    refine ⟨1, ?_⟩
    have hLast : 2 = if [] = ([] : List UInt8) ∨ 0 > r.messages.length then r.messages.length
        else 0 := by
      simp [hLength]
    rw [readMessages_before hValid hLocated rfl rfl hLast, List.take_of_length_le hLength.le]
    rfl
  have hTurn : TurnsBack "lobby" s₂ (encodeOffset (1 : Nat)) (r.messages.take 1) [] := by
    refine ⟨1, ?_⟩
    have hLast : 1 = if encodeOffset (1 : Nat) = [] ∨ 1 > r.messages.length then r.messages.length
        else 1 := by
      simp [hLength, encodeOffset_ne_nil]
    rw [readMessages_before (k := 1) hValid hLocated (decodeOffset_encodeOffset 1) rfl hLast]
    rfl
  have hWalk : Paging.Walk (Ascends "lobby") (TurnsBack "lobby") (· ≠ []) s₂ [] s₂ _ _ :=
    .turn (.start hStart) (encodeOffset_ne_nil _) hTurn
  have hCursor : decodeOffset [] = some ((0 : Nat) : Int) := rfl
  have hLimit : boundLimit 50 defaultMessagesLimit = (50 : Nat) := rfl
  have hAfter : ofString "msg_" ≠ [] := by decide
  have ⟨_, hFirst⟩ := readMessages_after hValid hLocated hCursor hLimit (by decide) hAfter
  have hFirst : TurnsForward "lobby" s₂ "msg_" _ _ := ⟨50, _, hFirst, rfl⟩
  have hForward := hForward (by decide) (.start hFirst)
  exact ⟨r, _, _, _, hr, hLength, rfl, (hBack hWalk).right.right.right rfl, hFirst,
    by simpa using hForward.left⟩

end
end Memory
end Board
