import CookbookModel.Board.Memory.Theorems.Paging

namespace Board

open EStateM GoString

-- The allowlist of a room as it is listed.
def RoomRecord.listing (r : RoomRecord) : List Membership :=
  sortSlice Memory.lessEntry r.members.values

-- How many entries of a listing stand before an agent.
def placeOf (agent : GoString) (entries : List Membership) : Nat :=
  entries.findIdx (·.agent = agent)

namespace Memory

section

variable [CursorJson] [Platform] {s s' : MemoryStore} {r : RoomRecord}

theorem listAllowlist_run {n k : Nat} (hRoom : normalizeRoomID roomID = .ok roomID)
    (hLocated : Located s roomID key r) (hCursor : decodeOffset cursor = some (n : Int))
    (hLimit : boundLimit limit defaultListLimit = k) (hPos : 0 < k) :
    (listAllowlist roomID limit cursor).run s =
      .ok ⟨(r.listing.drop n).take k,
        if n + k < r.listing.length then encodeOffset ((n + k : Nat) : Int) else []⟩ s := by
  simp only [listAllowlist, offsetOf, hCursor, validated, hRoom, hLimit, run_bind, pure_bind,
    hLocated.run]
  exact pageSlice_run hPos

theorem listAllowlist_valid (h : (listAllowlist roomID limit cursor).run s = .ok page s') :
    normalizeRoomID roomID = .ok roomID := by
  simp only [listAllowlist, bind_run_ok, validated_run_ok] at h
  obtain ⟨_, _, _, _, _, ⟨hValid, rfl⟩, _⟩ := h
  exact normalizeRoomID_ok hValid ▸ hValid

-- A client that walks through an allowlist: its cursor, and what the room listed when it last asked.
structure Walker where
  cursor : GoString
  listed : List Membership

structure Lists (roomID : GoString) (s : MemoryStore) (c : Walker) (page : List Membership)
    (c' : Walker) : Prop where
  call   : ∃ limit, (listAllowlist roomID limit c.cursor).run s = .ok ⟨page, c'.cursor⟩ s
  listed : ∃ key r, Located s roomID key r ∧ c'.listed = r.listing

-- Any operation after which the agent is a member of the room.
inductive Stands (roomID agent : GoString) (s : MemoryStore) : MemoryStore → Prop
  | perform {o : Operation} {w : Stamp} {r : RoomRecord} :
    Located (perform o w s).2 roomID key r → agent ∈ r.members.keys →
    Stands roomID agent s (perform o w s).2

-- The agent has not moved from the part of the list that was still to come at the client's last call
-- to the part that the client has passed.
def Keeps (agent : GoString) (c : Walker) (entries : List Membership) : Prop :=
  ∀ n : Nat, decodeOffset c.cursor = some (n : Int) →
    n ≤ placeOf agent c.listed → n ≤ placeOf agent entries

-- A call that meets the condition.
structure ListsKeeping (roomID agent : GoString) (s : MemoryStore) (c : Walker)
    (page : List Membership) (c' : Walker) : Prop where
  lists : Lists roomID s c page c'
  keeps : ∀ {key r}, Located s roomID key r → Keeps agent c r.listing

theorem Lists.of_offset {c : Walker} {n k : Nat} (hRoom : normalizeRoomID roomID = .ok roomID)
    (hLocated : Located s roomID key r) (hCursor : decodeOffset c.cursor = some (n : Int))
    (hLimit : boundLimit limit defaultListLimit = k) (hPos : 0 < k) :
    Lists roomID s c ((r.listing.drop n).take k)
      ⟨if n + k < r.listing.length then encodeOffset ((n + k : Nat) : Int) else [], r.listing⟩ where
  call   := ⟨limit, listAllowlist_run hRoom hLocated hCursor hLimit hPos⟩
  listed := ⟨key, r, hLocated, rfl⟩

omit [CursorJson] in
theorem placeOf_listing (h : r.Sound limit) (hMember : agent ∈ r.members.keys) :
    ∃ m : Membership, r.listing[placeOf agent r.listing]? = some m ∧ m.agent = agent := by
  have ⟨m, hm⟩ := GoMap.mem_keys_iff_get.mp hMember
  have hListed : m ∈ r.listing := mem_sortSlice.mpr <| GoMap.mem_values.mpr ⟨agent, hm⟩
  have hPlace := List.findIdx_lt_length_of_exists (p := fun m : Membership => m.agent = agent)
    ⟨m, hListed, decide_eq_true (h.agents hm)⟩
  refine ⟨_, List.getElem?_eq_getElem hPlace, ?_⟩
  exact of_decide_eq_true <| List.findIdx_getElem (w := hPlace)

-- A call either lists an agent who is not before its offset or leaves the agent to the next one.
theorem Lists.reaches {c c' : Walker} {n : Nat} (hs : s.Sound) (hLocated : Located s roomID key r)
    (hMember : agent ∈ r.members.keys) (hl : Lists roomID s c page c')
    (hCursor : decodeOffset c.cursor = some (n : Int)) (hn : n ≤ placeOf agent r.listing) :
    (∃ m ∈ page, m.agent = agent) ∨
    ∃ n' : Nat, c'.cursor = encodeOffset n' ∧ n' ≤ placeOf agent c'.listed := by
  have ⟨limit, hRun⟩ := hl.call
  have ⟨_, r', hLocated', hListed⟩ := hl.listed
  have ⟨k, hPos, hLimit⟩ := boundLimit_nat limit defaultListLimit
  have ⟨m, hm, ha⟩ := placeOf_listing (hs.records hLocated.byKey) hMember
  rw [listAllowlist_run (listAllowlist_valid hRun) hLocated hCursor hLimit hPos] at hRun
  cases hLocated.unique hLocated' |>.right
  injection hRun with hPage
  injection hPage with hPage hNext
  cases Paging.mem_window_or (k := k) hm hn
  case inl hMem => exact .inl ⟨m, hPage ▸ hMem, ha⟩
  case inr hLe  =>
    have := (List.getElem?_eq_some_iff.mp hm).choose
    rw [if_pos (by omega)] at hNext
    exact .inr ⟨_, hNext.symm, hListed ▸ hLe⟩

-- What a walk keeps up: the agent has been listed or is still to come.
structure Pending (roomID agent : GoString) (s : MemoryStore) (got : List (List Membership))
    (c : Walker) : Prop where
  sound   : s.Sound
  member  : ∃ key r, Located s roomID key r ∧ agent ∈ r.members.keys
  reached : (∃ page ∈ got, ∃ m ∈ page, m.agent = agent) ∨
    ∃ n : Nat, c.cursor = encodeOffset n ∧ n ≤ placeOf agent c.listed

theorem Pending.run [LawfulCursors] (hs : s₀.Sound) (hLocated : Located s₀ roomID key r)
    (hMember : agent ∈ r.members.keys)
    (hw : Paging.Walk (Stands roomID agent) (ListsKeeping roomID agent) (·.cursor ≠ []) s₀ ⟨[], []⟩
      s got c) :
    Pending roomID agent s got c := by
  induction hw
  case start ht =>
    refine ⟨hs, ⟨key, r, hLocated, hMember⟩, ?_⟩
    have hReached := ht.lists.reaches hs hLocated hMember rfl (Nat.zero_le _)
    exact hReached.imp_left fun hm => ⟨_, by simp, hm⟩
  case change ha hi =>
    cases ha
    case perform hLocated hMember =>
      exact ⟨perform_sound hi.sound, ⟨_, _, hLocated, hMember⟩, hi.reached⟩
  case turn hMore ht hi =>
    have ⟨_, r, hLocated, hMember⟩ := hi.member
    refine ⟨hi.sound, hi.member, ?_⟩
    cases hi.reached
    case inl hm =>
      have ⟨page, hp, hm⟩ := hm
      exact .inl ⟨page, List.mem_append_left _ hp, hm⟩
    case inr hn =>
      have ⟨n, hCursor, hn⟩ := hn
      have hCursor := hCursor ▸ decodeOffset_encodeOffset n
      have hn := ht.keeps hLocated n hCursor hn
      have hReached := ht.lists.reaches hi.sound hLocated hMember hCursor hn
      exact hReached.imp_left fun hm => ⟨_, by simp, hm⟩

-- A walk through an allowlist lists every agent that is a member throughout, if at no call the agent
-- stands before the cursor without having been passed by it.
theorem standing_member_listed [LawfulCursors]
    (hh : History perform (.new maxRooms maxMembers) h s₀) (hLocated : Located s₀ roomID key r)
    (hMember : agent ∈ r.members.keys)
    (hw : Paging.Walk (Stands roomID agent) (ListsKeeping roomID agent) (·.cursor ≠ []) s₀ ⟨[], []⟩
      s got c)
    (hEnd : c.cursor = []) : ∃ page ∈ got, ∃ m ∈ page, m.agent = agent := by
  refine (Pending.run (performed_sound hh) hLocated hMember hw).reached.resolve_right ?_
  rintro ⟨n, hCursor, _⟩
  exact encodeOffset_ne_nil n <| hCursor ▸ hEnd

end

end Memory

namespace Sample

def carol : Identity where
  agent := "carol.example"

def grantCarol (roomVersion : Int) : Call :=
  .grantAllowlist alice {
    roomID              := "lobby"
    targetAgent         := carol.agent
    role                := .reader
    tokenJTIHash        := []
    actorMemberVersion  := 1
    expectedRoomVersion := roomVersion
  }

end Sample
namespace Memory

section

attribute [local instance] asciiPlatform plainCursors plainCursors_lawful

-- A room with the members alice, bob and carol. The client asks for two of them. Then bob is
-- revoked, and the client asks for the rest.
theorem standing_member_listed_fails :
    ¬∀ {maxRooms maxMembers h s₀ roomID key r agent s got c},
      History perform (.new maxRooms maxMembers) h s₀ → Located s₀ roomID key r →
      agent ∈ r.members.keys →
      Paging.Walk (Stands roomID agent) (Lists roomID) (·.cursor ≠ []) s₀ ⟨[], []⟩ s got c →
      c.cursor = [] → ∃ page ∈ got, ∃ m ∈ page, m.agent = agent := by
  intro hClaim
  let w : Stamp := ⟨.zero, []⟩
  let s₁ := (perform (.call Sample.create) w (.new 50 100)).2
  let s₂ := (perform (.call (Sample.grant .poster 1)) w s₁).2
  let s₃ := (perform (.call (Sample.grantCarol 2)) w s₂).2
  let s₄ := (perform (.call (Sample.revoke 3)) w s₃).2
  have hh : History perform (.new 50 100) _ s₃ :=
    .call (Operation.call (Sample.grantCarol 2)) w <|
    .call (Operation.call (Sample.grant .poster 1)) w <|
    .call (Operation.call Sample.create) w .init
  have h₃ : s₃.rooms[Base64.encode "lobby"]?.any fun (r : RoomRecord) =>
      r.listing.map (·.agent) = ["alice.example", "bob.example", "carol.example"] := by
    decide
  have h₄ : s₄.rooms[Base64.encode "lobby"]?.any fun (r : RoomRecord) =>
      r.listing.map (·.agent) = ["alice.example", "carol.example"] ∧
      Sample.carol.agent ∈ r.members.keys := by
    decide
  have hID₃ : s₃.roomKeys[ofString "lobby"]? = some (Base64.encode "lobby") := by decide
  have hID₄ : s₄.roomKeys[ofString "lobby"]? = some (Base64.encode "lobby") := by decide
  have hCarol : s₃.rooms[Base64.encode "lobby"]?.any fun (r : RoomRecord) =>
      Sample.carol.agent ∈ r.members.keys := by
    decide
  have hValid : normalizeRoomID "lobby" = .ok "lobby" := by decide
  have ⟨r₃, hr₃, hl₃⟩ := (Option.any_eq_true _ _).mp h₃
  have ⟨r₄, hr₄, hl₄⟩ := (Option.any_eq_true _ _).mp h₄
  rw [hr₃, Option.any_some] at hCarol
  have hl₃ := of_decide_eq_true hl₃
  have ⟨hl₄, hCarol₄⟩ := of_decide_eq_true hl₄
  have hStands : Stands "lobby" Sample.carol.agent s₃ s₄ := .perform ⟨hID₄, hr₄⟩ hCarol₄
  have hLocated₃ : Located s₃ "lobby" _ r₃ := ⟨hID₃, hr₃⟩
  have hLocated₄ : Located s₄ "lobby" _ r₄ := ⟨hID₄, hr₄⟩
  clear_value s₃ s₄
  have hLength₃ : r₃.listing.length = 3 := by simpa using congrArg List.length hl₃
  have hLength₄ : r₄.listing.length = 2 := by simpa using congrArg List.length hl₄
  have hLimit : boundLimit 2 defaultListLimit = (2 : Nat) := rfl
  have hFirst := Lists.of_offset (c := ⟨[], []⟩) (n := 0) hValid hLocated₃ rfl hLimit (by decide)
  have hSecond := Lists.of_offset (c := ⟨encodeOffset (2 : Nat), r₃.listing⟩) hValid hLocated₄
    (decodeOffset_encodeOffset 2) hLimit (by decide)
  rw [hLength₃] at hFirst
  rw [List.drop_of_length_le hLength₄.le, hLength₄] at hSecond
  have hWalk : Paging.Walk _ _ (fun c : Walker => c.cursor ≠ []) s₃ ⟨[], []⟩ s₄ _ _ :=
    ((Paging.Walk.start hFirst).change hStands).turn (encodeOffset_ne_nil _) hSecond
  have ⟨page, hp, m, hm, ha⟩ := hClaim hh hLocated₃ (of_decide_eq_true hCarol) hWalk rfl
  have hListed : m ∈ r₃.listing.take 2 := by
    rcases List.mem_cons.mp hp with rfl | hp
    case inl => exact hm
    case inr => simp_all
  have hAgent := List.mem_map_of_mem (f := (·.agent)) hListed
  rw [List.map_take, hl₃, ha] at hAgent
  exact absurd hAgent (by decide)

-- The same walk while bob stays.
theorem standing_member_listed_carol :
    ∃ s got c, Paging.Walk (Stands "lobby" Sample.carol.agent)
      (ListsKeeping "lobby" Sample.carol.agent) (·.cursor ≠ []) s ⟨[], []⟩ s got c ∧
      got.length = 2 ∧ ∃ page ∈ got, ∃ m ∈ page, m.agent = Sample.carol.agent := by
  let w : Stamp := ⟨.zero, []⟩
  let s₁ := (perform (.call Sample.create) w (.new 50 100)).2
  let s₂ := (perform (.call (Sample.grant .poster 1)) w s₁).2
  let s₃ := (perform (.call (Sample.grantCarol 2)) w s₂).2
  have hh : History perform (.new 50 100) _ s₃ :=
    .call (Operation.call (Sample.grantCarol 2)) w <|
    .call (Operation.call (Sample.grant .poster 1)) w <|
    .call (Operation.call Sample.create) w .init
  have h₃ : s₃.rooms[Base64.encode "lobby"]?.any fun (r : RoomRecord) =>
      r.listing.length = 3 ∧ Sample.carol.agent ∈ r.members.keys := by
    decide
  have hID₃ : s₃.roomKeys[ofString "lobby"]? = some (Base64.encode "lobby") := by decide
  have hValid : normalizeRoomID "lobby" = .ok "lobby" := by decide
  have ⟨r₃, hr₃, hl₃⟩ := (Option.any_eq_true _ _).mp h₃
  have ⟨hLength₃, hCarol⟩ := of_decide_eq_true hl₃
  have hLocated₃ : Located s₃ "lobby" _ r₃ := ⟨hID₃, hr₃⟩
  clear_value s₃
  have hLimit : boundLimit 2 defaultListLimit = (2 : Nat) := rfl
  have hFirst := Lists.of_offset (c := ⟨[], []⟩) (n := 0) hValid hLocated₃ rfl hLimit (by decide)
  have hSecond := Lists.of_offset (c := ⟨encodeOffset (2 : Nat), r₃.listing⟩) hValid hLocated₃
    (decodeOffset_encodeOffset 2) hLimit (by decide)
  rw [hLength₃] at hFirst hSecond
  have hKeeps : ListsKeeping "lobby" Sample.carol.agent s₃ _ _ _ :=
    ⟨hSecond, fun hl n _ hn => by rwa [(hl.unique hLocated₃).right]⟩
  have hKeeps₀ : ListsKeeping "lobby" Sample.carol.agent s₃ _ _ _ :=
    ⟨hFirst, fun hl n hn _ => by cases hn; exact Nat.zero_le _⟩
  have hWalk : Paging.Walk (Stands "lobby" Sample.carol.agent) _ (fun c : Walker => c.cursor ≠ [])
      s₃ ⟨[], []⟩ s₃ _ _ :=
    .turn (.start hKeeps₀) (encodeOffset_ne_nil _) hKeeps
  exact ⟨s₃, _, _, hWalk, rfl, standing_member_listed hh hLocated₃ hCarol hWalk rfl⟩

end
end Memory
end Board
