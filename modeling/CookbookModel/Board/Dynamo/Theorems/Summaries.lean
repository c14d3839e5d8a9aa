import CookbookModel.Board.Dynamo.Listing

namespace Board.Dynamo

open GoString DynamoDB

section

variable [Platform] {σ : Type} {exec : (o : ListOp) → σ → o.Res × σ} {agent : GoString}
  {items : List Item} {item : Item} {s : σ}

-- How the lookups of a page come out, up to an item that is none of the store.
def lookups (exec : (o : ListOp) → σ → o.Res × σ) (agent : GoString) :
    List Item → σ → List (Except Err AuthSnapshot)
  | [], _            => []
  | item :: items, s =>
    match DdbItem.unmarshalMap item with
    | .error _   => []
    | .ok member =>
      let (result, s') := (lookup member.roomID agent).run exec s
      result :: lookups exec agent items s'

-- The entry of a room of which the agent is a member.
def entry : Except Err AuthSnapshot → Option RoomSummary
  | .ok snapshot => snapshot.membership.map (roomSummary snapshot.room)
  | .error _     => none

def Readable (item : Item) : Prop :=
  ∃ member, DdbItem.unmarshalMap item = .ok member

-- A round of the loop adds the entry of the lookup, if it has one.
theorem summaries_cons (hm : DdbItem.unmarshalMap item = .ok member)
    (hl : (lookup member.roomID agent).run exec s = (result, s')) :
    ((summaries agent (item :: items)).run exec s).1 =
      ((summaries agent items).run exec s').1.map ((entry result).toList ++ ·) := by
  have hSkip (x : Except Err (List RoomSummary)) : x.map ([] ++ ·) = x := by cases x <;> rfl
  have hLookup : ((lookup member.roomID agent).attempt : ListM _).run exec s = (.ok result, s') :=
    Program.run_attempt hl
  rw [summaries, hm, Program.ofExcept, Program.ok_bind, Program.run_bind_ok hLookup]
  cases result
  case error e =>
    rw [entry, Option.toList_none, hSkip]
    cases e <;> rfl
  case ok snapshot =>
    cases h : snapshot.membership
    case none =>
      simp only [h, entry, Option.map_none, Option.toList_none, hSkip]
    case some membership =>
      simp only [h, entry, Option.map_some, Option.toList_some]
      cases hr : (summaries agent items).run exec s'
      case mk r s'' =>
        cases r
        case error e => rw [Program.run_bind_error hr]; rfl
        case ok l    => rw [Program.run_bind_ok hr]; rfl

theorem summaries_readable (h : ∀ item ∈ items, Readable item) :
    ((summaries agent items).run exec s).1 = .ok ((lookups exec agent items s).filterMap entry) := by
  induction items generalizing s
  case nil => rfl
  case cons item items hi =>
    have ⟨⟨member, hm⟩, hItems⟩ := List.forall_mem_cons.mp h
    rw [summaries_cons hm rfl, hi hItems, lookups, hm]
    cases he : entry ((lookup member.roomID agent).run exec s).1 <;> simp [he, Except.map]

-- A page with an item that is none of the store is an error.
theorem summaries_unreadable (hi : item ∈ items) (h : ¬Readable item) :
    ∃ e, ((summaries agent items).run exec s).1 = .error e := by
  induction items generalizing s
  case nil => simp at hi
  case cons item' items hAll =>
    cases hm : DdbItem.unmarshalMap item'
    case error e => exact ⟨e, by rw [summaries, hm]; rfl⟩
    case ok member =>
      cases List.mem_cons.mp hi
      case inl he => exact absurd ⟨member, he ▸ hm⟩ h
      case inr ht =>
        have ⟨e, he⟩ := hAll (s := ((lookup member.roomID agent).run exec s).2) ht
        exact ⟨e, by rw [summaries_cons hm rfl, he]; rfl⟩

-- A page that is returned is that of the rooms of which the agent is a member, and no lookup has
-- failed for another reason than that there is no room.
structure Complete (results : List (Except Err AuthSnapshot)) (page : Page RoomSummary) : Prop where
  sound : ∀ r ∈ results, ∀ e, r = .error e → e = .notFound
  items : page.items = results.filterMap entry

theorem listRooms_run {start : Option Item} {out : IndexQueryOutput}
    (hCursor : decodeDDBCursor cursor = .ok start)
    (hQuery : exec (.query (listRoomsQuery agent (boundLimit limit defaultListLimit) start)) s =
      (.ok out, s')) :
    ((listRooms agent limit cursor).run exec s).1 =
      ((summaries agent out.items).run exec s').1.map (⟨·, encodeDDBCursor out.lastEvaluatedKey⟩) := by
  rw [listRooms, hCursor, Program.ofExcept, Program.ok_bind, Program.perform_bind, Program.run_call,
    hQuery]
  cases hr : (summaries agent out.items).run exec s'
  case mk r s'' =>
    cases r
    case error e => exact congrArg Prod.fst (Program.run_bind_error hr)
    case ok l    => exact congrArg Prod.fst (Program.run_bind_ok hr)

-- No failure is hidden exactly if no lookup fails, unless an item cannot be read and there is no
-- page at all.
theorem list_rooms_complete {start : Option Item} {out : IndexQueryOutput}
    (hCursor : decodeDDBCursor cursor = .ok start)
    (hQuery : exec (.query (listRoomsQuery agent (boundLimit limit defaultListLimit) start)) s =
      (.ok out, s')) :
    (∀ page, ((listRooms agent limit cursor).run exec s).1 = .ok page →
      Complete (lookups exec agent out.items s') page) ↔
    ((∀ item ∈ out.items, Readable item) →
      ∀ r ∈ lookups exec agent out.items s', ∀ e, r = .error e → e = .notFound) := by
  rw [listRooms_run hCursor hQuery]
  constructor
  case mp =>
    intro h hReadable
    rw [summaries_readable hReadable] at h
    exact (h _ rfl).sound
  case mpr =>
    intro h page hp
    by_cases hReadable : ∀ item ∈ out.items, Readable item
    case pos =>
      rw [summaries_readable hReadable] at hp
      cases hp
      exact ⟨h hReadable, rfl⟩
    case neg =>
      have ⟨item, hn⟩ := not_forall.mp hReadable
      have ⟨hi, hn⟩ := Classical.not_imp.mp hn
      have ⟨e, he⟩ : ∃ e, ((summaries agent out.items).run exec s').1 = .error e :=
        summaries_unreadable hi hn
      rw [he] at hp
      cases hp

end

section

attribute [local instance] asciiPlatform

def lobbyItems : List Item :=
  [GoMap.set ∅ (ofString "roomId") (.S "lobby")]

-- The index lists one room, and `get` answers the reads of the table.
def listing (get : Key → Except ApiError (Option Item)) : (o : ListOp) → Unit → o.Res × Unit
  | .query _, s                       => (.ok ⟨lobbyItems, []⟩, s)
  | .store .now, s                    => (.zero, s)
  | .store .ulid, s                   => ([], s)
  | .store (.getItem key), s          => (get key, s)
  | .store (.transactWriteItems _), s => (.error (.other []), s)
  | .store (.query _), s              => (.error (.other []), s)

-- The answers for a room of which bob is a member.
def lobby (key : Key) : Except ApiError (Option Item) :=
  let roomKey := Base64.encode "lobby"
  if key.sk = "META" then
    .ok <| some (newRoomItem "lobby" roomKey [] [] "alice.example" []).marshalMap
  else
    .ok <| some (newMemberItem "lobby" roomKey "bob.example" .reader [] "alice.example" []).marshalMap

theorem list_rooms_complete_lobby :
    ∃ page, ((listRooms "bob.example" 25 []).run (listing lobby) ()).1 = .ok page ∧
      page.items.map (·.roomID) = [ofString "lobby"] ∧
      Complete (lookups (listing lobby) "bob.example" lobbyItems ()) page := by
  have hFound : ∀ r ∈ lookups (listing lobby) "bob.example" lobbyItems (), ∃ snapshot, r = .ok snapshot := by
    intro r hr
    cases List.mem_singleton.mp hr
    exact ⟨_, rfl⟩
  have hSound : ∀ r ∈ lookups (listing lobby) "bob.example" lobbyItems (), ∀ e, r = .error e → e = .notFound := by
    intro r hr e he
    have ⟨_, hs⟩ := hFound r hr
    cases hs.symm.trans he
  have hCursor : decodeDDBCursor [] = .ok none := rfl
  have hQuery : listing lobby (.query <| listRoomsQuery "bob.example"
    (boundLimit 25 defaultListLimit) none) () = (.ok ⟨lobbyItems, []⟩, ()) := rfl
  have hComplete := (list_rooms_complete hCursor hQuery).mpr fun _ => hSound
  cases hRun : ((listRooms "bob.example" 25 []).run (listing lobby) ()).1
  case error => cases hRun
  case ok page =>
    have hItems : page.items.map (·.roomID) = [ofString "lobby"] := by
      cases hRun
      rfl
    exact ⟨page, rfl, hItems, hComplete page hRun⟩

-- While reads are throttled, bob is told that there is no room.
theorem list_rooms_complete_fails :
    ¬∀ (exec : (o : ListOp) → Unit → o.Res × Unit) (out : IndexQueryOutput) (s s' : Unit),
      exec (.query (listRoomsQuery "bob.example" 25 none)) s = (.ok out, s') →
      ∀ page, ((listRooms "bob.example" 25 []).run exec s).1 = .ok page →
        Complete (lookups exec "bob.example" out.items s') page := by
  intro h
  let throttled := listing fun _ => .error (.api "ThrottlingException" [])
  have hPage : ((listRooms "bob.example" 25 []).run throttled ()).1 = .ok ⟨[], []⟩ := by rfl
  have hLookups : lookups throttled "bob.example" lobbyItems () =
      [.error (.dependency "dynamodb ThrottlingException: ")] := by
    rfl
  have hComplete := h throttled _ () () rfl _ hPage
  rw [hLookups] at hComplete
  exact absurd (hComplete.sound _ (List.mem_singleton_self _) _ rfl) (by decide)

end

end Board.Dynamo
