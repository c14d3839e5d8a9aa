import CookbookModel.Board.Dynamo.Theorems.Ranges
import CookbookModel.Board.Dynamo.Theorems.Summaries
import CookbookModel.Library.Time.Order

namespace Board.Dynamo

open GoString DynamoDB

section

variable {t u : Time} {roomKey roomKey' : GoString}

theorem listingKey_lt (h : u.after t) :
    listingKey roomKey t.format < listingKey roomKey' u.format ↔ ¬t.CutOff u := by
  simp only [listingKey, List.append_assoc]
  rw [append_lt_append, Time.format_lt h]

-- The room that is listed first is that with the larger key.
theorem listingKey_gt (h : u.after t) (hc : t.CutOff u) :
    listingKey roomKey' u.format < listingKey roomKey t.format := by
  refine lt_of_le_of_ne (not_lt.mp fun hlt => (listingKey_lt h).mp hlt hc) fun he => ?_
  simp only [listingKey, List.append_assoc] at he
  have he := Time.format_append_inj <| List.append_cancel_left he
  rw [he, Time.after, decide_eq_true_eq] at h
  exact lt_irrefl _ h

end

-- An agent is let into a room, or given another role in it.
structure Grant where
  roomID : GoString
  time   : Time

section

variable [Platform]

def Grant.key (g : Grant) : GoString :=
  listingKey (roomKeyOf g.roomID) g.time.format

-- The item of the index for a grant
def Listed (item : Item) (g : Grant) : Prop :=
  ∃ d, DdbItem.unmarshalMap item = .ok d ∧ d.roomID = g.roomID ∧ d.GSI1SK = g.key

theorem listed_readable (h : List.Forall₂ Listed items grants) : ∀ item ∈ items, Readable item := by
  induction h
  case nil => simp
  case cons hl _ hi =>
    have ⟨d, hd, _⟩ := hl
    exact List.forall_mem_cons.mpr ⟨⟨d, hd⟩, hi⟩

-- The grants of the rooms that are found when they are looked up.
def shown (grants : List Grant) (results : List (Except Err AuthSnapshot)) : List Grant :=
  (grants.zip results).filterMap fun p => (entry p.2).map fun _ => p.1

def RecentFirst (grants : List Grant) : Prop :=
  grants.Pairwise fun g g' => ¬g'.time.after g.time

omit [Platform] in
theorem shown_sublist {results : List (Except Err AuthSnapshot)} :
    (shown grants results).Sublist grants := by
  induction grants generalizing results
  case nil => exact List.Sublist.refl _
  case cons g grants hi =>
    cases results
    case nil => exact List.nil_sublist _
    case cons r results =>
      rw [shown, List.zip_cons_cons, List.filterMap_cons]
      cases entry r
      case none   => exact .cons _ hi
      case some _ => exact .cons_cons _ hi

omit [Platform] in
theorem shown_rooms {results : List (Except Err AuthSnapshot)}
    (h : List.Forall₂ (fun g r => ∀ summary, entry r = some summary → summary.roomID = g.roomID)
      grants results) :
    (results.filterMap entry).map (·.roomID) = (shown grants results).map (·.roomID) := by
  induction h
  case nil => rfl
  case cons g r grants results hr _ hi =>
    rw [shown, List.zip_cons_cons, List.filterMap_cons, List.filterMap_cons]
    cases he : entry r
    case none         => exact hi
    case some summary => exact congrArg₂ List.cons (hr summary he) hi

-- Rooms in the descending order of their keys
theorem recentFirst_iff (h : grants.Pairwise fun g g' => g'.key ≤ g.key) :
    RecentFirst grants ↔
      ∀ g ∈ grants, ∀ g' ∈ grants, g'.time.after g.time → ¬g.time.CutOff g'.time := by
  constructor
  case mp =>
    intro hRecent g hg g' hg'
    refine List.Pairwise.forall_of_forall_of_flip
      (R := fun g g' => g'.time.after g.time → ¬g.time.CutOff g'.time) ?_ ?_ ?_ hg hg'
    · simp [Time.after]
    · exact hRecent.imp fun hRecent hAfter => absurd hAfter hRecent
    · exact h.imp fun hle hAfter hc => absurd (listingKey_gt hAfter hc) (not_lt.mpr hle)
  case mpr =>
    intro hCut
    refine h.imp_of_mem fun {g g'} hg hg' hle hAfter => ?_
    exact absurd ((listingKey_lt hAfter).mpr <| hCut g hg g' hg' hAfter) (not_lt.mpr hle)

-- Two times are in the order of their keys unless the first is the second cut off, and the rooms of
-- a page are in the order of their grants exactly if no grant of a room of the page was at the time
-- of a later one cut off.
theorem listing_recency :
    (∀ (t u : Time) (roomKey roomKey' : GoString), u.after t →
      (listingKey roomKey t.format < listingKey roomKey' u.format ↔ ¬t.CutOff u)) ∧
    ∀ {σ : Type} (exec : (o : ListOp) → σ → o.Res × σ) (s s' : σ) (agent : GoString) (limit : Int)
      (cursor : GoString) (start : Option Item) (out : IndexQueryOutput) (grants : List Grant),
      decodeDDBCursor cursor = .ok start →
      exec (.query (listRoomsQuery agent (boundLimit limit defaultListLimit) start)) s =
        (.ok out, s') →
      List.Forall₂ Listed out.items grants →
      (grants.Pairwise fun g g' => g'.key ≤ g.key) →
      List.Forall₂ (fun g r => ∀ summary, entry r = some summary → summary.roomID = g.roomID) grants
        (lookups exec agent out.items s') →
      ∃ page, ((listRooms agent limit cursor).run exec s).1 = .ok page ∧
        page.items.map (·.roomID) =
          (shown grants (lookups exec agent out.items s')).map (·.roomID) ∧
        (RecentFirst (shown grants (lookups exec agent out.items s')) ↔
          ∀ g ∈ shown grants (lookups exec agent out.items s'),
            ∀ g' ∈ shown grants (lookups exec agent out.items s'),
              g'.time.after g.time → ¬g.time.CutOff g'.time) := by
  refine ⟨fun _ _ _ _ => listingKey_lt, ?_⟩
  intro σ exec s s' agent limit cursor start out grants hCursor hQuery hListed hScan hRooms
  rw [listRooms_run hCursor hQuery, summaries_readable <| listed_readable hListed]
  exact ⟨_, rfl, shown_rooms hRooms, recentFirst_iff <| hScan.sublist shown_sublist⟩

end

section

attribute [local instance] asciiPlatform

-- A tenth of a second past midnight, and 20 ms later
def tenth : Time :=
  ⟨⟨2026, 1, 1, 0, 0, 0, 100000000⟩, by decide⟩

def afterTenth : Time :=
  ⟨⟨2026, 1, 1, 0, 0, 0, 120000000⟩, by decide⟩

def nextSecond : Time :=
  ⟨⟨2026, 1, 1, 0, 0, 1, 0⟩, by decide⟩

def grantedItem (g : Grant) : DdbItem :=
  newMemberItem g.roomID (roomKeyOf g.roomID) "bob.example" .reader [] "alice.example" g.time.format

def grantedItems (grants : List Grant) : List Item :=
  grants.map fun g => (grantedItem g).marshalMap

-- The table has the rooms of the grants, with bob among their members.
def found (grants : List Grant) (key : Key) : Option Item :=
  (grants.find? fun g => roomPK (roomKeyOf g.roomID) = key.pk).map fun g =>
    if key.sk = "META" then
      (newRoomItem g.roomID (roomKeyOf g.roomID) [] [] "alice.example" []).marshalMap
    else
      (grantedItem g).marshalMap

def scan (grants : List Grant) : (o : ListOp) → Unit → o.Res × Unit
  | .query _, s                       => (.ok ⟨grantedItems grants, []⟩, s)
  | .store .now, s                    => (.zero, s)
  | .store .ulid, s                   => ([], s)
  | .store (.getItem key), s          => (.ok (found grants key), s)
  | .store (.transactWriteItems _), s => (.error (.other []), s)
  | .store (.query _), s              => (.error (.other []), s)

def bobsGrants : List Grant :=
  [⟨"attic", nextSecond⟩, ⟨"lobby", tenth⟩]

theorem listing_recency_attic :
    listingKey "lobby" tenth.format < listingKey "attic" nextSecond.format ∧
    ∃ page, ((listRooms "bob.example" 25 []).run (scan bobsGrants) ()).1 = .ok page ∧
      page.items.map (·.roomID) = ["attic", "lobby"] ∧ RecentFirst bobsGrants := by
  have hCursor : decodeDDBCursor [] = .ok none := rfl
  have hQuery : scan bobsGrants (.query <| listRoomsQuery "bob.example"
    (boundLimit 25 defaultListLimit) none) () = (.ok ⟨grantedItems bobsGrants, []⟩, ()) := rfl
  have hListed : List.Forall₂ Listed (grantedItems bobsGrants) bobsGrants :=
    .cons ⟨_, rfl, rfl, rfl⟩ <| .cons ⟨_, rfl, rfl, rfl⟩ .nil
  have hScan : bobsGrants.Pairwise fun g g' => g'.key ≤ g.key := by decide
  have hRooms : List.Forall₂
      (fun g r => ∀ summary, entry r = some summary → summary.roomID = g.roomID) bobsGrants
      (lookups (scan bobsGrants) "bob.example" (grantedItems bobsGrants) ()) := by
    refine .cons ?_ <| .cons ?_ .nil
    all_goals
      intro summary h
      cases h
      rfl
  have hShown : shown bobsGrants
      (lookups (scan bobsGrants) "bob.example" (grantedItems bobsGrants) ()) = bobsGrants := by
    rfl
  have ⟨page, hRun, hItems, hRecent⟩ := listing_recency.right (scan bobsGrants) () () "bob.example"
    25 [] none _ bobsGrants hCursor hQuery hListed hScan hRooms
  rw [hShown] at hItems hRecent
  have hKeys := (listing_recency.left tenth nextSecond "lobby" "attic" (by decide)).mpr (by decide)
  exact ⟨hKeys, page, hRun, hItems, hRecent.mpr (by decide)⟩

-- The room that is granted first has the larger key.
theorem listing_recency_fails :
    ¬∀ (t u : Time) (roomKey roomKey' : GoString), u.after t →
      listingKey roomKey t.format < listingKey roomKey' u.format := by
  intro h
  exact absurd (h tenth afterTenth "lobby" "attic" (by decide)) (by decide)

end

end Board.Dynamo
