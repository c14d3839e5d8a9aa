import CookbookModel.Board.Avp
import CookbookModel.Board.Memory.Theorems.Audits
import CookbookModel.Board.Server.Theorems.Enforcement

namespace Board

open GoString Cedar

theorem Action.text_injective : Function.Injective Action.text := by
  intro a b h
  cases a <;> cases b <;> first | rfl | exact absurd h (by decide)

-- What is said of a snapshot of a room that an agent takes: the room has a key, and only the owner
-- is a member as such.
structure AuthSnapshot.Coherent (snapshot : AuthSnapshot) (agent : GoString) : Prop where
  keyed : snapshot.room.roomKey ≠ []
  owner : ∀ m ∈ snapshot.membership, m.role = .owner → snapshot.room.owner = agent

namespace AVPAuthorizer

section

variable {identity : Identity} {action : Action} {snapshot : AuthSnapshot}
  {authContext : AuthContext}

def request (identity : Identity) (action : Action) (snapshot : AuthSnapshot)
    (authContext : AuthContext) : Cedar.Request GoString where
  principal := ⟨"DNSidBoard::Agent", identity.agent⟩
  action    := ⟨"DNSidBoard::Action", action.text⟩
  resource  := resourceID action snapshot
  context   := (contextMap authContext).getD []

-- What a member's role makes it a part of.
def roles (snapshot : AuthSnapshot) : List (EntityUID GoString) :=
  snapshot.membership.toList.map fun m => roleID snapshot.room.roomKey m.role.text

-- A room that an action is about has a key.
def Keyed (action : Action) (snapshot : AuthSnapshot) : Prop :=
  resourceID action snapshot = ⟨"DNSidBoard::Room", snapshot.room.roomKey⟩ →
    snapshot.room.roomKey ≠ []

end
end AVPAuthorizer

open Memory

section

variable [Platform] [CursorJson] {s : MemoryStore} {maxRooms maxMembers : Int}

-- The snapshots that requests are authorized with: those that a store returns and, for what is not
-- about a room, the empty one.
inductive Shown (s : MemoryStore) (identity : Identity) (action : Action) : AuthSnapshot → Prop
  | room (h : (atomically (getRoomForAgent roomID identity.agent) s).1 = .ok snapshot) :
    Shown s identity action snapshot
  | empty (h : action = .createRoom ∨ action = .listOwnRooms) :
    Shown s identity action ⟨⟨[], [], [], [], [], .zero, .zero, 0, false, 0⟩, none⟩

omit [CursorJson] in
theorem Shown.coherent (hs : s.Sound) (h : Shown s identity action snapshot) :
    AVPAuthorizer.Keyed action snapshot ∧
      ∀ m ∈ snapshot.membership, m.role = .owner → snapshot.room.owner = identity.agent := by
  cases h
  case room roomID h =>
    have ⟨key, rec, hLocated, he⟩ := Server.snapshot_located (w := ⟨.zero, []⟩) (Prod.ext h rfl)
    subst he
    have hRec := hs.records hLocated.byKey
    constructor
    case left =>
      intro _
      have ⟨hKey, hID⟩ := hs.rooms hLocated.byKey
      have hValid : rec.room.roomID ≠ [] := fun hn => by
        have hValid := hRec.valid
        rw [hn] at hValid
        cases hValid
      change rec.room.roomKey ≠ []
      rw [hKey, hs.encoded hID]
      exact fun hn => hValid <| Base64.encode_injective hn
    case right => exact fun m hm hRole => (hRec.onlyOwner hm hRole).symm
  case empty h =>
    constructor
    case left  => rcases h with rfl | rfl <;> exact fun h => absurd (EntityUID.mk.inj h).left (by decide)
    case right => exact nofun

end

section

attribute [local instance] asciiPlatform plainCursors

end
end Board
