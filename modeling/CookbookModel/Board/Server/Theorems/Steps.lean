import CookbookModel.Board.Server
import CookbookModel.Board.Memory.Theorems.Nicknames
import CookbookModel.Board.Memory.Theorems.Versions

namespace Board

def MemoryStore.membership (s : MemoryStore) (roomID agent : GoString) : Option Membership := do
  let key ← s.roomKeys[roomID]?
  let r : RoomRecord ← s.rooms[key]?
  r.members[agent]?

namespace Server

open GoString Memory

variable [Platform] {s s' : MemoryStore} {maxRooms maxMembers : Int}

-- The call of the store that a step makes.
def Op.call? : Op → Option Call
  | .authorize ..                 => none
  | .createRoom actor input       => some <| .createRoom actor input
  | .getRoomForAgent roomID agent => some <| .getRoomForAgent roomID agent
  | .grantAllowlist actor input   => some <| .grantAllowlist actor input
  | .revokeAllowlist actor input  => some <| .revokeAllowlist actor input
  | .setNickname actor input      => some <| .setNickname actor input
  | .postMessage actor input      => some <| .postMessage actor input

def Op.reply : (o : Op) → o.Value → Option Reply
  | .authorize .., _                   => none
  | .createRoom .., room               => some <| .room room
  | .getRoomForAgent .., snapshot      => some <| .snapshot snapshot
  | .grantAllowlist .., (member, new)  => some <| .granted member new
  | .revokeAllowlist .., removed       => some <| .revoked removed
  | .setNickname .., member            => some <| .membership member
  | .postMessage .., result            => some <| .posted result

omit [Platform] in
theorem atomically_ok {x : MemoryM α} :
    atomically x s = (.ok a, s') ↔ x.run s = .ok a s' := by
  unfold atomically
  cases x.run s <;> simp

-- A step of a request that succeeds is a decision of the authorizer or a step of the store.
theorem exec_ok {o : Op} {v : o.Value} (h : exec o w s = (.ok v, s')) :
    (o.call? = none ∧ s' = s) ∨
    ∃ c reply, o.call? = some c ∧ o.reply v = some reply ∧ Step w s c reply s' := by
  cases o
  case authorize => exact .inl ⟨rfl, (Prod.mk.inj h).right.symm⟩
  all_goals refine .inr ⟨_, _, rfl, rfl, ?_⟩
  case createRoom      => exact createRoom_step <| atomically_ok.mp h
  case getRoomForAgent => exact getRoomForAgent_step <| atomically_ok.mp h
  case grantAllowlist  => exact grantAllowlist_step <| atomically_ok.mp h
  case revokeAllowlist => exact revokeAllowlist_step <| atomically_ok.mp h
  case setNickname     => exact setNickname_step <| atomically_ok.mp h
  case postMessage     => exact postMessage_step <| atomically_ok.mp h

omit [Platform] in
theorem atomically_error {x : MemoryM α} (hx : x.FailsClean) (h : atomically x s = (.error e, s')) :
    s' = s := by
  unfold atomically at h
  cases hr : x.run s <;> simp only [hr, Prod.mk.injEq, reduceCtorEq, false_and] at h
  case error => exact h.right ▸ hx.error hr

theorem exec_error {o : Op} (h : exec o w s = (.error e, s')) : s' = s := by
  cases o
  case authorize       => exact (Prod.mk.inj h).right.symm
  case createRoom      => exact atomically_error createRoom_failsClean h
  case getRoomForAgent => exact atomically_error getRoomForAgent_failsClean h
  case grantAllowlist  => exact atomically_error grantAllowlist_failsClean h
  case revokeAllowlist => exact atomically_error revokeAllowlist_failsClean h
  case setNickname     => exact atomically_error setNickname_failsClean h
  case postMessage     => exact atomically_error postMessage_failsClean h

omit [Platform] in
theorem membership_eq_some {roomID agent key : GoString} {r : RoomRecord} (hLocated : Located s roomID key r) :
    s.membership roomID agent = r.members[agent]? := by
  simp [MemoryStore.membership, hLocated.byID, hLocated.byKey]

omit [Platform] in
theorem located_of_membership {roomID agent : GoString} {m : Membership}
    (h : s.membership roomID agent = some m) :
    ∃ key r, Located s roomID key r ∧ r.members[agent]? = some m := by
  simp only [MemoryStore.membership, Option.bind_eq_bind, Option.bind_eq_some_iff] at h
  have ⟨key, hKey, r, hr, hm⟩ := h
  exact ⟨key, r, ⟨hKey, hr⟩, hm⟩

theorem exec_cases (o : Op) (w : Stamp) (s : MemoryStore) :
    (exec o w s).2 = s ∨
    ∃ v c reply s', o.call? = some c ∧ o.reply v = some reply ∧ exec o w s = (.ok v, s') ∧
      Step w s c reply s' := by
  cases h : exec o w s
  case mk r s' =>
    cases r
    case error e => exact .inl <| exec_error h
    case ok v =>
      cases exec_ok h
      case inl h => exact .inl h.right
      case inr h =>
        have ⟨c, reply, hc, hr, hStep⟩ := h
        exact .inr ⟨v, c, reply, s', hc, hr, rfl, hStep⟩

omit [Platform] in
theorem emits_validated_bind {x : Except GoString α} {f : α → Handler β} :
    (validated x >>= f).Emits path o ↔ ∃ a, x = .ok a ∧ (f a).Emits path o := by
  cases x <;> simp [validated]

-- What holds of the rooms in every state that the server reaches.
structure Invariant (s : MemoryStore) : Prop where
  sound    : s.Sound
  indexed  : ∀ {key : GoString} {r : RoomRecord}, s.rooms[key]? = some r → r.Indexed
  versions : ∀ {key : GoString} {r : RoomRecord}, s.rooms[key]? = some r →
    ∀ {a : GoString} {m : Membership}, r.members[a]? = some m → 1 ≤ m.version

theorem Invariant.step (hs : Invariant s) (h : Step w s c reply s') : Invariant s' where
  sound    := h.sound hs.sound
  indexed  := h.forall_rooms hs.indexed (fun _ => .create rfl rfl) fun hr hc => hc.indexed hr
  versions := h.forall_rooms hs.versions (fun _ _ _ => versions_create rfl) fun hr hc => hc.versions hr

section OnStore

variable {O Ω Req ε α : Type} {R : O → Type} {S : System O R ε α MemoryStore Ω Req}
  {call? : O → Option Call}

-- A system whose steps leave a memory store alone or are calls that succeed.
structure OnStore (S : System O R ε α MemoryStore Ω Req) (call? : O → Option Call) : Prop where
  init : Invariant S.init
  step : ∀ (o : O) (w : Ω) (s : MemoryStore), (S.exec o w s).2 = s ∨
    ∃ w' c reply, call? o = some c ∧ Step w' s c reply (S.exec o w s).2

namespace OnStore

theorem exec (hS : OnStore S call?) (hs : Invariant s) (o : O) (w : Ω) :
    Invariant (S.exec o w s).2 := by
  cases hS.step o w s
  case inl he => rwa [he]
  case inr h =>
    have ⟨_, _, _, _, hStep⟩ := h
    exact hs.step hStep

theorem run (hS : OnStore S call?) (h : S.Run tr C) : Invariant C.store :=
  h.induction (I := fun _ s => Invariant s) hS.init fun {_ e} hs _ _ => hS.exec hs e.op e.outcome

theorem event {e : S.Event} (hS : OnStore S call?) (h : S.Run tr C) (he : e ∈ tr) :
    Invariant e.store := by
  have ⟨tr₁, tr₂, he⟩ := List.mem_iff_append.mp he
  have ⟨C', h', hs⟩ := h.event_run he
  exact hs ▸ hS.run h'

-- What a step does to the record of a room.
theorem record (hS : OnStore S call?) (hs : Invariant s) (hLocated : Located s roomID key r)
    (o : O) (w : Ω) : ∃ r', Located (S.exec o w s).2 roomID key r' ∧
      (r' = r ∨ ∃ w' c limit reply, call? o = some c ∧ c.roomID = roomID ∧
        Change w' limit r c reply r') := by
  cases hS.step o w s
  case inl he => exact ⟨r, he.symm ▸ hLocated, .inl rfl⟩
  case inr h =>
    have ⟨w', c, reply, hCall, hStep⟩ := h
    have ⟨r', hLocated', hc⟩ := hLocated.step hStep hs.sound
    exact ⟨r', hLocated', hc.imp_right fun ⟨hID, hc⟩ => ⟨w', c, _, reply, hCall, hID, hc⟩⟩

end OnStore
end OnStore

theorem Invariant.new : Invariant (.new maxRooms maxMembers) where
  sound    := .new
  indexed  := fun hr => by simp [MemoryStore.new] at hr
  versions := fun hr => by simp [MemoryStore.new] at hr

theorem onStore : OnStore (system maxRooms maxMembers) Op.call? where
  init := .new
  step o w s := by
    cases exec_cases o w s
    case inl he => exact .inl he
    case inr h =>
      have ⟨_, c, reply, _, hCall, _, he, hStep⟩ := h
      exact .inr ⟨w, c, reply, hCall, (congrArg Prod.snd he) ▸ hStep⟩

theorem Invariant.exec (hs : Invariant s) (o : Op) (w : Stamp) : Invariant (exec o w s).2 :=
  have hStore : OnStore (system 0 0) Op.call? := onStore
  hStore.exec hs o w

theorem event_invariant (h : (system maxRooms maxMembers).Run tr C) (he : e ∈ tr) :
    Invariant e.store :=
  onStore.event h he

end Server
end Board
