import CookbookModel.Board.Http
import CookbookModel.Board.Memory.Theorems.Audits
import CookbookModel.Board.Server.Theorems.Steps

namespace Board

-- The store without a room, as if the room had never been created.
def MemoryStore.deleteRoom (s : MemoryStore) (roomID : GoString) : MemoryStore :=
  match s.roomKeys[roomID]? with
  | none         => s
  | some roomKey =>
    match s.rooms[roomKey]? with
    | none     => s
    | some rec =>
      { s with
        roomKeys := s.roomKeys.delete roomID
        rooms    := s.rooms.delete roomKey
        quotas   := s.quotas.set rec.room.owner (s.quota rec.room.owner - 1)
      }

namespace LocalAuthorizer

-- Who is neither the owner of a room nor a member has no right in it.
theorem authorize_denied (hCreate : action ≠ .createRoom) (hList : action ≠ .listOwnRooms)
    (hOwner : snapshot.room.owner ≠ identity.agent) (hMember : snapshot.membership = none) :
    authorize identity action snapshot authContext = .error .denied := by
  unfold authorize throwIf
  split <;> try contradiction
  case h_3 =>
    rw [if_neg hOwner, hMember]
    split
    case isTrue  => rfl
    case isFalse =>
      split
      case isTrue  => rfl
      case isFalse => split <;> rfl

end LocalAuthorizer

namespace Http

open GoString Memory

section

variable [Platform] [CursorJson] {s s' : MemoryStore} {maxRooms maxMembers : Int} {roomID : GoString}
  {identity : Identity} {r : Request}

-- Two ends of a handler that look the same from outside.
inductive Alike : Except Err α → Except Err α → Prop
  | same : Alike x x
  | hidden : Alike (.error .denied) (.error .notFound)

-- The agent does not get into the room, or there is no such room.
def Outsider (s : MemoryStore) (roomID agent : GoString) : Prop :=
  ∀ {key : GoString} {rec : RoomRecord}, Located s roomID key rec →
    rec.members[agent]? = none ∧ rec.room.owner ≠ agent

omit [CursorJson] in
theorem outsider (hs : s.Sound) (h : s.membership roomID agent = none) :
    Outsider s roomID agent := by
  intro key rec hLocated
  have hMember := (Server.membership_eq_some hLocated).symm.trans h
  refine ⟨hMember, fun hOwner => ?_⟩
  have ⟨m, hm, _⟩ := (hs.records hLocated.byKey).owner
  cases (hOwner ▸ hm).symm.trans hMember

-- What an agent is shown of a room.
def shown (s : MemoryStore) (roomID agent : GoString) : Except Err AuthSnapshot := do
  let roomID ← validated (normalizeRoomID roomID)
  match (s.roomKeys[roomID]?).bind (s.rooms[·]?) with
  | none     => throw .notFound
  | some rec => return ⟨rec.room, rec.members[agent]?⟩

omit [CursorJson] in
theorem getRoomForAgent_eq (s : MemoryStore) (roomID agent : GoString) :
    atomically (Memory.getRoomForAgent roomID agent) s = (shown s roomID agent, s) := by
  unfold atomically Memory.getRoomForAgent shown
  rw [EStateM.run_bind]
  cases normalizeRoomID roomID
  case error detail => rfl
  case ok roomID =>
    simp only [validated, EStateM.run_pure, recordByRoomIDLocked]
    cases hKey : s.roomKeys[roomID]?
    case none     => simp [hKey]; rfl
    case some key => cases hRec : s.rooms[key]? <;> simp [hKey, hRec] <;> rfl

-- What the handlers of a room have in common: they take a snapshot of it and ask for a right in it.
def gated (identity : Identity) (roomID : GoString) (action : Action) (authContext : AuthContext)
    (f : AuthSnapshot → Handler α) : Handler α := do
  let snapshot ← getRoomForAgent roomID identity.agent
  board <| Server.invoke <| .authorize identity action snapshot authContext
  f snapshot

theorem exec_getRoomForAgent (s : MemoryStore) (w : Moment) :
    exec (.board <| .getRoomForAgent roomID agent) w s = (shown s roomID agent, s) :=
  getRoomForAgent_eq s roomID agent

theorem gated_error {f : AuthSnapshot → Handler α} (h : shown s roomID identity.agent = .error e) :
    (gated identity roomID action authContext f).Settles exec s (.error e) := by
  refine .bind_error <| .call (exec_getRoomForAgent s) ?_
  rw [h]
  exact .done

theorem gated_denied {f : AuthSnapshot → Handler α}
    (h : shown s roomID identity.agent = .ok snapshot) (hOwner : snapshot.room.owner ≠ identity.agent)
    (hMember : snapshot.membership = none) (hCreate : action ≠ .createRoom)
    (hList : action ≠ .listOwnRooms) :
    (gated identity roomID action authContext f).Settles exec s (.error .denied) := by
  refine .bind_ok (a := snapshot) (.call (exec_getRoomForAgent s) ?_) <|
    .bind_error <| .call (fun _ => rfl) ?_
  case refine_1 =>
    rw [h]
    exact .done
  case refine_2 =>
    rw [LocalAuthorizer.authorize_denied hCreate hList hOwner hMember]
    exact .done

-- From outside, the handler ends alike in both states and changes neither.
def Conceals (x : Handler α) (s s' : MemoryStore) : Prop :=
  ∃ e e', Alike e e' ∧ x.Settles exec s e ∧ x.Settles exec s' e'

namespace Conceals

variable {x : Handler α}

theorem done {e : Except Err α} : Conceals (.done e) s s' :=
  ⟨e, e, .same, .done, .done⟩

theorem done_bind {f : α → Handler β} {e : Except Err α} (h : ∀ a, Conceals (f a) s s') :
    Conceals (.done e >>= f) s s' := by
  cases e
  case ok a    => exact h a
  case error e => exact done

theorem throwIf_bind {c : Prop} [Decidable c] {f : Unit → Handler β}
    (h : ∀ a, Conceals (f a) s s') : Conceals (throwIf c e >>= f) s s' := by
  unfold throwIf
  split
  case isTrue  => exact done
  case isFalse => exact h ()

theorem validated_bind {e : Except GoString α} {f : α → Handler β}
    (h : ∀ a, Conceals (f a) s s') : Conceals (validated e >>= f) s s' := by
  cases e
  case ok a    => exact h a
  case error e => exact done

theorem bind_pure {f : α → β} (h : Conceals x s s') :
    Conceals (x >>= fun a => pure (f a)) s s' := by
  have ⟨e, e', hAlike, hs, hs'⟩ := h
  cases hAlike
  case hidden => exact ⟨_, _, .hidden, hs.bind_error, hs'.bind_error⟩
  case same   =>
    cases e
    case error => exact ⟨_, _, .same, hs.bind_error, hs'.bind_error⟩
    case ok    => exact ⟨_, _, .same, hs.bind_ok .done, hs'.bind_ok .done⟩

theorem gate {f : AuthSnapshot → Handler α} (hs : Outsider s roomID identity.agent)
    (hs' : s'.roomKeys[roomID]? = none) (hCreate : action ≠ .createRoom)
    (hList : action ≠ .listOwnRooms) :
    Conceals (gated identity roomID action authContext f) s s' := by
  cases hID : normalizeRoomID roomID
  case error detail =>
    have hInvalid (s : MemoryStore) :
        shown s roomID identity.agent = .error (.validation detail) := by
      rw [shown, hID]
      rfl
    exact ⟨_, _, .same, gated_error (hInvalid s), gated_error (hInvalid s')⟩
  case ok =>
    cases normalizeRoomID_ok hID
    have hFound (s : MemoryStore) : shown s roomID identity.agent =
        match (s.roomKeys[roomID]?).bind (s.rooms[·]?) with
        | none     => .error .notFound
        | some rec => .ok ⟨rec.room, rec.members[identity.agent]?⟩ := by
      rw [shown, hID]
      rfl
    have hMissing : (gated identity roomID action authContext f).Settles exec s'
        (.error .notFound) :=
      gated_error <| (hFound s').trans (by rw [hs']; rfl)
    cases hRec : (s.roomKeys[roomID]?).bind (s.rooms[·]?)
    case none =>
      have hNone := (hFound s).trans (by rw [hRec])
      exact ⟨_, _, .same, gated_error hNone, hMissing⟩
    case some rec =>
      have hSome := (hFound s).trans (by rw [hRec])
      have ⟨key, hKey, hRec⟩ := Option.bind_eq_some_iff.mp hRec
      have ⟨hMember, hOwner⟩ := hs ⟨hKey, hRec⟩
      exact ⟨_, _, .hidden, gated_denied hSome hOwner hMember hCreate hList, hMissing⟩

end Conceals

-- The path of the request is one under `/v1/rooms/` and the room's id, if it can be unescaped.
def Under (r : Request) (roomID : GoString) : Prop :=
  ∀ {segments}, escapedSegments r.escapedPath = some segments →
    ∃ rest, segments = ofString "v1" :: ofString "rooms" :: roomID :: rest

section Handlers

omit [Platform] [CursorJson] in
theorem board_bind (x : Server.Handler α) (f : α → Server.Handler β) :
    board (x >>= f) = board x >>= fun a => board (f a) :=
  Program.embed_bind x f

omit [Platform] [CursorJson] in
theorem board_throwIf {c : Prop} [Decidable c] : board (throwIf c e) = throwIf c e :=
  Program.embed_throwIf

omit [Platform] [CursorJson] in
theorem board_validated {x : Except GoString α} : board (validated x) = validated x := by
  cases x <;> rfl

omit [Platform] [CursorJson] in
theorem queryLimit_done (r : Request) (n : Int) : ∃ e, queryLimit r n = .done e := by
  unfold queryLimit
  dsimp only
  split
  case isTrue  => exact ⟨_, rfl⟩
  case isFalse => split <;> exact ⟨_, rfl⟩

omit [Platform] [CursorJson] in
theorem queryWait_done (r : Request) : ∃ e, queryWait r = .done e := by
  unfold queryWait
  dsimp only
  split
  case isTrue  => exact ⟨_, rfl⟩
  case isFalse => split <;> exact ⟨_, rfl⟩

theorem change_conceals {request : Server.Request} {x : Server.Handler α} {f : α → Server.Response}
    (he : Server.handle request = x >>= fun a => pure (f a)) (h : Conceals (board x) s s') :
    Conceals (change request) s s' := by
  rw [change, he, board_bind]
  exact .bind_pure (f := respond) <| .bind_pure (f := f) h

variable (hs : Outsider s roomID identity.agent) (hs' : s'.roomKeys[roomID]? = none)

include hs hs'

theorem getRoom_conceals : Conceals (getRoom identity roomID) s s' :=
  .gate hs hs' nofun nofun

theorem readLoop_conceals : Conceals (readLoop identity roomID limit wait r n) s s' := by
  cases n <;> exact .gate hs hs' nofun nofun

theorem readMessages_conceals : Conceals (readMessages identity roomID r) s s' := by
  have ⟨_, hLimit⟩ := queryLimit_done r defaultMessagesLimit
  have ⟨_, hWait⟩ := queryWait_done r
  rw [readMessages, hLimit, hWait]
  exact .done_bind fun _ => .done_bind fun _ => readLoop_conceals hs hs'

theorem listAllowlist_conceals : Conceals (listAllowlist identity roomID r) s s' :=
  .gate hs hs' nofun nofun

theorem postMessage_conceals :
    Conceals (change <| .postMessage identity roomID key body) s s' := by
  refine change_conceals rfl ?_
  rw [Server.postMessage]
  simp only [board_bind, board_throwIf, board_validated]
  refine .throwIf_bind fun _ => .done_bind fun _ => .throwIf_bind fun _ => .done_bind fun _ =>
    .validated_bind fun _ => ?_
  exact .gate hs hs' (by decide) (by decide)

theorem setNickname_conceals :
    Conceals (change <| .setNickname identity roomID body) s s' := by
  refine change_conceals rfl ?_
  rw [Server.setNickname]
  simp only [board_bind]
  exact .done_bind fun _ => .gate hs hs' nofun nofun

theorem grantAllowlist_conceals :
    Conceals (change <| .grantAllowlist identity roomID agent body) s s' := by
  refine change_conceals (x := Server.grantAllowlist identity roomID agent body) rfl ?_
  rw [Server.grantAllowlist]
  simp only [board_bind, board_validated]
  exact .validated_bind fun _ => .done_bind fun _ => .done_bind fun _ => .gate hs hs' nofun nofun

theorem revokeAllowlist_conceals :
    Conceals (change <| .revokeAllowlist identity roomID agent) s s' := by
  refine change_conceals rfl ?_
  rw [Server.revokeAllowlist]
  simp only [board_bind, board_validated]
  exact .validated_bind fun _ => .gate hs hs' nofun nofun

theorem routeRoom_conceals [BodyJson] : Conceals (routeRoom identity r roomID rest) s s' := by
  unfold routeRoom
  split
  case h_1 =>
    split
    case isTrue  => exact getRoom_conceals hs hs'
    case isFalse => exact .done
  case h_2 =>
    split_ifs
    case pos      => exact readMessages_conceals hs hs'
    case pos      => exact postMessage_conceals hs hs'
    case pos      => exact setNickname_conceals hs hs'
    case pos      => exact listAllowlist_conceals hs hs'
    case neg      => exact .done
  case h_3 =>
    split_ifs
    case pos      => exact grantAllowlist_conceals hs hs'
    case pos      => exact revokeAllowlist_conceals hs hs'
    case neg      => exact .done
  case h_4 => exact .done

theorem route_conceals [BodyJson] (hPath : Under r roomID) :
    Conceals (route identity r) s s' := by
  unfold route
  split
  case h_1 => exact .done
  case h_2 segments hSegments =>
    obtain ⟨rest, rfl⟩ := hPath hSegments
    simp only [List.cons.injEq, reduceCtorEq, and_false, false_and, if_false, and_self, if_true]
    exact routeRoom_conceals hs hs'

end Handlers

theorem serveHTTP_conceals [BodyJson] (hPath : Under r roomID)
    (hs : ∀ {identity}, authenticate r = .ok identity → Outsider s roomID identity.agent)
    (hs' : s'.roomKeys[roomID]? = none) :
    ∃ response, (serveHTTP r).Settles exec s (.ok response) ∧
      (serveHTTP r).Settles exec s' (.ok response) := by
  unfold serveHTTP
  split
  case isTrue => exact ⟨_, .done, .done⟩
  case isFalse =>
    split
    case h_1 => exact ⟨_, .done, .done⟩
    case h_2 identity hIdentity =>
      have ⟨e, e', hAlike, hs, hs'⟩ := route_conceals (hs hIdentity) hs' hPath
      cases hAlike
      case hidden => exact ⟨_, .bind_ok hs.attempt .done, .bind_ok hs'.attempt .done⟩
      case same   => cases e <;> exact ⟨_, .bind_ok hs.attempt .done, .bind_ok hs'.attempt .done⟩

omit [CursorJson] in
theorem deleteRoom_roomKeys (hs : s.Sound) : (s.deleteRoom roomID).roomKeys[roomID]? = none := by
  unfold MemoryStore.deleteRoom
  split
  case h_1 h => exact h
  case h_2 key hKey =>
    have ⟨rec, hRec, _⟩ := hs.roomKeys hKey
    rw [hRec]
    exact GoMap.get_delete_self

-- A request as the server answers it when nothing else happens, with the moments of its steps.
def serve [BodyJson] (r : Request) (ws : Nat → Moment) (s : MemoryStore) :
    Except Err Response × MemoryStore :=
  let (result, s', _) := (serveHTTP r).run (Program.scripted exec) (s, ws)
  (result, s')

-- An agent that is not let into a room gets the answers that it would get if there were no such
-- room, and changes nothing.
theorem concealed [BodyJson] (hh : History perform (.new maxRooms maxMembers) h s)
    (hPath : Under r roomID)
    (hOutsider : ∀ {identity}, authenticate r = .ok identity →
      s.membership roomID identity.agent = none) :
    ∃ response, ∀ ws, serve r ws s = (.ok response, s) ∧
      serve r ws (s.deleteRoom roomID) = (.ok response, s.deleteRoom roomID) := by
  have hs := performed_sound hh
  have ⟨response, hResponse, hResponse'⟩ :=
    serveHTTP_conceals hPath (fun h => outsider hs (hOutsider h)) (deleteRoom_roomKeys hs)
  refine ⟨response, fun ws => ?_⟩
  have ⟨_, hResponse⟩ := hResponse ws
  have ⟨_, hResponse'⟩ := hResponse' ws
  rw [serve, serve, hResponse, hResponse']
  exact ⟨rfl, rfl⟩

end

section

attribute [local instance] asciiPlatform plainCursors plainBodies

-- Bob asks for the messages of Alice's room.
theorem concealed_read :
    let w : Stamp := ⟨.zero, []⟩
    let s := (perform (.call Board.Sample.create) w (.new 50 100)).2
    s.deleteRoom "lobby" ≠ s ∧
    ∃ response, ∀ ws, serve Sample.read ws s = (.ok response, s) ∧
      serve Sample.read ws (s.deleteRoom "lobby") = (.ok response, s.deleteRoom "lobby") := by
  intro w s
  have hh : History perform (.new 50 100) _ s :=
    .call (Operation.call Board.Sample.create) w .init
  have hSegments : escapedSegments Sample.read.escapedPath =
      some [ofString "v1", "rooms", "lobby", "messages"] := by
    decide
  have hIdentity : authenticate Sample.read = .ok Board.Sample.bob := by decide
  have hMember : s.membership "lobby" Board.Sample.bob.agent = none := by decide
  refine ⟨by decide, concealed hh ?_ ?_⟩
  case refine_1 =>
    intro segments h
    cases hSegments.symm.trans h
    exact ⟨_, rfl⟩
  case refine_2 =>
    intro identity h
    cases hIdentity.symm.trans h
    exact hMember

end
end Http
end Board
