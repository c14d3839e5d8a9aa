import CookbookModel.Board.Types
import CookbookModel.Library.Control

namespace Board.LocalAuthorizer

def authorize (identity : Identity) (action : Action) (snapshot : AuthSnapshot)
    (authContext : AuthContext) : Except Err Unit :=
  match action with
  | .createRoom | .listOwnRooms => pure ()
  | _ => do
    throwIf (action = .updateAllowList ∧ authContext.newRole = .owner) .denied
    throwIf (action = .updateAllowList ∧ authContext.targetAgent ≠ [] ∧
      authContext.targetAgent = snapshot.room.owner) .denied
    throwIf snapshot.room.archived .denied
    if snapshot.room.owner = identity.agent then
      return ()
    else
      match snapshot.membership with
      | none            => throw .denied
      | some membership => throwIf (!roleCan membership.role action) .denied

-- When an agent is authorized.
theorem authorize_iff : authorize identity action snapshot authContext = .ok () ↔
    action = .createRoom ∨ action = .listOwnRooms ∨
    ¬(action = .updateAllowList ∧ authContext.newRole = .owner) ∧
    ¬(action = .updateAllowList ∧ authContext.targetAgent ≠ [] ∧
      authContext.targetAgent = snapshot.room.owner) ∧
    ¬snapshot.room.archived ∧ (snapshot.room.owner = identity.agent ∨
      ∃ m, snapshot.membership = some m ∧ roleCan m.role action) := by
  unfold authorize
  split
  case h_1 => simp [pure, Except.pure]
  case h_2 => simp [pure, Except.pure]
  case h_3 hCreate hList =>
    simp only [Except.bind_eq_ok, Except.throwIf_eq_ok, exists_const, iff_false_intro hCreate,
      iff_false_intro hList, false_or]
    refine and_congr_right fun _ => and_congr_right fun _ => and_congr_right fun _ => ?_
    split
    case isTrue hOwner => simp [hOwner, pure, Except.pure]
    case isFalse hOwner =>
      split
      case h_1 hm   => simp [hOwner, hm, throw, throwThe, MonadExceptOf.throw]
      case h_2 m hm => simp [hOwner, hm, Except.throwIf_eq_ok]

-- An agent that is let into a room owns it or is a member with a suitable role.
theorem authorize_ok (h : authorize identity action snapshot authContext = .ok ())
    (hCreate : action ≠ .createRoom) (hList : action ≠ .listOwnRooms) :
    snapshot.room.archived = false ∧ (snapshot.room.owner = identity.agent ∨
      ∃ m, snapshot.membership = some m ∧ roleCan m.role action) := by
  rcases authorize_iff.mp h with h | h | ⟨_, _, hActive, h⟩
  case inl         => exact absurd h hCreate
  case inr.inl     => exact absurd h hList
  case inr.inr     => exact ⟨by simpa using hActive, h⟩

end Board.LocalAuthorizer
