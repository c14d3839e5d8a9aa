import CookbookModel.Board.Memory.Theorems.Membership

namespace Board

-- A revoke that is told to act on this agent, in whatever spelling.
def Call.Revokes [Platform] (c : Call) (agent : GoString) : Prop :=
  match c with
  | .revokeAllowlist _ input => canonicalDNSName input.targetAgent = .ok agent
  | _                        => False

namespace Memory

variable [Platform] {s s' : MemoryStore} {key roomID agent : GoString} {m : Membership}

-- Membership versions start at 1 and do not decrease.
theorem Change.versions {r r' : RoomRecord} (hc : Change w limit r c reply r')
    (hr : ∀ {a : GoString} {m : Membership}, r.members[a]? = some m → 1 ≤ m.version) :
    ∀ {a : GoString} {m : Membership}, r'.members[a]? = some m → 1 ≤ m.version := by
  intro a m hm
  cases hc
  case grantNew hChecks hCapabilities hRole hAbsent hLimit hNew =>
    rw [RoomRecord.grant, GoMap.get_set] at hm
    split at hm
    case isTrue  => cases hm; exact hNew ▸ le_refl (1 : Int)
    case isFalse => exact hr hm
  case grantChange hChecks hCapabilities hRole hMember hChange hNotOwner hNew =>
    rw [RoomRecord.grant, GoMap.get_set] at hm
    split at hm
    case isTrue =>
      cases hm
      subst hNew
      exact (hr hMember).trans <| Int.le_add_one (le_refl _)
    case isFalse => exact hr hm
  case revoke hChecks hMember hNotOwner =>
    rw [RoomRecord.revoke, GoMap.get_delete] at hm
    split at hm
    case isTrue  => contradiction
    case isFalse => exact hr hm
  case nicknameChange hNickname hActive hActor hFree hChange =>
    rw [RoomRecord.rename, GoMap.get_set] at hm
    split at hm
    case isTrue  => cases hm; exact (hr hActor.member).trans <| Int.le_add_one (le_refl _)
    case isFalse => exact hr hm
  all_goals exact hr hm

omit [Platform] in
theorem versions_create {room : Room} {owner m : Membership} (hOwner : owner.version = 1)
    (hm : (RoomRecord.create room owner tokenJTIHash now).members[(a : GoString)]? = some m) :
    1 ≤ m.version := by
  rw [RoomRecord.create, GoMap.get_set] at hm
  split at hm
  case isTrue  => cases hm; exact hOwner ▸ le_refl (1 : Int)
  case isFalse => simp at hm

-- Unless a member is revoked, its membership changes only together with its version.
theorem Change.evolves {r r' : RoomRecord} (hc : Change w limit r c reply r')
    (hn : ¬c.Revokes agent) (hm : r.members[agent]? = some m) :
    ∃ m' : Membership, r'.members[agent]? = some m' ∧ (m' = m ∨ m.version < m'.version) := by
  cases hc
  case grantNew hChecks hCapabilities hRole hAbsent hLimit hNew =>
    refine ⟨m, (GoMap.get_set_ne fun e => ?_).trans hm, .inl rfl⟩
    simp [←e, hm] at hAbsent
  case grantChange hChecks hCapabilities hRole hMember hChange hNotOwner hNew =>
    rw [RoomRecord.grant, GoMap.get_set]
    split
    case isTrue e =>
      subst e hNew
      cases hMember.symm.trans hm
      exact ⟨_, rfl, .inr <| Int.lt_add_one_of_le (le_refl _)⟩
    case isFalse => exact ⟨m, hm, .inl rfl⟩
  case revoke hChecks hMember hNotOwner =>
    refine ⟨m, (GoMap.get_delete_ne fun e => hn ?_).trans hm, .inl rfl⟩
    exact e ▸ hChecks.canon
  case nicknameChange hNickname hActive hActor hFree hChange =>
    rw [RoomRecord.rename, GoMap.get_set]
    split
    case isTrue e =>
      subst e
      cases hActor.member.symm.trans hm
      exact ⟨_, rfl, .inr <| Int.lt_add_one_of_le (le_refl _)⟩
    case isFalse => exact ⟨m, hm, .inl rfl⟩
  all_goals exact ⟨m, hm, .inl rfl⟩

theorem Located.step {r : RoomRecord} (hLocated : Located s roomID key r)
    (h : Step w s c reply s') (hs : s.Sound) :
    ∃ r', Located s' roomID key r' ∧
      (r' = r ∨ c.roomID = roomID ∧ Change w s.maxMembersPerRoom r c reply r') := by
  have ⟨r', hr', hc⟩ := h.record hLocated.byKey hs.rooms_fresh
  have hID : s'.roomKeys[roomID]? = some key := by
    cases h
    case create hValid hFresh _ _ _ =>
      refine (GoMap.get_set_ne fun e => ?_).trans hLocated.byID
      rw [←e, hLocated.byID] at hFresh
      contradiction
    case change => exact hLocated.byID
  refine ⟨r', ⟨hID, hr'⟩, hc.imp id fun ⟨hl, hc⟩ => ⟨?_, hc⟩⟩
  have ⟨r₁, hr₁, hID₁⟩ := hs.roomKeys hl.byID
  have ⟨r₂, hr₂, hID₂⟩ := hs.roomKeys hLocated.byID
  rw [←hID₁, ←hID₂]
  cases hr₁.symm.trans hr₂
  rfl

end Memory
end Board
