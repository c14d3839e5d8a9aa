import CookbookModel.Board.Memory.Theorems.Operations

namespace Board

open GoString

-- What an audit record says about the roles of a room's members.
def AuditRecord.apply (a : AuditRecord) (roles : GoMap GoString Role) : GoMap GoString Role :=
  if a.eventType = "room_created" then roles.set a.actor .owner
  else if a.eventType = "allowlist_granted" then roles.set a.targetAgent a.role
  else if a.eventType = "allowlist_revoked" then roles.delete a.targetAgent
  else roles

def AuditRecord.updatesAllowlist (a : AuditRecord) : Bool :=
  a.eventType = "allowlist_granted" || a.eventType = "allowlist_revoked"

namespace RoomRecord

variable {r r' : RoomRecord} {m : Membership}

def replay (audits : List AuditRecord) : GoMap GoString Role :=
  audits.foldl (fun roles a => a.apply roles) ∅

def role (r : RoomRecord) (agent : GoString) : Option Role :=
  r.members[agent]?.map (·.role)

-- The audit records of a room tell the roles of its members and the room's version.
structure Audited (r : RoomRecord) : Prop where
  roles   : ∀ a : GoString, (replay r.audits)[a]? = r.role a
  version : r.room.version = 1 + (r.audits.countP (·.updatesAllowlist) : Int)

namespace Audited

theorem replay_append {audits : List AuditRecord} {a : AuditRecord} :
    replay (audits ++ [a]) = a.apply (replay audits) :=
  List.foldl_append

theorem create {room : Room} (hRole : m.role = .owner) (hVersion : room.version = 1) :
    (RoomRecord.create room m tokenJTIHash now).Audited where
  roles a := by
    simp only [role, RoomRecord.create, replay, List.foldl_cons, List.foldl_nil, AuditRecord.apply,
      if_true, GoMap.get_set]
    split
    case isTrue  => simp [hRole]
    case isFalse => simp
  version := by simp [RoomRecord.create, hVersion, AuditRecord.updatesAllowlist]

theorem grant (h : r.Audited) : (r.grant actor target m created tokenJTIHash now).Audited where
  roles a := by
    simp only [role, RoomRecord.grant, replay_append, AuditRecord.apply, ofString_inj,
      String.reduceEq, if_false, if_true, GoMap.get_set, h.roles a]
    split <;> rfl
  version := by
    simp [RoomRecord.grant, h.version, AuditRecord.updatesAllowlist]
    omega

theorem revoke (h : r.Audited) : (r.revoke actor target m tokenJTIHash now).Audited where
  roles a := by
    simp only [role, RoomRecord.revoke, replay_append, AuditRecord.apply, ofString_inj,
      String.reduceEq, if_false, if_true, GoMap.get_delete, h.roles a]
    split <;> rfl
  version := by
    simp [RoomRecord.revoke, h.version, AuditRecord.updatesAllowlist]
    omega

theorem rename {name nameKey : GoString} (h : r.Audited) (hMember : r.members[actor]? = some m) :
    (r.rename actor m name nameKey now).Audited where
  roles a := by
    simp only [role, RoomRecord.rename, h.roles a, GoMap.get_set]
    split
    case isTrue e => simp [e, hMember, renamedMember]
    case isFalse  => rfl
  version := h.version

end Audited
end RoomRecord

namespace Memory

section

variable [CursorJson] [Platform] {s s' : MemoryStore} {maxRooms maxMembers : Int}
  {r r' : RoomRecord}

omit [CursorJson] in
theorem Change.audited (h : Change w limit r c reply r') (hr : r.Audited) : r'.Audited := by
  cases h
  case grantNew    => exact hr.grant
  case grantChange => exact hr.grant
  case revoke      => exact hr.revoke
  case nicknameChange hActor _ _ => exact hr.rename hActor.member
  case post => exact ⟨hr.roles, hr.version⟩
  all_goals exact hr

omit [CursorJson] in
-- Only changes of the allowlist are recorded.
theorem Change.unrecorded (h : Change w limit r c reply r') (hr : ∀ a, r'.role a = r.role a) :
    r'.audits = r.audits := by
  cases h
  case grantNew target _ _ _ _ _ hAbsent _ _ =>
    have := hr target
    simp [RoomRecord.role, RoomRecord.grant, hAbsent] at this
  case grantChange target _ m m' _ _ _ hMember hChange _ hNew =>
    have := hr target
    simp only [RoomRecord.role, RoomRecord.grant, GoMap.get_set_self, hMember, Option.map_some,
      Option.some.injEq, hNew] at this
    exact absurd this.symm hChange
  case revoke target m _ hMember _ =>
    have := hr target
    simp [RoomRecord.role, RoomRecord.revoke, hMember] at this
  all_goals rfl

theorem perform_sound (hs : s.Sound) : (perform o w s).2.Sound := by
  cases perform_cases o w s
  case inl h => exact h.symm ▸ hs
  case inr h =>
    have ⟨_, _, _, _, h, hStep⟩ := h
    exact h ▸ hStep.sound hs

theorem performed_sound (hh : History perform (.new maxRooms maxMembers) h s) : s.Sound :=
  performed .new (fun hs h => h.sound hs) hh

theorem performed_audited (hh : History perform (.new maxRooms maxMembers) h s) :
    ∀ {key : GoString} {r : RoomRecord}, s.rooms[key]? = some r → r.Audited :=
  performed (P := fun s => ∀ {key : GoString} {r : RoomRecord}, s.rooms[key]? = some r → r.Audited)
    (fun hr => by simp [MemoryStore.new] at hr)
    (fun hs h => h.forall_rooms hs (fun _ => .create rfl rfl) fun hr hc => hc.audited hr) hh

-- The audit records of every room tell who is on its allowlist, in every state that is reached. An
-- operation that fails or leaves the allowlist as it is adds no record.
theorem audit_trail (hh : History perform (.new maxRooms maxMembers) h s) :
    (∀ (key : GoString) (r : RoomRecord), s.rooms[key]? = some r → r.Audited) ∧
    ∀ (o : Operation) (w : Stamp),
      ((perform o w s).1.isOk = false → (perform o w s).2 = s) ∧
      ∀ (key : GoString) (r : RoomRecord), s.rooms[key]? = some r →
        ∃ r' : RoomRecord, (perform o w s).2.rooms[key]? = some r' ∧
          ((∀ a, r'.role a = r.role a) → r'.audits = r.audits) := by
  refine ⟨fun _ _ => performed_audited hh, fun o w => ?_⟩
  cases perform_cases o w s
  case inl h => exact ⟨fun _ => h, fun key r hr => ⟨r, h.symm ▸ hr, fun _ => rfl⟩⟩
  case inr h =>
    have ⟨c, reply, s', _, h, hStep⟩ := h
    rw [h]
    refine ⟨fun hOk => by simp [Except.isOk, Except.toBool] at hOk, fun key r hr => ?_⟩
    have ⟨r', hr', hc⟩ := hStep.record hr (performed_sound hh).rooms_fresh
    refine ⟨r', hr', fun hSame => ?_⟩
    rcases hc with rfl | ⟨_, hc⟩
    case inl => rfl
    case inr => exact hc.unrecorded hSame

end

section

attribute [local instance] asciiPlatform plainCursors

theorem audit_trail_revoke :
    let w : Stamp := ⟨.zero, []⟩
    let s := (perform (.call Sample.create) w (.new 50 100)).2
    let s' := (perform (.call (Sample.grant .poster 1)) w s).2
    let s'' := (perform (.call (Sample.revoke 2)) w s').2
    ∃ r : RoomRecord, s''.rooms[Base64.encode "lobby"]? = some r ∧ r.audits.length = 3 ∧
      r.Audited := by
  intro w s s' s''
  have hh : History perform (.new 50 100) _ s'' :=
    .call (Operation.call (Sample.revoke 2)) w <|
    .call (Operation.call (Sample.grant .poster 1)) w <|
    .call (Operation.call Sample.create) w .init
  have hr : s''.rooms[Base64.encode "lobby"]?.any fun (r : RoomRecord) => r.audits.length = 3 := by
    decide
  have ⟨r, hr, hLength⟩ := (Option.any_eq_true _ _).mp hr
  exact ⟨r, hr, of_decide_eq_true hLength, (audit_trail hh).left _ r hr⟩

end
end Memory
end Board
