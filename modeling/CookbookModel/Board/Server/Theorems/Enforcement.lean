import CookbookModel.Board.Server.Theorems.Steps

namespace Board

-- What a call needs a right for: who makes it, the room it is about and the action.
def Call.right : Call → Option (Identity × GoString × Action)
  | .createRoom .. | .getRoomForAgent .. => none
  | .grantAllowlist actor input  => some (actor, input.roomID, .updateAllowList)
  | .revokeAllowlist actor input => some (actor, input.roomID, .updateAllowList)
  | .setNickname actor input     => some (actor, input.roomID, .updateNickname)
  | .postMessage actor input     => some (actor, input.roomID, .postMessage)

-- The version of the room that a call expects.
def Call.expectedRoomVersion : Call → Option Int
  | .grantAllowlist _ input  => some input.expectedRoomVersion
  | .revokeAllowlist _ input => some input.expectedRoomVersion
  | _                        => none

-- The agent is a member of the room with a role that permits the action.
def MemoryStore.Permits (s : MemoryStore) (roomID agent : GoString) (action : Action) : Prop :=
  ∃ m ∈ s.membership roomID agent, roleCan m.role action

instance (s : MemoryStore) (roomID agent : GoString) (action : Action) :
    Decidable (s.Permits roomID agent action) :=
  inferInstanceAs <| Decidable <| ∃ m ∈ s.membership roomID agent, roleCan m.role action

-- The room has the same members with the same roles. They may have changed their nicknames.
def MemoryStore.SameAllowlist (roomID : GoString) (s s' : MemoryStore) : Prop :=
  ∀ agent, Option.Rel Membership.Kept (s.membership roomID agent) (s'.membership roomID agent)

namespace Memory

variable [Platform] {s s' : MemoryStore} {roomID agent : GoString} {r r' : RoomRecord}

theorem Change.permits (h : Change w limit r c reply r')
    (hr : c.right = some (actor, roomID, action)) :
    c.roomID = roomID ∧ ∃ version m, Permitted r actor.agent version action m := by
  cases h <;> try contradiction
  case grantSame hChecks _ _ _ _       => cases hr; exact ⟨rfl, _, hChecks.permits⟩
  case grantNew hChecks _ _ _ _ _      => cases hr; exact ⟨rfl, _, hChecks.permits⟩
  case grantChange hChecks _ _ _ _ _ _ => cases hr; exact ⟨rfl, _, hChecks.permits⟩
  case revoke hChecks _ _              => cases hr; exact ⟨rfl, _, hChecks.permits⟩
  case nicknameSame hActor _ _         => cases hr; exact ⟨rfl, _, _, hActor⟩
  case nicknameChange hActor _ _       => cases hr; exact ⟨rfl, _, _, hActor⟩
  case postReplay hActor _ _ _         => cases hr; exact ⟨rfl, _, _, hActor⟩
  case post hActor _ _                 => cases hr; exact ⟨rfl, _, _, hActor⟩

-- A call that needs a right succeeds only for an agent that has it.
theorem Step.permits (h : Step w s c reply s') (hr : c.right = some (actor, roomID, action)) :
    s.Permits roomID actor.agent action := by
  cases h
  case create => contradiction
  case change key r r' _ hLocated hChange =>
    have ⟨hRoom, _, m, hActor⟩ := hChange.permits hr
    exact ⟨m, (Server.membership_eq_some (hRoom ▸ hLocated)).trans hActor.member, hActor.role⟩

theorem Step.getRoomForAgent_same {roomID agent : GoString}
    (h : Step w s (.getRoomForAgent roomID agent) reply s') : s' = s := by
  cases h
  case change hLocated hChange =>
    cases hChange
    exact hLocated.putRecord

-- A grant or revoke finds the room in the version that it expects.
theorem Change.expected (h : Change w limit r c reply r') (hv : c.expectedRoomVersion = some v) :
    r.room.version = v := by
  cases h <;> try contradiction
  case grantSame hChecks _ _ _ _       => cases hv; exact hChecks.version
  case grantNew hChecks _ _ _ _ _      => cases hv; exact hChecks.version
  case grantChange hChecks _ _ _ _ _ _ => cases hv; exact hChecks.version
  case revoke hChecks _ _              => cases hv; exact hChecks.version

theorem Step.expected (h : Step w s c reply s') (hr : c.right = some (actor, roomID, action))
    (hv : c.expectedRoomVersion = some v) (hLocated : Located s roomID key r) :
    r.room.version = v := by
  cases h
  case create => contradiction
  case change hLocated' hChange =>
    have ⟨hRoom, _⟩ := hChange.permits hr
    have ⟨_, he⟩ := hLocated.unique (hRoom ▸ hLocated')
    exact he ▸ hChange.expected hv

omit [Platform] in
theorem sameMembers (r : RoomRecord) (a : GoString) :
    Option.Rel Membership.Kept r.members[a]? r.members[a]? := by
  cases r.members[a]?
  case none   => exact .none
  case some m => exact .some (.refl m)

omit [Platform] in
theorem sameMembers_trans {x y z : Option Membership} (h : Option.Rel Membership.Kept x y)
    (h' : Option.Rel Membership.Kept y z) : Option.Rel Membership.Kept x z :=
  match h, h' with
  | .none, .none      => .none
  | .some h, .some h' => .some (h.trans h')

-- The allowlist of a room changes only together with the room's version.
theorem Change.allowlist (h : Change w limit r c reply r') :
    r.room.version < r'.room.version ∨ r'.room.version = r.room.version ∧
      ∀ a : GoString, Option.Rel Membership.Kept r.members[a]? r'.members[a]? := by
  cases h
  case grantNew    => exact .inl <| Int.lt_succ _
  case grantChange => exact .inl <| Int.lt_succ _
  case revoke      => exact .inl <| Int.lt_succ _
  case nicknameChange actor _ name nameKey m _ _ hActor _ _ =>
    refine .inr ⟨rfl, fun a => ?_⟩
    rw [RoomRecord.rename, GoMap.get_set]
    split
    case isTrue e =>
      rw [e, hActor.member]
      exact .some ⟨rfl, rfl, rfl, rfl, rfl, Int.le_of_lt <| Int.lt_succ _⟩
    case isFalse => exact sameMembers r a
  all_goals exact .inr ⟨rfl, sameMembers r⟩

-- The call gives the agent a role in the room that permits the action.
def Grants (roomID agent : GoString) (action : Action) (c : Call) : Prop :=
  match c with
  | .grantAllowlist _ input =>
    input.roomID = roomID ∧ canonicalDNSName input.targetAgent = .ok agent ∧
      roleCan input.role action
  | _ => False

-- Only a grant makes a room permit more to an agent.
theorem Change.grants (h : Change w limit r c reply r')
    (hBefore : ∀ m : Membership, r.members[agent]? = some m → ¬roleCan m.role action)
    (hAfter : r'.members[agent]? = some m) (hRole : roleCan m.role action) :
    Grants c.roomID agent action c := by
  cases h
  case grantNew hChecks _ _ _ _ hNew =>
    rw [RoomRecord.grant, GoMap.get_set] at hAfter
    split at hAfter
    case isTrue e =>
      cases hAfter
      exact ⟨rfl, e ▸ hChecks.canon, by rwa [hNew] at hRole⟩
    case isFalse => exact absurd hRole <| hBefore _ hAfter
  case grantChange hChecks _ _ _ _ _ hNew =>
    rw [RoomRecord.grant, GoMap.get_set] at hAfter
    split at hAfter
    case isTrue e =>
      cases hAfter
      exact ⟨rfl, e ▸ hChecks.canon, by rwa [hNew] at hRole⟩
    case isFalse => exact absurd hRole <| hBefore _ hAfter
  case revoke =>
    rw [RoomRecord.revoke, GoMap.get_delete] at hAfter
    split at hAfter
    case isTrue  => contradiction
    case isFalse => exact absurd hRole <| hBefore _ hAfter
  case nicknameChange m₀ _ _ hActor _ _ =>
    rw [RoomRecord.rename, GoMap.get_set] at hAfter
    split at hAfter
    case isTrue e =>
      cases hAfter
      exact absurd hRole <| hBefore m₀ <| e ▸ hActor.member
    case isFalse => exact absurd hRole <| hBefore _ hAfter
  all_goals exact absurd hRole <| hBefore _ hAfter

end Memory

namespace Server

open Memory

section

variable [Platform] {s s' : MemoryStore} {maxRooms maxMembers : Int} {roomID agent : GoString}
  {key : GoString} {r : RoomRecord} {action : Action}

def Request.right : Request → Option (Identity × GoString × Action)
  | .createRoom ..                    => none
  | .postMessage identity roomID ..   => some (identity, roomID, .postMessage)
  | .setNickname identity roomID _    => some (identity, roomID, .updateNickname)
  | .grantAllowlist identity roomID .. => some (identity, roomID, .updateAllowList)
  | .revokeAllowlist identity roomID _ => some (identity, roomID, .updateAllowList)

attribute [local simp]
  emits_validated_bind invoke Program.ofExcept Program.emits_call Program.emits_done_bind
  Program.emits_throwIf_bind

-- A request makes the call that needs its right last, and for the room as its snapshot showed it.
structure Rightful (request : Request) (path : List (Σ o : Op, o.Res)) (c : Call) : Prop where
  right    : c.right = request.right
  snapshot : ∃ actor roomID action snapshot authContext, c.right = some (actor, roomID, action) ∧
    path = [⟨.getRoomForAgent roomID actor.agent, .ok snapshot⟩,
      ⟨.authorize actor action snapshot authContext, .ok ()⟩] ∧
    ∀ v ∈ c.expectedRoomVersion, v = snapshot.room.version

theorem handle_emits_call {request : Request} (h : (handle request).Emits path o)
    (hCall : o.call? = some c) :
    request.right = none ∨ (∃ roomID agent, c = .getRoomForAgent roomID agent) ∨
      Rightful request path c := by
  cases request <;> simp only [handle, Program.emits_bind_pure] at h
  case createRoom => exact .inl rfl
  case postMessage =>
    simp [postMessage] at h
    obtain ⟨_, _, _, _, _, _, _, _, ⟨_, rfl⟩ | ⟨_, snapshot, rfl, ⟨_, rfl⟩ | ⟨⟨_, rfl⟩, rfl⟩⟩⟩ := h <;>
      cases hCall
    case inl => exact .inr <| .inl ⟨_, _, rfl⟩
    case inr =>
      exact .inr <| .inr ⟨rfl, _, _, _, snapshot, _, rfl, rfl, by simp [Call.expectedRoomVersion]⟩
  case setNickname =>
    simp [setNickname] at h
    obtain ⟨_, _, ⟨_, rfl⟩ | ⟨_, snapshot, rfl, ⟨_, rfl⟩ | ⟨⟨_, rfl⟩, rfl⟩⟩⟩ := h <;> cases hCall
    case inl => exact .inr <| .inl ⟨_, _, rfl⟩
    case inr =>
      exact .inr <| .inr ⟨rfl, _, _, _, snapshot, _, rfl, rfl, by simp [Call.expectedRoomVersion]⟩
  case grantAllowlist =>
    simp [grantAllowlist] at h
    obtain ⟨_, _, _, _, _, _, ⟨_, rfl⟩ | ⟨_, snapshot, rfl, ⟨_, rfl⟩ | ⟨⟨_, rfl⟩, rfl⟩⟩⟩ := h <;>
      cases hCall
    case inl => exact .inr <| .inl ⟨_, _, rfl⟩
    case inr =>
      exact .inr <| .inr ⟨rfl, _, _, _, snapshot, _, rfl, rfl, by simp [Call.expectedRoomVersion]⟩
  case revokeAllowlist =>
    simp [revokeAllowlist] at h
    obtain ⟨_, _, ⟨_, rfl⟩ | ⟨_, snapshot, rfl, ⟨_, rfl⟩ | ⟨⟨_, rfl⟩, rfl⟩⟩⟩ := h <;> cases hCall
    case inl => exact .inr <| .inl ⟨_, _, rfl⟩
    case inr =>
      exact .inr <| .inr ⟨rfl, _, _, _, snapshot, _, rfl, rfl, by simp [Call.expectedRoomVersion]⟩

-- A step that changes the store makes a call that succeeds.
theorem exec_changes {o : Op} (h : (exec o w s).2 ≠ s) :
    ∃ c reply, o.call? = some c ∧ Step w s c reply (exec o w s).2 := by
  cases exec_cases o w s
  case inl he => exact absurd he h
  case inr hs =>
    have ⟨_, c, reply, _, hCall, _, he, hStep⟩ := hs
    exact ⟨c, reply, hCall, he ▸ hStep⟩

-- What a step that changes the store under a right of its request has done and seen.
theorem event_right {e : (system maxRooms maxMembers).Event}
    (h : (system maxRooms maxMembers).Run tr C) (he : tr = tr₁ ++ e :: tr₂)
    (hRight : e.call.right = some (actor, roomID, action)) (hChange : e.post ≠ e.store) :
    ∃ c reply, Step e.outcome e.store c reply e.post ∧
      Rightful e.call (System.path e.thread tr₁) c := by
  have ⟨c, reply, hCall, hStep⟩ := exec_changes hChange
  rcases handle_emits_call (h.event_emits he) hCall with hn | ⟨_, _, rfl⟩ | hRightful
  case inl     => simp [hRight] at hn
  case inr.inl => exact absurd hStep.getRoomForAgent_same hChange
  case inr.inr => exact ⟨c, reply, hStep, hRightful⟩

section OnStore

variable {O Ω Req ε α : Type} {R : O → Type} {S : System O R ε α MemoryStore Ω Req}
  {call? : O → Option Call}

theorem OnStore.allowlist (hS : OnStore S call?) (h : S.Steps s es s') (hs : Invariant s)
    (hLocated : Located s roomID key r) :
    ∃ r', Located s' roomID key r' ∧ (r.room.version < r'.room.version ∨
      r'.room.version = r.room.version ∧
        ∀ a : GoString, Option.Rel Membership.Kept r.members[a]? r'.members[a]?) := by
  induction h generalizing r
  case nil => exact ⟨r, hLocated, .inr ⟨rfl, sameMembers r⟩⟩
  case cons es s' e h hi =>
    have ⟨r₁, hLocated₁, h₁⟩ := hS.record hs hLocated e.op e.outcome
    have ⟨r₂, hLocated₂, h₂⟩ := hi (hS.exec hs e.op e.outcome) hLocated₁
    refine ⟨r₂, hLocated₂, ?_⟩
    have h₁ : r.room.version < r₁.room.version ∨ r₁.room.version = r.room.version ∧
        ∀ a : GoString, Option.Rel Membership.Kept r.members[a]? r₁.members[a]? := by
      rcases h₁ with rfl | ⟨_, _, _, _, _, _, hc⟩
      case inl => exact .inr ⟨rfl, sameMembers r₁⟩
      case inr => exact hc.allowlist
    rcases h₁ with h₁ | ⟨hv₁, hm₁⟩ <;> rcases h₂ with h₂ | ⟨hv₂, hm₂⟩
    · exact .inl <| h₁.trans h₂
    · exact .inl <| hv₂ ▸ h₁
    · exact .inl <| hv₁ ▸ h₂
    · exact .inr ⟨hv₂.trans hv₁, fun a => sameMembers_trans (hm₁ a) (hm₂ a)⟩

-- The step has given the agent a role in the room that permits the action.
def Granted (call? : O → Option Call) (roomID agent : GoString) (action : Action) (e : S.Event) :
    Prop :=
  e.post ≠ e.store ∧ ∃ c, call? e.op = some c ∧ Grants roomID agent action c

theorem OnStore.granted (hS : OnStore S call?) (h : S.Steps s es s') (hs : Invariant s)
    (hLocated : Located s roomID key r) (hBefore : ¬s.Permits roomID agent action)
    (hAfter : s'.Permits roomID agent action) :
    ∃ e ∈ es, Granted call? roomID agent action e := by
  induction h generalizing r
  case nil => exact absurd hAfter hBefore
  case cons es s' e h hi =>
    have ⟨r₁, hLocated₁, h₁⟩ := hS.record hs hLocated e.op e.outcome
    by_cases hNext : e.post.Permits roomID agent action
    case neg =>
      have ⟨e', he', hg⟩ := hi (hS.exec hs e.op e.outcome) hLocated₁ hNext hAfter
      exact ⟨e', List.mem_cons_of_mem _ he', hg⟩
    case pos =>
      refine ⟨e, List.mem_cons_self, fun he => hBefore (he ▸ hNext), ?_⟩
      have ⟨m, hm, hRole⟩ := hNext
      have hm := (membership_eq_some hLocated₁).symm.trans hm
      have hBefore : ∀ m : Membership, r.members[agent]? = some m → ¬roleCan m.role action :=
        fun m hm hr => hBefore ⟨m, (membership_eq_some hLocated).trans hm, hr⟩
      rcases h₁ with rfl | ⟨_, c, _, _, hCall, hID, hc⟩
      case inl => exact absurd hRole (hBefore m hm)
      case inr => exact ⟨c, hCall, hID ▸ hc.grants hBefore hm hRole⟩

-- Who has lost a right and has it again later has been granted it in between.
theorem OnStore.regained {e₁ e₂ : S.Event} (hS : OnStore S call?) (h : S.Run tr C)
    (he : tr = tr₁ ++ e₁ :: tr₂ ++ e₂ :: tr₃) (hHad : e₁.store.Permits roomID agent action)
    (hLost : ¬e₁.post.Permits roomID agent action) (hHas : e₂.store.Permits roomID agent action) :
    ∃ e ∈ tr₂, Granted call? roomID agent action e := by
  have hs₁ := hS.event h (e := e₁) (by simp [he])
  have ⟨_, hSteps⟩ := (h.steps_between he).of_cons
  have ⟨m, hm, _⟩ := hHad
  have ⟨key, r, hLocated, _⟩ := located_of_membership hm
  have ⟨r', hLocated', _⟩ := hS.record hs₁ hLocated e₁.op e₁.outcome
  exact hS.granted hSteps (hS.exec hs₁ e₁.op e₁.outcome) hLocated' hLost hHas

end OnStore

-- What holds of all requests of a run: they take effect for members that have the right at that
-- moment, grants and revokes act on the allowlist that their snapshots have shown, and who has lost
-- a right has to be granted it again.
structure Enforced (tr : List (system maxRooms maxMembers).Event) : Prop where
  permitted : ∀ e ∈ tr, ∀ {actor roomID action}, e.call.right = some (actor, roomID, action) →
    e.post ≠ e.store → e.store.Permits roomID actor.agent action
  current   : ∀ {tr₁ e tr₂}, tr = tr₁ ++ e :: tr₂ → ∀ {actor roomID},
    e.call.right = some (actor, roomID, .updateAllowList) → e.post ≠ e.store →
    ∃ e₁ ∈ tr₁, e₁.thread = e.thread ∧ e₁.op = .getRoomForAgent roomID actor.agent ∧
      MemoryStore.SameAllowlist roomID e₁.store e.store
  regained  : ∀ {tr₁ e₁ tr₂ e₂ tr₃}, tr = tr₁ ++ e₁ :: tr₂ ++ e₂ :: tr₃ →
    ∀ {actor roomID action}, e₁.store.Permits roomID actor.agent action →
    ¬e₁.post.Permits roomID actor.agent action →
    e₂.call.right = some (actor, roomID, action) → e₂.post ≠ e₂.store →
    ∃ e ∈ tr₂, Granted Op.call? roomID actor.agent action e

theorem event_permitted {e : (system maxRooms maxMembers).Event}
    (h : (system maxRooms maxMembers).Run tr C) (he : tr = tr₁ ++ e :: tr₂)
    (hRight : e.call.right = some (actor, roomID, action)) (hChange : e.post ≠ e.store) :
    e.store.Permits roomID actor.agent action := by
  have ⟨c, reply, hStep, hRightful⟩ := event_right h he hRight hChange
  exact hStep.permits <| hRightful.right.trans hRight

omit [Platform] in
theorem expectedRoomVersion_of_right {c : Call}
    (h : c.right = some (actor, roomID, .updateAllowList)) : ∃ v, c.expectedRoomVersion = some v := by
  cases c <;> simp_all [Call.right, Call.expectedRoomVersion]

theorem snapshot_located
    (h : exec (.getRoomForAgent roomID agent) w s = (.ok snapshot, s')) :
    ∃ key r, Located s roomID key r ∧ snapshot = ⟨r.room, r.members[agent]?⟩ := by
  have hStep := getRoomForAgent_step (w := w) <| atomically_ok.mp h
  cases hStep
  case change hLocated hChange =>
    cases hChange
    exact ⟨_, _, hLocated, rfl⟩

theorem event_current {e : (system maxRooms maxMembers).Event}
    (h : (system maxRooms maxMembers).Run tr C) (he : tr = tr₁ ++ e :: tr₂)
    (hRight : e.call.right = some (actor, roomID, .updateAllowList)) (hChange : e.post ≠ e.store) :
    ∃ e₁ ∈ tr₁, e₁.thread = e.thread ∧ e₁.op = .getRoomForAgent roomID actor.agent ∧
      MemoryStore.SameAllowlist roomID e₁.store e.store := by
  have ⟨c, reply, hStep, hRightful⟩ := event_right h he hRight hChange
  have hRight' := hRightful.right.trans hRight
  obtain ⟨_, _, _, snapshot, _, hSnapshot, hPath, hVersion⟩ := hRightful.snapshot
  cases hSnapshot.symm.trans hRight'
  -- The room is in the version of the snapshot.
  have ⟨e₁, he₁, hThread, hOp⟩ := System.mem_path (hPath ▸ List.mem_cons_self)
  obtain ⟨_, c₁, o₁, w₁, s₁⟩ := e₁
  have ⟨hOp, hRes⟩ := Sigma.mk.inj hOp
  subst hOp
  have hs₁ := event_invariant h (he ▸ List.mem_append_left _ he₁)
  have ⟨key, r₁, hLocated₁, hShown⟩ := snapshot_located (w := w₁) <| Prod.ext (eq_of_heq hRes) rfl
  refine ⟨_, he₁, hThread, rfl, ?_⟩
  have ⟨tr₃, tr₄, hTr⟩ := List.mem_iff_append.mp he₁
  have ⟨r₂, hLocated₂, hSince⟩ :=
    onStore.allowlist (h.steps_between (hTr ▸ he)) hs₁ hLocated₁
  have ⟨v, hv⟩ := expectedRoomVersion_of_right hRight'
  have hv₂ := hStep.expected hRight' hv hLocated₂
  have hv₁ : v = r₁.room.version := (hVersion v hv).trans (hShown ▸ rfl)
  rcases hSince with hLater | ⟨_, hSame⟩
  case inl => omega
  case inr =>
    intro a
    change Option.Rel _ (s₁.membership roomID a) (e.store.membership roomID a)
    rw [membership_eq_some hLocated₁, membership_eq_some hLocated₂]
    exact hSame a

-- However requests interleave, rights are checked when they are used.
theorem enforced_at_commit (h : (system maxRooms maxMembers).Run tr C) : Enforced tr where
  permitted e he _ _ _ hRight hChange := by
    have ⟨tr₁, tr₂, he⟩ := List.mem_iff_append.mp he
    exact event_permitted h he hRight hChange
  current he _ _ hRight hChange := event_current h he hRight hChange
  regained he _ _ _ hHad hLost hRight hChange :=
    onStore.regained h he hHad hLost <| event_permitted h he hRight hChange

end

section

attribute [local instance] asciiPlatform

-- Bob's post is authorized before he is revoked, and it comes to the store when he is let in again
-- to read only. A later post finds him as a poster.
def staleRight : List (System.Action Stamp Request) :=
  moves 0 (.createRoom Sample.alice (.ok ⟨"lobby", [], []⟩)) 2 ++
  moves 1 (.grantAllowlist Sample.alice "lobby" "bob.example" (.ok "poster")) 3 ++
  moves 2 post 2 ++
  moves 3 (.revokeAllowlist Sample.alice "lobby" "bob.example") 3 ++
  moves 4 (.grantAllowlist Sample.alice "lobby" "bob.example" (.ok "reader")) 3 ++
  [.step 2 ⟨.zero, []⟩] ++
  moves 5 (.grantAllowlist Sample.alice "lobby" "bob.example" (.ok "poster")) 3 ++
  moves 6 post 3

theorem enforced_at_commit_post : ∃ tr C, (system 50 100).Run tr C ∧
    (∃ e ∈ tr, e.thread = 6 ∧ e.post ≠ e.store) ∧ C.returned 2 = some (.error .denied) ∧
    Enforced tr := by
  have h : ((system 50 100).replay [] ⟨(system 50 100).init, []⟩ staleRight).any fun x =>
      (∃ e ∈ x.1, e.thread = 6 ∧ e.post ≠ e.store) ∧
      (x.2.returned 2).any fun r => r matches .error .denied := by
    decide
  have ⟨⟨tr, C⟩, hr, h⟩ := (Option.any_eq_true _ _).mp h
  have ⟨hPosted, hDenied⟩ := of_decide_eq_true h
  have hRun := System.replay_run .init hr
  have ⟨r, hReturned, hDenied⟩ := (Option.any_eq_true _ _).mp hDenied
  have hDenied : r = .error .denied := by
    split at hDenied
    case h_1 => rfl
    case h_2 => cases hDenied
  exact ⟨tr, C, hRun, hPosted, hDenied ▸ hReturned, enforced_at_commit hRun⟩

end
end Server
end Board
