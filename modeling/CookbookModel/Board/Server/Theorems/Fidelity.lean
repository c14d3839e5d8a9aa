import CookbookModel.Board.Server.Theorems.Steps

namespace Board

open GoString

namespace Server

open Memory

section

variable [Platform] {s s' : MemoryStore} {maxRooms maxMembers : Int} {roomID agent : GoString}
  {m : Membership}

-- The message that a step of a request has added to its room.
def committed : (o : Op) → o.Res → Option Message
  | .postMessage .., .ok result => if result.idempotentReplay then none else some result.message
  | _, _                        => none

-- The step has revoked the agent's membership of the room.
def Revokes (roomID agent : GoString) : (o : Op) → o.Res → Prop
  | .revokeAllowlist _ input, .ok _ =>
    input.roomID = roomID ∧ canonicalDNSName input.targetAgent = .ok agent
  | _, _ => False

-- A message that the step has added carries its author's nickname.
def Faithful (e : (system maxRooms maxMembers).Event) : Prop :=
  ∀ msg ∈ committed e.op e.response,
    (e.store.membership msg.roomID msg.author).map (·.nickname) = some msg.authorNickname

instance (e : (system maxRooms maxMembers).Event) : Decidable (Faithful e) :=
  inferInstanceAs <| Decidable <| ∀ msg ∈ committed e.op e.response,
    (e.store.membership msg.roomID msg.author).map (·.nickname) = some msg.authorNickname

-- No request that adds a message has seen a revoke of its author since its first step.
def Undisturbed (tr : List (system maxRooms maxMembers).Event) : Prop :=
  ∀ tr₁ e₁ tr₂ e₂ tr₃, tr = tr₁ ++ e₁ :: tr₂ ++ e₂ :: tr₃ → e₁.thread = e₂.thread →
    ∀ msg ∈ committed e₂.op e₂.response, ∀ e ∈ tr₂, ¬Revokes msg.roomID msg.author e.op e.response

theorem exec_evolves (hs : Invariant s) (hm : s.membership roomID agent = some m) (o : Op)
    (w : Stamp) (hn : ¬Revokes roomID agent o (exec o w s).1) :
    ∃ m', (exec o w s).2.membership roomID agent = some m' ∧
      (m' = m ∨ m.version < m'.version) := by
  cases exec_cases o w s
  case inl he =>
    rw [he]
    exact ⟨m, hm, .inl rfl⟩
  case inr h =>
    have ⟨v, c, reply, s', hCall, hReply, he, hStep⟩ := h
    have ⟨key, r, hLocated, hMember⟩ := located_of_membership hm
    have ⟨r', hLocated', hc⟩ := hLocated.step hStep hs.sound
    rw [he] at hn ⊢
    rw [membership_eq_some hLocated']
    cases hc
    case inl he => exact he ▸ ⟨m, hMember, .inl rfl⟩
    case inr hc =>
      refine hc.right.evolves (fun hr => hn ?_) hMember
      cases o <;> cases hCall <;> try contradiction
      case revokeAllowlist => exact ⟨hc.left, hr⟩

-- Along steps that do not revoke a member, its membership changes only with its version.
theorem steps_evolve (h : (system maxRooms maxMembers).Steps s es s') (hs : Invariant s)
    (hm : s.membership roomID agent = some m)
    (hn : ∀ e ∈ es, ¬Revokes roomID agent e.op e.response) :
    ∃ m', s'.membership roomID agent = some m' ∧ (m' = m ∨ m.version < m'.version) := by
  induction h generalizing m
  case nil => exact ⟨m, hm, .inl rfl⟩
  case cons es s' e h hi =>
    have ⟨m₁, hm₁, h₁⟩ := exec_evolves hs hm e.op e.outcome (hn e List.mem_cons_self)
    have ⟨m₂, hm₂, h₂⟩ := hi (hs.exec e.op e.outcome) hm₁ fun e' he' =>
      hn e' (List.mem_cons_of_mem _ he')
    refine ⟨m₂, hm₂, ?_⟩
    rcases h₁ with rfl | h₁ <;> rcases h₂ with rfl | h₂
    · exact .inl rfl
    · exact .inr h₂
    · exact .inr h₁
    · exact .inr <| h₁.trans h₂

-- A post is made with the nickname and the version of the snapshot that its request has taken.
theorem handle_emits_post {request : Request}
    (h : (handle request).Emits path (.postMessage actor input)) :
    ∃ snapshot, path = [⟨.getRoomForAgent input.roomID actor.agent, .ok snapshot⟩,
        ⟨.authorize actor .postMessage snapshot {}, .ok ()⟩] ∧
      input.authorNickname = authorNickname snapshot ∧
      input.actorMemberVersion = actorVersion snapshot := by
  cases request <;> simp only [handle, Program.emits_bind_pure] at h
  case postMessage =>
    simp only [postMessage, emits_validated_bind, invoke, Program.ofExcept, Program.call_bind,
      Program.emits_call, Program.emits_done_bind, Program.emits_throwIf_bind, Program.emits_done,
      reduceCtorEq, and_false, false_or, exists_false, or_false] at h
    obtain ⟨_, raw, _, _, _, _, _, _, _, _, rfl, snapshot, rfl, _, _, rfl, ⟨⟩, rfl, rfl, he⟩ := h
    cases he
    exact ⟨snapshot, rfl, rfl, rfl⟩
  all_goals
    simp [createRoom, setNickname, grantAllowlist, revokeAllowlist, emits_validated_bind, invoke,
      Program.ofExcept, Program.emits_call, Program.emits_done_bind] at h

-- What a snapshot of an authorized post says about the store it was taken from.
theorem snapshot_membership (hs : Invariant s) {roomID agent : GoString}
    (h : exec (.getRoomForAgent roomID agent) w s = (.ok snapshot, s'))
    (ha : LocalAuthorizer.authorize identity .postMessage snapshot {} = .ok ())
    (hAgent : identity.agent = agent) :
    ∃ m, snapshot.membership = some m ∧ s.membership roomID agent = some m ∧ 1 ≤ m.version := by
  have hStep := getRoomForAgent_step (w := w) <| atomically_ok.mp h
  cases hStep
  case change key r r' hValid hLocated hChange =>
    cases hChange
    have hMember : ∃ m : Membership, r.members[agent]? = some m := by
      cases (LocalAuthorizer.authorize_ok ha (by simp) (by simp)).right
      case inl hOwner =>
        have ⟨m, hm, _⟩ := (hs.sound.records hLocated.byKey).owner
        exact ⟨m, hAgent ▸ hOwner ▸ hm⟩
      case inr hm =>
        have ⟨m, hm, _⟩ := hm
        exact ⟨m, hm⟩
    have ⟨m, hm⟩ := hMember
    exact ⟨m, hm, (membership_eq_some hLocated).trans hm, hs.versions hLocated.byKey hm⟩

-- A message is added for a member of the room whose version is the expected one.
theorem committed_ok {o : Op} (hs : Invariant s) (h : msg ∈ committed o (exec o w s).1) :
    ∃ actor input m, o = .postMessage actor input ∧ msg.roomID = input.roomID ∧
      msg.author = actor.agent ∧ msg.authorNickname = input.authorNickname ∧
      s.membership input.roomID actor.agent = some m ∧
      (input.actorMemberVersion = 0 ∨ m.version = input.actorMemberVersion) := by
  unfold committed at h
  split at h <;> try contradiction
  case h_1 actor input result hr =>
    split at h <;> cases h
    case isFalse hn =>
      have ⟨s', he⟩ : ∃ s', exec (.postMessage actor input) w s = (.ok result, s') :=
        ⟨_, Prod.ext hr rfl⟩
      have hStep := postMessage_step (w := w) <| atomically_ok.mp he
      cases hStep
      case change key r r' hValid hLocated hChange =>
        have ⟨r₁, hr₁, hID⟩ := hs.sound.roomKeys hLocated.byID
        cases hr₁.symm.trans hLocated.byKey
        have hMember {a : GoString} : s.membership _ a = r.members[a]? := membership_eq_some hLocated
        cases hChange
        case postReplay => simp at hn
        case post m _ _ _ hActor _ hNew =>
          subst hNew
          exact ⟨actor, input, m, rfl, hID, rfl, rfl, hMember.trans hActor.member, hActor.version⟩

theorem event_faithful (h : (system maxRooms maxMembers).Run tr C) (hu : Undisturbed tr)
    (he : tr = tr₁ ++ e :: tr₂) : Faithful e := by
  intro msg hmsg
  have hs := event_invariant h (he ▸ List.mem_append_right _ List.mem_cons_self)
  have ⟨actor, input, m, hOp, hRoom, hAuthor, hNickname, hMember, hVersion⟩ := committed_ok hs hmsg
  -- The request has taken a snapshot before.
  have hEmits := h.event_emits he
  rw [hOp] at hEmits
  have ⟨snapshot, hPath, hInput, hActorVersion⟩ := handle_emits_post hEmits
  have ⟨e₁, he₁, hThread, hSnapshot⟩ := System.mem_path (hPath ▸ List.mem_cons_self)
  have ⟨e₂, he₂, _, hDecision⟩ := System.mem_path (hPath ▸ List.mem_cons_of_mem _ List.mem_cons_self)
  obtain ⟨_, c₁, o₁, w₁, s₁⟩ := e₁
  obtain ⟨_, c₂, o₂, w₂, s₂⟩ := e₂
  have ⟨hOp₁, hRes₁⟩ := Sigma.mk.inj hSnapshot
  have ⟨hOp₂, hRes₂⟩ := Sigma.mk.inj hDecision
  subst hOp₁ hOp₂
  have hs₁ := event_invariant h (he ▸ List.mem_append_left _ he₁)
  have ⟨m₁, hm₁, hMember₁, hPos⟩ := snapshot_membership (w := w₁) hs₁
    (Prod.ext (eq_of_heq hRes₁) rfl) (eq_of_heq hRes₂) rfl
  -- From then on, the membership has not changed or its version has increased.
  have ⟨tr₃, tr₄, hTr⟩ := List.mem_iff_append.mp he₁
  rw [hTr] at he
  have hSteps := h.steps_between he
  have hn := hu _ _ _ _ _ he hThread msg hmsg
  rw [hRoom, hAuthor] at hn
  have ⟨m₂, hMember₂, hm₂⟩ := steps_evolve hSteps hs₁ hMember₁ fun e' he' => by
    cases List.mem_cons.mp he'
    case inl he' => subst he'; exact fun hr => by simp [Revokes] at hr
    case inr he' => exact hn e' he'
  cases hMember.symm.trans hMember₂
  rw [hActorVersion, actorVersion, hm₁, Option.map_some, Option.getD_some] at hVersion
  have hSame : m = m₁ := hm₂.resolve_right fun hlt => by omega
  rw [hRoom, hAuthor, hMember, hNickname, hInput, authorNickname, hm₁, hSame]
  rfl

-- While no author is revoked during a post, every message is added under its author's nickname,
-- which no other member holds.
theorem nickname_fidelity (h : (system maxRooms maxMembers).Run tr C) (hu : Undisturbed tr) :
    ∀ e ∈ tr, Faithful e ∧ ∀ msg ∈ committed e.op e.response, msg.authorNickname ≠ [] →
      ∀ b m, e.store.membership msg.roomID b = some m →
        toLower m.nickname = toLower msg.authorNickname → b = msg.author := by
  intro e he
  have hs := event_invariant h he
  have ⟨tr₁, tr₂, he⟩ := List.mem_iff_append.mp he
  have hf := event_faithful h hu he
  refine ⟨hf, fun msg hmsg hne b m hb hFold => ?_⟩
  have ⟨m', hm', hNickname⟩ := Option.map_eq_some_iff.mp (hf msg hmsg)
  have ⟨key, r, hLocated, hr⟩ := located_of_membership hm'
  rw [membership_eq_some hLocated] at hb
  rw [←hNickname] at hne hFold
  exact (nicknames_unique (hs.indexed hLocated.byKey) hr hb hne hFold.symm).symm

end

section

attribute [local instance] asciiPlatform

-- Alice creates a room, lets Bob in and Bob takes a nickname.
def opening : List (System.Action Stamp Request) :=
  moves 0 (.createRoom Sample.alice (.ok ⟨"lobby", [], []⟩)) 2 ++
  moves 1 (.grantAllowlist Sample.alice "lobby" "bob.example" (.ok "poster")) 3 ++
  moves 2 (.setNickname Sample.bob "lobby" (.ok "Bo")) 3

theorem not_revokes (h : (o matches .revokeAllowlist ..) = false) (r : o.Res) :
    ¬Revokes roomID agent o r := by
  cases o <;> simp_all [Revokes]

theorem nickname_fidelity_post : ∃ tr C, (system 50 100).Run tr C ∧ Undisturbed tr ∧
    (∃ e ∈ tr, (committed e.op e.response).map (·.authorNickname) = some "Bo") ∧
    ∀ e ∈ tr, Faithful e ∧ ∀ msg ∈ committed e.op e.response, msg.authorNickname ≠ [] →
      ∀ b m, e.store.membership msg.roomID b = some m →
        toLower m.nickname = toLower msg.authorNickname → b = msg.author := by
  have h : ((system 50 100).replay [] ⟨(system 50 100).init, []⟩
      (opening ++ moves 3 post 3)).any fun x =>
        (∃ e ∈ x.1, (committed e.op e.response).map (·.authorNickname) = some "Bo") ∧
        ∀ e ∈ x.1, (e.op matches .revokeAllowlist ..) = false := by
    decide
  have ⟨⟨tr, C⟩, hr, h⟩ := (Option.any_eq_true _ _).mp h
  have ⟨he, hn⟩ := of_decide_eq_true h
  have hRun := System.replay_run .init hr
  have hu : Undisturbed tr := fun _ _ _ _ _ hTr _ _ _ e he =>
    not_revokes (hn e <| by rw [hTr]; simp [he]) _
  exact ⟨tr, C, hRun, hu, he, nickname_fidelity hRun hu⟩

-- Bob's post waits between its snapshot and its commit, while Bob is revoked, is let in again and
-- takes another nickname, so that his membership has the version of the snapshot, and Alice takes
-- the nickname that he had.
def staleNickname : List (System.Action Stamp Request) :=
  opening ++
  moves 3 post 2 ++
  moves 4 (.revokeAllowlist Sample.alice "lobby" "bob.example") 3 ++
  moves 5 (.grantAllowlist Sample.alice "lobby" "bob.example" (.ok "poster")) 3 ++
  moves 6 (.setNickname Sample.bob "lobby" (.ok "Max")) 3 ++
  moves 7 (.setNickname Sample.alice "lobby" (.ok "Bo")) 3 ++
  [.step 3 ⟨.zero, []⟩]

theorem nickname_fidelity_fails : ∃ tr C, (system 50 100).Run tr C ∧ ∃ e ∈ tr, ¬Faithful e ∧
    ∃ msg ∈ committed e.op e.response, msg.author = Sample.bob.agent ∧
      (e.store.membership msg.roomID Sample.alice.agent).map (·.nickname) =
        some msg.authorNickname := by
  have h : ((system 50 100).replay [] ⟨(system 50 100).init, []⟩ staleNickname).any fun x =>
      ∃ e ∈ x.1, ¬Faithful e ∧ ∃ msg ∈ committed e.op e.response, msg.author = Sample.bob.agent ∧
        (e.store.membership msg.roomID Sample.alice.agent).map (·.nickname) =
          some msg.authorNickname := by
    decide
  have ⟨⟨tr, C⟩, hr, he⟩ := (Option.any_eq_true _ _).mp h
  exact ⟨tr, C, System.replay_run .init hr, of_decide_eq_true he⟩

end
end Server
end Board
