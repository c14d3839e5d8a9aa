import CookbookModel.Board.Http
import CookbookModel.Board.Memory.Theorems.Operations
import CookbookModel.Board.Server.Theorems.Enforcement

namespace Board

-- What a call that succeeds makes of the agent's place on the allowlist of a room: the role it sets,
-- or `none` within `some` if it removes the agent.
def Call.sets [Platform] (roomID agent : GoString) : Call → Option (Option Role)
  | .grantAllowlist _ input  =>
    if input.roomID = roomID ∧ canonicalDNSName input.targetAgent = .ok agent then
      some (some input.role)
    else
      none
  | .revokeAllowlist _ input =>
    if input.roomID = roomID ∧ canonicalDNSName input.targetAgent = .ok agent then some none else none
  | _ => none

def MemoryStore.role (s : MemoryStore) (roomID agent : GoString) : Option Role :=
  (s.membership roomID agent).map (·.role)

theorem MemoryStore.permits_iff {s : MemoryStore} :
    s.Permits roomID agent action ↔ (s.role roomID agent).any (roleCan · action) := by
  simp [Permits, role, Option.any_eq_true]

theorem Call.sets_of_ne [Platform] {roomID : GoString} {c : Call} (h : c.roomID ≠ roomID) :
    c.sets roomID agent = none := by
  cases c <;> simp_all [sets, Call.roomID]

namespace Memory

variable [Platform] {s s' : MemoryStore} {roomID agent : GoString} {r r' : RoomRecord}

theorem Change.role (h : Change w limit r c reply r') (agent : GoString) :
    r'.members[agent]?.map (·.role) = (c.sets c.roomID agent).getD (r.members[agent]?.map (·.role)) := by
  cases h
  case grantSame target _ m hChecks _ _ hMember hSame =>
    by_cases he : target = agent
    case pos => simp [Call.sets, Call.roomID, hChecks.canon, ←he, hMember, hSame]
    case neg => simp [Call.sets, Call.roomID, hChecks.canon, he]
  case grantNew target _ m hChecks _ _ hAbsent _ hNew =>
    by_cases he : target = agent
    case pos => simp [Call.sets, Call.roomID, hChecks.canon, ←he, RoomRecord.grant, hNew, RoomRecord.newMember]
    case neg =>
      simp [Call.sets, Call.roomID, hChecks.canon, he, RoomRecord.grant, GoMap.get_set_ne (Ne.symm he)]
  case grantChange target _ m _ hChecks _ _ hMember _ _ hNew =>
    by_cases he : target = agent
    case pos =>
      simp [Call.sets, Call.roomID, hChecks.canon, ←he, RoomRecord.grant, hNew, RoomRecord.changedMember]
    case neg =>
      simp [Call.sets, Call.roomID, hChecks.canon, he, RoomRecord.grant, GoMap.get_set_ne (Ne.symm he)]
  case revoke target m hChecks hMember _ =>
    by_cases he : target = agent
    case pos => simp [Call.sets, Call.roomID, hChecks.canon, ←he, RoomRecord.revoke]
    case neg =>
      simp [Call.sets, Call.roomID, hChecks.canon, he, RoomRecord.revoke, GoMap.get_delete_ne (Ne.symm he)]
  case nicknameChange actor _ _ _ m _ _ hActor _ _ =>
    by_cases he : actor.agent = agent
    case pos => simp [Call.sets, ←he, RoomRecord.rename, hActor.member, RoomRecord.renamedMember]
    case neg => simp [Call.sets, RoomRecord.rename, GoMap.get_set_ne (Ne.symm he)]
  all_goals rfl

-- How a call that succeeds changes an agent's role in a room that exists.
theorem Step.role (h : Step w s c reply s') (hs : s.Sound) (hLocated : Located s roomID key r)
    (agent : GoString) :
    s'.role roomID agent = (c.sets roomID agent).getD (s.role roomID agent) := by
  have ⟨r', hLocated', hc⟩ := hLocated.step h hs
  rw [MemoryStore.role, MemoryStore.role, Server.membership_eq_some hLocated,
    Server.membership_eq_some hLocated']
  by_cases hID : c.roomID = roomID
  case neg =>
    rcases hc with rfl | ⟨he, _⟩
    case inl => rw [Call.sets_of_ne hID, Option.getD_none]
    case inr => exact absurd he hID
  case pos =>
    cases h
    case create hFresh _ _ _ =>
      subst hID
      cases hFresh.symm.trans hLocated.byID
    case change key' r₀ r₁ _ hFound hChange =>
      have ⟨hKey, hr⟩ := hLocated.unique (hID ▸ hFound)
      have hr' := hLocated'.byKey
      rw [hKey, MemoryStore.putRecord, GoMap.get_set_self] at hr'
      cases hr'
      exact hr ▸ hID ▸ hChange.role agent

end Memory

namespace Http

open GoString Memory

section

variable [Platform] [CursorJson] [BodyJson] {s s' : MemoryStore} {maxRooms maxMembers : Int}
  {roomID agent : GoString} {identity : Identity} {r : Request}

def Op.call? : Op → Option Call
  | .board o => o.call?
  | _        => none

-- The page of messages that a step has read, with the room that it has read it from.
def pageRead : (o : Op) → o.Res → Option (GoString × Page Message)
  | .readMessages roomID .., .ok page => some (roomID, page)
  | _, _                              => none

-- What a step makes of the agent's place on the allowlist of the room.
def sets (roomID agent : GoString) : (o : Op) → o.Res → Option (Option Role)
  | .board o, .ok _ => o.call?.bind (Call.sets roomID agent)
  | _, _            => none

theorem onStore : Server.OnStore (system maxRooms maxMembers) Op.call? where
  init := .new
  step o w s := by
    cases o
    case board o =>
      have hStore : Server.OnStore (Server.system 0 0) Server.Op.call? := Server.onStore
      exact hStore.step o w.stamp s
    case listRooms     => exact .inl <| atomically_readOnly listRooms_readOnly s
    case listAllowlist => exact .inl <| atomically_readOnly listAllowlist_readOnly s
    case readMessages  => exact .inl <| atomically_readOnly readMessages_readOnly s
    case overdue       => exact .inl rfl

omit [BodyJson] in
-- What a step makes of an agent's role in a room that exists.
theorem exec_role {key : GoString} {r : RoomRecord} (hs : Server.Invariant s)
    (hLocated : Located s roomID key r) (agent : GoString) (o : Op) (w : Moment) :
    (exec o w s).2.role roomID agent =
      (sets roomID agent o (exec o w s).1).getD (s.role roomID agent) := by
  cases o
  case board o =>
    cases he : Server.exec o w.stamp s
    case mk result s' =>
      simp only [exec, he]
      cases result
      case error e =>
        rw [Server.exec_error he]
        rfl
      case ok v =>
        rcases Server.exec_ok he with ⟨ho, rfl⟩ | ⟨c, reply, ho, _, hStep⟩
        case inl => simp [sets, ho]
        case inr => simp [sets, ho, hStep.role hs.sound hLocated agent]
  case listRooms     => simp [exec, sets, atomically_readOnly listRooms_readOnly]
  case listAllowlist => simp [exec, sets, atomically_readOnly listAllowlist_readOnly]
  case readMessages  => simp [exec, sets, atomically_readOnly readMessages_readOnly]
  case overdue       => rfl

-- What the steps have made of the agent's place on the allowlist of the room in the end.
def lastSet (roomID agent : GoString) (es : List (system maxRooms maxMembers).Event) :
    Option (Option Role) :=
  es.reverse.findSome? fun e => sets roomID agent e.op e.response

theorem steps_role {key : GoString} {r : RoomRecord}
    (h : (system maxRooms maxMembers).Steps s es s') (hs : Server.Invariant s)
    (hLocated : Located s roomID key r) (agent : GoString) :
    s'.role roomID agent = (lastSet roomID agent es).getD (s.role roomID agent) := by
  have hS : Server.OnStore (system maxRooms maxMembers) Op.call? := onStore
  induction h generalizing r
  case nil => rfl
  case cons es s' e h hi =>
    have ⟨r₁, hLocated₁, _⟩ := hS.record hs hLocated e.op e.outcome
    have hRole : e.post.role roomID agent = _ := exec_role hs hLocated agent e.op e.outcome
    rw [hi (hS.exec hs e.op e.outcome) hLocated₁, hRole, lastSet, lastSet, List.reverse_cons,
      List.findSome?_append]
    cases List.findSome? (fun e => sets roomID agent e.op e.response) es.reverse
    case none   => rw [Option.none_or, List.findSome?_singleton]; rfl
    case some v => rfl

-- The room that a step reads messages from.
def Op.reads : Op → Option GoString
  | .readMessages roomID .. => some roomID
  | _                       => none

section Emits

variable {path : List (Σ o : Op, o.Res)} {o : Op}

omit [Platform] [CursorJson] [BodyJson] in
theorem board_reads (x : Server.Handler α) : (board x).Always (·.reads = none) :=
  .embed <| x.always_true.mono fun _ _ => rfl

omit [Platform] [CursorJson] [BodyJson] in
theorem queryLimit_reads : (queryLimit r n).Always (·.reads = none) := by
  unfold queryLimit
  dsimp only
  split
  case isTrue  => trivial
  case isFalse => split <;> trivial

omit [Platform] [CursorJson] [BodyJson] in
theorem queryWait_reads : (queryWait r).Always (·.reads = none) := by
  unfold queryWait
  dsimp only
  split
  case isTrue  => trivial
  case isFalse => split <;> trivial

omit [Platform] [CursorJson] [BodyJson] in
theorem listRooms_reads : (listRooms identity r).Always (·.reads = none) :=
  .bind (board_reads _) fun _ => .bind queryLimit_reads fun _ =>
  .bind ⟨rfl, fun _ => trivial⟩ fun _ => .bind trivial fun _ => trivial

omit [Platform] [CursorJson] [BodyJson] in
theorem getRoom_reads : (getRoom identity roomID).Always (·.reads = none) :=
  .bind (board_reads _) fun _ => .bind (board_reads _) fun _ => trivial

omit [Platform] [CursorJson] [BodyJson] in
theorem listAllowlist_reads : (listAllowlist identity roomID r).Always (·.reads = none) :=
  .bind (board_reads _) fun _ => .bind (board_reads _) fun _ => .bind queryLimit_reads fun _ =>
  .bind ⟨rfl, fun _ => trivial⟩ fun _ => .bind trivial fun _ => trivial

omit [CursorJson] [BodyJson] in
theorem change_reads (request : Server.Request) : (change request).Always (·.reads = none) :=
  .bind (board_reads _) fun _ => trivial

-- The steps that lead a request of the agent to a read of the room.
def Leads (identity : Identity) (roomID : GoString) (path : List (Σ o : Op, o.Res)) : Prop :=
  ∃ path' snapshot, path = path' ++
    [⟨.board <| .getRoomForAgent roomID identity.agent, .ok snapshot⟩,
      ⟨.board <| .authorize identity .readMessages snapshot {}, .ok ()⟩]

omit [Platform] [CursorJson] [BodyJson] in
theorem Leads.cons (h : Leads identity roomID path) (step : Σ o : Op, o.Res) :
    Leads identity roomID (step :: path) :=
  have ⟨path', snapshot, h⟩ := h
  ⟨step :: path', snapshot, by rw [h, List.cons_append]⟩

attribute [local simp] Program.emits_call Program.emits_done_bind in
omit [Platform] [CursorJson] [BodyJson] in
theorem readRound_emits (h : (readRound identity roomID limit wait r again).Emits path o)
    (hAgain : ∀ {path}, again.Emits path o → o.reads = some roomID' →
      roomID' = roomID ∧ Leads identity roomID path)
    (ho : o.reads = some roomID') : roomID' = roomID ∧ Leads identity roomID path := by
  simp only [readRound, getRoomForAgent, authorize, board, Server.invoke, Program.embed,
    Program.ofExcept, Program.call_bind, Program.perform_bind, Program.emits_call,
    Program.emits_done_bind, Program.pure_eq] at h
  obtain ⟨rfl, rfl⟩ | ⟨_, _, rfl, snapshot, rfl, h⟩ := h
  case inl => contradiction
  obtain ⟨rfl, rfl⟩ | ⟨_, _, rfl, ⟨⟩, rfl, h⟩ := h
  case inl => contradiction
  obtain ⟨rfl, rfl⟩ | ⟨_, _, rfl, page, rfl, h⟩ := h
  case inl =>
    cases ho
    exact ⟨rfl, [], snapshot, rfl⟩
  case inr =>
    split at h
    case isTrue => exact absurd h Program.emits_done
    case isFalse =>
      simp only [Program.emits_call] at h
      obtain ⟨rfl, rfl⟩ | ⟨past, _, rfl, h⟩ := h
      case inl => contradiction
      case inr =>
        split at h
        case isTrue  => exact absurd h Program.emits_done
        case isFalse =>
          have ⟨hID, hLeads⟩ := hAgain h ho
          exact ⟨hID, .cons (.cons (.cons (.cons hLeads _) _) _) _⟩

omit [Platform] [CursorJson] [BodyJson] in
theorem readLoop_emits (h : (readLoop identity roomID limit wait r patience).Emits path o)
    (ho : o.reads = some roomID') : roomID' = roomID ∧ Leads identity roomID path := by
  induction patience generalizing path
  case zero      => exact readRound_emits h (fun h => absurd h Program.emits_done) ho
  case succ n hi => exact readRound_emits h (fun h _ => hi h) ho

omit [Platform] [CursorJson] [BodyJson] in
theorem Leads.append (h : Leads identity roomID path) (path₀ : List (Σ o : Op, o.Res)) :
    Leads identity roomID (path₀ ++ path) :=
  have ⟨path', snapshot, h⟩ := h
  ⟨path₀ ++ path', snapshot, by rw [h, List.append_assoc]⟩

omit [Platform] [CursorJson] [BodyJson] in
theorem not_emits {x : Handler α} (hx : x.Always (·.reads = none)) (ho : o.reads = some roomID) :
    ¬x.Emits path o :=
  fun h => absurd ((hx.emits h).symm.trans ho) nofun

omit [Platform] [CursorJson] [BodyJson] in
theorem readMessages_emits (h : (readMessages identity roomID r).Emits path o)
    (ho : o.reads = some roomID') : roomID' = roomID ∧ Leads identity roomID path := by
  rcases Program.emits_bind.mp h with h | ⟨limit, path₁, _, rfl, _, h⟩
  case inl => exact absurd h <| not_emits queryLimit_reads ho
  case inr =>
    rcases Program.emits_bind.mp h with h | ⟨wait, path₂, _, rfl, _, h⟩
    case inl => exact absurd h <| not_emits queryWait_reads ho
    case inr =>
      have ⟨hID, hLeads⟩ := readLoop_emits h ho
      exact ⟨hID, (hLeads.append path₂).append path₁⟩

omit [CursorJson] in
theorem routeRoom_emits (h : (routeRoom identity r roomID rest).Emits path o)
    (ho : o.reads = some roomID') : roomID' = roomID ∧ Leads identity roomID path := by
  unfold routeRoom at h
  split at h
  case h_1 =>
    split at h
    case isTrue  => exact absurd h <| not_emits getRoom_reads ho
    case isFalse => exact absurd h Program.emits_done
  case h_2 =>
    split at h
    case isTrue  => exact readMessages_emits h ho
    case isFalse =>
      refine absurd h <| not_emits ?_ ho
      split
      case isTrue  => exact change_reads _
      case isFalse =>
        split
        case isTrue  => exact change_reads _
        case isFalse =>
          split
          case isTrue  => exact listAllowlist_reads
          case isFalse => trivial
  case h_3 =>
    refine absurd h <| not_emits ?_ ho
    split
    case isTrue  => exact change_reads _
    case isFalse =>
      split
      case isTrue  => exact change_reads _
      case isFalse => trivial
  case h_4 => exact absurd h Program.emits_done

omit [CursorJson] in
theorem route_emits (h : (route identity r).Emits path o) (ho : o.reads = some roomID) :
    Leads identity roomID path := by
  unfold route at h
  split at h
  case h_1 => exact absurd h Program.emits_done
  case h_2 =>
    split at h
    case isTrue => exact absurd h Program.emits_done
    case isFalse =>
      split at h
      case isTrue => exact absurd h <| not_emits (change_reads _) ho
      case isFalse =>
        split at h
        case isTrue => exact absurd h <| not_emits listRooms_reads ho
        case isFalse =>
          split at h
          case h_1 =>
            split at h
            case isTrue =>
              have ⟨hID, hLeads⟩ := routeRoom_emits h ho
              exact hID ▸ hLeads
            case isFalse => exact absurd h Program.emits_done
          case h_2 => exact absurd h Program.emits_done

omit [CursorJson] in
-- A request that reads a room has an agent, and the agent's snapshot of the room permits the read.
theorem serveHTTP_emits (h : (serveHTTP r).Emits path o) (ho : o.reads = some roomID) :
    ∃ identity, authenticate r = .ok identity ∧ Leads identity roomID path := by
  unfold serveHTTP at h
  split at h
  case isTrue => exact absurd h Program.emits_done
  case isFalse =>
    split at h
    case h_1 => exact absurd h Program.emits_done
    case h_2 identity hIdentity =>
      refine ⟨identity, hIdentity, ?_⟩
      rcases Program.emits_bind.mp h with h | ⟨result, _, _, rfl, _, h⟩
      case inl => exact route_emits (Program.emits_attempt.mp h) ho
      case inr => cases result <;> exact absurd h Program.emits_done

end Emits

def Op.isSnapshot : Op → Bool
  | .board (.getRoomForAgent ..) => true
  | _                            => false

-- The steps since a thread has last taken a snapshot of a room.
def sinceSnapshot (i : Nat) (es : List (system maxRooms maxMembers).Event) :
    List (system maxRooms maxMembers).Event :=
  (es.reverse.takeWhile fun e => e.thread ≠ i ∨ ¬e.op.isSnapshot).reverse

-- The last grant or revoke that is about the agent, if there is one, leaves it a role that permits
-- the action.
def Keeps (roomID agent : GoString) (action : Action)
    (es : List (system maxRooms maxMembers).Event) : Prop :=
  ∀ role ∈ lastSet roomID agent es, role.any (roleCan · action)

omit [CursorJson] [BodyJson] in
-- A snapshot that an agent is authorized with shows that the agent has the right.
theorem permits_of_authorize {w : Stamp} (hs : Server.Invariant s)
    (h : Server.exec (.getRoomForAgent roomID identity.agent) w s = (.ok snapshot, s'))
    (ha : LocalAuthorizer.authorize identity .readMessages snapshot {} = .ok ()) :
    ∃ key rec, Located s roomID key rec ∧ s.Permits roomID identity.agent .readMessages := by
  have ⟨key, rec, hLocated, hShown⟩ := Server.snapshot_located h
  refine ⟨key, rec, hLocated, ?_⟩
  subst hShown
  cases (LocalAuthorizer.authorize_ok ha nofun nofun).right
  case inl hOwner =>
    have ⟨m, hm, hRole⟩ := (hs.sound.records hLocated.byKey).owner
    refine ⟨m, (Server.membership_eq_some hLocated).trans (hOwner ▸ hm), ?_⟩
    rw [hRole]
    rfl
  case inr h =>
    have ⟨m, hm, hRole⟩ := h
    exact ⟨m, (Server.membership_eq_some hLocated).trans hm, hRole⟩

section Run

variable {tr tr₁ tr₂ : List (system maxRooms maxMembers).Event}
  {e : (system maxRooms maxMembers).Event}

theorem sinceSnapshot_eq (h : e.op.isSnapshot) (hThread : e.thread = i)
    (hn : ∀ e' ∈ tr₂, e'.thread = i → ¬e'.op.isSnapshot) :
    sinceSnapshot i (tr₁ ++ e :: tr₂) = tr₂ := by
  have hSince : ∀ e' ∈ tr₂.reverse, decide (e'.thread ≠ i ∨ ¬e'.op.isSnapshot) = true :=
    fun e' he' => by
      have hn := hn e' <| List.mem_reverse.mp he'
      simpa only [decide_eq_true_eq, ←imp_iff_not_or] using hn
  have hSnapshot : ¬(e.thread ≠ i ∨ ¬e.op.isSnapshot) := by simp [h, hThread]
  rw [sinceSnapshot, List.reverse_append, List.reverse_cons, List.append_assoc,
    List.takeWhile_append_of_pos hSince, List.singleton_append, List.takeWhile_cons,
    decide_eq_false hSnapshot]
  simp

omit [CursorJson] [BodyJson] in
theorem sets_of_isSnapshot {o : Op} {result : o.Res} (h : o.isSnapshot) :
    sets roomID agent o result = none := by
  cases o <;> try contradiction
  case board o => cases o <;> cases result <;> first | contradiction | rfl

theorem snapshot_event {e : (system maxRooms maxMembers).Event}
    (hs : Server.Invariant e.store) (hEvent : (⟨e.op, e.response⟩ : Σ o : Op, o.Res) =
      ⟨.board <| .getRoomForAgent roomID identity.agent, .ok snapshot⟩)
    (ha : LocalAuthorizer.authorize identity .readMessages snapshot {} = .ok ()) :
    e.op.isSnapshot ∧ (∃ key rec, Located e.store roomID key rec) ∧
      e.store.Permits roomID identity.agent .readMessages := by
  obtain ⟨_, _, o, w, s⟩ := e
  have ⟨hOp, hRes⟩ := Sigma.mk.inj hEvent
  subst hOp
  have ⟨key, rec, hLocated, hPermits⟩ :=
    permits_of_authorize (w := w.stamp) hs (Prod.ext (eq_of_heq hRes) rfl) ha
  exact ⟨rfl, ⟨key, rec, hLocated⟩, hPermits⟩

theorem authorize_event {e : (system maxRooms maxMembers).Event}
    (hEvent : (⟨e.op, e.response⟩ : Σ o : Op, o.Res) =
      ⟨.board <| .authorize identity action snapshot authContext, .ok ()⟩) :
    LocalAuthorizer.authorize identity action snapshot authContext = .ok () := by
  obtain ⟨_, _, o, _, _⟩ := e
  have ⟨hOp, hRes⟩ := Sigma.mk.inj hEvent
  subst hOp
  exact eq_of_heq hRes

-- The snapshot that a read relies on permits it.
theorem read_snapshot (h : (system maxRooms maxMembers).Run tr C) (he : tr = tr₁ ++ e :: tr₂)
    (ho : e.op.reads = some roomID) :
    ∃ identity e₁ tr₃, authenticate e.call = .ok identity ∧
      tr₁ = tr₃ ++ e₁ :: sinceSnapshot e.thread tr₁ ∧ e₁.op.isSnapshot ∧
      (∃ key rec, Located e₁.store roomID key rec) ∧
      e₁.store.Permits roomID identity.agent .readMessages := by
  have ⟨identity, hIdentity, path, snapshot, hPath⟩ := serveHTTP_emits (h.event_emits he) ho
  have ⟨tr₃, e₁, tr₄, hTr, hThread, hEvent, _, hRest⟩ := System.path_eq_append hPath
  have hs₁ := onStore.event h (he ▸ List.mem_append_left _ (hTr ▸ List.mem_append_cons_self))
  have ⟨_, _, _, hAuthorize⟩ := System.mem_path (hRest ▸ List.mem_singleton_self _)
  have ⟨hSnapshot, hLocated, hPermits⟩ := snapshot_event hs₁ hEvent (authorize_event hAuthorize)
  have hSince : ∀ e' ∈ tr₄, e'.thread = e.thread → ¬e'.op.isSnapshot := by
    intro e' he' hi
    have hm : (⟨e'.op, e'.response⟩ : Σ o : Op, o.Res) ∈ System.path e.thread tr₄ :=
      List.mem_map_of_mem <| List.mem_filter.mpr ⟨he', decide_eq_true hi⟩
    have hOp := (Sigma.mk.inj <| List.mem_singleton.mp (hRest ▸ hm)).left
    rw [hOp]
    exact Bool.false_ne_true
  refine ⟨identity, e₁, tr₃, hIdentity, ?_, hSnapshot, hLocated, hPermits⟩
  rw [hTr, sinceSnapshot_eq hSnapshot hThread hSince]

theorem read_current (h : (system maxRooms maxMembers).Run tr C) (he : tr = tr₁ ++ e :: tr₂)
    (ho : e.op.reads = some roomID) (hIdentity : authenticate e.call = .ok identity) :
    e.store.Permits roomID identity.agent .readMessages ↔
      Keeps roomID identity.agent .readMessages (sinceSnapshot e.thread tr₁) := by
  have ⟨_, e₁, tr₃, hIdentity', hTr, hSnapshot, ⟨key, rec, hLocated⟩, hPermits⟩ :=
    read_snapshot h he ho
  have hS : Server.OnStore (system maxRooms maxMembers) Op.call? := onStore
  cases hIdentity'.symm.trans hIdentity
  generalize sinceSnapshot e.thread tr₁ = es at hTr
  subst hTr
  have hs₁ := hS.event h (he ▸ List.mem_append_left _ List.mem_append_cons_self)
  have ⟨_, hSteps⟩ := (h.steps_between he).of_cons
  have hRole : e₁.post.role roomID identity.agent = _ :=
    exec_role hs₁ hLocated identity.agent e₁.op e₁.outcome
  rw [sets_of_isSnapshot hSnapshot, Option.getD_none] at hRole
  have ⟨rec', hLocated', _⟩ := hS.record hs₁ hLocated e₁.op e₁.outcome
  have hAfter := steps_role hSteps (hS.exec hs₁ e₁.op e₁.outcome) hLocated' identity.agent
  rw [MemoryStore.permits_iff] at hPermits ⊢
  rw [hAfter, hRole, Keeps]
  cases lastSet roomID identity.agent es
  case none      => simpa using hPermits
  case some role => simp

end Run

-- What holds of the reads of a run: a reader has the right to read exactly if no grant or revoke has
-- taken it since the snapshot that the read relies on, and who has lost the right and reads with
-- such a snapshot has been granted it again.
structure Reads (tr : List (system maxRooms maxMembers).Event) : Prop where
  permitted : ∀ {tr₁ e tr₂}, tr = tr₁ ++ e :: tr₂ → ∀ {roomID}, e.op.reads = some roomID →
    ∃ identity, authenticate e.call = .ok identity ∧
      (e.store.Permits roomID identity.agent .readMessages ↔
        Keeps roomID identity.agent .readMessages (sinceSnapshot e.thread tr₁))
  concealed : ∀ {tr₁ e₁ tr₂ e₂ tr₃}, tr = tr₁ ++ e₁ :: tr₂ ++ e₂ :: tr₃ →
    ∀ {roomID identity}, e₂.op.reads = some roomID → authenticate e₂.call = .ok identity →
    Keeps roomID identity.agent .readMessages (sinceSnapshot e₂.thread (tr₁ ++ e₁ :: tr₂)) →
    e₁.store.Permits roomID identity.agent .readMessages →
    ¬e₁.post.Permits roomID identity.agent .readMessages →
    ∃ e ∈ tr₂, Server.Granted Op.call? roomID identity.agent .readMessages e

theorem read_permitted (h : (system maxRooms maxMembers).Run tr C) : Reads tr where
  permitted he _ ho := by
    have ⟨identity, _, _, hIdentity, _⟩ := read_snapshot h he ho
    exact ⟨identity, hIdentity, read_current h he ho hIdentity⟩
  concealed he _ _ ho hIdentity hKeeps hHad hLost :=
    onStore.regained h he hHad hLost <| (read_current h he ho hIdentity).mpr hKeeps

end

section

attribute [local instance] asciiPlatform plainCursors plainBodies

-- Bob is revoked between the snapshot that permits his read and the read itself, and Alice's post
-- comes in between as well.
def revokedReader : List (System.Action Moment Request) :=
  Sample.moves 0 Sample.create 2 ++
  Sample.moves 1 Sample.grant 3 ++
  Sample.moves 2 Sample.read 2 ++
  Sample.moves 3 Sample.revoke 3 ++
  Sample.moves 4 Sample.post 3 ++
  [.step 2 ⟨⟨.zero, []⟩, false⟩]

def answersHello : Except Err Response → Bool
  | .ok ⟨200, .messages [⟨_, _, _, _, _, [0x68, 0x65, 0x6C, 0x6C, 0x6F], _, _, _⟩] none⟩ => true
  | _                                                                                   => false

theorem read_after_revoke : ∃ tr C, (system 50 100).Run tr C ∧
    (∃ e ∈ tr, e.op.reads = some (GoString.ofString "lobby") ∧
      authenticate e.call = .ok Board.Sample.bob ∧
      ¬e.store.Permits "lobby" Board.Sample.bob.agent .readMessages) ∧
    ∃ response, C.returned 2 = some (.ok response) ∧ response.status = 200 ∧
      ∃ message, response.body = .messages [message] none ∧
        message.body = GoString.ofString "hello" := by
  have h : ((system 50 100).replay [] ⟨(system 50 100).init, []⟩ revokedReader).any fun x =>
      (∃ e ∈ x.1, e.op.reads = some (GoString.ofString "lobby") ∧
        authenticate e.call = .ok Board.Sample.bob ∧
        ¬e.store.Permits "lobby" Board.Sample.bob.agent .readMessages) ∧
      (x.2.returned 2).any answersHello := by
    decide
  obtain ⟨⟨tr, C⟩, hr, h⟩ := (Option.any_eq_true _ _).mp h
  obtain ⟨hRead, hAnswer⟩ := of_decide_eq_true h
  obtain ⟨r, hReturned, hAnswer⟩ := (Option.any_eq_true _ _).mp hAnswer
  refine ⟨tr, C, System.replay_run .init hr, hRead, ?_⟩
  rw [answersHello.eq_def] at hAnswer
  split at hAnswer
  case h_1 => exact ⟨_, hReturned, rfl, _, rfl, rfl⟩
  case h_2 => cases hAnswer

-- Bob is let in, revoked and let in again before he reads.
def returnedReader : List (System.Action Moment Request) :=
  Sample.moves 0 Sample.create 2 ++
  Sample.moves 1 Sample.grant 3 ++
  Sample.moves 2 Sample.revoke 3 ++
  Sample.moves 3 Sample.grant 3 ++
  Sample.moves 4 Sample.read 3

theorem read_permitted_returned : ∃ tr C, (system 50 100).Run tr C ∧
    (∃ e ∈ tr, e.op.reads = some (GoString.ofString "lobby") ∧
      e.store.Permits "lobby" Board.Sample.bob.agent .readMessages) ∧ Reads tr := by
  have h : ((system 50 100).replay [] ⟨(system 50 100).init, []⟩ returnedReader).any fun x =>
      ∃ e ∈ x.1, e.op.reads = some (GoString.ofString "lobby") ∧
        e.store.Permits "lobby" Board.Sample.bob.agent .readMessages := by
    decide
  have ⟨⟨tr, C⟩, hr, h⟩ := (Option.any_eq_true _ _).mp h
  have hRun := System.replay_run .init hr
  exact ⟨tr, C, hRun, of_decide_eq_true h, read_permitted hRun⟩

end
end Http
end Board
