import CookbookModel.Board.Dynamo.Theorems.Runs

namespace Board.Dynamo

open GoString DynamoDB

-- The rooms are exactly those that the agent owns, and its quota item counts them.
structure QuotaExact
    (items : BoardKey → Option DdbItem) (agent : GoString) (maxRooms : Int)
    (rooms : Finset GoString) : Prop where
  owned   : ∀ roomKey,
    roomKey ∈ rooms ↔ (items (.room roomKey)).map (·.owner) = some agent
  counted : (items (.quota agent)).elim 0 (·.roomCount) = rooms.card
  limited : (rooms.card : Int) ≤ max 1 maxRooms

namespace QuotaExact

variable {items items' : BoardKey → Option DdbItem} {agent roomKey : GoString} {maxRooms : Int}
  {rooms : Finset GoString}

theorem empty : QuotaExact (fun _ => none) agent maxRooms ∅ where
  owned   := by simp
  counted := by simp
  limited := by simp

-- Rooms may change as long as they keep their owners.
theorem congr (h : QuotaExact items agent maxRooms rooms)
    (hRooms : ∀ roomKey, (items' (.room roomKey)).map (·.owner) =
      (items (.room roomKey)).map (·.owner))
    (hQuota : items' (.quota agent) = items (.quota agent)) :
    QuotaExact items' agent maxRooms rooms where
  owned roomKey := by rw [hRooms, h.owned]
  counted       := by rw [hQuota, h.counted]
  limited       := h.limited

-- The first room is not counted against the limit.
theorem insert (h : QuotaExact items agent maxRooms rooms) (hNew : items (.room roomKey) = none)
    (hLimit : ∀ d ∈ items (.quota agent), d.roomCount < maxRooms)
    (hRooms : ∀ roomKey', (items' (.room roomKey')).map (·.owner) =
      if roomKey' = roomKey then some agent else (items (.room roomKey')).map (·.owner))
    (hQuota : (items' (.quota agent)).elim 0 (·.roomCount) =
      (items (.quota agent)).elim 0 (·.roomCount) + 1) :
    QuotaExact items' agent maxRooms (Insert.insert roomKey rooms) := by
  have hFresh : roomKey ∉ rooms := by simp [h.owned, hNew]
  have hCard : (Insert.insert roomKey rooms).card = rooms.card + 1 :=
    Finset.card_insert_of_notMem hFresh
  constructor
  case owned =>
    intro roomKey'
    rw [Finset.mem_insert, hRooms, h.owned]
    by_cases he : roomKey' = roomKey <;> simp [he]
  case counted => rw [hQuota, h.counted, hCard]; push_cast; rfl
  case limited =>
    have hCounted := h.counted
    cases hq : items (.quota agent)
    case none   => simp_all
    case some d =>
      have hRoom := hLimit d hq
      rw [hq, Option.elim_some] at hCounted
      omega

end QuotaExact

section Commit

variable [Platform] {limits : Limits} {B B' : Contents} {c : Call} {path : List (Σ o, Op.Res o)}
  {items : List TransactWriteItem} {agent roomKey : GoString}

def owner (B : Contents) (roomKey : GoString) : Option GoString :=
  B[BoardKey.room roomKey]?.map (·.owner)

attribute [local simp] GoMap.get_set GoMap.get_delete

omit [Platform] in
theorem owner_changedRoom {room : DdbItem} {change : Int} {nowText roomKey' : GoString}
    (hFound : B[BoardKey.room roomKey]? = some room) :
    (if roomKey' = roomKey then some (changedRoom room change nowText)
      else B[BoardKey.room roomKey']?).map (·.owner) = owner B roomKey' := by
  by_cases he : roomKey' = roomKey <;> simp [he, owner, hFound, changedRoom]

-- A transaction creates a room for its agent, or it leaves all owners and all quotas as they are.
theorem Commit.quotas (hc : Commit limits B c path items B') :
    (∀ roomKey, owner B' roomKey = owner B roomKey) ∧
      (∀ agent, B'[BoardKey.quota agent]? = B[BoardKey.quota agent]?) ∨
    ∃ agent roomKey nowText, B[BoardKey.room roomKey]? = none ∧
      (∀ d ∈ B[BoardKey.quota agent]?, d.roomCount < limits.maxRoomsPerAgent) ∧
      (∀ roomKey', owner B' roomKey' = if roomKey' = roomKey then some agent else owner B roomKey') ∧
      ∀ agent', B'[BoardKey.quota agent']? = if agent' = agent then
        some (quotaItem agent B[BoardKey.quota agent]? nowText) else B[BoardKey.quota agent']? := by
  cases hc
  case guard => exact .inl ⟨fun _ => rfl, fun _ => rfl⟩
  case createRoom actor _ roomKey _ t _ _ hNew _ _ hQuota _ =>
    refine .inr ⟨actor.agent, roomKey, t.format, hNew, hQuota, fun roomKey' => ?_, by simp⟩
    by_cases he : roomKey' = roomKey <;> simp [owner, he, newRoomItem]
  case grantNew hFound _ _ _ _ _ _ =>
    exact .inl ⟨fun _ => by simpa [owner] using owner_changedRoom hFound, by simp⟩
  case regrant hFound _ _ _ _ _ _ =>
    exact .inl ⟨fun _ => by simpa [owner] using owner_changedRoom hFound, by simp⟩
  case revoke hFound _ _ _ _ _ _ _ =>
    refine .inl ⟨fun _ => ?_, fun _ => ?_⟩ <;> split_ifs <;> simp
    all_goals simpa [owner] using owner_changedRoom hFound
  case setNickname =>
    refine .inl ⟨fun _ => ?_, fun _ => ?_⟩ <;> split_ifs
    all_goals simp [owner]
  case post => exact .inl ⟨fun _ => by simp [owner], fun _ => by simp⟩

end Commit

section Runs

variable [Platform] {limits : Limits} {B B' : Contents} {c : Call} {path : List (Σ o, Op.Res o)}
  {items : List TransactWriteItem} {tr : List (system limits).Event} {C : (system limits).Config}

theorem Commit.quotaExact {rooms : Finset GoString} (hc : Commit limits B c path items B')
    (h : QuotaExact (B[·]?) agent limits.maxRoomsPerAgent rooms) :
    ∃ rooms', QuotaExact (B'[·]?) agent limits.maxRoomsPerAgent rooms' := by
  rcases hc.quotas with ⟨hRooms, hQuotas⟩ | ⟨agent', roomKey, nowText, hNew, hLimit, hRooms, hQuotas⟩
  case inl => exact ⟨rooms, h.congr hRooms (hQuotas agent)⟩
  case inr =>
    by_cases he : agent = agent'
    case pos =>
      subst he
      refine ⟨_, h.insert hNew hLimit hRooms ?_⟩
      simp [hQuotas, quotaItem]
    case neg =>
      refine ⟨rooms, fun roomKey' => ?_, ?_, h.limited⟩
      · have hRoom := hRooms roomKey'
        rw [owner, owner] at hRoom
        rw [h.owned, hRoom]
        by_cases hk : roomKey' = roomKey <;> simp [hk, hNew, Ne.symm he]
      · simpa [hQuotas, he] using h.counted

-- However the steps of calls interleave, the quota item of an agent counts exactly its rooms, of
-- which there are no more than allowed.
theorem quotas_exact (h : (system limits).Run tr C) (agent : GoString) :
    ∃ rooms, QuotaExact (stored C.store) agent limits.maxRoomsPerAgent rooms := by
  obtain ⟨B, hRep, rooms, hB⟩ := run_contents
    (I := fun _ B => ∃ rooms, QuotaExact (B[·]?) agent limits.maxRoomsPerAgent rooms)
    ⟨∅, by simpa using .empty⟩ (fun h _ _ => h)
    (fun h _ _ _ hCommit => by obtain ⟨_, h⟩ := h; exact hCommit.quotaExact h) h
  have hStored : stored C.store = (B[·]?) := funext (stored_eq hRep)
  exact ⟨rooms, hStored ▸ hB⟩

end Runs

section

attribute [local instance] asciiPlatform

-- Two calls for the same room at the same time
theorem quotas_exact_create :
    ∃ tr C rooms, (system ⟨50, 100⟩).Run tr C ∧
      (stored C.store (.quota Sample.alice.agent)).map (·.roomCount) = some 1 ∧
      QuotaExact (stored C.store) Sample.alice.agent 50 rooms := by
  have h : ((system ⟨50, 100⟩).replay [] ⟨(system ⟨50, 100⟩).init, []⟩
      (moves 0 Sample.create 2 ++ moves 1 Sample.create 3 ++ [.step 0 ⟨.zero, [], .served⟩])).any
        fun x => (stored x.2.store (.quota Sample.alice.agent)).map (·.roomCount) = some 1 := by
    decide
  obtain ⟨⟨tr, C⟩, hr, hCount⟩ := (Option.any_eq_true _ _).mp h
  have hRun := System.replay_run .init hr
  obtain ⟨rooms, hExact⟩ := quotas_exact hRun Sample.alice.agent
  exact ⟨tr, C, rooms, hRun, of_decide_eq_true hCount, hExact⟩

end

end Board.Dynamo
