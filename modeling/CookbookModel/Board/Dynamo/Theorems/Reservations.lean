import CookbookModel.Board.Dynamo.Theorems.Runs

namespace Board.Dynamo

open GoString DynamoDB

section Index

-- Each nonempty key is assigned to whoever holds it.
def Exact (index holds : GoString → Option GoString) : Prop :=
  ∀ k a, index k = some a ↔ k ≠ [] ∧ holds a = some k

variable {index index' holds holds' : GoString → Option GoString} {a k old read : GoString}

namespace Exact

theorem congr (h : Exact index holds) (hIndex : ∀ k, index' k = index k)
    (hHolds : ∀ a, holds' a = holds a) : Exact index' holds' := fun k a => by
  rw [hIndex, hHolds]
  exact h k a

theorem join (h : Exact index holds) (ha : holds a = none) (hIndex : ∀ k, index' k = index k)
    (hHolds : ∀ b, holds' b = if b = a then some [] else holds b) : Exact index' holds' := by
  intro k b
  rw [hIndex, hHolds, h k b]
  by_cases hb : b = a
  case pos => simp [hb, ha, eq_comm]
  case neg => simp [hb]

theorem leave (h : Exact index holds) (ha : holds a = some k)
    (hIndex : ∀ k', index' k' = if k' = k then none else index k')
    (hHolds : ∀ b, holds' b = if b = a then none else holds b) : Exact index' holds' := by
  intro k' b
  rw [hIndex, hHolds]
  have := h k' b
  have := h k' a
  grind

-- A change of a key that was held once keeps the index exact if the key is still held. If no key
-- was held, the new one may be, too.
theorem change (h : Exact index holds) (ha : holds a = some old) (hk : k ≠ [])
    (hRead : read ≠ [] → read ≠ k → index read = some a)
    (hFree : read ≠ k → ∀ b, index k = some b → b = a)
    (hIndex : ∀ k', index' k' = if k' = k ∧ read ≠ k then some a
      else if k' = read ∧ read ≠ [] ∧ read ≠ k then none else index k')
    (hHolds : ∀ b, holds' b = if b = a then some k else holds b) :
    Exact index' holds' ↔ old = read ∨ read = [] ∧ old = k := by
  constructor
  case mp =>
    intro h'
    by_cases hn : read = k
    case pos =>
      have hIndex' : index' k = some a := (h' k a).mpr ⟨hk, by rw [hHolds, if_pos rfl]⟩
      rw [hIndex, if_neg (by simp [hn]), if_neg (by simp [hn])] at hIndex'
      have hHeld := ((h k a).mp hIndex').right
      exact .inl <| hn ▸ Option.some.inj (ha.symm.trans hHeld)
    case neg =>
      by_cases hr : read = []
      case pos =>
        refine Decidable.or_iff_not_imp_left.mpr fun ho => ⟨hr, by_contra fun hok => ?_⟩
        have hIndex' : index' old = some a := by
          rw [hIndex, if_neg (by simp [hok]), if_neg (by simp [hr])]
          exact (h old a).mpr ⟨hr ▸ ho, ha⟩
        have hHeld := ((h' old a).mp hIndex').right
        rw [hHolds, if_pos rfl] at hHeld
        exact hok (Option.some.inj hHeld).symm
      case neg =>
        have hHeld := ((h read a).mp <| hRead hr hn).right
        exact .inl <| Option.some.inj (ha.symm.trans hHeld)
  case mpr =>
    intro ho k' b
    rw [hIndex, hHolds]
    have := h k' b
    have := h k' a
    grind

end Exact

end Index

def holders (items : BoardKey → Option DdbItem) (roomKey nicknameKey : GoString) : Option GoString :=
  (items (.nickname roomKey nicknameKey)).map (·.agent)

def nicknameKeys (items : BoardKey → Option DdbItem) (roomKey agent : GoString) : Option GoString :=
  (items (.member roomKey agent)).map (·.nicknameKey)

section Commit

variable [Platform] {limits : Limits} {B B' : Contents} {c : Call} {path : List (Σ o, Op.Res o)}
  {items : List TransactWriteItem} {k : BoardKey} {d : DdbItem} {roomKey agent : GoString}

def Folded (B : Contents) : Prop :=
  ∀ (roomKey a : GoString) (m : DdbItem),
    B[BoardKey.member roomKey a]? = some m → m.nicknameKey = toLower m.nickname

namespace Folded

theorem set (h : Folded B) (hk : ∀ roomKey a, k ≠ .member roomKey a) : Folded (B.set k d) :=
  fun _ _ _ hm => h _ _ _ <| GoMap.get_set_ne (hk _ _).symm ▸ hm

theorem set_member (h : Folded B) (hd : d.nicknameKey = toLower d.nickname) :
    Folded (B.set (.member roomKey agent) d) := by
  intro _ _ _ hm
  rw [GoMap.get_set] at hm
  split at hm
  case isTrue  => cases hm; exact hd
  case isFalse => exact h _ _ _ hm

theorem delete (h : Folded B) : Folded (B.delete k) := by
  intro _ _ _ hm
  rw [GoMap.get_delete] at hm
  split at hm
  case isTrue  => cases hm
  case isFalse => exact h _ _ _ hm

theorem ite {p : Prop} [Decidable p] (h : Folded B) (h' : Folded B') :
    Folded (if p then B else B') := by
  split <;> assumption

end Folded

theorem folded_newMember :
    let m := newMemberItem roomID roomKey agent role capabilities createdBy nowText
    m.nicknameKey = toLower m.nickname :=
  (toLower_eq_nil.mpr rfl).symm

theorem Commit.folded (hc : Commit limits B c path items B') (h : Folded B) : Folded B' := by
  cases hc
  case guard => exact h
  case createRoom =>
    exact .set (.set (.set_member (h.set (by simp)) folded_newMember) (by simp)) (by simp)
  case grantNew => exact .set (.set_member (h.set (by simp)) folded_newMember) (by simp)
  case regrant hMember _ _ _ =>
    have hd := h _ _ _ hMember
    exact .set (.set_member (h.set (by simp)) hd) (by simp)
  case revoke =>
    exact .ite (.delete (.set (.set h.delete (by simp)) (by simp)))
      (.set (.set h.delete (by simp)) (by simp))
  case setNickname hNickname _ _ _ _ _ _ _ _ _ =>
    have hd := (nickname_ok hNickname).right
    exact .ite (.set (.ite (.delete (.set_member h hd)) (.set_member h hd)) (by simp))
      (.ite (.delete (.set_member h hd)) (.set_member h hd))
  case post => exact .set (.set h (by simp)) (by simp)

-- A nickname is changed with the key that the membership has had when it was read. A membership that
-- was read without a nickname may have the new one already.
def FindsRead
    (stored : BoardKey → Option DdbItem) (roomKey : GoString) (path : List (Σ o, Op.Res o))
    (items : List TransactWriteItem) : Call → Prop
  | .setNickname actor input =>
    items.any (·.writes) → Base64.encode input.roomID = roomKey →
      ∀ nickname nicknameKey r read member,
        Board.nickname input.nickname = .ok (nickname, nicknameKey) →
        ⟨.getItem (BoardKey.member roomKey actor.agent).key, r⟩ ∈ path → itemRead r = .ok read →
        stored (.member roomKey actor.agent) = some member →
        member.nicknameKey = read.nicknameKey ∨
          read.nicknameKey = [] ∧ member.nicknameKey = nicknameKey
  | _ => True

theorem findsRead_iff {actor : Identity} {input : SetNicknameInput} {nickname : GoString}
    {read member : DdbItem}
    {stored : BoardKey → Option DdbItem} (hWrites : items.any (·.writes) = true)
    (hKey : Base64.encode input.roomID = roomKey)
    (hNickname : Board.nickname input.nickname = .ok (nickname, nicknameKey))
    (hRead : itemRead r = .ok read)
    (hMember : stored (.member roomKey actor.agent) = some member) :
    FindsRead stored roomKey [⟨.getItem (BoardKey.member roomKey actor.agent).key, r⟩, ⟨.now, t⟩]
        items (.setNickname actor input) ↔
      member.nicknameKey = read.nicknameKey ∨
        read.nicknameKey = [] ∧ member.nicknameKey = nicknameKey := by
  constructor
  case mp =>
    intro h
    exact h hWrites hKey _ _ _ _ _ hNickname List.mem_cons_self hRead hMember
  case mpr =>
    intro h _ _ nickname' nicknameKey' r' read' member' hNickname' hr hRead' hMember'
    cases hNickname.symm.trans hNickname'
    cases hMember.symm.trans hMember'
    have hr : r' = r := by simpa using hr
    cases hRead.symm.trans (hr ▸ hRead')
    exact h

attribute [local simp] holders nicknameKeys GoMap.get_set GoMap.get_delete

theorem Commit.exact (hc : Commit limits B c path items B')
    (h : Exact (holders (B[·]?) roomKey) (nicknameKeys (B[·]?) roomKey)) :
    Exact (holders (B'[·]?) roomKey) (nicknameKeys (B'[·]?) roomKey) ↔
      FindsRead (B[·]?) roomKey path items c := by
  cases hc
  case guard hWrites =>
    refine iff_of_true h ?_
    cases c <;> simp [FindsRead, hWrites]
  case createRoom actor _ roomKey' _ _ _ _ _ hNewMember _ _ _ =>
    refine iff_of_true ?_ trivial
    by_cases hr : roomKey = roomKey'
    case pos =>
      subst hr
      exact h.join (a := actor.agent) (by simp [hNewMember]) (by simp)
        (fun b => by by_cases hb : b = actor.agent <;> simp [hb, newMemberItem])
    case neg => exact h.congr (by simp) (by simp [hr])
  case grantNew target _ _ _ _ roomKey' _ _ _ _ _ _ _ _ _ _ _ _ hNewMember _ _ =>
    refine iff_of_true ?_ trivial
    by_cases hr : roomKey = roomKey'
    case pos =>
      subst hr
      exact h.join (a := target) (by simp [hNewMember]) (by simp)
        (fun b => by by_cases hb : b = target <;> simp [hb, newMemberItem])
    case neg => exact h.congr (by simp) (by simp [hr])
  case regrant target _ _ _ _ roomKey' _ _ _ _ _ _ _ _ _ _ _ _ _ hMember _ _ _ =>
    refine iff_of_true (h.congr (by simp) fun a => ?_) trivial
    by_cases ha : roomKey = roomKey' ∧ a = target
    case pos => simp [ha, hMember, regrantedMember]
    case neg => simp [ha]
  case revoke target _ _ _ roomKey' _ member _ _ _ _ _ _ _ _ hMember _ _ _ _ =>
    refine iff_of_true ?_ trivial
    by_cases hr : roomKey = roomKey'
    case pos =>
      subst hr
      apply h.leave (a := target) (k := member.nicknameKey)
      case ha => simp [hMember]
      case hHolds =>
        intro a
        by_cases ha : a = target <;> split_ifs <;> simp [ha]
      case hIndex =>
        intro k
        by_cases hm : member.nicknameKey = []
        case pos =>
          have hn : holders (B[·]?) roomKey [] = none :=
            Option.eq_none_iff_forall_ne_some.mpr fun b hb => ((h _ _).mp hb).left rfl
          by_cases hk : k = [] <;> simp_all
        case neg => by_cases hk : k = member.nicknameKey <;> simp [hm, hk]
    case neg => exact h.congr (by split_ifs <;> simp [hr]) (by split_ifs <;> simp [hr])
  case setNickname nicknameKey _ _ actor _ roomKey' _ _ member read hRoom hKey hNickname hRead _ _
      hMember _ _ hOld hFree hWrites =>
    have hID := normalizeRoomID_ok hRoom
    by_cases hr : roomKey = roomKey'
    case pos =>
      subst hr
      rw [findsRead_iff hWrites (hID ▸ hKey.symm) hNickname hRead hMember]
      apply h.change (a := actor.agent) (k := nicknameKey)
      case ha     => simp [hMember]
      case hk     => exact nicknameKey_ne_nil hNickname
      case hRead  => simpa using hOld
      case hFree  => simpa using hFree
      case hHolds =>
        intro a
        by_cases ha : a = actor.agent <;> split_ifs <;> simp [ha, renamedMember]
      case hIndex =>
        intro k
        by_cases hk : k = nicknameKey <;> by_cases ho : k = read.nicknameKey <;>
          split_ifs <;> simp_all [nicknameItem]
    case neg =>
      refine iff_of_true (h.congr ?_ ?_) fun _ hk => absurd (hk.symm.trans <| hID ▸ hKey.symm) hr
      · intro k
        split_ifs <;> simp [hr]
      · intro a
        split_ifs <;> simp [hr]
  case post => exact iff_of_true (h.congr (by simp) (by simp)) trivial

end Commit

section Runs

variable [Platform] {limits : Limits}

-- The nickname items of a room are exactly those of the nicknames that its members hold, and no two
-- of these are equal up to case.
structure Reserved (stored : BoardKey → Option DdbItem) (roomKey : GoString) : Prop where
  exact  : Exact (holders stored roomKey) (nicknameKeys stored roomKey)
  unique : ∀ {a b : GoString} {m m' : DdbItem}, stored (.member roomKey a) = some m →
    stored (.member roomKey b) = some m' → m.nickname ≠ [] →
    toLower m.nickname = toLower m'.nickname → a = b

-- What the step has carried out is not a change of a nickname on the basis of an outdated one.
def Current (roomKey : GoString) (tr : List (system limits).Event) (e : (system limits).Event) :
    Prop :=
  ∀ items ∈ committed e.op e.outcome e.store,
    FindsRead (stored e.store) roomKey (System.path e.thread tr) items e.call

theorem reserved_iff {T : Table} {B : Contents} (h : Represents T B) (hf : Folded B)
    (roomKey : GoString) : Reserved (stored T) roomKey ↔
      Exact (holders (B[·]?) roomKey) (nicknameKeys (B[·]?) roomKey) := by
  have hStored : stored T = (B[·]?) := funext (stored_eq h)
  rw [hStored]
  refine ⟨(·.exact), fun hExact => ⟨hExact, fun {a b m m'} hm hm' hne hl => ?_⟩⟩
  have hk : m.nicknameKey ≠ [] := by
    rw [hf _ _ _ hm]
    exact fun he => hne <| toLower_eq_nil.mp he
  have ha := (hExact m.nicknameKey a).mpr ⟨hk, by simp [nicknameKeys, hm]⟩
  have hb := (hExact m.nicknameKey b).mpr ⟨hk, by
    simp [nicknameKeys, hm', hf _ _ _ hm, hf _ _ _ hm', hl]⟩
  exact Option.some.inj <| ha.symm.trans hb

-- The nickname items are exact throughout a run if and only if all nicknames are changed on the
-- basis of current ones.
theorem reservations_exact {roomKey : GoString} {tr : List (system limits).Event}
    {C : (system limits).Config} (h : (system limits).Run tr C) :
    (∀ e ∈ tr, Reserved (stored e.post) roomKey) ↔ System.Each (Current roomKey) tr := by
  have ⟨B, _, _, hB, _⟩ := run_contents
    (I := fun tr B => Folded B ∧
      ((∀ e ∈ tr, Reserved (stored e.post) roomKey) ↔ System.Each (Current roomKey) tr) ∧
      ((∀ e ∈ tr, Reserved (stored e.post) roomKey) →
        Exact (holders (B[·]?) roomKey) (nicknameKeys (B[·]?) roomKey)))
    ⟨by simp [Folded], by simp, by simp [Exact, holders, nicknameKeys]⟩
    (fun {tr e B} ⟨hf, hi, hB⟩ hRep hn => by
      have hr := reserved_iff hRep hf roomKey
      have hCurrent : Current roomKey tr e := by simp [Current, hn]
      simp only [List.forall_mem_append, List.forall_mem_singleton, System.each_append_singleton, hr,
        ←hi, hCurrent, and_true]
      exact ⟨hf, ⟨(·.left), fun h => ⟨h, hB h⟩⟩, (·.right)⟩)
    (fun {tr e B items B'} ⟨hf, hi, hB⟩ hRep hRep' hc hCommit => by
      have hf' := hCommit.folded hf
      have hr := reserved_iff hRep' hf' roomKey
      have hStored : stored e.store = (B[·]?) := funext (stored_eq hRep)
      have hCurrent : Current roomKey tr e ↔
          FindsRead (B[·]?) roomKey (System.path e.thread tr) items e.call := by
        simp [Current, hc, hStored]
      simp only [List.forall_mem_append, List.forall_mem_singleton, System.each_append_singleton, hr,
        ←hi, hCurrent]
      exact ⟨hf', and_congr_right fun h => hCommit.exact (hB h), (·.right)⟩) h
  exact hB

end Runs

section

attribute [local instance] asciiPlatform

theorem reservations_exact_rename :
    let roomKey := Base64.encode "lobby"
    ∃ tr C, (system ⟨50, 100⟩).Run tr C ∧
      (stored C.store (.nickname roomKey "bo")).map (·.agent) = some Sample.bob.agent ∧
      ((∀ e ∈ tr, Reserved (stored e.post) roomKey) ↔ System.Each (Current roomKey) tr) := by
  have h : ((system ⟨50, 100⟩).replay [] ⟨(system ⟨50, 100⟩).init, []⟩
      (moves 0 Sample.create 3 ++ moves 1 (Sample.grant .poster 1) 5 ++
        moves 2 (Sample.rename Sample.bob "Bo" 1) 3)).any fun x =>
          (stored x.2.store (.nickname (Base64.encode "lobby") "bo")).map (·.agent) =
            some Sample.bob.agent := by
    decide
  have ⟨⟨tr, C⟩, hr, hNickname⟩ := (Option.any_eq_true _ _).mp h
  have hNickname := of_decide_eq_true hNickname
  have hRun := System.replay_run .init hr
  exact ⟨tr, C, hRun, hNickname, reservations_exact hRun⟩

-- Bob has seen his membership with version 2, is revoked and let in again. He reads the new
-- membership, which has version 1 and no nickname, to become Max. Before he does, he becomes Carol,
-- which makes for version 2 again.
def staleNickname : List (System.Action Outcome Call) :=
  moves 0 Sample.create 3 ++
  moves 1 (Sample.grant .poster 1) 5 ++
  moves 2 (Sample.rename Sample.bob "Bo" 1) 3 ++
  moves 3 (.getRoomForAgent "lobby" Sample.bob.agent) 2 ++
  moves 4 (Sample.revoke 2) 5 ++
  moves 5 (Sample.grant .poster 3) 5 ++
  moves 6 (Sample.rename Sample.bob "Max" 2) 1 ++
  moves 7 (Sample.rename Sample.bob "Carol" 1) 3 ++
  List.replicate 2 (.step 6 ⟨.zero, [], .served⟩)

theorem reservations_exact_fails :
    let roomKey := Base64.encode "lobby"
    ∃ tr C, (system ⟨50, 100⟩).Run tr C ∧
      (stored C.store (.nickname roomKey "carol")).map (·.agent) = some Sample.bob.agent ∧
      (stored C.store (.member roomKey Sample.bob.agent)).map (·.nicknameKey) =
        some (ofString "max") ∧
      ¬Reserved (stored C.store) roomKey := by
  have h : ((system ⟨50, 100⟩).replay [] ⟨(system ⟨50, 100⟩).init, []⟩ staleNickname).any fun x =>
      (stored x.2.store (.nickname (Base64.encode "lobby") "carol")).map (·.agent) =
        some Sample.bob.agent ∧
      (stored x.2.store (.member (Base64.encode "lobby") Sample.bob.agent)).map (·.nicknameKey) =
        some (ofString "max") := by
    decide
  have ⟨⟨tr, C⟩, hr, he⟩ := (Option.any_eq_true _ _).mp h
  have ⟨hNickname, hMember⟩ := of_decide_eq_true he
  refine ⟨tr, C, System.replay_run .init hr, hNickname, hMember, fun hReserved => ?_⟩
  have hHeld := ((hReserved.exact _ _).mp hNickname).right
  rw [nicknameKeys, hMember] at hHeld
  exact absurd hHeld (by simp)

end

end Board.Dynamo
