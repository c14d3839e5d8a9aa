import CookbookModel.Board.Memory.Theorems.Membership

namespace Board

open GoString

section

variable [Platform] {r r' : RoomRecord} {s s' : MemoryStore} {m : Membership}
  {key k : GoString} {maxRooms maxMembers : Int}

-- The agent is a member and holds a nickname with this key.
abbrev RoomRecord.Holds (r : RoomRecord) (a k : GoString) : Prop :=
  ∃ m : Membership, r.members[a]? = some m ∧ m.nicknameKey = k ∧ k ≠ []

-- The nickname index of a room lists exactly the nicknames that its members hold.
structure RoomRecord.Indexed (r : RoomRecord) : Prop where
  exact  : ∀ (k a : GoString), r.nicknames[k]? = some a ↔ r.Holds a k
  folded : ∀ {a : GoString} {m : Membership},
    r.members[a]? = some m → m.nicknameKey = toLower m.nickname

namespace RoomRecord.Indexed

theorem create (hAgent : m.nicknameKey = []) (hm : m.nickname = []) :
    (RoomRecord.create room₀ m tokenJTIHash now).Indexed where
  exact k a := by
    simp only [RoomRecord.create, RoomRecord.Holds, GoMap.get_empty, GoMap.get_set, reduceCtorEq, false_iff]
    rintro ⟨m', h, hk, hne⟩
    split at h
    case isTrue  => cases h; exact hne (hk ▸ hAgent)
    case isFalse => simp at h
  folded h := by
    rw [RoomRecord.create, GoMap.get_set] at h
    split at h
    case isTrue  => cases h; rw [hAgent, hm, toLower_eq_nil.mpr rfl]
    case isFalse => simp at h

-- A grant leaves the index and all nicknames as they are.
theorem grant (h : r.Indexed)
    (hName : ((r.members[target]?).map (·.nickname)).getD [] = m.nickname)
    (hKey : ((r.members[target]?).map (·.nicknameKey)).getD [] = m.nicknameKey) :
    (r.grant actor target m created tokenJTIHash now).Indexed where
  exact k a := by
    simp only [RoomRecord.grant, h.exact k a, RoomRecord.Holds, GoMap.get_set]
    split
    case isTrue e =>
      subst e
      cases hm : r.members[a]? <;> simp_all
    case isFalse => rfl
  folded {a _} h' := by
    rw [RoomRecord.grant, GoMap.get_set] at h'
    split at h'
    case isTrue e =>
      cases h'
      cases hm : r.members[target]?
      case none   => simp_all [toLower_eq_nil.mpr]
      case some m => simpa [hm, ←hName, ←hKey] using h.folded hm
    case isFalse => exact h.folded h'

theorem nonempty (h : r.Indexed) (hk : r.nicknames[k]? = some a) : k ≠ [] :=
  have ⟨_, _, _, hne⟩ := (h.exact k a).mp hk
  hne

theorem key_eq (h : r.Indexed) (hm : r.members[a]? = some m) (hk : r.nicknames[k]? = some a) :
    m.nicknameKey = k := by
  have ⟨m', hm', hKey, _⟩ := (h.exact k a).mp hk
  rw [hm] at hm'
  cases hm'
  exact hKey

theorem revoke (h : r.Indexed) (hMember : r.members[target]? = some m) :
    (r.revoke actor target m tokenJTIHash now).Indexed where
  exact k a := by
    -- An empty key is in no index, so it makes no difference whether it is released.
    have hReleased : (if m.nicknameKey ≠ [] then r.nicknames.delete m.nicknameKey
        else r.nicknames)[k]? = some a ↔ r.nicknames[k]? = some a ∧ k ≠ m.nicknameKey := by
      split
      case isTrue => rw [GoMap.get_delete]; split <;> simp_all
      case isFalse hn =>
        rw [not_not] at hn
        exact ⟨fun hk => ⟨hk, hn ▸ h.nonempty hk⟩, And.left⟩
    simp only [RoomRecord.revoke, RoomRecord.Holds, hReleased, GoMap.get_delete]
    split
    case isTrue e =>
      subst e
      simp only [reduceCtorEq, false_and, exists_false, iff_false, not_and, not_not]
      exact fun hk => (h.key_eq hMember hk).symm
    case isFalse e =>
      rw [h.exact k a]
      refine ⟨And.left, fun hm => ⟨hm, fun hk => e ?_⟩⟩
      have hTarget := (h.exact k target).mpr ⟨m, hMember, hk.symm, hm.choose_spec.right.right⟩
      rw [(h.exact k a).mpr hm] at hTarget
      exact Option.some_inj.mp hTarget
  folded h' := by
    rw [RoomRecord.revoke, GoMap.get_delete] at h'
    split at h' <;> try contradiction
    exact h.folded h'

theorem rename (h : r.Indexed) (hMember : r.members[actor]? = some m)
    (hFree : ∀ a, r.nicknames[nameKey]? = some a → a = actor) (hName : name ≠ [])
    (hKey : nameKey = toLower name) : (r.rename actor m name nameKey now).Indexed where
  exact k a := by
    have hne : nameKey ≠ [] := by simpa [hKey] using hName
    have hReleased : (if m.nicknameKey ≠ [] ∧ m.nicknameKey ≠ nameKey then
        r.nicknames.delete m.nicknameKey else r.nicknames)[k]? = some a ↔
        r.nicknames[k]? = some a ∧ (k = m.nicknameKey → k = nameKey) := by
      split
      case isTrue hc => rw [GoMap.get_delete]; split <;> simp_all
      case isFalse hn =>
        refine ⟨fun hk => ⟨hk, fun e => ?_⟩, And.left⟩
        have hk' := h.nonempty hk
        grind
    simp only [RoomRecord.rename, RoomRecord.Holds, GoMap.get_set]
    by_cases ek : k = nameKey
    case pos =>
      by_cases ea : a = actor
      case pos => simp [ek, ea, hne, RoomRecord.renamedMember]
      case neg =>
        -- Another member that held the key would be in the index.
        simp only [ek, ea, reduceIte, Option.some.injEq]
        refine ⟨fun e => absurd e.symm ea, fun hm => absurd (hFree a ?_) ea⟩
        exact (h.exact nameKey a).mpr hm
    case neg =>
      by_cases ea : a = actor
      case pos =>
        subst ea
        simp only [ek, reduceIte, hReleased, imp_false, Option.some.injEq, exists_eq_left',
          RoomRecord.renamedMember, Ne.symm ek, false_and, iff_false, not_and, not_not]
        exact fun hk => (h.key_eq hMember hk).symm
      case neg =>
        simp only [ek, ea, reduceIte, hReleased, imp_false, ←h.exact k a]
        refine ⟨And.left, fun hk => ⟨hk, fun e => ea ?_⟩⟩
        have hActor := (h.exact k actor).mpr ⟨m, hMember, e.symm, h.nonempty hk⟩
        rw [hk] at hActor
        exact Option.some_inj.mp hActor
  folded {a _} h' := by
    rw [RoomRecord.rename, GoMap.get_set] at h'
    split at h'
    case isTrue  => cases h'; exact hKey
    case isFalse => exact h.folded h'

theorem post (h : r.Indexed) : (r.post idem msg).Indexed :=
  ⟨h.exact, h.folded⟩

end RoomRecord.Indexed

namespace Memory

theorem Change.indexed (h : Change w limit r c reply r') (hr : r.Indexed) : r'.Indexed := by
  cases h
  case grantNew hChecks hCapabilities hRole hAbsent hLimit hNew =>
    subst hNew
    refine hr.grant ?_ ?_ <;> simp [hAbsent, RoomRecord.newMember]
  case grantChange hChecks hCapabilities hRole hMember hChange hNotOwner hNew =>
    subst hNew
    refine hr.grant ?_ ?_ <;> simp [hMember, RoomRecord.changedMember]
  case revoke hChecks hMember hNotOwner => exact hr.revoke hMember
  case nicknameChange hNickname hActive hActor hFree hChange =>
    have ⟨hName, hKey⟩ := nickname_ok hNickname
    exact hr.rename hActor.member hFree hName hKey
  case post => exact hr.post
  all_goals exact hr

theorem indexed {h : List (Completed Call Stamp (Except Err Reply))}
    (hh : History exec (.new maxRooms maxMembers) h s) :
    ∀ {key : GoString} {r : RoomRecord}, s.rooms[key]? = some r → r.Indexed := by
  induction hh
  case init           => exact fun hr => by simp [MemoryStore.new] at hr
  case call c w hh hi => exact exec_forall_rooms c w hi (.create rfl rfl) fun hr hc => hc.indexed hr

-- Every member of the room that asks for a nickname with this key gets it.
def Available (s : MemoryStore) (r : RoomRecord) (k : GoString) : Prop :=
  ∀ (actor : Identity) (v name : GoString) (version : Int) (w : Stamp) (m : Membership),
    r.members[actor.agent]? = some m → version = 0 ∨ m.version = version →
    nickname v = .ok (name, k) → ∃ m' s',
      exec (.setNickname actor ⟨r.room.roomID, v, version⟩) w s = (.ok (.membership m'), s') ∧
      m'.nickname = name ∧ m'.nicknameKey = k

-- A key that no member holds is available.
theorem available (hs : s.Sound) (hi : r.Indexed) (hr : s.rooms[key]? = some r)
    (hn : ∀ a, ¬r.Holds a k) : Available s r k := by
  intro actor v name version w m hMember hVersion hNickname
  have hSound := hs.records hr
  have hLocated : Located s r.room.roomID key r := ⟨(hs.rooms hr).right, hr⟩
  have hRole : roleCan m.role .updateNickname := by
    have := hSound.capabilities hMember
    cases hm : m.role <;> simp_all [roleCan, capabilitiesForRole]
  let input : SetNicknameInput := ⟨r.room.roomID, v, version⟩
  have hActor : Permitted r actor.agent input.actorMemberVersion .updateNickname m :=
    ⟨hMember, hVersion, hRole⟩
  have hFree : ∀ a, r.nicknames[k]? = some a → a = actor.agent :=
    fun a ha => absurd ((hi.exact k a).mp ha) (hn a)
  by_cases hSame : m.nickname = name ∧ m.nicknameKey = k
  case pos =>
    have hStep := Step.same (c := .setNickname actor input) (w := w) hSound.valid hLocated <|
      .nicknameSame hNickname hSound.active hActor hFree hSame
    exact ⟨_, _, exec_ok.mpr hStep, hSame⟩
  case neg =>
    have hStep := Step.change (c := .setNickname actor input) (w := w) hSound.valid hLocated <|
      .nicknameChange hNickname hSound.active hActor hFree hSame
    exact ⟨_, _, exec_ok.mpr hStep, rfl, rfl⟩

-- Two members hold no nicknames that are equal up to case.
theorem nicknames_unique (hi : r.Indexed) {a b : GoString} {m m' : Membership}
    (ha : r.members[a]? = some m) (hb : r.members[b]? = some m') (hne : m.nickname ≠ [])
    (hFold : toLower m.nickname = toLower m'.nickname) : a = b := by
  have hk : m.nicknameKey ≠ [] := by simpa [hi.folded ha] using hne
  have hKey : m'.nicknameKey = m.nicknameKey := by rw [hi.folded ha, hi.folded hb, hFold]
  have ha' := (hi.exact m.nicknameKey a).mpr ⟨m, ha, rfl, hk⟩
  have hb' := (hi.exact m.nicknameKey b).mpr ⟨m', hb, hKey, hk⟩
  rw [ha'] at hb'
  exact Option.some_inj.mp hb'

-- No call passes a key in the index on from one agent to another.
theorem Change.no_handover (h : Change w limit r c reply r') (ha : r.nicknames[k]? = some a)
    (hb : r'.nicknames[k]? = some b) : a = b := by
  have hSame (he : r'.nicknames = r.nicknames) : a = b := by
    rw [he, ha] at hb
    exact Option.some_inj.mp hb
  have hReleased {m' : GoMap GoString GoString} (old : GoString)
      (he : m' = r.nicknames.delete old ∨ m' = r.nicknames) (hb : m'[k]? = some b) : a = b := by
    cases he
    case inl he =>
      rw [he, GoMap.get_delete] at hb
      split at hb <;> simp_all
    case inr he => simp_all
  cases h
  case revoke m hChecks hMember hNotOwner =>
    refine hReleased m.nicknameKey ?_ hb
    simp only [RoomRecord.revoke]
    split <;> simp
  case nicknameChange nameKey m hNickname hActive hActor hFree hChange =>
    rw [RoomRecord.rename, GoMap.get_set] at hb
    split at hb
    case isTrue e =>
      subst e
      exact (hFree a ha).trans <| Option.some_inj.mp hb
    case isFalse =>
      refine hReleased m.nicknameKey ?_ hb
      split <;> simp
  all_goals exact hSame rfl

theorem exec_record (hs : s.Sound) (hr : s.rooms[key]? = some r) (c : Call) (w : Stamp) :
    ∃ r' : RoomRecord, (exec c w s).2.rooms[key]? = some r' ∧
      (r' = r ∨ ∃ reply, Change w s.maxMembersPerRoom r c reply r') := by
  cases exec_cases c w s
  case inl he =>
    have ⟨e, he⟩ := he
    exact he ▸ ⟨r, hr, .inl rfl⟩
  case inr h =>
    have ⟨reply, s', hs', hStep⟩ := h
    have ⟨r', hr', hc⟩ := hStep.record hr hs.rooms_fresh
    exact hs' ▸ ⟨r', hr', hc.imp id fun hc => ⟨reply, hc.right⟩⟩

-- A key that a call takes away from a member is available afterwards.
theorem released (hs : s.Sound) (hi : r.Indexed) (hr : s.rooms[key]? = some r) (c : Call)
    (w : Stamp) (hr' : (exec c w s).2.rooms[key]? = some r') (hs' : (exec c w s).2.Sound)
    (hi' : r'.Indexed) (ha : r.Holds a k) (ha' : ¬r'.Holds a k) :
    Available (exec c w s).2 r' k := by
  refine available hs' hi' hr' fun b hb => ?_
  have ⟨r'', hr'', hc⟩ := exec_record hs hr c w
  cases hr'.symm.trans hr''
  cases hc
  case inl he => exact ha' (he ▸ ha)
  case inr hc =>
    have ⟨reply, hc⟩ := hc
    have he := hc.no_handover ((hi.exact k a).mpr ha) ((hi'.exact k b).mpr hb)
    exact ha' (he ▸ hb)

-- A grant takes no nickname from anyone.
theorem Change.grant_keeps (h : Change w limit r c reply r')
    (hc : c = .grantAllowlist actor input) :
    r'.nicknames = r.nicknames ∧ ∀ {a : GoString} {m : Membership}, r.members[a]? = some m →
      ∃ m' : Membership, r'.members[a]? = some m' ∧ m'.nickname = m.nickname ∧
        m'.nicknameKey = m.nicknameKey := by
  cases h <;> try contradiction
  case grantSame => exact ⟨rfl, fun h => ⟨_, h, rfl, rfl⟩⟩
  case grantNew hChecks hCapabilities hRole hAbsent hLimit hNew =>
    refine ⟨rfl, fun {a m} h => ⟨m, (GoMap.get_set_ne fun e => ?_).trans h, rfl, rfl⟩⟩
    rw [e, hAbsent] at h
    contradiction
  case grantChange hChecks hCapabilities hRole hMember hChange hNotOwner hNew =>
    refine ⟨rfl, fun {a m} h => ?_⟩
    rw [RoomRecord.grant, GoMap.get_set]
    split
    case isTrue e =>
      subst e
      cases hMember.symm.trans h
      exact ⟨_, rfl, hNew ▸ rfl, hNew ▸ rfl⟩
    case isFalse => exact ⟨m, h, rfl, rfl⟩

-- In every state the index is exact, so that no nickname is held twice. A nickname that a call
-- releases can be taken by every member of the room, and a grant leaves all nicknames in place.
theorem nickname_index_exact {h : List (Completed Call Stamp (Except Err Reply))}
    (hh : History exec (.new maxRooms maxMembers) h s) (hr : s.rooms[key]? = some r) :
    r.Indexed ∧
    (∀ {a b : GoString} {m m' : Membership}, r.members[a]? = some m → r.members[b]? = some m' →
      m.nickname ≠ [] → toLower m.nickname = toLower m'.nickname → a = b) ∧
    (∀ c w r' a k, (exec c w s).2.rooms[key]? = some r' → r.Holds a k → ¬r'.Holds a k →
      Available (exec c w s).2 r' k) ∧
    (∀ actor input w r', (exec (.grantAllowlist actor input) w s).2.rooms[key]? = some r' →
      r'.nicknames = r.nicknames ∧ ∀ {a : GoString} {m : Membership}, r.members[a]? = some m →
        ∃ m' : Membership, r'.members[a]? = some m' ∧ m'.nickname = m.nickname ∧
          m'.nicknameKey = m.nicknameKey) := by
  have hs := (governed hh).sound
  have hi := indexed hh hr
  refine ⟨hi, nicknames_unique hi, fun c w r' a k hr' => ?_, fun actor input w r' hr' => ?_⟩
  case refine_1 =>
    have hh' := hh.call c w
    exact released hs hi hr c w hr' (governed hh').sound (indexed hh' hr')
  case refine_2 =>
    have ⟨r'', hr'', hc⟩ := exec_record hs hr (.grantAllowlist actor input) w
    cases hr'.symm.trans hr''
    cases hc
    case inl he => exact he ▸ ⟨rfl, fun h => ⟨_, h, rfl, rfl⟩⟩
    case inr hc =>
      have ⟨reply, hc⟩ := hc
      exact hc.grant_keeps rfl

end Memory

end

namespace Memory

attribute [local instance] asciiPlatform

theorem nickname_index_exact_rename :
    let w : Stamp := ⟨.zero, []⟩
    let s := (exec Sample.create w (.new 50 100)).2
    let s' := (exec (Sample.rename Sample.alice "Al" 1) w s).2
    ∃ r : RoomRecord, s'.rooms[Base64.encode "lobby"]? = some r ∧ r.Indexed ∧
      r.nicknames[ofString "al"]? = some Sample.alice.agent := by
  intro w s s'
  have hh : History exec (.new 50 100) _ s' := .call _ w <| .call _ w .init
  have hn : s'.rooms[Base64.encode "lobby"]?.bind (·.nicknames[ofString "al"]?) =
      some Sample.alice.agent := rfl
  have ⟨r, hr, hn⟩ := Option.bind_eq_some_iff.mp hn
  exact ⟨r, hr, (nickname_index_exact hh hr).left, hn⟩

end Memory
end Board
