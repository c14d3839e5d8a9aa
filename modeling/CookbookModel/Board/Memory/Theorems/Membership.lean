import CookbookModel.Board.Memory.Theorems.Step

namespace Board

variable {r r' : RoomRecord} {s s' : MemoryStore} {m : Membership} {caps : List Capability}
  {key k : GoString} {maxRooms maxMembers : Int}

-- What no call changes of a room.
structure Room.Same (room room' : Room) : Prop where
  roomID      : room'.roomID = room.roomID
  roomKey     : room'.roomKey = room.roomKey
  name        : room'.name = room.name
  description : room'.description = room.description
  owner       : room'.owner = room.owner
  createdAt   : room'.createdAt = room.createdAt
  archived    : room'.archived = room.archived

namespace Room.Same

theorem refl (room : Room) : room.Same room :=
  ⟨rfl, rfl, rfl, rfl, rfl, rfl, rfl⟩

theorem trans (h₁ : Same r₁ r₂) (h₂ : Same r₂ r₃) : Same r₁ r₃ where
  roomID      := h₂.roomID.trans h₁.roomID
  roomKey     := h₂.roomKey.trans h₁.roomKey
  name        := h₂.name.trans h₁.name
  description := h₂.description.trans h₁.description
  owner       := h₂.owner.trans h₁.owner
  createdAt   := h₂.createdAt.trans h₁.createdAt
  archived    := h₂.archived.trans h₁.archived

theorem grant : r.room.Same (r.grant actor target m created tokenJTIHash now).room :=
  ⟨rfl, rfl, rfl, rfl, rfl, rfl, rfl⟩

theorem revoke : r.room.Same (r.revoke actor target m tokenJTIHash now).room :=
  ⟨rfl, rfl, rfl, rfl, rfl, rfl, rfl⟩

end Room.Same

-- What holds of every room and its members.
structure RoomRecord.Sound [Platform] (r : RoomRecord) (limit : Int) : Prop where
  valid        : normalizeRoomID r.room.roomID = .ok r.room.roomID
  active       : r.room.archived = false
  count        : r.room.memberCount = r.members.len
  limited      : r.room.memberCount ≤ limit
  owner        : ∃ m : Membership, r.members[r.room.owner]? = some m ∧ m.role = .owner
  onlyOwner    : ∀ {a : GoString} {m : Membership},
    r.members[a]? = some m → m.role = .owner → a = r.room.owner
  agents       : ∀ {a : GoString} {m : Membership}, r.members[a]? = some m → m.agent = a
  capabilities : ∀ {a : GoString} {m : Membership},
    r.members[a]? = some m → capabilitiesForRole m.role = some m.capabilities

namespace RoomRecord.Sound

variable [Platform]

theorem create (hValid : normalizeRoomID roomID = .ok roomID) (hl : 1 ≤ limit) :
    (RoomRecord.create (newRoom roomID key name description agent now)
      (newOwner roomID key agent [.owner, .manage, .post, .read, .connect] now)
      tokenJTIHash now).Sound limit := by
  constructor <;> simp only [RoomRecord.create, newRoom, newOwner]
  case valid   => exact hValid
  case count   => simp [GoMap.len_set_new]
  case limited => exact hl
  case owner   => exact ⟨_, GoMap.get_set_self, rfl⟩
  all_goals
    intro a m h
    rw [GoMap.get_set] at h
    split at h <;> simp_all
  case capabilities => subst h; rfl
  case agents       => subst h; rfl

-- A member other than the owner is added or changed.
theorem setMember (h : r.Sound limit) (hOwner : target ≠ r.room.owner)
    (hAgent : m.agent = target) (hRole : m.role ≠ .owner)
    (hCapabilities : capabilitiesForRole m.role = some m.capabilities)
    (hMembers : r'.members = r.members.set target m) (hRoom : r.room.Same r'.room)
    (hCount : r'.room.memberCount = r'.members.len) (hLimited : r'.room.memberCount ≤ limit) :
    r'.Sound limit where
  valid   := hRoom.roomID ▸ h.valid
  active  := hRoom.archived.trans h.active
  count   := hCount
  limited := hLimited
  owner := by
    rw [hMembers, hRoom.owner, GoMap.get_set_ne hOwner.symm]
    exact h.owner
  onlyOwner h' hr := by
    rw [hMembers, GoMap.get_set] at h'
    rw [hRoom.owner]
    split at h'
    case isTrue  => cases h'; contradiction
    case isFalse => exact h.onlyOwner h' hr
  agents h' := by
    rw [hMembers, GoMap.get_set] at h'
    split at h'
    case isTrue e => cases h'; rw [hAgent, e]
    case isFalse  => exact h.agents h'
  capabilities h' := by
    rw [hMembers, GoMap.get_set] at h'
    split at h'
    case isTrue  => cases h'; exact hCapabilities
    case isFalse => exact h.capabilities h'

theorem grantNew (h : r.Sound limit) (hOwner : target ≠ r.room.owner)
    (hRole : role ≠ .owner) (hCapabilities : capabilitiesForRole role = some caps)
    (hAbsent : r.members[target]? = none) (hLimit : r.room.memberCount < limit) :
    (r.grant actor target (r.newMember actor target role caps now) true
      tokenJTIHash now).Sound limit := by
  refine h.setMember hOwner rfl hRole hCapabilities rfl .grant ?_ (by simpa [grant])
  simp [grant, GoMap.len_set_new hAbsent, h.count]

theorem grantChange (h : r.Sound limit) (hOwner : target ≠ r.room.owner)
    (hRole : role ≠ .owner) (hCapabilities : capabilitiesForRole role = some caps)
    (hMember : r.members[target]? = some m) :
    (r.grant actor target (r.changedMember m actor target role caps now) false
      tokenJTIHash now).Sound limit := by
  refine h.setMember hOwner rfl hRole hCapabilities rfl .grant ?_ (by simpa [grant] using h.limited)
  simp [grant, GoMap.len_set_old hMember, h.count]

theorem revoke (h : r.Sound limit) (hOwner : target ≠ r.room.owner)
    (hMember : r.members[target]? = some m) :
    (r.revoke actor target m tokenJTIHash now).Sound limit := by
  constructor <;> simp only [RoomRecord.revoke]
  case valid  => exact h.valid
  case active => exact h.active
  case count =>
    have := GoMap.len_pos hMember
    rw [GoMap.len_delete hMember, h.count]
    omega
  case limited =>
    have := h.limited
    omega
  case owner =>
    rw [GoMap.get_delete_ne hOwner.symm]
    exact h.owner
  all_goals
    intro a m' h'
    rw [GoMap.get_delete] at h'
    split at h' <;> try contradiction
  case onlyOwner    => exact h.onlyOwner h'
  case agents       => exact h.agents h'
  case capabilities => exact h.capabilities h'

theorem rename (h : r.Sound limit) (hMember : r.members[actor]? = some m) :
    (r.rename actor m name nameKey now).Sound limit := by
  constructor <;> simp only [RoomRecord.rename]
  case valid   => exact h.valid
  case active  => exact h.active
  case count   => rw [GoMap.len_set_old hMember, h.count]
  case limited => exact h.limited
  case owner =>
    rw [GoMap.get_set]
    split
    case isTrue e =>
      have ⟨m', hm', hr⟩ := h.owner
      rw [e, hMember] at hm'
      cases hm'
      exact ⟨_, rfl, hr⟩
    case isFalse => exact h.owner
  all_goals
    intro a m' h'
    rw [GoMap.get_set] at h'
    split at h'
  case onlyOwner.isTrue e     => cases h'; subst e; exact h.onlyOwner (m := m) hMember
  case onlyOwner.isFalse      => exact h.onlyOwner h'
  case agents.isTrue e        => cases h'; subst e; exact h.agents (m := m) hMember
  case agents.isFalse         => exact h.agents h'
  case capabilities.isTrue    => cases h'; exact h.capabilities (m := m) hMember
  case capabilities.isFalse   => exact h.capabilities h'

theorem post (h : r.Sound limit) : (r.post key msg).Sound limit :=
  ⟨h.valid, h.active, h.count, h.limited, h.owner, h.onlyOwner, h.agents, h.capabilities⟩

end RoomRecord.Sound

-- What holds of every state that the memory store reaches.
structure MemoryStore.Sound [Platform] (s : MemoryStore) : Prop where
  records    : ∀ {key : GoString} {r : RoomRecord}, s.rooms[key]? = some r →
    r.Sound (max 1 s.maxMembersPerRoom)
  rooms      : ∀ {key : GoString} {r : RoomRecord}, s.rooms[key]? = some r →
    r.room.roomKey = key ∧ s.roomKeys[r.room.roomID]? = some key
  roomKeys   : ∀ {roomID key : GoString}, s.roomKeys[roomID]? = some key →
    ∃ r : RoomRecord, s.rooms[key]? = some r ∧ r.room.roomID = roomID
  encoded    : ∀ {roomID key : GoString}, s.roomKeys[roomID]? = some key → key = Base64.encode roomID
  quotas     : ∀ a, s.quota a = s.rooms.count (·.room.owner = a)
  quotaLimit : ∀ a, s.quota a ≤ max 0 s.maxRoomsPerAgent

namespace MemoryStore

theorem quota_addRoom (a : GoString) :
    (s.addRoom roomID key agent r).quota a = if a = agent then s.quota a + 1 else s.quota a := by
  simp only [addRoom, quota, GoMap.get_set]
  split
  case isTrue e => rw [e, Option.getD_some]
  case isFalse  => rfl

@[simp]
theorem quota_putRecord (a : GoString) : (s.putRecord key r).quota a = s.quota a :=
  rfl

namespace Sound

variable [Platform]

theorem new : (new maxRooms maxMembers).Sound := by
  constructor <;> simp [MemoryStore.new, quota]

-- The record of a room is replaced by one for the same room and owner.
theorem putRecord (h : s.Sound) (hr : s.rooms[key]? = some r)
    (hr' : r'.Sound (max 1 s.maxMembersPerRoom)) (hRoom : r.room.Same r'.room) :
    (s.putRecord key r').Sound := by
  constructor <;> simp only [↓quota_putRecord, MemoryStore.putRecord]
  case records =>
    intro k r'' hk
    rw [GoMap.get_set] at hk
    split at hk
    case isTrue  => cases hk; exact hr'
    case isFalse => exact h.records hk
  case rooms =>
    intro k r'' hk
    rw [GoMap.get_set] at hk
    split at hk
    case isTrue e => cases hk; rw [hRoom.roomKey, hRoom.roomID, e]; exact h.rooms hr
    case isFalse  => exact h.rooms hk
  case roomKeys =>
    intro id k hk
    rw [GoMap.get_set]
    obtain ⟨r'', hr'', hid⟩ := h.roomKeys hk
    split
    case isTrue e =>
      rw [e, hr] at hr''
      cases hr''
      exact ⟨r', rfl, hRoom.roomID.trans hid⟩
    case isFalse => exact ⟨r'', hr'', hid⟩
  case encoded => exact h.encoded
  case quotas =>
    intro a
    rw [GoMap.count_set_old hr (by rw [hRoom.owner])]
    exact h.quotas a
  case quotaLimit => exact h.quotaLimit

theorem rooms_fresh (h : s.Sound) (hFresh : s.roomKeys[roomID]? = none) :
    s.rooms[Base64.encode roomID]? = none := by
  by_contra hn
  have ⟨r, hr⟩ := Option.ne_none_iff_exists'.mp hn
  have ⟨_, hKey⟩ := h.rooms hr
  have he := Base64.encode_injective <| h.encoded hKey
  rw [←he, hFresh] at hKey
  contradiction

theorem addRoom (h : s.Sound) (hr : r.Sound (max 1 s.maxMembersPerRoom))
    (hFresh : s.roomKeys[r.room.roomID]? = none) (hQuota : s.quota agent < s.maxRoomsPerAgent)
    (hKey : r.room.roomKey = Base64.encode r.room.roomID) (hOwner : r.room.owner = agent) :
    (s.addRoom r.room.roomID r.room.roomKey agent r).Sound := by
  have hFresh' := h.rooms_fresh hFresh
  rw [←hKey] at hFresh'
  constructor <;> simp only [↓quota_addRoom, MemoryStore.addRoom]
  case records =>
    intro k r' hk
    rw [GoMap.get_set] at hk
    split at hk
    case isTrue  => cases hk; exact hr
    case isFalse => exact h.records hk
  case rooms =>
    intro k r' hk
    rw [GoMap.get_set] at hk
    split at hk
    case isTrue e => cases hk; exact ⟨e.symm, e ▸ GoMap.get_set_self⟩
    case isFalse  =>
      obtain ⟨hk₁, hk₂⟩ := h.rooms hk
      refine ⟨hk₁, ?_⟩
      rw [GoMap.get_set_ne]
      · exact hk₂
      · intro e
        rw [e, hFresh] at hk₂
        contradiction
  case roomKeys =>
    intro id k hk
    rw [GoMap.get_set] at hk
    split at hk
    case isTrue e => cases hk; exact ⟨r, GoMap.get_set_self, e.symm⟩
    case isFalse =>
      obtain ⟨r', hr', hid⟩ := h.roomKeys hk
      refine ⟨r', ?_, hid⟩
      rw [GoMap.get_set_ne]
      · exact hr'
      · intro e
        rw [e, hFresh'] at hr'
        contradiction
  case encoded =>
    intro id k hk
    rw [GoMap.get_set] at hk
    split at hk
    case isTrue e => cases hk; rw [hKey, e]
    case isFalse  => exact h.encoded hk
  case quotas =>
    intro a
    rw [GoMap.count_set_new hFresh', h.quotas a]
    split
    case isTrue e  => simp [hOwner, e]
    case isFalse e => simp [hOwner, Ne.symm e]
  case quotaLimit =>
    intro a
    split
    case isTrue e  => subst e; omega
    case isFalse e => exact h.quotaLimit a

end Sound
end MemoryStore

namespace Memory

variable [Platform]

theorem Change.same (h : Change w limit r c reply r') : r.room.Same r'.room := by
  cases h
  case grantNew    => exact .grant
  case grantChange => exact .grant
  case revoke      => exact .revoke
  all_goals exact .refl _

theorem Change.sound (h : Change w limit r c reply r') (hr : r.Sound (max 1 limit)) :
    r'.Sound (max 1 limit) := by
  cases h
  case grantNew hChecks hCapabilities hRole hAbsent hLimit hNew =>
    subst hNew
    exact hr.grantNew hChecks.notOwner hRole hCapabilities hAbsent (lt_max_of_lt_right hLimit)
  case grantChange hChecks hCapabilities hRole hMember hChange hNotOwner hNew =>
    subst hNew
    exact hr.grantChange hChecks.notOwner hRole hCapabilities hMember
  case revoke hChecks hMember hNotOwner    => exact hr.revoke hChecks.notOwner hMember
  case nicknameChange hActor hFree hChange => exact hr.rename hActor.member
  case post                                => exact hr.post
  all_goals exact hr

theorem Step.sound (h : Step w s c reply s') (hs : s.Sound) : s'.Sound := by
  cases h
  case create hValid hFresh hQuota hRoom hOwner =>
    subst hRoom hOwner
    exact hs.addRoom (.create hValid (le_max_left _ _)) hFresh hQuota rfl rfl
  case change hValid hLocated hChange =>
    exact hs.putRecord hLocated.byKey (hChange.sound <| hs.records hLocated.byKey) hChange.same

end Memory

-- What a member keeps when it does no more than change its nickname.
structure Membership.Kept (m m' : Membership) : Prop where
  agent        : m'.agent = m.agent
  role         : m'.role = m.role
  capabilities : m'.capabilities = m.capabilities
  createdBy    : m'.createdBy = m.createdBy
  createdAt    : m'.createdAt = m.createdAt
  version      : m.version ≤ m'.version

namespace Membership.Kept

theorem refl (m : Membership) : m.Kept m :=
  ⟨rfl, rfl, rfl, rfl, rfl, le_refl _⟩

theorem trans (h₁ : Kept m₁ m₂) (h₂ : Kept m₂ m₃) : Kept m₁ m₃ where
  agent        := h₂.agent.trans h₁.agent
  role         := h₂.role.trans h₁.role
  capabilities := h₂.capabilities.trans h₁.capabilities
  createdBy    := h₂.createdBy.trans h₁.createdBy
  createdAt    := h₂.createdAt.trans h₁.createdAt
  version      := h₁.version.trans h₂.version

end Membership.Kept

-- A membership that is stored stays stored.
def Membership.StaysKept (m₁ m₂ : Option Membership) : Prop :=
  ∀ ⦃m⦄, m₁ = some m → ∃ m', m₂ = some m' ∧ m.Kept m'

namespace Membership.StaysKept

theorem refl (m : Option Membership) : StaysKept m m :=
  fun _ h => ⟨_, h, .refl _⟩

theorem trans (h₁ : StaysKept m₁ m₂) (h₂ : StaysKept m₂ m₃) : StaysKept m₁ m₃ := by
  intro m hm
  have ⟨m', hm', hk'⟩ := h₁ hm
  have ⟨m'', hm'', hk''⟩ := h₂ hm'
  exact ⟨m'', hm'', hk'.trans hk''⟩

end Membership.StaysKept

-- Between two states, no room goes away or becomes another one, and `R` relates what is stored for
-- the owner of a room in the first state to what is stored for it in the second.
def MemoryStore.Owners
    (R : Option Membership → Option Membership → Prop) (s s' : MemoryStore) : Prop :=
  ∀ ⦃key : GoString⦄ ⦃r : RoomRecord⦄, s.rooms[key]? = some r → ∃ r' : RoomRecord,
    s'.rooms[key]? = some r' ∧ r.room.Same r'.room ∧
    R r.members[r.room.owner]? r'.members[r.room.owner]?

namespace MemoryStore.Owners

variable {R : Option Membership → Option Membership → Prop} {s₁ s₂ s₃ : MemoryStore}

theorem refl (hR : ∀ m, R m m) (s : MemoryStore) : s.Owners R s :=
  fun _ _ hr => ⟨_, hr, .refl _, hR _⟩

theorem trans (hR : ∀ {m₁ m₂ m₃}, R m₁ m₂ → R m₂ m₃ → R m₁ m₃) (h₁ : s₁.Owners R s₂)
    (h₂ : s₂.Owners R s₃) : s₁.Owners R s₃ := by
  intro key r hr
  have ⟨r', hr', hRoom', hm'⟩ := h₁ hr
  have ⟨r'', hr'', hRoom'', hm''⟩ := h₂ hr'
  rw [hRoom'.owner] at hm''
  exact ⟨r'', hr'', hRoom'.trans hRoom'', hR hm' hm''⟩

end MemoryStore.Owners

-- The calls that are told the name of an agent to act on.
def Call.updatesAllowlist : Call → Bool
  | .grantAllowlist .. | .revokeAllowlist .. => true
  | _                                        => false

-- The history has a successful creation of the room by its owner, and the owner's membership is
-- the one that this creation has made.
def Memory.Founded (h : List (Completed Call Memory.Stamp (Except Err Reply))) (r : RoomRecord) :
    Prop :=
  ∃ actor input w room, ⟨.createRoom actor input, w, .ok (.room room)⟩ ∈ h ∧
    room.roomID = r.room.roomID ∧ room.owner = r.room.owner ∧ actor.agent = r.room.owner ∧
    ∃ m : Membership, r.members[r.room.owner]? = some m ∧ m.role = .owner ∧
      m.createdBy = actor.agent ∧ m.createdAt = w.now

namespace Memory

variable [Platform] {h : List (Completed Call Stamp (Except Err Reply))}

theorem Change.owner (h : Change w limit r c reply r') :
    Membership.StaysKept r.members[r.room.owner]? r'.members[r.room.owner]? := by
  cases h
  case grantNew hChecks hCapabilities hRole hAbsent hLimit hNew =>
    simpa only [RoomRecord.grant, GoMap.get_set_ne hChecks.notOwner.symm] using .refl _
  case grantChange hChecks hCapabilities hRole hMember hChange hNotOwner hNew =>
    simpa only [RoomRecord.grant, GoMap.get_set_ne hChecks.notOwner.symm] using .refl _
  case revoke hChecks hMember hNotOwner =>
    simpa only [RoomRecord.revoke, GoMap.get_delete_ne hChecks.notOwner.symm] using .refl _
  case nicknameChange hActor hFree hChange =>
    rw [RoomRecord.rename, GoMap.get_set]
    split
    case isTrue e =>
      rw [e, hActor.member]
      intro m hm
      cases hm
      exact ⟨_, rfl, rfl, rfl, rfl, rfl, rfl, by simp [RoomRecord.renamedMember]⟩
    case isFalse => exact .refl _
  all_goals exact .refl _

theorem Change.owner_eq (h : Change w limit r c reply r') (hc : c.updatesAllowlist) :
    r.members[r.room.owner]? = r'.members[r.room.owner]? := by
  cases h <;> try contradiction
  case grantSame => rfl
  case grantNew hChecks hCapabilities hRole hAbsent hLimit hNew =>
    exact GoMap.get_set_ne hChecks.notOwner.symm |>.symm
  case grantChange hChecks hCapabilities hRole hMember hChange hNotOwner hNew =>
    exact GoMap.get_set_ne hChecks.notOwner.symm |>.symm
  case revoke hChecks hMember hNotOwner =>
    exact GoMap.get_delete_ne hChecks.notOwner.symm |>.symm

theorem Step.owners (h : Step w s c reply s') (hs : s.Sound) :
    s.Owners Membership.StaysKept s' := by
  intro key r hr
  have ⟨r', hr', hc⟩ := h.record hr hs.rooms_fresh
  cases hc
  case inl he => exact he ▸ ⟨r', hr', .refl _, .refl _⟩
  case inr hc => exact ⟨r', hr', hc.right.same, hc.right.owner⟩

theorem Step.owners_eq (h : Step w s c reply s') (hs : s.Sound) (hc : c.updatesAllowlist) :
    s.Owners Eq s' := by
  intro key r hr
  have ⟨r', hr', hc'⟩ := h.record hr hs.rooms_fresh
  cases hc'
  case inl he  => exact he ▸ ⟨r', hr', .refl _, rfl⟩
  case inr hc' => exact ⟨r', hr', hc'.right.same, hc'.right.owner_eq hc⟩

omit [Platform] in
theorem Founded.mono (hf : Founded h r) : Founded (h ++ h') r := by
  have ⟨actor, input, w, room, hc, hf⟩ := hf
  exact ⟨actor, input, w, room, List.mem_append_left _ hc, hf⟩

omit [Platform] in
theorem Founded.kept (hf : Founded h r) (hRoom : r.room.Same r'.room)
    (hm : Membership.StaysKept r.members[r.room.owner]? r'.members[r.room.owner]?) :
    Founded h r' := by
  have ⟨actor, input, w, room, hc, hID', hOwner', hActor, m, hMember, hRole, hBy, hAt⟩ := hf
  have ⟨m', hm', hk⟩ := hm hMember
  rw [←hRoom.owner] at hm'
  exact ⟨actor, input, w, room, hc, hRoom.roomID ▸ hID', hRoom.owner ▸ hOwner',
    hRoom.owner ▸ hActor, m', hm',
    hk.role.trans hRole, hk.createdBy.trans hBy, hk.createdAt.trans hAt⟩

-- A room of the new state is one of the old state or has just been created.
theorem Step.room_origin {r : RoomRecord} (hStep : Step w s c reply s')
    (hr : s'.rooms[key]? = some r) :
    (∃ r₀ : RoomRecord, s.rooms[key]? = some r₀) ∨ Founded (h ++ [⟨c, w, .ok reply⟩]) r := by
  cases hStep
  case create actor input room owner hValid hFresh hQuota hRoom hOwner =>
    rw [MemoryStore.addRoom, GoMap.get_set] at hr
    split at hr
    case isTrue =>
      cases hr
      subst hRoom hOwner
      exact .inr ⟨actor, input, w, _, List.mem_append_right _ <| List.mem_singleton.mpr rfl, rfl,
        rfl, rfl, _, GoMap.get_set_self, rfl, rfl, rfl⟩
    case isFalse => exact .inl ⟨r, hr⟩
  case change hValid hLocated hChange =>
    rw [MemoryStore.putRecord, GoMap.get_set] at hr
    split at hr
    case isTrue e => exact .inl ⟨_, e ▸ hLocated.byKey⟩
    case isFalse  => exact .inl ⟨r, hr⟩

theorem Step.founded (hStep : Step w s c reply s') (hs : s.Sound)
    (hf : ∀ ⦃key : GoString⦄ ⦃r : RoomRecord⦄, s.rooms[key]? = some r → Founded h r)
    ⦃key : GoString⦄ ⦃r : RoomRecord⦄ (hr : s'.rooms[key]? = some r) :
    Founded (h ++ [⟨c, w, .ok reply⟩]) r := by
  cases hStep.room_origin (h := h) hr
  case inl ho =>
    have ⟨r₀, hr₀⟩ := ho
    have ⟨r', hr', hRoom, hMember⟩ := hStep.owners hs hr₀
    rw [hr] at hr'
    cases hr'
    exact (hf hr₀).mono.kept hRoom hMember
  case inr hf => exact hf

-- What a run preserves: the limits, soundness, and that owners founded their rooms.
structure Governed (maxRooms maxMembers : Int)
    (h : List (Completed Call Stamp (Except Err Reply))) (s : MemoryStore) : Prop where
  roomLimit   : s.maxRoomsPerAgent = maxRooms
  memberLimit : s.maxMembersPerRoom = maxMembers
  sound       : s.Sound
  founded     : ∀ ⦃key : GoString⦄ ⦃r : RoomRecord⦄, s.rooms[key]? = some r → Founded h r

theorem Step.limits (h : Step w s c reply s') :
    s'.maxRoomsPerAgent = s.maxRoomsPerAgent ∧ s'.maxMembersPerRoom = s.maxMembersPerRoom := by
  cases h <;> exact ⟨rfl, rfl⟩

theorem Governed.call (hg : Governed maxRooms maxMembers h s) (c : Call) (w : Stamp) :
    Governed maxRooms maxMembers (h ++ [⟨c, w, (exec c w s).1⟩]) (exec c w s).2 := by
  cases exec_cases c w s
  case inl he =>
    have ⟨e, he⟩ := he
    rw [he]
    exact ⟨hg.roomLimit, hg.memberLimit, hg.sound, fun _ _ hr => (hg.founded hr).mono⟩
  case inr hs =>
    have ⟨reply, s', hs, hStep⟩ := hs
    rw [hs]
    have ⟨hRooms, hMembers⟩ := hStep.limits
    exact ⟨hRooms.trans hg.roomLimit, hMembers.trans hg.memberLimit, hStep.sound hg.sound,
      hStep.founded hg.sound hg.founded⟩

theorem governed (hh : History exec (.new maxRooms maxMembers) h s) :
    Governed maxRooms maxMembers h s :=
  hh.invariant ⟨rfl, rfl, .new, fun _ _ hr => by simp [MemoryStore.new] at hr⟩
    fun c w hg => hg.call c w

theorem owners_exec (hs : s.Sound) (c : Call) (w : Stamp) :
    s.Owners Membership.StaysKept (exec c w s).2 := by
  cases exec_cases c w s
  case inl he =>
    have ⟨e, he⟩ := he
    rw [he]
    exact .refl .refl s
  case inr h =>
    have ⟨reply, s', hs', hStep⟩ := h
    rw [hs']
    exact hStep.owners hs

theorem owners_run (hh : History exec (.new maxRooms maxMembers) h s)
    (hh' : History exec s h' s') : s.Owners Membership.StaysKept s' := by
  induction hh'
  case init => exact .refl .refl s
  case call c w hh' hi =>
    have hs := (governed <| hh.append hh').sound
    exact hi.trans Membership.StaysKept.trans <| owners_exec hs c w

theorem owners_eq_exec (hs : s.Sound) (c : Call) (w : Stamp) (hc : c.updatesAllowlist) :
    s.Owners Eq (exec c w s).2 := by
  cases exec_cases c w s
  case inl he =>
    have ⟨e, he⟩ := he
    rw [he]
    exact .refl Eq.refl s
  case inr h =>
    have ⟨reply, s', hs', hStep⟩ := h
    rw [hs']
    exact hStep.owners_eq hs hc

-- Whatever is called, every state has sound rooms that belong to their founders. The owner of a
-- room keeps its membership from any state to any later one, and no grant or revoke touches it,
-- however the target is spelled.
theorem membership_invariant (hm : 1 ≤ maxMembers)
    (hh : History exec (.new maxRooms maxMembers) h s) :
    Governed maxRooms maxMembers h s ∧
    (∀ ⦃key : GoString⦄ ⦃r : RoomRecord⦄, s.rooms[key]? = some r → r.Sound maxMembers) ∧
    (∀ h' s', History exec s h' s' → s.Owners Membership.StaysKept s') ∧
    (∀ c w, c.updatesAllowlist → s.Owners Eq (exec c w s).2) := by
  have hg := governed hh
  refine ⟨hg, fun key r hr => ?_, fun _ _ hh' => owners_run hh hh', owners_eq_exec hg.sound⟩
  have hs := hg.sound.records hr
  rwa [hg.memberLimit, max_eq_right hm] at hs

end Memory

namespace Memory

attribute [local instance] asciiPlatform

theorem membership_invariant_grant :
    let w : Stamp := ⟨.zero, []⟩
    let s := (exec Sample.create w (.new 50 100)).2
    (exec (Sample.grant .poster 1) w s).2.Sound ∧ s.Owners Eq (exec (Sample.grant .poster 1) w s).2 ∧
      ∃ m, (exec (Sample.grant .poster 1) w s).1 = .ok (.granted m true) :=
  let w : Stamp := ⟨.zero, []⟩
  have h := History.init.call Sample.create w
  have hi := membership_invariant (by decide) h
  have hi' := membership_invariant (by decide) (h.call (Sample.grant .poster 1) w)
  ⟨hi'.left.sound, hi.right.right.right _ w rfl, _, rfl⟩

end Memory
end Board
