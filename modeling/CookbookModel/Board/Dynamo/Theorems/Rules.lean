import CookbookModel.Board.Dynamo.Contents
import CookbookModel.Board.Dynamo.Theorems.Items

namespace Board.Dynamo

open GoString DynamoDB
open DdbItem (text get_marshalMap getBool_set getNumber_set getText_ok getText_set getTexts_set
  unmarshalMap_marshalMap unmarshalMap_ok)

attribute [local simp]
  Condition.eval Operand.get Path.get Path.resolve TransactWriteItem.bindings
  SetValue.get SetOperand.get SetValue.combine Assignment.apply List.lookup_cons

variable {item : Item} {d member : DdbItem} {k : BoardKey} {x x' : Option Item} {y : Option DdbItem}
  {T T' : Table} {B B' : Contents} {roomKey agent nickname nicknameKey nowText : GoString}

theorem Stored.pk (h : Stored k item d) : item[ofString "PK"]? = some (.S k.key.pk) := by
  have hPK : d.PK = k.key.pk := congrArg Key.pk h.key
  cases getText_ok.mp (unmarshalMap_ok.mp h.fields).PK
  case inl he => exact hPK ▸ he
  case inr he => exact absurd (hPK.symm.trans he.right) k.pk_ne_nil

-- An attribute that is left out if it is empty is equal to nonempty texts only.
theorem holds_eq_text {s s' : GoString} :
    Comparator.eq.holds (text s) (some (.S s')) = true ↔ s = s' ∧ s' ≠ [] := by
  unfold text
  split_ifs
  case pos h => simp [h, eq_comm]
  case neg h => simpa using fun he => he ▸ h

theorem realizes_put (hKey : (⟨d.PK, d.SK⟩ : Key) = k.key) (hPresent : Present d.marshalMap d k) :
    view.Realizes (putItemTxn d "attribute_not_exists(PK)") (.create k d) where
  key := by
    simp only [TransactWriteItem.key, putItemTxn, Write.key, Item.key, get_marshalMap]
    exact congrArg some hKey
  condition h := by
    have hc : Condition.parse "attribute_not_exists(PK)" = some (.attributeNotExists (.name "PK")) :=
      by rfl
    rw [TransactWriteItem.conditionHolds_eq hc]
    cases h
    case none   => simp [Rule.create]
    case some h => simp [Rule.create, Stored.pk h]
  written _ _ := ⟨_, rfl, .some ⟨unmarshalMap_marshalMap d, hKey, hPresent⟩⟩

-- What an item of a transaction requires of a member or a room that has to be there.
theorem condition_iff {t : TransactWriteItem} {c : Condition} {guard : DdbItem → Prop}
    (hc : Condition.parse t.condition = some c) (hEmpty : c.eval t.bindings ∅ = false)
    (hGuard : ∀ {item d}, Stored k item d → (c.eval t.bindings item = true ↔ guard d))
    (h : Option.Rel (view.Stored k) x y) :
    t.conditionHolds (x.getD ∅) = some true ↔ ∃ d ∈ y, guard d := by
  rw [TransactWriteItem.conditionHolds_eq hc]
  cases h
  case none   => rw [Option.getD_none, hEmpty]; simp
  case some h => rw [Option.getD_some, Option.some_inj, hGuard h]; simp

section Checks

def actorRule (roomKey agent : GoString) (version : Int) (action : Action) :
    Rule BoardKey DdbItem :=
  .check (.member roomKey agent) fun d => d.version = version ∧ d.role ∈ actorRoles action

def roomOpenRule (roomKey : GoString) : Rule BoardKey DdbItem :=
  .check (.room roomKey) fun d => d.archived = false

def roomVersionRule (roomKey : GoString) (expectedVersion : Int) : Rule BoardKey DdbItem :=
  .check (.room roomKey) fun d => d.archived = false ∧ d.version = expectedVersion

-- `#role = p₁ OR …`
def roleChecks : List GoString → Condition
  | []      => .attributeExists (.name "PK")
  | [p]     => .compare .eq (.path (.placeholder "#role")) (.value p)
  | p :: ps => .or (.compare .eq (.path (.placeholder "#role")) (.value p)) (roleChecks ps)

theorem parse_actorCondition (action : Action) :
    Condition.parse (actorCondition action) = some (.and (.attributeExists (.name "PK"))
      (.and (.compare .eq (.path (.placeholder "#version")) (.value ":version"))
        (roleChecks ((List.range (actorRoles action).length).map rolePlaceholder)))) := by
  cases action <;> rfl

theorem rolePlaceholders : (List.range 5).map rolePlaceholder =
    [ofString ":role0", ":role1", ":role2", ":role3", ":role4"] :=
  rfl

theorem realizes_actor (version : Int) (action : Action) :
    view.Realizes (actorConditionTxn roomKey agent version action)
      (actorRule roomKey agent version action) where
  key       := rfl
  written h _ := ⟨_, rfl, h⟩
  condition h := by
    refine condition_iff (parse_actorCondition action) (by simp) (fun h => ?_) h
    have ⟨hVersion, hRole, _⟩ := h.present
    have hp := rolePlaceholders
    simp only [List.range_succ, List.range_zero, List.nil_append, List.cons_append, List.map_cons,
      List.map_nil, List.cons.injEq] at hp
    cases action <;>
      simp [actorConditionTxn, actorRoles, List.range_succ, roleChecks, h.pk, hVersion, hRole, hp,
        Role.text_inj]

theorem realizes_roomOpen : view.Realizes (roomOpenConditionTxn roomKey) (roomOpenRule roomKey) where
  key       := rfl
  written h _ := ⟨_, rfl, h⟩
  condition h := by
    have hc : Condition.parse "#archived = :false" =
        some (.compare .eq (.path (.placeholder "#archived")) (.value ":false")) :=
      rfl
    refine condition_iff hc (by simp [roomOpenConditionTxn]) (fun h => ?_) h
    simp [roomOpenConditionTxn, h.present.right.left]

-- `#archived = :false AND #version = :expectedVersion`
def roomCondition : Condition :=
  .and (.compare .eq (.path (.placeholder "#archived")) (.value ":false"))
    (.compare .eq (.path (.placeholder "#version")) (.value ":expectedVersion"))

theorem parse_roomCondition :
    Condition.parse "#archived = :false AND #version = :expectedVersion" = some roomCondition :=
  rfl

theorem realizes_roomVersion (expectedVersion : Int) :
    view.Realizes (roomVersionConditionTxn roomKey expectedVersion)
      (roomVersionRule roomKey expectedVersion) where
  key       := rfl
  written h _ := ⟨_, rfl, h⟩
  condition h := by
    refine condition_iff parse_roomCondition (by simp [roomCondition, roomVersionConditionTxn])
      (fun h => ?_) h
    simp [roomCondition, roomVersionConditionTxn, h.present.left, h.present.right.left]

end Checks

section Rooms

-- The room after a change of its allowlist.
def changedRoom (d : DdbItem) (change : Int) (nowText : GoString) : DdbItem :=
  { d with
    version     := d.version + 1
    updatedAt   := nowText
    memberCount := d.memberCount + change
  }

def grantRoomRule
    (roomKey : GoString) (expectedVersion maxMembersPerRoom : Int) (nowText : GoString)
    (created : Bool) : Rule BoardKey DdbItem :=
  .modify (.room roomKey)
    (fun d => d.archived = false ∧ d.version = expectedVersion ∧
      (created → d.memberCount < maxMembersPerRoom))
    (changedRoom · (if created then 1 else 0) nowText)

def revokeRoomRule (roomKey : GoString) (expectedVersion : Int) (nowText : GoString) :
    Rule BoardKey DdbItem :=
  .modify (.room roomKey) (fun d => d.archived = false ∧ d.version = expectedVersion)
    (changedRoom · (-1) nowText)

-- `#version = #version + :one, updatedAt = :updatedAt`
def countVersion : List Assignment := [
  ⟨.placeholder "#version",
    .plus (.operand (.path (.placeholder "#version"))) (.operand (.value ":one"))⟩,
  ⟨.name "updatedAt", .operand (.operand (.value ":updatedAt"))⟩]

theorem stored_changedRoom (h : Stored (.room roomKey) item d) (change : Int)
    (nowText : GoString) :
    Stored (.room roomKey) (((item.set (ofString "version") (.N (d.version + 1))).set
      (ofString "updatedAt") (.S nowText)).set (ofString "memberCount")
        (.N (d.memberCount + change))) (changedRoom d change nowText) where
  fields := by
    rw [unmarshalMap_ok]
    cases unmarshalMap_ok.mp h.fields
    constructor <;>
      simp [changedRoom, getText_set, getNumber_set, getBool_set, getTexts_set, *]
  key     := h.key
  present := by
    simp [Present, changedRoom, GoMap.get_set, h.present.right.left]

theorem stored_countedRoom (h : Stored (.room roomKey) item d) (nowText : GoString) :
    Stored (.room roomKey) ((item.set (ofString "version") (.N (d.version + 1))).set
      (ofString "updatedAt") (.S nowText)) (changedRoom d 0 nowText) := by
  have hs := stored_changedRoom h 0 nowText
  rwa [GoMap.set_same] at hs
  simp [GoMap.get_set, h.present.right.right]

theorem realizes_grantRoom (expectedVersion maxMembers : Int) (nowText : GoString)
    (created : Bool) :
    view.Realizes (grantRoomTxn roomKey expectedVersion maxMembers nowText created)
      (grantRoomRule roomKey expectedVersion maxMembers nowText created) where
  key := rfl
  condition h := by
    cases created
    case false =>
      refine condition_iff parse_roomCondition (by simp [roomCondition, grantRoomTxn])
        (fun h => ?_) h
      simp [roomCondition, grantRoomTxn, h.present.left, h.present.right.left]
    case true =>
      have hc : Condition.parse
          (ofString "#archived = :false AND #version = :expectedVersion" ++
            memberLimitCondition true) =
          some (.and (.compare .eq (.path (.placeholder "#archived")) (.value ":false"))
            (.and (.compare .eq (.path (.placeholder "#version")) (.value ":expectedVersion"))
              (.compare .lt (.path (.name "memberCount")) (.value ":maxMembers")))) :=
        rfl
      refine condition_iff hc (by simp [grantRoomTxn]) (fun h => ?_) h
      simp [grantRoomTxn, h.present.left, h.present.right.left, h.present.right.right]
  written h hGuard := by
    have ⟨d, hd, _⟩ := hGuard
    cases h <;> cases hd
    case some item h =>
    have hVersion := h.present.left
    have hCount := h.present.right.right
    cases created
    case false =>
      have hu : Assignment.parse
          (ofString "SET #version = #version + :one, updatedAt = :updatedAt" ++ []) =
          some countVersion :=
        rfl
      refine ⟨_, TransactWriteItem.written_update rfl hu ?_, .some (stored_countedRoom h nowText)⟩
      simp [grantRoomTxn, countVersion, hVersion]
    case true =>
      have hu : Assignment.parse
          (ofString "SET #version = #version + :one, updatedAt = :updatedAt" ++
            ", memberCount = memberCount + :one") =
          some (countVersion ++ [⟨.name "memberCount",
            .plus (.operand (.path (.name "memberCount"))) (.operand (.value ":one"))⟩]) :=
        rfl
      refine ⟨_, TransactWriteItem.written_update rfl hu ?_, .some (stored_changedRoom h 1 nowText)⟩
      simp [grantRoomTxn, countVersion, hVersion, hCount]

theorem realizes_revokeRoom (expectedVersion : Int) (nowText : GoString) :
    view.Realizes (revokeRoomTxn roomKey expectedVersion nowText)
      (revokeRoomRule roomKey expectedVersion nowText) where
  key := rfl
  condition h := by
    refine condition_iff parse_roomCondition (by simp [roomCondition, revokeRoomTxn])
      (fun h => ?_) h
    simp [roomCondition, revokeRoomTxn, h.present.left, h.present.right.left]
  written h hGuard := by
    have ⟨d, hd, _⟩ := hGuard
    cases h <;> cases hd
    case some item h =>
    have hVersion := h.present.left
    have hCount := h.present.right.right
    have hu : Assignment.parse
        (ofString "SET #version = #version + :one, updatedAt = :updatedAt, " ++
          "memberCount = memberCount - :one") =
        some (countVersion ++ [⟨.name "memberCount",
          .minus (.operand (.path (.name "memberCount"))) (.operand (.value ":one"))⟩]) :=
      rfl
    refine ⟨_, TransactWriteItem.written_update rfl hu ?_, .some (stored_changedRoom h (-1) nowText)⟩
    simp [revokeRoomTxn, countVersion, hVersion, hCount, Int.sub_eq_add_neg]

end Rooms

section Members

-- What `GrantAllowlist` makes of a membership that it has found. `member` is the item it returns.
def regrantedMember (d member : DdbItem) : DdbItem :=
  { d with
    role         := member.role
    capabilities := member.capabilities
    updatedBy    := member.updatedBy
    updatedAt    := member.updatedAt
    version      := d.version + 1
    GSI1PK       := member.GSI1PK
    GSI1SK       := member.GSI1SK
  }

def renamedMember (d : DdbItem) (agent nickname nicknameKey nowText : GoString) : DdbItem :=
  { d with
    nickname, nicknameKey
    updatedBy := agent
    updatedAt := nowText
    version   := d.version + 1
  }

def regrantRule (roomKey agent : GoString) (member : DdbItem) : Rule BoardKey DdbItem :=
  .modify (.member roomKey agent) (·.role ≠ .owner) (regrantedMember · member)

def revokeMemberRule (roomKey agent : GoString) (member : DdbItem) : Rule BoardKey DdbItem :=
  .remove (.member roomKey agent) fun d =>
    d.role ≠ .owner ∧ d.version = member.version ∧ d.nicknameKey = member.nicknameKey

def renameRule
    (roomKey agent : GoString) (version : Int) (role : Role)
    (nickname nicknameKey nowText : GoString) : Rule BoardKey DdbItem :=
  .modify (.member roomKey agent) (fun d => d.version = version ∧ d.role = role)
    (renamedMember · agent nickname nicknameKey nowText)

theorem stored_regrantedMember (h : Stored (.member roomKey agent) item d) (member : DdbItem) :
    Stored (.member roomKey agent) (((((((item.set (ofString "role") (.S member.role.text)).set
      (ofString "capabilities") (.L member.capabilities)).set
      (ofString "updatedBy") (.S member.updatedBy)).set
      (ofString "updatedAt") (.S member.updatedAt)).set
      (ofString "version") (.N (d.version + 1))).set
      (ofString "GSI1PK") (.S member.GSI1PK)).set
      (ofString "GSI1SK") (.S member.GSI1SK)) (regrantedMember d member) where
  fields := by
    rw [unmarshalMap_ok]
    cases unmarshalMap_ok.mp h.fields
    constructor <;>
      simp [regrantedMember, getText_set, getNumber_set, getBool_set, getTexts_set, *]
  key     := h.key
  present := by
    simp [Present, regrantedMember, GoMap.get_set, h.present.right.right]

theorem stored_renamedMember (h : Stored (.member roomKey agent) item d)
    (hKey : nicknameKey ≠ []) (updatedBy nickname nowText : GoString) :
    Stored (.member roomKey agent) (((((item.set (ofString "nickname") (.S nickname)).set
      (ofString "nicknameKey") (.S nicknameKey)).set
      (ofString "updatedBy") (.S updatedBy)).set
      (ofString "updatedAt") (.S nowText)).set
      (ofString "version") (.N (d.version + 1)))
      (renamedMember d updatedBy nickname nicknameKey nowText) where
  fields := by
    rw [unmarshalMap_ok]
    cases unmarshalMap_ok.mp h.fields
    constructor <;>
      simp [renamedMember, getText_set, getNumber_set, getBool_set, getTexts_set, *]
  key     := h.key
  present := by
    simp [Present, renamedMember, GoMap.get_set, h.present.right.left, text, hKey]

theorem realizes_regrant
    (hKey : (⟨member.PK, member.SK⟩ : Key) = (BoardKey.member roomKey agent).key) :
    view.Realizes (putOrUpdateMembershipTxn member false) (regrantRule roomKey agent member) where
  key := congrArg some hKey
  condition h := by
    have hc : Condition.parse "attribute_exists(PK) AND #role <> :owner" =
        some (.and (.attributeExists (.name "PK"))
          (.compare .ne (.path (.placeholder "#role")) (.value ":owner"))) :=
      rfl
    refine condition_iff hc (by simp) (fun h => ?_) h
    simp [putOrUpdateMembershipTxn, h.pk, h.present.right.left, Role.text_inj]
  written h hGuard := by
    have ⟨d, hd, _⟩ := hGuard
    cases h <;> cases hd
    case some item h =>
    have hVersion := h.present.left
    have hu : Assignment.parse
        (ofString "SET #role = :role, capabilities = :capabilities, updatedBy = :updatedBy, " ++
          "updatedAt = :updatedAt, #version = #version + :one, GSI1PK = :gsi1pk, " ++
          "GSI1SK = :gsi1sk") =
        some [
          ⟨.placeholder "#role", .operand (.operand (.value ":role"))⟩,
          ⟨.name "capabilities", .operand (.operand (.value ":capabilities"))⟩,
          ⟨.name "updatedBy", .operand (.operand (.value ":updatedBy"))⟩,
          ⟨.name "updatedAt", .operand (.operand (.value ":updatedAt"))⟩,
          ⟨.placeholder "#version",
            .plus (.operand (.path (.placeholder "#version"))) (.operand (.value ":one"))⟩,
          ⟨.name "GSI1PK", .operand (.operand (.value ":gsi1pk"))⟩,
          ⟨.name "GSI1SK", .operand (.operand (.value ":gsi1sk"))⟩] :=
      rfl
    refine ⟨_, TransactWriteItem.written_update rfl hu ?_, .some (stored_regrantedMember h member)⟩
    simp [putOrUpdateMembershipTxn, hVersion]

theorem parse_revokeMemberCondition (h : nicknameKey = []) :
    Condition.parse (revokeMemberCondition nicknameKey) =
      some (.and (.attributeExists (.name "PK"))
        (.and (.compare .ne (.path (.placeholder "#role")) (.value ":owner"))
          (.and (.compare .eq (.path (.placeholder "#version")) (.value ":targetVersion"))
            (.attributeNotExists (.placeholder "#nicknameKey"))))) := by
  subst h
  rfl

theorem parse_revokeMemberCondition_nickname (h : nicknameKey ≠ []) :
    Condition.parse (revokeMemberCondition nicknameKey) =
      some (.and (.attributeExists (.name "PK"))
        (.and (.compare .ne (.path (.placeholder "#role")) (.value ":owner"))
          (.and (.compare .eq (.path (.placeholder "#version")) (.value ":targetVersion"))
            (.compare .eq (.path (.placeholder "#nicknameKey")) (.value ":nicknameKey"))))) := by
  rw [revokeMemberCondition, if_neg h]
  rfl

theorem realizes_revokeMember (member : DdbItem) :
    view.Realizes (revokeMemberTxn roomKey agent member)
      (revokeMemberRule roomKey agent member) where
  key         := rfl
  written _ _ := ⟨_, rfl, .none⟩
  condition h := by
    by_cases hk : member.nicknameKey = []
    case pos =>
      refine condition_iff (parse_revokeMemberCondition hk) (by simp) (fun h => ?_) h
      simp [revokeMemberTxn, revokeMemberNames, revokeMemberValues, h.pk, h.present.left,
        h.present.right.left, h.present.right.right, Role.text_inj, hk, text]
    case neg =>
      refine condition_iff (parse_revokeMemberCondition_nickname hk) (by simp) (fun h => ?_) h
      simp [revokeMemberTxn, revokeMemberNames, revokeMemberValues, h.pk, h.present.left,
        h.present.right.left, h.present.right.right, Role.text_inj, holds_eq_text, hk]

theorem realizes_rename (hKey : nicknameKey ≠ []) (version : Int) (role : Role)
    (nickname nowText : GoString) :
    view.Realizes
      (updateNicknameMembershipTxn roomKey agent version role nickname nicknameKey nowText)
      (renameRule roomKey agent version role nickname nicknameKey nowText) where
  key := rfl
  condition h := by
    have hc : Condition.parse "attribute_exists(PK) AND #version = :version AND #role = :role" =
        some (.and (.attributeExists (.name "PK"))
          (.and (.compare .eq (.path (.placeholder "#version")) (.value ":version"))
            (.compare .eq (.path (.placeholder "#role")) (.value ":role")))) :=
      rfl
    refine condition_iff hc (by simp) (fun h => ?_) h
    simp [updateNicknameMembershipTxn, h.pk, h.present.left, h.present.right.left, Role.text_inj]
  written h hGuard := by
    have ⟨d, hd, _⟩ := hGuard
    cases h <;> cases hd
    case some item h =>
    have hVersion := h.present.left
    have hu : Assignment.parse
        (ofString "SET nickname = :nickname, nicknameKey = :nicknameKey, " ++
          "updatedBy = :updatedBy, updatedAt = :updatedAt, #version = #version + :one") =
        some [
          ⟨.name "nickname", .operand (.operand (.value ":nickname"))⟩,
          ⟨.name "nicknameKey", .operand (.operand (.value ":nicknameKey"))⟩,
          ⟨.name "updatedBy", .operand (.operand (.value ":updatedBy"))⟩,
          ⟨.name "updatedAt", .operand (.operand (.value ":updatedAt"))⟩,
          ⟨.placeholder "#version",
            .plus (.operand (.path (.placeholder "#version"))) (.operand (.value ":one"))⟩] :=
      rfl
    refine ⟨_, TransactWriteItem.written_update rfl hu ?_,
      .some (stored_renamedMember h hKey agent nickname nowText)⟩
    simp [updateNicknameMembershipTxn, hVersion]

end Members

section Nicknames

def deleteNicknameRule (roomKey nicknameKey agent : GoString) : Rule BoardKey DdbItem :=
  .remove (.nickname roomKey nicknameKey) fun d => d.agent = agent ∧ agent ≠ []

-- Unlike other items, a nickname's may be there already, if it names the agent.
def putNicknameRule (roomID roomKey nickname nicknameKey agent nowText : GoString) :
    Rule BoardKey DdbItem where
  key    := .nickname roomKey nicknameKey
  guard  := fun y => ∀ d ∈ y, d.agent = agent ∧ agent ≠ []
  effect := fun _ => some <| nicknameItem roomID roomKey nickname nicknameKey agent nowText

theorem realizes_deleteNickname :
    view.Realizes (deleteNicknameTxn roomKey nicknameKey agent)
      (deleteNicknameRule roomKey nicknameKey agent) where
  key         := rfl
  written _ _ := ⟨_, rfl, .none⟩
  condition h := by
    have hc : Condition.parse "#agent = :agent" =
        some (.compare .eq (.path (.placeholder "#agent")) (.value ":agent")) :=
      rfl
    refine condition_iff hc (by simp [deleteNicknameTxn]) (fun {_ d} h => ?_) h
    have hAgent : _ = text d.agent := h.present
    simp [deleteNicknameTxn, hAgent, holds_eq_text]

theorem realizes_putNickname (roomID nickname nowText : GoString) :
    view.Realizes (putNicknameTxn roomID roomKey nickname nicknameKey agent nowText)
      (putNicknameRule roomID roomKey nickname nicknameKey agent nowText) where
  key := by
    simp only [TransactWriteItem.key, putNicknameTxn, Write.key, Item.key, get_marshalMap]
    rfl
  written _ _ := ⟨_, rfl, .some ⟨unmarshalMap_marshalMap _, rfl, get_marshalMap _ _⟩⟩
  condition h := by
    have hc : Condition.parse "attribute_not_exists(PK) OR #agent = :agent" =
        some (.or (.attributeNotExists (.name "PK"))
          (.compare .eq (.path (.placeholder "#agent")) (.value ":agent"))) :=
      rfl
    rw [TransactWriteItem.conditionHolds_eq hc]
    cases h
    case none => simp [putNicknameRule]
    case some d h =>
      have hAgent : _ = text d.agent := h.present
      simp [putNicknameTxn, putNicknameRule, h.pk, hAgent, holds_eq_text]

end Nicknames

section Quotas

def quotaItem (agent : GoString) (old : Option DdbItem) (nowText : GoString) : DdbItem :=
  { old.getD { PK := agentPK agent, SK := "QUOTA", type := [], schemaVersion := 0 } with
    type          := "agent_quota"
    schemaVersion := schemaVersion
    roomCount     := (old.elim 0 (·.roomCount)) + 1
    updatedAt     := nowText
  }

-- The first room of an agent is not counted against the limit.
def quotaRule (agent : GoString) (maxRoomsPerAgent : Int) (nowText : GoString) :
    Rule BoardKey DdbItem where
  key    := .quota agent
  guard  := fun y => ∀ d ∈ y, d.roomCount < maxRoomsPerAgent
  effect := fun y => some <| quotaItem agent y nowText

-- The attributes that the update sets
def quotaSet (item : Item) (roomCount : Int) (nowText : GoString) : Item :=
  (((item.set (ofString "type") (.S "agent_quota")).set
    (ofString "schemaVersion") (.N schemaVersion)).set
    (ofString "roomCount") (.N roomCount)).set
    (ofString "updatedAt") (.S nowText)

theorem stored_quotaSet (h : DdbItem.unmarshalMap item = .ok d)
    (hKey : (⟨d.PK, d.SK⟩ : Key) = (BoardKey.quota agent).key) (roomCount : Int)
    (nowText : GoString) :
    Stored (.quota agent) (quotaSet item roomCount nowText)
      { d with type := "agent_quota", schemaVersion, roomCount, updatedAt := nowText } where
  fields := by
    rw [unmarshalMap_ok]
    cases unmarshalMap_ok.mp h
    constructor <;> simp [quotaSet, getText_set, getNumber_set, getBool_set, getTexts_set, *]
  key     := hKey
  present := by simp [Present, quotaSet, GoMap.get_set]

theorem unmarshal_key (key : Key) : DdbItem.unmarshalMap key.item =
    .ok { PK := key.pk, SK := key.sk, type := [], schemaVersion := 0 } := by
  rw [unmarshalMap_ok]
  constructor <;> simp [Key.item, getText_set, getNumber_set, getBool_set, getTexts_set] <;> rfl

theorem realizes_quota (agent : GoString) (maxRooms : Int) (nowText : GoString) :
    view.Realizes (quotaTxn agent maxRooms nowText) (quotaRule agent maxRooms nowText) where
  key := rfl
  condition h := by
    have hc : Condition.parse "attribute_not_exists(roomCount) OR roomCount < :maxRooms" =
        some (.or (.attributeNotExists (.name "roomCount"))
          (.compare .lt (.path (.name "roomCount")) (.value ":maxRooms"))) :=
      rfl
    rw [TransactWriteItem.conditionHolds_eq hc]
    cases h
    case none => simp [quotaRule]
    case some d h =>
      have hCount : _ = some (AttributeValue.N d.roomCount) := h.present
      simp [quotaTxn, quotaRule, hCount]
  written h hGuard := by
    have hu : Assignment.parse
        (ofString "SET #type = :type, schemaVersion = :schemaVersion, " ++
          "roomCount = if_not_exists(roomCount, :zero) + :one, updatedAt = :updatedAt") =
        some [
          ⟨.placeholder "#type", .operand (.operand (.value ":type"))⟩,
          ⟨.name "schemaVersion", .operand (.operand (.value ":schemaVersion"))⟩,
          ⟨.name "roomCount",
            .plus (.ifNotExists (.name "roomCount") (.value ":zero")) (.operand (.value ":one"))⟩,
          ⟨.name "updatedAt", .operand (.operand (.value ":updatedAt"))⟩] :=
      rfl
    cases h
    case none =>
      refine ⟨_, TransactWriteItem.written_update rfl hu ?_,
        .some (stored_quotaSet (unmarshal_key (BoardKey.quota agent).key) rfl 1 nowText)⟩
      simp [quotaTxn, quotaSet]
      rfl
    case some item d h =>
      have hCount : _ = some (AttributeValue.N d.roomCount) := h.present
      refine ⟨_, TransactWriteItem.written_update rfl hu ?_,
        .some (stored_quotaSet h.fields h.key (d.roomCount + 1) nowText)⟩
      simp [quotaTxn, quotaSet, hCount]

end Quotas

end Board.Dynamo
