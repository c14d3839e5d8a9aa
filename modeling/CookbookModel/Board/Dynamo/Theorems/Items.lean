import CookbookModel.Board.Dynamo.Item

namespace Board.DdbItem

open GoString DynamoDB

variable {item : Item} {d : DdbItem}

-- The item holds the values of the fields.
structure Fields (item : Item) (d : DdbItem) : Prop where
  PK             : getText item "PK" = .ok d.PK
  SK             : getText item "SK" = .ok d.SK
  type           : getText item "type" = .ok d.type
  schemaVersion  : getNumber item "schemaVersion" = .ok d.schemaVersion
  roomID         : getText item "roomId" = .ok d.roomID
  roomKey        : getText item "roomKey" = .ok d.roomKey
  name           : getText item "name" = .ok d.name
  description    : getText item "description" = .ok d.description
  owner          : getText item "owner" = .ok d.owner
  agent          : getText item "agent" = .ok d.agent
  role           : getText item "role" = .ok d.role.text
  capabilities   : getTexts item "capabilities" = .ok d.capabilities
  author         : getText item "author" = .ok d.author
  nickname       : getText item "nickname" = .ok d.nickname
  nicknameKey    : getText item "nicknameKey" = .ok d.nicknameKey
  authorNickname : getText item "authorNickname" = .ok d.authorNickname
  body           : getText item "body" = .ok d.body
  messageID      : getText item "messageId" = .ok d.messageID
  idempotencyKey : getText item "idempotencyKey" = .ok d.idempotencyKey
  requestHash    : getText item "requestHash" = .ok d.requestHash
  statusCode     : getNumber item "statusCode" = .ok d.statusCode
  eventType      : getText item "eventType" = .ok d.eventType
  actor          : getText item "actor" = .ok d.actor
  targetAgent    : getText item "targetAgent" = .ok d.targetAgent
  tokenJTIHash   : getText item "tokenJtiHash" = .ok d.tokenJTIHash
  createdBy      : getText item "createdBy" = .ok d.createdBy
  updatedBy      : getText item "updatedBy" = .ok d.updatedBy
  createdAt      : getText item "createdAt" = .ok d.createdAt
  updatedAt      : getText item "updatedAt" = .ok d.updatedAt
  version        : getNumber item "version" = .ok d.version
  archived       : getBool item "archived" = .ok d.archived
  memberCount    : getNumber item "memberCount" = .ok d.memberCount
  roomCount      : getNumber item "roomCount" = .ok d.roomCount
  GSI1PK         : getText item "GSI1PK" = .ok d.GSI1PK
  GSI1SK         : getText item "GSI1SK" = .ok d.GSI1SK

theorem text_ofText (s : GoString) : (Role.ofText s).text = s := by
  unfold Role.ofText
  split_ifs <;> simp_all [Role.text]

theorem unmarshalMap_ok : unmarshalMap item = .ok d ↔ Fields item d := by
  constructor
  case mp =>
    intro h
    unfold unmarshalMap at h
    iterate 35 have ⟨_, _, h⟩ := Except.bind_eq_ok.mp h
    cases h
    constructor <;> simp only [text_ofText] <;> assumption
  case mpr =>
    intro h
    simp only [unmarshalMap, h.PK, h.SK, h.type, h.schemaVersion, h.roomID, h.roomKey, h.name,
      h.description, h.owner, h.agent, h.role, h.capabilities, h.author, h.nickname, h.nicknameKey,
      h.authorNickname, h.body, h.messageID, h.idempotencyKey, h.requestHash, h.statusCode,
      h.eventType, h.actor, h.targetAgent, h.tokenJTIHash, h.createdBy, h.updatedBy, h.createdAt,
      h.updatedAt, h.version, h.archived, h.memberCount, h.roomCount, h.GSI1PK, h.GSI1SK]
    simp [bind, Except.bind, pure, Except.pure]

section

variable {n m s : GoString} {v : AttributeValue} {α : Type} {decode : AttributeValue → Option α}
  {zero a : α}

theorem getField_set : getField decode zero (item.set n v) m =
    if m = n then (decode v).elim (.error typeError) .ok else getField decode zero item m := by
  unfold getField
  rw [GoMap.get_set]
  by_cases he : m = n
  case pos =>
    simp only [he, if_true]
    cases decode v <;> rfl
  case neg => rw [if_neg he, if_neg he]

theorem getText_set : getText (item.set n v) m =
    if m = n then (match v with | .S s => .ok s | _ => .error typeError) else getText item m := by
  cases v <;> exact getField_set

theorem getNumber_set : getNumber (item.set n v) m =
    if m = n then (match v with | .N k => .ok k | _ => .error typeError) else getNumber item m := by
  cases v <;> exact getField_set

theorem getBool_set : getBool (item.set n v) m =
    if m = n then (match v with | .BOOL b => .ok b | _ => .error typeError) else getBool item m := by
  cases v <;> exact getField_set

theorem getTexts_set : getTexts (item.set n v) m =
    if m = n then (match v with | .L l => .ok l | _ => .error typeError) else getTexts item m := by
  cases v <;> exact getField_set

theorem getField_ok : getField decode zero item n = .ok a ↔
    (∃ v, item[n]? = some v ∧ decode v = some a) ∨ (item[n]? = none ∧ a = zero) := by
  unfold getField
  cases item[n]?
  case none   => simp [pure, Except.pure, eq_comm]
  case some v =>
    cases hv : decode v <;> simp [hv, pure, Except.pure, throw, throwThe, MonadExceptOf.throw]

theorem getText_ok :
    getText item n = .ok s ↔ item[n]? = some (.S s) ∨ (item[n]? = none ∧ s = []) := by
  rw [getText, getField_ok]
  constructor
  case mp =>
    rintro (⟨v, h, hv⟩ | h)
    case inl => split at hv <;> cases hv; exact .inl h
    case inr => exact .inr h
  case mpr =>
    rintro (h | h)
    case inl => exact .inl ⟨_, h, rfl⟩
    case inr => exact .inr h

end

section Marshal

def names : List GoString := [
  "PK", "SK", "type", "schemaVersion", "roomId", "roomKey", "name", "description", "owner", "agent",
  "role", "capabilities", "author", "nickname", "nicknameKey", "authorNickname", "body",
  "messageId", "idempotencyKey", "requestHash", "statusCode", "eventType", "actor", "targetAgent",
  "tokenJtiHash", "createdBy", "updatedBy", "createdAt", "updatedAt", "version", "archived",
  "memberCount", "roomCount", "GSI1PK", "GSI1SK"]

theorem names_nodup : names.Nodup := by
  decide

theorem get_foldr {l : List (GoString × Option AttributeValue)} (h : (l.map (·.1)).Nodup) :
    (l.foldr (fun field item => field.2.elim item (item.set field.1)) (∅ : Item))[n]? =
      (l.lookup n).join := by
  induction l
  case nil => simp
  case cons p l hi =>
    have ⟨name, value⟩ := p
    have ⟨hName, hl⟩ := List.nodup_cons.mp h
    rw [List.foldr_cons, List.lookup_cons]
    by_cases he : n = name
    case pos =>
      subst he
      have hNone : l.lookup n = none := List.lookup_eq_none_iff.mpr fun q hq => by
        simpa using fun e : n = q.1 => hName (List.mem_map.mpr ⟨q, hq, e.symm⟩)
      cases value
      case none   => simp [hi hl, hNone]
      case some v => simp
    case neg =>
      cases value <;> simp [hi hl, GoMap.get_set_ne he, beq_eq_false_iff_ne.mpr he]

theorem get_marshalMap (d : DdbItem) (n : GoString) :
    (marshalMap d)[n]? = ((fields d).lookup n).join :=
  get_foldr names_nodup

theorem getText_text (h : item[n]? = text s) : getText item n = .ok s := by
  rw [getText, getField_ok, h, text]
  split_ifs <;> simp_all

theorem getNumber_number (h : item[n]? = number k) : getNumber item n = .ok k := by
  rw [getNumber, getField_ok, h, number]
  split_ifs <;> simp_all

theorem getTexts_texts (h : item[n]? = texts l) : getTexts item n = .ok l := by
  rw [getTexts, getField_ok, h, texts]
  split_ifs <;> simp_all

-- What has been marshalled reads back.
theorem fields_marshalMap (d : DdbItem) : Fields (marshalMap d) d := by
  constructor
  case PK | SK | type => exact getText_ok.mpr <| .inl <| get_marshalMap _ _
  case schemaVersion  => exact getField_ok.mpr <| .inl ⟨_, get_marshalMap _ _, rfl⟩
  case archived       => exact getField_ok.mpr <| .inl ⟨_, get_marshalMap _ _, rfl⟩
  case capabilities   => exact getTexts_texts <| get_marshalMap _ _
  case statusCode | version | memberCount | roomCount => exact getNumber_number <| get_marshalMap _ _
  all_goals exact getText_text <| get_marshalMap _ _

theorem unmarshalMap_marshalMap (d : DdbItem) : unmarshalMap d.marshalMap = .ok d :=
  unmarshalMap_ok.mpr <| fields_marshalMap d

end Marshal

end Board.DdbItem
