import CookbookModel.Board.Types
import CookbookModel.Library.Control
import CookbookModel.Library.DynamoDB.Table

namespace Board

open GoString DynamoDB

-- Texts are stored as they are, so they stand for valid UTF-8.
structure DdbItem where
  PK             : GoString
  SK             : GoString
  type           : GoString
  schemaVersion  : Int
  roomID         : GoString := []
  roomKey        : GoString := []
  name           : GoString := []
  description    : GoString := []
  owner          : GoString := []
  agent          : GoString := []
  role           : Role := .zero
  capabilities   : List GoString := []
  author         : GoString := []
  nickname       : GoString := []
  nicknameKey    : GoString := []
  authorNickname : GoString := []
  body           : GoString := []
  messageID      : GoString := []
  idempotencyKey : GoString := []
  requestHash    : GoString := []
  statusCode     : Int := 0
  eventType      : GoString := []
  actor          : GoString := []
  targetAgent    : GoString := []
  tokenJTIHash   : GoString := []
  createdBy      : GoString := []
  updatedBy      : GoString := []
  createdAt      : GoString := []
  updatedAt      : GoString := []
  version        : Int := 0
  archived       : Bool := false
  memberCount    : Int := 0
  roomCount      : Int := 0
  GSI1PK         : GoString := []
  GSI1SK         : GoString := []
  deriving DecidableEq

namespace DdbItem

-- `omitempty`
def text (s : GoString) : Option AttributeValue :=
  if s = [] then none else some (.S s)

def number (n : Int) : Option AttributeValue :=
  if n = 0 then none else some (.N n)

def texts (l : List GoString) : Option AttributeValue :=
  if l = [] then none else some (.L l)

-- The attributes of an item, by the tags of its fields.
def fields (d : DdbItem) : List (GoString × Option AttributeValue) := [
  ⟨"PK", some (.S d.PK)⟩,
  ⟨"SK", some (.S d.SK)⟩,
  ⟨"type", some (.S d.type)⟩,
  ⟨"schemaVersion", some (.N d.schemaVersion)⟩,
  ⟨"roomId", text d.roomID⟩,
  ⟨"roomKey", text d.roomKey⟩,
  ⟨"name", text d.name⟩,
  ⟨"description", text d.description⟩,
  ⟨"owner", text d.owner⟩,
  ⟨"agent", text d.agent⟩,
  ⟨"role", text d.role.text⟩,
  ⟨"capabilities", texts d.capabilities⟩,
  ⟨"author", text d.author⟩,
  ⟨"nickname", text d.nickname⟩,
  ⟨"nicknameKey", text d.nicknameKey⟩,
  ⟨"authorNickname", text d.authorNickname⟩,
  ⟨"body", text d.body⟩,
  ⟨"messageId", text d.messageID⟩,
  ⟨"idempotencyKey", text d.idempotencyKey⟩,
  ⟨"requestHash", text d.requestHash⟩,
  ⟨"statusCode", number d.statusCode⟩,
  ⟨"eventType", text d.eventType⟩,
  ⟨"actor", text d.actor⟩,
  ⟨"targetAgent", text d.targetAgent⟩,
  ⟨"tokenJtiHash", text d.tokenJTIHash⟩,
  ⟨"createdBy", text d.createdBy⟩,
  ⟨"updatedBy", text d.updatedBy⟩,
  ⟨"createdAt", text d.createdAt⟩,
  ⟨"updatedAt", text d.updatedAt⟩,
  ⟨"version", number d.version⟩,
  ⟨"archived", some (.BOOL d.archived)⟩,
  ⟨"memberCount", number d.memberCount⟩,
  ⟨"roomCount", number d.roomCount⟩,
  ⟨"GSI1PK", text d.GSI1PK⟩,
  ⟨"GSI1SK", text d.GSI1SK⟩]

-- `attributevalue.MarshalMap`
def marshalMap (d : DdbItem) : Item :=
  d.fields.foldr (fun field item => field.2.elim item (item.set field.1)) ∅

-- What `attributevalue.UnmarshalMap` returns for an attribute of another type. Its text is not
-- modelled.
def typeError : Err :=
  .other "unmarshal failed"

-- The value of a field. A missing attribute leaves it at its zero value.
def getField (decode : AttributeValue → Option α) (zero : α) (item : Item) (name : GoString) :
    Except Err α :=
  match item[name]? with
  | none   => pure zero
  | some v =>
    match decode v with
    | none   => throw typeError
    | some a => pure a

def getText : Item → GoString → Except Err GoString :=
  getField (fun | .S s => some s | _ => none) []

def getNumber : Item → GoString → Except Err Int :=
  getField (fun | .N n => some n | _ => none) 0

def getBool : Item → GoString → Except Err Bool :=
  getField (fun | .BOOL b => some b | _ => none) false

def getTexts : Item → GoString → Except Err (List GoString) :=
  getField (fun | .L l => some l | _ => none) []

-- `attributevalue.UnmarshalMap`
def unmarshalMap (item : Item) : Except Err DdbItem := do
  return {
    PK             := ← getText item "PK"
    SK             := ← getText item "SK"
    type           := ← getText item "type"
    schemaVersion  := ← getNumber item "schemaVersion"
    roomID         := ← getText item "roomId"
    roomKey        := ← getText item "roomKey"
    name           := ← getText item "name"
    description    := ← getText item "description"
    owner          := ← getText item "owner"
    agent          := ← getText item "agent"
    role           := .ofText (← getText item "role")
    capabilities   := ← getTexts item "capabilities"
    author         := ← getText item "author"
    nickname       := ← getText item "nickname"
    nicknameKey    := ← getText item "nicknameKey"
    authorNickname := ← getText item "authorNickname"
    body           := ← getText item "body"
    messageID      := ← getText item "messageId"
    idempotencyKey := ← getText item "idempotencyKey"
    requestHash    := ← getText item "requestHash"
    statusCode     := ← getNumber item "statusCode"
    eventType      := ← getText item "eventType"
    actor          := ← getText item "actor"
    targetAgent    := ← getText item "targetAgent"
    tokenJTIHash   := ← getText item "tokenJtiHash"
    createdBy      := ← getText item "createdBy"
    updatedBy      := ← getText item "updatedBy"
    createdAt      := ← getText item "createdAt"
    updatedAt      := ← getText item "updatedAt"
    version        := ← getNumber item "version"
    archived       := ← getBool item "archived"
    memberCount    := ← getNumber item "memberCount"
    roomCount      := ← getNumber item "roomCount"
    GSI1PK         := ← getText item "GSI1PK"
    GSI1SK         := ← getText item "GSI1SK"
  }

end DdbItem

def parseTime (value : GoString) : Time :=
  (Time.parse value).getD .zero

def roomFromItem (item : DdbItem) : Room where
  roomID      := item.roomID
  roomKey     := item.roomKey
  name        := item.name
  description := item.description
  owner       := item.owner
  createdAt   := parseTime item.createdAt
  updatedAt   := parseTime item.updatedAt
  version     := item.version
  archived    := item.archived
  memberCount := item.memberCount

def membershipFromItem (item : DdbItem) : Membership where
  roomID       := item.roomID
  roomKey      := item.roomKey
  agent        := item.agent
  nickname     := item.nickname
  nicknameKey  := item.nicknameKey
  role         := item.role
  -- Only the texts of capabilities are stored.
  capabilities := item.capabilities.filterMap Capability.ofText
  createdBy    := item.createdBy
  updatedBy    := item.updatedBy
  createdAt    := parseTime item.createdAt
  updatedAt    := parseTime item.updatedAt
  version      := item.version

def messageFromItem (item : DdbItem) : Message where
  roomID         := item.roomID
  roomKey        := item.roomKey
  messageID      := item.messageID
  author         := item.author
  authorNickname := item.authorNickname
  body           := item.body
  createdAt      := parseTime item.createdAt
  idempotencyKey := item.idempotencyKey
  requestHash    := item.requestHash

end Board
