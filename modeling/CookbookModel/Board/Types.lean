import CookbookModel.Library.Time

namespace Board

open GoString

def defaultListLimit : Int := 25
def defaultMessagesLimit : Int := 50
def maxLimit : Int := 100
def maxMessageBytes : Nat := 8 * 1024
def maxNicknameLength : Nat := 32
def schemaVersion : Int := 1

def roleNames : List GoString :=
  ["owner", "admin", "poster", "reader",
    "connector"]

-- Go's `Role` is a string type, so values other than the declared constants exist. In particular
-- the zero value is the empty string.
inductive Role
  | owner
  | admin
  | poster
  | reader
  | connector
  | other (name : GoString) (h : name ∉ roleNames)
  deriving DecidableEq

namespace Role

def zero : Role :=
  .other [] (by decide)

def text : Role → GoString
  | owner        => "owner"
  | admin        => "admin"
  | poster       => "poster"
  | reader       => "reader"
  | connector    => "connector"
  | other name _ => name

def ofText (s : GoString) : Role :=
  if h₁ : s = "owner" then owner
  else if h₂ : s = "admin" then admin
  else if h₃ : s = "poster" then poster
  else if h₄ : s = "reader" then reader
  else if h₅ : s = "connector" then connector
  else other s (by simp [roleNames, *])

@[simp]
theorem ofText_text (r : Role) : ofText r.text = r := by
  cases r
  case other name h =>
    have h' := h
    simp only [roleNames, List.mem_cons, List.not_mem_nil, or_false, not_or] at h'
    simp [ofText, text, h']
  all_goals rfl

theorem text_injective : Function.Injective text :=
  Function.LeftInverse.injective ofText_text

theorem text_inj {r₁ r₂ : Role} : r₁.text = r₂.text ↔ r₁ = r₂ :=
  text_injective.eq_iff

end Role

inductive Capability
  | owner
  | manage
  | post
  | read
  | connect
  deriving DecidableEq

namespace Capability

def text : Capability → GoString
  | owner   => "owner"
  | manage  => "manage"
  | post    => "post"
  | read    => "read"
  | connect => "connect"

def ofText (s : GoString) : Option Capability :=
  [owner, manage, post, read, connect].find? fun c => c.text = s

@[simp]
theorem ofText_text (c : Capability) : ofText c.text = some c := by
  cases c <;> rfl

end Capability

inductive Action
  | createRoom
  | listOwnRooms
  | connectRoom
  | readMessages
  | postMessage
  | updateNickname
  | viewAllowList
  | updateAllowList
  deriving DecidableEq

-- The errors a handler or a store returns. `validation` and `dependency` wrap a detail text.
-- `idempotencyConflict` is `ErrConflict` returned with a `PostResult` that says so.
inductive Err
  | notFound
  | conflict
  | idempotencyConflict
  | denied
  | validation (detail : GoString)
  | dependency (detail : GoString)
  | other (text : GoString)
  deriving DecidableEq

structure Identity where
  agent        : GoString
  issuer       : GoString := []
  audience     : List GoString := []
  environment  : GoString := []
  tokenJTIHash : GoString := []
  deriving DecidableEq

structure Room where
  roomID      : GoString
  roomKey     : GoString
  name        : GoString
  description : GoString
  owner       : GoString
  createdAt   : Time
  updatedAt   : Time
  version     : Int
  archived    : Bool
  memberCount : Int
  deriving DecidableEq

structure Membership where
  roomID       : GoString
  roomKey      : GoString
  agent        : GoString
  nickname     : GoString
  nicknameKey  : GoString
  role         : Role
  capabilities : List Capability
  createdBy    : GoString
  updatedBy    : GoString
  createdAt    : Time
  updatedAt    : Time
  version      : Int
  deriving DecidableEq

structure RoomSummary where
  roomID       : GoString
  name         : GoString
  description  : GoString
  owner        : GoString
  role         : Role
  capabilities : List Capability
  updatedAt    : Time
  deriving DecidableEq

structure Message where
  roomID         : GoString
  roomKey        : GoString
  messageID      : GoString
  author         : GoString
  authorNickname : GoString
  body           : GoString
  createdAt      : Time
  idempotencyKey : GoString
  requestHash    : GoString
  deriving DecidableEq

structure AuthSnapshot where
  room       : Room
  membership : Option Membership
  deriving DecidableEq

structure AuthContext where
  operation   : GoString := []
  targetAgent : GoString := []
  newRole     : Role := .zero
  deriving DecidableEq

structure Page (α : Type) where
  items      : List α
  nextCursor : GoString

structure PostResult where
  message          : Message
  idempotentReplay : Bool
  deriving DecidableEq

def capabilitiesForRole : Role → Option (List Capability)
  | .owner     => some [.owner, .manage, .post, .read, .connect]
  | .admin     => some [.manage, .post, .read, .connect]
  | .poster    => some [.post, .read, .connect]
  | .reader    => some [.read, .connect]
  | .connector => some [.connect]
  | .other ..  => none

def parseRole (value : GoString) : Option Role :=
  let role := Role.ofText value
  (capabilitiesForRole role).map fun _ => role

def mutableRole (value : GoString) : Option Role :=
  (parseRole value).filter (· ≠ .owner)

def roleCan (role : Role) : Action → Bool
  | .createRoom | .listOwnRooms => true
  | .connectRoom => role = .owner || role = .admin || role = .poster || role = .reader ||
      role = .connector
  | .readMessages => role = .owner || role = .admin || role = .poster || role = .reader
  | .postMessage => role = .owner || role = .admin || role = .poster
  | .updateNickname => role = .owner || role = .admin || role = .poster || role = .reader ||
      role = .connector
  | .viewAllowList | .updateAllowList => role = .owner || role = .admin

def boundLimit (limit defaultLimit : Int) : Int :=
  let defaultLimit := if defaultLimit ≤ 0 then defaultListLimit else defaultLimit
  if limit ≤ 0 then defaultLimit
  else if limit > maxLimit then maxLimit
  else limit

theorem boundLimit_pos (limit defaultLimit : Int) : 0 < boundLimit limit defaultLimit := by
  simp only [boundLimit, defaultListLimit, maxLimit]
  split_ifs <;> omega

end Board
