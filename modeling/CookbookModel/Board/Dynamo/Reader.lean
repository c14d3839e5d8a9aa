import CookbookModel.Board.Dynamo.Contents
import CookbookModel.Board.Dynamo.Store
import CookbookModel.Library.Cursor

namespace Board.Dynamo

open GoString DynamoDB

variable [Platform]

-- Somebody who reads the messages of a room from the one with the id `first` on.
structure Reader where
  roomID   : GoString
  first    : GoString
  received : List Message

namespace Reader

def ids (r : Reader) : List GoString :=
  r.received.map (·.messageID)

def after (r : Reader) : GoString :=
  Cursor.last r.first r.ids

-- What the next call of `ReadMessages` returns, which is a single query.
def read (r : Reader) (limit : Int) (w : Outcome) (T : Table) : Except Err (List Message) :=
  ((readMessages r.roomID limit none r.after).run (exec · w) T).1.map (·.1)

inductive Reads (T : Table) (r : Reader) : Reader → Prop
  | page (limit : Int) (w : Outcome) (h : r.read limit w T = .ok page) :
    Reads T r { r with received := r.received ++ page }

end Reader

-- The message is stored in the room.
def Posted (T : Table) (roomID : GoString) (m : Message) : Prop :=
  ∃ d, stored T (.message (Base64.encode roomID) m.messageID) = some d ∧ m = messageFromItem d

-- The step carries out the post of a message of the room.
def CommitsPost (roomID id : GoString) {limits : Limits} (e : (system limits).Event) : Prop :=
  ∃ items ∈ committed e.op e.outcome e.store,
    ∃ t ∈ items, t.key = some (BoardKey.message (Base64.encode roomID) id).key

-- The reader has received all messages of the room that are newer than the first one, in order.
structure Reader.UpToDate (r : Reader) (T : Table) : Prop where
  ordered  : r.ids.Pairwise (· < ·)
  received : ∀ m, m ∈ r.received ↔ Posted T r.roomID m ∧ r.first < m.messageID

-- The step posts a message with an id that the reader has already passed by.
def Reader.Overtaken (r : Reader) {limits : Limits} (e : (system limits).Event) (id : GoString) :
    Prop :=
  CommitsPost r.roomID id e ∧ r.first < id ∧ id ≤ r.after

end Board.Dynamo
