import CookbookModel.Library.Json.Extent
import CookbookModel.Library.PyText

namespace ImagePoc

open PyString Json

variable (parseFloat : PyString → PyString)

-- `{"text": text[:200]}`
def unparsed (text : PyString) : Json :=
  .object [("text", .string <| text.take 200)]

-- `json.loads(source)`, or what is returned where it raises a `JSONDecodeError`
def loadsOr (default : Json) (source : PyString) : Json :=
  (loads parseFloat source).getD default

-- The first line that has data
def dataLine (lines : List PyString) : Option PyString :=
  lines.find? fun line => startswith line "data:"

def dataOf (line : PyString) : PyString :=
  strip ( removeprefix line "data:")

def parseResponseBody (bodyText : PyString) : Json :=
  let text := strip bodyText
  if text = [] then
    .object []
  else if startswith text "event:" || startswith text "data:" then
    match dataLine (splitlines text) with
    | some line => loadsOr parseFloat (unparsed text) (dataOf line)
    | none      => loadsOr parseFloat (unparsed text) text
  else
    loadsOr parseFloat (unparsed text) text

-- The line of an event's name, with its end
structure EventLine where
  name     : PyString
  eol      : PyString
  one_line : 0x0A ∉ name ∧ 0x0D ∉ name
  ends     : eol ∈ [[0x0A], [0x0D], [0x0D, 0x0A]]

def EventLine.text (e : EventLine) : PyString :=
  ofString "event:" ++ e.name

-- Server-sent events with one event that has the data `j`. Nothing but ends of lines follows.
structure EventStream where
  event  : Option EventLine
  blanks : PyString
  blank  : ∀ c ∈ blanks, c = 0x0A ∨ c = 0x0D

namespace EventStream

def eventText (stream : EventStream) : PyString :=
  match stream.event with
  | none       => []
  | some event => event.text ++ event.eol

def frame (stream : EventStream) (j : PyString) : PyString :=
  stream.eventText ++ (ofString "data:" ++ (j ++ stream.blanks))

-- Where the program cuts the event's line as well, a part of it may look like data.
def part (stream : EventStream) : Option PyString :=
  stream.event.bind fun event => dataLine (splitlines (event.text ++ [0x0A]))

end EventStream

end ImagePoc
