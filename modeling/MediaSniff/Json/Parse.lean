/-
# MediaSniff.Json.Parse — from tokens to values

Values are put together by a machine with a stack of open arrays and objects. Each
token takes it one step further, so reading needs no recursion and puts no bound on
nesting; readers of particular documents set their own bound.
-/
import MediaSniff.Json.Token

set_option autoImplicit false

namespace MediaSniff.Json

/-- An open array or object that waits for a value. What it holds so far stands in
reverse. -/
inductive Frame where
  | inArray (elements : List Json)
  | inObject (members : List (Option String × Json)) (key : Option String)

/-- What has been read. Elements and members stand in reverse. -/
inductive State where
  /-- A value must follow. -/
  | value (frames : List Frame)
  /-- An array has been opened. -/
  | firstElement (frames : List Frame)
  | afterElement (elements : List Json) (frames : List Frame)
  /-- An object has been opened. -/
  | firstKey (frames : List Frame)
  /-- A key must follow. -/
  | nextKey (members : List (Option String × Json)) (frames : List Frame)
  | afterKey (members : List (Option String × Json)) (key : Option String)
      (frames : List Frame)
  | afterMember (members : List (Option String × Json)) (frames : List Frame)
  /-- A whole value has been read. -/
  | done (v : Json)

/-- A value is complete. -/
def complete (v : Json) : List Frame → State
  | [] => .done v
  | .inArray elements :: frames => .afterElement (v :: elements) frames
  | .inObject members key :: frames => .afterMember ((key, v) :: members) frames

/-- The token at the beginning of a value. -/
def begin? (frames : List Frame) : Token → Option State
  | .null => some (complete .null frames)
  | .bool b => some (complete (.bool b) frames)
  | .number n => some (complete (.number n) frames)
  | .string text => some (complete (.string text) frames)
  | .openArray => some (.firstElement frames)
  | .openObject => some (.firstKey frames)
  | _ => none

/-- The next token. -/
def step? : State → Token → Option State
  | .value frames, t => begin? frames t
  | .firstElement frames, .closeArray => some (complete (.array []) frames)
  | .firstElement frames, t => begin? (.inArray [] :: frames) t
  | .afterElement elements frames, .comma => some (.value (.inArray elements :: frames))
  | .afterElement elements frames, .closeArray =>
      some (complete (.array elements.reverse) frames)
  | .firstKey frames, .closeObject => some (complete (.object []) frames)
  | .firstKey frames, .string key => some (.afterKey [] key frames)
  | .nextKey members frames, .string key => some (.afterKey members key frames)
  | .afterKey members key frames, .colon => some (.value (.inObject members key :: frames))
  | .afterMember members frames, .comma => some (.nextKey members frames)
  | .afterMember members frames, .closeObject =>
      some (complete (.object members.reverse) frames)
  | _, _ => none

/-- All tokens. -/
def run? : State → List Token → Option State
  | state, [] => some state
  | state, t :: tokens =>
      match step? state t with
      | some state => run? state tokens
      | none => none

/-- The value that tokens make up. -/
def ofTokens? (tokens : List Token) : Option Json :=
  match run? (.value []) tokens with
  | some (.done v) => some v
  | _ => none

/-- The value that a text spells. -/
def parse? (text : List Char) : Option Json := (tokens? text).bind ofTokens?

end MediaSniff.Json
