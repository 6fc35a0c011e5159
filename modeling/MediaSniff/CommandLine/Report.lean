/-
# MediaSniff.CommandLine.Report — telling the answers

For each document there is a result: its type, or the reason why it could not be read.
As a text every type stands on a line, behind the name of the document if there are
several; as JSON every result, also one without a type, is a member of one array.
-/
import MediaSniff.CommandLine.Options
import MediaSniff.Database.Basic
import MediaSniff.Json.Print
import MediaSniff.ReadError

set_option autoImplicit false

namespace MediaSniff.CommandLine

/-- What has been found out about a document. -/
structure Result where
  name : String
  answer : Except ReadError TypeId

namespace Result

/-- The reason why a document could not be read. -/
def error? (r : Result) : Option ReadError :=
  match r.answer with
  | .ok _ => none
  | .error e => some e

/-- The name or the description of a type. -/
def value (db : Database) (human : Bool) (id : TypeId) : String :=
  if human then ((db.registry.get? id).map (·.comment)).getD "" else db.registry.nameOf id

/-- The line that tells a type; a result without one has no line. -/
def line? (db : Database) (human named : Bool) (r : Result) : Option String :=
  match r.answer with
  | .ok id =>
      let value := value db human id
      some (if named then s!"{r.name}: {value}" else value)
  | .error _ => none

/-- The member of a JSON array that tells a result. -/
def toJson (db : Database) (r : Result) : Json :=
  match r.answer with
  | .ok id =>
      let superclasses := (db.registry.ancestors id).map db.registry.nameOf
      .ofMembers <|
        [("name", .ofString r.name), ("media_type", .ofString (value db false id)),
          ("comment", .ofString (value db true id))] ++
        if superclasses.isEmpty then []
        else [("superclasses", .array (superclasses.map Json.ofString))]
  | .error e => .ofMembers [("name", .ofString r.name), ("error", .ofString e.message)]

end Result

/-- The lines that tell all results. -/
def reportLines (db : Database) (format : Format) (human named : Bool) (results : List Result) :
    List String :=
  match format with
  | .text => results.filterMap (Result.line? db human named)
  | .json => [Json.renderPretty (.array (results.map (Result.toJson db)))]

end MediaSniff.CommandLine
