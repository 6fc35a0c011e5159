/-
# MediaSniff.Database.Reader — classifying a stream

No more of a stream is read than the rules can look at. A stream that turns out to be a
directory is classified as one. A fault is reported under the name of the stream, or as
`-` if it has none.
-/
import MediaSniff.Config
import MediaSniff.Database.Classify
import MediaSniff.Stream

set_option autoImplicit false

namespace MediaSniff

/-- The name that stands for a stream without one. -/
def streamName : String := "-"

namespace Database

/-- Classify a stream by its content and its name. -/
def classifyStream (db : Database) (stream : Stream) (name : String) (config : Config) :
    Except ReadError TypeId :=
  match stream.readUpTo (config.effectiveReadLimit db.magicReach) with
  | .ok data => .ok (db.classify data name none config.preference)
  | .error .isDirectory => .ok db.sentinels.directory
  | .error fault => .error (.ofFault (if name.isEmpty then streamName else name) fault)

/-- Classify an XML stream by its root element. -/
def classifyXmlStream (db : Database) (stream : Stream) (limit : Option Nat) :
    Except ReadError TypeId :=
  match stream.readUpTo (xmlWindow limit) with
  | .ok data => .ok (db.roots.classify data)
  | .error fault => .error (.ofFault streamName fault)

end Database

end MediaSniff
