/-
# MediaSniff.Sentinels — the five types every database must have

Some answers do not come from a rule: that nothing is known of a document, that it is
plain text, that it is empty, that it is a directory, that it is XML of no registered
kind. Each is a type of the database, found under a fixed name.
-/
import MediaSniff.TypeId

set_option autoImplicit false

namespace MediaSniff

/-- The types of the answers that come from no rule. -/
structure Sentinels where
  unknown : TypeId
  text : TypeId
  empty : TypeId
  directory : TypeId
  xml : TypeId
  deriving DecidableEq, Repr

namespace Sentinels

def unknownName : String := "application/octet-stream"
def textName : String := "text/plain"
def emptyName : String := "application/x-zerosize"
def directoryName : String := "inode/directory"
def xmlName : String := "application/xml"

end Sentinels

end MediaSniff
