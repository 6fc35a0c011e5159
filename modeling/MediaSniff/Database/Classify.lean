/-
# MediaSniff.Database.Classify — name and content together

A document is classified by its name and its beginning. The name gives candidates, best
first; the content gives the types of all matching signatures or, if there are none and
the document looks like text, plain text. The first content type that some candidate is
or stands below settles the matter: the first such candidate is the answer. If there is
none, the preference decides between the first content type and the best candidate.

A name that says nothing leaves the decision to the content alone.
-/
import MediaSniff.Database.Basic
import MediaSniff.Preference

set_option autoImplicit false

namespace MediaSniff

namespace Database

/-- How many leading bytes the content rules can look at. -/
def magicReach (db : Database) : Nat := db.magic.longestExtent

/-- Classify by content alone. -/
def classifyBytes (db : Database) (data : Bytes) : TypeId := db.magic.classify data

/-- Classify by name alone. -/
def classifyName (db : Database) (name : String) : TypeId := db.globs.best name

/-- What content says: the types of all matching signatures, or plain text. -/
def contentTypes (db : Database) (data : Bytes) : List TypeId :=
  match db.magic.matching data with
  | [] => if Magic.looksLikeText data then [db.sentinels.text] else []
  | found => found

/-- The first candidate that is a type or stands below it. -/
def refine? (db : Database) (candidates : List Glob.Candidate) (found : TypeId) :
    Option TypeId :=
  (candidates.find? fun c => db.registry.isA c.type found).map (·.type)

/-- Whether a preference lets content win over a name with so many candidates. -/
def contentWins (preference : Preference) (candidates : Nat) : Bool :=
  match preference with
  | .magic => true
  | .glob => false
  | .default => candidates != 1

/-- Decide between the candidates of a name, of which `best` is the first, and a
document's content. -/
def settle (db : Database) (candidates : List Glob.Candidate) (best : TypeId) (data : Bytes)
    (preference : Preference) : TypeId :=
  if data.isEmpty then if preference = .magic then db.sentinels.empty else best
  else
    let found := db.contentTypes data
    match found.findSome? (db.refine? candidates) with
    | some agreed => agreed
    | none =>
        match found with
        | first :: _ => if contentWins preference candidates.length then first else best
        | [] => best

/-- At most `limit` leading bytes. -/
def truncate (limit : Option Nat) (data : Bytes) : Bytes := limit.elim data data.take

/-- Classify by name and content. -/
def classify (db : Database) (data : Bytes) (name : String) (limit : Option Nat)
    (preference : Preference) : TypeId :=
  let data := truncate limit data
  let candidates := db.globs.candidates name
  match candidates with
  | [] => db.magic.classify data
  | c :: _ =>
      if c.type = db.sentinels.unknown then db.magic.classify data
      else db.settle candidates c.type data preference

/-- The window that is scanned for a root element. -/
def xmlWindow (limit : Option Nat) : Nat := limit.elim Xml.scanLimit (min · Xml.scanLimit)

/-- Classify an XML document by its root element. -/
def classifyXml (db : Database) (data : Bytes) (limit : Option Nat) : TypeId :=
  db.roots.classify (data.take (xmlWindow limit))

/-- Classify a directory by what it holds. -/
def classifySnapshot? (db : Database) (snapshot : Layout.Snapshot) : Option TypeId :=
  db.layouts.classify? db.globs snapshot

end Database

end MediaSniff
