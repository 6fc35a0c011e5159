/-
# MediaSniff.FileTree — files, directories and links

A file tree holds documents by their paths. Symbolic links lead to other places of the
tree; at most `greatestLinkCount` of them are followed on one way. The root is the
directory in which all paths start, and holds itself.

`find` walks along a path. `openAt` gives what reading a document there delivers, and
`survey` the directory there, or the directory that holds what stands there. What lies
too deep in a directory has a path that is too long, and the directory cannot be
surveyed.
-/
import MediaSniff.Layout.Survey
import MediaSniff.Path
import MediaSniff.Stream

set_option autoImplicit false

namespace MediaSniff

/-- What stands in a directory under a name. -/
inductive FileTree where
  | file (data : Bytes) (mode : Nat)
  | directory (entries : List (String × FileTree))
  | symlink (target : String)
  deriving Repr

namespace FileTree

/-- A directory that holds nothing. -/
def empty : FileTree := .directory []

/-- What stands under a name. -/
def child? (entries : List (String × FileTree)) (name : String) : Option FileTree :=
  (entries.find? fun e => e.1 == name).map (·.2)

/-- Let something stand under a name. -/
def putEntry (name : String) (node : FileTree) :
    List (String × FileTree) → List (String × FileTree)
  | [] => [(name, node)]
  | (other, old) :: entries =>
      if other = name then (name, node) :: entries
      else (other, old) :: putEntry name node entries

/-- A place in a tree: the names on the way from the root. -/
abbrev Location := List String

/-- What stands at a location. -/
def at? : FileTree → Location → Option FileTree
  | node, [] => some node
  | .directory entries, name :: rest => (child? entries name).bind (at? · rest)
  | _, _ :: _ => none

/-! ## Walking along a path -/

/-- How many symbolic links are followed on one way. -/
def greatestLinkCount : Nat := 40

/-- How many bytes a name has at most. -/
def longestName : Nat := 255

/-- How many bytes a path has at most. -/
def longestPath : Nat := 4095

/-- Walk on from a location. A link at the end is followed if this is asked for, all
others always; `links` is how many may still be followed. -/
def walk (root : FileTree) (followLast : Bool) (links : Nat) (here : Location) :
    (steps : List String) → Except Fault (Location × FileTree)
  | [] =>
      match root.at? here with
      | some node => .ok (here, node)
      | none => .error .notFound
  | name :: steps =>
      match root.at? here with
      | some (.directory entries) =>
          if name = Path.stay then walk root followLast links here steps
          else if name = Path.up then walk root followLast links here.dropLast steps
          else if longestName < name.utf8ByteSize then .error .nameTooLong
          else
            match child? entries name with
            | none => .error .notFound
            | some (.symlink target) =>
                if steps.isEmpty && !followLast then .ok (here ++ [name], .symlink target)
                else
                  match links with
                  | 0 => .error .symlinkLoop
                  | links + 1 =>
                      walk root followLast links (if Path.isAbsolute target then [] else here)
                        (Path.steps target ++ steps)
            | some _ => walk root followLast links (here ++ [name]) steps
      | some _ => .error .notDirectory
      | none => .error .notFound
termination_by steps => (links, steps.length)

/-- Where a path leads, and what stands there. -/
def find (root : FileTree) (followLast : Bool) (path : String) :
    Except Fault (Location × FileTree) :=
  if path.isEmpty then .error .notFound
  else if path.toList.contains '\x00' then .error .invalidName
  else if longestPath < path.utf8ByteSize then .error .nameTooLong
  else walk root followLast greatestLinkCount [] (Path.steps path)

/-- What reading the document at a path delivers. -/
def openAt (root : FileTree) (path : String) : Except Fault Stream :=
  match root.find true path with
  | .ok (_, .file data _) => .ok [.bytes data]
  | .ok (_, .directory _) => .ok [.fault .isDirectory]
  | .ok (_, .symlink _) => .error .symlinkLoop
  | .error fault => .error fault

/-! ## Surveys -/

/-- Permission bits that let everybody pass. -/
def openMode : Nat := 0x1FF

/-- What a survey notes of something under a name. -/
def toEntry (name : String) : FileTree → Layout.Entry
  | .file data mode => { name, kind := .file, size := data.length, mode }
  | .directory _ => { name, kind := .directory, mode := openMode }
  | .symlink target => { name, kind := .symlink, size := target.utf8ByteSize, mode := openMode }

mutual

/-- Add everything below a directory that stands at a place. A place that needs more
bytes than there is room for cannot be looked at; it comes out as an error. -/
def collect (room : Nat) (place : String) (found : Layout.Snapshot) :
    FileTree → Except String Layout.Snapshot
  | .directory entries => collectAll room place found entries
  | _ => .ok found

/-- Add everything that stands in a directory at a place, and below it. -/
def collectAll (room : Nat) (place : String) (found : Layout.Snapshot) :
    List (String × FileTree) → Except String Layout.Snapshot
  | [] => .ok found
  | (name, node) :: entries =>
      let here := Path.join place name
      if room < here.utf8ByteSize then .error here
      else
        match collect room here (found.insert here (node.toEntry name)) node with
        | .ok found => collectAll room place found entries
        | .error tooLong => .error tooLong

end

/-- Everything below the directory at a path, which may be a link. The walk begins by
following the link. -/
def scan (root : FileTree) (path : String) : Except ReadError Layout.Snapshot :=
  match root.find false path, root.find true path with
  | .error fault, _ => .error (.ofFault path fault)
  | .ok _, .error fault => .error (.ofWalkFault path fault)
  | .ok _, .ok (_, node) =>
      match node.collect (longestPath - (Path.under path "").utf8ByteSize) "" {} with
      | .ok found => .ok found
      | .error tooLong => .error (.ofWalkFault (Path.under path tooLong) .nameTooLong)

/-- Whether something is a directory. -/
def isDirectory : FileTree → Bool
  | .directory _ => true
  | _ => false

/-- The directory at a path, or the one that holds what stands there. -/
def survey (root : FileTree) (path : String) : Except ReadError Layout.Survey :=
  match root.find false path with
  | .error fault => .error (.ofFault path fault)
  | .ok (_, node) =>
      (root.scan (if node.isDirectory then path else Path.holder path)).map
        (.mk node.isDirectory)

/-! ## Building a tree -/

/-- Let something stand at a location. Directories that are missing on the way are made,
and a directory that is there already is kept. -/
def put (node : FileTree) : Location → FileTree → FileTree
  | [], .directory entries =>
      match node with
      | .directory [] => .directory entries
      | _ => node
  | [], _ => node
  | name :: rest, .directory entries =>
      .directory (putEntry name (put node rest ((child? entries name).getD empty)) entries)
  | name :: rest, _ => .directory [(name, put node rest empty)]

/-- The location that a path means for something new: links on the way are followed as
far as they lead somewhere. -/
def destination (root : FileTree) (path : String) : Location :=
  (Path.names path).foldl (fun here name =>
    match root.walk true greatestLinkCount here [name] with
    | .ok (location, _) => location
    | .error _ => here ++ [name]) []

/-- Let something stand at a path. -/
def insert (root : FileTree) (path : String) (node : FileTree) : FileTree :=
  put node (root.destination path) root

end FileTree

end MediaSniff
