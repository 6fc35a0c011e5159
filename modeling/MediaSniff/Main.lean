/-
# MediaSniff.Main — the program

The program obeys its command line on the system that it runs on. The host below asks
that system; everything else is decided by `CommandLine.run`.
-/
import MediaSniff.CommandLine.Run

set_option autoImplicit false

namespace MediaSniff.Main

/-- The number by which the system reports an error. -/
def errorCode? : IO.Error → Option UInt32
  | .alreadyExists _ code _ => some code
  | .otherError code _ => some code
  | .resourceBusy code _ => some code
  | .resourceVanished code _ => some code
  | .unsupportedOperation code _ => some code
  | .hardwareFault code _ => some code
  | .unsatisfiedConstraints code _ => some code
  | .illegalOperation code _ => some code
  | .protocolError code _ => some code
  | .timeExpired code _ => some code
  | .interrupted _ code _ => some code
  | .noFileOrDirectory _ code _ => some code
  | .invalidArgument _ code _ => some code
  | .permissionDenied _ code _ => some code
  | .resourceExhausted _ code _ => some code
  | .inappropriateType _ code _ => some code
  | .noSuchThing _ code _ => some code
  | .unexpectedEof => none
  | .userError _ => none

/-- The fault that an error tells of. -/
def faultOf (e : IO.Error) : Fault :=
  match errorCode? e with
  | some code => .ofCode code.toNat
  | none => .other (toString e)

/-- What an action yields, or the fault that it meets. -/
def attempt {α : Type} (action : IO α) : IO (Except Fault α) := do
  try return .ok (← action) catch e => return .error (faultOf e)

/-- How many bytes are asked for at once. -/
def blockSize : Nat := 65536

/-- Read blocks until enough bytes have come or there are no more. -/
partial def readBlocks (read : USize → IO ByteArray) (limit : Option Nat) : IO Stream := do
  let wanted := limit.elim blockSize (min · blockSize)
  if wanted = 0 then return []
  match ← attempt (read wanted.toUSize) with
  | .error .interrupted => readBlocks read limit
  | .error fault => return [.fault fault]
  | .ok block =>
      if block.isEmpty then return []
      return .bytes block.data.toList :: (← readBlocks read (limit.map (· - block.size)))

/-- Open a document and read what will be needed of it. -/
def openAt (limit : Option Nat) (path : String) : IO (Except Fault Stream) := do
  match ← attempt (IO.FS.Handle.mk path .read) with
  | .ok handle => return .ok (← readBlocks handle.read limit)
  | .error fault => return .error fault

/-- A path, ready for the questions below. -/
def locate (path : String) : IO.FS.DirEntry := ⟨path, ""⟩

/-- What an action yields, or the error that tells of the fault that it meets. -/
def attemptOr {α : Type} (error : Fault → ReadError) (action : IO α) :
    ExceptT ReadError IO α := do
  match ← attempt action with
  | .ok a => return a
  | .error fault => throw (error fault)

/-- What a survey notes of something. Permission bits are not to be had. -/
def describe (name : String) (metadata : IO.FS.Metadata) : Layout.Entry where
  name := name
  kind := match metadata.type with
    | .file => .file
    | .dir => .directory
    | .symlink => .symlink
    | .other => .other
  size := metadata.byteSize.toNat

/-- Add everything that lies below a place in the directory at a path. -/
partial def collect (path place : String) (found : Layout.Snapshot) :
    ExceptT ReadError IO Layout.Snapshot := do
  let here := if place.isEmpty then path else Path.under path place
  let mut found := found
  for child in ← attemptOr (.ofWalkFault here) (locate here).root.readDir do
    let place := Path.join place child.fileName
    let here := Path.under path place
    let metadata ← attemptOr (.ofWalkFault here) (locate here).root.symlinkMetadata
    let entry := describe child.fileName metadata
    found := found.insert place entry
    if entry.kind = .directory then found ← collect path place found
  return found

/-- Everything below the directory at a path. -/
def scan (path : String) : ExceptT ReadError IO Layout.Snapshot := do
  discard <| attemptOr (.ofFault path) (locate path).root.symlinkMetadata
  let metadata ← attemptOr (.ofWalkFault path) (locate path).root.metadata
  if metadata.type == .dir then collect path "" {} else return {}

/-- Look into the directory at a path, or into the one that holds what stands there. -/
def survey (path : String) : ExceptT ReadError IO Layout.Survey := do
  let metadata ← attemptOr (.ofFault path) (locate path).root.symlinkMetadata
  let isDirectory := metadata.type == .dir
  return ⟨isDirectory, ← scan (if isDirectory then path else Path.holder path)⟩

/-- The system that the program runs on. -/
def host : Host IO where
  openAt := openAt
  survey path := (survey path).run
  input limit := do readBlocks (← IO.getStdin).read (some limit)

end MediaSniff.Main

/-- Obey the command line. -/
def main (args : List String) : IO UInt32 := do
  let outcome ← MediaSniff.CommandLine.run MediaSniff.Main.host args
  (← IO.getStdout).putStr (MediaSniff.CommandLine.unlines outcome.output)
  (← IO.getStderr).putStr (MediaSniff.CommandLine.unlines outcome.errors)
  return outcome.code.toUInt32
