/-
# MediaSniff.ReadError — why a document cannot be read

A `Fault` is what the system reports when it refuses to open or read something. A
`ReadError` says of which document this is true. Two faults are told apart from all
others: that there is no such document, and that it may not be read. A fault that is met
on a walk through a directory is worded with the place at which the walk ended.
-/
set_option autoImplicit false

namespace MediaSniff

/-- What the system reports when it refuses an operation. -/
inductive Fault where
  | notFound
  | permissionDenied
  /-- The operation was interrupted, and may be tried again. -/
  | interrupted
  | isDirectory
  | notDirectory
  | symlinkLoop
  | nameTooLong
  /-- The name holds a character that no name can hold. -/
  | invalidName
  /-- What was to be read as a text is none. -/
  | notText
  /-- Any other fault, by its name. -/
  | other (name : String)
  deriving DecidableEq, Repr

/-- The system's own wording. -/
def Fault.systemText : Fault → String
  | .notFound => "No such file or directory (os error 2)"
  | .permissionDenied => "Permission denied (os error 13)"
  | .interrupted => "Interrupted system call (os error 4)"
  | .isDirectory => "Is a directory (os error 21)"
  | .notDirectory => "Not a directory (os error 20)"
  | .symlinkLoop => "Too many levels of symbolic links (os error 40)"
  | .nameTooLong => "File name too long (os error 36)"
  | .invalidName => "file name contained an unexpected NUL byte"
  | .notText => "stream did not contain valid UTF-8"
  | .other name => name

/-- The fault that the system reports by a number. -/
def Fault.ofCode : Nat → Fault
  | 1 => .permissionDenied
  | 2 => .notFound
  | 4 => .interrupted
  | 13 => .permissionDenied
  | 20 => .notDirectory
  | 21 => .isDirectory
  | 36 => .nameTooLong
  | 40 => .symlinkLoop
  | code => .other s!"os error {code}"

/-- Why a document cannot be read. -/
inductive ReadError where
  | notFound (path : String)
  | permissionDenied (path : String)
  | failed (path : String) (fault : Fault)
  /-- The fault ended a walk through a directory. -/
  | walkFailed (path : String) (fault : Fault)
  deriving DecidableEq, Repr

namespace ReadError

/-- The error for a fault met at a path. -/
def ofFault (path : String) : Fault → ReadError
  | .notFound => .notFound path
  | .permissionDenied => .permissionDenied path
  | fault => .failed path fault

/-- The error for a fault that ends a walk at a path. -/
def ofWalkFault (path : String) : Fault → ReadError
  | .notFound => .notFound path
  | .permissionDenied => .permissionDenied path
  | fault => .walkFailed path fault

/-- The same error at another path. -/
def withPath (path : String) : ReadError → ReadError
  | .notFound _ => .notFound path
  | .permissionDenied _ => .permissionDenied path
  | .failed _ fault => .failed path fault
  | .walkFailed _ fault => .walkFailed path fault

/-- The path an error is reported at. -/
def path : ReadError → String
  | .notFound path => path
  | .permissionDenied path => path
  | .failed path _ => path
  | .walkFailed path _ => path

/-- The fault behind an error that is neither of the two that are told apart. -/
def source? : ReadError → Option Fault
  | .failed _ fault => some fault
  | .walkFailed _ fault => some fault
  | _ => none

/-- The wording of an error, without the fault behind it. -/
def message : ReadError → String
  | .notFound path => s!"No such file or directory: {path}"
  | .permissionDenied path => s!"Permission denied: {path}"
  | .failed path _ => s!"Failed to read {path}"
  | .walkFailed path _ => s!"Failed to read {path}"

/-- The wording of what is behind an error, if that is told. -/
def sourceText? : ReadError → Option String
  | .failed _ fault => some fault.systemText
  | .walkFailed path fault => some s!"IO error for operation on {path}: {fault.systemText}"
  | _ => none

/-- The wording of an error and of what is behind it. -/
def fullMessage (e : ReadError) : String :=
  match e.sourceText? with
  | some text => s!"{e.message}: {text}"
  | none => e.message

end ReadError

end MediaSniff
