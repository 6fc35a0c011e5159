/-
# MediaSniff.Stream — what a document delivers when it is read

A stream delivers its bytes in chunks and may report faults on the way. Reading stops
as soon as enough bytes have come, so a fault right behind them is never met; an
interruption is passed over.
-/
import MediaSniff.ReadError
import MediaSniff.Text.Utf8

set_option autoImplicit false

namespace MediaSniff

/-- What a stream delivers next. -/
inductive Chunk where
  | bytes (data : Bytes)
  | fault (fault : Fault)
  deriving Repr

/-- A stream, from its beginning to its end. -/
abbrev Stream := List Chunk

namespace Stream

/-- Read at most `limit` bytes. -/
def readUpTo (limit : Nat) : Stream → Except Fault Bytes
  | [] => .ok []
  | chunk :: chunks =>
      if limit = 0 then .ok []
      else match chunk with
        | .bytes data =>
            let taken := data.take limit
            (readUpTo (limit - taken.length) chunks).map (taken ++ ·)
        | .fault .interrupted => readUpTo limit chunks
        | .fault fault => .error fault

/-- Read to the end. -/
def readAll : Stream → Except Fault Bytes
  | [] => .ok []
  | .bytes data :: chunks => (readAll chunks).map (data ++ ·)
  | .fault .interrupted :: chunks => readAll chunks
  | .fault fault :: _ => .error fault

/-- Read a text to the end. -/
def readText (stream : Stream) : Except Fault String :=
  match stream.readAll with
  | .ok data => (Text.ofUtf8? data).elim (.error .notText) .ok
  | .error fault => .error fault

end Stream

end MediaSniff
