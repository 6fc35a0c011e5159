/-
# MediaSniff.Proofs.Database.Arrivals — how the bytes of a stream arrive

A reader meets runs of bytes and interruptions in any order, and at the end perhaps a fault that
ends the reading (`Script`). Of all this an answer depends only on the bytes as a whole and on
that fault (`outcome_toStream`).

If enough bytes come, the answer is that of so many of them, and what is behind them is never
seen, be it more bytes or the fault. If the fault comes first, it alone makes the answer, whatever
was read till then (`classifyStream_of_script`). A reader that has all it wants does not ask for
more, so a fault right at the limit is one behind it, and with a limit of zero there is no fault.
-/
import MediaSniff.Database.Reader
import MediaSniff.Proofs.Database.ReadLimit
import MediaSniff.Proofs.Stream

set_option autoImplicit false

namespace MediaSniff

/-! ## Scripts -/

/-- What a reader meets before its stream ends. -/
inductive Arrival where
  | bytes (data : Bytes) (given : data ≠ [])
  | interruption

namespace Arrival

def toChunk : Arrival → Chunk
  | .bytes data _ => .bytes data
  | .interruption => .fault .interrupted

def data : Arrival → Bytes
  | .bytes data _ => data
  | .interruption => []

end Arrival

/-- All that a reader meets, up to the end of the stream or to a fault that ends the reading. -/
structure Script where
  arrivals : List Arrival
  ending : Option Fault
  final : ending ≠ some .interrupted

namespace Script

def toStream (s : Script) : Stream :=
  s.arrivals.map Arrival.toChunk ++ (s.ending.map Chunk.fault).toList

/-- All bytes of a script, in one piece. -/
def delivered (s : Script) : Bytes := s.arrivals.flatMap Arrival.data

/-- Nothing counts but the bytes and the fault. -/
theorem outcome_toStream (s : Script) : s.toStream.outcome = (s.delivered, s.ending) := by
  obtain ⟨arrivals, ending, final⟩ := s
  unfold toStream delivered
  induction arrivals with
  | nil =>
      cases ending with
      | none => rfl
      | some fault => cases fault with
        | interrupted => exact absurd rfl final
        | _ => rfl
  | cons arrival arrivals ih =>
      simp only [List.map_cons, List.cons_append, List.flatMap_cons] at ih ⊢
      cases arrival with
      | bytes data given => rw [Arrival.toChunk, Stream.outcome, ih, Arrival.data]
      | interruption => rw [Arrival.toChunk, Stream.outcome, ih, Arrival.data, List.nil_append]

end Script

/-! ## Answers -/

namespace Database

variable {stream stream' : Stream}

/-- Enough bytes come before any fault. -/
theorem readUpTo_of_enough {limit : Nat}
    (enough : stream.outcome.2 = none ∨ limit ≤ stream.outcome.1.length) :
    stream.readUpTo limit = .ok (stream.outcome.1.take limit) := by
  rw [Stream.readUpTo_eq]
  cases ended : stream.outcome.2 with
  | none => rfl
  | some fault =>
      rw [ended] at enough
      exact if_pos (enough.resolve_left nofun)

theorem readUpTo_of_fault {limit : Nat} {fault : Fault} (ended : stream.outcome.2 = some fault)
    (early : stream.outcome.1.length < limit) : stream.readUpTo limit = .error fault := by
  rw [Stream.readUpTo_eq, ended]
  exact if_neg (Nat.not_le.2 early)

theorem readUpTo_congr (same : stream.outcome = stream'.outcome) (limit : Nat) :
    stream.readUpTo limit = stream'.readUpTo limit := by
  rw [Stream.readUpTo_eq, Stream.readUpTo_eq, same]

/-- **What arrives decides, not how.** With enough bytes the answer is that of the bytes up to the
limit. A fault in front of the limit is the answer: that the stream is a directory, or an error
under its name. The root element of a stream that has no fault is that of its bytes. Scripts with
the same bytes and the same ending always have the same answers. -/
theorem classifyStream_of_script (db : Database) (s : Script) (name : String) (config : Config) :
    (s.ending = none ∨ config.effectiveReadLimit db.magicReach ≤ s.delivered.length →
      db.classifyStream s.toStream name config =
        .ok (db.classify (s.delivered.take (config.effectiveReadLimit db.magicReach)) name none
          config.preference)) ∧
    (∀ fault, s.ending = some fault →
      s.delivered.length < config.effectiveReadLimit db.magicReach →
        db.classifyStream s.toStream name config =
          if fault = .isDirectory then .ok db.sentinels.directory
          else .error (.ofFault (if name = "" then "-" else name) fault)) ∧
    (s.ending = none → ∀ limit,
      db.classifyXmlStream s.toStream limit = .ok (db.classifyXml s.delivered limit)) ∧
    ∀ s' : Script, s'.delivered = s.delivered → s'.ending = s.ending →
      db.classifyStream s'.toStream name config = db.classifyStream s.toStream name config ∧
        ∀ limit, db.classifyXmlStream s'.toStream limit = db.classifyXmlStream s.toStream limit := by
  have outcome := s.outcome_toStream
  refine ⟨fun enough => ?_, fun fault ended early => ?_, fun ended limit => ?_,
    fun s' bytes ending => ?_⟩
  · rw [classifyStream, readUpTo_of_enough (by simpa [outcome] using enough), outcome]
  · rw [classifyStream, readUpTo_of_fault (by rw [outcome, ended]) (by rwa [outcome])]
    have reported : (if name.isEmpty then streamName else name) = if name = "" then "-" else name := by
      simp [streamName]
    rw [reported]
    cases fault <;> rfl
  · rw [classifyXmlStream, readUpTo_of_enough (by simp [outcome, ended]), outcome]
    rfl
  · have same : s'.toStream.outcome = s.toStream.outcome := by
      rw [outcome, s'.outcome_toStream, bytes, ending]
    simp only [classifyStream, classifyXmlStream, readUpTo_congr same, implies_true, and_self]

/-- A letter, in which the reading is interrupted, and a fault right behind it. -/
def letterScript : Script :=
  ⟨[.interruption, .bytes [0x61] nofun, .interruption], some (.other "BrokenPipe"), nofun⟩

/-- A database whose rules look at one byte does not meet the fault. If its rules looked at two
bytes or no byte came, the fault would be the answer. -/
theorem letterScript_classified :
    oneByteDatabase.classifyStream letterScript.toStream "" {} =
        .ok (oneByteDatabase.classify [0x61] "" none .default) ∧
      oneByteDatabase.classifyStream (Script.toStream ⟨[.interruption], some .notFound, nofun⟩) "" {} =
        .error (.notFound "-") ∧
      oneByteDatabase.classifyXmlStream
          (Script.toStream ⟨[.bytes [0x3C] nofun, .interruption, .bytes [0x61] nofun], none, nofun⟩) none =
        .ok (oneByteDatabase.classifyXml [0x3C, 0x61] none) := by
  have limit : ({} : Config).effectiveReadLimit oneByteDatabase.magicReach = 1 := by
    rw [oneByteDatabase_magicReach]
    rfl
  refine ⟨?_, ?_, ?_⟩
  · have enough := (classifyStream_of_script oneByteDatabase letterScript "" {}).1
    rw [limit] at enough
    exact enough (.inr (by decide))
  · have early := (classifyStream_of_script oneByteDatabase ⟨[.interruption], some .notFound, nofun⟩
      "" {}).2.1
    rw [limit] at early
    exact early _ rfl (by decide)
  · exact (classifyStream_of_script oneByteDatabase
      ⟨[.bytes [0x3C] nofun, .interruption, .bytes [0x61] nofun], none, nofun⟩ "" {}).2.2.1 rfl none

end Database

end MediaSniff
