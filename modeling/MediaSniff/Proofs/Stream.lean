/-
# MediaSniff.Proofs.Stream — what comes of reading a stream

However a stream is cut into chunks, and wherever it is interrupted, all that counts is
its `outcome`: the bytes that come before the first fault that ends the reading, and that
fault, if there is one. Reading to the end gives the bytes or the fault (`readAll_eq`).
Reading up to a limit gives the first of the bytes, and the fault only if it comes before
there are enough of them (`readUpTo_eq`).
-/
import MediaSniff.Stream

set_option autoImplicit false

namespace MediaSniff.Stream

/-- The bytes before the first fault that is more than an interruption, and that fault. -/
def outcome : Stream → Bytes × Option Fault
  | [] => ([], none)
  | .bytes data :: chunks => (data ++ (outcome chunks).1, (outcome chunks).2)
  | .fault .interrupted :: chunks => outcome chunks
  | .fault fault :: _ => ([], some fault)

theorem readAll_eq (stream : Stream) :
    stream.readAll =
      match stream.outcome.2 with
      | none => .ok stream.outcome.1
      | some fault => .error fault := by
  induction stream with
  | nil => rfl
  | cons chunk chunks ih =>
      cases chunk with
      | bytes data =>
          rw [readAll, ih, outcome]
          cases (outcome chunks).2 <;> rfl
      | fault fault =>
          cases fault with
          | interrupted => rw [readAll, ih, outcome]
          | _ => rfl

/-- Taking from two runs of bytes, one behind the other. -/
theorem take_append_take (limit : Nat) (data rest : Bytes) :
    data.take limit ++ rest.take (limit - (data.take limit).length) =
      (data ++ rest).take limit := by
  rw [List.take_append, List.length_take]
  congr 2
  omega

/-- **Reading up to a limit.** A fault behind the limit is never met. -/
theorem readUpTo_eq (limit : Nat) (stream : Stream) :
    stream.readUpTo limit =
      match stream.outcome.2 with
      | none => .ok (stream.outcome.1.take limit)
      | some fault =>
          if limit ≤ stream.outcome.1.length then .ok (stream.outcome.1.take limit)
          else .error fault := by
  induction stream generalizing limit with
  | nil => simp [readUpTo, outcome]
  | cons chunk chunks ih =>
      by_cases zero : limit = 0
      · subst zero
        simp only [readUpTo, if_true, List.take_zero, Nat.zero_le]
        cases (outcome (chunk :: chunks)).2 <;> rfl
      · simp only [readUpTo, zero, if_false]
        cases chunk with
        | bytes data =>
            simp only [ih, outcome]
            cases (outcome chunks).2 with
            | none => exact congrArg Except.ok (take_append_take limit data _)
            | some fault =>
                have enough : limit - (data.take limit).length ≤ (outcome chunks).1.length ↔
                    limit ≤ (data ++ (outcome chunks).1).length := by
                  rw [List.length_take, List.length_append]
                  omega
                by_cases room : limit ≤ (data ++ (outcome chunks).1).length
                · simp only [enough, room, if_true]
                  exact congrArg Except.ok (take_append_take limit data _)
                · simp only [enough, room, if_false]
                  rfl
        | fault fault =>
            cases fault with
            | interrupted => exact ih limit
            | _ =>
                have short : ¬ limit ≤ 0 := by omega
                simp [outcome, short]

/-- A stream that can be read to the end is read up to any limit. -/
theorem readUpTo_of_readAll {stream : Stream} {data : Bytes} (read : stream.readAll = .ok data)
    (limit : Nat) : stream.readUpTo limit = .ok (data.take limit) := by
  rw [readAll_eq] at read
  rw [readUpTo_eq]
  cases ended : stream.outcome.2 with
  | none =>
      rw [ended] at read
      cases read
      rfl
  | some fault =>
      rw [ended] at read
      cases read

end MediaSniff.Stream
