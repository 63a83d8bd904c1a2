/-
**Running totals.**

`Totals` counts the positions occupied now and sums up the finished requests: their input, the
tokens generated after the first, and the time both took. The throughput is the quotient of the two,
and zero without time.

There is no clock here: no operation adds any time, so in a run both times stay zero and the
throughput with them. The times are there because totals are written out with whatever times they
hold.
-/

import ContinuousBatching.Count
import ContinuousBatching.Json.Text

namespace ContinuousBatching

open ContinuousBatching.Number (Double)

/-- What was done so far. -/
structure Totals where
  /-- The positions that running requests occupy. -/
  occupied : Nat
  /-- The time that inputs took; no operation changes it. -/
  prefillSeconds : Double
  /-- The positions of the inputs of finished requests. -/
  prefillLength : Nat
  /-- The time that the tokens after the first took; no operation changes it. -/
  decodeSeconds : Double
  /-- The tokens that finished requests generated after their first. -/
  decodeLength : Nat
  deriving DecidableEq, Repr

namespace Totals

/-- Nothing was done. -/
def zero : Totals := ⟨0, .zero, 0, .zero, 0⟩

/-- Sets everything to zero but the positions that are occupied now. -/
def reset (totals : Totals) : Totals := { zero with occupied := totals.occupied }

/-- A length divided by a time; zero where no time was taken. -/
def perSecond (length : Nat) (seconds : Double) : Double :=
  if seconds.isPositive then (Double.ofNat length).div seconds else .zero

/-- The totals and the throughput as JSON. -/
def toJson (totals : Totals) : String :=
  Json.object
    [("current_total_seq_len", Json.nat totals.occupied),
      ("request_total_prefill_time", Json.double totals.prefillSeconds),
      ("total_prefill_length", Json.nat totals.prefillLength),
      ("request_total_decode_time", Json.double totals.decodeSeconds),
      ("total_decode_length", Json.nat totals.decodeLength),
      ("prefill_tokens_per_s",
        Json.double (perSecond totals.prefillLength totals.prefillSeconds)),
      ("decode_tokens_per_s", Json.double (perSecond totals.decodeLength totals.decodeSeconds))]

/-- Occupies further positions. -/
def occupy (length : Nat) : Action Totals Unit := do
  let totals ← get
  set { totals with occupied := ← Count.add totals.occupied length }

/-- Frees positions; there have to be as many. -/
def release (length : Nat) : Action Totals Unit := do
  let totals ← get
  if length ≤ totals.occupied then set { totals with occupied := totals.occupied - length }
  else refuse (.inconsistent (.releaseTooLarge length totals.occupied))

/-- Adds the lengths of a finished request. Its times are left out. -/
def finish (prefillLength decodeLength : Nat) : Action Totals Unit := do
  let totals ← get
  let prefill ← Count.add totals.prefillLength prefillLength
  let decode ← Count.add totals.decodeLength decodeLength
  set { totals with prefillLength := prefill, decodeLength := decode }

end Totals

end ContinuousBatching
