/-
  ChangeLedger.Transaction.Counters — what a ledger counts.

  The counters are 64-bit words and wrap around.
-/
import ChangeLedger.Transaction.Phase

namespace ChangeLedger

/-- The activity of a ledger in numbers. -/
structure Counters where
  /-- Records that were opened. -/
  recordsCreated : UInt64 := 0
  /-- Sweeps of inner hooks that called at least one. -/
  innerSweeps : UInt64 := 0
  /-- Inner hooks called in those sweeps. -/
  innerHooks : UInt64 := 0
  /-- Phases that succeeded. -/
  phasesOk : UInt64 := 0
  /-- Phases that failed. -/
  phasesFailed : UInt64 := 0
  /-- Time spent in validation, in microseconds. -/
  validationMicros : UInt64 := 0
  /-- Appends that a sink took. -/
  logAppends : UInt64 := 0
  /-- Bytes in those appends. -/
  logBytes : UInt64 := 0
  /-- Appends that a sink refused. -/
  logFailures : UInt64 := 0
  deriving DecidableEq

namespace Counters

instance : Inhabited Counters := ⟨{}⟩

/-- Counts a record that was opened. -/
def recordCreated (c : Counters) : Counters := { c with recordsCreated := c.recordsCreated + 1 }

/-- Counts a sweep that called `hooks` inner hooks. -/
def innerSweep (c : Counters) (hooks : Nat) : Counters :=
  { c with innerSweeps := c.innerSweeps + 1, innerHooks := c.innerHooks + UInt64.ofNat hooks }

/-- Counts the end of a phase that took `micros` microseconds. -/
def phaseFinished (c : Counters) (phase : Phase) (micros : Nat) (ok : Bool) : Counters :=
  let c := if ok then { c with phasesOk := c.phasesOk + 1 }
    else { c with phasesFailed := c.phasesFailed + 1 }
  if phase = .validation then
    { c with validationMicros := c.validationMicros + UInt64.ofNat micros }
  else c

/-- Counts an append of `bytes` bytes that a sink took. -/
def logAppended (c : Counters) (bytes : Nat) : Counters :=
  { c with logAppends := c.logAppends + 1, logBytes := c.logBytes + UInt64.ofNat bytes }

/-- Counts an append that a sink refused. -/
def logFailed (c : Counters) : Counters := { c with logFailures := c.logFailures + 1 }

end Counters

end ChangeLedger
