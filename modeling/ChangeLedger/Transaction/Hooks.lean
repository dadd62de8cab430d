/-
  ChangeLedger.Transaction.Hooks — a transaction and the code it calls.

  A transaction is a staging area, an error buffer and the world outside.
  The embedding program supplies the hooks of the objects, the meaning of the
  deferred actions, the sink of the change logs and the storage; what they do
  besides answering is their effect on the transaction or on the world.
-/
import ChangeLedger.Audit.Sink
import ChangeLedger.Staging.Recording

namespace ChangeLedger

/-- A transaction on the way to its commit. -/
structure Transaction (κ π σ : Type) where
  /-- The staged changes. -/
  staging : Staging κ π
  /-- The violations reported so far. -/
  errors : ErrorBuffer
  /-- Everything outside the ledger. -/
  world : σ

/-- What an inner hook is told besides its object. -/
structure InnerContext where
  /-- The acting user. -/
  principal : Option Principal
  /-- What happened to the object so far. -/
  verb : ChangeVerb
  /-- The token registered for the object. -/
  callback : Option String

/-- The code of the embedding program that a commit calls. -/
structure Hooks (κ π σ : Type) where
  /-- Whether an object is out of date, so that validation passes it by.  The
      question reads the world and is taken to have no effect of its own. -/
  isStale : Tracked κ → σ → Bool
  /-- The inner hook of an object: it may record further changes. -/
  inner : Tracked κ → InnerContext → Transaction κ π σ → Except Failure Unit × Transaction κ π σ
  /-- Whether an object accepts its changes; a refusal adds tokens. -/
  validate : Record κ → ErrorBuffer → σ → Bool × ErrorBuffer × σ
  /-- Brings the indexes of an object up to date. -/
  index : Record κ → σ → Except Failure Unit × σ
  /-- The outer hook of an object: it hears of committed changes. -/
  outer : Record κ → Option Principal → σ → Except Failure Unit × σ
  /-- Runs a deferred action. -/
  act : π → Option Principal → ErrorBuffer → σ → Except Failure Unit × ErrorBuffer × σ

/-- The storage engine's side of a transaction. -/
structure Storage (σ : Type) where
  /-- Makes the staged writes durable. -/
  commit : σ → Except Failure Unit × σ
  /-- Discards the staged writes. -/
  rollback : σ → Except Failure Unit × σ

namespace Transaction

variable {κ π σ : Type}

/-- Changes the staging area. -/
def stage (t : Transaction κ π σ) (f : Staging κ π → Staging κ π) : Transaction κ π σ :=
  { t with staging := f t.staging }

/-- Drops everything that was staged. -/
def clear (t : Transaction κ π σ) : Transaction κ π σ := t.stage Staging.clear

/-- Counts the end of a phase. -/
def finishPhase (t : Transaction κ π σ) (phase : Phase) (ok : Bool) : Transaction κ π σ :=
  t.stage fun s => s.count fun c => c.phaseFinished phase 0 ok

end Transaction

/-- Whether a phase succeeded. -/
def succeeded {α : Type} : Except Failure α → Bool
  | .ok _ => true
  | .error _ => false

end ChangeLedger
