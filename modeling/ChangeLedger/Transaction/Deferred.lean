/-
  ChangeLedger.Transaction.Deferred — the deferred actions of a commit.

  The third phase takes all pending actions and runs them in the order in
  which they were deferred.  An action fails if it says so or adds a token;
  the actions behind a failing one are dropped.
-/
import ChangeLedger.Transaction.Hooks

namespace ChangeLedger.Transaction

variable {κ π σ : Type}

/-- What a deferred action failed with, under the key it was deferred by: a
    failure of its own kind stays as it is, and others are told by their
    text, as are the tokens that the action added. -/
def actionFailure? (key : String) (result : Except Failure Unit) (added : ErrorTokens) :
    Option Failure :=
  match result with
  | .error (.postProcess key message) => some (.postProcess key message)
  | .error e => some (.postProcess key e.message)
  | .ok () => if added.toList.isEmpty then none else some (.postProcess key added.display)

/-- Runs the given actions up to the first failure. -/
def runActions (h : Hooks κ π σ) (user : Option Principal) :
    List (String × π) → Transaction κ π σ → Except Failure Unit × Transaction κ π σ
  | [], t => (.ok (), t)
  | (key, action) :: rest, t =>
    let mark := t.errors.size
    let (result, errors, world) := h.act action user t.errors t.world
    let t := { t with errors, world }
    match actionFailure? key result (errors.since mark) with
    | some e => (.error e, t)
    | none => runActions h user rest t

/-- The phase of the deferred actions.  None is pending afterwards. -/
def runDeferred (h : Hooks κ π σ) (user : Option Principal) (t : Transaction κ π σ) :
    Except Failure Unit × Transaction κ π σ :=
  -- taken before they run: an action may not run twice
  let (result, t) :=
    runActions h user t.staging.pending (t.stage fun s => { s with pending := [] })
  (result, t.finishPhase .postProcessing (succeeded result))

end ChangeLedger.Transaction
