/-
  ChangeLedger.Transaction.Notification — the outer hooks.

  The fourth phase tells every touched object that its changes are committed.
  An outer hook that fails leaves a warning and stops nothing.
-/
import ChangeLedger.Transaction.Hooks

namespace ChangeLedger.Transaction

variable {κ π σ : Type}

/-- Calls the outer hooks for the given records; the answer is the warnings. -/
def notifyRecords (h : Hooks κ π σ) (user : Option Principal) :
    List (Record κ) → σ → List Failure × σ
  | [], w => ([], w)
  | r :: rest, w =>
    let (result, w) := h.outer r user w
    let (warnings, w) := notifyRecords h user rest w
    match result with
    | .ok () => (warnings, w)
    | .error e => (.hook r.id .outerHooks e.message :: warnings, w)

/-- The phase of the outer hooks. -/
def notify (h : Hooks κ π σ) (user : Option Principal) (t : Transaction κ π σ) :
    List Failure × Transaction κ π σ :=
  let (warnings, world) := notifyRecords h user t.staging.records t.world
  (warnings, { t with world }.finishPhase .outerHooks warnings.isEmpty)

end ChangeLedger.Transaction
