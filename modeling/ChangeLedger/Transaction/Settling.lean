/-
  ChangeLedger.Transaction.Settling — the inner hooks, until nothing changes.

  The first phase sweeps over the records again and again and calls the inner
  hook of each record that is dirty when its turn comes.  A hook may dirty
  other records and open new ones.  The phase ends when a sweep finds no dirty
  record; there is a cap on the number of sweeps.
-/
import ChangeLedger.Transaction.Hooks

namespace ChangeLedger.Transaction

variable {κ π σ : Type}

/-- Calls the inner hook for a dirty record.  The record is clean afterwards,
    unless the hook fails or adds a token. -/
def visit (h : Hooks κ π σ) (user : Option Principal) (r : Record κ) (t : Transaction κ π σ) :
    Except Failure Unit × Transaction κ π σ :=
  let mark := t.errors.size
  match h.inner r.object ⟨user, r.verb, r.callback⟩ t with
  | (.error e, t) => (.error e, t)
  | (.ok (), t) =>
    if mark < t.errors.size then
      (.error (.hook r.id .innerHooks (t.errors.since mark).display), t)
    -- cleared last, so that writes to the own object do not call the hook again
    else (.ok (), t.stage fun s => s.update r.id Record.clearDirty)

/-- One sweep over the given identities; the answer is the number of hooks
    called.  Verb and token are those at the turn of the record. -/
def sweep (h : Hooks κ π σ) (user : Option Principal) :
    List ObjectId → (called : Nat) → Transaction κ π σ → Except Failure Nat × Transaction κ π σ
  | [], called, t => (.ok called, t)
  | id :: rest, called, t =>
    match (t.staging.find? id).filter Record.dirty with
    | none => sweep h user rest called t
    | some r =>
      match visit h user r t with
      | (.error e, t) => (.error e, t)
      | (.ok (), t) => sweep h user rest (called + 1) t

/-- The failure of hooks that do not settle. -/
def notSettled (id : ObjectId) (sweeps : Nat) : Failure :=
  .hook id .innerHooks ("cascade did not converge after " ++ toString sweeps ++ " sweeps")

/-- Makes at most `left` more sweeps after the `made` ones.  If a record is
    dirty after the last one, the first such record is blamed. -/
def settleWithin (h : Hooks κ π σ) (user : Option Principal) :
    (left made : Nat) → Transaction κ π σ → Except Failure Unit × Transaction κ π σ
  | 0, made, t =>
    match t.staging.records.find? Record.dirty with
    | none => (.ok (), t)
    | some r => (.error (notSettled r.id made), t)
  | left + 1, made, t =>
    match sweep h user t.staging.ids 0 t with
    | (.error e, t) => (.error e, t)
    | (.ok 0, t) => (.ok (), t)
    | (.ok called, t) =>
      settleWithin h user left (made + 1)
        (t.stage fun s => s.count fun c => c.innerSweep called)

/-- The phase of the inner hooks. -/
def settle (h : Hooks κ π σ) (user : Option Principal) (t : Transaction κ π σ) :
    Except Failure Unit × Transaction κ π σ :=
  let (result, t) := settleWithin h user t.staging.options.maxSweeps 0 t
  (result, t.finishPhase .innerHooks (succeeded result))

end ChangeLedger.Transaction
