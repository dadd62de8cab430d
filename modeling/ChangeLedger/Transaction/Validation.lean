/-
  ChangeLedger.Transaction.Validation — accepting and indexing the changes.

  The second phase walks over the records.  Stale objects are passed by;
  created and modified ones are validated, and every object that is accepted
  is indexed.  The first refusal or index failure ends the phase.
-/
import ChangeLedger.Transaction.Hooks

namespace ChangeLedger.Transaction

variable {κ π σ : Type}

/-- Whether the changes of an object with this verb are validated. -/
def isValidated : ChangeVerb → Bool
  | .create | .modify => true
  | _ => false

/-- Validates one record, where that is asked for. -/
def accept (h : Hooks κ π σ) (validating : Bool) (r : Record κ) (t : Transaction κ π σ) :
    Except Failure Unit × Transaction κ π σ :=
  if validating && isValidated r.verb then
    let mark := t.errors.size
    let (ok, errors, world) := h.validate r t.errors t.world
    let t := { t with errors, world }
    if ok then (.ok (), t) else (.error (.validation r.id (t.errors.since mark)), t)
  else (.ok (), t)

/-- Validates and indexes the given records. -/
def validateRecords (h : Hooks κ π σ) (validating : Bool) :
    List (Record κ) → Transaction κ π σ → Except Failure Unit × Transaction κ π σ
  | [], t => (.ok (), t)
  | r :: rest, t =>
    if h.isStale r.object t.world then validateRecords h validating rest t
    else
      match accept h validating r t with
      | (.error e, t) => (.error e, t)
      | (.ok (), t) =>
        match h.index r t.world with
        | (.error e, world) => (.error e, { t with world })
        | (.ok (), world) => validateRecords h validating rest { t with world }

/-- The phase of validation and indexing. -/
def validate (h : Hooks κ π σ) (validating : Bool) (t : Transaction κ π σ) :
    Except Failure Unit × Transaction κ π σ :=
  let (result, t) := validateRecords h validating t.staging.records t
  (result, t.finishPhase .validation (succeeded result))

end ChangeLedger.Transaction
