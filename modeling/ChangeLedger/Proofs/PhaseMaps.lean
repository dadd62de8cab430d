/-
  ChangeLedger.Proofs.PhaseMaps — phases of a transaction and of a map of it.

  A map of transactions is neutral if no phase notices it: it leaves alone which
  records are dirty and what is pending, commutes with counting, and does not
  touch what is added to the errors.  If the map commutes with every call that a
  phase makes, it commutes with the phase.

  Each phase asks for no more than the calls that it makes itself, so that hooks
  which differ in other calls may stand on the two sides.

  Main results:
    * `Neutral` — the maps that no phase notices.
    * `Neutral.settle`, `Neutral.validate`, `Neutral.runDeferred`,
      `Neutral.notify` — the four phases that call hooks and actions.
    * `Neutral.prepare` — the first three of them in a row.
-/
import ChangeLedger.Proofs.PhaseInduction

namespace ChangeLedger

variable {κ π σ σ' : Type}

/-! ## Calls on a transaction -/

namespace Hooks

variable (h : Hooks κ π σ)

/-- Asks the validator of a record. -/
def ask (r : Record κ) (t : Transaction κ π σ) : Bool × Transaction κ π σ :=
  (h.validate r t.errors t.world).map id fun after => { t with errors := after.1, world := after.2 }

/-- Calls the index for a record. -/
def addToIndex (r : Record κ) (t : Transaction κ π σ) : Except Failure Unit × Transaction κ π σ :=
  (h.index r t.world).map id fun world => { t with world }

/-- Runs a deferred action. -/
def runAction (user : Option Principal) (action : π) (t : Transaction κ π σ) :
    Except Failure Unit × Transaction κ π σ :=
  (h.act action user t.errors t.world).map id fun after =>
    { t with errors := after.1, world := after.2 }

/-- Calls the outer hook of a record. -/
def tell (user : Option Principal) (r : Record κ) (t : Transaction κ π σ) :
    Except Failure Unit × Transaction κ π σ :=
  (h.outer r user t.world).map id fun world => { t with world }

end Hooks

namespace Transaction

section

variable (h : Hooks κ π σ) (validating : Bool) (user : Option Principal)

/-- To accept a record is to ask its validator, if validators are asked at all
    and the verb of the record is one that is validated. -/
theorem accept_eq_ask (r : Record κ) (t : Transaction κ π σ) :
    accept h validating r t =
      if validating && isValidated r.verb then
        if (h.ask r t).1 then (.ok (), (h.ask r t).2)
        else (.error (.validation r.id ((h.ask r t).2.errors.since t.errors.size)), (h.ask r t).2)
      else (.ok (), t) := rfl

/-- One turn of validation: an object that is stale is passed by, and any other
    is accepted and then indexed. -/
theorem validateRecords_eq_addToIndex (r : Record κ) (rest : List (Record κ))
    (t : Transaction κ π σ) :
    validateRecords h validating (r :: rest) t =
      if h.isStale r.object t.world then validateRecords h validating rest t
      else
        match accept h validating r t with
        | (.error e, t) => (.error e, t)
        | (.ok (), t) =>
          match h.addToIndex r t with
          | (.error e, t) => (.error e, t)
          | (.ok (), t) => validateRecords h validating rest t := by
  conv => lhs; unfold validateRecords
  split
  next => rfl
  next =>
    obtain ⟨answer, t'⟩ := accept h validating r t
    cases answer with
    | error e => rfl
    | ok _ =>
      unfold Hooks.addToIndex
      dsimp only
      obtain ⟨answer', world⟩ := h.index r t'.world
      cases answer' <;> rfl

theorem runActions_eq_runAction (a : String × π) (rest : List (String × π))
    (t : Transaction κ π σ) :
    runActions h user (a :: rest) t =
      let done := h.runAction user a.2 t
      match actionFailure? a.1 done.1 (done.2.errors.since t.errors.size) with
      | some e => (.error e, done.2)
      | none => runActions h user rest done.2 := rfl

/-- Calls the outer hooks for the given records. -/
def notifyAll (rs : List (Record κ)) (t : Transaction κ π σ) :
    List Failure × Transaction κ π σ :=
  let (warnings, world) := notifyRecords h user rs t.world
  (warnings, { t with world })

/-- One outer hook is called and then the others, whatever it answers; its
    failure becomes a warning. -/
theorem notifyAll_cons (r : Record κ) (rest : List (Record κ)) (t : Transaction κ π σ) :
    notifyAll h user (r :: rest) t =
      let told := h.tell user r t
      let later := notifyAll h user rest told.2
      (match told.1 with
        | .ok () => later.1
        | .error e => .hook r.id .outerHooks e.message :: later.1, later.2) := by
  have hrecords : notifyRecords h user (r :: rest) t.world =
      let told := h.outer r user t.world
      let later := notifyRecords h user rest told.2
      match told.1 with
      | .ok () => later
      | .error e => (.hook r.id .outerHooks e.message :: later.1, later.2) := rfl
  unfold notifyAll Hooks.tell
  rw [hrecords]
  obtain ⟨answer, world⟩ := h.outer r user t.world
  cases answer <;> rfl

theorem notify_eq_notifyAll (t : Transaction κ π σ) :
    notify h user t =
      let told := notifyAll h user t.staging.records t
      (told.1, told.2.finishPhase .outerHooks told.1.isEmpty) := rfl

end

/-- A map of transactions that no phase notices; it changes each record by
    `k`. -/
structure Neutral (k : Record κ → Record κ) (F : Transaction κ π σ → Transaction κ π σ') : Prop
    extends Unseen k where
  records : ∀ t, (F t).staging.records = t.staging.records.map k
  pending : ∀ t, (F t).staging.pending = t.staging.pending
  maxSweeps : ∀ t, (F t).staging.options.maxSweeps = t.staging.options.maxSweeps
  count : ∀ t f, F (t.stage (·.count f)) = (F t).stage (·.count f)
  clearDirty : ∀ t id, F (t.stage (·.update id Record.clearDirty))
    = (F t).stage (·.update id Record.clearDirty)
  take : ∀ t, F (t.stage fun s => { s with pending := [] })
    = (F t).stage fun s => { s with pending := [] }
  added : ∀ t t', (F t').errors.since (F t).errors.size = t'.errors.since t.errors.size

namespace Neutral

variable {k : Record κ → Record κ} {F : Transaction κ π σ → Transaction κ π σ'}
  {h : Hooks κ π σ} {h' : Hooks κ π σ'}

/-- The end of a phase is counted, and that is all. -/
theorem finishPhase (hF : Neutral k F) (phase : Phase) (ok : Bool) (t : Transaction κ π σ) :
    F (t.finishPhase phase ok) = (F t).finishPhase phase ok := hF.count t _

/-! ## The inner hooks -/

/-- The inner hooks: if the map commutes with each call of one, it commutes with
    the sweeps, for both sides visit the same records. -/
theorem settle (hF : Neutral k F)
    (hinner : ∀ object ctx t, Prod.map id F (h.inner object ctx t) = h'.inner object ctx (F t))
    (user : Option Principal) (t : Transaction κ π σ) :
    Prod.map id F (settle h user t) = settle h' user (F t) := by
  have hvisit : ∀ r t, Prod.map id F (visit h user r t) = visit h' user (k r) (F t) :=
    visit_commutes hF.toUnseen hF.added (fun id t => hF.clearDirty t id) hinner
  have hs := settleWithin_commutes hF.toUnseen hF.records hvisit (fun f t => hF.count t f)
    t.staging.options.maxSweeps 0 t
  unfold Transaction.settle
  rw [hF.maxSweeps, ← hs]
  exact congrArg (Prod.mk _) (hF.finishPhase _ _ _)

/-! ## Validation -/

/-- A record is accepted on both sides or rejected on both, with the same
    tokens, for the mark of the turn moves along with the errors. -/
theorem accept (hF : Neutral k F)
    (hvalidate : ∀ r t, Prod.map id F (h.ask r t) = h'.ask (k r) (F t)) (validating : Bool)
    (r : Record κ) (t : Transaction κ π σ) :
    Prod.map id F (accept h validating r t) = accept h' validating (k r) (F t) := by
  rw [accept_eq_ask, accept_eq_ask, hF.verb, ← hvalidate]
  split
  next =>
    dsimp only [Prod.map, id]
    rw [hF.added, hF.toUnseen.id_eq]
    split <;> rfl
  next => rfl

/-- Whether the validators are asked at all is left to `haccept`. -/
theorem validateRecords (hF : Neutral k F) {validating : Bool}
    (hstale : ∀ object t, h.isStale object t.world = h'.isStale object (F t).world)
    (haccept : ∀ r t, Prod.map id F (Transaction.accept h validating r t)
      = Transaction.accept h' validating (k r) (F t))
    (hindex : ∀ r t, Prod.map id F (h.addToIndex r t) = h'.addToIndex (k r) (F t))
    (rs : List (Record κ)) (t : Transaction κ π σ) :
    Prod.map id F (validateRecords h validating rs t)
      = validateRecords h' validating (rs.map k) (F t) := by
  induction rs generalizing t with
  | nil => rfl
  | cons r rest ih =>
    rw [List.map_cons, validateRecords_eq_addToIndex, validateRecords_eq_addToIndex, hF.object,
      hstale r.object t]
    split
    next => exact ih t
    next =>
      rw [← haccept r t]
      obtain ⟨answer, t'⟩ := Transaction.accept h validating r t
      cases answer with
      | error e => rfl
      | ok _ =>
        dsimp only [Prod.map, id]
        rw [← hindex]
        obtain ⟨answer', t''⟩ := h.addToIndex r t'
        cases answer' with
        | error e => rfl
        | ok _ => exact ih t''

/-- Validation of all records, in the order in which they stand. -/
theorem validate (hF : Neutral k F) {validating : Bool}
    (hstale : ∀ object t, h.isStale object t.world = h'.isStale object (F t).world)
    (haccept : ∀ r t, Prod.map id F (Transaction.accept h validating r t)
      = Transaction.accept h' validating (k r) (F t))
    (hindex : ∀ r t, Prod.map id F (h.addToIndex r t) = h'.addToIndex (k r) (F t))
    (t : Transaction κ π σ) :
    Prod.map id F (validate h validating t) = validate h' validating (F t) := by
  unfold Transaction.validate
  rw [hF.records, ← hF.validateRecords hstale haccept hindex t.staging.records t]
  exact congrArg (Prod.mk _) (hF.finishPhase _ _ _)

/-! ## The deferred actions -/

/-- Each action is judged by what it adds to the errors, and this the map leaves
    alone. -/
theorem runActions (hF : Neutral k F) {user : Option Principal}
    (hact : ∀ action t, Prod.map id F (h.runAction user action t) = h'.runAction user action (F t))
    (actions : List (String × π)) (t : Transaction κ π σ) :
    Prod.map id F (runActions h user actions t) = runActions h' user actions (F t) := by
  induction actions generalizing t with
  | nil => rfl
  | cons a rest ih =>
    rw [runActions_eq_runAction, runActions_eq_runAction, ← hact]
    dsimp only [Prod.map, id]
    rw [hF.added]
    cases actionFailure? a.1 (h.runAction user a.2 t).1 _ with
    | some e => rfl
    | none => exact ih _

/-- The deferred actions: the pending ones are taken first, and the map commutes
    with the taking. -/
theorem runDeferred (hF : Neutral k F) {user : Option Principal}
    (hact : ∀ action t, Prod.map id F (h.runAction user action t) = h'.runAction user action (F t))
    (t : Transaction κ π σ) :
    Prod.map id F (runDeferred h user t) = runDeferred h' user (F t) := by
  unfold Transaction.runDeferred
  rw [hF.pending, ← hF.take, ← hF.runActions hact]
  exact congrArg (Prod.mk _) (hF.finishPhase _ _ _)

/-! ## The outer hooks -/

theorem notifyAll (hF : Neutral k F) {user : Option Principal}
    (houter : ∀ r t, Prod.map id F (h.tell user r t) = h'.tell user (k r) (F t))
    (rs : List (Record κ)) (t : Transaction κ π σ) :
    Prod.map id F (notifyAll h user rs t) = notifyAll h' user (rs.map k) (F t) := by
  induction rs generalizing t with
  | nil => rfl
  | cons r rest ih =>
    rw [List.map_cons, notifyAll_cons, notifyAll_cons, ← houter]
    dsimp only [Prod.map, id]
    rw [← ih, hF.toUnseen.id_eq]
    rfl

/-- The outer hooks: those of the changed records are called, in the same
    order. -/
theorem notify (hF : Neutral k F) {user : Option Principal}
    (houter : ∀ r t, Prod.map id F (h.tell user r t) = h'.tell user (k r) (F t))
    (t : Transaction κ π σ) : Prod.map id F (notify h user t) = notify h' user (F t) := by
  rw [notify_eq_notifyAll, notify_eq_notifyAll, hF.records, ← hF.notifyAll houter]
  exact congrArg (Prod.mk _) (hF.finishPhase _ _ _)

/-! ## Before the storage is asked -/

/-- The three phases before the storage, which stop at the same failure on both
    sides. -/
theorem prepare (hF : Neutral k F) {validating : Bool} {user : Option Principal}
    (hinner : ∀ object ctx t, Prod.map id F (h.inner object ctx t) = h'.inner object ctx (F t))
    (hstale : ∀ object t, h.isStale object t.world = h'.isStale object (F t).world)
    (haccept : ∀ r t, Prod.map id F (Transaction.accept h validating r t)
      = Transaction.accept h' validating (k r) (F t))
    (hindex : ∀ r t, Prod.map id F (h.addToIndex r t) = h'.addToIndex (k r) (F t))
    (hact : ∀ action t, Prod.map id F (h.runAction user action t) = h'.runAction user action (F t))
    (t : Transaction κ π σ) :
    Prod.map id F (prepare h validating user t) = prepare h' validating user (F t) := by
  unfold Transaction.prepare
  rw [← hF.settle hinner user t]
  obtain ⟨settled, t₁⟩ := Transaction.settle h user t
  cases settled with
  | error e => rfl
  | ok _ =>
    dsimp only [Prod.map, id]
    rw [← hF.validate hstale haccept hindex t₁]
    obtain ⟨validated, t₂⟩ := Transaction.validate h validating t₁
    cases validated with
    | error e => rfl
    | ok _ => exact hF.runDeferred hact t₂

end Neutral

end Transaction

end ChangeLedger
