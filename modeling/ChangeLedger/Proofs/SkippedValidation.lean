/-
  ChangeLedger.Proofs.SkippedValidation — a commit that asks no validator.

  Of two commits of one transaction, let one validate and the other not.  They
  part where the first one asks a validator: its call is noted, and its tokens
  are in the buffer from then on.  No later phase notices either.  So if every
  validator that is asked accepts its record, and does no more than to add
  tokens, then the two commits agree in all else.

  What is left of a transaction without its verdicts (`unjudged`) is what the
  two runs have in common, phase by phase.

  Main results:
    * `IgnoresVerdicts.congr` — a call that notices no verdict does the same to
      transactions that differ in verdicts only.
    * `ignoresVerdicts_commitValidatedOn` — the rest of a commit is such a call.
    * `validate_of_accepting` — validators that accept only leave verdicts.
    * `skipped_validation_only_skips_rejections` — the whole commit.
-/
import ChangeLedger.Proofs.CommitProtocol
import ChangeLedger.Proofs.EarlierTokens
import ChangeLedger.Proofs.PhaseFailures

namespace ChangeLedger

variable {κ π σ : Type}

/-! ## Without verdicts -/

/-- Whether the event is the call of a validator. -/
def Event.isVerdict : Event κ π → Bool
  | validated .. => true
  | _ => false

namespace Watched

/-- The world with its events, but for the calls of validators. -/
def unjudged (w : Watched κ π σ) : Watched κ π σ :=
  ⟨w.world, w.events.filter fun e => !e.isVerdict⟩

@[simp] theorem unjudged_unjudged (w : Watched κ π σ) : w.unjudged.unjudged = w.unjudged := by
  unfold unjudged
  simp

theorem unjudged_note (w : Watched κ π σ) (world : σ) {e : Event κ π} (he : e.isVerdict = false) :
    (w.note world e).unjudged = w.unjudged.note world e := by
  have hkept : [e].filter (fun e => !e.isVerdict) = [e] :=
    List.filter_cons_of_pos (by rw [he, Bool.not_false])
  unfold unjudged note
  rw [List.filter_append, hkept]

theorem unjudged_note_validated (w : Watched κ π σ) (r : Record κ) (accepted : Bool) :
    (w.note w.world (.validated r accepted)).unjudged = w.unjudged := by
  unfold unjudged note
  rw [List.filter_append]
  exact congrArg (Watched.mk w.world) (List.append_nil _)

end Watched

namespace Transaction

/-- The transaction without the calls of validators, and with earlier tokens in
    front of its errors. -/
def unjudgedBehind (earlier : List ErrorToken) (t : Transaction κ π (Watched κ π σ)) :
    Transaction κ π (Watched κ π σ) :=
  (t.behind earlier).mapWorld Watched.unjudged

/-- The transaction without the calls of validators and without errors. -/
def unjudged (t : Transaction κ π (Watched κ π σ)) : Transaction κ π (Watched κ π σ) :=
  t.unblamed.mapWorld Watched.unjudged

/-- No phase notices that the calls of validators are gone, or that earlier
    tokens have come. -/
theorem neutral_unjudgedBehind (earlier : List ErrorToken) :
    Neutral id fun t : Transaction κ π (Watched κ π σ) => t.unjudgedBehind earlier where
  toUnseen := unseen_id
  records _ := (List.map_id _).symm
  pending _ := rfl
  maxSweeps _ := rfl
  count _ _ := rfl
  clearDirty _ _ := rfl
  take _ := rfl
  added t t' := t.errors.since_behind t'.errors earlier

/-- The errors of a transaction are tokens like any in front of them. -/
theorem unjudged_unjudgedBehind (t : Transaction κ π (Watched κ π σ)) :
    t.unjudged.unjudgedBehind t.errors.tokens = t.unjudgedBehind [] := by
  show (⟨t.staging, (∅ : ErrorBuffer).behind t.errors.tokens, t.world.unjudged.unjudged⟩ :
    Transaction κ π (Watched κ π σ)) = ⟨t.staging, t.errors, t.world.unjudged⟩
  rw [Watched.unjudged_unjudged, ErrorBuffer.empty_behind]

/-! ## Calls that notice no verdict -/

/-- The call notices neither earlier tokens nor the calls of validators. -/
def IgnoresVerdicts {α : Type}
    (call : Transaction κ π (Watched κ π σ) → α × Transaction κ π (Watched κ π σ)) : Prop :=
  ∀ earlier t, (call t).map id (·.unjudgedBehind earlier) = call (t.unjudgedBehind earlier)

/-- Transactions that differ in verdicts only are treated alike, and differ in
    verdicts only afterwards. -/
theorem IgnoresVerdicts.congr {α : Type}
    {call : Transaction κ π (Watched κ π σ) → α × Transaction κ π (Watched κ π σ)}
    (hcall : IgnoresVerdicts call) {t t' : Transaction κ π (Watched κ π σ)}
    (hsame : t.unjudged = t'.unjudged) : (call t).map id unjudged = (call t').map id unjudged := by
  have hforget : ∀ earlier (out : α × Transaction κ π (Watched κ π σ)),
      (out.map id (·.unjudgedBehind earlier)).map id unjudged = out.map id unjudged := by
    intro earlier out
    exact Prod.ext rfl (congrArg (Transaction.mk _ _) out.2.world.unjudged_unjudged)
  -- Either run is compared with that from what is left without verdicts.
  have hbare : ∀ t, (call t).map id unjudged = (call t.unjudged).map id unjudged := by
    intro t
    calc (call t).map id unjudged
        = ((call t).map id (·.unjudgedBehind [])).map id unjudged := (hforget [] _).symm
      _ = (call (t.unjudged.unjudgedBehind t.errors.tokens)).map id unjudged := by
          rw [hcall [] t, unjudged_unjudgedBehind]
      _ = ((call t.unjudged).map id (·.unjudgedBehind t.errors.tokens)).map id unjudged := by
          rw [hcall t.errors.tokens t.unjudged]
      _ = (call t.unjudged).map id unjudged := hforget _ _
  rw [hbare t, hbare t', hsame]

section

variable {h : Hooks κ π σ} {script : InnerScript κ π σ}

theorem unjudged_inner (object : Tracked κ) (ctx : InnerContext)
    (t : Transaction κ π (Watched κ π σ)) :
    ((h.watched script).inner object ctx t).map id (·.unjudgedBehind [])
      = (h.watched script).inner object ctx (t.unjudgedBehind []) :=
  Prod.ext rfl (congrArg (Transaction.mk _ _) (Watched.unjudged_note _ _ rfl))

theorem ignoresVerdicts_addToIndex (r : Record κ) :
    IgnoresVerdicts ((h.watched script).addToIndex r) := fun _ _ =>
  Prod.ext rfl (congrArg (Transaction.mk _ _) (Watched.unjudged_note _ _ rfl))

theorem ignoresVerdicts_tell (user : Option Principal) (r : Record κ) :
    IgnoresVerdicts ((h.watched script).tell user r) := fun _ _ =>
  Prod.ext rfl (congrArg (Transaction.mk _ _) (Watched.unjudged_note _ _ rfl))

theorem ignoresVerdicts_runAction {user : Option Principal} {action : π}
    (hactions : OnlyAdds (h.runAction user action)) :
    IgnoresVerdicts ((h.watched script).runAction user action) := by
  intro earlier t
  have hnoted : ((h.watched script).runAction user action (t.behind earlier)).map id
      (mapWorld Watched.unjudged) = (h.watched script).runAction user action
        (t.unjudgedBehind earlier) :=
    Prod.ext rfl (congrArg (Transaction.mk _ _) (Watched.unjudged_note _ _ rfl))
  rw [← hnoted]
  exact congrArg (Prod.map id (mapWorld Watched.unjudged))
    ((Hooks.onlyAdds_runAction_watchedAfter hactions).behind earlier t)

/-! ## The rest of a commit -/

theorem ignoresVerdicts_runDeferred {user : Option Principal}
    (hactions : ∀ action, OnlyAdds (h.runAction user action)) :
    IgnoresVerdicts (runDeferred (h.watched script) user) := fun earlier =>
  (neutral_unjudgedBehind earlier).runDeferred
    fun action => ignoresVerdicts_runAction (hactions action) earlier

theorem ignoresVerdicts_notify (user : Option Principal) :
    IgnoresVerdicts (notify (h.watched script) user) := fun earlier =>
  (neutral_unjudgedBehind earlier).notify fun r => ignoresVerdicts_tell user r earlier

theorem ignoresVerdicts_drainLogsOn (pool : Pool) (sink : Sink σ) :
    IgnoresVerdicts (drainLogsOn (κ := κ) (π := π) pool sink.watched) := by
  intro earlier t
  have hsink : (sink.watched : Sink (Watched κ π σ)).Refines Watched.unjudged sink.watched :=
    fun _ _ _ => Prod.ext rfl (Watched.unjudged_note _ _ rfl)
  by_cases hon : (t.staging.logEnabled && t.staging.options.anyAudit) = true
  · have hon' : ((t.unjudgedBehind earlier).staging.logEnabled &&
        (t.unjudgedBehind earlier).staging.options.anyAudit) = true := hon
    rw [drainLogsOn_on pool _ hon, drainLogsOn_on pool _ hon',
      show (t.unjudgedBehind earlier).staging = t.staging from rfl,
      show (t.unjudgedBehind earlier).world = t.world.unjudged from rfl, ← map_appendAll hsink]
    rfl
  · have hoff : ¬ ((t.unjudgedBehind earlier).staging.logEnabled &&
        (t.unjudgedBehind earlier).staging.options.anyAudit) = true := hon
    rw [drainLogsOn_off pool _ hon, drainLogsOn_off pool _ hoff]
    rfl

theorem ignoresVerdicts_concludeOn (pool : Pool) (sink : Sink σ) (user : Option Principal)
    (records : List Snapshot) (syncKeys : SortedSet String) :
    IgnoresVerdicts (concludeOn pool (h.watched script) sink.watched user records syncKeys) := by
  intro earlier t
  unfold concludeOn
  rw [← ignoresVerdicts_notify user earlier t]
  obtain ⟨warnings, t'⟩ := notify (h.watched script) user t
  dsimp only [Prod.map, id]
  rw [← ignoresVerdicts_drainLogsOn pool sink earlier t']
  rfl

theorem unjudgedBehind_rollback (storage : Storage σ) (earlier : List ErrorToken)
    (t : Transaction κ π (Watched κ π σ)) :
    (t.rollback storage.watched).unjudgedBehind earlier
      = (t.unjudgedBehind earlier).rollback storage.watched :=
  congrArg (Transaction.mk _ _) (Watched.unjudged_note _ _ rfl)

end

/-- The rest of a commit once validation has succeeded. -/
def commitValidatedOn (pool : Pool) (h : Hooks κ π σ) (sink : Sink σ) (storage : Storage σ)
    (user : Option Principal) (t : Transaction κ π σ) :
    Except Failure CommitReport × Transaction κ π σ :=
  match runDeferred h user t with
  | (.error e, t) => (.error e, t.rollback storage)
  | (.ok (), t) =>
    match storage.commit t.world with
    | (.error e, world) => (.error e, { t with world }.clear)
    | (.ok (), world) =>
      let (report, t) := concludeOn pool h sink user t.staging.snapshots t.staging.syncKeys
        { t with world }
      (.ok report, t.clear)

/-- The rest of a commit once the inner hooks have settled. -/
def commitSettledOn (pool : Pool) (h : Hooks κ π σ) (sink : Sink σ) (storage : Storage σ)
    (validating : Bool) (user : Option Principal) (t : Transaction κ π σ) :
    Except Failure CommitReport × Transaction κ π σ :=
  match validate h validating t with
  | (.error e, t) => (.error e, t.rollback storage)
  | (.ok (), t) => commitValidatedOn pool h sink storage user t

theorem commitWithOn_eq_settle (pool : Pool) (h : Hooks κ π σ) (sink : Sink σ)
    (storage : Storage σ) (validating : Bool) (user : Option Principal) (t : Transaction κ π σ) :
    commitWithOn pool h sink storage validating user t =
      match settle h user t with
      | (.error e, t) => (.error e, t.rollback storage)
      | (.ok (), t) => commitSettledOn pool h sink storage validating user t := by
  unfold commitWithOn prepare
  obtain ⟨settled, t₁⟩ := settle h user t
  cases settled with
  | error e => rfl
  | ok _ =>
    unfold commitSettledOn
    dsimp only
    obtain ⟨validated, t₂⟩ := validate h validating t₁
    cases validated with
    | error e => rfl
    | ok _ => rfl

section

variable {h : Hooks κ π σ} {script : InnerScript κ π σ} (pool : Pool) (sink : Sink σ)
  (storage : Storage σ) {user : Option Principal}

/-- What follows validation notices no verdict. -/
theorem ignoresVerdicts_commitValidatedOn
    (hactions : ∀ action, OnlyAdds (h.runAction user action)) :
    IgnoresVerdicts (commitValidatedOn pool (h.watched script) sink.watched storage.watched
      user) := by
  intro earlier t
  unfold commitValidatedOn
  rw [← ignoresVerdicts_runDeferred hactions earlier t]
  obtain ⟨deferred, t₁⟩ := runDeferred (h.watched script) user t
  cases deferred with
  | error e => exact congrArg (Prod.mk _) (unjudgedBehind_rollback storage earlier t₁)
  | ok _ =>
    dsimp only [Prod.map, id]
    -- The storage is asked in the same world, but for the calls that are noted there.
    have hstored : (storage.watched.commit t₁.world).map id Watched.unjudged
        = storage.watched.commit (t₁.unjudgedBehind earlier).world :=
      Prod.ext rfl (Watched.unjudged_note _ _ rfl)
    rw [← hstored]
    obtain ⟨answer, world⟩ := storage.watched.commit t₁.world
    cases answer with
    | error e => rfl
    | ok _ =>
      exact congrArg (fun c => (Except.ok c.1, c.2.clear))
        (ignoresVerdicts_concludeOn pool sink user t₁.staging.snapshots t₁.staging.syncKeys earlier
          { t₁ with world })

/-- A commit that asks no validator leaves no verdict. -/
theorem unjudged_commitWithOn (hactions : ∀ action, OnlyAdds (h.runAction user action))
    (t : Transaction κ π (Watched κ π σ)) :
    let commit := commitWithOn pool (h.watched script) sink.watched storage.watched false user
    (commit t).map id (·.unjudgedBehind []) = commit (t.unjudgedBehind []) := by
  dsimp only
  rw [commitWithOn_eq_settle, commitWithOn_eq_settle,
    ← (neutral_unjudgedBehind []).settle unjudged_inner user t]
  obtain ⟨settled, t₁⟩ := settle (h.watched script) user t
  cases settled with
  | error e => exact congrArg (Prod.mk _) (unjudgedBehind_rollback storage [] t₁)
  | ok _ =>
    unfold commitSettledOn
    dsimp only [Prod.map, id]
    rw [← (neutral_unjudgedBehind []).validate (fun _ _ => rfl) (fun _ _ => rfl)
      (fun r => ignoresVerdicts_addToIndex r []) t₁]
    obtain ⟨validated, t₂⟩ := validate (h.watched script) false t₁
    cases validated with
    | error e => exact congrArg (Prod.mk _) (unjudgedBehind_rollback storage [] t₂)
    | ok _ => exact ignoresVerdicts_commitValidatedOn pool sink storage hactions [] t₂

end

/-! ## Validators that accept -/

section

variable {h : Hooks κ π σ} {script : InnerScript κ π σ}

/-- A validator that only adds tokens leaves no more than a verdict. -/
theorem unjudged_ask (hvalidators : ∀ r b w, ∃ ts, (h.validate r b w).2 = (b.addAll ts, w))
    (r : Record κ) (t : Transaction κ π (Watched κ π σ)) :
    ((h.watched script).ask r t).2.unjudged = t.unjudged := by
  obtain ⟨ts, hts⟩ := hvalidators r t.errors t.world.world
  have hworld : (h.validate r t.errors t.world.world).2.2 = t.world.world := by rw [hts]
  show (⟨t.staging, ∅, (t.world.note (h.validate r t.errors t.world.world).2.2
    (.validated r (h.validate r t.errors t.world.world).1)).unjudged⟩
      : Transaction κ π (Watched κ π σ)) = ⟨t.staging, ∅, t.world.unjudged⟩
  rw [hworld, Watched.unjudged_note_validated]

/-- Unless the record is rejected, there is at most one verdict more. -/
theorem accept_or_rejected (script : InnerScript κ π σ)
    (hvalidators : ∀ r b w, ∃ ts, (h.validate r b w).2 = (b.addAll ts, w))
    (r : Record κ) (t : Transaction κ π (Watched κ π σ)) :
    let answered := accept (h.watched script) true r t
    ∃ t₁, t₁.unjudged = t.unjudged ∧ (answered = (.ok (), t₁) ∨
      .validated r false ∈ t₁.events ∧ ∃ e, answered = (.error e, t₁)) := by
  dsimp only
  rw [accept_eq_ask]
  cases true && isValidated r.verb with
  | false => exact ⟨t, rfl, .inl rfl⟩
  | true =>
    refine ⟨((h.watched script).ask r t).2, unjudged_ask hvalidators r t, ?_⟩
    cases hverdict : ((h.watched script).ask r t).1 with
    | true => exact .inl rfl
    | false =>
      have hlast : .validated r false ∈ ((h.watched script).ask r t).2.events := by
        rw [← hverdict]
        exact List.mem_append_right _ List.mem_cons_self
      exact .inr ⟨hlast, _, rfl⟩

/-- Walking over the records and accepting all that is asked about is walking
    over them without asking. -/
theorem validateRecords_of_accepting
    (hvalidators : ∀ r b w, ∃ ts, (h.validate r b w).2 = (b.addAll ts, w))
    (rs : List (Record κ)) {t t' : Transaction κ π (Watched κ π σ)}
    (hsame : t.unjudged = t'.unjudged)
    (haccepted : ∀ r accepted, .validated r accepted ∈
      (validateRecords (h.watched script) true rs t).2.events → accepted = true) :
    (validateRecords (h.watched script) true rs t).map id unjudged
      = (validateRecords (h.watched script) false rs t').map id unjudged := by
  induction rs generalizing t t' with
  | nil => exact congrArg (Prod.mk _) hsame
  | cons r rest ih =>
    have hstale : (h.watched script).isStale r.object t.world
        = (h.watched script).isStale r.object t'.world := by
      have hworld : t.world.world = t'.world.world := congrArg (fun t => t.world.world) hsame
      exact congrArg (h.isStale r.object) hworld
    have hskipped : accept (h.watched script) false r t' = (.ok (), t') := rfl
    rw [validateRecords_eq_addToIndex] at haccepted ⊢
    rw [validateRecords_eq_addToIndex _ false, ← hstale, hskipped]
    split at haccepted
    next hout =>
      rw [if_pos hout, if_pos hout]
      exact ih hsame haccepted
    next hcurrent =>
      rw [if_neg hcurrent, if_neg hcurrent]
      obtain ⟨t₁, hsame₁, hok | ⟨hrejected, e, herror⟩⟩ :=
        accept_or_rejected script hvalidators r t
      · rw [hok] at haccepted ⊢
        dsimp only at haccepted ⊢
        have hignores : IgnoresVerdicts ((h.watched script).addToIndex r) :=
          ignoresVerdicts_addToIndex r
        have hindexed := hignores.congr (hsame₁.trans hsame)
        revert haccepted hindexed
        obtain ⟨answer, t₂⟩ := (h.watched script).addToIndex r t₁
        obtain ⟨answer', t₂'⟩ := (h.watched script).addToIndex r t'
        intro haccepted hindexed
        obtain ⟨rfl, hsame₂⟩ := Prod.mk.inj hindexed
        cases answer with
        | error e => exact congrArg (Prod.mk _) hsame₂
        | ok _ => exact ih hsame₂ haccepted
      · -- A rejection ends the walk, and is among its events.
        rw [herror] at haccepted
        cases haccepted r false hrejected

/-- Validators that accept whatever they are asked about only leave verdicts. -/
theorem validate_of_accepting
    (hvalidators : ∀ r b w, ∃ ts, (h.validate r b w).2 = (b.addAll ts, w))
    (t : Transaction κ π (Watched κ π σ))
    (haccepted : ∀ r accepted, .validated r accepted ∈
      (validate (h.watched script) true t).2.events → accepted = true) :
    (validate (h.watched script) true t).map id unjudged
      = (validate (h.watched script) false t).map id unjudged := by
  have hrecords := validateRecords_of_accepting hvalidators t.staging.records rfl haccepted
  exact congrArg (fun out => (out.1, out.2.finishPhase .validation (succeeded out.1))) hrecords

end

/-! ## The whole commit -/

section

variable {h : Hooks κ π σ} {script : InnerScript κ π σ} (pool : Pool) (sink : Sink σ)
  (storage : Storage σ) {user : Option Principal}

/-- No event is forgotten in the rest of a commit. -/
theorem mem_events_commitValidatedOn {e : Event κ π} {t : Transaction κ π (Watched κ π σ)}
    (he : e ∈ t.events) :
    e ∈ (commitValidatedOn pool (h.watched script) sink.watched storage.watched user
      t).2.events := by
  have hkept : ∀ {kind : Event κ π → Bool} {before after : List (Event κ π)},
      AddsOnly kind before after → e ∈ before → e ∈ after := by
    rintro kind before after ⟨calls, rfl, -⟩ hbefore
    exact List.mem_append_left _ hbefore
  have hdeferred := hkept (runDeferred_addsOnly h script user t) he
  unfold commitValidatedOn
  revert hdeferred
  obtain ⟨deferred, t₁⟩ := runDeferred (h.watched script) user t
  intro (hdeferred : e ∈ t₁.events)
  cases deferred with
  | error e' => exact List.mem_append_left _ hdeferred
  | ok _ =>
    dsimp only
    have hstored : e ∈ (storage.watched.commit t₁.world).2.events :=
      List.mem_append_left _ hdeferred
    revert hstored
    obtain ⟨answer, world⟩ := storage.watched.commit t₁.world
    intro hstored
    cases answer with
    | error e' => exact hstored
    | ok _ =>
      have hnotified := hkept (notify_addsOnly h script user { t₁ with world }) hstored
      exact hkept (drainLogsOn_addsOnly sink pool _) hnotified

theorem commitSettledOn_of_accepting
    (hvalidators : ∀ r b w, ∃ ts, (h.validate r b w).2 = (b.addAll ts, w))
    (hactions : ∀ action, OnlyAdds (h.runAction user action))
    (t : Transaction κ π (Watched κ π σ))
    (haccepted : ∀ r accepted, .validated r accepted ∈ (commitSettledOn pool (h.watched script)
      sink.watched storage.watched true user t).2.events → accepted = true) :
    (commitSettledOn pool (h.watched script) sink.watched storage.watched true user t).map id
        unjudged
      = (commitSettledOn pool (h.watched script) sink.watched storage.watched false user t).map id
        unjudged := by
  have hvalidated : ∀ r accepted, .validated r accepted ∈
      (validate (h.watched script) true t).2.events → accepted = true := by
    intro r accepted hmem
    refine haccepted r accepted ?_
    unfold commitSettledOn
    revert hmem
    obtain ⟨validated, t₁⟩ := validate (h.watched script) true t
    intro hmem
    cases validated with
    | error e => exact List.mem_append_left _ hmem
    | ok _ => exact mem_events_commitValidatedOn pool sink storage hmem
  have hsame := validate_of_accepting hvalidators t hvalidated
  unfold commitSettledOn
  revert hsame
  obtain ⟨validated, t₁⟩ := validate (h.watched script) true t
  obtain ⟨skipped, t₁'⟩ := validate (h.watched script) false t
  intro hsame
  obtain ⟨rfl, hsame₁⟩ := Prod.mk.inj hsame
  cases validated with
  | error e =>
    refine congrArg (Prod.mk _) ?_
    have hrolled : ∀ t : Transaction κ π (Watched κ π σ),
        (t.rollback storage.watched).unjudged = (t.unjudged.rollback storage.watched) :=
      fun t => congrArg (Transaction.mk _ _) (Watched.unjudged_note _ _ rfl)
    rw [hrolled, hrolled, hsame₁]
  | ok _ => exact (ignoresVerdicts_commitValidatedOn pool sink storage hactions).congr hsame₁

/-- Two commits agree in all but verdicts, and the second one asks no
    validator. -/
structure SameButVerdicts
    (validated skipped : Except Failure CommitReport × Transaction κ π (Watched κ π σ)) :
    Prop where
  /-- They fail alike, or report the same. -/
  answer : skipped.1 = validated.1
  /-- They make the same calls, but for those of the validators. -/
  calls : skipped.2.events = validated.2.events.filter fun e => !e.isVerdict
  /-- They leave the same staging area, counters and all. -/
  staging : skipped.2.staging = validated.2.staging
  /-- They leave the same errors. -/
  errors : skipped.2.errors = validated.2.errors
  /-- They leave the same world. -/
  world : skipped.2.world.world = validated.2.world.world

end

/-- **Skipping validation only skips rejections.**  Take any transaction, any
    storage, sink and pool of workers, and inner hooks that only record.  Let
    validators do no more than to add tokens, and let deferred actions add
    tokens to those that are there without looking at them.  If every validator
    that a commit asks accepts its record, then a commit that asks none gives
    the same answer with the same report, makes the same other calls in the same
    order, counts alike, and leaves the same staging area and world. -/
theorem skipped_validation_only_skips_rejections (h : Hooks κ π σ)
    (hvalidators : ∀ r b w, ∃ ts, (h.validate r b w).2 = (b.addAll ts, w))
    (hactions : ∀ user action, OnlyAdds (h.runAction user action)) (script : InnerScript κ π σ)
    (pool : Pool) (sink : Sink σ) (storage : Storage σ) (user : Option Principal)
    (t : Transaction κ π σ) :
    let commit := fun validating =>
      commitOn pool (h.watched script) sink.watched storage.watched validating user t.watched
    (∀ r accepted, .validated r accepted ∈ (commit true).2.events → accepted = true) →
      SameButVerdicts (commit true) (commit false) := by
  intro commit haccepted
  let start : Transaction κ π (Watched κ π σ) := { t.watched with errors := ∅ }
  let commitWith := fun validating =>
    commitWithOn pool (h.watched script) sink.watched storage.watched validating user start
  -- Up to the end of the first phase, there is but one run.
  have hsame : (commitWith true).map id unjudged = (commitWith false).map id unjudged := by
    have haccepted' : ∀ r accepted,
        .validated r accepted ∈ (commitWith true).2.events → accepted = true := haccepted
    revert haccepted'
    dsimp only [commitWith]
    rw [commitWithOn_eq_settle, commitWithOn_eq_settle]
    obtain ⟨settled, t₁⟩ := settle (h.watched script) user start
    cases settled with
    | error e => exact fun _ => rfl
    | ok _ =>
      exact fun haccepted' =>
        commitSettledOn_of_accepting pool sink storage hvalidators (hactions user) t₁ haccepted'
  -- The commit that asks no validator has no verdict to lose.
  have hskipped : (commitWith false).map id (·.unjudgedBehind []) = commitWith false :=
    unjudged_commitWithOn pool sink storage (hactions user) start
  obtain ⟨hanswer, hafter⟩ := Prod.mk.inj hsame
  have hevents : (commitWith false).2.events
      = (commitWith false).2.events.filter fun e => !e.isVerdict :=
    (congrArg (fun out => out.2.events) hskipped).symm
  exact {
    answer := hanswer.symm
    calls := hevents.trans (congrArg events hafter).symm
    staging := (congrArg (·.staging) hafter).symm
    errors := rfl
    world := (congrArg (·.world.world) hafter).symm }

/-- The validator of every object accepts, but adds a token, and every action
    adds another one. -/
def talkativeHooks : Hooks Unit Unit MemoryLog :=
  { idleHooks with
    validate := fun _ errors w => (true, errors.add ⟨"n-1", none, "noted"⟩, w)
    act := fun _ _ errors w => (.ok (), errors.add ⟨"n-1", none, "late"⟩, w) }

/-- With the validator or without it, the commit fails with the token of the
    action alone. -/
theorem skipped_validation_only_skips_rejections_of_talkative :
    let t : Transaction Unit Unit MemoryLog :=
      ⟨((Staging.new {} ∅).create none ada).after (.defer "log" ()), ∅, ∅⟩
    let commit := fun validating => commitOn .inline (talkativeHooks.watched idleScript)
      MemoryLog.sink.watched willingStorage.watched validating none t.watched
    (commit true).2.events.map Event.isVerdict = [false, true, false, false, false] ∧
      (commit false).2.events.length = 4 ∧
      (commit true).1 = .error (.postProcess "log" "n-1: late") ∧
      (commit false).1 = .error (.postProcess "log" "n-1: late") := by
  intro t commit
  have haccepting : (commit true).2.events.all (fun e =>
      match e with
      | .validated _ accepted => accepted
      | _ => true) = true := rfl
  have hsame := skipped_validation_only_skips_rejections talkativeHooks
    (fun _ _ _ => ⟨[⟨"n-1", none, "noted"⟩], rfl⟩) (fun _ _ _ => rfl) idleScript .inline
    MemoryLog.sink willingStorage none t
    fun _ _ hmem => List.all_eq_true.mp haccepting _ hmem
  exact ⟨rfl, (congrArg List.length hsame.calls).trans rfl, rfl, hsame.answer.trans rfl⟩

end Transaction

end ChangeLedger
