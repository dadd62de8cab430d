/-
  ChangeLedger.Proofs.ReportContents — what the report of a commit says.

  Four phases of a commit go over the records, and the report lists them too.
  They all see the records as the inner hooks left them: once these have come
  to rest, nothing changes a record before the outer hooks have been called.
  So whom the report lists is who was told, one call each and in order, and its
  warnings are the failures among the answers.

  Main results:
    * `validateRecords_indexed` — which objects are indexed.
    * `notifyRecords_told` — who is told, and which answers become warnings.
    * `Transaction.report_shows_settled_records` — the report of every commit
      that succeeds.
-/
import ChangeLedger.Proofs.HookCoverage
import ChangeLedger.Proofs.PhaseFailures
import ChangeLedger.Proofs.RecordChecks
import ChangeLedger.Proofs.RecordNumbering

namespace ChangeLedger

variable {κ π σ : Type}

/-! ## Calls of interest -/

namespace Event

/-- The record that is indexed, if the event is the call of an index. -/
def indexed? : Event κ π → Option (Record κ)
  | indexed r _ => some r
  | _ => none

/-- The record whose outer hook is called, and the answer, if the event is such
    a call. -/
def notified? : Event κ π → Option (Record κ × Except Failure Unit)
  | notified r answer => some (r, answer)
  | _ => none

/-- Inner hooks, actions and appends are neither. -/
theorem notified?_indexed?_of_other {e : Event κ π}
    (he : e.isInner = true ∨ e.isAction = true ∨ e.isAppend = true) :
    e.notified? = none ∧ e.indexed? = none := by
  cases e with
  | inner | acted | appended => exact ⟨rfl, rfl⟩
  | _ => rcases he with he | he | he <;> cases he

theorem notified?_of_isCheck {e : Event κ π} (he : e.isCheck = true) : e.notified? = none := by
  cases e with
  | validated | indexed => rfl
  | _ => cases he

end Event

/-- Among other calls nobody is told, and nothing is indexed. -/
theorem filterMap_of_others {calls : List (Event κ π)}
    (h : ∀ e ∈ calls, e.isInner = true ∨ e.isAction = true ∨ e.isAppend = true) :
    calls.filterMap Event.notified? = [] ∧ calls.filterMap Event.indexed? = [] :=
  ⟨List.filterMap_eq_nil_iff.mpr fun e he => (Event.notified?_indexed?_of_other (h e he)).1,
    List.filterMap_eq_nil_iff.mpr fun e he => (Event.notified?_indexed?_of_other (h e he)).2⟩

/-- A check that calls the index calls it for its record. -/
theorem RecordCheck.indexed?_calls (c : RecordCheck κ) :
    (c.calls : List (Event κ π)).filterMap Event.indexed? =
      if c.indexed?.isSome then [c.record] else [] := by
  obtain ⟨record, stale, verdict?, before, after, indexed?⟩ := c
  cases verdict? <;> cases indexed? <;> rfl

/-- The warning that the answer of an outer hook becomes, if it is a failure. -/
def warning? : Record κ × Except Failure Unit → Option Failure
  | (r, .error e) => some (.hook r.id .outerHooks e.message)
  | (_, .ok _) => none

/-- Warnings abort nothing. -/
theorem abortsCommit_of_warning? {a : Record κ × Except Failure Unit} {w : Failure}
    (h : warning? a = some w) : w.abortsCommit = false := by
  obtain ⟨r, answer⟩ := a
  cases answer with
  | error e => rw [← Option.some.inj h]; rfl
  | ok _ => cases h

namespace Transaction

variable (h : Hooks κ π σ) (script : InnerScript κ π σ)

/-! ## Who is told -/

/-- A record is told, and then the others are; the warnings keep this order. -/
theorem notifyRecords_cons (h : Hooks κ π σ) (user : Option Principal) (r : Record κ)
    (rest : List (Record κ)) (w : σ) :
    notifyRecords h user (r :: rest) w =
      ((warning? (r, (h.outer r user w).1)).toList ++
          (notifyRecords h user rest (h.outer r user w).2).1,
        (notifyRecords h user rest (h.outer r user w).2).2) := by
  rw [notifyRecords]
  obtain ⟨answer, w'⟩ := h.outer r user w
  cases answer <;> rfl

/-- Every record is told once, in order, and the failures among the answers are
    the warnings. -/
theorem notifyRecords_told (user : Option Principal) (rs : List (Record κ))
    (w : Watched κ π σ) :
    ∃ told : List (Record κ × Except Failure Unit), told.map Prod.fst = rs ∧
      (notifyRecords (h.watched script) user rs w).2.events =
        w.events ++ told.map (fun a => .notified a.1 a.2) ∧
      (notifyRecords (h.watched script) user rs w).1 = told.filterMap warning? := by
  induction rs generalizing w with
  | nil => exact ⟨[], rfl, (List.append_nil _).symm, rfl⟩
  | cons r rest ih =>
    let answer := (h.outer r user w.world).1
    let w' := w.note (h.outer r user w.world).2 (.notified r answer)
    have houter : (h.watched script).outer r user w = (answer, w') := rfl
    obtain ⟨told, hrecords, hevents, hwarnings⟩ := ih w'
    refine ⟨(r, answer) :: told, by rw [List.map_cons, hrecords], ?_, ?_⟩
    · rw [notifyRecords_cons, houter]
      exact hevents.trans (List.append_assoc w.events [_] _)
    · rw [notifyRecords_cons, houter]
      dsimp only
      rw [hwarnings, List.filterMap_cons]
      cases warning? (r, answer) <;> rfl

/-! ## Who is indexed -/

/-- The records that validation does not pass by.  Whether an object is stale is
    asked at its own turn, in the world that the turns before it have left. -/
def notStale (h : Hooks κ π σ) (validating : Bool) :
    List (Record κ) → Transaction κ π σ → List (Record κ)
  | [], _ => []
  | r :: rest, t =>
    let others := notStale h validating rest (validateRecords h validating [r] t).2
    if h.isStale r.object t.world then others else r :: others

/-- A turn that succeeds indexes its record, unless the object is stale. -/
theorem validateRecord_indexed (validating : Bool) (r : Record κ)
    (t : Transaction κ π (Watched κ π σ))
    (hok : (validateRecords (h.watched script) validating [r] t).1 = .ok ()) :
    ∃ calls, (validateRecords (h.watched script) validating [r] t).2.events = t.events ++ calls ∧
      calls.filterMap Event.indexed? =
        if (h.watched script).isStale r.object t.world then [] else [r] := by
  rw [validateRecord_checked] at hok ⊢
  refine ⟨_, rfl, ?_⟩
  -- The index is called exactly if the object is not stale, for the validator
  -- has not rejected the record.
  have hcomplete := isComplete_recordCheck h validating r (t.errors, t.world.world)
  have hindexed := hcomplete.index.trans (and_iff_left (RecordCheck.not_rejected_of_ok hok))
  rw [stale_recordCheck] at hindexed
  rw [RecordCheck.indexed?_calls, record_recordCheck, if_congr hindexed rfl rfl]
  show _ = if h.isStale r.object t.world.world then [] else [r]
  cases h.isStale r.object t.world.world <;> rfl

/-- If all is well, the records that validation does not pass by are indexed
    once each, in order. -/
theorem validateRecords_indexed (validating : Bool) (rs : List (Record κ))
    (t : Transaction κ π (Watched κ π σ))
    (hok : (validateRecords (h.watched script) validating rs t).1 = .ok ()) :
    ∃ calls, (validateRecords (h.watched script) validating rs t).2.events = t.events ++ calls ∧
      calls.filterMap Event.indexed? = notStale (h.watched script) validating rs t := by
  induction rs generalizing t with
  | nil => exact ⟨[], (List.append_nil _).symm, rfl⟩
  | cons r rest ih =>
    have hturn := validateRecord_indexed h script validating r t
    rw [validateRecords_cons] at hok ⊢
    unfold notStale
    revert hok hturn
    obtain ⟨answer, t₁⟩ := validateRecords (h.watched script) validating [r] t
    cases answer with
    | error e => exact fun hok => by cases hok
    | ok _ =>
      intro hok hturn
      obtain ⟨first, hfirst, hindexed⟩ := hturn rfl
      obtain ⟨calls, hevents, hothers⟩ := ih t₁ hok
      refine ⟨first ++ calls, ?_, ?_⟩
      · refine hevents.trans ?_
        rw [show t₁.events = t.events ++ first from hfirst, List.append_assoc]
      · rw [List.filterMap_append, hindexed, hothers]
        split <;> rfl

/-! ## The report -/

/-- When the phases before the storage succeed, the records are those that the
    inner hooks left. -/
theorem prepare_records {h : Hooks κ π σ} {validating : Bool} {user : Option Principal}
    {t : Transaction κ π σ} (hp : (prepare h validating user t).1 = .ok ()) :
    (prepare h validating user t).2.staging.records = (settle h user t).2.staging.records := by
  obtain ⟨-, -, heq⟩ := prepare_ok hp
  rw [heq]
  exact (runDeferred_records h user _).trans (validate_records h validating _)

/-- When the phases before the storage succeed, they have told nobody, and they
    have indexed what was not stale. -/
theorem prepare_indexed {validating : Bool} {user : Option Principal}
    {t : Transaction κ π (Watched κ π σ)}
    (hp : (prepare (h.watched script) validating user t).1 = .ok ()) :
    let settled := (settle (h.watched script) user t).2
    ∃ calls, (prepare (h.watched script) validating user t).2.events = t.events ++ calls ∧
      calls.filterMap Event.notified? = [] ∧
      calls.filterMap Event.indexed? =
        notStale (h.watched script) validating settled.staging.records settled := by
  obtain ⟨-, hvalidated, heq⟩ := prepare_ok hp
  rw [heq]
  let t₁ := (settle (h.watched script) user t).2
  let t₂ := (validate (h.watched script) validating t₁).2
  obtain ⟨inners, hinners, areInner⟩ := settle_addsOnly h script user t
  obtain ⟨checks, hchecks, areChecks⟩ := validate_addsOnly h script validating t₁
  obtain ⟨actions, hactions, areActions⟩ := runDeferred_addsOnly h script user t₂
  obtain ⟨indexed, hindexed, hnotStale⟩ :=
    validateRecords_indexed h script validating t₁.staging.records t₁ hvalidated
  obtain rfl : checks = indexed := List.append_cancel_left (hchecks.symm.trans hindexed)
  have hinner := filterMap_of_others fun e he => .inl (areInner e he)
  have haction := filterMap_of_others fun e he => .inr (.inl (areActions e he))
  refine ⟨inners ++ checks ++ actions, ?_, ?_, ?_⟩
  · refine hactions.trans ?_
    rw [show t₂.events = t₁.events ++ checks from hchecks,
      show t₁.events = t.events ++ inners from hinners]
    simp only [List.append_assoc]
  · have hchecked : checks.filterMap Event.notified? = [] :=
      List.filterMap_eq_nil_iff.mpr fun e he => Event.notified?_of_isCheck (areChecks e he)
    rw [List.filterMap_append, List.filterMap_append, hinner.1, hchecked, haction.1]
    rfl
  · rw [List.filterMap_append, List.filterMap_append, hinner.2, hnotStale, haction.2,
      List.nil_append, List.append_nil]

/-- The phases after the storage tell every record, index none, and report the
    failures among the answers. -/
theorem concludeOn_told (pool : Pool) (sink : Sink σ) (user : Option Principal)
    (records : List Snapshot) (syncKeys : SortedSet String)
    (t : Transaction κ π (Watched κ π σ)) :
    let concluded := concludeOn pool (h.watched script) sink.watched user records syncKeys t
    ∃ calls, concluded.2.events = t.events ++ calls ∧
      (calls.filterMap Event.notified?).map Prod.fst = t.staging.records ∧
      concluded.1.warnings = (calls.filterMap Event.notified?).filterMap warning? ∧
      calls.filterMap Event.indexed? = [] := by
  let t' := (notify (h.watched script) user t).2
  obtain ⟨told, hrecords, htold, hwarnings⟩ :=
    notifyRecords_told h script user t.staging.records t.world
  obtain ⟨appends, happends, areAppends⟩ := drainLogsOn_addsOnly sink pool t'
  let notified : List (Event κ π) := told.map fun a => .notified a.1 a.2
  have happend := filterMap_of_others fun e he => .inr (.inr (areAppends e he))
  have hnotified : (notified ++ appends).filterMap Event.notified? = told := by
    rw [List.filterMap_append, List.filterMap_map, happend.1, List.append_nil]
    exact List.filterMap_some
  refine ⟨notified ++ appends, ?_, ?_, ?_, ?_⟩
  · refine happends.trans ?_
    rw [show t'.events = t.events ++ notified from htold, List.append_assoc]
  · rw [hnotified, hrecords]
  · rw [hnotified]
    exact hwarnings
  · rw [List.filterMap_append, List.filterMap_map, happend.2, List.append_nil]
    exact List.filterMap_eq_nil_iff.mpr fun _ _ => rfl

/-- The report of a commit, if its inner hooks only record.  It lists the
    records as the inner hooks left them, the outer hooks are called for these
    records, once each and in order, and the failures among their answers are
    the warnings.  The indexes are called for those of them that are not stale,
    once each and in order. -/
theorem commitOn_reports {pool : Pool} {sink : Sink σ} {storage : Storage σ} {validating : Bool}
    {user : Option Principal} {t after : Transaction κ π (Watched κ π σ)} {report : CommitReport}
    (hc : commitOn pool (h.watched script) sink.watched storage.watched validating user t
      = (.ok report, after)) :
    let settled := settle (h.watched script) user { t with errors := ∅ }
    settled.1 = .ok () ∧ report.records = settled.2.staging.snapshots ∧
    ∃ calls, after.events = t.events ++ calls ∧
      (calls.filterMap Event.notified?).map Prod.fst = settled.2.staging.records ∧
      report.warnings = (calls.filterMap Event.notified?).filterMap warning? ∧
      calls.filterMap Event.indexed? =
        notStale (h.watched script) validating settled.2.staging.records settled.2 := by
  obtain ⟨hprepared, -, rfl, rfl⟩ := commitOn_ok hc
  let t' := (prepare (h.watched script) validating user { t with errors := ∅ }).2
  have hrecords := prepare_records hprepared
  obtain ⟨first, hfirst, hnobody, hindexed⟩ := prepare_indexed h script hprepared
  obtain ⟨last, hlast, htold, hwarnings, hnothing⟩ := concludeOn_told h script pool sink user
    t'.staging.snapshots t'.staging.syncKeys
    { t' with world := (storage.watched.commit t'.world).2 }
  let committed : Event κ π := .committed (storage.commit t'.world.world).1
  have hnotified : (first ++ committed :: last).filterMap Event.notified?
      = last.filterMap Event.notified? := by
    rw [List.filterMap_append, hnobody]
    rfl
  refine ⟨(prepare_ok hprepared).1, congrArg (List.map Record.snapshot) hrecords,
    first ++ committed :: last, ?_, ?_, ?_, ?_⟩
  · refine hlast.trans ?_
    show t'.events ++ [committed] ++ last = _
    rw [show t'.events = t.events ++ first from hfirst]
    simp only [List.append_assoc, List.singleton_append]
  · rw [hnotified, htold]
    exact hrecords
  · rw [hnotified]
    exact hwarnings
  · rw [List.filterMap_append, hindexed]
    show _ ++ last.filterMap Event.indexed? = _
    rw [hnothing, List.append_nil]

/-- For every commit of a reachable ledger that succeeds with inner hooks that
    only record, whatever the pool: the report lists the records as they were when the inner hooks
    had come to rest, each of another object, in the order of first touch, and
    all of them clean.  The outer hooks are called for these records, once each
    and in order; the indexes are called for those that validation does not find
    stale, once each and in order; and the warnings are the failures of the
    outer hooks, in order, none of which aborts a commit. -/
theorem report_shows_settled_records (h : Hooks κ π σ) (script : InnerScript κ π σ)
    (plan : InnerPlan κ π σ) (depth : Nat) (sink : Sink σ) (options : Options) (schema : Schema)
    (world : σ) (moves : List (Move κ π σ)) (h' : Hooks κ π σ) (script' : InnerScript κ π σ)
    (pool : Pool) (storage : Storage σ) (validating : Bool) (user : Option Principal)
    (report : CommitReport) (after : Transaction κ π (Watched κ π σ))
    (hc : commitOn pool (h'.watched script') sink.watched storage.watched validating user
      (reached (h.nested script plan sink depth) sink options schema world moves)
        = (.ok report, after)) :
    let t := reached (h.nested script plan sink depth) sink options schema world moves
    let settled := settle (h'.watched script') user { t with errors := ∅ }
    settled.1 = .ok () ∧ report.records = settled.2.staging.snapshots ∧
    (report.records.map Snapshot.id).Nodup ∧
    report.records.Pairwise (fun r r' => r.firstTouch < r'.firstTouch) ∧
    (∀ r ∈ report.records, r.dirty = false) ∧
    ∃ calls, after.events = t.events ++ calls ∧
      (calls.filterMap Event.notified?).map Prod.fst = settled.2.staging.records ∧
      calls.filterMap Event.indexed? =
        notStale (h'.watched script') validating settled.2.staging.records settled.2 ∧
      report.warnings = (calls.filterMap Event.notified?).filterMap warning? ∧
      ∀ warning ∈ report.warnings, warning.abortsCommit = false := by
  intro t settled
  obtain ⟨hsettled, hrecords, calls, hevents, htold, hwarnings, hindexed⟩ :=
    commitOn_reports h' script' hc
  have hordered : settled.2.staging.Ordered :=
    kept_ordered.settle h' script' (fun _ _ t => t) (fun _ _ _ ht => ht) user
      (t := { t with errors := ∅ }) (reached_ordered h script plan depth sink options schema world
        moves)
  refine ⟨hsettled, hrecords, ?_, ?_, ?_, calls, hevents, htold, hindexed, hwarnings, ?_⟩
  · rw [hrecords, Staging.ids_snapshots]
    exact hordered.nodup
  · rw [hrecords]
    unfold Staging.snapshots
    rw [List.pairwise_map]
    exact hordered.ascend
  · intro snapshot hsnapshot
    rw [hrecords] at hsnapshot
    obtain ⟨r, hr, rfl⟩ := List.mem_map.mp hsnapshot
    have hdone : settle (h'.watched script') user { t with errors := ∅ } = (.ok (), settled.2) := by
      rw [← hsettled]
    exact settle_ok_all_clean hdone hordered r hr
  · intro warning hwarning
    rw [hwarnings] at hwarning
    obtain ⟨a, -, ha⟩ := List.mem_filterMap.mp hwarning
    exact abortsCommit_of_warning? ha

/-- One node is out of date, and the outer hook of another one fails. -/
def uneasyHooks : Hooks Unit Unit MemoryLog :=
  { idleHooks with
    isStale := fun object _ => object.id = bob.id
    outer := fun r _ w => (if r.id = ada.id then .error diskFull else .ok (), w) }

/-- Both nodes are listed and told, only one of them is indexed, and no warning
    aborts. -/
theorem report_shows_settled_records_stale :
    let t : Transaction Unit Unit (Watched Unit Unit MemoryLog) :=
      reached (uneasyHooks.nested idleScript idlePlan MemoryLog.sink 0) MemoryLog.sink
        {} ∅ ∅ [.record (.create none ada), .record (.create none bob)]
    ∃ report after calls,
      commitOn .backwards (uneasyHooks.watched idleScript) MemoryLog.sink.watched
        willingStorage.watched true none t = (.ok report, after) ∧
      after.events = t.events ++ calls ∧
      report.records.map Snapshot.id = [ada.id, bob.id] ∧
      (calls.filterMap Event.notified?).map (fun a => a.1.id) = [ada.id, bob.id] ∧
      (calls.filterMap Event.indexed?).map Record.id = [ada.id] ∧
      report.warnings.length = 1 ∧ ∀ warning ∈ report.warnings, warning.abortsCommit = false := by
  intro t
  have hc : commitOn .backwards (uneasyHooks.watched idleScript) MemoryLog.sink.watched
      willingStorage.watched true none t = (.ok _, _) := rfl
  obtain ⟨-, -, -, -, -, calls, hevents, htold, hindexed, -, haborts⟩ :=
    report_shows_settled_records uneasyHooks idleScript idlePlan 0 MemoryLog.sink {} ∅ ∅
      [.record (.create none ada), .record (.create none bob)] uneasyHooks idleScript
      .backwards willingStorage true none _ _ hc
  refine ⟨_, _, calls, hc, hevents, rfl, ?_, ?_, rfl, haborts⟩
  · have hids := congrArg (List.map Record.id) htold
    rw [List.map_map] at hids
    exact hids
  · rw [hindexed]
    rfl

end Transaction

end ChangeLedger
