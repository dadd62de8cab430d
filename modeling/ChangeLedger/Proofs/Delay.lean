/-
  ChangeLedger.Proofs.Delay — phases do not notice later ticks.

  A staging area whose ticks are all later by some number has the same records
  in the same order.  Phases go by that order and never look at a tick; so if
  hooks, sink and storage answer alike, a phase does the same whether the ticks
  are later or not.  The world may be replaced by another one at the same time:
  it only has to answer alike.

  Main results:
    * `delayed_settle`, `delayed_validate`, `delayed_runDeferred`,
      `delayed_notify`, `delayed_drainLogsOn` — the five phases.
    * `delayed_commitOn` — the commit.
-/
import ChangeLedger.Proofs.PhaseImages

namespace ChangeLedger

variable {κ π σ σ' : Type}

/-! ## Later ticks -/

/-- The record, first touched `d` ticks later. -/
def Record.later (d : Nat) (r : Record κ) : Record κ := { r with firstTouch := r.firstTouch + d }

/-- The copy of a record that was first touched `d` ticks later. -/
def Snapshot.later (d : Nat) (s : Snapshot) : Snapshot := { s with firstTouch := s.firstTouch + d }

/-- The report of a commit whose records were touched `d` ticks later. -/
def CommitReport.later (d : Nat) (report : CommitReport) : CommitReport :=
  { report with records := report.records.map (Snapshot.later d) }

/-- The staging area with all ticks, past and to come, `d` later. -/
def Staging.later (d : Nat) (s : Staging κ π) : Staging κ π :=
  { s with records := s.records.map (Record.later d), nextTick := s.nextTick + d }

/-- When a record was first touched is nothing that a phase asks for. -/
theorem Record.unseen_later (d : Nat) : Transaction.Unseen (Record.later (κ := κ) d) :=
  ⟨fun _ => rfl, fun _ => rfl, fun _ => rfl, fun _ => rfl⟩

@[simp] theorem Record.later_zero (r : Record κ) : r.later 0 = r := rfl

@[simp] theorem CommitReport.later_zero (report : CommitReport) : report.later 0 = report := by
  have hsnapshot : Snapshot.later 0 = id := rfl
  unfold CommitReport.later
  rw [hsnapshot, List.map_id]

namespace Staging

@[simp] theorem later_zero (s : Staging κ π) : s.later 0 = s := by
  have hrecord : Record.later 0 = (id : Record κ → Record κ) := rfl
  unfold later
  rw [hrecord, List.map_id]
  rfl

/-- Records are looked up by identity, so that each is found as before. -/
theorem find?_later (d : Nat) (s : Staging κ π) (id : ObjectId) :
    (s.later d).find? id = (s.find? id).map (Record.later d) :=
  (Record.unseen_later d).findRecord_map id s.records

theorem contains_later (d : Nat) (s : Staging κ π) (id : ObjectId) :
    (s.later d).contains id = s.contains id := by
  unfold contains
  rw [find?_later, Option.isSome_map]

/-- Counters hold no tick. -/
theorem later_count (d : Nat) (s : Staging κ π) (f : Counters → Counters) :
    (s.count f).later d = (s.later d).count f := by
  unfold count
  rw [show (s.later d).options.countsActivity = s.options.countsActivity from rfl]
  split <;> rfl

/-- A record is cleared by its identity, and keeps its tick. -/
theorem later_clearDirty (d : Nat) (s : Staging κ π) (id : ObjectId) :
    (s.update id Record.clearDirty).later d = (s.later d).update id Record.clearDirty := by
  have hrecords : (updateRecord id Record.clearDirty s.records).map (Record.later d)
      = updateRecord id Record.clearDirty (s.records.map (Record.later d)) := by
    unfold updateRecord
    rw [List.map_map, List.map_map]
    refine List.map_congr_left fun r _ => ?_
    show (if r.id = id then r.clearDirty else r).later d
      = if r.id = id then (r.later d).clearDirty else r.later d
    split <;> rfl
  exact congrArg (fun records => { s.later d with records }) hrecords

/-- Phases go by the order of the records and never look at a tick. -/
theorem unnoticed_later (d : Nat) :
    Staging.Unnoticed (π := π) (Record.later (κ := κ) d) (Staging.later d) where
  toUnseen := Record.unseen_later d
  records _ := rfl
  pending _ := rfl
  maxSweeps _ := rfl
  count := later_count d
  clearDirty := later_clearDirty d
  take _ := rfl

/-- Audit entries hold no tick; they may be dropped before or after. -/
theorem later_dropPushes (d : Nat) (s : Staging κ π) :
    s.dropPushes.later d = (s.later d).dropPushes := by
  unfold dropPushes later
  dsimp only
  rw [List.map_map, List.map_map]
  rfl

/-- The outcomes of appends are counted alike. -/
theorem later_countAppends (d : Nat) (outcomes : List AppendOutcome) (s : Staging κ π) :
    (outcomes.foldl countAppend s).later d = outcomes.foldl countAppend (s.later d) := by
  induction outcomes generalizing s with
  | nil => rfl
  | cons o rest ih =>
    rw [List.foldl_cons, List.foldl_cons, ih]
    unfold countAppend
    rw [later_count]

/-- No text for a log mentions a tick. -/
theorem auditChunks_later (d : Nat) (s : Staging κ π) :
    (s.later d).auditChunks = s.auditChunks := by
  have hobjects : (s.later d).objectChunks = s.objectChunks := by
    unfold objectChunks later
    rw [List.map_map]
    rfl
  have husers : (s.later d).userChunks = s.userChunks := by
    unfold userChunks later
    rw [List.flatMap_map]
    rfl
  unfold auditChunks
  rw [hobjects, husers]
  rfl

/-- So a drain makes the same appends, and in the same order. -/
theorem appends_later (pool : Pool) (d : Nat) (s : Staging κ π) :
    (s.later d).appends pool = s.appends pool := by
  unfold appends
  rw [auditChunks_later]
  rfl

/-- The copies of the records show their ticks, and those of the later ones are
    later. -/
theorem snapshots_later (d : Nat) (s : Staging κ π) :
    (s.later d).snapshots = s.snapshots.map (Snapshot.later d) := by
  unfold snapshots later
  rw [List.map_map, List.map_map]
  rfl

end Staging

/-- The transaction with all ticks `d` later, in the world that `f` shows. -/
def Transaction.delayed (d : Nat) (f : σ → σ') (t : Transaction κ π σ) : Transaction κ π σ' :=
  ⟨t.staging.later d, t.errors, f t.world⟩

/-! ## Acting alike -/

/-- The late hooks act on the world `f` shows them, and on ticks `d` later, as
    the early ones act on their own. -/
structure Hooks.ActAlike (d : Nat) (f : σ → σ') (early : Hooks κ π σ) (late : Hooks κ π σ') :
    Prop where
  isStale : ∀ object w, early.isStale object w = late.isStale object (f w)
  inner : ∀ object ctx t, Prod.map id (Transaction.delayed d f) (early.inner object ctx t)
    = late.inner object ctx (t.delayed d f)
  validate : ∀ r errors w, Prod.map id (Prod.map id f) (early.validate r errors w)
    = late.validate (r.later d) errors (f w)
  index : ∀ r w, Prod.map id f (early.index r w) = late.index (r.later d) (f w)
  outer : ∀ r user w, Prod.map id f (early.outer r user w) = late.outer (r.later d) user (f w)
  act : ∀ action user errors w, Prod.map id (Prod.map id f) (early.act action user errors w)
    = late.act action user errors (f w)

/-- What acts alike does with the image of anything what it does with it. -/
theorem Hooks.ActAlike.mirrored {d : Nat} {f : σ → σ'} {early : Hooks κ π σ} {late : Hooks κ π σ'}
    (ha : early.ActAlike d f late) : early.Mirrored (Record.later d) (Staging.later d) f late :=
  ⟨ha.isStale, ha.inner, ha.validate, ha.index, ha.outer, ha.act⟩

/-- The fine sink acts on the fine world as the coarse one on the coarse. -/
def Sink.Refines (f : σ → σ') (fine : Sink σ) (coarse : Sink σ') : Prop :=
  ∀ name text w, Prod.map id f (fine.append name text w) = coarse.append name text (f w)

/-- The fine storage acts on the fine world as the coarse one on the coarse. -/
structure Storage.Refines (f : σ → σ') (fine : Storage σ) (coarse : Storage σ') : Prop where
  commit : ∀ w, Prod.map id f (fine.commit w) = coarse.commit (f w)
  rollback : ∀ w, Prod.map id f (fine.rollback w) = coarse.rollback (f w)

/-! ## The phases -/

namespace Transaction

variable {d : Nat} {f : σ → σ'} {early : Hooks κ π σ} {late : Hooks κ π σ'}

theorem delayed_finishPhase (phase : Phase) (ok : Bool) (t : Transaction κ π σ) :
    (t.finishPhase phase ok).delayed d f = (t.delayed d f).finishPhase phase ok :=
  image_finishPhase (Staging.unnoticed_later d) phase ok t

/-- Sweeps visit the same records in the same order. -/
theorem delayed_settle (ha : early.ActAlike d f late) (user : Option Principal)
    (t : Transaction κ π σ) :
    Prod.map id (delayed d f) (settle early user t) = settle late user (t.delayed d f) :=
  image_settle (Staging.unnoticed_later d) ha.mirrored user t

/-- Validation asks for the same records, one after the other. -/
theorem delayed_validate (ha : early.ActAlike d f late) (validating : Bool)
    (t : Transaction κ π σ) :
    Prod.map id (delayed d f) (validate early validating t)
      = validate late validating (t.delayed d f) :=
  image_validate (Staging.unnoticed_later d) ha.mirrored validating t

/-- The same actions are pending. -/
theorem delayed_runDeferred (ha : early.ActAlike d f late) (user : Option Principal)
    (t : Transaction κ π σ) :
    Prod.map id (delayed d f) (runDeferred early user t)
      = runDeferred late user (t.delayed d f) :=
  image_runDeferred (Staging.unnoticed_later d) ha.mirrored user t

/-- The outer hooks are told of the same records. -/
theorem delayed_notify (ha : early.ActAlike d f late) (user : Option Principal)
    (t : Transaction κ π σ) :
    Prod.map id (delayed d f) (notify early user t) = notify late user (t.delayed d f) :=
  image_notify (Staging.unnoticed_later d) ha.mirrored user t

/-- A run of appends to the coarse sink, step by step as to the fine one. -/
theorem map_appendAll {fineSink : Sink σ} {coarseSink : Sink σ'}
    (hs : fineSink.Refines f coarseSink) (writes : List (LogName × String)) (w : σ) :
    Prod.map id f (fineSink.appendAll writes w) = coarseSink.appendAll writes (f w) := by
  induction writes generalizing w with
  | nil => rfl
  | cons a rest ih =>
    obtain ⟨name, text⟩ := a
    unfold Sink.appendAll
    rw [← hs name text w]
    obtain ⟨answer, w'⟩ := fineSink.append name text w
    dsimp only [Prod.map, id]
    rw [← ih w']
    cases answer <;> rfl

/-- A drain does the same with later ticks, whatever the pool. -/
theorem delayed_drainLogsOn (pool : Pool) {fineSink : Sink σ} {coarseSink : Sink σ'}
    (hs : fineSink.Refines f coarseSink) (t : Transaction κ π σ) :
    Prod.map id (delayed d f) (drainLogsOn pool fineSink t)
      = drainLogsOn pool coarseSink (t.delayed d f) := by
  by_cases hon : (t.staging.logEnabled && t.staging.options.anyAudit) = true
  · have hon' : ((t.delayed d f).staging.logEnabled && (t.delayed d f).staging.options.anyAudit)
        = true := hon
    have ha := map_appendAll hs (t.staging.appends pool) t.world
    rw [drainLogsOn_on pool fineSink hon, drainLogsOn_on pool coarseSink hon',
      show (t.delayed d f).staging = t.staging.later d from rfl,
      show (t.delayed d f).world = f t.world from rfl, Staging.appends_later, ← ha]
    generalize fineSink.appendAll (t.staging.appends pool) t.world = done
    obtain ⟨outcomes, world⟩ := done
    refine congrArg (Prod.mk _) ((delayed_finishPhase _ _ _).trans ?_)
    refine congrArg (fun s => finishPhase (⟨s, t.errors, f world⟩ : Transaction κ π σ')
      .changeLog true) ?_
    rw [Staging.later_countAppends, Staging.later_dropPushes]
    rfl
  · have hoff : ¬ ((t.delayed d f).staging.logEnabled &&
        (t.delayed d f).staging.options.anyAudit) = true := hon
    rw [drainLogsOn_off pool fineSink hon, drainLogsOn_off pool coarseSink hoff]
    rfl

/-! ## The commit -/

/-- The three phases before the storage in a row. -/
theorem delayed_prepare (ha : early.ActAlike d f late) (validating : Bool)
    (user : Option Principal) (t : Transaction κ π σ) :
    Prod.map id (delayed d f) (prepare early validating user t)
      = prepare late validating user (t.delayed d f) :=
  image_prepare (Staging.unnoticed_later d) ha.mirrored validating user t

theorem delayed_rollback {fineStorage : Storage σ} {coarseStorage : Storage σ'}
    (hg : fineStorage.Refines f coarseStorage) (t : Transaction κ π σ) :
    (t.rollback fineStorage).delayed d f = (t.delayed d f).rollback coarseStorage := by
  unfold rollback
  rw [show (t.delayed d f).world = f t.world from rfl, ← hg.rollback]
  rfl

/-- The phases after the storage; the report shows the later ticks. -/
theorem delayed_concludeOn (pool : Pool) (ha : early.ActAlike d f late) {fineSink : Sink σ}
    {coarseSink : Sink σ'} (hs : fineSink.Refines f coarseSink) (user : Option Principal)
    (records : List Snapshot) (syncKeys : SortedSet String) (t : Transaction κ π σ) :
    Prod.map (CommitReport.later d) (delayed d f)
        (concludeOn pool early fineSink user records syncKeys t)
      = concludeOn pool late coarseSink user (records.map (Snapshot.later d)) syncKeys
          (t.delayed d f) := by
  unfold concludeOn
  rw [← delayed_notify ha user t]
  obtain ⟨warnings, t'⟩ := notify early user t
  dsimp only [Prod.map, id]
  rw [← delayed_drainLogsOn pool hs t']
  rfl

/-- A commit does the same with later ticks, and reports them. -/
theorem delayed_commitOn (pool : Pool) (ha : early.ActAlike d f late) {fineSink : Sink σ}
    {coarseSink : Sink σ'} (hs : fineSink.Refines f coarseSink) {fineStorage : Storage σ}
    {coarseStorage : Storage σ'} (hg : fineStorage.Refines f coarseStorage) (validating : Bool)
    (user : Option Principal) (t : Transaction κ π σ) :
    Prod.map (Except.map (CommitReport.later d)) (delayed d f)
        (commitOn pool early fineSink fineStorage validating user t)
      = commitOn pool late coarseSink coarseStorage validating user (t.delayed d f) := by
  -- A commit first empties the error buffer, on both sides alike.
  have hw : ∀ t, Prod.map (Except.map (CommitReport.later d)) (delayed d f)
        (commitWithOn pool early fineSink fineStorage validating user t)
      = commitWithOn pool late coarseSink coarseStorage validating user (t.delayed d f) := by
    intro t
    unfold commitWithOn
    rw [← delayed_prepare ha validating user t]
    obtain ⟨prepared, t₁⟩ := prepare early validating user t
    cases prepared with
    | error e => exact congrArg (Prod.mk _) (delayed_rollback hg t₁)
    | ok _ =>
      dsimp only [Prod.map, id]
      rw [show (t₁.delayed d f).world = f t₁.world from rfl, ← hg.commit]
      obtain ⟨answer, world⟩ := fineStorage.commit t₁.world
      cases answer with
      | error e => rfl
      | ok _ =>
        have hc := delayed_concludeOn (d := d) pool ha hs user t₁.staging.snapshots
          t₁.staging.syncKeys { t₁ with world }
        rw [← Staging.snapshots_later] at hc
        exact congrArg (fun c : CommitReport × Transaction κ π σ' => (Except.ok c.1, c.2.clear)) hc
  unfold commitOn
  rw [show ({ t.delayed d f with errors := ∅ } : Transaction κ π σ')
    = ({ t with errors := ∅ } : Transaction κ π σ).delayed d f from rfl, ← hw]
  rfl

end Transaction

end ChangeLedger
