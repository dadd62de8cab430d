/-
  ChangeLedger.Proofs.SinkIndependence — a commit does not listen to its sink.

  A ledger carries its sink through all five phases, and only the last phase
  uses it.  What is appended there, in which order, and with what success, goes
  into the number of written logs and into three counters.  So two commits of
  one transaction, one with each of two sinks and pools of workers, agree in
  all else.

  To say that no hook reads the sink, the content of the sink stands beside the
  world of the hooks, who have no access to it.  Both commits are compared with
  a third one, whose sink is deaf.

  Main results:
    * `heard_prepare`, `heard_notify`, `heard_drainLogsOn` — the phases, next
      to those of a ledger with a deaf sink.
    * `heard_commitOn` — the commit.
    * `sink_cannot_influence_commit` — two sinks and two pools.
-/
import ChangeLedger.Proofs.DrainExactness
import ChangeLedger.Proofs.Forgetting
import ChangeLedger.Proofs.Openings
import ChangeLedger.Transaction.Pool

namespace ChangeLedger

variable {κ π σ τ τ' : Type}

/-! ## A sink beside the world -/

/-- The hooks in a world with a sink beside it, which they do not know of. -/
def Hooks.beside (τ : Type) (h : Hooks κ π σ) : Hooks κ π (σ × τ) where
  isStale object w := h.isStale object w.1
  inner object ctx t :=
    let (answer, t') := h.inner object ctx (t.mapWorld Prod.fst)
    (answer, t'.mapWorld (·, t.world.2))
  validate r errors w :=
    let (accepted, errors, world) := h.validate r errors w.1
    (accepted, errors, world, w.2)
  index r w :=
    let (answer, world) := h.index r w.1
    (answer, world, w.2)
  outer r user w :=
    let (answer, world) := h.outer r user w.1
    (answer, world, w.2)
  act action user errors w :=
    let (answer, errors, world) := h.act action user errors w.1
    (answer, errors, world, w.2)

/-- The storage in a world with a sink beside it. -/
def Storage.beside (τ : Type) (storage : Storage σ) : Storage (σ × τ) where
  commit w :=
    let (answer, world) := storage.commit w.1
    (answer, world, w.2)
  rollback w :=
    let (answer, world) := storage.rollback w.1
    (answer, world, w.2)

/-- The sink beside a world. -/
def Sink.beside (σ : Type) (sink : Sink τ) : Sink (σ × τ) where
  append name text w :=
    let (answer, content) := sink.append name text w.2
    (answer, w.1, content)

/-- Appends leave the world beside the sink alone. -/
theorem Sink.appendAll_beside (sink : Sink τ) (writes : List (LogName × String)) (w : σ × τ) :
    ((sink.beside σ).appendAll writes w).2.1 = w.1 :=
  Sink.appendAll_keeps (Q := fun w' => w'.1 = w.1) (fun _ _ _ hw => hw) writes w rfl

/-- The sink that takes every text and keeps none. -/
def Sink.deaf : Sink σ where
  append _ _ w := (.ok (), w)

/-- Where a ledger writes its logs, and with how many workers. -/
structure Outlet (τ : Type) where
  /-- The sink. -/
  sink : Sink τ
  /-- The content of the sink. -/
  content : τ
  /-- The number of workers, if there are any. -/
  workers : Option Nat
  /-- The order in which the workers make their appends. -/
  pool : Pool

/-! ## What is left of a ledger without its logs -/

/-- The report without the number of appends. -/
def CommitReport.unlogged (report : CommitReport) : CommitReport := { report with logsWritten := 0 }

/-- The counters without those of the change logs. -/
def Counters.unlogged (c : Counters) : Counters :=
  { c with logAppends := 0, logBytes := 0, logFailures := 0 }

namespace Staging

/-- The staging area as it looks if its workers are shown by `seen`. -/
def showing (seen : Option Nat → Option Nat) (s : Staging κ π) : Staging κ π :=
  { s with options := { s.options with workers := seen s.options.workers } }

/-- The staging area without its workers. -/
def unstaffed (s : Staging κ π) : Staging κ π := s.showing fun _ => none

/-- The staging area without its workers and without the counters of the change
    logs. -/
def unlogged (s : Staging κ π) : Staging κ π :=
  { s.unstaffed with counters := s.counters.unlogged }

end Staging

/-- The event with the workers shown by `seen` in the staging area that it
    begins in. -/
def Event.showing (seen : Option Nat → Option Nat) : Event κ π → Event κ π
  | recorded before m => recorded (before.showing seen) m
  | inner before object ctx recordings passed =>
    inner (before.showing seen) object ctx recordings passed
  | e => e

/-- The script looks at the workers only as `seen` shows them. -/
def InnerScript.Sees (seen : Option Nat → Option Nat) (script : InnerScript κ π σ) : Prop :=
  ∀ object ctx t, script object ctx (t.stage (·.showing seen)) = script object ctx t

/-- The script does not look at the workers. -/
def InnerScript.IgnoresWorkers (script : InnerScript κ π σ) : Prop :=
  ∀ object ctx t workers, script object ctx (t.stage (·.showing fun _ => workers))
    = script object ctx t

namespace Staging

variable {seen : Option Nat → Option Nat}

theorem showing_count (seen : Option Nat → Option Nat) (s : Staging κ π)
    (f : Counters → Counters) : (s.count f).showing seen = (s.showing seen).count f := by
  unfold count
  rw [show (s.showing seen).options.countsActivity = s.options.countsActivity from rfl]
  split <;> rfl

/-- Recordings do not look at the workers. -/
theorem showing_afterAll (seen : Option Nat → Option Nat) (s : Staging κ π)
    (ms : List (Mutation κ π)) :
    (s.showing seen).afterAll ms = (s.afterAll ms).showing seen := by
  induction ms generalizing s with
  | nil => rfl
  | cons m rest ih =>
    have hstep : (s.showing seen).after m = (s.after m).showing seen := by
      show (s.tuned s.options.maxSweeps (seen s.options.workers)).after m
        = (s.after m).tuned (s.after m).options.maxSweeps (seen (s.after m).options.workers)
      rw [tuned_after, options_after]
    show ((s.showing seen).after m).afterAll rest = _
    rw [hstep, ih]
    rfl

/-- No phase looks at the workers. -/
theorem unnoticed_showing (seen : Option Nat → Option Nat) :
    Unnoticed (id : Record κ → Record κ) (showing (π := π) seen) where
  toUnseen := Transaction.unseen_id
  records s := (List.map_id s.records).symm
  pending _ := rfl
  maxSweeps _ := rfl
  count := showing_count seen
  clearDirty _ _ := rfl
  take _ := rfl

theorem unlogged_countAppends (outcomes : List AppendOutcome) (s : Staging κ π) :
    (outcomes.foldl countAppend s).unlogged = s.unlogged := by
  induction outcomes generalizing s with
  | nil => rfl
  | cons o rest ih =>
    rw [List.foldl_cons, ih]
    unfold countAppend count
    split
    · cases o.accepted <;> rfl
    · rfl

theorem unlogged_count_phaseFinished (s : Staging κ π) (phase : Phase) (micros : Nat)
    (ok : Bool) :
    (s.count fun c => c.phaseFinished phase micros ok).unlogged
      = s.unlogged.count fun c => c.phaseFinished phase micros ok := by
  unfold count
  rw [show s.unlogged.options.countsActivity = s.options.countsActivity from rfl]
  split
  · have hcounters : (s.counters.phaseFinished phase micros ok).unlogged
        = s.counters.unlogged.phaseFinished phase micros ok := by
      cases phase <;> cases ok <;> rfl
    exact congrArg (fun c => ({ s.unstaffed with counters := c } : Staging κ π)) hcounters
  · rfl

end Staging

/-! ## The phases, next to those of a ledger with a deaf sink -/

namespace Transaction

variable {seen : Option Nat → Option Nat} {h : Hooks κ π σ} {script : InnerScript κ π σ}

/-- The world without the sink beside it, and with the workers shown by `seen`
    in its events. -/
def heardWorld (seen : Option Nat → Option Nat) (w : Watched κ π σ × τ) : Watched κ π σ :=
  ⟨w.1.world, w.1.events.map (Event.showing seen)⟩

/-- The transaction without the sink beside its world, and with the workers
    shown by `seen`. -/
def heard (seen : Option Nat → Option Nat) (t : Transaction κ π (Watched κ π σ × τ)) :
    Transaction κ π (Watched κ π σ) :=
  t.image (Staging.showing seen) (heardWorld seen)

/-- The transaction without its workers and without the counters of the change
    logs. -/
def unlogged (t : Transaction κ π σ) : Transaction κ π σ := t.stage Staging.unlogged

theorem heardWorld_note (seen : Option Nat → Option Nat) (w : Watched κ π σ) (content : τ)
    (world : σ) (e : Event κ π) :
    heardWorld seen (w.note world e, content)
      = (heardWorld seen (w, content)).note world (e.showing seen) := by
  unfold heardWorld Watched.note
  rw [List.map_append, List.map_singleton]

/-- Hooks do beside a sink what they do without one. -/
theorem mirrored_beside (h : Hooks κ π σ) (hscript : script.Sees seen) :
    ((h.watched script).beside τ).Mirrored id (Staging.showing seen) (heardWorld seen)
      (h.watched script) where
  isStale _ _ := rfl
  inner object ctx t := by
    -- The script is asked on both sides, and chooses the same run.
    have hrun : script object ctx (t.heard seen).unwatched
        = script object ctx (t.mapWorld Prod.fst).unwatched :=
      hscript object ctx (t.mapWorld Prod.fst).unwatched
    show _ = (h.watched script).inner object ctx (t.heard seen)
    unfold Hooks.watched Hooks.watchedAfter
    dsimp only
    rw [hrun]
    refine Prod.ext rfl ?_
    let run := script object ctx (t.mapWorld Prod.fst).unwatched
    let e := Event.inner t.staging object ctx run.recordings (run.passed t.errors.size)
    show (⟨(t.staging.afterAll run.recordings).showing seen, run.errors,
        heardWorld seen (t.world.1.note run.world e, t.world.2)⟩
          : Transaction κ π (Watched κ π σ))
      = ⟨(t.staging.showing seen).afterAll run.recordings, run.errors,
        (heardWorld seen t.world).note run.world (e.showing seen)⟩
    rw [Staging.showing_afterAll, heardWorld_note]
  validate _ _ _ := Prod.ext rfl (Prod.ext rfl (heardWorld_note seen _ _ _ _))
  index _ _ := Prod.ext rfl (heardWorld_note seen _ _ _ _)
  outer _ _ _ := Prod.ext rfl (heardWorld_note seen _ _ _ _)
  act _ _ _ _ := Prod.ext rfl (Prod.ext rfl (heardWorld_note seen _ _ _ _))

theorem heard_prepare (h : Hooks κ π σ) (hscript : script.Sees seen) (validating : Bool)
    (user : Option Principal) (t : Transaction κ π (Watched κ π σ × τ)) :
    Prod.map id (heard seen) (prepare ((h.watched script).beside τ) validating user t)
      = prepare (h.watched script) validating user (t.heard seen) :=
  image_prepare (Staging.unnoticed_showing seen) (mirrored_beside h hscript) validating user t

theorem heard_notify (h : Hooks κ π σ) (hscript : script.Sees seen) (user : Option Principal)
    (t : Transaction κ π (Watched κ π σ × τ)) :
    Prod.map id (heard seen) (notify ((h.watched script).beside τ) user t)
      = notify (h.watched script) user (t.heard seen) :=
  image_notify (Staging.unnoticed_showing seen) (mirrored_beside h hscript) user t

/-- A transaction is known from its parts. -/
theorem ext_parts {t t' : Transaction κ π σ} (hstaging : t.staging = t'.staging)
    (herrors : t.errors = t'.errors) (hworld : t.world = t'.world) : t = t' := by
  cases t
  cases t'
  cases hstaging
  cases herrors
  cases hworld
  rfl

/-- Whatever a sink does with the logs, all else is as with a deaf sink. -/
theorem heard_drainLogsOn (pool : Pool) (sink : Sink τ)
    (t : Transaction κ π (Watched κ π σ × τ)) :
    ((drainLogsOn pool (sink.beside (Watched κ π σ)) t).2.heard seen).unlogged
      = (drainLogsOn .inline Sink.deaf (t.heard seen)).2.unlogged := by
  by_cases hon : (t.staging.logEnabled && t.staging.options.anyAudit) = true
  · have hon' : ((t.heard seen).staging.logEnabled && (t.heard seen).staging.options.anyAudit)
        = true := hon
    -- Only the outcomes of the appends differ, and these are not looked at.
    have hcount : ∀ (outcomes : List AppendOutcome) (s : Staging κ π),
        ((outcomes.foldl Staging.countAppend s).count
            fun c => c.phaseFinished .changeLog 0 true).unlogged
          = s.unlogged.count fun c => c.phaseFinished .changeLog 0 true := by
      intro outcomes s
      rw [Staging.unlogged_count_phaseFinished, Staging.unlogged_countAppends]
    have hdeaf : ∀ writes (w : Watched κ π σ), (Sink.deaf.appendAll writes w).2 = w :=
      fun writes w =>
        Sink.appendAll_keeps (Q := fun w' => w' = w) (fun _ _ _ hw => hw) writes w rfl
    rw [drainLogsOn_on pool _ hon, drainLogsOn_on .inline Sink.deaf hon']
    refine ext_parts ?_ rfl ?_
    · exact (hcount _ t.staging.dropPushes).trans (hcount _ (t.heard seen).staging.dropPushes).symm
    · refine Eq.trans ?_ (hdeaf _ (t.heard seen).world).symm
      exact congrArg (fun w => heardWorld seen (w, t.world.2))
        (Sink.appendAll_beside sink _ t.world)
  · have hoff : ¬ ((t.heard seen).staging.logEnabled &&
        (t.heard seen).staging.options.anyAudit) = true := hon
    rw [drainLogsOn_off pool _ hon, drainLogsOn_off .inline Sink.deaf hoff]

/-! ## The commit -/

theorem heard_rollback (storage : Storage σ) (t : Transaction κ π (Watched κ π σ × τ)) :
    (t.rollback (storage.watched.beside τ)).heard seen = (t.heard seen).rollback storage.watched :=
  ext_parts rfl rfl (heardWorld_note seen t.world.1 t.world.2 _ _)

theorem heard_concludeOn (h : Hooks κ π σ) (hscript : script.Sees seen) (pool : Pool)
    (sink : Sink τ) (user : Option Principal) (records : List Snapshot)
    (syncKeys : SortedSet String) (t : Transaction κ π (Watched κ π σ × τ)) :
    Prod.map CommitReport.unlogged (fun t => (t.heard seen).unlogged)
        (concludeOn pool ((h.watched script).beside τ) (sink.beside _) user records syncKeys t)
      = Prod.map CommitReport.unlogged unlogged
        (concludeOn .inline (h.watched script) Sink.deaf user records syncKeys (t.heard seen)) := by
  unfold concludeOn
  rw [← heard_notify h hscript user t]
  obtain ⟨warnings, t'⟩ := notify ((h.watched script).beside τ) user t
  exact Prod.ext rfl (heard_drainLogsOn pool sink t')

/-- But for the logs, a commit does what it does with a deaf sink. -/
theorem heard_commitOn (h : Hooks κ π σ) (hscript : script.Sees seen) (pool : Pool)
    (sink : Sink τ) (storage : Storage σ) (validating : Bool) (user : Option Principal)
    (t : Transaction κ π (Watched κ π σ × τ)) :
    Prod.map (Except.map CommitReport.unlogged) (fun t => (t.heard seen).unlogged)
        (commitOn pool ((h.watched script).beside τ) (sink.beside _) (storage.watched.beside τ)
          validating user t)
      = Prod.map (Except.map CommitReport.unlogged) unlogged
        (commitOn .inline (h.watched script) Sink.deaf storage.watched validating user
          (t.heard seen)) := by
  -- A commit first empties the error buffer, on both sides alike.
  have hwith : ∀ t : Transaction κ π (Watched κ π σ × τ),
      Prod.map (Except.map CommitReport.unlogged) (fun t => (t.heard seen).unlogged)
          (commitWithOn pool ((h.watched script).beside τ) (sink.beside _)
            (storage.watched.beside τ) validating user t)
        = Prod.map (Except.map CommitReport.unlogged) unlogged
          (commitWithOn .inline (h.watched script) Sink.deaf storage.watched validating user
            (t.heard seen)) := by
    intro t
    unfold commitWithOn
    rw [← heard_prepare h hscript validating user t]
    obtain ⟨prepared, t₁⟩ := prepare ((h.watched script).beside τ) validating user t
    cases prepared with
    | error e => exact congrArg (fun t => (Except.error e, t.unlogged)) (heard_rollback storage t₁)
    | ok _ =>
      dsimp only [Prod.map, id]
      -- The storage is asked in the same world.
      have hstored : Prod.map id (heardWorld seen) ((storage.watched.beside τ).commit t₁.world)
          = storage.watched.commit (t₁.heard seen).world :=
        Prod.ext rfl (heardWorld_note seen t₁.world.1 t₁.world.2 _ _)
      rw [← hstored]
      obtain ⟨answer, world⟩ := (storage.watched.beside τ).commit t₁.world
      cases answer with
      | error e => rfl
      | ok _ =>
        exact congrArg (fun c => (Except.ok c.1, c.2.clear))
          (heard_concludeOn h hscript pool sink user t₁.staging.snapshots t₁.staging.syncKeys
            { t₁ with world })
  exact congrArg (fun done => (done.1, { done.2 with errors := t.errors }))
    (hwith { t with errors := ∅ })

/-! ## Two sinks -/

/-- The transaction with its logs going to an outlet. -/
def facing (out : Outlet τ) (t : Transaction κ π σ) : Transaction κ π (Watched κ π σ × τ) :=
  ⟨t.staging.showing fun _ => out.workers, t.errors, ({ world := t.world }, out.content)⟩

/-- The commit of a transaction with its logs going to an outlet.  All calls but
    the appends are noted. -/
def commitFacing (h : Hooks κ π σ) (script : InnerScript κ π σ) (out : Outlet τ)
    (storage : Storage σ) (validating : Bool) (user : Option Principal)
    (t : Transaction κ π σ) :
    Except Failure CommitReport × Transaction κ π (Watched κ π σ × τ) :=
  commitOn out.pool ((h.watched script).beside τ) (out.sink.beside _) (storage.watched.beside τ)
    validating user (t.facing out)

/-- Two commits agree in all but their logs. -/
structure AgreeButForLogs
    (done : Except Failure CommitReport × Transaction κ π (Watched κ π σ × τ))
    (done' : Except Failure CommitReport × Transaction κ π (Watched κ π σ × τ')) : Prop where
  /-- They fail alike, or report the same but for the number of appends. -/
  answer : done.1.map CommitReport.unlogged = done'.1.map CommitReport.unlogged
  /-- They make the same calls, in staging areas that are the same but for the
      workers. -/
  calls : done.2.world.1.events.map (Event.showing fun _ => none)
    = done'.2.world.1.events.map (Event.showing fun _ => none)
  /-- They leave the same staging area but for the workers and the counters of
      the change logs. -/
  staging : done.2.staging.unlogged = done'.2.staging.unlogged
  /-- They leave the same errors. -/
  errors : done.2.errors = done'.2.errors
  /-- They leave the same world. -/
  world : done.2.world.1.world = done'.2.world.1.world

/-- **The sink cannot influence a commit.**  Take any transaction, hooks that do
    not know of the sink, inner hooks that only record, and any storage.  With
    any two sinks, whatever these accept and refuse, and with any pools of
    workers, two commits agree in all but their logs.  If the numbers of workers
    differ, the inner hooks must not look at them. -/
theorem sink_cannot_influence_commit (h : Hooks κ π σ) (script : InnerScript κ π σ)
    (out : Outlet τ) (out' : Outlet τ')
    (hworkers : out.workers = out'.workers ∨ script.IgnoresWorkers) (storage : Storage σ)
    (validating : Bool) (user : Option Principal) (t : Transaction κ π σ) :
    AgreeButForLogs (commitFacing h script out storage validating user t)
      (commitFacing h script out' storage validating user t) := by
  -- Inner hooks are shown the workers as they are, or none at all.
  obtain ⟨seen, hsees, hsame⟩ : ∃ seen : Option Nat → Option Nat,
      script.Sees seen ∧ seen out.workers = seen out'.workers := by
    rcases hworkers with hsame | hignores
    · exact ⟨id, fun _ _ _ => rfl, hsame⟩
    · exact ⟨fun _ => none, fun object ctx t => hignores object ctx t none, rfl⟩
  have hheard : (t.facing out).heard seen = (t.facing out').heard seen := by
    refine ext_parts ?_ rfl rfl
    show t.staging.showing (fun _ => seen out.workers)
      = t.staging.showing fun _ => seen out'.workers
    rw [hsame]
  have hdone := heard_commitOn h hsees out.pool out.sink storage validating user (t.facing out)
  rw [hheard] at hdone
  have hcommits :
      Prod.map (Except.map CommitReport.unlogged) (fun t => (t.heard seen).unlogged)
          (commitFacing h script out storage validating user t)
        = Prod.map (Except.map CommitReport.unlogged) (fun t => (t.heard seen).unlogged)
          (commitFacing h script out' storage validating user t) :=
    hdone.trans
      (heard_commitOn h hsees out'.pool out'.sink storage validating user (t.facing out')).symm
  have hevents :
      (commitFacing h script out storage validating user t).2.world.1.events.map
          (Event.showing seen)
        = (commitFacing h script out' storage validating user t).2.world.1.events.map
          (Event.showing seen) := congrArg (·.2.world.events) hcommits
  -- Without the workers, it makes no difference how they were shown.
  have hforget : ∀ es : List (Event κ π),
      (es.map (Event.showing seen)).map (Event.showing fun _ => none)
        = es.map (Event.showing fun _ => none) := by
    intro es
    rw [List.map_map]
    refine List.map_congr_left fun e _ => ?_
    cases e <;> rfl
  refine ⟨congrArg (·.1) hcommits, ?_, congrArg (·.2.staging) hcommits,
    congrArg (·.2.errors) hcommits, congrArg (·.2.world.world) hcommits⟩
  rw [← hforget, hevents, hforget]

/-- A node is created and committed; one sink keeps its line, the other refuses
    it, and only the number of written logs tells which is which. -/
theorem sink_cannot_influence_commit_of_refusal :
    let storage : Storage MemoryLog := ⟨fun w => (.ok (), w), fun w => (.ok (), w)⟩
    let keeps : Outlet MemoryLog := ⟨MemoryLog.sink, ∅, none, .inline⟩
    let refuses : Outlet Unit :=
      ⟨⟨fun _ _ w => (.error (.auditIo "log" (.reported "disk full")), w)⟩, (), some 4, .backwards⟩
    let t : Transaction Unit Unit MemoryLog :=
      ⟨(Staging.new { auditEnabled := true } ∅).after (.create none ⟨⟨.node, 1⟩, "n-1", ()⟩), ∅, ∅⟩
    let kept := commitFacing idleHooks idleScript keeps storage true none t
    let refused := commitFacing idleHooks idleScript refuses storage true none t
    AgreeButForLogs kept refused ∧
      kept.1.map (·.logsWritten) = .ok 1 ∧ refused.1.map (·.logsWritten) = .ok 0 := by
  intro storage keeps refuses t kept refused
  refine ⟨sink_cannot_influence_commit idleHooks idleScript keeps refuses (.inr ?_) storage true
    none t, ?_, ?_⟩
  · intro object ctx t workers
    rfl
  · rfl
  · rfl

end Transaction

end ChangeLedger
