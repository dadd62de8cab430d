/-
  ChangeLedger.Proofs.CommitCounts — the counters are an exact account of a commit.

  The steps of a commit are accounted for one by one, and a commit is their
  sequence up to where it fails.  So what the counters grow by is the sum along
  one of the three courses: a phase before the storage fails, the storage does
  not commit, or everything is concluded.

  Only the last phase may be skipped.  Otherwise it counts an append for each
  log with text, which the sink takes or refuses.

  Main results:
    * `PendingWrites.keys_ofChunks_perm` — merging leaves one text for each log
      that has any.
    * `Transaction.prepare_accounted_of_fails`, `prepare_accounted_of_ok` — the
      phases before the storage.
    * `concludeOn_onlyCounts`, `concludeOn_accounted` — the phases after it, and
      all phases together.
    * `commitOn_counts_exactly` — the whole statement.
-/
import ChangeLedger.Proofs.ReportContents
import ChangeLedger.Proofs.Tallies
import Mathlib.Data.List.Dedup

namespace ChangeLedger

variable {κ π σ : Type}

/-! ## Logs with text -/

/-- The logs that have a text which is not empty, once each. -/
def logsWithText (chunks : List (LogName × String)) : List LogName :=
  ((chunks.filter fun c => !c.2.isEmpty).map Prod.fst).dedup

theorem mem_logsWithText {chunks : List (LogName × String)} {name : LogName} :
    name ∈ logsWithText chunks ↔ ∃ c ∈ chunks, c.1 = name ∧ c.2 ≠ "" := by
  simp only [logsWithText, List.mem_dedup, List.mem_map, List.mem_filter, Bool.not_eq_true',
    ← Bool.not_eq_true, String.isEmpty_iff, and_assoc, ne_eq, and_comm]

/-- The text for a log is empty only if all texts for it are. -/
theorem textFor_eq_empty_iff (name : LogName) (chunks : List (LogName × String)) :
    textFor name chunks = "" ↔ ∀ c ∈ chunks, c.1 = name → c.2 = "" := by
  induction chunks with
  | nil => exact iff_of_true rfl (List.forall_mem_nil _)
  | cons c rest ih =>
    rw [textFor_cons, String.append_eq_empty_iff, ih, List.forall_mem_cons]
    refine and_congr_left fun _ => ?_
    by_cases hc : c.1 = name <;> simp [hc]

/-- A text is pending for the logs whose text is not empty. -/
theorem PendingWrites.mem_keys_ofChunks (chunks : List (LogName × String)) (name : LogName) :
    name ∈ (ofChunks chunks).keys ↔ textFor name chunks ≠ "" := by
  rw [SortedMap.mem_keys_iff]
  unfold SortedMap.contains
  rw [get?_ofChunks]
  by_cases hempty : textFor name chunks = "" <;> simp [hempty]

/-- Merging leaves one text for each log that has any. -/
theorem PendingWrites.keys_ofChunks_perm (chunks : List (LogName × String)) :
    (ofChunks chunks).keys.Perm (logsWithText chunks) := by
  refine (List.perm_ext_iff_of_nodup (SortedMap.nodup_keys _) (List.nodup_dedup _)).mpr ?_
  intro name
  show name ∈ (ofChunks chunks).keys ↔ name ∈ logsWithText chunks
  rw [mem_keys_ofChunks, mem_logsWithText, ne_eq, textFor_eq_empty_iff]
  push Not
  rfl

namespace Staging

theorem logEnabled_count (s : Staging κ π) (f : Counters → Counters) :
    (s.count f).logEnabled = s.logEnabled := by
  unfold Staging.count
  split <;> rfl

theorem auditChunks_count (s : Staging κ π) (f : Counters → Counters) :
    (s.count f).auditChunks = s.auditChunks := by
  unfold Staging.count
  split <;> rfl

/-- A drain offers a text to each log that has any, unless the logs are switched
    off; without auditing there is no text. -/
theorem length_writes (s : Staging κ π) :
    (if s.logEnabled && s.options.anyAudit then
      (PendingWrites.ofChunks s.auditChunks).entries.length else 0) =
      if s.logEnabled then (logsWithText s.auditChunks).length else 0 := by
  have hlength : (PendingWrites.ofChunks s.auditChunks).entries.length
      = (logsWithText s.auditChunks).length := by
    rw [← (PendingWrites.keys_ofChunks_perm s.auditChunks).length_eq]
    exact (List.length_map _).symm
  rw [hlength]
  cases haudit : s.options.anyAudit with
  | true => rw [Bool.and_true]
  | false =>
    obtain ⟨hobject, huser⟩ := Bool.or_eq_false_iff.mp haudit
    have hnone : s.auditChunks = [] := by
      unfold auditChunks
      rw [hobject, huser]
      rfl
    rw [Bool.and_false, hnone]
    cases s.logEnabled <;> rfl

end Staging

/-! ## The phases before the storage -/

/-- The number of phases that come before. -/
def Phase.position : Phase → Nat
  | innerHooks => 0
  | validation => 1
  | postProcessing => 2
  | outerHooks => 3
  | changeLog => 4

/-- No bystander is an inner hook. -/
theorem countP_isInner_bystanders {es : List (Event κ π)}
    (hes : ∀ e ∈ es, e.isBystander = true) : es.countP Event.isInner = 0 := by
  refine List.countP_eq_zero.mpr fun e he => ?_
  have hbystander := hes e he
  cases e with
  | inner => cases hbystander
  | _ => exact Bool.false_ne_true

/-- From the first counters to the second just this was counted.  The times are
    left out. -/
structure Counters.GrowBy (n : Tally) (c c' : Counters) : Prop where
  recordsCreated : c'.recordsCreated = c.recordsCreated + UInt64.ofNat n.recordsCreated
  innerSweeps : c'.innerSweeps = c.innerSweeps + UInt64.ofNat n.innerSweeps
  innerHooks : c'.innerHooks = c.innerHooks + UInt64.ofNat n.innerHooks
  phasesOk : c'.phasesOk = c.phasesOk + UInt64.ofNat n.phasesOk
  phasesFailed : c'.phasesFailed = c.phasesFailed + UInt64.ofNat n.phasesFailed
  logAppends : c'.logAppends = c.logAppends + UInt64.ofNat n.logAppends
  logBytes : c'.logBytes = c.logBytes + UInt64.ofNat n.logBytes
  logFailures : c'.logFailures = c.logFailures + UInt64.ofNat n.logFailures

namespace Transaction

variable (h : Hooks κ π σ) (script : InnerScript κ π σ)

/-- If a phase before the storage fails, the phases before it have succeeded,
    and none comes after it. -/
theorem prepare_accounted_of_fails {validating : Bool} {user : Option Principal}
    {t : Transaction κ π (Watched κ π σ)} {e : Failure} {phase : Phase}
    (hf : FailsBefore (h.watched script) validating user t e phase) :
    ∃ calls sweeps hooks, Accounted calls
      { innerSweeps := sweeps, innerHooks := hooks,
        phasesOk := phase.position, phasesFailed := 1 } t
      (prepare (h.watched script) validating user t).2 := by
  obtain ⟨inners, sweeps, hooks, -, hsettled, -⟩ := settle_accounted h script user t
  have hvalidated := validate_onlyCounts h script validating (settle (h.watched script) user t).2
  have hran := runDeferred_onlyCounts h script user
    (validate (h.watched script) validating (settle (h.watched script) user t).2).2
  cases hf with
  | innerHooks hs =>
    rw [prepare_of_settle_error hs]
    rw [hs] at hsettled
    exact ⟨inners, sweeps, hooks, hsettled⟩
  | validation hs hv =>
    rw [prepare_of_validate_error hs hv]
    rw [hs] at hsettled
    rw [hv] at hvalidated
    obtain ⟨calls, -, hboth⟩ := hvalidated.after hsettled
    exact ⟨inners ++ calls, sweeps, hooks, hboth⟩
  | postProcessing hs hv hr =>
    rw [prepare_of_validate_ok hs hv]
    rw [hs] at hsettled
    rw [hv] at hvalidated
    rw [hr] at hran
    obtain ⟨calls, -, hall⟩ := (hvalidated.trans hran).after hsettled
    exact ⟨inners ++ calls, sweeps, hooks, hall⟩

/-- If the phases before the storage succeed, every inner hook that is called is
    counted, and so is every sweep that calls one. -/
theorem prepare_accounted_of_ok {validating : Bool} {user : Option Principal}
    {t : Transaction κ π (Watched κ π σ)}
    (hp : (prepare (h.watched script) validating user t).1 = .ok ()) :
    ∃ calls sweeps, Accounted calls
      { innerSweeps := sweeps, innerHooks := calls.countP Event.isInner, phasesOk := 3 } t
      (prepare (h.watched script) validating user t).2 ∧
      SettlesAfter (h.watched script) user sweeps t := by
  obtain ⟨hs, hv, heq⟩ := prepare_ok hp
  rw [heq] at hp ⊢
  obtain ⟨inners, sweeps, hooks, hinner, hsettled, hok⟩ := settle_accounted h script user t
  have hvalidated := validate_onlyCounts h script validating (settle (h.watched script) user t).2
  have hran := runDeferred_onlyCounts h script user
    (validate (h.watched script) validating (settle (h.watched script) user t).2).2
  rw [hs] at hsettled
  rw [hv] at hvalidated
  rw [hp] at hran
  obtain ⟨hhooks, hsweeps⟩ := hok hs
  obtain ⟨calls, hcalls, hall⟩ := (hvalidated.trans hran).after hsettled
  have hcount : (inners ++ calls).countP Event.isInner = hooks := by
    rw [List.countP_append, List.countP_eq_length.mpr hinner, countP_isInner_bystanders hcalls,
      hhooks, Nat.add_zero]
  refine ⟨inners ++ calls, sweeps, ?_, hsweeps⟩
  rw [hcount]
  exact hall

/-! ## The phases after the storage -/

/-- The phases after the storage are that of the outer hooks, which fails if it
    leaves a warning, and that of the logs, which is skipped or succeeds.  Every
    log with text has its append taken or refused. -/
theorem concludeOn_onlyCounts (pool : Pool) (sink : Sink σ) (user : Option Principal)
    (records : List Snapshot) (syncKeys : SortedSet String) (t : Transaction κ π (Watched κ π σ)) :
    let concluded := concludeOn pool (h.watched script) sink.watched user records syncKeys t
    let report := concluded.1
    ∃ bytes refused,
      OnlyCounts (.phase report.warnings.isEmpty +
        { phasesOk := if t.staging.logEnabled && t.staging.options.anyAudit then 1 else 0
          logAppends := report.logsWritten
          logBytes := bytes
          logFailures := refused }) t concluded.2 ∧
      report.logsWritten + refused =
        if t.staging.logEnabled then (logsWithText t.staging.auditChunks).length else 0 := by
  intro concluded report
  let notified := (notify (h.watched script) user t).2
  obtain ⟨bytes, refused, hdrained, hwritten⟩ := drainLogsOn_onlyCounts pool sink notified
  -- The drain finds what the outer hooks found: these see the records only.
  have hlog : notified.staging.logEnabled = t.staging.logEnabled := Staging.logEnabled_count _ _
  have hoptions : notified.staging.options = t.staging.options := Staging.options_count _ _
  have hchunks : notified.staging.auditChunks = t.staging.auditChunks :=
    Staging.auditChunks_count _ _
  rw [Staging.length_writes] at hwritten
  rw [hlog, hoptions] at hdrained
  rw [hlog, hchunks] at hwritten
  exact ⟨bytes, refused, (notify_onlyCounts h script user t).trans hdrained, hwritten⟩

/-! ## The whole account -/

/-- What is counted if the storage commits, with these calls and this report.
    The commit begins with `start`, and `s` is staged for the storage. -/
structure CountsSuccess (h : Hooks κ π σ) (user : Option Principal) (start : Transaction κ π σ)
    (s : Staging κ π) (calls : List (Event κ π)) (report : CommitReport) (n : Tally) : Prop where
  /-- Five phases end, or four if the logs are skipped. -/
  phases : n.phasesOk + n.phasesFailed = if s.logEnabled && s.options.anyAudit then 5 else 4
  /-- Only the outer hooks fail, and this leaves warnings. -/
  failures : n.phasesFailed = if report.warnings.isEmpty then 0 else 1
  /-- Each call of an inner hook is counted. -/
  innerHooks : n.innerHooks = calls.countP Event.isInner
  /-- So is each sweep that calls one. -/
  innerSweeps : ∀ sweeps, SettlesAfter h user sweeps start ↔ sweeps = n.innerSweeps
  /-- So is each append that is reported. -/
  logAppends : n.logAppends = report.logsWritten
  /-- Each log with text has one append taken or refused. -/
  logs : n.logAppends + n.logFailures =
    if s.logEnabled then (logsWithText s.auditChunks).length else 0

/-- Once the storage commits, the calls of the phases before and after it account
    for everything. -/
theorem concludeOn_accounted (pool : Pool) (sink : Sink σ) (storage : Storage σ)
    {validating : Bool} {user : Option Principal} {t : Transaction κ π (Watched κ π σ)}
    (hp : (prepare (h.watched script) validating user t).1 = .ok ()) :
    let prepared := (prepare (h.watched script) validating user t).2
    let asked := { prepared with world := (storage.watched.commit prepared.world).2 }
    let concluded := concludeOn pool (h.watched script) sink.watched user
      prepared.staging.snapshots prepared.staging.syncKeys asked
    ∃ calls n, Accounted calls n t concluded.2 ∧ n.recordsCreated = 0 ∧
      CountsSuccess (h.watched script) user t prepared.staging calls concluded.1 n := by
  intro prepared asked concluded
  obtain ⟨calls, sweeps, hprepared, hsweeps⟩ := prepare_accounted_of_ok h script hp
  obtain ⟨bytes, refused, hconcluded, hlogs⟩ := concludeOn_onlyCounts h script pool sink user
    prepared.staging.snapshots prepared.staging.syncKeys asked
  let committed : Event κ π := .committed (storage.commit prepared.world.world).1
  have hasked : Accounted (calls ++ [committed]) _ t asked := hprepared.note _ rfl
  obtain ⟨others, hothers, hall⟩ := hconcluded.after hasked
  refine ⟨calls ++ [committed] ++ others, _, hall, rfl, ?_⟩
  constructor
  case phases =>
    show 3 + (Bool.toNat _ + ite _ 1 0) + (0 + (Bool.toNat _ + 0)) = ite _ 5 4
    cases List.isEmpty _ <;> split <;> rfl
  case failures =>
    show 0 + (Bool.toNat _ + 0) = ite _ 0 1
    cases List.isEmpty _ <;> rfl
  case innerHooks =>
    rw [List.countP_append, List.countP_append, countP_isInner_bystanders hothers]
    rfl
  case innerSweeps =>
    intro m
    constructor
    · exact fun hm => hm.unique hsweeps
    · rintro rfl
      exact hsweeps
  case logAppends =>
    show 0 + (0 + _) = _
    rw [Nat.zero_add, Nat.zero_add]
  case logs =>
    show 0 + (0 + _) + (0 + (0 + refused)) = _
    simp only [Nat.zero_add]
    exact hlogs

namespace Accounted

variable {t t' : Transaction κ π (Watched κ π σ)} {calls : List (Event κ π)} {n : Tally}

/-- What the counters grow by if a step is accounted for. -/
theorem growBy (ha : Accounted calls n t t') (hn : n.recordsCreated = 0)
    (hcounts : t.staging.options.countsActivity = true) :
    Counters.GrowBy { n with recordsCreated := (openingsIn calls).length }
      t.staging.counters t'.staging.counters := by
  rw [ha.tallies.counters hcounts, Tally.records_add_of_none hn]
  exact ⟨rfl, rfl, rfl, rfl, rfl, rfl, rfl, rfl⟩

/-- What the ticks grow by. -/
theorem nextTick (ha : Accounted calls n t t') (hn : n.recordsCreated = 0) :
    t'.staging.nextTick = t.staging.nextTick + (openingsIn calls).length := by
  rw [ha.tallies.ticks, Tally.records_add_of_none hn]

end Accounted

/-- **The counters are an exact account of every commit.**  If activity is
    counted and the inner hooks only record, then in every case the records are
    counted that the inner hooks open, each of which takes a tick.

    If one of the first three phases fails, the phases before it are counted as
    successes and this one as a failure.  If the storage does not commit, there
    are three successes.  If it does, five phases have ended, or four without
    logs to write; the outer hooks count as the only failure if there are
    warnings.  Then all calls of inner hooks and all sweeps that call one are
    counted.  Each log with text is offered it once, and what the sink takes is
    counted as reported, and what it refuses as a failure.

    This is so with every pool; `commit` is the case of the committing thread
    alone. -/
theorem commitOn_counts_exactly (pool : Pool) (sink : Sink σ) (storage : Storage σ)
    (validating : Bool) (user : Option Principal) (t : Transaction κ π (Watched κ π σ))
    (hcounts : t.staging.options.countsActivity = true) :
    let hooks := h.watched script
    let start := { t with errors := ∅ }
    let prepared := prepare hooks validating user start
    let done := commitOn pool hooks sink.watched storage.watched validating user t
    ∃ calls n, done.2.events = t.events ++ calls ∧
      Counters.GrowBy n t.staging.counters done.2.staging.counters ∧
      n.recordsCreated = (openingsIn calls).length ∧
      done.2.staging.nextTick = t.staging.nextTick + n.recordsCreated ∧
      (∀ e phase, FailsBefore hooks validating user start e phase →
        done.1 = .error e ∧ n.phasesOk = phase.position ∧ n.phasesFailed = 1) ∧
      (∀ e, prepared.1 = .ok () → (storage.commit prepared.2.world.world).1 = .error e →
        done.1 = .error e ∧ n.phasesOk = 3 ∧ n.phasesFailed = 0) ∧
      ∀ report, done.1 = .ok report →
        CountsSuccess hooks user start prepared.2.staging calls report n := by
  intro hooks start prepared done
  have hfails := prepare_eq_error_iff hooks validating user start
  rcases commitOn_cases pool hooks sink.watched storage.watched validating user t with
    ⟨e, hp, hdone⟩ | ⟨e, hp, hc, hdone⟩ | ⟨hp, hc, hdone⟩
  · -- A phase before the storage fails.
    obtain ⟨phase, hf⟩ := (hfails e).mp hp
    obtain ⟨calls, sweeps, called, hprepared⟩ := prepare_accounted_of_fails h script hf
    let rolledBack : Event κ π := .rolledBack (storage.rollback prepared.2.world.world).1
    let n : Tally := ⟨0, sweeps, called, phase.position, 1, 0, 0, 0⟩
    have hall : Accounted (calls ++ [rolledBack]) n start done.2 := by
      rw [show done.2 = _ from congrArg Prod.snd hdone]
      exact (hprepared.note _ rfl).clear t.errors
    have hresult : done.1 = .error e := congrArg Prod.fst hdone
    refine ⟨_, _, hall.events, hall.growBy rfl hcounts, rfl, hall.nextTick rfl, ?_, ?_, ?_⟩
    · intro e' phase' hf'
      obtain ⟨rfl, rfl⟩ := hf.unique hf'
      exact ⟨hresult, rfl, rfl⟩
    · intro e' hok
      cases hp.symm.trans hok
    · intro report hreport
      cases hresult.symm.trans hreport
  · -- The storage does not commit.
    obtain ⟨calls, sweeps, hprepared, -⟩ := prepare_accounted_of_ok h script hp
    let refused : Event κ π := .committed (storage.commit prepared.2.world.world).1
    let n : Tally := ⟨0, sweeps, calls.countP Event.isInner, 3, 0, 0, 0, 0⟩
    have hall : Accounted (calls ++ [refused]) n start done.2 := by
      rw [show done.2 = _ from congrArg Prod.snd hdone]
      exact (hprepared.note _ rfl).clear t.errors
    have hresult : done.1 = .error e := congrArg Prod.fst hdone
    refine ⟨_, _, hall.events, hall.growBy rfl hcounts, rfl, hall.nextTick rfl, ?_, ?_, ?_⟩
    · intro e' phase hf
      cases hp.symm.trans ((hfails e').mpr ⟨phase, hf⟩)
    · intro e' _ hc'
      obtain rfl : e = e' := Except.error.inj (hc.symm.trans hc')
      exact ⟨hresult, rfl, rfl⟩
    · intro report hreport
      cases hresult.symm.trans hreport
  · -- The storage commits, and the outer hooks and the logs follow.
    obtain ⟨calls, n, hconcluded, hnone, hsuccess⟩ :=
      concludeOn_accounted h script pool sink storage hp
    have hall : Accounted calls n start done.2 := by
      rw [show done.2 = _ from congrArg Prod.snd hdone]
      exact hconcluded.clear t.errors
    refine ⟨_, _, hall.events, hall.growBy hnone hcounts, rfl, hall.nextTick hnone, ?_, ?_, ?_⟩
    · intro e phase hf
      cases hp.symm.trans ((hfails e).mpr ⟨phase, hf⟩)
    · intro e _ hc'
      cases hc.symm.trans hc'
    · intro report hreport
      obtain rfl := Except.ok.inj ((congrArg Prod.fst hdone).symm.trans hreport)
      exact { hsuccess with }

/-- One user has created a node, and two workers are there to write the logs. -/
def countedLedger : Transaction Unit Unit (Watched Unit Unit MemoryLog) :=
  reached (idleHooks.nested idleScript idlePlan pickySink 0) pickySink
    { auditEnabled := true, userAuditEnabled := true, workers := some 2, countsActivity := true }
    ∅ ∅ [.record (.create (some ⟨"u-2", "Eve"⟩) bob)]

/-- The inner hook of the node writes to another one, whose outer hook then
    fails.  The log of the user is refused, and those of the nodes are written. -/
theorem commitOn_counts_exactly_of_refusal :
    let done := commitOn .backwards (uneasyHooks.watched cascadeScript)
      pickySink.watched willingStorage.watched true none countedLedger
    ∃ n : Tally, Counters.GrowBy n countedLedger.staging.counters done.2.staging.counters ∧
      n.recordsCreated = 1 ∧ n.innerHooks = 2 ∧ n.innerSweeps = 2 ∧
      n.phasesOk = 4 ∧ n.phasesFailed = 1 ∧ n.logAppends = 2 ∧ n.logFailures = 1 := by
  intro done
  obtain ⟨report, hreport, hwarnings, hwritten⟩ : ∃ report, done.1 = .ok report ∧
      report.warnings.isEmpty = false ∧ report.logsWritten = 2 := ⟨_, rfl, rfl, rfl⟩
  obtain ⟨calls, n, hevents, hgrow, hrecords, -, -, -, hsuccess⟩ :=
    commitOn_counts_exactly uneasyHooks cascadeScript .backwards pickySink
      willingStorage true none countedLedger rfl
  have hn := hsuccess report hreport
  have hcalls : calls = done.2.events.drop countedLedger.events.length := by
    rw [show done.2.events = countedLedger.events ++ calls from hevents, List.drop_left]
  have hopened : n.recordsCreated = 1 := by
    rw [hrecords, hcalls]
    rfl
  have hhooks : n.innerHooks = 2 := by
    rw [hn.innerHooks, hcalls]
    rfl
  have hsweeps : 2 = n.innerSweeps :=
    (hn.innerSweeps 2).mp ⟨_, _, .more rfl (.more rfl .none), rfl⟩
  have hfailed : n.phasesFailed = 1 := by
    rw [hn.failures, hwarnings]
    rfl
  have hphases : n.phasesOk + n.phasesFailed = 5 := hn.phases
  have happends : n.logAppends = 2 := hn.logAppends.trans hwritten
  have hlogs : n.logAppends + n.logFailures = 3 := hn.logs
  exact ⟨n, hgrow, hopened, hhooks, hsweeps.symm, by omega, hfailed, happends, by omega⟩

end Transaction

end ChangeLedger
