/-
  ChangeLedger.Transaction.LogDrain — writing the change logs.

  The fifth phase takes the audit entries of all records and appends their
  texts to the logs of the objects and of the acting users, one append a log.
  Appends that fail are counted; they fail nothing else.
-/
import ChangeLedger.Audit.Drain
import ChangeLedger.Transaction.Hooks
import ChangeLedger.Transaction.Pool

namespace ChangeLedger

variable {κ π σ : Type}

namespace Staging

/-- The texts for the logs of the objects, record by record. -/
def objectChunks (s : Staging κ π) : List (LogName × String) :=
  s.records.map fun r => (⟨LogKind.ofObject r.id.kind, r.uuid⟩, r.objectLog)

/-- The texts for the logs of the users, record by record. -/
def userChunks (s : Staging κ π) : List (LogName × String) :=
  s.records.flatMap fun r => r.userLogs.entries.map fun e => (⟨.user, e.1⟩, e.2)

/-- The texts that the options want written. -/
def auditChunks (s : Staging κ π) : List (LogName × String) :=
  (if s.options.auditEnabled then s.objectChunks else []) ++
    if s.options.userAuditEnabled then s.userChunks else []

/-- What a drain appends, one text a log, in the order in which the pool makes
    the appends. -/
def appends (pool : Pool) (s : Staging κ π) : List (LogName × String) :=
  pool.arranged s.options (PendingWrites.ofChunks s.auditChunks).entries

/-- Whatever the pool, a drain makes the appends that the texts are merged to. -/
theorem appends_perm (pool : Pool) (s : Staging κ π) :
    (s.appends pool).Perm (PendingWrites.ofChunks s.auditChunks).entries :=
  pool.arranged_perm s.options _

/-- Drops the audit entries of all records. -/
def dropPushes (s : Staging κ π) : Staging κ π :=
  { s with records := s.records.map Record.dropPushes }

/-- Counts the outcome of an append. -/
def countAppend (s : Staging κ π) (o : AppendOutcome) : Staging κ π :=
  s.count fun c => if o.accepted then c.logAppended o.bytes else c.logFailed

end Staging

namespace Transaction

/-- The phase of the change logs, with a pool for the appends; the answer is
    the number of successful appends.  It is skipped without auditing. -/
def drainLogsOn (pool : Pool) (sink : Sink σ) (t : Transaction κ π σ) :
    Nat × Transaction κ π σ :=
  if t.staging.logEnabled && t.staging.options.anyAudit then
    let (outcomes, world) := sink.appendAll (t.staging.appends pool) t.world
    -- what a sink refuses is lost; it is not kept for a second attempt
    let staging := outcomes.foldl Staging.countAppend t.staging.dropPushes
    (outcomes.countP AppendOutcome.accepted,
      { t with staging, world }.finishPhase .changeLog true)
  else (0, t)

/-- The phase of the change logs on the committing thread alone. -/
def drainLogs (sink : Sink σ) : Transaction κ π σ → Nat × Transaction κ π σ :=
  drainLogsOn .inline sink

theorem drainLogsOn_on (pool : Pool) (sink : Sink σ) {t : Transaction κ π σ}
    (hon : (t.staging.logEnabled && t.staging.options.anyAudit) = true) :
    let done := sink.appendAll (t.staging.appends pool) t.world
    drainLogsOn pool sink t = (done.1.countP AppendOutcome.accepted,
      { staging := done.1.foldl Staging.countAppend t.staging.dropPushes
        errors := t.errors
        world := done.2 : Transaction κ π σ }.finishPhase .changeLog true) := by
  unfold drainLogsOn
  rw [if_pos hon]

theorem drainLogsOn_off (pool : Pool) (sink : Sink σ) {t : Transaction κ π σ}
    (hoff : ¬ (t.staging.logEnabled && t.staging.options.anyAudit) = true) :
    drainLogsOn pool sink t = (0, t) := if_neg hoff

/-- Without workers, every pool drains as the committing thread does. -/
theorem drainLogsOn_of_no_workers (pool : Pool) (sink : Sink σ) {t : Transaction κ π σ}
    (h : t.staging.options.workers = none) : drainLogsOn pool sink t = drainLogs sink t := by
  have happends : t.staging.appends pool = t.staging.appends .inline :=
    (pool.arranged_of_no_workers _ h).trans (Pool.arranged_inline _ _).symm
  unfold drainLogs drainLogsOn
  rw [happends]

end Transaction

end ChangeLedger
