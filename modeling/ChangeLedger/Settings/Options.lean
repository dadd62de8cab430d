/-
  ChangeLedger.Settings.Options — how a ledger audits and commits.
-/
import ChangeLedger.Text.Duration

namespace ChangeLedger

/-- The options that a ledger is created with. -/
structure Options where
  /-- Whether the logs of objects are written. -/
  auditEnabled : Bool := false
  /-- Whether the logs of users are written. -/
  userAuditEnabled : Bool := false
  /-- Number of threads that write logs; without any the committing thread
      writes them itself. -/
  workers : Option Nat := none
  /-- A phase that takes longer than this many milliseconds is reported. -/
  slowPhaseMillis : Nat := 1000
  /-- Number of sweeps after which the inner hooks have to be settled. -/
  maxSweeps : Nat := 10000
  /-- Whether activity is counted. -/
  countsActivity : Bool := false
  /-- The time stamp of audit entries, in milliseconds since the epoch.  This one
      value stands for every reading of the clock: each entry reads it anew, but
      all entries of a ledger have the same time here. -/
  auditTime : Int := 1700000000000
  deriving DecidableEq

namespace Options

instance : Inhabited Options := ⟨{}⟩

/-- Whether any kind of log is written. -/
def anyAudit (o : Options) : Bool := o.auditEnabled || o.userAuditEnabled

/-- Sets the number of sweeps; at least one is always made. -/
def withMaxSweeps (o : Options) (sweeps : Nat) : Options := { o with maxSweeps := max sweeps 1 }

/-- The text of a truth value in diagnostic texts. -/
def flag (b : Bool) : String := if b then "true" else "false"

/-- The text of the options in diagnostic texts. -/
def diagnostic (o : Options) : String :=
  "QueueOptions \x7b audit_enabled: " ++ flag o.auditEnabled ++
    ", user_audit_enabled: " ++ flag o.userAuditEnabled ++
    ", worker_pool: " ++ flag o.workers.isSome ++
    ", slow_phase_threshold: " ++ Duration.display o.slowPhaseMillis ++
    ", max_fixpoint_sweeps: " ++ toString o.maxSweeps ++ ", .. \x7d"

end Options

end ChangeLedger
