/-
  ChangeLedger.Transaction.Phase — the five phases of a commit.
-/

namespace ChangeLedger

/-- The phases of a commit, in the order they run. -/
inductive Phase where
  /-- Inner hooks, until no record is dirty. -/
  | innerHooks
  /-- Validation and indexing. -/
  | validation
  /-- The deferred actions. -/
  | postProcessing
  /-- Outer hooks, after the storage commit. -/
  | outerHooks
  /-- The drain of the audit lines. -/
  | changeLog
  deriving DecidableEq

/-- The name of a phase. -/
def Phase.display : Phase → String
  | innerHooks => "inner-callbacks"
  | validation => "validation"
  | postProcessing => "post-processing"
  | outerHooks => "outer-callbacks"
  | changeLog => "change-log"

end ChangeLedger
