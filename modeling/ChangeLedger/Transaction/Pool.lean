/-
  ChangeLedger.Transaction.Pool — the workers that write the change logs.

  With a pool of workers, the appends of one drain are handed to whichever
  worker is free.  They reach the sink one by one still, but in an order that
  the pool decides.  A single append needs no second worker.
-/
import ChangeLedger.Audit.LogName
import ChangeLedger.Settings.Options

namespace ChangeLedger

/-- The order in which the workers of a pool make the appends of a drain.
    Every append is made once. -/
structure Pool where
  /-- The appends, in the order in which they are made. -/
  arrange : List (LogName × String) → List (LogName × String)
  /-- None is lost and none is made twice. -/
  perm : ∀ writes, (arrange writes).Perm writes

namespace Pool

/-- The committing thread alone, which makes the appends as they come. -/
def inline : Pool := ⟨id, fun _ => List.Perm.refl _⟩

/-- Workers that make the appends from the last to the first. -/
def backwards : Pool := ⟨List.reverse, List.reverse_perm⟩

/-- The order of the appends under the given options. -/
def arranged (pool : Pool) (o : Options) (writes : List (LogName × String)) :
    List (LogName × String) :=
  if o.workers.isSome && 1 < writes.length then pool.arrange writes else writes

variable (pool : Pool) (o : Options) (writes : List (LogName × String))

/-- Whatever the options are, every append is made once. -/
theorem arranged_perm : (pool.arranged o writes).Perm writes := by
  unfold arranged
  split
  · exact pool.perm writes
  · exact List.Perm.refl writes

@[simp] theorem arranged_inline : Pool.inline.arranged o writes = writes := ite_self writes

/-- Without workers, the pool makes no difference. -/
theorem arranged_of_no_workers {o : Options} (h : o.workers = none) :
    pool.arranged o writes = writes := by
  unfold arranged
  rw [h]
  rfl

end Pool

end ChangeLedger
