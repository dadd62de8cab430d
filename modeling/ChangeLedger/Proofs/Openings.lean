/-
  ChangeLedger.Proofs.Openings — what recordings count, and what they ignore.

  A recording counts the records that it opens, one tick each, and nothing
  else.  So the counters after a recording follow from the ticks, and a staging
  area is known from four parts: its records and ticks, what stands beside
  them, the options and the counters.  None of the parts reads the cap on the
  sweeps or the workers; a recording does the same whatever they are.

  Main results:
    * `Staging.opened_after` — the ticks and the counters after a recording.
    * `Staging.tuned_after` — recording and setting these options commute.
-/
import ChangeLedger.Proofs.Silence
import Mathlib.Logic.Function.Iterate

namespace ChangeLedger

variable {κ π : Type}

namespace Staging

/-! ## Opened records -/

/-- Between two staging areas `n` records were opened, and counted if activity
    is counted at all. -/
structure Opened (n : Nat) (s s' : Staging κ π) : Prop where
  ticks : s'.nextTick = s.nextTick + n
  options : s'.options = s.options
  counters : s'.counters =
    if s.options.countsActivity then Counters.recordCreated^[n] s.counters else s.counters

/-- Nothing is opened by what leaves the ticks, the options and the counters
    alone. -/
theorem Opened.of_eq {s s' : Staging κ π} (hticks : s'.nextTick = s.nextTick)
    (hoptions : s'.options = s.options) (hcounters : s'.counters = s.counters) :
    Opened 0 s s' := by
  refine ⟨hticks, hoptions, ?_⟩
  rw [hcounters]
  split <;> rfl

theorem Opened.trans {n m : Nat} {s s' s'' : Staging κ π} (h : Opened n s s')
    (h' : Opened m s' s'') : Opened (n + m) s s'' where
  ticks := by rw [h'.ticks, h.ticks, Nat.add_assoc]
  options := h'.options.trans h.options
  counters := by
    rw [h'.counters, h.options, h.counters, Nat.add_comm n m, Function.iterate_add_apply]
    split <;> rfl

theorem opened_touch (s : Staging κ π) (object : Tracked κ) (initial : ChangeVerb)
    (f : Record κ → Record κ) : ∃ n, Opened n s (s.touch object initial f) := by
  unfold touch
  split
  next => exact ⟨0, .of_eq rfl rfl rfl⟩
  next =>
    refine ⟨1, ?_, options_count _ _, ?_⟩
    · unfold count
      split <;> rfl
    · unfold count
      dsimp only
      split <;> rfl

/-- A recording counts the records that it opens, and nothing else. -/
theorem opened_after (s : Staging κ π) (m : Mutation κ π) : ∃ n, Opened n s (s.after m) := by
  have hacross : HoldsAcross fun s s' : Staging κ π => ∃ n, Opened n s s' := by
    refine ⟨?_, opened_touch, ?_, fun s => ⟨0, .of_eq rfl rfl rfl⟩⟩
    · rintro s s' s'' ⟨n, hn⟩ ⟨k, hk⟩
      exact ⟨n + k, hn.trans hk⟩
    · intro s s' _ hticks hoptions hcounters
      exact ⟨0, .of_eq hticks hoptions hcounters⟩
  exact hacross.after s m

theorem opened_afterAll (s : Staging κ π) (ms : List (Mutation κ π)) :
    ∃ n, Opened n s (s.afterAll ms) := by
  induction ms generalizing s with
  | nil => exact ⟨0, .of_eq rfl rfl rfl⟩
  | cons m rest ih =>
    obtain ⟨n, hn⟩ := opened_after s m
    obtain ⟨k, hk⟩ := ih (s.after m)
    exact ⟨_, hn.trans hk⟩

theorem innerSweeps_recordCreated (n : Nat) (c : Counters) :
    (Counters.recordCreated^[n] c).innerSweeps = c.innerSweeps := by
  induction n generalizing c with
  | zero => rfl
  | succ n ih => exact ih c.recordCreated

/-- Recordings count no sweep. -/
theorem Opened.innerSweeps {n : Nat} {s s' : Staging κ π} (h : Opened n s s') :
    s'.counters.innerSweeps = s.counters.innerSweeps := by
  rw [h.counters]
  split
  · exact innerSweeps_recordCreated n s.counters
  · rfl

/-! ## Options that recordings do not read -/

/-- A staging area is known from its parts. -/
theorem ext_parts {s s' : Staging κ π} (hframe : s.frame = s'.frame) (htable : s.table = s'.table)
    (hoptions : s.options = s'.options) (hcounters : s.counters = s'.counters) : s = s' := by
  cases s
  cases s'
  cases htable
  cases hoptions
  cases hcounters
  injection hframe
  subst_vars
  rfl

/-- The staging area with another cap on the sweeps and other workers. -/
def tuned (cap : Nat) (workers : Option Nat) (s : Staging κ π) : Staging κ π :=
  { s with options := { s.options with maxSweeps := cap, workers } }

/-- The touches of a recording are those that it makes with any other cap and
    any other workers. -/
theorem touches_tuned (cap : Nat) (workers : Option Nat) (s : Staging κ π) (m : Mutation κ π) :
    m.touches (s.tuned cap workers) = m.touches s := by
  cases m <;> rfl

/-- A recording does the same under every cap and with all workers. -/
theorem tuned_after (cap : Nat) (workers : Option Nat) (s : Staging κ π) (m : Mutation κ π) :
    (s.tuned cap workers).after m = (s.after m).tuned cap workers := by
  have htable : ((s.tuned cap workers).after m).table = (s.after m).table := by
    rw [table_after, table_after, touches_tuned]
    rfl
  have hframe : ((s.tuned cap workers).after m).frame = (s.after m).frame :=
    frame_after (show (s.tuned cap workers).frame = s.frame from rfl) m
  refine ext_parts hframe htable ?_ ?_
  · rw [options_after]
    show _ = { (s.after m).options with maxSweeps := cap, workers }
    rw [options_after]
    rfl
  · -- As many records are opened, since the ticks are the same.
    obtain ⟨n, hn⟩ := opened_after s m
    obtain ⟨n', hn'⟩ := opened_after (s.tuned cap workers) m
    have hticks : ((s.tuned cap workers).after m).nextTick = (s.after m).nextTick :=
      congrArg RecordTable.nextTick htable
    have hsame : n' = n := by
      have h := hn.ticks
      have h' : ((s.tuned cap workers).after m).nextTick = s.nextTick + n' := hn'.ticks
      omega
    rw [hn'.counters, hsame]
    exact hn.counters.symm

/-- The staging area with another cap on the sweeps. -/
def capped (cap : Nat) (s : Staging κ π) : Staging κ π :=
  { s with options := { s.options with maxSweeps := cap } }

theorem capped_count (cap : Nat) (s : Staging κ π) (f : Counters → Counters) :
    (s.count f).capped cap = (s.capped cap).count f := by
  unfold count
  rw [show (s.capped cap).options.countsActivity = s.options.countsActivity from rfl]
  split <;> rfl

theorem capped_afterAll (cap : Nat) (s : Staging κ π) (ms : List (Mutation κ π)) :
    (s.capped cap).afterAll ms = (s.afterAll ms).capped cap := by
  induction ms generalizing s with
  | nil => rfl
  | cons m rest ih =>
    have hstep : (s.capped cap).after m = (s.after m).capped cap := by
      show (s.tuned cap s.options.workers).after m
        = (s.after m).tuned cap (s.after m).options.workers
      rw [tuned_after, options_after]
    show ((s.capped cap).after m).afterAll rest = _
    rw [hstep, ih]
    rfl

end Staging

end ChangeLedger
