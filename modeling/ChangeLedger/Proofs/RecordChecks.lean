/-
  ChangeLedger.Proofs.RecordChecks — what validation asks of the records.

  Validation asks up to three questions of a record: is the object out of date,
  does its validator accept the changes, and can its indexes be brought up to
  date?  A question is not asked if the one before it settles the matter.  The
  questions and the answers are the check of the record.

  What would be asked of all records, if none ended the walk, are their checks
  (`recordChecks`).  Validation makes the calls of the checks up to the first
  that fails, and ends with that failure.

  Main results:
    * `isComplete_recordCheck` — a check asks what there is to ask.
    * `validateRecord_checked` — one turn makes the calls of one check.
    * `validateRecords_checked` — the walk makes those up to the first that
      fails.
-/
import ChangeLedger.Proofs.Chronicle
import ChangeLedger.Proofs.FirstFailure

namespace ChangeLedger

variable {κ π σ : Type}

/-! ## The check of one record -/

/-- What is asked of one record, and what is answered. -/
structure RecordCheck (κ : Type) where
  /-- The record. -/
  record : Record κ
  /-- Whether the object is out of date. -/
  stale : Bool
  /-- What the validator answers, if it is asked. -/
  verdict? : Option Bool
  /-- The error buffer before the validator is asked. -/
  before : ErrorBuffer
  /-- The error buffer afterwards. -/
  after : ErrorBuffer
  /-- What the index answers, if it is called. -/
  indexed? : Option (Except Failure Unit)

namespace RecordCheck

/-- The tokens that the validator added. -/
def added (c : RecordCheck κ) : ErrorTokens := c.after.since c.before.size

/-- The calls of a check: the validator and then the index, as far as they are
    called. -/
def calls (c : RecordCheck κ) : List (Event κ π) :=
  (c.verdict?.map (Event.validated c.record)).toList ++
    (c.indexed?.map (Event.indexed c.record)).toList

/-- How a check ends. -/
def answer (c : RecordCheck κ) : Except Failure Unit :=
  if c.verdict? = some false then .error (.validation c.record.id c.added)
  else c.indexed?.getD (.ok ())

/-- A check fails if the validator rejects the record, with the tokens that it
    added, or if the index fails, with what the index answers. -/
inductive FailsWith (c : RecordCheck κ) : Failure → Prop where
  /-- The record is rejected. -/
  | rejected (hverdict : c.verdict? = some false) : c.FailsWith (.validation c.record.id c.added)
  /-- The record cannot be indexed. -/
  | unindexed {e : Failure} (hindexed : c.indexed? = some (.error e)) : c.FailsWith e

/-- Of an object that is not out of date, the validator is asked exactly if
    that is wanted and the object was created or modified, and the index is
    called exactly if the validator did not reject the record.  Nothing is asked
    of other objects. -/
structure IsComplete (c : RecordCheck κ) (validating : Bool) : Prop where
  validator : c.verdict?.isSome = true ↔
    c.stale = false ∧ validating = true ∧ (c.record.verb = .create ∨ c.record.verb = .modify)
  index : c.indexed?.isSome = true ↔ c.stale = false ∧ c.verdict? ≠ some false

/-- The tokens that a validator adds are told from those that were there
    before. -/
theorem added_of_addAll {c : RecordCheck κ} {ts : List ErrorToken}
    (h : c.after = c.before.addAll ts) : c.added = ⟨ts⟩ := by
  unfold added
  rw [h, ErrorBuffer.since_addAll]

/-- A check that asks what it has to fails with what it ends with. -/
theorem IsComplete.failsWith_iff {c : RecordCheck κ} {validating : Bool}
    (hc : c.IsComplete validating) {e : Failure} : c.FailsWith e ↔ c.answer = .error e := by
  unfold answer
  constructor
  · intro hfails
    cases hfails with
    | rejected hverdict => rw [if_pos hverdict]
    | unindexed hindexed =>
      -- The index was called, so that the record was not rejected.
      have hnot : c.verdict? ≠ some false := (hc.index.mp (Option.isSome_of_mem hindexed)).2
      rw [if_neg hnot, hindexed, Option.getD_some]
  · intro hanswer
    split at hanswer
    next hverdict => exact Except.error.inj hanswer ▸ .rejected hverdict
    next =>
      cases hi : c.indexed? with
      | none => rw [hi] at hanswer; cases hanswer
      | some answer =>
        rw [hi, Option.getD_some] at hanswer
        exact .unindexed (hanswer ▸ hi)

/-- A check that ends well rejects nothing. -/
theorem not_rejected_of_ok {c : RecordCheck κ} (h : c.answer = .ok ()) :
    c.verdict? ≠ some false := by
  intro hrejected
  unfold answer at h
  rw [if_pos hrejected] at h
  cases h

end RecordCheck

theorem isValidated_iff (verb : ChangeVerb) :
    Transaction.isValidated verb = true ↔ verb = .create ∨ verb = .modify := by
  cases verb <;> simp [Transaction.isValidated]

/-! ## The checks of all records -/

section

variable (h : Hooks κ π σ) (validating : Bool)

/-- Asks the validator of a record, if that is wanted. -/
def verdictOn (r : Record κ) (errors : ErrorBuffer) (world : σ) : Option Bool × ErrorBuffer × σ :=
  if validating && Transaction.isValidated r.verb then
    (h.validate r errors world).map some id
  else (none, errors, world)

/-- Calls the index for a record, unless the record is rejected. -/
def indexingOf (r : Record κ) (verdict? : Option Bool) (world : σ) :
    Option (Except Failure Unit) × σ :=
  if verdict? = some false then (none, world) else (h.index r world).map some id

/-- The check of one record, and the error buffer and the world after it. -/
def recordCheck (r : Record κ) (s : ErrorBuffer × σ) : RecordCheck κ × (ErrorBuffer × σ) :=
  if h.isStale r.object s.2 then
    ({ record := r, stale := true, verdict? := none, before := s.1, after := s.1,
       indexed? := none }, s)
  else
    let verdict := verdictOn h validating r s.1 s.2
    let indexing := indexingOf h r verdict.1 verdict.2.2
    ({ record := r, stale := false, verdict? := verdict.1, before := s.1, after := verdict.2.1,
       indexed? := indexing.1 }, verdict.2.1, indexing.2)

/-- The checks of several records, one after the other. -/
def recordChecks (rs : List (Record κ)) (s : ErrorBuffer × σ) : List (RecordCheck κ) :=
  callsInTurn (recordCheck h validating) rs s

theorem isSome_verdictOn (r : Record κ) (errors : ErrorBuffer) (world : σ) :
    (verdictOn h validating r errors world).1.isSome = true ↔
      validating = true ∧ (r.verb = .create ∨ r.verb = .modify) := by
  rw [← isValidated_iff, ← Bool.and_eq_true_iff]
  unfold verdictOn
  cases validating && Transaction.isValidated r.verb <;> simp

theorem isSome_indexingOf (r : Record κ) (verdict? : Option Bool) (world : σ) :
    (indexingOf h r verdict? world).1.isSome = true ↔ verdict? ≠ some false := by
  unfold indexingOf
  split <;> simp_all

theorem record_recordCheck (r : Record κ) (s : ErrorBuffer × σ) :
    (recordCheck h validating r s).1.record = r := by
  unfold recordCheck
  split <;> rfl

theorem stale_recordCheck (r : Record κ) (s : ErrorBuffer × σ) :
    (recordCheck h validating r s).1.stale = h.isStale r.object s.2 := by
  unfold recordCheck
  split
  next hstale => exact hstale.symm
  next hcurrent => exact (eq_false_of_ne_true hcurrent).symm

/-- Every check asks what there is to ask. -/
theorem isComplete_recordCheck (r : Record κ) (s : ErrorBuffer × σ) :
    (recordCheck h validating r s).1.IsComplete validating := by
  unfold recordCheck
  split
  next => constructor <;> simp
  next =>
    refine ⟨?_, ?_⟩
    · show (verdictOn h validating r s.1 s.2).1.isSome = true ↔ _
      rw [isSome_verdictOn]
      exact (and_iff_right rfl).symm
    · show (indexingOf h r _ _).1.isSome = true ↔ _
      rw [isSome_indexingOf]
      exact (and_iff_right rfl).symm

end

/-! ## The walk -/

namespace Transaction

variable (h : Hooks κ π σ) (script : InnerScript κ π σ) (validating : Bool)

/-- Noting nothing changes nothing. -/
theorem world_append_nil (t : Transaction κ π (Watched κ π σ)) :
    { t with world := ⟨t.world.world, t.events ++ []⟩ } = t := by
  rw [List.append_nil]
  rfl

/-- A record is accepted unless the validator is asked and rejects it. -/
theorem accept_watched (r : Record κ) (t : Transaction κ π (Watched κ π σ)) :
    let verdict := verdictOn h validating r t.errors t.world.world
    accept (h.watched script) validating r t =
      (if verdict.1 = some false then
        .error (.validation r.id (verdict.2.1.since t.errors.size)) else .ok (),
      { t with
        errors := verdict.2.1
        world := ⟨verdict.2.2, t.events ++ (verdict.1.map (Event.validated r)).toList⟩ }) := by
  unfold accept verdictOn
  cases validating && isValidated r.verb with
  | true =>
    cases hv : h.validate r t.errors t.world.world with
    | mk accepted after =>
      have hwatched : (h.watched script).validate r t.errors t.world
          = (accepted, after.1, t.world.note after.2 (.validated r accepted)) := by
        simp only [Hooks.watched, Hooks.watchedAfter, hv]
      rw [hwatched]
      cases accepted <;> rfl
  | false => exact congrArg (Prod.mk _) t.world_append_nil.symm

/-- One turn makes the calls of the check, and ends as it does. -/
theorem validateRecord_checked (r : Record κ) (t : Transaction κ π (Watched κ π σ)) :
    let check := recordCheck h validating r (t.errors, t.world.world)
    validateRecords (h.watched script) validating [r] t =
      (check.1.answer,
      { t with
        errors := check.2.1
        world := ⟨check.2.2, t.events ++ check.1.calls⟩ }) := by
  simp only [validateRecords]
  rw [show (h.watched script).isStale r.object t.world = h.isStale r.object t.world.world from rfl,
    accept_watched]
  unfold recordCheck
  cases h.isStale r.object t.world.world with
  | true => exact congrArg (Prod.mk _) t.world_append_nil.symm
  | false =>
    rw [if_neg Bool.false_ne_true, if_neg Bool.false_ne_true]
    obtain ⟨verdict?, errors, world⟩ := verdictOn h validating r t.errors t.world.world
    by_cases hrejected : verdict? = some false
    · subst hrejected
      rfl
    · unfold indexingOf RecordCheck.answer
      dsimp only
      rw [if_neg hrejected, if_neg hrejected, if_neg hrejected]
      let asked : List (Event κ π) := (verdict?.map (Event.validated r)).toList
      have hwatched : (h.watched script).index r ⟨world, t.events ++ asked⟩
          = ((h.index r world).1,
            ⟨(h.index r world).2, t.events ++ (asked ++ [.indexed r (h.index r world).1])⟩) := by
        rw [← List.append_assoc]
        rfl
      dsimp only
      rw [hwatched]
      obtain ⟨answer, world'⟩ := h.index r world
      cases answer <;> rfl

/-- Records are validated one after the other, until one of them fails. -/
theorem validateRecords_cons (h : Hooks κ π σ) (validating : Bool) (r : Record κ)
    (rest : List (Record κ)) (t : Transaction κ π σ) :
    validateRecords h validating (r :: rest) t =
      match validateRecords h validating [r] t with
      | (.error e, t) => (.error e, t)
      | (.ok (), t) => validateRecords h validating rest t := by
  simp only [validateRecords]
  split
  · rfl
  · obtain ⟨accepted, t₁⟩ := accept h validating r t
    cases accepted with
    | error e => rfl
    | ok _ =>
      dsimp only
      obtain ⟨answer, world⟩ := h.index r t₁.world
      cases answer <;> rfl

/-- The walk makes the calls of the checks up to the first that fails. -/
theorem validateRecords_checked (rs : List (Record κ)) (t : Transaction κ π (Watched κ π σ)) :
    let out := validateRecords (h.watched script) validating rs t
    ∃ made, StopsAtFailure RecordCheck.FailsWith
        (recordChecks h validating rs (t.errors, t.world.world)) made out.1 ∧
      out.2.events = t.events ++ made.flatMap RecordCheck.calls ∧
      out.2.staging = t.staging := by
  induction rs generalizing t with
  | nil => exact ⟨[], .nil, (List.append_nil _).symm, rfl⟩
  | cons r rest ih =>
    dsimp only
    rw [validateRecords_cons, validateRecord_checked]
    have hcomplete := isComplete_recordCheck h validating r (t.errors, t.world.world)
    unfold recordChecks callsInTurn
    revert hcomplete
    obtain ⟨c, errors, world⟩ := recordCheck h validating r (t.errors, t.world.world)
    intro (hcomplete : c.IsComplete validating)
    dsimp only
    cases ha : c.answer with
    | error e =>
      refine ⟨[c], .head (hcomplete.failsWith_iff.mpr ha) _, ?_, rfl⟩
      rw [List.flatMap_singleton]
      rfl
    | ok _ =>
      have hc : ∀ e, ¬ c.FailsWith e := by
        intro e hfails
        rw [hcomplete.failsWith_iff, ha] at hfails
        cases hfails
      obtain ⟨made, hmade, hevents, hstaging⟩ :=
        ih { t with errors, world := ⟨world, t.events ++ c.calls⟩ }
      refine ⟨c :: made, hmade.cons hc, ?_, hstaging⟩
      rw [List.flatMap_cons, ← List.append_assoc]
      exact hevents

end Transaction

end ChangeLedger
