/-
  ChangeLedger.Proofs.ValidationPrefix — validation stops at the first failure.

  Validation goes through the records in the order of first touch.  Nothing is
  asked of the records behind one that fails, so that the calls are those of a
  prefix of the checks.

  Main results:
    * `Transaction.validation_stops_at_first_failure` — the second phase,
      whatever is staged.
-/
import ChangeLedger.Proofs.DrainExactness
import ChangeLedger.Proofs.History
import ChangeLedger.Proofs.RecordChecks
import ChangeLedger.Proofs.References

namespace ChangeLedger

variable {κ π σ : Type}

namespace Transaction

variable (h : Hooks κ π σ) (script : InnerScript κ π σ) (validating : Bool)

/-- **Validation asks the records in order, up to the first that fails.**  At
    every moment of every reachable ledger the records are in the order of first
    touch.  Whatever the staging area, the error buffer and the hooks are, there
    is one check for each record, in this order: of an object that is not out of
    date, the validator is asked exactly if validation is wanted and the object
    was created or modified, and the index is called exactly if the validator
    did not reject the record.  The phase makes the calls of the checks up to
    the first that fails, and no others; it ends with that failure, or well if
    there is none.  A record is rejected with exactly the tokens that its
    validator added.  Of the staging area, only the counters change. -/
theorem validation_stops_at_first_failure (plan : InnerPlan κ π σ) (depth : Nat) (sink : Sink σ)
    (options : Options) (schema : Schema) (world : σ) (moves : List (Move κ π σ))
    (h' : Hooks κ π σ) (script' : InnerScript κ π σ) :
    (∀ s past,
      (reached (h.nested script plan sink depth) sink options schema world moves).Moment s past →
      s.records.Pairwise fun r r' => r.firstTouch < r'.firstTouch) ∧
    ∀ t : Transaction κ π (Watched κ π σ),
      let checks := recordChecks h' validating t.staging.records (t.errors, t.world.world)
      let out := validate (h'.watched script') validating t
      checks.map RecordCheck.record = t.staging.records ∧
      (∀ c ∈ checks, c.IsComplete validating) ∧
      (∃ made, StopsAtFailure RecordCheck.FailsWith checks made out.1 ∧
        out.2.events = t.events ++ made.flatMap RecordCheck.calls) ∧
      (∀ c ∈ checks, ∀ ts, c.after = c.before.addAll ts → c.added = ⟨ts⟩) ∧
      out.2.staging = { t.staging with counters := out.2.staging.counters } := by
  refine ⟨fun s past hm => ?_, fun t => ?_⟩
  · have hordered : s.Ordered := keptAlong_ordered.atMoments h script plan depth sink
      (ordered_new options schema) world moves hm
    exact hordered.ascend
  · intro checks out
    obtain ⟨made, hmade, hevents, hstaging⟩ :=
      validateRecords_checked h' script' validating t.staging.records t
    refine ⟨?_, ?_, ⟨made, hmade, hevents⟩, ?_, ?_⟩
    · exact map_callsInTurn (record_recordCheck h' validating) _ _
    · exact forall_mem_callsInTurn (isComplete_recordCheck h' validating) _ _
    · exact fun c _ ts hts => RecordCheck.added_of_addAll hts
    · -- The end of the phase is counted, and nothing else happens to the area.
      have hcounted : out.2.staging
          = t.staging.count fun c => c.phaseFinished .validation 0 (succeeded out.1) :=
        congrArg (fun s : Staging κ π =>
          s.count fun c => c.phaseFinished .validation 0 (succeeded out.1)) hstaging
      rw [hcounted]
      exact Staging.count_eq _ _

/-- One node is out of date.  The validator of every other node adds a token,
    and only one of them accepts the changes. -/
def strictHooks : Hooks Unit Unit MemoryLog :=
  { idleHooks with
    isStale := fun object _ => object.id = ada.id
    validate := fun r errors w => (r.id = bob.id, errors.add ⟨r.object.uuid, none, "doubtful"⟩, w) }

/-- Five nodes are recorded.  The first is passed by, the second is accepted
    and indexed, the third was only reached by propagation and is indexed, and
    the fourth is rejected with its own token.  Nothing is asked of the fifth. -/
theorem validation_stops_at_first_failure_of_five :
    let node : Nat → Tracked Unit := fun n => ⟨⟨.node, n⟩, "n-" ++ toString n, ()⟩
    let t := reached (idleHooks.nested idleScript idlePlan MemoryLog.sink 0) MemoryLog.sink {} ∅ ∅
      [.record (.create none ada), .record (.create none bob), .record (.propagate (node 3)),
        .record (.create none (node 4)), .record (.create none (node 5))]
    let checks := recordChecks strictHooks true t.staging.records (t.errors, t.world.world)
    let out := validate (strictHooks.watched idleScript) true t
    out.1 = .error (.validation (node 4).id ⟨[⟨"n-4", none, "doubtful"⟩]⟩) ∧
    checks.map RecordCheck.verdict? = [none, some true, none, some false, some false] ∧
    (out.2.events.filter Event.isCheck).length = 4 ∧
    t.staging.records.Pairwise (fun r r' => r.firstTouch < r'.firstTouch) ∧
    (∃ c ∈ checks, c.record.id = (node 4).id ∧ c.IsComplete true ∧
      c.added = ⟨[⟨"n-4", none, "doubtful"⟩]⟩) ∧
    ∃ made, StopsAtFailure RecordCheck.FailsWith checks made out.1 ∧
      out.2.events = t.events ++ made.flatMap RecordCheck.calls := by
  intro node t checks out
  obtain ⟨hordered, hphase⟩ :=
    validation_stops_at_first_failure idleHooks idleScript true idlePlan 0 MemoryLog.sink {} ∅ ∅
      [.record (.create none ada), .record (.create none bob), .record (.propagate (node 3)),
        .record (.create none (node 4)), .record (.create none (node 5))] strictHooks idleScript
  obtain ⟨-, hcomplete, hstops, hadded, -⟩ := hphase t
  refine ⟨rfl, rfl, rfl, hordered t.staging (historyOf t.events) .now, ?_, hstops⟩
  have hrejected : _ ∈ checks := List.mem_of_getElem? (i := 3) rfl
  exact ⟨_, hrejected, rfl, hcomplete _ hrejected, hadded _ hrejected _ rfl⟩

end Transaction

end ChangeLedger
