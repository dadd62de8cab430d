/-
  ChangeLedger.Proofs.SweepSchedule — whom the first phase calls, and when.

  The records of a sweep are fixed when it begins, but whether one of them is
  visited is decided at its turn.  So a hook that dirties a record which is
  still to come calls its hook in the same sweep; a record whose turn has
  passed, or which was opened in this sweep, waits for the next one.  A call
  that fails is the last of all, and leaves its record dirty.

  Main results:
    * `SweepCalls.visits_dirty`, `SweepCalls.leaves_dirty` — what becomes of a
      record that is dirtied before its turn and after it.
    * `settleWithin_sweeps` — the phase, sweep by sweep.
    * `sweeps_visit_dirty_records_in_turn` — the whole schedule.
-/
import ChangeLedger.Proofs.Cascades
import ChangeLedger.Proofs.InnerCalls

namespace ChangeLedger

variable {κ π σ : Type}

/-! ## Records dirtied during a sweep -/

namespace SweepCalls

variable {script : InnerScript κ π σ} {user : Option Principal} {r : Record κ}
  {rs : List (Record κ)} {t : Transaction κ π σ} {calls earlier later : List (InnerCall κ π σ)}

theorem dropsNothing (hscript : script.DropsNothing) (h : SweepCalls script user rs t calls) :
    ∀ c ∈ calls, c.DropsNothing := by
  intro c hc
  rw [(h.told c hc).2.2]
  exact hscript _ _ _

/-- A record whose hook is not called stays dirty up to its turn. -/
theorem isDirty_atTurn (hscript : script.DropsNothing) (h : SweepCalls script user rs t calls)
    (hcalls : calls = earlier ++ later)
    (hbefore : ∀ c ∈ earlier, c.record.firstTouch < r.firstTouch)
    (hother : ∀ c ∈ calls, c.record.id ≠ r.id)
    (hd : (afterCalls t earlier).staging.isDirty r.id = true) :
    (atTurn t calls r.firstTouch).staging.isDirty r.id = true := by
  have hchained := h.chained
  rw [hcalls] at hchained
  have hlater := hchained.of_append.2
  rw [← List.takeWhile_append_dropWhile
    (p := fun c : InnerCall κ π σ => decide (c.record.firstTouch < r.firstTouch))
    (l := later)] at hlater
  unfold atTurn afterCalls
  rw [hcalls, List.takeWhile_append_of_pos fun c hc => decide_eq_true (hbefore c hc),
    List.foldl_append]
  refine hlater.of_append.1.isDirty (fun c hc => ?_) hd
  have hc' : c ∈ calls := hcalls ▸ List.mem_append_right _ ((List.takeWhile_subset _) hc)
  exact ⟨h.dropsNothing hscript c hc', hother c hc'⟩

/-- A record that is dirty at some time before its turn is visited, unless a
    call before its turn fails. -/
theorem visits_dirty (hscript : script.DropsNothing) (h : SweepCalls script user rs t calls)
    (hcalls : calls = earlier ++ later) (hr : r ∈ rs)
    (hbefore : ∀ c ∈ earlier, c.record.firstTouch < r.firstTouch)
    (hd : (afterCalls t earlier).staging.isDirty r.id = true) :
    (∃ c ∈ calls, c.record.id = r.id) ∨
      ∃ c ∈ calls, c.passed = false ∧ c.record.firstTouch < r.firstTouch := by
  by_cases hvisited : ∃ c ∈ calls, c.record.id = r.id
  · exact .inl hvisited
  · by_cases hfails : ∃ c ∈ calls, c.passed = false ∧ c.record.firstTouch < r.firstTouch
    · exact .inr hfails
    · -- Up to its turn nobody cleans the record, so that it is dirty then.
      have hpassed : ∀ c ∈ calls, c.record.firstTouch < r.firstTouch → c.passed = true :=
        fun c hc hlt => eq_true_of_ne_false fun hp => hfails ⟨c, hc, hp, hlt⟩
      have hturn : (atTurn t calls r.firstTouch).staging.isDirty r.id = true :=
        h.isDirty_atTurn hscript hcalls hbefore (fun c hc hid => hvisited ⟨c, hc, hid⟩) hd
      exact absurd ((h.visited_iff r hr hpassed).mpr hturn) hvisited

/-- A record that a call leaves dirty, and that has no turn behind the call, is
    dirty when the sweep is over. -/
theorem leaves_dirty (hscript : script.DropsNothing) (h : SweepCalls script user rs t calls)
    {c : InnerCall κ π σ} (hc : c ∈ calls) {id : ObjectId}
    (hpast : ∀ r ∈ rs, r.id = id → r.firstTouch ≤ c.record.firstTouch)
    (hd : c.after.staging.isDirty id = true) :
    (afterCalls t calls).staging.isDirty id = true := by
  obtain ⟨earlier, later, hcalls⟩ := List.append_of_mem hc
  have hchained := h.chained
  have hascend := h.ascend
  rw [hcalls] at hchained hascend
  have hlater := (List.pairwise_cons.mp (List.pairwise_append.mp hascend).2.1).1
  rw [hcalls]
  unfold afterCalls
  rw [List.foldl_append]
  refine hchained.of_append.2.2.isDirty (fun c' hc' => ?_) hd
  have hmem : c' ∈ calls := hcalls ▸ List.mem_append_right _ (List.mem_cons_of_mem _ hc')
  refine ⟨h.dropsNothing hscript c' hmem, fun hid => ?_⟩
  obtain ⟨r, hr, hstamp⟩ := h.present c' hmem
  have htick : r.firstTouch = c'.record.firstTouch := congrArg Prod.snd hstamp
  have hle := hpast r hr ((congrArg (fun e => e.1.id) hstamp).trans hid)
  have hlt := hlater c' hc'
  omega

/-- A last call that fails leaves its own record dirty: it has found it dirty,
    and drops nothing. -/
theorem failed_leaves_dirty (hscript : script.DropsNothing)
    (h : SweepCalls script user rs t calls) {c : InnerCall κ π σ} (hcalls : calls = earlier ++ [c])
    (hfailed : c.passed = false) :
    (afterCalls t calls).staging.isDirty c.record.id = true := by
  have hc : c ∈ calls := hcalls ▸ List.mem_append_right _ List.mem_cons_self
  obtain ⟨hfound, hdirty, -⟩ := h.told c hc
  unfold afterCalls
  rw [hcalls, List.foldl_append]
  exact (h.dropsNothing hscript c hc).isDirty_after_failed hfailed
    ((Staging.isDirty_of_find? hfound).trans hdirty)

/-- If no call is made, no record was dirty: its turn would have been the time
    to visit it. -/
theorem clean_of_nil (h : SweepCalls script user rs t []) (hordered : t.staging.Ordered)
    (hr : r ∈ rs) (hrecord : r ∈ t.staging.records) : r.dirty = false := by
  refine eq_false_of_ne_true fun hd => ?_
  have hdirty : t.staging.isDirty r.id = true :=
    (Staging.isDirty_of_find? (hordered.find?_of_mem hrecord)).trans hd
  obtain ⟨c, hc, -⟩ := (h.visited_iff r hr (List.forall_mem_nil _)).mpr hdirty
  cases hc

end SweepCalls

/-! ## Sweeps one after the other -/

/-- One sweep. -/
structure HookSweep (κ π σ : Type) where
  /-- The transaction when it begins. -/
  start : Transaction κ π σ
  /-- The calls that it makes. -/
  calls : List (InnerCall κ π σ)

namespace HookSweep

/-- The transaction when the sweep is over. -/
def finish (s : HookSweep κ π σ) : Transaction κ π σ := afterCalls s.start s.calls

/-- The transaction once the sweep is counted. -/
def counted (s : HookSweep κ π σ) : Transaction κ π σ :=
  s.finish.stage fun s' => s'.count fun c => c.innerSweep s.calls.length

/-- The sweep goes over all records that there are when it begins. -/
def Follows (s : HookSweep κ π σ) (script : InnerScript κ π σ) (user : Option Principal) : Prop :=
  SweepCalls script user s.start.staging.records s.start s.calls

/-- The hook of the object is called. -/
def Visits (s : HookSweep κ π σ) (id : ObjectId) : Prop := ∃ c ∈ s.calls, c.record.id = id

/-- A call fails before the turn of a record with this tick. -/
def FailsBefore (s : HookSweep κ π σ) (tick : Nat) : Prop :=
  ∃ c ∈ s.calls, c.passed = false ∧ c.record.firstTouch < tick

variable {script : InnerScript κ π σ} {user : Option Principal} {s s' : HookSweep κ π σ}
  {c : InnerCall κ π σ}

/-- What a call leaves dirty, and has its turn behind the call, is visited in the
    same sweep, unless a call before its turn fails. -/
theorem Follows.visits_in_turn (hscript : script.DropsNothing) (hs : s.Follows script user)
    (hc : c ∈ s.calls) {r : Record κ} (hr : r ∈ s.start.staging.records)
    (hlt : c.record.firstTouch < r.firstTouch) (hd : c.after.staging.isDirty r.id = true) :
    s.Visits r.id ∨ s.FailsBefore r.firstTouch := by
  obtain ⟨earlier, later, hcalls⟩ := List.append_of_mem hc
  have hascend := hs.ascend
  rw [hcalls, List.pairwise_append] at hascend
  have hsplit : s.calls = (earlier ++ [c]) ++ later := by
    rw [hcalls, List.append_assoc]
    rfl
  refine SweepCalls.visits_dirty hscript hs hsplit hr ?_ ?_
  · intro c' hc'
    obtain hc' | hc' := List.mem_append.mp hc'
    · exact Nat.lt_trans (hascend.2.2 c' hc' c List.mem_cons_self) hlt
    · rw [List.mem_singleton.mp hc']
      exact hlt
  · unfold afterCalls
    rw [List.foldl_append]
    exact hd

/-- What a call leaves dirty, and has no turn behind the call, is visited in the
    next sweep, unless a call before its turn fails. -/
theorem Follows.visits_next (hscript : script.DropsNothing) (hs : s.Follows script user)
    (hs' : s'.Follows script user) (hstart : s'.start = s.counted) (hc : c ∈ s.calls)
    {id : ObjectId} (hd : c.after.staging.isDirty id = true)
    (hpast : ∀ r ∈ s.start.staging.records, r.id = id → r.firstTouch ≤ c.record.firstTouch) :
    ∃ r ∈ s'.start.staging.records, r.id = id ∧ (s'.Visits id ∨ s'.FailsBefore r.firstTouch) := by
  have hleft : s.finish.staging.isDirty id = true :=
    SweepCalls.leaves_dirty hscript hs hc hpast hd
  have hdirty : s'.start.staging.isDirty id = true := by
    rw [hstart, ← hleft]
    exact Staging.isDirty_of_records (Staging.records_count _ _) id
  obtain ⟨r, hr, -⟩ := Staging.exists_of_isDirty hdirty
  obtain rfl : r.id = id := Staging.id_of_findRecord hr
  have hmem : r ∈ s'.start.staging.records := List.mem_of_find?_eq_some hr
  exact ⟨r, hmem, rfl, SweepCalls.visits_dirty hscript hs' (List.nil_append _).symm hmem
    (List.forall_mem_nil _) hdirty⟩

end HookSweep

/-- The sweeps follow each other from `t` on, and the last one leaves these
    records. -/
def Consecutive : Transaction κ π σ → List (HookSweep κ π σ) → List (Record κ) → Prop
  | t, [], rs => rs = t.staging.records
  | t, s :: rest, rs => s.start = t ∧ Consecutive s.counted rest rs

theorem Consecutive.start_eq {t : Transaction κ π σ} {earlier later : List (HookSweep κ π σ)}
    {s s' : HookSweep κ π σ} {rs : List (Record κ)}
    (h : Consecutive t (earlier ++ s :: s' :: later) rs) : s'.start = s.counted := by
  induction earlier generalizing t with
  | nil => exact h.2.1
  | cons x rest ih => exact ih h.2

/-- How sweeps end that leave the staging area `s`, if `left` were allowed after
    the `made` ones. -/
inductive SweepsEnd (made left : Nat) (sweeps : List (HookSweep κ π σ)) (s : Staging κ π) :
    Except Failure Unit → Prop where
  /-- A call fails.  It is the last one, and its record stays dirty. -/
  | failed (earlier : List (InnerCall κ π σ)) (c : InnerCall κ π σ) (e : Failure)
      (hcalls : sweeps.flatMap HookSweep.calls = earlier ++ [c])
      (hearlier : ∀ c' ∈ earlier, c'.passed = true) (hfails : c.FailsWith e)
      (hdirty : s.isDirty c.record.id = true) : SweepsEnd made left sweeps s (.error e)
  /-- All calls pass, and nothing is dirty. -/
  | settled (hpassed : ∀ c ∈ sweeps.flatMap HookSweep.calls, c.passed = true)
      (hclean : ∀ r ∈ s.records, r.dirty = false) : SweepsEnd made left sweeps s (.ok ())
  /-- All calls pass, but as many sweeps as allowed have left a record dirty. -/
  | capped (hpassed : ∀ c ∈ sweeps.flatMap HookSweep.calls, c.passed = true)
      (hleft : sweeps.length = left) {r : Record κ}
      (hdirty : s.records.find? Record.dirty = some r) :
      SweepsEnd made left sweeps s (.error (Transaction.notSettled r.id (made + left)))

namespace SweepsEnd

variable {made left : Nat} {sweeps : List (HookSweep κ π σ)} {s s' : Staging κ π}
  {answer : Except Failure Unit}

/-- A sweep whose calls all pass comes before the others. -/
theorem cons {x : HookSweep κ π σ} (hx : ∀ c ∈ x.calls, c.passed = true)
    (h : SweepsEnd (made + 1) left sweeps s answer) :
    SweepsEnd made (left + 1) (x :: sweeps) s answer := by
  have hall : (∀ c ∈ sweeps.flatMap HookSweep.calls, c.passed = true) →
      ∀ c ∈ (x :: sweeps).flatMap HookSweep.calls, c.passed = true := by
    intro hpassed c hc
    rw [List.flatMap_cons] at hc
    obtain hc | hc := List.mem_append.mp hc
    · exact hx c hc
    · exact hpassed c hc
  cases h with
  | failed earlier c e hcalls hearlier hfails hdirty =>
    refine .failed (x.calls ++ earlier) c e ?_ ?_ hfails hdirty
    · rw [List.flatMap_cons, hcalls, List.append_assoc]
    · intro c' hc'
      obtain hc' | hc' := List.mem_append.mp hc'
      · exact hx c' hc'
      · exact hearlier c' hc'
  | settled hpassed hclean => exact .settled (hall hpassed) hclean
  | capped hpassed hleft hdirty =>
    rw [Nat.add_assoc, Nat.add_comm 1]
    exact .capped (hall hpassed) (congrArg (· + 1) hleft) hdirty

/-- Whatever call fails is the last one, and decides on the answer. -/
theorem of_failsWith (h : SweepsEnd made left sweeps s answer) {c : InnerCall κ π σ}
    (hc : c ∈ sweeps.flatMap HookSweep.calls) {e : Failure} (hfails : c.FailsWith e) :
    (∃ earlier, sweeps.flatMap HookSweep.calls = earlier ++ [c]) ∧ answer = .error e ∧
      s.isDirty c.record.id = true := by
  have hfailed := hfails.not_passed
  cases h with
  | failed earlier c' e' hcalls hearlier hfails' hdirty =>
    rw [hcalls] at hc
    obtain hc | hc := List.mem_append.mp hc
    · rw [hearlier c hc] at hfailed
      cases hfailed
    · obtain rfl := List.mem_singleton.mp hc
      refine ⟨⟨earlier, hcalls⟩, ?_, hdirty⟩
      rw [← InnerCall.failsWith_iff.mp hfails, InnerCall.failsWith_iff.mp hfails']
  | settled hpassed _ =>
    rw [hpassed c hc] at hfailed
    cases hfailed
  | capped hpassed _ _ =>
    rw [hpassed c hc] at hfailed
    cases hfailed

/-- Only the records matter. -/
theorem congr (h : SweepsEnd made left sweeps s answer) (hs : s'.records = s.records) :
    SweepsEnd made left sweeps s' answer := by
  cases h with
  | failed earlier c e hcalls hearlier hfails hdirty =>
    exact .failed earlier c e hcalls hearlier hfails
      ((Staging.isDirty_of_records hs _).trans hdirty)
  | settled hpassed hclean => exact .settled hpassed (hs ▸ hclean)
  | capped hpassed hleft hdirty => exact .capped hpassed hleft (hs ▸ hdirty)

end SweepsEnd

namespace Transaction

/-! ## The phase -/

/-- A sweep over all records makes its calls, and ends as they do. -/
theorem sweep_records (h : Hooks κ π σ) {script : InnerScript κ π σ}
    (hscript : script.DropsNothing) (user : Option Principal)
    (t : Transaction κ π (Watched κ π σ)) (hordered : t.staging.Ordered) :
    let out := sweep (h.watched script) user t.staging.ids 0 t
    ∃ calls, SweepCalls script user t.staging.records t.unwatched calls ∧
      out.2 = (afterCalls t.unwatched calls).withEvents
        (t.events ++ calls.map InnerCall.event) ∧
      CallsEnd 0 calls out.1 :=
  sweep_calls h hscript user t.staging.records 0 t hordered
    (fun _ hr => List.mem_map_of_mem hr) (List.pairwise_map.mp hordered.nodup) hordered.ascend

/-- The phase makes consecutive sweeps, as many as are left at most, and ends as
    they do. -/
theorem settleWithin_sweeps (h : Hooks κ π σ) {script : InnerScript κ π σ}
    (hscript : script.DropsNothing) (user : Option Principal) (left made : Nat)
    (t : Transaction κ π (Watched κ π σ)) (hordered : t.staging.Ordered) :
    let out := settleWithin (h.watched script) user left made t
    ∃ sweeps : List (HookSweep κ π σ), (∀ s ∈ sweeps, s.Follows script user) ∧
      Consecutive t.unwatched sweeps out.2.staging.records ∧
      out.2.events = t.events ++ (sweeps.flatMap HookSweep.calls).map InnerCall.event ∧
      sweeps.length ≤ left ∧ SweepsEnd made left sweeps out.2.staging out.1 := by
  induction left generalizing made t with
  | zero =>
    unfold settleWithin
    cases hf : t.staging.records.find? Record.dirty with
    | none =>
      have hclean : ∀ r ∈ t.staging.records, r.dirty = false :=
        fun r hr => Bool.eq_false_iff.mpr (List.find?_eq_none.mp hf r hr)
      dsimp only
      exact ⟨[], List.forall_mem_nil _, rfl, (List.append_nil _).symm, Nat.le_refl 0,
        .settled (List.forall_mem_nil _) hclean⟩
    | some r =>
      have hnone : ∀ c ∈ ([] : List (HookSweep κ π σ)).flatMap HookSweep.calls,
        c.passed = true := List.forall_mem_nil _
      exact ⟨[], List.forall_mem_nil _, rfl, (List.append_nil _).symm, Nat.le_refl 0,
        .capped hnone rfl hf⟩
  | succ left ih =>
    obtain ⟨calls, hcalls, hout, hend⟩ := sweep_records h hscript user t hordered
    have hkept : (sweep (h.watched script) user t.staging.ids 0 t).2.staging.Ordered :=
      sweep_keeps (P := fun t => t.staging.Ordered)
        (fun r t ht _ _ => kept_ordered.visit h script _ (fun _ _ _ ht => ht) user r ht)
        _ 0 t hordered
    let x : HookSweep κ π σ := ⟨t.unwatched, calls⟩
    have hone : ∀ s ∈ [x], s.Follows script user := by
      intro s hs
      rw [List.mem_singleton.mp hs]
      exact hcalls
    have hcallsOne : [x].flatMap HookSweep.calls = calls := List.flatMap_singleton ..
    have hcounted : x.finish.staging.records = x.counted.staging.records :=
      (Staging.records_count _ _).symm
    cases hsweep : sweep (h.watched script) user t.staging.ids 0 t with
    | mk answer t₁ =>
      rw [hsweep] at hout hend hkept
      obtain rfl : t₁ = _ := hout
      cases hend with
      | failed earlier c e hlast hearlier hfails =>
        rw [settleWithin_of_error hsweep]
        refine ⟨[x], hone, ⟨rfl, hcounted⟩, by rw [hcallsOne]; rfl, by simp,
          .failed earlier c e (hcallsOne.trans hlast) hearlier hfails ?_⟩
        exact hcalls.failed_leaves_dirty hscript hlast hfails.not_passed
      | passed hpassed =>
        cases calls with
        | nil =>
          rw [settleWithin_of_ok_zero hsweep]
          exact ⟨[x], hone, ⟨rfl, hcounted⟩, by rw [hcallsOne]; rfl, by simp,
            .settled (hcallsOne ▸ hpassed) fun r hr => hcalls.clean_of_nil hordered hr hr⟩
        | cons c rest =>
          have hsucc : 0 + (c :: rest).length = rest.length + 1 := Nat.zero_add _
          rw [hsucc] at hsweep
          rw [settleWithin_of_ok_succ hsweep]
          obtain ⟨sweeps, hfollow, hconsecutive, hevents, hlength, hend⟩ :=
            ih (made + 1) (Transaction.stage _ fun s => s.count fun c => c.innerSweep _)
              (hkept.count fun c => c.innerSweep (rest.length + 1))
          refine ⟨x :: sweeps, List.forall_mem_cons.mpr ⟨hcalls, hfollow⟩, ⟨rfl, hconsecutive⟩, ?_,
            Nat.succ_le_succ hlength, hend.cons hpassed⟩
          rw [hevents, List.flatMap_cons, List.map_append, ← List.append_assoc]
          rfl

/-- **The first phase calls the inner hooks sweep by sweep.**  For every
    reachable ledger and all inner hooks that only record, and do not drop what
    is staged, the calls of the phase are those of consecutive sweeps.

    Each sweep goes over the records that there are when it begins, in the order
    of first touch, and calls the hook of each one that is dirty when its turn
    comes, with the verb and the token that the record has then, for the given
    user.  So a record that a call dirties before its turn is visited in the same
    sweep; one that a call dirties after its turn, or opens, is visited in the
    next sweep, if there is one; each time unless a call before its turn fails.

    There are no more sweeps than the cap allows.  A call that fails, by its
    answer or by adding tokens, is the last one, the phase ends with its failure,
    and its record is dirty then.  If none fails, the phase ends well with no
    record dirty, or it has made as many sweeps as the cap allows. -/
theorem sweeps_visit_dirty_records_in_turn (past : Hooks κ π σ) (before : InnerScript κ π σ)
    (plan : InnerPlan κ π σ) (depth : Nat) (sink : Sink σ) (options : Options) (schema : Schema)
    (world : σ) (moves : List (Move κ π σ)) (h : Hooks κ π σ) (script : InnerScript κ π σ)
    (hscript : script.DropsNothing) (user : Option Principal) :
    let t := reached (past.nested before plan sink depth) sink options schema world moves
    let cap := t.staging.options.maxSweeps
    let out := settle (h.watched script) user t
    ∃ sweeps : List (HookSweep κ π σ),
      out.2.events = t.events ++ (sweeps.flatMap HookSweep.calls).map InnerCall.event ∧
      Consecutive t.unwatched sweeps out.2.staging.records ∧
      (∀ s ∈ sweeps, s.Follows script user) ∧
      (∀ s ∈ sweeps, ∀ c ∈ s.calls, ∀ r ∈ s.start.staging.records,
        c.record.firstTouch < r.firstTouch → c.after.staging.isDirty r.id = true →
          s.Visits r.id ∨ s.FailsBefore r.firstTouch) ∧
      (∀ earlier s s' later, sweeps = earlier ++ s :: s' :: later →
        ∀ c ∈ s.calls, ∀ id, c.after.staging.isDirty id = true →
          (∀ r ∈ s.start.staging.records, r.id = id → r.firstTouch ≤ c.record.firstTouch) →
            ∃ r ∈ s'.start.staging.records, r.id = id ∧
              (s'.Visits id ∨ s'.FailsBefore r.firstTouch)) ∧
      (∀ c ∈ sweeps.flatMap HookSweep.calls,
        ((∃ e, c.FailsWith e) ↔ c.passed = false) ∧
        (∀ ts, c.run.errors = c.before.errors.addAll ts → c.added = ⟨ts⟩) ∧
        ∀ e, c.FailsWith e → (∃ earlier, sweeps.flatMap HookSweep.calls = earlier ++ [c]) ∧
          out.1 = .error e ∧ out.2.staging.isDirty c.record.id = true) ∧
      sweeps.length ≤ cap ∧
      SweepsEnd 0 cap sweeps out.2.staging out.1 := by
  intro t cap out
  have hordered : t.staging.Ordered :=
    reached_ordered past before plan depth sink options schema world moves
  obtain ⟨sweeps, hfollow, hconsecutive, hevents, hlength, hend⟩ :=
    settleWithin_sweeps h hscript user cap 0 t hordered
  have hrecords : out.2.staging.records
      = (settleWithin (h.watched script) user cap 0 t).2.staging.records :=
    Staging.records_count _ _
  have hended : SweepsEnd 0 cap sweeps out.2.staging out.1 := hend.congr hrecords
  refine ⟨sweeps, hevents, hrecords ▸ hconsecutive, hfollow, ?_, ?_,
    fun c hc => ⟨c.fails_iff, fun ts hts => InnerCall.added_of_addAll hts,
      fun e hfails => hended.of_failsWith hc hfails⟩, hlength, hended⟩
  · intro s hs c hc r hr hlt hd
    exact (hfollow s hs).visits_in_turn hscript hc hr hlt hd
  · intro earlier s s' later hsweeps c hc id hd hpast
    have hs : s ∈ sweeps := hsweeps ▸ List.mem_append_right _ List.mem_cons_self
    have hs' : s' ∈ sweeps :=
      hsweeps ▸ List.mem_append_right _ (List.mem_cons_of_mem _ List.mem_cons_self)
    have hstart : s'.start = s.counted := (hsweeps ▸ hconsecutive).start_eq
    exact (hfollow s hs).visits_next hscript (hfollow s' hs') hstart hc hd hpast

/-- With both nodes created, the first sweep calls both hooks.  The second hook
    writes to the first node, whose turn has passed, so that the next sweep calls
    the first hook once more; the last sweep finds nothing dirty. -/
theorem sweeps_visit_dirty_records_in_turn_of_cascade :
    let t := reached (idleHooks.nested idleScript idlePlan MemoryLog.sink 0) MemoryLog.sink {} ∅ ∅
      [.record (.create none ada), .record (.create none bob)]
    let out := settle (idleHooks.watched cascadeScript) none t
    ∃ sweeps : List (HookSweep Unit Unit MemoryLog),
      (∀ s ∈ sweeps, s.Follows cascadeScript none) ∧
      (sweeps.flatMap HookSweep.calls).map (fun c => c.record.object) = [ada, bob, ada] ∧
      SweepsEnd 0 10000 sweeps out.2.staging (.ok ()) := by
  intro t out
  have hscript : cascadeScript.DropsNothing := by
    intro object ctx t m hm
    unfold cascadeScript at hm
    dsimp only at hm
    split at hm
    · rw [List.mem_singleton.mp hm]
      rfl
    · cases hm
  obtain ⟨sweeps, hevents, -, hfollow, -, -, -, -, hend⟩ :=
    sweeps_visit_dirty_records_in_turn idleHooks idleScript idlePlan 0 MemoryLog.sink {} ∅ ∅
      [.record (.create none ada), .record (.create none bob)] idleHooks cascadeScript hscript none
  have hcalled : out.2.events.filterMap Event.hooked? = [ada, bob, ada] := rfl
  have hnone : t.events.filterMap Event.hooked? = [] := rfl
  refine ⟨sweeps, hfollow, ?_, hend⟩
  rw [hevents, List.filterMap_append, hnone, List.filterMap_map] at hcalled
  rw [← hcalled, List.nil_append]
  exact (congrFun List.filterMap_eq_map _).symm

end Transaction

end ChangeLedger
