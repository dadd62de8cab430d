/-
  ChangeLedger.Proofs.SweepLoop — the first phase as a loop without a bound.

  The phase of the inner hooks is a loop within a loop: it goes over the
  identities that are staged when a sweep begins, and begins another sweep as
  long as one has called a hook.  Hooks may open records in every sweep, so
  nothing in the loop itself bounds it but the cap, and that is looked at only
  when a dirty record is about to be visited.

  The loop is given here turn by turn, with no bound on the turns.  It ends
  after finitely many, with what the recursion over the cap answers.

  Main results:
    * `Turn.ends_sweep` — the turns of one sweep below the cap.
    * `Turn.ends_settleWithin` — the loop ends, with the answer of the phase.
-/
import ChangeLedger.Proofs.HookCoverage

namespace ChangeLedger

variable {κ π σ : Type}

namespace Transaction

/-- What a loop of sweeps ends with. -/
abbrev Outcome (κ π σ : Type) := Except Failure Unit × Transaction κ π σ

end Transaction

open Transaction

/-! ## Turns -/

/-- The loop between two looks at a record. -/
structure Turn (κ π σ : Type) where
  /-- Number of sweeps that were made. -/
  made : Nat
  /-- Number of hooks that the present sweep has called. -/
  called : Nat
  /-- The identities that the present sweep has still to look at. -/
  left : List ObjectId
  /-- The transaction. -/
  transaction : Transaction κ π σ

namespace Turn

/-- The loop as it begins. -/
def first (t : Transaction κ π σ) : Turn κ π σ := ⟨0, 0, t.staging.ids, t⟩

/-- The next turn, or the end of the loop.  The cap is looked at when a dirty
    record was found, before its hook is called. -/
def next (h : Hooks κ π σ) (user : Option Principal) (cap : Nat) (x : Turn κ π σ) :
    Turn κ π σ ⊕ Outcome κ π σ :=
  match x.left with
  | [] =>
    if x.called = 0 then .inr (.ok (), x.transaction)
    else
      let t := x.transaction.stage fun s => s.count fun c => c.innerSweep x.called
      .inl ⟨x.made + 1, 0, t.staging.ids, t⟩
  | id :: rest =>
    match (x.transaction.staging.find? id).filter Record.dirty with
    | none => .inl { x with left := rest }
    | some r =>
      if cap ≤ x.made then .inr (.error (notSettled id x.made), x.transaction)
      else
        match visit h user r x.transaction with
        | (.error e, t) => .inr (.error e, t)
        | (.ok (), t) => .inl { x with called := x.called + 1, left := rest, transaction := t }

/-- The loop goes on for finitely many turns, and ends with this outcome. -/
inductive Ends (h : Hooks κ π σ) (user : Option Principal) (cap : Nat) :
    Turn κ π σ → Outcome κ π σ → Prop where
  /-- The loop ends at once. -/
  | stop {x out} (hnext : x.next h user cap = .inr out) : Ends h user cap x out
  /-- The loop ends some turns later. -/
  | turn {x y out} (hnext : x.next h user cap = .inl y) (hy : Ends h user cap y out) :
      Ends h user cap x out

variable {h : Hooks κ π σ} {user : Option Principal} {cap made called : Nat} {id : ObjectId}
  {rest : List ObjectId} {t : Transaction κ π σ} {out : Outcome κ π σ}

theorem next_of_clean (hf : (t.staging.find? id).filter Record.dirty = none) :
    next h user cap ⟨made, called, id :: rest, t⟩ = .inl ⟨made, called, rest, t⟩ := by
  unfold next
  dsimp only
  rw [hf]

theorem next_at_cap {r : Record κ} (hf : (t.staging.find? id).filter Record.dirty = some r)
    (hcap : cap ≤ made) :
    next h user cap ⟨made, called, id :: rest, t⟩ = .inr (.error (notSettled id made), t) := by
  unfold next
  dsimp only
  rw [hf]
  exact if_pos hcap

theorem next_of_dirty {r : Record κ} (hf : (t.staging.find? id).filter Record.dirty = some r)
    (hmade : made < cap) :
    next h user cap ⟨made, called, id :: rest, t⟩ =
      match visit h user r t with
      | (.error e, t') => .inr (.error e, t')
      | (.ok (), t') => .inl ⟨made, called + 1, rest, t'⟩ := by
  unfold next
  dsimp only
  rw [hf]
  exact if_neg (Nat.not_le.mpr hmade)

/-! ## One sweep -/

/-- Below the cap, the turns of a sweep do what the sweep does: the loop ends
    where a hook fails, and else goes on after the last identity. -/
theorem ends_sweep (hmade : made < cap) (ids : List ObjectId) (called : Nat)
    (t : Transaction κ π σ)
    (hout : match sweep h user ids called t with
      | (.error e, t') => out = (.error e, t')
      | (.ok called', t') => Ends h user cap ⟨made, called', [], t'⟩ out) :
    Ends h user cap ⟨made, called, ids, t⟩ out := by
  induction ids generalizing called t with
  | nil => exact hout
  | cons id rest ih =>
    unfold sweep at hout
    cases hf : (t.staging.find? id).filter Record.dirty with
    | none =>
      rw [hf] at hout
      exact .turn (next_of_clean hf) (ih called t hout)
    | some r =>
      rw [hf] at hout
      dsimp only at hout
      have hnext : next h user cap ⟨made, called, id :: rest, t⟩ = _ := next_of_dirty hf hmade
      cases hv : visit h user r t with
      | mk answer t' =>
        rw [hv] at hout hnext
        cases answer with
        | error e =>
          have hfails : out = (.error e, t') := hout
          exact .stop (hfails ▸ hnext)
        | ok _ => exact .turn hnext (ih (called + 1) t' hout)

/-- At the cap, the turns look for a dirty record and call no hook. -/
theorem ends_at_cap (t : Transaction κ π σ) (rs : List (Record κ))
    (hfound : ∀ r ∈ rs, t.staging.find? r.id = some r)
    (hout : out = match rs.find? Record.dirty with
      | none => (.ok (), t)
      | some r => (.error (notSettled r.id cap), t)) :
    Ends h user cap ⟨cap, 0, rs.map Record.id, t⟩ out := by
  induction rs with
  | nil => exact .stop (congrArg Sum.inr hout.symm)
  | cons r rest ih =>
    have hr : t.staging.find? r.id = some r := hfound r List.mem_cons_self
    rw [List.find?_cons] at hout
    cases hd : r.dirty with
    | true =>
      rw [hd] at hout
      have hf : (t.staging.find? r.id).filter Record.dirty = some r := by
        rw [hr, Option.filter_some_pos hd]
      rw [show out = (.error (notSettled r.id cap), t) from hout]
      exact .stop (next_at_cap hf (Nat.le_refl cap))
    | false =>
      rw [hd] at hout
      have hf : (t.staging.find? r.id).filter Record.dirty = none := by
        rw [hr, Option.filter_some_neg hd]
      exact .turn (next_of_clean hf)
        (ih (fun r' hr' => hfound r' (List.mem_cons_of_mem _ hr')) hout)

/-! ## All sweeps -/

/-- The loop ends, and with the outcome of the recursion over the sweeps that
    are left.  The order is needed at the cap alone, where the recursion looks
    at the records and the loop at their identities. -/
theorem ends_settleWithin (hvisit : ∀ r (t : Transaction κ π σ), t.staging.Ordered →
      (visit h user r t).2.staging.Ordered)
    (left made : Nat) (t : Transaction κ π σ) (ht : t.staging.Ordered) :
    Ends h user (made + left) ⟨made, 0, t.staging.ids, t⟩ (settleWithin h user left made t) := by
  induction left generalizing made t with
  | zero =>
    refine ends_at_cap t t.staging.records (fun r hr => ht.find?_of_mem hr) ?_
    unfold settleWithin
    cases t.staging.records.find? Record.dirty <;> rfl
  | succ left ih =>
    refine ends_sweep (by omega) t.staging.ids 0 t ?_
    have hordered : (sweep h user t.staging.ids 0 t).2.staging.Ordered :=
      sweep_keeps (P := fun t => t.staging.Ordered) (fun r t ht _ _ => hvisit r t ht)
        t.staging.ids 0 t ht
    unfold settleWithin
    revert hordered
    obtain ⟨answer, t'⟩ := sweep h user t.staging.ids 0 t
    intro hordered
    cases answer with
    | error e => rfl
    | ok called =>
      cases called with
      | zero => exact .stop rfl
      | succ called =>
        -- The sweep has called a hook, so that the loop begins another one.
        refine .turn rfl ?_
        rw [show made + (left + 1) = made + 1 + left by omega]
        exact ih (made + 1) _ (hordered.count _)

end Turn

end ChangeLedger
