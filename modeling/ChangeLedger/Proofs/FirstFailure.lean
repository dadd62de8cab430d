/-
  ChangeLedger.Proofs.FirstFailure — calls one after the other, up to the first failure.

  Two phases of a commit go through a list and make calls for its elements
  until one of them fails.  Which calls there would be is a matter of the list
  and of the states that the calls leave, whatever they answer; how many of
  them are made is a matter of the answers alone.  The two are kept apart here:
  `callsInTurn` lists the calls, and `StopsAtFailure` says which of them are
  made and how it ends.

  Main results:
    * `StopsAtFailure.cons`, `StopsAtFailure.head` — one call, and then the
      others unless it failed.
    * `StopsAtFailure.prefix_of` — the calls that are made come first.
-/

namespace ChangeLedger

variable {α β τ ε : Type}

/-! ## Calls in turn -/

/-- The calls for the elements of a list, each in the state that the one before
    it leaves, whatever it answers. -/
def callsInTurn (call : α → τ → β × τ) : List α → τ → List β
  | [], _ => []
  | a :: rest, s => (call a s).1 :: callsInTurn call rest (call a s).2

/-- If a call tells for which element it is, the list can be read off the
    calls. -/
theorem map_callsInTurn {call : α → τ → β × τ} {element : β → α}
    (h : ∀ a s, element (call a s).1 = a) (as : List α) (s : τ) :
    (callsInTurn call as s).map element = as := by
  induction as generalizing s with
  | nil => rfl
  | cons a rest ih => rw [callsInTurn, List.map_cons, h, ih]

/-- What holds of every single call holds of the calls in turn. -/
theorem forall_mem_callsInTurn {call : α → τ → β × τ} {P : β → Prop}
    (h : ∀ a s, P (call a s).1) (as : List α) (s : τ) : ∀ c ∈ callsInTurn call as s, P c := by
  induction as generalizing s with
  | nil => exact fun c hc => nomatch hc
  | cons a rest ih => exact List.forall_mem_cons.mpr ⟨h a s, ih _⟩

/-! ## Up to the first failure -/

/-- Of these calls, exactly those up to the first failure are made, and the
    answer is that failure; all are made, and all is well, if none fails. -/
inductive StopsAtFailure (fails : β → ε → Prop) (calls made : List β) : Except ε Unit → Prop where
  /-- No call fails. -/
  | through (hnone : ∀ c ∈ calls, ∀ e, ¬ fails c e) (hmade : made = calls) :
      StopsAtFailure fails calls made (.ok ())
  /-- A call fails, and those before it do not. -/
  | stopped {before rest : List β} {c : β} {e : ε} (hnone : ∀ b ∈ before, ∀ e, ¬ fails b e)
      (hcalls : calls = before ++ c :: rest) (hfails : fails c e) (hmade : made = before ++ [c]) :
      StopsAtFailure fails calls made (.error e)

namespace StopsAtFailure

variable {fails : β → ε → Prop} {calls made : List β} {answer : Except ε Unit} {c : β} {e : ε}

theorem nil : StopsAtFailure fails [] [] (.ok ()) := .through (fun _ hc => nomatch hc) rfl

/-- A call that fails is the last one. -/
theorem head (hfails : fails c e) (calls : List β) :
    StopsAtFailure fails (c :: calls) [c] (.error e) :=
  .stopped (List.forall_mem_nil _) (List.nil_append (c :: calls)).symm hfails rfl

/-- A call that does not fail is followed by the others. -/
theorem cons (hc : ∀ e, ¬ fails c e) (hrest : StopsAtFailure fails calls made answer) :
    StopsAtFailure fails (c :: calls) (c :: made) answer := by
  cases hrest with
  | through hnone hmade => exact .through (List.forall_mem_cons.mpr ⟨hc, hnone⟩) (by rw [hmade])
  | stopped hnone hcalls hfails hmade =>
    exact .stopped (List.forall_mem_cons.mpr ⟨hc, hnone⟩) (by rw [hcalls, List.cons_append]) hfails
      (by rw [hmade, List.cons_append])

/-- No call is made only if there is none. -/
theorem eq_nil_iff (h : StopsAtFailure fails calls made answer) : made = [] ↔ calls = [] := by
  cases h with
  | through hnone hmade => rw [hmade]
  | stopped hnone hcalls hfails hmade => simp [hcalls, hmade]

/-- The calls that are made come first among them all. -/
theorem prefix_of (h : StopsAtFailure fails calls made answer) : made <+: calls := by
  cases h with
  | through hnone hmade => exact hmade ▸ List.prefix_refl _
  | @stopped before rest c e hnone hcalls hfails hmade =>
    exact ⟨rest, by rw [hmade, hcalls, List.append_assoc, List.singleton_append]⟩

end StopsAtFailure

end ChangeLedger
