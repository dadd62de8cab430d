/-
  ChangeLedger.Staging.RefTable — references by property.

  A table holds the references that a record gained, or those that it lost,
  under each property key.  A key without references is not listed.

  Main results:
    * `RefTable.has_put`, `RefTable.has_take` — which references a change of
      the table affects.
    * `RefTable.ext_has` — tables that list no empty set are determined by
      their references.
-/
import ChangeLedger.Collections.SortedSet
import ChangeLedger.Graph.Identity
import ChangeLedger.Graph.PropertyKey

namespace ChangeLedger

/-- Sets of references by property key. -/
abbrev RefTable := SortedMap PropertyKey (SortedSet ObjectId)

namespace RefTable

/-- Whether a reference is listed under a key. -/
def has (t : RefTable) (key : PropertyKey) (other : ObjectId) : Bool :=
  (t.getD key ∅).contains other

/-- Lists a reference under a key. -/
def put (t : RefTable) (key : PropertyKey) (other : ObjectId) : RefTable :=
  t.insert key ((t.getD key ∅).insert other)

/-- Strikes a reference from a key, and the key with its last reference. -/
def take (t : RefTable) (key : PropertyKey) (other : ObjectId) : RefTable :=
  match t.get? key with
  | none => t
  | some refs =>
    let rest := refs.erase other
    if rest.isEmpty then t.erase key else t.insert key rest

/-- Putting a reference adds it, and no other. -/
theorem has_put (t : RefTable) (key q : PropertyKey) (other o : ObjectId) :
    has (put t key other) q o = (decide (q = key ∧ o = other) || has t q o) := by
  simp only [has, put, SortedMap.getD, SortedMap.get?_insert]
  by_cases hq : q = key
  · subst hq
    simp [SortedSet.contains_insert]
  · simp [hq]

theorem contains_of_isEmpty {s : SortedSet ObjectId} (h : s.isEmpty = true) (o : ObjectId) :
    s.contains o = false := by
  obtain ⟨⟨l, hl⟩⟩ := s
  simp only [SortedSet.isEmpty, SortedMap.isEmpty, List.isEmpty_iff] at h
  subst h
  rfl

/-- Taking a reference removes it, and no other. -/
theorem has_take (t : RefTable) (key q : PropertyKey) (other o : ObjectId) :
    has (take t key other) q o = (!decide (q = key ∧ o = other) && has t q o) := by
  simp only [take]
  cases hk : t.get? key with
  | none =>
    by_cases hq : q = key
    · subst hq
      simp [has, SortedMap.getD, hk, EmptyCollection.emptyCollection]
    · simp [hq]
  | some refs =>
    dsimp only
    have hrest : ∀ o, (refs.erase other).contains o = (!decide (o = other) && refs.contains o) :=
      fun o => SortedSet.contains_erase refs other o
    by_cases hempty : (refs.erase other).isEmpty = true
    · rw [if_pos hempty]
      simp only [has, SortedMap.getD, SortedMap.get?_erase]
      by_cases hq : q = key
      · subst hq
        have := contains_of_isEmpty hempty o
        rw [hrest] at this
        simpa [hk, EmptyCollection.emptyCollection] using this.symm
      · simp [hq]
    · rw [if_neg hempty]
      simp only [has, SortedMap.getD, SortedMap.get?_insert]
      by_cases hq : q = key
      · subst hq
        simp [hk, hrest]
      · simp [hq]

/-! ## Keys without references -/

/-- No key is listed without a reference. -/
def NoEmptySet (t : RefTable) : Prop :=
  ∀ key refs, t.get? key = some refs → refs.isEmpty = false

theorem noEmptySet_empty : NoEmptySet ∅ := by
  intro key refs hget
  cases hget

/-- Putting a reference leaves no key without references. -/
theorem noEmptySet_put {t : RefTable} (ht : t.NoEmptySet) (key : PropertyKey) (other : ObjectId) :
    (put t key other).NoEmptySet := by
  intro q refs hget
  simp only [put, SortedMap.get?_insert] at hget
  by_cases hq : q = key
  · rw [if_pos hq] at hget
    rw [← Option.some.inj hget]
    -- The set has the reference that was just put into it.
    cases hempty : ((t.getD key ∅).insert other).isEmpty with
    | false => rfl
    | true =>
      have hnot := contains_of_isEmpty hempty other
      simp [SortedSet.contains_insert] at hnot
  · rw [if_neg hq] at hget
    exact ht q refs hget

/-- Nor does taking one: a key goes with its last reference. -/
theorem noEmptySet_take {t : RefTable} (ht : t.NoEmptySet) (key : PropertyKey)
    (other : ObjectId) : (take t key other).NoEmptySet := by
  intro q refs hget
  unfold take at hget
  cases hk : t.get? key with
  | none =>
    rw [hk] at hget
    exact ht q refs hget
  | some old =>
    rw [hk] at hget
    dsimp only at hget
    by_cases hempty : (old.erase other).isEmpty = true
    · rw [if_pos hempty, SortedMap.get?_erase] at hget
      split at hget
      · cases hget
      · exact ht q refs hget
    · rw [if_neg hempty, SortedMap.get?_insert] at hget
      split at hget
      · rw [← Option.some.inj hget]
        exact Bool.of_not_eq_true hempty
      · exact ht q refs hget

theorem has_of_get? {t : RefTable} {key : PropertyKey} {refs : SortedSet ObjectId}
    (hget : t.get? key = some refs) (other : ObjectId) :
    t.has key other = refs.contains other := by
  unfold has SortedMap.getD
  rw [hget]
  rfl

/-- A key that is listed has a reference. -/
theorem exists_has {t : RefTable} (ht : t.NoEmptySet) {key : PropertyKey}
    {refs : SortedSet ObjectId} (hget : t.get? key = some refs) :
    ∃ other, t.has key other = true := by
  obtain ⟨other, hother⟩ := SortedSet.exists_contains (ht key refs hget)
  exact ⟨other, (has_of_get? hget other).trans hother⟩

theorem has_of_get?_none {t : RefTable} {key : PropertyKey} (hget : t.get? key = none)
    (other : ObjectId) : t.has key other = false := by
  unfold has SortedMap.getD
  rw [hget]
  rfl

/-- Tables that list no empty set are determined by their references. -/
theorem ext_has {t t' : RefTable} (ht : t.NoEmptySet) (ht' : t'.NoEmptySet)
    (h : ∀ key other, t.has key other = t'.has key other) : t = t' := by
  refine SortedMap.ext_get? fun key => ?_
  cases hget : t.get? key with
  | none =>
    cases hget' : t'.get? key with
    | none => rfl
    | some refs' =>
      obtain ⟨other, hhas⟩ := exists_has ht' hget'
      rw [← h, has_of_get?_none hget] at hhas
      cases hhas
  | some refs =>
    cases hget' : t'.get? key with
    | none =>
      obtain ⟨other, hhas⟩ := exists_has ht hget
      rw [h, has_of_get?_none hget'] at hhas
      cases hhas
    | some refs' =>
      refine congrArg some (SortedSet.ext_contains fun other => ?_)
      rw [← has_of_get? hget, ← has_of_get? hget', h]

end RefTable

end ChangeLedger
