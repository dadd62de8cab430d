/-
  ChangeLedger.Collections.SortedSet — finite sets listed in order.

  A set is a map to the one-point type, so that it inherits the order of
  its listing and its extensionality from the map.

  Main results:
    * `SortedSet.contains_insert`, `SortedSet.contains_erase` — what a
      change does to membership.
    * `SortedSet.ext_contains` — a set is determined by its members.
-/
import ChangeLedger.Collections.SortedMap

namespace ChangeLedger

/-- A finite set, listed in ascending order. -/
structure SortedSet (α : Type) [Ord α] where
  /-- The members, as keys of a map. -/
  asMap : SortedMap α Unit

namespace SortedSet

variable {α : Type} [Ord α]

/-- The set without members. -/
def empty : SortedSet α := ⟨.empty⟩

instance : EmptyCollection (SortedSet α) := ⟨empty⟩
instance : Inhabited (SortedSet α) := ⟨empty⟩

/-- Whether `a` is a member. -/
def contains (s : SortedSet α) (a : α) : Bool := s.asMap.contains a

/-- Adds `a`. -/
def insert [Std.TransOrd α] (s : SortedSet α) (a : α) : SortedSet α :=
  ⟨s.asMap.insert a ()⟩

/-- Takes `a` out. -/
def erase (s : SortedSet α) (a : α) : SortedSet α := ⟨s.asMap.erase a⟩

/-- The members, ascending. -/
def toList (s : SortedSet α) : List α := s.asMap.keys

/-- Number of members. -/
def size (s : SortedSet α) : Nat := s.asMap.size

/-- Whether the set has no member. -/
def isEmpty (s : SortedSet α) : Bool := s.asMap.isEmpty

/-- The set of the elements of a list. -/
def ofList [Std.TransOrd α] (l : List α) : SortedSet α := l.foldl insert empty

/-! ## Membership -/

@[simp] theorem contains_empty (a : α) : (empty : SortedSet α).contains a = false := rfl

theorem contains_insert [Std.TransOrd α] [Std.LawfulEqOrd α] [DecidableEq α]
    (s : SortedSet α) (a b : α) :
    (s.insert a).contains b = (decide (b = a) || s.contains b) := by
  simp only [contains, SortedMap.contains, insert, SortedMap.get?_insert]
  by_cases h : b = a <;> simp [h]

/-- The members of a set with several more. -/
theorem contains_foldl_insert [Std.TransOrd α] [Std.LawfulEqOrd α] [DecidableEq α]
    (l : List α) (s : SortedSet α) (b : α) :
    (l.foldl insert s).contains b = true ↔ b ∈ l ∨ s.contains b = true := by
  induction l generalizing s with
  | nil => simp
  | cons a rest ih =>
    rw [List.foldl_cons, ih, contains_insert, Bool.or_eq_true, decide_eq_true_iff, List.mem_cons,
      ← or_assoc, or_comm (a := b ∈ rest)]

theorem contains_erase [Std.LawfulEqOrd α] [DecidableEq α]
    (s : SortedSet α) (a b : α) :
    (s.erase a).contains b = (!decide (b = a) && s.contains b) := by
  simp only [contains, SortedMap.contains, erase, SortedMap.get?_erase]
  by_cases h : b = a <;> simp [h]

/-- A set that is not empty has a member. -/
theorem exists_contains [Std.TransOrd α] {s : SortedSet α} (h : s.isEmpty = false) :
    ∃ a, s.contains a = true := by
  obtain ⟨⟨entries, ascend⟩⟩ := s
  cases entries with
  | nil => cases h
  | cons e rest =>
    refine ⟨e.1, ?_⟩
    show (lookupEntry e.1 (e :: rest)).isSome = true
    rw [show e = (e.1, e.2) from rfl, SortedMap.lookupEntry_cons, if_pos Std.compare_self]
    rfl

/-- A set is determined by its members. -/
theorem ext_contains [Std.TransOrd α] [Std.LawfulEqOrd α] {s t : SortedSet α}
    (h : ∀ a, s.contains a = t.contains a) : s = t := by
  obtain ⟨m⟩ := s
  obtain ⟨n⟩ := t
  congr 1
  refine SortedMap.ext_get? fun k => ?_
  have := h k
  simp only [contains, SortedMap.contains] at this
  cases hm : m.get? k <;> cases hn : n.get? k <;> simp_all

end SortedSet

end ChangeLedger
