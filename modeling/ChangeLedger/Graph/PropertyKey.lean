/-
  ChangeLedger.Graph.PropertyKey — keys of properties.

  A key is a property name, possibly with a synchronization key: writes to
  such a property have to be synchronized with other objects after the
  commit.  Keys are ordered by name, and the key without synchronization
  comes first among those of one name.
-/

namespace ChangeLedger

/-- The key of a property. -/
structure PropertyKey where
  /-- The name of the property. -/
  name : String
  /-- The key under which writes are synchronized. -/
  sync : Option String
  deriving DecidableEq

namespace PropertyKey

instance : Ord PropertyKey :=
  ⟨compareLex (compareOn PropertyKey.name) (compareOn PropertyKey.sync)⟩

instance : Std.TransOrd PropertyKey :=
  inferInstanceAs
    (Std.TransCmp (compareLex (compareOn PropertyKey.name) (compareOn PropertyKey.sync)))

instance : Std.LawfulEqOrd PropertyKey where
  eq_of_compare {a b} h := by
    obtain ⟨hn, hs⟩ := Ordering.then_eq_eq.mp h
    have hn : a.name = b.name := Std.compare_eq_iff_eq.mp hn
    have hs : a.sync = b.sync := Std.compare_eq_iff_eq.mp hs
    cases a; cases b; simp_all

/-- The key of a property that needs no synchronization. -/
def plain (name : String) : PropertyKey := ⟨name, none⟩

/-- Whether writes have to be synchronized. -/
def requiresSync (key : PropertyKey) : Bool := key.sync.isSome

end PropertyKey

end ChangeLedger
