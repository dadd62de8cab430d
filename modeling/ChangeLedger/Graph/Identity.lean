/-
  ChangeLedger.Graph.Identity — who is tracked, and who acts.

  An object of the graph is a node or an edge with a storage number.  The
  identities are ordered, nodes first, then by number.
-/

namespace ChangeLedger

/-- The two kinds of objects in the graph. -/
inductive ObjectKind where
  /-- A node. -/
  | node
  /-- An edge between two nodes. -/
  | edge
  deriving DecidableEq

namespace ObjectKind

/-- Place of a kind in the order of identities. -/
def rank : ObjectKind → Nat
  | node => 0
  | edge => 1

theorem rank_injective {a b : ObjectKind} (h : a.rank = b.rank) : a = b := by
  cases a <;> cases b <;> first | rfl | cases h

/-- The letter that stands for a kind in log locations. -/
def letter : ObjectKind → String
  | node => "n"
  | edge => "r"

/-- The name of a kind in diagnostic texts. -/
def diagnostic : ObjectKind → String
  | node => "Node"
  | edge => "Relationship"

end ObjectKind

/-- The identity of a node or an edge within one transaction. -/
structure ObjectId where
  /-- Node or edge. -/
  kind : ObjectKind
  /-- The number the storage engine gave it. -/
  number : Nat
  deriving DecidableEq

namespace ObjectId

instance : Ord ObjectId :=
  ⟨compareLex (compareOn fun id => id.kind.rank) (compareOn ObjectId.number)⟩

instance : Std.TransOrd ObjectId :=
  inferInstanceAs
    (Std.TransCmp (compareLex (compareOn fun id : ObjectId => id.kind.rank)
      (compareOn ObjectId.number)))

instance : Std.LawfulEqOrd ObjectId where
  eq_of_compare {a b} h := by
    obtain ⟨hk, hn⟩ := Ordering.then_eq_eq.mp h
    have hk := ObjectKind.rank_injective (Std.compare_eq_iff_eq.mp hk)
    have hn : a.number = b.number := Std.compare_eq_iff_eq.mp hn
    cases a; cases b; simp_all

/-- Whether the identity is that of a node. -/
def isNode (id : ObjectId) : Bool := id.kind = .node

/-- The short text of an identity: a letter and the number. -/
def display (id : ObjectId) : String :=
  match id.kind with
  | .node => "N" ++ toString id.number
  | .edge => "R" ++ toString id.number

/-- The text of an identity in diagnostic records. -/
def diagnostic (id : ObjectId) : String :=
  "ObjectId \x7b kind: " ++ id.kind.diagnostic ++ ", id: " ++ toString id.number ++ " \x7d"

end ObjectId

/-- The acting user of a transaction. -/
structure Principal where
  /-- Stable identifier; it also names the log of the user. -/
  id : String
  /-- Name shown in audit lines. -/
  name : String
  deriving DecidableEq

end ChangeLedger
