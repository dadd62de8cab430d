/-
  ChangeLedger.Audit.LogName — what a change log is called and where it lies.

  Each node, each edge and each user has a log of its own.  On disk, a log
  lies in the folder of its kind; the first six characters of its identifier
  are split over three folders, so that no folder grows without bound.
-/
import ChangeLedger.Graph.Identity
import ChangeLedger.Text.Quoted

namespace ChangeLedger

/-! ## Names -/

/-- The three kinds of logs. -/
inductive LogKind where
  /-- The log of a node. -/
  | node
  /-- The log of an edge. -/
  | edge
  /-- The log of a user. -/
  | user
  deriving DecidableEq

namespace LogKind

/-- Place of a kind in the order of logs. -/
def rank : LogKind → Nat
  | node => 0
  | edge => 1
  | user => 2

theorem rank_injective {a b : LogKind} (h : a.rank = b.rank) : a = b := by
  cases a <;> cases b <;> first | rfl | cases h

/-- The folder that holds the logs of a kind. -/
def folder : LogKind → String
  | node => "n"
  | edge => "r"
  | user => "u"

/-- The name of a kind in messages. -/
def diagnostic : LogKind → String
  | node => "Node"
  | edge => "Relationship"
  | user => "User"

/-- The kind of log that an object has. -/
def ofObject : ObjectKind → LogKind
  | .node => node
  | .edge => edge

end LogKind

/-- The name of a log. -/
structure LogName where
  /-- Whether it is the log of a node, of an edge or of a user. -/
  kind : LogKind
  /-- The uuid of the object or the identifier of the user. -/
  id : String
  deriving DecidableEq

namespace LogName

instance : Ord LogName :=
  ⟨compareLex (compareOn fun name => name.kind.rank) (compareOn LogName.id)⟩

instance : Std.TransOrd LogName :=
  inferInstanceAs
    (Std.TransCmp (compareLex (compareOn fun name : LogName => name.kind.rank)
      (compareOn LogName.id)))

instance : Std.LawfulEqOrd LogName where
  eq_of_compare {a b} h := by
    obtain ⟨hk, hi⟩ := Ordering.then_eq_eq.mp h
    have hk := LogKind.rank_injective (Std.compare_eq_iff_eq.mp hk)
    have hi : a.id = b.id := Std.compare_eq_iff_eq.mp hi
    cases a; cases b; simp_all

/-! ## Safe identifiers -/

/-- Whether two dots follow each other. -/
def hasTwoDots : List Char → Bool
  | '.' :: '.' :: _ => true
  | _ :: rest => hasTwoDots rest
  | [] => false

/-- Whether an identifier can name a file without leaving its folder: it is
    not empty and not a single dot, and has no separator, no NUL and no two
    dots in a row. -/
def isSafeId (id : String) : Bool :=
  let cs := id.toList
  !cs.isEmpty && cs != ['.'] && !cs.contains '/' && !cs.contains '\\' &&
    !cs.contains '\x00' && !hasTwoDots cs

/-- The message that refuses an unsafe name. -/
def refusal (name : LogName) : String :=
  "refusing change log id " ++ Quoted.quote name.id ++ " for " ++ name.kind.diagnostic ++ " log"

/-! ## Places -/

/-- The folders between the folder of the kind and the log: the first three
    pairs of characters, if the identifier is ASCII and has as many. -/
def shards (id : String) : List String :=
  match id.toList with
  | a :: b :: c :: d :: e :: f :: rest =>
    -- characters beyond ASCII take several bytes, and a pair could cut one
    if (a :: b :: c :: d :: e :: f :: rest).all fun ch => ch.toNat < 128 then
      [String.ofList [a, b], String.ofList [c, d], String.ofList [e, f]]
    else []
  | _ => []

/-- The place of a log below the root, folder by folder. -/
def components (name : LogName) : List String :=
  name.kind.folder :: shards name.id ++ [name.id]

/-- Extends a path by one component, by the rules of Unix: the separator is the
    slash, and a component is absolute if it begins with one.  An absolute
    component replaces the path, and a separator is added only where there is
    none. -/
def push (path component : String) : String :=
  if component.startsWith "/" then component
  else if path.isEmpty || path.endsWith "/" then path ++ component
  else path ++ "/" ++ component

/-- The place of a log as a path. -/
def path (root : String) (name : LogName) : String := name.components.foldl push root

end LogName

end ChangeLedger
