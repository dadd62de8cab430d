/-
  ChangeLedger.Graph.Schema — which properties of its ends an edge shows up in.

  The schema describes types of edges.  A described end names the property in
  which a node sees the edge, and whether that property holds one reference
  or many.
-/
import ChangeLedger.Collections.SortedMap
import ChangeLedger.Graph.Edge
import ChangeLedger.Graph.PropertyKey

namespace ChangeLedger

/-- How many references a property holds. -/
inductive Cardinality where
  /-- One reference. -/
  | scalar
  /-- Any number of references. -/
  | collection
  deriving DecidableEq

/-- The property in which one end of an edge sees the other. -/
structure EndDescription where
  /-- The key of the property. -/
  key : PropertyKey
  /-- Whether it holds one reference or many. -/
  cardinality : Cardinality
  deriving DecidableEq

/-- The description of a type of edges; an end may be left undescribed. -/
structure EdgeDescription where
  /-- The end the edge starts from. -/
  source? : Option EndDescription
  /-- The end the edge points to. -/
  target? : Option EndDescription
  deriving DecidableEq

/-- Whether both ends are described; only then are references tracked. -/
def EdgeDescription.tracksRefs (d : EdgeDescription) : Bool :=
  d.source?.isSome && d.target?.isSome

/-- The described types of edges, by name. -/
structure Schema where
  /-- The descriptions. -/
  edges : SortedMap String EdgeDescription

namespace Schema

/-- The schema without any description. -/
def empty : Schema := ⟨.empty⟩

instance : EmptyCollection Schema := ⟨empty⟩
instance : Inhabited Schema := ⟨empty⟩

/-- Describes a type of edges; an earlier description is replaced. -/
def register (s : Schema) (type : EdgeType) (d : EdgeDescription) : Schema :=
  ⟨s.edges.insert type.name d⟩

/-- The description of a type of edges. -/
def describe? (s : Schema) (type : EdgeType) : Option EdgeDescription := s.edges.get? type.name

end Schema

end ChangeLedger
