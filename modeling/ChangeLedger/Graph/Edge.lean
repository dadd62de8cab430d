/-
  ChangeLedger.Graph.Edge — tracked objects, edges and their types.

  The ledger knows of an object only its identity, its uuid and an opaque
  handle by which hooks recognise it.  An edge adds its type and its two end
  nodes, either of which may be out of reach.
-/
import ChangeLedger.Graph.Identity

namespace ChangeLedger

/-! ## Edge types -/

/-- The name of a type of edges. -/
structure EdgeType where
  /-- The name itself. -/
  name : String
  deriving DecidableEq

/-- The structural aspects of a node that edges of well-known types change. -/
inductive Aspect where
  /-- Who owns the node. -/
  | owner
  /-- Who has access to the node. -/
  | security
  /-- Where the node is. -/
  | location
  deriving DecidableEq

/-- The aspect that edges of a well-known type change; other types have none. -/
def EdgeType.aspect? (type : EdgeType) : Option Aspect :=
  if type.name = "OWNS" then some .owner
  else if type.name = "SECURITY" then some .security
  else if type.name = "IS_AT" then some .location
  else none

/-! ## Objects -/

/-- A tracked object: its identity, its uuid and the handle its hooks are
    called with. -/
structure Tracked (κ : Type) where
  /-- The identity of the object. -/
  id : ObjectId
  /-- The uuid of the object. -/
  uuid : String
  /-- What the embedding program knows the object by. -/
  handle : κ

/-- An edge as it stands when it is created or deleted. -/
structure Edge (κ : Type) where
  /-- The edge itself. -/
  object : Tracked κ
  /-- The type, if the edge has one. -/
  type? : Option EdgeType
  /-- The node the edge starts from, if it can be resolved. -/
  source? : Option (Tracked κ)
  /-- The node the edge points to, if it can be resolved. -/
  target? : Option (Tracked κ)

end ChangeLedger
