/-
  ChangeLedger.Staging.Mutation — recordings as data.

  A mutation is one call of a recording operation.  Runs of recordings are
  lists of mutations, and a hook that only records does to the staging area
  what some list of mutations does.
-/
import ChangeLedger.Staging.Recording

namespace ChangeLedger

/-- One recording. -/
inductive Mutation (κ π : Type) where
  /-- An object is created. -/
  | create (user : Option Principal) (object : Tracked κ)
  /-- A property is written. -/
  | modify (user : Option Principal) (object : Tracked κ) (key : PropertyKey)
      (previous new : Option Value)
  /-- An object is deleted. -/
  | delete (user : Option Principal) (object : Tracked κ) (passive : Bool)
  /-- An edge is created. -/
  | createEdge (user : Option Principal) (edge : Edge κ)
  /-- An edge is deleted. -/
  | deleteEdge (user : Option Principal) (edge : Edge κ) (passive : Bool)
  /-- An object is marked as reached by propagation. -/
  | propagate (object : Tracked κ)
  /-- A structural aspect of a node is flagged. -/
  | flagAspect (aspect : Aspect) (object : Tracked κ)
  /-- A token is attached to an object. -/
  | setCallback (object : Tracked κ) (token : String)
  /-- An action is deferred. -/
  | defer (key : String) (action : π)
  /-- The change logs are switched off. -/
  | disableLog
  /-- A type of edges is described. -/
  | describeEdges (type : EdgeType) (description : EdgeDescription)
  /-- Everything staged is dropped. -/
  | clear

namespace Staging

variable {κ π : Type}

/-- Makes one recording.  Marking and deferring have an answer. -/
def perform (s : Staging κ π) : Mutation κ π → Option Bool × Staging κ π
  | .create user object => (none, s.create user object)
  | .modify user object key previous new => (none, s.modify user object key previous new)
  | .delete user object passive => (none, s.delete user object passive)
  | .createEdge user edge => (none, s.createEdge user edge)
  | .deleteEdge user edge passive => (none, s.deleteEdge user edge passive)
  | .propagate object => let (fresh, s) := s.propagate object; (some fresh, s)
  | .flagAspect aspect object => (none, s.flagAspect aspect object)
  | .setCallback object token => (none, s.setCallback object token)
  | .defer key action => let (kept, s) := s.defer key action; (some kept, s)
  | .disableLog => (none, s.disableLog)
  | .describeEdges type description => (none, s.describeEdges type description)
  | .clear => (none, s.clear)

/-- The staging area after a recording. -/
def after (s : Staging κ π) (m : Mutation κ π) : Staging κ π := (s.perform m).2

/-- The staging area after a run of recordings. -/
def afterAll (s : Staging κ π) (ms : List (Mutation κ π)) : Staging κ π := ms.foldl after s

/-- The answers of a run of recordings, in order. -/
def answers (s : Staging κ π) : List (Mutation κ π) → List (Option Bool)
  | [] => []
  | m :: ms => (s.perform m).1 :: (s.after m).answers ms

end Staging

end ChangeLedger
