/-
  ChangeLedger.Staging.Verb — what happened to an object in a transaction.
-/

namespace ChangeLedger

/-- What happened to an object in a transaction. -/
inductive ChangeVerb where
  /-- It was created. -/
  | create
  /-- It existed, and properties or edges of it changed. -/
  | modify
  /-- It was deleted. -/
  | delete
  /-- It was deleted as a consequence of another deletion. -/
  | passiveDelete
  /-- Only its materialized state changed, as a side effect. -/
  | propagated
  deriving DecidableEq

namespace ChangeVerb

/-- Whether the verb is one of the two deletions; nothing follows them. -/
def isDeletion : ChangeVerb → Bool
  | delete | passiveDelete => true
  | _ => false

/-- The name of a verb. -/
def display : ChangeVerb → String
  | create => "create"
  | modify => "modify"
  | delete => "delete"
  | passiveDelete => "passive-delete"
  | propagated => "propagated"

/-- The name of a verb in diagnostic texts. -/
def diagnostic : ChangeVerb → String
  | create => "Create"
  | modify => "Modify"
  | delete => "Delete"
  | passiveDelete => "PassivelyDeleted"
  | propagated => "Propagated"

/-- The verb after a creation: deletions are final. -/
def afterCreate (v : ChangeVerb) : ChangeVerb := if v.isDeletion then v else create

/-- The verb after a deletion: the first deletion decides. -/
def afterDelete (v : ChangeVerb) (passive : Bool) : ChangeVerb :=
  if v.isDeletion then v else if passive then passiveDelete else delete

/-- The verb after a write: what was only a side effect is now a change. -/
def afterWrite (v : ChangeVerb) : ChangeVerb := if v = propagated then modify else v

/-- A second write changes nothing. -/
@[simp] theorem afterWrite_afterWrite (v : ChangeVerb) :
    v.afterWrite.afterWrite = v.afterWrite := by
  cases v <;> rfl

end ChangeVerb

end ChangeLedger
