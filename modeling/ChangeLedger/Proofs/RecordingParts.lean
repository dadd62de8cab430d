/-
  ChangeLedger.Proofs.RecordingParts — what recordings are made of.

  A recording is made of a few parts: it touches records, and it changes marks,
  keys, actions and descriptions beside them.  What holds across each part and
  can be chained holds across every recording.

  Main results:
    * `Staging.HoldsAcross.after` — from the parts to the recording.
-/
import ChangeLedger.Staging.Mutation

namespace ChangeLedger

variable {κ π : Type}

namespace Staging

/-- The relation holds across everything that recordings are made of: touches,
    changes beside records, options and counters, and dropping everything. -/
structure HoldsAcross (R : Staging κ π → Staging κ π → Prop) : Prop where
  trans : ∀ {s s' s''}, R s s' → R s' s'' → R s s''
  touch : ∀ s object initial f, R s (s.touch object initial f)
  beside : ∀ {s s'}, s'.records = s.records → s'.nextTick = s.nextTick →
    s'.options = s.options → s'.counters = s.counters → R s s'
  clear : ∀ s, R s s.clear

namespace HoldsAcross

variable {R : Staging κ π → Staging κ π → Prop} (hR : HoldsAcross R)

include hR

theorem refl (s : Staging κ π) : R s s := hR.beside rfl rfl rfl rfl

theorem noteSync (s : Staging κ π) (key : PropertyKey) : R s (s.noteSync key) := by
  unfold Staging.noteSync
  split <;> exact hR.beside rfl rfl rfl rfl

/-- An end of an edge is written, and its reference changed if references are
    tracked. -/
theorem touchEnd (s : Staging κ π) (event : EdgeEvent) (tracked : Bool) (d : EndDescription)
    (node other : Tracked κ) : R s (s.touchEnd event tracked d node other) := by
  unfold Staging.touchEnd write
  have hw := fun previous new =>
    hR.trans (hR.touch s node .modify fun r => r.modify d.key previous new) (hR.noteSync _ d.key)
  cases tracked with
  | false => exact hw _ _
  | true =>
    exact hR.trans (hw _ _) (hR.touch _ node .modify fun r => r.changeRef event d.key other.id)

/-- An edge event flags both ends, or writes to those that are described, or
    does nothing. -/
theorem foldEdge (s : Staging κ π) (event : EdgeEvent) (type? : Option EdgeType)
    (source target : Tracked κ) : R s (s.foldEdge event type? source target) := by
  unfold Staging.foldEdge
  cases type? with
  | none => exact hR.refl s
  | some type =>
    dsimp only
    cases type.aspect? with
    | some aspect => exact hR.trans (hR.touch s source _ _) (hR.touch _ target _ _)
    | none =>
      dsimp only
      cases s.schema.describe? type with
      | none => exact hR.refl s
      | some d =>
        unfold touchEnds
        dsimp only
        cases d.source? with
        | none =>
          cases d.target? with
          | none => exact hR.refl s
          | some described => exact hR.touchEnd s event _ described target source
        | some sourceEnd =>
          have hsource := hR.touchEnd s event d.tracksRefs sourceEnd source target
          cases d.target? with
          | none => exact hsource
          | some described => exact hR.trans hsource (hR.touchEnd _ event _ described target source)

/-- The audit entries of an edge event go to three records, one after the
    other. -/
theorem auditEdge (s : Staging κ π) (event : EdgeEvent) (user : Option Principal) (edge : Edge κ)
    (source target : Tracked κ) : R s (s.auditEdge event user edge source target) :=
  hR.trans (hR.trans (hR.touch s edge.object _ _) (hR.touch _ source _ _)) (hR.touch _ target _ _)

/-- If an end cannot be resolved, nothing follows an edge event. -/
theorem followEdge (s : Staging κ π) (event : EdgeEvent) (user : Option Principal)
    (edge : Edge κ) : R s (s.followEdge event user edge) := by
  unfold Staging.followEdge
  cases edge.source? with
  | none => exact hR.refl s
  | some source =>
    cases edge.target? with
    | none => exact hR.refl s
    | some target =>
      have hfold := hR.foldEdge s event edge.type? source target
      dsimp only
      split
      next => exact hR.trans hfold (hR.auditEdge _ event user edge source target)
      next => exact hfold

/-- What holds across the parts of a recording holds across the recording. -/
theorem after (s : Staging κ π) (m : Mutation κ π) : R s (s.after m) := by
  cases m with
  | create user object =>
    show R s (s.create user object)
    unfold create
    exact hR.touch s object _ _
  | modify user object key previous new =>
    exact hR.trans (hR.touch s object _ _) (hR.noteSync _ key)
  | delete user object passive =>
    show R s (s.delete user object passive)
    unfold delete
    exact hR.touch s object _ _
  | createEdge user edge =>
    exact hR.trans (hR.touch s edge.object _ _) (hR.followEdge _ .created user edge)
  | deleteEdge user edge passive =>
    exact hR.trans (hR.touch s edge.object _ _) (hR.followEdge _ .deleted user edge)
  | propagate object =>
    show R s (s.propagate object).2
    have hmark : R s { s with propagated := s.propagated.insert object.id } :=
      hR.beside rfl rfl rfl rfl
    unfold propagate
    dsimp only
    split
    next => exact hmark
    next => exact hR.trans hmark (hR.touch _ object _ _)
  | flagAspect aspect object => exact hR.touch s object .modify fun r => r.flagAspect aspect
  | setCallback object token => exact hR.touch s object .modify fun r => r.setCallback token
  | defer key action =>
    show R s (s.defer key action).2
    unfold defer
    split <;> exact hR.beside rfl rfl rfl rfl
  | disableLog => exact hR.beside rfl rfl rfl rfl
  | describeEdges type d => exact hR.beside rfl rfl rfl rfl
  | clear => exact hR.clear s

end HoldsAcross

end Staging

end ChangeLedger
