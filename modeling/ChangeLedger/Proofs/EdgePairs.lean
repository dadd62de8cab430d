/-
  ChangeLedger.Proofs.EdgePairs — an edge is created and deleted at once.

  A record does not count the edges behind a reference: a reference that was
  gained twice is gained.  So the deletion of an edge takes back the gain of a
  reference also if it was another edge that brought it, and an edge from a
  node to itself that shows up twice under one key loses its reference, which
  was gained once.

  Main results:
    * `RefSlot.countFrom_map` — several events of one kind iterate one step.
    * `Transaction.edge_pair_leaves` — what creating and deleting an edge
      leaves of the references, and when it leaves them as they were.
-/
import ChangeLedger.Proofs.References
import ChangeLedger.Proofs.Silence
import Mathlib.Logic.Function.Iterate

namespace ChangeLedger

variable {κ π σ : Type}

/-! ## Counts -/

/-- Events of one kind move a count once for each time that they name it. -/
theorem RefSlot.countFrom_map (slot : RefSlot) (event : EdgeEvent) (c : Int)
    (slots : List RefSlot) :
    slot.countFrom c (slots.map (RefChange.mk event)) = event.count^[slots.count slot] c := by
  induction slots generalizing c with
  | nil => rfl
  | cons first rest ih =>
    show slot.countFrom (if first = slot then event.count c else c) _ = _
    rw [ih, List.count_cons]
    by_cases hfirst : first = slot
    · rw [if_pos hfirst, if_pos (beq_iff_eq.mpr hfirst), Function.iterate_add_apply]
      rfl
    · rw [if_neg hfirst, if_neg (fun heq => hfirst (beq_iff_eq.mp heq))]
      rfl

theorem References.standing_bounds (refs : References) (key : PropertyKey) (other : ObjectId) :
    -1 ≤ refs.standing key other ∧ refs.standing key other ≤ 1 := by
  unfold standing
  split
  · omega
  · split <;> omega

/-- What is left of a count after `n` gains and then as many losses. -/
def pairedCount (n : Nat) (c : Int) : Int := if n = 0 then c else if n = 1 then min c 0 else -1

theorem count_pairs {n : Nat} (hn : n ≤ 2) {c : Int} (hc : -1 ≤ c) :
    EdgeEvent.deleted.count^[n] (EdgeEvent.created.count^[n] c) = pairedCount n c := by
  match n with
  | 0 => rfl
  | 1 =>
    show max (-1) (min 1 (c + 1) - 1) = min c 0
    omega
  | 2 =>
    show max (-1) (max (-1) (min 1 (min 1 (c + 1) + 1) - 1) - 1) = -1
    omega

/-- Nothing changes if a gain was not pending already, or if the losses are
    all that is said anyway. -/
theorem pairedCount_eq_iff {n : Nat} (hn : 0 < n) {c : Int} (hc : c ≤ 1) :
    pairedCount n c = c ↔ if n = 1 then c ≠ 1 else c = -1 := by
  unfold pairedCount
  rw [if_neg (by omega)]
  split <;> omega

/-! ## The references of one edge -/

namespace Schema

/-- An edge shows up as two references or as none; they are the same one only
    if it leads from a node to itself. -/
theorem trackedRefs_cases (schema : Schema) (object : Tracked κ) (type? : Option EdgeType)
    (source target : Tracked κ) :
    schema.trackedRefs ⟨object, type?, some source, some target⟩ = [] ∨
      ∃ key key' : PropertyKey,
        schema.trackedRefs ⟨object, type?, some source, some target⟩ =
          [⟨source.id, key, target.id⟩, ⟨target.id, key', source.id⟩] := by
  unfold trackedRefs
  cases type? with
  | none => exact .inl rfl
  | some type =>
    dsimp only
    split
    next d d' _ _ => exact .inr ⟨d.key, d'.key, rfl⟩
    next => exact .inl rfl

variable {schema : Schema} {object : Tracked κ} {type? : Option EdgeType}
  {source target : Tracked κ} {slot : RefSlot}

/-- The references are those of the two ends. -/
theorem owner_of_mem_trackedRefs
    (h : slot ∈ schema.trackedRefs ⟨object, type?, some source, some target⟩) :
    slot.owner = source.id ∨ slot.owner = target.id := by
  obtain hnone | ⟨key, key', htwo⟩ := schema.trackedRefs_cases object type? source target
  · rw [hnone] at h
    cases h
  · rw [htwo] at h
    cases List.mem_cons.mp h with
    | inl hsource => exact .inl (congrArg RefSlot.owner hsource)
    | inr htarget => exact .inr (congrArg RefSlot.owner (List.mem_singleton.mp htarget))

theorem count_trackedRefs_le :
    (schema.trackedRefs ⟨object, type?, some source, some target⟩).count slot ≤ 2 := by
  obtain hnone | ⟨key, key', htwo⟩ := schema.trackedRefs_cases object type? source target
  · rw [hnone]
    exact Nat.zero_le 2
  · rw [htwo]
    exact List.count_le_length

/-- An edge shows up twice as one reference only if it leads from a node to
    itself and is described under one key at both ends. -/
theorem trackedRefs_of_count
    (h : (schema.trackedRefs ⟨object, type?, some source, some target⟩).count slot = 2) :
    source.id = target.id ∧
      schema.trackedRefs ⟨object, type?, some source, some target⟩ = [slot, slot] := by
  obtain hnone | ⟨key, key', htwo⟩ := schema.trackedRefs_cases object type? source target
  · rw [hnone] at h
    cases h
  · rw [htwo] at h ⊢
    -- Both references are the slot, and so are their owners.
    have hall : ∀ a ∈ _, slot = a := List.count_eq_length.mp h
    have hsource := hall _ List.mem_cons_self
    have htarget := hall _ (List.mem_cons_of_mem _ List.mem_cons_self)
    exact ⟨congrArg RefSlot.owner (hsource.symm.trans htarget), by rw [← hsource, ← htarget]⟩

end Schema

/-! ## Creating and deleting -/

namespace Staging

theorem schema_noteSyncs (keys : List PropertyKey) (s : Staging κ π) :
    (keys.foldl noteSync s).schema = s.schema := by
  induction keys generalizing s with
  | nil => rfl
  | cons key rest ih =>
    refine (ih (s.noteSync key)).trans ?_
    unfold noteSync
    split <;> rfl

/-- The creation of an edge changes no description. -/
theorem schema_createEdge (s : Staging κ π) (user : Option Principal) (edge : Edge κ) :
    (s.createEdge user edge).schema = s.schema := by
  unfold createEdge
  have hframe : ((s.touch edge.object .create Record.create).followEdge .created user
      edge).frame.schema = (s.touch edge.object .create Record.create).frame.schema := by
    rw [frame_followEdge]
    split
    · exact schema_noteSyncs _ _
    · rfl
  exact Eq.trans hframe (schema_touch s _ _ _)

variable {s : Staging κ π}

/-- Creating an edge and deleting it gains and then loses each reference as
    often as the edge shows up as it. -/
theorem standing_edge_pair (hs : s.RefsProper) (user user' : Option Principal)
    (object source target : Tracked κ) (type? : Option EdgeType) (passive : Bool) :
    let edge : Edge κ := ⟨object, type?, some source, some target⟩
    let s' := (s.createEdge user edge).deleteEdge user' edge passive
    s'.RefsProper ∧ ∀ slot,
      s'.standing slot
        = pairedCount ((s.schema.trackedRefs edge).count slot) (s.standing slot) := by
  intro edge s'
  obtain ⟨hproper, hcreated⟩ := standing_after hs (.createEdge user edge)
  obtain ⟨hproper', hdeleted⟩ := standing_after hproper (.deleteEdge user' edge passive)
  refine ⟨hproper', fun slot => (hdeleted slot).trans ?_⟩
  have hschema : (s.after (.createEdge user edge)).schema = s.schema :=
    schema_createEdge s user edge
  calc slot.countFrom ((s.after (.createEdge user edge)).standing slot)
        (((s.after (.createEdge user edge)).schema.trackedRefs edge).map (RefChange.mk .deleted))
      = EdgeEvent.deleted.count^[(s.schema.trackedRefs edge).count slot]
          (slot.countFrom (s.standing slot)
            ((s.schema.trackedRefs edge).map (RefChange.mk .created))) := by
        rw [hschema, RefSlot.countFrom_map, hcreated]
        rfl
    _ = EdgeEvent.deleted.count^[(s.schema.trackedRefs edge).count slot]
          (EdgeEvent.created.count^[(s.schema.trackedRefs edge).count slot] (s.standing slot)) := by
        rw [RefSlot.countFrom_map]
    _ = pairedCount ((s.schema.trackedRefs edge).count slot) (s.standing slot) :=
        count_pairs Schema.count_trackedRefs_le (References.standing_bounds _ _ _).1

/-- The references of a node are as they were if and only if the count of each
    of its references is. -/
theorem referencesOf_eq_iff {s' : Staging κ π} (hs : s.RefsProper) (hs' : s'.RefsProper)
    (id : ObjectId) : s'.referencesOf id = s.referencesOf id ↔
      ∀ slot : RefSlot, slot.owner = id → s'.standing slot = s.standing slot := by
  constructor
  · rintro heq slot rfl
    unfold standing
    rw [heq]
  · intro hall
    exact (hs' id).ext_standing (hs id) fun key other => hall ⟨id, key, other⟩ rfl

end Staging

namespace Transaction

/-- At every moment of every reachable ledger, an edge between two nodes in
    reach that is created and deleted at once leaves every reference as it was
    that the edge does not show up as.  A reference that it shows up as once
    is no longer pending as gained; one that it shows up as twice, which takes
    an edge from a node to itself with one key at both ends, is pending as
    lost.  So the records of both nodes have the references that they had
    exactly if no reference of the first kind was pending as gained, and those
    of the second kind were pending as lost. -/
theorem edge_pair_leaves (h : Hooks κ π σ) (script : InnerScript κ π σ) (plan : InnerPlan κ π σ)
    (depth : Nat) (sink : Sink σ) (options : Options) (schema : Schema) (world : σ)
    (moves : List (Move κ π σ)) (s : Staging κ π) (past : List (Recorded κ π))
    (hm : (reached (h.nested script plan sink depth) sink options schema world moves).Moment
      s past)
    (user user' : Option Principal) (object source target : Tracked κ) (type? : Option EdgeType)
    (passive : Bool) :
    let edge : Edge κ := ⟨object, type?, some source, some target⟩
    let s' := (s.createEdge user edge).deleteEdge user' edge passive
    let shown := s.schema.trackedRefs edge
    (∀ slot, s'.standing slot =
      if shown.count slot = 0 then s.standing slot
      else if shown.count slot = 1 then min (s.standing slot) 0
      else -1) ∧
    (∀ slot, 1 < shown.count slot → source.id = target.id ∧ shown = [slot, slot]) ∧
    (s'.referencesOf source.id = s.referencesOf source.id ∧
        s'.referencesOf target.id = s.referencesOf target.id ↔
      ∀ slot ∈ shown, if shown.count slot = 1 then s.standing slot ≠ 1
        else s.standing slot = -1) := by
  intro edge s' shown
  have hproper : s.RefsProper :=
    (keptAlong_counted.atMoments h script plan depth sink (counted_new options schema) world
      moves hm).1
  obtain ⟨hproper', hstanding⟩ :=
    Staging.standing_edge_pair hproper user user' object source target type? passive
  refine ⟨hstanding, fun slot hmore => ?_, ?_⟩
  · have hle : shown.count slot ≤ 2 := Schema.count_trackedRefs_le
    have htwo : shown.count slot = 2 := by omega
    exact Schema.trackedRefs_of_count htwo
  · rw [Staging.referencesOf_eq_iff hproper hproper', Staging.referencesOf_eq_iff hproper hproper']
    have hshown : ∀ slot ∈ shown, s'.standing slot = s.standing slot ↔
        if shown.count slot = 1 then s.standing slot ≠ 1 else s.standing slot = -1 := by
      intro slot hslot
      rw [hstanding]
      exact pairedCount_eq_iff (List.count_pos_iff.mpr hslot) (References.standing_bounds _ _ _).2
    constructor
    · rintro ⟨hsource, htarget⟩ slot hslot
      refine (hshown slot hslot).mp ?_
      cases Schema.owner_of_mem_trackedRefs hslot with
      | inl howner => exact hsource slot howner
      | inr howner => exact htarget slot howner
    · intro hall
      have hsame : ∀ slot, s'.standing slot = s.standing slot := by
        intro slot
        by_cases hslot : slot ∈ shown
        · exact (hshown slot hslot).mpr (hall slot hslot)
        · rw [hstanding, List.count_eq_zero.mpr hslot]
          rfl
      exact ⟨fun slot _ => hsame slot, fun slot _ => hsame slot⟩

/-- Another edge between the same nodes was deleted before, and their
    references are pending as lost.  The pair leaves them so. -/
theorem edge_pair_leaves_losses :
    let s := (reached (idleHooks.nested idleScript idlePlan MemoryLog.sink 0) MemoryLog.sink {}
      (acquaintanceSchema "knows" "known") ∅
      [.record (.deleteEdge none (acquaintance 3 ada bob) false)]).staging
    let s' := (s.createEdge none (acquaintance 4 ada bob)).deleteEdge none (acquaintance 4 ada bob)
      false
    (s.referencesOf ada.id).lost.has (.plain "knows") bob.id = true ∧
      s'.referencesOf ada.id = s.referencesOf ada.id ∧
      s'.referencesOf bob.id = s.referencesOf bob.id := by
  intro s s'
  obtain ⟨-, -, hiff⟩ := edge_pair_leaves idleHooks idleScript idlePlan 0 MemoryLog.sink {}
    (acquaintanceSchema "knows" "known") ∅
    [.record (.deleteEdge none (acquaintance 3 ada bob) false)] _ _ .now none none
    (acquaintance 4 ada bob).object ada bob (some ⟨"KNOWS"⟩) false
  refine ⟨rfl, hiff.mpr ?_⟩
  decide

/-- If another edge between the same nodes was created before, the pair takes
    its references back.  An edge from a node to itself that shows up twice
    under one key leaves a loss of a reference that was never there. -/
theorem edge_pair_leaves_a_difference :
    let known : Staging Unit Unit := (reached (idleHooks.nested idleScript idlePlan MemoryLog.sink
      0) MemoryLog.sink {} (acquaintanceSchema "knows" "known") ∅
      [.record (.createEdge none (acquaintance 3 ada bob))]).staging
    let known' := (known.createEdge none (acquaintance 4 ada bob)).deleteEdge none
      (acquaintance 4 ada bob) false
    let fresh : Staging Unit Unit := (reached (idleHooks.nested idleScript idlePlan MemoryLog.sink
      0) MemoryLog.sink {} (acquaintanceSchema "friends" "friends") ∅ []).staging
    let fresh' := (fresh.createEdge none (acquaintance 3 ada ada)).deleteEdge none
      (acquaintance 3 ada ada) false
    known'.referencesOf ada.id ≠ known.referencesOf ada.id ∧
      fresh'.referencesOf ada.id ≠ fresh.referencesOf ada.id := by
  intro known known' fresh fresh'
  have hgained : (known.referencesOf ada.id).gained.has (.plain "knows") bob.id = true ∧
      (known'.referencesOf ada.id).gained.has (.plain "knows") bob.id = false := by
    decide +kernel +revert
  have hlost : (fresh.referencesOf ada.id).lost.has (.plain "friends") ada.id = false ∧
      (fresh'.referencesOf ada.id).lost.has (.plain "friends") ada.id = true := by
    decide +kernel +revert
  refine ⟨fun heq => ?_, fun heq => ?_⟩
  · rw [heq, hgained.1] at hgained
    cases hgained.2
  · rw [heq, hlost.1] at hlost
    cases hlost.2

end Transaction

end ChangeLedger
