/-
  ChangeLedger.Proofs.Cascades — propagation visits what it can reach, and ends.

  The inner hook of every node may mark the neighbours of the node, which opens
  records for those that have none, and these are visited in a later sweep at
  the latest.  A hook that only marks dirties no record that was there before,
  so that every node is visited once, cycles or not: the sweeps are as many as
  there are records at most, and when they end every neighbour of a node with a
  record has a record.

  Main results:
    * `Staging.Cascade.marks`, `Staging.Cascade.called` — the marks of one hook,
      and the hook called.
    * `Transaction.Cascading.sweep`, `Transaction.Cascading.sweeps` — one sweep
      and several.
    * `Transaction.cascades_visit_what_they_reach` — the whole phase.
-/
import ChangeLedger.Proofs.MapListing
import ChangeLedger.Proofs.PropagationMarks
import ChangeLedger.Proofs.SweepCap
import Mathlib.Data.List.Perm.Subperm
import Mathlib.Logic.Relation

namespace ChangeLedger

variable {κ π σ : Type}

/-- Inner hooks that mark the neighbours of their object, and do nothing else. -/
def markNeighbours (neighbours : Tracked κ → List (Tracked κ)) : InnerScript κ π σ :=
  fun object _ t => ⟨(neighbours object).map .propagate, t.errors, t.world, .ok ()⟩

/-- A finite set of nodes with distinct identities; the neighbours of a node are
    nodes of the set. -/
structure IsNetwork (nodes : List (Tracked κ)) (neighbours : Tracked κ → List (Tracked κ)) :
    Prop where
  distinct : (nodes.map Tracked.id).Nodup
  closed : ∀ node ∈ nodes, ∀ other ∈ neighbours node, other ∈ nodes

/-- A node can be reached from another one along neighbours. -/
abbrev Reaches (neighbours : Tracked κ → List (Tracked κ)) : Tracked κ → Tracked κ → Prop :=
  Relation.ReflTransGen fun node other => other ∈ neighbours node

/-- In a network the identity decides on the node. -/
theorem IsNetwork.eq_of_id {nodes : List (Tracked κ)} {neighbours : Tracked κ → List (Tracked κ)}
    (hnet : IsNetwork nodes neighbours) {node other : Tracked κ} (hnode : node ∈ nodes)
    (hother : other ∈ nodes) (hid : node.id = other.id) : node = other :=
  List.inj_on_of_nodup_map hnet.distinct hnode hother hid

/-! ## The staging area in a cascade -/

namespace Staging

/-- In a cascade that began with the records `seeds`, the hooks of the `called`
    nodes were called, in that order.  All other records are dirty; what was
    opened since can be reached from the seeds, and has the verb of
    propagation; and all neighbours of the called nodes have records. -/
structure Cascade (nodes : List (Tracked κ)) (neighbours : Tracked κ → List (Tracked κ))
    (seeds : List (Record κ)) (s : Staging κ π) (called : List (Tracked κ)) : Prop where
  ordered : s.Ordered
  marksRecorded : s.MarksRecorded
  seeded : ∃ added, s.records.map Record.clearDirty = seeds.map Record.clearDirty ++ added ∧
    ∀ r ∈ added, r.verb = .propagated
  inside : ∀ r ∈ s.records, r.object ∈ nodes
  reached : ∀ r ∈ s.records, ∃ seed ∈ seeds, Reaches neighbours seed.object r.object
  dirty_iff : ∀ r ∈ s.records, r.dirty = true ↔ r.object ∉ called
  recorded : ∀ node ∈ called, ∃ r ∈ s.records, r.object = node
  once : called.Nodup
  followed : ∀ node ∈ called, ∀ other ∈ neighbours node, s.contains other.id = true

namespace Cascade

variable {nodes : List (Tracked κ)} {neighbours : Tracked κ → List (Tracked κ)}
  {seeds : List (Record κ)} {s s' : Staging κ π} {called : List (Tracked κ)}

/-- A node of the network has a record if its identity has one. -/
theorem exists_of_contains (hnet : IsNetwork nodes neighbours)
    (hs : s.Cascade nodes neighbours seeds called) {node : Tracked κ} (hnode : node ∈ nodes)
    (hc : s.contains node.id = true) : ∃ r ∈ s.records, r.object = node := by
  obtain ⟨r, hr⟩ := Option.isSome_iff_exists.mp hc
  have hmem := List.mem_of_find?_eq_some hr
  exact ⟨r, hmem, hnet.eq_of_id (hs.inside r hmem) hnode (id_of_findRecord hr)⟩

/-- Only the records, the marks and the ticks matter. -/
theorem congr (hs : s.Cascade nodes neighbours seeds called) (htable : s'.table = s.table)
    (hmarks : s'.propagated = s.propagated) : s'.Cascade nodes neighbours seeds called := by
  have hrecords : s'.records = s.records := congrArg RecordTable.records htable
  have hcontains : ∀ id, s'.contains id = s.contains id := fun id => by
    rw [contains_table, htable, contains_table]
  refine ⟨?_, fun id hid => ?_, hrecords ▸ hs.seeded, hrecords ▸ hs.inside,
    hrecords ▸ hs.reached, hrecords ▸ hs.dirty_iff, hrecords ▸ hs.recorded, hs.once,
    fun node hnode other hother => ?_⟩
  · unfold Ordered
    rw [htable]
    exact hs.ordered
  · unfold isPropagated at hid
    rw [hmarks] at hid
    rw [hcontains]
    exact hs.marksRecorded id hid
  · rw [hcontains]
    exact hs.followed node hnode other hother

/-- A mark opens one record at most, and the record is dirty. -/
theorem mark (hs : s.Cascade nodes neighbours seeds called) {node : Tracked κ}
    (hnode : node ∈ nodes) (hreach : ∃ seed ∈ seeds, Reaches neighbours seed.object node) :
    (s.after (.propagate node)).Cascade nodes neighbours seeds called ∧
      (s.after (.propagate node)).contains node.id = true := by
  have hmark := marks_propagate hs.marksRecorded node
  have hrecorded := hs.marksRecorded.after (m := .propagate node) rfl
  have hordered := hs.ordered.after (.propagate node)
  have hkept : ∀ id, s.contains id = true → (s.after (.propagate node)).contains id = true :=
    fun id hid => contains_after_of_contains rfl hid
  refine ⟨?_, hrecorded node.id hmark.marked⟩
  have hfollowed : ∀ called' ∈ called, ∀ other ∈ neighbours called',
      (s.after (.propagate node)).contains other.id = true :=
    fun called' hcalled other hother => hkept _ (hs.followed called' hcalled other hother)
  cases hfresh : (s.propagate node).1 with
  | false =>
    have hrecords : (s.after (.propagate node)).records = s.records := (hmark.unchanged hfresh).1
    exact ⟨hordered, hrecorded, hrecords ▸ hs.seeded, hrecords ▸ hs.inside, hrecords ▸ hs.reached,
      hrecords ▸ hs.dirty_iff, hrecords ▸ hs.recorded, hs.once, hfollowed⟩
  | true =>
    obtain ⟨r, hrecords, hobject, hdirty, hverb, -, -⟩ := hmark.opened hfresh
    have hmem : ∀ r', r' ∈ (s.after (.propagate node)).records ↔ r' ∈ s.records ∨ r' = r := by
      intro r'
      rw [show (s.after (.propagate node)).records = s.records ++ [r] from hrecords,
        List.mem_append, List.mem_singleton]
    -- A node that was called has a record, so that it is not the new one.
    have hnew : node ∉ called := by
      intro hcalled
      obtain ⟨r', hr', rfl⟩ := hs.recorded node hcalled
      have hc : s.contains r'.object.id = true :=
        hs.ordered.mem_ids_iff.mp (List.mem_map_of_mem hr')
      rw [hmark.answer.mp hfresh] at hc
      cases hc
    refine ⟨hordered, hrecorded, ?_, fun r' hr' => ?_, fun r' hr' => ?_, fun r' hr' => ?_,
      fun called' hcalled => ?_, hs.once, hfollowed⟩
    · obtain ⟨added, hadded, hverbs⟩ := hs.seeded
      refine ⟨added ++ [r.clearDirty], ?_, fun r' hr' => ?_⟩
      · rw [show (s.after (.propagate node)).records = s.records ++ [r] from hrecords,
          List.map_append, hadded, List.append_assoc]
        rfl
      · obtain hold | hr' := List.mem_append.mp hr'
        · exact hverbs r' hold
        · rw [List.mem_singleton.mp hr']
          exact hverb
    · obtain hold | rfl := (hmem r').mp hr'
      · exact hs.inside r' hold
      · rw [hobject]
        exact hnode
    · obtain hold | rfl := (hmem r').mp hr'
      · exact hs.reached r' hold
      · rw [hobject]
        exact hreach
    · obtain hold | rfl := (hmem r').mp hr'
      · exact hs.dirty_iff r' hold
      · rw [hobject]
        exact iff_of_true hdirty hnew
    · obtain ⟨r', hr', hobject'⟩ := hs.recorded called' hcalled
      exact ⟨r', (hmem r').mpr (.inl hr'), hobject'⟩

/-- Marks of nodes that can be reached go on with the cascade, and afterwards
    all of them have records. -/
theorem marks (marked : List (Tracked κ)) (hs : s.Cascade nodes neighbours seeds called)
    (hinside : ∀ node ∈ marked, node ∈ nodes)
    (hreach : ∀ node ∈ marked, ∃ seed ∈ seeds, Reaches neighbours seed.object node) :
    (s.afterAll (marked.map .propagate)).Cascade nodes neighbours seeds called ∧
      (∀ id, s.contains id = true → (s.afterAll (marked.map .propagate)).contains id = true) ∧
      ∀ node ∈ marked, (s.afterAll (marked.map .propagate)).contains node.id = true := by
  induction marked generalizing s with
  | nil => exact ⟨hs, fun _ hid => hid, fun _ hnode => nomatch hnode⟩
  | cons node rest ih =>
    obtain ⟨hnext, hnode⟩ := hs.mark (hinside node List.mem_cons_self)
      (hreach node List.mem_cons_self)
    obtain ⟨hlast, hkept, hrest⟩ := ih hnext
      (fun other hother => hinside other (List.mem_cons_of_mem _ hother))
      (fun other hother => hreach other (List.mem_cons_of_mem _ hother))
    refine ⟨hlast, fun id hid => hkept id (contains_after_of_contains rfl hid), ?_⟩
    intro other hother
    obtain rfl | hother := List.mem_cons.mp hother
    · exact hkept _ hnode
    · exact hrest other hother

/-- A record that is marked clean counts as called, once its neighbours have
    records. -/
theorem clean (hs : s.Cascade nodes neighbours seeds called) {r : Record κ} (hr : r ∈ s.records)
    (hnew : r.object ∉ called)
    (hfollowed : ∀ other ∈ neighbours r.object, s.contains other.id = true) :
    (s.update r.id Record.clearDirty).Cascade nodes neighbours seeds (called ++ [r.object]) := by
  -- The record is changed where it stands, and only in the dirty flag.
  have hmem : ∀ r' ∈ (s.update r.id Record.clearDirty).records, ∃ r'' ∈ s.records,
      r' = if r''.id = r.id then r''.clearDirty else r'' := by
    intro r' hr'
    obtain ⟨r'', hr'', heq⟩ := List.mem_map.mp hr'
    exact ⟨r'', hr'', heq.symm⟩
  have hobject : ∀ r' ∈ (s.update r.id Record.clearDirty).records, ∃ r'' ∈ s.records,
      r''.object = r'.object := by
    intro r' hr'
    obtain ⟨r'', hr'', rfl⟩ := hmem r' hr'
    exact ⟨r'', hr'', by split <;> rfl⟩
  have hobject' : ∀ r' ∈ s.records, ∃ r'' ∈ (s.update r.id Record.clearDirty).records,
      r''.object = r'.object := by
    intro r' hr'
    exact ⟨_, List.mem_map_of_mem hr', by split <;> rfl⟩
  have hcontains : ∀ id, (s.update r.id Record.clearDirty).contains id = s.contains id := by
    intro id
    rw [contains_table, contains_table, RecordTable.contains_eq_any, RecordTable.contains_eq_any,
      RecordTable.objects_eq_stamps, RecordTable.objects_eq_stamps, stamps_clearDirty]
  refine ⟨RecordTable.Ordered.update hs.ordered _ (fun _ => rfl) fun _ => rfl, ?_, ?_,
    fun r' hr' => ?_, fun r' hr' => ?_, fun r' hr' => ?_, fun node hnode => ?_, ?_,
    fun node hnode other hother => ?_⟩
  · intro id hid
    rw [hcontains]
    exact hs.marksRecorded id hid
  · obtain ⟨added, hadded, hverbs⟩ := hs.seeded
    refine ⟨added, ?_, hverbs⟩
    rw [← hadded]
    show (s.records.map _).map Record.clearDirty = _
    rw [List.map_map]
    refine List.map_congr_left fun r' _ => ?_
    show (if r'.id = r.id then r'.clearDirty else r').clearDirty = r'.clearDirty
    split <;> rfl
  · obtain ⟨r'', hr'', heq⟩ := hobject r' hr'
    exact heq ▸ hs.inside r'' hr''
  · obtain ⟨r'', hr'', heq⟩ := hobject r' hr'
    exact heq ▸ hs.reached r'' hr''
  · obtain ⟨r'', hr'', rfl⟩ := hmem r' hr'
    rw [List.mem_append, List.mem_singleton, not_or]
    split
    next hid =>
      obtain rfl := List.inj_on_of_nodup_map hs.ordered.nodup hr'' hr hid
      exact iff_of_false Bool.false_ne_true fun hno => hno.2 rfl
    next hid =>
      rw [hs.dirty_iff r'' hr'']
      exact (and_iff_left fun heq => hid (congrArg Tracked.id heq)).symm
  · obtain hold | hlast := List.mem_append.mp hnode
    · obtain ⟨r', hr', rfl⟩ := hs.recorded node hold
      exact hobject' r' hr'
    · rw [List.mem_singleton.mp hlast]
      exact hobject' r hr
  · refine List.nodup_append.mpr ⟨hs.once, List.nodup_singleton _, ?_⟩
    intro node hnode other hother heq
    rw [heq, List.mem_singleton.mp hother] at hnode
    exact hnew hnode
  · rw [hcontains]
    obtain hold | hlast := List.mem_append.mp hnode
    · exact hs.followed node hold other hother
    · rw [List.mem_singleton.mp hlast] at hother
      exact hfollowed other hother

/-- The hook of a dirty record goes on with the cascade. -/
theorem visit (hnet : IsNetwork nodes neighbours) (hs : s.Cascade nodes neighbours seeds called)
    {r : Record κ} (hr : s.find? r.id = some r) (hdirty : r.dirty = true) :
    ((s.afterAll ((neighbours r.object).map .propagate)).update r.id Record.clearDirty).Cascade
      nodes neighbours seeds (called ++ [r.object]) := by
  have hmem := List.mem_of_find?_eq_some hr
  have hobject := hs.inside r hmem
  obtain ⟨seed, hseed, hreach⟩ := hs.reached r hmem
  obtain ⟨hnext, hkept, hall⟩ := hs.marks (neighbours r.object)
    (fun other hother => hnet.closed r.object hobject other hother)
    (fun other hother => ⟨seed, hseed, hreach.tail hother⟩)
  -- The record is still there, though it need not be the first look-up's copy.
  have hc : s.contains r.id = true := Option.isSome_iff_exists.mpr ⟨r, hr⟩
  obtain ⟨r', hr', hobject'⟩ := hnext.exists_of_contains hnet hobject (hkept _ hc)
  have hnew : r.object ∉ called := (hs.dirty_iff r hmem).mp hdirty
  have hclean := hnext.clean hr' (hobject' ▸ hnew) (hobject' ▸ hall)
  rw [show r'.id = r.id from congrArg Tracked.id hobject', hobject'] at hclean
  exact hclean

/-! ## Its end -/

/-- The called nodes are among the nodes of the records. -/
theorem called_subset (hs : s.Cascade nodes neighbours seeds called) :
    called ⊆ s.records.map Record.object := by
  intro node hnode
  obtain ⟨r, hr, hobject⟩ := hs.recorded node hnode
  exact List.mem_map.mpr ⟨r, hr, hobject⟩

theorem length_called_le (hs : s.Cascade nodes neighbours seeds called) :
    called.length ≤ s.size := by
  have hsub := (hs.once.subperm hs.called_subset).length_le
  rw [List.length_map] at hsub
  exact hsub

theorem called_subset_nodes (hs : s.Cascade nodes neighbours seeds called) : called ⊆ nodes := by
  intro node hnode
  obtain ⟨r, hr, rfl⟩ := hs.recorded node hnode
  exact hs.inside r hr

/-- Once as many nodes are called as there are, no record is dirty. -/
theorem clean_of_length (hs : s.Cascade nodes neighbours seeds called)
    (hall : nodes.length ≤ called.length) : ∀ r ∈ s.records, r.dirty = false := by
  intro r hr
  have hperm := (hs.once.subperm hs.called_subset_nodes).perm_of_length_le hall
  have hcalled : r.object ∈ called := hperm.mem_iff.mpr (hs.inside r hr)
  exact eq_false_of_ne_true fun hd => (hs.dirty_iff r hr).mp hd hcalled

/-- With no record dirty, the node of every record was called. -/
theorem mem_called (hs : s.Cascade nodes neighbours seeds called)
    (hclean : ∀ r ∈ s.records, r.dirty = false) {r : Record κ} (hr : r ∈ s.records) :
    r.object ∈ called := by
  by_contra hnot
  have hdirty := (hs.dirty_iff r hr).mpr hnot
  rw [hclean r hr] at hdirty
  cases hdirty

/-- With no record dirty, each node of a record was called once, and no other. -/
theorem called_perm (hs : s.Cascade nodes neighbours seeds called)
    (hclean : ∀ r ∈ s.records, r.dirty = false) : called.Perm (s.records.map Record.object) := by
  have hids : ((s.records.map Record.object).map Tracked.id).Nodup := by
    rw [List.map_map]
    exact hs.ordered.nodup
  refine (List.perm_ext_iff_of_nodup hs.once (hids.of_map _)).mpr fun node => ?_
  refine ⟨fun hnode => hs.called_subset hnode, fun hnode => ?_⟩
  obtain ⟨r, hr, rfl⟩ := List.mem_map.mp hnode
  exact hs.mem_called hclean hr

/-- With no record dirty, exactly the nodes that can be reached have records. -/
theorem recorded_iff (hnet : IsNetwork nodes neighbours)
    (hs : s.Cascade nodes neighbours seeds called)
    (hclean : ∀ r ∈ s.records, r.dirty = false) (node : Tracked κ) :
    (∃ r ∈ s.records, r.object = node) ↔ ∃ seed ∈ seeds, Reaches neighbours seed.object node := by
  constructor
  · rintro ⟨r, hr, rfl⟩
    exact hs.reached r hr
  · rintro ⟨seed, hseed, hreach⟩
    -- Along the path, every neighbour of a node with a record has one.
    induction hreach with
    | refl =>
      obtain ⟨added, hadded, -⟩ := hs.seeded
      have hmem : seed.clearDirty ∈ s.records.map Record.clearDirty := by
        rw [hadded]
        exact List.mem_append_left _ (List.mem_map_of_mem hseed)
      obtain ⟨r, hr, heq⟩ := List.mem_map.mp hmem
      have hobject : r.clearDirty.object = seed.clearDirty.object := congrArg Record.object heq
      exact ⟨r, hr, hobject⟩
    | tail _ hstep ih =>
      obtain ⟨r, hr, rfl⟩ := ih
      have hinside := hnet.closed r.object (hs.inside r hr) _ hstep
      exact hs.exists_of_contains hnet hinside
        (hs.followed r.object (hs.mem_called hclean hr) _ hstep)

/-- With no record dirty, the records are the seeds and behind them what the
    cascade has opened. -/
theorem records_eq (hs : s.Cascade nodes neighbours seeds called)
    (hclean : ∀ r ∈ s.records, r.dirty = false) :
    ∃ added, s.records = seeds.map Record.clearDirty ++ added ∧
      ∀ r ∈ added, r.verb = .propagated := by
  have hsame : s.records.map Record.clearDirty = s.records := by
    refine (List.map_congr_left fun r hr => ?_).trans (List.map_id _)
    have hd := hclean r hr
    cases r
    cases hd
    rfl
  rw [← hsame]
  exact hs.seeded

end Cascade

end Staging

/-! ## The sweeps of a cascade -/

/-- The object whose inner hook was called. -/
def Event.hooked? : Event κ π → Option (Tracked κ)
  | inner _ object .. => some object
  | _ => none

namespace Transaction

variable {nodes : List (Tracked κ)} {neighbours : Tracked κ → List (Tracked κ)}
  {h : Hooks κ π σ} {user : Option Principal} {start t t' : Transaction κ π (Watched κ π σ)}
  {called : List (Tracked κ)}

/-- Since the start, the hooks of the `called` nodes were called in a cascade. -/
structure Cascading (nodes : List (Tracked κ)) (neighbours : Tracked κ → List (Tracked κ))
    (start t : Transaction κ π (Watched κ π σ)) (called : List (Tracked κ)) : Prop where
  staged : t.staging.Cascade nodes neighbours start.staging.records called
  calls : t.events.filterMap Event.hooked? = start.events.filterMap Event.hooked? ++ called

/-- A hook that marks the neighbours of its node passes. -/
theorem visit_markNeighbours (h : Hooks κ π σ) (neighbours : Tracked κ → List (Tracked κ))
    (user : Option Principal) (r : Record κ) (t : Transaction κ π (Watched κ π σ)) :
    Transaction.visit (h.watched (markNeighbours neighbours)) user r t =
      (.ok (), {
        staging := (t.staging.afterAll ((neighbours r.object).map .propagate)).update r.id
          Record.clearDirty
        errors := t.errors
        world := t.world.note t.world.world (.inner t.staging r.object
          ⟨user, r.verb, r.callback⟩ ((neighbours r.object).map .propagate) true) }) := by
  have hpassed : ((markNeighbours neighbours : InnerScript κ π σ) r.object
      ⟨user, r.verb, r.callback⟩ t.unwatched).passed t.errors.size = true :=
    decide_eq_true (Nat.le_refl _)
  unfold Transaction.visit Hooks.watched Hooks.watchedAfter
  dsimp only
  rw [hpassed]
  exact if_neg (Nat.lt_irrefl _)

namespace Cascading

/-- Counting is no part of a cascade. -/
theorem count (ht : Cascading nodes neighbours start t called) (f : Counters → Counters) :
    Cascading nodes neighbours start (t.stage (·.count f)) called where
  staged := ht.staged.congr (Staging.table_count _ f) (Staging.propagated_count _ f)
  calls := ht.calls

/-- The visit of a dirty record goes on with the cascade. -/
theorem visit (user : Option Principal) (hnet : IsNetwork nodes neighbours)
    (ht : Cascading nodes neighbours start t called) {r : Record κ}
    (hr : t.staging.find? r.id = some r) (hdirty : r.dirty = true) :
    ∃ t', Transaction.visit (h.watched (markNeighbours neighbours)) user r t = (.ok (), t') ∧
      Cascading nodes neighbours start t' (called ++ [r.object]) := by
  refine ⟨_, visit_markNeighbours h neighbours user r t, ht.staged.visit hnet hr hdirty, ?_⟩
  show (t.events ++ [_]).filterMap Event.hooked? = _
  rw [List.filterMap_append, ht.calls, List.append_assoc]
  rfl

/-- A sweep goes on with the cascade, and counts its calls. -/
theorem sweep (user : Option Principal) (hnet : IsNetwork nodes neighbours) (ids : List ObjectId)
    (n : Nat) (ht : Cascading nodes neighbours start t called) :
    ∃ more t', Transaction.sweep (h.watched (markNeighbours neighbours)) user ids n t
        = (.ok (n + more.length), t') ∧
      Cascading nodes neighbours start t' (called ++ more) := by
  induction ids generalizing n t called with
  | nil => exact ⟨[], t, rfl, by rw [List.append_nil]; exact ht⟩
  | cons id rest ih =>
    unfold Transaction.sweep
    cases hf : (t.staging.find? id).filter Record.dirty with
    | none => exact ih n ht
    | some r =>
      obtain ⟨hr, hdirty⟩ := Option.filter_eq_some_iff.mp hf
      have hid : r.id = id := Staging.id_of_findRecord hr
      obtain ⟨t₁, hvisit, hnext⟩ :=
        ht.visit (h := h) user hnet (hid.symm ▸ hr) hdirty
      dsimp only
      rw [hvisit]
      -- The node of the record is called now, and those of the rest after it.
      obtain ⟨more, t', hsweep, hlast⟩ := ih (n + 1) hnext
      refine ⟨r.object :: more, t', ?_, ?_⟩
      · dsimp only
        rw [hsweep, List.length_cons, Nat.add_assoc, Nat.add_comm 1]
      · rw [List.append_assoc, List.singleton_append] at hlast
        exact hlast

/-- Complete sweeps go on with the cascade, and each calls a hook. -/
theorem sweeps (hnet : IsNetwork nodes neighbours) {n : Nat}
    (hs : Sweeps (h.watched (markNeighbours neighbours)) user n t t')
    (ht : Cascading nodes neighbours start t called) :
    ∃ more, Cascading nodes neighbours start t' (called ++ more) ∧ n ≤ more.length := by
  induction hs generalizing called with
  | none => exact ⟨[], by rw [List.append_nil]; exact ht, Nat.le_refl 0⟩
  | @more n k t t₁ t' hsweep _ ih =>
    obtain ⟨first, t₂, hsweep', hnext⟩ := ht.sweep (h := h) user hnet t.staging.ids 0
    rw [hsweep] at hsweep'
    obtain ⟨hcount, rfl⟩ := Prod.mk.inj hsweep'
    have hlength : k + 1 = 0 + first.length := Except.ok.inj hcount
    obtain ⟨rest, hlast, hn⟩ := ih (hnext.count _)
    refine ⟨first ++ rest, ?_, ?_⟩
    · rw [← List.append_assoc]
      exact hlast
    · rw [List.length_append]
      omega

/-- No hook of a cascade fails. -/
theorem not_failsInHook (hnet : IsNetwork nodes neighbours) {cap : Nat}
    (ht : Cascading nodes neighbours start t called) :
    ¬ FailsInHook (h.watched (markNeighbours neighbours)) user cap t := by
  rintro ⟨n, -, e, t'', t', hs, hfails⟩
  obtain ⟨more, hnext, -⟩ := ht.sweeps hnet hs
  obtain ⟨more', t₁, hsweep, -⟩ := hnext.sweep (h := h) user hnet t'.staging.ids 0
  rw [hfails] at hsweep
  cases (Prod.mk.inj hsweep).1

/-- With a cap that lets every node have a sweep of its own, the sweeps end with
    every record clean, before the cap is felt. -/
theorem settles (user : Option Principal) (hnet : IsNetwork nodes neighbours) {cap : Nat}
    (hcap : nodes.length ≤ cap) (ht : Cascading nodes neighbours start t []) :
    ∃ n t' called, Sweeps (h.watched (markNeighbours neighbours)) user n t t' ∧
      settleWithin (h.watched (markNeighbours neighbours)) user cap 0 t = (.ok (), t') ∧
      Cascading nodes neighbours start t' called ∧ n ≤ called.length ∧
      ∀ r ∈ t'.staging.records, r.dirty = false := by
  obtain ⟨t', hs⟩ | ⟨n, hn, t', t'', hs, hquiet⟩ | hfails :=
    settleWithin_cases (h.watched (markNeighbours neighbours)) user cap t
  · -- Every sweep has called a hook, so that all nodes are called.
    obtain ⟨called, hlast, hn⟩ := ht.sweeps hnet hs
    have hclean := hlast.staged.clean_of_length (Nat.le_trans hcap hn)
    exact ⟨cap, t', called, hs, settleWithin_of_clean hs hclean (Nat.le_refl cap) 0, hlast, hn,
      hclean⟩
  · obtain ⟨called, hlast, hle⟩ := ht.sweeps hnet hs
    obtain ⟨rfl, hnone⟩ := (sweep_ok hquiet).2 rfl
    have hclean : ∀ r ∈ t''.staging.records, r.dirty = false := by
      intro r hr
      have hr' := hnone r.id (List.mem_map_of_mem hr)
      rw [hlast.staged.ordered.find?_of_mem hr] at hr'
      exact eq_false_of_ne_true fun hd => nomatch (Option.filter_some_pos hd).symm.trans hr'
    exact ⟨n, t'', called, hs, settleWithin_of_quiet hs hquiet hn 0, hlast, hle, hclean⟩
  · exact absurd hfails (ht.not_failsInHook hnet)

end Cascading

/-- Where all records are dirty records of nodes, a cascade begins. -/
theorem Cascading.begin (hordered : t.staging.Ordered) (hmarks : t.staging.MarksRecorded)
    (hseeds : ∀ r ∈ t.staging.records, r.dirty = true ∧ r.object ∈ nodes) :
    Cascading nodes neighbours t t [] where
  staged :=
    { ordered := hordered
      marksRecorded := hmarks
      seeded := ⟨[], (List.append_nil _).symm, fun _ hr => nomatch hr⟩
      inside := fun r hr => (hseeds r hr).2
      reached := fun r hr => ⟨r, hr, .refl⟩
      dirty_iff := fun r hr => iff_of_true (hseeds r hr).1 List.not_mem_nil
      recorded := fun _ hnode => nomatch hnode
      once := List.nodup_nil
      followed := fun _ hnode => nomatch hnode }
  calls := (List.append_nil _).symm

/-- **Propagation visits what it can reach, and ends.**  For every finite set of
    nodes with distinct identities and neighbours in the set, and every
    reachable ledger whose records are all dirty records of such nodes: if the
    inner hooks mark the neighbours of their nodes and do nothing else, and the
    cap is no less than the number of nodes, then the first phase succeeds, with
    no more sweeps than there are records in the end; it calls the hook of each
    recorded node once and no other hook; exactly the nodes that can be reached
    from those recorded at first have records in the end, all clean; and the
    first records keep their verbs, while the others have that of propagation. -/
theorem cascades_visit_what_they_reach (past : Hooks κ π σ) (earlier : InnerScript κ π σ)
    (plan : InnerPlan κ π σ) (depth : Nat) (sink : Sink σ) (options : Options) (schema : Schema)
    (world : σ) (moves : List (Move κ π σ)) (h : Hooks κ π σ) (user : Option Principal)
    (nodes : List (Tracked κ)) (neighbours : Tracked κ → List (Tracked κ))
    (hnet : IsNetwork nodes neighbours) :
    let t := reached (past.nested earlier plan sink depth) sink options schema world moves
    let hooks := h.watched (markNeighbours neighbours)
    let out := settle hooks user t
    (∀ r ∈ t.staging.records, r.dirty = true ∧ r.object ∈ nodes) →
    nodes.length ≤ t.staging.options.maxSweeps →
    out.1 = .ok () ∧
    (∃ n t', Sweeps hooks user n t t' ∧ n ≤ out.2.staging.size ∧
      out.2 = t'.finishPhase .innerHooks true ∧
      (t.staging.options.countsActivity = true → out.2.staging.counters.innerSweeps =
        t.staging.counters.innerSweeps + UInt64.ofNat n)) ∧
    (∃ calls, out.2.events = t.events ++ calls ∧ (∀ e ∈ calls, e.isInner = true) ∧
      (calls.filterMap Event.hooked?).Perm (out.2.staging.records.map Record.object)) ∧
    out.2.staging.ids.Nodup ∧
    (∀ node, (∃ r ∈ out.2.staging.records, r.object = node) ↔
      ∃ r ∈ t.staging.records, Reaches neighbours r.object node) ∧
    (∀ r ∈ out.2.staging.records, r.dirty = false) ∧
    ∃ added, out.2.staging.records = t.staging.records.map Record.clearDirty ++ added ∧
      ∀ r ∈ added, r.verb = .propagated := by
  intro t hooks out hseeds hcap
  have hordered : t.staging.Ordered :=
    reached_ordered past earlier plan depth sink options schema world moves
  have hmarks : t.staging.MarksRecorded :=
    (keptAlong_firstTouches.atMoments past earlier plan depth sink
      (firstTouches_new options schema) world moves .now).marks
  obtain ⟨n, t', called, hs, hwithin, hlast, hn, hclean⟩ :=
    (Cascading.begin hordered hmarks hseeds).settles (h := h) user hnet hcap
  have hout : out = (.ok (), t'.finishPhase .innerHooks true) := by
    show settle hooks user t = _
    unfold settle
    rw [hwithin]
    rfl
  have hrecords : (t'.finishPhase .innerHooks true).staging.records = t'.staging.records :=
    Staging.records_count t'.staging _
  rw [hout]
  refine ⟨rfl, ⟨n, t', hs, ?_, rfl, fun hcounts => ?_⟩, ?_, ?_, ?_, ?_, ?_⟩
  · show n ≤ (t'.finishPhase .innerHooks true).staging.records.length
    rw [hrecords]
    exact Nat.le_trans hn hlast.staged.length_called_le
  · rw [innerSweeps_finishPhase]
    exact hs.innerSweeps (visit_innerSweeps h user _) hcounts
  · obtain ⟨calls, hcalls, areInner⟩ := settle_addsOnly h (markNeighbours neighbours) user t
    rw [show settle (h.watched (markNeighbours neighbours)) user t
      = (.ok (), t'.finishPhase .innerHooks true) from hout] at hcalls
    refine ⟨calls, hcalls, areInner, ?_⟩
    have hhooked := hlast.calls
    rw [show t'.events = t.events ++ calls from hcalls, List.filterMap_append] at hhooked
    rw [List.append_cancel_left hhooked, hrecords]
    exact hlast.staged.called_perm hclean
  · unfold Staging.ids
    rw [hrecords]
    exact hlast.staged.ordered.nodup
  · rw [hrecords]
    exact hlast.staged.recorded_iff hnet hclean
  · rw [hrecords]
    exact hclean
  · rw [hrecords]
    exact hlast.staged.records_eq hclean

/-- A node of a small network. -/
def ringNode (number : Nat) : Tracked Unit := ⟨⟨.node, number⟩, "ring", ()⟩

/-- Three nodes lie on a cycle, one of which is its own neighbour as well.  The
    others lead to it, but not back. -/
def ringNeighbours (node : Tracked Unit) : List (Tracked Unit) :=
  if node.id.number = 1 then [ringNode 2]
  else if node.id.number = 2 then [ringNode 2, ringNode 3]
  else if node.id.number = 3 then [ringNode 1]
  else [ringNode 1]

theorem isNetwork_ring :
    IsNetwork [ringNode 1, ringNode 2, ringNode 3, ringNode 4] ringNeighbours where
  distinct := by decide
  closed node hnode other hother := by
    simp only [List.mem_cons, List.not_mem_nil, or_false] at hnode ⊢
    rcases hnode with rfl | rfl | rfl | rfl <;> simp_all [ringNeighbours, ringNode]
    rcases hother with rfl | rfl <;> simp

/-- A ledger in which one node on the cycle was written, with a cap that allows
    no more sweeps than there are nodes. -/
def ringLedger : Transaction Unit Unit (Watched Unit Unit MemoryLog) :=
  reached (idleHooks.nested idleScript idlePlan MemoryLog.sink 0) MemoryLog.sink
    { maxSweeps := 4 } ∅ ∅ [.record (.modify none (ringNode 1) (.plain "seed") none none)]

/-- All three nodes on the cycle are visited, each once; the written one stays
    modified, and the fourth node is left alone. -/
theorem cascades_visit_what_they_reach_on_a_ring :
    let out := settle (idleHooks.watched (markNeighbours ringNeighbours)) none ringLedger
    out.1 = .ok () ∧ out.2.staging.ids = [⟨.node, 1⟩, ⟨.node, 2⟩, ⟨.node, 3⟩] ∧
      out.2.staging.records.map Record.verb = [.modify, .propagated, .propagated] ∧
      (∃ calls, out.2.events = ringLedger.events ++ calls ∧
        (calls.filterMap Event.hooked?).Perm [ringNode 1, ringNode 2, ringNode 3]) ∧
      ¬ Reaches ringNeighbours (ringNode 1) (ringNode 4) := by
  intro out
  have hseeds : ∀ r ∈ ringLedger.staging.records,
      r.dirty = true ∧ r.object ∈ [ringNode 1, ringNode 2, ringNode 3, ringNode 4] := by
    intro r hr
    rw [List.mem_singleton.mp hr]
    exact ⟨rfl, List.mem_cons_self⟩
  have hcap : 4 ≤ ringLedger.staging.options.maxSweeps := Nat.le_refl 4
  obtain ⟨hok, -, ⟨calls, hcalls, -, hperm⟩, -, hreach, -⟩ :=
    cascades_visit_what_they_reach idleHooks idleScript idlePlan 0 MemoryLog.sink
      { maxSweeps := 4 } ∅ ∅ [.record (.modify none (ringNode 1) (.plain "seed") none none)]
      idleHooks none _ ringNeighbours isNetwork_ring hseeds hcap
  have hids : out.2.staging.ids = [⟨.node, 1⟩, ⟨.node, 2⟩, ⟨.node, 3⟩] := rfl
  refine ⟨hok, hids, rfl, ⟨calls, hcalls, hperm⟩, fun hreaches => ?_⟩
  -- What can be reached from the written node has a record.
  obtain ⟨r, hr, hobject⟩ := (hreach (ringNode 4)).mpr ⟨_, List.mem_cons_self, hreaches⟩
  have hid : (ringNode 4).id ∈ out.2.staging.ids := by
    rw [← hobject]
    exact List.mem_map_of_mem hr
  rw [hids] at hid
  simp [ringNode] at hid

end Transaction

end ChangeLedger
