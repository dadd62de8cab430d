/-
  ChangeLedger.Proofs.SyncKeys — the synchronization keys mirror the records.

  The staging area remembers the synchronization keys of written properties
  beside the records, and adds to them write by write.  A record keeps a
  difference of every property that was written on it.  So the remembered keys
  are those of the properties with a difference, whatever is recorded, and
  both are dropped together.

  A commit takes them for its report together with the records, so that the
  report names the keys of the properties that the records change.

  Main results:
    * `RecordTable.writesKey_touchAll` — the keys with a difference after
      touches.
    * `Staging.syncKeys_after` — the synchronization keys after a recording.
    * `Transaction.sync_keys_mirror_records` — they mirror the records at every
      moment, and so they do in the report of every commit.
-/
import ChangeLedger.Proofs.NetDiffs
import ChangeLedger.Proofs.PhaseFailures
import ChangeLedger.Proofs.Reordering

namespace ChangeLedger

variable {κ π σ : Type}

/-! ## The keys with a difference -/

/-- Changes of a record add differences of the keys that they write. -/
theorem Record.contains_modified_applyAll (r : Record κ) (cs : List RecordChange)
    (key : PropertyKey) :
    (r.applyAll cs).modified.contains key = true ↔
      r.modified.contains key = true ∨
        ∃ w ∈ cs.filterMap (RecordChange.write? r.id), w.key = key := by
  induction cs generalizing r with
  | nil => simp [Record.applyAll]
  | cons c rest ih =>
    have hid : (r.apply c).id = r.id := congrArg Tracked.id (object_apply r c)
    show ((r.apply c).applyAll rest).modified.contains key = true ↔ _
    rw [ih, hid]
    unfold SortedMap.contains
    rw [modified_apply]
    cases hc : c.write? r.id with
    | none => rw [List.filterMap_cons_none hc]
    | some w =>
      rw [List.filterMap_cons_some hc, List.exists_mem_cons_iff]
      have hof : w.isOf r.id key = decide (w.key = key) := by
        unfold PropertyWrite.isOf
        rw [RecordChange.owner_of_write? hc]
        simp
      dsimp only
      rw [hof]
      by_cases hk : w.key = key
      · simp [hk]
      · simp [hk]

namespace RecordTable

/-- Some record has a difference of the property. -/
def WritesKey (b : RecordTable κ) (key : PropertyKey) : Prop :=
  ∃ r ∈ b.records, r.modified.contains key = true

/-- A touch adds differences of the keys that it writes. -/
theorem writesKey_touch (b : RecordTable κ) (x : Touch κ) (key : PropertyKey) :
    (b.touch x).WritesKey key ↔ b.WritesKey key ∨ ∃ w ∈ x.propertyWrites, w.key = key := by
  unfold touch WritesKey
  split
  next hsome =>
    -- The record is changed where it stands.
    obtain ⟨r₀, hr₀⟩ := Option.isSome_iff_exists.mp hsome
    have hid₀ : r₀.id = x.object.id := Staging.id_of_findRecord hr₀
    have hmem₀ : r₀ ∈ b.records := List.mem_of_find?_eq_some hr₀
    show (∃ r ∈ updateRecord x.object.id _ b.records, _) ↔ _
    unfold updateRecord
    simp only [List.mem_map, exists_exists_and_eq_and]
    constructor
    · rintro ⟨r, hr, hkey⟩
      split at hkey
      next hid =>
        rw [Record.contains_modified_applyAll, hid] at hkey
        exact hkey.imp (fun hold => ⟨r, hr, hold⟩) id
      next => exact .inl ⟨r, hr, hkey⟩
    · rintro (⟨r, hr, hkey⟩ | hwrite)
      · refine ⟨r, hr, ?_⟩
        split
        · exact (Record.contains_modified_applyAll r x.changes key).mpr (.inl hkey)
        · exact hkey
      · refine ⟨r₀, hmem₀, ?_⟩
        rw [if_pos hid₀, Record.contains_modified_applyAll, hid₀]
        exact .inr hwrite
  next =>
    -- A record is opened, which has no differences yet.
    show (∃ r ∈ b.records ++ [x.opened b.nextTick], _) ↔ _
    simp only [List.mem_append, List.mem_singleton, or_and_right, exists_or, exists_eq_left]
    refine or_congr Iff.rfl ?_
    unfold Touch.opened
    rw [Record.contains_modified_applyAll]
    exact or_iff_right fun hold => nomatch hold

/-- Touches add differences of the keys that they write. -/
theorem writesKey_touchAll (b : RecordTable κ) (xs : List (Touch κ)) (key : PropertyKey) :
    (b.touchAll xs).WritesKey key ↔
      b.WritesKey key ∨ ∃ w ∈ xs.flatMap Touch.propertyWrites, w.key = key := by
  induction xs generalizing b with
  | nil => simp
  | cons x rest ih =>
    rw [touchAll_cons, ih, writesKey_touch, List.flatMap_cons, or_assoc]
    simp only [List.mem_append, or_and_right, exists_or]

end RecordTable

/-! ## The synchronization keys of a recording -/

namespace Mutation

/-- The synchronization keys that an operation writes are those of the
    properties that it writes. -/
theorem writtenSyncs_eq (s : Staging κ π) (m : Mutation κ π) :
    s.writtenSyncs m = (m.propertyWrites s).filterMap fun w => w.key.sync := by
  have hedge : ∀ (event : EdgeEvent) (edge : Edge κ),
      s.edgeSyncs edge = (s.schema.edgeWrites event edge).filterMap fun w => w.key.sync := by
    intro event edge
    unfold Staging.edgeSyncs Staging.foldKeys Schema.edgeWrites
    cases edge.source? with
    | none => cases edge.type? <;> rfl
    | some source =>
      cases edge.target? with
      | none => cases edge.type? <;> rfl
      | some target =>
        cases edge.type? with
        | none => rfl
        | some type =>
          dsimp only
          cases type.aspect? with
          | some aspect => rfl
          | none =>
            cases s.schema.describe? type with
            | none => rfl
            | some d =>
              obtain ⟨source?, target?⟩ := d
              cases source? <;> cases target? <;> simp [List.filterMap_cons]
  cases m with
  | modify user object key previous new =>
    show key.sync.toList = List.filterMap _ [_]
    rw [List.filterMap_cons]
    dsimp only
    cases key.sync <;> rfl
  | createEdge user edge => exact hedge .created edge
  | deleteEdge user edge passive => exact hedge .deleted edge
  | _ => rfl

end Mutation

namespace Staging

/-- A recording that drops nothing adds the synchronization keys of the
    properties that it writes. -/
theorem syncKeys_after (s : Staging κ π) {m : Mutation κ π} (hm : m.isClear = false) :
    (s.after m).syncKeys =
      ((m.propertyWrites s).filterMap fun w => w.key.sync).foldl SortedSet.insert s.syncKeys := by
  rw [← Mutation.writtenSyncs_eq]
  cases m with
  | defer key action =>
    show (s.defer key action).2.syncKeys = s.syncKeys
    unfold defer
    split <;> rfl
  | disableLog => rfl
  | describeEdges type d => rfl
  | clear => cases hm
  | _ => exact syncKeys_after_operation rfl

/-- The modified keys are those that some record has a difference of. -/
theorem contains_modifiedKeys (s : Staging κ π) (key : PropertyKey) :
    s.modifiedKeys.contains key = true ↔ ∃ r ∈ s.records, r.modified.contains key = true := by
  have hfold : ∀ (rs : List (Record κ)) (keys : SortedSet PropertyKey),
      (rs.foldl (fun ks r => r.modified.keys.foldl SortedSet.insert ks) keys).contains key = true ↔
        (∃ r ∈ rs, r.modified.contains key = true) ∨ keys.contains key = true := by
    intro rs
    induction rs with
    | nil => simp
    | cons r rest ih =>
      intro keys
      rw [List.foldl_cons, ih, SortedSet.contains_foldl_insert, SortedMap.mem_keys_iff,
        List.exists_mem_cons_iff, or_left_comm, or_assoc]
  have hempty : ¬ (∅ : SortedSet PropertyKey).contains key = true := Bool.false_ne_true
  exact (hfold s.records ∅).trans (or_iff_left hempty)

/-- The synchronization keys are those of the modified keys. -/
def SyncKeysMirrored (s : Staging κ π) : Prop :=
  ∀ sync, s.syncKeys.contains sync = true ↔
    ∃ key, s.modifiedKeys.contains key = true ∧ key.sync = some sync

namespace SyncKeysMirrored

variable {s s' : Staging κ π}

/-- What matters are the synchronization keys and the differences. -/
theorem congr (hs : s.SyncKeysMirrored) (hsyncs : s'.syncKeys = s.syncKeys)
    (hkeys : ∀ key, s'.table.WritesKey key ↔ s.table.WritesKey key) : s'.SyncKeysMirrored := by
  intro sync
  rw [hsyncs, hs sync]
  refine exists_congr fun key => and_congr_left fun _ => ?_
  rw [contains_modifiedKeys, contains_modifiedKeys]
  exact (hkeys key).symm

/-- Records may change where they stand, as long as their differences stay. -/
theorem map (hs : s.SyncKeysMirrored) {f : Record κ → Record κ}
    (hf : ∀ r, (f r).modified = r.modified) :
    SyncKeysMirrored { s with records := s.records.map f } := by
  refine hs.congr rfl fun key => ?_
  show (∃ r ∈ s.records.map f, _) ↔ ∃ r ∈ s.records, _
  simp only [List.mem_map, exists_exists_and_eq_and, hf]

theorem after (hs : s.SyncKeysMirrored) (m : Mutation κ π) : (s.after m).SyncKeysMirrored := by
  cases hm : m.isClear with
  | true =>
    -- The keys are dropped together with the records.
    cases m with
    | clear =>
      intro sync
      constructor
      · exact fun h => nomatch h
      · rintro ⟨key, hkey, -⟩
        obtain ⟨r, hr, -⟩ := (contains_modifiedKeys _ key).mp hkey
        cases hr
    | _ => cases hm
  | false =>
    have hkeys : ∀ key, (s.after m).modifiedKeys.contains key = true ↔
        s.modifiedKeys.contains key = true ∨ ∃ w ∈ m.propertyWrites s, w.key = key := by
      intro key
      rw [contains_modifiedKeys, contains_modifiedKeys, ← propertyWrites_touches]
      show (s.after m).table.WritesKey key ↔ _
      rw [table_after_touches s hm]
      exact s.table.writesKey_touchAll (m.touches s) key
    intro sync
    rw [syncKeys_after s hm, SortedSet.contains_foldl_insert, hs sync, List.mem_filterMap]
    constructor
    · rintro (⟨w, hw, hsync⟩ | ⟨key, hkey, hsync⟩)
      · exact ⟨w.key, (hkeys w.key).mpr (.inr ⟨w, hw, rfl⟩), hsync⟩
      · exact ⟨key, (hkeys key).mpr (.inl hkey), hsync⟩
    · rintro ⟨key, hkey, hsync⟩
      cases (hkeys key).mp hkey with
      | inl hold => exact .inr ⟨key, hold, hsync⟩
      | inr hnew =>
        obtain ⟨w, hw, rfl⟩ := hnew
        exact .inl ⟨w, hw, hsync⟩

end SyncKeysMirrored

end Staging

/-- Whatever happens, the synchronization keys mirror the records. -/
theorem keptAlong_syncKeysMirrored :
    KeptAlong fun (s : Staging κ π) (_ : List (Recorded κ π)) => s.SyncKeysMirrored where
  recorded m hs := hs.after m
  cleaned id hs := by
    refine hs.map fun r => ?_
    split <;> rfl
  counted {s past} f hs := by
    refine hs.congr ?_ fun key => ?_
    · unfold Staging.count
      split <;> rfl
    · rw [Staging.table_count]
  taken hs := hs
  drained hs := hs.map fun _ => rfl

theorem syncKeysMirrored_new (options : Options) (schema : Schema) :
    (Staging.new options schema : Staging κ π).SyncKeysMirrored := by
  intro sync
  constructor
  · exact fun h => nomatch h
  · rintro ⟨key, hkey, -⟩
    cases hkey

namespace Transaction

/-- At every moment of every reachable ledger, between any two recordings, also
    those of one inner hook, the modified keys are those that the records have
    differences of, and the synchronization keys are those of the modified keys.
    So whoever commits while this is so, with any pool, a report of the commit
    names exactly the synchronization keys of the properties that its records
    change. -/
theorem sync_keys_mirror_records (h : Hooks κ π σ) (script : InnerScript κ π σ)
    (plan : InnerPlan κ π σ) (depth : Nat) (sink : Sink σ) (options : Options) (schema : Schema)
    (world : σ) (moves : List (Move κ π σ)) :
    (∀ s past,
      (reached (h.nested script plan sink depth) sink options schema world moves).Moment s past →
        (∀ key, s.modifiedKeys.contains key = true ↔
          ∃ r ∈ s.records, r.modified.contains key = true) ∧
        s.SyncKeysMirrored) ∧
    ∀ (level : Nat) (t : Transaction κ π (Watched κ π σ)), t.staging.SyncKeysMirrored →
      ∀ (pool : Pool) (storage : Storage σ) (validating : Bool) (user : Option Principal) report
        after, commitOn pool (h.nested script plan sink level) sink.watched storage.watched
          validating user t = (.ok report, after) →
        let committed :=
          (prepare (h.nested script plan sink level) validating user
            { t with errors := ∅ }).2.staging
        report.records = committed.snapshots ∧
          ∀ sync, report.syncKeys.contains sync = true ↔
            ∃ r ∈ committed.records, ∃ key,
              r.modified.contains key = true ∧ key.sync = some sync := by
  constructor
  · intro s past hm
    exact ⟨s.contains_modifiedKeys, keptAlong_syncKeysMirrored.atMoments h script plan depth sink
      (syncKeysMirrored_new options schema) world moves hm⟩
  · intro level t ht pool storage validating user report after hcommit
    have hk : Kept fun (s : Staging κ π) (_ : List (Event κ π)) => s.SyncKeysMirrored :=
      keptAlong_syncKeysMirrored.kept
    have hp := hk.prepare h script _ (hk.planned h script sink plan level) validating user
      (t := { t with errors := ∅ }) ht
    obtain ⟨-, -, rfl, -⟩ := commitOn_ok hcommit
    refine ⟨rfl, fun sync => (hp sync).trans ?_⟩
    simp only [Staging.contains_modifiedKeys]
    constructor
    · rintro ⟨key, ⟨r, hr, hkey⟩, hsync⟩
      exact ⟨r, hr, key, hkey, hsync⟩
    · rintro ⟨r, hr, key, hkey, hsync⟩
      exact ⟨key, ⟨r, hr, hkey⟩, hsync⟩

/-- A write is reported under the synchronization key of its property. -/
theorem sync_keys_mirror_records_write :
    let t : Transaction Unit Unit (Watched Unit Unit MemoryLog) :=
      reached (idleHooks.nested idleScript idlePlan MemoryLog.sink 0) MemoryLog.sink {} ∅ ∅
        [.record (.modify none ada ⟨"name", some "names"⟩ none (some (.str "Ada")))]
    ∃ report after,
      commitOn .inline (idleHooks.nested idleScript idlePlan MemoryLog.sink 0)
        MemoryLog.sink.watched willingStorage.watched true none t = (.ok report, after) ∧
      report.syncKeys.contains "names" = true := by
  intro t
  have hc : commitOn .inline (idleHooks.nested idleScript idlePlan MemoryLog.sink 0)
      MemoryLog.sink.watched willingStorage.watched true none t = (.ok _, _) := rfl
  obtain ⟨hmoments, hcommits⟩ := sync_keys_mirror_records idleHooks idleScript idlePlan 0
    MemoryLog.sink {} ∅ ∅
    [.record (.modify none ada ⟨"name", some "names"⟩ none (some (.str "Ada")))]
  have hreport :=
    (hcommits 0 t (hmoments _ _ .now).2 .inline willingStorage true none _ _ hc).2 "names"
  exact ⟨_, _, hc, hreport.mpr ⟨_, List.mem_cons_self, ⟨"name", some "names"⟩, rfl, rfl⟩⟩

end Transaction

end ChangeLedger
