/-
  ChangeLedger.Proofs.PhaseInduction — what every call keeps, a phase keeps.

  A phase is a loop over records or actions, and the first phase is a loop of
  such loops.  A property of transactions that each single call of the loop
  keeps, and that the counting at its end keeps, holds after the phase if it
  held before, however the phase ends.

  Likewise a map of transactions commutes with the sweeps if it commutes with
  each visit and with the counting.

  Main results:
    * `settle_keeps`, `validate_keeps`, `runDeferred_keeps`, `notify_keeps` —
      the four phases that call hooks and actions.
    * `settleWithin_commutes` — two runs of the inner hooks, one the image of
      the other.
    * `validate_records`, `runDeferred_records`, `notify_records` — the phases
      that leave the records alone.
    * `Sink.appendAll_keeps` — the appends of the fifth.
-/
import ChangeLedger.Transaction.Commit

namespace ChangeLedger

variable {κ π σ : Type}

namespace Transaction

variable {h : Hooks κ π σ} {user : Option Principal} {P : Transaction κ π σ → Prop}

/-! ## The inner hooks -/

theorem sweep_keeps
    (hvisit : ∀ r t, P t → t.staging.find? r.id = some r → r.dirty = true →
      P (visit h user r t).2)
    (ids : List ObjectId) (called : Nat) (t : Transaction κ π σ) (ht : P t) :
    P (sweep h user ids called t).2 := by
  -- The identities are fixed when the sweep begins, but every record is looked
  -- up anew, for the hooks before may have changed it.
  induction ids generalizing called t with
  | nil => exact ht
  | cons id rest ih =>
    unfold sweep
    cases hf : (t.staging.find? id).filter Record.dirty with
    | none => exact ih called t ht
    | some r =>
      obtain ⟨hr, hdirty⟩ := Option.filter_eq_some_iff.mp hf
      have hid : r.id = id := Staging.id_of_findRecord hr
      have hv := hvisit r t ht (by rw [hid]; exact hr) hdirty
      dsimp only
      revert hv
      cases visit h user r t with
      | mk answer t' =>
        intro hv
        cases answer with
        | error e => exact hv
        | ok _ => exact ih (called + 1) t' hv

theorem settleWithin_keeps
    (hvisit : ∀ r t, P t → t.staging.find? r.id = some r → r.dirty = true →
      P (visit h user r t).2)
    (hcount : ∀ f t, P t → P (t.stage (·.count f)))
    (left made : Nat) (t : Transaction κ π σ) (ht : P t) :
    P (settleWithin h user left made t).2 := by
  induction left generalizing made t with
  | zero =>
    -- With no sweep left, the staging area is only asked what is dirty.
    unfold settleWithin
    cases t.staging.records.find? Record.dirty <;> exact ht
  | succ left ih =>
    unfold settleWithin
    have hs := sweep_keeps hvisit t.staging.ids 0 t ht
    revert hs
    obtain ⟨answer, t'⟩ := sweep h user t.staging.ids 0 t
    intro hs
    match answer with
    | .error e => exact hs
    | .ok 0 => exact hs
    | .ok (called + 1) => exact ih (made + 1) _ (hcount _ t' hs)

/-! ## Two runs of the inner hooks -/

section

variable {σ' : Type} {h' : Hooks κ π σ'} {f : Transaction κ π σ → Transaction κ π σ'}
  {k : Record κ → Record κ}

/-- A change of records that sweeps and inner hooks are not told of. -/
structure Unseen (k : Record κ → Record κ) : Prop where
  object : ∀ r, (k r).object = r.object
  verb : ∀ r, (k r).verb = r.verb
  callback : ∀ r, (k r).callback = r.callback
  dirty : ∀ r, (k r).dirty = r.dirty

theorem unseen_id : Unseen (id : Record κ → Record κ) :=
  ⟨fun _ => rfl, fun _ => rfl, fun _ => rfl, fun _ => rfl⟩

namespace Unseen

theorem id_eq (hk : Unseen k) (r : Record κ) : (k r).id = r.id := congrArg Tracked.id (hk.object r)

theorem dirty_comp (hk : Unseen k) : Record.dirty ∘ k = Record.dirty := funext hk.dirty

theorem findRecord_map (hk : Unseen k) (id : ObjectId) (rs : List (Record κ)) :
    findRecord id (rs.map k) = (findRecord id rs).map k := by
  unfold findRecord
  rw [List.find?_map]
  refine congrArg (fun p => (rs.find? p).map k) (funext fun r => ?_)
  exact congrArg (fun id' => decide (id' = id)) (hk.id_eq r)

theorem ids_map (hk : Unseen k) (rs : List (Record κ)) :
    (rs.map k).map Record.id = rs.map Record.id := by
  rw [List.map_map]
  exact List.map_congr_left fun r _ => hk.id_eq r

end Unseen

/-- A map of transactions that does not touch what is added to the errors, and
    commutes with the inner hooks and with the clearing of a record, commutes
    with a visit. -/
theorem visit_commutes (hk : Unseen k)
    (hadded : ∀ t t', (f t').errors.since (f t).errors.size = t'.errors.since t.errors.size)
    (hupdate : ∀ id t, f (t.stage (·.update id Record.clearDirty))
      = (f t).stage (·.update id Record.clearDirty))
    (hinner : ∀ object ctx t, Prod.map id f (h.inner object ctx t) = h'.inner object ctx (f t))
    (r : Record κ) (t : Transaction κ π σ) :
    Prod.map id f (visit h user r t) = visit h' user (k r) (f t) := by
  unfold visit
  rw [hk.object, hk.verb, hk.callback, hk.id_eq, ← hinner]
  obtain ⟨answer, t'⟩ := h.inner r.object ⟨user, r.verb, r.callback⟩ t
  cases answer with
  | error e => rfl
  | ok _ =>
    -- Both sides find the same tokens added, or none.
    show Prod.map id f (if t.errors.size < t'.errors.size then _ else _)
      = if (f t).errors.size < (f t').errors.size then _ else _
    simp only [← ErrorBuffer.since_ne_nil_iff, hadded]
    split
    · rfl
    · exact congrArg (Prod.mk _) (hupdate r.id t')

/-- A map of transactions that changes each record unseen and commutes with
    every visit commutes with a sweep. -/
theorem sweep_commutes (hk : Unseen k)
    (hrecords : ∀ t, (f t).staging.records = t.staging.records.map k)
    (hvisit : ∀ r t, Prod.map id f (visit h user r t) = visit h' user (k r) (f t))
    (ids : List ObjectId) (called : Nat) (t : Transaction κ π σ) :
    Prod.map id f (sweep h user ids called t) = sweep h' user ids called (f t) := by
  induction ids generalizing called t with
  | nil => rfl
  | cons id rest ih =>
    unfold sweep
    -- Both sides find the same record, but for the change.
    have hfind : ((f t).staging.find? id).filter Record.dirty
        = ((t.staging.find? id).filter Record.dirty).map k := by
      unfold Staging.find?
      rw [hrecords, hk.findRecord_map, Option.filter_map, hk.dirty_comp]
    rw [hfind]
    cases (t.staging.find? id).filter Record.dirty with
    | none => exact ih called t
    | some r =>
      dsimp only [Option.map_some]
      rw [← hvisit r t]
      obtain ⟨answer, t'⟩ := visit h user r t
      cases answer with
      | error e => rfl
      | ok _ => exact ih (called + 1) t'

/-- If it commutes with counting too, it commutes with all sweeps. -/
theorem settleWithin_commutes (hk : Unseen k)
    (hrecords : ∀ t, (f t).staging.records = t.staging.records.map k)
    (hvisit : ∀ r t, Prod.map id f (visit h user r t) = visit h' user (k r) (f t))
    (hcount : ∀ g t, f (t.stage (·.count g)) = (f t).stage (·.count g))
    (left made : Nat) (t : Transaction κ π σ) :
    Prod.map id f (settleWithin h user left made t) = settleWithin h' user left made (f t) := by
  induction left generalizing made t with
  | zero =>
    unfold settleWithin
    rw [hrecords, List.find?_map, hk.dirty_comp]
    cases t.staging.records.find? Record.dirty with
    | none => rfl
    | some r =>
      dsimp only [Option.map_some]
      rw [hk.id_eq]
      rfl
  | succ left ih =>
    unfold settleWithin
    have hids : (f t).staging.ids = t.staging.ids := by
      unfold Staging.ids
      rw [hrecords, hk.ids_map]
    rw [hids, ← sweep_commutes hk hrecords hvisit t.staging.ids 0 t]
    obtain ⟨answer, t'⟩ := sweep h user t.staging.ids 0 t
    match answer with
    | .error e => rfl
    | .ok 0 => rfl
    | .ok (called + 1) =>
      refine (ih (made + 1) _).trans ?_
      rw [hcount]
      rfl

end

/-- What every call of an inner hook keeps, the first phase keeps. -/
theorem settle_keeps
    (hvisit : ∀ r t, P t → t.staging.find? r.id = some r → r.dirty = true →
      P (visit h user r t).2)
    (hcount : ∀ f t, P t → P (t.stage (·.count f)))
    (t : Transaction κ π σ) (ht : P t) : P (settle h user t).2 :=
  hcount _ _ (settleWithin_keeps hvisit hcount t.staging.options.maxSweeps 0 t ht)

/-! ## Validation -/

theorem accept_keeps
    (hvalidate : ∀ r t, P t → P { t with
      errors := (h.validate r t.errors t.world).2.1
      world := (h.validate r t.errors t.world).2.2 })
    (validating : Bool) (r : Record κ) (t : Transaction κ π σ) (ht : P t) :
    P (accept h validating r t).2 := by
  unfold accept
  split
  next =>
    have hv := hvalidate r t ht
    revert hv
    obtain ⟨ok, errors, world⟩ := h.validate r t.errors t.world
    intro hv
    cases ok <;> exact hv
  next => exact ht

theorem validateRecords_keeps
    (hvalidate : ∀ r t, P t → P { t with
      errors := (h.validate r t.errors t.world).2.1
      world := (h.validate r t.errors t.world).2.2 })
    (hindex : ∀ r t, P t → P { t with world := (h.index r t.world).2 })
    (validating : Bool) (rs : List (Record κ)) (t : Transaction κ π σ) (ht : P t) :
    P (validateRecords h validating rs t).2 := by
  induction rs generalizing t with
  | nil => exact ht
  | cons r rest ih =>
    unfold validateRecords
    split
    next => exact ih t ht
    next =>
      have ha := accept_keeps hvalidate validating r t ht
      revert ha
      -- A rejected record ends the phase; only an accepted one is indexed.
      obtain ⟨answer, t'⟩ := accept h validating r t
      intro ha
      cases answer with
      | error e => exact ha
      | ok _ =>
        have hi := hindex r t' ha
        revert hi
        dsimp only
        obtain ⟨answer', world⟩ := h.index r t'.world
        intro hi
        cases answer' with
        | error e => exact hi
        | ok _ => exact ih _ hi

/-- What every call of a validator and every indexing keeps, the second phase
    keeps. -/
theorem validate_keeps
    (hvalidate : ∀ r t, P t → P { t with
      errors := (h.validate r t.errors t.world).2.1
      world := (h.validate r t.errors t.world).2.2 })
    (hindex : ∀ r t, P t → P { t with world := (h.index r t.world).2 })
    (hcount : ∀ f t, P t → P (t.stage (·.count f)))
    (validating : Bool) (t : Transaction κ π σ) (ht : P t) :
    P (validate h validating t).2 :=
  hcount _ _ (validateRecords_keeps hvalidate hindex validating t.staging.records t ht)

/-! ## The deferred actions -/

theorem runActions_keeps
    (hact : ∀ action t, P t → P { t with
      errors := (h.act action user t.errors t.world).2.1
      world := (h.act action user t.errors t.world).2.2 })
    (actions : List (String × π)) (t : Transaction κ π σ) (ht : P t) :
    P (runActions h user actions t).2 := by
  induction actions generalizing t with
  | nil => exact ht
  | cons a rest ih =>
    obtain ⟨key, action⟩ := a
    unfold runActions
    have ha := hact action t ht
    revert ha
    obtain ⟨result, errors, world⟩ := h.act action user t.errors t.world
    intro ha
    dsimp only
    split
    next => exact ha
    next => exact ih _ ha

/-- What every action keeps, the third phase keeps. -/
theorem runDeferred_keeps
    (hact : ∀ action t, P t → P { t with
      errors := (h.act action user t.errors t.world).2.1
      world := (h.act action user t.errors t.world).2.2 })
    (htake : ∀ t, P t → P (t.stage fun s => { s with pending := [] }))
    (hcount : ∀ f t, P t → P (t.stage (·.count f)))
    (t : Transaction κ π σ) (ht : P t) : P (runDeferred h user t).2 :=
  hcount _ _ (runActions_keeps hact t.staging.pending _ (htake t ht))

/-! ## The outer hooks and the appends -/

theorem notifyRecords_keeps {Q : σ → Prop}
    (houter : ∀ r w, Q w → Q (h.outer r user w).2)
    (rs : List (Record κ)) (w : σ) (hw : Q w) : Q (notifyRecords h user rs w).2 := by
  induction rs generalizing w with
  | nil => exact hw
  | cons r rest ih =>
    -- A hook that fails adds a warning and stops nothing.
    have ho := ih _ (houter r w hw)
    unfold notifyRecords
    revert ho
    obtain ⟨answer, w'⟩ := h.outer r user w
    intro ho
    cases answer <;> exact ho

/-- What every call of an outer hook keeps, the fourth phase keeps. -/
theorem notify_keeps
    (houter : ∀ r t, P t → P { t with world := (h.outer r user t.world).2 })
    (hcount : ∀ f t, P t → P (t.stage (·.count f)))
    (t : Transaction κ π σ) (ht : P t) : P (notify h user t).2 :=
  hcount _ { t with world := (notifyRecords h user t.staging.records t.world).2 }
    (notifyRecords_keeps (Q := fun world => P { t with world })
      (fun r w hw => houter r { t with world := w } hw) t.staging.records t.world ht)

/-! ## What the three middle phases leave alone -/

/-- Validation leaves the records alone. -/
theorem validate_records (h : Hooks κ π σ) (validating : Bool) (t : Transaction κ π σ) :
    (validate h validating t).2.staging.records = t.staging.records :=
  validate_keeps (P := fun t' => t'.staging.records = t.staging.records)
    (fun _ _ ht => ht) (fun _ _ ht => ht)
    (fun f t' ht => (Staging.records_count t'.staging f).trans ht) validating t rfl

/-- The deferred actions leave the records alone. -/
theorem runDeferred_records (h : Hooks κ π σ) (user : Option Principal) (t : Transaction κ π σ) :
    (runDeferred h user t).2.staging.records = t.staging.records :=
  runDeferred_keeps (P := fun t' => t'.staging.records = t.staging.records)
    (fun _ _ ht => ht) (fun _ ht => ht)
    (fun f t' ht => (Staging.records_count t'.staging f).trans ht) t rfl

/-- The outer hooks leave the records alone. -/
theorem notify_records (h : Hooks κ π σ) (user : Option Principal) (t : Transaction κ π σ) :
    (notify h user t).2.staging.records = t.staging.records :=
  notify_keeps (P := fun t' => t'.staging.records = t.staging.records)
    (fun _ _ ht => ht) (fun f t' ht => (Staging.records_count t'.staging f).trans ht) t rfl

end Transaction

/-- What every append keeps, a run of appends keeps. -/
theorem Sink.appendAll_keeps {sink : Sink σ} {Q : σ → Prop}
    (happend : ∀ name text w, Q w → Q (sink.append name text w).2)
    (writes : List (LogName × String)) (w : σ) (hw : Q w) : Q (sink.appendAll writes w).2 := by
  induction writes generalizing w with
  | nil => exact hw
  | cons a rest ih => exact ih _ (happend a.1 a.2 w hw)

end ChangeLedger
