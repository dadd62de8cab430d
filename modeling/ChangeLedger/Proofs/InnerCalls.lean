/-
  ChangeLedger.Proofs.InnerCalls — the calls that a sweep makes.

  A sweep goes over records that were listed when it began, and calls the inner
  hook of each one that is dirty when its turn comes.  What the hook is told is
  read off the record at that time.  Hooks that record and drop nothing keep
  every record at its place, so that a sweep comes to each of them once; they
  also keep dirty what is dirty, so that a record waits for the next call of its
  own hook.

  The calls of one sweep are given here with all that they begin from, and
  `SweepCalls` says which they are.

  Main results:
    * `visit_watched` — what one call leaves, and its event.
    * `SweepCalls.nothing`, `SweepCalls.passOver`, `SweepCalls.stop`,
      `SweepCalls.goOn` — the turns of a sweep.
    * `sweep_calls` — every sweep makes its calls.
-/
import ChangeLedger.Proofs.HookCoverage
import ChangeLedger.Proofs.RecordNumbering

namespace ChangeLedger

variable {κ π σ : Type}

/-! ## Dirty records -/

namespace Staging

variable {s : Staging κ π} {id : ObjectId}

/-- Whether the object has a record that is dirty. -/
def isDirty (s : Staging κ π) (id : ObjectId) : Bool := (s.find? id).any Record.dirty

theorem isDirty_iff (s : Staging κ π) (id : ObjectId) :
    s.isDirty id = true ↔ s.contains id = true ∧ s.isClean id = false := by
  unfold isDirty contains isClean RecordTable.isClean
  rw [show s.table.find? id = s.find? id from rfl]
  cases s.find? id with
  | none => simp
  | some r => simp

theorem isDirty_of_find? {r : Record κ} (hr : s.find? id = some r) : s.isDirty id = r.dirty := by
  unfold isDirty
  rw [hr]
  rfl

theorem exists_of_isDirty (hd : s.isDirty id = true) :
    ∃ r, s.find? id = some r ∧ r.dirty = true := by
  unfold isDirty at hd
  cases hr : s.find? id with
  | none => rw [hr] at hd; cases hd
  | some r => exact ⟨r, rfl, by rw [hr] at hd; exact hd⟩

theorem isDirty_of_records {s' : Staging κ π} (h : s'.records = s.records) (id : ObjectId) :
    s'.isDirty id = s.isDirty id := by
  unfold isDirty find?
  rw [h]

/-- A recording that drops nothing keeps dirty what is dirty. -/
theorem isDirty_after {m : Mutation κ π} (hm : m.isClear = false) (hd : s.isDirty id = true) :
    (s.after m).isDirty id = true := by
  obtain ⟨hcontains, hclean⟩ := (s.isDirty_iff id).mp hd
  refine (isDirty_iff _ id).mpr ⟨contains_after_of_contains hm hcontains, ?_⟩
  refine eq_false_of_ne_true fun hafter => ?_
  rw [(isClean_after hafter).1] at hclean
  cases hclean

theorem isDirty_afterAll {ms : List (Mutation κ π)} (hms : ∀ m ∈ ms, m.isClear = false)
    (hd : s.isDirty id = true) : (s.afterAll ms).isDirty id = true := by
  induction ms generalizing s with
  | nil => exact hd
  | cons m rest ih =>
    exact ih (fun m' hm' => hms m' (List.mem_cons_of_mem _ hm'))
      (isDirty_after (hms m List.mem_cons_self) hd)

theorem isDirty_clearDirty {q : ObjectId} (hne : q ≠ id) :
    (s.update q Record.clearDirty).isDirty id = s.isDirty id := by
  unfold isDirty find? update
  rw [findRecord_updateRecord (f := Record.clearDirty) (fun _ => rfl), if_neg (Ne.symm hne)]

/-- Recordings that drop nothing leave every record at its place. -/
theorem stamps_afterAll {ms : List (Mutation κ π)} (hms : ∀ m ∈ ms, m.isClear = false) :
    s.table.stamps <+: (s.afterAll ms).table.stamps := by
  induction ms generalizing s with
  | nil => exact List.prefix_refl _
  | cons m rest ih =>
    have hfirst : s.table.stamps <+: (s.after m).table.stamps := by
      rw [(s.stamps_after_openings (hms m List.mem_cons_self)).1]
      exact List.prefix_append ..
    exact hfirst.trans (ih fun m' hm' => hms m' (List.mem_cons_of_mem _ hm'))

/-- In an ordered staging area, the stamp of an object is that of the record
    which is found for it. -/
theorem Ordered.stamp_eq (hs : s.Ordered) {r r' : Record κ} (hr : r.stamp ∈ s.table.stamps)
    (hr' : s.find? r.id = some r') : r'.stamp = r.stamp := by
  obtain ⟨r₁, hr₁, hstamp⟩ := List.mem_map.mp hr
  have hid : r₁.id = r.id := congrArg (fun e => e.1.id) hstamp
  have hfound : s.find? r.id = some r₁ := hid ▸ hs.find?_of_mem hr₁
  rw [← hstamp, Option.some.inj (hr'.symm.trans hfound)]

end Staging

/-! ## One call -/

/-- The call of an inner hook. -/
structure InnerCall (κ π σ : Type) where
  /-- The record, as it stands when its turn comes. -/
  record : Record κ
  /-- What the hook is told besides its object. -/
  ctx : InnerContext
  /-- The transaction before the call. -/
  before : Transaction κ π σ
  /-- What the hook does. -/
  run : InnerRun κ π σ

namespace InnerCall

/-- The tokens that the hook added. -/
def added (c : InnerCall κ π σ) : ErrorTokens := c.run.errors.since c.before.errors.size

/-- Whether the call fails nothing. -/
def passed (c : InnerCall κ π σ) : Bool := c.run.passed c.before.errors.size

/-- The transaction after the call: a record whose hook passed is clean. -/
def after (c : InnerCall κ π σ) : Transaction κ π σ where
  staging :=
    let s := c.before.staging.afterAll c.run.recordings
    if c.passed then s.update c.record.id Record.clearDirty else s
  errors := c.run.errors
  world := c.run.world

/-- The event of the call. -/
def event (c : InnerCall κ π σ) : Event κ π :=
  .inner c.before.staging c.record.object c.ctx c.run.recordings c.passed

/-- How the call ends. -/
def answer (c : InnerCall κ π σ) : Except Failure Unit :=
  match c.run.answer with
  | .error e => .error e
  | .ok () =>
    if c.before.errors.size < c.run.errors.size then
      .error (.hook c.record.id .innerHooks c.added.display)
    else .ok ()

/-- A call fails with what the hook answers, or, if the hook answers that all is
    well but has added tokens, with a failure of the hook of this object that
    tells these tokens and no others. -/
inductive FailsWith (c : InnerCall κ π σ) : Failure → Prop where
  /-- The hook answers with a failure. -/
  | own {e : Failure} (hanswer : c.run.answer = .error e) : c.FailsWith e
  /-- It answers that all is well, but has added tokens. -/
  | objected (hanswer : c.run.answer = .ok ()) (hadded : c.added.toList ≠ []) :
      c.FailsWith (.hook c.record.id .innerHooks c.added.display)

/-- The tokens that a hook adds are told from those that were there before. -/
theorem added_of_addAll {c : InnerCall κ π σ} {ts : List ErrorToken}
    (h : c.run.errors = c.before.errors.addAll ts) : c.added = ⟨ts⟩ := by
  unfold added
  rw [h, ErrorBuffer.since_addAll]

theorem failsWith_iff {c : InnerCall κ π σ} {e : Failure} :
    c.FailsWith e ↔ c.answer = .error e := by
  unfold answer
  constructor
  · intro hfails
    cases hfails with
    | own hanswer => rw [hanswer]
    | objected hanswer hadded =>
      rw [hanswer]
      exact if_pos ((ErrorBuffer.since_ne_nil_iff _ _).mp hadded)
  · intro hanswer
    cases ha : c.run.answer with
    | error e' =>
      rw [ha] at hanswer
      exact Except.error.inj hanswer ▸ .own ha
    | ok _ =>
      rw [ha] at hanswer
      dsimp only at hanswer
      split at hanswer
      next hlt =>
        rw [← Except.error.inj hanswer]
        exact .objected ha ((ErrorBuffer.since_ne_nil_iff _ _).mpr hlt)
      next => cases hanswer

theorem passed_iff (c : InnerCall κ π σ) : c.passed = true ↔ c.answer = .ok () := by
  unfold passed InnerRun.passed answer
  cases c.run.answer with
  | error e => simp [succeeded]
  | ok _ =>
    show (true && decide (c.run.errors.size ≤ c.before.errors.size)) = true ↔ _
    rw [Bool.true_and, decide_eq_true_iff, ← Nat.not_lt]
    dsimp only
    split
    next hlt =>
      refine iff_of_false (fun hnot => hnot hlt) fun hok => ?_
      cases hok
    next hnot => exact iff_of_true hnot rfl

theorem FailsWith.not_passed {c : InnerCall κ π σ} {e : Failure} (h : c.FailsWith e) :
    c.passed = false := by
  refine eq_false_of_ne_true fun hpassed => ?_
  have hok := c.passed_iff.mp hpassed
  rw [failsWith_iff.mp h] at hok
  cases hok

/-- A call fails exactly if it does not pass. -/
theorem fails_iff (c : InnerCall κ π σ) : (∃ e, c.FailsWith e) ↔ c.passed = false := by
  constructor
  · rintro ⟨e, hfails⟩
    exact hfails.not_passed
  · intro hfailed
    cases ha : c.answer with
    | error e => exact ⟨e, failsWith_iff.mpr ha⟩
    | ok _ =>
      rw [c.passed_iff.mpr ha] at hfailed
      cases hfailed

/-- The hook drops nothing. -/
def DropsNothing (c : InnerCall κ π σ) : Prop := ∀ m ∈ c.run.recordings, m.isClear = false

variable {c : InnerCall κ π σ}

/-- Besides its own record, a call that drops nothing keeps dirty what is. -/
theorem DropsNothing.isDirty_after (hc : c.DropsNothing) {id : ObjectId} (hne : c.record.id ≠ id)
    (hd : c.before.staging.isDirty id = true) : c.after.staging.isDirty id = true := by
  have hkept := Staging.isDirty_afterAll hc hd
  unfold after
  cases c.passed with
  | false => exact hkept
  | true => exact (Staging.isDirty_clearDirty hne).trans hkept

/-- If the call fails, it keeps its own record dirty as well. -/
theorem DropsNothing.isDirty_after_failed (hc : c.DropsNothing) (hfailed : c.passed = false)
    {id : ObjectId} (hd : c.before.staging.isDirty id = true) :
    c.after.staging.isDirty id = true := by
  unfold after
  rw [hfailed]
  exact Staging.isDirty_afterAll hc hd

theorem DropsNothing.stamps_after (hc : c.DropsNothing) :
    c.before.staging.table.stamps <+: c.after.staging.table.stamps := by
  have hgrown := Staging.stamps_afterAll (s := c.before.staging) hc
  unfold after
  cases c.passed with
  | false => exact hgrown
  | true =>
    show _ <+: (Staging.update _ _ _).table.stamps
    rw [Staging.stamps_clearDirty]
    exact hgrown

theorem ordered_after (hs : c.before.staging.Ordered) : c.after.staging.Ordered := by
  have hafter := hs.afterAll c.run.recordings
  unfold after
  cases c.passed with
  | false => exact hafter
  | true => exact RecordTable.Ordered.update hafter _ (fun _ => rfl) fun _ => rfl

end InnerCall

/-- A script that never drops what is staged. -/
def InnerScript.DropsNothing (script : InnerScript κ π σ) : Prop :=
  ∀ object ctx t, ∀ m ∈ (script object ctx t).recordings, m.isClear = false

/-- The call for a record that is found in the transaction. -/
def innerCall (script : InnerScript κ π σ) (user : Option Principal) (r : Record κ)
    (t : Transaction κ π σ) : InnerCall κ π σ :=
  let ctx : InnerContext := ⟨user, r.verb, r.callback⟩
  ⟨r, ctx, t, script r.object ctx t⟩

namespace Transaction

/-- The transaction with these events beside its world. -/
def withEvents (t : Transaction κ π σ) (es : List (Event κ π)) :
    Transaction κ π (Watched κ π σ) := t.mapWorld fun w => ⟨w, es⟩

/-- A visit makes the call of the record, and ends as it does. -/
theorem visit_watched (h : Hooks κ π σ) (script : InnerScript κ π σ) (user : Option Principal)
    (r : Record κ) (t : Transaction κ π (Watched κ π σ)) :
    let c := innerCall script user r t.unwatched
    visit (h.watched script) user r t = (c.answer, c.after.withEvents (t.events ++ [c.event])) := by
  intro c
  have hinner : (h.watched script).inner r.object ⟨user, r.verb, r.callback⟩ t
      = (c.run.answer, ⟨t.staging.afterAll c.run.recordings, c.run.errors,
          ⟨c.run.world, t.events ++ [c.event]⟩⟩) := rfl
  have hpassed := c.passed_iff
  unfold visit
  rw [hinner]
  unfold InnerCall.after
  revert hpassed
  unfold InnerCall.answer
  cases c.run.answer with
  | error e =>
    intro hpassed
    rw [eq_false_of_ne_true fun hp => nomatch hpassed.mp hp]
    rfl
  | ok _ =>
    dsimp only
    rw [show c.before.errors = t.errors from rfl]
    split
    next hlt =>
      intro hpassed
      rw [eq_false_of_ne_true fun hp => nomatch hpassed.mp hp]
      rfl
    next hle =>
      intro hpassed
      rw [hpassed.mpr rfl]
      rfl

end Transaction

/-! ## The calls of one sweep -/

/-- The transaction after calls. -/
def afterCalls (t : Transaction κ π σ) (calls : List (InnerCall κ π σ)) : Transaction κ π σ :=
  calls.foldl (fun _ c => c.after) t

/-- Each call begins where the one before has ended, and the first at `t`. -/
def Chained : Transaction κ π σ → List (InnerCall κ π σ) → Prop
  | _, [] => True
  | t, c :: rest => c.before = t ∧ Chained c.after rest

/-- The transaction at the turn of a record with this tick: the records that
    were touched before it have had theirs. -/
def atTurn (t : Transaction κ π σ) (calls : List (InnerCall κ π σ)) (tick : Nat) :
    Transaction κ π σ :=
  afterCalls t (calls.takeWhile fun c => c.record.firstTouch < tick)

namespace Chained

variable {t : Transaction κ π σ} {calls calls' : List (InnerCall κ π σ)}

theorem of_append (h : Chained t (calls ++ calls')) :
    Chained t calls ∧ Chained (afterCalls t calls) calls' := by
  induction calls generalizing t with
  | nil => exact ⟨trivial, h⟩
  | cons c rest ih =>
    obtain ⟨hrest, hlast⟩ := ih h.2
    exact ⟨⟨h.1, hrest⟩, hlast⟩

/-- What is dirty stays so as long as its own hook is not called. -/
theorem isDirty (h : Chained t calls) {id : ObjectId}
    (hcalls : ∀ c ∈ calls, c.DropsNothing ∧ c.record.id ≠ id)
    (hd : t.staging.isDirty id = true) : (afterCalls t calls).staging.isDirty id = true := by
  induction calls generalizing t with
  | nil => exact hd
  | cons c rest ih =>
    obtain ⟨hdrops, hne⟩ := hcalls c List.mem_cons_self
    refine ih h.2 (fun c' hc' => hcalls c' (List.mem_cons_of_mem _ hc')) ?_
    exact hdrops.isDirty_after hne (h.1 ▸ hd)

end Chained

/-- These are the calls that a sweep over the records `rs` makes from `start` on.
    They are made in the order of first touch, each for one of the records, with
    what is found for it when its turn comes.  Until a call fails, a record is
    visited exactly if it is dirty then; a call that fails is the last. -/
structure SweepCalls (script : InnerScript κ π σ) (user : Option Principal)
    (rs : List (Record κ)) (start : Transaction κ π σ) (calls : List (InnerCall κ π σ)) :
    Prop where
  chained : Chained start calls
  ascend : calls.Pairwise fun c c' => c.record.firstTouch < c'.record.firstTouch
  present : ∀ c ∈ calls, ∃ r ∈ rs, r.stamp = c.record.stamp
  told : ∀ c ∈ calls, c.before.staging.find? c.record.id = some c.record ∧
    c.record.dirty = true ∧ c = innerCall script user c.record c.before
  visited_iff : ∀ r ∈ rs,
    (∀ c ∈ calls, c.record.firstTouch < r.firstTouch → c.passed = true) →
      ((∃ c ∈ calls, c.record.id = r.id) ↔
        (atTurn start calls r.firstTouch).staging.isDirty r.id = true)
  failed_last : ∀ earlier c later, calls = earlier ++ c :: later → c.passed = false → later = []

namespace SweepCalls

variable {script : InnerScript κ π σ} {user : Option Principal} {r : Record κ}
  {rs : List (Record κ)} {t : Transaction κ π σ} {calls : List (InnerCall κ π σ)}

/-! ### Turn by turn -/

/-- Over no records, no call is made. -/
theorem nothing : SweepCalls script user [] t [] where
  chained := trivial
  ascend := .nil
  present _ hc := nomatch hc
  told _ hc := nomatch hc
  visited_iff _ hr := nomatch hr
  failed_last earlier c later hcalls := by cases earlier <;> cases hcalls

/-- The calls for later records have later ticks. -/
theorem lt_of_mem (h : SweepCalls script user rs t calls)
    (hticks : ∀ r' ∈ rs, r.firstTouch < r'.firstTouch) :
    ∀ c ∈ calls, r.firstTouch < c.record.firstTouch := by
  intro c hc
  obtain ⟨r', hr', hstamp⟩ := h.present c hc
  have htick : r'.firstTouch = c.record.firstTouch := congrArg Prod.snd hstamp
  exact htick ▸ hticks r' hr'

theorem ne_of_mem (h : SweepCalls script user rs t calls) (hids : ∀ r' ∈ rs, r.id ≠ r'.id) :
    ∀ c ∈ calls, c.record.id ≠ r.id := by
  intro c hc heq
  obtain ⟨r', hr', hstamp⟩ := h.present c hc
  exact hids r' hr' (heq.symm.trans (congrArg (fun e => e.1.id) hstamp).symm)

/-- At the turn of a record that comes before all calls, none has been made. -/
theorem atTurn_first {tick : Nat} (h : ∀ c ∈ calls, tick ≤ c.record.firstTouch) :
    atTurn t calls tick = t := by
  unfold atTurn
  cases calls with
  | nil => rfl
  | cons c rest =>
    rw [List.takeWhile_cons_of_neg]
    · rfl
    · have hle := h c List.mem_cons_self
      simpa using hle

/-- At a later turn than that of the first call, this call has been made. -/
theorem atTurn_cons {c : InnerCall κ π σ} {tick : Nat} (h : c.record.firstTouch < tick) :
    atTurn t (c :: calls) tick = atTurn c.after calls tick := by
  unfold atTurn
  rw [List.takeWhile_cons_of_pos (by exact decide_eq_true h)]
  rfl

/-- A record that is not dirty is passed over. -/
theorem passOver (h : SweepCalls script user rs t calls) (hclean : t.staging.isDirty r.id = false)
    (hticks : ∀ r' ∈ rs, r.firstTouch < r'.firstTouch) (hids : ∀ r' ∈ rs, r.id ≠ r'.id) :
    SweepCalls script user (r :: rs) t calls where
  chained := h.chained
  ascend := h.ascend
  present c hc :=
    have ⟨r', hr', hstamp⟩ := h.present c hc
    ⟨r', List.mem_cons_of_mem _ hr', hstamp⟩
  told := h.told
  visited_iff r' hr' hpassed := by
    obtain rfl | hr' := List.mem_cons.mp hr'
    · have hfirst : atTurn t calls r'.firstTouch = t :=
        atTurn_first fun c hc => Nat.le_of_lt (h.lt_of_mem hticks c hc)
      rw [hfirst, hclean]
      refine iff_of_false ?_ Bool.false_ne_true
      rintro ⟨c, hc, hid⟩
      exact h.ne_of_mem hids c hc hid
    · exact h.visited_iff r' hr' hpassed
  failed_last := h.failed_last

/-- The hook of a dirty record fails, and ends the sweep. -/
theorem stop {r' : Record κ} (hfound : t.staging.find? r.id = some r') (hdirty : r'.dirty = true)
    (hstamp : r'.stamp = r.stamp) (hticks : ∀ r'' ∈ rs, r.firstTouch < r''.firstTouch)
    (hfailed : (innerCall script user r' t).passed = false) :
    SweepCalls script user (r :: rs) t [innerCall script user r' t] where
  chained := ⟨rfl, trivial⟩
  ascend := List.pairwise_singleton _ _
  present c hc := by
    obtain rfl := List.mem_singleton.mp hc
    exact ⟨r, List.mem_cons_self, hstamp.symm⟩
  told c hc := by
    obtain rfl := List.mem_singleton.mp hc
    have hid : r'.id = r.id := congrArg (fun e => e.1.id) hstamp
    exact ⟨hid.symm ▸ hfound, hdirty, rfl⟩
  visited_iff r'' hr'' hpassed := by
    have htick : r'.firstTouch = r.firstTouch := congrArg Prod.snd hstamp
    obtain rfl | hr'' := List.mem_cons.mp hr''
    · have hfirst : atTurn t [innerCall script user r' t] r''.firstTouch = t := by
        refine atTurn_first fun c hc => ?_
        rw [List.mem_singleton.mp hc]
        exact Nat.le_of_eq htick.symm
      rw [hfirst, Staging.isDirty_of_find? hfound, hdirty]
      exact iff_of_true ⟨_, List.mem_cons_self, congrArg (fun e => e.1.id) hstamp⟩ rfl
    · -- The records behind it have no turn.
      have hpassed' := hpassed _ List.mem_cons_self (htick ▸ hticks r'' hr'')
      rw [hfailed] at hpassed'
      cases hpassed'
  failed_last earlier c later hcalls _ := by
    cases earlier with
    | nil => exact (List.cons.inj hcalls).2.symm
    | cons _ rest => cases rest <;> cases (List.cons.inj hcalls).2

/-- The hook of a dirty record passes, and the sweep goes on behind it. -/
theorem goOn {r' : Record κ}
    (h : SweepCalls script user rs (innerCall script user r' t).after calls)
    (hfound : t.staging.find? r.id = some r') (hdirty : r'.dirty = true)
    (hstamp : r'.stamp = r.stamp) (hticks : ∀ r'' ∈ rs, r.firstTouch < r''.firstTouch)
    (hids : ∀ r'' ∈ rs, r.id ≠ r''.id) (hpassed : (innerCall script user r' t).passed = true) :
    SweepCalls script user (r :: rs) t (innerCall script user r' t :: calls) := by
  have hid : r'.id = r.id := congrArg (fun e => e.1.id) hstamp
  have htick : r'.firstTouch = r.firstTouch := congrArg Prod.snd hstamp
  have hlater : ∀ c ∈ calls, r'.firstTouch < c.record.firstTouch := by
    rw [htick]
    exact h.lt_of_mem hticks
  refine ⟨⟨rfl, h.chained⟩, List.pairwise_cons.mpr ⟨hlater, h.ascend⟩, fun c hc => ?_,
    fun c hc => ?_, fun r'' hr'' hpassed' => ?_, fun earlier c later hcalls hfailed => ?_⟩
  · obtain rfl | hc := List.mem_cons.mp hc
    · exact ⟨r, List.mem_cons_self, hstamp.symm⟩
    · obtain ⟨r'', hr'', hstamp'⟩ := h.present c hc
      exact ⟨r'', List.mem_cons_of_mem _ hr'', hstamp'⟩
  · obtain rfl | hc := List.mem_cons.mp hc
    · exact ⟨hid.symm ▸ hfound, hdirty, rfl⟩
    · exact h.told c hc
  · obtain rfl | hr'' := List.mem_cons.mp hr''
    · have hfirst : atTurn t (innerCall script user r' t :: calls) r''.firstTouch = t := by
        refine atTurn_first fun c hc => ?_
        obtain rfl | hc := List.mem_cons.mp hc
        · exact Nat.le_of_eq htick.symm
        · exact htick ▸ Nat.le_of_lt (hlater c hc)
      rw [hfirst, Staging.isDirty_of_find? hfound, hdirty]
      exact iff_of_true ⟨_, List.mem_cons_self, hid⟩ rfl
    · -- At a later turn the first call has been made, and it was for another record.
      have hlt : (innerCall script user r' t).record.firstTouch < r''.firstTouch :=
        htick ▸ hticks r'' hr''
      rw [atTurn_cons hlt,
        ← h.visited_iff r'' hr'' fun c hc => hpassed' c (List.mem_cons_of_mem _ hc)]
      constructor
      · rintro ⟨c, hc, hcid⟩
        obtain rfl | hc := List.mem_cons.mp hc
        · exact absurd (hid.symm.trans hcid) (hids r'' hr'')
        · exact ⟨c, hc, hcid⟩
      · rintro ⟨c, hc, hcid⟩
        exact ⟨c, List.mem_cons_of_mem _ hc, hcid⟩
  · cases earlier with
    | nil =>
      rw [← (List.cons.inj hcalls).1, hpassed] at hfailed
      cases hfailed
    | cons _ rest => exact h.failed_last rest c later (List.cons.inj hcalls).2 hfailed

end SweepCalls

/-! ## The sweep -/

/-- How the calls of a sweep end that had called some hooks before: with the
    failure of the last call, or, if all of them pass, with the number of hooks
    called. -/
inductive CallsEnd (called : Nat) (calls : List (InnerCall κ π σ)) : Except Failure Nat → Prop where
  /-- The last call fails. -/
  | failed (earlier : List (InnerCall κ π σ)) (c : InnerCall κ π σ) (e : Failure)
      (hcalls : calls = earlier ++ [c]) (hearlier : ∀ c' ∈ earlier, c'.passed = true)
      (hfails : c.FailsWith e) : CallsEnd called calls (.error e)
  /-- All calls pass. -/
  | passed (hpassed : ∀ c ∈ calls, c.passed = true) :
      CallsEnd called calls (.ok (called + calls.length))

/-- A call that passes is counted. -/
theorem CallsEnd.cons {called : Nat} {c : InnerCall κ π σ} {calls : List (InnerCall κ π σ)}
    {answer : Except Failure Nat} (hc : c.passed = true) (h : CallsEnd (called + 1) calls answer) :
    CallsEnd called (c :: calls) answer := by
  cases h with
  | failed earlier c' e hcalls hearlier hfails =>
    exact .failed (c :: earlier) c' e (congrArg (c :: ·) hcalls)
      (List.forall_mem_cons.mpr ⟨hc, hearlier⟩) hfails
  | passed hpassed =>
    rw [Nat.add_assoc, Nat.add_comm 1]
    exact .passed (List.forall_mem_cons.mpr ⟨hc, hpassed⟩)

namespace Transaction

/-- A sweep over records that stand in the order of their ticks makes its calls,
    and ends as they do. -/
theorem sweep_calls (h : Hooks κ π σ) {script : InnerScript κ π σ} (hscript : script.DropsNothing)
    (user : Option Principal) (rs : List (Record κ)) (called : Nat)
    (t : Transaction κ π (Watched κ π σ)) (hordered : t.staging.Ordered)
    (hstamps : ∀ r ∈ rs, r.stamp ∈ t.staging.table.stamps)
    (hids : rs.Pairwise fun r r' => r.id ≠ r'.id)
    (hticks : rs.Pairwise fun r r' => r.firstTouch < r'.firstTouch) :
    let out := sweep (h.watched script) user (rs.map Record.id) called t
    ∃ calls, SweepCalls script user rs t.unwatched calls ∧
      out.2 = (afterCalls t.unwatched calls).withEvents
        (t.events ++ calls.map InnerCall.event) ∧
      CallsEnd called calls out.1 := by
  induction rs generalizing called t with
  | nil =>
    refine ⟨[], .nothing, ?_, .passed fun _ hc => nomatch hc⟩
    show t = _
    rw [List.map_nil, List.append_nil]
    rfl
  | cons r rest ih =>
    obtain ⟨hidsr, hids⟩ := List.pairwise_cons.mp hids
    obtain ⟨hticksr, hticks⟩ := List.pairwise_cons.mp hticks
    have hstampsRest : ∀ r' ∈ rest, r'.stamp ∈ t.staging.table.stamps :=
      fun r' hr' => hstamps r' (List.mem_cons_of_mem _ hr')
    intro out
    rw [show out = sweep (h.watched script) user (r.id :: rest.map Record.id) called t from rfl]
    unfold sweep
    cases hf : (t.staging.find? r.id).filter Record.dirty with
    | none =>
      have hclean : t.staging.isDirty r.id = false := by
        unfold Staging.isDirty
        cases hr : t.staging.find? r.id with
        | none => rfl
        | some r' =>
          rw [hr] at hf
          cases hd : r'.dirty with
          | false => exact hd
          | true => rw [Option.filter_some_pos hd] at hf; cases hf
      obtain ⟨calls, hcalls, hout, hend⟩ := ih called t hordered hstampsRest hids hticks
      exact ⟨calls, hcalls.passOver hclean hticksr hidsr, hout, hend⟩
    | some r' =>
      obtain ⟨hfound, hdirty⟩ := Option.filter_eq_some_iff.mp hf
      have hstamp : r'.stamp = r.stamp := hordered.stamp_eq (hstamps r List.mem_cons_self) hfound
      let c := innerCall script user r' t.unwatched
      have hc : c.DropsNothing := hscript _ _ _
      dsimp only
      rw [visit_watched]
      cases ha : c.answer with
      | error e =>
        have hfails : c.FailsWith e := InnerCall.failsWith_iff.mpr ha
        exact ⟨[c], .stop hfound hdirty hstamp hticksr hfails.not_passed, rfl,
          .failed [] c e rfl (fun _ hc' => nomatch hc') hfails⟩
      | ok _ =>
        have hpassed := c.passed_iff.mpr ha
        obtain ⟨calls, hcalls, hout, hend⟩ :=
          ih (called + 1) (c.after.withEvents (t.events ++ [c.event]))
            (InnerCall.ordered_after hordered)
            (fun r'' hr'' => hc.stamps_after.subset (hstampsRest r'' hr'')) hids hticks
        refine ⟨c :: calls, hcalls.goOn hfound hdirty hstamp hticksr hidsr hpassed, ?_,
          hend.cons hpassed⟩
        refine hout.trans (congrArg (withEvents _) ?_)
        exact (List.append_cons t.events c.event _).symm

end Transaction

end ChangeLedger
