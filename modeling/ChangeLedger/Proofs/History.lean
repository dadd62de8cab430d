/-
  ChangeLedger.Proofs.History — the recordings that are still staged.

  Only recordings put anything into the staging area; what they staged stays
  until it is dropped, be it by a recording that clears or at the end of a
  commit.  The history of a ledger is the list of the recordings since then,
  each with the staging area it was made in.

  A property of the staging area and its history can be asked for at every
  moment, also between two recordings of one inner hook, when only the hook
  can look.

  Main results:
    * `KeptAlong.kept` — a property that every recording keeps, every event
      keeps.
    * `KeptAlong.atMoments` — such a property holds at every moment of every
      reachable ledger.
-/
import ChangeLedger.Proofs.FirstTouch

namespace ChangeLedger

variable {κ π σ : Type}

/-! ## Histories -/

/-- A recording, and the staging area in which it is made. -/
abbrev Recorded (κ π : Type) := Staging κ π × Mutation κ π

namespace Staging

/-- The history after a recording. -/
def historyAfter (s : Staging κ π) (m : Mutation κ π) (past : List (Recorded κ π)) :
    List (Recorded κ π) :=
  if m.isClear then [] else past ++ [(s, m)]

/-- The history after a run of recordings. -/
def historyAfterAll (s : Staging κ π) :
    List (Mutation κ π) → List (Recorded κ π) → List (Recorded κ π)
  | [], past => past
  | m :: ms, past => (s.after m).historyAfterAll ms (s.historyAfter m past)

end Staging

namespace Event

/-- The recordings of an event, and the staging area in which they begin. -/
def run? : Event κ π → Option (Staging κ π × List (Mutation κ π))
  | recorded before m => some (before, [m])
  | inner before _ _ recordings _ => some (before, recordings)
  | _ => none

/-- The recordings of an event begin where it begins. -/
theorem start?_of_run? {e : Event κ π} {before : Staging κ π} {ms : List (Mutation κ π)}
    (h : e.run? = some (before, ms)) : e.start? = some before := by
  cases e with
  | recorded before' m => exact congrArg (Option.map Prod.fst) h
  | inner before' object ctx ms' passed => exact congrArg (Option.map Prod.fst) h
  | _ => cases h

/-- The history after an event. -/
def history (e : Event κ π) (past : List (Recorded κ π)) : List (Recorded κ π) :=
  match e with
  | recorded before m => before.historyAfter m past
  | inner before _ _ recordings _ => before.historyAfterAll recordings past
  | closed => []
  | _ => past

end Event

/-- The history of a ledger: its recordings since everything staged was last
    dropped. -/
def historyOf (es : List (Event κ π)) : List (Recorded κ π) :=
  es.foldl (fun past e => e.history past) []

theorem historyOf_append (es : List (Event κ π)) (e : Event κ π) :
    historyOf (es ++ [e]) = e.history (historyOf es) := List.foldl_concat ..

/-! ## Moments -/

/-- A staging area that a ledger has, or had on the way to where it is, and
    the history at that moment. -/
inductive Transaction.Moment (t : Transaction κ π (Watched κ π σ)) :
    Staging κ π → List (Recorded κ π) → Prop where
  /-- Now. -/
  | now : Moment t t.staging (historyOf t.events)
  /-- When the first of some recordings were made. -/
  | during {earlier later : List (Event κ π)} {e : Event κ π} {before : Staging κ π}
      {made rest : List (Mutation κ π)} (hevents : t.events = earlier ++ e :: later)
      (hrun : e.run? = some (before, made ++ rest)) :
      Moment t (before.afterAll made) (before.historyAfterAll made (historyOf earlier))

/-! ## What recordings keep -/

/-- Each recording keeps a property of the staging area and its history, and
    so does everything else that happens to the staging area. -/
structure KeptAlong (I : Staging κ π → List (Recorded κ π) → Prop) : Prop where
  /-- A recording. -/
  recorded : ∀ {s past} m, I s past → I (s.after m) (s.historyAfter m past)
  /-- A record is marked clean. -/
  cleaned : ∀ {s past} id, I s past → I (s.update id Record.clearDirty) past
  /-- Something is counted. -/
  counted : ∀ {s past} f, I s past → I (s.count f) past
  /-- The deferred actions are taken. -/
  taken : ∀ {s past}, I s past → I { s with pending := [] } past
  /-- The audit entries are taken. -/
  drained : ∀ {s past}, I s past → I s.dropPushes past

namespace KeptAlong

variable {I J : Staging κ π → List (Recorded κ π) → Prop}

theorem and (hI : KeptAlong I) (hJ : KeptAlong J) :
    KeptAlong fun s past => I s past ∧ J s past where
  recorded m hs := ⟨hI.recorded m hs.1, hJ.recorded m hs.2⟩
  cleaned id hs := ⟨hI.cleaned id hs.1, hJ.cleaned id hs.2⟩
  counted f hs := ⟨hI.counted f hs.1, hJ.counted f hs.2⟩
  taken hs := ⟨hI.taken hs.1, hJ.taken hs.2⟩
  drained hs := ⟨hI.drained hs.1, hJ.drained hs.2⟩

theorem afterAll (hI : KeptAlong I) {s : Staging κ π} {past : List (Recorded κ π)} (hs : I s past)
    (ms : List (Mutation κ π)) : I (s.afterAll ms) (s.historyAfterAll ms past) := by
  induction ms generalizing s past with
  | nil => exact hs
  | cons m rest ih => exact ih (hI.recorded m hs)

/-- What every recording keeps, every event keeps. -/
theorem kept (hI : KeptAlong I) :
    Kept fun (s : Staging κ π) (es : List (Event κ π)) => I s (historyOf es) where
  recorded m hs := by
    rw [historyOf_append]
    exact hI.recorded m hs
  passed object _ ms hs := by
    rw [historyOf_append]
    exact hI.cleaned object.id (hI.afterAll hs ms)
  failed _ _ ms hs := by
    rw [historyOf_append]
    exact hI.afterAll hs ms
  bystander e he hs := by
    rw [historyOf_append]
    cases e with
    | recorded before m => cases he
    | inner before object ctx ms passed => cases he
    | closed => cases he
    | _ => exact hs
  counted f hs := hI.counted f hs
  taken hs := hI.taken hs
  drained hs := by
    rw [historyOf_append]
    exact hI.drained hs
  closed {s es} hs := by
    -- The end of a commit drops what a recording that clears drops.
    rw [historyOf_append]
    exact hI.recorded (s := s) .clear hs

/-- What every recording keeps holds at every moment of a reachable ledger. -/
theorem atMoments (hI : KeptAlong I) (h : Hooks κ π σ) (script : InnerScript κ π σ)
    (plan : InnerPlan κ π σ) (depth : Nat) (sink : Sink σ) {options : Options} {schema : Schema}
    (hnew : I (Staging.new options schema) []) (world : σ) (moves : List (Move κ π σ))
    {s : Staging κ π} {past : List (Recorded κ π)}
    (hm : (Transaction.reached (h.nested script plan sink depth) sink options schema world
      moves).Moment s past) : I s past := by
  have hk := hI.kept.always
  obtain ⟨hnow, hstarts⟩ := hk.reached h script _ sink (hk.planned h script sink plan depth)
    ⟨hnew, Kept.atStarts_nil _⟩ world moves
  cases hm with
  | now => exact hnow
  | during hevents hrun =>
    -- The property held when the first recording began, and each keeps it.
    rename_i earlier later e before made rest
    exact hI.afterAll (hstarts earlier e later before hevents (Event.start?_of_run? hrun)) made

end KeptAlong

/-- At every moment of a reachable ledger the records are in order. -/
theorem keptAlong_ordered :
    KeptAlong fun (s : Staging κ π) (_ : List (Recorded κ π)) => s.Ordered where
  recorded m hs := hs.after m
  cleaned _ hs := RecordTable.Ordered.update hs _ (fun _ => rfl) fun _ => rfl
  counted f hs := hs.count f
  taken hs := hs
  drained hs := RecordTable.Ordered.map hs (fun _ => rfl) fun _ => rfl

end ChangeLedger
