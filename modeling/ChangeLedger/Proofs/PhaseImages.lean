/-
  ChangeLedger.Proofs.PhaseImages — phases of a transaction and of its image.

  Some changes of a staging area do not matter to a phase: it calls the same
  hooks in the same order, counts alike and clears the same records.  If hooks
  answer alike before and after such a change, in worlds that belong together,
  then the phase gives the same answer on both sides, and the transactions that
  it leaves belong together again.

  Main results:
    * `Staging.Unnoticed` — the changes that do not matter.
    * `neutral_image` — such a change is a map of transactions that the phases
      commute with; what follows is read off it.
    * `image_settle`, `image_validate`, `image_runDeferred`, `image_notify` —
      the four phases that call hooks and actions.
    * `image_prepare` — the first three of them in a row.
-/
import ChangeLedger.Proofs.PhaseMaps

namespace ChangeLedger

variable {κ π σ σ' : Type}

/-- A change `g` of staging areas that changes the records by `k` and that no
    phase notices. -/
structure Staging.Unnoticed (k : Record κ → Record κ) (g : Staging κ π → Staging κ π) : Prop
    extends Transaction.Unseen k where
  records : ∀ s, (g s).records = s.records.map k
  pending : ∀ s, (g s).pending = s.pending
  maxSweeps : ∀ s, (g s).options.maxSweeps = s.options.maxSweeps
  count : ∀ s f, g (s.count f) = (g s).count f
  clearDirty : ∀ s id, g (s.update id Record.clearDirty) = (g s).update id Record.clearDirty
  take : ∀ s, g { s with pending := [] } = { g s with pending := [] }

/-- The transaction with another staging area, in the world that `f` shows. -/
def Transaction.image (g : Staging κ π → Staging κ π) (f : σ → σ') (t : Transaction κ π σ) :
    Transaction κ π σ' :=
  ⟨g t.staging, t.errors, f t.world⟩

/-- The hooks `h'` do with the image of anything what `h` do with it. -/
structure Hooks.Mirrored (k : Record κ → Record κ) (g : Staging κ π → Staging κ π) (f : σ → σ')
    (h : Hooks κ π σ) (h' : Hooks κ π σ') : Prop where
  isStale : ∀ object w, h.isStale object w = h'.isStale object (f w)
  inner : ∀ object ctx t, Prod.map id (Transaction.image g f) (h.inner object ctx t)
    = h'.inner object ctx (t.image g f)
  validate : ∀ r errors w, Prod.map id (Prod.map id f) (h.validate r errors w)
    = h'.validate (k r) errors (f w)
  index : ∀ r w, Prod.map id f (h.index r w) = h'.index (k r) (f w)
  outer : ∀ r user w, Prod.map id f (h.outer r user w) = h'.outer (k r) user (f w)
  act : ∀ action user errors w, Prod.map id (Prod.map id f) (h.act action user errors w)
    = h'.act action user errors (f w)

namespace Transaction

variable {k : Record κ → Record κ} {g : Staging κ π → Staging κ π} {f : σ → σ'}
  {h : Hooks κ π σ} {h' : Hooks κ π σ'}

/-- A change that no phase notices, in whatever world, is neutral. -/
theorem neutral_image (hg : Staging.Unnoticed k g) (f : σ → σ') :
    Neutral k (image g f : Transaction κ π σ → Transaction κ π σ') where
  toUnseen := hg.toUnseen
  records t := hg.records t.staging
  pending t := hg.pending t.staging
  maxSweeps t := hg.maxSweeps t.staging
  count t c := congrArg (fun s => (⟨s, t.errors, f t.world⟩ : Transaction κ π σ'))
    (hg.count t.staging c)
  clearDirty t id := congrArg (fun s => (⟨s, t.errors, f t.world⟩ : Transaction κ π σ'))
    (hg.clearDirty t.staging id)
  take t := congrArg (fun s => (⟨s, t.errors, f t.world⟩ : Transaction κ π σ')) (hg.take t.staging)
  added _ _ := rfl

/-! ## The calls -/

section

variable (hh : h.Mirrored k g f h')
include hh

/-- The validator of the changed record answers for the image as that of the
    record does for the transaction. -/
theorem image_ask (r : Record κ) (t : Transaction κ π σ) :
    Prod.map id (image g f) (h.ask r t) = h'.ask (k r) (t.image g f) := by
  unfold Hooks.ask
  rw [show (t.image g f).errors = t.errors from rfl,
    show (t.image g f).world = f t.world from rfl, ← hh.validate]
  rfl

/-- So does the index. -/
theorem image_addToIndex (r : Record κ) (t : Transaction κ π σ) :
    Prod.map id (image g f) (h.addToIndex r t) = h'.addToIndex (k r) (t.image g f) := by
  unfold Hooks.addToIndex
  rw [show (t.image g f).world = f t.world from rfl, ← hh.index]
  rfl

/-- An action gets the errors and the world, and no record. -/
theorem image_runAction (user : Option Principal) (action : π) (t : Transaction κ π σ) :
    Prod.map id (image g f) (h.runAction user action t)
      = h'.runAction user action (t.image g f) := by
  unfold Hooks.runAction
  rw [show (t.image g f).errors = t.errors from rfl,
    show (t.image g f).world = f t.world from rfl, ← hh.act]
  rfl

theorem image_tell (user : Option Principal) (r : Record κ) (t : Transaction κ π σ) :
    Prod.map id (image g f) (h.tell user r t) = h'.tell user (k r) (t.image g f) := by
  unfold Hooks.tell
  rw [show (t.image g f).world = f t.world from rfl, ← hh.outer]
  rfl

end

/-! ## The phases -/

theorem image_finishPhase (hg : Staging.Unnoticed k g) (phase : Phase) (ok : Bool)
    (t : Transaction κ π σ) :
    (t.finishPhase phase ok).image g f = (t.image g f).finishPhase phase ok :=
  (neutral_image hg f).finishPhase phase ok t

/-- The inner hooks are called for the same records, in the same sweeps. -/
theorem image_settle (hg : Staging.Unnoticed k g) (hh : h.Mirrored k g f h')
    (user : Option Principal) (t : Transaction κ π σ) :
    Prod.map id (image g f) (settle h user t) = settle h' user (t.image g f) :=
  (neutral_image hg f).settle hh.inner user t

/-- Validation passes by the same objects and stops at the same record. -/
theorem image_validate (hg : Staging.Unnoticed k g) (hh : h.Mirrored k g f h')
    (validating : Bool) (t : Transaction κ π σ) :
    Prod.map id (image g f) (validate h validating t) = validate h' validating (t.image g f) :=
  (neutral_image hg f).validate (fun object t => hh.isStale object t.world)
    ((neutral_image hg f).accept (image_ask hh) validating) (image_addToIndex hh) t

/-- The deferred actions run up to the same failure. -/
theorem image_runDeferred (hg : Staging.Unnoticed k g) (hh : h.Mirrored k g f h')
    (user : Option Principal) (t : Transaction κ π σ) :
    Prod.map id (image g f) (runDeferred h user t) = runDeferred h' user (t.image g f) :=
  (neutral_image hg f).runDeferred (image_runAction hh user) t

/-- The outer hooks leave the same warnings. -/
theorem image_notify (hg : Staging.Unnoticed k g) (hh : h.Mirrored k g f h')
    (user : Option Principal) (t : Transaction κ π σ) :
    Prod.map id (image g f) (notify h user t) = notify h' user (t.image g f) :=
  (neutral_image hg f).notify (image_tell hh user) t

/-- The three phases before the storage fail alike, and leave images of each
    other. -/
theorem image_prepare (hg : Staging.Unnoticed k g) (hh : h.Mirrored k g f h')
    (validating : Bool) (user : Option Principal) (t : Transaction κ π σ) :
    Prod.map id (image g f) (prepare h validating user t)
      = prepare h' validating user (t.image g f) :=
  (neutral_image hg f).prepare hh.inner (fun object t => hh.isStale object t.world)
    ((neutral_image hg f).accept (image_ask hh) validating) (image_addToIndex hh)
    (image_runAction hh user) t

end Transaction

end ChangeLedger
