/-
  ChangeLedger.Proofs.Forgetting — what a phase makes of a coarser world.

  A map `f` from a fine world to a coarse one forgets something.  If hooks,
  sink and storage act on the fine world as others do on the coarse one, then
  so does every phase, and so does the whole commit: it answers the same and
  leaves the same transaction once `f` has been applied to its world.

  This is a delay by no ticks at all, for which the phases are gone through in
  `ChangeLedger.Proofs.Delay`.

  Main results:
    * `mapWorld_prepare` — the three phases before the storage commit.
    * `mapWorld_commitOn` — the commit.
    * `Hooks.watched_refines` — a chronicle only adds to the world.
-/
import ChangeLedger.Proofs.Chronicle
import ChangeLedger.Proofs.Delay

namespace ChangeLedger

variable {κ π σ σ' : Type}

/-! ## Acting alike -/

/-- The fine hooks act on the fine world as the coarse ones on the coarse. -/
structure Hooks.Refines (f : σ' → σ) (fine : Hooks κ π σ') (coarse : Hooks κ π σ) : Prop where
  isStale : ∀ object w, fine.isStale object w = coarse.isStale object (f w)
  inner : ∀ object ctx t, Prod.map id (Transaction.mapWorld f) (fine.inner object ctx t)
    = coarse.inner object ctx (t.mapWorld f)
  validate : ∀ r errors w, Prod.map id (Prod.map id f) (fine.validate r errors w)
    = coarse.validate r errors (f w)
  index : ∀ r w, Prod.map id f (fine.index r w) = coarse.index r (f w)
  outer : ∀ r user w, Prod.map id f (fine.outer r user w) = coarse.outer r user (f w)
  act : ∀ action user errors w, Prod.map id (Prod.map id f) (fine.act action user errors w)
    = coarse.act action user errors (f w)

namespace Transaction

/-- No delay leaves the ticks as they are. -/
theorem delayed_zero (f : σ' → σ) :
    (delayed 0 f : Transaction κ π σ' → Transaction κ π σ) = mapWorld f := by
  funext t
  unfold delayed mapWorld
  rw [Staging.later_zero]

end Transaction

/-- What acts alike in a coarser world acts alike after no delay. -/
theorem Hooks.Refines.actAlike {f : σ' → σ} {fine : Hooks κ π σ'} {coarse : Hooks κ π σ}
    (hr : fine.Refines f coarse) : fine.ActAlike 0 f coarse where
  isStale := hr.isStale
  inner object ctx t := by
    rw [Transaction.delayed_zero]
    exact hr.inner object ctx t
  validate := hr.validate
  index := hr.index
  outer := hr.outer
  act := hr.act

namespace Transaction

variable {f : σ' → σ} {fine : Hooks κ π σ'} {coarse : Hooks κ π σ}

/-! ## The commit -/

theorem mapWorld_prepare (hr : fine.Refines f coarse) (validating : Bool)
    (user : Option Principal) (t : Transaction κ π σ') :
    Prod.map id (mapWorld f) (prepare fine validating user t)
      = prepare coarse validating user (t.mapWorld f) := by
  rw [← delayed_zero]
  exact delayed_prepare hr.actAlike validating user t

/-- A commit makes of a coarser world what it makes of the finer one. -/
theorem mapWorld_commitOn (pool : Pool) (hr : fine.Refines f coarse) {fineSink : Sink σ'}
    {coarseSink : Sink σ} (hs : fineSink.Refines f coarseSink) {fineStorage : Storage σ'}
    {coarseStorage : Storage σ} (hg : fineStorage.Refines f coarseStorage) (validating : Bool)
    (user : Option Principal) (t : Transaction κ π σ') :
    Prod.map id (mapWorld f) (commitOn pool fine fineSink fineStorage validating user t)
      = commitOn pool coarse coarseSink coarseStorage validating user (t.mapWorld f) := by
  have hc := delayed_commitOn pool hr.actAlike hs hg validating user t
  have hreport : ∀ answer : Except Failure CommitReport,
      Except.map (CommitReport.later 0) answer = answer := by
    intro answer
    cases answer with
    | error e => rfl
    | ok report => exact congrArg Except.ok report.later_zero
  rw [delayed_zero] at hc
  rw [← hc]
  exact Prod.ext (hreport _).symm rfl

end Transaction

/-! ## Chronicles -/

/-- Hooks that note their calls act as the hooks that follow the script. -/
theorem Hooks.watched_refines (h : Hooks κ π σ) (script : InnerScript κ π σ) :
    (h.watched script).Refines Watched.world (h.following script) where
  isStale _ _ := rfl
  inner _ _ _ := rfl
  validate _ _ _ := rfl
  index _ _ := rfl
  outer _ _ _ := rfl
  act _ _ _ _ := rfl

/-- A sink that notes its appends acts as the sink itself. -/
theorem Sink.watched_refines (sink : Sink σ) :
    (sink.watched : Sink (Watched κ π σ)).Refines Watched.world sink := fun _ _ _ => rfl

/-- A storage that notes what it is asked for acts as the storage itself. -/
theorem Storage.watched_refines (storage : Storage σ) :
    (storage.watched : Storage (Watched κ π σ)).Refines Watched.world storage where
  commit _ := rfl
  rollback _ := rfl

end ChangeLedger
