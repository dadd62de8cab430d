/-
  ChangeLedger.Transaction.Commit — the five phases around the storage.

  A failure in the first three phases rolls the storage back.  Once the
  storage has committed, nothing undoes it: outer hooks leave warnings, and
  change logs are written as far as the sink takes them.  The staging area is
  empty afterwards in every case.
-/
import ChangeLedger.Transaction.Deferred
import ChangeLedger.Transaction.LogDrain
import ChangeLedger.Transaction.Notification
import ChangeLedger.Transaction.Settling
import ChangeLedger.Transaction.Validation

namespace ChangeLedger

/-- What a successful commit reports. -/
structure CommitReport where
  /-- Every record as it stood when the storage committed. -/
  records : List Snapshot
  /-- The synchronization keys of the written properties. -/
  syncKeys : SortedSet String
  /-- The failures of outer hooks. -/
  warnings : List Failure
  /-- Number of appends that were written. -/
  logsWritten : Nat
  /-- The phases that ran, in order. -/
  phases : List Phase

namespace Transaction

variable {κ π σ : Type}

/-- The phases before the storage commit. -/
def prepare (h : Hooks κ π σ) (validating : Bool) (user : Option Principal)
    (t : Transaction κ π σ) : Except Failure Unit × Transaction κ π σ :=
  match settle h user t with
  | (.error e, t) => (.error e, t)
  | (.ok (), t) =>
    match validate h validating t with
    | (.error e, t) => (.error e, t)
    | (.ok (), t) => runDeferred h user t

/-- Rolls the storage back and drops everything staged.  A storage that fails
    to roll back is not heard. -/
def rollback (storage : Storage σ) (t : Transaction κ π σ) : Transaction κ π σ :=
  { t with world := (storage.rollback t.world).2 }.clear

/-- The phases after the storage commit, with a pool for the appends. -/
def concludeOn (pool : Pool) (h : Hooks κ π σ) (sink : Sink σ) (user : Option Principal)
    (records : List Snapshot) (syncKeys : SortedSet String) (t : Transaction κ π σ) :
    CommitReport × Transaction κ π σ :=
  let (warnings, t) := notify h user t
  let (logsWritten, t) := drainLogsOn pool sink t
  ({ records, syncKeys, warnings, logsWritten,
     phases := [.innerHooks, .validation, .postProcessing, .outerHooks, .changeLog] }, t)

/-- Commits with the error buffer as it is, with a pool for the appends. -/
def commitWithOn (pool : Pool) (h : Hooks κ π σ) (sink : Sink σ) (storage : Storage σ)
    (validating : Bool) (user : Option Principal) (t : Transaction κ π σ) :
    Except Failure CommitReport × Transaction κ π σ :=
  match prepare h validating user t with
  | (.error e, t) => (.error e, t.rollback storage)
  | (.ok (), t) =>
    -- the report shows what the storage is asked to keep, so it is taken now
    let records := t.staging.snapshots
    let syncKeys := t.staging.syncKeys
    match storage.commit t.world with
    -- a storage that refuses to commit has nothing left to roll back
    | (.error e, world) => (.error e, { t with world }.clear)
    | (.ok (), world) =>
      let (report, t) := concludeOn pool h sink user records syncKeys { t with world }
      (.ok report, t.clear)

/-- Commits a transaction, with a pool for the appends.  The commit has an error
    buffer of its own; that of the transaction is not touched. -/
def commitOn (pool : Pool) (h : Hooks κ π σ) (sink : Sink σ) (storage : Storage σ)
    (validating : Bool) (user : Option Principal) (t : Transaction κ π σ) :
    Except Failure CommitReport × Transaction κ π σ :=
  let (result, after) := commitWithOn pool h sink storage validating user { t with errors := ∅ }
  (result, { after with errors := t.errors })

/-- Commits a transaction on the committing thread alone. -/
def commit (h : Hooks κ π σ) (sink : Sink σ) (storage : Storage σ) (validating : Bool)
    (user : Option Principal) (t : Transaction κ π σ) :
    Except Failure CommitReport × Transaction κ π σ :=
  commitOn .inline h sink storage validating user t

/-! ## Courses -/

variable {h : Hooks κ π σ} {sink : Sink σ} {storage : Storage σ} {validating : Bool}
  {user : Option Principal} {t : Transaction κ π σ}

/-- The three phases succeed together only if each of them does. -/
theorem prepare_ok (hp : (prepare h validating user t).1 = .ok ()) :
    (settle h user t).1 = .ok () ∧
      (validate h validating (settle h user t).2).1 = .ok () ∧
      prepare h validating user t =
        runDeferred h user (validate h validating (settle h user t).2).2 := by
  revert hp
  unfold prepare
  obtain ⟨settled, t₁⟩ := settle h user t
  cases settled with
  | error e => exact fun hp => nomatch hp
  | ok _ =>
    dsimp only
    obtain ⟨validated, t₂⟩ := validate h validating t₁
    cases validated with
    | error e => exact fun hp => nomatch hp
    | ok _ => exact fun _ => ⟨rfl, rfl, rfl⟩

/-- A commit is aborted, or the storage refuses, or all is concluded. -/
theorem commitOn_cases (pool : Pool) (h : Hooks κ π σ) (sink : Sink σ) (storage : Storage σ)
    (validating : Bool) (user : Option Principal) (t : Transaction κ π σ) :
    let prepared := prepare h validating user { t with errors := ∅ }
    let answer := storage.commit prepared.2.world
    let asked : Transaction κ π σ := { prepared.2 with world := answer.2 }
    let concluded := concludeOn pool h sink user prepared.2.staging.snapshots
      prepared.2.staging.syncKeys asked
    let done := commitOn pool h sink storage validating user t
    (∃ e, prepared.1 = .error e ∧
      done = (.error e, { prepared.2.rollback storage with errors := t.errors })) ∨
    (∃ e, prepared.1 = .ok () ∧ answer.1 = .error e ∧
      done = (.error e, { asked.clear with errors := t.errors })) ∨
    (prepared.1 = .ok () ∧ answer.1 = .ok () ∧
      done = (.ok concluded.1, { concluded.2.clear with errors := t.errors })) := by
  unfold commitOn commitWithOn
  obtain ⟨prepared, t₁⟩ := prepare h validating user { t with errors := ∅ }
  cases prepared with
  | error e => exact .inl ⟨e, rfl, rfl⟩
  | ok _ =>
    dsimp only
    obtain ⟨answer, world⟩ := storage.commit t₁.world
    cases answer with
    | error e => exact .inr (.inl ⟨e, rfl, rfl, rfl⟩)
    | ok _ => exact .inr (.inr ⟨rfl, rfl, rfl⟩)

/-- A commit that succeeds has gone through the three phases and through the
    storage, and what it reports is fixed before the outer hooks run. -/
theorem commitOn_ok {pool : Pool} {report : CommitReport} {after : Transaction κ π σ}
    (hc : commitOn pool h sink storage validating user t = (.ok report, after)) :
    let prepared := prepare h validating user { t with errors := ∅ }
    let concluded := concludeOn pool h sink user prepared.2.staging.snapshots
      prepared.2.staging.syncKeys
      { prepared.2 with world := (storage.commit prepared.2.world).2 }
    prepared.1 = .ok () ∧ (storage.commit prepared.2.world).1 = .ok () ∧
      concluded.1 = report ∧ { concluded.2.clear with errors := t.errors } = after := by
  obtain ⟨e, -, hdone⟩ | ⟨e, -, -, hdone⟩ | ⟨hprepared, hanswer, hdone⟩ :=
    commitOn_cases pool h sink storage validating user t
  · cases hdone.symm.trans hc
  · cases hdone.symm.trans hc
  · have hresult := hdone.symm.trans hc
    exact ⟨hprepared, hanswer, Except.ok.inj (congrArg Prod.fst hresult),
      congrArg Prod.snd hresult⟩

end Transaction

end ChangeLedger
