/-
  ChangeLedger.Proofs.AuditTransparency — what auditing changes beside the logs.

  Nothing that auditing does can be told from the staged changes, with one
  exception: an audited edge event adds an entry to the records of both its
  end nodes, and opens these records if there are none.

  Main results:
    * `auditing_shows_only_on_edge_ends` — two runs of the same recordings
      with different auditing, compared.
    * `auditing_shows_on_edge_ends` — the exception does occur.
-/
import ChangeLedger.Proofs.Covering

namespace ChangeLedger

variable {κ π : Type}

/-- Options that differ from the given ones at most in what is audited. -/
def Options.auditing (options : Options) (objects users : Bool) : Options :=
  { options with auditEnabled := objects, userAuditEnabled := users }

namespace Staging

/-- The end nodes of the edge events in a run, as far as they can be
    resolved. -/
def edgeEnds (ms : List (Mutation κ π)) : List ObjectId :=
  (ms.flatMap Mutation.ends).map fun o => o.id

theorem alike_new (options options' : Options) (schema : Schema) :
    (new options schema : Staging κ π).Alike (new options' schema) := ⟨rfl, rfl⟩

theorem covers_new (options options' : Options) (schema : Schema) :
    (new options schema : Staging κ π).Covers [] (new options' schema) :=
  ⟨rfl, ⟨fun _ _ hnone => (nomatch hnone), fun _ _ hnone => (nomatch hnone)⟩⟩

/-- Two runs of the same recordings, with options that differ only in what is
    audited.  If both are audited, or both are not, they are alike.  If only
    the first is audited, they are alike exactly as long as every edge event
    leaves its end nodes with records without auditing.  In any case nothing
    beside the records differs; every record of the second run has one in the
    first that says the same, up to the verb of an end node that the second
    run has as propagated; the first run has additional records for end nodes
    only, and these say nothing; and the answers differ only if an end node is
    marked that has such a record. -/
theorem auditing_shows_only_on_edge_ends (options : Options) (schema : Schema)
    (objects users objects' users' : Bool) (ms : List (Mutation κ π)) :
    let s : Staging κ π := new (options.auditing objects users) schema
    let s' : Staging κ π := new (options.auditing objects' users') schema
    ((objects || users) = (objects' || users') → s.RunsAlike s' ms) ∧
    ((objects || users) = true → (objects' || users') = false →
      (s.RunsAlike s' ms ↔ s'.EndsTracked ms) ∧
      (s.afterAll ms).frame = (s'.afterAll ms).frame ∧
      (∀ id r', (s'.afterAll ms).find? id = some r' →
        ∃ r, (s.afterAll ms).find? id = some r ∧ r.SameContent r' ∧
          VerbsAgree (id ∈ edgeEnds ms) r.verb r'.verb) ∧
      (∀ id r, (s.afterAll ms).find? id = some r → (s'.afterAll ms).find? id = none →
        id ∈ edgeEnds ms ∧ r.IsBare) ∧
      ∀ past m later, ms = past ++ m :: later →
        ((s.afterAll past).perform m).1 = ((s'.afterAll past).perform m).1 ∨
          ∃ object, m = .propagate object ∧ object.id ∈ edgeEnds past ∧
            ((s.afterAll past).perform m).1 = some false ∧
            ((s'.afterAll past).perform m).1 = some true) := by
  intro s s'
  have halike : s.Alike s' := alike_new _ _ schema
  have hcovers : s.Covers [] s' := covers_new _ _ schema
  constructor
  · intro hsame
    exact runsAlike_of_anyAudit_eq halike hsame ms
  · intro ho ho'
    -- The answers are compared within the run, so covering is needed for its parts.
    have hrun : ∀ ms, (s.afterAll ms).Covers (edgeEnds ms) (s'.afterAll ms) :=
      fun ms => hcovers.afterAll ho ho' ms
    refine ⟨runsAlike_iff_endsTracked halike ho ho' ms, (hrun ms).frame, ?_, ?_,
      fun past m _ _ => (hrun past).answer m⟩
    · -- Covering speaks of records without entries; put these back.
      intro id r' hr'
      have hsilent : (s'.afterAll ms).table.silent.find? id = some r'.dropPushes := by
        rw [RecordTable.find?_silent]
        exact congrArg (Option.map Record.dropPushes) hr'
      obtain ⟨r₀, hr₀, hcontent, hverbs⟩ := (hrun ms).table.tracked id r'.dropPushes hsilent
      rw [RecordTable.find?_silent] at hr₀
      obtain ⟨r, hr, rfl⟩ := Option.map_eq_some_iff.mp hr₀
      exact ⟨r, hr, hcontent.of_dropPushes, hverbs⟩
    · intro id r hr hnone
      refine (hrun ms).table.bare id r.dropPushes ?_ ?_
      · rw [RecordTable.find?_silent]
        exact congrArg (Option.map Record.dropPushes) hr
      · rw [RecordTable.find?_silent]
        exact congrArg (Option.map Record.dropPushes) hnone

/-! ## One edge -/

/-- A node with this number. -/
def sampleNode (number : Nat) (uuid : String) : Tracked Unit := ⟨⟨.node, number⟩, uuid, ()⟩

/-- An edge of this type between two nodes. -/
def sampleEdge (type : String) : Edge Unit where
  object := ⟨⟨.edge, 3⟩, "uuid-r3", ()⟩
  type? := some ⟨type⟩
  source? := some (sampleNode 1 "uuid-n1")
  target? := some (sampleNode 2 "uuid-n2")

/-- The creation of the edge, and then a mark on the node it points to. -/
def sampleRun (type : String) : List (Mutation Unit Unit) :=
  [.createEdge none (sampleEdge type), .propagate (sampleNode 2 "uuid-n2")]

/-- An edge that flags the owner touches both its end nodes anyway, so that no
    auditing makes a difference. -/
theorem auditing_does_not_show_on_owners :
    let silent : Staging Unit Unit := new (({} : Options).auditing false false) ∅
    let objects : Staging Unit Unit := new (({} : Options).auditing true false) ∅
    let users : Staging Unit Unit := new (({} : Options).auditing false true) ∅
    objects.RunsAlike users (sampleRun "OWNS") ∧ objects.RunsAlike silent (sampleRun "OWNS") := by
  intro silent objects users
  obtain ⟨hboth, -⟩ := auditing_shows_only_on_edge_ends {} ∅ true false false true
    (sampleRun "OWNS")
  obtain ⟨-, hone⟩ := auditing_shows_only_on_edge_ends {} ∅ true false false false
    (sampleRun "OWNS")
  refine ⟨hboth rfl, (hone rfl rfl).1.mpr ⟨?_, ?_, trivial⟩⟩
  · intro o ho
    cases List.mem_cons.mp ho with
    | inl hsource => rw [hsource]; rfl
    | inr htarget => rw [List.mem_singleton.mp htarget]; rfl
  · intro o ho
    cases ho

/-- An edge of any other type leaves its end nodes without records unless it
    is audited.  Then a mark on an end node is answered differently, other
    identities are touched, and the marked node has another verb. -/
theorem auditing_shows_on_edge_ends :
    let silent : Staging Unit Unit := new (({} : Options).auditing false false) ∅
    let audited : Staging Unit Unit := new (({} : Options).auditing true false) ∅
    silent.answers (sampleRun "KNOWS") = [none, some true] ∧
    audited.answers (sampleRun "KNOWS") = [none, some false] ∧
    (silent.afterAll (sampleRun "KNOWS")).ids = [⟨.edge, 3⟩, ⟨.node, 2⟩] ∧
    (audited.afterAll (sampleRun "KNOWS")).ids = [⟨.edge, 3⟩, ⟨.node, 1⟩, ⟨.node, 2⟩] ∧
    ((silent.afterAll (sampleRun "KNOWS")).find? ⟨.node, 2⟩).map Record.verb = some .propagated ∧
    ((audited.afterAll (sampleRun "KNOWS")).find? ⟨.node, 2⟩).map Record.verb = some .modify := by
  exact ⟨rfl, rfl, rfl, rfl, rfl, rfl⟩

end Staging

end ChangeLedger
