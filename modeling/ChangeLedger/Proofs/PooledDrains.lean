/-
  ChangeLedger.Proofs.PooledDrains — a drain does the same in every order.

  The texts of a drain are merged by log before any is written, so that no log
  is written to twice.  With a pool of workers the writes reach the sink in an
  order that nobody chose.  A sink may treat its logs differently, refuse some
  and fail others after a while, and the drain still comes out the same, as
  long as what the sink does with one log does not depend on the others.

  Main results:
    * `Sink.LogByLog.answersByLog` — a step: a sink that keeps something for each
      log and looks at nothing else answers each log by its own appends.
    * `Sink.watched_appendAll` — a run: the appends to different logs are all
      answered as if each came first.
    * `Staging.countAppends_eq` — what the outcomes add to the counters.
    * `Transaction.drains_do_not_depend_on_order` — the whole statement.
-/
import ChangeLedger.Proofs.DrainExactness
import ChangeLedger.Transaction.Pool
import Mathlib.Algebra.GroupWithZero.Nat

namespace ChangeLedger

variable {κ π σ ρ : Type}

/-! ## Sinks that do not mix up their logs -/

/-- The appends to one log. -/
def appendsTo (name : LogName) (appends : List (LogName × String)) : List (LogName × String) :=
  appends.filter fun a => a.1 = name

/-- Different logs are written to at most once each, so that the order makes no
    difference to any of them. -/
theorem appendsTo_perm {writes order : List (LogName × String)} (hperm : order.Perm writes)
    (hnodup : (writes.map Prod.fst).Nodup) (name : LogName) :
    appendsTo name order = appendsTo name writes := by
  have hapart : ∀ l : List (LogName × String), (l.map Prod.fst).Nodup →
      (appendsTo name l).Pairwise fun a b => a.1 ≠ b.1 :=
    fun l hl => (List.pairwise_map.mp hl).filter _
  have hname : ∀ (l : List (LogName × String)), ∀ a ∈ appendsTo name l, a.1 = name :=
    fun l a ha => of_decide_eq_true (List.mem_filter.mp ha).2
  refine List.Perm.eq_of_pairwise (fun a b ha hb hne _ => ?_)
    (hapart order ((hperm.map Prod.fst).nodup_iff.mpr hnodup)) (hapart writes hnodup)
    (hperm.filter _)
  exact absurd ((hname order a ha).trans (hname writes b hb).symm) hne

theorem appendsTo_of_forall_ne {name : LogName} {appends : List (LogName × String)}
    (h : ∀ a ∈ appends, a.1 ≠ name) : appendsTo name appends = [] :=
  List.filter_eq_nil_iff.mpr fun a ha hname => h a ha (of_decide_eq_true hname)

namespace Sink

/-- From `start` on, what the sink answers for a log depends only on that log
    and on the earlier appends to it. -/
def AnswersByLog (sink : Sink σ) (start : σ) : Prop :=
  ∀ past past' name text, appendsTo name past = appendsTo name past' →
    (sink.append name text (sink.appendAll past start).2).1 =
      (sink.append name text (sink.appendAll past' start).2).1

/-- From `start` on, what the sink holds of a log depends only on that log and
    on the appends to it. -/
def HoldsByLog (sink : Sink σ) (start : σ) (held : LogName → σ → ρ) : Prop :=
  ∀ past past' name, appendsTo name past = appendsTo name past' →
    held name (sink.appendAll past start).2 = held name (sink.appendAll past' start).2

/-- In every state, an append looks only at what is held of its own log, and
    changes nothing that is held of another. -/
structure LogByLog (sink : Sink σ) (held : LogName → σ → ρ) : Prop where
  /-- The answer depends on what is held of the log. -/
  answer : ∀ {s s'} name text, held name s = held name s' →
    (sink.append name text s).1 = (sink.append name text s').1
  /-- So does what is held of it afterwards. -/
  own : ∀ {s s'} name text, held name s = held name s' →
    held name (sink.append name text s).2 = held name (sink.append name text s').2
  /-- Of all other logs the same is held as before. -/
  other : ∀ {name name'} text s, name' ≠ name →
    held name' (sink.append name text s).2 = held name' s

theorem appendAll_cons (sink : Sink σ) (a : LogName × String) (rest : List (LogName × String))
    (s : σ) :
    sink.appendAll (a :: rest) s =
      (⟨a.1, a.2.utf8ByteSize, succeeded (sink.append a.1 a.2 s).1⟩ ::
        (sink.appendAll rest (sink.append a.1 a.2 s).2).1,
        (sink.appendAll rest (sink.append a.1 a.2 s).2).2) := by
  obtain ⟨name, text⟩ := a
  rw [appendAll]
  obtain ⟨answer, s'⟩ := sink.append name text s
  cases answer <;> rfl

/-- Appends that follow others go on from what those left. -/
theorem appendAll_concat (sink : Sink σ) (past : List (LogName × String)) (a : LogName × String)
    (s : σ) :
    (sink.appendAll (past ++ [a]) s).2 = (sink.append a.1 a.2 (sink.appendAll past s).2).2 := by
  induction past generalizing s with
  | nil => rw [List.nil_append, appendAll_cons]; rfl
  | cons b rest ih => rw [List.cons_append, appendAll_cons, appendAll_cons]; exact ih _

namespace LogByLog

variable {sink : Sink σ} {held : LogName → σ → ρ}

/-- What is held of a log after some appends is what is held after its own. -/
theorem held_appendAll (h : sink.LogByLog held) (name : LogName) {s s' : σ}
    (hs : held name s = held name s') (appends : List (LogName × String)) :
    held name (sink.appendAll appends s).2 =
      held name (sink.appendAll (appendsTo name appends) s').2 := by
  induction appends generalizing s s' with
  | nil => exact hs
  | cons a rest ih =>
    rw [appendAll_cons]
    by_cases ha : a.1 = name
    · have hown : appendsTo name (a :: rest) = a :: appendsTo name rest :=
        List.filter_cons_of_pos (decide_eq_true ha)
      rw [hown, appendAll_cons]
      exact ih (by rw [ha]; exact h.own name a.2 hs)
    · have hother : appendsTo name (a :: rest) = appendsTo name rest :=
        List.filter_cons_of_neg fun h => ha (of_decide_eq_true h)
      rw [hother]
      exact ih ((h.other a.2 s fun h => ha h.symm).trans hs)

theorem holdsByLog (h : sink.LogByLog held) (start : σ) : sink.HoldsByLog start held := by
  intro past past' name hsame
  rw [h.held_appendAll name rfl past, h.held_appendAll name rfl past', hsame]

theorem answersByLog (h : sink.LogByLog held) (start : σ) : sink.AnswersByLog start :=
  fun past past' name text hsame => h.answer name text (h.holdsByLog start past past' name hsame)

end LogByLog

/-! ## Appends to different logs -/

/-- What becomes of a write that is made in this state. -/
def outcome (sink : Sink σ) (s : σ) (a : LogName × String) : AppendOutcome :=
  ⟨a.1, a.2.utf8ByteSize, succeeded (sink.append a.1 a.2 s).1⟩

/-- The writes that the sink would take in this state. -/
def taken (sink : Sink σ) (s : σ) (writes : List (LogName × String)) : List (LogName × String) :=
  writes.filter fun a => succeeded (sink.append a.1 a.2 s).1

/-- The writes that the sink would refuse in this state. -/
def refused (sink : Sink σ) (s : σ) (writes : List (LogName × String)) : List (LogName × String) :=
  writes.filter fun a => !succeeded (sink.append a.1 a.2 s).1

/-- **A run.**  Writes to different logs, none of which was written to before,
    are answered as if each of them came first. -/
theorem watched_appendAll {sink : Sink σ} {start : σ} (hsink : sink.AnswersByLog start)
    {order : List (LogName × String)} (hnodup : (order.map Prod.fst).Nodup)
    {past : List (LogName × String)} (hpast : ∀ a ∈ order, ∀ b ∈ past, b.1 ≠ a.1)
    (events : List (Event κ π)) :
    sink.watched.appendAll order ⟨(sink.appendAll past start).2, events⟩ =
      (order.map (sink.outcome start), ⟨(sink.appendAll (past ++ order) start).2,
        events ++ order.map fun a => .appended a.1 a.2 (sink.append a.1 a.2 start).1⟩) := by
  induction order generalizing past events with
  | nil => rw [List.append_nil, List.map_nil, List.map_nil, List.append_nil]; rfl
  | cons a rest ih =>
    obtain ⟨hfresh, hrest⟩ := List.nodup_cons.mp hnodup
    -- The log of the first write has no earlier appends.
    have hanswer : (sink.append a.1 a.2 (sink.appendAll past start).2).1 =
        (sink.append a.1 a.2 start).1 :=
      hsink past [] a.1 a.2 (appendsTo_of_forall_ne (hpast a List.mem_cons_self))
    have hnext : ∀ b ∈ rest, ∀ c ∈ past ++ [a], c.1 ≠ b.1 := by
      intro b hb c hc
      rcases List.mem_append.mp hc with hc | hc
      · exact hpast b (List.mem_cons_of_mem _ hb) c hc
      · rw [List.mem_singleton.mp hc]
        exact fun heq => hfresh (List.mem_map.mpr ⟨b, hb, heq.symm⟩)
    have happend : sink.watched.append a.1 a.2 ⟨(sink.appendAll past start).2, events⟩ =
        ((sink.append a.1 a.2 start).1, ⟨(sink.appendAll (past ++ [a]) start).2,
          events ++ [.appended a.1 a.2 (sink.append a.1 a.2 start).1]⟩) := by
      rw [appendAll_concat, ← hanswer]
      rfl
    rw [appendAll_cons, happend, ih hrest hnext, List.append_assoc past, List.append_assoc events]
    rfl

/-- What the outcomes of some writes say of them together. -/
theorem countP_outcome (sink : Sink σ) (s : σ) (order : List (LogName × String)) :
    (order.map (sink.outcome s)).countP AppendOutcome.accepted = (sink.taken s order).length ∧
    (order.map (sink.outcome s)).countP (fun o => !o.accepted) = (sink.refused s order).length ∧
    ((order.map (sink.outcome s)).filter AppendOutcome.accepted).map AppendOutcome.bytes =
      (sink.taken s order).map fun a => a.2.utf8ByteSize := by
  refine ⟨?_, ?_, ?_⟩
  · rw [List.countP_map, List.countP_eq_length_filter]
    rfl
  · rw [List.countP_map, List.countP_eq_length_filter]
    rfl
  · rw [List.filter_map, List.map_map]
    rfl

end Sink

/-! ## What a drain counts -/

/-- The counters after some appends, of which a sink took so many, of so many
    bytes together, and refused so many. -/
def Counters.appendsMade (c : Counters) (taken bytes refused : Nat) : Counters :=
  { c with
    logAppends := c.logAppends + UInt64.ofNat taken
    logBytes := c.logBytes + UInt64.ofNat bytes
    logFailures := c.logFailures + UInt64.ofNat refused }

namespace Counters

theorem appendsMade_zero (c : Counters) : c.appendsMade 0 0 0 = c := by
  unfold appendsMade
  rw [show UInt64.ofNat 0 = 0 from rfl, UInt64.add_zero, UInt64.add_zero, UInt64.add_zero]

theorem appendsMade_logAppended (c : Counters) (size taken bytes refused : Nat) :
    (c.logAppended size).appendsMade taken bytes refused =
      c.appendsMade (taken + 1) (size + bytes) refused := by
  unfold appendsMade logAppended
  rw [Nat.add_comm taken, UInt64.ofNat_add, UInt64.ofNat_add, ← UInt64.add_assoc,
    ← UInt64.add_assoc]
  rfl

theorem appendsMade_logFailed (c : Counters) (taken bytes refused : Nat) :
    c.logFailed.appendsMade taken bytes refused = c.appendsMade taken bytes (refused + 1) := by
  unfold appendsMade logFailed
  rw [Nat.add_comm refused, UInt64.ofNat_add, ← UInt64.add_assoc]
  rfl

end Counters

namespace Staging

/-- Counting twice is counting once. -/
theorem count_count (s : Staging κ π) (f g : Counters → Counters) :
    (s.count f).count g = s.count fun c => g (f c) := by
  unfold count
  by_cases hcounts : s.options.countsActivity = true
  · rw [if_pos hcounts, if_pos hcounts, if_pos hcounts]
  · rw [if_neg hcounts, if_neg hcounts, if_neg hcounts]

/-- What the outcomes of appends add to the counters does not depend on their
    order. -/
theorem countAppends_eq (outcomes : List AppendOutcome) (s : Staging κ π) :
    outcomes.foldl countAppend s = s.count fun c => c.appendsMade
      (outcomes.countP AppendOutcome.accepted)
      ((outcomes.filter AppendOutcome.accepted).map AppendOutcome.bytes).sum
      (outcomes.countP fun o => !o.accepted) := by
  induction outcomes generalizing s with
  | nil =>
    have hsame : (fun c : Counters => c.appendsMade 0 0 0) = id :=
      funext Counters.appendsMade_zero
    show s = s.count fun c => c.appendsMade 0 0 0
    rw [hsame]
    exact (ite_self s).symm
  | cons o rest ih =>
    rw [List.foldl_cons, ih]
    unfold countAppend
    rw [count_count]
    refine congrArg s.count (funext fun c => ?_)
    cases ho : o.accepted with
    | true =>
      rw [if_pos rfl, Counters.appendsMade_logAppended, List.countP_cons_of_pos ho,
        List.filter_cons_of_pos ho, List.countP_cons_of_neg (by rw [ho]; decide)]
      rfl
    | false =>
      rw [if_neg Bool.false_ne_true, Counters.appendsMade_logFailed,
        List.countP_cons_of_neg (ne_true_of_eq_false ho),
        List.filter_cons_of_neg (ne_true_of_eq_false ho), List.countP_cons_of_pos (by rw [ho]; rfl)]

end Staging

/-! ## Orders -/

namespace Transaction

/-- What the writes of a drain come to if they reach the sink in this order. -/
structure DrainsAs (sink : Sink σ) (t : Transaction κ π (Watched κ π σ))
    (writes order : List (LogName × String)) : Prop where
  /-- Each write is tried once, whatever became of those before it, and is
      answered as if it came first. -/
  attempts : (sink.watched.appendAll order t.world).2.events =
    t.events ++ order.map fun a => .appended a.1 a.2 (sink.append a.1 a.2 t.world.world).1
  /-- Of each log the sink holds in the end what it holds if the writes are made
      as they come. -/
  contents : ∀ {ρ : Type} (held : LogName → σ → ρ), sink.HoldsByLog t.world.world held →
    ∀ name, held name (sink.watched.appendAll order t.world).2.world =
      held name (sink.watched.appendAll writes t.world).2.world
  /-- A write is either taken or refused. -/
  complete : (sink.taken t.world.world writes).length + (sink.refused t.world.world writes).length =
    writes.length
  /-- The answer of the drain is the number of writes taken. -/
  answer : (sink.watched.appendAll order t.world).1.countP AppendOutcome.accepted =
    (sink.taken t.world.world writes).length
  /-- The counters grow by the writes taken, their bytes, and the writes refused;
      nothing else is counted. -/
  counters : (sink.watched.appendAll order t.world).1.foldl Staging.countAppend t.staging =
    t.staging.count fun c => c.appendsMade (sink.taken t.world.world writes).length
      ((sink.taken t.world.world writes).map fun a => a.2.utf8ByteSize).sum
      (sink.refused t.world.world writes).length

/-- Writes to different logs come to the same in every order. -/
theorem DrainsAs.of_perm {sink : Sink σ} {t : Transaction κ π (Watched κ π σ)}
    (hsink : sink.AnswersByLog t.world.world) {writes order : List (LogName × String)}
    (hnodup : (writes.map Prod.fst).Nodup) (hperm : order.Perm writes) :
    DrainsAs sink t writes order := by
  have hrun : ∀ l : List (LogName × String), (l.map Prod.fst).Nodup →
      sink.watched.appendAll l t.world = (l.map (sink.outcome t.world.world),
        ⟨(sink.appendAll l t.world.world).2,
          t.events ++ l.map fun a => .appended a.1 a.2 (sink.append a.1 a.2 t.world.world).1⟩) := by
    intro l hl
    have hpast : ∀ a ∈ l, ∀ b ∈ ([] : List (LogName × String)), b.1 ≠ a.1 :=
      fun _ _ _ hb => nomatch hb
    exact Sink.watched_appendAll hsink hl hpast t.events
  have horder := hrun order ((hperm.map Prod.fst).nodup_iff.mpr hnodup)
  have htaken : (sink.taken t.world.world order).Perm (sink.taken t.world.world writes) :=
    hperm.filter _
  have hrefused : (sink.refused t.world.world order).Perm (sink.refused t.world.world writes) :=
    hperm.filter _
  obtain ⟨haccepted, hfailed, hbytes⟩ := sink.countP_outcome t.world.world order
  constructor
  · rw [horder]
  · intro ρ held hheld name
    rw [horder, hrun writes hnodup]
    exact hheld order writes name (appendsTo_perm hperm hnodup name)
  · exact (List.length_eq_length_filter_add _).symm
  · rw [horder, haccepted, htaken.length_eq]
  · rw [horder, Staging.countAppends_eq, haccepted, hfailed, hbytes, htaken.length_eq,
      hrefused.length_eq, (htaken.map _).sum_nat]

/-- With any pool of workers, the phase of the change logs ends as it does
    without one; only the order of the appends may be another. -/
structure DrainsAsInline (pool : Pool) (sink : Sink σ) (t : Transaction κ π (Watched κ π σ)) :
    Prop where
  /-- The same number is answered. -/
  answer : (drainLogsOn pool sink.watched t).1 = (drainLogs sink.watched t).1
  /-- The same is staged and counted. -/
  staging : (drainLogsOn pool sink.watched t).2.staging = (drainLogs sink.watched t).2.staging
  /-- The error buffer is the same. -/
  errors : (drainLogsOn pool sink.watched t).2.errors = (drainLogs sink.watched t).2.errors
  /-- The same appends are made. -/
  attempts : (drainLogsOn pool sink.watched t).2.events.Perm (drainLogs sink.watched t).2.events
  /-- The sink holds the same. -/
  contents : ∀ {ρ : Type} (held : LogName → σ → ρ), sink.HoldsByLog t.world.world held →
    ∀ name, held name (drainLogsOn pool sink.watched t).2.world.world =
      held name (drainLogs sink.watched t).2.world.world

theorem DrainsAsInline.of_answersByLog (pool : Pool) {sink : Sink σ}
    {t : Transaction κ π (Watched κ π σ)} (hsink : sink.AnswersByLog t.world.world) :
    DrainsAsInline pool sink t := by
  by_cases hon : (t.staging.logEnabled && t.staging.options.anyAudit) = true
  · let writes := (PendingWrites.ofChunks t.staging.auditChunks).entries
    let dropped : Transaction κ π (Watched κ π σ) := { t with staging := t.staging.dropPushes }
    have hnodup : (writes.map Prod.fst).Nodup := SortedMap.nodup_keys _
    -- Any two pools drain as the merged writes do in their own order.
    have hdrains : ∀ pool : Pool, DrainsAs sink dropped writes (t.staging.appends pool) :=
      fun pool => .of_perm (t := dropped) hsink hnodup (t.staging.appends_perm pool)
    have hpooled := hdrains pool
    have hinline := hdrains .inline
    have hperm : (t.staging.appends pool).Perm (t.staging.appends .inline) :=
      (t.staging.appends_perm pool).trans (t.staging.appends_perm .inline).symm
    have hpooledOn := drainLogsOn_on pool sink.watched hon
    have hinlineOn : drainLogs sink.watched t = _ := drainLogsOn_on .inline sink.watched hon
    constructor
    · rw [hpooledOn, hinlineOn]
      exact hpooled.answer.trans hinline.answer.symm
    · rw [hpooledOn, hinlineOn]
      exact congrArg (Staging.count · fun c => c.phaseFinished .changeLog 0 true)
        (hpooled.counters.trans hinline.counters.symm)
    · rw [hpooledOn, hinlineOn]
      rfl
    · rw [hpooledOn, hinlineOn]
      show (sink.watched.appendAll (t.staging.appends pool) t.world).2.events.Perm
        (sink.watched.appendAll (t.staging.appends .inline) t.world).2.events
      rw [hpooled.attempts, hinline.attempts]
      exact (hperm.map _).append_left _
    · intro ρ held hheld name
      rw [hpooledOn, hinlineOn]
      exact (hpooled.contents held hheld name).trans (hinline.contents held hheld name).symm
  · have hoff : drainLogsOn pool sink.watched t = drainLogs sink.watched t :=
      (drainLogsOn_off pool sink.watched hon).trans (drainLogsOn_off .inline sink.watched hon).symm
    exact ⟨by rw [hoff], by rw [hoff], by rw [hoff], by rw [hoff], fun held _ name => by rw [hoff]⟩

/-- **Drains do not depend on the order of their writes.**  Take any texts for
    the logs of objects and of users, and any sink whose answer for a log
    depends only on that log and on the earlier appends to it.  Merging gives
    one write for each log that any text is for: the texts for it, joined in
    their order.  In whatever order the writes reach the sink, each is tried
    once, the sink comes to hold the same, and the same is answered and counted.
    So the phase of the change logs ends the same with any pool of workers as
    without one. -/
theorem drains_do_not_depend_on_order (sink : Sink σ) (t : Transaction κ π (Watched κ π σ))
    (hsink : sink.AnswersByLog t.world.world) (objectTexts : List (LogName × String))
    (userTexts : List (String × String)) :
    let chunks := objectTexts ++ userTexts.map fun c => (⟨.user, c.1⟩, c.2)
    let writes := (PendingWrites.ofChunks chunks).entries
    (writes.map Prod.fst).Nodup ∧
    (∀ name text, (name, text) ∈ writes ↔ text = textFor name chunks ∧ text ≠ "") ∧
    (∀ order, order.Perm writes → DrainsAs sink t writes order) ∧
    ∀ pool, DrainsAsInline pool sink t := by
  intro chunks writes
  have hnodup : (writes.map Prod.fst).Nodup := SortedMap.nodup_keys _
  exact ⟨hnodup, PendingWrites.mem_entries_ofChunks chunks,
    fun order hperm => .of_perm hsink hnodup hperm, fun pool => .of_answersByLog pool hsink⟩

/-- A memory store that refuses the log of one user. -/
def pickySink : Sink MemoryLog where
  append name text m :=
    if name = ⟨.user, "u-2"⟩ then (.error (.auditIo "u/u-2" (.reported "disk full")), m)
    else (.ok (), m.append name text)

theorem pickySink_logByLog : pickySink.LogByLog fun name m => m.get? name where
  answer name text _ := by
    unfold pickySink
    dsimp only
    split <;> rfl
  own name text hs := by
    unfold pickySink
    dsimp only
    split
    · exact hs
    · rw [MemoryLog.get?_append, MemoryLog.get?_append, hs]
  other text s hne := by
    unfold pickySink
    dsimp only
    split
    · rfl
    · rw [MemoryLog.get?_append, if_neg hne]

/-- Two texts for one node, none for an edge and one for each of two users are
    written from the last to the first: the second user is refused, and the
    node gets its texts in order. -/
theorem drains_do_not_depend_on_order_of_refusal :
    let t : Transaction Unit Unit (Watched Unit Unit MemoryLog) :=
      ⟨Staging.new {} ∅, ∅, { world := ∅ }⟩
    let node : LogName := ⟨.node, "n-1"⟩
    let writes := [(node, "1\n2\n"), (⟨.user, "u-1"⟩, "x\n"), (⟨.user, "u-2"⟩, "y\n")]
    let done := pickySink.watched.appendAll writes.reverse t.world
    done.1.countP AppendOutcome.accepted = 2 ∧ done.2.world.get? node = some "1\n2\n" := by
  intro t node writes done
  obtain ⟨-, -, hall, -⟩ := drains_do_not_depend_on_order pickySink t
    (pickySink_logByLog.answersByLog t.world.world)
    [(node, "1\n"), (node, "2\n"), (⟨.edge, "r-1"⟩, "")] [("u-2", "y\n"), ("u-1", "x\n")]
  have hmerged : (PendingWrites.ofChunks ([(node, "1\n"), (node, "2\n"), (⟨.edge, "r-1"⟩, "")] ++
      [("u-2", "y\n"), ("u-1", "x\n")].map fun c => (⟨.user, c.1⟩, c.2))).entries = writes := by
    decide
  rw [hmerged] at hall
  have hdone := hall writes.reverse (List.reverse_perm writes)
  refine ⟨hdone.answer, ?_⟩
  show done.2.world.get? node = _
  rw [hdone.contents _ (pickySink_logByLog.holdsByLog _) node]
  decide

end Transaction

end ChangeLedger
