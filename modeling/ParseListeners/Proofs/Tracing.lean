import ParseListeners.Proofs.Flattening
import ParseListeners.Proofs.Retelling
import ParseListeners.Proofs.Visits

/-!
# Trace records

Nobody may receive trace records; then none are made.  `Recognizer.deliverQuietly` is a dispatch in
which listeners make none.  The same is done and the same comes out
(`Recognizer.retell_deliver_quietly`).

A dispatch makes one record for each visit to a fan-out and one for each visit to a listener that
traces events, and no others (`Recognizer.deliver_traced`).
-/

namespace ParseListeners

open Trace

/-! ### What records show -/

/-- How much an event of a kind matters to a listener that traces events. -/
def Event.Kind.level : Event.Kind → Level
  | .syntaxError => .warn
  | .ambiguity => .debug
  | .fullContext => .trace
  | .contextSensitivity => .trace

/-- All that a record can show of an event. -/
def Event.facts : Event → List (String × Value)
  | .syntaxError e =>
    [("line", .number e.line.toNat), ("column", .number e.column.toNat)] ++
      e.cause.toList.map fun cause => ("cause", .text cause.render)
  | .report r =>
    [("decision", .number r.decision.number.toNat), ("start", .number r.start.toNat),
      ("stop", .number r.stop.toNat)] ++
      match r.finding with
      | .ambiguity exact alternatives =>
        [("exact", .flag exact), ("alts", .text alternatives.render)]
      | .fullContext conflicting => [("alts", .text conflicting.render)]
      | .contextSensitivity prediction =>
        [("prediction", .number prediction.toNat),
          ("full_context", .flag r.configurations.fullContext)]

/-- The part of it that tells which event it is. -/
def Event.identity (event : Event) : List (String × Value) :=
  event.facts.filter fun (name, _) =>
    name ∈ ["line", "column", "decision", "exact", "prediction"]

theorem Event.trace_eq (grammar : String) (event : Event) :
    event.trace grammar =
      { event.trace grammar with
        level := event.kind.level
        fields := ("grammar", .text grammar) :: event.facts } := by
  cases event with
  | syntaxError e =>
    cases h : e.cause <;> simp [trace, SyntaxError.trace, kind, Kind.level, facts, h]
  | report r =>
    cases h : r.finding <;>
      simp [trace, Report.trace, kind, Finding.kind, Kind.level, facts, h]

theorem Event.forwardingTrace_eq (delegates : Nat) (event : Event) :
    event.forwardingTrace delegates =
      { event.forwardingTrace delegates with
        level := .trace
        fields := ("delegates", .number delegates) :: event.identity } := by
  cases event with
  | syntaxError e => cases h : e.cause <;> simp [forwardingTrace, identity, facts, h]
  | report r => cases h : r.finding <;> simp [forwardingTrace, identity, facts, h]

/-! ### Dispatches without records -/

/-- What a leaf does with an event by itself, if no trace records are made. -/
def Leaf.takeQuietly (origin : Origin) (event : Event) (leaf : Leaf) : Action :=
  match leaf with
  | .tracing => .done
  | leaf => leaf.take origin event

namespace Recognizer

/-- The recognizer sends an event and no trace records are made; `hand` is what it does with a
message. -/
def sendQuietly (r : Recognizer) (hand : String → Action) (event : Event) : Listener → Action :=
  Listener.traverse (fun _ => .done) fun leaf =>
    (Action.note (.called leaf r.toOrigin event)).andThen
      (match leaf.message? r.toOrigin event with
        | some m => hand m
        | none => leaf.takeQuietly r.toOrigin event)

/-- The recognizer sends an event and no trace records are made; on a syntax error no message is
handed back. -/
def deliverQuietly (r : Recognizer) (event : Event) : Listener → Action :=
  r.sendQuietly (r.notifyBy fun e => r.sendQuietly (fun _ => .done) (.syntaxError e)) event

end Recognizer

/-- The entry, unless it is a trace record. -/
def Entry.untold (e : Entry) : List Entry := if e.isTraced then [] else [e]

theorem flatMap_untold (journal : List Entry) :
    journal.flatMap Entry.untold = untraced journal := by
  induction journal with
  | nil => rfl
  | cons e journal ih =>
    rw [List.flatMap_cons, ih]
    cases h : e.isTraced <;> simp [Entry.untold, untraced, h]

theorem Leaf.isTraced_of_mem_take {leaf : Leaf} {origin : Origin} {event : Event} {s : Store}
    {e : Entry} (hleaf : leaf ≠ .tracing) (h : e ∈ (leaf.take origin event s).journal) :
    e.isTraced = false := by
  cases leaf with
  | null => simp [take, Action.done] at h
  | tracing => exact absurd rfl hleaf
  | standardError =>
    cases event with
    | syntaxError error =>
      obtain rfl : e = .printed error.consoleLine := by simpa [take, Action.note] using h
      rfl
    | report report => simp [take, Action.done] at h
  | diagnostic d => simp [take, Action.done] at h
  | collector id => simp [take, Action.remember] at h
  | console id sink =>
    cases event with
    | report report => simp [take, Action.done] at h
    | syntaxError error =>
      rcases writeLine_cases id sink error.consoleLine s with
        ⟨err, -, hrun⟩ | ⟨err, -, -, hrun⟩ | ⟨-, -, hrun⟩ <;>
      · simp only [take, hrun, List.mem_cons, List.not_mem_nil, or_false] at h
        rcases h with rfl | rfl | rfl <;> rfl
  | host id host =>
    cases hh : host.handles event.kind with
    | false => simp [take, hh, Action.done] at h
    | true =>
      rcases respond_cases id host ⟨origin, event⟩ s with ⟨f, -, hrun⟩ | ⟨-, hrun⟩
      · obtain rfl : e = .failed f := by simpa [take, hh, hrun] using h
        rfl
      · simp [take, hh, hrun] at h

theorem Leaf.retell_take (origin : Origin) (event : Event) (leaf : Leaf) :
    (leaf.take origin event).retell Entry.untold = leaf.takeQuietly origin event := by
  by_cases hleaf : leaf = .tracing
  · subst hleaf
    rfl
  · have hquiet : leaf.takeQuietly origin event = leaf.take origin event := by
      cases leaf with
      | tracing => exact absurd rfl hleaf
      | _ => rfl
    rw [hquiet]
    refine Action.retell_eq_self fun s e he => ?_
    simp [Entry.untold, isTraced_of_mem_take hleaf he]

namespace Recognizer

variable {r : Recognizer} {event : Event}

theorem sendQuietly_leaf (hand : String → Action) (leaf : Leaf) :
    r.sendQuietly hand event (.leaf leaf) =
      (Action.note (.called leaf r.toOrigin event)).andThen
        (match leaf.message? r.toOrigin event with
          | some m => hand m
          | none => leaf.takeQuietly r.toOrigin event) := by
  rw [sendQuietly, Listener.traverse]

theorem sendQuietly_fanOut (hand : String → Action) (policy : Policy) (ds : List Listener) :
    r.sendQuietly hand event (.fanOut policy ds) =
      policy.combine (ds.map (r.sendQuietly hand event)) := by
  rw [sendQuietly, Listener.traverse, Listener.traverseEach_eq_map, Action.done_andThen]

theorem retell_deliver_of_hand {hand : String → Action} (hhand : ∀ (leaf : Leaf) m,
      leaf.message? r.toOrigin event = some m → (r.notify m).retell Entry.untold = hand m)
    (l : Listener) :
    (r.deliver event l).retell Entry.untold = r.sendQuietly hand event l := by
  refine retell_deliver (r.sendQuietly hand event) (fun leaf => ?_) (fun policy ds => ?_) l
  · rw [deliver_leaf, Action.retell_andThen, Action.retell_note rfl, sendQuietly_leaf]
    congr 1
    cases hm : leaf.message? r.toOrigin event with
    | some m => exact hhand leaf m hm
    | none => exact leaf.retell_take r.toOrigin event
  · exact sendQuietly_fanOut hand policy ds

/-- **Trace records make no difference.**  Without them a dispatch is a quiet one. -/
theorem retell_deliver_quietly (r : Recognizer) (event : Event) (l : Listener) :
    (r.deliver event l).retell Entry.untold = r.deliverQuietly event l := by
  have hsyntaxError : ∀ e target, (r.deliver (.syntaxError e) target).retell Entry.untold =
      r.sendQuietly (fun _ => .done) (.syntaxError e) target :=
    fun e => retell_deliver_of_hand (by simp)
  refine retell_deliver_of_hand (fun _ m _ => ?_) l
  rw [notify_eq_notifyBy, retell_notifyBy (fun _ => rfl) (fun _ => rfl)]
  simp only [hsyntaxError]

/-! ### The records of visits -/

/-- The record that a visit makes.  At a fan-out it shows how many delegates the fan-out has and
which event it is; at a listener that traces events it shows the grammar and all of the event. -/
def record? (r : Recognizer) (v : Visit) : Option Record :=
  match v.listener with
  | .fanOut _ delegates =>
    some { v.event.forwardingTrace delegates.length with
      level := .trace
      fields := ("delegates", .number delegates.length) :: v.event.identity }
  | .leaf .tracing =>
    some { v.event.trace r.grammar with
      level := v.event.kind.level
      fields := ("grammar", .text r.grammar) :: v.event.facts }
  | .leaf _ => none

theorem isTraced_of_mem_ownEntries {leaf : Leaf} (hleaf : leaf ≠ .tracing) {path : List Nat}
    {s : Store} {entry : Entry} (h : entry ∈ r.ownEntries ⟨path, event, .leaf leaf, s⟩) :
    entry.isTraced = false := by
  simp only [ownEntries, List.mem_cons] at h
  rcases h with rfl | h
  · rfl
  · cases hm : leaf.message? r.toOrigin event with
    | none =>
      rw [hm] at h
      exact Leaf.isTraced_of_mem_take hleaf h
    | some m =>
      simp only [hm, List.mem_cons] at h
      rcases h with rfl | h
      · rfl
      · cases hr : r.reply with
        | refuse cause =>
          obtain rfl : entry = .failed (.refused cause) := by simpa [hr] using h
          rfl
        | _ => simp [hr] at h

/-- What happens at a visit itself, with the record last. -/
theorem ownEntries_eq (r : Recognizer) (v : Visit) :
    r.ownEntries v = untraced (r.ownEntries v) ++ (r.record? v).toList.map .traced := by
  obtain ⟨path, event, l, s⟩ := v
  cases l with
  | fanOut policy ds =>
    simp only [ownEntries, record?, ← Event.forwardingTrace_eq]
    rfl
  | leaf leaf =>
    by_cases hleaf : leaf = .tracing
    · subst hleaf
      have hm : Leaf.tracing.message? r.toOrigin event = none := by cases event <;> rfl
      simp only [ownEntries, record?, hm, ← Event.trace_eq]
      rfl
    · have hrecord : r.record? ⟨path, event, .leaf leaf, s⟩ = none := by
        cases leaf with
        | tracing => exact absurd rfl hleaf
        | _ => rfl
      have huntraced : untraced (r.ownEntries ⟨path, event, .leaf leaf, s⟩) =
          r.ownEntries ⟨path, event, .leaf leaf, s⟩ :=
        List.filter_eq_self.2 fun e he => by simp [isTraced_of_mem_ownEntries hleaf he]
      rw [huntraced, hrecord, Option.toList_none, List.map_nil, List.append_nil]

end Recognizer

/-! ### What the host program sees -/

/-- Where there are no trace records, it makes no difference whether the host program asks for
them. -/
theorem observed_untraced (tracing : Bool) (journal : List Entry) :
    observed tracing (untraced journal) = observed false journal := by
  rw [observed, untraced, List.filter_filter, observed]
  refine List.filter_congr fun e _ => ?_
  cases e with
  | called leaf origin event => cases leaf <;> simp [Entry.isObserved, Entry.isTraced]
  | _ => simp [Entry.isObserved, Entry.isTraced]

theorem observed_map_traced (records : List Record) :
    observed true (records.map .traced) = records.map .traced :=
  List.filter_eq_self.2 fun e he => by
    obtain ⟨record, -, rfl⟩ := List.mem_map.1 he
    rfl

theorem observed_flatMap {α : Type} (tracing : Bool) (f : α → List Entry) (xs : List α) :
    observed tracing (xs.flatMap f) = xs.flatMap fun x => observed tracing (f x) := by
  rw [observed, List.filter_flatMap]
  rfl

/-- **Trace records follow the visits.**  A dispatch does what a quiet one does, and the same comes
out.  Apart from trace records the same happens: at each visit the same entries are made, and if
the visit is one to a fan-out or to a listener that traces events, then its record is made after
them, and no other record ever.  So the host program sees what it sees of a quiet dispatch, with the
records in their places.  The visits come in the order of their paths, each path once; the record of
a fan-out thus stands before all that its delegates do, and after all that earlier delegates of the
fan-out above have done.  A path leads from a fan-out to a delegate, and from a leaf that hands back
a message to the listener that the message is forwarded to.  The first listener is visited; what
stands below another one is visited if this one is, unless it is a fail-fast fan-out and an earlier
delegate is left out or fails. -/
theorem Recognizer.deliver_traced (r : Recognizer) (event : Event) (l : Listener) (s : Store) :
    let run := r.deliver event l s
    let quiet := r.deliverQuietly event l s
    let visits := r.visits event l s
    let records (v : Visit) : List Entry := (r.record? v).toList.map .traced
    (quiet.result = run.result ∧ quiet.store = run.store) ∧
      quiet.journal = visits.flatMap (fun v => untraced (r.ownEntries v)) ∧
      run.journal = visits.flatMap (fun v => untraced (r.ownEntries v) ++ records v) ∧
      (∀ tracing, observed tracing quiet.journal =
        visits.flatMap fun v => observed false (r.ownEntries v)) ∧
      observed true run.journal =
        visits.flatMap (fun v => observed false (r.ownEntries v) ++ records v) ∧
      visits.Pairwise (fun v v' => v.path < v'.path) ∧
      (∀ v ∈ visits, r.sent? event l v.path = some (v.event, v.listener)) ∧
      r.IsVisited event l s [] ∧
      ∀ path k x, r.sent? event l (path ++ [k]) = some x →
        (r.IsVisited event l s (path ++ [k]) ↔
          r.IsVisited event l s path ∧
            ∀ ds, (r.sent? event l path).map Prod.snd = some (.fanOut .failFast ds) →
              ∀ j < k, r.IsServed event l s (path ++ [j])) := by
  intro run quiet visits records
  have hquiet : quiet = run.retell Entry.untold :=
    congrFun (r.retell_deliver_quietly event l).symm s
  have hrun : run.journal = visits.flatMap r.ownEntries := r.journal_deliver_visits event l s
  have huntraced : quiet.journal = visits.flatMap fun v => untraced (r.ownEntries v) := by
    have hjournal : quiet.journal = untraced run.journal := by
      rw [hquiet, ← flatMap_untold]
      rfl
    rw [hjournal, hrun, untraced, List.filter_flatMap]
    rfl
  have htraced : run.journal = visits.flatMap fun v => untraced (r.ownEntries v) ++ records v :=
    hrun.trans (List.flatMap_congr fun v _ => r.ownEntries_eq v)
  refine ⟨?_, huntraced, htraced, fun tracing => ?_, ?_, r.pairwise_visits event l s,
    fun v hv => sent?_of_mem_visits hv, isVisited_nil, fun path k x h => isVisited_snoc_iff h⟩
  · rw [hquiet]
    exact ⟨rfl, rfl⟩
  · rw [huntraced, observed_flatMap]
    simp only [observed_untraced]
  · rw [htraced, observed_flatMap]
    simp only [observed_append, observed_untraced, records, observed_map_traced]

end ParseListeners
