import ParseListeners.Proofs.Accounting
import ParseListeners.Proofs.Memories
import ParseListeners.Proofs.Success

/-!
# Messages that come back

A recognizer may forward messages to the very fan-out that it is sending a report to.  Then the
fan-out is entered again, once for each diagnostic listener among its delegates, and all delegates
hear the message before the next one hears the report.

`Recognizer.hearings` lists who hears what in a dispatch, by places in the tree; for a fan-out with
no other fan-outs below it these are the positions of its delegates.  `Recognizer.deliver_echo` says
what the journal holds and what is heard at each position: the report, once, and one echo of it for
each diagnostic listener, those of earlier positions before the report and the others after it.
-/

namespace ParseListeners

/-! ### Who hears what -/

/-- A leaf at a place of a tree hears an event. -/
structure Hearing where
  /-- The leaf, and where it stands. -/
  occurrence : Occurrence
  /-- What it hears. -/
  event : Event

/-- What the collecting listener `id` keeps of what is heard, if it is the one that hears it. -/
def Hearing.recorded? (id : Nat) (h : Hearing) : Option Recorded :=
  if h.occurrence.leaf.collects id then some (.ofEvent h.event) else none

/-- What a leaf is called with, and for whom, if the entry is a call. -/
def Entry.hearing? : Entry → Option (Leaf × Origin × Event)
  | .called leaf origin event => some (leaf, origin, event)
  | _ => none

@[simp] theorem Entry.hearing?_called (leaf : Leaf) (origin : Origin) (event : Event) :
    (called leaf origin event).hearing? = some (leaf, origin, event) := rfl

@[simp] theorem Entry.hearing?_notified (recognizer : Nat) (message : String) :
    (notified recognizer message).hearing? = none := rfl

@[simp] theorem Entry.hearing?_failed (f : Failure) : (failed f).hearing? = none := rfl

namespace Recognizer

/-- What the leaves in turn hear when a recognizer sends an event, in order; after a leaf that hands
a message back, what is heard of the syntax error that the message becomes. -/
def hearings (r : Recognizer) (event : Event) (l : Listener) (s : Store) : List Hearing :=
  (r.turns event l s).flatMap fun t =>
    match t.occurrence? with
    | none => []
    | some o => ⟨o, event⟩ ::
      match (o.leaf.message? r.toOrigin event).bind r.forward? with
      | none => []
      | some (target, e) =>
        ((r.turns (.syntaxError e) target t.store).filterMap Turn.occurrence?).map
          fun o => ⟨o, .syntaxError e⟩

variable {r : Recognizer} {event : Event} {l : Listener} {s : Store}

theorem filterMap_hearing?_take (leaf : Leaf) (origin : Origin) (event : Event) (s : Store) :
    (leaf.take origin event s).journal.filterMap Entry.hearing? = [] := by
  refine List.filterMap_eq_nil_iff.2 fun entry h => ?_
  rcases Leaf.isWork_or_failed_of_mem_take h with h | ⟨f, rfl⟩
  · cases entry with
    | called leaf origin event => simp [Entry.isWork] at h
    | _ => rfl
  · rfl

theorem filterMap_hearing?_deliver_syntaxError (e : SyntaxError) (l : Listener) (s : Store) :
    (r.deliver (.syntaxError e) l s).journal.filterMap Entry.hearing? =
      ((r.turns (.syntaxError e) l s).filterMap Turn.occurrence?).map
        fun o => (o.leaf, r.toOrigin, .syntaxError e) := by
  -- all calls of a syntax error are its own
  have h : Entry.hearing? = Entry.ownCall? (.syntaxError e) := by
    funext entry
    cases entry <;> rfl
  rw [h, filterMap_ownCall?_deliver]

/-- Those who hear something are called, in the journal, with what they hear; and nobody else is. -/
theorem filterMap_hearing?_deliver (r : Recognizer) (event : Event) (l : Listener) (s : Store) :
    (r.deliver event l s).journal.filterMap Entry.hearing? =
      (r.hearings event l s).map fun h => (h.occurrence.leaf, r.toOrigin, h.event) := by
  rw [filterMap_journal_deliver (fun _ => rfl), hearings, List.map_flatMap]
  refine List.flatMap_congr fun t _ => ?_
  cases hl : t.listener with
  | fanOut policy ds => simp [Turn.fold, Turn.occurrence?, hl]
  | leaf leaf =>
    simp only [Turn.fold, Turn.occurrence?, hl, List.map_cons]
    cases hm : leaf.message? r.toOrigin event with
    | none =>
      rw [deliver_leaf_of_none hm]
      simp [filterMap_hearing?_take]
    | some m =>
      rw [journal_deliver_leaf_of_some hm, List.filterMap_cons_some (Entry.hearing?_called ..)]
      rcases r.reply_cases m with ⟨hr, hto⟩ | ⟨cause, hr, hto⟩ | ⟨target, e, hto⟩
      · simp [notify_of_accept hr, hto]
      · simp [notify_of_refuse hr, hto]
      · rw [journal_notify_of_forward hto, List.filterMap_cons_none (Entry.hearing?_notified ..),
          filterMap_hearing?_deliver_syntaxError]
        simp [hto]

end Recognizer

/-! ### Reports that are handed back -/

namespace Leaf

/-- The leaf hands a report back: it is a diagnostic listener that does not leave it out. -/
def handsBack (report : Report) : Leaf → Bool
  | .diagnostic d => !d.skips report
  | _ => false

theorem message?_report (origin : Origin) (report : Report) (leaf : Leaf) :
    leaf.message? origin (.report report) =
      if leaf.handsBack report then some (report.message origin) else none := by
  cases leaf with
  | diagnostic d => cases h : d.skips report <;> simp [message?, handsBack, h]
  | _ => rfl

end Leaf

namespace Recognizer

variable {r : Recognizer} {report : Report} {policy : Policy} {leaves : List Leaf}
  {e : SyntaxError} {s : Store}

/-- What happens at a delegate of a fan-out that hears of its own messages: if it hands the report
back, a notification, and the syntax error `e` for all delegates. -/
def echoEntries (r : Recognizer) (report : Report) (e : SyntaxError) (leaves : List Leaf)
    (leaf : Leaf) : List Entry :=
  if leaf.handsBack report then
    [.called leaf r.toOrigin (.report report), .notified r.index (report.message r.toOrigin),
        .traced ((Event.syntaxError e).forwardingTrace leaves.length)] ++
      leaves.flatMap (Leaf.entries r.toOrigin (.syntaxError e))
  else leaf.entries r.toOrigin (.report report)

theorem result_deliver_of_notify_ok {m : String} {target : Listener}
    (hto : r.forward? m = some (target, e)) (h : (r.notify m s).result = .ok ()) :
    (r.deliver (.syntaxError e) target s).result = .ok () := by
  rw [result_notify_of_forward hto] at h
  cases hrun : (r.deliver (.syntaxError e) target s).result with
  | ok u => rfl
  | error f => simp [hrun, Except.mapError] at h

theorem journal_deliver_leaf_echo
    (hto : r.forward? (report.message r.toOrigin) = some (.fanOut policy (leaves.map .leaf), e))
    {leaf : Leaf} (hok : (r.deliver (.report report) (.leaf leaf) s).result = .ok ()) :
    (r.deliver (.report report) (.leaf leaf) s).journal = r.echoEntries report e leaves leaf := by
  have hm := leaf.message?_report r.toOrigin report
  cases hback : leaf.handsBack report with
  | false =>
    simp only [hback, Bool.false_eq_true, ↓reduceIte] at hm
    rw [journal_deliver_leaf_of_ok hm hok, echoEntries, hback]
    rfl
  | true =>
    simp only [hback, ↓reduceIte] at hm
    rw [result_deliver_leaf_of_some hm] at hok
    have hnested := journal_deliver_syntaxError_of_ok (result_deliver_of_notify_ok hto hok)
    rw [journal_deliver_leaf_of_some hm, journal_notify_of_forward hto, hnested, echoEntries,
      if_pos hback]
    rfl

/-- What happens in the whole dispatch is what happens at the delegates, in order. -/
theorem journal_deliver_echo
    (hto : r.forward? (report.message r.toOrigin) = some (.fanOut policy (leaves.map .leaf), e))
    (hok : (r.deliver (.report report) (.fanOut policy (leaves.map .leaf)) s).result = .ok ()) :
    (r.deliver (.report report) (.fanOut policy (leaves.map .leaf)) s).journal =
      .traced ((Event.report report).forwardingTrace leaves.length) ::
        leaves.flatMap (r.echoEntries report e leaves) := by
  rw [result_deliver_fanOut, List.map_map] at hok
  rw [journal_deliver_fanOut, List.length_map, List.map_map, Policy.journal_combine_of_ok _ hok]
  exact fun leaf _ t ht => journal_deliver_leaf_echo hto ht

theorem hearings_echo
    (hto : r.forward? (report.message r.toOrigin) = some (.fanOut policy (leaves.map .leaf), e))
    (hok : (r.deliver (.report report) (.fanOut policy (leaves.map .leaf)) s).result = .ok ()) :
    let occurrences := (Listener.fanOut policy (leaves.map .leaf)).occurrences
    r.hearings (.report report) (.fanOut policy (leaves.map .leaf)) s =
      occurrences.flatMap fun o => ⟨o, .report report⟩ ::
        if o.leaf.handsBack report then occurrences.map fun o => ⟨o, .syntaxError e⟩ else [] := by
  intro occurrences
  have hturns : _ = occurrences := occurrences_turns_of_ok hok
  have hturn : r.hearings (.report report) (.fanOut policy (leaves.map .leaf)) s =
      ((r.turns (.report report) (.fanOut policy (leaves.map .leaf)) s).filterMap
        Turn.occurrence?).flatMap fun o => ⟨o, .report report⟩ ::
          if o.leaf.handsBack report then occurrences.map fun o => ⟨o, .syntaxError e⟩ else [] := by
    rw [hearings, List.filterMap_eq_flatMap_toList, List.flatMap_assoc]
    refine List.flatMap_congr fun t ht => ?_
    cases hl : t.listener with
    | fanOut policy ds => simp [Turn.occurrence?, hl]
    | leaf leaf =>
      have hleaf := (result_deliver_eq_ok_iff _ s).1 hok t ht leaf hl
      have hm := leaf.message?_report r.toOrigin report
      simp only [Turn.occurrence?, hl, Option.toList_some, List.flatMap_singleton, hm]
      cases hback : leaf.handsBack report with
      | false => simp
      | true =>
        -- the recognizer has forwarded the message, and all delegates have heard it
        simp only [hback, ↓reduceIte] at hm
        rw [result_deliver_leaf_of_some hm] at hleaf
        have hnested : _ = occurrences :=
          occurrences_turns_of_ok (result_deliver_of_notify_ok hto hleaf)
        simp only [↓reduceIte, Option.bind_some, hto, ← hnested]
  rw [hturn, hturns]

end Recognizer

/-! ### What is heard at a position -/

/-- If all hear a report, and all hear its echo after each one in `back`, then the only one in `own`
hears the report once, and an echo for each one in `back`: before the report for those before it. -/
theorem map_filter_hearings_echo {before after : List Occurrence} {o : Occurrence}
    (own back : Occurrence → Bool) (report echo : Event) (ho : own o = true)
    (hbefore : ∀ x ∈ before, own x = false) (hafter : ∀ x ∈ after, own x = false) :
    (((before ++ o :: after).flatMap fun x => (⟨x, report⟩ : Hearing) ::
        if back x then (before ++ o :: after).map fun x => ⟨x, echo⟩ else []).filter
          fun h => own h.occurrence).map Hearing.event =
      List.replicate (before.countP back) echo ++
        report :: List.replicate ((o :: after).countP back) echo := by
  -- the one in `own` hears one echo of those that all hear
  have hecho : (((before ++ o :: after).map fun x => (⟨x, echo⟩ : Hearing)).filter
      fun h => own h.occurrence).map Hearing.event = [echo] := by
    rw [List.filter_map, List.map_map]
    simp [Function.comp_def, List.filter_append, ho,
      List.filter_eq_nil_iff.2 fun x hx => Bool.eq_false_iff.1 (hbefore x hx),
      List.filter_eq_nil_iff.2 fun x hx => Bool.eq_false_iff.1 (hafter x hx)]
  have hothers : ∀ xs : List Occurrence, (∀ x ∈ xs, own x = false) →
      (xs.flatMap fun x => (if own x then [report] else []) ++ if back x then [echo] else []) =
        List.replicate (xs.countP back) echo := fun xs hxs => by
    rw [← List.flatten_replicate_singleton, ← flatMap_ite_eq_flatten]
    refine List.flatMap_congr fun x hx => ?_
    simp [hxs x hx]
  calc
    _ = (before ++ o :: after).flatMap fun x =>
          (if own x then [report] else []) ++ if back x then [echo] else [] := by
      rw [List.filter_flatMap, List.map_flatMap]
      refine List.flatMap_congr fun x _ => ?_
      cases hback : back x with
      | false => cases hx : own x <;> simp [hx]
      | true =>
        simp only [↓reduceIte, List.filter_cons]
        cases own x <;> simp only [Bool.false_eq_true, ↓reduceIte, List.map_cons, hecho,
          List.nil_append, List.singleton_append]
    _ = _ := by
      rw [List.flatMap_append, List.flatMap_cons, hothers before hbefore, hothers after hafter,
        List.countP_cons]
      cases hback : back o <;> simp [ho, List.replicate_succ]

namespace Recognizer

variable {r : Recognizer} {event : Event} {l : Listener} {s : Store} {report : Report}
  {policy : Policy} {leaves : List Leaf} {e : SyntaxError}

/-- No call of a leaf fails when the recognizer sends an event. -/
def Quiet (r : Recognizer) (event : Event) (l : Listener) (s : Store) : Prop :=
  ∀ leaf origin heard result,
    ⟨.leaf leaf origin heard, result⟩ ∈ r.attempts event l s → result = .ok ()

/-- If no call of a leaf fails then no notification does. -/
theorem quiet_iff : r.Quiet event l s ↔ (r.deliver event l s).result = .ok () := by
  constructor
  · intro h
    refine (result_deliver_eq_ok_iff l s).2 fun t ht leaf hl => ?_
    refine h leaf r.toOrigin event _ (List.mem_flatMap.2 ⟨t, ht, ?_⟩)
    simp only [Turn.fold, hl, List.mem_cons, true_or]
  · intro h leaf origin heard result hmem
    have haccounted := accounted_deliver (fun leaf t => r.accounted_leaf event leaf t) l s
    exact haccounted.ok_iff.1 h _ hmem

theorem map_delivered_eq (r : Recognizer) (event : Event) (l : Listener) (s : Store) (id : Nat) :
    ((r.deliver event l s).journal.filterMap (Entry.delivered? id)).map Recorded.ofEvent =
      (r.hearings event l s).filterMap (Hearing.recorded? id) := by
  have hentry : (fun entry : Entry => (entry.delivered? id).map Recorded.ofEvent) =
      fun entry => entry.hearing?.bind fun (leaf, _, heard) =>
        if leaf.collects id then some (.ofEvent heard) else none := by
    funext entry
    cases entry with
    | called leaf origin heard =>
      cases leaf with
      | collector id' => by_cases h : id' = id <;> simp [Entry.delivered?, Leaf.collects, h]
      | _ => rfl
    | _ => rfl
  rw [List.map_filterMap, hentry, ← List.filterMap_filterMap, filterMap_hearing?_deliver,
    List.filterMap_map]
  rfl

theorem map_filter_hearings_eq {before after : List Leaf} {leaf : Leaf}
    (hto : r.forward? (report.message r.toOrigin) = some (.fanOut policy (leaves.map .leaf), e))
    (hok : (r.deliver (.report report) (.fanOut policy (leaves.map .leaf)) s).result = .ok ())
    (hleaves : leaves = before ++ leaf :: after) :
    ((r.hearings (.report report) (.fanOut policy (leaves.map .leaf)) s).filter
        fun h => h.occurrence.place = [before.length]).map Hearing.event =
      List.replicate (before.countP (Leaf.handsBack report)) (.syntaxError e) ++
        .report report ::
          List.replicate ((leaf :: after).countP (Leaf.handsBack report)) (.syntaxError e) := by
  subst hleaves
  obtain ⟨os, os', hsplit, hos, hos'⟩ := Listener.exists_occurrences_eq policy before leaf after
  -- the places are in order, so no other leaf stands at this one
  have hordered :=
    (Listener.fanOut policy ((before ++ leaf :: after).map .leaf)).pairwise_occurrences
  rw [hsplit, List.pairwise_append, List.pairwise_cons] at hordered
  obtain ⟨-, ⟨hafter, -⟩, hbefore⟩ := hordered
  have hechoes := map_filter_hearings_echo (o := ⟨[before.length], leaf⟩)
    (fun o => o.place = [before.length]) (fun o => o.leaf.handsBack report)
    (.report report) (.syntaxError e) (by simp)
    (fun o ho => decide_eq_false fun h => List.lt_irrefl _ (h ▸ hbefore o ho _ List.mem_cons_self))
    (fun o ho => decide_eq_false fun h => List.lt_irrefl _ (h ▸ hafter o ho))
  rw [hearings_echo hto hok, hsplit, hechoes, ← hos, ← hos', List.countP_cons, List.countP_cons,
    List.countP_map, List.countP_map]
  rfl

/-- **Messages come back to the fan-out they come from.**  A report is sent to a fan-out over
leaves, and the recognizer forwards messages to this fan-out, as syntax errors.  If no call of a
leaf fails, the report does not.  After a trace record, the delegates have their turns in order.  A
diagnostic listener that does not leave the report out has its message forwarded, and all delegates
take the syntax error; other delegates deal with the report.  So at each position the report is
heard once, and one echo of it for each diagnostic listener that hands it back: those of earlier
positions before the report, the others after it.  Collecting listeners keep what they hear. -/
theorem deliver_echo {line column : UInt32} {token : Option Token}
    (hreply : r.reply = .forward (.fanOut policy (leaves.map .leaf)) line column token)
    (report : Report) (s : Store)
    (hquiet : r.Quiet (.report report) (.fanOut policy (leaves.map .leaf)) s) :
    let tree := Listener.fanOut policy (leaves.map .leaf)
    let echo : SyntaxError :=
      { token := token, line := line, column := column, message := report.message r.toOrigin }
    let run := r.deliver (.report report) tree s
    let heard := r.hearings (.report report) tree s
    run.result = .ok () ∧
      run.journal = .traced ((Event.report report).forwardingTrace leaves.length) ::
        leaves.flatMap (r.echoEntries report echo leaves) ∧
      run.journal.filterMap Entry.hearing? =
        heard.map (fun h => (h.occurrence.leaf, r.toOrigin, h.event)) ∧
      (∀ before leaf after, leaves = before ++ leaf :: after →
        (heard.filter fun h => h.occurrence.place = [before.length]).map Hearing.event =
          List.replicate (before.countP (Leaf.handsBack report)) (.syntaxError echo) ++
            .report report ::
              List.replicate ((leaf :: after).countP (Leaf.handsBack report)) (.syntaxError echo)) ∧
      ∀ id, (run.store.get id).recorded =
        (s.get id).recorded ++ heard.filterMap (Hearing.recorded? id) := by
  intro tree echo run heard
  have hok : run.result = .ok () := quiet_iff.1 hquiet
  have hto : r.forward? (report.message r.toOrigin) = some (tree, echo) := by
    simp only [forward?, hreply, tree, echo]
  exact ⟨hok, journal_deliver_echo hto hok, filterMap_hearing?_deliver ..,
    fun before leaf after => map_filter_hearings_eq hto hok,
    fun id => by rw [recorded_deliver, map_delivered_eq]⟩

/-- Two collecting listeners, each followed by a diagnostic one. -/
def quartet : List Leaf := [.collector 0, .diagnostic ⟨false⟩, .collector 1, .diagnostic ⟨false⟩]

/-- A recognizer that forwards messages to a fan-out over the four. -/
def answering : Recognizer where
  toOrigin := .ofTexts 0 "Expr.g4" ["expr"] ["a", "b"] " "
  reply := .forward (.fanOut .failFast (quartet.map .leaf)) 1 0 none

/-- A second look at both tokens. -/
def lookingAgain : Report where
  decision := ⟨3, 0⟩
  start := 0
  stop := 1
  configurations := .empty true
  finding := .fullContext (.ofList [1, 2])

theorem quiet_answering (s : Store) :
    answering.Quiet (.report lookingAgain) (.fanOut .failFast (quartet.map .leaf)) s := by
  have hreliable : ∀ leaf ∈ (Listener.fanOut .failFast (quartet.map .leaf)).leaves,
      leaf.isReliable = true := by
    rw [Listener.leaves_fanOut_leaves]
    simp [quartet, Leaf.isReliable]
  refine quiet_iff.2 (result_deliver_of_leaves_ok (fun leaf hleaf t => ?_) s)
  cases hm : leaf.message? answering.toOrigin (.report lookingAgain) with
  | none =>
    rw [deliver_leaf_of_none hm]
    exact Leaf.result_take_of_isReliable (hreliable leaf hleaf)
  | some m =>
    rw [result_deliver_leaf_of_some hm]
    exact result_notify_of_isReliable rfl hreliable t

/-- The collecting listener at position 2 hears the report between the two echoes. -/
theorem deliver_echo_answering :
    answering.Quiet (.report lookingAgain) (.fanOut .failFast (quartet.map .leaf)) .empty ∧
      ((answering.hearings (.report lookingAgain) (.fanOut .failFast (quartet.map .leaf))
          .empty).filter fun h => h.occurrence.place = [2]).map Hearing.event =
        [.syntaxError ⟨none, 1, 0, lookingAgain.message answering.toOrigin, none⟩,
          .report lookingAgain,
          .syntaxError ⟨none, 1, 0, lookingAgain.message answering.toOrigin, none⟩] := by
  obtain ⟨-, -, -, hheard, -⟩ :=
    deliver_echo (r := answering) rfl lookingAgain .empty (quiet_answering .empty)
  exact ⟨quiet_answering .empty, hheard [.collector 0, .diagnostic ⟨false⟩] (.collector 1)
    [.diagnostic ⟨false⟩] rfl⟩

end Recognizer

end ParseListeners
