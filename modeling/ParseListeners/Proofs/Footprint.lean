import Mathlib.Data.List.Basic
import ParseListeners.Session
import ParseListeners.Proofs.Calls
import ParseListeners.Proofs.Trees

/-!
# Footprints

The footprint of a dispatch lists the listeners whose memories it can touch: those below the
listener that the event is sent to and, if a diagnostic listener is there to hear a report, those
below the listener that messages are forwarded to (`Recognizer.footprint`).

An action is confined to some listeners if it leaves the memories of all others alone, and does the
same whatever these are (`Confined`).  The parts of a dispatch are confined to its footprint, and so
is the dispatch (`Recognizer.confined_deliver`).  Two actions that are confined to different
listeners commute (`Confined.commute`), and with them two steps of a session
(`Session.perform_confined`).
-/

namespace ParseListeners

/-! ### Confined actions -/

/-- The listeners `ids` remember the same in both stores. -/
def Store.AgreeOn (ids : List Nat) (s t : Store) : Prop := ∀ id ∈ ids, s.get id = t.get id

/-- Something that touches the memories of the listeners `ids` only. -/
structure Confined {α : Type} (ids : List Nat) (act : Store → Run α) : Prop where
  /-- All others remember what they did before. -/
  get_eq : ∀ s, ∀ id ∉ ids, (act s).store.get id = s.get id
  /-- What comes out hangs on the memories of these listeners alone. -/
  result_eq : ∀ {s t : Store}, s.AgreeOn ids t → (act s).result = (act t).result
  /-- What happens hangs on them alone. -/
  journal_eq : ∀ {s t : Store}, s.AgreeOn ids t → (act s).journal = (act t).journal
  /-- What they remember afterwards hangs on them alone. -/
  agreeOn : ∀ {s t : Store}, s.AgreeOn ids t → (act s).store.AgreeOn ids (act t).store

namespace Confined

variable {α β : Type} {ids ids' : List Nat} {a b : Action}

/-! ### Single actions -/

theorem of_const (result : α) (journal : List Entry) : Confined ids fun s => ⟨result, journal, s⟩ :=
  ⟨fun _ _ _ => rfl, fun _ => rfl, fun _ => rfl, fun h => h⟩

theorem done : Confined ids Action.done := of_const _ _

theorem note (e : Entry) : Confined ids (Action.note e) := of_const _ _

theorem fail (f : Failure) : Confined ids (Action.fail f) := of_const _ _

theorem failOn (e? : Option IoError) : Confined ids (Action.failOn e?) := by
  cases e? with
  | none => exact done
  | some e => exact fail _

theorem remember {id : Nat} (hid : id ∈ ids) (update : Memory → Memory) :
    Confined ids (Action.remember id update) where
  get_eq s other hother := by
    have hne : other ≠ id := fun h => hother (h ▸ hid)
    simp [Action.remember, Store.get_set, hne]
  result_eq _ := rfl
  journal_eq _ := rfl
  agreeOn h other hother := by
    simp only [Action.remember, Store.get_set, h id hid, h other hother]

theorem recalling {id : Nat} (hid : id ∈ ids) {act : Memory → Action}
    (h : ∀ m, Confined ids (act m)) : Confined ids (Action.recalling id act) where
  get_eq s := (h (s.get id)).get_eq s
  result_eq {s t} hst := by
    simp only [Action.recalling, hst id hid]
    exact (h _).result_eq hst
  journal_eq {s t} hst := by
    simp only [Action.recalling, hst id hid]
    exact (h _).journal_eq hst
  agreeOn {s t} hst := by
    simp only [Action.recalling, hst id hid]
    exact (h _).agreeOn hst

theorem map {act : Store → Run α} (h : Confined ids act) (f : α → β) :
    Confined ids fun s => { act s with result := f (act s).result } :=
  ⟨h.get_eq, fun hst => congrArg f (h.result_eq hst), h.journal_eq, h.agreeOn⟩

/-! ### Several actions -/

theorem andThen (ha : Confined ids a) (hb : Confined ids b) : Confined ids (a.andThen b) where
  get_eq s id hid := by
    simp only [Action.andThen]
    cases (a s).result with
    | error f => exact ha.get_eq s id hid
    | ok u => exact (hb.get_eq _ id hid).trans (ha.get_eq s id hid)
  result_eq {s t} hst := by
    simp only [Action.andThen, ha.result_eq hst]
    cases hr : (a t).result with
    | error f => exact (ha.result_eq hst)
    | ok u => exact hb.result_eq (ha.agreeOn hst)
  journal_eq {s t} hst := by
    simp only [Action.andThen, ha.result_eq hst]
    cases (a t).result with
    | error f => exact ha.journal_eq hst
    | ok u => simp only [ha.journal_eq hst, hb.journal_eq (ha.agreeOn hst)]
  agreeOn {s t} hst := by
    simp only [Action.andThen, ha.result_eq hst]
    cases (a t).result with
    | error f => exact ha.agreeOn hst
    | ok u => exact hb.agreeOn (ha.agreeOn hst)

theorem inOrder {as : List Action} (h : ∀ a ∈ as, Confined ids a) :
    Confined ids (Action.inOrder as) := by
  induction as with
  | nil => exact done
  | cons a as ih =>
    obtain ⟨ha, has⟩ := List.forall_mem_cons.1 h
    exact andThen ha (ih has)

theorem everyOne {as : List Action} (h : ∀ a ∈ as, Confined ids a) :
    Confined ids (Action.everyOne as) := by
  induction as with
  | nil => exact of_const _ _
  | cons a as ih =>
    obtain ⟨ha, has⟩ := (List.forall_mem_cons.1 h).imp_right ih
    refine ⟨fun s id hid => ?_, fun hst => ?_, fun hst => ?_, fun hst => ?_⟩
    · exact (has.get_eq _ id hid).trans (ha.get_eq s id hid)
    · simp only [Action.everyOne, ha.result_eq hst, has.result_eq (ha.agreeOn hst)]
    · simp only [Action.everyOne, ha.journal_eq hst, has.journal_eq (ha.agreeOn hst)]
    · exact has.agreeOn (ha.agreeOn hst)

theorem combine (policy : Policy) {as : List Action} (h : ∀ a ∈ as, Confined ids a) :
    Confined ids (policy.combine as) := by
  cases policy with
  | failFast => exact inOrder h
  | collectAll => exact (everyOne h).map Failure.gather

/-! ### Two actions that touch different listeners -/

variable {act : Store → Run α} {act' : Store → Run β}

/-- An action that touches other listeners may come first. -/
theorem agreeOn_of_disjoint (h : Confined ids act) (hd : ids.Disjoint ids') (s : Store) :
    (act s).store.AgreeOn ids' s :=
  fun id hid => h.get_eq s id fun hid' => hd hid' hid

/-- **Actions that touch different listeners commute.** -/
theorem commute (h : Confined ids act) (h' : Confined ids' act') (hd : ids.Disjoint ids')
    (s : Store) : (act' (act s).store).store = (act (act' s).store).store := by
  have hs := h.agreeOn_of_disjoint hd s
  have hs' := h'.agreeOn_of_disjoint (List.disjoint_symm hd) s
  ext1 id
  by_cases hid : id ∈ ids
  · calc (act' (act s).store).store.get id
        = (act s).store.get id := h'.get_eq _ id fun hid' => hd hid hid'
      _ = (act (act' s).store).store.get id := (h.agreeOn hs' id hid).symm
  · rw [h.get_eq _ id hid]
    by_cases hid' : id ∈ ids'
    · exact h'.agreeOn hs id hid'
    · rw [h'.get_eq _ id hid', h.get_eq _ id hid, h'.get_eq _ id hid']

end Confined

/-! ### Leaves -/

namespace Leaf

/-- The leaf turns reports into messages. -/
def isDiagnostic : Leaf → Bool
  | .diagnostic _ => true
  | _ => false

variable {ids : List Nat}

theorem confined_writeLine {id : Nat} (hid : id ∈ ids) (sink : Sink) (line : String) :
    Confined ids (writeLine id sink line) := by
  refine .recalling hid fun memory => ?_
  refine .andThen (.remember hid _) (.andThen (.note _) ?_)
  cases sink.writeError? memory.written.length (utf8 line) with
  | some e => exact .fail _
  | none => exact .andThen (.note _) (.failOn _)

theorem confined_respond {id : Nat} (hid : id ∈ ids) (h : Host) (delivery : Delivery) :
    Confined ids (respond id h delivery) := by
  refine .recalling hid fun memory => .andThen (.remember hid _) ?_
  cases h.respond memory.heard delivery with
  | ok u => exact .done
  | error f => exact .fail f

theorem confined_take {leaf : Leaf} (hid : ∀ id, leaf.id? = some id → id ∈ ids)
    (origin : Origin) (event : Event) : Confined ids (leaf.take origin event) := by
  cases leaf with
  | null => exact .done
  | tracing => exact .note _
  | standardError =>
    cases event with
    | syntaxError e => exact .note _
    | report report => exact .done
  | diagnostic d => exact .done
  | collector id =>
    exact .remember (hid id rfl) fun m => { m with recorded := m.recorded ++ [.ofEvent event] }
  | console id sink =>
    cases event with
    | syntaxError e => exact confined_writeLine (hid id rfl) sink _
    | report report => exact .done
  | host id h =>
    cases hh : h.handles event.kind with
    | true => simpa [take, hh] using confined_respond (hid id rfl) h ⟨origin, event⟩
    | false => simpa [take, hh] using Confined.done

end Leaf

/-! ### Dispatches -/

namespace Recognizer

/-- The leaves of the listener that messages are forwarded to, if there is one. -/
def replyLeaves (r : Recognizer) : List Leaf :=
  match r.reply with
  | .accept => []
  | .refuse _ => []
  | .forward target .. => target.leaves

/-- The leaves that an event can reach: those of the listener that it is sent to and, if a
diagnostic listener is among them and the event is a report, those of the listener that messages
are forwarded to. -/
def reach (r : Recognizer) (event : Event) (l : Listener) : List Leaf :=
  l.leaves ++
    match event with
    | .syntaxError _ => []
    | .report _ => if l.leaves.any Leaf.isDiagnostic then r.replyLeaves else []

/-- The numbers of the listeners with a memory that an event can reach. -/
def footprint (r : Recognizer) (event : Event) (l : Listener) : List Nat :=
  (r.reach event l).filterMap Leaf.id?

variable {r : Recognizer} {event : Event} {l : Listener} {ids : List Nat}

/-- A dispatch to a tree is confined if that to each of its leaves is. -/
theorem confined_deliver_of_leaves
    (h : ∀ leaf ∈ l.leaves, Confined ids (r.deliver event (.leaf leaf))) :
    Confined ids (r.deliver event l) := by
  induction l with
  | leaf leaf => exact h leaf (by simp)
  | fanOut policy ds ih =>
    rw [deliver_fanOut]
    refine .andThen (.note _) (.combine policy fun a ha => ?_)
    obtain ⟨d, hd, rfl⟩ := List.mem_map.1 ha
    exact ih d hd fun leaf hleaf => h leaf (Listener.mem_leaves_fanOut hd hleaf)

theorem confined_deliver_leaf {leaf : Leaf} (hid : ∀ id, leaf.id? = some id → id ∈ ids)
    (hnotify : ∀ m, leaf.message? r.toOrigin event = some m → Confined ids (r.notify m)) :
    Confined ids (r.deliver event (.leaf leaf)) := by
  rw [deliver_leaf]
  refine .andThen (.note _) ?_
  cases hm : leaf.message? r.toOrigin event with
  | none => exact leaf.confined_take hid r.toOrigin event
  | some m => exact hnotify m hm

theorem confined_deliver_syntaxError (e : SyntaxError)
    (h : ∀ leaf ∈ l.leaves, ∀ id, leaf.id? = some id → id ∈ ids) :
    Confined ids (r.deliver (.syntaxError e) l) :=
  confined_deliver_of_leaves fun leaf hleaf => confined_deliver_leaf (h leaf hleaf) (by simp)

theorem confined_notify (h : ∀ leaf ∈ r.replyLeaves, ∀ id, leaf.id? = some id → id ∈ ids)
    (m : String) : Confined ids (r.notify m) := by
  refine .andThen (.note _) ?_
  unfold answer
  unfold replyLeaves at h
  cases hr : r.reply with
  | accept => exact .done
  | refuse cause => exact .fail _
  | forward target line column token =>
    rw [hr] at h
    exact (confined_deliver_syntaxError (r := r) _ h).map _

/-- **A dispatch touches its footprint only.** -/
theorem confined_deliver (r : Recognizer) (event : Event) (l : Listener) :
    Confined (r.footprint event l) (r.deliver event l) := by
  have hreach : ∀ leaf ∈ r.reach event l, ∀ id, leaf.id? = some id → id ∈ r.footprint event l :=
    fun leaf hleaf id hid => List.mem_filterMap.2 ⟨leaf, hleaf, hid⟩
  refine confined_deliver_of_leaves fun leaf hleaf => ?_
  refine confined_deliver_leaf (hreach leaf (List.mem_append_left _ hleaf)) fun m hm => ?_
  refine confined_notify (fun replied hreplied => hreach replied (List.mem_append_right _ ?_)) m
  obtain ⟨d, report, rfl, rfl, -, -⟩ := Leaf.message?_eq_some_iff.1 hm
  have hany : l.leaves.any Leaf.isDiagnostic = true := List.any_eq_true.2 ⟨_, hleaf, rfl⟩
  simpa only [hany, ↓reduceIte] using hreplied

end Recognizer

/-! ### Sessions -/

namespace Session

/-- Two steps have the same courses in either order, and leave the same memories. -/
def Swappable (s : Session) (step step' : Step) (store : Store) : Prop :=
  ∃ first second first' second' : Run Answer,
    s.run [step, step'] store = [.ok first, .ok second] ∧
    s.run [step', step] store = [.ok second', .ok first'] ∧
    (first.result = first'.result ∧ first.journal = first'.journal) ∧
    (second.result = second'.result ∧ second.journal = second'.journal) ∧
    second.store = first'.store

variable {session : Session} {step step' : Step} {act act' : Store → Run Answer}
  {ids ids' : List Nat}

theorem run_pair (h : ∀ store, session.perform store step = .ok (act store))
    (h' : ∀ store, session.perform store step' = .ok (act' store)) (store : Store) :
    session.run [step, step'] store = [.ok (act store), .ok (act' (act store).store)] := by
  simp only [run, h, h']

theorem swappable_of_disjoint (h : ∀ store, session.perform store step = .ok (act store))
    (h' : ∀ store, session.perform store step' = .ok (act' store)) (hact : Confined ids act)
    (hact' : Confined ids' act') (hd : ids.Disjoint ids') (store : Store) :
    session.Swappable step step' store := by
  have hfirst : store.AgreeOn ids (act' store).store := fun id hid =>
    (hact'.agreeOn_of_disjoint (List.disjoint_symm hd) store id hid).symm
  have hsecond : (act store).store.AgreeOn ids' store := hact.agreeOn_of_disjoint hd store
  exact ⟨_, _, _, _, run_pair h h' store, run_pair h' h store,
    ⟨hact.result_eq hfirst, hact.journal_eq hfirst⟩,
    ⟨hact'.result_eq hsecond, hact'.journal_eq hsecond⟩, hact.commute hact' hd store⟩

variable {position sender position' sender' : Nat} {l l' : Listener} {r r' : Recognizer}

/-- **An operation touches its footprint only, and operations with disjoint footprints commute.**
Sending an event leaves the memories of all listeners outside its footprint alone, and what comes of
it hangs on the memories inside it alone.  If the footprints of two events have no listener in
common, the events may be sent in either order: each has the same result and the same journal, and
afterwards all listeners remember the same. -/
theorem perform_confined (hl : session.registry.lookup position = .ok l)
    (hr : session.recognizer sender = .ok r)
    (hl' : session.registry.lookup position' = .ok l') (hr' : session.recognizer sender' = .ok r')
    (event event' : Event) :
    let step := Step.deliver position sender event
    let step' := Step.deliver position' sender' event'
    (∃ act : Store → Run Answer, (∀ store, session.perform store step = .ok (act store)) ∧
      Confined (r.footprint event l) act) ∧
    ((r.footprint event l).Disjoint (r'.footprint event' l') →
      ∀ store, session.Swappable step step' store) := by
  intro step step'
  have hact := (r.confined_deliver event l).map Answer.delivered
  have hact' := (r'.confined_deliver event' l').map Answer.delivered
  refine ⟨⟨_, fun store => perform_deliver hl hr store event, hact⟩, fun hd store => ?_⟩
  exact swappable_of_disjoint (fun store => perform_deliver hl hr store event)
    (fun store => perform_deliver hl' hr' store event') hact hact' hd store

/-- A fan-out over a diagnostic listener and a collecting listener, a listener of the host program,
and a recognizer that forwards messages to a console. -/
def neighbours : Session :=
  let tree : Listener := .fanOut .failFast [.leaf (.diagnostic ⟨false⟩), .leaf (.collector 1)]
  let strict : Listener := .leaf (.host 3 (.failing "strict" [.syntaxError] none 1))
  let console : Listener := .leaf (.console 4 { capacity := some 30 })
  let origin : Origin := .ofTexts 0 "Expr.g4" ["expr"] ["a", "b"] " "
  ⟨⟨[.ok tree, .ok strict, .ok console]⟩,
    [{ toOrigin := origin, reply := .forward console 1 0 none }]⟩

/-- A report to the fan-out reaches the collecting listener and the console, a syntax error to the
listener of the host program only that one. -/
theorem perform_confined_neighbours :
    ∃ l r l', neighbours.registry.lookup 0 = .ok l ∧ neighbours.recognizer 0 = .ok r ∧
      neighbours.registry.lookup 1 = .ok l' ∧ ∀ (report : Report) (e : SyntaxError),
        r.footprint (.report report) l = [1, 4] ∧ r.footprint (.syntaxError e) l' = [3] ∧
        (∃ act : Store → Run Answer,
          (∀ store, neighbours.perform store (.deliver 0 0 (.report report)) = .ok (act store)) ∧
            Confined [1, 4] act) ∧
        ∀ store, neighbours.Swappable (.deliver 0 0 (.report report))
          (.deliver 1 0 (.syntaxError e)) store := by
  refine ⟨_, _, _, rfl, rfl, rfl, fun report e => ?_⟩
  obtain ⟨hconfined, hswap⟩ := @perform_confined neighbours 0 0 1 0 _ _ _ _ rfl rfl rfl rfl
    (.report report) (.syntaxError e)
  have hd : List.Disjoint [1, 4] [3] := by simp
  exact ⟨rfl, rfl, hconfined, hswap hd⟩

end Session

end ParseListeners
