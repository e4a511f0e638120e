import Mathlib.Data.List.TakeDrop
import ParseListeners.Proofs.Calls
import ParseListeners.Proofs.Courses
import ParseListeners.Proofs.Sequencing

/-!
# Writing to a sink

A sink is written to in pieces, and it may take each piece bit by bit.  `Sink.Write` is a single
write, `Sink.WriteAll` writes a piece again and again until all of it is taken or the sink fails,
`Sink.WriteEach` does so with several pieces.  However the bytes are cut, the sink takes the same of
them and fails in the same way (`Sink.writeEach_iff`), so a console can be said to write a whole
line at once.

A console that is sent events one after the other has written as much of their lines as its sink
has room for (`Listener.courses_console`).
-/

namespace ParseListeners

namespace Sink

/-! ### Bytes after bytes -/

/-- The sink has room for `bytes` if it has taken nothing before. -/
def hasRoom (s : Sink) (bytes : List UInt8) : Bool :=
  match s.capacity with
  | some capacity => bytes.length ≤ capacity
  | none => true

variable {s : Sink} {used : Nat} {bytes : List UInt8}

@[simp] theorem accepts_nil (s : Sink) {used : Nat} : s.accepts used [] = [] := by
  unfold accepts
  cases s.capacity <;> simp

@[simp] theorem writeError?_nil (s : Sink) {used : Nat} : s.writeError? used [] = none := by
  simp [writeError?]

theorem accepts_append (s : Sink) (used : Nat) (bytes more : List UInt8) :
    s.accepts used (bytes ++ more) =
      s.accepts used bytes ++ s.accepts (used + (s.accepts used bytes).length) more := by
  unfold accepts
  cases s.capacity with
  | none => rfl
  | some capacity =>
    simp only [List.take_append, List.length_take]
    congr 2
    omega

theorem writeError?_append (s : Sink) (used : Nat) (bytes more : List UInt8) :
    s.writeError? used (bytes ++ more) =
      (s.writeError? used bytes).or
        (s.writeError? (used + (s.accepts used bytes).length) more) := by
  have hbytes := (s.accepts_isPrefix used bytes).length_le
  have hmore := (s.accepts_isPrefix (used + (s.accepts used bytes).length) more).length_le
  simp only [writeError?, accepts_append, List.length_append]
  by_cases h : (s.accepts used bytes).length < bytes.length
  · rw [if_pos h, if_pos (by omega)]
    rfl
  · rw [if_neg h, Option.none_or]
    congr 1
    exact propext (by omega)

theorem writeError?_of_full (hne : bytes ≠ []) (hfull : s.accepts used bytes = []) :
    s.writeError? used bytes = some s.overflow := by
  have hpos := List.length_pos_iff.2 hne
  simp [writeError?, hfull, hpos]

theorem accepts_eq_nil_iff (hne : bytes ≠ []) :
    s.accepts used bytes = [] ↔ ∃ capacity, s.capacity = some capacity ∧ capacity ≤ used := by
  unfold accepts
  cases s.capacity with
  | none => simp [hne]
  | some capacity => simp [hne, Nat.sub_eq_zero_iff_le]

theorem accepts_of_room
    (h : ∀ capacity, s.capacity = some capacity → used + bytes.length ≤ capacity) :
    s.accepts used bytes = bytes := by
  unfold accepts
  cases hc : s.capacity with
  | none => rfl
  | some capacity =>
    have hroom := h capacity hc
    exact List.take_of_length_le (by omega)

theorem accepts_of_error {e : IoError} (h : s.writeError? used bytes = some e)
    (more : List UInt8) : s.accepts (used + (s.accepts used bytes).length) more = [] := by
  have hlt : (s.accepts used bytes).length < bytes.length := by
    by_contra hge
    simp [writeError?, hge] at h
  unfold accepts at hlt ⊢
  cases hc : s.capacity with
  | none => simp [hc] at hlt
  | some capacity =>
    simp only [hc, List.length_take] at hlt ⊢
    rw [List.take_eq_nil_iff]
    omega

/-- What a sink takes of some bytes is their first part.  Of the rest it takes nothing, and that is
an error if there is any. -/
theorem rest_of_accepts (s : Sink) (used : Nat) (bytes : List UInt8) :
    let n := (s.accepts used bytes).length
    bytes.take n = s.accepts used bytes ∧ s.accepts (used + n) (bytes.drop n) = [] ∧
      s.writeError? (used + n) (bytes.drop n) = s.writeError? used bytes := by
  intro n
  have hfirst : bytes.take n = s.accepts used bytes :=
    (List.prefix_iff_eq_take.1 (s.accepts_isPrefix used bytes)).symm
  have hagain : s.accepts used (bytes.take n) = bytes.take n := by
    rw [hfirst]
    unfold accepts
    cases s.capacity with
    | none => rfl
    | some capacity => exact List.take_take.trans (by rw [Nat.min_self])
  have hsplit := s.accepts_append used (bytes.take n) (bytes.drop n)
  have herror := s.writeError?_append used (bytes.take n) (bytes.drop n)
  rw [List.take_append_drop, hagain, hfirst] at hsplit herror
  refine ⟨hfirst, by simpa using hsplit, ?_⟩
  rw [hfirst] at hagain
  rw [herror, writeError?_eq_none_iff.2 hagain, Option.none_or]

/-! ### Single writes -/

/-- A write of some bytes after `used` bytes: how many of them the sink takes, or its error. -/
inductive Write (s : Sink) (used : Nat) (bytes : List UInt8) : Except IoError Nat → Prop
  /-- The sink takes the first `n` bytes, as far as there is room for them. -/
  | part {n : Nat} (hpos : 0 < n) (hlen : n ≤ bytes.length)
      (hroom : ∀ capacity, s.capacity = some capacity → used + n ≤ capacity) :
      Write s used bytes (.ok n)
  /-- The sink is full, and says so. -/
  | failed {capacity : Nat} {e : IoError} (hne : bytes ≠ []) (hlimit : s.capacity = some capacity)
      (hfull : capacity ≤ used) (he : s.fullError = some e) : Write s used bytes (.error e)
  /-- The sink is full, and takes no bytes. -/
  | nothing {capacity : Nat} (hne : bytes ≠ []) (hlimit : s.capacity = some capacity)
      (hfull : capacity ≤ used) (he : s.fullError = none) : Write s used bytes (.ok 0)

/-- Writes until all bytes are taken: the bytes that the sink takes, and the error, if any. -/
inductive WriteAll (s : Sink) : Nat → List UInt8 → List UInt8 → Option IoError → Prop
  /-- No bytes are left to write. -/
  | done (used : Nat) : WriteAll s used [] [] none
  /-- The sink takes some bytes; the rest is written next. -/
  | more {used n : Nat} {bytes taken : List UInt8} {e? : Option IoError} (hpos : 0 < n)
      (h : s.Write used bytes (.ok n)) (rest : WriteAll s (used + n) (bytes.drop n) taken e?) :
      WriteAll s used bytes (bytes.take n ++ taken) e?
  /-- The sink takes no bytes, which counts as an error. -/
  | stuck {used : Nat} {bytes : List UInt8} (h : s.Write used bytes (.ok 0)) :
      WriteAll s used bytes [] (some .writeZero)
  /-- The sink fails. -/
  | failed {used : Nat} {bytes : List UInt8} {e : IoError} (h : s.Write used bytes (.error e)) :
      WriteAll s used bytes [] (some e)

/-- Writes of several pieces, up to the first error. -/
inductive WriteEach (s : Sink) : Nat → List (List UInt8) → List UInt8 → Option IoError → Prop
  /-- No pieces are left to write. -/
  | done (used : Nat) : WriteEach s used [] [] none
  /-- The sink takes a piece; the other ones are written next. -/
  | next {used : Nat} {piece taken more : List UInt8} {pieces : List (List UInt8)}
      {e? : Option IoError} (h : s.WriteAll used piece taken none)
      (rest : WriteEach s (used + taken.length) pieces more e?) :
      WriteEach s used (piece :: pieces) (taken ++ more) e?
  /-- A piece cannot be written. -/
  | stop {used : Nat} {piece taken : List UInt8} {pieces : List (List UInt8)} {e : IoError}
      (h : s.WriteAll used piece taken (some e)) : WriteEach s used (piece :: pieces) taken (some e)

variable {taken : List UInt8} {e? : Option IoError}

/-- However short the single writes are, the sink takes the same bytes and fails in the same way. -/
theorem WriteAll.eq (h : s.WriteAll used bytes taken e?) :
    taken = s.accepts used bytes ∧ e? = s.writeError? used bytes := by
  induction h with
  | done used => exact ⟨s.accepts_nil.symm, s.writeError?_nil.symm⟩
  | @more used n bytes taken e? hpos h rest ih =>
    cases h with
    | nothing => omega
    | part _ hlen hroom =>
      -- there is room for the first `n` bytes, so the others are all that matters
      have hfirst : s.accepts used (bytes.take n) = bytes.take n :=
        accepts_of_room fun capacity hc => by
          rw [List.length_take_of_le hlen]
          exact hroom capacity hc
      have htaken := s.accepts_append used (bytes.take n) (bytes.drop n)
      have herror := s.writeError?_append used (bytes.take n) (bytes.drop n)
      rw [List.take_append_drop, hfirst, List.length_take_of_le hlen] at htaken herror
      rw [writeError?_eq_none_iff.2 hfirst, Option.none_or] at herror
      exact ⟨by rw [htaken, ← ih.1], by rw [herror, ← ih.2]⟩
  | stuck h =>
    cases h with
    | part hpos => omega
    | nothing hne hlimit hfull he =>
      have hnil := (accepts_eq_nil_iff hne).2 ⟨_, hlimit, hfull⟩
      exact ⟨hnil.symm, by rw [writeError?_of_full hne hnil, overflow, he, Option.getD_none]⟩
  | failed h =>
    cases h with
    | failed hne hlimit hfull he =>
      have hnil := (accepts_eq_nil_iff hne).2 ⟨_, hlimit, hfull⟩
      exact ⟨hnil.symm, by rw [writeError?_of_full hne hnil, overflow, he, Option.getD_some]⟩

theorem writeAll_of_full (hfull : s.accepts used bytes = []) :
    s.WriteAll used bytes [] (s.writeError? used bytes) := by
  by_cases hne : bytes = []
  · subst hne
    rw [writeError?_nil]
    exact .done used
  · obtain ⟨capacity, hlimit, hle⟩ := (accepts_eq_nil_iff hne).1 hfull
    rw [writeError?_of_full hne hfull, overflow]
    cases he : s.fullError with
    | none => exact .stuck (.nothing hne hlimit hle he)
    | some e => exact .failed (.failed hne hlimit hle he)

theorem writeAll (s : Sink) (used : Nat) (bytes : List UInt8) :
    s.WriteAll used bytes (s.accepts used bytes) (s.writeError? used bytes) := by
  obtain ⟨hfirst, hrest, herror⟩ := s.rest_of_accepts used bytes
  by_cases hnil : s.accepts used bytes = []
  · rw [hnil]
    exact writeAll_of_full hnil
  · have hlen := (s.accepts_isPrefix used bytes).length_le
    have hpos := List.length_pos_iff.2 hnil
    have hwrite : s.Write used bytes (.ok (s.accepts used bytes).length) := by
      refine .part hpos hlen fun capacity hc => ?_
      have hlimited : s.accepts used bytes = bytes.take (capacity - used) := by
        simp only [accepts, hc]
      rw [hlimited, List.length_take] at hpos ⊢
      omega
    have hall := WriteAll.more hpos hwrite (writeAll_of_full hrest)
    rwa [hfirst, List.append_nil, herror] at hall

theorem writeAll_iff :
    s.WriteAll used bytes taken e? ↔
      taken = s.accepts used bytes ∧ e? = s.writeError? used bytes := by
  constructor
  · exact WriteAll.eq
  · rintro ⟨rfl, rfl⟩
    exact s.writeAll used bytes

/-- **However the bytes are cut into pieces**, and however short the single writes are, the sink
takes the same of them and fails in the same way. -/
theorem writeEach_iff {pieces : List (List UInt8)} :
    s.WriteEach used pieces taken e? ↔
      taken = s.accepts used pieces.flatten ∧ e? = s.writeError? used pieces.flatten := by
  induction pieces generalizing used taken e? with
  | nil =>
    rw [List.flatten_nil, accepts_nil, writeError?_nil]
    constructor
    · rintro ⟨⟩
      exact ⟨rfl, rfl⟩
    · rintro ⟨rfl, rfl⟩
      exact .done used
  | cons piece pieces ih =>
    rw [List.flatten_cons, accepts_append, writeError?_append]
    constructor
    · intro h
      cases h with
      | next hpiece hrest =>
        obtain ⟨rfl, herror⟩ := writeAll_iff.1 hpiece
        obtain ⟨rfl, rfl⟩ := ih.1 hrest
        rw [← herror, Option.none_or]
        exact ⟨rfl, rfl⟩
      | stop hpiece =>
        obtain ⟨rfl, herror⟩ := writeAll_iff.1 hpiece
        rw [accepts_of_error herror.symm, List.append_nil, ← herror]
        exact ⟨rfl, rfl⟩
    · rintro ⟨rfl, rfl⟩
      have hpiece : s.WriteAll used piece _ _ := writeAll_iff.2 ⟨rfl, rfl⟩
      cases herror : s.writeError? used piece with
      | none =>
        rw [herror] at hpiece
        exact .next hpiece (ih.2 ⟨rfl, rfl⟩)
      | some e =>
        rw [herror] at hpiece
        rw [accepts_of_error herror, List.append_nil]
        exact .stop hpiece

end Sink

/-! ### Lines after lines -/

/-- What a console writes of an event, if its sink takes it. -/
def Event.consoleBytes : Event → List UInt8
  | .syntaxError e => utf8 e.consoleLine
  | .report _ => []

/-- The lines of the syntax errors among some events, one after the other. -/
def consoleLines (sent : List (Recognizer × Event)) : List UInt8 :=
  sent.flatMap fun (_, event) => event.consoleBytes

theorem SyntaxError.utf8_consoleLine_ne_nil (e : SyntaxError) : utf8 e.consoleLine ≠ [] := by
  have hfeed : utf8 "\n" ≠ [] := by decide
  simp [consoleLine, hfeed]

/-- A sink takes a line after others exactly if it has room for all of them. -/
theorem Sink.writeError?_eq_none_iff_hasRoom {s : Sink} {earlier line : List UInt8}
    (hline : line ≠ []) :
    s.writeError? (s.accepts 0 earlier).length line = none ↔
      s.hasRoom (earlier ++ line) = true := by
  have hpos := List.length_pos_iff.2 hline
  rw [writeError?_eq_none_iff]
  unfold accepts hasRoom
  cases s.capacity with
  | none => simp
  | some capacity =>
    simp only [List.take_eq_self_iff, List.length_take, List.length_append, decide_eq_true_eq]
    omega

namespace Recognizer

variable {id : Nat} {sink : Sink} {r : Recognizer} {s : Store} {earlier : List UInt8}

theorem deliver_console_report (report : Report) :
    r.deliver (.report report) (.leaf (.console id sink)) s =
      ⟨.ok (), [.called (.console id sink) r.toOrigin (.report report)], s⟩ := rfl

theorem deliver_console_syntaxError (e : SyntaxError) :
    let used := (s.get id).written.length
    let taken := sink.accepts used (utf8 e.consoleLine)
    let run := r.deliver (.syntaxError e) (.leaf (.console id sink)) s
    run.journal = [.called (.console id sink) r.toOrigin (.syntaxError e), .wrote id taken] ++
        (match sink.writeError? used (utf8 e.consoleLine) with
          | some err => [.failed (.io err)]
          | none => .flushed id :: sink.flushError.toList.map fun err => .failed (.io err)) ∧
      run.failure? = ((sink.writeError? used (utf8 e.consoleLine)).or sink.flushError).map .io ∧
      (run.store.get id).written = (s.get id).written ++ taken := by
  intro used taken run
  have hrun : run = { Leaf.writeLine id sink e.consoleLine s with
      journal := .called (.console id sink) r.toOrigin (.syntaxError e) ::
        (Leaf.writeLine id sink e.consoleLine s).journal } :=
    deliver_leaf_of_none (Leaf.message?_syntaxError ..)
  rcases Leaf.writeLine_cases id sink e.consoleLine s with
    ⟨err, hw, hline⟩ | ⟨err, hw, hf, hline⟩ | ⟨hw, hf, hline⟩
  · rw [hline] at hrun
    simp only [hrun, used, hw]
    exact ⟨rfl, rfl, by simp [taken, used]⟩
  · rw [hline] at hrun
    simp only [hrun, used, hw, hf]
    exact ⟨rfl, rfl, by simp [taken, used]⟩
  · rw [hline] at hrun
    simp only [hrun, used, hw, hf]
    exact ⟨rfl, rfl, by simp [taken, used]⟩

theorem written_deliver_console (h : (s.get id).written = sink.accepts 0 earlier) (event : Event) :
    ((r.deliver event (.leaf (.console id sink)) s).store.get id).written =
      sink.accepts 0 (earlier ++ event.consoleBytes) := by
  cases event with
  | report report => rw [deliver_console_report, h, Event.consoleBytes, List.append_nil]
  | syntaxError e =>
    obtain ⟨-, -, hwritten⟩ := @deliver_console_syntaxError id sink r s e
    rw [hwritten, h, Event.consoleBytes, Sink.accepts_append, Nat.zero_add]

end Recognizer

namespace Listener

/-- **A console writes as much as its sink has room for.**  Events are sent to a console whose sink
has taken nothing yet.  After each of them the sink has taken the lines of all syntax errors so far,
or the first part of these lines that it has room for.  A report does nothing.  A syntax error
succeeds if and only if there is room for all lines up to its own and the sink can be flushed.  It
is written as if in one piece, however its line is cut; the sink is flushed once if the whole line
is taken, and not if the write fails; and what comes out is the error of the write, or else that of
the flush. -/
theorem courses_console (id : Nat) (sink : Sink) (sent : List (Recognizer × Event)) (s : Store)
    (hfresh : (s.get id).written = []) :
    let courses := (leaf (.console id sink)).courses sent s
    courses.length = sent.length ∧
      ∀ k r event run, sent[k]? = some (r, event) → courses[k]? = some run →
        let lines := consoleLines (sent.take (k + 1))
        let used := (sink.accepts 0 (consoleLines (sent.take k))).length
        (run.store.get id).written = sink.accepts 0 lines ∧
          (∀ report, event = .report report →
            run.result = .ok () ∧ run.journal = [.called (.console id sink) r.toOrigin event]) ∧
          ∀ e, event = .syntaxError e →
            (run.result = .ok () ↔ sink.hasRoom lines = true ∧ sink.flushError = none) ∧
            ∃ taken err?,
              (∀ pieces, pieces.flatten = utf8 e.consoleLine → ∀ bytes e?,
                sink.WriteEach used pieces bytes e? ↔ bytes = taken ∧ e? = err?) ∧
              (err? = none ↔ sink.hasRoom lines = true) ∧
              run.journal = [.called (.console id sink) r.toOrigin event, .wrote id taken] ++
                (match err? with
                  | some err => [.failed (.io err)]
                  | none =>
                    .flushed id :: sink.flushError.toList.map fun err => .failed (.io err)) ∧
              run.failure? = (err?.or sink.flushError).map .io := by
  intro courses
  refine ⟨length_courses, fun k r event run hk hrun => ?_⟩
  intro lines used
  -- all along, the sink has taken as much of the lines as there was room for
  obtain ⟨t, ht, rfl⟩ := exists_of_courses
    (P := fun earlier t => (t.get id).written = sink.accepts 0 (consoleLines earlier))
    (by rw [hfresh, consoleLines, List.flatMap_nil, Sink.accepts_nil])
    (fun earlier r event t _ ht => by
      rw [Recognizer.written_deliver_console ht, consoleLines, consoleLines, List.flatMap_append,
        List.flatMap_singleton])
    hk hrun
  have hlines : lines = consoleLines (sent.take k) ++ event.consoleBytes := by
    simp only [lines, consoleLines, List.take_add_one, hk, Option.toList_some,
      List.flatMap_append, List.flatMap_singleton]
  refine ⟨by rw [Recognizer.written_deliver_console ht, hlines], ?_, ?_⟩
  · rintro report rfl
    exact ⟨rfl, rfl⟩
  · rintro e rfl
    obtain ⟨hjournal, hfailure, -⟩ := @Recognizer.deliver_console_syntaxError id sink r t e
    have hused : (t.get id).written.length = used := congrArg List.length ht
    rw [hused] at hjournal hfailure
    have hroom : sink.writeError? used (utf8 e.consoleLine) = none ↔ sink.hasRoom lines = true := by
      rw [hlines]
      exact Sink.writeError?_eq_none_iff_hasRoom e.utf8_consoleLine_ne_nil
    refine ⟨?_, _, _, fun pieces hpieces bytes e? => ?_, hroom, hjournal, hfailure⟩
    · rw [← hroom, ← Run.failure?_eq_none_iff, hfailure]
      simp
    · rw [Sink.writeEach_iff, hpieces]

/-- Two syntax errors with a report between them. -/
def interrupted : List (Recognizer × Event) :=
  let r : Recognizer :=
    { toOrigin := .ofTexts 0 "Expr.g4" ["expr"] ["a", "b"] " ", reply := .accept }
  let report : Report :=
    { decision := ⟨3, 0⟩, start := 0, stop := 1, configurations := .empty true,
      finding := .contextSensitivity 1 }
  [(r, .syntaxError { line := 1, column := 0, message := "a" }), (r, .report report),
    (r, .syntaxError { line := 1, column := 2, message := "b" })]

/-- Of the second line there is room for three bytes. -/
theorem courses_console_interrupted :
    (Store.empty.get 0).written = [] ∧
      ∃ run, ((leaf (.console 0 ⟨some 14, none, none⟩)).courses interrupted .empty)[2]? =
          some run ∧
        (run.store.get 0).written = utf8 "line 1:0 a\nlin" ∧ run.result ≠ .ok () := by
  obtain ⟨-, hcourses⟩ := courses_console 0 ⟨some 14, none, none⟩ interrupted .empty rfl
  obtain ⟨hwritten, -, herror⟩ := hcourses 2 _ _ _ rfl rfl
  obtain ⟨hok, -⟩ := herror _ rfl
  refine ⟨rfl, _, rfl, hwritten.trans (by decide +kernel), fun h => ?_⟩
  exact absurd (hok.1 h).1 (by decide +kernel)

end Listener

end ParseListeners
