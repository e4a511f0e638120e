import Mathlib.Algebra.GroupWithZero.Nat
import Mathlib.Algebra.Order.BigOperators.Group.List
import Mathlib.Algebra.Order.Group.Nat
import ParseListeners.Proofs.AlternativesText
import ParseListeners.Proofs.Courses
import ParseListeners.Proofs.PlacedText
import ParseListeners.Proofs.Writing

/-!
# Lines of a console

A console writes the message of a syntax error as it is.  A message may contain line feeds: one that
a diagnostic listener makes does if the input text of the report does, or the name of its rule
(`Report.newline_mem_message_iff`).  So the lines of the output are those of the syntax errors
exactly if no message has a line feed, and then the syntax errors can be read back from the output
(`Listener.courses_console_lines`).  Otherwise they cannot: a message can contain what looks like
another syntax error (`Listener.storeAfter_forged`).
-/

namespace ParseListeners

/-! ### Line feeds in bytes -/

/-- The bytes of the complete lines, without their line feeds. -/
def completeLines (bytes : List UInt8) : List (List UInt8) := (bytes.splitOn 10).dropLast

theorem completeLines_append {line : List UInt8} (h : 10 ∉ line) (bytes : List UInt8) :
    completeLines (line ++ 10 :: bytes) = line :: completeLines bytes := by
  rw [completeLines, List.splitOn_append_cons_self_of_not_mem h,
    List.dropLast_cons_of_ne_nil (List.splitOn_ne_nil _ _), completeLines]

/-- There are as many complete lines as line feeds. -/
theorem length_completeLines (bytes : List UInt8) :
    (completeLines bytes).length = bytes.count 10 := by
  by_cases h : 10 ∈ bytes
  · obtain ⟨line, rest, heq, hline⟩ := List.eq_append_cons_of_mem h
    have hlt : rest.length < bytes.length := by
      rw [heq, List.length_append, List.length_cons]
      omega
    rw [heq, completeLines_append hline, List.length_cons, length_completeLines rest,
      List.count_append, List.count_eq_zero_of_not_mem hline, List.count_cons_self, Nat.zero_add]
  · rw [completeLines, List.splitOn_eq_singleton h, List.count_eq_zero_of_not_mem h]
    rfl
termination_by bytes.length

theorem le_of_mem_utf8EncodeChar {c : Char} {b : UInt8} (hc : 127 < c.val.toNat)
    (hb : b ∈ String.utf8EncodeChar c) : 128 ≤ b.toNat := by
  have hbyte : ∀ n, 128 ≤ n → n < 256 → 128 ≤ (UInt8.ofNat n).toNat := by
    intro n hle hlt
    rwa [UInt8.toNat_ofNat', Nat.mod_eq_of_lt hlt]
  have hneg : ¬c.val.toNat ≤ 127 := by omega
  simp only [String.utf8EncodeChar, if_neg hneg] at hb
  by_cases htwo : c.val.toNat ≤ 2047
  · simp only [if_pos htwo, List.mem_cons, List.not_mem_nil, or_false] at hb
    rcases hb with rfl | rfl <;> exact hbyte _ (by omega) (by omega)
  by_cases hthree : c.val.toNat ≤ 65535
  · simp only [if_neg htwo, if_pos hthree, List.mem_cons, List.not_mem_nil, or_false] at hb
    rcases hb with rfl | rfl | rfl <;> exact hbyte _ (by omega) (by omega)
  · simp only [if_neg htwo, if_neg hthree, List.mem_cons, List.not_mem_nil, or_false] at hb
    rcases hb with rfl | rfl | rfl | rfl <;> exact hbyte _ (by omega) (by omega)

/-- The byte of a line feed stands for nothing else, for the bytes of a character beyond ASCII are
large. -/
theorem count_utf8EncodeChar (c : Char) :
    (String.utf8EncodeChar c).count 10 = if c = '\n' then 1 else 0 := by
  have hfeed : c = '\n' ↔ c.val.toNat = 10 := by
    rw [← Char.val_inj, ← UInt32.toNat_inj]
    rfl
  simp only [hfeed]
  by_cases hsmall : c.val.toNat ≤ 127
  · have hbyte : UInt8.ofNat c.val.toNat = 10 ↔ c.val.toNat = 10 := by
      rw [← UInt8.toNat_inj, UInt8.toNat_ofNat', Nat.mod_eq_of_lt (by omega)]
      rfl
    simp only [String.utf8EncodeChar, if_pos hsmall, List.count_singleton, beq_iff_eq, hbyte]
  · rw [if_neg (by omega), List.count_eq_zero]
    intro h
    have hlarge : 128 ≤ (10 : UInt8).toNat := le_of_mem_utf8EncodeChar (by omega) h
    exact absurd hlarge (by decide)

theorem count_utf8 (text : String) : (utf8 text).count 10 = text.toList.count '\n' := by
  rw [utf8, List.count_flatMap, List.count_eq_countP]
  induction text.toList with
  | nil => rfl
  | cons c chars ih =>
    rw [List.map_cons, List.sum_cons, ih, List.countP_cons, Function.comp, count_utf8EncodeChar,
      Nat.add_comm]
    simp

theorem mem_utf8_iff {text : String} : 10 ∈ utf8 text ↔ '\n' ∈ text.toList := by
  rw [← List.count_pos_iff, count_utf8, List.count_pos_iff]

/-! ### Reading lines -/

/-- The line, the column and the message of a syntax error, from what a console writes. -/
def readLine (bytes : List UInt8) : Option (UInt32 × UInt32 × String) := do
  let chars ← bytes.toByteArray.utf8Decode?
  readPlaced (String.ofList chars.toList)

theorem readLine_placedMessage (line column : UInt32) (message : String) :
    readLine (utf8 (placedMessage line column message)) = some (line, column, message) := by
  rw [readLine, utf8Decode?_utf8, Option.bind_eq_bind, Option.bind_some, String.ofList_toList,
    readPlaced_placedMessage]

/-! ### Line feeds in messages -/

theorem newline_not_mem_toDigits (n : Nat) : '\n' ∉ Nat.toDigits 10 n := by
  have hnumeral : '\n' ∉ (toString n).toList :=
    fun h => absurd (isDigit_of_mem_toString h) (by decide)
  simpa using hnumeral

theorem Alternatives.newline_not_mem_render (alternatives : Alternatives) :
    '\n' ∉ alternatives.render.toList :=
  fun h => absurd (of_mem_render h) (by decide)

/-- The message that a diagnostic listener makes of a report has a line feed if the input text has
one, or the name of the rule. -/
theorem Report.newline_mem_message_iff (origin : Origin) (report : Report) :
    '\n' ∈ (report.message origin).toList ↔
      '\n' ∈ (origin.inputText report.start report.stop).toList ∨
        ∃ name, origin.ruleName? report.decision.rule = some name ∧ '\n' ∈ name.toList := by
  have hdescribe : '\n' ∈ (origin.describe report.decision).toList ↔
      ∃ name, origin.ruleName? report.decision.rule = some name ∧ '\n' ∈ name.toList := by
    cases h : origin.ruleName? report.decision.rule with
    | none => simp [Origin.describe, h, newline_not_mem_toDigits]
    | some name => simp [Origin.describe, h, newline_not_mem_toDigits]
  rw [← hdescribe, or_comm]
  cases h : report.finding <;>
    simp [message, h, Alternatives.newline_not_mem_render]

/-! ### What a console writes -/

theorem SyntaxError.count_consoleLine (e : SyntaxError) :
    (utf8 e.consoleLine).count 10 = 1 + e.message.toList.count '\n' := by
  have hdigits : ∀ n : Nat, (Nat.toDigits 10 n).count '\n' = 0 :=
    fun n => List.count_eq_zero_of_not_mem (newline_not_mem_toDigits n)
  rw [count_utf8]
  simp [consoleLine, placedMessage, hdigits, Nat.add_comm]

theorem count_consoleLines (errors : List SyntaxError) :
    (errors.flatMap fun e => utf8 e.consoleLine).count 10 =
      errors.length + (errors.map fun e => e.message.toList.count '\n').sum := by
  induction errors with
  | nil => rfl
  | cons e errors ih =>
    rw [List.flatMap_cons, List.count_append, e.count_consoleLine, ih, List.length_cons,
      List.map_cons, List.sum_cons]
    omega

theorem completeLines_consoleLines {errors : List SyntaxError}
    (h : ∀ e ∈ errors, '\n' ∉ e.message.toList) :
    completeLines (errors.flatMap fun e => utf8 e.consoleLine) =
      errors.map fun e => utf8 (placedMessage e.line e.column e.message) := by
  induction errors with
  | nil => rfl
  | cons e errors ih =>
    rw [List.forall_mem_cons] at h
    have hplaced : 10 ∉ utf8 (placedMessage e.line e.column e.message) := by
      rw [mem_utf8_iff]
      simpa [placedMessage, newline_not_mem_toDigits] using h.1
    have hline : utf8 e.consoleLine = utf8 (placedMessage e.line e.column e.message) ++ [10] := by
      rw [SyntaxError.consoleLine, utf8_append]
      rfl
    rw [List.flatMap_cons, hline, List.append_assoc, List.singleton_append,
      completeLines_append hplaced, ih h.2, List.map_cons]

/-- The complete lines are those of the syntax errors exactly if no message has a line feed. -/
theorem completeLines_consoleLines_iff {errors : List SyntaxError} :
    completeLines (errors.flatMap fun e => utf8 e.consoleLine) =
        errors.map (fun e => utf8 (placedMessage e.line e.column e.message)) ↔
      ∀ e ∈ errors, '\n' ∉ e.message.toList := by
  refine ⟨fun h e he => ?_, completeLines_consoleLines⟩
  -- there are too many lines otherwise
  have hlength := congrArg List.length h
  rw [length_completeLines, count_consoleLines, List.length_map] at hlength
  have hsum : (errors.map fun e => e.message.toList.count '\n').sum = 0 := by omega
  have hcount := List.sum_eq_zero_iff.1 hsum _ (List.mem_map_of_mem he)
  exact List.count_eq_zero.1 hcount

namespace Recognizer

variable {id : Nat} {sink : Sink}

theorem deliver_console_of_unlimited (hcapacity : sink.capacity = none)
    (hflush : sink.flushError = none) (r : Recognizer) (e : SyntaxError) (s : Store) :
    let run := r.deliver (.syntaxError e) (.leaf (.console id sink)) s
    run.result = .ok () ∧
      (run.store.get id).written = (s.get id).written ++ utf8 e.consoleLine := by
  intro run
  obtain ⟨-, hfailure, hwritten⟩ := @deliver_console_syntaxError id sink r s e
  have htaken := sink.accepts_of_unlimited hcapacity (s.get id).written.length (utf8 e.consoleLine)
  refine ⟨Run.failure?_eq_none_iff.1 ?_, ?_⟩
  · rw [hfailure, Sink.writeError?_eq_none_iff.2 htaken, hflush]
    rfl
  · rw [hwritten, htaken]

end Recognizer

namespace Listener

/-- What the listeners remember after some events. -/
def storeAfter (l : Listener) (sent : List (Recognizer × Event)) (s : Store) : Store :=
  sent.foldl (fun s (r, event) => (r.deliver event l s).store) s

theorem storeAfter_cons (l : Listener) (r : Recognizer) (event : Event)
    (sent : List (Recognizer × Event)) (s : Store) :
    l.storeAfter ((r, event) :: sent) s = l.storeAfter sent (r.deliver event l s).store := rfl

/-- Some syntax errors as events. -/
def asEvents (sent : List (Recognizer × SyntaxError)) : List (Recognizer × Event) :=
  sent.map fun (r, e) => (r, .syntaxError e)

variable {id : Nat} {sink : Sink}

theorem courses_console_of_unlimited (hcapacity : sink.capacity = none)
    (hflush : sink.flushError = none) (sent : List (Recognizer × SyntaxError)) (s : Store) :
    (∀ run ∈ (leaf (.console id sink)).courses (asEvents sent) s, run.result = .ok ()) ∧
      (((leaf (.console id sink)).storeAfter (asEvents sent) s).get id).written =
        (s.get id).written ++ (sent.map Prod.snd).flatMap fun e => utf8 e.consoleLine := by
  induction sent generalizing s with
  | nil => simp [asEvents, courses, storeAfter]
  | cons first sent ih =>
    obtain ⟨r, e⟩ := first
    have hfirst := @Recognizer.deliver_console_of_unlimited id sink hcapacity hflush r e s
    rw [asEvents, List.map_cons, courses, storeAfter_cons, ← asEvents, List.forall_mem_cons]
    generalize r.deliver (.syntaxError e) (.leaf (.console id sink)) s = run at hfirst ⊢
    obtain ⟨hok, hwritten⟩ := hfirst
    obtain ⟨hoks, hwrittens⟩ := ih run.store
    refine ⟨⟨hok, hoks⟩, ?_⟩
    rw [hwrittens, hwritten, List.append_assoc, List.map_cons, List.flatMap_cons]

/-- **The lines of a console are those of the syntax errors** as long as messages have no line
feeds.  Syntax errors are sent to a console whose sink has no limit, can be flushed and has taken
nothing yet.  All of them succeed, and what the console writes for each of them, with a line feed in
the end, stands in the sink one after the other.  A message is written as it is, so each line feed
in a message makes one more line: the lines are those of the syntax errors if and only if no message
has one.  In that case the line, the column and the message of each syntax error can be read back
from the output.  The message that a diagnostic listener makes of a report has a line feed if and
only if the input text has one, or the name of the rule. -/
theorem courses_console_lines (id : Nat) (sink : Sink) (sent : List (Recognizer × SyntaxError))
    (s : Store) (hcapacity : sink.capacity = none) (hflush : sink.flushError = none)
    (hfresh : (s.get id).written = []) :
    let console := leaf (.console id sink)
    let errors := sent.map Prod.snd
    let output := ((console.storeAfter (asEvents sent) s).get id).written
    (∀ run ∈ console.courses (asEvents sent) s, run.result = .ok ()) ∧
      output = errors.flatMap (fun e => utf8 e.consoleLine) ∧
      (completeLines output).length =
        errors.length + (errors.map fun e => e.message.toList.count '\n').sum ∧
      (completeLines output = errors.map (fun e => utf8 (placedMessage e.line e.column e.message)) ↔
        ∀ e ∈ errors, '\n' ∉ e.message.toList) ∧
      ((∀ e ∈ errors, '\n' ∉ e.message.toList) →
        (completeLines output).mapM readLine =
          some (errors.map fun e => (e.line, e.column, e.message))) ∧
      ∀ e ∈ errors, ∀ origin report, e.message = Report.message origin report →
        ('\n' ∈ e.message.toList ↔
          '\n' ∈ (origin.inputText report.start report.stop).toList ∨
            ∃ name, origin.ruleName? report.decision.rule = some name ∧ '\n' ∈ name.toList) := by
  intro console errors output
  obtain ⟨hok, hwritten⟩ := @courses_console_of_unlimited id sink hcapacity hflush sent s
  have houtput : output = errors.flatMap fun e => utf8 e.consoleLine := by
    rw [hfresh, List.nil_append] at hwritten
    exact hwritten
  refine ⟨hok, houtput, ?_, ?_, fun hplain => ?_, fun e _ origin report he => ?_⟩
  · rw [length_completeLines, houtput, count_consoleLines]
  · rw [houtput, completeLines_consoleLines_iff]
  · rw [houtput, completeLines_consoleLines hplain, List.mapM_map]
    simp only [Function.comp_def, readLine_placedMessage]
    exact List.mapM_pure
  · rw [he, Report.newline_mem_message_iff]

/-- Two syntax errors. -/
def plain : List (Recognizer × SyntaxError) :=
  let r : Recognizer :=
    { toOrigin := .ofTexts 0 "Expr.g4" ["expr"] ["a", "b"] " ", reply := .accept }
  [(r, { line := 1, column := 0, message := "a" }), (r, { line := 2, column := 0, message := "b" })]

theorem courses_console_lines_plain :
    (completeLines (((leaf (.console 0 {})).storeAfter (asEvents plain) .empty).get 0).written).mapM
        readLine =
      some [(1, 0, "a"), (2, 0, "b")] := by
  obtain ⟨-, -, -, -, hread, -⟩ := courses_console_lines 0 {} plain .empty rfl rfl rfl
  exact hread (by decide)

/-- A single syntax error, with a message that has a line feed in it and then what looks like
another syntax error. -/
def forged : List (Recognizer × SyntaxError) :=
  let r : Recognizer :=
    { toOrigin := .ofTexts 0 "Expr.g4" ["expr"] ["a", "b"] " ", reply := .accept }
  [(r, { line := 1, column := 0, message := "a\nline 2:0 b" })]

/-- The output is the same as that of the two syntax errors, and has two lines. -/
theorem storeAfter_forged :
    let output (sent : List (Recognizer × SyntaxError)) : List UInt8 :=
      (((leaf (.console 0 {})).storeAfter (asEvents sent) .empty).get 0).written
    output forged = utf8 "line 1:0 a\nline 2:0 b\n" ∧ output forged = output plain ∧
      forged.length = 1 ∧ (completeLines (output forged)).length = 2 := by
  intro output
  have houtput : ∀ sent, output sent = (sent.map Prod.snd).flatMap fun e => utf8 e.consoleLine := by
    intro sent
    exact (@courses_console_of_unlimited 0 {} rfl rfl sent .empty).2
  have hforged : output forged = utf8 "line 1:0 a\nline 2:0 b\n" := by
    rw [houtput]
    decide +kernel
  have hplain : output plain = utf8 "line 1:0 a\nline 2:0 b\n" := by
    rw [houtput]
    decide +kernel
  refine ⟨hforged, hforged.trans hplain.symm, rfl, ?_⟩
  rw [length_completeLines, hforged]
  decide +kernel

end Listener

end ParseListeners
