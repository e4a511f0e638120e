import ParseListeners.Proofs.AlternativesText
import ParseListeners.Proofs.Nesting

/-!
# What a diagnostic message tells of a report

A diagnostic listener hands a report back as a message, in which the name of a rule and the text of
the input stand as they are.  Nevertheless the message tells the kind of the report, by its first
word, and the number of the decision, by the numeral that follows (`Report.of_message_eq`).  Between
reports on one decision it tells the input text apart, and the alternatives that the report names:
their list is closed before the input text begins (`Report.message_eq_iff`).  The configurations
matter only where the report names no alternatives of its own, and then only by the alternatives in
them.
-/

namespace ParseListeners

/-! ### Named alternatives -/

/-- An alternative that the message of a report names: it is among the reported ones or, if there
are none, it occurs in a configuration.  Only ambiguities name alternatives. -/
def Report.Names (r : Report) (n : UInt64) : Prop :=
  match r.finding with
  | .ambiguity _ alternatives =>
    n ∈ alternatives ∨
      (∀ k, k ∉ alternatives) ∧ ∃ c ∈ r.configurations.toList, c.alternative = n
  | .fullContext _ => False
  | .contextSensitivity _ => False

theorem Report.mem_effective_iff {r : Report} {alternatives : Alternatives} {n : UInt64} :
    n ∈ r.effective alternatives ↔
      n ∈ alternatives ∨
        (∀ k, k ∉ alternatives) ∧ ∃ c ∈ r.configurations.toList, c.alternative = n := by
  unfold effective
  split
  · next h =>
    rw [Alternatives.isEmpty_iff] at h
    simp [h, Configurations.mem_alternatives]
  · next h =>
    rw [Alternatives.isEmpty_iff] at h
    simp [h]

/-! ### The parts of a message -/

/-- The first word of the message on a finding. -/
def Finding.word : Finding → String
  | .ambiguity .. => "reportAmbiguity"
  | .fullContext _ => "reportAttemptingFullContext"
  | .contextSensitivity _ => "reportContextSensitivity"

theorem Finding.word_inj {f g : Finding} : f.word = g.word ↔ f.kind = g.kind := by
  cases f <;> cases g <;> simp [word, kind]

theorem Finding.blank_not_mem_word (f : Finding) : ' ' ∉ f.word.toList := by
  cases f <;> simp only [word] <;> decide

namespace Report

/-- The end of a message, with the input text. -/
def ending (origin : Origin) (r : Report) : String :=
  ", input='" ++ (origin.inputText r.start r.stop ++ "'")

/-- What follows the decision in a message. -/
def particulars (origin : Origin) (r : Report) : String :=
  match r.finding with
  | .ambiguity _ alternatives =>
    ": ambigAlts=" ++ ((r.effective alternatives).render ++ r.ending origin)
  | .fullContext _ => r.ending origin
  | .contextSensitivity _ => r.ending origin

theorem message_eq (origin : Origin) (r : Report) :
    r.message origin =
      r.finding.word ++ (" d=" ++ (origin.describe r.decision ++ r.particulars origin)) := by
  have hambiguity : "reportAmbiguity d=" = "reportAmbiguity" ++ " d=" := rfl
  have hcontext : "reportAttemptingFullContext d=" = "reportAttemptingFullContext" ++ " d=" := rfl
  have hsensitivity : "reportContextSensitivity d=" = "reportContextSensitivity" ++ " d=" := rfl
  unfold message particulars ending Finding.word
  cases r.finding with
  | ambiguity exact alternatives => simp only [hambiguity, String.append_assoc]
  | fullContext conflicting => simp only [hcontext, String.append_assoc]
  | contextSensitivity prediction => simp only [hsensitivity, String.append_assoc]

/-- What follows the decision does not begin like a numeral. -/
theorem exists_particulars_eq (origin : Origin) (r : Report) :
    ∃ c rest, ¬IsNumeral c ∧ (r.particulars origin).toList = c :: rest := by
  have hending : ∃ rest, (r.ending origin).toList = ',' :: rest :=
    ⟨_, String.toList_append⟩
  unfold particulars
  cases r.finding with
  | ambiguity exact alternatives => exact ⟨':', _, by decide, String.toList_append⟩
  | fullContext conflicting =>
    obtain ⟨rest, hrest⟩ := hending
    exact ⟨',', rest, by decide, hrest⟩
  | contextSensitivity prediction =>
    obtain ⟨rest, hrest⟩ := hending
    exact ⟨',', rest, by decide, hrest⟩

theorem exists_describe_append (origin : Origin) (d : Decision) {c : Char} (hc : ¬IsNumeral c)
    (rest : List Char) :
    ∃ c' rest', ¬IsNumeral c' ∧
      (origin.describe d).toList ++ c :: rest =
        (toString d.number.toNat).toList ++ c' :: rest' := by
  cases h : origin.ruleName? d.rule with
  | none => exact ⟨c, rest, hc, by rw [Origin.describe, h]⟩
  | some name =>
    refine ⟨' ', "(".toList ++ name.toList ++ ")".toList ++ c :: rest, by decide, ?_⟩
    simp [Origin.describe, h]

/-- Reports with the same message are of the same kind and on decisions with the same number. -/
theorem of_message_eq {origin origin' : Origin} {r r' : Report}
    (h : r.message origin = r'.message origin') :
    r.finding.kind = r'.finding.kind ∧ r.decision.number = r'.decision.number := by
  -- the first word ends at the first blank
  have hword : ∀ (o : Origin) (r : Report), (r.message o).toList =
      r.finding.word.toList ++ ' ' :: ("d=".toList ++
        ((o.describe r.decision).toList ++ (r.particulars o).toList)) := by
    intro o r
    rw [message_eq, String.toList_append, String.toList_append, String.toList_append]
    rfl
  rw [← String.toList_inj, hword, hword,
    append_cons_inj_of_not_mem r.finding.blank_not_mem_word r'.finding.blank_not_mem_word,
    String.toList_inj, Finding.word_inj, List.append_cancel_left_eq] at h
  obtain ⟨hkind, hrest⟩ := h
  -- the number of the decision ends at the first character that does not occur in numerals
  obtain ⟨c, rest, hc, hparticulars⟩ := r.exists_particulars_eq origin
  obtain ⟨c', rest', hc', hparticulars'⟩ := r'.exists_particulars_eq origin'
  obtain ⟨a, more, ha, hdescribe⟩ := exists_describe_append origin r.decision hc rest
  obtain ⟨a', more', ha', hdescribe'⟩ := exists_describe_append origin' r'.decision hc' rest'
  rw [hparticulars, hparticulars', hdescribe, hdescribe', toString_append_cons_inj ha ha',
    UInt64.toNat_inj] at hrest
  exact ⟨hkind, hrest.1⟩

theorem ending_inj {origin : Origin} {r r' : Report} :
    r.ending origin = r'.ending origin ↔
      origin.inputText r.start r.stop = origin.inputText r'.start r'.stop := by
  rw [ending, ending, String.append_right_inj, String.append_left_inj]

theorem particulars_inj {origin : Origin} {r r' : Report}
    (hkind : r.finding.kind = r'.finding.kind) :
    r.particulars origin = r'.particulars origin ↔
      origin.inputText r.start r.stop = origin.inputText r'.start r'.stop ∧
        ∀ n, r.Names n ↔ r'.Names n := by
  unfold particulars Names
  cases h : r.finding <;> cases h' : r'.finding <;> rw [h, h'] at hkind <;>
    simp only [Finding.kind, reduceCtorEq] at hkind
  · rw [String.append_right_inj, ← String.toList_inj, String.toList_append, String.toList_append,
      Alternatives.render_append_inj, String.toList_inj, ending_inj, and_comm,
      Alternatives.ext_mem_iff]
    simp only [mem_effective_iff]
  · simp only [ending_inj, implies_true, and_true]
  · simp only [ending_inj, implies_true, and_true]

/-- Reports of one kind on one decision have the same message if and only if they have the same
input text and name the same alternatives. -/
theorem message_eq_iff {origin : Origin} {r r' : Report} (hkind : r.finding.kind = r'.finding.kind)
    (hdecision : r.decision = r'.decision) :
    r.message origin = r'.message origin ↔
      origin.inputText r.start r.stop = origin.inputText r'.start r'.stop ∧
        ∀ n, r.Names n ↔ r'.Names n := by
  rw [message_eq, message_eq, Finding.word_inj.2 hkind, hdecision, String.append_right_inj,
    String.append_right_inj, String.append_right_inj, particulars_inj hkind]

/-- With other configurations a report has the same message unless it is an ambiguity without
alternatives of its own; in that case it is enough that the same alternatives occur in them. -/
theorem names_configurations_iff {r : Report} {configurations : Configurations} :
    (∀ n, Report.Names { r with configurations := configurations } n ↔ r.Names n) ↔
      ∀ exact alternatives, r.finding = .ambiguity exact alternatives → (∀ k, k ∉ alternatives) →
        ∀ n, (∃ c ∈ configurations.toList, c.alternative = n) ↔
          ∃ c ∈ r.configurations.toList, c.alternative = n := by
  unfold Names
  cases h : r.finding with
  | ambiguity exact alternatives =>
    by_cases hnone : ∀ k, k ∉ alternatives
    · simp [hnone]
    · simp [hnone]
  | fullContext conflicting => simp
  | contextSensitivity prediction => simp

end Report

/-! ### Notifications -/

/-- The message of a notification. -/
def Entry.notification? : Entry → Option String
  | .notified _ message => some message
  | _ => none

@[simp] theorem Entry.notification?_called (leaf : Leaf) (origin : Origin) (event : Event) :
    (called leaf origin event).notification? = none := rfl

@[simp] theorem Entry.notification?_notified (recognizer : Nat) (message : String) :
    (notified recognizer message).notification? = some message := rfl

namespace Recognizer

/-- The messages that recognizers are handed while an event is dealt with, in order. -/
def notifications (r : Recognizer) (event : Event) (l : Listener) (s : Store) : List String :=
  (r.deliver event l s).journal.filterMap Entry.notification?

theorem notifications_diagnostic (r : Recognizer) {d : Diagnostic} {report : Report}
    (h : d.skips report = false) (s : Store) :
    r.notifications (.report report) (.leaf (.diagnostic d)) s = [report.message r.toOrigin] := by
  have hmessage : (Leaf.diagnostic d).message? r.toOrigin (.report report) =
      some (report.message r.toOrigin) := Leaf.message?_eq_some_iff.2 ⟨d, report, rfl, rfl, h, rfl⟩
  obtain ⟨rest, hjournal, hrest⟩ := r.journal_notify (report.message r.toOrigin) s
  have hnone : rest.filterMap Entry.notification? = [] := by
    refine List.filterMap_eq_nil_iff.2 fun entry hentry => ?_
    have hquiet := hrest entry hentry
    cases entry with
    | notified recognizer message => simp [Entry.inExchange] at hquiet
    | _ => rfl
  rw [notifications, journal_deliver_leaf_of_some hmessage, hjournal,
    List.filterMap_cons_none (Entry.notification?_called ..),
    List.filterMap_cons_some (Entry.notification?_notified ..), hnone]

/-- **A message tells which report it was made of.**  Two recognizers send reports to diagnostic
listeners that do not leave them out, so each of them is handed one message.  If the messages are
equal, the reports are of the same kind and on decisions with the same number, whatever the names of
the rules and the texts of the inputs are.  Reports of one kind, on the same decision and from the
same origin have equal messages if and only if the input texts are equal and, for ambiguities, the
alternatives that they name.  So another choice of configurations leaves the message as it is,
except that an ambiguity that reports no alternatives has to find the same ones in its
configurations. -/
theorem notifications_identify (r r' : Recognizer) (d d' : Diagnostic) (report report' : Report)
    (s s' : Store) (h : d.skips report = false) (h' : d'.skips report' = false) :
    ∃ m m', r.notifications (.report report) (.leaf (.diagnostic d)) s = [m] ∧
      r'.notifications (.report report') (.leaf (.diagnostic d')) s' = [m'] ∧
      (m = m' → report.finding.kind = report'.finding.kind ∧
        report.decision.number = report'.decision.number) ∧
      (report.finding.kind = report'.finding.kind → r.toOrigin = r'.toOrigin →
        report.decision = report'.decision →
        (m = m' ↔
          r.inputText report.start report.stop = r'.inputText report'.start report'.stop ∧
            ∀ n, report.Names n ↔ report'.Names n)) ∧
      ∀ configurations,
        r.notifications (.report { report with configurations := configurations })
            (.leaf (.diagnostic d)) s = [m] ↔
          ∀ exact alternatives, report.finding = .ambiguity exact alternatives →
            (∀ k, k ∉ alternatives) →
            ∀ n, (∃ c ∈ configurations.toList, c.alternative = n) ↔
              ∃ c ∈ report.configurations.toList, c.alternative = n := by
  refine ⟨report.message r.toOrigin, report'.message r'.toOrigin, r.notifications_diagnostic h s,
    r'.notifications_diagnostic h' s', Report.of_message_eq, fun hkind horigin hdecision => ?_,
    fun configurations => ?_⟩
  · rw [← horigin, Report.message_eq_iff hkind hdecision]
  · have hskips : d.skips { report with configurations := configurations } = false := h
    have hmessage := @Report.message_eq_iff r.toOrigin
      { report with configurations := configurations } report rfl rfl
    rw [r.notifications_diagnostic hskips, List.singleton_inj, hmessage, and_iff_right rfl,
      Report.names_configurations_iff]

/-- A recognizer that accepts messages. -/
def accepting : Recognizer :=
  { toOrigin := .ofTexts 0 "Expr.g4" ["expr"] ["a", "b"] " ", reply := .accept }

/-- An ambiguity that reports no alternatives, with some configurations. -/
def undecided (exact : Bool) (configurations : Configurations) : Report :=
  { decision := ⟨3, 0⟩, start := 0, stop := 1, configurations := configurations,
    finding := .ambiguity exact ∅ }

/-- Order, repetitions and states of the configurations do not show in the message, nor does the
context that they were found in. -/
theorem notifications_identify_undecided :
    let report := undecided true ⟨[⟨10, 2⟩, ⟨11, 1⟩, ⟨12, 2⟩], false⟩
    let report' := undecided false ⟨[⟨7, 1⟩, ⟨8, 2⟩], true⟩
    Diagnostic.skips ⟨true⟩ report = false ∧ Diagnostic.skips ⟨false⟩ report' = false ∧
      ∃ m, accepting.notifications (.report report) (.leaf (.diagnostic ⟨true⟩)) .empty = [m] ∧
        accepting.notifications (.report report') (.leaf (.diagnostic ⟨false⟩)) .empty = [m] := by
  intro report report'
  obtain ⟨m, m', hm, hm', -, hiff, -⟩ :=
    notifications_identify accepting accepting ⟨true⟩ ⟨false⟩ report report' .empty .empty rfl rfl
  have hnames : ∀ n, report.Names n ↔ report'.Names n := by
    intro n
    simp only [report, report', undecided, Report.Names, List.exists_mem_cons_iff,
      List.not_mem_nil, false_and, exists_false, or_false]
    grind
  rw [(hiff rfl rfl rfl).2 ⟨rfl, hnames⟩] at hm
  exact ⟨rfl, rfl, m', hm, hm'⟩

-- the name of a rule may look like the beginning of the input text
example (r : Report) (h : r.finding = .fullContext ∅) (hd : r.decision = ⟨3, 0⟩) :
    r.message ⟨0, "Expr.g4", ["e"], fun _ _ => "x), input='y"⟩ =
      r.message ⟨1, "Expr.g4", ["e), input='x"], fun _ _ => "y"⟩ := by
  simp only [Report.message, h, hd]
  decide +kernel

end Recognizer

end ParseListeners
