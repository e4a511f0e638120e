import ParseListeners.Console
import ParseListeners.Proofs.Listings

/-!
# What the text of a syntax error tells

A console writes the line and the column of a syntax error before its message, which stands as it
is.  The message may begin with digits, colons or blanks, and it may look like another syntax error.
All the same the numeral of the line ends at the first colon, and that of the column at the first
blank after it, because numerals have neither.  So the parts can be read back, and a text from which
they can be read is the text of a syntax error (`readPlaced_eq_some_iff`).
-/

namespace ParseListeners

/-! ### Numerals -/

instance (d : List Char) : Decidable (IsDecimal d) :=
  decidable_of_iff (d ≠ [] ∧ d.all Char.isDigit = true)
    ⟨fun h => ⟨h.1, List.all_eq_true.1 h.2⟩, fun h => ⟨h.ne_nil, List.all_eq_true.2 h.isDigit⟩⟩

instance (d : List Char) : Decidable (IsPlain d) :=
  inferInstanceAs (Decidable (d.head? = some '0' → d = ['0']))

/-- The number that has the numeral. -/
def readNumeral (d : List Char) : Option UInt32 :=
  if IsDecimal d ∧ IsPlain d ∧ decimalValue d < UInt32.size then some (.ofNat (decimalValue d))
  else none

theorem readNumeral_eq_some_iff {d : List Char} {n : UInt32} :
    readNumeral d = some n ↔ d = (toString n.toNat).toList := by
  rw [readNumeral, Option.ite_none_right_eq_some, Option.some.injEq]
  constructor
  · -- digits without a needless zero are the numeral of their value
    rintro ⟨⟨hdecimal, hplain, hlt⟩, rfl⟩
    rw [UInt32.toNat_ofNat_of_lt' hlt, toString_decimalValue hdecimal hplain]
  · rintro rfl
    rw [decimalValue_toString, UInt32.ofNat_toNat]
    exact ⟨⟨isDecimal_toString _, isPlain_toString _, n.toNat_lt_size⟩, rfl⟩

/-! ### Delimiters -/

/-- What is before the first `delimiter`, and what is after it. -/
def cut? (delimiter : Char) : List Char → Option (List Char × List Char)
  | [] => none
  | c :: chars =>
    if c = delimiter then some ([], chars)
    else (cut? delimiter chars).map fun (before, after) => (c :: before, after)

variable {delimiter : Char} {chars before after : List Char}

theorem cut?_append (h : delimiter ∉ before) :
    cut? delimiter (before ++ delimiter :: after) = some (before, after) := by
  induction before with
  | nil => rw [List.nil_append, cut?, if_pos rfl]
  | cons c before ih =>
    rw [List.mem_cons, not_or] at h
    rw [List.cons_append, cut?, if_neg (Ne.symm h.1), ih h.2, Option.map_some]

theorem eq_append_of_cut? (h : cut? delimiter chars = some (before, after)) :
    chars = before ++ delimiter :: after := by
  fun_induction cut? delimiter chars generalizing before with
  | case1 => cases h
  | case2 chars =>
    obtain ⟨rfl, rfl⟩ := Prod.mk.inj (Option.some.inj h)
    rfl
  | case3 c chars hc ih =>
    obtain ⟨⟨front, back⟩, hcut, heq⟩ := Option.map_eq_some_iff.1 h
    obtain ⟨rfl, rfl⟩ := Prod.mk.inj heq
    rw [ih hcut, List.cons_append]

/-- A numeral is cut off by the first character after it that is not a digit. -/
theorem cut?_toString (h : delimiter.isDigit = false) (n : Nat) (rest : List Char) :
    cut? delimiter ((toString n).toList ++ delimiter :: rest) = some ((toString n).toList, rest) :=
  cut?_append fun hmem => by simp [isDigit_of_mem_toString hmem] at h

/-! ### Reading a syntax error -/

/-- The line, the column and the message, from the text of a syntax error. -/
def readPlaced (text : String) : Option (UInt32 × UInt32 × String) := do
  let place ← text.toList.dropPrefix? "line ".toList
  let (line, rest) ← cut? ':' place
  let (column, message) ← cut? ' ' rest
  return (← readNumeral line, ← readNumeral column, String.ofList message)

theorem toList_placedMessage (line column : UInt32) (message : String) :
    (placedMessage line column message).toList =
      "line ".toList ++ ((toString line.toNat).toList ++
        ':' :: ((toString column.toNat).toList ++ ' ' :: message.toList)) := by
  simp [placedMessage]

theorem readPlaced_placedMessage (line column : UInt32) (message : String) :
    readPlaced (placedMessage line column message) = some (line, column, message) := by
  rw [readPlaced, toList_placedMessage,
    List.dropPrefix?_append_of_beq _ (beq_self_eq_true "line ".toList)]
  simp only [Option.bind_eq_bind, Option.bind_some, @cut?_toString ':' rfl,
    @cut?_toString ' ' rfl, readNumeral_eq_some_iff.2 rfl, String.ofList_toList]
  rfl

variable {text message : String} {line column : UInt32}

/-- What is read of a text are the parts that the text is made of. -/
theorem eq_placedMessage_of_readPlaced (h : readPlaced text = some (line, column, message)) :
    text = placedMessage line column message := by
  simp only [readPlaced, Option.bind_eq_bind, Option.bind_eq_some_iff,
    List.dropPrefix?_eq_some_iff, Prod.exists, readNumeral_eq_some_iff] at h
  obtain ⟨place, ⟨heading, htext, hheading⟩, _, rest, hline, _, chars, hcolumn, n, rfl, m, rfl,
    hparts⟩ := h
  obtain ⟨rfl, rfl, rfl⟩ : n = line ∧ m = column ∧ String.ofList chars = message := by
    simpa using hparts
  have hchars : (String.ofList chars).toList = chars := String.toList_ofList
  -- joining at the delimiters undoes the cuts, from the first to the last
  rw [← String.toList_inj, toList_placedMessage, htext, eq_of_beq hheading,
    eq_append_of_cut? hline, eq_append_of_cut? hcolumn, hchars]

theorem readPlaced_eq_some_iff :
    readPlaced text = some (line, column, message) ↔ text = placedMessage line column message :=
  ⟨eq_placedMessage_of_readPlaced, fun h => h ▸ readPlaced_placedMessage line column message⟩

theorem placedMessage_inj {line' column' : UInt32} {message' : String} :
    placedMessage line column message = placedMessage line' column' message' ↔
      line = line' ∧ column = column' ∧ message = message' := by
  rw [← readPlaced_eq_some_iff, readPlaced_placedMessage, Option.some.injEq, Prod.mk.injEq,
    Prod.mk.injEq]

/-! ### Bytes -/

theorem utf8Decode?_utf8 (text : String) :
    (utf8 text).toByteArray.utf8Decode? = some text.toList.toArray :=
  List.utf8Decode?_utf8Encode

theorem utf8_inj {s t : String} : utf8 s = utf8 t ↔ s = t := by
  refine ⟨fun h => ?_, congrArg utf8⟩
  have hchars := utf8Decode?_utf8 s
  rw [h, utf8Decode?_utf8, Option.some.injEq] at hchars
  exact (String.toList_inj.1 (List.toArray_inj hchars)).symm

theorem SyntaxError.utf8_consoleLine_inj {e e' : SyntaxError} :
    utf8 e.consoleLine = utf8 e'.consoleLine ↔
      e.line = e'.line ∧ e.column = e'.column ∧ e.message = e'.message := by
  rw [utf8_inj, consoleLine, consoleLine, String.append_left_inj, placedMessage_inj]

/-- **The text of a syntax error can be read back.**  Two syntax errors have the same text if and
only if they have the same line, the same column and the same message, whatever characters the
messages have.  There is a reader of such texts, which reads these and nothing else, and the message
that it reads is the one that was given.  So the bytes that a console writes for two syntax errors
are equal if and only if the syntax errors agree in their places and their messages. -/
theorem placedMessage_reads_back :
    (∀ (line line' column column' : UInt32) (message message' : String),
      placedMessage line column message = placedMessage line' column' message' ↔
        line = line' ∧ column = column' ∧ message = message') ∧
    (∀ (text : String) (line column : UInt32) (message : String),
      readPlaced text = some (line, column, message) ↔
        text = placedMessage line column message) ∧
    ∀ e e' : SyntaxError, utf8 e.consoleLine = utf8 e'.consoleLine ↔
      e.line = e'.line ∧ e.column = e'.column ∧ e.message = e'.message :=
  ⟨fun _ _ _ _ _ _ => placedMessage_inj, fun _ _ _ _ => readPlaced_eq_some_iff,
    fun _ _ => SyntaxError.utf8_consoleLine_inj⟩

-- the message begins like a place, and goes on like another syntax error
example : readPlaced "line 4294967295:0 7:8 a\nline 1:2 b" =
    some (4294967295, 0, "7:8 a\nline 1:2 b") := by
  decide +kernel

end ParseListeners
