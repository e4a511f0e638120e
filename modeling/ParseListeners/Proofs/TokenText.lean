import ParseListeners.Proofs.Delimiters
import ParseListeners.Token

/-!
# What the text of a token tells

The text of a token escapes line breaks and tabs and leaves all else as it is, so quotes, commas and
brackets of the token may look like the end of its text.  The text is unambiguous all the same: its
index is read from the left, up to the first comma, and its column, line and type from the right;
what is left in the middle is the escaped text (`Token.render_eq_iff`).
-/

namespace ParseListeners

namespace Token

/-! ### Escapes -/

/-- The text with another text for every occurrence of a character. -/
def replaceChar (c : Char) (replacement text : String) : String :=
  String.ofList (text.toList.flatMap fun d => if d = c then replacement.toList else [d])

/-- The text with line feeds, carriage returns and tabs replaced by their escapes. -/
def oneLine (text : String) : String :=
  replaceChar '\t' "\\t" (replaceChar '\r' "\\r" (replaceChar '\n' "\\n" text))

theorem toList_replaceChar (c : Char) (replacement text : String) :
    (replaceChar c replacement text).toList =
      text.toList.flatMap fun d => if d = c then replacement.toList else [d] :=
  String.toList_ofList

/-- An escape is not escaped again, so the replacements can be made one after the other. -/
theorem escape_eq_oneLine (text : String) : escape text = oneLine text := by
  rw [← String.toList_inj, toList_escape, oneLine, toList_replaceChar, toList_replaceChar,
    toList_replaceChar, List.flatMap_assoc, List.flatMap_assoc]
  refine congrArg (text.toList.flatMap ·) (funext fun c => ?_)
  by_cases hn : c = '\n'
  · subst hn; rfl
  · by_cases hr : c = '\r'
    · subst hr; rfl
    · simp [escapeChar, hn, hr]

/-- The text whose line feeds, carriage returns and tabs have been escaped. -/
def unescape : List Char → List Char
  | '\\' :: 'n' :: rest => '\n' :: unescape rest
  | '\\' :: 'r' :: rest => '\r' :: unescape rest
  | '\\' :: 't' :: rest => '\t' :: unescape rest
  | c :: rest => c :: unescape rest
  | [] => []

theorem unescape_escape {chars : List Char} (h : '\\' ∉ chars) :
    unescape (chars.flatMap escapeChar) = chars := by
  induction chars with
  | nil => rfl
  | cons c chars ih =>
    rw [List.mem_cons, not_or] at h
    by_cases hn : c = '\n'
    · subst hn; exact congrArg ('\n' :: ·) (ih h.2)
    by_cases hr : c = '\r'
    · subst hr; exact congrArg ('\r' :: ·) (ih h.2)
    by_cases ht : c = '\t'
    · subst ht; exact congrArg ('\t' :: ·) (ih h.2)
    have hc : escapeChar c = [c] := by simp [escapeChar, hn, hr, ht]
    rw [List.flatMap_cons, hc, List.singleton_append, unescape, ih h.2]
    -- no backslash stands here, so an escape does not begin
    all_goals exact fun _ hbackslash => absurd hbackslash.symm h.1

theorem oneLine_inj_of_not_mem {text other : String} (h : '\\' ∉ text.toList)
    (hother : '\\' ∉ other.toList) : oneLine text = oneLine other ↔ text = other := by
  refine ⟨fun heq => ?_, fun heq => heq ▸ rfl⟩
  rw [← escape_eq_oneLine, ← escape_eq_oneLine, ← String.toList_inj, toList_escape,
    toList_escape] at heq
  rw [← String.toList_inj, ← unescape_escape h, heq, unescape_escape hother]

/-! ### Taking a text apart -/

/-- The beginning of the text of a token: its index and its escaped text. -/
def front (t : Token) : List Char :=
  "[@".toList ++ ((toString t.index.toNat).toList ++
    ',' :: ("'".toList ++ (escape t.text).toList ++ "',".toList))

theorem toList_render (t : Token) :
    t.render.toList =
      t.front ++ ['<'] ++ (toString t.type.toInt).toList ++ ['>'] ++ [','] ++
        (toString t.line.toNat).toList ++ [':'] ++ (toString t.column.toNat).toList ++ [']'] := by
  unfold render front
  simp

/-- The index ends at the first comma. -/
theorem front_inj {t u : Token} :
    t.front = u.front ↔ t.index = u.index ∧ escape t.text = escape u.text := by
  have hcomma : ¬IsNumeral ',' := by decide
  rw [front, front, List.append_cancel_left_eq, toString_append_cons_inj hcomma hcomma,
    List.append_cancel_right_eq, List.append_cancel_left_eq, String.toList_inj, UInt64.toNat_inj]
  simp only [true_and]

/-- The column starts after the last colon, the line after the last comma before it, and the type
after the last bracket that opens before that. -/
theorem render_inj {t u : Token} :
    t.render = u.render ↔
      t.front = u.front ∧ t.type = u.type ∧ t.line = u.line ∧ t.column = u.column := by
  have hcolon : ¬IsNumeral ':' := by decide
  have hcomma : ¬IsNumeral ',' := by decide
  have hbracket : ¬IsNumeral '<' := by decide
  rw [← String.toList_inj, toList_render, toList_render, List.append_cancel_right_eq,
    append_singleton_append_inj_of_forall (fun _ => isNumeral_of_mem_toString)
      (fun _ => isNumeral_of_mem_toString) hcolon,
    append_singleton_append_inj_of_forall (fun _ => isNumeral_of_mem_toString)
      (fun _ => isNumeral_of_mem_toString) hcomma,
    List.append_cancel_right_eq,
    append_singleton_append_inj_of_forall (fun _ => isNumeral_of_mem_toString_int)
      (fun _ => isNumeral_of_mem_toString_int) hbracket,
    String.toList_inj, String.toList_inj, String.toList_inj, toString_inj, toString_inj,
    toString_int_inj, UInt32.toNat_inj, UInt32.toNat_inj, Int32.toInt_inj, and_assoc, and_assoc]

/-! ### Line breaks and tabs -/

/-- The character breaks no line and is no tab. -/
def IsInline (c : Char) : Prop := c ≠ '\n' ∧ c ≠ '\r' ∧ c ≠ '\t'

instance (c : Char) : Decidable (IsInline c) :=
  inferInstanceAs (Decidable (c ≠ '\n' ∧ c ≠ '\r' ∧ c ≠ '\t'))

theorem isInline_of_isNumeral {c : Char} (h : IsNumeral c) : IsInline c := by
  refine ⟨?_, ?_, ?_⟩ <;>
    · rintro rfl
      exact absurd h (by decide)

theorem isInline_of_mem_escape {text : String} {c : Char} (h : c ∈ (escape text).toList) :
    IsInline c := by
  rw [toList_escape, List.mem_flatMap] at h
  obtain ⟨_, -, hc⟩ := h
  exact not_mem_escapeChar hc

theorem isInline_of_mem_render {t : Token} : ∀ c ∈ t.render.toList, IsInline c := by
  have hnat : ∀ n : Nat, ∀ c ∈ (toString n).toList, IsInline c :=
    fun _ _ hc => isInline_of_isNumeral (isNumeral_of_mem_toString hc)
  have hint : ∀ i : Int, ∀ c ∈ (toString i).toList, IsInline c :=
    fun _ _ hc => isInline_of_isNumeral (isNumeral_of_mem_toString_int hc)
  have hescape : ∀ c ∈ (escape t.text).toList, IsInline c := fun _ => isInline_of_mem_escape
  unfold render
  simp only [String.toList_append, List.forall_mem_append]
  refine ⟨⟨⟨⟨⟨⟨⟨⟨⟨⟨?_, hnat _⟩, ?_⟩, hescape⟩, ?_⟩, hint _⟩, ?_⟩, hnat _⟩, ?_⟩, hnat _⟩, ?_⟩ <;>
    simp [IsInline]

/-- **The text of a token is unambiguous up to escapes.**  Two tokens have the same text if and only
if they have the same index, type, line and column, and their texts are the same after line feeds,
carriage returns and tabs have been replaced by their escapes.  Quotes, commas, brackets and
numerals in the tokens' texts do not matter.  So tokens whose texts have no backslash are told apart
by their texts.  No text of a token has a line feed, a carriage return or a tab. -/
theorem render_eq_iff (t u : Token) :
    (t.render = u.render ↔
        t.index = u.index ∧ t.type = u.type ∧ t.line = u.line ∧ t.column = u.column ∧
          oneLine t.text = oneLine u.text) ∧
      ('\\' ∉ t.text.toList → '\\' ∉ u.text.toList → (t.render = u.render ↔ t = u)) ∧
      ∀ c ∈ t.render.toList, c ≠ '\n' ∧ c ≠ '\r' ∧ c ≠ '\t' := by
  have hparts : t.render = u.render ↔
      t.index = u.index ∧ t.type = u.type ∧ t.line = u.line ∧ t.column = u.column ∧
        oneLine t.text = oneLine u.text := by
    rw [render_inj, front_inj, escape_eq_oneLine, escape_eq_oneLine]
    exact ⟨fun ⟨⟨hindex, htext⟩, htype, hplace⟩ => ⟨hindex, htype, hplace.1, hplace.2, htext⟩,
      fun ⟨hindex, htype, hline, hcolumn, htext⟩ => ⟨⟨hindex, htext⟩, htype, hline, hcolumn⟩⟩
  refine ⟨hparts, fun ht hu => ?_, isInline_of_mem_render⟩
  rw [hparts, oneLine_inj_of_not_mem ht hu]
  refine ⟨fun ⟨hindex, htype, hline, hcolumn, htext⟩ => ?_, ?_⟩
  · cases t
    cases u
    simp_all only
  · rintro rfl
    exact ⟨rfl, rfl, rfl, rfl, rfl⟩

/-- A token. -/
def plain : Token := { type := 7, text := "a", line := 3, column := 4, index := 12 }

/-- A token with a text that looks like the end of the text of another one. -/
def imitating : Token := { plain with text := "a',<7>,3:4]" }

theorem render_eq_iff_imitating :
    '\\' ∉ plain.text.toList ∧ '\\' ∉ imitating.text.toList ∧
      (plain.render = imitating.render ↔ plain = imitating) ∧ plain ≠ imitating :=
  ⟨by decide, by decide, (render_eq_iff plain imitating).2.1 (by decide) (by decide), by decide⟩

-- a backslash that is not escaped may stand for an escape
example : { plain with text := "\n" }.render = { plain with text := "\\n" }.render := by
  decide +kernel

end Token

end ParseListeners
