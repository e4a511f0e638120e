/-!
# Tokens

A `Token` is a piece of the input as the lexer cut it, with its place.  `Token.render` writes it
on one line: line breaks and tabs of its text are escaped, everything else stands as it is.
-/

namespace ParseListeners

/-- A piece of the input as the lexer cut it. -/
structure Token where
  /-- The number of the token's type; the end of input has a negative one. -/
  type : Int32
  /-- The text of the token. -/
  text : String
  /-- The line the token starts on. -/
  line : UInt32
  /-- The column the token starts at. -/
  column : UInt32
  /-- The position of the token among the tokens of the input. -/
  index : UInt64
  deriving DecidableEq

namespace Token

/-- The one-line form of a character: line feed, carriage return and tab become two-character
escapes. -/
def escapeChar (c : Char) : List Char :=
  if c = '\n' then ['\\', 'n']
  else if c = '\r' then ['\\', 'r']
  else if c = '\t' then ['\\', 't']
  else [c]

/-- The one-line form of a text. -/
def escape (text : String) : String := String.ofList (text.toList.flatMap escapeChar)

/-- A token on one line: index, escaped text, type and place. -/
def render (t : Token) : String :=
  "[@" ++ toString t.index.toNat ++ ",'" ++ escape t.text ++ "',<" ++ toString t.type.toInt ++
    ">," ++ toString t.line.toNat ++ ":" ++ toString t.column.toNat ++ "]"

@[simp] theorem toList_escape (text : String) :
    (escape text).toList = text.toList.flatMap escapeChar := by
  simp [escape]

/-- No escaped character is a line break or a tab. -/
theorem not_mem_escapeChar {c d : Char} (hd : d ∈ escapeChar c) :
    d ≠ '\n' ∧ d ≠ '\r' ∧ d ≠ '\t' := by
  unfold escapeChar at hd
  split at hd
  · simp at hd; rcases hd with rfl | rfl <;> decide
  · split at hd
    · simp at hd; rcases hd with rfl | rfl <;> decide
    · split at hd
      · simp at hd; rcases hd with rfl | rfl <;> decide
      · simp at hd; subst hd; exact ⟨‹_›, ‹_›, ‹_›⟩

end Token

end ParseListeners
