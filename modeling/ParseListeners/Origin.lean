import ParseListeners.Event

/-!
# Where events come from

An `Origin` is the side of a recognizer that listeners can read: its grammar, the names of its
rules and the text of its input.
-/

namespace ParseListeners

/-- What listeners can read of the recognizer that an event comes from. -/
structure Origin where
  /-- The number of the recognizer. -/
  index : Nat
  /-- The name of the grammar file. -/
  grammar : String
  /-- The names of the grammar's rules, in the order of their numbers. -/
  ruleNames : List String
  /-- The input text between two token positions, both included. -/
  inputText : UInt64 → UInt64 → String

namespace Origin

/-- The entries of `texts` at positions `start` to `stop`, both included, with `joiner` between
them; a range that is backwards or beyond the last entry has no text. -/
def joinedText (joiner : String) (texts : List String) (start stop : UInt64) : String :=
  joiner.intercalate ((texts.take (stop.toNat + 1)).drop start.toNat)

/-- A recognizer that has read tokens with the given texts. -/
def ofTexts (index : Nat) (grammar : String) (ruleNames texts : List String) (joiner : String) :
    Origin where
  index := index
  grammar := grammar
  ruleNames := ruleNames
  inputText := joinedText joiner texts

/-- The name of a rule, if it has one that is not empty. -/
def ruleName? (o : Origin) (rule : UInt64) : Option String :=
  o.ruleNames[rule.toNat]?.filter (· ≠ "")

/-- The number of a decision, followed by the name of its rule in parentheses if it has one. -/
def describe (o : Origin) (d : Decision) : String :=
  match o.ruleName? d.rule with
  | some name => toString d.number.toNat ++ " (" ++ name ++ ")"
  | none => toString d.number.toNat

end Origin

end ParseListeners
