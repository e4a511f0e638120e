import ParseListeners.Token

/-!
# Faults of the input

A `Fault` says why a recognizer could not go on: the kind of mismatch, a message, and the token
it met.  Its text is that of the kind, followed by the message if there is one.
-/

namespace ParseListeners

/-- The ways in which input fails to match. -/
inductive Fault.Kind where
  /-- The next token is not the expected one. -/
  | inputMismatch
  /-- No alternative of the parser goes with the tokens ahead. -/
  | noViableAlternative
  /-- A semantic predicate of the grammar is false. -/
  | failedPredicate
  /-- No token of the lexer goes with the characters ahead. -/
  | lexerNoViableAlternative
  deriving DecidableEq

/-- The text of a kind of fault. -/
def Fault.Kind.text : Fault.Kind → String
  | .inputMismatch => "input mismatch"
  | .noViableAlternative => "no viable alternative"
  | .failedPredicate => "failed predicate"
  | .lexerNoViableAlternative => "lexer no viable alternative"

/-- The reason why a recognizer could not go on. -/
structure Fault where
  /-- The way in which the input fails to match. -/
  kind : Fault.Kind
  /-- More about it, or nothing. -/
  message : String
  /-- The token that was met. -/
  token : Option Token := none
  deriving DecidableEq

namespace Fault

/-- The fault with `t` as the token that was met, in place of any before. -/
def withToken (f : Fault) (t : Token) : Fault := { f with token := some t }

/-- The text of the kind, then a colon and the message unless that is empty. -/
def render (f : Fault) : String :=
  if f.message = "" then f.kind.text else f.kind.text ++ ": " ++ f.message

end Fault

end ParseListeners
