import ParseListeners.Event
import ParseListeners.Failure

/-!
# Console output

A console writes one line per syntax error to a `Sink`, a byte sink of bounded capacity, and
flushes it.  `Sink.accepts` says how much of a line gets through, `Sink.writeError?` and
`Sink.flushError` why it stops: a line is written without error exactly when all of it fits
(`Sink.writeError?_eq_none_iff`).
-/

namespace ParseListeners

/-! ### Lines -/

/-- A message with its place in front. -/
def placedMessage (line column : UInt32) (message : String) : String :=
  "line " ++ toString line.toNat ++ ":" ++ toString column.toNat ++ " " ++ message

/-- The line that a console writes for a syntax error, with its line feed. -/
def SyntaxError.consoleLine (e : SyntaxError) : String :=
  placedMessage e.line e.column e.message ++ "\n"

/-- The bytes of a text in UTF-8. -/
def utf8 (text : String) : List UInt8 := text.toList.flatMap String.utf8EncodeChar

@[simp] theorem utf8_append (s t : String) : utf8 (s ++ t) = utf8 s ++ utf8 t := by
  simp [utf8]

/-! ### Sinks -/

/-- A sink for bytes. -/
structure Sink where
  /-- How many bytes the sink takes in all, if there is a limit. -/
  capacity : Option Nat := none
  /-- The sink's own error once it is full. -/
  fullError : Option IoError := none
  /-- The error of every flush. -/
  flushError : Option IoError := none
  deriving DecidableEq

namespace Sink

/-- The part of `bytes` that a sink takes after `used` bytes: as much as there is room for. -/
def accepts (s : Sink) (used : Nat) (bytes : List UInt8) : List UInt8 :=
  match s.capacity with
  | some capacity => bytes.take (capacity - used)
  | none => bytes

/-- The error of a full sink: its own, or that it takes no more bytes. -/
def overflow (s : Sink) : IoError := s.fullError.getD .writeZero

/-- The error, if any, of writing `bytes` after `used` bytes: some are left over. -/
def writeError? (s : Sink) (used : Nat) (bytes : List UInt8) : Option IoError :=
  if (s.accepts used bytes).length < bytes.length then some s.overflow else none

theorem accepts_of_unlimited {s : Sink} (h : s.capacity = none) (used : Nat)
    (bytes : List UInt8) : s.accepts used bytes = bytes := by
  simp [accepts, h]

theorem accepts_isPrefix (s : Sink) (used : Nat) (bytes : List UInt8) :
    s.accepts used bytes <+: bytes := by
  unfold accepts
  split
  · exact List.take_prefix _ _
  · exact List.prefix_rfl

theorem writeError?_eq_none_iff {s : Sink} {used : Nat} {bytes : List UInt8} :
    s.writeError? used bytes = none ↔ s.accepts used bytes = bytes := by
  have hp := accepts_isPrefix s used bytes
  simp only [writeError?, ite_eq_right_iff, reduceCtorEq, imp_false, Nat.not_lt]
  exact ⟨fun h => hp.eq_of_length_le h, fun h => by simp [h]⟩

end Sink

end ParseListeners
