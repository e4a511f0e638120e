import ParseListeners.Failure

/-!
# What stands behind a failure

What a failure tells in its text may have another error behind it, and that one another.
`Failure.Cause.behind?` goes from an error to what stands directly behind it, step by step;
`Failure.chain` lists what is met on the way (`Failure.behind?_failure`), so the way always ends.

An error with something behind it is a layer around that: its text is a heading of its own
(`Failure.Cause.heading?`) and then the text of what stands behind it
(`Failure.Cause.message_of_source?_eq_some`).  Hence each text that is met is a part of the one
before, without the heading (`Failure.chain_unfolds`).
-/

namespace ParseListeners

namespace Failure

namespace Cause

/-- What is met after some steps, each to what stands directly behind. -/
def behind? : Nat → Cause → Option Cause
  | 0, c => some c
  | n + 1, c => c.source?.bind (behind? n)

/-- The text that an error puts before the text of what stands behind it: an error of input or
output stands behind a line that could not be written, and behind a notification that went wrong
stands what went wrong. -/
def heading? : Cause → Option String
  | .failure (.io _) => some "failed to write diagnostic: "
  | .failure (.rejected ..) => none
  | .failure (.relayed _) => some notificationHeading
  | .failure (.refused _) => some notificationHeading
  | .failure (.aggregate _) => none
  | .io _ => none
  | .refusal _ => none

/-! ### One step -/

variable {c d : Cause}

/-- The text of what stands behind an error ends the text of the error. -/
theorem message_of_source?_eq_some (h : c.source? = some d) :
    ∃ heading, c.heading? = some heading ∧ heading ≠ "" ∧ c.message = heading ++ d.message := by
  cases c with
  | failure f =>
    cases f with
    | io e =>
      obtain rfl := Option.some.inj h
      exact ⟨_, rfl, by decide, rfl⟩
    | relayed inner =>
      obtain rfl := Option.some.inj h
      exact ⟨_, rfl, by decide, rfl⟩
    | refused cause =>
      obtain rfl := Option.some.inj h
      exact ⟨_, rfl, by decide, rfl⟩
    | rejected listener reason => cases h
    | aggregate failures => cases h
  | io e => cases h
  | refusal r => cases h

/-! ### Many steps -/

theorem behind?_succ (n : Nat) (c : Cause) : behind? (n + 1) c = (behind? n c).bind source? := by
  induction n generalizing c with
  | zero => cases h : c.source? <;> simp [behind?, h]
  | succ n ih =>
    cases h : c.source? with
    | none => simp [behind?, h]
    | some d =>
      have hd := ih d
      rw [behind?, h, Option.bind_some, hd, behind?, h, Option.bind_some]

theorem behind?_of_source?_eq_none (h : c.source? = none) (n : Nat) : behind? n c = [c][n]? := by
  cases n with
  | zero => rfl
  | succ n => simp [behind?, h]

end Cause

/-- The chain of a failure lists what is met behind it. -/
theorem behind?_failure : ∀ (f : Failure) (n : Nat),
    Cause.behind? n (.failure f) = (.failure f :: f.chain)[n]?
  | _, 0 => rfl
  | .io e, n + 1 => Cause.behind?_of_source?_eq_none (c := .io e) rfl n
  | .rejected .., _ + 1 => rfl
  | .relayed inner, n + 1 => behind?_failure inner n
  | .refused cause, n + 1 => Cause.behind?_of_source?_eq_none (c := .refusal cause) rfl n
  | .aggregate _, _ + 1 => rfl

theorem countP_heading? : ∀ f : Failure,
    ((Cause.failure f :: f.chain).countP fun c => c.heading?.isSome) = f.chain.length
  | .io _ => rfl
  | .rejected .. => rfl
  | .relayed inner => by
    rw [chain, List.countP_cons_of_pos rfl, countP_heading? inner, List.length_cons]
  | .refused _ => rfl
  | .aggregate _ => rfl

theorem source?_of_getElem? {f : Failure} {n : Nat} {c d : Cause}
    (hc : (.failure f :: f.chain)[n]? = some c) (hd : (.failure f :: f.chain)[n + 1]? = some d) :
    c.source? = some d := by
  rw [← behind?_failure] at hc hd
  rwa [Cause.behind?_succ, hc, Option.bind_some] at hd

/-- **The chain of a failure unfolds its text.**  The way from a failure to what stands behind it
ends, however deep failures are nested: it meets the entries of the chain, and then nothing.
Nothing stands behind a rejection and behind failures that are gathered; behind a line that could
not be written stands the error of input or output, and behind a notification what went wrong,
with the chain of its own if that is a failure.  There are as many entries as layers.  Each text
that is met, that of the failure first, is a heading and then the next text, which is shorter. -/
theorem chain_unfolds (f : Failure) :
    let met := Cause.failure f :: f.chain
    (∀ n, Cause.behind? n (.failure f) = met[n]?) ∧
      (∀ n, Cause.behind? n (.failure f) = none ↔ f.chain.length < n) ∧
      (f.chain = match f with
        | .io e => [.io e]
        | .rejected .. => []
        | .relayed inner => .failure inner :: inner.chain
        | .refused cause => [.refusal cause]
        | .aggregate _ => []) ∧
      (met.countP fun c => c.heading?.isSome) = f.chain.length ∧
      ∀ n c d, met[n]? = some c → met[n + 1]? = some d →
        ∃ heading, c.heading? = some heading ∧ c.message = heading ++ d.message ∧
          d.message.toList <:+ c.message.toList ∧ d.message ≠ c.message := by
  intro met
  refine ⟨behind?_failure f, fun n => ?_, ?_, countP_heading? f, fun n c d hc hd => ?_⟩
  · rw [behind?_failure, List.getElem?_eq_none_iff, List.length_cons, Nat.succ_le_iff]
  · cases f <;> rfl
  · obtain ⟨heading, hheading, hne, hmessage⟩ :=
      Cause.message_of_source?_eq_some (source?_of_getElem? hc hd)
    refine ⟨heading, hheading, hmessage, ?_, fun heq => hne ?_⟩
    · rw [hmessage, String.toList_append]
      exact List.suffix_append _ _
    · -- a text that is what ends it has nothing before that
      have hchars := congrArg String.toList hmessage
      rwa [heq, String.toList_append, List.self_eq_append_left, String.toList_eq_nil_iff] at hchars

end Failure

end ParseListeners
