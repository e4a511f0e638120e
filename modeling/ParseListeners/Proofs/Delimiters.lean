/-!
# Delimiters and numerals

A text that is put together from parts can be taken apart again where a part has only characters of
one kind and a delimiter of another kind stands next to it (`append_cons_inj_of_forall` from the
left, `append_singleton_append_inj_of_forall` from the right).  The parts that this is used for are
numerals (`IsNumeral`), which abut texts with any characters at all.
-/

namespace ParseListeners

/-! ### Runs of one kind -/

section Runs

variable {α : Type} {p : α → Prop} {x y z w : List α} {a b : α}

/-- Two lists that begin with a run of one kind are equal if the runs, the elements that end them
and the rests are. -/
theorem append_cons_inj_of_forall (hx : ∀ c ∈ x, p c) (hy : ∀ c ∈ y, p c) (ha : ¬p a) (hb : ¬p b) :
    x ++ a :: z = y ++ b :: w ↔ x = y ∧ a = b ∧ z = w := by
  induction x generalizing y with
  | nil =>
    cases y with
    | nil => simp
    | cons d y =>
      have had : a ≠ d := fun h => ha (h ▸ hy d List.mem_cons_self)
      simp [had]
  | cons c x ih =>
    rw [List.forall_mem_cons] at hx
    cases y with
    | nil =>
      have hcb : c ≠ b := fun h => hb (h ▸ hx.1)
      simp [hcb]
    | cons d y =>
      rw [List.forall_mem_cons] at hy
      simp [ih hx.2 hy.2, and_assoc]

theorem append_cons_inj_of_not_mem (hx : a ∉ x) (hy : a ∉ y) :
    x ++ a :: z = y ++ a :: w ↔ x = y ∧ z = w := by
  have hne : ∀ l : List α, a ∉ l → ∀ c ∈ l, c ≠ a := fun _ hl _ hc heq => hl (heq ▸ hc)
  rw [append_cons_inj_of_forall (hne x hx) (hne y hy) (not_not_intro rfl) (not_not_intro rfl),
    and_iff_right rfl]

/-- Two lists that end with a run of one kind after the same element are equal if the runs and what
is before them are. -/
theorem append_singleton_append_inj_of_forall (hz : ∀ c ∈ z, p c) (hw : ∀ c ∈ w, p c) (ha : ¬p a) :
    x ++ [a] ++ z = y ++ [a] ++ w ↔ x = y ∧ z = w := by
  have hback := @append_cons_inj_of_forall α p z.reverse w.reverse x.reverse y.reverse a a
    (by simpa using hz) (by simpa using hw) ha ha
  rw [← List.reverse_inj]
  simpa [and_comm] using hback

end Runs

/-! ### Numerals -/

/-- The character occurs in numerals. -/
def IsNumeral (c : Char) : Prop := c.isDigit = true ∨ c = '-'

instance (c : Char) : Decidable (IsNumeral c) :=
  inferInstanceAs (Decidable (c.isDigit = true ∨ c = '-'))

theorem isDigit_of_mem_toString {n : Nat} {c : Char} (h : c ∈ (toString n).toList) :
    c.isDigit = true := by
  rw [Nat.toString_eq_ofList_toDigits, String.toList_ofList] at h
  exact Nat.isDigit_of_mem_toDigits (by omega) (by omega) h

theorem exists_toString_eq_cons (n : Nat) :
    ∃ c rest, (toString n).toList = c :: rest ∧ c.isDigit = true := by
  cases h : (toString n).toList with
  | nil =>
    rw [Nat.toString_eq_ofList_toDigits, String.toList_ofList] at h
    exact absurd h Nat.toDigits_ne_nil
  | cons c rest => exact ⟨c, rest, rfl, isDigit_of_mem_toString (h ▸ List.mem_cons_self)⟩

theorem isNumeral_of_mem_toString {n : Nat} {c : Char} (h : c ∈ (toString n).toList) :
    IsNumeral c :=
  .inl (isDigit_of_mem_toString h)

theorem toString_int_negSucc (n : Nat) : toString (Int.negSucc n) = "-" ++ toString (n + 1) := rfl

theorem isNumeral_of_mem_toString_int {i : Int} {c : Char} (h : c ∈ (toString i).toList) :
    IsNumeral c := by
  cases i with
  | ofNat n => exact isNumeral_of_mem_toString h
  | negSucc n =>
    rw [toString_int_negSucc, String.toList_append] at h
    rcases List.mem_append.1 h with h | h
    · exact .inr (List.mem_singleton.1 h)
    · exact isNumeral_of_mem_toString h

theorem toString_inj {m n : Nat} : toString m = toString n ↔ m = n := by
  refine ⟨fun h => ?_, fun h => h ▸ rfl⟩
  rw [Nat.toString_eq_ofList_toDigits, Nat.toString_eq_ofList_toDigits, String.ofList_inj] at h
  rw [← @Nat.ofDigitChars_ten_toDigits m, h, Nat.ofDigitChars_ten_toDigits]

/-- A numeral at the beginning ends where a character stands that does not occur in numerals. -/
theorem toString_append_cons_inj {m n : Nat} {a b : Char} {z w : List Char} (ha : ¬IsNumeral a)
    (hb : ¬IsNumeral b) :
    (toString m).toList ++ a :: z = (toString n).toList ++ b :: w ↔ m = n ∧ a = b ∧ z = w := by
  rw [append_cons_inj_of_forall (fun _ => isNumeral_of_mem_toString)
    (fun _ => isNumeral_of_mem_toString) ha hb, String.toList_inj, toString_inj]

theorem toString_ne_neg (m n : Nat) : toString m ≠ "-" ++ toString (n + 1) := by
  intro h
  have hminus : '-' ∈ (toString m).toList := by
    rw [h, String.toList_append]
    exact List.mem_append_left _ (List.mem_singleton.2 rfl)
  exact absurd (isDigit_of_mem_toString hminus) (by decide)

theorem toString_int_inj {i j : Int} : toString i = toString j ↔ i = j := by
  refine ⟨fun h => ?_, fun h => h ▸ rfl⟩
  cases i with
  | ofNat m =>
    cases j with
    | ofNat n => exact congrArg Int.ofNat (toString_inj.1 h)
    | negSucc n => exact absurd h (toString_ne_neg m n)
  | negSucc m =>
    cases j with
    | ofNat n => exact absurd h.symm (toString_ne_neg n m)
    | negSucc n =>
      rw [toString_int_negSucc, toString_int_negSucc, String.append_right_inj, toString_inj] at h
      exact congrArg Int.negSucc (Nat.succ.inj h)

end ParseListeners
