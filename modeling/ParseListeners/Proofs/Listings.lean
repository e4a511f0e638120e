import ParseListeners.Proofs.AlternativesText
import ParseListeners.Proofs.Histories

/-!
# Reading sets of alternatives

The text of a set is a listing: decimals in braces, with a comma and a blank between them
(`Alternatives.IsListing`).  `Alternatives.readListing` reads any listing, and nothing else
(`Alternatives.readListing_eq_some_iff`); `Alternatives.read?` makes a set of the numbers.

A listing may have zeros in front of its decimals, and its numbers may be too large or in the wrong
order.  The texts of sets are the listings that have none of this
(`Alternatives.exists_render_eq_iff`), so a set can be read back from its text
(`Alternatives.read?_render`).
-/

namespace ParseListeners

/-! ### Decimals -/

/-- A decimal: one digit or more. -/
structure IsDecimal (d : List Char) : Prop where
  /-- There is a digit. -/
  ne_nil : d ≠ []
  /-- There are only digits. -/
  isDigit : ∀ c ∈ d, c.isDigit = true

/-- The number that a decimal stands for. -/
def decimalValue (d : List Char) : Nat := Nat.ofDigitChars 10 d 0

/-- There is no zero in front that could be left out. -/
def IsPlain (d : List Char) : Prop := d.head? = some '0' → d = ['0']

theorem isDecimal_toString (n : Nat) : IsDecimal (toString n).toList := by
  obtain ⟨c, rest, hc, -⟩ := exists_toString_eq_cons n
  refine ⟨?_, fun _ => isDigit_of_mem_toString⟩
  rw [hc]
  exact List.cons_ne_nil c rest

theorem decimalValue_toString (n : Nat) : decimalValue (toString n).toList = n := by
  rw [Nat.toString_eq_ofList_toDigits, String.toList_ofList, decimalValue,
    Nat.ofDigitChars_ten_toDigits]

theorem head?_toDigits_ne {n : Nat} (h : 0 < n) : (Nat.toDigits 10 n).head? ≠ some '0' := by
  induction n using Nat.base_induction 10 (by decide) with
  | single m hm =>
    rw [Nat.toDigits_of_lt_base hm, List.head?_cons]
    simp only [ne_eq, Option.some.injEq, Nat.digitChar_eq_zero]
    omega
  | digit m k hk hm ih =>
    -- the last digit is put behind others, and these are not all zero
    rw [← Nat.toDigits_append_toDigits (by decide) hm hk,
      List.head?_append_of_ne_nil _ Nat.toDigits_ne_nil]
    exact ih hm

theorem isPlain_toString (n : Nat) : IsPlain (toString n).toList := by
  intro h
  rw [Nat.toString_eq_ofList_toDigits, String.toList_ofList] at h ⊢
  cases n with
  | zero => rfl
  | succ n => exact absurd h (head?_toDigits_ne (Nat.succ_pos n))

theorem toDigits_of_isDigit {c : Char} (h : c.isDigit = true) :
    c.toNat - '0'.toNat < 10 ∧ Nat.toDigits 10 (c.toNat - '0'.toNat) = [c] := by
  obtain ⟨hle, hge⟩ : 48 ≤ c.toNat ∧ c.toNat ≤ 57 := Char.isDigit_iff_toNat.1 h
  change c.toNat - 48 < 10 ∧ Nat.toDigits 10 (c.toNat - 48) = [c]
  have hlt : c.toNat - 48 < 10 := by omega
  refine ⟨hlt, ?_⟩
  rw [Nat.toDigits_of_lt_base hlt, List.cons.injEq, and_iff_left rfl, ← Char.toNat_inj,
    Nat.toNat_digitChar_of_lt_ten hlt]
  omega

/-- Digits that are written after the numeral of a number make the numeral of a larger one, unless
the number is zero. -/
theorem toDigits_append {n : Nat} (hn : 0 < n) {d : List Char} (hd : ∀ c ∈ d, c.isDigit = true) :
    Nat.toDigits 10 n ++ d = Nat.toDigits 10 (Nat.ofDigitChars 10 d n) := by
  induction d generalizing n with
  | nil => rw [List.append_nil, Nat.ofDigitChars_nil]
  | cons c d ih =>
    rw [List.forall_mem_cons] at hd
    obtain ⟨hlt, hdigit⟩ := toDigits_of_isDigit hd.1
    calc Nat.toDigits 10 n ++ c :: d
      _ = Nat.toDigits 10 n ++ Nat.toDigits 10 (c.toNat - '0'.toNat) ++ d := by
        rw [hdigit, List.append_assoc, List.singleton_append]
      _ = Nat.toDigits 10 (10 * n + (c.toNat - '0'.toNat)) ++ d := by
        rw [Nat.toDigits_append_toDigits (by decide) hn hlt]
      _ = Nat.toDigits 10 (Nat.ofDigitChars 10 d (10 * n + (c.toNat - '0'.toNat))) :=
        ih (by omega) hd.2
      _ = Nat.toDigits 10 (Nat.ofDigitChars 10 (c :: d) n) := by rw [Nat.ofDigitChars_cons]

/-- A decimal without needless zeros is the numeral of its value. -/
theorem toString_decimalValue {d : List Char} (hd : IsDecimal d) (hplain : IsPlain d) :
    (toString (decimalValue d)).toList = d := by
  rw [Nat.toString_eq_ofList_toDigits, String.toList_ofList]
  by_cases hzero : d.head? = some '0'
  · rw [hplain hzero]
    rfl
  · obtain ⟨c, rest, rfl⟩ := List.exists_cons_of_ne_nil hd.ne_nil
    have hdigits := hd.isDigit
    rw [List.forall_mem_cons] at hdigits
    obtain ⟨-, hdigit⟩ := toDigits_of_isDigit hdigits.1
    -- the first digit is not zero, so the others follow the numeral of a number that is not zero
    have hpos : 0 < c.toNat - '0'.toNat := by
      rw [Nat.pos_iff_ne_zero]
      intro h
      rw [h, Nat.toDigits_zero] at hdigit
      exact hzero (congrArg List.head? hdigit.symm)
    rw [decimalValue, Nat.ofDigitChars_cons, Nat.mul_zero, Nat.zero_add,
      ← toDigits_append hpos hdigits.2, hdigit, List.singleton_append]

namespace Alternatives

/-! ### Listings -/

/-- The texts of decimals after the first one, each after a comma and a blank. -/
def followed (ds : List (List Char)) : List Char := ds.flatMap fun d => ", ".toList ++ d

/-- A text is a listing of decimals: they stand in braces, with a comma and a blank between them. -/
inductive IsListing : List (List Char) → List Char → Prop
  /-- There may be none. -/
  | empty : IsListing [] ['\x7b', '\x7d']
  /-- There may be one, with more behind it. -/
  | decimals {d : List Char} {ds : List (List Char)} (h : ∀ e ∈ d :: ds, IsDecimal e) :
    IsListing (d :: ds) ('\x7b' :: (d ++ followed ds ++ ['\x7d']))

theorem IsListing.isDecimal {ds : List (List Char)} {chars : List Char} (h : IsListing ds chars) :
    ∀ d ∈ ds, IsDecimal d := by
  cases h with
  | empty => simp
  | decimals h => exact h

theorem IsListing.text_eq {ds : List (List Char)} {chars chars' : List Char}
    (h : IsListing ds chars) (h' : IsListing ds chars') : chars = chars' := by
  cases h <;> cases h' <;> rfl

/-! ### Reading listings -/

/-- The decimal at the beginning, as far as it goes, and what comes after it. -/
def readDecimal (chars : List Char) : Option (Nat × List Char) :=
  let digits := chars.takeWhile Char.isDigit
  if digits = [] then none else some (decimalValue digits, chars.dropWhile Char.isDigit)

variable {chars rest d : List Char} {ds : List (List Char)} {n : Nat} {ns : List Nat}

theorem readDecimal_append (hd : IsDecimal d) {c : Char} (hc : c.isDigit = false)
    (rest : List Char) : readDecimal (d ++ c :: rest) = some (decimalValue d, c :: rest) := by
  have hneg : ¬c.isDigit = true := by simp [hc]
  rw [readDecimal, List.takeWhile_append_of_pos hd.isDigit, List.takeWhile_cons_of_neg hneg,
    List.append_nil, if_neg hd.ne_nil, List.dropWhile_append_of_pos hd.isDigit,
    List.dropWhile_cons_of_neg hneg]

theorem of_readDecimal_eq_some (h : readDecimal chars = some (n, rest)) :
    ∃ d, IsDecimal d ∧ decimalValue d = n ∧ chars = d ++ rest := by
  simp only [readDecimal] at h
  by_cases hne : chars.takeWhile Char.isDigit = []
  · rw [if_pos hne] at h
    cases h
  · rw [if_neg hne] at h
    obtain ⟨rfl, rfl⟩ := Prod.mk.inj (Option.some.inj h)
    refine ⟨_, ⟨hne, fun c hc => ?_⟩, rfl, List.takeWhile_append_dropWhile.symm⟩
    exact List.all_eq_true.1 List.all_takeWhile c hc

theorem length_lt_of_readDecimal (h : readDecimal chars = some (n, rest)) :
    rest.length < chars.length := by
  obtain ⟨d, hd, -, rfl⟩ := of_readDecimal_eq_some h
  have hpos := List.length_pos_iff.2 hd.ne_nil
  rw [List.length_append]
  omega

/-- The numbers of a listing, from the first decimal on. -/
def readDecimals (chars : List Char) : Option (List Nat) :=
  match _h : readDecimal chars with
  | some (n, ['\x7d']) => some [n]
  | some (n, ',' :: ' ' :: rest) => (readDecimals rest).map (n :: ·)
  | _ => none
termination_by chars.length
decreasing_by
  have hlt := length_lt_of_readDecimal _h
  simp only [List.length_cons] at hlt
  omega

/-- The numbers of a listing. -/
def readListing (text : String) : Option (List Nat) :=
  match text.toList with
  | '\x7b' :: rest => if rest = ['\x7d'] then some [] else readDecimals rest
  | _ => none

theorem readDecimals_append (h : ∀ e ∈ d :: ds, IsDecimal e) :
    readDecimals (d ++ followed ds ++ ['\x7d']) = some ((d :: ds).map decimalValue) := by
  induction ds generalizing d with
  | nil =>
    have hread : readDecimal (d ++ followed [] ++ ['\x7d']) = some (decimalValue d, ['\x7d']) := by
      rw [followed, List.flatMap_nil, List.append_nil]
      exact readDecimal_append (h d List.mem_cons_self) rfl []
    rw [readDecimals, hread]
    rfl
  | cons e ds ih =>
    rw [List.forall_mem_cons] at h
    have hread : readDecimal (d ++ followed (e :: ds) ++ ['\x7d']) =
        some (decimalValue d, ',' :: ' ' :: (e ++ followed ds ++ ['\x7d'])) := by
      rw [List.append_assoc]
      exact readDecimal_append h.1 rfl _
    rw [readDecimals, hread]
    simp only [ih h.2, Option.map_some, List.map_cons]

theorem of_readDecimals_eq_some (h : readDecimals chars = some ns) :
    ∃ d ds, (∀ e ∈ d :: ds, IsDecimal e) ∧ chars = d ++ followed ds ++ ['\x7d'] ∧
      (d :: ds).map decimalValue = ns := by
  fun_induction readDecimals chars generalizing ns with
  | case1 chars n hread =>
    obtain ⟨d, hd, rfl, rfl⟩ := of_readDecimal_eq_some hread
    obtain rfl := Option.some.inj h
    exact ⟨d, [], by simpa using hd, by simp [followed], rfl⟩
  | case2 chars n rest hread ih =>
    obtain ⟨d, hd, rfl, rfl⟩ := of_readDecimal_eq_some hread
    obtain ⟨ms, hms, rfl⟩ := Option.map_eq_some_iff.1 h
    obtain ⟨e, ds, hds, rfl, rfl⟩ := ih hms
    refine ⟨d, e :: ds, List.forall_mem_cons.2 ⟨hd, hds⟩, ?_, rfl⟩
    simp [followed]
  | case3 => cases h

/-- **A text is read exactly if it is a listing**, and what is read are its numbers. -/
theorem readListing_eq_some_iff {text : String} :
    readListing text = some ns ↔ ∃ ds, IsListing ds text.toList ∧ ds.map decimalValue = ns := by
  unfold readListing
  constructor
  · intro h
    split at h
    · rename_i rest htext
      rw [htext]
      by_cases hempty : rest = ['\x7d']
      · rw [if_pos hempty] at h
        obtain rfl := Option.some.inj h
        exact ⟨[], hempty ▸ .empty, rfl⟩
      · rw [if_neg hempty] at h
        obtain ⟨d, ds, hds, rfl, rfl⟩ := of_readDecimals_eq_some h
        exact ⟨d :: ds, .decimals hds, rfl⟩
    · cases h
  · rintro ⟨ds, h, rfl⟩
    generalize text.toList = chars at h
    cases h with
    | empty => rfl
    | @decimals d ds hds =>
      -- a first decimal takes room
      have hne : d ++ followed ds ++ ['\x7d'] ≠ ['\x7d'] := by
        rw [ne_eq, List.append_left_eq_self, List.append_eq_nil_iff]
        exact fun hnil => (hds d List.mem_cons_self).ne_nil hnil.1
      simp only [if_neg hne]
      exact readDecimals_append hds

-- a listing that is not the text of a set
example : readListing "\x7b07, 7, 300\x7d" = some [7, 7, 300] := by cbv

/-- The set of the numbers of a listing. -/
def read? (text : String) : Option Alternatives :=
  (readListing text).map fun ns => ofList (ns.map UInt64.ofNat)

/-! ### Texts of sets -/

/-- The numerals of the members of a set, smallest first. -/
def numerals (s : Alternatives) : List (List Char) :=
  s.toList.map fun n => (toString n.toNat).toList

variable {s t : Alternatives}

theorem map_decimalValue_numerals (s : Alternatives) :
    s.numerals.map decimalValue = s.toList.map UInt64.toNat := by
  rw [numerals, List.map_map]
  exact List.map_congr_left fun n _ => decimalValue_toString n.toNat

/-- The text of a set is the listing of its members. -/
theorem isListing_render (s : Alternatives) : IsListing s.numerals s.render.toList := by
  rw [toList_render, numerals]
  have hdecimals : ∀ ns : List UInt64, ∀ d ∈ ns.map fun n => (toString n.toNat).toList,
      IsDecimal d := by
    intro ns d hd
    obtain ⟨n, -, rfl⟩ := List.mem_map.1 hd
    exact isDecimal_toString n.toNat
  cases s.toList with
  | nil => exact .empty
  | cons n ns =>
    have hfurther : further ns = followed (ns.map fun n => (toString n.toNat).toList) := by
      rw [further, followed, List.flatMap_map]
    rw [body, hfurther]
    exact .decimals (hdecimals (n :: ns))

theorem ofList_toList (s : Alternatives) : ofList s.toList = s :=
  ext_mem fun _ => mem_ofList

theorem readListing_render (s : Alternatives) :
    readListing s.render = some (s.toList.map UInt64.toNat) :=
  readListing_eq_some_iff.2 ⟨s.numerals, isListing_render s, map_decimalValue_numerals s⟩

/-- A set is read back from its text. -/
theorem read?_render (s : Alternatives) : read? s.render = some s := by
  rw [read?, readListing_render, Option.map_some, List.map_map]
  have hmembers : s.toList.map (UInt64.ofNat ∘ UInt64.toNat) = s.toList := by
    simp [Function.comp_def]
  rw [hmembers, ofList_toList]

theorem render_inj : s.render = t.render ↔ s = t := by
  refine ⟨fun h => ?_, congrArg render⟩
  have hread := read?_render s
  rw [h, read?_render] at hread
  exact (Option.some.inj hread).symm

/-- **The texts of sets are the listings** of numbers that are not too large, without needless
zeros, and strictly ascending. -/
theorem exists_render_eq_iff {text : String} :
    (∃ s : Alternatives, s.render = text) ↔
      ∃ ds, IsListing ds text.toList ∧ (∀ d ∈ ds, decimalValue d < UInt64.size ∧ IsPlain d) ∧
        (ds.map decimalValue).Pairwise (· < ·) := by
  constructor
  · rintro ⟨s, rfl⟩
    refine ⟨s.numerals, isListing_render s, fun d hd => ?_, ?_⟩
    · obtain ⟨n, -, rfl⟩ := List.mem_map.1 hd
      rw [decimalValue_toString]
      exact ⟨n.toNat_lt_size, isPlain_toString n.toNat⟩
    · rw [map_decimalValue_numerals, List.pairwise_map]
      exact s.ascending
  · rintro ⟨ds, hlisting, hds, hascending⟩
    have hvalue : ∀ d ∈ ds, (UInt64.ofNat (decimalValue d)).toNat = decimalValue d :=
      fun d hd => UInt64.toNat_ofNat_of_lt (hds d hd).1
    have hmembers : (ds.map fun d => UInt64.ofNat (decimalValue d)).Pairwise (· < ·) := by
      rw [List.pairwise_map] at hascending ⊢
      refine hascending.imp_of_mem fun {d e} hd he hlt => ?_
      rwa [UInt64.lt_iff_toNat_lt, hvalue d hd, hvalue e he]
    let s : Alternatives := ⟨_, hmembers⟩
    -- each decimal is the numeral of the member that it stands for
    have hnumerals : s.numerals = ds := by
      refine List.map_map.trans ((List.map_congr_left fun d hd => ?_).trans ds.map_id)
      have hplain := toString_decimalValue (hlisting.isDecimal d hd) (hds d hd).2
      rwa [← hvalue d hd] at hplain
    refine ⟨s, String.toList_inj.1 ((isListing_render s).text_eq ?_)⟩
    rwa [hnumerals]

theorem describe_inj : s.describe = t.describe ↔ s = t := by
  rw [describe, describe, String.append_right_inj, render_inj]

theorem exists_outcome_eq (s : Alternatives) : ∃ h : History, h.outcome = s :=
  ⟨.collected s.toList, ofList_toList s⟩

/-- **The text of a set of alternatives can be read back.**  There is a reader of listings, which
reads these and nothing else.  From the text of a set, however it was made, it reads the members,
and these make the set again.  So two sets have the same text, plain or among values of other kinds,
if and only if they are equal.  The texts of sets are the listings of numbers that are not too
large, without needless zeros, and strictly ascending. -/
theorem render_reads_back :
    (∀ text ns, readListing text = some ns ↔
      ∃ ds, IsListing ds text.toList ∧ ds.map decimalValue = ns) ∧
    (∀ h : History, let s := h.outcome
      readListing s.render = some (s.toList.map UInt64.toNat) ∧ read? s.render = some s ∧
        ∀ h' : History, (s.render = h'.outcome.render ↔ s = h'.outcome) ∧
          (s.describe = h'.outcome.describe ↔ s = h'.outcome)) ∧
    ∀ text : String, (∃ h : History, h.outcome.render = text) ↔
      ∃ ds, IsListing ds text.toList ∧ (∀ d ∈ ds, decimalValue d < UInt64.size ∧ IsPlain d) ∧
        (ds.map decimalValue).Pairwise (· < ·) := by
  refine ⟨fun text ns => readListing_eq_some_iff, fun h => ?_, fun text => ?_⟩
  · exact ⟨readListing_render _, read?_render _, fun h' => ⟨render_inj, describe_inj⟩⟩
  · rw [← exists_render_eq_iff]
    constructor
    · rintro ⟨h, htext⟩
      exact ⟨h.outcome, htext⟩
    · rintro ⟨s, htext⟩
      obtain ⟨h, rfl⟩ := exists_outcome_eq s
      exact ⟨h, htext⟩

end Alternatives

end ParseListeners
