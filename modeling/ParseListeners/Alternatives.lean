/-!
# Sets of alternatives

`Alternatives` is a finite set of alternative numbers.  It is kept as the strictly ascending list
of its members, in which a binary search (`Alternatives.search`) finds a number or the place for it.
Two sets with the same members are equal (`Alternatives.ext_mem`), and every text made from a set
lists its members in order.
-/

namespace ParseListeners

/-- A finite set of alternative numbers, as the ascending list of its members. -/
structure Alternatives where
  /-- The members, smallest first. -/
  toList : List UInt64
  /-- Each member is smaller than all that follow it. -/
  ascending : toList.Pairwise (· < ·)
  deriving DecidableEq

namespace Alternatives

instance : EmptyCollection Alternatives := ⟨⟨[], .nil⟩⟩

instance : Inhabited Alternatives := ⟨∅⟩

instance : Membership UInt64 Alternatives := ⟨fun s n => n ∈ s.toList⟩

instance (n : UInt64) (s : Alternatives) : Decidable (n ∈ s) :=
  inferInstanceAs (Decidable (n ∈ s.toList))

theorem mem_def {n : UInt64} {s : Alternatives} : n ∈ s ↔ n ∈ s.toList := Iff.rfl

/-! ### Search -/

/-- Where a number is in an ascending list, or where it belongs. -/
inductive Place where
  /-- The number is at the position. -/
  | found (position : Nat)
  /-- The number is missing; it belongs at the position. -/
  | missing (position : Nat)
  deriving DecidableEq

/-- The place of `n` among the entries of `ms` from position `lo` on and before position `hi`.  Each
step looks at the entry in the middle and goes on in the half where `n` belongs. -/
def searchBetween (n : UInt64) (ms : List UInt64) (lo hi : Nat) (hhi : hi ≤ ms.length) : Place :=
  if h : lo < hi then
    let mid := lo + (hi - lo) / 2
    have hmid : mid < ms.length := by omega
    if ms[mid] < n then searchBetween n ms (mid + 1) hi hhi
    else if n < ms[mid] then searchBetween n ms lo mid (by omega)
    else .found mid
  else .missing lo
termination_by hi - lo

/-- The place of `n` in an ascending list. -/
def search (n : UInt64) (ms : List UInt64) : Place :=
  searchBetween n ms 0 ms.length (Nat.le_refl _)

/-- It is the place of `n`: `n` is there, or all smaller numbers are before it and all larger ones
after it. -/
def Place.IsPlaceOf (n : UInt64) (ms : List UInt64) : Place → Prop
  | .found i => ms[i]? = some n
  | .missing i => ∃ smaller larger, ms = smaller ++ larger ∧ i = smaller.length ∧
      (∀ m ∈ smaller, m < n) ∧ ∀ m ∈ larger, n < m

theorem searchBetween_isPlaceOf {n : UInt64} {ms : List UInt64} (h : ms.Pairwise (· < ·))
    {lo hi : Nat} (hhi : hi ≤ ms.length) (hlo : lo ≤ hi)
    (hbelow : ∀ i (hi : i < ms.length), i < lo → ms[i] < n)
    (habove : ∀ i (hi' : i < ms.length), hi ≤ i → n < ms[i]) :
    (searchBetween n ms lo hi hhi).IsPlaceOf n ms := by
  have hascending := List.pairwise_iff_getElem.1 h
  fun_induction searchBetween n ms lo hi hhi with
  | case1 lo hi hhi hlt mid hmid hless ih =>
    -- the entries up to the middle one are smaller than it
    refine ih (by omega) (fun i hi hle => ?_) habove
    rcases Nat.lt_or_eq_of_le (Nat.le_of_lt_succ hle) with hlt | rfl
    · exact UInt64.lt_trans (hascending i mid hi hmid hlt) hless
    · exact hless
  | case2 lo hi hhi hlt mid hmid hnotless hlarger ih =>
    -- the entries from the middle one on are larger than it
    refine ih (by omega) hbelow fun i hi hle => ?_
    rcases Nat.lt_or_eq_of_le hle with hlt | rfl
    · exact UInt64.lt_trans hlarger (hascending mid i hmid hi hlt)
    · exact hlarger
  | case3 lo hi hhi hlt mid hmid hnotless hnotlarger =>
    have heq : ms[mid] = n :=
      UInt64.le_antisymm (UInt64.not_lt.1 hnotlarger) (UInt64.not_lt.1 hnotless)
    simp only [Place.IsPlaceOf, List.getElem?_eq_getElem hmid, heq]
  | case4 lo hi hhi hdone =>
    refine ⟨ms.take lo, ms.drop lo, (List.take_append_drop lo ms).symm, ?_, ?_, ?_⟩
    · rw [List.length_take]
      omega
    · intro m hm
      obtain ⟨i, hi, rfl⟩ := List.mem_take_iff_getElem.1 hm
      exact hbelow i (by omega) (by omega)
    · intro m hm
      obtain ⟨i, hi, rfl⟩ := List.mem_drop_iff_getElem.1 hm
      exact habove (lo + i) (by omega) (by omega)

theorem search_isPlaceOf (n : UInt64) {ms : List UInt64} (h : ms.Pairwise (· < ·)) :
    (search n ms).IsPlaceOf n ms :=
  searchBetween_isPlaceOf h (Nat.le_refl _) (Nat.zero_le _) (fun i _ hi => absurd hi (by omega))
    fun i hi hle => absurd hi (by omega)

/-! ### Insertion -/

/-- Puts `n` in its place in an ascending list unless it is there already, and tells whether it was
new. -/
def put (n : UInt64) (ms : List UInt64) : Bool × List UInt64 :=
  match search n ms with
  | .found _ => (false, ms)
  | .missing i => (true, ms.insertIdx i n)

theorem insertIdx_length_append (n : UInt64) (smaller larger : List UInt64) :
    (smaller ++ larger).insertIdx smaller.length n = smaller ++ n :: larger := by
  induction smaller with
  | nil => simp
  | cons m smaller ih => simp [List.insertIdx_succ_cons, ih]

/-- Putting a number in an ascending list changes nothing if it is there, and otherwise puts it
between the smaller and the larger ones. -/
theorem put_cases (n : UInt64) {ms : List UInt64} (h : ms.Pairwise (· < ·)) :
    (n ∈ ms ∧ put n ms = (false, ms)) ∨
      (n ∉ ms ∧ ∃ smaller larger, ms = smaller ++ larger ∧ (∀ m ∈ smaller, m < n) ∧
        (∀ m ∈ larger, n < m) ∧ put n ms = (true, smaller ++ n :: larger)) := by
  have hplace := search_isPlaceOf n h
  cases hsearch : search n ms with
  | found i =>
    rw [hsearch] at hplace
    exact .inl ⟨List.mem_of_getElem? hplace, by simp only [put, hsearch]⟩
  | missing i =>
    rw [hsearch] at hplace
    obtain ⟨smaller, larger, rfl, rfl, hsmaller, hlarger⟩ := hplace
    refine .inr ⟨fun hn => ?_, smaller, larger, rfl, hsmaller, hlarger, ?_⟩
    · rcases List.mem_append.1 hn with hn | hn
      · exact UInt64.lt_irrefl n (hsmaller n hn)
      · exact UInt64.lt_irrefl n (hlarger n hn)
    · simp only [put, hsearch, insertIdx_length_append]

theorem put_ascending (n : UInt64) {ms : List UInt64} (h : ms.Pairwise (· < ·)) :
    (put n ms).2.Pairwise (· < ·) := by
  rcases put_cases n h with ⟨-, hput⟩ | ⟨-, smaller, larger, rfl, hsmaller, hlarger, hput⟩
  · rw [hput]
    exact h
  · obtain ⟨hs, hl, hbetween⟩ := List.pairwise_append.1 h
    rw [hput]
    refine List.pairwise_append.2 ⟨hs, List.pairwise_cons.2 ⟨hlarger, hl⟩, fun m hm k hk => ?_⟩
    rcases List.mem_cons.1 hk with rfl | hk
    · exact hsmaller m hm
    · exact hbetween m hm k hk

/-- Puts `n` in and tells whether it was new. -/
def add (s : Alternatives) (n : UInt64) : Bool × Alternatives :=
  let result := put n s.toList
  (result.1, ⟨result.2, put_ascending n s.ascending⟩)

/-- The set with `n` put in. -/
def insert (s : Alternatives) (n : UInt64) : Alternatives := (s.add n).2

/-- The set of the numbers of a list, in any order and with repetitions. -/
def ofList (ns : List UInt64) : Alternatives := ns.foldl insert ∅

@[simp] theorem not_mem_empty (n : UInt64) : n ∉ (∅ : Alternatives) := List.not_mem_nil

theorem toList_insert (s : Alternatives) (n : UInt64) :
    (s.insert n).toList = (put n s.toList).2 := rfl

@[simp] theorem mem_insert {s : Alternatives} {n k : UInt64} :
    k ∈ s.insert n ↔ k = n ∨ k ∈ s := by
  rw [mem_def, mem_def, toList_insert]
  rcases put_cases n s.ascending with ⟨hn, hput⟩ | ⟨-, smaller, larger, heq, -, -, hput⟩
  · rw [hput]
    exact ⟨.inr, fun h => h.elim (fun hk => hk ▸ hn) id⟩
  · rw [hput, heq, List.mem_append, List.mem_cons, List.mem_append, or_left_comm]

@[simp] theorem insert_of_mem {s : Alternatives} {n : UInt64} (h : n ∈ s) : s.insert n = s := by
  obtain ⟨ms, hms⟩ := s
  rcases put_cases n hms with ⟨-, hput⟩ | ⟨hn, -⟩
  · simp only [insert, add, hput]
  · exact absurd h hn

/-- A number is new exactly if it was no member. -/
theorem add_eq (s : Alternatives) (n : UInt64) : s.add n = (decide (n ∉ s), s.insert n) := by
  refine Prod.ext ?_ rfl
  change (put n s.toList).1 = decide (n ∉ s.toList)
  rcases put_cases n s.ascending with ⟨hn, hput⟩ | ⟨hn, _, _, -, -, -, hput⟩
  · simp only [hput, hn, not_true_eq_false, decide_false]
  · simp only [hput, hn, not_false_eq_true, decide_true]

/-- Membership in a set built up by insertions. -/
theorem mem_foldl_insert {ns : List UInt64} {s : Alternatives} {k : UInt64} :
    k ∈ ns.foldl insert s ↔ k ∈ ns ∨ k ∈ s := by
  induction ns generalizing s with
  | nil => simp
  | cons n ns ih => simp [ih, or_assoc, or_left_comm]

@[simp] theorem mem_ofList {ns : List UInt64} {k : UInt64} : k ∈ ofList ns ↔ k ∈ ns := by
  simp [ofList, mem_foldl_insert]

/-! ### Equality -/

/-- Two strictly ascending lists with the same members are equal. -/
theorem eq_of_ascending : ∀ {as bs : List UInt64}, as.Pairwise (· < ·) → bs.Pairwise (· < ·) →
    (∀ n, n ∈ as ↔ n ∈ bs) → as = bs
  | [], [], _, _, _ => rfl
  | [], b :: _, _, _, h => absurd ((h b).2 List.mem_cons_self) List.not_mem_nil
  | a :: _, [], _, _, h => absurd ((h a).1 List.mem_cons_self) List.not_mem_nil
  | a :: as, b :: bs, ha, hb, h => by
    obtain ⟨ha, has⟩ := List.pairwise_cons.1 ha
    obtain ⟨hb, hbs⟩ := List.pairwise_cons.1 hb
    have hab : a = b := by
      rcases List.mem_cons.1 ((h a).1 List.mem_cons_self) with hab | hab
      · exact hab
      · rcases List.mem_cons.1 ((h b).2 List.mem_cons_self) with hba | hba
        · exact hba.symm
        · exact absurd (ha b hba) (UInt64.lt_asymm (hb a hab))
    subst hab
    refine congrArg (a :: ·) (eq_of_ascending has hbs fun n => ?_)
    constructor
    · intro hn
      rcases List.mem_cons.1 ((h n).1 (List.mem_cons_of_mem _ hn)) with rfl | hn'
      · exact absurd (ha n hn) (UInt64.lt_irrefl n)
      · exact hn'
    · intro hn
      rcases List.mem_cons.1 ((h n).2 (List.mem_cons_of_mem _ hn)) with rfl | hn'
      · exact absurd (hb n hn) (UInt64.lt_irrefl n)
      · exact hn'

/-- A set is determined by its members. -/
theorem ext_mem {s t : Alternatives} (h : ∀ n, n ∈ s ↔ n ∈ t) : s = t := by
  obtain ⟨as, ha⟩ := s
  obtain ⟨bs, hb⟩ := t
  have : as = bs := eq_of_ascending ha hb h
  subst this
  rfl

theorem ext_mem_iff {s t : Alternatives} : s = t ↔ ∀ n, n ∈ s ↔ n ∈ t :=
  ⟨fun h _ => h ▸ Iff.rfl, ext_mem⟩

/-! ### Size and text -/

/-- The number of members. -/
def size (s : Alternatives) : Nat := s.toList.length

/-- The set has no members. -/
def isEmpty (s : Alternatives) : Bool := s.toList.isEmpty

theorem isEmpty_iff {s : Alternatives} : s.isEmpty = true ↔ ∀ k, k ∉ s := by
  rw [isEmpty, List.isEmpty_iff, List.eq_nil_iff_forall_not_mem]
  rfl

/-- The members in braces, smallest first, with a comma and a blank between them. -/
def render (s : Alternatives) : String :=
  "\x7b" ++ ", ".intercalate (s.toList.map fun n => toString n.toNat) ++ "\x7d"

/-- The text that shows the set among other kinds of values. -/
def describe (s : Alternatives) : String := "AltSet" ++ s.render

end Alternatives

end ParseListeners
