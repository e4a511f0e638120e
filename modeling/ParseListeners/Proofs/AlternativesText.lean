import ParseListeners.Alternatives
import ParseListeners.Proofs.Delimiters

/-!
# What the text of a set of alternatives tells

The text of a set lists the members between braces.  A numeral has neither a comma nor a brace in
it, so each member ends at the first comma or brace and the list ends at the first closing brace,
whatever comes after it (`Alternatives.render_append_inj`).
-/

namespace ParseListeners

namespace Alternatives

/-- The text of the members that follow the first one, each after a comma and a blank. -/
def further (ns : List UInt64) : List Char :=
  ns.flatMap fun n => ", ".toList ++ (toString n.toNat).toList

theorem further_cons (n : UInt64) (ns : List UInt64) :
    further (n :: ns) = ", ".toList ++ (toString n.toNat).toList ++ further ns := rfl

theorem toList_intercalate_cons (n : UInt64) (ns : List UInt64) :
    (", ".intercalate ((n :: ns).map fun n => toString n.toNat)).toList =
      (toString n.toNat).toList ++ further ns := by
  induction ns generalizing n with
  | nil => simp [further]
  | cons m ns ih =>
    have hrest := ih m
    rw [List.map_cons] at hrest
    rw [List.map_cons, List.map_cons, String.intercalate_cons_cons, String.toList_append,
      String.toList_append, hrest, further_cons, List.append_assoc, List.append_assoc]

/-- The text of the members of an ascending list. -/
def body : List UInt64 → List Char
  | [] => []
  | n :: ns => (toString n.toNat).toList ++ further ns

@[simp] theorem body_nil : body [] = [] := rfl

theorem toList_render (s : Alternatives) :
    s.render.toList = '\x7b' :: (body s.toList ++ ['\x7d']) := by
  have hbody : (", ".intercalate (s.toList.map fun n => toString n.toNat)).toList =
      body s.toList := by
    cases s.toList with
    | nil => simp [body]
    | cons n ns => rw [toList_intercalate_cons, body]
  rw [render, String.toList_append, String.toList_append, hbody]
  rfl

theorem of_mem_further {ns : List UInt64} {c : Char} (h : c ∈ further ns) :
    IsNumeral c ∨ c ∈ ", ".toList := by
  obtain ⟨n, -, hc⟩ := List.mem_flatMap.1 h
  rcases List.mem_append.1 hc with hc | hc
  · exact .inr hc
  · exact .inl (isNumeral_of_mem_toString hc)

theorem of_mem_render {s : Alternatives} {c : Char} (h : c ∈ s.render.toList) :
    IsNumeral c ∨ c ∈ ", ".toList ∨ c ∈ ['\x7b', '\x7d'] := by
  have hbody : ∀ ns, c ∈ body ns → IsNumeral c ∨ c ∈ ", ".toList := by
    intro ns hc
    cases ns with
    | nil => exact absurd hc List.not_mem_nil
    | cons n ns =>
      rcases List.mem_append.1 hc with hc | hc
      · exact .inl (isNumeral_of_mem_toString hc)
      · exact of_mem_further hc
  rw [toList_render, List.mem_cons, List.mem_append, List.mem_singleton] at h
  rcases h with rfl | hc | rfl
  · exact .inr (.inr (by decide))
  · exact (hbody _ hc).imp_right .inl
  · exact .inr (.inr (by decide))

variable {ns ms : List UInt64} {z w : List Char}

/-- After a member comes a comma or the closing brace. -/
theorem exists_further_append (ns : List UInt64) (z : List Char) :
    ∃ c rest, ¬IsNumeral c ∧ further ns ++ '\x7d' :: z = c :: rest := by
  cases ns with
  | nil => exact ⟨'\x7d', z, by decide, rfl⟩
  | cons n ns => exact ⟨',', _, by decide, rfl⟩

theorem toString_append_further_inj {n m : UInt64} :
    (toString n.toNat).toList ++ (further ns ++ '\x7d' :: z) =
        (toString m.toNat).toList ++ (further ms ++ '\x7d' :: w) ↔
      n = m ∧ further ns ++ '\x7d' :: z = further ms ++ '\x7d' :: w := by
  obtain ⟨a, rest, ha, hrest⟩ := exists_further_append ns z
  obtain ⟨b, other, hb, hother⟩ := exists_further_append ms w
  rw [hrest, hother, toString_append_cons_inj ha hb, UInt64.toNat_inj, List.cons.injEq]

theorem further_append_inj :
    further ns ++ '\x7d' :: z = further ms ++ '\x7d' :: w ↔ ns = ms ∧ z = w := by
  induction ns generalizing ms with
  | nil =>
    cases ms with
    | nil => simp [further]
    | cons m ms => simp [further]
  | cons n ns ih =>
    cases ms with
    | nil => simp [further]
    | cons m ms =>
      rw [further_cons, further_cons, List.append_assoc, List.append_assoc, List.append_assoc,
        List.append_assoc, List.append_cancel_left_eq, toString_append_further_inj, ih,
        List.cons.injEq, and_assoc]

/-- No numeral begins with a closing brace. -/
theorem brace_ne_body_cons (n : UInt64) (ns : List UInt64) (z w : List Char) :
    '\x7d' :: z ≠ body (n :: ns) ++ w := by
  obtain ⟨c, rest, hc, hdigit⟩ := exists_toString_eq_cons n.toNat
  rw [body, hc, List.cons_append, List.cons_append]
  intro h
  rw [← (List.cons.inj h).1] at hdigit
  exact absurd hdigit (by decide)

theorem body_append_inj :
    body ns ++ '\x7d' :: z = body ms ++ '\x7d' :: w ↔ ns = ms ∧ z = w := by
  cases ns with
  | nil =>
    cases ms with
    | nil => simp
    | cons m ms => simp [brace_ne_body_cons]
  | cons n ns =>
    cases ms with
    | nil => simp [(brace_ne_body_cons n ns w ('\x7d' :: z)).symm]
    | cons m ms =>
      rw [body, body, List.append_assoc, List.append_assoc, toString_append_further_inj,
        further_append_inj, List.cons.injEq, and_assoc]

/-- The text of a set ends at its closing brace, and tells the set. -/
theorem render_append_inj {s t : Alternatives} :
    s.render.toList ++ z = t.render.toList ++ w ↔ s = t ∧ z = w := by
  rw [toList_render, toList_render, List.cons_append, List.cons_append, List.append_assoc,
    List.append_assoc, List.cons.injEq, List.singleton_append, List.singleton_append,
    body_append_inj]
  cases s
  cases t
  simp

end Alternatives

end ParseListeners
