import ParseListeners.Session
import ParseListeners.Proofs.Trees

/-!
# How sessions are built

A fan-out is declared over listeners that are there already, so the trees of a registry cannot go on
for ever: the tree at a position is no higher than the position (`Registry.Grounded`).  Every
declaration keeps this up (`Registry.Grounded.declare`), and so it holds of each registry that is
built from declarations (`Registry.grounded_ofDeclarations`).  A session takes the listeners that
its recognizers forward to from its registry (`Session.of_build_eq_ok`).
-/

namespace ParseListeners

namespace Registry

theorem length_ofDeclarations (declared : List Declaration) :
    (ofDeclarations declared).toList.length = declared.length := by
  rw [ofDeclarations, length_foldl_declare]
  exact Nat.zero_add _

theorem get?_eq_some_iff {r : Registry} {position : Nat} {l : Listener} :
    r.get? position = some l ↔ r.toList[position]? = some (.ok l) := by
  cases h : r.toList[position]? with
  | none => simp [get?, h]
  | some outcome =>
    cases outcome with
    | ok l' => simp [get?, h]
    | error e => simp [get?, h]

theorem lt_length_of_get? {r : Registry} {position : Nat} {l : Listener}
    (h : r.get? position = some l) : position < r.toList.length :=
  (List.getElem?_eq_some_iff.1 (get?_eq_some_iff.1 h)).1

theorem lookup_eq_ok_iff {r : Registry} {position : Nat} {l : Listener} :
    r.lookup position = .ok l ↔ r.get? position = some l := by
  cases h : r.get? position with
  | none => simp [lookup, h]
  | some l' => simp [lookup, h]

theorem mem_select_iff {r : Registry} {positions : List Nat} {l : Listener} :
    l ∈ r.select positions ↔ ∃ position ∈ positions, r.get? position = some l :=
  List.mem_filterMap

/-- However it is put together, a fan-out is one over listeners that are there. -/
theorem of_assemble_eq_ok {r : Registry} {assembly : Assembly} {l : Listener}
    (h : r.assemble assembly = .ok l) :
    ∃ policy positions, r.select positions ≠ [] ∧ l = .fanOut policy (r.select positions) := by
  cases assembly with
  | plain positions => exact ⟨_, positions, Listener.withPolicy_eq_ok_iff.1 h⟩
  | optional positions =>
    cases positions with
    | none => simp [assemble, Listener.ofOption] at h
    | some positions => exact ⟨_, positions, Listener.withPolicy_eq_ok_iff.1 h⟩
  | withPolicy policy positions => exact ⟨policy, positions, Listener.withPolicy_eq_ok_iff.1 h⟩

end Registry

/-! ### Trees on the ground -/

/-- A tree of bounded height, in which the listeners of the host program are declared. -/
structure Listener.Grounded (declared : List Declaration) (bound : Nat) (l : Listener) : Prop where
  /-- The height is bounded. -/
  height_le : l.height ≤ bound
  /-- The listeners of the host program are declared. -/
  host_mem : ∀ id h, .host id h ∈ l.leaves → .host h ∈ declared

namespace Listener.Grounded

variable {declared : List Declaration} {n : Nat}

theorem of_leaf {leaf : Leaf} (h : ∀ id host, leaf = .host id host → .host host ∈ declared) :
    Grounded declared n (.leaf leaf) := by
  refine ⟨by simp, fun id host hmem => ?_⟩
  rw [leaves_leaf, List.mem_singleton] at hmem
  exact h id host hmem.symm

theorem fanOut {ds : List Listener} (policy : Policy) (h : ∀ d ∈ ds, Grounded declared n d) :
    Grounded declared (n + 1) (.fanOut policy ds) := by
  refine ⟨height_fanOut_le_iff.2 fun d hd => (h d hd).height_le, fun id host hmem => ?_⟩
  rw [leaves_fanOut] at hmem
  obtain ⟨d, hd, hmem⟩ := List.mem_flatMap.1 hmem
  exact (h d hd).host_mem id host hmem

theorem mono {m : Nat} {l : Listener} (h : Grounded declared m l) (hle : m ≤ n) :
    Grounded declared n l :=
  ⟨Nat.le_trans h.height_le hle, h.host_mem⟩

end Listener.Grounded

namespace Registry

/-- The tree at a position is no higher than the position. -/
def Grounded (declared : List Declaration) (r : Registry) : Prop :=
  ∀ position l, r.get? position = some l → l.Grounded declared position

variable {declared : List Declaration} {r : Registry} {d : Declaration} {l : Listener}

theorem Grounded.build (hr : Grounded declared r) (hd : d ∈ declared) (h : r.build d = .ok l) :
    l.Grounded declared r.toList.length := by
  cases d with
  | fanOut assembly =>
    obtain ⟨policy, positions, hne, rfl⟩ := of_assemble_eq_ok h
    -- a fan-out needs a delegate, so it is not the first declaration
    obtain ⟨d, hd⟩ := List.exists_mem_of_ne_nil _ hne
    obtain ⟨n, hn⟩ : ∃ n, r.toList.length = n + 1 := by
      obtain ⟨position, -, hget⟩ := mem_select_iff.1 hd
      exact Nat.exists_eq_add_one_of_ne_zero (Nat.ne_zero_of_lt (lt_length_of_get? hget))
    rw [hn]
    refine Listener.Grounded.fanOut policy fun d hd => ?_
    obtain ⟨position, -, hget⟩ := mem_select_iff.1 hd
    have hlt := lt_length_of_get? hget
    exact (hr position d hget).mono (by omega)
  | host host =>
    obtain rfl := Except.ok.inj h
    refine .of_leaf ?_
    rintro id host' hleaf
    cases hleaf
    exact hd
  | _ =>
    obtain rfl := Except.ok.inj h
    exact .of_leaf (by simp)

/-- A declaration keeps the trees on the ground. -/
theorem Grounded.declare (hr : Grounded declared r) (hd : d ∈ declared) :
    Grounded declared (r.declare d) := by
  intro position l h
  rw [get?_eq_some_iff, Registry.declare] at h
  by_cases hlt : position < r.toList.length
  · rw [List.getElem?_append_left hlt] at h
    exact hr position l (get?_eq_some_iff.2 h)
  · obtain rfl : position = r.toList.length := by
      have := (List.getElem?_eq_some_iff.1 h).1
      rw [List.length_append, List.length_singleton] at this
      omega
    rw [List.getElem?_concat_length] at h
    exact hr.build hd (Option.some.inj h)

theorem grounded_ofDeclarations (declared : List Declaration) :
    Grounded declared (ofDeclarations declared) := by
  suffices h : ∀ (ds : List Declaration) (r : Registry), ds ⊆ declared → Grounded declared r →
      Grounded declared (ds.foldl Registry.declare r) from
    h declared {} (List.Subset.refl declared) (by simp [Grounded, get?])
  intro ds
  induction ds with
  | nil => exact fun r _ hr => hr
  | cons d ds ih =>
    intro r hds hr
    rw [List.cons_subset] at hds
    exact ih (r.declare d) hds.2 (hr.declare hds.1)

end Registry

/-! ### Recognizers -/

theorem exists_of_mem_mapM {α β ε : Type} {f : α → Except ε β} {xs : List α} {ys : List β}
    (h : xs.mapM f = .ok ys) {y : β} (hy : y ∈ ys) : ∃ x ∈ xs, f x = .ok y := by
  induction xs generalizing ys with
  | nil =>
    obtain rfl := Except.ok.inj h
    simp at hy
  | cons x xs ih =>
    rw [List.mapM_cons] at h
    cases hx : f x with
    | error e => simp [hx, bind, Except.bind] at h
    | ok z =>
      cases hxs : xs.mapM f with
      | error e => simp [hx, hxs, bind, Except.bind] at h
      | ok zs =>
        rw [hx, hxs] at h
        obtain rfl : z :: zs = ys := Except.ok.inj h
        rcases List.mem_cons.1 hy with rfl | hy
        · exact ⟨x, List.mem_cons_self, hx⟩
        · obtain ⟨x', hx', hf⟩ := ih hxs hy
          exact ⟨x', List.mem_cons_of_mem x hx', hf⟩

/-- A reply that names a listener forwards to what is found under the name. -/
theorem Reply.of_resolve_eq_ok {α β ε : Type} {find : α → Except ε β} {reply : Reply α}
    {target : β} {line column : UInt32} {token : Option Token}
    (h : reply.resolve find = .ok (.forward target line column token)) :
    ∃ name, find name = .ok target := by
  cases reply with
  | accept => simp [resolve] at h
  | refuse cause => simp [resolve] at h
  | forward name line' column' token' =>
    cases hname : find name with
    | error e => simp [resolve, hname, Except.map] at h
    | ok found =>
      simp only [resolve, hname, Except.map, Except.ok.injEq, forward.injEq] at h
      exact ⟨name, by rw [hname, h.1]⟩

/-- A session has the listeners that are declared, and its recognizers forward to these. -/
theorem Session.of_build_eq_ok {declared : List Declaration}
    {replies : List (Origin × Reply Nat)} {session : Session}
    (h : build declared replies = .ok session) :
    session.registry = .ofDeclarations declared ∧
      ∀ r ∈ session.recognizers, ∀ target line column token,
        r.reply = .forward target line column token →
          ∃ position, session.registry.get? position = some target := by
  simp only [build, bind, Except.bind] at h
  split at h
  · cases h
  · rename_i resolved hresolved
    obtain rfl := Except.ok.inj h
    refine ⟨rfl, fun r hr target line column token hreply => ?_⟩
    obtain ⟨⟨origin, reply⟩, -, hfound⟩ := exists_of_mem_mapM hresolved hr
    cases hreply' : reply.resolve (Registry.ofDeclarations declared).lookup with
    | error e => simp [hreply', Except.map] at hfound
    | ok found =>
      simp only [hreply', Except.map, Except.ok.injEq] at hfound
      obtain rfl : found = r.reply := by rw [← hfound]
      rw [hreply] at hreply'
      obtain ⟨position, hposition⟩ := Reply.of_resolve_eq_ok hreply'
      exact ⟨position, Registry.lookup_eq_ok_iff.1 hposition⟩

end ParseListeners
