import CodeAudit.Proofs.Tree.Visits
import Mathlib.Data.List.Nodup

/-!
# Ways up and ways down

A site carries its way up, and the nodes below it are found by going down.  The two agree: a child has
one parent (`child?_inj`), **the nodes that climbing meets are the nodes that stand above**
(`mem_ancestors`), the nearest first, with those in between listed before (`ancestors_eq`), and two
nodes of one tree with the same path are the same node (`eq_of_path_eq`).
-/

namespace CodeAudit

namespace Site

variable {r n m a b f : Site} {i j : Nat}

/-! ## 1. Children -/

theorem getElem?_childrenFrom (parent : Tree) (above : List Frame) (i : Nat) (ts : List Tree) (j : Nat) :
    (childrenFrom parent above i ts)[j]? = ts[j]?.map fun t => ⟨t, ⟨parent, i + j⟩ :: above⟩ := by
  induction ts generalizing i j with
  | nil => simp [childrenFrom]
  | cons t ts ih =>
    cases j with
    | zero => simp [childrenFrom]
    | succ j => simp [childrenFrom, ih, Nat.add_assoc, Nat.add_comm 1 j]

/-- The list of children has child number `i` at place `i`. -/
theorem getElem?_children (n : Site) (i : Nat) : n.children[i]? = n.child? i := by
  simp [children, getElem?_childrenFrom, child?, under]

theorem mem_children : m ∈ n.children ↔ ∃ i, n.child? i = some m := by
  simp [List.mem_iff_getElem?, getElem?_children]

/-- **A child has one parent and one number.** -/
theorem child?_inj (h : n.child? i = some b) (h' : m.child? j = some b) : n = m ∧ i = j := by
  obtain ⟨tree, above⟩ := n
  obtain ⟨tree', above'⟩ := m
  obtain ⟨t, -, rfl⟩ := child?_eq_some_iff.mp h
  obtain ⟨u, -, heq⟩ := child?_eq_some_iff.mp h'
  rw [Site.mk.injEq, List.cons.injEq, Frame.mk.injEq] at heq
  obtain ⟨-, ⟨rfl, rfl⟩, rfl⟩ := heq
  exact ⟨rfl, rfl⟩

theorem nodup_children (n : Site) : n.children.Nodup := by
  rw [List.nodup_iff_getElem?_ne_getElem?]
  intro i j hlt hj heq
  obtain ⟨m, hm⟩ : ∃ m, n.children[j]? = some m := ⟨_, List.getElem?_eq_getElem hj⟩
  have hi : n.child? i = some m := by rw [← getElem?_children, heq, hm]
  have hj' : n.child? j = some m := by rw [← getElem?_children, hm]
  have := (child?_inj hi hj').2
  omega

theorem exists_child_of_field? {name : String} (h : n.field? name = some m) :
    ∃ i, n.child? i = some m := mem_children.mp (List.mem_of_find?_eq_some h)

theorem within_of_field? {name : String} (h : n.field? name = some m) : n.Within m := by
  obtain ⟨i, hchild⟩ := exists_child_of_field? h
  exact Within.self.child hchild

theorem parent?_of_child? (h : n.child? i = some m) : m.parent? = some n := by
  obtain ⟨t, -, rfl⟩ := child?_eq_some_iff.mp h
  rfl

theorem ancestors_of_child? (h : n.child? i = some m) : m.ancestors = n :: n.ancestors := by
  obtain ⟨t, -, rfl⟩ := child?_eq_some_iff.mp h
  rfl

/-! ## 2. Above and below -/

theorem Within.trans (h : r.Within n) (h' : n.Within m) : r.Within m := by
  induction h' with
  | self => exact h
  | child _ hchild ih => exact ih.child hchild

theorem IsAbove.within (h : r.IsAbove n) : r.Within n := within_iff.mpr (.inr h)

theorem IsAbove.trans (h : a.IsAbove b) (h' : b.IsAbove n) : a.IsAbove n := by
  obtain ⟨i, m, hchild, hwithin⟩ := h
  exact ⟨i, m, hchild, hwithin.trans h'.within⟩

theorem isAbove_of_child? (h : n.child? i = some m) : n.IsAbove m := ⟨i, m, h, .self⟩

theorem IsAbove.length_lt (h : a.IsAbove n) : a.path.length < n.path.length := by
  obtain ⟨i, hsuffix⟩ := h.suffix
  have hlength := hsuffix.length_le
  rwa [List.length_cons] at hlength

/-- What stands above a child is its parent, or stands above its parent. -/
theorem isAbove_child_iff (h : n.child? i = some m) : a.IsAbove m ↔ a = n ∨ a.IsAbove n := by
  constructor
  · rintro ⟨j, b, hb, hwithin⟩
    cases hwithin with
    | self => exact .inl (child?_inj hb h).1
    | child hwithin hchild =>
      obtain ⟨rfl, -⟩ := child?_inj hchild h
      exact .inr ⟨j, b, hb, hwithin⟩
  · rintro (rfl | habove)
    · exact isAbove_of_child? h
    · exact habove.trans (isAbove_of_child? h)

/-- Two nodes of a tree with one path are one node.  The induction is on the way down to the first. -/
theorem eq_of_path_eq (hn : r.Within n) (hm : r.Within m) (h : n.path = m.path) : n = m := by
  induction hn generalizing m with
  | self =>
    rcases within_iff.mp hm with rfl | habove
    · rfl
    · exact absurd (congrArg List.length h) habove.length_lt.ne
  | child hn hchild ih =>
    rw [path_of_child? hchild] at h
    cases hm with
    | self =>
      have hlonger := hn.suffix.length_le
      rw [← h, List.length_cons] at hlonger
      omega
    | child hm hchild' =>
      rw [path_of_child? hchild', List.cons.injEq] at h
      obtain ⟨rfl, hpath⟩ := h
      obtain rfl := ih hm hpath
      exact Option.some.inj (hchild.symm.trans hchild')

/-- What stands between a node and something below one of its children is below that child. -/
theorem within_of_between (hchild : f.child? i = some b) (hn : b.Within n) (ha : f.IsAbove a)
    (han : a.IsAbove n) : b.Within a := by
  obtain ⟨j, b', hchild', ha⟩ := ha
  have hpath : i :: f.path <:+ n.path := path_of_child? hchild ▸ hn.suffix
  have hpath' : j :: f.path <:+ n.path := path_of_child? hchild' ▸ (ha.trans han.within).suffix
  obtain ⟨rfl, -⟩ : i = j ∧ f.path = f.path := by
    have hsame := (List.suffix_of_suffix_length_le hpath hpath' (by simp)).eq_of_length (by simp)
    simpa using hsame
  obtain rfl := Option.some.inj (hchild.symm.trans hchild')
  exact ha

/-! ## 3. Climbing -/

/-- **Climbing meets what stands between first, and then what is further up.** -/
theorem ancestors_eq (h : f.IsAbove n) :
    ∃ between, n.ancestors = between ++ f :: f.ancestors ∧
      ∀ a, a ∈ between ↔ f.IsAbove a ∧ a.IsAbove n := by
  obtain ⟨i, m, hm, hwithin⟩ := h
  induction hwithin with
  | self =>
    refine ⟨[], ancestors_of_child? hm, fun a => ?_⟩
    simp only [List.not_mem_nil, false_iff, not_and]
    intro hfa ham
    have hlower := hfa.length_lt
    rcases (isAbove_child_iff hm).mp ham with rfl | haf
    · omega
    · have := haf.length_lt
      omega
  | @child n c j hwithin hchild ih =>
    obtain ⟨between, heq, hmem⟩ := ih
    have hfn : f.IsAbove n := ⟨i, m, hm, hwithin⟩
    refine ⟨n :: between, by rw [ancestors_of_child? hchild, heq]; rfl, fun a => ?_⟩
    rw [List.mem_cons, hmem, isAbove_child_iff hchild]
    constructor
    · rintro (rfl | ⟨hfa, han⟩)
      · exact ⟨hfn, .inl rfl⟩
      · exact ⟨hfa, .inr han⟩
    · rintro ⟨hfa, rfl | han⟩
      · exact .inl rfl
      · exact .inr ⟨hfa, han⟩

/-- **The nodes that climbing meets are the nodes above.** -/
theorem mem_ancestors {t : Tree} (h : (top t).Within n) : a ∈ n.ancestors ↔ a.IsAbove n := by
  constructor
  · intro ha
    induction h with
    | self => cases ha
    | child _ hchild ih =>
      rw [ancestors_of_child? hchild, List.mem_cons] at ha
      exact (isAbove_child_iff hchild).mpr (ha.imp_right ih)
  · intro habove
    obtain ⟨between, heq, -⟩ := ancestors_eq habove
    simp [heq]

/-- What stands above a node of a tree is in the tree. -/
theorem within_of_isAbove {t : Tree} (h : (top t).Within n) (ha : a.IsAbove n) : (top t).Within a := by
  induction h with
  | self =>
    have := ha.length_lt
    simp [top, path] at this
  | child h hchild ih =>
    rcases (isAbove_child_iff hchild).mp ha with rfl | habove
    · exact h
    · exact ih habove

/-- Of two nodes above a third, one is above the other. -/
theorem isAbove_or_of_isAbove {t : Tree} (h : (top t).Within n) (ha : a.IsAbove n) (hb : b.IsAbove n) :
    a = b ∨ a.IsAbove b ∨ b.IsAbove a := by
  obtain ⟨between, heq, hbetween⟩ := ancestors_eq ha
  have hmem := (mem_ancestors h).mpr hb
  rw [heq, List.mem_append, List.mem_cons] at hmem
  rcases hmem with hmem | rfl | hmem
  · exact .inr (.inl ((hbetween b).mp hmem).1)
  · exact .inl rfl
  · exact .inr (.inr ((mem_ancestors (within_of_isAbove h ha)).mp hmem))

theorem parent?_eq_some_iff {t : Tree} (h : (top t).Within n) :
    n.parent? = some a ↔ ∃ i, a.child? i = some n := by
  constructor
  · intro ha
    cases h with
    | self => cases ha
    | child _ hchild =>
      rw [parent?_of_child? hchild, Option.some.injEq] at ha
      exact ⟨_, ha ▸ hchild⟩
  · rintro ⟨i, hchild⟩
    exact parent?_of_child? hchild

/-- **A search that stops at a boundary sees what is between a node and the boundary.** -/
theorem hasAncestor_iff {kinds boundary : List String} (hf : f.IsAbove n) (hboundary : f.kind ∈ boundary)
    (hkinds : f.kind ∉ kinds) (hnearest : ∀ a, f.IsAbove a → a.IsAbove n → a.kind ∉ boundary) :
    n.hasAncestor kinds boundary = true ↔ ∃ a, f.IsAbove a ∧ a.IsAbove n ∧ a.kind ∈ kinds := by
  obtain ⟨between, heq, hbetween⟩ := ancestors_eq hf
  have hstop : (f :: f.ancestors).find? (fun a => a.hasKind kinds || a.hasKind boundary) = some f :=
    List.find?_cons_of_pos (by simp [hasKind, hboundary])
  have hkind : f.hasKind kinds = false := by simp [hasKind, hkinds]
  rw [hasAncestor, heq, List.find?_append, hstop]
  cases hfind : between.find? fun a => a.hasKind kinds || a.hasKind boundary with
  | none =>
    simp only [Option.none_or, hkind, Bool.false_eq_true, false_iff]
    rintro ⟨a, hfa, han, ha⟩
    have hnot := List.find?_eq_none.mp hfind a ((hbetween a).mpr ⟨hfa, han⟩)
    simp [hasKind, ha] at hnot
  | some a =>
    obtain ⟨hfa, han⟩ := (hbetween a).mp (List.mem_of_find?_eq_some hfind)
    have hmet := List.find?_some hfind
    have ha : a.kind ∈ kinds := by simpa [hasKind, hnearest a hfa han] using hmet
    simp only [Option.some_or, hasKind, List.contains_iff_mem, ha, true_iff]
    exact ⟨a, hfa, han, ha⟩

end Site

end CodeAudit
