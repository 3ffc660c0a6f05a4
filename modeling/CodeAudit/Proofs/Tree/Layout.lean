import CodeAudit.Finding.Basic
import CodeAudit.Proofs.Text.Lines
import CodeAudit.Proofs.Tree.Ancestry
import Mathlib.Order.Basic

/-!
# How a tree is laid over a text

A parser gives each node the stretch of the text that it was read from.  The stretches of the children
of a node stand one after another inside that of the node (`Tree.standsIn`).  If this is so at every
node, then **two nodes either stand one above the other or apart in the text** (`Site.IsLaid.apart`),
and what is in a subtree stands inside the stretch of its top (`Site.IsLaid.within`).

The text of a node is what the source has between its offsets (`Site.exists_source_eq`), and it is all
in one line if the node begins and ends in that line (`Site.exists_line_of_text`).
-/

namespace CodeAudit

/-! ## 1. Rows of trees -/

namespace Tree

/-- The trees of a row stand one after another between two offsets. -/
def standsIn (start stop : Nat) : List Tree → Bool
  | [] => start ≤ stop
  | t :: ts => start ≤ t.label.start && t.label.start ≤ t.label.stop && standsIn t.label.stop stop ts

variable {start stop i j : Nat} {ts : List Tree} {t u : Tree}

theorem standsIn_cons :
    standsIn start stop (t :: ts) = true ↔
      start ≤ t.label.start ∧ t.label.start ≤ t.label.stop ∧ standsIn t.label.stop stop ts = true := by
  simp [standsIn, and_assoc]

theorem le_of_standsIn (h : standsIn start stop ts = true) : start ≤ stop := by
  induction ts generalizing start with
  | nil => simpa [standsIn] using h
  | cons t ts ih =>
    obtain ⟨hstart, hstop, hrest⟩ := standsIn_cons.mp h
    exact hstart.trans (hstop.trans (ih hrest))

/-- Each tree of the row stands between the offsets. -/
theorem bounds_of_standsIn (h : standsIn start stop ts = true) (ht : ts[i]? = some t) :
    start ≤ t.label.start ∧ t.label.start ≤ t.label.stop ∧ t.label.stop ≤ stop := by
  induction ts generalizing start i with
  | nil => cases ht
  | cons u ts ih =>
    obtain ⟨hstart, hstop, hrest⟩ := standsIn_cons.mp h
    cases i with
    | zero =>
      obtain rfl := Option.some.inj ht
      exact ⟨hstart, hstop, le_of_standsIn hrest⟩
    | succ i =>
      obtain ⟨hstart', hbounds⟩ := ih hrest ht
      exact ⟨hstart.trans (hstop.trans hstart'), hbounds⟩

/-- An earlier tree of the row ends before a later one begins. -/
theorem stop_le_start_of_standsIn (h : standsIn start stop ts = true) (ht : ts[i]? = some t)
    (hu : ts[j]? = some u) (hlt : i < j) : t.label.stop ≤ u.label.start := by
  induction ts generalizing start i j with
  | nil => cases ht
  | cons v ts ih =>
    obtain ⟨-, -, hrest⟩ := standsIn_cons.mp h
    obtain ⟨j, rfl⟩ : ∃ k, j = k + 1 := ⟨j - 1, by omega⟩
    cases i with
    | zero =>
      obtain rfl := Option.some.inj ht
      exact (bounds_of_standsIn hrest hu).1
    | succ i => exact ih hrest ht hu (by omega)

end Tree

/-! ## 2. Nodes -/

namespace Site

/-- The children of a node stand one after another inside it. -/
def standsOver (n : Site) : Bool := Tree.standsIn n.label.start n.label.stop n.tree.children

/-- Every node of a subtree stands over its children. -/
def IsLaid (r : Site) : Prop := ∀ n, r.Within n → n.standsOver = true

variable {r n m c : Site}

theorem IsLaid.of_within (h : r.IsLaid) (hn : r.Within n) : n.IsLaid :=
  fun _ hm => h _ (hn.trans hm)

theorem IsLaid.child {i : Nat} (h : r.IsLaid) (hn : r.Within n) (hchild : n.child? i = some m) :
    n.label.start ≤ m.label.start ∧ m.label.start ≤ m.label.stop ∧ m.label.stop ≤ n.label.stop := by
  obtain ⟨t, ht, rfl⟩ := child?_eq_some_iff.mp hchild
  exact Tree.bounds_of_standsIn (h n hn) ht

/-- **What is in a subtree stands inside the stretch of its top.** -/
theorem IsLaid.within (h : r.IsLaid) (hn : r.Within n) :
    r.label.start ≤ n.label.start ∧ n.label.stop ≤ r.label.stop := by
  induction hn with
  | self => exact ⟨Nat.le_refl _, Nat.le_refl _⟩
  | child hn hchild ih =>
    obtain ⟨hstart, -, hstop⟩ := h.child hn hchild
    exact ⟨ih.1.trans hstart, hstop.trans ih.2⟩

/-- **Nodes that do not stand one above the other stand apart.**  The induction is on the way down to
`c`. -/
theorem IsLaid.apart (h : r.IsLaid) (hn : r.Within n) (hc : r.Within c) :
    c.Within n ∨ n.IsAbove c ∨ n.label.stop ≤ c.label.start ∨ c.label.stop ≤ n.label.start := by
  induction hc with
  | self => exact .inl hn
  | @child p c i hp hchild ih =>
    obtain ⟨hstart, -, hstop⟩ := h.child hp hchild
    rcases ih with hwithin | ⟨j, m, hm, hbelow⟩ | hbefore | hafter
    · rcases within_iff.mp hwithin with rfl | ⟨j, m, hm, hbelow⟩
      · exact .inr (.inl ⟨i, c, hchild, .self⟩)
      · -- both are below `p`: under the same child, or under an earlier and a later one
        obtain ⟨hmstart, hmstop⟩ := (h.of_within (hp.child hm)).within hbelow
        obtain ⟨t, ht, rfl⟩ := child?_eq_some_iff.mp hchild
        obtain ⟨u, hu, rfl⟩ := child?_eq_some_iff.mp hm
        rcases Nat.lt_trichotomy j i with hlt | rfl | hlt
        · exact .inr (.inr (.inl (hmstop.trans (Tree.stop_le_start_of_standsIn (h p hp) hu ht hlt))))
        · obtain rfl := Option.some.inj (ht.symm.trans hu)
          exact .inl hbelow
        · exact .inr (.inr (.inr
            ((Tree.stop_le_start_of_standsIn (h p hp) ht hu hlt).trans hmstart)))
    · exact .inr (.inl ⟨j, m, hm, hbelow.child hchild⟩)
    · exact .inr (.inr (.inl (hbefore.trans hstart)))
    · exact .inr (.inr (.inr (hstop.trans hafter)))

/-! ## 3. Text -/

variable {source : List Char}

/-- A node that has a text has it where its offsets say, and its lines are counted there. -/
theorem exists_source_eq (h : n.text source ≠ []) :
    ∃ before after, source = before ++ n.text source ++ after ∧
      Text.utf8Length before = n.label.start ∧
      Text.utf8Length (before ++ n.text source) = n.label.stop ∧
      (n.span source).line = before.count '\n' + 1 ∧
      (n.span source).endLine = (before ++ n.text source).count '\n' + 1 := by
  have hslice : Text.slice n.label.start n.label.stop source = some (n.text source) := by
    unfold text at h ⊢
    cases hslice : Text.slice n.label.start n.label.stop source with
    | none => exact absurd (by rw [hslice]; rfl) h
    | some piece => rfl
  obtain ⟨before, after, hsource, hstart, hstop⟩ := Text.slice_eq_some_iff.mp hslice
  refine ⟨before, after, hsource, hstart, hstop, ?_, ?_⟩
  · rw [← Text.row_position before (n.text source ++ after), ← List.append_assoc, ← hsource, hstart]
    rfl
  · rw [← Text.row_position (before ++ n.text source) after, ← hsource, hstop]
    rfl

theorem start_lt_stop (h : n.text source ≠ []) : n.label.start < n.label.stop := by
  obtain ⟨before, after, -, hstart, hstop, -⟩ := exists_source_eq h
  obtain ⟨c, rest, htext⟩ := List.exists_cons_of_ne_nil h
  rw [Text.utf8Length_append, htext, Text.utf8Length_cons] at hstop
  have hpos : 0 < c.utf8Size := c.utf8Size_pos
  omega

/-- **The text of a node that begins and ends in one line stands in that line**, up to a carriage
return at its end. -/
theorem exists_line_of_text (h : n.text source ≠ [])
    (hline : (n.span source).endLine = (n.span source).line) :
    ∃ text, ((n.span source).line, text) ∈ Text.numberedLines source ∧
      n.text source <:+: text ++ ['\r'] := by
  obtain ⟨before, after, hsource, -, -, hfirst, hlast⟩ := exists_source_eq h
  have hfeed : '\n' ∉ n.text source := by
    rw [← List.count_eq_zero]
    rw [List.count_append] at hlast
    omega
  obtain ⟨text, hmem, hpiece⟩ := Text.exists_line_of_piece h hfeed before after
  rw [← hsource, ← hfirst] at hmem
  exact ⟨text, hmem, hpiece⟩

/-- A subtree has no other lines than its top. -/
theorem IsLaid.lines_within (h : r.IsLaid) (hn : r.Within n) (source : List Char) :
    (r.span source).line ≤ (n.span source).line ∧ (n.span source).line ≤ (n.span source).endLine ∧
      (n.span source).endLine ≤ (r.span source).endLine := by
  obtain ⟨hstart, hstop⟩ := h.within hn
  have hlength : n.label.start ≤ n.label.stop := Tree.le_of_standsIn (h n hn)
  exact ⟨Nat.succ_le_succ (Text.row_position_mono source hstart),
    Nat.succ_le_succ (Text.row_position_mono source hlength),
    Nat.succ_le_succ (Text.row_position_mono source hstop)⟩

end Site

end CodeAudit
