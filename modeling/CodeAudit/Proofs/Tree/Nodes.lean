import CodeAudit.Proofs.Tree.Ancestry
import CodeAudit.Snippet

/-!
# What a walk gathers

Detectors do not walk a tree themselves: they go through the list of its nodes, or they gather what they
look for on a walk that leaves out what is below some nodes.  A gathering walk **picks at the nodes that
have no closed node above them, each once and in preorder** (`gather_eq_flatMap`, `mem_opened`,
`pairwise_opened`).

The list of all nodes is gathered with nothing closed, so it holds **each node of the tree once, in
preorder** (`mem_nodes`, `pairwise_nodes`); and what a search through it finds is the node that comes
first in preorder (`find?_nodes_eq_some_iff`).
-/

namespace CodeAudit

namespace Site

variable {n m : Site}

/-! ## 1. Gathering -/

section Gather

variable {α : Type} (pick : Site → List α × Bool)

/-- The visit of a gathering walk: it keeps what it picks, the latest first. -/
def picking (found : List α) (n : Site) : List α × Bool := ((pick n).1.reverse ++ found, (pick n).2)

/-- The nodes that a gathering walk comes to. -/
def opened (s : Site) : List Site := (s.calls (picking pick) []).map Prod.snd

mutual

theorem walkTree_picking (found : List α) (above : List Frame) (t : Tree) :
    walkTree (picking pick) found above t =
      ((callsTree (picking pick) found above t).flatMap fun x => (pick x.2).1).reverse ++ found := by
  cases t with
  | node label kids =>
    have hrow := walkRow_picking ((pick ⟨.node label kids, above⟩).1.reverse ++ found)
      (.node label kids) above 0 kids
    rw [walkTree_eq, callsTree_eq]
    by_cases hopen : (pick ⟨.node label kids, above⟩).2 = true
    · simp only [picking, hopen, if_true, Tree.children, List.flatMap_cons, List.reverse_append,
        List.append_assoc]
      exact hrow
    · simp [picking, hopen]

theorem walkRow_picking (found : List α) (parent : Tree) (above : List Frame) (i : Nat)
    (ts : List Tree) :
    walkRow (picking pick) found parent above i ts =
      ((callsRow (picking pick) found parent above i ts).flatMap fun x => (pick x.2).1).reverse ++
        found := by
  cases ts with
  | nil => rfl
  | cons t ts =>
    have htree := walkTree_picking found (⟨parent, i⟩ :: above) t
    have hrest := walkRow_picking (walkTree (picking pick) found (⟨parent, i⟩ :: above) t) parent above
      (i + 1) ts
    rw [walkRow, callsRow, hrest, List.flatMap_append, List.reverse_append, List.append_assoc, htree]

end

/-- **What is gathered is what is picked at the nodes that the walk comes to.** -/
theorem gather_eq_flatMap (s : Site) : s.gather pick = (s.opened pick).flatMap fun n => (pick n).1 := by
  have hgather : s.gather pick = (s.traverse (picking pick) []).reverse := rfl
  have hwalk : s.traverse (picking pick) [] =
      ((s.calls (picking pick) []).flatMap fun x => (pick x.2).1).reverse ++ [] := by
    rw [traverse_eq_walk]
    exact walkTree_picking pick [] s.above s.tree
  rw [hgather, hwalk, List.append_nil, List.reverse_reverse, opened, List.flatMap_map]

variable {pick}

/-- **A walk comes to the nodes that have nothing closed above them.** -/
theorem mem_opened {s : Site} :
    n ∈ s.opened pick ↔ s.Within n ∧ ∀ a, s.Within a → a.IsAbove n → (pick a).2 = true := by
  have hmem : ∀ n, n ∈ s.opened pick ↔ s.Within n ∧
      ∀ x ∈ s.calls (picking pick) [], x.2.IsAbove n → (pick x.2).2 = true :=
    mem_callsTree (picking pick) [] s.above s.tree
  constructor
  · intro hn
    obtain ⟨hwithin, hcalls⟩ := (hmem n).mp hn
    refine ⟨hwithin, fun a ha habove => ?_⟩
    -- what stands above `a` stands above `n`, so the walk came to `a` as well
    have hopened : a ∈ s.opened pick :=
      (hmem a).mpr ⟨ha, fun x hx hxa => hcalls x hx (hxa.trans habove)⟩
    obtain ⟨x, hx, rfl⟩ := List.mem_map.mp hopened
    exact hcalls x hx habove
  · rintro ⟨hwithin, hall⟩
    refine (hmem n).mpr ⟨hwithin, fun x hx habove => ?_⟩
    exact hall x.2 ((hmem x.2).mp (List.mem_map_of_mem hx)).1 habove

theorem pairwise_opened (s : Site) : (s.opened pick).Pairwise Precedes :=
  pairwise_callsTree (picking pick) [] s.above s.tree

theorem nodup_opened (s : Site) : (s.opened pick).Nodup := (pairwise_opened s).imp Precedes.ne

theorem mem_gather {s : Site} {x : α} :
    x ∈ s.gather pick ↔
      ∃ n, s.Within n ∧ (∀ a, s.Within a → a.IsAbove n → (pick a).2 = true) ∧ x ∈ (pick n).1 := by
  simp [gather_eq_flatMap, mem_opened, and_assoc]

end Gather

theorem nodes_eq_opened (s : Site) : s.nodes = s.opened fun n => ([n], true) := by
  have hnodes : s.nodes = s.gather fun n => ([n], true) := rfl
  rw [hnodes, gather_eq_flatMap, List.flatMap_singleton']

/-! ## 2. The list -/

/-- **The list holds the nodes of the subtree.** -/
theorem mem_nodes {s : Site} : n ∈ s.nodes ↔ s.Within n := by
  rw [nodes_eq_opened, mem_opened]
  exact and_iff_left fun _ _ _ => rfl

/-- **The list is in preorder.** -/
theorem pairwise_nodes (s : Site) : s.nodes.Pairwise Precedes := by
  rw [nodes_eq_opened]
  exact pairwise_opened s

theorem nodup_nodes (s : Site) : s.nodes.Nodup := s.pairwise_nodes.imp Precedes.ne

theorem Precedes.asymm (h : n.Precedes m) : ¬ m.Precedes n :=
  (List.Lex.asymm fun a b : Nat => a < b).asymm _ _ h

/-- **A search finds the first in preorder.** -/
theorem find?_nodes_eq_some_iff {s : Site} {p : Site → Bool} :
    s.nodes.find? p = some n ↔
      s.Within n ∧ p n = true ∧ ∀ m, s.Within m → p m = true → m = n ∨ n.Precedes m := by
  have hfirst : ∀ n, s.nodes.find? p = some n →
      s.Within n ∧ p n = true ∧ ∀ m, s.Within m → p m = true → m = n ∨ n.Precedes m := by
    intro n h
    obtain ⟨hn, before, after, hsplit, hbefore⟩ := List.find?_eq_some_iff_append.mp h
    have horder := s.pairwise_nodes
    rw [hsplit, List.pairwise_append, List.pairwise_cons] at horder
    refine ⟨mem_nodes.mp (List.mem_of_find?_eq_some h), hn, ?_⟩
    intro m hm hpm
    rw [← mem_nodes, hsplit, List.mem_append, List.mem_cons] at hm
    rcases hm with hm | rfl | hm
    · have hnot := hbefore m hm
      rw [hpm] at hnot
      cases hnot
    · exact .inl rfl
    · exact .inr (horder.2.1.1 m hm)
  refine ⟨hfirst n, ?_⟩
  rintro ⟨hwithin, hn, hrest⟩
  obtain ⟨m, hm⟩ : ∃ m, s.nodes.find? p = some m := by
    rw [← Option.isSome_iff_exists, List.find?_isSome]
    exact ⟨n, mem_nodes.mpr hwithin, hn⟩
  obtain ⟨hwithin', hpm, hrest'⟩ := hfirst m hm
  rcases hrest m hwithin' hpm with rfl | hbefore
  · exact hm
  · rcases hrest' n hwithin hn with rfl | hbefore'
    · exact hm
    · exact absurd hbefore' hbefore.asymm

end Site

/-! ## 3. Snippets -/

namespace Snippet

/-- The nodes of a snippet are those of its tree. -/
theorem mem_nodes {s : Snippet} {n : Site} :
    n ∈ s.nodes ↔ ∃ t, s.tree = some t ∧ (Site.top t).Within n := by
  rw [nodes, root?]
  cases s.tree with
  | none => simp
  | some t => simp [Site.mem_nodes]

theorem nodup_nodes (s : Snippet) : s.nodes.Nodup := by
  rw [nodes, root?]
  cases s.tree with
  | none => exact List.nodup_nil
  | some t => exact (Site.top t).nodup_nodes

variable {s : Snippet} {n m a : Site}

theorem mem_nodes_of_within (hn : n ∈ s.nodes) (h : n.Within m) : m ∈ s.nodes := by
  obtain ⟨t, ht, hwithin⟩ := mem_nodes.mp hn
  exact mem_nodes.mpr ⟨t, ht, hwithin.trans h⟩

theorem mem_nodes_of_isAbove (hn : n ∈ s.nodes) (h : a.IsAbove n) : a ∈ s.nodes := by
  obtain ⟨t, ht, hwithin⟩ := mem_nodes.mp hn
  exact mem_nodes.mpr ⟨t, ht, Site.within_of_isAbove hwithin h⟩

theorem mem_ancestors (hn : n ∈ s.nodes) : a ∈ n.ancestors ↔ a.IsAbove n := by
  obtain ⟨t, -, hwithin⟩ := mem_nodes.mp hn
  exact Site.mem_ancestors hwithin

/-- Nodes of a snippet are told apart by their paths. -/
theorem eq_of_path_eq (hn : n ∈ s.nodes) (hm : m ∈ s.nodes) (h : n.path = m.path) : n = m := by
  obtain ⟨t, ht, hn⟩ := mem_nodes.mp hn
  obtain ⟨t', ht', hm⟩ := mem_nodes.mp hm
  obtain rfl := Option.some.inj (ht.symm.trans ht')
  exact Site.eq_of_path_eq hn hm h

end Snippet

/-! ## 4. Trees written out -/

namespace Tree

/-- A node that the grammar names. -/
def named (kind : String) (field : Option String) (start stop : Nat) (children : List Tree) : Tree :=
  .node ⟨kind, field, true, false, false, false, false, start, stop⟩ children

/-- A word or sign that stands for itself. -/
def sign (kind : String) (start : Nat) (field : Option String := none) : Tree :=
  .node ⟨kind, field, false, false, false, false, false, start, start + kind.length⟩ []

end Tree

end CodeAudit
