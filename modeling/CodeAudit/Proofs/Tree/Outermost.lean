import CodeAudit.Proofs.Tree.Nodes
import Mathlib

/-!
# Outermost nodes

Some checks report a node as a whole: they do not look below a node that they report, and they may leave
out more, where they know that there is nothing to report.  What such a walk comes to depends on all that
it left out above.  That it misses nothing is said by a scan that leaves out nothing: it goes through all
nodes and keeps those that have the property and no node above with it (`Snippet.outermost`).

**Closing at the nodes with a property, and elsewhere only over subtrees without one, gathers what is
picked at the outermost nodes with it, in the same order** (`Site.gather_eq_outermost`).  Outermost nodes
do not stand one above the other, and every node with the property is in the subtree of one of them
(`Snippet.IsOutermost.not_isAbove`, `Snippet.exists_isOutermost`).
-/

namespace CodeAudit

/-! ## 1. The property -/

namespace Snippet

/-- A node has a property that no node above it has. -/
structure IsOutermost (s : Snippet) (p : Site → Prop) (n : Site) : Prop where
  mem : n ∈ s.nodes
  holds : p n
  outermost : ∀ a : Site, a.IsAbove n → ¬ p a

/-- The outermost nodes with a property, found by a scan of all nodes. -/
def outermost (s : Snippet) (p : Site → Bool) : List Site :=
  s.nodes.filter fun n => p n && !n.ancestors.any p

section Property

variable {s : Snippet} {p : Site → Prop} {n m : Site}

theorem isOutermost_congr {q : Site → Prop} (h : ∀ n ∈ s.nodes, p n ↔ q n) :
    s.IsOutermost p n ↔ s.IsOutermost q n := by
  constructor
  · rintro ⟨hn, hp, hout⟩
    exact ⟨hn, (h n hn).mp hp, fun a ha => (h a (mem_nodes_of_isAbove hn ha)).not.mp (hout a ha)⟩
  · rintro ⟨hn, hq, hout⟩
    exact ⟨hn, (h n hn).mpr hq, fun a ha => (h a (mem_nodes_of_isAbove hn ha)).not.mpr (hout a ha)⟩

theorem IsOutermost.not_isAbove (hn : s.IsOutermost p n) (hm : s.IsOutermost p m) : ¬ n.IsAbove m :=
  fun habove => hm.outermost n habove hn.holds

/-- **A node with the property is outermost or below one that is.**  The induction is on the depth. -/
theorem exists_isOutermost (hn : n ∈ s.nodes) (hp : p n) : ∃ m, s.IsOutermost p m ∧ m.Within n := by
  induction hdepth : n.path.length using Nat.strong_induction_on generalizing n with
  | _ depth ih =>
    by_cases hout : ∀ a : Site, a.IsAbove n → ¬ p a
    · exact ⟨n, ⟨hn, hp, hout⟩, .self⟩
    · push Not at hout
      obtain ⟨a, habove, ha⟩ := hout
      obtain ⟨m, hm, hwithin⟩ := ih _ (hdepth ▸ habove.length_lt) (mem_nodes_of_isAbove hn habove) ha rfl
      exact ⟨m, hm, hwithin.trans habove.within⟩

end Property

section Scan

variable {s : Snippet} {p : Site → Bool} {n : Site}

theorem mem_outermost : n ∈ s.outermost p ↔ s.IsOutermost (fun m => p m = true) n := by
  simp only [outermost, List.mem_filter, Bool.and_eq_true, Bool.not_eq_true', List.any_eq_false]
  constructor
  · rintro ⟨hn, hp, hnone⟩
    exact ⟨hn, hp, fun a ha => hnone a ((mem_ancestors hn).mpr ha)⟩
  · intro h
    exact ⟨h.mem, h.holds, fun a ha => h.outermost a ((mem_ancestors h.mem).mp ha)⟩

theorem nodup_outermost (s : Snippet) (p : Site → Bool) : (s.outermost p).Nodup := s.nodup_nodes.filter _

theorem pairwise_nodes (s : Snippet) : s.nodes.Pairwise Site.Precedes := by
  rw [nodes, root?]
  cases s.tree with
  | none => exact .nil
  | some t => exact (Site.top t).pairwise_nodes

end Scan

end Snippet

/-! ## 2. The walk -/

/-- Members at which nothing is picked can be left out. -/
theorem flatMap_filter_of_nil {α β : Type} {pick : β → List α} {p : β → Bool} {xs : List β}
    (h : ∀ b ∈ xs, p b = false → pick b = []) : (xs.filter p).flatMap pick = xs.flatMap pick := by
  induction xs with
  | nil => rfl
  | cons b xs ih =>
    have hrest := ih fun a ha => h a (List.mem_cons_of_mem _ ha)
    cases hp : p b with
    | true => simp [hp, hrest]
    | false => simp [hp, hrest, h b List.mem_cons_self hp]

namespace Site

variable {α : Type}

/-- A list in preorder is known by its members. -/
theorem eq_of_pairwise_precedes {xs ys : List Site} (hxs : xs.Pairwise Precedes)
    (hys : ys.Pairwise Precedes) (hmem : ∀ n, n ∈ xs ↔ n ∈ ys) : xs = ys := by
  have hperm : xs.Perm ys :=
    (List.perm_ext_iff_of_nodup (hxs.imp Precedes.ne) (hys.imp Precedes.ne)).mpr hmem
  exact hperm.eq_of_pairwise (fun a b _ _ hab hba => absurd hba hab.asymm) hxs hys

/-- **A walk that closes at the nodes with a property gathers at the outermost of them**, if it closes
nowhere else but over subtrees without such nodes. -/
theorem gather_eq_outermost {s : Snippet} {t : Tree} (ht : s.tree = some t)
    {pick : Site → List α × Bool} {p : Site → Bool}
    (hnil : ∀ n ∈ s.nodes, p n = false → (pick n).1 = [])
    (hclosed : ∀ n ∈ s.nodes, p n = true → (pick n).2 = false)
    (hopen : ∀ n ∈ s.nodes, p n = false → (∃ m, n.IsAbove m ∧ p m = true) → (pick n).2 = true) :
    (top t).gather pick = (s.outermost p).flatMap fun n => (pick n).1 := by
  have hnodes : ∀ n, n ∈ s.nodes ↔ (top t).Within n := by
    intro n
    simp [Snippet.mem_nodes, ht]
  have hmem : ∀ n, n ∈ ((top t).opened pick).filter p ↔ n ∈ s.outermost p := by
    intro n
    rw [List.mem_filter, mem_opened, Snippet.mem_outermost]
    constructor
    · rintro ⟨⟨hn, hall⟩, hp⟩
      refine ⟨(hnodes n).mpr hn, hp, fun a habove ha => ?_⟩
      have hwithin := within_of_isAbove hn habove
      have hdescend := hall a hwithin habove
      rw [hclosed a ((hnodes a).mpr hwithin) ha] at hdescend
      cases hdescend
    · intro h
      refine ⟨⟨(hnodes n).mp h.mem, fun a ha habove => ?_⟩, h.holds⟩
      exact hopen a ((hnodes a).mpr ha) (by simpa using h.outermost a habove) ⟨n, habove, h.holds⟩
  have hsame : ((top t).opened pick).filter p = s.outermost p :=
    eq_of_pairwise_precedes ((pairwise_opened (top t)).filter p) (s.pairwise_nodes.filter _) hmem
  rw [gather_eq_flatMap, ← hsame]
  refine (flatMap_filter_of_nil fun n hn hp => ?_).symm
  exact hnil n ((hnodes n).mpr (mem_opened.mp hn).1) hp

end Site

end CodeAudit
