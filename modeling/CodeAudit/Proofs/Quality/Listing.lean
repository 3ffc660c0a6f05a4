import CodeAudit.Proofs.Quality.Selection
import Mathlib

/-!
# One finding for each

A check of quality makes a finding for each node of some sort and lists the findings by place.  That the
list holds **one finding for each such node and no other** is said by a row of these nodes, without
repetition, that goes with the list from end to end (`Finding.MatchedBy`, `Finding.OneForEach`).  Sorting
moves the row along with the findings (`Finding.MatchedBy.sort`).
-/

namespace CodeAudit

/-- Passing over some members is making findings for the others. -/
theorem filterMap_ite_none {α β : Type} (q : α → Bool) (f : α → β) (xs : List α) :
    (xs.filterMap fun a => if q a then none else some (f a)) = (xs.filter fun a => !q a).map f := by
  rw [← List.filterMap_eq_map, List.filterMap_filter]
  congr
  funext a
  cases q a <;> rfl

/-- Making findings of some members is making one of each member that has one. -/
theorem filterMap_eq_map_filter {α β : Type} [Inhabited β] (f : α → Option β) (xs : List α) :
    xs.filterMap f = (xs.filter fun a => (f a).isSome).map fun a => (f a).getD default := by
  induction xs with
  | nil => rfl
  | cons a xs ih => cases h : f a <;> simp [h, ih]

/-- Gathering a finding at some members, and nothing at the others, is making findings for these. -/
theorem flatMap_ite_nil {α β : Type} (q : α → Bool) (f : α → β) (xs : List α) :
    (xs.flatMap fun a => if q a then [f a] else []) = (xs.filter q).map f := by
  induction xs with
  | nil => rfl
  | cons a xs ih => cases h : q a <;> simp [h, ih]

theorem isDunder_iff {name : List Char} :
    isDunder name = true ↔
      4 < Text.utf8Length name ∧ "__".toList <+: name ∧ "__".toList <:+ name := by
  simp [isDunder, Text.startsWith, Text.endsWith, and_assoc]

namespace Finding

/-- A finding about a node: it stands where the node stands, shows its text and says `message`. -/
structure IsAbout (source : List Char) (kind : FindingKind) (severity : Severity) (message : String)
    (n : Site) (f : Finding) : Prop where
  kind_eq : f.kind = kind
  severity_eq : f.severity = severity
  span_eq : f.span = n.span source
  code_eq : f.code = String.ofList (n.text source)
  message_eq : f.message = message

/-- The findings are one for each thing with a property. -/
def MatchedBy {α : Type} (p : α → Prop) (tells : α → Finding → Prop) (fs : List Finding) : Prop :=
  ∃ row : List α, row.Nodup ∧ (∀ a, a ∈ row ↔ p a) ∧ List.Forall₂ tells row fs

/-- The findings are one for each node with a property, and are listed by place: by line, then column. -/
structure OneForEach (p : Site → Prop) (tells : Site → Finding → Prop) (fs : List Finding) : Prop where
  matched : MatchedBy p tells fs
  sorted : fs.Pairwise fun a b => a.rank ≤ b.rank

/-- **Sorting moves the row along with the findings.** -/
theorem MatchedBy.sort {α : Type} {p : α → Prop} {tells : α → Finding → Prop} {fs : List Finding}
    (h : MatchedBy p tells fs) : MatchedBy p tells (Finding.sort fs) := by
  obtain ⟨xs, hnodup, hmem, htells⟩ := h
  have hsorted : Relation.Comp (List.Forall₂ tells) List.Perm xs (Finding.sort fs) :=
    ⟨fs, htells, (List.mergeSort_perm _ _).symm⟩
  rw [List.forall₂_comp_perm_eq_perm_comp_forall₂] at hsorted
  obtain ⟨row, hperm, hrow⟩ := hsorted
  exact ⟨row, hperm.nodup_iff.mp hnodup, fun a => hperm.mem_iff.symm.trans (hmem a), hrow⟩

theorem matchedBy_sort {α : Type} {p : α → Prop} {tells : α → Finding → Prop} {xs : List α}
    {report : α → Finding} (hnodup : xs.Nodup) (hmem : ∀ a, a ∈ xs ↔ p a)
    (htells : ∀ a, p a → tells a (report a)) : MatchedBy p tells (sort (xs.map report)) := by
  refine MatchedBy.sort ⟨xs, hnodup, hmem, ?_⟩
  rw [List.forall₂_map_right_iff, List.forall₂_same]
  exact fun a ha => htells a ((hmem a).mp ha)

theorem oneForEach_sort {p : Site → Prop} {tells : Site → Finding → Prop} {nodes : List Site}
    {report : Site → Finding} (hnodup : nodes.Nodup) (hmem : ∀ n, n ∈ nodes ↔ p n)
    (htells : ∀ n, p n → tells n (report n)) : OneForEach p tells (sort (nodes.map report)) where
  matched := matchedBy_sort hnodup hmem htells
  sorted := pairwise_sort _

theorem OneForEach.eq_singleton {p : Site → Prop} {tells : Site → Finding → Prop} {fs : List Finding}
    {n : Site} (h : OneForEach p tells fs) (honly : ∀ m, p m ↔ m = n) :
    ∃ f, fs = [f] ∧ tells n f := by
  obtain ⟨nodes, hnodup, hmem, hmatched⟩ := h.matched
  have hnodes : nodes = [n] := by
    rw [← List.perm_singleton, List.perm_ext_iff_of_nodup hnodup (List.nodup_singleton n)]
    intro m
    rw [hmem, honly, List.mem_singleton]
  rw [hnodes] at hmatched
  obtain ⟨f, rest, htells, hrest, rfl⟩ := List.forall₂_cons_left_iff.mp hmatched
  rw [List.forall₂_nil_left_iff.mp hrest]
  exact ⟨f, rfl, htells⟩

end Finding

end CodeAudit
