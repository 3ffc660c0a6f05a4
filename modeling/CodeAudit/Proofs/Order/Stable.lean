import Mathlib.Data.List.Basic
import Mathlib.Data.List.Pairwise
import Mathlib.Data.Prod.Lex

/-!
# What a stable sort leaves alone

Listings are sorted by a *rank*, such as a line and a column (`RankedBy`).  A rank does not tell all
members apart, so which of two members with one rank comes first is up to the sort.  It keeps equals in
place, and that is used in three forms: a part of the list that is in order already is the same part
afterwards (`filter_mergeSort`), **members with one rank keep whatever order they stood in**
(`pairwise_mergeSort_tie`), and it makes no difference whether a list is sorted before or after a part
of it is taken (`mergeSort_filter`).
-/

namespace CodeAudit

variable {α : Type} {le : α → α → Bool}

/-- Members are compared by their ranks. -/
def RankedBy {β : Type} [LinearOrder β] (le : α → α → Bool) (rank : α → β) : Prop :=
  ∀ a b, le a b = true ↔ rank a ≤ rank b

/-- Comparing lines, and columns on one line, is comparing the pairs of them. -/
theorem lines_then_columns_iff {line column line' column' : Nat} :
    (if line ≠ line' then decide (line < line') else decide (column ≤ column')) = true ↔
      toLex (line, column) ≤ toLex (line', column') := by
  rw [Prod.Lex.toLex_le_toLex]
  by_cases hline : line = line'
  · simp [hline]
  · simp [hline]

/-- A list is cut in one way into members with a property and members without it. -/
theorem append_inj_of_forall {q : α → Bool} {xs ys xs' ys' : List α} (h : xs ++ ys = xs' ++ ys')
    (hxs : ∀ b ∈ xs, q b = true) (hys : ∀ b ∈ ys, q b = false)
    (hxs' : ∀ b ∈ xs', q b = true) (hys' : ∀ b ∈ ys', q b = false) : xs = xs' ∧ ys = ys' := by
  have hfilter : ∀ {us vs : List α}, (∀ b ∈ us, q b = true) → (∀ b ∈ vs, q b = false) →
      (us ++ vs).filter q = us := by
    intro us vs hus hvs
    rw [List.filter_append, List.filter_eq_self.mpr hus, List.filter_eq_nil_iff.mpr (by simpa using hvs),
      List.append_nil]
  have hfirst : xs = xs' := by rw [← hfilter hxs hys, h, hfilter hxs' hys']
  subst hfirst
  exact ⟨rfl, List.append_cancel_left h⟩

namespace RankedBy

variable {β : Type} [LinearOrder β] {rank : α → β} {xs : List α}

theorem trans (h : RankedBy le rank) (a b c : α) (hab : le a b = true) (hbc : le b c = true) :
    le a c = true :=
  (h a c).mpr (((h a b).mp hab).trans ((h b c).mp hbc))

theorem total (h : RankedBy le rank) (a b : α) : (le a b || le b a) = true := by
  rw [Bool.or_eq_true, h a b, h b a]
  exact le_total (rank a) (rank b)

theorem pairwise_mergeSort (h : RankedBy le rank) (xs : List α) :
    (xs.mergeSort le).Pairwise fun a b => rank a ≤ rank b :=
  (List.pairwise_mergeSort h.trans h.total xs).imp fun {a b} hab => (h a b).mp hab

/-- **Sorting keeps what is sorted already**: if the members with a property stand in order, they are
the same in the sorted list. -/
theorem filter_mergeSort (h : RankedBy le rank) {p : α → Bool}
    (hsorted : (xs.filter p).Pairwise fun a b => rank a ≤ rank b) :
    (xs.mergeSort le).filter p = xs.filter p := by
  have hle : (xs.filter p).Pairwise fun a b => le a b = true :=
    hsorted.imp fun {a b} hab => (h a b).mpr hab
  have hsub : (xs.filter p).Sublist (xs.mergeSort le) :=
    List.sublist_mergeSort h.trans h.total hle List.filter_sublist
  have hinto : (xs.filter p).Sublist ((xs.mergeSort le).filter p) := by
    simpa using hsub.filter p
  have hlength : (xs.filter p).length = ((xs.mergeSort le).filter p).length :=
    ((List.mergeSort_perm xs le).filter p).length_eq.symm
  exact (hinto.eq_of_length hlength).symm

/-- **Sorting keeps equals in place**: a relation between each member and the later ones still holds
between members with one rank. -/
theorem pairwise_mergeSort_tie (h : RankedBy le rank) {R : α → α → Prop} (hxs : xs.Pairwise R) :
    (xs.mergeSort le).Pairwise fun a b => rank a = rank b → R a b := by
  rw [List.pairwise_iff_forall_sublist]
  intro a b hab heq
  -- the members with the rank of `a` stand as they did
  have htie : (xs.filter fun c => rank c = rank a).Pairwise fun c d => rank c ≤ rank d := by
    refine List.pairwise_of_forall_mem_list fun c hc d hd => ?_
    simp only [List.mem_filter, decide_eq_true_eq] at hc hd
    exact (hc.2.trans hd.2.symm).le
  have hkept : [a, b].Sublist (xs.filter fun c => rank c = rank a) := by
    rw [← h.filter_mergeSort htie]
    simpa [heq] using hab.filter fun c => decide (rank c = rank a)
  exact List.pairwise_iff_forall_sublist.mp hxs (hkept.trans List.filter_sublist)

/-- **Taking a part and sorting can change places.**  The induction is on the list: the sort puts a new
member in front of all that are not less. -/
theorem mergeSort_filter (h : RankedBy le rank) (p : α → Bool) (xs : List α) :
    (xs.filter p).mergeSort le = (xs.mergeSort le).filter p := by
  -- what comes after the new member is not less
  have hafter : ∀ {a : α} {l us vs : List α}, (a :: l).mergeSort le = us ++ a :: vs →
      ∀ b ∈ vs, (!le a b) = false := by
    intro a l us vs hsplit b hb
    have hsorted := List.pairwise_mergeSort h.trans h.total (a :: l)
    rw [hsplit, List.pairwise_append, List.pairwise_cons] at hsorted
    simp [hsorted.2.1.1 b hb]
  induction xs with
  | nil => simp
  | cons a xs ih =>
    obtain ⟨us, vs, hcons, hrest, hbefore⟩ := List.mergeSort_cons h.trans h.total a xs
    cases hp : p a with
    | false => simp [hcons, hp, ih, hrest]
    | true =>
      obtain ⟨us', vs', hcons', hrest', hbefore'⟩ :=
        List.mergeSort_cons h.trans h.total a (xs.filter p)
      have hsame : us' ++ vs' = us.filter p ++ vs.filter p := by
        rw [← hrest', ih, hrest, List.filter_append]
      obtain ⟨rfl, rfl⟩ := append_inj_of_forall hsame hbefore' (hafter hcons')
        (fun b hb => hbefore b (List.mem_of_mem_filter hb))
        (fun b hb => hafter hcons b (List.mem_of_mem_filter hb))
      rw [List.filter_cons_of_pos hp, hcons', hcons, List.filter_append, List.filter_cons_of_pos hp]

end RankedBy

end CodeAudit
