import CodeAudit.Proofs.Order.Stable
import CodeAudit.Proofs.Quality.Fresh
import Mathlib

/-!
# Each check of quality stands alone

The findings of the checks that are asked for are put together and sorted by line, column and name
of the kind.  `Battery.quality_filter_kind` says that nothing of a check is lost on the way, and
nothing is moved: **of its kind the list holds the findings of the check, in their order, whatever
else is asked for**.

Two facts carry it.  Each check reports only its own kind (`QualityCheck.isReport_of_mem_run`), so
the part of one kind comes from one check; and each check lists its findings sorted, so that a sort
which keeps equals in place leaves them alone (`RankedBy.filter_mergeSort`).
-/

namespace CodeAudit

/-! ## 1. The order of listing -/

namespace Finding

/-- What findings are listed by: first the line, then the column, then the name of the kind. -/
def rank (f : Finding) : Nat ×ₗ Nat ×ₗ String := toLex (f.line, toLex (f.column, f.kind.name))

theorem rankedBy_rank : RankedBy le rank := by
  intro a b
  simp only [rank, Prod.Lex.toLex_le_toLex]
  by_cases hline : a.line = b.line
  · by_cases hcolumn : a.column = b.column
    · simp [le, hline, hcolumn, - String.lt_iff_ltb]
    · simp [le, hline, hcolumn]
  · simp [le, hline]

theorem pairwise_sort (fs : List Finding) : (sort fs).Pairwise fun a b => a.rank ≤ b.rank :=
  rankedBy_rank.pairwise_mergeSort fs

end Finding

/-! ## 2. The checks -/

namespace QualityCheck

variable {support : Support} {s : Snippet}

theorem kind_injective : Function.Injective kind := by
  intro c d h
  cases c <;> cases d <;> first | rfl | cases h

theorem mem_all (c : QualityCheck) : c ∈ all := by cases c <;> decide

theorem nodup_all : all.Nodup := by decide

/-- Each check lists its findings in order. -/
theorem pairwise_run (c : QualityCheck) :
    (c.run support s).Pairwise fun a b => a.rank ≤ b.rank := by
  cases support with
  | plainText => exact .nil
  | grammar l =>
    cases c with
    | missingAwait =>
      cases l with
      | go => exact .nil
      | python => exact .nil
      | javascript => exact Finding.pairwise_sort _
      | typescript => exact Finding.pairwise_sort _
    | braceMismatch =>
      simp only [run, runIn, Quality.mismatches]
      split
      · exact .nil
      · split
        · exact .nil
        · exact Finding.pairwise_sort _
    | _ => exact Finding.pairwise_sort _

theorem filter_run (c d : QualityCheck) :
    (d.run support s).filter (·.kind == c.kind) = if d = c then d.run support s else [] := by
  by_cases h : d = c
  · subst h
    rw [if_pos rfl, List.filter_eq_self]
    intro f hf
    simp [(isReport_of_mem_run hf).kind_eq]
  · rw [if_neg h, List.filter_eq_nil_iff]
    intro f hf heq
    rw [(isReport_of_mem_run hf).kind_eq, beq_iff_eq] at heq
    exact h (kind_injective heq)

/-- Of what several checks find, the part of one kind is what the check for this kind finds. -/
theorem filter_flatMap_run (support : Support) (s : Snippet) (c : QualityCheck)
    {checks : List QualityCheck} (h : checks.Nodup) :
    (checks.flatMap fun d => d.run support s).filter (·.kind == c.kind) =
      if c ∈ checks then c.run support s else [] := by
  induction checks with
  | nil => rfl
  | cons d rest ih =>
    obtain ⟨hd, hrest⟩ := List.nodup_cons.mp h
    rw [List.flatMap_cons, List.filter_append, filter_run, ih hrest]
    by_cases hc : d = c
    · subst hc
      simp [hd]
    · simp [hc, Ne.symm hc]

end QualityCheck

/-! ## 3. The battery -/

/-- **Selectors are independent.**  Of each kind the battery lists what the check for it finds,
element for element, if the check is asked for, and nothing otherwise; it lists no other kinds; and
the list is sorted by line, column and name of the kind. -/
theorem Battery.quality_filter_kind (support : Support) (selectors : SelectorSet) (s : Snippet) :
    (∀ c : QualityCheck, (Battery.quality support selectors s).filter (·.kind == c.kind) =
      if selectors.runs c.selector then c.run support s else []) ∧
    (Battery.quality support selectors s).map Finding.kind ⊆
      (QualityCheck.all.filter fun c => selectors.runs c.selector).map QualityCheck.kind ∧
    (Battery.quality support selectors s).Pairwise fun a b => a.rank ≤ b.rank := by
  refine ⟨?_, ?_, ?_⟩
  · intro c
    have hpart := QualityCheck.filter_flatMap_run support s c
      (QualityCheck.nodup_all.filter fun d => selectors.runs d.selector)
    simp only [List.mem_filter, QualityCheck.mem_all, true_and] at hpart
    rw [← hpart, Battery.quality]
    apply Finding.rankedBy_rank.filter_mergeSort
    rw [hpart]
    split
    · exact QualityCheck.pairwise_run c
    · exact .nil
  · intro kind hkind
    obtain ⟨f, hf, rfl⟩ := List.mem_map.mp hkind
    obtain ⟨c, hc, hf⟩ := List.mem_flatMap.mp (List.mem_mergeSort.mp hf)
    exact List.mem_map.mpr ⟨c, hc, (QualityCheck.isReport_of_mem_run hf).kind_eq.symm⟩
  · exact Finding.pairwise_sort _

end CodeAudit
