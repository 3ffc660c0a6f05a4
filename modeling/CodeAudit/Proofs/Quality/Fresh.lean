import CodeAudit.Analysis.Battery
import CodeAudit.Proofs.Tree.Nodes

/-!
# A finding before validation

Every check of quality reports its findings with an even confidence, as not validated and not to be
fixed (`Finding.IsFresh`): what can be said for a fix is only learned later.  And each has a kind of
its own, which no other check reports (`QualityCheck.kind`).  The checks differ in how they come to
their findings, and each is opened once here; `QualityCheck.isReport_of_mem_run` is all that the
rest needs.
-/

namespace CodeAudit

/-! ## 1. Fresh findings -/

/-- Nothing has been learned about the finding yet. -/
structure Finding.IsFresh (f : Finding) : Prop where
  confidence : f.confidence = 0.5
  validated : f.validated = false
  autoFixSafe : f.autoFixSafe = false

/-- A finding as a check makes it: fresh, and of the kind that the check is for. -/
structure Finding.IsReport (kind : FindingKind) (f : Finding) : Prop extends Finding.IsFresh f where
  kind_eq : f.kind = kind

theorem Finding.isReport_of_mem_sort {kind : FindingKind} {fs : List Finding}
    (h : ∀ f ∈ fs, f.IsReport kind) {f : Finding} (hf : f ∈ sort fs) : f.IsReport kind :=
  h f (List.mem_mergeSort.mp hf)

namespace Quality

open Finding

variable {l : Language} {profile : Profile} {s : Snippet} {f : Finding}

theorem isReport_of_mem_duplicates (hf : f ∈ duplicates profile s) :
    f.IsReport .duplicateFunction := by
  refine isReport_of_mem_sort ?_ hf
  intro f hf
  obtain ⟨⟨n, name⟩, -, hf⟩ := List.mem_filterMap.mp hf
  obtain ⟨-, ⟨⟩⟩ := Option.ite_none_right_eq_some.mp hf
  exact ⟨⟨rfl, rfl, rfl⟩, rfl⟩

theorem isReport_of_mem_unused (hf : f ∈ unused l s) : f.IsReport .unusedVariable := by
  refine isReport_of_mem_sort ?_ hf
  intro f hf
  obtain ⟨n, -, hf⟩ := List.mem_filterMap.mp hf
  obtain ⟨-, ⟨⟩⟩ := Option.ite_none_left_eq_some.mp hf
  exact ⟨⟨rfl, rfl, rfl⟩, rfl⟩

theorem isReport_of_mem_unreachable (hf : f ∈ unreachable profile s) :
    f.IsReport .unreachableCode := by
  refine isReport_of_mem_sort ?_ hf
  intro f hf
  obtain ⟨block, -, hf⟩ := List.mem_filterMap.mp hf
  obtain ⟨⟨jump, next⟩, -, hf⟩ := Option.bind_eq_some_iff.mp hf
  obtain ⟨-, ⟨⟩⟩ := Option.ite_none_left_eq_some.mp hf
  exact ⟨⟨rfl, rfl, rfl⟩, rfl⟩

theorem isReport_of_mem_orphans (hf : f ∈ orphans l s) : f.IsReport .orphanedCode := by
  refine isReport_of_mem_sort ?_ hf
  intro f hf
  obtain ⟨n, -, hf⟩ := List.mem_filterMap.mp hf
  obtain ⟨nameNode, -, hf⟩ := Option.bind_eq_some_iff.mp hf
  obtain ⟨-, ⟨⟩⟩ := Option.ite_none_left_eq_some.mp hf
  exact ⟨⟨rfl, rfl, rfl⟩, rfl⟩

theorem isReport_of_mem_silentHandlers (hf : f ∈ silentHandlers l s) : f.IsReport .emptyCatch := by
  refine isReport_of_mem_sort ?_ hf
  intro f hf
  obtain ⟨body, -, rfl⟩ := List.mem_map.mp hf
  exact ⟨⟨rfl, rfl, rfl⟩, rfl⟩

theorem isReport_of_mem_missingAwaits (hf : f ∈ missingAwaits s) : f.IsReport .missingAwait := by
  refine isReport_of_mem_sort ?_ hf
  intro f hf
  obtain ⟨function, -, hf⟩ := List.mem_flatMap.mp hf
  split at hf
  · obtain ⟨n, -, -, hf⟩ := Site.mem_gather.mp hf
    split at hf
    · cases hf
    · split at hf
      · obtain rfl := List.mem_singleton.mp hf
        exact ⟨⟨rfl, rfl, rfl⟩, rfl⟩
      · cases hf
  · cases hf

theorem isReport_of_mem_mismatches (hf : f ∈ mismatches s) : f.IsReport .braceMismatch := by
  unfold mismatches at hf
  split at hf
  · cases hf
  · split at hf
    · cases hf
    · refine isReport_of_mem_sort ?_ hf
      intro f hf
      obtain ⟨n, -, -, hf⟩ := Site.mem_gather.mp hf
      split at hf
      · obtain rfl := List.mem_singleton.mp hf
        unfold mismatchFinding
        split <;> exact ⟨⟨rfl, rfl, rfl⟩, rfl⟩
      · cases hf

end Quality

/-! ## 2. The battery -/

namespace QualityCheck

/-- What a check reports. -/
def kind : QualityCheck → FindingKind
  | .duplicates => .duplicateFunction
  | .unused => .unusedVariable
  | .unreachable => .unreachableCode
  | .orphaned => .orphanedCode
  | .emptyCatch => .emptyCatch
  | .missingAwait => .missingAwait
  | .braceMismatch => .braceMismatch

theorem isReport_of_mem_run {check : QualityCheck} {support : Support} {s : Snippet} {f : Finding}
    (hf : f ∈ check.run support s) : f.IsReport check.kind := by
  cases support with
  | plainText => cases hf
  | grammar l =>
    cases check with
    | duplicates => exact Quality.isReport_of_mem_duplicates hf
    | unused => exact Quality.isReport_of_mem_unused hf
    | unreachable => exact Quality.isReport_of_mem_unreachable hf
    | orphaned => exact Quality.isReport_of_mem_orphans hf
    | emptyCatch => exact Quality.isReport_of_mem_silentHandlers hf
    | missingAwait =>
      cases l with
      | go => cases hf
      | python => cases hf
      | javascript => exact Quality.isReport_of_mem_missingAwaits hf
      | typescript => exact Quality.isReport_of_mem_missingAwaits hf
    | braceMismatch => exact Quality.isReport_of_mem_mismatches hf

end QualityCheck

/-- **All findings of quality are fresh**, whichever checks are asked for. -/
theorem Battery.isFresh_of_mem_quality {support : Support} {selectors : SelectorSet} {s : Snippet}
    {f : Finding} (hf : f ∈ Battery.quality support selectors s) : f.IsFresh := by
  obtain ⟨check, -, hf⟩ := List.mem_flatMap.mp (List.mem_mergeSort.mp hf)
  exact (QualityCheck.isReport_of_mem_run hf).toIsFresh

end CodeAudit
