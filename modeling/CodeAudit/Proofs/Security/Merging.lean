import CodeAudit.Finding.Vulnerability
import CodeAudit.Proofs.Order.Stable
import Mathlib

/-!
# Merging vulnerabilities

Vulnerabilities of one kind on one line stand for one another, and merging keeps one of them.  The
place of a vulnerability is what it is compared by, its line and its kind.  Seen through the places,
putting one more vulnerability to those kept is simple: a new place goes to the end, and a known one
changes nothing (`map_place_absorb`).  From this one step follows what is said of whole lists:

* `mem_of_mem_mergeByLine`: merging makes nothing up;
* `nodup_mergeByLine`: no place is left twice;
* `mergeByLine_perm`: **where no place came twice, nothing is lost**;
* `pairwise_mergeByLine`: what is left is sorted by line and column.
-/

namespace CodeAudit.Vulnerability

/-! ## 1. Places -/

/-- What a merged list has at most one vulnerability for. -/
def place (v : Vulnerability) : Nat × FindingKind := (v.line, v.kind)

theorem alike_iff (v w : Vulnerability) : alike v w = true ↔ v.place = w.place := by
  simp [alike, place]

/-! ## 2. One more vulnerability -/

variable {v w : Vulnerability} {kept vs : List Vulnerability}

theorem mem_of_mem_absorb (h : w ∈ absorb v kept) : w = v ∨ w ∈ kept := by
  induction kept with
  | nil => exact .inl (List.mem_singleton.mp h)
  | cons u kept ih =>
    unfold absorb at h
    split at h
    · rcases List.mem_cons.mp h with heq | hrest
      · split at heq
        · exact .inl heq
        · exact .inr (heq ▸ List.mem_cons_self)
      · exact .inr (List.mem_cons_of_mem u hrest)
    · rcases List.mem_cons.mp h with heq | hrest
      · exact .inr (heq ▸ List.mem_cons_self)
      · rcases ih hrest with heq | hkept
        · exact .inl heq
        · exact .inr (List.mem_cons_of_mem u hkept)

/-- A vulnerability at a new place goes to the end. -/
theorem absorb_of_not_mem (h : v.place ∉ kept.map place) : absorb v kept = kept ++ [v] := by
  induction kept with
  | nil => rfl
  | cons u kept ih =>
    obtain ⟨hu, hkept⟩ := not_or.mp (List.mem_cons.not.mp h)
    have hunlike : ¬ alike u v = true := fun halike => hu ((alike_iff u v).mp halike).symm
    rw [absorb, if_neg hunlike, ih hkept, List.cons_append]

/-- Through their places: a new one goes to the end, a known one changes nothing. -/
theorem map_place_absorb (v : Vulnerability) (kept : List Vulnerability) :
    (absorb v kept).map place =
      if v.place ∈ kept.map place then kept.map place else kept.map place ++ [v.place] := by
  by_cases h : v.place ∈ kept.map place
  · rw [if_pos h]
    induction kept with
    | nil => cases h
    | cons u kept ih =>
      by_cases halike : alike u v = true
      · have hplace : u.place = v.place := (alike_iff u v).mp halike
        rw [absorb, if_pos halike]
        split <;> simp [hplace]
      · have hne : v.place ≠ u.place := fun heq => halike ((alike_iff u v).mpr heq.symm)
        have hkept : v.place ∈ kept.map place := (List.mem_cons.mp h).resolve_left hne
        rw [absorb, if_neg halike, List.map_cons, ih hkept, List.map_cons]
  · rw [if_neg h, absorb_of_not_mem h, List.map_append, List.map_singleton]

theorem nodup_absorb (v : Vulnerability) (h : (kept.map place).Nodup) :
    ((absorb v kept).map place).Nodup := by
  rw [map_place_absorb]
  split
  · exact h
  · rename_i hnew
    rw [← List.concat_eq_append]
    exact h.concat hnew

/-! ## 3. Many -/

theorem mem_of_mem_winners (h : w ∈ winners vs) : w ∈ vs := by
  have hfold : ∀ kept : List Vulnerability,
      w ∈ vs.foldl (fun kept v => absorb v kept) kept → w ∈ vs ∨ w ∈ kept := by
    clear h
    induction vs with
    | nil => exact fun kept h => .inr h
    | cons v vs ih =>
      intro kept h
      rcases ih _ h with hvs | habsorbed
      · exact .inl (List.mem_cons_of_mem v hvs)
      · rcases mem_of_mem_absorb habsorbed with rfl | hkept
        · exact .inl List.mem_cons_self
        · exact .inr hkept
  exact (hfold [] h).resolve_right List.not_mem_nil

theorem winners_concat (vs : List Vulnerability) (v : Vulnerability) :
    winners (vs ++ [v]) = absorb v (winners vs) := by
  rw [winners, List.foldl_append, List.foldl_cons, List.foldl_nil, winners]

/-- A merge leaves the places that there are. -/
theorem mem_map_place_winners {p : Nat × FindingKind} :
    p ∈ (winners vs).map place ↔ p ∈ vs.map place := by
  induction vs using List.reverseRecOn with
  | nil => rfl
  | append_singleton vs v ih =>
    rw [winners_concat, map_place_absorb, List.map_append, List.mem_append, ← ih]
    split
    · rename_i hknown
      refine ⟨.inl, ?_⟩
      rintro (hp | hp)
      · exact hp
      · rwa [List.mem_singleton.mp hp]
    · rw [List.mem_append]
      rfl

theorem nodup_winners (vs : List Vulnerability) : ((winners vs).map place).Nodup := by
  refine List.foldlRecOn (motive := fun kept : List Vulnerability => (kept.map place).Nodup) vs _
    List.nodup_nil ?_
  intro kept h v _
  exact nodup_absorb v h

/-- Where no place comes twice, all are kept, in their order. -/
theorem winners_of_nodup (h : (vs.map place).Nodup) : winners vs = vs := by
  have hfold : ∀ kept : List Vulnerability, ((kept ++ vs).map place).Nodup →
      vs.foldl (fun kept v => absorb v kept) kept = kept ++ vs := by
    clear h
    induction vs with
    | nil => simp
    | cons v vs ih =>
      intro kept h
      have hnew : v.place ∉ kept.map place := by
        intro hmem
        rw [List.map_append, List.map_cons] at h
        exact List.disjoint_of_nodup_append h hmem List.mem_cons_self
      rw [List.foldl_cons, absorb_of_not_mem hnew, ih, List.append_assoc, List.singleton_append]
      rwa [List.append_assoc]
  exact hfold [] h

/-! ## 4. The merged list -/

/-- What vulnerabilities are listed by: first the line, then the column. -/
def rank (v : Vulnerability) : Nat ×ₗ Nat := toLex (v.line, v.column)

theorem rankedBy_rank : RankedBy le rank := fun _ _ => lines_then_columns_iff

theorem pairwise_mergeByLine (vs : List Vulnerability) :
    (mergeByLine vs).Pairwise fun a b => a.rank ≤ b.rank :=
  rankedBy_rank.pairwise_mergeSort (winners vs)

/-- **Merging makes nothing up.** -/
theorem mem_of_mem_mergeByLine (h : w ∈ mergeByLine vs) : w ∈ vs :=
  mem_of_mem_winners (List.mem_mergeSort.mp h)

theorem nodup_mergeByLine (vs : List Vulnerability) : ((mergeByLine vs).map place).Nodup :=
  ((List.mergeSort_perm (winners vs) le).map place).nodup_iff.mpr (nodup_winners vs)

/-- **Where no place comes twice, merging only sorts.** -/
theorem mergeByLine_perm (h : (vs.map place).Nodup) : (mergeByLine vs).Perm vs := by
  rw [mergeByLine, winners_of_nodup h]
  exact List.mergeSort_perm vs le

end CodeAudit.Vulnerability
