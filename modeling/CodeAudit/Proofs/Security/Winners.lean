import CodeAudit.Proofs.Number.Order
import CodeAudit.Proofs.Security.Merging

/-!
# Which vulnerability a merge keeps

Merging goes through a list once and keeps one vulnerability for each place; a surer one that comes
later takes over the slot of the one before it.  Said without the loop, what is kept is the winner of
its place: **none at the place is surer, and all earlier ones are less sure** (`IsWinner`).

A list that is put together from two has the winners of the first that nothing in the second beats,
and the winners of the second that beat all of the first (`isWinner_append`).  One step of the loop is
the case of a single vulnerability (`mem_absorb_iff`), so the loop keeps the winners
(`mem_winners_iff`); and a first list can be replaced by what a merge left of it, since that has the
same winners.  The slots are those of the first appearance of each place (`pairwise_firstSeen`), and
the sort at the end keeps equals in place.

All of it asks that confidences can be compared, which is so if they are numbers.
-/

namespace CodeAudit.Vulnerability

open Number

/-! ## 1. Winners -/

/-- The earliest of the surest at its place. -/
def IsWinner (vs : List Vulnerability) (w : Vulnerability) : Prop :=
  ∃ before after, vs = before ++ w :: after ∧
    (∀ u ∈ vs, u.place = w.place → u.confidence ≤ w.confidence) ∧
    ∀ u ∈ before, u.place = w.place → u.confidence < w.confidence

/-- All confidences are numbers. -/
def Comparable (vs : List Vulnerability) : Prop := ∀ v ∈ vs, v.confidence.isNaN = false

/-- Where in a list the place of a vulnerability comes up first. -/
def firstSeen (vs : List Vulnerability) (v : Vulnerability) : Nat := (vs.map place).idxOf v.place

variable {v w : Vulnerability} {kept vs xs ys : List Vulnerability}

theorem IsWinner.mem (h : IsWinner vs w) : w ∈ vs := by
  obtain ⟨before, after, rfl, -, -⟩ := h
  exact List.mem_append_right before List.mem_cons_self

theorem isWinner_singleton (hv : v.confidence ≤ v.confidence) : IsWinner [v] w ↔ w = v := by
  refine ⟨fun h => List.mem_singleton.mp h.mem, ?_⟩
  rintro rfl
  refine ⟨[], [], rfl, ?_, fun u hu => absurd hu List.not_mem_nil⟩
  intro u hu _
  rwa [List.mem_singleton.mp hu]

/-- **The winners of two lists together** are those of the first that nothing in the second beats, and
those of the second that beat all of the first. -/
theorem isWinner_append : IsWinner (xs ++ ys) w ↔
    (IsWinner xs w ∧ ∀ u ∈ ys, u.place = w.place → u.confidence ≤ w.confidence) ∨
    (IsWinner ys w ∧ ∀ u ∈ xs, u.place = w.place → u.confidence < w.confidence) := by
  constructor
  · rintro ⟨before, after, hsplit, hmost, hearlier⟩
    have hxs : ∀ u ∈ xs, u.place = w.place → u.confidence ≤ w.confidence :=
      fun u hu => hmost u (List.mem_append_left ys hu)
    have hys : ∀ u ∈ ys, u.place = w.place → u.confidence ≤ w.confidence :=
      fun u hu => hmost u (List.mem_append_right xs hu)
    -- the winner stands in one of the two lists
    rcases List.append_eq_append_iff.mp hsplit with ⟨before', rfl, hsecond⟩ | ⟨rest, hfirst, hrest⟩
    · refine .inr ⟨⟨before', after, hsecond, hys, ?_⟩, ?_⟩
      · exact fun u hu => hearlier u (List.mem_append_right xs hu)
      · exact fun u hu => hearlier u (List.mem_append_left before' hu)
    · rcases List.append_eq_cons_iff.mp hrest.symm with ⟨rfl, hsecond⟩ | ⟨rest', rfl, -⟩
      · obtain rfl : xs = before := hfirst.trans (List.append_nil before)
        exact .inr ⟨⟨[], after, hsecond, hys, fun u hu => absurd hu List.not_mem_nil⟩, hearlier⟩
      · exact .inl ⟨⟨before, rest', hfirst, hxs, hearlier⟩, hys⟩
  · rintro (⟨⟨before, after, rfl, hmost, hearlier⟩, hys⟩ | ⟨⟨before, after, rfl, hmost, hearlier⟩, hxs⟩)
    · refine ⟨before, after ++ ys, by simp, ?_, hearlier⟩
      exact fun u hu => (List.mem_append.mp hu).elim (hmost u) (hys u)
    · refine ⟨xs ++ before, after, by simp, ?_, ?_⟩
      · intro u hu hplace
        rcases List.mem_append.mp hu with hu | hu
        · exact le_of_lt (hxs u hu hplace)
        · exact hmost u hu hplace
      · exact fun u hu => (List.mem_append.mp hu).elim (hxs u) (hearlier u)

/-! ## 2. The loop keeps the winners -/

/-- **One step**: what was kept stays unless the new one is surer at its place, and the new one comes
in unless what is kept at its place is as sure. -/
theorem mem_absorb_iff (h : (kept.map place).Nodup) : w ∈ absorb v kept ↔
    (w ∈ kept ∧ (v.place = w.place → ¬ w.confidence < v.confidence)) ∨
    (w = v ∧ ∀ u ∈ kept, u.place = v.place → u.confidence < v.confidence) := by
  induction kept with
  | nil => simp [absorb]
  | cons u kept ih =>
    obtain ⟨hu, hkept⟩ := List.nodup_cons.mp h
    by_cases halike : alike u v = true
    · have hplace : u.place = v.place := (alike_iff u v).mp halike
      have hother : ∀ x ∈ kept, x.place ≠ v.place := by
        intro x hx heq
        exact hu (hplace ▸ heq ▸ List.mem_map_of_mem hx)
      rw [absorb, if_pos halike]
      by_cases hless : u.confidence < v.confidence
      · rw [if_pos hless]
        grind
      · rw [if_neg hless]
        grind
    · have hplace : u.place ≠ v.place := fun heq => halike ((alike_iff u v).mpr heq)
      rw [absorb, if_neg halike, List.mem_cons, ih hkept]
      grind

theorem Comparable.le_self (h : Comparable vs) (hv : v ∈ vs) : v.confidence ≤ v.confidence :=
  le_self_of_isNaN_eq_false (h v hv)

theorem Comparable.append (hxs : Comparable xs) (hys : Comparable ys) : Comparable (xs ++ ys) :=
  fun v hv => (List.mem_append.mp hv).elim (hxs v) (hys v)

/-- If the winners are kept, what beats all that is kept beats all that there was. -/
theorem forall_lt_iff (hplaces : ∀ u ∈ vs, u.place ∈ kept.map place)
    (hkept : ∀ w, w ∈ kept ↔ IsWinner vs w) :
    (∀ u ∈ kept, u.place = v.place → u.confidence < v.confidence) ↔
      ∀ u ∈ vs, u.place = v.place → u.confidence < v.confidence := by
  constructor
  · intro h u hu hplace
    obtain ⟨w, hw, hsame⟩ := List.mem_map.mp (hplaces u hu)
    obtain ⟨-, -, -, hmost, -⟩ := (hkept w).mp hw
    exact lt_of_le_of_lt (hmost u hu hsame.symm) (h w hw (hsame.trans hplace))
  · exact fun h u hu => h u ((hkept u).mp hu).mem

/-- **The loop keeps the winners and nothing else.** -/
theorem mem_winners_iff (h : Comparable vs) : w ∈ winners vs ↔ IsWinner vs w := by
  induction vs using List.reverseRecOn generalizing w with
  | nil => exact ⟨fun hw => absurd hw List.not_mem_nil, fun hw => absurd hw.mem List.not_mem_nil⟩
  | append_singleton vs v ih =>
    have hvs : Comparable vs := fun u hu => h u (List.mem_append_left [v] hu)
    have hv : v.confidence ≤ v.confidence :=
      h.le_self (List.mem_append_right vs List.mem_cons_self)
    have hkept : ∀ w, w ∈ winners vs ↔ IsWinner vs w := fun w => ih hvs
    have hplaces : ∀ u ∈ vs, u.place ∈ (winners vs).map place :=
      fun u hu => mem_map_place_winners.mpr (List.mem_map_of_mem hu)
    have hbeats : ∀ w ∈ vs, ¬ w.confidence < v.confidence ↔ v.confidence ≤ w.confidence := by
      intro w hw
      refine ⟨(lt_or_le (hvs.le_self hw) hv).resolve_left, fun hle hlt => not_le_of_lt hlt hle⟩
    rw [winners_concat, mem_absorb_iff (nodup_winners vs), isWinner_append,
      isWinner_singleton hv, forall_lt_iff hplaces hkept, hkept]
    refine or_congr (and_congr_right fun hw => ?_) (and_congr_right fun hw => ?_)
    · rw [List.forall_mem_singleton, hbeats w hw.mem]
    · rw [hw]

/-! ## 3. Slots -/

/-- The loop keeps the places in the order of their first appearance. -/
theorem pairwise_firstSeen (vs : List Vulnerability) :
    (winners vs).Pairwise fun a b => firstSeen vs a < firstSeen vs b := by
  have hplaces : ((winners vs).map place).Pairwise
      fun p q => (vs.map place).idxOf p < (vs.map place).idxOf q := by
    induction vs using List.reverseRecOn with
    | nil => exact .nil
    | append_singleton vs v ih =>
      have hold : ((winners vs).map place).Pairwise
          fun p q => ((vs ++ [v]).map place).idxOf p < ((vs ++ [v]).map place).idxOf q := by
        refine ih.imp_of_mem fun {p q} hp hq hlt => ?_
        rw [List.map_append, List.idxOf_append_of_mem (mem_map_place_winners.mp hp),
          List.idxOf_append_of_mem (mem_map_place_winners.mp hq)]
        exact hlt
      rw [winners_concat, map_place_absorb]
      split
      · exact hold
      · rename_i hnew
        refine List.pairwise_append.mpr ⟨hold, List.pairwise_singleton _ _, ?_⟩
        intro p hp q hq
        have hp' : p ∈ vs.map place := mem_map_place_winners.mp hp
        have hq' : q ∉ vs.map place := by
          rwa [List.mem_singleton.mp hq, ← mem_map_place_winners]
        rw [List.map_append, List.idxOf_append_of_mem hp', List.idxOf_append_of_notMem hq']
        exact Nat.lt_add_right _ (List.idxOf_lt_length_of_mem hp')
  rwa [List.pairwise_map] at hplaces

/-! ## 4. The merge -/

theorem mem_mergeByLine_iff (h : Comparable vs) : w ∈ mergeByLine vs ↔ IsWinner vs w :=
  List.mem_mergeSort.trans (mem_winners_iff h)

theorem comparable_mergeByLine (h : Comparable vs) : Comparable (mergeByLine vs) :=
  fun v hv => h v (mem_of_mem_mergeByLine hv)

theorem mem_map_place_mergeByLine {p : Nat × FindingKind} :
    p ∈ (mergeByLine vs).map place ↔ p ∈ vs.map place :=
  ((List.mergeSort_perm (winners vs) le).map place).mem_iff.trans mem_map_place_winners

/-- Something is left in each line that had something. -/
theorem exists_line_mergeByLine_iff {line : Nat} :
    (∃ v ∈ mergeByLine vs, v.line = line) ↔ ∃ v ∈ vs, v.line = line := by
  constructor
  · rintro ⟨v, hv, hline⟩
    exact ⟨v, mem_of_mem_mergeByLine hv, hline⟩
  · rintro ⟨v, hv, rfl⟩
    obtain ⟨w, hw, hplace⟩ :=
      List.mem_map.mp (mem_map_place_mergeByLine.mpr (List.mem_map_of_mem hv))
    exact ⟨w, hw, congrArg Prod.fst hplace⟩

/-- What is left of one place is one vulnerability. -/
theorem exists_filter_mergeByLine (hv : v ∈ vs) :
    ∃ w ∈ mergeByLine vs, (mergeByLine vs).filter (·.place = v.place) = [w] := by
  obtain ⟨w, hw, hplace⟩ :=
    List.mem_map.mp (mem_map_place_mergeByLine.mpr (List.mem_map_of_mem hv))
  refine ⟨w, hw, List.perm_singleton.mp ?_⟩
  have hnodup : (mergeByLine vs).Nodup := (nodup_mergeByLine vs).of_map
  rw [List.perm_ext_iff_of_nodup (hnodup.filter _) (List.nodup_singleton w)]
  intro u
  rw [List.mem_filter, decide_eq_true_iff, List.mem_singleton, ← hplace]
  constructor
  · rintro ⟨hu, hsame⟩
    exact List.inj_on_of_nodup_map (nodup_mergeByLine vs) hu hw hsame
  · rintro rfl
    exact ⟨hw, rfl⟩

/-- A second merge finds nothing to do. -/
theorem mergeByLine_mergeByLine (vs : List Vulnerability) :
    mergeByLine (mergeByLine vs) = mergeByLine vs := by
  have hsorted : (mergeByLine vs).Pairwise fun a b => le a b = true :=
    (pairwise_mergeByLine vs).imp fun {a b} h => (rankedBy_rank a b).mpr h
  rw [mergeByLine, winners_of_nodup (nodup_mergeByLine vs), List.mergeSort_of_pairwise hsorted]

theorem isWinner_mergeByLine (h : Comparable vs) : IsWinner (mergeByLine vs) w ↔ IsWinner vs w := by
  rw [← mem_mergeByLine_iff (comparable_mergeByLine h), mergeByLine_mergeByLine,
    mem_mergeByLine_iff h]

/-- **A list may be merged before more is put to it.** -/
theorem mergeByLine_append_perm (hxs : Comparable xs) (hys : Comparable ys) :
    (mergeByLine (mergeByLine xs ++ ys)).Perm (mergeByLine (xs ++ ys)) := by
  have hplaces : ∀ u ∈ xs, u.place ∈ (mergeByLine xs).map place :=
    fun u hu => mem_map_place_mergeByLine.mpr (List.mem_map_of_mem hu)
  rw [List.perm_ext_iff_of_nodup (nodup_mergeByLine _).of_map (nodup_mergeByLine _).of_map]
  intro w
  rw [mem_mergeByLine_iff ((comparable_mergeByLine hxs).append hys),
    mem_mergeByLine_iff (hxs.append hys), isWinner_append, isWinner_append,
    isWinner_mergeByLine hxs, forall_lt_iff hplaces fun w => mem_mergeByLine_iff hxs]

/-- **A merge keeps exactly the winners.**  Of each place that a list has there is one vulnerability
left, the earliest of the surest at that place, and nothing else is left; they are listed by line and
column, and at one line and column in the order in which their places came up first; a second merge
changes nothing; and merging a part first leaves the same vulnerabilities in the end. -/
theorem merge_keeps_winners (vs : List Vulnerability) (h : Comparable vs) :
    (∀ v ∈ vs, ∃ w, IsWinner vs w ∧ (mergeByLine vs).filter (·.place = v.place) = [w]) ∧
    (∀ w ∈ mergeByLine vs, IsWinner vs w) ∧
    ((mergeByLine vs).Pairwise fun a b =>
      a.rank < b.rank ∨ a.rank = b.rank ∧ firstSeen vs a < firstSeen vs b) ∧
    mergeByLine (mergeByLine vs) = mergeByLine vs ∧
    ∀ ys, Comparable ys →
      (mergeByLine (mergeByLine vs ++ ys)).Perm (mergeByLine (vs ++ ys)) := by
  refine ⟨?_, fun w => (mem_mergeByLine_iff h).mp, ?_, mergeByLine_mergeByLine vs,
    fun ys => mergeByLine_append_perm h⟩
  · intro v hv
    obtain ⟨w, hw, hfilter⟩ := exists_filter_mergeByLine hv
    exact ⟨w, (mem_mergeByLine_iff h).mp hw, hfilter⟩
  · have htie : (mergeByLine vs).Pairwise
        fun a b => a.rank = b.rank → firstSeen vs a < firstSeen vs b :=
      rankedBy_rank.pairwise_mergeSort_tie (pairwise_firstSeen vs)
    refine (pairwise_mergeByLine vs).imp₂ (fun a b hrank hslot => ?_) htie
    rcases hrank.lt_or_eq with hlt | heq
    · exact .inl hlt
    · exact .inr ⟨heq, hslot heq⟩

/-- A vulnerability of line two, column one. -/
def onLineTwo (kind : FindingKind) (message : String) (confidence : Float) : Vulnerability :=
  (fresh kind .critical ⟨2, 1, 2, 9⟩ message []).withConfidence confidence

/-- Three passes over one line: the last two are equally sure of the same thing. -/
def threePasses : List Vulnerability :=
  [onLineTwo .sqlInjection "first" 0.85, onLineTwo .xss "other" 0.9,
    onLineTwo .sqlInjection "second" 0.9, onLineTwo .sqlInjection "third" 0.9]

/-- The earlier of the two surest is kept, in the slot of the first. -/
theorem second_pass_kept : Comparable threePasses ∧
    (∀ w ∈ mergeByLine threePasses, IsWinner threePasses w) ∧
    (mergeByLine threePasses).map message = ["second", "other"] := by
  have hcomparable : Comparable threePasses := by
    simp only [Comparable, threePasses, List.forall_mem_cons]
    exact ⟨rfl, rfl, rfl, rfl, fun v hv => absurd hv List.not_mem_nil⟩
  have hsorted : (winners threePasses).Pairwise fun a b => le a b = true := by decide +kernel
  refine ⟨hcomparable, (merge_keeps_winners threePasses hcomparable).2.1, ?_⟩
  rw [mergeByLine, List.mergeSort_of_pairwise hsorted]
  decide +kernel

end CodeAudit.Vulnerability
