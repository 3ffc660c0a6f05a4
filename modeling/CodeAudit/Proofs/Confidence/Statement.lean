import CodeAudit.Confidence.Basic
import CodeAudit.Proofs.Number.Sums

/-!
# What a reasoning says about its finding

The reasoning of a validated finding ends by stating its confidence.  A penalty changes the
confidence, so it looks for the last place where the reasoning states one, cuts the text off there
and states the new one; it does so only if it takes something off.  Nothing else in a reasoning has
a capital C, neither what validation found nor the cause of a penalty nor a number, so there is
always one such place, and it is the right one (`restate_eq`).

What is stated is then the confidence itself, however many penalties there were, with one exception
(`Stale`): a confidence of `-0.0` becomes `0.0` when a penalty of `-0.0` is taken off, and as
nothing was taken off the reasoning goes on saying `-0%`.
-/

namespace CodeAudit

/-! ## 1. Where a confidence is stated -/

namespace Confidence

/-- Sentences, each with its full stop and a blank. -/
def sentences (texts : List String) : List Char :=
  texts.flatMap fun text => text.toList ++ ". ".toList

theorem capital_notMem_toDigits (n : ℕ) : 'C' ∉ Nat.toDigits 10 n := by
  intro h
  have hdigit := Nat.isDigit_of_mem_toDigits (by decide) (by decide) h
  exact absurd hdigit (by decide)

theorem capital_notMem_fixed (x : Float) : 'C' ∉ (Decimal.fixed 0 x).toList := by
  have hzeros (n : ℕ) : 'C' ∉ Decimal.zeros n := fun h => by cases List.eq_of_mem_replicate h
  unfold Decimal.fixed
  split
  · decide
  · split <;> decide
  · simp only [if_true, String.toList_append, String.toList_ofList, List.mem_append, not_or]
    refine ⟨by split <;> decide, fun h => ?_⟩
    rcases List.mem_append.mp (List.mem_of_mem_take h) with hzero | hdigit
    · exact hzeros _ hzero
    · exact capital_notMem_toDigits _ hdigit

theorem capital_notMem_grounds (kind : FindingKind) (e : Evidence) :
    ∀ text ∈ grounds kind e, 'C' ∉ text.toList := by
  have hstandard : ∀ text ∈ ["Standard validation applied"], 'C' ∉ text.toList := by decide
  have hcount (before after : String) (hbefore : 'C' ∉ before.toList)
      (hafter : 'C' ∉ after.toList) :
      'C' ∉ (before ++ toString e.referenceCount ++ after).toList := by
    simp only [String.toList_append, List.mem_append, not_or]
    refine ⟨⟨hbefore, ?_⟩, hafter⟩
    rw [Nat.toString_eq_ofList_toDigits, String.toList_ofList]
    exact capital_notMem_toDigits _
  cases kind with
  | orphanedCode =>
    unfold grounds
    dsimp only
    split_ifs
    · have hfirst :=
        hcount "Function is referenced " " times in other files" (by decide) (by decide)
      exact List.forall_mem_cons.mpr ⟨hfirst, by decide +kernel⟩
    · decide +kernel
    · decide +kernel
  | unusedVariable =>
    unfold grounds
    dsimp only
    split_ifs
    · decide +kernel
    · have hfirst := hcount "Variable referenced " " times in other files" (by decide) (by decide)
      exact List.forall_mem_cons.mpr ⟨hfirst, by decide +kernel⟩
    · decide +kernel
  | emptyCatch =>
    unfold grounds
    dsimp only
    split_ifs <;> decide +kernel
  | _ => exact hstandard

theorem capital_notMem_sentences {texts : List String} (h : ∀ text ∈ texts, 'C' ∉ text.toList) :
    'C' ∉ sentences texts := by
  intro hmem
  obtain ⟨text, htext, hin⟩ := List.mem_flatMap.mp hmem
  rcases List.mem_append.mp hin with hin | hin
  · exact h text htext hin
  · exact absurd hin (by decide)

/-- A status is the mark and then text without a capital C. -/
theorem exists_status_eq (x : Float) (safe : Bool) :
    ∃ rest, 'C' ∉ rest ∧ (status x safe).toList = statusMark.toList ++ rest := by
  refine ⟨(Decimal.fixed 0 (x * 100.0)).toList ++ "%. ".toList ++
    (if safe then "Safe for automated refactoring" else "Requires human review").toList, ?_, ?_⟩
  · simp only [List.mem_append, not_or]
    exact ⟨⟨capital_notMem_fixed _, by decide⟩, by cases safe <;> decide⟩
  · simp only [status, String.toList_append, List.append_assoc]

/-- A text without a capital C states no confidence. -/
theorem beforeLastWord?_eq_none {s : List Char} (h : 'C' ∉ s) :
    Text.beforeLastWord? statusMark s = none := by
  induction s with
  | nil => rfl
  | cons c s ih =>
    obtain ⟨hc, hs⟩ := not_or.mp (mt List.mem_cons.mpr h)
    rw [Text.beforeLastWord?, ih hs]
    refine if_neg fun hprefix => ?_
    obtain ⟨t, ht⟩ := List.isPrefixOf_iff_prefix.mp hprefix
    exact hc (List.cons.inj ht).1

/-- The last mark is found where no capital C follows. -/
theorem beforeLastWord?_mark {before rest : List Char} (h : 'C' ∉ rest) :
    Text.beforeLastWord? statusMark (before ++ (statusMark.toList ++ rest)) = some before := by
  induction before with
  | nil =>
    have htail : 'C' ∉ "onfidence: ".toList ++ rest := by
      rw [List.mem_append, not_or]
      exact ⟨by decide, h⟩
    have hmark : statusMark.toList ++ rest = 'C' :: ("onfidence: ".toList ++ rest) := rfl
    rw [List.nil_append, hmark, Text.beforeLastWord?, beforeLastWord?_eq_none htail]
    exact if_pos (List.isPrefixOf_iff_prefix.mpr ⟨rest, rfl⟩)
  | cons c before ih => rw [List.cons_append, Text.beforeLastWord?, ih]

/-- **A confidence is restated in place of the one that the reasoning ends with.** -/
theorem restate_eq {reasoning : String} {before : List Char} {x : Float} {safe : Bool}
    (h : reasoning.toList = before ++ (status x safe).toList) (y : Float) (safe' : Bool) :
    (Finding.restate reasoning y safe').toList = before ++ (status y safe').toList := by
  obtain ⟨rest, hrest, hstatus⟩ := exists_status_eq x safe
  rw [Finding.restate, h, hstatus, beforeLastWord?_mark hrest]
  simp

/-- **A text without a capital C and a status state one confidence.** -/
theorem existsUnique_mark {before : List Char} (h : 'C' ∉ before) (x : Float) (safe : Bool) :
    ∃! start, ∃ rest, before ++ (status x safe).toList = start ++ statusMark.toList ++ rest := by
  obtain ⟨rest, hrest, hstatus⟩ := exists_status_eq x safe
  rw [hstatus]
  refine ⟨before, ⟨rest, (List.append_assoc _ _ _).symm⟩, ?_⟩
  rintro start ⟨rest', heq⟩
  have hmark (t : List Char) : statusMark.toList ++ t = 'C' :: ("onfidence: ".toList ++ t) := rfl
  have htail : 'C' ∉ "onfidence: ".toList ++ rest := by
    rw [List.mem_append, not_or]
    exact ⟨by decide, hrest⟩
  rw [List.append_assoc, hmark, hmark] at heq
  exact ((List.append_cons_inj_of_notMem h htail).mp heq).1.symm

theorem toList_reasoning (kind : FindingKind) (e : Evidence) (x : Float) (safe : Bool) :
    (reasoning kind e x safe).toList = sentences (grounds kind e) ++ (status x safe).toList := by
  have hjoin (texts : List String) (last : String) :
      (String.intercalate ". " (texts ++ [last])).toList = sentences texts ++ last.toList := by
    rw [String.toList_intercalate]
    induction texts with
    | nil => simp [sentences]
    | cons text texts ih =>
      have hne : (texts ++ [last]).map String.toList ≠ [] := by simp
      obtain ⟨head, tail, hcons⟩ := List.exists_cons_of_ne_nil hne
      rw [List.cons_append, List.map_cons, hcons, List.intercalate_cons_cons, ← hcons, ih]
      simp [sentences]
  exact hjoin _ _

end Confidence

theorem RiskMarkers.capital_notMem_cause {m : RiskMarkers} {text : String}
    (h : m.cause? = some text) : 'C' ∉ text.toList := by
  unfold cause? at h
  split_ifs at h <;> cases h <;> decide +kernel

/-! ## 2. Confidences after penalties -/

open Number

/-- The confidences that a finding can start from. -/
def Confidences.bases (c : Confidences) : List Float :=
  [c.orphaned, c.unused, c.emptyCatch, c.duplicate, c.other]

theorem Confidence.inUnit_base {c : Confidences} (hc : ∀ x ∈ c.bases, InUnit x) (kind : FindingKind)
    (e : Evidence) : InUnit (base c kind e) := by
  simp only [Confidences.bases, List.forall_mem_cons] at hc
  obtain ⟨horphaned, hunused, hcatch, hduplicate, hother, -⟩ := hc
  unfold base
  split
  · split_ifs <;> [exact inUnit_zero; exact horphaned]
  · split_ifs <;> [exact inUnit_zero; exact hunused]
  · split_ifs <;> [exact inUnit_zero; exact hcatch]
  · exact hduplicate
  · exact hother

/-- The confidence has gone from `-0.0` to `0.0` although no penalty has taken anything off. -/
structure Stale (base : Float) (ms : List RiskMarkers) : Prop where
  base_eq : base = -0.0
  nothing : ∀ m ∈ ms, m.penalty ≤ 0.0
  negative : ∃ m ∈ ms, m.penalty = -0.0

/-- What is stated and what the confidence is, after penalties. -/
structure Scored (base : Float) (ms : List RiskMarkers) (stated confidence : Float) : Prop where
  penalties : ∀ m ∈ ms, InUnit m.penalty
  inUnit : InUnit confidence
  eq_negZero_iff : confidence = -0.0 ↔ base = -0.0 ∧ ∀ m ∈ ms, m.penalty = 0.0
  fresh : ¬ Stale base ms → stated = confidence
  stale : Stale base ms → stated = -0.0 ∧ confidence = 0.0

theorem Scored.start {base : Float} (h : InUnit base) : Scored base [] base base where
  penalties := by simp
  inUnit := h
  eq_negZero_iff := by simp
  fresh := fun _ => rfl
  stale := fun hstale => by simpa using hstale.negative

theorem zero_ne_negZero : (0.0 : Float) ≠ -0.0 := by decide

/-- A penalty that takes something off never leaves `-0.0`. -/
theorem clampUnit_sub_ne_negZero {x p : Float} (hx : InUnit x) (hp : InUnit p) (hpos : 0.0 < p) :
    clampUnit (x - p) ≠ -0.0 := by
  obtain ⟨hnothing, hsomething⟩ := clampUnit_sub hx hp hpos
  have hself {y : Float} (hy : InUnit y) := le_self_of_isFinite (isFinite_of_inUnit hy)
  rcases lt_or_le (hself hp) (hself hx) with hlt | hle
  · intro heq
    have hneg := hsomething hlt
    rw [heq] at hneg
    exact absurd hneg (by decide)
  · rw [hnothing hle]
    exact zero_ne_negZero

/-- A penalty of zero leaves the confidence alone, unless both are `-0.0`. -/
theorem clampUnit_sub_of_nonpos {x p : Float} (hx : InUnit x) (hp : InUnit p) (hzero : p ≤ 0.0) :
    x = -0.0 ∧ p = -0.0 ∧ clampUnit (x - p) = 0.0 ∨
      ¬ (x = -0.0 ∧ p = -0.0) ∧ clampUnit (x - p) = x := by
  rcases eq_zero_or_eq_negZero hp.1 hzero with rfl | rfl
  · refine .inr ⟨fun h => zero_ne_negZero h.2, ?_⟩
    rw [sub_zero_eq, clampUnit_eq_self hx]
  · by_cases hneg : x = -0.0
    · subst hneg
      exact .inl ⟨rfl, rfl, rfl⟩
    · refine .inr ⟨fun h => hneg h.1, ?_⟩
      rw [sub_negZero_eq hneg, clampUnit_eq_self hx]

theorem forall_mem_concat {ms : List RiskMarkers} {m : RiskMarkers} {P : RiskMarkers → Prop} :
    (∀ n ∈ ms ++ [m], P n) ↔ (∀ n ∈ ms, P n) ∧ P m := by
  simp [or_imp, forall_and]

namespace Scored

variable {base stated confidence : Float} {ms : List RiskMarkers} {m : RiskMarkers}

theorem inUnit_penalize (h : Scored base ms stated confidence) (hunit : InUnit m.penalty) :
    InUnit (clampUnit (confidence - m.penalty)) :=
  inUnit_clampUnit <|
    finite_sub (isFinite_of_inUnit h.inUnit) (le_self_of_isFinite (isFinite_of_inUnit hunit))

/-- After a penalty that takes something off, the confidence is stated anew. -/
theorem penalize_pos (h : Scored base ms stated confidence) (hunit : InUnit m.penalty)
    (hpos : 0.0 < m.penalty) :
    Scored base (ms ++ [m]) (clampUnit (confidence - m.penalty))
      (clampUnit (confidence - m.penalty)) where
  penalties := forall_mem_concat.mpr ⟨h.penalties, hunit⟩
  inUnit := h.inUnit_penalize hunit
  eq_negZero_iff := by
    constructor
    · exact fun heq => absurd heq (clampUnit_sub_ne_negZero h.inUnit hunit hpos)
    · rintro ⟨-, hall⟩
      rw [(forall_mem_concat.mp hall).2] at hpos
      exact absurd hpos (by decide)
  fresh := fun _ => rfl
  stale := fun hstale => absurd (forall_mem_concat.mp hstale.nothing).2 (not_le_of_lt hpos)

/-- Before a penalty of `-0.0` nothing is stale where all penalties were `0.0`. -/
theorem not_stale (hall : ∀ n ∈ ms, n.penalty = 0.0) : ¬ Stale base ms := by
  rintro ⟨-, -, n, hn, heq⟩
  exact zero_ne_negZero ((hall n hn).symm.trans heq)

/-- Penalties that take nothing off are `0.0` unless one is `-0.0`. -/
theorem all_zero (h : Scored base ms stated confidence) (hnothing : ∀ n ∈ ms, n.penalty ≤ 0.0)
    (hnone : ¬ ∃ n ∈ ms, n.penalty = -0.0) : ∀ n ∈ ms, n.penalty = 0.0 := by
  intro n hn
  have hzeros := eq_zero_or_eq_negZero (h.penalties n hn).1 (hnothing n hn)
  exact hzeros.resolve_right fun heq => hnone ⟨n, hn, heq⟩

/-- After a penalty that takes nothing off, what was stated still holds, unless the confidence was
`-0.0` and no longer is. -/
theorem penalize_zero (h : Scored base ms stated confidence) (hunit : InUnit m.penalty)
    (hzero : m.penalty ≤ 0.0) :
    Scored base (ms ++ [m]) stated (clampUnit (confidence - m.penalty)) := by
  have hpenalties := forall_mem_concat.mpr ⟨h.penalties, hunit⟩
  rcases clampUnit_sub_of_nonpos h.inUnit hunit hzero with ⟨hconf, hm, heq⟩ | ⟨hne, heq⟩
  · -- the confidence was `-0.0` until now, so what is stated was right until now
    obtain ⟨hbase, hall⟩ := h.eq_negZero_iff.mp hconf
    have hnow : Stale base (ms ++ [m]) := by
      refine ⟨hbase, forall_mem_concat.mpr ⟨fun n hn => ?_, hzero⟩, m, by simp, hm⟩
      rw [hall n hn]
      exact inUnit_zero.1
    refine ⟨hpenalties, h.inUnit_penalize hunit, ?_, fun hfresh => absurd hnow hfresh, fun _ => ?_⟩
    · rw [heq, forall_mem_concat, hm]
      exact ⟨fun hz => absurd hz zero_ne_negZero, fun hz => absurd hz.2.2.symm zero_ne_negZero⟩
    · exact ⟨(h.fresh (not_stale hall)).trans hconf, heq⟩
  · refine ⟨hpenalties, h.inUnit_penalize hunit, ?_, ?_, ?_⟩
    · rw [heq, forall_mem_concat, h.eq_negZero_iff]
      constructor
      · rintro ⟨hbase, hall⟩
        have hnot : m.penalty ≠ -0.0 := fun hm => hne ⟨h.eq_negZero_iff.mpr ⟨hbase, hall⟩, hm⟩
        exact ⟨hbase, hall, (eq_zero_or_eq_negZero hunit.1 hzero).resolve_right hnot⟩
      · rintro ⟨hbase, hall, -⟩
        exact ⟨hbase, hall⟩
    · intro hfresh
      rw [heq]
      refine h.fresh fun hstale => hfresh ?_
      obtain ⟨n, hn, hneg⟩ := hstale.negative
      exact ⟨hstale.base_eq, forall_mem_concat.mpr ⟨hstale.nothing, hzero⟩, n, by simp [hn], hneg⟩
    · rintro ⟨hbase, hnothing, n, hn, hneg⟩
      obtain ⟨hnothing, -⟩ := forall_mem_concat.mp hnothing
      rw [heq]
      refine h.stale ⟨hbase, hnothing, ?_⟩
      -- if the first `-0.0` came only now, the confidence would be `-0.0`, which was excluded
      by_contra hnone
      have hconf := h.eq_negZero_iff.mpr ⟨hbase, h.all_zero hnothing hnone⟩
      rcases List.mem_append.mp hn with hn | hn
      · exact hnone ⟨n, hn, hneg⟩
      · obtain rfl := List.mem_singleton.mp hn
        exact hne ⟨hconf, hneg⟩

end Scored

/-! ## 3. The reasoning after penalties -/

/-- The causes of the penalties that take something off, the latest first. -/
def RiskMarkers.causes (ms : List RiskMarkers) : List String :=
  ((ms.filter fun m => decide (0.0 < m.penalty)).filterMap cause?).reverse

theorem RiskMarkers.causes_concat (ms : List RiskMarkers) (m : RiskMarkers) :
    causes (ms ++ [m]) = (if 0.0 < m.penalty then m.cause?.toList else []) ++ causes ms := by
  unfold causes
  rw [List.filter_append, List.filterMap_append, List.reverse_append]
  congr 1
  by_cases hpos : 0.0 < m.penalty
  · rw [List.filter_cons_of_pos (by simpa using hpos), if_pos hpos]
    cases hcause : m.cause? <;> simp [hcause]
  · rw [List.filter_cons_of_neg (by simpa using hpos), if_neg hpos]
    rfl

theorem RiskMarkers.capital_notMem_causes (ms : List RiskMarkers) :
    ∀ text ∈ causes ms, 'C' ∉ text.toList := by
  intro text htext
  obtain ⟨m, -, hcause⟩ := List.mem_filterMap.mp (List.mem_reverse.mp htext)
  exact capital_notMem_cause hcause

namespace Finding

open Confidence

variable {c : Confidences} {e : Evidence} {f g : Finding} {ms : List RiskMarkers} {m : RiskMarkers}
  {stated : Float}

/-- Takes off one penalty after the other. -/
def penalizeAll (c : Confidences) (f : Finding) (ms : List RiskMarkers) : Finding :=
  ms.foldl (fun g m => g.penalize c m) f

/-- A finding whose reasoning gives causes, what validation found, and a confidence. -/
structure States (c : Confidences) (f : Finding) (e : Evidence) (ms : List RiskMarkers)
    (stated : Float) (g : Finding) : Prop where
  kind : g.kind = f.kind
  validated : g.validated = true
  safe : g.autoFixSafe = isSafe c f.kind g.confidence
  text : g.reasoning.toList = sentences (RiskMarkers.causes ms) ++ sentences (grounds f.kind e) ++
    (status stated g.autoFixSafe).toList

theorem states_rescore (c : Confidences) (f : Finding) (e : Evidence) :
    States c f e [] (base c f.kind e) (f.rescore c e) :=
  ⟨rfl, rfl, rfl, toList_reasoning ..⟩

theorem toList_precede {cause : Option String} {reasoning : String} (h : reasoning.toList ≠ []) :
    (precede cause reasoning).toList = sentences cause.toList ++ reasoning.toList := by
  cases cause with
  | none => rfl
  | some cause =>
    have hne : reasoning.isEmpty = false := by
      rw [String.isEmpty_eq_false_iff]
      rintro rfl
      exact h rfl
    simp [precede, hne, sentences]

/-- A penalty that takes something off states the new confidence behind its cause. -/
theorem States.penalize_pos (h : States c f e ms stated g) (hpos : 0.0 < m.penalty) :
    States c f e (ms ++ [m]) (g.penalize c m).confidence (g.penalize c m) := by
  have hrestated := restate_eq h.text (g.penalize c m).confidence (g.penalize c m).autoFixSafe
  have hreasoning : (g.penalize c m).reasoning = precede m.cause?
      (restate g.reasoning (g.penalize c m).confidence (g.penalize c m).autoFixSafe) := by
    simp only [Finding.penalize, h.validated, if_true, if_neg (not_le_of_lt hpos)]
  refine ⟨h.kind, h.validated, by rw [← h.kind]; rfl, ?_⟩
  rw [hreasoning, toList_precede, hrestated, RiskMarkers.causes_concat, if_pos hpos]
  · simp [sentences]
  · obtain ⟨rest, -, hstatus⟩ :=
      exists_status_eq (g.penalize c m).confidence (g.penalize c m).autoFixSafe
    rw [hrestated, hstatus]
    simp [statusMark]

/-- The two zeros are alike to a threshold. -/
theorem isSafe_clampUnit_sub {x p : Float} (hx : InUnit x) (hp : InUnit p) (hzero : p ≤ 0.0)
    (c : Confidences) (kind : FindingKind) :
    isSafe c kind (clampUnit (x - p)) = isSafe c kind x := by
  rcases clampUnit_sub_of_nonpos hx hp hzero with ⟨hconf, -, heq⟩ | ⟨-, heq⟩
  · have hzeros : (c.autoFixThreshold ≤ 0.0) ↔ (c.autoFixThreshold ≤ -0.0) := by
      constructor <;> intro hle
      · exact le_trans hle (by decide)
      · exact le_trans hle (by decide)
    rw [heq, hconf]
    simp only [isSafe, decide_eq_decide.mpr hzeros]
  · rw [heq]

/-- A penalty that takes nothing off leaves the reasoning alone, and whether the finding is safe. -/
theorem States.penalize_zero (h : States c f e ms stated g) (hconf : InUnit g.confidence)
    (hunit : InUnit m.penalty) (hzero : m.penalty ≤ 0.0) :
    States c f e (ms ++ [m]) stated (g.penalize c m) := by
  have hsafe : (g.penalize c m).autoFixSafe = g.autoFixSafe := by
    rw [h.safe, ← h.kind]
    exact isSafe_clampUnit_sub hconf hunit hzero c g.kind
  have hreasoning : (g.penalize c m).reasoning = g.reasoning := if_pos hzero
  have hcauses : RiskMarkers.causes (ms ++ [m]) = RiskMarkers.causes ms := by
    rw [RiskMarkers.causes_concat, if_neg fun hpos => not_le_of_lt hpos hzero]
    rfl
  refine ⟨h.kind, h.validated, by rw [← h.kind]; rfl, ?_⟩
  rw [hreasoning, hsafe, hcauses]
  exact h.text

/-- **After every penalty the reasoning is made of the causes, what validation found and a
confidence.** -/
theorem exists_states (hc : ∀ x ∈ c.bases, InUnit x) (f : Finding) (e : Evidence)
    (hms : ∀ m ∈ ms, InUnit m.penalty) :
    ∃ stated, Scored (base c f.kind e) ms stated ((f.rescore c e).penalizeAll c ms).confidence ∧
      States c f e ms stated ((f.rescore c e).penalizeAll c ms) := by
  induction ms using List.reverseRecOn with
  | nil => exact ⟨_, .start (inUnit_base hc f.kind e), states_rescore c f e⟩
  | append_singleton ms m ih =>
    obtain ⟨hms, hunit⟩ := forall_mem_concat.mp hms
    obtain ⟨stated, hscored, hstates⟩ := ih hms
    have hself : m.penalty ≤ m.penalty := le_self_of_isFinite (isFinite_of_inUnit hunit)
    rw [penalizeAll, List.foldl_append]
    rcases lt_or_le inUnit_zero.1 hself with hpos | hzero
    · exact ⟨_, hscored.penalize_pos hunit hpos, hstates.penalize_pos hpos⟩
    · exact ⟨stated, hscored.penalize_zero hunit hzero,
        hstates.penalize_zero hscored.inUnit hunit hzero⟩

theorem capital_notMem_before (f : Finding) (e : Evidence) (ms : List RiskMarkers) :
    'C' ∉ sentences (RiskMarkers.causes ms) ++ sentences (grounds f.kind e) := by
  rw [List.mem_append, not_or]
  exact ⟨capital_notMem_sentences (RiskMarkers.capital_notMem_causes ms),
    capital_notMem_sentences (capital_notMem_grounds f.kind e)⟩

/-- A text that ends by stating `-0%` does not end by stating `0%`. -/
theorem not_suffix_status_zero (before : List Char) (safe : Bool) :
    ¬ (status 0.0 safe).toList <:+ before ++ (status (-0.0) safe).toList := by
  have hlength : ∀ safe, (status 0.0 safe).toList.length ≤ (status (-0.0) safe).toList.length := by
    decide +kernel
  have hend : ∀ safe, ¬ (status 0.0 safe).toList <:+ (status (-0.0) safe).toList := by
    decide +kernel
  intro hsuffix
  exact hend safe (List.suffix_of_suffix_length_le hsuffix (List.suffix_append _ _) (hlength safe))

/-- **The reasoning of a validated finding states its confidence**, after any penalties between
zero and one.  It states one confidence only, at its end; before it stands what validation wrote,
and before that the causes of the penalties that took something off, the latest first.  What is
stated is the confidence of the finding, unless that has gone from `-0.0` to `0.0` without anything
being taken off. -/
theorem reasoning_states_confidence (hc : ∀ x ∈ c.bases, InUnit x) (f : Finding) (e : Evidence)
    (hms : ∀ m ∈ ms, InUnit m.penalty) :
    let first := f.rescore c e
    let last := first.penalizeAll c ms
    let own := sentences (grounds f.kind e)
    first.reasoning.toList = own ++ (status first.confidence first.autoFixSafe).toList ∧
    (∃ stated, last.reasoning.toList =
        sentences (RiskMarkers.causes ms) ++ own ++ (status stated last.autoFixSafe).toList ∧
      (¬ Stale first.confidence ms → stated = last.confidence) ∧
      (Stale first.confidence ms → stated = -0.0 ∧ last.confidence = 0.0)) ∧
    (∃! start, ∃ rest, last.reasoning.toList = start ++ statusMark.toList ++ rest) ∧
    ((status last.confidence last.autoFixSafe).toList <:+ last.reasoning.toList ↔
      ¬ Stale first.confidence ms) := by
  intro first last own
  obtain ⟨stated, hscored, hstates⟩ := exists_states hc f e hms
  refine ⟨toList_reasoning .., ⟨stated, hstates.text, hscored.fresh, hscored.stale⟩, ?_, ?_⟩
  · rw [hstates.text]
    exact existsUnique_mark (capital_notMem_before f e ms) _ _
  · constructor
    · intro hsuffix hstale
      obtain ⟨hstated, hconf⟩ := hscored.stale hstale
      rw [hconf, hstates.text, hstated] at hsuffix
      exact not_suffix_status_zero _ _ hsuffix
    · intro hfresh
      rw [hstates.text, hscored.fresh hfresh]
      exact List.suffix_append _ _

/-- A function that nothing seems to call. -/
def uncalled : Finding := .fresh .orphanedCode .warning ⟨1, 1, 1, 1⟩ "" []

/-- A file with reflection in it that is found to be generated as well: both causes stand before
what validation found, and the confidence is stated once. -/
theorem generated_after_reflection :
    let ms : List RiskMarkers :=
      [{ reflection := true, penalty := 0.3 }, { plugin := true, penalty := 0.0 },
        { generated := true, penalty := 1.0 }]
    let last := (uncalled.rescore {} {}).penalizeAll {} ms
    (∀ m ∈ ms, InUnit m.penalty) ∧
    (status last.confidence last.autoFixSafe).toList <:+ last.reasoning.toList ∧
    last.reasoning = "Generated code detected, manual changes would be overwritten. " ++
      "Reflection detected, references may be invisible to static analysis. " ++
      "No references found in codebase. High confidence function is orphaned. " ++
      "Confidence: 0%. Requires human review" := by
  intro ms last
  have hms : ∀ m ∈ ms, InUnit m.penalty := by decide
  obtain ⟨-, -, -, hends⟩ :=
    @reasoning_states_confidence {} ms (by decide) uncalled {} hms
  refine ⟨hms, hends.mpr ?_, by decide +kernel⟩
  rintro ⟨hbase, -, -⟩
  exact absurd hbase (by decide)

/-- A base of `-0.0` and a penalty of `-0.0` leave a confidence of `0.0` and a reasoning that says
`-0%`. -/
theorem negative_zero_stays_stated :
    let c : Confidences := { orphaned := -0.0 }
    let ms : List RiskMarkers := [{ generated := true, penalty := -0.0 }]
    let last := (uncalled.rescore c {}).penalizeAll c ms
    (∀ x ∈ c.bases, InUnit x) ∧ (∀ m ∈ ms, InUnit m.penalty) ∧ last.confidence = 0.0 ∧
    last.reasoning = "No references found in codebase. High confidence function is orphaned. " ++
      "Confidence: -0%. Requires human review" ∧
    ¬ (status last.confidence last.autoFixSafe).toList <:+ last.reasoning.toList := by
  decide +kernel

end Finding

end CodeAudit
