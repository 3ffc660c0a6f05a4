import CodeAudit.Proofs.Confidence.Eligibility
import CodeAudit.Proofs.Number.Sums
import CodeAudit.Proofs.Pattern.Surroundings

/-!
# Risk markers and the text around them

A marker is a pattern that is looked for in the whole source.  None of the patterns asks for the
edge of a word, or where the text begins or ends, so **text around a source hides none of its
markers** (`within_append`): every flag stays set, and every pattern of a family that was recorded
is recorded again.

More flags mean a penalty that is not less (`ordered_penaltyOf`).  The penalties are added up in
floating point, so this rests on rounding keeping the order; the cut at one and the penalty for
generated code, which takes the place of the sum, are harmless because that penalty is one.  In the
end a finding never has a higher confidence for text around its source.
-/

namespace CodeAudit

open Number

/-! ## 1. What is recorded -/

namespace Marker

/-- The families of a language. -/
def families (known : Option Language) : List Marker :=
  reflection known ++ dynamicImport known ++ plugin known

theorem isPlaceless_of_mem_families {known : Option Language} {marker : Marker}
    (h : marker ∈ families known) : marker.pattern.isPlaceless = true := by
  have hall : ∀ known, ∀ marker ∈ families known, marker.pattern.isPlaceless = true := by
    rintro (_ | (_ | _ | _ | _)) <;> decide
  exact hall known marker h

theorem isPlaceless_banner : banner.isPlaceless = true := rfl

/-- The openings of comments that a banner can stand in. -/
def commentOpenings : List String := ["//", "#", "<!--"]

/-- No two patterns of a language are reported under one name, and none under a name that a comment
could begin with. -/
theorem names_distinct (known : Option Language) :
    ((families known).map name).Nodup ∧ ∀ marker ∈ families known, ∀ opening ∈ commentOpenings,
      marker.name.toList.head? ≠ opening.toList.head? := by
  rcases known with _ | (_ | _ | _ | _) <;> decide

theorem mem_present_iff {family : List Marker} {source : List Char} {text : String} :
    text ∈ present family source ↔
      ∃ marker ∈ family, marker.pattern.occursIn source = true ∧ marker.name = text := by
  simp [present, and_assoc]

theorem present_isEmpty_eq_false_iff {family : List Marker} {source : List Char} :
    (!(present family source).isEmpty) = true ↔
      ∃ marker ∈ family, marker.pattern.occursIn source = true := by
  simp [present]

/-- A banner is found with its text, which begins like a comment. -/
theorem exists_of_find?_banner {source : List Char} {m : Pattern.Match}
    (h : banner.find? source = some m) :
    ∃ text, Text.slice m.start m.stop source = some text ∧
      ∃ opening ∈ commentOpenings, opening.toList <+: text := by
  obtain ⟨pre, piece, post, p, p', rfl, hoffset, hpiece, hstart, hstop, hreach⟩ :=
    Pattern.find?_eq_some h
  refine ⟨piece, ?_, ?_⟩
  · rw [hstart, hstop, hpiece.2, hoffset]
    exact Text.slice_append pre piece post
  · obtain ⟨q, ds, hwords, hrest⟩ := hreach
    obtain ⟨opening, hopening, hbetween, -⟩ := Pattern.reaches_words hwords
    obtain ⟨t, ht⟩ := hrest.takes
    refine ⟨opening, hopening, t, ?_⟩
    have heq := hpiece.1.symm.trans (hbetween.append ht).1
    exact (List.append_cancel_right heq).symm

end Marker

namespace RiskMarkers

variable {p : Penalties} {source : List Char} {language : String}

theorem reflection_ofSource_iff : (ofSource p source language).reflection = true ↔
    ∃ marker ∈ Marker.reflection (Language.ofName? language),
      marker.pattern.occursIn source = true := by
  simp only [ofSource]
  exact Marker.present_isEmpty_eq_false_iff

theorem dynamicImport_ofSource_iff : (ofSource p source language).dynamicImport = true ↔
    ∃ marker ∈ Marker.dynamicImport (Language.ofName? language),
      marker.pattern.occursIn source = true := by
  simp only [ofSource]
  exact Marker.present_isEmpty_eq_false_iff

theorem plugin_ofSource_iff : (ofSource p source language).plugin = true ↔
    ∃ marker ∈ Marker.plugin (Language.ofName? language),
      marker.pattern.occursIn source = true := by
  simp only [ofSource]
  exact Marker.present_isEmpty_eq_false_iff

/-- **A source counts as generated iff a banner occurs in it.** -/
theorem generated_ofSource_iff : (ofSource p source language).generated = true ↔
    Marker.banner.occursIn source = true := by
  have hgenerated : (ofSource p source language).generated =
      ((Marker.banner.find? source).bind fun m => Text.slice m.start m.stop source).isSome := rfl
  rw [hgenerated, Pattern.occursIn]
  cases h : Marker.banner.find? source with
  | none => rfl
  | some m =>
    obtain ⟨text, htext, -⟩ := Marker.exists_of_find?_banner h
    rw [Option.bind_some, htext]
    rfl

/-- **A pattern of a family is recorded iff it occurs in the source.** -/
theorem name_mem_patterns_iff {marker : Marker}
    (h : marker ∈ Marker.families (Language.ofName? language)) :
    marker.name ∈ (ofSource p source language).patterns ↔
      marker.pattern.occursIn source = true := by
  have hpatterns : (ofSource p source language).patterns =
      Marker.present (Marker.families (Language.ofName? language)) source ++
        ((Marker.banner.find? source).bind fun m => Text.slice m.start m.stop source).toList.map
          String.ofList := by
    simp only [ofSource, Marker.families, Marker.present, List.filter_append, List.map_append]
  obtain ⟨hnodup, hopening⟩ := Marker.names_distinct (Language.ofName? language)
  rw [hpatterns, List.mem_append, Marker.mem_present_iff]
  constructor
  · rintro (⟨other, hother, hoccurs, hname⟩ | hbanner)
    · obtain rfl := List.inj_on_of_nodup_map hnodup hother h hname
      exact hoccurs
    · -- the text of a banner is no name of a pattern
      obtain ⟨text, htext, hname⟩ := List.mem_map.mp hbanner
      obtain ⟨m, hm, hslice⟩ := Option.bind_eq_some_iff.mp (Option.mem_toList.mp htext)
      obtain ⟨text', hslice', opening, hmem, rest, hrest⟩ := Marker.exists_of_find?_banner hm
      obtain rfl := Option.some.inj (hslice.symm.trans hslice')
      refine absurd ?_ (hopening marker h opening hmem)
      have hne : ∀ opening ∈ Marker.commentOpenings, opening.toList ≠ [] := by decide
      rw [← hname, String.toList_ofList, ← hrest, List.head?_append_of_ne_nil _ (hne opening hmem)]
  · intro hoccurs
    exact .inl ⟨marker, h, hoccurs, rfl⟩

/-! ## 2. More flags -/

/-- Every flag of one is a flag of the other. -/
structure Within (m m' : RiskMarkers) : Prop where
  reflection : m.reflection = true → m'.reflection = true
  dynamicImport : m.dynamicImport = true → m'.dynamicImport = true
  plugin : m.plugin = true → m'.plugin = true
  generated : m.generated = true → m'.generated = true

/-- **Text around a source hides none of its markers.** -/
theorem within_append (p : Penalties) (language : String) (before source after : List Char) :
    Within (ofSource p source language) (ofSource p (before ++ source ++ after) language) := by
  have hfamily {family : List Marker}
      (hsub : family ⊆ Marker.families (Language.ofName? language)) :
      (∃ marker ∈ family, marker.pattern.occursIn source = true) →
        ∃ marker ∈ family, marker.pattern.occursIn (before ++ source ++ after) = true := by
    rintro ⟨marker, hmem, hoccurs⟩
    have hplaceless := Marker.isPlaceless_of_mem_families (hsub hmem)
    exact ⟨marker, hmem, Pattern.occursIn_append hplaceless hoccurs before after⟩
  constructor
  · rw [reflection_ofSource_iff, reflection_ofSource_iff]
    exact hfamily fun _ h => by simp [Marker.families, h]
  · rw [dynamicImport_ofSource_iff, dynamicImport_ofSource_iff]
    exact hfamily fun _ h => by simp [Marker.families, h]
  · rw [plugin_ofSource_iff, plugin_ofSource_iff]
    exact hfamily fun _ h => by simp [Marker.families, h]
  · rw [generated_ofSource_iff, generated_ofSource_iff]
    exact fun hoccurs => Pattern.occursIn_append Marker.isPlaceless_banner hoccurs before after

/-! ## 3. Penalties -/

/-- Two numbers in order, with a bound. -/
structure Ordered (a b bound : Float) : Prop where
  nonneg : 0.0 ≤ a
  le : a ≤ b
  le_bound : b ≤ bound

/-- Sums are in order when their summands are. -/
theorem Ordered.add {a b u a' b' u' : Float} (h : Ordered a b u) (h' : Ordered a' b' u')
    (hu : u.isFinite = true) (hu' : u'.isFinite = true) : Ordered (a + a') (b + b') (u + u') := by
  have hb := isFinite_of_nonneg_of_le (le_trans h.nonneg h.le) h.le_bound hu
  have hb' := isFinite_of_nonneg_of_le (le_trans h'.nonneg h'.le) h'.le_bound hu'
  have ha := isFinite_of_nonneg_of_le h.nonneg h.le hb
  have ha' := isFinite_of_nonneg_of_le h'.nonneg h'.le hb'
  exact ⟨add_nonneg h.nonneg h'.nonneg, add_le_add_of_isFinite ha ha' hb hb' h.le h'.le,
    add_le_add_of_isFinite hb hb' hu hu' h.le_bound h'.le_bound⟩

/-- What a flag adds to the penalty. -/
def share (found : Bool) (x : Float) : Float := if found then x else 0.0

theorem ordered_share {found found' : Bool} (h : found = true → found' = true) {x : Float}
    (hx : InUnit x) : Ordered (share found x) (share found' x) 1.0 := by
  have hself : x ≤ x := le_self_of_isFinite (isFinite_of_inUnit hx)
  cases found with
  | false =>
    cases found' with
    | false => exact ⟨inUnit_zero.1, inUnit_zero.1, inUnit_zero.2⟩
    | true => exact ⟨inUnit_zero.1, hx.1, hx.2⟩
  | true =>
    rw [h rfl]
    exact ⟨hx.1, hself, hx.2⟩

/-- A sum cut off at one. -/
def cut (x : Float) : Float := if x < 1.0 then x else 1.0

theorem Ordered.cut {a b u : Float} (h : Ordered a b u) : Ordered (cut a) (cut b) 1.0 := by
  have hone : (1.0 : Float) ≤ 1.0 := inUnit_one.2
  rcases lt_or_le (le_self_of_le h.le) hone with hb | hb
  · have ha := lt_of_le_of_lt h.le hb
    rw [RiskMarkers.cut, RiskMarkers.cut, if_pos ha, if_pos hb]
    exact ⟨h.nonneg, h.le, le_of_lt hb⟩
  · rw [show RiskMarkers.cut b = 1.0 from if_neg fun hlt => not_le_of_lt hlt hb, RiskMarkers.cut]
    split_ifs with ha
    · exact ⟨h.nonneg, le_of_lt ha, hone⟩
    · exact ⟨inUnit_one.1, hone, hone⟩

/-- The penalty for what is not generated, before it is cut off. -/
def total (p : Penalties) (m : RiskMarkers) : Float :=
  0.0 + share m.reflection p.reflection + share m.dynamicImport p.dynamicImport +
    share m.plugin p.plugin

theorem penaltyOf_eq (p : Penalties) (m : RiskMarkers) :
    penaltyOf p m = if m.generated then p.generated else cut (total p m) := rfl

/-- Penalties between zero and one, with that of generated code the largest. -/
structure Overriding (p : Penalties) : Prop where
  reflection : InUnit p.reflection
  dynamicImport : InUnit p.dynamicImport
  plugin : InUnit p.plugin
  generated : p.generated = 1.0

theorem ordered_total {p : Penalties} (hp : Overriding p) {m m' : RiskMarkers} (h : Within m m') :
    Ordered (total p m) (total p m') (0.0 + 1.0 + 1.0 + 1.0) := by
  have hzero : Ordered 0.0 0.0 0.0 := ⟨inUnit_zero.1, inUnit_zero.1, inUnit_zero.1⟩
  have hfirst := hzero.add (ordered_share h.reflection hp.reflection) rfl rfl
  have hsecond := hfirst.add (ordered_share h.dynamicImport hp.dynamicImport) rfl rfl
  exact hsecond.add (ordered_share h.plugin hp.plugin) rfl rfl

/-- **More flags mean a penalty that is not less.** -/
theorem ordered_penaltyOf {p : Penalties} (hp : Overriding p) {m m' : RiskMarkers}
    (h : Within m m') : Ordered (penaltyOf p m) (penaltyOf p m') 1.0 := by
  have hcut := (ordered_total hp h).cut
  rw [penaltyOf_eq, penaltyOf_eq]
  cases hm : m.generated with
  | true =>
    rw [h.generated hm, hp.generated]
    exact ⟨inUnit_one.1, inUnit_one.2, inUnit_one.2⟩
  | false =>
    cases hm' : m'.generated with
    | true =>
      rw [hp.generated]
      exact ⟨hcut.nonneg, le_trans hcut.le hcut.le_bound, inUnit_one.2⟩
    | false => exact hcut

/-! ## 4. Penalties in exact arithmetic -/

def exactShare (found : Bool) (x : Float) : ℚ := if found then value (parts x) else 0

/-- The penalty as it would be without rounding. -/
def exactPenalty (p : Penalties) (m : RiskMarkers) : ℚ :=
  if m.generated then value (parts p.generated)
  else min (exactShare m.reflection p.reflection + exactShare m.dynamicImport p.dynamicImport +
    exactShare m.plugin p.plugin) 1

theorem exactShare_mono {found found' : Bool} (h : found = true → found' = true) {x : Float}
    (hx : InUnit x) : exactShare found x ≤ exactShare found' x := by
  have hpos : 0 ≤ value (parts x) := value_le_value rfl (isFinite_of_inUnit hx) hx.1
  cases found with
  | false => cases found' <;> [exact le_rfl; exact hpos]
  | true => rw [h rfl]

theorem value_one : value (parts 1.0) = 1 := by
  have hparts : parts 1.0 = .finite .positive (2 ^ 52) (-52) (by decide) := rfl
  rw [hparts, value]
  norm_num [Float.Model.UnpackedFloat.Sign.apply]

theorem exactPenalty_mono {p : Penalties} (hp : Overriding p) {m m' : RiskMarkers}
    (h : Within m m') : exactPenalty p m ≤ exactPenalty p m' := by
  unfold exactPenalty
  rw [hp.generated, value_one]
  cases hm : m.generated with
  | true =>
    rw [h.generated hm]
    exact le_rfl
  | false =>
    cases hm' : m'.generated with
    | true => exact min_le_right _ _
    | false =>
      have hreflection := exactShare_mono h.reflection hp.reflection
      have hdynamic := exactShare_mono h.dynamicImport hp.dynamicImport
      have hplugin := exactShare_mono h.plugin hp.plugin
      exact min_le_min_right _ (add_le_add (add_le_add hreflection hdynamic) hplugin)

/-! ## 5. Text around a source -/

/-- **Text around a source hides none of its risk markers.**  Its flags stay set and the patterns of
its families stay recorded; under penalties between zero and one, with one for generated code, the
penalty is not less, exactly and as it is computed, and no confidence is higher. -/
theorem surroundings_hide_no_marker (p : Penalties) (language : String)
    (before source after : List Char) :
    let m := ofSource p source language
    let m' := ofSource p (before ++ source ++ after) language
    Within m m' ∧
    (∀ marker ∈ Marker.families (Language.ofName? language),
      marker.name ∈ m.patterns → marker.name ∈ m'.patterns) ∧
    (Overriding p →
      exactPenalty p m ≤ exactPenalty p m' ∧ m.penalty ≤ m'.penalty ∧
      ∀ (c : Confidences) (f : Finding),
        ¬ (f.penalize c m).confidence < (f.penalize c m').confidence) := by
  intro m m'
  have hwithin : Within m m' := within_append p language before source after
  refine ⟨hwithin, ?_, ?_⟩
  · intro marker hmem hname
    have hoccurs := (name_mem_patterns_iff hmem).mp hname
    have hplaceless := Marker.isPlaceless_of_mem_families hmem
    exact (name_mem_patterns_iff hmem).mpr
      (Pattern.occursIn_append hplaceless hoccurs before after)
  · intro hp
    have hordered : Ordered m.penalty m'.penalty 1.0 := by
      rw [penalty_ofSource, penalty_ofSource]
      exact ordered_penaltyOf hp hwithin
    have hfinite' :=
      isFinite_of_nonneg_of_le (le_trans hordered.nonneg hordered.le) hordered.le_bound rfl
    have hfinite := isFinite_of_nonneg_of_le hordered.nonneg hordered.le hfinite'
    exact ⟨exactPenalty_mono hp hwithin, hordered.le,
      fun c f => not_clampUnit_sub_lt hfinite hfinite' hordered.le⟩

/-- A call that reflects, in a file that is marked as generated and loads a module by name. -/
theorem call_in_generated_file :
    let source := "eval(x)".toList
    let whole := "# @generated\n".toList ++ source ++ "\nimportlib.reload(y)".toList
    Overriding {} ∧ (ofSource {} source "python").penalty ≤ (ofSource {} whole "python").penalty ∧
    (ofSource {} whole "python").reflection = true ∧
    (ofSource {} whole "python").penalty = 1.0 := by
  intro source whole
  have hp : Overriding {} := ⟨by decide, by decide, by decide, rfl⟩
  obtain ⟨hwithin, -, hpenalty⟩ :=
    surroundings_hide_no_marker {} "python" "# @generated\n".toList source
      "\nimportlib.reload(y)".toList
  refine ⟨hp, (hpenalty hp).2.1, hwithin.reflection ?_, ?_⟩
  · decide +kernel
  · decide +kernel

end RiskMarkers

end CodeAudit
