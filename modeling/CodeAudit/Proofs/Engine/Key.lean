import CodeAudit.Engine
import CodeAudit.Proofs.Text.Bytes

/-!
# What a key tells apart

A result is cached under a digest of source, language and selectors, written one after the other
with a zero between them.  The selectors never hold a zero, and the names of the known languages
neither; **but a source may hold one, and so may the name of an unknown language**, which is taken
as it was asked for.  The zeros then no longer say where the source ends.

* `keyBytes_eq_iff`: equal bytes are equal texts, characters and all.
* `Crosses`: one task is read with a grammar, the other as plain text, and what the first has at the
  end of its source the second has at the front of its language.
* `keyBytes_eq_cases`: **two tasks with one key are the same task, or are both read as plain text, or
  cross**; and tasks that cross have one key (`Crosses.keyBytes_eq`).
-/

namespace CodeAudit.Engine

open Engine

namespace QualityTask

/-- The bytes that the key of a task is a digest of. -/
def keyBytes (t : QualityTask) : List UInt8 :=
  ResultCache.keyBytes t.source t.language t.selectors.names

/-- The first task is read with a grammar and the second as plain text, and the two have the same
text with zeros in it: the second's language begins with the end of the first's source. -/
def Crosses (a b : QualityTask) : Prop :=
  ∃ l carried, a.support = .grammar l ∧ b.support = .plainText ∧ a.selectors = b.selectors ∧
    a.language = l.name ∧ a.source = b.source ++ "\x00" ++ carried ∧
    b.language = carried ++ "\x00" ++ l.name

end QualityTask

/-! ## 1. Bytes and characters -/

theorem keyBytes_eq_byteList (source language selectors : String) :
    ResultCache.keyBytes source language selectors =
      (source ++ ("\x00" ++ (language ++ ("\x00" ++ selectors)))).toUTF8.toList := by
  have hzero : "\x00".toUTF8.toList = [0] := by decide +kernel
  rw [Text.byteList_append, Text.byteList_append, Text.byteList_append, Text.byteList_append, hzero]
  rfl

/-- **Equal bytes are equal texts.** -/
theorem keyBytes_eq_iff {source source' language language' selectors selectors' : String} :
    ResultCache.keyBytes source language selectors =
        ResultCache.keyBytes source' language' selectors' ↔
      source.toList ++ '\x00' :: (language.toList ++ '\x00' :: selectors.toList) =
        source'.toList ++ '\x00' :: (language'.toList ++ '\x00' :: selectors'.toList) := by
  rw [keyBytes_eq_byteList, keyBytes_eq_byteList]
  constructor
  · intro h
    have htext := congrArg String.toList (Text.byteList_inj h)
    simpa using htext
  · intro h
    refine congrArg (fun s : String => s.toUTF8.toList) (String.toList_injective ?_)
    simpa using h

/-! ## 2. Selectors -/

/-- A set that was read from a request is what it contains. -/
theorem selectors_ext {s t : SelectorSet} {vs ws : List Selector} (hs : s = .ofList vs)
    (ht : t = .ofList ws) (h : ∀ v, s.contains v = t.contains v) : s = t := by
  have hself : ∀ us, Selector.all.filter (SelectorSet.ofList us).contains = (SelectorSet.ofList us).selected := by
    intro us
    refine List.filter_congr fun v hv => ?_
    simp [SelectorSet.contains, SelectorSet.ofList, hv]
  subst hs ht
  have hsame : (SelectorSet.ofList vs).selected = (SelectorSet.ofList ws).selected := by
    rw [← hself vs, ← hself ws, funext h]
  exact congrArg SelectorSet.mk hsame

theorem name_injective {v w : Selector} (h : v.name = w.name) : v = w := by
  cases v <;> cases w <;> first | rfl | exact absurd h (by decide)

/-- The names are words of letters and underscores. -/
theorem name_chars (v : Selector) : ',' ∉ v.name.toList ∧ '\x00' ∉ v.name.toList ∧ v.name.toList ≠ [] := by
  cases v <;> decide

/-- The names of the selectors of a set, as words. -/
def nameWords (s : SelectorSet) : List (List Char) :=
  (Selector.byName.filter s.contains).map fun v => v.name.toList

theorem toList_names (s : SelectorSet) : s.names.toList = [','].intercalate (nameWords s) := by
  unfold SelectorSet.names nameWords
  rw [String.toList_intercalate, List.map_map]
  rfl

/-- Splitting the names at commas gives the words back; no name at all gives none. -/
theorem words_of_names (s : SelectorSet) :
    (s.names.toList.splitOn ',').filter (!List.isEmpty ·) = nameWords s := by
  have hwords : ∀ w ∈ nameWords s, ',' ∉ w ∧ w ≠ [] := by
    intro w hw
    obtain ⟨v, -, rfl⟩ := List.mem_map.mp hw
    exact ⟨(name_chars v).1, (name_chars v).2.2⟩
  rw [toList_names]
  by_cases hnone : nameWords s = []
  · rw [hnone]
    decide
  · rw [List.splitOn_intercalate ',' (fun w hw => (hwords w hw).1) hnone, List.filter_eq_self]
    intro w hw
    simpa using (hwords w hw).2

/-- **The names tell which selectors a set contains**: none of them holds a comma. -/
theorem contains_eq_of_names_eq {s t : SelectorSet} (h : s.names = t.names) (v : Selector) :
    s.contains v = t.contains v := by
  have hwords : nameWords s = nameWords t := by rw [← words_of_names, ← words_of_names, h]
  have hselected : Selector.byName.filter s.contains = Selector.byName.filter t.contains :=
    (List.map_inj_right fun v w heq => name_injective (String.toList_injective heq)).mp hwords
  have hmem : v ∈ Selector.byName.filter s.contains ↔ v ∈ Selector.byName.filter t.contains := by
    rw [hselected]
  rw [List.mem_filter, List.mem_filter] at hmem
  refine Bool.eq_iff_iff.mpr ⟨?_, ?_⟩
  · exact fun hs => (hmem.mp ⟨Selector.mem_byName v, hs⟩).2
  · exact fun ht => (hmem.mpr ⟨Selector.mem_byName v, ht⟩).2

theorem not_mem_intercalate {c d : Char} (hne : c ≠ d) {ws : List (List Char)} (h : ∀ w ∈ ws, c ∉ w) :
    c ∉ [d].intercalate ws := by
  induction ws with
  | nil => simp
  | cons w ws ih =>
    have hw := h w List.mem_cons_self
    have hws := ih fun w' hw' => h w' (List.mem_cons_of_mem w hw')
    cases ws with
    | nil => simpa using hw
    | cons w' ws =>
      rw [List.intercalate_cons_cons]
      simp only [List.mem_append, List.mem_singleton, not_or]
      exact ⟨⟨hw, hne⟩, hws⟩

theorem zero_not_mem_names (s : SelectorSet) : '\x00' ∉ s.names.toList := by
  rw [toList_names]
  refine not_mem_intercalate (by decide) ?_
  intro w hw
  obtain ⟨v, -, rfl⟩ := List.mem_map.mp hw
  exact (name_chars v).2.1

/-! ## 3. Zeros -/

/-- What stands after the last zero, and before it. -/
theorem eq_of_append_zero_eq {x y a b : List Char} (ha : '\x00' ∉ a) (hb : '\x00' ∉ b)
    (h : x ++ '\x00' :: a = y ++ '\x00' :: b) : x = y ∧ a = b := by
  rcases List.append_eq_append_iff.mp h with ⟨mid, hy, hmid⟩ | ⟨mid, hx, hmid⟩
  · cases mid with
    | nil => simp_all
    | cons c mid =>
      obtain ⟨-, rfl⟩ := List.cons.inj hmid
      exact absurd (by simp) ha
  · cases mid with
    | nil => simp_all
    | cons c mid =>
      obtain ⟨-, rfl⟩ := List.cons.inj hmid
      exact absurd (by simp) hb

/-! ## 4. Tasks with one key -/

theorem language_name_injective {l m : Language} (h : l.name = m.name) : l = m := by
  cases l <;> cases m <;> first | rfl | exact absurd h (by decide)

theorem zero_not_mem_language (l : Language) : '\x00' ∉ l.name.toList := by
  cases l <;> decide

namespace QualityTask

/-- What holds of a task that was read from a request: the selectors are a set, a known language goes
by its own name, and no other goes by the name of a known one. -/
structure Understood (t : QualityTask) : Prop where
  selectors : ∃ vs, t.selectors = .ofList vs
  language : (∃ l, t.support = .grammar l ∧ t.language = l.name) ∨
    t.support = .plainText ∧ ∀ l : Language, t.language ≠ l.name

theorem understood_of_task {r : QualityRequest} {t : QualityTask} (h : r.task = .ok t) : t.Understood := by
  unfold QualityRequest.task at h
  cases hnamed : SelectorSet.namedBy r.selectors with
  | error name => simp [SelectorSet.parse, hnamed, Except.map] at h
  | ok vs =>
    cases hsupport : Support.ofName r.language with
    | error cause => simp [SelectorSet.parse, hnamed, hsupport, Except.map] at h
    | ok support =>
      simp only [SelectorSet.parse, hnamed, hsupport, Except.map, Except.ok.injEq] at h
      subst h
      refine ⟨⟨vs, rfl⟩, ?_⟩
      unfold Support.ofName at hsupport
      split at hsupport
      · exact absurd hsupport (by simp)
      · split at hsupport
        · next l _ =>
          obtain rfl := Except.ok.inj hsupport
          exact .inl ⟨l, rfl, rfl⟩
        · next hnone =>
          obtain rfl := Except.ok.inj hsupport
          refine .inr ⟨rfl, ?_⟩
          -- a name that a known language goes by would have been found
          intro l hname
          have hother := List.find?_eq_none.mp hnone l (by cases l <;> decide)
          have halias : l.name ∈ l.aliases := by cases l <;> decide
          change Language.normalName r.language = l.name at hname
          rw [hname] at hother
          exact hother (List.contains_iff_mem.mpr halias)

/-- A key with a known language in it can be taken for that of an unknown one only if they cross. -/
theorem crosses_of_keyBytes_eq {a b : QualityTask} {l : Language} (ha : a.support = .grammar l)
    (hname : a.language = l.name) (hb : b.support = .plainText) (hother : b.language ≠ l.name)
    (hselectors : a.selectors = b.selectors)
    (h : a.source.toList ++ '\x00' :: a.language.toList = b.source.toList ++ '\x00' :: b.language.toList) :
    a.Crosses b := by
  rw [hname] at h
  have hdiffer : b.language.toList ≠ l.name.toList := fun heq => hother (String.toList_injective heq)
  rcases List.append_eq_append_iff.mp h with ⟨mid, -, hmid⟩ | ⟨mid, hsource, hmid⟩
  · cases mid with
    | nil => exact absurd (List.cons.inj hmid).2.symm hdiffer
    | cons c mid =>
      obtain ⟨-, hzero⟩ := List.cons.inj hmid
      exact absurd (by rw [hzero]; simp) (zero_not_mem_language l)
  · cases mid with
    | nil => exact absurd (List.cons.inj hmid).2 hdiffer
    | cons c carried =>
      obtain ⟨rfl, hlanguage⟩ := List.cons.inj hmid
      refine ⟨l, String.ofList carried, ha, hb, hselectors, hname, ?_, ?_⟩
      · refine String.toList_injective ?_
        simpa using hsource
      · refine String.toList_injective ?_
        simpa using hlanguage

/-- **Two tasks with one key are the same, or both plain text, or cross.** -/
theorem keyBytes_eq_cases {a b : QualityTask} (ha : a.Understood) (hb : b.Understood)
    (h : a.keyBytes = b.keyBytes) :
    a = b ∨ a.support = .plainText ∧ b.support = .plainText ∨ a.Crosses b ∨ b.Crosses a := by
  unfold keyBytes at h
  rw [keyBytes_eq_iff] at h
  have hassoc : ∀ x y z : List Char, x ++ '\x00' :: (y ++ '\x00' :: z) = (x ++ '\x00' :: y) ++ '\x00' :: z :=
    fun x y z => by simp
  rw [hassoc, hassoc] at h
  obtain ⟨hfront, hnames⟩ := eq_of_append_zero_eq (zero_not_mem_names _) (zero_not_mem_names _) h
  obtain ⟨vs, hvs⟩ := ha.selectors
  obtain ⟨ws, hws⟩ := hb.selectors
  have hselectors : a.selectors = b.selectors :=
    selectors_ext hvs hws (contains_eq_of_names_eq (String.toList_injective hnames))
  rcases ha.language with ⟨l, hal, hname⟩ | ⟨hap, hother⟩ <;>
    rcases hb.language with ⟨m, hbm, hname'⟩ | ⟨hbp, hother'⟩
  · rw [hname, hname'] at hfront
    obtain ⟨hsource, hlanguage⟩ :=
      eq_of_append_zero_eq (zero_not_mem_language l) (zero_not_mem_language m) hfront
    obtain rfl := language_name_injective (String.toList_injective hlanguage)
    left
    obtain ⟨support, language, selectors, source⟩ := a
    obtain ⟨support', language', selectors', source'⟩ := b
    obtain rfl := String.toList_injective hsource
    simp_all
  · exact .inr (.inr (.inl (crosses_of_keyBytes_eq hal hname hbp (hother' l) hselectors hfront)))
  · exact .inr (.inr (.inr (crosses_of_keyBytes_eq hbm hname' hap (hother m) hselectors.symm hfront.symm)))
  · exact .inr (.inl ⟨hap, hbp⟩)

theorem Crosses.keyBytes_eq {a b : QualityTask} (h : a.Crosses b) : a.keyBytes = b.keyBytes := by
  obtain ⟨l, carried, -, -, hselectors, hname, hsource, hlanguage⟩ := h
  unfold keyBytes
  rw [keyBytes_eq_iff, hselectors, hname, hsource, hlanguage]
  simp

end QualityTask

end CodeAudit.Engine
