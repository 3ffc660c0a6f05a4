import CodeAudit.Proofs.Engine.Key

/-!
# Requests that share a key

The key of a result is meant to be the same for two requests exactly if they ask for the same thing.
For languages without a grammar that fails (`QualityTask.Crosses`); here it is shown for those that
have one.

* A request asks for its language by any alias, in any letter case and with blanks around it
  (`Language.ofName?_eq_some_iff`), and for a selector by its name with blanks around it
  (`Selector.ofName?_eq_some_iff`).
* Its selectors are read one by one (`namedBy_eq_ok_iff`), and the set that they make up contains what
  the names denote (`contains_of_parse`), in whatever order and however often.
* **What is left of a request for a known language is source, language and set**
  (`QualityRequest.task_of_known`), **and its key tells these three apart**
  (`QualityTask.keyBytes_inj_of_grammar`).  The zeros in a source do no harm: the key is read from
  its end, where neither the selectors nor a known language have any.
-/

namespace CodeAudit

/-! ## 1. Names of languages -/

/-- A search through everything finds what alone has a property. -/
theorem find?_eq_some_iff_of_unique {α : Type} {xs : List α} {p : α → Bool} {x : α}
    (hall : ∀ y, y ∈ xs) (hunique : ∀ y z, p y = true → p z = true → y = z) :
    xs.find? p = some x ↔ p x = true := by
  constructor
  · exact List.find?_some
  · intro hx
    have hsome : (xs.find? p).isSome = true := List.find?_isSome.mpr ⟨x, hall x, hx⟩
    obtain ⟨y, hy⟩ := Option.isSome_iff_exists.mp hsome
    rw [hy, hunique y x (List.find?_some hy) hx]

/-- No name stands for two languages. -/
theorem Language.eq_of_mem_aliases {l m : Language} {name : String} (hl : name ∈ l.aliases)
    (hm : name ∈ m.aliases) : l = m := by
  have hapart : ∀ l m : Language, l = m ∨ ∀ name ∈ l.aliases, name ∉ m.aliases := by
    intro l m
    cases l <;> cases m <;> decide
  exact (hapart l m).resolve_right fun h => h name hl hm

/-- **A language is asked for by its aliases**, letter case and blanks around them aside. -/
theorem Language.ofName?_eq_some_iff {name : String} {l : Language} :
    Language.ofName? name = some l ↔ normalName name ∈ l.aliases := by
  rw [← List.contains_iff_mem]
  refine find?_eq_some_iff_of_unique (fun m => by cases m <;> decide) ?_
  intro l m hl hm
  exact Language.eq_of_mem_aliases (List.contains_iff_mem.mp hl) (List.contains_iff_mem.mp hm)

/-- A name that a language is asked for by is not blank. -/
theorem Language.trim_ne_nil {name : String} {l : Language} (h : Language.ofName? name = some l) :
    Text.trim name.toList ≠ [] := by
  intro hblank
  have halias := ofName?_eq_some_iff.mp h
  rw [normalName, hblank] at halias
  revert halias
  cases l <;> decide

/-! ## 2. Names of selectors -/

/-- **A selector is asked for by its name**, blanks around it aside. -/
theorem Selector.ofName?_eq_some_iff {name : String} {v : Selector} :
    Selector.ofName? name = some v ↔ Text.trim name.toList = v.name.toList := by
  have hunique : ∀ v w : Selector, (v.name.toList == Text.trim name.toList) = true →
      (w.name.toList == Text.trim name.toList) = true → v = w := by
    intro v w hv hw
    have hname : v.name.toList = w.name.toList := (eq_of_beq hv).trans (eq_of_beq hw).symm
    exact Engine.name_injective (String.toList_injective hname)
  rw [ofName?, find?_eq_some_iff_of_unique mem_all hunique, beq_iff_eq, eq_comm]

namespace SelectorSet

/-- The names as they are compared. -/
def trimmed (names : List String) : List (List Char) := names.map fun name => Text.trim name.toList

/-- A selector is among those that a list of names asks for. -/
def Denotes (names : List String) (v : Selector) : Prop := v.name.toList ∈ trimmed names

/-- Names are read one by one, and reading fails if one of them is no selector's. -/
theorem namedBy_eq_ok_iff {names : List String} {vs : List Selector} :
    namedBy names = .ok vs ↔ names.map Selector.ofName? = vs.map some := by
  induction names generalizing vs with
  | nil => cases vs <;> simp [namedBy]
  | cons name names ih =>
    rw [namedBy, List.map_cons]
    cases hname : Selector.ofName? name with
    | none => cases vs <;> simp
    | some v =>
      cases hrest : namedBy names with
      | error unknown =>
        cases vs with
        | nil => simp
        | cons w vs =>
          have hnot : names.map Selector.ofName? ≠ vs.map some := by
            rw [Ne, ← ih, hrest]
            exact fun h => by cases h
          simp [hnot]
      | ok us =>
        have hus := ih.mp hrest
        cases vs with
        | nil => simp
        | cons w vs =>
          rw [hus, List.map_cons, List.cons.injEq, List.map_inj_right fun _ _ => Option.some.inj]
          simp

/-- The selectors that were read are those that the names denote. -/
theorem mem_of_namedBy {names : List String} {vs : List Selector} (h : namedBy names = .ok vs)
    (v : Selector) : v ∈ vs ↔ Denotes names v := by
  have hmem : v ∈ vs ↔ some v ∈ names.map Selector.ofName? := by
    rw [namedBy_eq_ok_iff.mp h]
    simp
  simp only [hmem, Denotes, trimmed, List.mem_map, Selector.ofName?_eq_some_iff]

/-- Names can be read iff each of them is a selector's. -/
theorem exists_namedBy_iff {names : List String} :
    (∃ vs, namedBy names = .ok vs) ↔ ∀ w ∈ trimmed names, ∃ v : Selector, w = v.name.toList := by
  simp only [trimmed, List.forall_mem_map, ← Selector.ofName?_eq_some_iff]
  induction names with
  | nil => simp [namedBy]
  | cons name names ih =>
    rw [List.forall_mem_cons, ← ih, namedBy]
    cases Selector.ofName? name with
    | none => simp
    | some v => cases namedBy names <;> simp

theorem exists_of_parse {names : List String} {s : SelectorSet} (h : parse names = .ok s) :
    ∃ vs, namedBy names = .ok vs ∧ s = ofList vs := by
  unfold parse at h
  cases hvs : namedBy names with
  | error unknown => simp [hvs, Except.map] at h
  | ok vs =>
    rw [hvs] at h
    exact ⟨vs, rfl, (Except.ok.inj h).symm⟩

/-- **A set that was read from names contains what they denote.** -/
theorem contains_of_parse {names : List String} {s : SelectorSet} (h : parse names = .ok s)
    (v : Selector) : s.contains v = true ↔ Denotes names v := by
  obtain ⟨vs, hvs, rfl⟩ := exists_of_parse h
  rw [← mem_of_namedBy hvs v]
  simp [contains, ofList, Selector.mem_all]

/-- **Sets that were read from names are equal iff the names denote the same selectors.** -/
theorem eq_iff_denotes {names names' : List String} {s s' : SelectorSet}
    (h : parse names = .ok s) (h' : parse names' = .ok s') :
    s = s' ↔ ∀ v, Denotes names v ↔ Denotes names' v := by
  constructor
  · rintro rfl v
    rw [← contains_of_parse h, ← contains_of_parse h']
  · intro hsame
    obtain ⟨vs, -, hvs⟩ := exists_of_parse h
    obtain ⟨ws, -, hws⟩ := exists_of_parse h'
    refine Engine.selectors_ext hvs hws fun v => ?_
    rw [Bool.eq_iff_iff, contains_of_parse h, contains_of_parse h', hsame v]

/-- Order, repetition and blanks play no part. -/
theorem parse_congr {names names' : List String} {s : SelectorSet} (h : parse names = .ok s)
    (hsame : ∀ w, w ∈ trimmed names' ↔ w ∈ trimmed names) : parse names' = .ok s := by
  obtain ⟨vs, hvs, -⟩ := exists_of_parse h
  have hall := exists_namedBy_iff.mp ⟨vs, hvs⟩
  obtain ⟨ws, hws⟩ := exists_namedBy_iff.mpr fun w hw => hall w ((hsame w).mp hw)
  have h' : parse names' = .ok (ofList ws) := by rw [parse, hws]; rfl
  rw [h', (eq_iff_denotes h' h).mpr fun v => hsame _]

end SelectorSet

namespace Engine

/-! ## 3. Keys -/

/-- **The keys of tasks with a grammar tell them apart.** -/
theorem QualityTask.keyBytes_inj_of_grammar {a b : QualityTask} {l m : Language}
    (ha : a.Understood) (hb : b.Understood) (hal : a.support = .grammar l)
    (hbm : b.support = .grammar m) : a.keyBytes = b.keyBytes ↔ a = b := by
  constructor
  · intro h
    rcases keyBytes_eq_cases ha hb h with heq | ⟨hplain, -⟩ | hcross | hcross
    · exact heq
    · rw [hal] at hplain
      cases hplain
    · obtain ⟨-, -, -, hplain, -⟩ := hcross
      rw [hbm] at hplain
      cases hplain
    · obtain ⟨-, -, -, hplain, -⟩ := hcross
      rw [hal] at hplain
      cases hplain
  · rintro rfl
    rfl

/-- What is left of a request for a known language. -/
theorem QualityRequest.task_of_known {r : QualityRequest} {l : Language} {s : SelectorSet}
    (hl : Language.ofName? r.language = some l) (hs : SelectorSet.parse r.selectors = .ok s) :
    r.task = .ok ⟨.grammar l, l.name, s, r.source⟩ := by
  have hblank : (Text.trim r.language.toList).isEmpty = false := by
    simpa using Language.trim_ne_nil hl
  simp [task, hs, Support.ofName, hblank, hl, Except.map, Support.languageName]

/-- **Keys of known languages are exact.**  Two requests that can be read and whose languages are known
have the same bytes in their keys iff they have the same source, the same language and selectors that
denote the same set, whatever zeros the sources hold.

A request that spells the same differently is the same task: another alias, other letter case, blanks
around the names, another order of the selectors, repetitions. -/
theorem known_language_keys_exact (r r' : QualityRequest) (l l' : Language) (s s' : SelectorSet)
    (hl : Language.ofName? r.language = some l) (hl' : Language.ofName? r'.language = some l')
    (hs : SelectorSet.parse r.selectors = .ok s) (hs' : SelectorSet.parse r'.selectors = .ok s') :
    ∃ t t', r.task = .ok t ∧ r'.task = .ok t' ∧
      (t.keyBytes = t'.keyBytes ↔ r.source = r'.source ∧ l = l' ∧
        ∀ v, SelectorSet.Denotes r.selectors v ↔ SelectorSet.Denotes r'.selectors v) ∧
      ∀ q : QualityRequest, q.source = r.source → Language.normalName q.language ∈ l.aliases →
        (∀ w, w ∈ SelectorSet.trimmed q.selectors ↔ w ∈ SelectorSet.trimmed r.selectors) →
        q.task = .ok t := by
  have ht := QualityRequest.task_of_known hl hs
  have ht' := QualityRequest.task_of_known hl' hs'
  refine ⟨_, _, ht, ht', ?_, ?_⟩
  · rw [QualityTask.keyBytes_inj_of_grammar (QualityTask.understood_of_task ht)
      (QualityTask.understood_of_task ht') rfl rfl, ← SelectorSet.eq_iff_denotes hs hs']
    simp only [QualityTask.mk.injEq, Support.grammar.injEq]
    constructor
    · rintro ⟨rfl, -, rfl, hsource⟩
      exact ⟨hsource, rfl, rfl⟩
    · rintro ⟨hsource, rfl, rfl⟩
      exact ⟨rfl, rfl, rfl, hsource⟩
  · intro q hsource halias hnames
    have hq := QualityRequest.task_of_known (Language.ofName?_eq_some_iff.mpr halias)
      (SelectorSet.parse_congr hs hnames)
    rw [hq, hsource]

/-- A request for a source with a zero in it. -/
def zeroRequest : QualityRequest := ⟨"a\x00go", " GoLang\n", ["unused", " duplicates", "unused"]⟩

/-- The same request in another spelling has the same bytes, and one whose source ends at the zero has
not. -/
theorem zero_in_source_told_apart :
    ∃ t u v, zeroRequest.task = .ok t ∧
      QualityRequest.task ⟨"a\x00go", "go", ["duplicates", "unused"]⟩ = .ok u ∧
      QualityRequest.task ⟨"a", "GO", ["duplicates", "unused"]⟩ = .ok v ∧
      t.keyBytes = u.keyBytes ∧ t.keyBytes ≠ v.keyBytes := by
  have hset : ∀ v, SelectorSet.Denotes zeroRequest.selectors v ↔
      SelectorSet.Denotes ["duplicates", "unused"] v := by
    intro v
    unfold SelectorSet.Denotes
    cases v <;> decide
  obtain ⟨t, u, ht, hu, hsame, -⟩ := known_language_keys_exact zeroRequest
    ⟨"a\x00go", "go", ["duplicates", "unused"]⟩ .go .go _ _ (by decide) (by decide) rfl rfl
  obtain ⟨t', v, ht', hv, hother, -⟩ := known_language_keys_exact zeroRequest
    ⟨"a", "GO", ["duplicates", "unused"]⟩ .go .go _ _ (by decide) (by decide) rfl rfl
  obtain rfl := Except.ok.inj (ht.symm.trans ht')
  refine ⟨t, u, v, ht, hu, hv, hsame.mpr ⟨rfl, rfl, hset⟩, ?_⟩
  intro hbytes
  exact absurd (hother.mp hbytes).1 (by decide)

end Engine

end CodeAudit
