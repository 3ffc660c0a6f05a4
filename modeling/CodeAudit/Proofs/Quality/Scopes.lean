import CodeAudit.Proofs.Quality.Definitions
import Mathlib

/-!
# Which containers tell two functions apart

The qualified name of a function is meant to keep functions in different classes and functions apart.  It
holds the names of those containers whose kinds the profile of the language lists, and the lists of the
four languages are not of one make: that of Python has classes and functions, those of the script languages
have class declarations only, and that of Go is empty.

Two definitions *cross* if they are reported under one name although the named classes and functions around
them differ (`Crosses`).  A qualified name can be taken apart again where no name has a point in it
(`QualifiedBy.unique`), so crossing comes from nothing but the lists.

Main statement: **two definitions cross exactly where their own names, receivers and listed containers
agree and other containers differ** (`duplicates_cross_scopes_iff`).  One of the containers is then a named
class or function that the profile does not list; in Python there is no such thing, but in a script two
functions `f`, one inside `a` and one inside `b`, do cross (`inner_functions_cross`).
-/

namespace CodeAudit

namespace Language

/-- Classes and functions of the two script languages that can have a name. -/
def scriptContainers : List String :=
  ["class_declaration", "class", "function_declaration", "generator_function_declaration",
    "function_expression", "generator_function", "method_definition"]

/-- Classes and functions of a language that can have a name. -/
def containerKinds : Language → List String
  | .go => ["function_declaration", "method_declaration"]
  | .javascript => scriptContainers
  | .typescript => "abstract_class_declaration" :: scriptContainers
  | .python => ["class_definition", "function_definition"]

theorem scopeKinds_subset_containerKinds (l : Language) : l.profile.scopeKinds ⊆ l.containerKinds := by
  cases l <;> decide

end Language

namespace Quality

variable {profile : Profile} {l : Language} {s : Snippet} {source : List Char} {n m : Site}
  {name : String}

/-! ## 1. Containers -/

/-- The names of the classes and functions around a node, the innermost first. -/
def containers (l : Language) (source : List Char) (n : Site) : List (List Char) :=
  (n.ancestors.filter (·.hasKind l.containerKinds)).filterMap fun a =>
    (a.field? "name").map (·.text source)

/-- A class or function with a name that does not count for the names of the functions inside it. -/
structure IsUnlisted (l : Language) (a : Site) : Prop where
  isContainer : a.kind ∈ l.containerKinds
  unlisted : a.kind ∉ l.profile.scopeKinds
  named : ∃ name, a.field? "name" = some name

/-- Where all containers count, the qualified name holds the whole chain. -/
theorem containers_eq (h : ∀ a ∈ n.ancestors, ¬ IsUnlisted l a) :
    containers l source n = (scopeNames l.profile source n).reverse := by
  rw [containers, scopeNames, List.reverse_reverse, List.filterMap_filter, List.filterMap_filter]
  refine List.filterMap_congr fun a ha => ?_
  cases hname : a.field? "name" with
  | none => simp
  | some node =>
    have hkinds : a.kind ∈ l.containerKinds ↔ a.kind ∈ l.profile.scopeKinds := by
      constructor
      · intro hcontainer
        by_contra hunlisted
        exact h a ha ⟨hcontainer, hunlisted, node, hname⟩
      · intro hlisted
        exact l.scopeKinds_subset_containerKinds hlisted
    simp [Site.hasKind, hkinds]

/-! ## 2. The parts of a qualified name -/

/-- What a qualified name is made of: the listed containers, the outermost first, the receiver and the
function's own name. -/
structure QualifiedBy (profile : Profile) (s : Snippet) (n : Site) (scopes receiver : List (List Char))
    (own : List Char) : Prop where
  enclosed : ∃ t, s.tree = some t ∧ Enclosed profile s.source t n scopes
  isFunction : n.kind ∈ profile.functionKinds
  receiver : ReceiverName s.source n receiver
  named : ∃ node, n.field? "name" = some node ∧ node.text s.source = own
  nonempty : own ≠ []

/-- The parts joined with points. -/
def qualified (scopes receiver : List (List Char)) (own : List Char) : String :=
  String.ofList (['.'].intercalate (scopes ++ receiver ++ [own]))

theorem defines_iff :
    Defines profile s n name ↔
      ∃ scopes receiver own, QualifiedBy profile s n scopes receiver own ∧
        name = qualified scopes receiver own := by
  constructor
  · rintro ⟨htree, hscopes, hkind, hreceiver, hname, hnonempty⟩
    exact ⟨_, _, _, ⟨⟨_, htree, hscopes⟩, hkind, hreceiver, ⟨_, hname, rfl⟩, hnonempty⟩, rfl⟩
  · rintro ⟨scopes, receiver, own, ⟨⟨t, htree, hscopes⟩, hkind, hreceiver, ⟨node, hname, rfl⟩,
      hnonempty⟩, rfl⟩
    exact .intro htree hscopes hkind hreceiver hname hnonempty

/-- Names as a parser gives them: none has a point in it, and only functions of Go have receivers. -/
structure WellNamed (l : Language) (s : Snippet) : Prop where
  names : ∀ n ∈ s.nodes, n.kind ∈ l.profile.functionKinds ++ l.profile.scopeKinds →
    ∀ name ∈ n.field? "name", '.' ∉ name.text s.source
  types : ∀ n ∈ s.nodes, n.kind = "type_identifier" → '.' ∉ n.text s.source
  receivers : l ≠ .go → ∀ n ∈ s.nodes, n.kind ∈ l.profile.functionKinds → n.field? "receiver" = none

section Parts

variable {scopes receiver scopes' receiver' : List (List Char)} {own own' : List Char}

theorem QualifiedBy.mem_nodes (h : QualifiedBy profile s n scopes receiver own) : n ∈ s.nodes := by
  obtain ⟨t, htree, hscopes⟩ := h.enclosed
  exact Snippet.mem_nodes.mpr ⟨t, htree, (enclosed_iff.mp hscopes).1⟩

theorem QualifiedBy.scopes_eq (h : QualifiedBy profile s n scopes receiver own) :
    scopes = scopeNames profile s.source n := by
  obtain ⟨t, -, hscopes⟩ := h.enclosed
  exact (enclosed_iff.mp hscopes).2

/-- No part of a qualified name has a point in it. -/
theorem QualifiedBy.point_not_mem (hwell : WellNamed l s)
    (h : QualifiedBy l.profile s n scopes receiver own) :
    ∀ part ∈ scopes ++ receiver ++ [own], '.' ∉ part := by
  intro part hpart
  rw [List.mem_append, List.mem_append, List.mem_singleton] at hpart
  rcases hpart with (hpart | hpart) | rfl
  · rw [h.scopes_eq, scopeNames, List.mem_reverse, List.mem_filterMap] at hpart
    obtain ⟨a, ha, hname⟩ := hpart
    obtain ⟨ha, hkind⟩ := List.mem_filter.mp ha
    obtain ⟨node, hnode, rfl⟩ := Option.map_eq_some_iff.mp hname
    have hmem : a ∈ s.nodes :=
      Snippet.mem_nodes_of_isAbove h.mem_nodes ((Snippet.mem_ancestors h.mem_nodes).mp ha)
    exact hwell.names a hmem (List.mem_append_right _ (List.contains_iff_mem.mp hkind)) node hnode
  · rcases h.receiver with ⟨m, ⟨node, hnode, hwithin, hkind, -⟩, rfl⟩ | ⟨-, rfl⟩
    · obtain rfl := List.mem_singleton.mp hpart
      have hmem : m ∈ s.nodes :=
        Snippet.mem_nodes_of_within h.mem_nodes ((Site.within_of_field? hnode).trans hwithin)
      exact hwell.types m hmem hkind
    · cases hpart
  · obtain ⟨node, hnode, rfl⟩ := h.named
    exact hwell.names n h.mem_nodes (List.mem_append_left _ h.isFunction) node hnode

/-- In Go nothing but the receiver qualifies a name. -/
theorem QualifiedBy.scopes_eq_nil (h : QualifiedBy Language.go.profile s n scopes receiver own) :
    scopes = [] := by
  rw [h.scopes_eq, scopeNames]
  simp [Site.hasKind, Language.profile]

/-- Elsewhere nothing but the containers does. -/
theorem QualifiedBy.receiver_eq_nil (hwell : WellNamed l s) (hgo : l ≠ .go)
    (h : QualifiedBy l.profile s n scopes receiver own) : receiver = [] := by
  have hnone := hwell.receivers hgo n h.mem_nodes h.isFunction
  rcases h.receiver with ⟨m, ⟨node, hnode, -⟩, -⟩ | ⟨-, hnil⟩
  · rw [hnone] at hnode
    cases hnode
  · exact hnil

/-- **A qualified name can be taken apart in one way only.** -/
theorem QualifiedBy.unique (hwell : WellNamed l s) (h : QualifiedBy l.profile s n scopes receiver own)
    (h' : QualifiedBy l.profile s m scopes' receiver' own')
    (heq : qualified scopes receiver own = qualified scopes' receiver' own') :
    scopes = scopes' ∧ receiver = receiver' ∧ own = own' := by
  have hparts : scopes ++ receiver ++ [own] = scopes' ++ receiver' ++ [own'] := by
    have hsplit := congrArg (List.splitOn '.') (String.ofList_injective heq)
    rwa [List.splitOn_intercalate '.' (h.point_not_mem hwell) (by simp),
      List.splitOn_intercalate '.' (h'.point_not_mem hwell) (by simp)] at hsplit
  obtain ⟨hqualifiers, hown⟩ := List.append_inj' hparts rfl
  obtain rfl := List.singleton_injective hown
  -- one of the two rows of qualifiers is empty, the same one on both sides
  by_cases hgo : l = .go
  · subst hgo
    rw [h.scopes_eq_nil, h'.scopes_eq_nil] at hqualifiers ⊢
    exact ⟨rfl, hqualifiers, rfl⟩
  · rw [h.receiver_eq_nil hwell hgo, h'.receiver_eq_nil hwell hgo] at hqualifiers ⊢
    exact ⟨List.append_cancel_right hqualifiers, rfl, rfl⟩

end Parts

/-! ## 3. Reported under one name -/

/-- A definition is reported under a name. -/
structure IsReported (profile : Profile) (s : Snippet) (n : Site) (name : String) : Prop where
  defines : Defines profile s n name
  found : duplicateFinding s n name (timesDefined (definitions profile s) name) ∈ duplicates profile s

/-- A finding tells the name that it is about. -/
theorem eq_of_duplicateFinding_eq {name' : String} {k k' : Nat}
    (h : duplicateFinding s n name k = duplicateFinding s m name' k') : name = name' := by
  have hsuggestion : "Remove duplicate definition of '" ++ name ++ "' or rename one of them" =
      "Remove duplicate definition of '" ++ name' ++ "' or rename one of them" :=
    congrArg Finding.suggestion h
  exact (String.append_right_inj _).mp ((String.append_left_inj _).mp hsuggestion)

theorem isReported_iff : IsReported profile s n name ↔ IsRepeated profile s n name := by
  have hmem : ∀ f, f ∈ duplicates profile s ↔ ∃ m name', IsRepeated profile s m name' ∧
      duplicateFinding s m name' (timesDefined (definitions profile s) name') = f := by
    intro f
    rw [duplicates_eq, Finding.sort, List.mem_mergeSort, List.mem_map]
    simp only [Prod.exists, mem_repeatedDefinitions]
  constructor
  · rintro ⟨hdefines, hfound⟩
    obtain ⟨m, name', hrepeated, heq⟩ := (hmem _).mp hfound
    obtain rfl := eq_of_duplicateFinding_eq heq
    exact ⟨hdefines, hrepeated.several, hrepeated.unrepeatable⟩
  · intro h
    exact ⟨h.defines, (hmem _).mpr ⟨n, name, h, rfl⟩⟩

theorem finite_definitionsOf (profile : Profile) (s : Snippet) (name : String) :
    (definitionsOf profile s name).Finite := by
  refine (List.finite_toSet ((definitions profile s).map Prod.fst)).subset ?_
  intro n hn
  exact List.mem_map.mpr ⟨(n, name), mem_definitions.mpr hn, rfl⟩

/-- Two definitions of one name are reported, if the name may not be repeated. -/
theorem isReported_of_ne (hne : n ≠ m) (hn : Defines profile s n name) (hm : Defines profile s m name)
    (hname : name ∉ profile.repeatable) : IsReported profile s n name := by
  have hseveral : 1 < (definitionsOf profile s name).ncard :=
    (Set.one_lt_ncard (finite_definitionsOf profile s name)).mpr ⟨n, hn, m, hm, hne⟩
  exact isReported_iff.mpr ⟨hn, hseveral, hname⟩

/-! ## 4. Crossing -/

/-- Two definitions are reported under one name although the classes and functions around them have
different names. -/
def Crosses (l : Language) (s : Snippet) (n m : Site) : Prop :=
  (∃ name, IsReported l.profile s n name ∧ IsReported l.profile s m name) ∧
    containers l s.source n ≠ containers l s.source m

/-- Two functions agree in all that counts for a qualified name, and the name may not be repeated. -/
def Alike (l : Language) (s : Snippet) (n m : Site) : Prop :=
  ∃ scopes receiver own, QualifiedBy l.profile s n scopes receiver own ∧
    QualifiedBy l.profile s m scopes receiver own ∧ qualified scopes receiver own ∉ l.profile.repeatable

theorem crosses_iff (hwell : WellNamed l s) :
    Crosses l s n m ↔ Alike l s n m ∧ containers l s.source n ≠ containers l s.source m := by
  refine and_congr_left fun hdiffer => ?_
  constructor
  · rintro ⟨name, hn, hm⟩
    have hrepeatable := (isReported_iff.mp hn).unrepeatable
    obtain ⟨scopes, receiver, own, hparts, rfl⟩ := defines_iff.mp hn.defines
    obtain ⟨scopes', receiver', own', hparts', heq⟩ := defines_iff.mp hm.defines
    obtain ⟨rfl, rfl, rfl⟩ := hparts.unique hwell hparts' heq
    exact ⟨_, _, _, hparts, hparts', hrepeatable⟩
  · rintro ⟨scopes, receiver, own, hn, hm, hrepeatable⟩
    have hne : n ≠ m := fun heq => hdiffer (by rw [heq])
    have hn := defines_iff.mpr ⟨_, _, _, hn, rfl⟩
    have hm := defines_iff.mpr ⟨_, _, _, hm, rfl⟩
    exact ⟨_, isReported_of_ne hne hn hm hrepeatable, isReported_of_ne hne.symm hm hn hrepeatable⟩

/-- Crossing needs a container that does not count. -/
theorem Alike.exists_isUnlisted (h : Alike l s n m)
    (hdiffer : containers l s.source n ≠ containers l s.source m) :
    ∃ a : Site, (a.IsAbove n ∨ a.IsAbove m) ∧ IsUnlisted l a := by
  obtain ⟨scopes, receiver, own, hn, hm, -⟩ := h
  by_contra hnone
  have hlisted : ∀ a, a.IsAbove n ∨ a.IsAbove m → ¬ IsUnlisted l a :=
    fun a ha hunlisted => hnone ⟨a, ha, hunlisted⟩
  refine hdiffer ?_
  calc containers l s.source n
      = (scopeNames l.profile s.source n).reverse :=
        containers_eq fun a ha => hlisted a (.inl ((Snippet.mem_ancestors hn.mem_nodes).mp ha))
    _ = (scopeNames l.profile s.source m).reverse := by rw [← hn.scopes_eq, ← hm.scopes_eq]
    _ = containers l s.source m :=
        (containers_eq fun a ha => hlisted a (.inr ((Snippet.mem_ancestors hm.mem_nodes).mp ha))).symm

/-- In Python all containers count. -/
theorem not_isUnlisted_python (a : Site) : ¬ IsUnlisted .python a :=
  fun h => h.unlisted h.isContainer

/-- **Two definitions cross exactly where all that counts for a qualified name agrees and the containers
differ**; then one of the containers does not count, so definitions of Python do not cross. -/
theorem duplicates_cross_scopes_iff (l : Language) (s : Snippet) (hwell : WellNamed l s) (n m : Site) :
    (Crosses l s n m ↔ Alike l s n m ∧ containers l s.source n ≠ containers l s.source m) ∧
      (Crosses l s n m → ∃ a : Site, (a.IsAbove n ∨ a.IsAbove m) ∧ IsUnlisted l a) ∧
      (l = .python → ¬ Crosses l s n m) := by
  have hexists : Crosses l s n m → ∃ a : Site, (a.IsAbove n ∨ a.IsAbove m) ∧ IsUnlisted l a := by
    intro h
    obtain ⟨halike, hdiffer⟩ := (crosses_iff hwell).mp h
    exact halike.exists_isUnlisted hdiffer
  refine ⟨crosses_iff hwell, hexists, ?_⟩
  rintro rfl h
  obtain ⟨a, -, hunlisted⟩ := hexists h
  exact not_isUnlisted_python a hunlisted

/-- The function `f` inside another one whose text starts at `start`. -/
def innerFunction (start : Nat) : Tree :=
  .named "function_declaration" none (start + 15) (start + 30)
    [.sign "function" (start + 15), .named "identifier" (some "name") (start + 24) (start + 25) [],
      .named "formal_parameters" (some "parameters") (start + 25) (start + 27)
        [.sign "(" (start + 25), .sign ")" (start + 26)],
      .named "statement_block" (some "body") (start + 28) (start + 30)
        [.sign "\x7b" (start + 28), .sign "\x7d" (start + 29)]]

def outerBlock (start : Nat) : Tree :=
  .named "statement_block" (some "body") (start + 13) (start + 32)
    [.sign "\x7b" (start + 13), innerFunction start, .sign "\x7d" (start + 31)]

def outerFunction (start : Nat) : Tree :=
  .named "function_declaration" none start (start + 32)
    [.sign "function" start, .named "identifier" (some "name") (start + 9) (start + 10) [],
      .named "formal_parameters" (some "parameters") (start + 10) (start + 12)
        [.sign "(" (start + 10), .sign ")" (start + 11)],
      outerBlock start]

def outerFile : Tree := .named "program" none 0 66 [outerFunction 0, outerFunction 33]

def outerScript : Snippet where
  source := ("function a() \x7b function f() \x7b\x7d \x7d\n" ++
    "function b() \x7b function f() \x7b\x7d \x7d\n").toList
  tree := some outerFile
  language := "javascript"

/-- The function `f` inside `a`. -/
def innerOfFirst : Site := ⟨innerFunction 0, [⟨outerBlock 0, 1⟩, ⟨outerFunction 0, 3⟩, ⟨outerFile, 0⟩]⟩

/-- The function `f` inside `b`. -/
def innerOfSecond : Site :=
  ⟨innerFunction 33, [⟨outerBlock 33, 1⟩, ⟨outerFunction 33, 3⟩, ⟨outerFile, 1⟩]⟩

/-- Functions `f` inside `a` and inside `b` are reported as definitions of one name. -/
theorem inner_functions_cross :
    WellNamed .javascript outerScript ∧ Crosses .javascript outerScript innerOfFirst innerOfSecond ∧
      ∃ a : Site, (a.IsAbove innerOfFirst ∨ a.IsAbove innerOfSecond) ∧ IsUnlisted .javascript a := by
  have hwell : WellNamed .javascript outerScript :=
    ⟨by decide +kernel, by decide +kernel, fun _ => by decide +kernel⟩
  have hlist : repeatedDefinitions Language.javascript.profile outerScript =
      [(innerOfFirst, "f"), (innerOfSecond, "f")] := rfl
  have hfirst : IsReported Language.javascript.profile outerScript innerOfFirst "f" :=
    isReported_iff.mpr (mem_repeatedDefinitions.mp (by simp [hlist]))
  have hsecond : IsReported Language.javascript.profile outerScript innerOfSecond "f" :=
    isReported_iff.mpr (mem_repeatedDefinitions.mp (by simp [hlist]))
  have hcross : Crosses .javascript outerScript innerOfFirst innerOfSecond :=
    ⟨⟨"f", hfirst, hsecond⟩, by decide +kernel⟩
  exact ⟨hwell, hcross, (duplicates_cross_scopes_iff _ _ hwell _ _).2.1 hcross⟩

end Quality

end CodeAudit
