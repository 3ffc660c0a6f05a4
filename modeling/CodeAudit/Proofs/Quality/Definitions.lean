import CodeAudit.Proofs.Quality.Listing
import CodeAudit.Proofs.Tree.Nodes
import CodeAudit.Quality.Duplicate
import Mathlib

/-!
# One finding for each of the definitions of a name

The detector builds the qualified name of a function by climbing from the function to the top of the
tree, and counts names in a list of definitions.  What a definition is, is said here without either:
the names of the containers are collected on the way *down* (`Enclosed`), the receiver is the first type
identifier in preorder (`IsReceiver`), and the definitions of a name are a set of nodes
(`definitionsOf`).  The list of definitions has those nodes, each once (`mem_definitions`,
`nodup_definitions`), so counting in it gives the size of that set (`timesDefined_eq_ncard`).

Main statement: **a name with several definitions gives one finding for each of them, at its place and
with their number, and there are no other findings** (`duplicates_match_definitions`).
-/

namespace CodeAudit.Quality

/-! ## 1. What a definition is -/

variable (profile : Profile) (source : List Char)

/-- The name that a node adds to the names of what is inside it. -/
def scopeName (n : Site) : List (List Char) :=
  if n.hasKind profile.scopeKinds then ((n.field? "name").map (·.text source)).toList else []

/-- The names of the containers around a node of a tree, the outermost first. -/
inductive Enclosed (t : Tree) : Site → List (List Char) → Prop
  | top : Enclosed t (.top t) []
  | child {n m : Site} {i : Nat} {names : List (List Char)} (h : Enclosed t n names)
      (hchild : n.child? i = some m) : Enclosed t m (names ++ scopeName profile source n)

/-- The node that names the type of a function's receiver: the first type identifier in it. -/
def IsReceiver (n m : Site) : Prop :=
  ∃ receiver, n.field? "receiver" = some receiver ∧ receiver.Within m ∧ m.kind = "type_identifier" ∧
    ∀ m', receiver.Within m' → m'.kind = "type_identifier" → m' = m ∨ m.Precedes m'

/-- What the receiver adds to the name of a function; nothing for a function without one. -/
def ReceiverName (n : Site) (names : List (List Char)) : Prop :=
  (∃ m, IsReceiver n m ∧ names = [m.text source]) ∨ ((∀ m, ¬ IsReceiver n m) ∧ names = [])

/-- A node of the snippet defines a function: its kind is that of a function and it has a name that is
not empty.  The qualified name joins the containers, the receiver and that name with points. -/
inductive Defines (s : Snippet) (n : Site) : String → Prop
  | intro {t : Tree} {scopes receiver : List (List Char)} {name : Site} (htree : s.tree = some t)
      (hscopes : Enclosed profile s.source t n scopes) (hkind : n.kind ∈ profile.functionKinds)
      (hreceiver : ReceiverName s.source n receiver) (hname : n.field? "name" = some name)
      (hnonempty : name.text s.source ≠ []) :
      Defines s n (String.ofList (['.'].intercalate (scopes ++ receiver ++ [name.text s.source])))

/-- All definitions of a qualified name. -/
def definitionsOf (s : Snippet) (name : String) : Set Site := {n | Defines profile s n name}

variable {profile source} {n m : Site}

/-! ## 2. Climbing finds the names of the way down -/

theorem scopeNames_of_child? {i : Nat} (h : n.child? i = some m) :
    scopeNames profile source m = scopeNames profile source n ++ scopeName profile source n := by
  obtain ⟨t, -, rfl⟩ := Site.child?_eq_some_iff.mp h
  have hancestors : Site.ancestors ⟨t, ⟨n.tree, i⟩ :: n.above⟩ = n :: n.ancestors := rfl
  rw [scopeNames, hancestors, scopeName]
  by_cases hkind : n.hasKind profile.scopeKinds = true
  · cases hname : n.field? "name" with
    | none => simp [scopeNames, hkind, hname]
    | some name => simp [scopeNames, hkind, hname]
  · simp [scopeNames, hkind]

/-- **The names of the way up are those of the way down.** -/
theorem enclosed_iff {t : Tree} {names : List (List Char)} :
    Enclosed profile source t n names ↔
      (Site.top t).Within n ∧ names = scopeNames profile source n := by
  constructor
  · intro h
    induction h with
    | top => exact ⟨.self, rfl⟩
    | child h hchild ih => exact ⟨ih.1.child hchild, by rw [scopeNames_of_child? hchild, ih.2]⟩
  · rintro ⟨hwithin, rfl⟩
    induction hwithin with
    | self => exact .top
    | child h hchild ih =>
      rw [scopeNames_of_child? hchild]
      exact ih.child hchild

theorem receiverType?_eq_some_iff {name : List Char} :
    n.receiverType? source = some name ↔ ∃ m, IsReceiver n m ∧ name = m.text source := by
  rw [Site.receiverType?, Option.bind_eq_some_iff]
  constructor
  · rintro ⟨receiver, hreceiver, h⟩
    obtain ⟨m, hm, rfl⟩ := Option.map_eq_some_iff.mp h
    obtain ⟨hwithin, hkind, hfirst⟩ := Site.find?_nodes_eq_some_iff.mp hm
    refine ⟨m, ⟨receiver, hreceiver, hwithin, beq_iff_eq.mp hkind, ?_⟩, rfl⟩
    exact fun m' hm' hkind' => hfirst m' hm' (beq_iff_eq.mpr hkind')
  · rintro ⟨m, ⟨receiver, hreceiver, hwithin, hkind, hfirst⟩, rfl⟩
    refine ⟨receiver, hreceiver, Option.map_eq_some_iff.mpr ⟨m, ?_, rfl⟩⟩
    refine Site.find?_nodes_eq_some_iff.mpr ⟨hwithin, beq_iff_eq.mpr hkind, ?_⟩
    exact fun m' hm' hkind' => hfirst m' hm' (beq_iff_eq.mp hkind')

theorem receiverName_iff {names : List (List Char)} :
    ReceiverName source n names ↔ names = (n.receiverType? source).toList := by
  have hsome := @receiverType?_eq_some_iff source n
  cases hreceiver : n.receiverType? source with
  | some name =>
    obtain ⟨m, hm, rfl⟩ := (hsome).mp hreceiver
    constructor
    · rintro (⟨m', hm', rfl⟩ | ⟨hnone, -⟩)
      · have heq := hreceiver.symm.trans (hsome.mpr ⟨m', hm', rfl⟩)
        rw [Option.some.inj heq, Option.toList_some]
      · exact absurd hm (hnone m)
    · rintro rfl
      exact .inl ⟨m, hm, rfl⟩
  | none =>
    have hnone : ∀ m, ¬ IsReceiver n m := by
      intro m hm
      have heq := hreceiver.symm.trans (hsome.mpr ⟨m, hm, rfl⟩)
      cases heq
    constructor
    · rintro (⟨m, hm, -⟩ | ⟨-, rfl⟩)
      · exact absurd hm (hnone m)
      · rfl
    · rintro rfl
      exact .inr ⟨hnone, rfl⟩

/-! ## 3. The list of definitions -/

variable {s : Snippet} {name : String}

/-- **The list holds the definitions with their names.** -/
theorem mem_definitions : (n, name) ∈ definitions profile s ↔ Defines profile s n name := by
  have hjoin : ∀ parts, Text.join "." parts = ['.'].intercalate parts := fun parts => rfl
  simp only [definitions, List.mem_filterMap, List.mem_filter, Snippet.mem_nodes]
  constructor
  · rintro ⟨n', ⟨⟨t, htree, hwithin⟩, hkind⟩, h⟩
    obtain ⟨q, hq, heq⟩ := Option.map_eq_some_iff.mp h
    obtain ⟨rfl, rfl⟩ := Prod.mk.inj heq
    obtain ⟨nameNode, hname, hq⟩ := Option.bind_eq_some_iff.mp hq
    obtain ⟨hnonempty, hq⟩ := Option.ite_none_left_eq_some.mp hq
    obtain rfl := Option.some.inj hq
    rw [hjoin]
    refine .intro htree (enclosed_iff.mpr ⟨hwithin, rfl⟩) (List.contains_iff_mem.mp hkind)
      (receiverName_iff.mpr rfl) hname ?_
    rwa [List.isEmpty_iff] at hnonempty
  · rintro ⟨htree, hscopes, hkind, hreceiver, hname, hnonempty⟩
    obtain ⟨hwithin, rfl⟩ := enclosed_iff.mp hscopes
    obtain rfl := receiverName_iff.mp hreceiver
    refine ⟨n, ⟨⟨_, htree, hwithin⟩, List.contains_iff_mem.mpr hkind⟩, ?_⟩
    rw [qualifiedName?, hname, Option.bind_some]
    simp [hnonempty, hjoin]

/-- No node is in the list twice. -/
theorem nodup_definitions (profile : Profile) (s : Snippet) :
    ((definitions profile s).map Prod.fst).Nodup := by
  have hnodes : (s.nodes.filter (·.hasKind profile.functionKinds)).Pairwise (· ≠ ·) :=
    s.nodup_nodes.filter _
  refine List.pairwise_map.mpr (List.Pairwise.filterMap _ ?_ hnodes)
  rintro n n' hne d hd d' hd'
  obtain ⟨q, -, rfl⟩ := Option.map_eq_some_iff.mp hd
  obtain ⟨q', -, rfl⟩ := Option.map_eq_some_iff.mp hd'
  exact hne

/-- The definitions of one name, as they stand in the list. -/
theorem mem_definitionsOf :
    n ∈ definitionsOf profile s name ↔
      n ∈ ((definitions profile s).filter (·.2 == name)).map Prod.fst := by
  simp only [definitionsOf, Set.mem_ofPred_eq, ← mem_definitions, List.mem_map, List.mem_filter,
    beq_iff_eq]
  constructor
  · intro h
    exact ⟨(n, name), ⟨h, rfl⟩, rfl⟩
  · rintro ⟨⟨n', name'⟩, ⟨h, rfl⟩, rfl⟩
    exact h

/-- **Counting a name gives the number of its definitions.** -/
theorem timesDefined_eq_ncard :
    timesDefined (definitions profile s) name = (definitionsOf profile s name).ncard := by
  classical
  have hnodup : (((definitions profile s).filter (·.2 == name)).map Prod.fst).Nodup :=
    (nodup_definitions profile s).sublist (List.filter_sublist.map Prod.fst)
  have hset : definitionsOf profile s name =
      (((definitions profile s).filter (·.2 == name)).map Prod.fst).toFinset := by
    ext n
    rw [mem_definitionsOf, Finset.mem_coe, List.mem_toFinset]
  rw [hset, Set.ncard_coe_finset, List.toFinset_card_of_nodup hnodup, List.length_map, timesDefined,
    List.countP_eq_length_filter]

/-! ## 4. The findings -/

/-- A definition that is not the only one of its name, in a language that does not let this name be
repeated. -/
structure IsRepeated (profile : Profile) (s : Snippet) (n : Site) (name : String) : Prop where
  defines : Defines profile s n name
  several : 2 ≤ (definitionsOf profile s name).ncard
  unrepeatable : name ∉ profile.repeatable

/-- A finding that reports a repeated definition: it stands where the definition stands, and tells the
name and the number of its definitions. -/
structure Reports (profile : Profile) (s : Snippet) (n : Site) (f : Finding) : Prop where
  kind : f.kind = .duplicateFunction
  severity : f.severity = .error
  span : f.span = n.span s.source
  code : f.code = String.ofList (n.text s.source)
  message : ∃ name, IsRepeated profile s n name ∧
    f.message = "Duplicate function definition: '" ++ name ++ "' is defined " ++
      toString (definitionsOf profile s name).ncard ++ " times"

/-- The entries of the list of definitions that are reported. -/
def repeatedDefinitions (profile : Profile) (s : Snippet) : List (Site × String) :=
  (definitions profile s).filter fun d =>
    1 < timesDefined (definitions profile s) d.2 && !profile.repeatable.contains d.2

theorem mem_repeatedDefinitions :
    (n, name) ∈ repeatedDefinitions profile s ↔ IsRepeated profile s n name := by
  rw [repeatedDefinitions, List.mem_filter, mem_definitions, timesDefined_eq_ncard, Bool.and_eq_true,
    decide_eq_true_iff, Bool.not_eq_true', ← Bool.not_eq_true, List.contains_iff_mem]
  exact ⟨fun ⟨hdefines, hseveral, hname⟩ => ⟨hdefines, hseveral, hname⟩,
    fun ⟨hdefines, hseveral, hname⟩ => ⟨hdefines, hseveral, hname⟩⟩

theorem duplicates_eq (profile : Profile) (s : Snippet) :
    duplicates profile s = Finding.sort ((repeatedDefinitions profile s).map fun d =>
      duplicateFinding s d.1 d.2 (timesDefined (definitions profile s) d.2)) := by
  rw [repeatedDefinitions, ← List.filterMap_eq_map, List.filterMap_filter]
  rfl

theorem IsRepeated.reports (h : IsRepeated profile s n name) :
    Reports profile s n
      (duplicateFinding s n name (timesDefined (definitions profile s) name)) where
  kind := rfl
  severity := rfl
  span := rfl
  code := rfl
  message := ⟨name, h, by rw [timesDefined_eq_ncard]; rfl⟩

/-- **A name with several definitions gives one finding for each of them, and nothing else does.**  The
findings are those of a list of nodes that holds each repeated definition once: each finding stands at
its node and tells the qualified name and how many definitions it has. -/
theorem duplicates_match_definitions (profile : Profile) (s : Snippet) :
    ∃ nodes : List Site, nodes.Nodup ∧ (∀ n, n ∈ nodes ↔ ∃ name, IsRepeated profile s n name) ∧
      List.Forall₂ (Reports profile s) nodes (duplicates profile s) := by
  have hnodup : ((repeatedDefinitions profile s).map Prod.fst).Nodup :=
    (nodup_definitions profile s).sublist (List.filter_sublist.map Prod.fst)
  have hmem : ∀ n, n ∈ (repeatedDefinitions profile s).map Prod.fst ↔
      ∃ name, IsRepeated profile s n name := by
    intro n
    rw [List.mem_map]
    constructor
    · rintro ⟨⟨n, name⟩, hd, rfl⟩
      exact ⟨name, mem_repeatedDefinitions.mp hd⟩
    · rintro ⟨name, h⟩
      exact ⟨(n, name), mem_repeatedDefinitions.mpr h, rfl⟩
  have hreports : List.Forall₂ (Reports profile s) ((repeatedDefinitions profile s).map Prod.fst)
      ((repeatedDefinitions profile s).map fun d =>
        duplicateFinding s d.1 d.2 (timesDefined (definitions profile s) d.2)) := by
    rw [List.forall₂_map_left_iff, List.forall₂_map_right_iff, List.forall₂_same]
    rintro ⟨n, name⟩ hd
    exact (mem_repeatedDefinitions.mp hd).reports
  rw [duplicates_eq]
  exact Finding.MatchedBy.sort ⟨_, hnodup, hmem, hreports⟩

end CodeAudit.Quality
