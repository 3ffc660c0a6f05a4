import CodeAudit.Proofs.Quality.Listing
import CodeAudit.Proofs.Tree.Nodes
import CodeAudit.Quality.Unused
import Mathlib

/-!
# Declarations that nothing reads

The check for unused variables goes over the tree twice: it first collects the names that are declared in
bodies, and then the texts of all other identifiers.  A declared name is reported if its text is not among
them.

What a node declares is said here by cases (`Declares`), without the collecting functions.  **No name is
collected twice** (`Declares.unique`): a name stands one level below the node that declares it, or two
levels with a node between them that declares nothing itself.  And the identities that the first pass hands
to the second are paths of child numbers, so the second pass leaves out the collected nodes and no others
(`mem_readNames`).

Main statement: **there is one finding for each declaration in a body that nothing reads**
(`unused_match_unread_declarations`).
-/

namespace CodeAudit

/-! ## 1. What a node declares -/

namespace Language

/-- A node declares a name. -/
inductive Declares : Language → Site → Site → Prop
  /-- `x, y := f()` -/
  | short {n left d : Site} (hkind : n.kind = "short_var_declaration")
      (hleft : n.field? "left" = some left) (hd : d ∈ left.namedChildren)
      (hname : d.kind = "identifier") : Declares .go n d
  /-- `var x, y int` -/
  | listed {n d : Site} (hkind : n.kind = "var_spec") (hd : d ∈ n.fields "name") : Declares .go n d
  /-- `let x = 1` -/
  | declarator {l : Language} {n d : Site} (hl : l = .javascript ∨ l = .typescript)
      (hkind : n.kind = "variable_declarator") (hd : n.field? "name" = some d)
      (hname : d.kind = "identifier") : Declares l n d
  /-- `x = 1` -/
  | assigned {n d : Site} (hkind : n.kind = "assignment") (hd : n.field? "left" = some d)
      (hname : d.kind = "identifier") : Declares .python n d
  /-- `x, y = f()` -/
  | unpacked {n left d : Site} (hkind : n.kind = "assignment") (hleft : n.field? "left" = some left)
      (hpattern : left.kind = "pattern_list" ∨ left.kind = "tuple_pattern")
      (hd : d ∈ left.namedChildren) (hname : d.kind = "identifier") : Declares .python n d
  /-- `x` in a row of parameters -/
  | parameter {n d : Site} (hkind : n.kind = "parameters") (hd : d ∈ n.namedChildren)
      (hname : d.kind = "identifier") : Declares .python n d
  /-- `x: int` -/
  | typed {n p d : Site} (hkind : n.kind = "parameters") (hp : p ∈ n.namedChildren)
      (htyped : p.kind = "typed_parameter") (hd : p.namedChildren.head? = some d)
      (hname : d.kind = "identifier") : Declares .python n d
  /-- `x=1` and `x: int = 1` -/
  | defaulted {n p d : Site} (hkind : n.kind = "parameters") (hp : p ∈ n.namedChildren)
      (hdefault : p.kind = "default_parameter" ∨ p.kind = "typed_default_parameter")
      (hd : p.field? "name" = some d) (hname : d.kind = "identifier") : Declares .python n d

variable {l : Language} {n p d c : Site}

theorem mem_identifiersIn : d ∈ identifiersIn n ↔ d ∈ n.namedChildren ∧ d.kind = "identifier" := by
  simp [identifiersIn]

theorem mem_ifIdentifier {o : Option Site} : d ∈ ifIdentifier o ↔ o = some d ∧ d.kind = "identifier" := by
  simp [ifIdentifier]

theorem mem_parameterName :
    d ∈ parameterName p ↔ d.kind = "identifier" ∧
      (d = p ∨ p.kind = "typed_parameter" ∧ p.namedChildren.head? = some d ∨
        (p.kind = "default_parameter" ∨ p.kind = "typed_default_parameter") ∧
          p.field? "name" = some d) := by
  unfold parameterName
  split <;> grind [mem_ifIdentifier]

/-- **The collecting functions collect what is declared.** -/
theorem mem_declaredNames : d ∈ l.declaredNames n ↔ Declares l n d := by
  constructor
  · intro h
    cases l with
    | go =>
      simp only [declaredNames] at h
      split at h
      · next hkind =>
        cases hleft : n.field? "left" with
        | none => simp [hleft] at h
        | some left =>
          obtain ⟨hd, hname⟩ := mem_identifiersIn.mp (by simpa [hleft] using h)
          exact .short hkind hleft hd hname
      · next hkind => exact .listed hkind h
      · cases h
    | javascript | typescript =>
      simp only [declaredNames, beq_iff_eq] at h
      split at h
      · next hkind =>
        obtain ⟨hd, hname⟩ := mem_ifIdentifier.mp h
        exact .declarator (by simp) hkind hd hname
      · cases h
    | python =>
      simp only [declaredNames] at h
      split at h
      · next hkind =>
        split at h
        · next left hleft =>
          split at h
          · next hname =>
            obtain rfl := List.mem_singleton.mp h
            exact .assigned hkind hleft hname
          · next hpattern =>
            obtain ⟨hd, hname⟩ := mem_identifiersIn.mp h
            exact .unpacked hkind hleft (.inl hpattern) hd hname
          · next hpattern =>
            obtain ⟨hd, hname⟩ := mem_identifiersIn.mp h
            exact .unpacked hkind hleft (.inr hpattern) hd hname
          · cases h
        · cases h
      · next hkind =>
        obtain ⟨p, hp, hd⟩ := List.mem_flatMap.mp h
        obtain ⟨hname, rfl | ⟨htyped, hd⟩ | ⟨hdefault, hd⟩⟩ := mem_parameterName.mp hd
        · exact .parameter hkind hp hname
        · exact .typed hkind hp htyped hd hname
        · exact .defaulted hkind hp hdefault hd hname
      · cases h
  · intro h
    cases h with
    | short hkind hleft hd hname => simp [declaredNames, hkind, hleft, mem_identifiersIn, hd, hname]
    | listed hkind hd => simp [declaredNames, hkind, hd]
    | declarator hl hkind hd hname =>
      rcases hl with rfl | rfl <;> simp [declaredNames, hkind, hd, mem_ifIdentifier, hname]
    | assigned hkind hd hname => simp [declaredNames, hkind, hd, hname]
    | unpacked hkind hleft hpattern hd hname =>
      rcases hpattern with hp | hp <;>
        simp [declaredNames, hkind, hleft, hp, mem_identifiersIn, hd, hname]
    | parameter hkind hd hname =>
      simp only [declaredNames, hkind, List.mem_flatMap, mem_parameterName]
      exact ⟨d, hd, hname, .inl rfl⟩
    | typed hkind hp htyped hd hname =>
      simp only [declaredNames, hkind, List.mem_flatMap, mem_parameterName]
      exact ⟨_, hp, hname, .inr (.inl ⟨htyped, hd⟩)⟩
    | defaulted hkind hp hdefault hd hname =>
      simp only [declaredNames, hkind, List.mem_flatMap, mem_parameterName]
      exact ⟨_, hp, hname, .inr (.inr ⟨hdefault, hd⟩)⟩

/-! ## 2. No name is collected twice -/

/-- The kinds of nodes that declare children of theirs. -/
def declaringKinds : Language → List String
  | .go => ["var_spec"]
  | .javascript | .typescript => ["variable_declarator"]
  | .python => ["assignment", "parameters"]

/-- The left side of a short declaration is a list of expressions and never a list of declared names,
as the grammar has it. -/
def PlainLeft (n : Site) : Prop :=
  n.kind = "short_var_declaration" → ∀ left ∈ n.field? "left", left.kind ≠ "var_spec"

instance (n : Site) : Decidable (PlainLeft n) :=
  inferInstanceAs (Decidable (_ → ∀ left ∈ n.field? "left", left.kind ≠ "var_spec"))

theorem exists_child_of_namedChildren (h : d ∈ n.namedChildren) : ∃ i, n.child? i = some d :=
  Site.mem_children.mp (List.mem_filter.mp h).1

/-- A name stands below the node that declares it, or two levels below with a node between them that
declares nothing itself, unless it is an odd left side. -/
theorem Declares.near (h : Declares l c d) :
    (∃ i, c.child? i = some d ∧ c.kind ∈ l.declaringKinds) ∨
      ∃ p i j, c.child? i = some p ∧ p.child? j = some d ∧
        (p.kind ∈ l.declaringKinds → l = .go ∧ ¬ PlainLeft c) := by
  cases h with
  | short hkind hfield hd hname =>
    obtain ⟨i, hi⟩ := Site.exists_child_of_field? hfield
    obtain ⟨j, hj⟩ := exists_child_of_namedChildren hd
    refine .inr ⟨_, i, j, hi, hj, fun hp => ⟨rfl, fun hplain => ?_⟩⟩
    exact hplain hkind _ hfield (List.mem_singleton.mp hp)
  | listed hkind hd =>
    obtain ⟨i, hi⟩ := Site.mem_children.mp (List.mem_filter.mp hd).1
    exact .inl ⟨i, hi, by simp [declaringKinds, hkind]⟩
  | declarator hl hkind hd hname =>
    obtain ⟨i, hi⟩ := Site.exists_child_of_field? hd
    exact .inl ⟨i, hi, by rcases hl with rfl | rfl <;> simp [declaringKinds, hkind]⟩
  | assigned hkind hd hname =>
    obtain ⟨i, hi⟩ := Site.exists_child_of_field? hd
    exact .inl ⟨i, hi, by simp [declaringKinds, hkind]⟩
  | unpacked hkind hfield hpattern hd hname =>
    obtain ⟨i, hi⟩ := Site.exists_child_of_field? hfield
    obtain ⟨j, hj⟩ := exists_child_of_namedChildren hd
    exact .inr ⟨_, i, j, hi, hj, by rcases hpattern with hp | hp <;> simp [declaringKinds, hp]⟩
  | parameter hkind hd hname =>
    obtain ⟨i, hi⟩ := exists_child_of_namedChildren hd
    exact .inl ⟨i, hi, by simp [declaringKinds, hkind]⟩
  | typed hkind hp htyped hd hname =>
    obtain ⟨i, hi⟩ := exists_child_of_namedChildren hp
    obtain ⟨j, hj⟩ := exists_child_of_namedChildren (List.mem_of_head? hd)
    exact .inr ⟨_, i, j, hi, hj, by simp [declaringKinds, htyped]⟩
  | defaulted hkind hp hdefault hd hname =>
    obtain ⟨i, hi⟩ := exists_child_of_namedChildren hp
    obtain ⟨j, hj⟩ := Site.exists_child_of_field? hd
    exact .inr ⟨_, i, j, hi, hj, by rcases hdefault with hp | hp <;> simp [declaringKinds, hp]⟩

theorem Declares.within (h : Declares l c d) : c.Within d := by
  rcases h.near with ⟨i, hi, -⟩ | ⟨p, i, j, hi, hj, -⟩
  · exact Site.Within.self.child hi
  · exact (Site.Within.self.child hi).child hj

/-- **One node at most declares a name.** -/
theorem Declares.unique {c' : Site} (h : Declares l c d) (h' : Declares l c' d)
    (hplain : l = .go → PlainLeft c) (hplain' : l = .go → PlainLeft c') : c = c' := by
  rcases h.near with ⟨i, hi, hkind⟩ | ⟨p, i, j, hi, hj, hkind⟩ <;>
    rcases h'.near with ⟨i', hi', hkind'⟩ | ⟨p', i', j', hi', hj', hkind'⟩
  · exact (Site.child?_inj hi hi').1
  · obtain ⟨rfl, -⟩ := Site.child?_inj hi hj'
    obtain ⟨hgo, hodd⟩ := hkind' hkind
    exact absurd (hplain' hgo) hodd
  · obtain ⟨rfl, -⟩ := Site.child?_inj hj hi'
    obtain ⟨hgo, hodd⟩ := hkind hkind'
    exact absurd (hplain hgo) hodd
  · obtain ⟨rfl, -⟩ := Site.child?_inj hj hj'
    exact (Site.child?_inj hi hi').1

theorem nodup_namedChildren (n : Site) : n.namedChildren.Nodup := n.nodup_children.filter _

theorem nodup_ifIdentifier (o : Option Site) : (ifIdentifier o).Nodup := by
  cases o <;> simp [ifIdentifier, List.Nodup.filter]

theorem nodup_parameterName (p : Site) : (parameterName p).Nodup := by
  unfold parameterName
  split <;> simp [nodup_ifIdentifier]

/-- The parameters of one row have names of their own. -/
theorem disjoint_parameterName {p' : Site} (hp : p ∈ n.namedChildren) (hp' : p' ∈ n.namedChildren)
    (hne : p ≠ p') : (parameterName p).Disjoint (parameterName p') := by
  obtain ⟨i, hi⟩ := exists_child_of_namedChildren hp
  obtain ⟨i', hi'⟩ := exists_child_of_namedChildren hp'
  have hnear : ∀ {p d}, d ∈ parameterName p → d = p ∨ ∃ j, p.child? j = some d := by
    intro p d hd
    obtain ⟨-, rfl | ⟨-, hd⟩ | ⟨-, hd⟩⟩ := mem_parameterName.mp hd
    · exact .inl rfl
    · exact .inr (exists_child_of_namedChildren (List.mem_of_head? hd))
    · exact .inr (Site.exists_child_of_field? hd)
  intro d hd hd'
  rcases hnear hd with rfl | ⟨j, hj⟩ <;> rcases hnear hd' with rfl | ⟨j', hj'⟩
  · exact hne rfl
  · obtain ⟨rfl, -⟩ := Site.child?_inj hi hj'
    exact absurd (Site.isAbove_of_child? hi') Site.Within.self.not_isAbove
  · obtain ⟨rfl, -⟩ := Site.child?_inj hi' hj
    exact absurd (Site.isAbove_of_child? hi) Site.Within.self.not_isAbove
  · exact hne (Site.child?_inj hj hj').1

theorem nodup_declaredNames (l : Language) (n : Site) : (l.declaredNames n).Nodup := by
  have hidentifiers : ∀ n, (identifiersIn n).Nodup := fun n => (nodup_namedChildren n).filter _
  cases l with
  | go =>
    simp only [declaredNames]
    split
    · cases n.field? "left" <;> simp [hidentifiers]
    · exact n.nodup_children.filter _
    · exact List.nodup_nil
  | javascript | typescript =>
    simp only [declaredNames]
    split
    · exact nodup_ifIdentifier _
    · exact List.nodup_nil
  | python =>
    simp only [declaredNames]
    split
    · split
      · split <;> simp [hidentifiers]
      · exact List.nodup_nil
    · rw [List.nodup_flatMap]
      refine ⟨fun p _ => nodup_parameterName p, ?_⟩
      exact (nodup_namedChildren n).pairwise_of_forall_ne fun p hp p' hp' => disjoint_parameterName hp hp'
    · exact List.nodup_nil

end Language

namespace Quality

variable {l : Language} {s : Snippet} {d u : Site}

/-! ## 3. Declarations in bodies -/

/-- A name that is declared inside a body. -/
structure IsLocal (l : Language) (s : Snippet) (d : Site) : Prop where
  declared : ∃ c ∈ s.nodes, l.Declares c d
  inBody : ∃ body : Site, body.IsAbove d ∧ body.kind ∈ l.profile.bodyKinds

theorem IsLocal.mem (h : IsLocal l s d) : d ∈ s.nodes := by
  obtain ⟨c, hc, hd⟩ := h.declared
  exact Snippet.mem_nodes_of_within hc hd.within

theorem isSome_enclosing?_iff {kinds : List String} (hd : d ∈ s.nodes) :
    (d.enclosing? kinds).isSome = true ↔ ∃ a : Site, a.IsAbove d ∧ a.kind ∈ kinds := by
  simp [Site.enclosing?, Site.hasKind, Snippet.mem_ancestors hd]

theorem mem_localDeclarations : d ∈ localDeclarations l s ↔ IsLocal l s d := by
  simp only [localDeclarations, List.mem_filter, List.mem_flatMap, Language.mem_declaredNames]
  constructor
  · rintro ⟨⟨c, hc, hd⟩, hbody⟩
    exact ⟨⟨c, hc, hd⟩, (isSome_enclosing?_iff (Snippet.mem_nodes_of_within hc hd.within)).mp hbody⟩
  · intro h
    exact ⟨h.declared, (isSome_enclosing?_iff h.mem).mpr h.inBody⟩

theorem nodup_localDeclarations (hplain : l = .go → ∀ n ∈ s.nodes, Language.PlainLeft n) :
    (localDeclarations l s).Nodup := by
  refine List.Nodup.filter _ (List.nodup_flatMap.mpr ⟨fun n _ => l.nodup_declaredNames n, ?_⟩)
  refine s.nodup_nodes.pairwise_of_forall_ne fun c hc c' hc' hne d hd hd' => hne ?_
  rw [Language.mem_declaredNames] at hd hd'
  exact hd.unique hd' (fun hgo => hplain hgo c hc) fun hgo => hplain hgo c' hc'

/-! ## 4. Reads -/

/-- **The second pass leaves out the collected names and nothing else.** -/
theorem mem_readNames {name : List Char} :
    name ∈ readNames l s (localDeclarations l s) ↔
      ∃ u ∈ s.nodes, u.kind ∈ l.profile.referenceKinds ∧ ¬ IsLocal l s u ∧ s.text u = name := by
  have hpath : ∀ u ∈ s.nodes, (∃ d ∈ localDeclarations l s, d.path = u.path) ↔ IsLocal l s u := by
    intro u hu
    constructor
    · rintro ⟨d, hd, heq⟩
      have hlocal := mem_localDeclarations.mp hd
      rwa [Snippet.eq_of_path_eq hu hlocal.mem heq.symm]
    · exact fun h => ⟨u, mem_localDeclarations.mpr h, rfl⟩
  simp only [readNames, List.mem_map, List.mem_filter, Bool.and_eq_true, Site.hasKind,
    List.contains_iff_mem, Bool.not_eq_true', ← Bool.not_eq_true]
  constructor
  · rintro ⟨u, ⟨hu, hkind, hlocal⟩, hname⟩
    exact ⟨u, hu, hkind, mt (hpath u hu).mpr hlocal, hname⟩
  · rintro ⟨u, hu, hkind, hlocal, hname⟩
    exact ⟨u, ⟨hu, hkind, mt (hpath u hu).mp hlocal⟩, hname⟩

/-- A name that is never reported: none at all, one that says so, or one between two pairs of
underscores. -/
def IsIgnored (name : List Char) : Prop :=
  name ∈ [[], "_".toList, "self".toList, "cls".toList] ∨
    4 < Text.utf8Length name ∧ "__".toList <+: name ∧ "__".toList <:+ name

theorem isIgnoredName_iff {name : List Char} : isIgnoredName name = true ↔ IsIgnored name := by
  simp [isIgnoredName, isDunder_iff, IsIgnored, or_assoc]

/-- A declaration in a body that nothing reads: whatever else has its text is a declaration in a body as
well. -/
structure IsUnread (l : Language) (s : Snippet) (d : Site) : Prop where
  isLocal : IsLocal l s d
  named : ¬ IsIgnored (s.text d)
  unread : ∀ u ∈ s.nodes, u.kind ∈ l.profile.referenceKinds → s.text u = s.text d → IsLocal l s u

/-! ## 5. The findings -/

/-- The declarations that are reported. -/
def unreadDeclarations (l : Language) (s : Snippet) : List Site :=
  (localDeclarations l s).filter fun d =>
    !(isIgnoredName (s.text d) || (readNames l s (localDeclarations l s)).contains (s.text d))

theorem mem_unreadDeclarations : d ∈ unreadDeclarations l s ↔ IsUnread l s d := by
  simp only [unreadDeclarations, List.mem_filter, mem_localDeclarations, Bool.not_eq_true',
    ← Bool.not_eq_true, Bool.or_eq_true, not_or, isIgnoredName_iff, List.contains_iff_mem, mem_readNames]
  constructor
  · rintro ⟨hlocal, hnamed, hread⟩
    refine ⟨hlocal, hnamed, fun u hu hkind hname => ?_⟩
    by_contra hother
    exact hread ⟨u, hu, hkind, hother, hname⟩
  · rintro ⟨hlocal, hnamed, hunread⟩
    refine ⟨hlocal, hnamed, ?_⟩
    rintro ⟨u, hu, hkind, hother, hname⟩
    exact hother (hunread u hu hkind hname)

theorem unused_eq (l : Language) (s : Snippet) :
    unused l s = Finding.sort ((unreadDeclarations l s).map fun d =>
      unusedFinding s d (String.ofList (s.text d))) :=
  congrArg Finding.sort (filterMap_ite_none _ _ _)

/-- **Unused variables are the declarations in bodies that nothing reads.**  No name is collected for two
nodes, and there is one finding for each unread declaration, at its place, and no other. -/
theorem unused_match_unread_declarations (l : Language) (s : Snippet)
    (hplain : l = .go → ∀ n ∈ s.nodes, Language.PlainLeft n) :
    (∀ c ∈ s.nodes, ∀ c' ∈ s.nodes, ∀ d, l.Declares c d → l.Declares c' d → c = c') ∧
      Finding.OneForEach (IsUnread l s)
        (fun d => Finding.IsAbout s.source .unusedVariable .warning
          ("Unused variable: '" ++ String.ofList (s.text d) ++ "' is declared but never used") d)
        (unused l s) := by
  constructor
  · intro c hc c' hc' d hd hd'
    exact hd.unique hd' (fun hgo => hplain hgo c hc) fun hgo => hplain hgo c' hc'
  · rw [unused_eq]
    refine Finding.oneForEach_sort ((nodup_localDeclarations hplain).filter _)
      (fun d => mem_unreadDeclarations) fun d hd => ⟨rfl, rfl, rfl, rfl, rfl⟩

/-- The left side of `x, y := f(y)`. -/
def pairLeft : Tree :=
  .named "expression_list" (some "left") 11 15
    [.named "identifier" none 11 12 [], .sign "," 12, .named "identifier" none 14 15 []]

def pairDeclaration : Tree :=
  .named "short_var_declaration" none 11 23
    [pairLeft, .sign ":=" 16,
      .named "expression_list" (some "right") 19 23
        [.named "call_expression" none 19 23
          [.named "identifier" (some "function") 19 20 [],
            .named "argument_list" (some "arguments") 20 23
              [.sign "(" 20, .named "identifier" none 21 22 [], .sign ")" 22]]]]

def pairBlock : Tree :=
  .named "block" (some "body") 9 25 [.sign "\x7b" 9, pairDeclaration, .sign "\x7d" 24]

def pairFunction : Tree :=
  .named "function_declaration" none 0 25
    [.sign "func" 0, .named "identifier" (some "name") 5 6 [],
      .named "parameter_list" (some "parameters") 6 8 [.sign "(" 6, .sign ")" 7], pairBlock]

def pairFile : Tree := .named "source_file" none 0 26 [pairFunction]

def pairScript : Snippet :=
  { source := "func a() \x7b x, y := f(y) \x7d\n".toList, tree := some pairFile, language := "go" }

/-- The name `x` in the script. -/
def pairFirst : Site :=
  ⟨.named "identifier" none 11 12 [],
    [⟨pairLeft, 0⟩, ⟨pairDeclaration, 0⟩, ⟨pairBlock, 1⟩, ⟨pairFunction, 3⟩, ⟨pairFile, 0⟩]⟩

/-- Of `x` and `y` the first is unread, and it is the one finding. -/
theorem first_of_pair_unread :
    (∀ n ∈ pairScript.nodes, Language.PlainLeft n) ∧ IsUnread .go pairScript pairFirst ∧
      ∃ f, unused .go pairScript = [f] ∧
        f.message = "Unused variable: 'x' is declared but never used" := by
  have hplain : ∀ n ∈ pairScript.nodes, Language.PlainLeft n := by decide +kernel
  have honly : unreadDeclarations .go pairScript = [pairFirst] := rfl
  have hunread : ∀ d, IsUnread .go pairScript d ↔ d = pairFirst := by
    intro d
    rw [← mem_unreadDeclarations, honly, List.mem_singleton]
  obtain ⟨-, hfindings⟩ := unused_match_unread_declarations .go pairScript fun _ => hplain
  obtain ⟨f, heq, habout⟩ := hfindings.eq_singleton hunread
  exact ⟨hplain, (hunread pairFirst).mpr rfl, f, heq, habout.message_eq⟩

end Quality

end CodeAudit
