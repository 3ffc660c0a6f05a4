import CodeAudit.Proofs.Quality.Listing
import CodeAudit.Proofs.Tree.Layout
import CodeAudit.Proofs.Tree.Nodes
import CodeAudit.Quality.Orphan
import Mathlib

/-!
# Definitions that nothing outside of them names

The check for orphaned functions does not ask which nodes are below a definition: it compares offsets.
That is the same question.  In a tree that is laid over its text, **an identifier stands between the
offsets of a definition exactly if it is below it** (`spanWithin_iff`): two nodes that are not one above
the other stand apart, and an identifier with a text is not empty and has nothing below it.

The names that a script exports are gathered on a walk of their own, which does not look inside the
items of an export list (`mem_exportedNames`).

Main statement: **there is one finding for each definition whose name stands nowhere outside of it**
(`orphans_match_unnamed_definitions`), so a function that only calls itself is reported.
-/

namespace CodeAudit

/-! ## 1. Names that are kept -/

namespace Language

variable {l : Language} {s : Snippet} {n : Site} {name : List Char}

/-- A node exports a name. -/
inductive ExportsAt (s : Snippet) (n : Site) : List Char → Prop
  /-- `export function f() {}` -/
  | declared {declaration name : Site} (hkind : n.kind = "export_statement")
      (hdeclaration : n.field? "declaration" = some declaration)
      (hname : declaration.field? "name" = some name) : ExportsAt s n (s.text name)
  /-- `f` or `f as g` in an export list -/
  | listed {name : Site} (hkind : n.kind = "export_specifier") (hname : n.field? "name" = some name) :
      ExportsAt s n (s.text name)

/-- A script exports a name: a node does that is not inside an item of an export list. -/
def Exports (s : Snippet) (name : List Char) : Prop :=
  ∃ n ∈ s.nodes, (∀ a : Site, a.IsAbove n → a.kind ≠ "export_specifier") ∧ ExportsAt s n name

/-- What the walk for exported names picks at a node, and whether it goes on below. -/
def exportsOf (s : Snippet) (n : Site) : List (List Char) × Bool :=
  match n.kind with
  | "export_statement" => ((((n.field? "declaration").bind (·.field? "name")).map s.text).toList, true)
  | "export_specifier" => (((n.field? "name").map s.text).toList, false)
  | _ => ([], true)

theorem mem_exportsOf : name ∈ (exportsOf s n).1 ↔ ExportsAt s n name := by
  unfold exportsOf
  constructor
  · intro h
    split at h
    · next hkind =>
      obtain ⟨node, hnode, rfl⟩ := Option.map_eq_some_iff.mp (Option.mem_toList.mp h)
      obtain ⟨declaration, hdeclaration, hname⟩ := Option.bind_eq_some_iff.mp hnode
      exact .declared hkind hdeclaration hname
    · next hkind =>
      obtain ⟨node, hnode, rfl⟩ := Option.map_eq_some_iff.mp (Option.mem_toList.mp h)
      exact .listed hkind hnode
    · cases h
  · intro h
    cases h with
    | declared hkind hdeclaration hname => simp [hkind, hdeclaration, hname]
    | listed hkind hname => simp [hkind, hname]

theorem snd_exportsOf : (exportsOf s n).2 = true ↔ n.kind ≠ "export_specifier" := by
  unfold exportsOf
  split <;> simp_all

/-- **The walk gathers the names that are exported.** -/
theorem mem_exportedNames : name ∈ exportedNames s ↔ Exports s name := by
  cases htree : s.tree with
  | none => simp [exportedNames, Snippet.root?, htree, Exports, Snippet.mem_nodes]
  | some t =>
    have hgather : exportedNames s = (Site.top t).gather (exportsOf s) := by
      rw [exportedNames, Snippet.root?, htree]
      rfl
    have hnodes : ∀ n, n ∈ s.nodes ↔ (Site.top t).Within n := by simp [Snippet.mem_nodes, htree]
    simp only [hgather, Site.mem_gather, mem_exportsOf, snd_exportsOf, Exports, hnodes]
    constructor
    · rintro ⟨n, hn, hopen, hexports⟩
      exact ⟨n, hn, fun a ha => hopen a (Site.within_of_isAbove hn ha) ha, hexports⟩
    · rintro ⟨n, hn, hopen, hexports⟩
      exact ⟨n, hn, fun a _ ha => hopen a ha, hexports⟩

/-- A name that is never called orphaned: an entry point, a test, or one that is visible from outside. -/
def IsKept : Language → Snippet → List Char → Prop
  | .go, _, name =>
    name ∈ ["main".toList, "init".toList] ∨
      (∃ word ∈ ["Test", "Benchmark", "Example", "Fuzz"], word.toList <+: name) ∨
      ∃ c ∈ name.head?, Text.isUpper c = true
  | .javascript, s, name | .typescript, s, name => Exports s name
  | .python, _, name =>
    name = "main".toList ∨ "test_".toList <+: name ∨
      4 < Text.utf8Length name ∧ "__".toList <+: name ∧ "__".toList <:+ name

theorem keepsName_iff : l.keepsName s name = true ↔ IsKept l s name := by
  cases l with
  | go => simp [keepsName, IsKept, startsUpper, Text.startsWith, Option.any_eq_true, or_assoc]
  | javascript | typescript => simp [keepsName, IsKept, mem_exportedNames]
  | python => simp [keepsName, IsKept, Text.startsWith, isDunder_iff, or_assoc]

end Language

namespace Quality

variable {l : Language} {s : Snippet} {n u : Site}

/-! ## 2. Offsets and subtrees -/

/-- A tree as a parser lays it over a text: the children of a node stand one after another inside it, and
identifiers have no children. -/
structure IsParsed (l : Language) (s : Snippet) : Prop where
  stands : ∀ n ∈ s.nodes, n.standsOver = true
  leaves : ∀ n ∈ s.nodes, n.kind ∈ l.profile.symbolKinds → n.tree.children = []

/-- **An identifier stands between the offsets of a node exactly if it is in its subtree.** -/
theorem spanWithin_iff (h : IsParsed l s) (hn : n ∈ s.nodes) (hu : u ∈ s.nodes)
    (hsymbol : u.kind ∈ l.profile.symbolKinds) (htext : s.text u ≠ []) :
    spanWithin u n = true ↔ n.Within u := by
  obtain ⟨t, ht, hnt⟩ := Snippet.mem_nodes.mp hn
  obtain ⟨t', ht', hut⟩ := Snippet.mem_nodes.mp hu
  obtain rfl := Option.some.inj (ht.symm.trans ht')
  have hlaid : (Site.top t).IsLaid := fun m hm => h.stands m (Snippet.mem_nodes.mpr ⟨t, ht, hm⟩)
  have hlength := Site.start_lt_stop htext
  simp only [spanWithin, Bool.and_eq_true, decide_eq_true_eq]
  constructor
  · rintro ⟨hstart, hstop⟩
    rcases hlaid.apart hnt hut with hinside | habove | hbefore | hafter
    · -- nothing is below an identifier
      rcases Site.within_iff.mp hinside with rfl | ⟨i, m, hchild, -⟩
      · exact .self
      · simp [Site.child?, Site.under, h.leaves u hu hsymbol] at hchild
    · exact habove.within
    · omega
    · omega
  · intro hwithin
    exact (hlaid.of_within hnt).within hwithin

/-! ## 3. The findings -/

/-- The text of the name of a definition; empty if it has none. -/
def nameText (s : Snippet) (n : Site) : List Char := ((n.field? "name").map s.text).getD []

/-- A definition that nothing outside of it names. -/
structure IsOrphan (l : Language) (s : Snippet) (n : Site) : Prop where
  mem : n ∈ s.nodes
  definition : n.kind ∈ l.orphanKinds
  named : nameText s n ≠ []
  unkept : ¬ l.IsKept s (nameText s n)
  unnamed : ∀ u ∈ s.nodes, u.kind ∈ l.profile.symbolKinds → s.text u = nameText s n → n.Within u

/-- Whether a definition is passed over: it has no name, keeps it, or is named outside of itself. -/
def passesOver (l : Language) (s : Snippet) (n : Site) : Bool :=
  (nameText s n).isEmpty || l.keepsName s (nameText s n) ||
    ((s.nodes.filter (·.hasKind l.profile.symbolKinds)).map fun u => (s.text u, u)).any fun (text, u) =>
      text == nameText s n && !spanWithin u n

theorem passesOver_eq_false_iff :
    passesOver l s n = false ↔ nameText s n ≠ [] ∧ ¬ l.IsKept s (nameText s n) ∧
      ∀ u ∈ s.nodes, u.kind ∈ l.profile.symbolKinds → s.text u = nameText s n →
        spanWithin u n = true := by
  simp [passesOver, ← Language.keepsName_iff, Site.hasKind, and_assoc]

/-- The definitions that are reported. -/
def orphanDefinitions (l : Language) (s : Snippet) : List Site :=
  (s.nodes.filter (·.hasKind l.orphanKinds)).filter fun n => !passesOver l s n

theorem mem_orphanDefinitions (h : IsParsed l s) : n ∈ orphanDefinitions l s ↔ IsOrphan l s n := by
  simp only [orphanDefinitions, List.mem_filter, Site.hasKind, List.contains_iff_mem, Bool.not_eq_true',
    passesOver_eq_false_iff]
  constructor
  · rintro ⟨⟨hmem, hkind⟩, hnamed, hunkept, hspans⟩
    refine ⟨hmem, hkind, hnamed, hunkept, fun u hu hsymbol htext => ?_⟩
    exact (spanWithin_iff h hmem hu hsymbol (htext ▸ hnamed)).mp (hspans u hu hsymbol htext)
  · rintro ⟨hmem, hkind, hnamed, hunkept, hunnamed⟩
    refine ⟨⟨hmem, hkind⟩, hnamed, hunkept, fun u hu hsymbol htext => ?_⟩
    exact (spanWithin_iff h hmem hu hsymbol (htext ▸ hnamed)).mpr (hunnamed u hu hsymbol htext)

theorem orphans_eq (l : Language) (s : Snippet) :
    orphans l s = Finding.sort ((orphanDefinitions l s).map fun n =>
      orphanFinding s n (String.ofList (nameText s n))) := by
  rw [orphanDefinitions, ← filterMap_ite_none, orphans]
  congr 2
  funext n
  rw [passesOver, nameText]
  cases n.field? "name" with
  | none => rfl
  | some name => rfl

/-- **Orphaned functions are the definitions that nothing outside of them names.**  There is one finding
for each, at its place, and no other. -/
theorem orphans_match_unnamed_definitions (l : Language) (s : Snippet) (h : IsParsed l s) :
    Finding.OneForEach (IsOrphan l s)
      (fun n => Finding.IsAbout s.source .orphanedCode .info
        ("Potentially orphaned function: '" ++ String.ofList (nameText s n) ++
          "' is defined but never called") n)
      (orphans l s) := by
  have hnodup : (orphanDefinitions l s).Nodup := (s.nodup_nodes.filter _).filter _
  rw [orphans_eq]
  exact Finding.oneForEach_sort hnodup (fun n => mem_orphanDefinitions h)
    fun n _ => ⟨rfl, rfl, rfl, rfl, rfl⟩

/-- `function f() { f() }` from an offset on, with any name of one letter. -/
def selfCaller (field : Option String) (start : Nat) : Tree :=
  .named "function_declaration" field start (start + 20)
    [.sign "function" start, .named "identifier" (some "name") (start + 9) (start + 10) [],
      .named "formal_parameters" (some "parameters") (start + 10) (start + 12)
        [.sign "(" (start + 10), .sign ")" (start + 11)],
      .named "statement_block" (some "body") (start + 13) (start + 20)
        [.sign "\x7b" (start + 13),
          .named "expression_statement" none (start + 15) (start + 18)
            [.named "call_expression" none (start + 15) (start + 18)
              [.named "identifier" (some "function") (start + 15) (start + 16) [],
                .named "arguments" (some "arguments") (start + 16) (start + 18)
                  [.sign "(" (start + 16), .sign ")" (start + 17)]]],
          .sign "\x7d" (start + 19)]]

def exportingProgram : Tree :=
  .named "program" none 0 49
    [.named "export_statement" none 0 27 [.sign "export" 0, selfCaller (some "declaration") 7],
      selfCaller none 28]

def exportingScript : Snippet where
  source := "export function g() \x7b g() \x7d\nfunction f() \x7b f() \x7d\n".toList
  tree := some exportingProgram
  language := "javascript"

/-- Two functions call only themselves: the exported one is kept, the other is the one finding. -/
theorem self_caller_orphaned :
    IsParsed .javascript exportingScript ∧
      IsOrphan .javascript exportingScript ⟨selfCaller none 28, [⟨exportingProgram, 1⟩]⟩ ∧
      ∃ f, orphans .javascript exportingScript = [f] ∧
        f.message = "Potentially orphaned function: 'f' is defined but never called" := by
  have hparsed : IsParsed .javascript exportingScript := by
    refine ⟨by decide +kernel, fun n hn hsymbol => ?_⟩
    have hleaves : ∀ n ∈ exportingScript.nodes, n.kind ∈ (Language.profile .javascript).symbolKinds →
        n.tree.children.isEmpty = true := by decide +kernel
    exact List.isEmpty_iff.mp (hleaves n hn hsymbol)
  have honly : orphanDefinitions .javascript exportingScript =
      [⟨selfCaller none 28, [⟨exportingProgram, 1⟩]⟩] := rfl
  have horphan : ∀ n, IsOrphan .javascript exportingScript n ↔
      n = ⟨selfCaller none 28, [⟨exportingProgram, 1⟩]⟩ := by
    intro n
    rw [← mem_orphanDefinitions hparsed, honly, List.mem_singleton]
  obtain ⟨f, heq, habout⟩ :=
    (orphans_match_unnamed_definitions .javascript exportingScript hparsed).eq_singleton horphan
  exact ⟨hparsed, (horphan _).mpr rfl, f, heq, habout.message_eq⟩

end Quality

end CodeAudit
