import CodeAudit.Engine
import CodeAudit.Proofs.Order.Stable
import CodeAudit.Proofs.Text.Lines
import CodeAudit.Proofs.Text.Trim
import CodeAudit.Proofs.Tree.Nodes
import Mathlib

/-!
# Asking for some functions is choosing from all

The list of functions is made in one pass: of the definitions that start at one place only the first is
taken, those whose name lacks the keyword are left out, and the rest is sorted.  A function is looked up by
its name through the same pass, with the name as a keyword.

Main statement: **the list for a keyword is the list of all functions without those that lack the keyword,
and a look-up gives the first of all functions with that name** (`Engine.extraction_is_choice`).  Three
facts carry it: what is taken at a place does not depend on the keyword, a sort that keeps equals in place
can be done before the choice (`RankedBy.mergeSort_filter`), and a name contains itself in whatever case.

If the tree is one of the source, **no two functions of the list have one place**
(`Function.pairwise_place_search`): different offsets of a text have different positions.
-/

namespace CodeAudit

namespace Function

/-! ## 1. The order of the list -/

/-- What functions are listed by: first the line, then the column. -/
def place (f : Function) : Nat ×ₗ Nat := toLex (f.span.line, f.span.column)

theorem rankedBy_place : RankedBy le place := fun _ _ => lines_then_columns_iff

/-! ## 2. Choice -/

variable (l : Language) (source : List Char) (tree : Tree)

/-- The signatures that are listed, in preorder. -/
def signatures : List Signature := firstAtEachStart [] ((Site.top tree).nodes.filterMap l.signature?)

theorem search_eq (keyword : Option String) :
    search l source tree keyword =
      (((signatures l tree).map (ofSignature l source)).filter
        fun f => keyword.all f.matchesKeyword).mergeSort le := rfl

/-- **The list for a keyword is chosen from the list of all functions.** -/
theorem search_some (keyword : String) :
    search l source tree (some keyword) =
      (search l source tree none).filter fun f => f.matchesKeyword keyword := by
  rw [search_eq, search_eq, ← rankedBy_place.mergeSort_filter, List.filter_filter]
  simp only [Option.all_some, Option.all_none, Bool.and_true]

/-- A name contains itself. -/
theorem matchesKeyword_of_name {f : Function} {name : String} (h : f.name = name.toList) :
    f.matchesKeyword name = true := by
  rw [matchesKeyword, h, Bool.or_eq_true]
  exact .inr (Text.hasInfix_iff.mpr (List.infix_refl _))

/-- **A look-up gives the first of all functions with the name.** -/
theorem named?_eq_find? (name : String) :
    named? l source tree name = (search l source tree none).find? fun f => f.name == name.toList := by
  rw [named?, search_some, List.find?_filter]
  congr 1
  funext f
  rw [Bool.eq_iff_iff, decide_eq_true_iff]
  refine and_iff_right_of_imp fun hname => ?_
  exact matchesKeyword_of_name (by simpa using hname)

/-! ## 3. Places -/

end Function

namespace Signature

variable {n : Site} {sig : Signature} {role : Option String}

theorem definition_of_direct? {names parameters : List String}
    (h : direct? n names parameters role = some sig) : sig.definition = n := by
  obtain ⟨name, -, h⟩ := Option.bind_eq_some_iff.mp h
  obtain ⟨ps, -, rfl⟩ := Option.map_eq_some_iff.mp h
  rfl

theorem definition_of_ofVariable? (h : ofVariable? n role = some sig) : sig.definition = n := by
  obtain ⟨name, -, h⟩ := Option.bind_eq_some_iff.mp h
  obtain ⟨value, -, h⟩ := List.exists_of_findSome?_eq_some h
  obtain ⟨parts, -, rfl⟩ := Option.map_eq_some_iff.mp h
  rfl

theorem definition_of_ofScript? (h : ofScript? n role = some sig) : sig.definition = n := by
  unfold ofScript? at h
  split at h
  · exact definition_of_direct? h
  · exact definition_of_direct? h
  · exact definition_of_ofVariable? h
  · obtain ⟨name, -, h⟩ := Option.bind_eq_some_iff.mp h
    obtain ⟨ps, -, rfl⟩ := Option.map_eq_some_iff.mp h
    rfl
  · cases h

/-- A signature is that of the node it was read from. -/
theorem definition_of_signature? {l : Language} (h : l.signature? n = some sig) : sig.definition = n := by
  unfold Language.signature? at h
  split at h
  · cases h
  · cases l with
    | go =>
      simp only at h
      split at h
      · exact definition_of_direct? h
      · exact definition_of_direct? h
      · cases h
    | javascript => exact definition_of_ofScript? h
    | typescript => exact definition_of_ofScript? h
    | python =>
      simp only at h
      split at h
      · exact definition_of_direct? h
      · cases h

end Signature

/-- The nodes of a tree begin in a text, at its end at the latest. -/
def Tree.StartsIn (source : List Char) (tree : Tree) : Prop :=
  ∀ n, (Site.top tree).Within n → n.label.start ≤ Text.utf8Length source

namespace Function

/-- Of the signatures that are kept, no two start at one place, nor at one seen before. -/
theorem pairwise_firstAtEachStart (seen : List Nat) (sigs : List Signature) :
    (∀ sig ∈ firstAtEachStart seen sigs, sig.definition.label.start ∉ seen) ∧
      (firstAtEachStart seen sigs).Pairwise
        fun a b => a.definition.label.start ≠ b.definition.label.start := by
  induction sigs generalizing seen with
  | nil => exact ⟨fun sig hsig => absurd hsig List.not_mem_nil, .nil⟩
  | cons first rest ih =>
    simp only [firstAtEachStart]
    split
    · exact ih seen
    · next hnew =>
      obtain ⟨hseen, hpairs⟩ := ih (first.definition.label.start :: seen)
      constructor
      · intro sig hsig
        rcases List.mem_cons.mp hsig with rfl | hsig
        · simpa using hnew
        · exact fun hmem => hseen sig hsig (List.mem_cons_of_mem _ hmem)
      · refine List.pairwise_cons.mpr ⟨fun sig hsig heq => ?_, hpairs⟩
        exact hseen sig hsig (heq ▸ List.mem_cons_self)

theorem firstAtEachStart_subset (seen : List Nat) (sigs : List Signature) :
    firstAtEachStart seen sigs ⊆ sigs := by
  induction sigs generalizing seen with
  | nil => exact List.Subset.refl _
  | cons first rest ih =>
    simp only [firstAtEachStart]
    split
    · exact List.subset_cons_of_subset _ (ih seen)
    · exact List.cons_subset_cons _ (ih _)

variable {l : Language} {source : List Char} {tree : Tree}

theorem within_of_mem_signatures {sig : Signature} (h : sig ∈ signatures l tree) :
    (Site.top tree).Within sig.definition := by
  obtain ⟨n, hn, hsig⟩ := List.mem_filterMap.mp (firstAtEachStart_subset _ _ h)
  rw [Signature.definition_of_signature? hsig]
  exact Site.mem_nodes.mp hn

/-- Places are positions, counted from one. -/
theorem place_ofSignature (sig : Signature) :
    (ofSignature l source sig).place =
      toLex ((Text.position source sig.definition.label.start).row + 1,
        (Text.position source sig.definition.label.start).column + 1) := rfl

theorem place_ne_of_start_ne {a b : Signature} (hfits : tree.StartsIn source)
    (ha : a ∈ signatures l tree) (hb : b ∈ signatures l tree)
    (hne : a.definition.label.start ≠ b.definition.label.start) :
    (ofSignature l source a).place ≠ (ofSignature l source b).place := by
  have hdiffer : ∀ {m k : Nat}, m < k → k ≤ Text.utf8Length source →
      Text.position source m ≠ Text.position source k := by
    intro m k hlt hk heq
    exact (Text.position_lt hlt hk).ne (by rw [heq])
  intro heq
  rw [place_ofSignature, place_ofSignature, toLex_inj, Prod.mk.injEq, Nat.add_right_cancel_iff,
    Nat.add_right_cancel_iff] at heq
  have hposition : Text.position source a.definition.label.start =
      Text.position source b.definition.label.start := by
    rw [Text.Position.mk.injEq]
    exact heq
  rcases Nat.lt_or_gt_of_ne hne with hlt | hlt
  · exact hdiffer hlt (hfits _ (within_of_mem_signatures hb)) hposition
  · exact hdiffer hlt (hfits _ (within_of_mem_signatures ha)) hposition.symm

/-- **The list is strictly increasing in line and column**, so no place is listed twice. -/
theorem pairwise_place_search (hfits : tree.StartsIn source) :
    (search l source tree none).Pairwise fun f g => f.place < g.place := by
  have hstarts := (pairwise_firstAtEachStart [] ((Site.top tree).nodes.filterMap l.signature?)).2
  have hplaces : ((signatures l tree).map (ofSignature l source)).Pairwise
      fun f g => f.place ≠ g.place := by
    rw [List.pairwise_map]
    exact hstarts.imp_of_mem fun {a b} ha hb hne => place_ne_of_start_ne hfits ha hb hne
  have hsearch : search l source tree none =
      ((signatures l tree).map (ofSignature l source)).mergeSort le := by
    rw [search_eq]
    simp
  rw [hsearch]
  have hsorted := rankedBy_place.pairwise_mergeSort ((signatures l tree).map (ofSignature l source))
  have hdistinct := hplaces.perm (List.mergeSort_perm _ le).symm fun h => h.symm
  refine (hsorted.and hdistinct).imp fun {f g} h => ?_
  exact lt_of_le_of_ne h.1 h.2

end Function

/-! ## 4. The engine -/

/-- **Asking for some functions is choosing from all of them.**  For a language with a grammar the list of
all functions is given; the list for a keyword is the part of it whose names contain the keyword, in the
same order; a look-up gives the first with exactly the name, if there is one; and if the tree is one of the
source, the list is strictly increasing in line and column. -/
theorem Engine.extraction_is_choice (parse : Parser) (source language : String) (l : Language)
    (hl : grammarOf language = .ok l) :
    ∃ fs, functions parse source language none = .ok fs ∧
      (∀ keyword, functions parse source language (some keyword) =
        .ok (fs.filter fun f => f.matchesKeyword keyword)) ∧
      (∀ name, functionNamed parse source language name =
        .ok (fs.find? fun f => f.name == name.toList)) ∧
      ((parse l source.toList).StartsIn source.toList → fs.Pairwise fun f g => f.place < g.place) := by
  refine ⟨Function.search l source.toList (parse l source.toList) none, ?_, ?_, ?_, ?_⟩
  · rw [functions, hl]
    rfl
  · intro keyword
    rw [functions, hl, ← Function.search_some]
    rfl
  · intro name
    rw [functionNamed, hl, ← Function.named?_eq_find?]
    rfl
  · exact fun hfits => Function.pairwise_place_search hfits

/-- An empty function of Go whose name has `length` letters. -/
def emptyFunction (start length : Nat) : Tree :=
  .named "function_declaration" none start (start + 10 + length) [
    .sign "func" start,
    .named "identifier" (some "name") (start + 5) (start + 5 + length) [],
    .named "parameter_list" (some "parameters") (start + 5 + length) (start + 7 + length) [
      .sign "(" (start + 5 + length), .sign ")" (start + 6 + length)],
    .named "block" (some "body") (start + 8 + length) (start + 10 + length) [
      .sign "\x7b" (start + 8 + length), .sign "\x7d" (start + 9 + length)]]

/-- Two functions, of which the name of one begins with that of the other. -/
def twoStarts : Tree :=
  .named "source_file" none 0 50 [
    .named "package_clause" none 0 12 [.sign "package" 0, .named "package_identifier" none 8 12 []],
    emptyFunction 14 5, emptyFunction 31 8]

theorem two_starts_chosen :
    let source := "package main\n\nfunc Start() \x7b\x7d\n\nfunc StartAll() \x7b\x7d\n"
    let parse : Parser := fun _ _ => twoStarts
    Engine.grammarOf "go" = .ok .go ∧ twoStarts.StartsIn source.toList ∧
      ∃ fs, Engine.functions parse source "go" none = .ok fs ∧ fs.length = 2 ∧
        Engine.functions parse source "go" (some "START") =
          .ok (fs.filter fun f => f.matchesKeyword "START") ∧
        Engine.functionNamed parse source "go" "Start" =
          .ok (fs.find? fun f => f.name == "Start".toList) ∧
        fs.Pairwise fun f g => f.place < g.place := by
  intro source parse
  have hgo : Engine.grammarOf "go" = .ok .go := rfl
  have hfits : twoStarts.StartsIn source.toList := by
    have hall : ∀ n ∈ (Site.top twoStarts).nodes, n.label.start ≤ Text.utf8Length source.toList := by
      decide +kernel
    exact fun n hn => hall n (Site.mem_nodes.mpr hn)
  obtain ⟨fs, hall, hkeyword, hname, hplaces⟩ := Engine.extraction_is_choice parse source "go" .go hgo
  refine ⟨hgo, hfits, fs, hall, ?_, hkeyword "START", hname "Start", hplaces hfits⟩
  have hfs : fs = Function.search .go source.toList twoStarts none := by
    rw [Engine.functions, hgo] at hall
    exact (Except.ok.inj hall).symm
  have htwo : (Function.signatures .go twoStarts).length = 2 := by decide +kernel
  rw [hfs, Function.search_eq]
  simpa using htwo

end CodeAudit
