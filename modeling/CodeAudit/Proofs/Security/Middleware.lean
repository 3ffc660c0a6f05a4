import CodeAudit.Analysis.Battery
import CodeAudit.Proofs.Quality.Listing
import CodeAudit.Proofs.Tree.Outermost
import Mathlib

/-!
# Which functions are listed as middleware

A function is looked at if it has a name, its own or that of the variable it is bound to, and it is listed
once for each class that its name and code belong to.  Inside a function that is listed nothing is looked
at, while functions without a name or a class are looked through; so what is listed depends on the classes
of all functions around.

Main statement: **the findings are one for each class of each outermost middleware function**
(`middleware_match_outermost_functions`).  No two of the functions listed are inside each other, and a
function that belongs to a class is listed or inside one that is.
-/

namespace CodeAudit.Security

variable {s : Snippet} {kinds : List String} {n m parent : Site} {name code : List Char}
  {c : FindingKind × String}

/-! ## 1. Names and classes -/

/-- What a binding binds to: the child in the role of its name, else of its left side, else of its key. -/
def Binds (parent m : Site) : Prop :=
  parent.field? "name" = some m ∨ parent.field? "name" = none ∧
    (parent.field? "left" = some m ∨ parent.field? "left" = none ∧ parent.field? "key" = some m)

/-- The name of a function: its own, or that of what it is bound to directly. -/
inductive GoesBy (s : Snippet) (n : Site) : List Char → Prop
  | own {m : Site} (h : n.field? "name" = some m) : GoesBy s n (s.text m)
  | borrowed {parent m : Site} {i : Nat} (hnone : n.field? "name" = none)
      (hchild : parent.child? i = some n)
      (hkind : parent.kind ∈ ["variable_declarator", "assignment_expression", "pair"])
      (hbinds : Binds parent m) : GoesBy s n (s.text m)

/-- A class that a function with a name and a code belongs to: one that is told by words in them, or, if
there is none, that of functions of Go that wrap a handler. -/
inductive BelongsTo (language : String) (name code : List Char) : FindingKind × String → Prop
  | scheme {scheme : Scheme} (hmem : scheme ∈ schemes)
      (h : scheme.inFunction (Text.lower name) (Text.lower code) = true) :
      BelongsTo language name code (scheme.kind, scheme.name)
  | wrapper (hgo : language = "go") (hwraps : wrapsHandler code = true)
      (hnone : ∀ scheme ∈ schemes, scheme.inFunction (Text.lower name) (Text.lower code) = false) :
      BelongsTo language name code (.genericMiddleware, "Middleware")

/-- A class of a node that is a function. -/
def HasClass (s : Snippet) (n : Site) (c : FindingKind × String) : Prop :=
  ∃ name, GoesBy s n name ∧ BelongsTo s.language name (s.text n) c

/-- A function that belongs to a class. -/
def IsMiddleware (kinds : List String) (s : Snippet) (n : Site) : Prop :=
  n.kind ∈ kinds ∧ ∃ c, HasClass s n c

theorem binds_iff :
    (parent.field? "name").or ((parent.field? "left").or (parent.field? "key")) = some m ↔
      Binds parent m := by
  unfold Binds
  cases parent.field? "name" with
  | some _ => simp
  | none =>
    cases parent.field? "left" with
    | some _ => simp
    | none => simp

theorem functionName?_eq_some_iff (hn : n ∈ s.nodes) : functionName? s n = some name ↔ GoesBy s n name := by
  obtain ⟨t, -, hwithin⟩ := Snippet.mem_nodes.mp hn
  unfold functionName?
  cases hfield : n.field? "name" with
  | some m =>
    constructor
    · intro h
      rw [← Option.some.inj h]
      exact .own hfield
    · intro h
      cases h with
      | own h => rw [← Option.some.inj (hfield.symm.trans h)]
      | borrowed hnone => simp [hfield] at hnone
  | none =>
    simp only [Option.bind_eq_some_iff, Site.parent?_eq_some_iff hwithin, Option.ite_none_right_eq_some,
      Option.map_eq_some_iff, binds_iff, Site.hasKind, List.contains_iff_mem]
    constructor
    · rintro ⟨parent, ⟨i, hchild⟩, hkind, m, hbinds, rfl⟩
      exact .borrowed hfield hchild hkind hbinds
    · intro h
      cases h with
      | own h => simp [hfield] at h
      | borrowed _ hchild hkind hbinds => exact ⟨_, ⟨_, hchild⟩, hkind, _, hbinds, rfl⟩

/-- The classes that are told by words. -/
def wordClasses (name code : List Char) : List (FindingKind × String) :=
  (schemes.filter fun scheme => scheme.inFunction (Text.lower name) (Text.lower code)).map
    fun scheme => (scheme.kind, scheme.name)

theorem classesOf_eq (s : Snippet) (name code : List Char) :
    classesOf s name code =
      if (wordClasses name code).isEmpty && s.language == "go" && wrapsHandler code then
        [(.genericMiddleware, "Middleware")]
      else wordClasses name code := rfl

theorem mem_wordClasses :
    c ∈ wordClasses name code ↔ ∃ scheme ∈ schemes,
      scheme.inFunction (Text.lower name) (Text.lower code) = true ∧ (scheme.kind, scheme.name) = c := by
  simp only [wordClasses, List.mem_map, List.mem_filter, and_assoc]

theorem wordClasses_eq_nil_iff :
    wordClasses name code = [] ↔
      ∀ scheme ∈ schemes, scheme.inFunction (Text.lower name) (Text.lower code) = false := by
  simp [wordClasses]

theorem mem_classesOf : c ∈ classesOf s name code ↔ BelongsTo s.language name code c := by
  rw [classesOf_eq]
  split
  · next h =>
    obtain ⟨⟨hnil, hgo⟩, hwraps⟩ : (wordClasses name code = [] ∧ s.language = "go") ∧
        wrapsHandler code = true := by simpa using h
    have hnone := wordClasses_eq_nil_iff.mp hnil
    rw [List.mem_singleton]
    constructor
    · rintro rfl
      exact .wrapper hgo hwraps hnone
    · intro hc
      cases hc with
      | scheme hmem h => simp [hnone _ hmem] at h
      | wrapper => rfl
  · next h =>
    rw [mem_wordClasses]
    constructor
    · rintro ⟨scheme, hmem, hwords, rfl⟩
      exact .scheme hmem hwords
    · intro hc
      cases hc with
      | scheme hmem hwords => exact ⟨_, hmem, hwords, rfl⟩
      | wrapper hgo hwraps hnone => simp [wordClasses_eq_nil_iff.mpr hnone, hgo, hwraps] at h

theorem nodup_classesOf (s : Snippet) (name code : List Char) : (classesOf s name code).Nodup := by
  have hall : (schemes.map fun scheme => (scheme.kind, scheme.name)).Nodup := by decide
  rw [classesOf_eq]
  split
  · exact List.nodup_singleton _
  · exact hall.sublist (List.filter_sublist.map _)

/-! ## 2. The walk -/

/-- The classes of a node, none if it is no function with a name. -/
def classesAt (kinds : List String) (s : Snippet) (n : Site) : List (FindingKind × String) :=
  if n.hasKind kinds then ((functionName? s n).map fun name => classesOf s name (s.text n)).getD [] else []

/-- The finding for a class of a function. -/
def classFinding (s : Snippet) (n : Site) (c : FindingKind × String) : Finding :=
  middlewareFinding s n (String.ofList ((functionName? s n).getD [])) c

theorem middlewareAt_eq (kinds : List String) (s : Snippet) (n : Site) :
    middlewareAt kinds s n =
      ((classesAt kinds s n).map (classFinding s n), (classesAt kinds s n).isEmpty) := by
  unfold middlewareAt classesAt classFinding
  cases n.hasKind kinds with
  | false => rfl
  | true => cases functionName? s n <;> rfl

theorem mem_classesAt (hn : n ∈ s.nodes) : c ∈ classesAt kinds s n ↔ n.kind ∈ kinds ∧ HasClass s n c := by
  unfold classesAt HasClass
  simp only [← functionName?_eq_some_iff hn]
  by_cases hkind : n.kind ∈ kinds
  · have hhas : n.hasKind kinds = true := by simpa [Site.hasKind] using hkind
    cases functionName? s n with
    | none => simp [hhas]
    | some name => simp [hhas, hkind, mem_classesOf]
  · have hhas : n.hasKind kinds = false := by simpa [Site.hasKind] using hkind
    simp [hhas, hkind]

theorem isEmpty_classesAt (hn : n ∈ s.nodes) :
    (!(classesAt kinds s n).isEmpty) = true ↔ IsMiddleware kinds s n := by
  rw [Bool.not_eq_true', List.isEmpty_eq_false_iff_exists_mem]
  simp only [mem_classesAt hn, IsMiddleware, exists_and_left]

theorem nodup_classesAt (kinds : List String) (s : Snippet) (n : Site) : (classesAt kinds s n).Nodup := by
  unfold classesAt
  split
  · cases functionName? s n with
    | none => exact List.nodup_nil
    | some name => exact nodup_classesOf s name (s.text n)
  · exact List.nodup_nil

/-- The outermost middleware functions, each with each of its classes. -/
def inventory (kinds : List String) (s : Snippet) : List (Site × FindingKind × String) :=
  (s.outermost fun n => !(classesAt kinds s n).isEmpty).flatMap fun n =>
    (classesAt kinds s n).map fun c => (n, c)

theorem mem_inventory :
    (n, c) ∈ inventory kinds s ↔ s.IsOutermost (IsMiddleware kinds s) n ∧ HasClass s n c := by
  have hmem : (n, c) ∈ inventory kinds s ↔
      s.IsOutermost (IsMiddleware kinds s) n ∧ c ∈ classesAt kinds s n := by
    simp only [inventory, List.mem_flatMap, List.mem_map, Prod.mk.injEq, Snippet.mem_outermost,
      Snippet.isOutermost_congr fun n hn => isEmpty_classesAt hn]
    constructor
    · rintro ⟨n, hn, c, hc, rfl, rfl⟩
      exact ⟨hn, hc⟩
    · rintro ⟨hn, hc⟩
      exact ⟨n, hn, c, hc, rfl, rfl⟩
  rw [hmem]
  refine and_congr_right fun hn => ?_
  rw [mem_classesAt hn.mem]
  exact and_iff_right hn.holds.1

theorem nodup_inventory (kinds : List String) (s : Snippet) : (inventory kinds s).Nodup := by
  rw [inventory, List.nodup_flatMap]
  constructor
  · intro n _
    exact (nodup_classesAt kinds s n).map (Prod.mk_right_injective n)
  · refine (s.nodup_outermost _).imp fun {n m} hne x hx hx' => ?_
    obtain ⟨c, -, rfl⟩ := List.mem_map.mp hx
    obtain ⟨c', -, heq⟩ := List.mem_map.mp hx'
    exact hne (congrArg Prod.fst heq).symm

/-- **The walk lists the inventory.** -/
theorem middleware_eq_sort_inventory {t : Tree} (ht : s.tree = some t) :
    middleware kinds s =
      Finding.sort ((inventory kinds s).map fun x => classFinding s x.1 x.2) := by
  have hroot : s.root? = some (Site.top t) := by rw [Snippet.root?, ht, Option.map_some]
  have hwalk : (Site.top t).gather (middlewareAt kinds s) =
      (s.outermost fun n => !(classesAt kinds s n).isEmpty).flatMap fun n => (middlewareAt kinds s n).1 := by
    refine Site.gather_eq_outermost ht ?_ ?_ ?_
    · intro n _ hn
      simpa [middlewareAt_eq] using hn
    · intro n _ hn
      simpa [middlewareAt_eq] using hn
    · intro n _ hn _
      simpa [middlewareAt_eq] using hn
  simp only [middleware, hroot, hwalk, inventory, List.map_flatMap, List.map_map, middlewareAt_eq]
  rfl

/-! ## 3. One finding for each class of each outermost function -/

/-- A finding that announces a class of a function where the function stands. -/
structure Announces (s : Snippet) (x : Site × FindingKind × String) (f : Finding) : Prop where
  kind_eq : f.kind = x.2.1
  severity_eq : f.severity = .info
  span_eq : f.span = x.1.span s.source
  message_eq : ∃ name, GoesBy s x.1 name ∧
    f.message = s!"Security middleware detected: {String.ofList name} ({x.2.2})"

/-- A function that is listed: it belongs to a class, and no function around it does. -/
def IsListed (l : Language) (s : Snippet) (n : Site) : Prop :=
  s.IsOutermost (IsMiddleware (Support.grammar l).middlewareKinds s) n

theorem announces_classFinding (hn : n ∈ s.nodes) (h : HasClass s n c) :
    Announces s (n, c) (classFinding s n c) := by
  obtain ⟨name, hname, -⟩ := h
  have hfinding : classFinding s n c = middlewareFinding s n (String.ofList name) c := by
    rw [classFinding, (functionName?_eq_some_iff hn).mpr hname, Option.getD_some]
  rw [hfinding]
  exact ⟨rfl, rfl, rfl, name, hname, rfl⟩

/-- **There is one finding for each class of each middleware function that is in no other, and no other
finding.**  So no two functions listed are inside each other, and every middleware function is listed or
inside one that is. -/
theorem middleware_match_outermost_functions (l : Language) (source : List Char) (tree : Tree)
    (language : String) (scores : DetectorScores) :
    let s : Snippet := ⟨source, some tree, language, scores⟩
    Finding.MatchedBy (fun x : Site × FindingKind × String => IsListed l s x.1 ∧ HasClass s x.1 x.2)
        (Announces s) ((Support.grammar l).middleware s) ∧
      (∀ n m, IsListed l s n → IsListed l s m → ¬ n.IsAbove m) ∧
      ∀ n ∈ s.nodes, IsMiddleware (Support.grammar l).middlewareKinds s n →
        ∃ m, IsListed l s m ∧ m.Within n := by
  intro s
  refine ⟨?_, fun n m hn hm => Snippet.IsOutermost.not_isAbove hn hm,
    fun n hn hmatched => Snippet.exists_isOutermost hn hmatched⟩
  have htree : s.tree = some tree := rfl
  rw [Support.middleware, middleware_eq_sort_inventory htree]
  exact Finding.matchedBy_sort (nodup_inventory _ s) (fun x => mem_inventory)
    fun x hx => announces_classFinding hx.1.mem hx.2

end CodeAudit.Security
