import CodeAudit.Proofs.Quality.Listing
import CodeAudit.Proofs.Text.Trim
import CodeAudit.Proofs.Tree.Nodes
import CodeAudit.Quality.MissingAwait
import Mathlib

/-!
# Which function a dropped promise belongs to

The check for missing awaits collects the asynchronous functions and walks through the body of each, never
into a function inside it; at a call it climbs back up to see whether the call is awaited.  Neither the
walk nor the climb knows of the other, and a function inside a body is walked through on its own.

A call belongs to the nearest function around it (`IsNearestFunction`), and there is only one
(`IsNearestFunction.unique`).  **A walk through a body meets the calls that belong to its function**
(`isNearestFunction_iff`), so no call is met on two walks; and what the climb sees is what stands between
the call and its function (`Site.hasAncestor_iff`).

Main statement: **there is one finding for each call whose promise is dropped**
(`missingAwaits_match_dropped_calls`), whatever functions are inside each other.
-/

namespace CodeAudit.Quality

variable {s : Snippet} {c f body : Site}

/-! ## 1. Dropped promises -/

/-- The nearest function around a node. -/
structure IsNearestFunction (f c : Site) : Prop where
  above : f.IsAbove c
  isFunction : f.kind ∈ awaitFunctions
  nearest : ∀ a : Site, f.IsAbove a → a.IsAbove c → a.kind ∉ awaitFunctions

/-- One of the children of a function is the word `async`. -/
def IsAsynchronous (f : Site) : Prop := ∃ i m, f.child? i = some m ∧ m.kind = "async"

/-- A member expression names a method that consumes a promise. -/
def NamesConsumer (s : Snippet) (member : Site) : Prop :=
  ∃ property, member.field? "property" = some property ∧
    s.text property ∈ ["then".toList, "catch".toList, "finally".toList]

/-- What is called sounds as if it returned a promise. -/
def SoundsPromised (callee : List Char) : Prop :=
  "fetch".toList <:+: Text.lower callee ∨ "promise".toList <:+: Text.lower callee ∨
    "Async".toList <:+ callee

/-- A call in the body of an asynchronous function whose promise is dropped: nothing between it and the
function waits for it, no method consumes it, and it is not called itself. -/
structure IsDropped (s : Snippet) (c : Site) : Prop where
  mem : c ∈ s.nodes
  isCall : c.kind = "call_expression"
  owner : ∃ f body, IsNearestFunction f c ∧ IsAsynchronous f ∧ f.field? "body" = some body ∧
    body.Within c ∧ ∀ a : Site, f.IsAbove a → a.IsAbove c → a.kind ≠ "await_expression"
  notConsumer : ∀ callee : Site, c.field? "function" = some callee →
    callee.kind = "member_expression" → ¬ NamesConsumer s callee
  notConsumed : ∀ member : Site, member.kind = "member_expression" →
    member.field? "object" = some c → ¬ NamesConsumer s member
  notCalled : ∀ call : Site, call.kind = "call_expression" → call.field? "function" ≠ some c
  promised : SoundsPromised (c.calleeText s.source)

/-! ## 2. What is read off a call -/

theorem isAsync_iff : isAsync f = true ↔ IsAsynchronous f := by
  simp only [isAsync, List.any_eq_true, Site.mem_children, beq_iff_eq, IsAsynchronous]
  constructor
  · rintro ⟨m, ⟨i, hm⟩, hkind⟩
    exact ⟨i, m, hm, hkind⟩
  · rintro ⟨i, m, hm, hkind⟩
    exact ⟨m, ⟨i, hm⟩, hkind⟩

theorem namesConsumer_iff {member : Site} : namesConsumer s member = true ↔ NamesConsumer s member := by
  unfold namesConsumer NamesConsumer
  cases member.field? "property" with
  | none => simp [consumers]
  | some property => simp [consumers]

theorem looksPromised_iff {callee : List Char} :
    looksPromised callee = true ↔ SoundsPromised callee := by
  simp only [looksPromised, Bool.or_eq_true, Text.mentions_iff, Text.endsWith, List.isSuffixOf_iff_suffix,
    SoundsPromised]
  tauto

/-- A child in a role is known by its path. -/
theorem inRole_iff {parent : Site} {i : Nat} {role : String} (h : parent.child? i = some c) :
    inRole c parent role = true ↔ parent.field? role = some c := by
  unfold inRole
  cases hfield : parent.field? role with
  | none => simp
  | some child =>
    obtain ⟨j, hj⟩ := Site.exists_child_of_field? hfield
    have hwithin : parent.Within c := .child .self h
    have hwithin' : parent.Within child := .child .self hj
    simp only [Site.same, beq_iff_eq, Option.some.injEq]
    exact ⟨Site.eq_of_path_eq hwithin' hwithin, fun heq => by rw [heq]⟩

theorem isConsumed_iff (hc : c ∈ s.nodes) :
    isConsumed s c = true ↔
      (∃ callee, c.field? "function" = some callee ∧ callee.kind = "member_expression" ∧
        NamesConsumer s callee) ∨
      (∃ member : Site, member.field? "object" = some c ∧ member.kind = "member_expression" ∧
        NamesConsumer s member) ∨
      ∃ call : Site, call.field? "function" = some c ∧ call.kind = "call_expression" := by
  obtain ⟨t, -, hwithin⟩ := Snippet.mem_nodes.mp hc
  -- a call stands in a role of nothing but its parent
  have hparent : ∀ {a : Site} {role : String}, a.field? role = some c → c.parent? = some a :=
    fun hfield => (Site.parent?_eq_some_iff hwithin).mpr (Site.exists_child_of_field? hfield)
  rw [isConsumed, Bool.or_eq_true]
  refine or_congr ?_ ?_
  · cases c.field? "function" with
    | none => simp
    | some callee => simp [namesConsumer_iff]
  · cases hp : c.parent? with
    | none =>
      simp only [Bool.false_eq_true, false_iff, not_or, not_exists, not_and]
      constructor
      · intro member hobject
        simp [hparent hobject] at hp
      · intro call hcallee
        simp [hparent hcallee] at hp
    | some parent =>
      obtain ⟨i, hchild⟩ := (Site.parent?_eq_some_iff hwithin).mp hp
      have honly : ∀ {a : Site} {role : String}, a.field? role = some c → a = parent :=
        fun hfield => Option.some.inj ((hparent hfield).symm.trans hp)
      simp only [Bool.or_eq_true, Bool.and_eq_true, beq_iff_eq, inRole_iff hchild, namesConsumer_iff]
      constructor
      · rintro (⟨⟨hkind, hobject⟩, hnames⟩ | ⟨hkind, hcallee⟩)
        · exact .inl ⟨parent, hobject, hkind, hnames⟩
        · exact .inr ⟨parent, hcallee, hkind⟩
      · rintro (⟨member, hobject, hkind, hnames⟩ | ⟨call, hcallee, hkind⟩)
        · obtain rfl := honly hobject
          exact .inl ⟨⟨hkind, hobject⟩, hnames⟩
        · obtain rfl := honly hcallee
          exact .inr ⟨hkind, hcallee⟩

/-- What is asked of a call, where its function is known. -/
theorem isUnawaited_iff (hf : IsNearestFunction f c) :
    isUnawaited s c = true ↔
      (∀ a : Site, f.IsAbove a → a.IsAbove c → a.kind ≠ "await_expression") ∧
      isConsumed s c = false ∧ SoundsPromised (c.calleeText s.source) := by
  have hkind : f.kind ∉ ["await_expression"] := by
    intro hawait
    have hfunction := hf.isFunction
    rw [List.mem_singleton.mp hawait] at hfunction
    revert hfunction
    decide
  have hclimb := Site.hasAncestor_iff hf.above hf.isFunction hkind hf.nearest
  simp only [isUnawaited, Bool.and_eq_true, Bool.not_eq_true', looksPromised_iff, and_assoc]
  rw [← Bool.not_eq_true (c.hasAncestor _ _), hclimb]
  simp

/-! ## 3. The nearest function -/

/-- **A call belongs to one function.** -/
theorem IsNearestFunction.unique {f' : Site} (hc : c ∈ s.nodes) (h : IsNearestFunction f c)
    (h' : IsNearestFunction f' c) : f = f' := by
  obtain ⟨t, -, hwithin⟩ := Snippet.mem_nodes.mp hc
  rcases Site.isAbove_or_of_isAbove hwithin h.above h'.above with heq | habove | habove
  · exact heq
  · exact absurd h'.isFunction (h.nearest f' habove h'.above)
  · exact absurd h.isFunction (h'.nearest f habove h.above)

/-- **In the body of a function, the calls with no function around them inside the body are those that
belong to it.** -/
theorem isNearestFunction_iff (hf : f.kind ∈ awaitFunctions) (hbody : f.field? "body" = some body)
    (hc : body.Within c) :
    IsNearestFunction f c ↔ ∀ a, body.Within a → a.IsAbove c → a.kind ∉ awaitFunctions := by
  obtain ⟨i, hchild⟩ := Site.exists_child_of_field? hbody
  constructor
  · intro h a ha hac
    exact h.nearest a ⟨i, body, hchild, ha⟩ hac
  · intro h
    refine ⟨⟨i, body, hchild, hc⟩, hf, fun a ha hac => ?_⟩
    exact h a (Site.within_of_between hchild hc ha hac) hac

/-! ## 4. The walk through a body -/

/-- What the walk through a body picks at a node, and whether it goes on below. -/
def droppedAt (s : Snippet) (n : Site) : List Finding × Bool :=
  if n.hasKind awaitFunctions then ([], false)
  else if n.kind == "call_expression" && isUnawaited s n then ([awaitFinding s n], true)
  else ([], true)

/-- A function is no call, so the two questions of the walk do not meet. -/
theorem droppedAt_eq (s : Snippet) (n : Site) :
    droppedAt s n =
      (if n.kind == "call_expression" && isUnawaited s n then [awaitFinding s n] else [],
        !n.hasKind awaitFunctions) := by
  by_cases hcall : n.kind = "call_expression"
  · have hopen : n.hasKind awaitFunctions = false := by
      rw [Site.hasKind, hcall]
      decide
    cases h : isUnawaited s n <;> simp [droppedAt, hopen, hcall, h]
  · cases h : n.hasKind awaitFunctions <;> simp [droppedAt, hcall, h]

/-- The calls that are reported for a body. -/
def droppedIn (s : Snippet) (body : Site) : List Site :=
  (body.opened (droppedAt s)).filter fun n => n.kind == "call_expression" && isUnawaited s n

theorem unawaitedIn_eq (s : Snippet) (body : Site) :
    unawaitedIn s body = (droppedIn s body).map (awaitFinding s) := by
  have hgather : unawaitedIn s body = body.gather (droppedAt s) := rfl
  rw [hgather, Site.gather_eq_flatMap, droppedIn, ← flatMap_ite_nil]
  simp only [droppedAt_eq]

theorem mem_droppedIn :
    c ∈ droppedIn s body ↔
      (body.Within c ∧ ∀ a, body.Within a → a.IsAbove c → a.kind ∉ awaitFunctions) ∧
        c.kind = "call_expression" ∧ isUnawaited s c = true := by
  simp [droppedIn, Site.mem_opened, droppedAt_eq, Site.hasKind]

/-- **A walk through the body of a function meets the calls that belong to the function.** -/
theorem mem_droppedIn_iff_isNearestFunction (hf : f.kind ∈ awaitFunctions)
    (hbody : f.field? "body" = some body) :
    c ∈ droppedIn s body ↔
      body.Within c ∧ IsNearestFunction f c ∧ c.kind = "call_expression" ∧ isUnawaited s c = true := by
  rw [mem_droppedIn, and_assoc]
  refine and_congr_right fun hc => ?_
  rw [isNearestFunction_iff hf hbody hc]

/-! ## 5. The walks through all bodies -/

/-- The calls that are reported for a function. -/
def droppedOf (s : Snippet) (f : Site) : List Site := ((f.field? "body").map (droppedIn s)).getD []

/-- The calls that are reported, function by function. -/
def droppedCalls (s : Snippet) : List Site :=
  (s.nodes.filter fun n => n.hasKind awaitFunctions && isAsync n).flatMap (droppedOf s)

theorem missingAwaits_eq (s : Snippet) :
    missingAwaits s = Finding.sort ((droppedCalls s).map (awaitFinding s)) := by
  rw [missingAwaits, droppedCalls, List.map_flatMap]
  congr 2
  funext f
  cases h : f.field? "body" with
  | none => simp [droppedOf, h]
  | some body => simp [droppedOf, h, unawaitedIn_eq]

theorem mem_droppedOf (hf : f.kind ∈ awaitFunctions) :
    c ∈ droppedOf s f ↔ ∃ body, f.field? "body" = some body ∧ body.Within c ∧ IsNearestFunction f c ∧
      c.kind = "call_expression" ∧ isUnawaited s c = true := by
  cases h : f.field? "body" with
  | none => simp [droppedOf, h]
  | some body => simp [droppedOf, h, mem_droppedIn_iff_isNearestFunction hf h]

theorem mem_droppedCalls : c ∈ droppedCalls s ↔ IsDropped s c := by
  simp only [droppedCalls, List.mem_flatMap, List.mem_filter, Bool.and_eq_true, Site.hasKind,
    List.contains_iff_mem, isAsync_iff]
  constructor
  · rintro ⟨f, ⟨hf, hfunction, hasync⟩, hc⟩
    obtain ⟨body, hbody, hwithin, hnearest, hcall, hunawaited⟩ := (mem_droppedOf hfunction).mp hc
    have hmem : c ∈ s.nodes :=
      Snippet.mem_nodes_of_within hf ((Site.within_of_field? hbody).trans hwithin)
    obtain ⟨hawait, hconsumed, hpromised⟩ := (isUnawaited_iff hnearest).mp hunawaited
    rw [← Bool.not_eq_true, isConsumed_iff hmem] at hconsumed
    simp only [not_or, not_exists, not_and] at hconsumed
    obtain ⟨hconsumer, hobject, hcallee⟩ := hconsumed
    exact ⟨hmem, hcall, ⟨f, body, hnearest, hasync, hbody, hwithin, hawait⟩, hconsumer,
      fun member hkind hrole => hobject member hrole hkind, fun call hkind hrole => hcallee call hrole hkind,
      hpromised⟩
  · intro h
    obtain ⟨f, body, hnearest, hasync, hbody, hwithin, hawait⟩ := h.owner
    have hconsumed : isConsumed s c = false := by
      rw [← Bool.not_eq_true, isConsumed_iff h.mem]
      rintro (⟨callee, hrole, hkind, hnames⟩ | ⟨member, hrole, hkind, hnames⟩ | ⟨call, hrole, hkind⟩)
      · exact h.notConsumer callee hrole hkind hnames
      · exact h.notConsumed member hkind hrole hnames
      · exact h.notCalled call hkind hrole
    have hunawaited := (isUnawaited_iff hnearest).mpr ⟨hawait, hconsumed, h.promised⟩
    exact ⟨f, ⟨Snippet.mem_nodes_of_isAbove h.mem hnearest.above, hnearest.isFunction, hasync⟩,
      (mem_droppedOf hnearest.isFunction).mpr ⟨body, hbody, hwithin, hnearest, h.isCall, hunawaited⟩⟩

/-- No call is met on the walks for two functions. -/
theorem nodup_droppedCalls (s : Snippet) : (droppedCalls s).Nodup := by
  rw [droppedCalls, List.nodup_flatMap]
  constructor
  · intro f _
    rw [droppedOf]
    cases f.field? "body" with
    | none => exact List.nodup_nil
    | some body => exact (Site.nodup_opened body).filter _
  · refine (s.nodup_nodes.filter _).imp_of_mem fun {f f'} hf hf' hne => ?_
    simp only [List.mem_filter, Bool.and_eq_true, Site.hasKind, List.contains_iff_mem] at hf hf'
    intro c hc hc'
    obtain ⟨body, hbody, hwithin, hnearest, -⟩ := (mem_droppedOf hf.2.1).mp hc
    obtain ⟨-, -, -, hnearest', -⟩ := (mem_droppedOf hf'.2.1).mp hc'
    have hmem : c ∈ s.nodes :=
      Snippet.mem_nodes_of_within hf.1 ((Site.within_of_field? hbody).trans hwithin)
    exact hne (hnearest.unique hmem hnearest')

/-- **There is one finding for each call whose promise is dropped, and no other.** -/
theorem missingAwaits_match_dropped_calls (s : Snippet) :
    Finding.OneForEach (IsDropped s)
      (Finding.IsAbout s.source .missingAwait .error "Potential missing await keyword in async function")
      (missingAwaits s) := by
  rw [missingAwaits_eq]
  refine Finding.oneForEach_sort (nodup_droppedCalls s) (fun c => mem_droppedCalls) fun c _ => ?_
  exact ⟨rfl, rfl, rfl, rfl, rfl⟩

/-- An asynchronous function whose body is an asynchronous function: the walk for the outer one ends where
it starts, and the call is reported for the inner one only. -/
def arrowInArrow : Snippet where
  source := "async () => async () => fetch(u)".toList
  tree := some <| .named "program" none 0 32 [
    .named "expression_statement" none 0 32 [
      .named "arrow_function" none 0 32 [
        .sign "async" 0,
        .named "formal_parameters" (some "parameters") 6 8 [.sign "(" 6, .sign ")" 7],
        .sign "=>" 9,
        .named "arrow_function" (some "body") 12 32 [
          .sign "async" 12,
          .named "formal_parameters" (some "parameters") 18 20 [.sign "(" 18, .sign ")" 19],
          .sign "=>" 21,
          .named "call_expression" (some "body") 24 32 [
            .named "identifier" (some "function") 24 29 [],
            .named "arguments" (some "arguments") 29 32 [
              .sign "(" 29, .named "identifier" none 30 31 [], .sign ")" 31]]]]]]
  language := "javascript"

example : (missingAwaits arrowInArrow).map (·.code) = ["fetch(u)"] := by decide +kernel

end CodeAudit.Quality
