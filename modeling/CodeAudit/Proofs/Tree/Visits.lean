import CodeAudit.Tree.Walk
import Mathlib.Data.List.Lex
import Mathlib.Logic.Function.Iterate

/-!
# Which nodes a walk visits

A walk moves one cursor: to the first child, to the next sibling, up.  It has no stack and no list of
what is still to come; the only thing that keeps it in the subtree where it began is that it stops
when it is about to leave the node where it began.  `Loop` is that loop, one move at a time.

Two things are said of it.  **It stops, and it is the plain recursion** (`Loop.iterate_tree`): from
the arrival at a node it comes to leaving that node with everything in between done as the recursion
does it, and while it is below a node it cannot be about to leave it.  And **it visits a node exactly
if it rejected nothing above it** (`mem_callsTree`), each once and in preorder
(`pairwise_callsTree`), which is said on the paths of child numbers and not by another walk.
-/

namespace CodeAudit

namespace Site

/-! ## 1. Above and below -/

/-- A node of the subtree of `r`: that node itself, or a child of one of its nodes. -/
inductive Within (r : Site) : Site → Prop
  | self : Within r r
  | child {n m : Site} {i : Nat} (h : Within r n) (hchild : n.child? i = some m) : Within r m

/-- A node stands properly above another: the other is in the subtree of one of its children. -/
def IsAbove (a n : Site) : Prop := ∃ i m, a.child? i = some m ∧ Within m n

/-- One node comes before another in preorder.  Their paths from the top part at a child number that
is less for the first, or the first is above. -/
def Precedes (a b : Site) : Prop := List.Lex (· < ·) a.path.reverse b.path.reverse

variable {r n m a b : Site} {i j : Nat}

theorem child?_eq_some_iff :
    n.child? i = some m ↔ ∃ t, n.tree.children[i]? = some t ∧ m = ⟨t, ⟨n.tree, i⟩ :: n.above⟩ := by
  rw [child?, under, Option.map_eq_some_iff]
  constructor
  · rintro ⟨t, ht, rfl⟩
    exact ⟨t, ht, rfl⟩
  · rintro ⟨t, ht, rfl⟩
    exact ⟨t, ht, rfl⟩

theorem path_of_child? (h : n.child? i = some m) : m.path = i :: n.path := by
  obtain ⟨t, -, rfl⟩ := child?_eq_some_iff.mp h
  rfl

/-- The path of a node of a subtree ends with that of the top of the subtree. -/
theorem Within.suffix (h : r.Within n) : r.path <:+ n.path := by
  induction h with
  | self => exact List.suffix_refl _
  | child h hchild ih =>
    rw [path_of_child? hchild]
    exact ih.trans (List.suffix_cons _ _)

theorem Within.suffix_of_index {t parent : Tree} {above : List Frame}
    (h : Within ⟨t, ⟨parent, i⟩ :: above⟩ n) : i :: above.map Frame.index <:+ n.path :=
  h.suffix

theorem IsAbove.suffix (h : a.IsAbove n) : ∃ i, (i :: a.path) <:+ n.path := by
  obtain ⟨i, m, hchild, hwithin⟩ := h
  exact ⟨i, path_of_child? hchild ▸ hwithin.suffix⟩

/-- A node of a subtree is its top or stands below the top. -/
theorem within_iff : r.Within n ↔ n = r ∨ r.IsAbove n := by
  constructor
  · intro h
    induction h with
    | self => exact .inl rfl
    | child h hchild ih =>
      rcases ih with rfl | ⟨j, m, hm, hwithin⟩
      · exact .inr ⟨_, _, hchild, .self⟩
      · exact .inr ⟨j, m, hm, hwithin.child hchild⟩
  · rintro (rfl | ⟨i, m, hchild, hwithin⟩)
    · exact .self
    · induction hwithin with
      | self => exact .child .self hchild
      | child _ hnext ih => exact ih.child hnext

/-- Nothing in a subtree stands above its top. -/
theorem Within.not_isAbove (h : r.Within a) : ¬ a.IsAbove r := by
  intro habove
  obtain ⟨i, hsuffix⟩ := habove.suffix
  have hlonger := hsuffix.length_le
  have hdeeper := h.suffix.length_le
  rw [List.length_cons] at hlonger
  omega

theorem isAbove_iff {t : Tree} {above : List Frame} :
    IsAbove ⟨t, above⟩ n ↔ ∃ j u, t.children[j]? = some u ∧ Within ⟨u, ⟨t, j⟩ :: above⟩ n := by
  constructor
  · rintro ⟨j, m, hchild, hwithin⟩
    obtain ⟨u, hu, rfl⟩ := child?_eq_some_iff.mp hchild
    exact ⟨j, u, hu, hwithin⟩
  · rintro ⟨j, u, hu, hwithin⟩
    exact ⟨j, _, child?_eq_some_iff.mpr ⟨u, hu, rfl⟩, hwithin⟩

/-- Nothing in the subtree of a child stands above what is in the subtree of another. -/
theorem not_isAbove_of_ne {path : List Nat} (ha : i :: path <:+ a.path) (hn : j :: path <:+ n.path)
    (hne : i ≠ j) : ¬ a.IsAbove n := by
  intro habove
  obtain ⟨k, hsuffix⟩ := habove.suffix
  have hn' : i :: path <:+ n.path := ha.trans ((List.suffix_cons k a.path).trans hsuffix)
  have hsame : i :: path = j :: path := by
    rcases List.suffix_or_suffix_of_suffix hn' hn with hs | hs
    · exact hs.eq_of_length rfl
    · exact (hs.eq_of_length rfl).symm
  exact hne (List.cons.inj hsame).1

theorem IsAbove.precedes (h : a.IsAbove n) : a.Precedes n := by
  obtain ⟨i, before, hpath⟩ := h.suffix
  have hreverse : n.path.reverse = a.path.reverse ++ i :: before.reverse := by
    rw [← hpath]
    simp
  have hlex : List.Lex (· < ·) (a.path.reverse ++ []) (a.path.reverse ++ i :: before.reverse) :=
    List.Lex.append_left _ .nil _
  rwa [List.append_nil, ← hreverse] at hlex

/-- What is in the subtree of a child comes before what is in that of a later one. -/
theorem precedes_of_lt {path : List Nat} (ha : i :: path <:+ a.path) (hb : j :: path <:+ b.path)
    (hlt : i < j) : a.Precedes b := by
  obtain ⟨before, ha⟩ := ha
  obtain ⟨before', hb⟩ := hb
  have hlex : List.Lex (· < ·) (path.reverse ++ i :: before.reverse)
      (path.reverse ++ j :: before'.reverse) := List.Lex.append_left _ (.rel hlt) _
  rw [Precedes, ← ha, ← hb]
  simpa using hlex

theorem Precedes.ne (h : a.Precedes b) : a ≠ b := by
  rintro rfl
  exact List.lex_irrefl (fun x => Nat.lt_irrefl x) _ h

/-! ## 2. The calls of the recursion -/

variable {σ : Type}

mutual

/-- The visits that the plain recursion makes, each with the state that it is made in. -/
def callsTree (visit : σ → Site → σ × Bool) (state : σ) (above : List Frame) :
    Tree → List (σ × Site)
  | .node label kids =>
    (state, ⟨.node label kids, above⟩) ::
      if (visit state ⟨.node label kids, above⟩).2 then
        callsRow visit (visit state ⟨.node label kids, above⟩).1 (.node label kids) above 0 kids
      else []

/-- The visits to the children of `parent` from number `i` on, and to what is below them. -/
def callsRow (visit : σ → Site → σ × Bool) (state : σ) (parent : Tree) (above : List Frame)
    (i : Nat) : List Tree → List (σ × Site)
  | [] => []
  | t :: ts =>
    callsTree visit state (⟨parent, i⟩ :: above) t ++
      callsRow visit (walkTree visit state (⟨parent, i⟩ :: above) t) parent above (i + 1) ts

end

/-- The visits of a walk, each with the state that it is made in. -/
def calls (visit : σ → Site → σ × Bool) (state : σ) (s : Site) : List (σ × Site) :=
  callsTree visit state s.above s.tree

/-- A visit that also writes down what it is called with. -/
def logged (visit : σ → Site → σ × Bool) (state : σ × List (σ × Site)) (n : Site) :
    (σ × List (σ × Site)) × Bool :=
  (((visit state.1 n).1, state.2 ++ [(state.1, n)]), (visit state.1 n).2)

variable (visit : σ → Site → σ × Bool)

theorem callsTree_eq (state : σ) (above : List Frame) (t : Tree) :
    callsTree visit state above t =
      (state, ⟨t, above⟩) ::
        if (visit state ⟨t, above⟩).2 then
          callsRow visit (visit state ⟨t, above⟩).1 t above 0 t.children
        else [] := by
  cases t with | node label kids => rw [callsTree, Tree.children]

mutual

theorem walkTree_logged (state : σ) (log : List (σ × Site)) (above : List Frame) (t : Tree) :
    walkTree (logged visit) (state, log) above t =
      (walkTree visit state above t, log ++ callsTree visit state above t) := by
  cases t with
  | node label kids =>
    have hlogged : logged visit (state, log) ⟨.node label kids, above⟩ =
        (((visit state ⟨.node label kids, above⟩).1, log ++ [(state, ⟨.node label kids, above⟩)]),
          (visit state ⟨.node label kids, above⟩).2) := rfl
    rw [walkTree_eq, walkTree_eq, callsTree_eq, hlogged]
    by_cases hdescend : (visit state ⟨.node label kids, above⟩).2 = true
    · have hrow := walkRow_logged (visit state ⟨.node label kids, above⟩).1
        (log ++ [(state, ⟨.node label kids, above⟩)]) (.node label kids) above 0 kids
      simp only [hdescend, if_true, Tree.children, hrow, List.append_assoc, List.singleton_append]
    · simp only [hdescend, Bool.false_eq_true, if_false]

theorem walkRow_logged (state : σ) (log : List (σ × Site)) (parent : Tree) (above : List Frame)
    (i : Nat) (ts : List Tree) :
    walkRow (logged visit) (state, log) parent above i ts =
      (walkRow visit state parent above i ts, log ++ callsRow visit state parent above i ts) := by
  cases ts with
  | nil => simp [walkRow, callsRow]
  | cons t ts =>
    simp only [walkRow, callsRow]
    rw [walkTree_logged, walkRow_logged, List.append_assoc]

end

/-! ## 3. The loop -/

/-- What the loop is about to do at a node. -/
inductive Stage where
  /-- To visit it. -/
  | arrive
  /-- To go on beside or above it. -/
  | leave
  | stop

/-- The loop under way: the state so far, and where the cursor stands. -/
structure Loop (σ : Type) where
  state : σ
  site : Site
  stage : Stage

namespace Loop

/-- One move of the loop that began at `start`. -/
def step (start : Site) (l : Loop σ) : Loop σ :=
  match l.stage with
  | .arrive =>
    match if (visit l.state l.site).2 then l.site.child? 0 else none with
    | some below => ⟨(visit l.state l.site).1, below, .arrive⟩
    | none => ⟨(visit l.state l.site).1, l.site, .leave⟩
  | .leave =>
    if l.site.same start then { l with stage := .stop }
    else
      match l.site.nextSibling? with
      | some next => { l with site := next, stage := .arrive }
      | none =>
        match l.site.parent? with
        | some up => { l with site := up }
        | none => { l with stage := .stop }
  | .stop => l

/-- At the child number `i` of `parent`, where `ts` are the children from there on; if there is none,
about to leave `parent`. -/
def enter (state : σ) (parent : Tree) (above : List Frame) (i : Nat) : List Tree → Loop σ
  | [] => ⟨state, ⟨parent, above⟩, .leave⟩
  | t :: _ => ⟨state, ⟨t, ⟨parent, i⟩ :: above⟩, .arrive⟩

variable {start : Site}

theorem step_arrive (state : σ) (above : List Frame) (t : Tree) :
    step visit start ⟨state, ⟨t, above⟩, .arrive⟩ =
      if (visit state ⟨t, above⟩).2 then
        enter (visit state ⟨t, above⟩).1 t above 0 t.children
      else ⟨(visit state ⟨t, above⟩).1, ⟨t, above⟩, .leave⟩ := by
  by_cases hdescend : (visit state ⟨t, above⟩).2 = true
  · cases hkids : t.children with
    | nil => simp [step, hdescend, child?, under, hkids, enter]
    | cons k ks => simp [step, hdescend, child?, under, hkids, enter]
  · simp [step, hdescend]

/-- Below the node where it began, the loop goes on to the next sibling, or up. -/
theorem step_leave (state : σ) {parent t : Tree} {above : List Frame} {i : Nat} {ts : List Tree}
    (hrow : parent.children.drop i = t :: ts) (hbelow : start.above.length ≤ above.length) :
    step visit start ⟨state, ⟨t, ⟨parent, i⟩ :: above⟩, .leave⟩ =
      enter state parent above (i + 1) ts := by
  have hsame : Site.same ⟨t, ⟨parent, i⟩ :: above⟩ start = false := by
    rw [same, beq_eq_false_iff_ne]
    intro hpath
    have hlength := congrArg List.length hpath
    simp only [path, List.length_map, List.length_cons] at hlength
    omega
  have hnext : parent.children[i + 1]? = ts.head? := by
    have hrest : parent.children.drop (i + 1) = ts := by
      rw [← List.tail_drop, hrow, List.tail_cons]
    rw [← hrest, List.head?_drop]
  cases ts with
  | nil => simp [step, hsame, nextSibling?, parent?, under, hnext, enter]
  | cons u us => simp [step, hsame, nextSibling?, under, hnext, enter]

mutual

/-- **From arriving at a node to leaving it, the loop does what the recursion does.** -/
theorem iterate_tree (state : σ) (above : List Frame) (t : Tree)
    (hbelow : start.above.length ≤ above.length) :
    ∃ k, k + 1 = 2 * (callsTree visit state above t).length ∧
      (step visit start)^[k] ⟨state, ⟨t, above⟩, .arrive⟩ =
        ⟨walkTree visit state above t, ⟨t, above⟩, .leave⟩ := by
  cases t with
  | node label kids =>
    by_cases hdescend : (visit state ⟨.node label kids, above⟩).2 = true
    · have hrow := iterate_row (visit state ⟨.node label kids, above⟩).1 (.node label kids) above 0 kids
        rfl hbelow
      refine ⟨2 * (callsRow visit (visit state ⟨.node label kids, above⟩).1 (.node label kids) above 0
        kids).length + 1, ?_, ?_⟩
      · rw [callsTree_eq, if_pos hdescend, List.length_cons, Tree.children]
        omega
      · rw [Function.iterate_succ_apply, step_arrive, if_pos hdescend, Tree.children, hrow,
          walkTree_eq, if_pos hdescend, Tree.children]
    · refine ⟨1, ?_, ?_⟩
      · rw [callsTree_eq, if_neg hdescend, List.length_singleton]
      · rw [Function.iterate_one, step_arrive, if_neg hdescend, walkTree_eq, if_neg hdescend]

theorem iterate_row (state : σ) (parent : Tree) (above : List Frame) (i : Nat) (ts : List Tree)
    (hrow : parent.children.drop i = ts) (hbelow : start.above.length ≤ above.length) :
    (step visit start)^[2 * (callsRow visit state parent above i ts).length]
        (enter state parent above i ts) =
      ⟨walkRow visit state parent above i ts, ⟨parent, above⟩, .leave⟩ := by
  cases ts with
  | nil => simp only [callsRow, walkRow, enter, List.length_nil, Nat.mul_zero, Function.iterate_zero,
      id_eq]
  | cons t ts =>
    have hdeeper : start.above.length ≤ ((⟨parent, i⟩ : Frame) :: above).length := by
      rw [List.length_cons]
      omega
    obtain ⟨k, hk, htree⟩ := iterate_tree state (⟨parent, i⟩ :: above) t hdeeper
    have hrest := iterate_row (walkTree visit state (⟨parent, i⟩ :: above) t) parent above (i + 1) ts
      (by rw [← List.tail_drop, hrow, List.tail_cons]) hbelow
    have hmoves : 2 * (callsRow visit state parent above i (t :: ts)).length =
        2 * (callsRow visit (walkTree visit state (⟨parent, i⟩ :: above) t) parent above (i + 1)
          ts).length + 1 + k := by
      simp only [callsRow, List.length_append]
      omega
    rw [hmoves, Function.iterate_add_apply, enter, htree, Function.iterate_succ_apply,
      step_leave visit _ hrow hbelow, hrest, walkRow]

end

end Loop

/-! ## 4. Which nodes are visited -/

mutual

/-- **A node is visited exactly if it is in the subtree and nothing above it was rejected.** -/
theorem mem_callsTree (state : σ) (above : List Frame) (t : Tree) (n : Site) :
    n ∈ (callsTree visit state above t).map Prod.snd ↔
      Within ⟨t, above⟩ n ∧
        ∀ x ∈ callsTree visit state above t, x.2.IsAbove n → (visit x.1 x.2).2 = true := by
  cases t with
  | node label kids =>
    rw [callsTree_eq, within_iff]
    by_cases hdescend : (visit state ⟨.node label kids, above⟩).2 = true
    · have hrow : ∀ n, n ∈ (callsRow visit (visit state ⟨.node label kids, above⟩).1
          (.node label kids) above 0 kids).map Prod.snd ↔
            IsAbove ⟨.node label kids, above⟩ n ∧
              ∀ x ∈ callsRow visit (visit state ⟨.node label kids, above⟩).1 (.node label kids) above
                0 kids, x.2.IsAbove n → (visit x.1 x.2).2 = true := by
        intro n
        rw [mem_callsRow, isAbove_iff]
        simp only [Nat.zero_add, Tree.children]
      rw [if_pos hdescend, Tree.children, List.map_cons, List.mem_cons, hrow]
      simp only [List.forall_mem_cons, hdescend, implies_true, true_and]
      constructor
      · rintro (rfl | ⟨habove, hrest⟩)
        · refine ⟨.inl rfl, fun x hx hxabove => ?_⟩
          have hbelow := ((hrow x.2).mp (List.mem_map_of_mem hx)).1
          exact absurd hxabove (within_iff.mpr (.inr hbelow)).not_isAbove
        · exact ⟨.inr habove, hrest⟩
      · rintro ⟨rfl | habove, hrest⟩
        · exact .inl rfl
        · exact .inr ⟨habove, hrest⟩
    · rw [if_neg hdescend]
      simp only [List.map_cons, List.map_nil, List.mem_singleton, forall_eq, hdescend,
        Bool.false_eq_true, imp_false]
      constructor
      · rintro rfl
        exact ⟨.inl rfl, Within.self.not_isAbove⟩
      · rintro ⟨rfl | habove, hnot⟩
        · rfl
        · exact absurd habove hnot

theorem mem_callsRow (state : σ) (parent : Tree) (above : List Frame) (i : Nat) (ts : List Tree)
    (n : Site) :
    n ∈ (callsRow visit state parent above i ts).map Prod.snd ↔
      (∃ j t, ts[j]? = some t ∧ Within ⟨t, ⟨parent, i + j⟩ :: above⟩ n) ∧
        ∀ x ∈ callsRow visit state parent above i ts, x.2.IsAbove n → (visit x.1 x.2).2 = true := by
  cases ts with
  | nil => simp [callsRow]
  | cons t ts =>
    have hfirst := mem_callsTree state (⟨parent, i⟩ :: above) t
    have hrest := mem_callsRow (walkTree visit state (⟨parent, i⟩ :: above) t) parent above (i + 1) ts
    -- what was rejected in one of the two parts does not concern the other
    have hapart : ∀ j u, Within ⟨u, ⟨parent, i + 1 + j⟩ :: above⟩ n →
        ∀ x ∈ callsTree visit state (⟨parent, i⟩ :: above) t, ¬ x.2.IsAbove n := by
      intro j u hn x hx
      have hx := ((hfirst x.2).mp (List.mem_map_of_mem hx)).1
      exact not_isAbove_of_ne hx.suffix_of_index hn.suffix_of_index (by omega)
    have hapart' : Within ⟨t, ⟨parent, i⟩ :: above⟩ n →
        ∀ x ∈ callsRow visit (walkTree visit state (⟨parent, i⟩ :: above) t) parent above (i + 1) ts,
          ¬ x.2.IsAbove n := by
      intro hn x hx
      obtain ⟨j, u, -, hx⟩ := ((hrest x.2).mp (List.mem_map_of_mem hx)).1
      exact not_isAbove_of_ne hx.suffix_of_index hn.suffix_of_index (by omega)
    rw [callsRow, List.map_append, List.mem_append, hfirst, hrest]
    simp only [List.forall_mem_append]
    constructor
    · rintro (⟨hn, hall⟩ | ⟨⟨j, u, hu, hn⟩, hall⟩)
      · exact ⟨⟨0, t, rfl, hn⟩, hall, fun x hx habove => absurd habove (hapart' hn x hx)⟩
      · refine ⟨⟨j + 1, u, hu, ?_⟩, fun x hx habove => absurd habove (hapart j u hn x hx), hall⟩
        rwa [Nat.add_comm j, ← Nat.add_assoc]
    · rintro ⟨⟨j, u, hu, hn⟩, hall, hall'⟩
      cases j with
      | zero =>
        obtain rfl := Option.some.inj hu
        exact .inl ⟨hn, hall⟩
      | succ j =>
        rw [Nat.add_comm j, ← Nat.add_assoc] at hn
        exact .inr ⟨⟨j, u, hu, hn⟩, hall'⟩

end

mutual

/-- **The nodes are visited in preorder.** -/
theorem pairwise_callsTree (state : σ) (above : List Frame) (t : Tree) :
    ((callsTree visit state above t).map Prod.snd).Pairwise Precedes := by
  cases t with
  | node label kids =>
    rw [callsTree_eq]
    by_cases hdescend : (visit state ⟨.node label kids, above⟩).2 = true
    · rw [if_pos hdescend, List.map_cons, List.pairwise_cons]
      refine ⟨?_, pairwise_callsRow _ _ _ _ _⟩
      intro n hn
      obtain ⟨⟨j, u, hu, hwithin⟩, -⟩ := (mem_callsRow visit _ _ _ _ _ n).mp hn
      rw [Nat.zero_add] at hwithin
      exact (isAbove_iff.mpr ⟨j, u, hu, hwithin⟩).precedes
    · rw [if_neg hdescend, List.map_singleton]
      exact List.pairwise_singleton _ _

theorem pairwise_callsRow (state : σ) (parent : Tree) (above : List Frame) (i : Nat)
    (ts : List Tree) :
    ((callsRow visit state parent above i ts).map Prod.snd).Pairwise Precedes := by
  cases ts with
  | nil =>
    rw [callsRow]
    exact List.Pairwise.nil
  | cons t ts =>
    rw [callsRow, List.map_append, List.pairwise_append]
    refine ⟨pairwise_callsTree _ _ _, pairwise_callsRow _ _ _ _ _, ?_⟩
    intro a ha b hb
    have ha := ((mem_callsTree visit _ _ _ a).mp ha).1
    obtain ⟨⟨j, u, -, hb⟩, -⟩ := (mem_callsRow visit _ _ _ _ _ b).mp hb
    exact precedes_of_lt ha.suffix_of_index hb.suffix_of_index (by omega)

end

/-! ## 5. The number of nodes -/

mutual

theorem walkTree_count (k : Nat) (above : List Frame) (t : Tree) :
    walkTree (fun k _ => (k + 1, true)) k above t = k + t.size := by
  cases t with
  | node label kids =>
    rw [walkTree_eq, if_pos rfl, Tree.children, walkRow_count, Tree.size]
    omega

theorem walkRow_count (k : Nat) (parent : Tree) (above : List Frame) (i : Nat) (ts : List Tree) :
    walkRow (fun k _ => (k + 1, true)) k parent above i ts = k + Tree.sizeAll ts := by
  cases ts with
  | nil => rw [walkRow, Tree.sizeAll, Nat.add_zero]
  | cons t ts => rw [walkRow, walkTree_count, walkRow_count, Tree.sizeAll, Nat.add_assoc]

end

/-! ## 6. The walk -/

/-- **Moving one cursor is the plain recursion.**  For every node, of any tree, every visit and every
state: the loop stops, in two moves for each visit, with what `traverse` and the recursion come to;
both visit the same nodes in the same states; the nodes visited are those of the subtree that have
nothing rejected above them in it, each once and in preorder; and a walk that rejects nothing counts
the nodes of the subtree. -/
theorem cursor_walk_is_recursion (visit : σ → Site → σ × Bool) (state : σ) (r : Site) :
    (Loop.step visit r)^[2 * (r.calls visit state).length] ⟨state, r, .arrive⟩ =
        ⟨r.traverse visit state, r, .stop⟩ ∧
      r.traverse visit state = r.walk visit state ∧
      r.traverse (logged visit) (state, []) = r.walk (logged visit) (state, []) ∧
      r.walk (logged visit) (state, []) = (r.walk visit state, r.calls visit state) ∧
      (∀ n, n ∈ (r.calls visit state).map Prod.snd ↔
        r.Within n ∧ ∀ a, r.Within a → a.IsAbove n →
          ¬ ∃ st, (st, a) ∈ r.calls visit state ∧ (visit st a).2 = false) ∧
      ((r.calls visit state).map Prod.snd).Pairwise Precedes ∧
      ((r.calls visit state).map Prod.snd).Nodup ∧
      r.count = r.tree.size := by
  have horder : ((r.calls visit state).map Prod.snd).Pairwise Precedes :=
    pairwise_callsTree visit state r.above r.tree
  refine ⟨?_, traverse_eq_walk visit state r, traverse_eq_walk _ _ r, ?_, ?_, horder,
    horder.imp Precedes.ne, ?_⟩
  · obtain ⟨k, hk, hloop⟩ := Loop.iterate_tree visit state r.above r.tree (Nat.le_refl _)
    have hsame : r.same r = true := by rw [same, beq_self_eq_true]
    have hlast : Loop.step visit r ⟨r.walk visit state, r, .leave⟩ =
        ⟨r.walk visit state, r, .stop⟩ := by
      simp only [Loop.step, hsame, if_true]
    rw [calls, ← hk, Function.iterate_succ_apply', hloop, traverse_eq_walk]
    exact hlast
  · rw [walk, walkTree_logged, List.nil_append, walk, calls]
  · intro n
    have hmem := mem_callsTree visit state r.above r.tree
    rw [calls, hmem n]
    refine and_congr_right fun hwithin => ?_
    constructor
    · rintro hall a ha habove ⟨st, hcall, hrejected⟩
      exact Bool.false_ne_true (hrejected.symm.trans (hall (st, a) hcall habove))
    · intro hall x hx habove
      have hx' := ((hmem x.2).mp (List.mem_map_of_mem hx)).1
      rw [← Bool.not_eq_false]
      exact fun hrejected => hall x.2 hx' habove ⟨x.1, hx, hrejected⟩
  · rw [count, traverse_eq_walk, walk, walkTree_count, Nat.zero_add]

end Site

end CodeAudit
