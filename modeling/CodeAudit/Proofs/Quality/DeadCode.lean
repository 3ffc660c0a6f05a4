import CodeAudit.Proofs.Quality.Listing
import CodeAudit.Proofs.Tree.Nodes
import CodeAudit.Quality.Unreachable
import Mathlib

/-!
# Code that is cut off by a jump

In a row of statements the check looks for the first jump and then for the first statement behind it that
is no declaration of the kind that takes effect anywhere.  If that one is an empty statement, the search is
over: an empty statement is not worth a finding.  But code further behind is cut off all the same.

`IsCutOff` says what is cut off in a row, empty statements being passed over like comments and
declarations.  Main statement: **there is one finding for each row with code that is cut off, unless an
empty statement stands between the jump and that code** (`unreachable_match_unhidden_rows`).  A statement
has one row, so none is reported for two rows, however rows are inside each other.
-/

namespace CodeAudit

/-! ## 1. The first of a list -/

section First

variable {α : Type}

/-- `a` is the first member of a list with a property, between what is `before` and what is `after` it. -/
structure IsFirst (p : α → Prop) (xs before : List α) (a : α) (after : List α) : Prop where
  eq_append : xs = before ++ a :: after
  holds : p a
  none_before : ∀ m ∈ before, ¬ p m

variable {p : α → Prop} {xs before before' after after' : List α} {a b : α}

/-- **There is only one first.** -/
theorem IsFirst.unique (h : IsFirst p xs before a after) (h' : IsFirst p xs before' b after') :
    before = before' ∧ a = b ∧ after = after' := by
  obtain ⟨rfl, ha, hbefore⟩ := h
  obtain ⟨heq, hb, hbefore'⟩ := h'
  induction before generalizing before' with
  | nil =>
    cases before' with
    | nil => simpa using heq
    | cons c before' =>
      obtain ⟨rfl, -⟩ := List.cons.inj heq
      exact absurd ha (hbefore' a List.mem_cons_self)
  | cons c before ih =>
    cases before' with
    | nil =>
      obtain ⟨rfl, -⟩ := List.cons.inj heq
      exact absurd hb (hbefore c List.mem_cons_self)
    | cons d before' =>
      obtain ⟨rfl, htail⟩ := List.cons.inj heq
      obtain ⟨rfl, rfl, rfl⟩ := ih (fun m hm => hbefore m (List.mem_cons_of_mem _ hm))
        htail (fun m hm => hbefore' m (List.mem_cons_of_mem _ hm))
      exact ⟨rfl, rfl, rfl⟩

theorem isFirst_cons_of_holds (hb : p b) :
    IsFirst p (b :: xs) before a after ↔ before = [] ∧ a = b ∧ after = xs := by
  have hfirst : IsFirst p (b :: xs) [] b xs := ⟨rfl, hb, fun _ hm => absurd hm List.not_mem_nil⟩
  constructor
  · intro h
    exact h.unique hfirst
  · rintro ⟨rfl, rfl, rfl⟩
    exact hfirst

theorem isFirst_cons_of_not (hb : ¬ p b) :
    IsFirst p (b :: xs) before a after ↔ ∃ before', before = b :: before' ∧ IsFirst p xs before' a after := by
  constructor
  · rintro ⟨heq, ha, hbefore⟩
    cases before with
    | nil =>
      obtain ⟨rfl, -⟩ := List.cons.inj heq
      exact absurd ha hb
    | cons c before =>
      obtain ⟨rfl, htail⟩ := List.cons.inj heq
      exact ⟨before, rfl, htail, ha, fun m hm => hbefore m (List.mem_cons_of_mem _ hm)⟩
  · rintro ⟨before', rfl, rfl, ha, hbefore⟩
    exact ⟨rfl, ha, List.forall_mem_cons.mpr ⟨hb, hbefore⟩⟩

theorem find?_eq_some_iff_isFirst {q : α → Bool} :
    xs.find? q = some a ↔ ∃ before after, IsFirst (fun m => q m = true) xs before a after := by
  rw [List.find?_eq_some_iff_append]
  constructor
  · rintro ⟨ha, before, after, heq, hbefore⟩
    exact ⟨before, after, heq, ha, fun m hm => by simpa using hbefore m hm⟩
  · rintro ⟨before, after, heq, ha, hbefore⟩
    exact ⟨ha, before, after, heq, fun m hm => by simpa using hbefore m hm⟩

end First

namespace Quality

variable {l : Language} {profile : Profile} {s : Snippet} {b b' t t' n n' m : Site}
  {between between' : List Site}

/-! ## 2. Rows of statements -/

/-- A statement of a row: a named child that is no comment. -/
def IsStatement (profile : Profile) (m : Site) : Prop :=
  m.label.named = true ∧ m.kind ∉ profile.commentKinds

/-- A statement after which the next one is not reached. -/
def IsJump (profile : Profile) (m : Site) : Prop :=
  IsStatement profile m ∧ m.kind ∈ profile.terminalKinds

/-- A statement that counts where it stands, be it empty. -/
def StandsHere (profile : Profile) (m : Site) : Prop :=
  IsStatement profile m ∧ m.kind ∉ profile.hoistedKinds

/-- A statement that counts where it stands and does something. -/
def IsActive (profile : Profile) (m : Site) : Prop :=
  StandsHere profile m ∧ m.kind ≠ "empty_statement"

def IsEmptyStatement (m : Site) : Prop := m.label.named = true ∧ m.kind = "empty_statement"

instance (profile : Profile) (m : Site) : Decidable (IsJump profile m) :=
  inferInstanceAs (Decidable ((_ ∧ _) ∧ _))

instance (profile : Profile) (m : Site) : Decidable (IsActive profile m) :=
  inferInstanceAs (Decidable (((_ ∧ _) ∧ _) ∧ _))

/-- In the row `b`, the first jump is `t`, and `n` is the first statement behind it that does something,
with no label to reach it by.  What is `between` the two does nothing there. -/
structure IsCutOff (profile : Profile) (b t : Site) (between : List Site) (n : Site) : Prop where
  row : ∃ before rest after, IsFirst (IsJump profile) b.children before t rest ∧
    IsFirst (IsActive profile) rest between n after
  unlabelled : n.kind ≠ "labeled_statement"
  notError : n.label.error = false

/-- **What is cut off in a row is determined by the row.** -/
theorem IsCutOff.unique (h : IsCutOff profile b t between n) (h' : IsCutOff profile b t' between' n') :
    t = t' ∧ between = between' ∧ n = n' := by
  obtain ⟨before, rest, after, hjump, hnext⟩ := h.row
  obtain ⟨before', rest', after', hjump', hnext'⟩ := h'.row
  obtain ⟨-, rfl, rfl⟩ := hjump.unique hjump'
  obtain ⟨rfl, rfl, -⟩ := hnext.unique hnext'
  exact ⟨rfl, rfl, rfl⟩

/-- What is cut off in a row is a child of it. -/
theorem IsCutOff.exists_child (h : IsCutOff profile b t between n) : ∃ i, b.child? i = some n := by
  obtain ⟨before, rest, after, hjump, hnext⟩ := h.row
  rw [← Site.mem_children, hjump.eq_append, hnext.eq_append]
  simp

/-- **A statement is cut off in one row.** -/
theorem IsCutOff.eq_of_same (h : IsCutOff profile b t between n) (h' : IsCutOff profile b' t' between' n) :
    b = b' := by
  obtain ⟨i, hi⟩ := h.exists_child
  obtain ⟨j, hj⟩ := h'.exists_child
  exact (Site.child?_inj hi hj).1

/-! ## 3. The search in a row -/

/-- Whether a child is a statement. -/
def isStatement (profile : Profile) (m : Site) : Bool :=
  !m.hasKind profile.commentKinds && m.label.named

theorem isStatement_iff : isStatement profile m = true ↔ IsStatement profile m := by
  simp [isStatement, IsStatement, Site.hasKind, and_comm]

theorem standsHere_iff :
    (isStatement profile m && !m.hasKind profile.hoistedKinds) = true ↔ StandsHere profile m := by
  rw [Bool.and_eq_true, isStatement_iff]
  simp [StandsHere, Site.hasKind]

theorem statements_eq (profile : Profile) (b : Site) :
    statements profile b = b.children.filter (isStatement profile) := by
  rw [statements, Site.namedChildren, List.filter_filter]
  rfl

/-- Children that are no jumps are passed over. -/
theorem jumpAndNext?_cons_of_not (hm : ¬ IsJump profile m) (xs : List Site) :
    jumpAndNext? profile ((m :: xs).filter (isStatement profile)) =
      jumpAndNext? profile (xs.filter (isStatement profile)) := by
  by_cases hstatement : IsStatement profile m
  · have hterminal : m.hasKind profile.terminalKinds = false := by
      simpa [Site.hasKind] using fun hkind => hm ⟨hstatement, hkind⟩
    rw [List.filter_cons_of_pos (isStatement_iff.mpr hstatement), jumpAndNext?, hterminal]
    rfl
  · rw [List.filter_cons_of_neg (isStatement_iff.not.mpr hstatement)]

/-- Behind a jump, the first statement that counts is looked for. -/
theorem jumpAndNext?_cons_of_isJump (hm : IsJump profile m) (xs : List Site) :
    jumpAndNext? profile ((m :: xs).filter (isStatement profile)) =
      (xs.find? fun m => isStatement profile m && !m.hasKind profile.hoistedKinds).map (m, ·) := by
  have hterminal : m.hasKind profile.terminalKinds = true := by simpa [Site.hasKind] using hm.2
  rw [List.filter_cons_of_pos (isStatement_iff.mpr hm.1), jumpAndNext?, if_pos hterminal,
    List.find?_filter]
  simp only [Bool.decide_and, Bool.decide_eq_true]

/-- **The search finds the first jump and the first statement behind it that counts.**  The induction is
on the children of the row, whether they are statements or not. -/
theorem jumpAndNext?_eq_some_iff {xs : List Site} :
    jumpAndNext? profile (xs.filter (isStatement profile)) = some (t, n) ↔
      ∃ before rest between after, IsFirst (IsJump profile) xs before t rest ∧
        IsFirst (StandsHere profile) rest between n after := by
  induction xs with
  | nil =>
    simp only [List.filter_nil, jumpAndNext?, reduceCtorEq, false_iff, not_exists, not_and]
    rintro before rest between after ⟨heq, -⟩
    simp at heq
  | cons m xs ih =>
    by_cases hm : IsJump profile m
    · simp only [jumpAndNext?_cons_of_isJump hm, Option.map_eq_some_iff, find?_eq_some_iff_isFirst,
        standsHere_iff, isFirst_cons_of_holds hm, Prod.mk.injEq]
      constructor
      · rintro ⟨n, ⟨between, after, hnext⟩, rfl, rfl⟩
        exact ⟨[], xs, between, after, ⟨rfl, rfl, rfl⟩, hnext⟩
      · rintro ⟨-, rest, between, after, ⟨-, rfl, rfl⟩, hnext⟩
        exact ⟨n, ⟨between, after, hnext⟩, rfl, rfl⟩
    · simp only [jumpAndNext?_cons_of_not hm, ih, isFirst_cons_of_not hm]
      constructor
      · rintro ⟨before, rest, between, after, hjump, hnext⟩
        exact ⟨m :: before, rest, between, after, ⟨before, rfl, hjump⟩, hnext⟩
      · rintro ⟨-, rest, between, after, ⟨before, rfl, hjump⟩, hnext⟩
        exact ⟨before, rest, between, after, hjump, hnext⟩

/-! ## 4. Empty statements -/

theorem isEmptyStatement_standsHere (l : Language) (hm : IsEmptyStatement m) :
    StandsHere l.profile m := by
  obtain ⟨hnamed, hkind⟩ := hm
  refine ⟨⟨hnamed, ?_⟩, ?_⟩ <;> rw [hkind] <;> cases l <;> decide

/-- A statement that does something is the first that counts unless an empty statement comes before it. -/
theorem isFirst_standsHere_iff {rest after : List Site} :
    IsFirst (StandsHere l.profile) rest between n after ∧ n.kind ≠ "empty_statement" ↔
      IsFirst (IsActive l.profile) rest between n after ∧ ∀ m ∈ between, ¬ IsEmptyStatement m := by
  constructor
  · rintro ⟨⟨heq, hn, hbetween⟩, hkind⟩
    refine ⟨⟨heq, ⟨hn, hkind⟩, fun m hm hactive => hbetween m hm hactive.1⟩, fun m hm hempty => ?_⟩
    exact hbetween m hm (isEmptyStatement_standsHere l hempty)
  · rintro ⟨⟨heq, hn, hbetween⟩, hempty⟩
    refine ⟨⟨heq, hn.1, fun m hm hstands => ?_⟩, hn.2⟩
    by_cases hkind : m.kind = "empty_statement"
    · exact hempty m hm ⟨hstands.1.1, hkind⟩
    · exact hbetween m hm ⟨hstands, hkind⟩

theorem not_harmless_iff :
    ¬ (n.hasKind harmlessAfterJump || n.label.error) = true ↔
      n.kind ≠ "empty_statement" ∧ n.kind ≠ "labeled_statement" ∧ n.label.error = false := by
  simp [harmlessAfterJump, Site.hasKind, and_assoc, and_left_comm]

/-- **A row has a finding if code is cut off in it that no empty statement hides.** -/
theorem unreachableIn?_eq_some_iff {f : Finding} :
    unreachableIn? l.profile s b = some f ↔
      ∃ t between n, IsCutOff l.profile b t between n ∧ (∀ m ∈ between, ¬ IsEmptyStatement m) ∧
        f = unreachableFinding s t n := by
  simp only [unreachableIn?, Option.bind_eq_some_iff, Prod.exists, statements_eq,
    jumpAndNext?_eq_some_iff, Option.ite_none_left_eq_some, not_harmless_iff, Option.some.injEq]
  constructor
  · rintro ⟨t, n, ⟨before, rest, between, after, hjump, hnext⟩, ⟨hkind, hlabel, herror⟩, rfl⟩
    obtain ⟨hactive, hempty⟩ := isFirst_standsHere_iff.mp ⟨hnext, hkind⟩
    exact ⟨t, between, n, ⟨⟨before, rest, after, hjump, hactive⟩, hlabel, herror⟩, hempty, rfl⟩
  · rintro ⟨t, between, n, ⟨⟨before, rest, after, hjump, hactive⟩, hlabel, herror⟩, hempty, rfl⟩
    obtain ⟨hnext, hkind⟩ := isFirst_standsHere_iff.mpr ⟨hactive, hempty⟩
    exact ⟨t, n, ⟨before, rest, between, after, hjump, hnext⟩, ⟨hkind, hlabel, herror⟩, rfl⟩

/-! ## 5. One finding for each row -/

/-- A row of statements in which code is cut off, and no empty statement stands before that code. -/
structure IsUnhidden (l : Language) (s : Snippet) (b : Site) : Prop where
  mem : b ∈ s.nodes
  isRow : b.kind ∈ l.profile.blockKinds
  cutOff : ∃ t between n, IsCutOff l.profile b t between n ∧ ∀ m ∈ between, ¬ IsEmptyStatement m

/-- A finding about a row: it stands at the code that is cut off, and names the jump by its kind. -/
def NamesJump (l : Language) (s : Snippet) (b : Site) (f : Finding) : Prop :=
  ∃ t between n word, IsCutOff l.profile b t between n ∧ t.kind = word ++ "_statement" ∧
    Finding.IsAbout s.source .unreachableCode .warning
      s!"Unreachable code detected after {word} statement" n f

/-- The kinds of jumps end alike. -/
theorem eq_jumpWord_append {kind : String} (h : kind ∈ l.profile.terminalKinds) :
    kind = jumpWord kind ++ "_statement" := by
  revert kind
  cases l <;> decide

theorem namesJump_of_isCutOff (h : IsCutOff l.profile b t between n) :
    NamesJump l s b (unreachableFinding s t n) := by
  obtain ⟨before, rest, after, hjump, -⟩ := h.row
  exact ⟨t, between, n, jumpWord t.kind, h, eq_jumpWord_append hjump.holds.2, rfl, rfl, rfl, rfl, rfl⟩

/-- The rows that have a finding. -/
def reportedRows (profile : Profile) (s : Snippet) : List Site :=
  (s.nodes.filter (·.hasKind profile.blockKinds)).filter fun b => (unreachableIn? profile s b).isSome

theorem mem_reportedRows : b ∈ reportedRows l.profile s ↔ IsUnhidden l s b := by
  simp only [reportedRows, List.mem_filter, Site.hasKind, List.contains_iff_mem, Option.isSome_iff_exists,
    unreachableIn?_eq_some_iff]
  constructor
  · rintro ⟨⟨hmem, hrow⟩, -, t, between, n, hcut, hempty, -⟩
    exact ⟨hmem, hrow, t, between, n, hcut, hempty⟩
  · rintro ⟨hmem, hrow, t, between, n, hcut, hempty⟩
    exact ⟨⟨hmem, hrow⟩, _, t, between, n, hcut, hempty, rfl⟩

/-- **There is one finding for each row in which code is cut off, unless an empty statement comes before
that code; and no statement is reported for two rows.** -/
theorem unreachable_match_unhidden_rows (l : Language) (s : Snippet) :
    Finding.OneForEach (IsUnhidden l s) (NamesJump l s) (unreachable l.profile s) ∧
      ∀ b b' t t' between between' n, IsCutOff l.profile b t between n →
        IsCutOff l.profile b' t' between' n → b = b' := by
  refine ⟨?_, fun _ _ _ _ _ _ _ h h' => h.eq_of_same h'⟩
  have hrows : unreachable l.profile s =
      Finding.sort ((reportedRows l.profile s).map fun b => (unreachableIn? l.profile s b).getD default) := by
    rw [unreachable, reportedRows, filterMap_eq_map_filter]
  rw [hrows]
  refine Finding.oneForEach_sort ((s.nodup_nodes.filter _).filter _) (fun b => mem_reportedRows) ?_
  intro b hb
  obtain ⟨t, between, n, hcut, hempty⟩ := hb.cutOff
  rw [unreachableIn?_eq_some_iff.mpr ⟨t, between, n, hcut, hempty, rfl⟩]
  exact namesJump_of_isCutOff hcut

/-- The call `g();`. -/
def callBehind : Tree :=
  .named "expression_statement" none 25 29 [
    .named "call_expression" none 25 28 [
      .named "identifier" (some "function") 25 26 [],
      .named "arguments" (some "arguments") 26 28 [.sign "(" 26, .sign ")" 27]],
    .sign ";" 28]

def returnBefore : Tree := .named "return_statement" none 15 22 [.sign "return" 15, .sign ";" 21]

def emptyBetween : Tree := .named "empty_statement" none 23 24 [.sign ";" 23]

/-- A block with a jump, an empty statement and a call. -/
def doubleStop : Tree :=
  .named "statement_block" (some "body") 13 31
    [.sign "\x7b" 13, returnBefore, emptyBetween, callBehind, .sign "\x7d" 30]

def doubleStopFunction : Tree :=
  .named "function_declaration" none 0 31 [
    .sign "function" 0,
    .named "identifier" (some "name") 9 10 [],
    .named "formal_parameters" (some "parameters") 10 12 [.sign "(" 10, .sign ")" 11],
    doubleStop]

def doubleStopFile : Tree := .named "program" none 0 32 [doubleStopFunction]

def doubleStopScript : Snippet where
  source := "function f() \x7b return; ; g(); \x7d\n".toList
  tree := some doubleStopFile
  language := "javascript"

/-- The block as a node of the script. -/
def doubleStopRow : Site := ⟨doubleStop, [⟨doubleStopFunction, 3⟩, ⟨doubleStopFile, 0⟩]⟩

/-- A child of the block. -/
def doubleStopChild (i : Nat) (t : Tree) : Site := ⟨t, ⟨doubleStop, i⟩ :: doubleStopRow.above⟩

/-- The call is cut off by the return, and it is not reported because of the empty statement before it. -/
theorem call_behind_empty_statement_hidden :
    IsCutOff Language.javascript.profile doubleStopRow (doubleStopChild 1 returnBefore)
        [doubleStopChild 2 emptyBetween] (doubleStopChild 3 callBehind) ∧
      unreachable Language.javascript.profile doubleStopScript = [] := by
  have hcut : IsCutOff Language.javascript.profile doubleStopRow (doubleStopChild 1 returnBefore)
      [doubleStopChild 2 emptyBetween] (doubleStopChild 3 callBehind) :=
    ⟨⟨[doubleStopChild 0 (.sign "\x7b" 13)],
        [doubleStopChild 2 emptyBetween, doubleStopChild 3 callBehind, doubleStopChild 4 (.sign "\x7d" 30)],
        [doubleStopChild 4 (.sign "\x7d" 30)],
        ⟨rfl, by decide, by decide⟩, ⟨rfl, by decide, by decide⟩⟩,
      by decide, rfl⟩
  have hrows : doubleStopScript.nodes.filter (·.hasKind Language.javascript.profile.blockKinds) =
      [doubleStopRow] := rfl
  obtain ⟨rows, -, hmem, hmatched⟩ :=
    (unreachable_match_unhidden_rows .javascript doubleStopScript).1.matched
  have hnone : rows = [] := by
    rw [List.eq_nil_iff_forall_not_mem]
    intro b hb
    obtain ⟨hnode, hkind, t, between, n, hcut', hempty⟩ := (hmem b).mp hb
    obtain rfl : b = doubleStopRow := by
      rw [← List.mem_singleton, ← hrows]
      exact List.mem_filter.mpr ⟨hnode, by simpa [Site.hasKind] using hkind⟩
    obtain ⟨-, rfl, -⟩ := hcut.unique hcut'
    exact hempty _ List.mem_cons_self ⟨rfl, rfl⟩
  rw [hnone, List.forall₂_nil_left_iff] at hmatched
  exact ⟨hcut, hmatched⟩

end Quality

end CodeAudit
