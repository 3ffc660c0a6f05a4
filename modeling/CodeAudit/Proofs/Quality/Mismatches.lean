import CodeAudit.Proofs.Quality.Listing
import CodeAudit.Proofs.Tree.Outermost
import CodeAudit.Quality.Delimiter
import Mathlib

/-!
# No error of a parser is passed over

The check for mismatched delimiters walks from error to error: below an error it does not go on, and where
the parser has not flagged a node it does not look below that node; if the top is not flagged, it does not
look at all.  What it reports so depends on the flags at every depth.

Main statement: if the flags are set on the nodes that have an error in their subtree, **there is one
finding for each outermost error and no other** (`mismatches_match_outermost_errors`), and the list is that
of a scan of the whole tree that looks at no flag.  Less is needed of the flags: nothing hangs on the flag
of an error itself, or of a node without errors below, the top apart (`FlagsErrors`).
-/

namespace CodeAudit.Quality

variable {s : Snippet} {n m : Site}

/-- The nodes that have an error in their subtree are flagged, and no others. -/
def FlagsExactly (s : Snippet) : Prop :=
  ∀ n ∈ s.nodes, n.label.hasError = true ↔ ∃ m, n.Within m ∧ isErrorNode m = true

/-- The flags lead to every error: a node with an error below it is flagged, and the top also if it is one
itself. -/
structure FlagsErrors (s : Snippet) : Prop where
  above : ∀ n ∈ s.nodes, ∀ m, n.IsAbove m → isErrorNode m = true → n.label.hasError = true
  top : ∀ r, s.root? = some r → isErrorNode r = true → r.label.hasError = true

/-- The delimiter that is blamed for the errors of a snippet. -/
def blamed (s : Snippet) : Delimiter := Delimiter.guess s.source s.language

/-- A finding about an error: it stands where the error stands and names the delimiter to blame.  A token
that is missing has no text to show. -/
structure Blames (s : Snippet) (n : Site) (f : Finding) : Prop where
  kind_eq : f.kind = .braceMismatch
  severity_eq : f.severity = .error
  span_eq : f.span = n.span s.source
  code_eq : f.code = if n.label.missing then s!"missing {n.kind}" else String.ofList (n.text s.source)
  message_eq : f.message =
    s!"Parse error detected in {s.language} code - likely mismatched {(blamed s).name}"

/-- The finding for an error of a snippet. -/
def errorFinding (s : Snippet) (n : Site) : Finding := mismatchFinding s (blamed s) n

theorem blames_errorFinding (s : Snippet) (n : Site) : Blames s n (errorFinding s n) := by
  unfold errorFinding mismatchFinding
  cases hmissing : n.label.missing with
  | false => exact ⟨rfl, rfl, rfl, (if_neg (by simp [hmissing])).symm, rfl⟩
  | true => exact ⟨rfl, rfl, rfl, (if_pos hmissing).symm, rfl⟩

/-! ## 1. The walk -/

/-- What the walk picks at a node, and whether it goes on below. -/
def errorAt (s : Snippet) (n : Site) : List Finding × Bool :=
  if isErrorNode n then ([errorFinding s n], false) else ([], n.label.hasError)

theorem mismatches_of_tree {t : Tree} (ht : s.tree = some t) :
    mismatches s =
      if t.label.hasError then Finding.sort ((Site.top t).gather (errorAt s)) else [] := by
  have hroot : s.root? = some (Site.top t) := by rw [Snippet.root?, ht, Option.map_some]
  have hlabel : (Site.top t).label = t.label := rfl
  simp only [mismatches, hroot, hlabel]
  cases t.label.hasError <;> rfl

/-- At an error the walk picks one finding, elsewhere none. -/
theorem fst_errorAt (s : Snippet) (n : Site) :
    (errorAt s n).1 = if isErrorNode n then [errorFinding s n] else [] := by
  unfold errorAt
  split <;> rfl

theorem gather_errorAt {t : Tree} (ht : s.tree = some t) (hflags : FlagsErrors s) :
    (Site.top t).gather (errorAt s) = (s.outermost isErrorNode).map (errorFinding s) := by
  have hgather : (Site.top t).gather (errorAt s) =
      (s.outermost isErrorNode).flatMap fun n => (errorAt s n).1 := by
    refine Site.gather_eq_outermost ht ?_ ?_ ?_
    · intro n _ hn
      simp [errorAt, hn]
    · intro n _ hn
      simp [errorAt, hn]
    · rintro n hmem hn ⟨m, habove, hm⟩
      simpa [errorAt, hn] using hflags.above n hmem m habove hm
  rw [hgather, ← List.flatMap_pure_eq_map]
  refine List.flatMap_congr fun n hn => ?_
  rw [fst_errorAt, if_pos (Snippet.mem_outermost.mp hn).holds]
  rfl

/-- **The walk along the flags lists what a scan of all nodes lists.** -/
theorem mismatches_eq_sort_outermost (hflags : FlagsErrors s) :
    mismatches s = Finding.sort ((s.outermost isErrorNode).map (errorFinding s)) := by
  cases ht : s.tree with
  | none => simp [mismatches, Snippet.root?, Snippet.outermost, Snippet.nodes, ht, Finding.sort]
  | some t =>
    rw [mismatches_of_tree ht]
    split
    · rw [gather_errorAt ht hflags]
    · next htop =>
      -- the top is above everything, so without its flag there is no error at all
      have hempty : s.outermost isErrorNode = [] := by
        rw [List.eq_nil_iff_forall_not_mem]
        intro n hn
        obtain ⟨hmem, herror, -⟩ := Snippet.mem_outermost.mp hn
        obtain ⟨t', ht', hwithin⟩ := Snippet.mem_nodes.mp hmem
        obtain rfl := Option.some.inj (ht.symm.trans ht')
        rcases Site.within_iff.mp hwithin with rfl | habove
        · exact htop (hflags.top _ (by simp [Snippet.root?, ht]) herror)
        · exact htop (hflags.above _ (Snippet.mem_nodes.mpr ⟨t, ht, .self⟩) n habove herror)
      simp [hempty, Finding.sort]

/-! ## 2. One finding for each outermost error -/

theorem FlagsExactly.flagsErrors (h : FlagsExactly s) : FlagsErrors s where
  above n hn m habove hm := (h n hn).mpr ⟨m, habove.within, hm⟩
  top r hr hroot := by
    have hmem : r ∈ s.nodes := by
      simp [Snippet.nodes, hr, Site.mem_nodes, Site.Within.self]
    exact (h r hmem).mpr ⟨r, .self, hroot⟩

/-- **There is one finding for each error or missing token that is in no other, and no other finding**;
the list is that of a scan of the whole tree for the outermost errors. -/
theorem mismatches_match_outermost_errors (s : Snippet) (hflags : FlagsExactly s) :
    Finding.OneForEach (s.IsOutermost fun n => isErrorNode n = true) (Blames s) (mismatches s) ∧
      mismatches s = Finding.sort ((s.outermost isErrorNode).map (errorFinding s)) := by
  have hscan := mismatches_eq_sort_outermost hflags.flagsErrors
  refine ⟨?_, hscan⟩
  rw [hscan]
  exact Finding.oneForEach_sort (s.nodup_outermost isErrorNode) (fun n => Snippet.mem_outermost)
    fun n _ => blames_errorFinding s n

/-- Whether a node is flagged exactly if its subtree has an error can be computed. -/
theorem flagsExactly_iff :
    FlagsExactly s ↔ ∀ n ∈ s.nodes, n.label.hasError = n.nodes.any isErrorNode := by
  refine forall₂_congr fun n _ => ?_
  have hany : n.nodes.any isErrorNode = true ↔ ∃ m, n.Within m ∧ isErrorNode m = true := by
    simp only [List.any_eq_true, Site.mem_nodes]
  rw [← hany]
  exact Bool.eq_iff_iff.symm

/-- A parenthesis too many, and one that is missing further below. -/
def strayParenthesis : Snippet where
  source := "package main\n\nfunc ) main ( \x7b\x7d\n".toList
  tree := some <| .node ⟨"source_file", none, true, false, false, false, true, 0, 31⟩ [
    .named "package_clause" none 0 12 [
      .sign "package" 0, .named "package_identifier" none 8 12 []],
    .node ⟨"function_declaration", none, true, false, false, false, true, 14, 30⟩ [
      .sign "func" 14,
      .node ⟨"ERROR", none, true, false, true, true, true, 19, 20⟩ [.sign ")" 19],
      .named "identifier" (some "name") 21 25 [],
      .node ⟨"parameter_list", some "parameters", true, false, false, false, true, 26, 27⟩ [
        .sign "(" 26,
        .node ⟨")", none, false, true, false, false, true, 27, 27⟩ []],
      .named "block" (some "body") 28 30 [.sign "\x7b" 28, .sign "\x7d" 29]]]
  language := "go"

theorem stray_parenthesis_blamed :
    FlagsExactly strayParenthesis ∧
    Finding.OneForEach (strayParenthesis.IsOutermost fun n => isErrorNode n = true)
      (Blames strayParenthesis) (mismatches strayParenthesis) ∧
    (strayParenthesis.outermost isErrorNode).map Site.kind = ["ERROR", ")"] := by
  have hflags : FlagsExactly strayParenthesis := flagsExactly_iff.mpr (by decide +kernel)
  exact ⟨hflags, (mismatches_match_outermost_errors _ hflags).1, by decide +kernel⟩

end CodeAudit.Quality
