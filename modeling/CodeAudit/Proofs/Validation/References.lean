import CodeAudit.Proofs.Pattern.Found
import CodeAudit.Proofs.Search.Answers

/-!
# Which references are seen

A function is orphaned if no other file refers to it.  To find that out a check looks for its name
between two edges of a word, or before an opening parenthesis.  In scripts a name may also hold dollar
signs, and **a dollar sign is no character of a word**: next to a blank it has no edge.

So the check does not see a name that stands on a line by itself (`StandsOn`), but one that has the
right edges (`Seen`, `seen_iff`).  For a name both of whose ends are characters of a word the second
follows from the first (`StandsOn.seen`).  For a name that begins or ends with a dollar sign it does
not, and a project whose other file holds the bare name is missed (`not_seen_self`); hence the
condition on the ends of the name is exact (`references_found_iff_word_ends`).
-/

namespace CodeAudit.Reference

open Pattern

/-! ## 1. Names on a line -/

/-- A character that names of scripts are made of. -/
def isIdentifierChar (c : Char) : Bool := Text.isWord c || c == '$'

/-- A name of a script: letters, digits, underscores and dollar signs, with no digit in front. -/
structure IsIdentifier (name : List Char) : Prop where
  nonempty : name ≠ []
  chars : ∀ c ∈ name, isIdentifierChar c = true
  start : ∀ c, name.head? = some c → Text.isDigit c = false

/-- A name stands on a line with no character of a name directly before or after it. -/
def StandsOn (name line : List Char) : Prop :=
  ∃ pre post, line = pre ++ name ++ post ∧ pre.getLast?.any isIdentifierChar = false ∧
    post.head?.any isIdentifierChar = false

/-- A word begins or ends between two texts. -/
def EdgeBetween (pre post : List Char) : Prop :=
  pre.getLast?.any Text.isWord ≠ post.head?.any Text.isWord

/-- A text goes on with blanks, if any, and an opening parenthesis. -/
def Opens (post : List Char) : Prop :=
  ∃ blanks rest, post = blanks ++ '(' :: rest ∧ ∀ c ∈ blanks, Text.isSpace c = true

/-- A name stands on a line where a word begins or ends, and then there is such an edge again or an
argument list begins. -/
def Seen (name line : List Char) : Prop :=
  ∃ pre post, line = pre ++ name ++ post ∧ EdgeBetween pre (name ++ post) ∧
    (EdgeBetween (pre ++ name) post ∨ Opens post)

/-! ## 2. What the queries find -/

theorem reaches_wordEdge_iff {pre post : List Char} {p' : Point} {cs cs' : List Capture} :
    wordEdge.Reaches (.between pre post) cs p' cs' ↔
      EdgeBetween pre post ∧ p' = .between pre post ∧ cs' = cs := by
  simp [Reaches, Point.atWordEdge, Point.between, EdgeBetween, bne_iff_ne]

/-- A name between two edges. -/
theorem occursIn_word_iff {name : String} {line : List Char} :
    (Query.word name).pattern.occursIn line = true ↔
      ∃ pre post, line = pre ++ name.toList ++ post ∧ EdgeBetween pre (name.toList ++ post) ∧
        EdgeBetween (pre ++ name.toList) post := by
  rw [occursIn_iff]
  constructor
  · rintro ⟨pre, rest, p', cs', rfl, q, ds, hedge, q', ds', hname, hend⟩
    obtain ⟨hfirst, rfl, rfl⟩ := reaches_wordEdge_iff.mp hedge
    obtain ⟨post, rfl, rfl, rfl⟩ : ∃ post, rest = name.toList ++ post ∧ _ := reaches_exact_iff.mp hname
    rw [Point.between_after] at hend
    obtain ⟨hlast, -, -⟩ := reaches_wordEdge_iff.mp hend
    exact ⟨pre, post, (List.append_assoc ..).symm, hfirst, hlast⟩
  · rintro ⟨pre, post, rfl, hfirst, hlast⟩
    have hname : (Pattern.word name).Reaches (.between pre (name.toList ++ post)) []
        (.between (pre ++ name.toList) post) [] :=
      reaches_exact_iff.mpr ⟨post, rfl, (Point.between_after ..).symm, rfl⟩
    exact ⟨pre, _, _, [], List.append_assoc .., _, [], reaches_wordEdge_iff.mpr ⟨hfirst, rfl, rfl⟩,
      _, [], hname, reaches_wordEdge_iff.mpr ⟨hlast, rfl, rfl⟩⟩

/-- A name after an edge and before an opening parenthesis. -/
theorem occursIn_call_iff {name : String} {line : List Char} :
    (Query.call name).pattern.occursIn line = true ↔
      ∃ pre post, line = pre ++ name.toList ++ post ∧ EdgeBetween pre (name.toList ++ post) ∧
        Opens post := by
  rw [occursIn_iff]
  constructor
  · rintro ⟨pre, rest, p', cs', rfl, q, ds, hedge, q', ds', hname, q'', ds'', hblanks, hopen⟩
    obtain ⟨hfirst, rfl, rfl⟩ := reaches_wordEdge_iff.mp hedge
    obtain ⟨post, rfl, rfl, rfl⟩ : ∃ post, rest = name.toList ++ post ∧ _ := reaches_exact_iff.mp hname
    rw [Point.between_after] at hblanks
    obtain ⟨blanks, rest, hspace, rfl, rfl, rfl⟩ : ∃ blanks rest, _ ∧ post = blanks ++ rest ∧ _ :=
      reaches_many_one_iff.mp hblanks
    obtain ⟨⟨hrest, -⟩, -⟩ := reaches_char hopen
    obtain rfl : rest = '(' :: p'.rest := hrest
    exact ⟨pre, _, (List.append_assoc ..).symm, hfirst, blanks, _, rfl, hspace⟩
  · rintro ⟨pre, post, rfl, hfirst, blanks, rest, rfl, hspace⟩
    have hname : (Pattern.word name).Reaches (.between pre (name.toList ++ (blanks ++ '(' :: rest))) []
        (.between (pre ++ name.toList) (blanks ++ '(' :: rest)) [] :=
      reaches_exact_iff.mpr ⟨_, rfl, (Point.between_after ..).symm, rfl⟩
    have hblanks : spaces.Reaches (.between (pre ++ name.toList) (blanks ++ '(' :: rest)) []
        (.between (pre ++ name.toList ++ blanks) ('(' :: rest)) [] :=
      reaches_many_one_iff.mpr ⟨blanks, _, hspace, rfl, (Point.between_after ..).symm, rfl⟩
    have hopen : (char '(').Reaches (.between (pre ++ name.toList ++ blanks) ('(' :: rest)) [] _ [] :=
      ⟨'(', rest, rfl, rfl, rfl, rfl⟩
    exact ⟨pre, _, _, [], List.append_assoc .., _, [], reaches_wordEdge_iff.mpr ⟨hfirst, rfl, rfl⟩,
      _, [], hname, _, [], hblanks, hopen⟩

/-- **The two queries of a check see a name between the right edges.** -/
theorem seen_iff {name : String} {line : List Char} :
    (∃ q ∈ [Query.call name, Query.word name], q.pattern.occursIn line = true) ↔
      Seen name.toList line := by
  simp only [List.mem_cons, List.not_mem_nil, or_false, exists_eq_or_imp, exists_eq_left,
    occursIn_word_iff, occursIn_call_iff]
  constructor
  · rintro (⟨pre, post, hline, hfirst, hopens⟩ | ⟨pre, post, hline, hfirst, hlast⟩)
    · exact ⟨pre, post, hline, hfirst, .inr hopens⟩
    · exact ⟨pre, post, hline, hfirst, .inl hlast⟩
  · rintro ⟨pre, post, hline, hfirst, hlast | hopens⟩
    · exact .inr ⟨pre, post, hline, hfirst, hlast⟩
    · exact .inl ⟨pre, post, hline, hfirst, hopens⟩

/-! ## 3. The ends of a name -/

variable {name line : List Char}

theorem isWord_of_ne_dollar {c : Char} (h : isIdentifierChar c = true) (hne : c ≠ '$') :
    Text.isWord c = true := by
  simpa [isIdentifierChar, hne] using h

theorem any_isWord_of_any_isIdentifierChar {o : Option Char} (h : o.any isIdentifierChar = false) :
    o.any Text.isWord = false := by
  cases o with
  | none => rfl
  | some c =>
    have hc : (Text.isWord c || c == '$') = false := h
    exact (Bool.or_eq_false_iff.mp hc).1

/-- **A name that begins and ends like a word is seen wherever it stands by itself.** -/
theorem StandsOn.seen (h : StandsOn name line) (hname : IsIdentifier name)
    (hfirst : name.head? ≠ some '$') (hlast : name.getLast? ≠ some '$') : Seen name line := by
  obtain ⟨pre, post, hline, hpre, hpost⟩ := h
  have hpre' := any_isWord_of_any_isIdentifierChar hpre
  have hpost' := any_isWord_of_any_isIdentifierChar hpost
  refine ⟨pre, post, hline, ?_, .inl ?_⟩
  · obtain ⟨c, rest, rfl⟩ := List.exists_cons_of_ne_nil hname.nonempty
    have hc := isWord_of_ne_dollar (hname.chars c List.mem_cons_self) (by simpa using hfirst)
    simp [EdgeBetween, hpre', hc]
  · obtain ⟨init, c, rfl⟩ := (List.eq_nil_or_concat' name).resolve_left hname.nonempty
    have hc := isWord_of_ne_dollar (hname.chars c (by simp)) (by simpa using hlast)
    simp [EdgeBetween, hpost', hc]

/-- **A name that begins or ends with a dollar sign is not seen on a line that holds nothing
else.** -/
theorem not_seen_self (h : name.head? = some '$' ∨ name.getLast? = some '$') : ¬ Seen name name := by
  have hdollar : Text.isWord '$' = false := by decide
  rintro ⟨pre, post, hline, hfirst, hlast⟩
  -- the line has room for the name only
  obtain ⟨rfl, rfl⟩ : pre = [] ∧ post = [] := by
    have hlength := congrArg List.length hline
    simp only [List.length_append] at hlength
    exact ⟨List.length_eq_zero_iff.mp (by omega), List.length_eq_zero_iff.mp (by omega)⟩
  rw [List.append_nil] at hfirst
  rw [List.nil_append] at hlast
  rcases h with h | h
  · simp [EdgeBetween, h, hdollar] at hfirst
  · rcases hlast with hedge | ⟨blanks, rest, hnil, -⟩
    · simp [EdgeBetween, h, hdollar] at hedge
    · simp at hnil

/-! ## 4. The check -/

/-- A check of whether a function of a name is orphaned, through a cache that can be asked instead of
the disk. -/
structure OrphanCheck (name : String) where
  scope : Scope
  moment : Nat → Instant
  job : Job
  cache : SearchCache
  kind : job.kind = .orphanedCode
  named : job.name = name
  faithful : cache.Faithful scope.disk scope.filter scope.root job.queries
  fits : ∀ k, SearchCache.Fits cache.ttlSecs (moment k)

namespace OrphanCheck

variable {name : String}

/-- The check comes to the result that the name is in use, which leaves no confidence. -/
def Finds (check : OrphanCheck name) : Prop :=
  ∃ e, (Check.run check.scope check.moment check.job check.cache).1 = .ok e ∧
    e.foundInCodebase = true ∧ ∀ c, Confidence.base c check.job.kind e = 0.0

/-- **A check finds a name if another file has a line on which it is seen.** -/
theorem finds_iff (check : OrphanCheck name) :
    check.Finds ↔ check.scope.HasLine (Seen name.toList) := by
  have hqueries : check.job.queries = [.call name, .word name] := by
    simp [Job.queries, check.kind, check.named]
  have hfound := @Check.exists_found_iff check.scope check.job (by rw [check.kind]; rfl)
  simp only [hqueries, seen_iff] at hfound
  rw [← hfound, Finds, check.faithful.run check.fits]
  constructor
  · rintro ⟨e, he, hfound, -⟩
    exact ⟨e, he, hfound⟩
  · rintro ⟨e, he, hfound⟩
    refine ⟨e, he, hfound, fun c => ?_⟩
    simp [Confidence.base, check.kind, hfound]

end OrphanCheck

/-! ## 5. A name in a file of its own -/

theorem linesFrom_of_not_mem {s : List Char} (h : '\n' ∉ s) (line : List Char) (hne : line ++ s ≠ []) :
    Text.linesFrom line s = [line.reverse ++ s] := by
  induction s generalizing line with
  | nil => simp_all [Text.linesFrom]
  | cons c s ih =>
    have hc : c ≠ '\n' := by
      rintro rfl
      exact h List.mem_cons_self
    rw [Text.linesFrom, if_neg hc, ih (fun hs => h (List.mem_cons_of_mem c hs)) _ (by simp)]
    simp

/-- A name is one line. -/
theorem IsIdentifier.lines {name : List Char} (h : IsIdentifier name) : Text.lines name = [name] := by
  refine linesFrom_of_not_mem (fun hfeed => ?_) [] (by simpa using h.nonempty)
  have hchar := h.chars '\n' hfeed
  exact absurd hchar (by decide)

/-- A project of two scripts that hold nothing but a name. -/
def bareName (name : String) : Disk where
  top := .directory [("p", .directory
    [("a.js", .file name.toUTF8), ("b.js", .file name.toUTF8)])]
  workingDirectory := []

/-- The check of the second of the two scripts. -/
def checkBareName (name : String) : OrphanCheck name where
  scope :=
    { disk := bareName name
      file := .ofNames ["p", "b.js"]
      root := .ofNames ["p"]
      language := some .javascript
      filter := ⟨[], []⟩ }
  moment := fun _ => 0
  job := ⟨0, .orphanedCode, 1, name⟩
  cache := .new 0
  kind := rfl
  named := rfl
  faithful := .empty
  fits := fun _ => .inl rfl

theorem readText_bareName (name : String) :
    (bareName name).readText (.ofNames ["p", "a.js"]) = .ok name :=
  Disk.readText_of_readBytes rfl

/-- The one line outside of the second script is the name. -/
theorem hasLine_checkBareName {name : String} (hname : IsIdentifier name.toList)
    {P : List Char → Prop} : (checkBareName name).scope.HasLine P ↔ P name.toList := by
  have hfiles : sourceFiles (bareName name) ⟨[], []⟩ ((bareName name).canonical (.ofNames ["p"])) =
      .ok [.ofNames ["p", "a.js"], .ofNames ["p", "b.js"]] := rfl
  constructor
  · rintro ⟨files, hfiles', file, hfile, hother, text, htext, line, hline, hP⟩
    obtain rfl := Except.ok.inj (hfiles.symm.trans hfiles')
    rcases List.mem_cons.mp hfile with rfl | hfile
    · obtain rfl := Except.ok.inj ((readText_bareName name).symm.trans htext)
      rw [hname.lines, List.mem_singleton] at hline
      exact hline ▸ hP
    · -- the second script is the one that is left out
      obtain rfl := List.mem_singleton.mp hfile
      cases hother
  · intro hP
    refine ⟨_, hfiles, _, List.mem_cons_self, rfl, name, readText_bareName name, name.toList, ?_, hP⟩
    rw [hname.lines]
    exact List.mem_singleton_self _

theorem standsOn_self (name : List Char) : StandsOn name name := ⟨[], [], by simp, rfl, rfl⟩

/-! ## 6. References that are found -/

/-- **No reference to a name is missed if the name neither begins nor ends with a dollar sign, and
only then.**  In any case a check finds the name, so that no confidence is left, if the name is seen on
a line of a searched file other than the one that the finding is from; a name that stands by itself on
such a line is sure to be seen only with a character of a word at both of its ends. -/
theorem references_found_iff_word_ends {name : String} (hname : IsIdentifier name.toList) :
    (∀ check : OrphanCheck name, check.Finds ↔ check.scope.HasLine (Seen name.toList)) ∧
    ((∀ check : OrphanCheck name, check.scope.HasLine (StandsOn name.toList) → check.Finds) ↔
      name.toList.head? ≠ some '$' ∧ name.toList.getLast? ≠ some '$') := by
  refine ⟨OrphanCheck.finds_iff, ?_, ?_⟩
  · intro hall
    have hstands := (hasLine_checkBareName hname).mpr (standsOn_self name.toList)
    have hseen := (checkBareName name).finds_iff.mp (hall _ hstands)
    rw [hasLine_checkBareName hname] at hseen
    refine ⟨fun hfirst => ?_, fun hlast => ?_⟩
    · exact not_seen_self (.inl hfirst) hseen
    · exact not_seen_self (.inr hlast) hseen
  · rintro ⟨hfirst, hlast⟩ check hline
    exact check.finds_iff.mpr (hline.imp fun line h => h.seen hname hfirst hlast)

/-- The other script calls for the function by its bare name, and the check does not find it. -/
theorem dollar_name_missed :
    IsIdentifier "$go".toList ∧ (checkBareName "$go").scope.HasLine (StandsOn "$go".toList) ∧
      ¬ (checkBareName "$go").Finds := by
  have hname : IsIdentifier "$go".toList := {
    nonempty := by decide
    chars := List.all_eq_true.mp (by decide)
    start := fun _ hc => Option.some.inj hc ▸ rfl }
  refine ⟨hname, (hasLine_checkBareName hname).mpr (standsOn_self _), ?_⟩
  rw [(references_found_iff_word_ends hname).1, hasLine_checkBareName hname]
  exact not_seen_self (.inl rfl)

end CodeAudit.Reference
