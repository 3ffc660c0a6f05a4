import CodeAudit.Proofs.Pattern.Found
import CodeAudit.Proofs.Security.Confidence
import CodeAudit.Proofs.Security.Winners
import CodeAudit.Proofs.Text.Lines
import CodeAudit.Proofs.Text.Trim
import CodeAudit.Proofs.Tree.Layout
import CodeAudit.Proofs.Tree.Nodes

/-!
# Queries that are reported

Three passes look for queries, over lines, calls and bindings, and what they find is merged by line.
Each of them is opened once here (`SplicedLine`, `SplicedCall`, `SplicedBinding`), and **a line is
reported if one of them has something in it** (`reportsLine_iff`).

*Formatting.*  A `%s` is a placeholder only in a text that is not formatted.  But a `+` beside a literal
makes a text a concatenation before its formatting is looked at, so together they hide the formatting.
A call whose arguments are formatted is reported unless they do (`formatted_call_reported_iff`).

*Placeholders.*  A call that binds its values by position is not reported.  The pass over calls reads
its arguments as a whole; the pass over lines may see a `+` in one line and not the placeholder in
another.  So a line of such a call can be reported for its text, and otherwise only for a call or a
binding that is not the call itself (`bound_call_reported_iff`).
-/

namespace CodeAudit.Security

open Pattern

/-! ## 1. What is reported -/

/-- The check for queries reports something in a line. -/
def ReportsLine (language : Language) (s : Snippet) (line : Nat) : Prop :=
  ∃ v ∈ SecurityCheck.sqlInjection.run (.grammar language) s, v.line = line

/-- A line that is reported for its own text: it puts a text with the words of a query together with
`+`, binds no value through a placeholder, and runs a query or names one. -/
structure SplicedLine (dialect : Dialect) (text : List Char) : Prop where
  plus : '+' ∈ text
  keyword : sqlKeyword.occursIn text = true
  unbound : hasPlaceholder text dialect = false
  query : queryCall.occursIn text = true ∨
    queryVariable.occursIn text = true ∧ sqlStatement.occursIn text = true

/-- A call that is reported: it runs a query, and its arguments splice a value into the words of one
and bind none through a placeholder. -/
structure SplicedCall (dialect : Dialect) (s : Snippet) (n : Site) : Prop where
  isCall : n.hasKind dialect.callKinds = true
  runsQuery : isQueryFunction (n.calleeText s.source) = true
  keyword : sqlKeyword.occursIn (n.argumentsText s.source) = true
  unbound : hasPlaceholder (n.argumentsText s.source) dialect = false
  splices : (findSplice (n.argumentsText s.source) dialect).isSome = true

/-- A binding that is reported: its value is a statement put together with `+`, without a
placeholder. -/
structure SplicedBinding (s : Snippet) (n : Site) : Prop where
  isBinding : n.hasKind bindingKinds = true
  value : ∃ value, (n.field? "right").or (n.field? "value") = some value ∧
    sqlStatement.occursIn (s.text value) = true ∧
    findSplice (s.text value) .go = some .concatenation ∧ hasPlaceholder (s.text value) .go = false

variable {language : Language} {dialect : Dialect} {s : Snippet} {n c : Site} {line : Nat}
  {text : List Char}

theorem exists_sqlLine?_iff {line' : Nat} :
    (∃ v, sqlLine? s dialect line text = some v ∧ v.line = line') ↔
      line = line' ∧ SplicedLine dialect text := by
  unfold sqlLine?
  constructor
  · rintro ⟨v, hv, rfl⟩
    split at hv
    · cases hv
    · next hskip =>
      simp only [Bool.or_eq_true, Bool.not_eq_true', List.contains_eq_mem, decide_eq_false_iff_not,
        not_or, not_not, Bool.not_eq_false, Bool.not_eq_true] at hskip
      obtain ⟨⟨hplus, hkeyword⟩, hunbound⟩ := hskip
      split at hv
      · next hcall =>
        obtain rfl := Option.some.inj hv
        exact ⟨rfl, hplus, hkeyword, hunbound, .inl hcall⟩
      · obtain ⟨hvariable, ⟨⟩⟩ := Option.ite_none_right_eq_some.mp hv
        exact ⟨rfl, hplus, hkeyword, hunbound, .inr ((Bool.and_eq_true _ _).mp hvariable)⟩
  · rintro ⟨rfl, h⟩
    rw [if_neg (by simp [h.plus, h.keyword, h.unbound])]
    split
    · exact ⟨_, rfl, rfl⟩
    · next hcall =>
      obtain ⟨hvariable, hstatement⟩ := h.query.resolve_left hcall
      rw [if_pos (by rw [hvariable, hstatement]; rfl)]
      exact ⟨_, rfl, rfl⟩

theorem exists_sqlCall?_iff :
    (∃ v, sqlCall? s dialect n = some v ∧ v.line = line) ↔
      (n.span s.source).line = line ∧ SplicedCall dialect s n := by
  unfold sqlCall?
  constructor
  · rintro ⟨v, hv, rfl⟩
    obtain ⟨hcall, hv⟩ := Option.ite_none_left_eq_some.mp hv
    obtain ⟨hskip, hv⟩ := Option.ite_none_left_eq_some.mp hv
    obtain ⟨splice, hsplice, rfl⟩ := Option.map_eq_some_iff.mp hv
    simp only [Bool.or_eq_true, Bool.not_eq_true', not_or, Bool.not_eq_false,
      Bool.not_eq_true] at hskip hcall
    exact ⟨rfl, hcall, hskip.1.1, hskip.1.2, hskip.2, by rw [hsplice]; rfl⟩
  · rintro ⟨rfl, h⟩
    obtain ⟨splice, hsplice⟩ := Option.isSome_iff_exists.mp h.splices
    rw [if_neg (by simp [h.isCall])]
    dsimp only
    rw [if_neg (by simp [h.runsQuery, h.keyword, h.unbound]), hsplice]
    exact ⟨_, rfl, rfl⟩

theorem exists_sqlAssignment?_iff :
    (∃ v, sqlAssignment? s n = some v ∧ v.line = line) ↔
      (n.span s.source).line = line ∧ SplicedBinding s n := by
  unfold sqlAssignment?
  constructor
  · rintro ⟨v, hv, rfl⟩
    obtain ⟨hkind, hv⟩ := Option.ite_none_left_eq_some.mp hv
    obtain ⟨value, hvalue, hv⟩ := Option.bind_eq_some_iff.mp hv
    obtain ⟨hcond, ⟨⟩⟩ := Option.ite_none_right_eq_some.mp hv
    simp only [Bool.and_eq_true, beq_iff_eq, Bool.not_eq_true', Bool.not_eq_false] at hcond hkind
    exact ⟨rfl, hkind, value, hvalue, hcond.1.1, hcond.1.2, hcond.2⟩
  · rintro ⟨rfl, hkind, value, hvalue, hstatement, hsplice, hunbound⟩
    rw [if_neg (by simp [hkind]), hvalue, Option.bind_some]
    dsimp only
    rw [if_pos (by simp [hstatement, hsplice, hunbound])]
    exact ⟨_, rfl, rfl⟩

/-- A line is reported for its own text. -/
def TextReported (language : Language) (s : Snippet) (line : Nat) : Prop :=
  ∃ text, (line, text) ∈ s.lines ∧ SplicedLine (Support.grammar language).dialect text

/-- A call that begins in a line is reported. -/
structure CallReported (language : Language) (s : Snippet) (line : Nat) (n : Site) : Prop where
  mem : n ∈ s.nodes
  begins : (n.span s.source).line = line
  spliced : SplicedCall (Support.grammar language).dialect s n

/-- A binding that begins in a line is reported; only one language has them looked at. -/
structure BindingReported (language : Language) (s : Snippet) (line : Nat) (n : Site) : Prop where
  language_eq : language = .go
  mem : n ∈ s.nodes
  begins : (n.span s.source).line = line
  spliced : SplicedBinding s n

/-- **What is reported in a line**: the line for its own text, or a call or a binding that begins
in it. -/
theorem reportsLine_iff : ReportsLine language s line ↔
    TextReported language s line ∨ (∃ n, CallReported language s line n) ∨
      ∃ n, BindingReported language s line n := by
  have hgo : (Support.grammar language).dialect = .go ↔ language = .go := by
    cases language <;> decide
  -- merging leaves something in each line, so only the three passes matter
  refine Vulnerability.exists_line_mergeByLine_iff.trans ?_
  constructor
  · rintro ⟨v, hv, hline⟩
    rcases List.mem_append.mp hv with hv | hv
    · rcases List.mem_append.mp hv with hv | hv
      · obtain ⟨⟨line', text⟩, hmem, hv⟩ := List.mem_filterMap.mp hv
        obtain ⟨rfl, hspliced⟩ := exists_sqlLine?_iff.mp ⟨v, hv, hline⟩
        exact .inl ⟨text, hmem, hspliced⟩
      · obtain ⟨n, hmem, hv⟩ := List.mem_filterMap.mp hv
        obtain ⟨hbegins, hspliced⟩ := exists_sqlCall?_iff.mp ⟨v, hv, hline⟩
        exact .inr (.inl ⟨n, hmem, hbegins, hspliced⟩)
    · split at hv
      · next hdialect =>
        obtain ⟨n, hmem, hv⟩ := List.mem_filterMap.mp hv
        obtain ⟨hbegins, hspliced⟩ := exists_sqlAssignment?_iff.mp ⟨v, hv, hline⟩
        exact .inr (.inr ⟨n, hgo.mp hdialect, hmem, hbegins, hspliced⟩)
      · cases hv
  · rintro (⟨text, hmem, hspliced⟩ | ⟨n, hcall⟩ | ⟨n, hbinding⟩)
    · obtain ⟨v, hv, hline⟩ := exists_sqlLine?_iff (s := s).mpr ⟨rfl, hspliced⟩
      refine ⟨v, ?_, hline⟩
      exact List.mem_append_left _ (List.mem_append_left _ (List.mem_filterMap.mpr ⟨_, hmem, hv⟩))
    · obtain ⟨v, hv, hline⟩ := exists_sqlCall?_iff.mpr ⟨hcall.begins, hcall.spliced⟩
      refine ⟨v, ?_, hline⟩
      exact List.mem_append_left _ (List.mem_append_right _ (List.mem_filterMap.mpr ⟨n, hcall.mem, hv⟩))
    · obtain ⟨v, hv, hline⟩ := exists_sqlAssignment?_iff.mpr
        ⟨hbinding.begins, hbinding.spliced⟩
      refine ⟨v, List.mem_append_right _ ?_, hline⟩
      rw [if_pos (hgo.mpr hbinding.language_eq)]
      exact List.mem_filterMap.mpr ⟨n, hbinding.mem, hv⟩

/-! ## 2. Placeholders -/

/-- A text has a placeholder by position: a question mark, or a dollar sign before a digit. -/
def IsBound (text : List Char) : Prop := '?' ∈ text ∨ ∃ d, Text.isDigit d = true ∧ ['$', d] <:+: text

theorem occursIn_placeholder_iff : placeholder.occursIn text = true ↔ IsBound text := by
  rw [occursIn_iff]
  constructor
  · rintro ⟨pre, rest, p', cs', rfl, h | ⟨q, ds, hsign, hdigits⟩⟩
    · obtain ⟨⟨hrest, -⟩, -⟩ := reaches_char h
      obtain rfl : rest = '?' :: p'.rest := hrest
      exact .inl (by simp)
    · obtain ⟨⟨hrest, -⟩, -⟩ := reaches_char hsign
      obtain rfl : rest = '$' :: q.rest := hrest
      obtain ⟨digits, hlength, -, hall, ⟨hq, -⟩, -⟩ := reaches_times_one hdigits
      obtain ⟨d, more, rfl⟩ := List.exists_cons_of_length_pos hlength
      refine .inr ⟨d, hall d List.mem_cons_self, pre, more ++ p'.rest, ?_⟩
      rw [hq]
      simp
  · rintro (hmem | ⟨d, hd, pre, rest, rfl⟩)
    · obtain ⟨pre, rest, rfl⟩ := List.append_of_mem hmem
      exact ⟨pre, '?' :: rest, _, _, rfl, .inl ⟨'?', rest, rfl, rfl, rfl, rfl⟩⟩
    · -- one digit is enough
      have hdigit : (digit.some1).Reaches ((Point.between pre ('$' :: d :: rest)).past '$' (d :: rest))
          [] _ [] :=
        ⟨1, Nat.le_refl 1, by rintro m ⟨⟩, _, _, ⟨d, rest, rfl, hd, rfl, rfl⟩, rfl, rfl⟩
      exact ⟨pre, '$' :: d :: rest, _, _, by simp,
        .inr ⟨_, _, ⟨'$', d :: rest, rfl, rfl, rfl, rfl⟩, hdigit⟩⟩

theorem hasPlaceholder_eq_false_iff :
    hasPlaceholder text dialect = false ↔
      ¬ IsBound text ∧
        (Text.mentions "%s" text = true → findSplice text dialect = some .formatting) := by
  rw [hasPlaceholder, Bool.or_eq_false_iff, ← Bool.not_eq_true, occursIn_placeholder_iff,
    Bool.and_eq_false_imp, bne_eq_false_iff_eq]

/-- A piece of a line without carriage returns. -/
theorem piece_of_return {piece : List Char} (hreturn : '\r' ∉ piece)
    (h : piece <:+: text ++ ['\r']) : piece <:+: text := by
  rcases (Text.infix_append_cons_iff hreturn).mp h with h | h
  · exact h
  · rw [List.infix_nil.mp h]
    exact ⟨[], text, rfl⟩

theorem mem_of_return {piece : List Char} {ch : Char} (hch : ch ∈ piece) (hne : ch ≠ '\r')
    (h : piece <:+: text ++ ['\r']) : ch ∈ text := by
  rcases List.mem_append.mp (h.subset hch) with hmem | hmem
  · exact hmem
  · exact absurd (List.mem_singleton.mp hmem) hne

theorem IsBound.ne_nil (h : IsBound text) : text ≠ [] := by
  rintro rfl
  rcases h with hmem | ⟨d, -, hdollar⟩
  · cases hmem
  · cases List.infix_nil.mp hdollar

theorem IsBound.of_piece {piece : List Char} (hbound : IsBound piece)
    (h : piece <:+: text ++ ['\r']) : IsBound text := by
  rcases hbound with hmem | ⟨d, hd, hdollar⟩
  · exact .inl (mem_of_return hmem (by decide) h)
  · refine .inr ⟨d, hd, piece_of_return ?_ (hdollar.trans h)⟩
    rintro (_ | ⟨_, _ | ⟨_, hnil⟩⟩)
    · exact absurd hd (by decide)
    · cases hnil

/-! ## 3. Formatting behind a sign -/

/-- A text in which formatting does not count: it mentions `%s`, and a `+` beside a literal makes it a
concatenation first. -/
structure HidesFormat (text : List Char) : Prop where
  percent : Text.mentions "%s" text = true
  plus : '+' ∈ text
  literal : hasLiteral text = true

theorem findSplice_of_formats (hdialect : dialect = .go ∨ dialect = .python)
    (h : formats dialect text = true) :
    findSplice text dialect =
      if '+' ∈ text ∧ hasLiteral text = true then some .concatenation else some .formatting := by
  unfold findSplice
  rw [h]
  rcases hdialect with rfl | rfl <;> simp

theorem HidesFormat.hasPlaceholder (h : HidesFormat text) (dialect : Dialect) :
    hasPlaceholder text dialect = true := by
  have hsplice : findSplice text dialect = some .concatenation := by
    simp [findSplice, h.plus, h.literal]
  rw [← Bool.not_eq_false, hasPlaceholder_eq_false_iff, hsplice]
  rintro ⟨-, hformats⟩
  cases hformats h.percent

theorem hasLiteral_iff :
    hasLiteral text = true ↔ '"' ∈ text ∨ '\'' ∈ text ∨ Char.ofNat 0x60 ∈ text := by
  simp [hasLiteral, or_assoc]

theorem HidesFormat.of_piece {piece : List Char} (h : HidesFormat piece)
    (hpiece : piece <:+: text ++ ['\r']) : HidesFormat text where
  percent := by
    have hmentions := Text.mentions_iff.mp h.percent
    exact Text.mentions_iff.mpr (piece_of_return (by decide) (hmentions.trans hpiece))
  plus := mem_of_return h.plus (by decide) hpiece
  literal := by
    rcases hasLiteral_iff.mp h.literal with hmem | hmem | hmem
    · exact hasLiteral_iff.mpr (.inl (mem_of_return hmem (by decide) hpiece))
    · exact hasLiteral_iff.mpr (.inr (.inl (mem_of_return hmem (by decide) hpiece)))
    · exact hasLiteral_iff.mpr (.inr (.inr (mem_of_return hmem (by decide) hpiece)))

/-- The node that the arguments of a call are read from. -/
def argumentsOf (c : Site) : Site := (c.field? "arguments").getD c

theorem text_argumentsOf (source : List Char) (c : Site) :
    (argumentsOf c).text source = c.argumentsText source := rfl

/-- If what a line has stands in for a placeholder, its text is not reported. -/
theorem not_textReported (hmem : (line, text) ∈ s.lines)
    (h : hasPlaceholder text (Support.grammar language).dialect = true) :
    ¬ TextReported language s line := by
  rintro ⟨text', hmem', hspliced⟩
  obtain rfl := Text.eq_of_mem_numberedLines hmem hmem'
  exact absurd hspliced.unbound (by rw [h]; exact Bool.false_ne_true.symm)

/-- A call that runs a query whose text is formatted, and binds nothing by position. -/
structure FormattedCall (language : Language) (s : Snippet) (c : Site) : Prop where
  language_eq : language = .go ∨ language = .python
  mem : c ∈ s.nodes
  isCall : c.hasKind (Support.grammar language).dialect.callKinds = true
  runsQuery : isQueryFunction (c.calleeText s.source) = true
  keyword : sqlKeyword.occursIn (c.argumentsText s.source) = true
  unbound : ¬ IsBound (c.argumentsText s.source)
  formats : formats (Support.grammar language).dialect (c.argumentsText s.source) = true

theorem FormattedCall.splicedCall_iff (h : FormattedCall language s c) :
    SplicedCall (Support.grammar language).dialect s c ↔ ¬ HidesFormat (c.argumentsText s.source) := by
  have hdialect : (Support.grammar language).dialect = .go ∨
      (Support.grammar language).dialect = .python := by
    rcases h.language_eq with rfl | rfl
    · exact .inl rfl
    · exact .inr rfl
  have hsplice := findSplice_of_formats hdialect h.formats
  constructor
  · intro hspliced hhides
    exact absurd hspliced.unbound (by rw [hhides.hasPlaceholder]; exact Bool.false_ne_true.symm)
  · intro hhides
    refine ⟨h.isCall, h.runsQuery, h.keyword, ?_, ?_⟩
    · refine hasPlaceholder_eq_false_iff.mpr ⟨h.unbound, fun hpercent => ?_⟩
      rw [hsplice, if_neg fun hplus => hhides ⟨hpercent, hplus.1, hplus.2⟩]
    · rw [hsplice]
      split <;> rfl

/-- **A formatted query is reported unless a `+` and a `%s` hide the formatting.**  Then the call that
runs it is passed over, and its line is reported only for its own text or for something else that
begins there; for its own text it is not reported either if the arguments stand in it. -/
theorem formatted_call_reported_iff (h : FormattedCall language s c) :
    ((sqlCall? s (Support.grammar language).dialect c).isSome = true ↔
      ¬ HidesFormat (c.argumentsText s.source)) ∧
    (ReportsLine language s (c.span s.source).line ↔
      ¬ HidesFormat (c.argumentsText s.source) ∨
      TextReported language s (c.span s.source).line ∨
      (∃ n, n ≠ c ∧ CallReported language s (c.span s.source).line n) ∨
      ∃ n, BindingReported language s (c.span s.source).line n) ∧
    (HidesFormat (c.argumentsText s.source) →
      ((argumentsOf c).span s.source).line = (c.span s.source).line →
      ((argumentsOf c).span s.source).endLine = (c.span s.source).line →
      ¬ TextReported language s (c.span s.source).line) ∧
    (∀ v ∈ SecurityCheck.sqlInjection.run (.grammar language) s, v.kind = .sqlInjection) := by
  refine ⟨?_, ?_, ?_, ?_⟩
  · rw [← h.splicedCall_iff, Option.isSome_iff_exists]
    constructor
    · rintro ⟨v, hv⟩
      exact (exists_sqlCall?_iff.mp ⟨v, hv, rfl⟩).2
    · intro hspliced
      obtain ⟨v, hv, -⟩ := exists_sqlCall?_iff.mpr ⟨rfl, hspliced⟩
      exact ⟨v, hv⟩
  · rw [reportsLine_iff, ← h.splicedCall_iff]
    constructor
    · rintro (htext | ⟨n, hcall⟩ | hbinding)
      · exact .inr (.inl htext)
      · by_cases hn : n = c
        · exact .inl (hn ▸ hcall.spliced)
        · exact .inr (.inr (.inl ⟨n, hn, hcall⟩))
      · exact .inr (.inr (.inr hbinding))
    · rintro (hspliced | htext | ⟨n, -, hcall⟩ | hbinding)
      · exact .inr (.inl ⟨c, h.mem, rfl, hspliced⟩)
      · exact .inl htext
      · exact .inr (.inl ⟨n, hcall⟩)
      · exact .inr (.inr hbinding)
  · -- a line that has all arguments in it has what hides the formatting, too
    intro hhides hfirst hlast
    rw [← text_argumentsOf] at hhides
    obtain ⟨text, hmem, hpiece⟩ :=
      Site.exists_line_of_text (List.ne_nil_of_mem hhides.plus) (hlast.trans hfirst.symm)
    rw [hfirst] at hmem
    exact not_textReported hmem ((hhides.of_piece hpiece).hasPlaceholder _)
  · intro v hv
    exact (isReport_of_mem_sqlInjections hv).kind_eq

/-! A script that is one call of `db.execute`, for both results. -/

/-- A string literal between quotes. -/
def quotedText (field : Option String) (start stop : Nat) : Tree :=
  .named "string" field start stop
    [.named "string_start" none start (start + 1) [],
      .named "string_content" none (start + 1) (stop - 1) [],
      .named "string_end" none (stop - 1) stop []]

def executeCall (stop : Nat) (arguments : List Tree) : Tree :=
  .named "call" none 0 stop
    [.named "attribute" (some "function") 0 10
      [.named "identifier" (some "object") 0 2 [], .sign "." 2,
        .named "identifier" (some "attribute") 3 10 []],
      .named "argument_list" (some "arguments") 10 stop arguments]

def executeStatement (stop : Nat) (arguments : List Tree) : Tree :=
  .named "expression_statement" none 0 stop [executeCall stop arguments]

def executeModule (stop : Nat) (arguments : List Tree) : Tree :=
  .named "module" none 0 (stop + 1) [executeStatement stop arguments]

def executeScript (source : String) (stop : Nat) (arguments : List Tree) : Snippet :=
  { source := source.toList, tree := some (executeModule stop arguments), language := "python" }

/-- The call in the script. -/
def executeSite (stop : Nat) (arguments : List Tree) : Site :=
  ⟨executeCall stop arguments,
    [⟨executeStatement stop arguments, 0⟩, ⟨executeModule stop arguments, 0⟩]⟩

theorem executeSite_mem (source : String) (stop : Nat) (arguments : List Tree) :
    executeSite stop arguments ∈ (executeScript source stop arguments).nodes := by
  have hstatement : (Site.top (executeModule stop arguments)).Within
      ⟨executeStatement stop arguments, [⟨executeModule stop arguments, 0⟩]⟩ :=
    .child (i := 0) .self rfl
  exact Snippet.mem_nodes.mpr ⟨_, rfl, .child (i := 0) hstatement rfl⟩

theorem eq_of_only_call (h : s.nodes.filter (·.hasKind ["call"]) = [c]) (hn : n ∈ s.nodes)
    (hkind : n.hasKind ["call"] = true) : n = c := by
  have hmem : n ∈ s.nodes.filter (·.hasKind ["call"]) := List.mem_filter.mpr ⟨hn, hkind⟩
  rw [h] at hmem
  exact List.mem_singleton.mp hmem

/-- The arguments `("SELECT a FROM t WHERE b = %s" % c + ";")`. -/
def hiddenArguments : List Tree :=
  [.sign "(" 10,
    .named "binary_operator" none 11 51
      [.named "binary_operator" (some "left") 11 45
        [quotedText (some "left") 11 41, .sign "%" 42 (some "operator"),
          .named "identifier" (some "right") 44 45 []],
        .sign "+" 46 (some "operator"), quotedText (some "right") 48 51],
    .sign ")" 51]

def hiddenScript : Snippet :=
  executeScript "db.execute(\"SELECT a FROM t WHERE b = %s\" % c + \";\")\n" 52 hiddenArguments

/-- The text is formatted, and nothing is reported. -/
theorem formatting_behind_plus_missed :
    FormattedCall .python hiddenScript (executeSite 52 hiddenArguments) ∧
      ¬ ReportsLine .python hiddenScript 1 := by
  have hformatted : FormattedCall .python hiddenScript (executeSite 52 hiddenArguments) := by
    refine ⟨.inr rfl, executeSite_mem _ _ _, rfl, ?_, ?_, ?_, ?_⟩
    · decide +kernel
    · decide +kernel
    · rw [← occursIn_placeholder_iff]
      decide +kernel
    · decide +kernel
  have hhides : HidesFormat ((executeSite 52 hiddenArguments).argumentsText hiddenScript.source) :=
    ⟨by decide +kernel, by decide +kernel, by decide +kernel⟩
  have honly : hiddenScript.nodes.filter (·.hasKind ["call"]) = [executeSite 52 hiddenArguments] :=
    rfl
  obtain ⟨-, hreports, htext, -⟩ := formatted_call_reported_iff hformatted
  refine ⟨hformatted, fun hreported => ?_⟩
  rcases hreports.mp hreported with hshown | hline | ⟨n, hne, hcall⟩ | ⟨n, hbinding⟩
  · exact hshown hhides
  · exact htext hhides (by decide +kernel) (by decide +kernel) hline
  · exact hne (eq_of_only_call honly hcall.mem hcall.spliced.isCall)
  · cases hbinding.language_eq

/-! ## 4. Calls that bind their values -/

/-- A character that may stand beside a call in a line: a blank or the end of a statement. -/
def isFiller (ch : Char) : Bool := Text.isSpace ch || ch == ';'

/-- The lines of a node hold nothing else than the node. -/
def Alone (source : List Char) (c : Site) : Prop :=
  ∀ i : Fin source.length,
    (c.span source).line ≤ (source.take i).count '\n' + 1 →
    (source.take i).count '\n' + 1 ≤ (c.span source).endLine →
    (Text.utf8Length (source.take i) < c.label.start ∨
      c.label.stop ≤ Text.utf8Length (source.take i)) →
    isFiller (source.get i) = true

/-- A tree as a parser makes it: nodes stand over their children, and calls and bindings begin where
their text does. -/
structure LaidOut (language : Language) (s : Snippet) : Prop where
  stands : ∀ n ∈ s.nodes, n.standsOver = true
  begins : ∀ n ∈ s.nodes,
    n.hasKind ((Support.grammar language).dialect.callKinds ++ bindingKinds) = true →
      (n.text s.source).head?.any (!isFiller ·) = true

/-- A call that runs a query and binds a value through a placeholder, with no such call inside it and
nothing beside it. -/
structure BoundCall (language : Language) (s : Snippet) (c : Site) : Prop where
  mem : c ∈ s.nodes
  isCall : c.hasKind (Support.grammar language).dialect.callKinds = true
  runsQuery : isQueryFunction (c.calleeText s.source) = true
  bound : IsBound (c.argumentsText s.source)
  only : ∀ n, c.IsAbove n → n.hasKind (Support.grammar language).dialect.callKinds = true →
    isQueryFunction (n.calleeText s.source) = false
  alone : Alone s.source c

/-- A larger node that begins with another: a call that is chained on it, say. -/
def BeginsWith (n c : Site) : Prop := n.IsAbove c ∧ n.label.start = c.label.start

theorem hasKind_append {kinds kinds' : List String} :
    n.hasKind (kinds ++ kinds') = true ↔ n.hasKind kinds = true ∨ n.hasKind kinds' = true := by
  simp [Site.hasKind]

theorem LaidOut.isLaid (h : LaidOut language s) {t : Tree} (ht : s.tree = some t) :
    (Site.top t).IsLaid :=
  fun n hn => h.stands n (Snippet.mem_nodes.mpr ⟨t, ht, hn⟩)

/-- What begins in a line of a call that stands alone begins inside the call. -/
theorem Alone.begins_inside {source : List Char} (h : Alone source c)
    (hbegins : (n.text source).head?.any (!isFiller ·) = true)
    (hfirst : (c.span source).line ≤ (n.span source).line)
    (hlast : (n.span source).line ≤ (c.span source).endLine) :
    c.label.start ≤ n.label.start ∧ n.label.start < c.label.stop ∧
      n.label.start < n.label.stop := by
  cases htext : n.text source with
  | nil =>
    rw [htext] at hbegins
    cases hbegins
  | cons ch rest =>
    have hne : n.text source ≠ [] := by
      rw [htext]
      exact List.cons_ne_nil ch rest
    obtain ⟨before, after, hsource, hstart, hstop, hline, -⟩ := Site.exists_source_eq hne
    have hget : source[before.length]? = some ch := by
      rw [hsource, htext]
      simp
    obtain ⟨hlt, hget⟩ := List.getElem?_eq_some_iff.mp hget
    have htake : source.take before.length = before := by
      rw [hsource, List.append_assoc, List.take_left]
    have hch : isFiller ch = false := by simpa [htext] using hbegins
    -- the first character of the text is no filler, so it does not stand outside the call
    have hfiller := h ⟨before.length, hlt⟩
    rw [List.get_eq_getElem, hget, hch, htake, ← hline, hstart] at hfiller
    have hinside := mt (hfiller hfirst hlast) Bool.false_ne_true
    have hpos : 0 < ch.utf8Size := ch.utf8Size_pos
    rw [Text.utf8Length_append, htext, Text.utf8Length_cons] at hstop
    omega

/-- What begins in a line of the call is the call, or stands inside it, or begins with it. -/
theorem BoundCall.near (h : BoundCall language s c) (hlaid : LaidOut language s) (hn : n ∈ s.nodes)
    (hkind : n.hasKind ((Support.grammar language).dialect.callKinds ++ bindingKinds) = true)
    (hfirst : (c.span s.source).line ≤ (n.span s.source).line)
    (hlast : (n.span s.source).line ≤ (c.span s.source).endLine) :
    n = c ∨ c.IsAbove n ∨ BeginsWith n c := by
  obtain ⟨t, ht, hnt⟩ := Snippet.mem_nodes.mp hn
  obtain ⟨t', ht', hct⟩ := Snippet.mem_nodes.mp h.mem
  obtain rfl := Option.some.inj (ht.symm.trans ht')
  obtain ⟨hstart, hstop, hpos⟩ := h.alone.begins_inside (hlaid.begins n hn hkind) hfirst hlast
  rcases (hlaid.isLaid ht).apart hnt hct with hwithin | habove | hbefore | hafter
  · exact (Site.within_iff.mp hwithin).imp_right .inl
  · obtain ⟨hle, -⟩ := ((hlaid.isLaid ht).of_within hnt).within habove.within
    exact .inr (.inr ⟨habove, Nat.le_antisymm hle hstart⟩)
  · omega
  · omega

theorem BoundCall.not_splicedCall (h : BoundCall language s c) :
    ¬ SplicedCall (Support.grammar language).dialect s c :=
  fun hspliced => (hasPlaceholder_eq_false_iff.mp hspliced.unbound).1 h.bound

/-- A placeholder in a call of one line keeps the text of the line from being reported. -/
theorem BoundCall.not_textReported (h : BoundCall language s c) (hlaid : LaidOut language s)
    (hline : (c.span s.source).line = (c.span s.source).endLine) :
    ¬ TextReported language s (c.span s.source).line := by
  obtain ⟨t, ht, hct⟩ := Snippet.mem_nodes.mp h.mem
  have hwithin : c.Within (argumentsOf c) := by
    unfold argumentsOf
    cases hfield : c.field? "arguments" with
    | none => exact .self
    | some a => exact Site.within_of_field? hfield
  obtain ⟨hfirst, hle, hlast⟩ := ((hlaid.isLaid ht).of_within hct).lines_within hwithin s.source
  have hbound : IsBound ((argumentsOf c).text s.source) := h.bound
  obtain ⟨text, hmem, hpiece⟩ := Site.exists_line_of_text hbound.ne_nil (by omega)
  rw [show ((argumentsOf c).span s.source).line = (c.span s.source).line by omega] at hmem
  apply Security.not_textReported hmem
  rw [← Bool.not_eq_false, hasPlaceholder_eq_false_iff]
  exact fun hunbound => hunbound.1 (hbound.of_piece hpiece)

/-- **A call that binds its values is not reported itself**, and its lines are reported only for their
own text, for a larger call or binding that begins with the call, or for a binding inside it.  If the
call stands in one line, that line is not reported for its text. -/
theorem bound_call_reported_iff (hlaid : LaidOut language s) (h : BoundCall language s c)
    (hfirst : (c.span s.source).line ≤ line) (hlast : line ≤ (c.span s.source).endLine) :
    sqlCall? s (Support.grammar language).dialect c = none ∧
    (ReportsLine language s line ↔
      TextReported language s line ∨
      (∃ n, BeginsWith n c ∧ CallReported language s line n) ∨
      ∃ n, (BeginsWith n c ∨ c.IsAbove n) ∧ BindingReported language s line n) ∧
    ((c.span s.source).line = (c.span s.source).endLine → ¬ TextReported language s line) := by
  refine ⟨?_, ?_, ?_⟩
  · rw [Option.eq_none_iff_forall_ne_some]
    intro v hv
    exact h.not_splicedCall (exists_sqlCall?_iff.mp ⟨v, hv, rfl⟩).2
  · rw [reportsLine_iff]
    constructor
    · rintro (htext | ⟨n, hcall⟩ | ⟨n, hbinding⟩)
      · exact .inl htext
      · obtain ⟨hmem, rfl, hspliced⟩ := hcall
        rcases h.near hlaid hmem (hasKind_append.mpr (.inl hspliced.isCall)) hfirst hlast with
          rfl | hinside | hbegins
        · exact absurd hspliced h.not_splicedCall
        · have hother := h.only n hinside hspliced.isCall
          rw [hspliced.runsQuery] at hother
          cases hother
        · exact .inr (.inl ⟨n, hbegins, hmem, rfl, hspliced⟩)
      · obtain ⟨hlanguage, hmem, rfl, hspliced⟩ := hbinding
        rcases h.near hlaid hmem (hasKind_append.mpr (.inr hspliced.isBinding)) hfirst hlast with
          rfl | hinside | hbegins
        · -- a call is no binding
          obtain rfl := hlanguage
          have hkind : n.kind = "call_expression" :=
            List.mem_singleton.mp (List.contains_iff_mem.mp h.isCall)
          exact absurd hspliced.isBinding (by rw [Site.hasKind, hkind]; decide)
        · exact .inr (.inr ⟨n, .inr hinside, hlanguage, hmem, rfl, hspliced⟩)
        · exact .inr (.inr ⟨n, .inl hbegins, hlanguage, hmem, rfl, hspliced⟩)
    · rintro (htext | ⟨n, -, hcall⟩ | ⟨n, -, hbinding⟩)
      · exact .inl htext
      · exact .inr (.inl ⟨n, hcall⟩)
      · exact .inr (.inr ⟨n, hbinding⟩)
  · intro hline
    obtain rfl : line = (c.span s.source).line := by omega
    exact h.not_textReported hlaid hline

/-- The arguments `("SELECT a FROM t " +`, a new line, and `"WHERE b = ?", (c,))`. -/
def splitArguments : List Tree :=
  [.sign "(" 10,
    .named "binary_operator" none 11 47
      [quotedText (some "left") 11 29, .sign "+" 30 (some "operator"), quotedText (some "right") 34 47],
    .sign "," 47,
    .named "tuple" none 49 53
      [.sign "(" 49, .named "identifier" none 50 51 [], .sign "," 51, .sign ")" 52],
    .sign ")" 53]

def splitScript : Snippet :=
  executeScript "db.execute(\"SELECT a FROM t \" +\n  \"WHERE b = ?\", (c,))\n" 54 splitArguments

/-- The call binds its value in its second line, and its first line is reported. -/
theorem placeholder_in_next_line_overlooked :
    LaidOut .python splitScript ∧ BoundCall .python splitScript (executeSite 54 splitArguments) ∧
      ReportsLine .python splitScript 1 := by
  have hlaid : LaidOut .python splitScript := ⟨by decide +kernel, by decide +kernel⟩
  have honly : splitScript.nodes.filter (·.hasKind ["call"]) = [executeSite 54 splitArguments] := rfl
  have hbound : BoundCall .python splitScript (executeSite 54 splitArguments) := by
    refine ⟨executeSite_mem _ _ _, rfl, ?_, ?_, ?_, ?_⟩
    · decide +kernel
    · exact .inl (by decide +kernel)
    · intro n hinside hkind
      obtain ⟨t, ht, hcall⟩ := Snippet.mem_nodes.mp (executeSite_mem _ 54 splitArguments)
      have hn : n ∈ splitScript.nodes :=
        Snippet.mem_nodes.mpr ⟨t, ht, hcall.trans hinside.within⟩
      obtain rfl := eq_of_only_call honly hn hkind
      exact absurd hinside Site.Within.self.not_isAbove
    · unfold Alone
      decide +kernel
  have hline : TextReported .python splitScript 1 := by
    refine ⟨"db.execute(\"SELECT a FROM t \" +".toList, ?_, ?_, ?_, ?_, ?_⟩
    · decide +kernel
    · decide +kernel
    · decide +kernel
    · decide +kernel
    · exact .inl (by decide +kernel)
  have hfirst : ((executeSite 54 splitArguments).span splitScript.source).line ≤ 1 := by
    decide +kernel
  have hlast : 1 ≤ ((executeSite 54 splitArguments).span splitScript.source).endLine := by
    decide +kernel
  obtain ⟨-, hreports, -⟩ := bound_call_reported_iff hlaid hbound hfirst hlast
  exact ⟨hlaid, hbound, hreports.mpr (.inl hline)⟩

end CodeAudit.Security
