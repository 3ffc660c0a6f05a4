import CodeAudit.Proofs.Text.Trim
import CodeAudit.Proofs.Tree.Nodes
import CodeAudit.Security.Scripting

/-!
# Quotes inside templates

Literals are emptied before a value is judged, and templates are meant to be left as they are, since
the substitutions in them are code.  The scan, however, knows two states only, outside of a literal
and inside one, and a backtick changes neither: inside a template a quote still opens a literal, and
what follows it is left out up to the next quote of its kind, or up to the end.

Here a text is read with templates as a third state (`Reading`), which says where its templates are
(`TemplateIn`), and what the scan shows of each part (`shown`) is compared with it.

* **A template is shown whole iff the scan finds it outside of literals and each quote in it is
  closed right away** (`shown_template_iff`, `QuotesEmpty`).
* **All templates of a text are shown whole iff the quotes in all of them are closed right away**
  (`all_shown_iff`): as long as this holds, the scan and the reading stay in step
  (`scanEnd_of_readingEnd`).
* For a sink the consequence is that a substitution is seen where the scan stands outside of
  literals, and nowhere else; an apostrophe in front of it is enough to hide it.
-/

namespace CodeAudit.Text

/-! ## 1. What the scan shows -/

theorem scanEnd_append (state : Scan) (s t : List Char) :
    scanEnd state (s ++ t) = scanEnd (scanEnd state s) t := by
  induction s generalizing state with
  | nil => rfl
  | cons c s ih => exact ih _

theorem length_stripFrom_le (state : Scan) (s : List Char) :
    (stripFrom state s).length ≤ s.length := by
  induction s generalizing state with
  | nil => exact Nat.le_refl _
  | cons c s ih =>
    have hrest := ih (state.step c).1
    simp only [stripFrom]
    split
    · exact Nat.succ_le_succ hrest
    · exact Nat.le_succ_of_le hrest

/-- A text is left as it is iff its first character is kept and so is the rest. -/
theorem stripFrom_cons_eq_iff {state : Scan} {c : Char} {s : List Char} :
    stripFrom state (c :: s) = c :: s ↔
      (state.step c).2 = true ∧ stripFrom (state.step c).1 s = s := by
  simp only [stripFrom]
  split
  next hkept => simp [hkept]
  next hkept =>
    have hlength := length_stripFrom_le (state.step c).1 s
    refine ⟨fun h => ?_, fun h => absurd h.1 hkept⟩
    rw [h, List.length_cons] at hlength
    omega

theorem stripFrom_append_eq_iff {state : Scan} {s t : List Char} :
    stripFrom state (s ++ t) = s ++ t ↔
      stripFrom state s = s ∧ stripFrom (scanEnd state s) t = t := by
  induction s generalizing state with
  | nil => exact ⟨fun h => ⟨rfl, h⟩, fun h => h.2⟩
  | cons c s ih =>
    rw [List.cons_append, stripFrom_cons_eq_iff, stripFrom_cons_eq_iff, ih, and_assoc]
    rfl

/-- A literal is one that a quote has opened. -/
def Scan.Opened : Scan → Prop
  | .code => True
  | .literal q _ => isQuote q = true

theorem Scan.Opened.step {state : Scan} (h : state.Opened) (c : Char) :
    (state.step c).1.Opened := by
  fun_cases Scan.step state c
  case case1 => cases hc : isQuote c <;> simp [Scan.Opened, hc]
  case case4 => trivial
  all_goals exact h

theorem Scan.Opened.scanEnd {state : Scan} (h : state.Opened) (s : List Char) :
    (scanEnd state s).Opened := by
  induction s generalizing state with
  | nil => exact h
  | cons c s ih => exact ih (h.step c)

/-- What is no quote is kept outside of literals and nowhere else. -/
theorem Scan.Opened.kept_iff {state : Scan} (h : state.Opened) {c : Char} (hc : isQuote c = false) :
    (state.step c).2 = true ↔ state = .code := by
  fun_cases Scan.step state c <;> simp_all [Scan.Opened]

theorem Scan.step_code {c : Char} (hc : isQuote c = false) : (Scan.code.step c).1 = .code := by
  simp [Scan.step, hc]

/-! ## 2. Quotes that hold nothing -/

/-- Every quote is closed right away by the same quote. -/
inductive QuotesEmpty : List Char → Prop
  | nil : QuotesEmpty []
  | plain {c : Char} {s : List Char} : isQuote c = false → QuotesEmpty s → QuotesEmpty (c :: s)
  | pair {q : Char} {s : List Char} : isQuote q = true → QuotesEmpty s → QuotesEmpty (q :: q :: s)

/-- A quote opens a literal that the same quote closes, and both are kept. -/
theorem Scan.step_pair {q : Char} (hq : isQuote q = true) :
    Scan.code.step q = (.literal q false, true) ∧
      (Scan.literal q false).step q = (.code, true) := by
  have hslash : q ≠ '\\' := by
    rintro rfl
    exact absurd hq (by decide)
  simp [Scan.step, hq, hslash]

/-- The first character in a literal is kept iff it closes it. -/
theorem Scan.kept_literal_iff {q c : Char} (hq : isQuote q = true) :
    ((Scan.literal q false).step c).2 = true ↔ c = q := by
  have hslash : q ≠ '\\' := by
    rintro rfl
    exact absurd hq (by decide)
  simp only [Scan.step]
  split
  next hc => simp [hc, hslash.symm]
  next => split <;> simp_all

theorem QuotesEmpty.stripFrom_eq {s : List Char} (h : QuotesEmpty s) :
    stripFrom .code s = s ∧ scanEnd .code s = .code := by
  induction h with
  | nil => exact ⟨rfl, rfl⟩
  | @plain c s hc _ ih =>
    rw [stripFrom_cons_eq_iff, scanEnd, Scan.step_code hc]
    exact ⟨⟨rfl, ih.1⟩, ih.2⟩
  | @pair q s hq _ ih =>
    obtain ⟨hopen, hclose⟩ := Scan.step_pair hq
    rw [stripFrom_cons_eq_iff, stripFrom_cons_eq_iff, scanEnd, scanEnd, hopen, hclose]
    exact ⟨⟨rfl, rfl, ih.1⟩, ih.2⟩

/-- A text that is left as it is has empty quotes, and so has the quote of a literal with what is
left as it is behind it. -/
theorem quotesEmpty_of_stripFrom_eq (s : List Char) :
    (stripFrom .code s = s → scanEnd .code s = .code → QuotesEmpty s) ∧
    ∀ q, isQuote q = true → stripFrom (.literal q false) s = s →
      scanEnd (.literal q false) s = .code → QuotesEmpty (q :: s) := by
  induction s with
  | nil =>
    refine ⟨fun _ _ => .nil, ?_⟩
    intro q _ _ hend
    cases hend
  | cons c s ih =>
    obtain ⟨ihcode, ihliteral⟩ := ih
    constructor
    · intro hkept hend
      rw [stripFrom_cons_eq_iff] at hkept
      rw [scanEnd] at hend
      cases hc : isQuote c with
      | false =>
        rw [Scan.step_code hc] at hkept hend
        exact .plain hc (ihcode hkept.2 hend)
      | true =>
        rw [(Scan.step_pair hc).1] at hkept hend
        exact ihliteral c hc hkept.2 hend
    · intro q hq hkept hend
      rw [stripFrom_cons_eq_iff] at hkept
      rw [scanEnd] at hend
      obtain rfl := (Scan.kept_literal_iff hq).mp hkept.1
      rw [(Scan.step_pair hq).2] at hkept hend
      exact .pair hq (ihcode hkept.2 hend)

/-- **The scan leaves a text as it is, and is outside of literals behind it, iff each quote is
closed right away.** -/
theorem quotesEmpty_iff {s : List Char} :
    QuotesEmpty s ↔ stripFrom .code s = s ∧ scanEnd .code s = .code :=
  ⟨QuotesEmpty.stripFrom_eq, fun h => (quotesEmpty_of_stripFrom_eq s).1 h.1 h.2⟩

instance : DecidablePred QuotesEmpty := fun _ => decidable_of_iff _ quotesEmpty_iff.symm

/-- **A text between two characters that are no quotes is left as it is iff the scan finds it
outside of literals and each quote in it is closed right away.** -/
theorem stripFrom_between_eq_iff {state : Scan} (h : state.Opened) {c d : Char}
    (hc : isQuote c = false) (hd : isQuote d = false) (s : List Char) :
    stripFrom state (c :: s ++ [d]) = c :: s ++ [d] ↔ state = .code ∧ QuotesEmpty s := by
  rw [List.cons_append, stripFrom_cons_eq_iff, h.kept_iff hc, stripFrom_append_eq_iff]
  refine and_congr_right ?_
  rintro rfl
  have hopened : (scanEnd .code s).Opened := @Scan.Opened.scanEnd .code trivial s
  rw [Scan.step_code hc, quotesEmpty_iff, stripFrom_cons_eq_iff, hopened.kept_iff hd]
  simp [stripFrom]

/-! ## 3. Reading a text with its templates -/

/-- The character that opens and closes a template. -/
def backtick : Char := '\x60'

/-- Where a reader stands who knows templates. -/
inductive Reading where
  | code
  | literal (quote : Char) (escaped : Bool)
  | template (escaped : Bool)
  deriving DecidableEq, Repr

/-- Where a reader stands after a character. -/
def Reading.step : Reading → Char → Reading
  | .code, c =>
    if isQuote c then .literal c false else if c = backtick then .template false else .code
  | .literal quote true, _ => .literal quote false
  | .literal quote false, c =>
    if c = '\\' then .literal quote true else if c = quote then .code else .literal quote false
  | .template true, _ => .template false
  | .template false, c =>
    if c = '\\' then .template true else if c = backtick then .code else .template false

/-- Where a reader stands after a text. -/
def readingEnd : Reading → List Char → Reading
  | state, [] => state
  | state, c :: rest => readingEnd (state.step c) rest

theorem readingEnd_append (state : Reading) (s t : List Char) :
    readingEnd state (s ++ t) = readingEnd (readingEnd state s) t := by
  induction s generalizing state with
  | nil => rfl
  | cons c s ih => exact ih _

/-- Text that can stand in a template: no backtick in it is unescaped, and none behind it is
escaped by it. -/
inductive IsTemplateBody : List Char → Prop
  | nil : IsTemplateBody []
  | plain {c : Char} {s : List Char} :
    c ≠ '\\' → c ≠ backtick → IsTemplateBody s → IsTemplateBody (c :: s)
  | escaped (c : Char) {s : List Char} : IsTemplateBody s → IsTemplateBody ('\\' :: c :: s)

def template (body : List Char) : List Char := backtick :: body ++ [backtick]

/-- A template of a text: its backtick stands outside of literals and of other templates, and it
goes on to the next backtick that is not escaped. -/
structure TemplateIn (text before body rest : List Char) : Prop where
  split : text = before ++ template body ++ rest
  opened : readingEnd .code before = .code
  closed : IsTemplateBody body

/-- A reader leaves a literal where the scan leaves it. -/
theorem exists_of_leaves_literal {q : Char} {escaped : Bool} {s : List Char}
    (h : readingEnd (.literal q escaped) s = .code) :
    ∃ t u, s = t ++ u ∧ readingEnd (.literal q escaped) t = .code ∧
      scanEnd (.literal q escaped) t = .code ∧ readingEnd .code u = .code := by
  induction s generalizing escaped with
  | nil => cases h
  | cons c s ih =>
    -- the character leaves the literal, or both go on inside of it alike
    have hstep : (Reading.literal q escaped).step c = .code ∧
          ((Scan.literal q escaped).step c).1 = .code ∨
        ∃ escaped', (Reading.literal q escaped).step c = .literal q escaped' ∧
          ((Scan.literal q escaped).step c).1 = .literal q escaped' := by
      cases escaped with
      | true => exact .inr ⟨false, rfl, rfl⟩
      | false =>
        simp only [Reading.step, Scan.step]
        split
        · exact .inr ⟨true, rfl, rfl⟩
        · split
          · exact .inl ⟨rfl, rfl⟩
          · exact .inr ⟨false, rfl, rfl⟩
    rw [readingEnd] at h
    rcases hstep with ⟨hread, hscan⟩ | ⟨escaped', hread, hscan⟩
    · rw [hread] at h
      exact ⟨[c], s, rfl, hread, hscan, h⟩
    · rw [hread] at h
      obtain ⟨t, u, rfl, ht, ht', hu⟩ := ih h
      refine ⟨c :: t, u, rfl, ?_, ?_, hu⟩
      · rw [readingEnd, hread, ht]
      · rw [scanEnd, hscan, ht']

/-- A reader leaves a template at its closing backtick. -/
theorem exists_of_leaves_template {s : List Char} :
    (readingEnd (.template false) s = .code →
      ∃ body u, s = body ++ backtick :: u ∧ IsTemplateBody body ∧ readingEnd .code u = .code) ∧
    (readingEnd (.template true) s = .code →
      ∃ body u, s = body ++ backtick :: u ∧ IsTemplateBody ('\\' :: body) ∧
        readingEnd .code u = .code) := by
  induction s with
  | nil => constructor <;> intro h <;> cases h
  | cons c s ih =>
    constructor <;> intro h
    · rw [readingEnd, Reading.step] at h
      split at h
      next hc =>
        obtain ⟨body, u, rfl, hbody, hu⟩ := ih.2 h
        exact ⟨c :: body, u, rfl, hc ▸ hbody, hu⟩
      next hc =>
        split at h
        next hclose => exact ⟨[], s, by rw [hclose]; rfl, .nil, h⟩
        next hplain =>
          obtain ⟨body, u, rfl, hbody, hu⟩ := ih.1 h
          exact ⟨c :: body, u, rfl, .plain hc hplain hbody, hu⟩
    · obtain ⟨body, u, rfl, hbody, hu⟩ := ih.1 h
      exact ⟨c :: body, u, rfl, .escaped c hbody, hu⟩

theorem isTemplateBody_of_forall {s : List Char} (h : ∀ c ∈ s, c ≠ '\\' ∧ c ≠ backtick) :
    IsTemplateBody s := by
  induction s with
  | nil => exact .nil
  | cons c s ih =>
    obtain ⟨⟨hslash, htick⟩, hs⟩ := List.forall_mem_cons.mp h
    exact .plain hslash htick (ih hs)

theorem IsTemplateBody.readingEnd_eq {body : List Char} (h : IsTemplateBody body) :
    readingEnd (.template false) body = .template false := by
  induction h with
  | nil => rfl
  | plain hslash htick _ ih => rw [readingEnd, Reading.step, if_neg hslash, if_neg htick, ih]
  | escaped c _ ih => exact ih

/-- A template leads a reader back to code, and the scan too if its quotes are empty. -/
theorem readingEnd_template {body : List Char} (h : IsTemplateBody body) :
    readingEnd .code (template body) = .code := by
  have hopen : readingEnd .code (backtick :: body) = readingEnd (.template false) body := rfl
  rw [template, readingEnd_append, hopen, h.readingEnd_eq]
  rfl

theorem scanEnd_template {body : List Char} (h : QuotesEmpty body) :
    scanEnd .code (template body) = .code := by
  have hopen : scanEnd .code (backtick :: body) = scanEnd .code body := rfl
  rw [template, scanEnd_append, hopen, h.stripFrom_eq.2]
  rfl

/-- **As long as the quotes in templates are empty, the scan is outside of literals where a reader
is.** -/
theorem scanEnd_of_readingEnd {text : List Char}
    (hempty : ∀ before body rest, TemplateIn text before body rest → QuotesEmpty body)
    (before s rest : List Char) (htext : text = before ++ s ++ rest)
    (hbefore : readingEnd .code before = .code) (hs : readingEnd .code s = .code) :
    scanEnd .code s = .code := by
  -- the two are in step before `s`; a literal or a template is taken as a whole
  cases s with
  | nil => rfl
  | cons c s =>
    rw [readingEnd, Reading.step] at hs
    split at hs
    next hc =>
      obtain ⟨t, u, rfl, ht, ht', hu⟩ := exists_of_leaves_literal hs
      have hstep : Scan.code.step c = (.literal c false, true) := (Scan.step_pair hc).1
      have hread : readingEnd .code (before ++ c :: t) = .code := by
        rw [readingEnd_append, hbefore, readingEnd, Reading.step, if_pos hc, ht]
      rw [scanEnd, hstep, scanEnd_append, ht']
      exact scanEnd_of_readingEnd hempty (before ++ c :: t) u rest (by simp [htext]) hread hu
    next hc =>
      split at hs
      next htick =>
        subst htick
        obtain ⟨body, u, rfl, hbody, hu⟩ := exists_of_leaves_template.1 hs
        have hsplit : backtick :: (body ++ backtick :: u) = template body ++ u := by simp [template]
        rw [hsplit] at htext ⊢
        have hquotes : QuotesEmpty body :=
          hempty before body (u ++ rest) ⟨by simp [htext], hbefore, hbody⟩
        have hread : readingEnd .code (before ++ template body) = .code := by
          rw [readingEnd_append, hbefore, readingEnd_template hbody]
        rw [scanEnd_append, scanEnd_template hquotes]
        exact scanEnd_of_readingEnd hempty (before ++ template body) u rest (by simp [htext])
          hread hu
      next htick =>
        have hread : readingEnd .code (before ++ [c]) = .code := by
          rw [readingEnd_append, hbefore, readingEnd, Reading.step, if_neg hc, if_neg htick]
          rfl
        rw [scanEnd, Scan.step_code (Bool.eq_false_iff.mpr hc)]
        exact scanEnd_of_readingEnd hempty (before ++ [c]) s rest (by simp [htext]) hread hs
termination_by s.length

/-! ## 4. Templates that are shown -/

/-- What the scan shows of a text that stands behind another one. -/
def shown (before s : List Char) : List Char := stripFrom (scanEnd .code before) s

/-- The scan of a text is what it shows of the parts. -/
theorem stripLiterals_append (before s rest : List Char) :
    stripLiterals (before ++ s ++ rest) =
      stripLiterals before ++ shown before s ++ shown (before ++ s) rest := by
  rw [stripLiterals, stripFrom_append, stripFrom_append]
  rfl

theorem shown_between_iff (before : List Char) {c d : Char} (hc : isQuote c = false)
    (hd : isQuote d = false) (s : List Char) :
    shown before (c :: s ++ [d]) = c :: s ++ [d] ↔ scanEnd .code before = .code ∧ QuotesEmpty s :=
  stripFrom_between_eq_iff (@Scan.Opened.scanEnd .code trivial before) hc hd s

/-- **A template is shown whole iff the scan finds it outside of literals and each quote in it is
closed right away.** -/
theorem shown_template_iff (before body : List Char) :
    shown before (template body) = template body ↔
      scanEnd .code before = .code ∧ QuotesEmpty body :=
  shown_between_iff before rfl rfl body

/-- **All templates of a text are shown whole iff each quote in one is closed right away.** -/
theorem all_shown_iff (text : List Char) :
    (∀ before body rest, TemplateIn text before body rest →
      shown before (template body) = template body) ↔
    ∀ before body rest, TemplateIn text before body rest → QuotesEmpty body := by
  constructor
  · intro h before body rest hin
    exact ((shown_template_iff before body).mp (h before body rest hin)).2
  · intro h before body rest hin
    have hcode := scanEnd_of_readingEnd h [] before (template body ++ rest)
      (by simp [hin.split]) rfl hin.opened
    exact (shown_template_iff before body).mpr ⟨hcode, h before body rest hin⟩

/-- A substitution in a template. -/
def substitution (e : List Char) : List Char := '$' :: ('\x7b' :: e) ++ ['\x7d']

/-- **A substitution is shown whole iff the scan finds it outside of literals and its own literals
are empty.** -/
theorem shown_substitution_iff (before e : List Char) :
    shown before (substitution e) = substitution e ↔
      scanEnd .code before = .code ∧ QuotesEmpty e := by
  have hbrace : QuotesEmpty ('\x7b' :: e) ↔ QuotesEmpty e := by
    constructor
    · intro h
      cases h with
      | plain _ h => exact h
      | pair h _ => exact absurd h (by decide)
    · exact .plain rfl
  rw [← hbrace]
  exact shown_between_iff before rfl rfl _

/-- In a literal nothing is shown before its quote. -/
theorem stripFrom_literal_eq_nil {q : Char} {escaped : Bool} {s : List Char} (h : q ∉ s) :
    stripFrom (.literal q escaped) s = [] := by
  induction s generalizing escaped with
  | nil => rfl
  | cons c s ih =>
    have hc : c ≠ q := fun heq => h (heq ▸ List.mem_cons_self)
    have hs : q ∉ s := fun hmem => h (List.mem_cons_of_mem _ hmem)
    cases escaped with
    | true => exact ih hs
    | false =>
      simp only [stripFrom, Scan.step, if_neg hc]
      split <;> exact ih hs

/-- **Behind a quote that nothing closes all of a template is hidden.** -/
theorem stripLiterals_template_of_lone {a b : List Char} {q : Char} (ha : QuotesEmpty a)
    (hq : isQuote q = true) (hb : q ∉ b) :
    stripLiterals (template (a ++ q :: b)) = backtick :: a ++ [q] := by
  have htick : q ≠ backtick := by
    rintro rfl
    exact absurd hq (by decide)
  have hopen : stripLiterals (template (a ++ q :: b)) =
      backtick :: stripFrom .code (a ++ q :: (b ++ [backtick])) := by
    rw [template, List.cons_append, List.append_assoc]
    rfl
  have hrest : q ∉ b ++ [backtick] := by simp [hb, htick]
  have hquote : stripFrom .code (q :: (b ++ [backtick])) = [q] := by
    simp only [stripFrom, (Scan.step_pair hq).1, if_true, stripFrom_literal_eq_nil hrest]
  rw [hopen, stripFrom_append, ha.stripFrom_eq.1, ha.stripFrom_eq.2, hquote]
  rfl

/-! ## 5. Words in lower case -/

/-- A word that is its own lower case occurs in the lower case of a text that it occurs in. -/
theorem infix_lower {w s : List Char} (hw : ∀ c ∈ w, c ≠ 'Σ' ∧ lowerChar c = [c]) (h : w <:+: s) :
    w <:+: lower s := by
  have hword (before t : List Char) :
      ∃ before', lowerAfter before (w ++ t) = w ++ lowerAfter before' t := by
    clear h
    induction w generalizing before with
    | nil => exact ⟨before, rfl⟩
    | cons c w ih =>
      obtain ⟨hsigma, hlower⟩ := hw c List.mem_cons_self
      obtain ⟨before', hrest⟩ := ih (fun d hd => hw d (List.mem_cons_of_mem _ hd)) (c :: before)
      exact ⟨before', by rw [List.cons_append, lowerAfter, if_neg hsigma, hlower, hrest]; rfl⟩
  have hsplit (before a b : List Char) : w <:+: lowerAfter before (a ++ (w ++ b)) := by
    induction a generalizing before with
    | nil =>
      obtain ⟨before', hrest⟩ := hword before b
      rw [List.nil_append, hrest]
      exact ⟨[], _, rfl⟩
    | cons c a ih =>
      rw [List.cons_append, lowerAfter]
      split
      · exact List.infix_cons (ih _)
      · exact (ih _).trans (List.suffix_append _ _).isInfix
  obtain ⟨a, b, rfl⟩ := h
  rw [List.append_assoc]
  exact hsplit [] a b

end CodeAudit.Text

namespace CodeAudit.Security

open Text

/-! ## 6. Templates that reach a sink -/

/-- Whether a text carries input that nothing has made safe, by the words in it. -/
def Tainted (text : List Char) : Prop :=
  mentionsAny inputWords (lower text) = true ∧ mentionsAny sanitizerWords (lower text) = false

theorem carriesInput_iff (value : List Char) :
    carriesInput value = true ↔ Tainted (stripLiterals value) := by
  simp [carriesInput, Tainted]

/-- A node is reported for what the scan shows of its value. -/
theorem domInjection?_isSome_iff {s : Snippet} {n value : Site} (h : sinkValue? s n = some value) :
    (domInjection? s n).isSome = true ↔ Tainted (stripLiterals (s.text value)) := by
  rw [← carriesInput_iff, domInjection?, h, Option.bind_some]
  split <;> simp_all

theorem inputWords_lower : ∀ w ∈ inputWords, ∀ c ∈ w.toList, c ≠ 'Σ' ∧ lowerChar c = [c] := by
  have hall : inputWords.all (fun w =>
      w.toList.all fun c => c ≠ 'Σ' ∧ lowerChar c = [c]) = true := by
    decide
  simpa only [List.all_eq_true, decide_eq_true_eq] using hall

theorem tainted_of_shown {s : List Char} {word : String} (hword : word ∈ inputWords)
    (h : word.toList <:+: s) (hsafe : mentionsAny sanitizerWords (lower s) = false) :
    Tainted s := by
  refine ⟨List.any_eq_true.mpr ⟨word, hword, mentions_iff.mpr ?_⟩, hsafe⟩
  exact infix_lower (inputWords_lower word hword) h

/-- A substitution that is shown is part of what a value is judged by. -/
theorem infix_stripLiterals_of_shown {before s rest : List Char} (h : shown before s = s) :
    s <:+: stripLiterals (before ++ s ++ rest) := by
  rw [stripLiterals_append, h]
  exact ⟨_, _, rfl⟩

/-- **Templates are kept for as long as they hold no quoted text.**  Of every text, all templates
are shown whole iff each quote in one of them is closed right away, and a single one is iff that
holds for it and the scan finds it outside of literals.

If the text is a template that reaches a sink, a substitution in it is seen iff the scan is outside
of literals where it begins and its own literals are empty, and an input word in it is then reported.
Behind a quote that nothing closes, nothing is seen. -/
theorem templates_seen_iff_quotes_empty (text : List Char) :
    (∀ before body rest, TemplateIn text before body rest →
      stripLiterals text = stripLiterals before ++ shown before (template body) ++
        shown (before ++ template body) rest ∧
      (shown before (template body) = template body ↔
        scanEnd .code before = .code ∧ QuotesEmpty body)) ∧
    ((∀ before body rest, TemplateIn text before body rest →
        shown before (template body) = template body) ↔
      ∀ before body rest, TemplateIn text before body rest → QuotesEmpty body) ∧
    ∀ (s : Snippet) (n value : Site), sinkValue? s n = some value → s.text value = text →
      ((domInjection? s n).isSome = true ↔ Tainted (stripLiterals text)) ∧
      ∀ body, text = template body →
        (stripLiterals text = text ↔ QuotesEmpty body) ∧
        (∀ pre e post, body = pre ++ substitution e ++ post →
          (shown (backtick :: pre) (substitution e) = substitution e ↔
            scanEnd .code pre = .code ∧ QuotesEmpty e) ∧
          ∀ word ∈ inputWords, word.toList <:+: e → scanEnd .code pre = .code → QuotesEmpty e →
            mentionsAny sanitizerWords (lower (stripLiterals text)) = false →
            (domInjection? s n).isSome = true) ∧
        ∀ a q b, body = a ++ q :: b → QuotesEmpty a → isQuote q = true → q ∉ b →
          stripLiterals text = backtick :: a ++ [q] := by
  refine ⟨?_, all_shown_iff text, ?_⟩
  · rintro before body rest ⟨rfl, -, -⟩
    exact ⟨stripLiterals_append before (template body) rest, shown_template_iff before body⟩
  · rintro s n value hsink rfl
    have hreported := domInjection?_isSome_iff hsink
    refine ⟨hreported, ?_⟩
    intro body htext
    rw [htext] at hreported ⊢
    refine ⟨?_, ?_, ?_⟩
    · exact (shown_template_iff [] body).trans (and_iff_right rfl)
    · rintro pre e post rfl
      have hshown := shown_substitution_iff (backtick :: pre) e
      refine ⟨hshown, ?_⟩
      intro word hword hnamed hcode hempty hsafe
      have hwhole := hshown.mpr ⟨hcode, hempty⟩
      have hseen : substitution e <:+:
          stripLiterals (template (pre ++ substitution e ++ post)) := by
        have hpart := @infix_stripLiterals_of_shown _ _ (post ++ [backtick]) hwhole
        simpa [template] using hpart
      have hinside : e <:+: substitution e := ⟨['$', '\x7b'], ['\x7d'], rfl⟩
      exact hreported.mpr (tainted_of_shown hword (hnamed.trans (hinside.trans hseen)) hsafe)
    · rintro a q b rfl ha hq hb
      exact stripLiterals_template_of_lone ha hq hb

/-- The text `it's ${user}` inside a template. -/
def greeting : List Char := "it's $\x7buser\x7d".toList

/-- An assignment of the greeting to the markup of an element. -/
def greetingSink : Site :=
  .top (.named "assignment_expression" none 0 29
    [.named "member_expression" (some "left") 0 12
      [.named "identifier" (some "object") 0 2 [],
        .named "property_identifier" (some "property") 3 12 []],
    .named "template_string" (some "right") 15 29 []])

def greetingScript : Snippet :=
  ⟨"el.innerHTML = ".toList ++ template greeting, some greetingSink.tree, "javascript", {}⟩

/-- The apostrophe of the greeting hides the substitution behind it, and the sink is not
reported. -/
theorem apostrophe_hides_substitution :
    TemplateIn (template greeting) [] greeting [] ∧
      shown [] (template greeting) ≠ template greeting ∧
      domInjection? greetingScript greetingSink = none := by
  obtain ⟨htemplates, -, hsinks⟩ := templates_seen_iff_quotes_empty (template greeting)
  have hbody : IsTemplateBody greeting := by
    have hplain : greeting.all (fun c => c ≠ '\\' ∧ c ≠ backtick) = true := by decide
    simp only [List.all_eq_true, decide_eq_true_eq] at hplain
    exact isTemplateBody_of_forall hplain
  have hin : TemplateIn (template greeting) [] greeting [] := ⟨by simp, rfl, hbody⟩
  obtain ⟨value, hvalue, htext⟩ : ∃ value, sinkValue? greetingScript greetingSink = some value ∧
      greetingScript.text value = template greeting := ⟨_, rfl, by decide⟩
  obtain ⟨hreported, hsink⟩ := hsinks _ _ _ hvalue htext
  obtain ⟨-, -, hlone⟩ := hsink greeting rfl
  refine ⟨hin, ?_, ?_⟩
  · rw [Ne, (htemplates _ _ _ hin).2]
    decide
  · have hseen : stripLiterals (template greeting) = backtick :: "it".toList ++ ['\''] :=
      hlone "it".toList '\'' "s $\x7buser\x7d".toList rfl (by decide) rfl (by decide)
    rw [hseen] at hreported
    rw [← Option.not_isSome_iff_eq_none, hreported]
    exact fun h => absurd h.1 (by decide)

end CodeAudit.Security
