import CodeAudit.Proofs.Security.Templates
import Mathlib.Data.List.Induction

/-!
# What stands in a literal is not judged

A literal ends at the first quote of its own kind that is not escaped, and a quote is escaped if the
backslashes right before it are odd in number (`Escapes`).  A text can therefore be the inside of a
literal if each such quote in it is escaped and it leaves no escape open at its end
(`IsLiteralBody`).  **These are the texts of which the scan shows nothing and behind which it is still
in the literal** (`isLiteralBody_iff`): the scan has one bit for escapes, and the bit is the parity
of the backslashes that it has just read (`scanEnd_literal`).

So of a literal nothing is left but its two quotes (`stripLiterals_literal`), and two values that
differ in what stands in a literal are judged alike.  Nor is there anything left to take out: the
scan of what a scan has shown leaves it as it is (`stripFrom_settled`).
-/

namespace CodeAudit.Text

/-! ## 1. Escapes -/

/-- Number of backslashes that a text ends with. -/
def slashes (s : List Char) : Nat := (s.reverse.takeWhile (· == '\\')).length

/-- Whether the character behind a text is escaped by it. -/
def Escapes (s : List Char) : Prop := slashes s % 2 = 1

instance : DecidablePred Escapes := fun _ => inferInstanceAs (Decidable (_ = _))

/-- Each quote of a kind is escaped by what stands before it. -/
def QuotesEscaped (q : Char) (s : List Char) : Prop := ∀ t u, s = t ++ q :: u → Escapes t

/-- What can stand in a literal: its quote only where it is escaped, and no escape that would reach
beyond the end. -/
structure IsLiteralBody (q : Char) (body : List Char) : Prop where
  escaped : QuotesEscaped q body
  finished : ¬ Escapes body

/-- A backslash escapes what follows unless it is escaped itself, and nothing else escapes. -/
theorem escapes_concat (s : List Char) (c : Char) :
    Escapes (s ++ [c]) ↔ c = '\\' ∧ ¬ Escapes s := by
  unfold Escapes slashes
  rw [List.reverse_append, List.reverse_singleton, List.singleton_append]
  by_cases hc : c = '\\'
  · rw [List.takeWhile_cons_of_pos (by simp [hc]), List.length_cons]
    simp only [hc, true_and]
    omega
  · rw [List.takeWhile_cons_of_neg (by simp [hc])]
    simp [hc]

theorem quotesEscaped_concat {q : Char} {s : List Char} {c : Char} :
    QuotesEscaped q (s ++ [c]) ↔ QuotesEscaped q s ∧ (c = q → Escapes s) := by
  constructor
  · intro h
    refine ⟨fun t u hsplit => h t (u ++ [c]) (by simp [hsplit]), ?_⟩
    rintro rfl
    exact h s [] rfl
  · rintro ⟨hs, hc⟩ t u hsplit
    -- the quote is the last character, or stands in `s`
    rcases List.eq_nil_or_concat u with rfl | ⟨u, d, rfl⟩
    · obtain ⟨rfl, hlast⟩ := List.append_inj' hsplit rfl
      exact hc (List.cons.inj hlast).1
    · have hassoc : t ++ q :: (u ++ [d]) = (t ++ q :: u) ++ [d] := by simp
      rw [List.concat_eq_append, hassoc] at hsplit
      exact hs t u (List.append_inj' hsplit rfl).1

/-! ## 2. The scan inside a literal -/

/-- Inside a literal a character is kept iff it is the quote and not escaped. -/
theorem Scan.kept_iff_closes {q c : Char} {escaped : Bool} (hq : isQuote q = true) :
    ((Scan.literal q escaped).step c).2 = true ↔ escaped = false ∧ c = q := by
  cases escaped with
  | true => simp [Scan.step]
  | false => simpa using Scan.kept_literal_iff hq

/-- Where the scan stands in a literal after a character that does not close it. -/
theorem Scan.step_literal {q c : Char} {escaped : Bool} (h : escaped = false → c ≠ q) :
    ((Scan.literal q escaped).step c).1 = .literal q (c = '\\' ∧ escaped = false) := by
  cases escaped with
  | true => simp [Scan.step]
  | false =>
    have hc : c ≠ q := h rfl
    by_cases hslash : c = '\\' <;> simp [Scan.step, hc, hslash]

/-- **In a literal the scan knows the parity of the backslashes just read.** -/
theorem scanEnd_literal {q : Char} {s : List Char} (h : QuotesEscaped q s) :
    scanEnd (.literal q false) s = .literal q (Escapes s) := by
  induction s using List.reverseRecOn with
  | nil => simp [scanEnd, Escapes, slashes]
  | append_singleton s c ih =>
    obtain ⟨hs, hc⟩ := quotesEscaped_concat.mp h
    have hopen : decide (Escapes s) = false → c ≠ q := by
      intro hescapes hclose
      exact absurd (hc hclose) (of_decide_eq_false hescapes)
    have hlast : scanEnd (.literal q (Escapes s)) [c] =
        ((Scan.literal q (Escapes s)).step c).1 := rfl
    rw [scanEnd_append, ih hs, hlast, Scan.step_literal hopen]
    simp only [decide_eq_false_iff_not, escapes_concat]

/-- **A literal shows nothing of a text iff each of its quotes there is escaped.** -/
theorem stripFrom_literal_eq_nil_iff {q : Char} (hq : isQuote q = true) {s : List Char} :
    stripFrom (.literal q false) s = [] ↔ QuotesEscaped q s := by
  induction s using List.reverseRecOn with
  | nil => simp [stripFrom, QuotesEscaped]
  | append_singleton s c ih =>
    rw [stripFrom_append, List.append_eq_nil_iff, ih, quotesEscaped_concat]
    refine and_congr_right fun hs => ?_
    have hkept := @Scan.kept_iff_closes q c (Escapes s) hq
    rw [scanEnd_literal hs]
    simp only [stripFrom]
    split
    next hstep =>
      obtain ⟨hescapes, hclose⟩ := hkept.mp hstep
      simp [hclose, of_decide_eq_false hescapes]
    next hstep =>
      rw [hkept, decide_eq_false_iff_not] at hstep
      simp only [true_iff]
      intro hclose
      exact not_not.mp fun hescapes => hstep ⟨hescapes, hclose⟩

/-- **A text can stand in a literal iff the scan shows nothing of it and is still in the literal
behind it.** -/
theorem isLiteralBody_iff {q : Char} (hq : isQuote q = true) {body : List Char} :
    IsLiteralBody q body ↔
      stripFrom (.literal q false) body = [] ∧
        scanEnd (.literal q false) body = .literal q false := by
  rw [stripFrom_literal_eq_nil_iff hq]
  constructor
  · rintro ⟨hescaped, hfinished⟩
    exact ⟨hescaped, by rw [scanEnd_literal hescaped, decide_eq_false hfinished]⟩
  · rintro ⟨hescaped, hend⟩
    rw [scanEnd_literal hescaped, Scan.literal.injEq, decide_eq_false_iff_not] at hend
    exact ⟨hescaped, hend.2⟩

/-- A literal with its quotes. -/
def literal (q : Char) (body : List Char) : List Char := q :: body ++ [q]

/-- Of a literal the two quotes are shown, and the scan is outside of literals behind it. -/
theorem stripFrom_literal {q : Char} (hq : isQuote q = true) {body : List Char}
    (h : IsLiteralBody q body) :
    stripFrom .code (literal q body) = [q, q] ∧ scanEnd .code (literal q body) = .code := by
  obtain ⟨hhidden, hinside⟩ := (isLiteralBody_iff hq).mp h
  obtain ⟨hopen, hclose⟩ := Scan.step_pair hq
  constructor
  · simp only [literal, List.cons_append, stripFrom, hopen, if_true]
    rw [stripFrom_append, hhidden, hinside]
    simp [stripFrom, hclose]
  · simp only [literal, List.cons_append, scanEnd, hopen]
    rw [scanEnd_append, hinside]
    simp [scanEnd, hclose]

/-- **A literal is emptied, whatever stands in it and around it.** -/
theorem stripLiterals_literal {p : List Char} (hp : scanEnd .code p = .code) {q : Char}
    (hq : isQuote q = true) {body : List Char} (h : IsLiteralBody q body) (r : List Char) :
    stripLiterals (p ++ literal q body ++ r) = stripLiterals p ++ [q, q] ++ stripLiterals r := by
  obtain ⟨hshown, hend⟩ := stripFrom_literal hq h
  rw [stripLiterals_append, shown, shown, scanEnd_append, hp, hshown, hend]
  rfl

/-! ## 3. Nothing more to take out -/

/-- The same place with no escape open. -/
def Scan.settled : Scan → Scan
  | .code => .code
  | .literal q _ => .literal q false

/-- **A scan of what was shown shows it again**, from the same place but for an open escape, whose
character has not been shown. -/
theorem stripFrom_settled {state : Scan} (h : state.Opened) (s : List Char) :
    stripFrom state.settled (stripFrom state s) = stripFrom state s := by
  induction s generalizing state with
  | nil => rfl
  | cons c s ih =>
    have hrest := ih (h.step c)
    simp only [stripFrom]
    -- what is kept leads on from the settled place as it did; what is left out does not move it
    split
    next hkept =>
      rw [stripFrom_cons_eq_iff]
      cases state with
      | code =>
        refine ⟨hkept, ?_⟩
        cases hc : isQuote c <;> simpa [Scan.step, hc, Scan.settled] using hrest
      | literal q escaped =>
        obtain ⟨rfl, rfl⟩ := (Scan.kept_iff_closes h).mp hkept
        rw [(Scan.step_pair h).2] at hrest ⊢
        simpa [Scan.settled, (Scan.step_pair h).2] using hrest
    next hkept =>
      cases state with
      | code => exact absurd rfl hkept
      | literal q escaped =>
        rw [Scan.kept_iff_closes h, not_and] at hkept
        rw [Scan.step_literal hkept] at hrest ⊢
        exact hrest

theorem stripLiterals_idem (s : List Char) : stripLiterals (stripLiterals s) = stripLiterals s :=
  @stripFrom_settled .code trivial s

end CodeAudit.Text

namespace CodeAudit.Security

open Text

/-! ## 4. Values that are judged alike -/

/-- Nodes that hand values to sinks are reported alike if the scan shows the same of the values. -/
theorem domInjection?_isSome_congr {s s' : Snippet} {n n' value value' : Site}
    (h : sinkValue? s n = some value) (h' : sinkValue? s' n' = some value')
    (hshown : stripLiterals (s.text value) = stripLiterals (s'.text value')) :
    (domInjection? s n).isSome = (domInjection? s' n').isSome := by
  rw [Bool.eq_iff_iff, domInjection?_isSome_iff h, domInjection?_isSome_iff h', hshown]

/-- **What stands in a literal does not matter.**  Of a literal that opens outside of literals the
scan shows the two quotes, so whatever stands in it the rest of the text is shown alike, and a value
is judged and its sink reported alike.  What the scan has shown it leaves as it is. -/
theorem literal_contents_not_judged (p : List Char) (q : Char) (a b r : List Char)
    (hp : scanEnd .code p = .code) (hq : q = '\'' ∨ q = '"') (ha : IsLiteralBody q a)
    (hb : IsLiteralBody q b) :
    stripLiterals (p ++ literal q a ++ r) = stripLiterals p ++ [q, q] ++ stripLiterals r ∧
    stripLiterals p ++ [q, q] ++ stripLiterals r = stripLiterals (p ++ literal q b ++ r) ∧
    carriesInput (p ++ literal q a ++ r) = carriesInput (p ++ literal q b ++ r) ∧
    (∀ (s s' : Snippet) (n n' value value' : Site),
      sinkValue? s n = some value → s.text value = p ++ literal q a ++ r →
      sinkValue? s' n' = some value' → s'.text value' = p ++ literal q b ++ r →
      (domInjection? s n).isSome = (domInjection? s' n').isSome) ∧
    ∀ text, stripLiterals (stripLiterals text) = stripLiterals text := by
  have hquote : isQuote q = true := by rcases hq with rfl | rfl <;> rfl
  have hshown := stripLiterals_literal hp hquote ha r
  have hshown' := stripLiterals_literal hp hquote hb r
  have hsame := hshown.trans hshown'.symm
  refine ⟨hshown, hshown'.symm, ?_, ?_, stripLiterals_idem⟩
  · rw [carriesInput, carriesInput, hsame]
  · intro s s' n n' value value' hvalue htext hvalue' htext'
    exact domInjection?_isSome_congr hvalue hvalue' (by rw [htext, htext', hsame])

/-- Two literals in one place.  The first holds escaped quotes and ends in an escaped backslash, the
second holds an apostrophe and the name of a sanitizer.  Of both only the quotes are shown, and with
either the value carries input. -/
theorem sanitizer_in_literal_not_judged :
    IsLiteralBody '"' "say \\\"user\\\" \\\\".toList ∧ IsLiteralBody '"' "it's dompurify".toList ∧
      stripLiterals ("'form' + ".toList ++ literal '"' "it's dompurify".toList ++
        " + location".toList) = "'' + \"\" + location".toList ∧
      carriesInput ("'form' + ".toList ++ literal '"' "say \\\"user\\\" \\\\".toList ++
        " + location".toList) = true ∧
      carriesInput ("'form' + ".toList ++ literal '"' "it's dompurify".toList ++
        " + location".toList) = true := by
  have hfirst : IsLiteralBody '"' "say \\\"user\\\" \\\\".toList :=
    (isLiteralBody_iff rfl).mpr (by decide)
  have hsecond : IsLiteralBody '"' "it's dompurify".toList := (isLiteralBody_iff rfl).mpr (by decide)
  obtain ⟨-, hshown, hjudged, -⟩ := literal_contents_not_judged "'form' + ".toList '"' _ _
    " + location".toList (by decide) (.inr rfl) hfirst hsecond
  have hseen : stripLiterals ("'form' + ".toList ++ literal '"' "it's dompurify".toList ++
      " + location".toList) = "'' + \"\" + location".toList := by
    rw [← hshown]
    decide
  have hcarries : carriesInput ("'form' + ".toList ++ literal '"' "it's dompurify".toList ++
      " + location".toList) = true := by
    rw [carriesInput_iff, hseen]
    exact ⟨by decide, by decide⟩
  exact ⟨hfirst, hsecond, hseen, hjudged.trans hcarries, hcarries⟩

end CodeAudit.Security
