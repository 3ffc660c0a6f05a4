import CodeAudit.Proofs.Pattern.Found

/-!
# Patterns and the text around them

A pattern looks beyond the piece it takes in three ways only: it can ask whether the text begins,
whether it ends, and whether there is the edge of a word.  **A pattern that asks none of these takes
the same pieces wherever they stand** (`placeless_reaches`), so text put around another one hides no
occurrence in it (`occursIn_append`).
-/

namespace CodeAudit.Pattern

/-- Whether a pattern looks at nothing but the piece it takes. -/
def isPlaceless : Pattern → Bool
  | textStart | textEnd | wordEdge => false
  | empty | one _ => true
  | seq first second | alt first second => first.isPlaceless && second.isPlaceless
  | times _ _ body | group _ body => body.isPlaceless

/-- A relation that can be gone through at any other place with the same text behind it, and with
more text behind that. -/
def Placeless (step : Step) : Prop :=
  ∀ p cs p' cs', step p cs p' cs' → ∀ q ds more, q.rest = p.rest ++ more →
    ∃ q' ds', step q ds q' ds' ∧ q'.rest = p'.rest ++ more

theorem Placeless.linked {step : Step} (h : Placeless step) (n : Nat) :
    Placeless (Linked step n) := by
  induction n with
  | zero =>
    rintro p cs p' cs' ⟨rfl, -⟩ q ds more hq
    exact ⟨q, ds, ⟨rfl, rfl⟩, hq⟩
  | succ n ih =>
    rintro p cs p' cs' ⟨r, es, hstep, hrest⟩ q ds more hq
    obtain ⟨r', es', hstep', hr'⟩ := h p cs r es hstep q ds more hq
    obtain ⟨q', ds', hrest', hq'⟩ := ih r es p' cs' hrest r' es' more hr'
    exact ⟨q', ds', ⟨r', es', hstep', hrest'⟩, hq'⟩

/-- **A pattern that looks at nothing but its piece takes it wherever it stands.** -/
theorem placeless_reaches {pat : Pattern} (h : pat.isPlaceless = true) : Placeless pat.Reaches := by
  induction pat with
  | empty =>
    rintro p cs p' cs' ⟨rfl, -⟩ q ds more hq
    exact ⟨q, ds, ⟨rfl, rfl⟩, hq⟩
  | one accepts =>
    rintro p cs p' cs' ⟨c, rest, hrest, hc, rfl, -⟩ q ds more hq
    rw [hrest] at hq
    exact ⟨q.past c (rest ++ more), ds, ⟨c, rest ++ more, hq, hc, rfl, rfl⟩, rfl⟩
  | textStart => cases h
  | textEnd => cases h
  | wordEdge => cases h
  | seq first second ih₁ ih₂ =>
    obtain ⟨hfirst, hsecond⟩ := Bool.and_eq_true_iff.mp h
    rintro p cs p' cs' ⟨r, es, h₁, h₂⟩ q ds more hq
    obtain ⟨r', es', h₁', hr'⟩ := ih₁ hfirst p cs r es h₁ q ds more hq
    obtain ⟨q', ds', h₂', hq'⟩ := ih₂ hsecond r es p' cs' h₂ r' es' more hr'
    exact ⟨q', ds', ⟨r', es', h₁', h₂'⟩, hq'⟩
  | alt first second ih₁ ih₂ =>
    obtain ⟨hfirst, hsecond⟩ := Bool.and_eq_true_iff.mp h
    rintro p cs p' cs' (hreach | hreach) q ds more hq
    · obtain ⟨q', ds', hreach', hq'⟩ := ih₁ hfirst p cs p' cs' hreach q ds more hq
      exact ⟨q', ds', .inl hreach', hq'⟩
    · obtain ⟨q', ds', hreach', hq'⟩ := ih₂ hsecond p cs p' cs' hreach q ds more hq
      exact ⟨q', ds', .inr hreach', hq'⟩
  | times least most body ih =>
    rintro p cs p' cs' ⟨n, hleast, hmost, hlink⟩ q ds more hq
    obtain ⟨q', ds', hlink', hq'⟩ := (ih h).linked n p cs p' cs' hlink q ds more hq
    exact ⟨q', ds', ⟨n, hleast, hmost, hlink'⟩, hq'⟩
  | group index body ih =>
    rintro p cs p' cs' ⟨es, hbody, -⟩ q ds more hq
    obtain ⟨q', ds', hbody', hq'⟩ := ih h p cs p' es hbody q ds more hq
    exact ⟨q', _, ⟨ds', hbody', rfl⟩, hq'⟩

/-- **Text around another one hides no occurrence in it.** -/
theorem occursIn_append {pat : Pattern} (h : pat.isPlaceless = true) {s : List Char}
    (hs : pat.occursIn s = true) (before after : List Char) :
    pat.occursIn (before ++ s ++ after) = true := by
  obtain ⟨pre, rest, p', cs', rfl, hreach⟩ := occursIn_iff.mp hs
  obtain ⟨q', ds', hreach', -⟩ := placeless_reaches h _ _ _ _ hreach
    (.between (before ++ pre) (rest ++ after)) [] after rfl
  exact occursIn_iff.mpr ⟨before ++ pre, rest ++ after, q', ds', by simp, hreach'⟩

end CodeAudit.Pattern
