import CodeAudit.Text.Basic

/-!
# Trimming and searching around a fixed character

Both are easy to follow once a character is known to stand in the text.  A character that is no
blank stops the trimming from both sides (`trim_append_cons`), and a text without the character
lies to its left or to its right (`infix_append_cons_iff`).
-/

namespace CodeAudit.Text

/-! ## 1. Trimming -/

section Trim

variable {c : Char} (s t : List Char)

theorem trimStart_append_cons (hc : isSpace c = false) :
    trimStart (s ++ c :: t) = trimStart s ++ c :: t := by
  unfold trimStart
  rw [List.dropWhile_append]
  split
  · next h =>
    rw [List.isEmpty_iff] at h
    rw [h, List.dropWhile_cons_of_neg (by simp [hc]), List.nil_append]
  · rfl

theorem trimEnd_append_cons (hc : isSpace c = false) :
    trimEnd (s ++ c :: t) = s ++ c :: trimEnd t := by
  have h := trimStart_append_cons t.reverse s.reverse hc
  unfold trimStart at h
  unfold trimEnd dropEndWhile
  rw [List.reverse_append, List.reverse_cons, List.append_assoc, List.singleton_append, h]
  simp

/-- **A character that is no blank splits the trimming.** -/
theorem trim_append_cons (hc : isSpace c = false) :
    trim (s ++ c :: t) = trimStart s ++ c :: trimEnd t := by
  unfold trim
  rw [trimStart_append_cons s t hc, trimEnd_append_cons _ t hc]

end Trim

/-- Trimming the beginning takes at least as much off a text as off a longer one. -/
theorem length_trimStart_append_le (s t : List Char) :
    (trimStart (s ++ t)).length ≤ (trimStart s).length + t.length := by
  unfold trimStart
  rw [List.dropWhile_append]
  split
  · exact Nat.le_trans (List.dropWhile_sublist _).length_le (Nat.le_add_left _ _)
  · exact Nat.le_of_eq List.length_append

theorem length_trimStart_le_append (s t : List Char) :
    (trimStart s).length ≤ (trimStart (s ++ t)).length := by
  unfold trimStart
  rw [List.dropWhile_append]
  split
  · next h =>
    rw [List.isEmpty_iff] at h
    simp [h]
  · rw [List.length_append]
    exact Nat.le_add_right _ _

theorem length_trimEnd_le_append (s t : List Char) :
    (trimEnd t).length ≤ (trimEnd (s ++ t)).length := by
  have h := length_trimStart_le_append t.reverse s.reverse
  unfold trimStart at h
  unfold trimEnd dropEndWhile
  rw [List.length_reverse, List.length_reverse, List.reverse_append]
  exact h

/-! ## 2. Searching -/

section Search

variable {c : Char} {needle s t : List Char}

theorem hasInfix_iff : hasInfix needle s = true ↔ needle <:+: s := by
  induction s with
  | nil => rw [hasInfix, List.isEmpty_iff, List.infix_nil]
  | cons d s ih => rw [hasInfix, Bool.or_eq_true, List.isPrefixOf_iff_prefix, ih, List.infix_cons_iff]

theorem mentions_iff {word : String} : mentions word s = true ↔ word.toList <:+: s := hasInfix_iff

theorem prefix_of_prefix_append_cons (hc : c ∉ needle) (h : needle <+: s ++ c :: t) : needle <+: s := by
  rcases List.prefix_or_prefix_of_prefix h (List.prefix_append s (c :: t)) with h' | ⟨w, rfl⟩
  · exact h'
  · rw [List.prefix_append_right_inj] at h
    cases w with
    | nil => simp
    | cons d w =>
      obtain ⟨rfl, -⟩ := List.cons_prefix_cons.mp h
      exact absurd (by simp) hc

/-- **A text without the character stands on one side of it.** -/
theorem infix_append_cons_iff (hc : c ∉ needle) :
    needle <:+: s ++ c :: t ↔ needle <:+: s ∨ needle <:+: t := by
  constructor
  · intro h
    induction s with
    | nil =>
      rcases List.infix_cons_iff.mp h with h | h
      · exact .inl (prefix_of_prefix_append_cons (s := []) hc h).isInfix
      · exact .inr h
    | cons d s ih =>
      rcases List.infix_cons_iff.mp h with h | h
      · exact .inl (prefix_of_prefix_append_cons hc h).isInfix
      · exact (ih h).imp_left List.infix_cons
  · rintro (h | h)
    · exact h.trans (List.prefix_append _ _).isInfix
    · exact h.trans (List.infix_cons (List.infix_refl t) |>.trans (List.suffix_append s _).isInfix)

end Search

end CodeAudit.Text
