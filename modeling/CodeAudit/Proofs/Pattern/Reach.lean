import CodeAudit.Pattern.Build

/-!
# What a match says about the text

The matcher is a search: it hands each place where a pattern can end to a continuation, until one
is content.  What a pattern *means* is said here without any search, as a relation between a place,
a place further on, and the pieces recorded on the way (`Reaches`).  A repetition reaches what its
body reaches in so many steps (`Linked`).

Main statement: **whatever the search finds is reached** (`run_eq_some`, and `find?_eq_some` for a
whole text), so a proof about a match takes the pattern apart constructor by constructor and never
looks at the order of the search.  The rest are the two facts that every use needs: a pattern takes
one piece of the text (`Reaches.takes`), and records pieces only under its own groups
(`Reaches.captures`).
-/

namespace CodeAudit.Pattern

/-! ## 1. The relation -/

/-- A relation between a place with the pieces recorded so far, and the same further on. -/
abbrev Step := Point → List Capture → Point → List Capture → Prop

/-- `n` steps one after the other. -/
def Linked (step : Step) : Nat → Step
  | 0, p, cs, p', cs' => p' = p ∧ cs' = cs
  | n + 1, p, cs, p', cs' => ∃ q ds, step p cs q ds ∧ Linked step n q ds p' cs'

/-- Where a pattern can end that is tried at a place, and what it has recorded by then. -/
def Reaches : Pattern → Step
  | empty, p, cs, p', cs' => p' = p ∧ cs' = cs
  | one accepts, p, cs, p', cs' =>
    ∃ c rest, p.rest = c :: rest ∧ accepts c = true ∧ p' = p.past c rest ∧ cs' = cs
  | textStart, p, cs, p', cs' => p.before = none ∧ p' = p ∧ cs' = cs
  | textEnd, p, cs, p', cs' => p.rest = [] ∧ p' = p ∧ cs' = cs
  | wordEdge, p, cs, p', cs' => p.atWordEdge = true ∧ p' = p ∧ cs' = cs
  | seq first second, p, cs, p', cs' =>
    ∃ q ds, first.Reaches p cs q ds ∧ second.Reaches q ds p' cs'
  | alt first second, p, cs, p', cs' => first.Reaches p cs p' cs' ∨ second.Reaches p cs p' cs'
  | times least most body, p, cs, p', cs' =>
    ∃ n, least ≤ n ∧ (∀ m, most = some m → n ≤ max least m) ∧ Linked body.Reaches n p cs p' cs'
  | group index body, p, cs, p', cs' =>
    ∃ ds, body.Reaches p cs p' ds ∧ cs' = ⟨index, p.offset, p'.offset⟩ :: ds

/-- Steps in two runs are steps in one. -/
theorem Linked.append {step : Step} {m n : Nat} {p q p' : Point} {cs ds cs' : List Capture}
    (h₁ : Linked step m p cs q ds) (h₂ : Linked step n q ds p' cs') :
    Linked step (m + n) p cs p' cs' := by
  induction m generalizing p cs with
  | zero =>
    obtain ⟨rfl, rfl⟩ := h₁
    rw [Nat.zero_add]
    exact h₂
  | succ m ih =>
    obtain ⟨r, es, hstep, hrest⟩ := h₁
    rw [Nat.add_right_comm]
    exact ⟨r, es, hstep, ih hrest⟩

/-! ## 2. What the search finds is reached -/

section Search

variable {α : Type}

/-- A matcher that finds only what a relation reaches. -/
def Sound (search : Matcher α) (step : Step) : Prop :=
  ∀ p cs k found, search p cs k = some found → ∃ p' cs', step p cs p' cs' ∧ k p' cs' = some found

theorem exactly_eq_some {search : Matcher α} {step : Step} (h : Sound search step) (n : Nat) :
    Sound (exactly search n) (Linked step n) := by
  induction n with
  | zero => intro p cs k found hrun; exact ⟨p, cs, ⟨rfl, rfl⟩, hrun⟩
  | succ n ih =>
    intro p cs k found hrun
    obtain ⟨q, ds, hstep, hk⟩ := h p cs _ found hrun
    obtain ⟨p', cs', hlink, hfound⟩ := ih q ds k found hk
    exact ⟨p', cs', ⟨q, ds, hstep, hlink⟩, hfound⟩

theorem atMost_eq_some {search : Matcher α} {step : Step} (h : Sound search step) (n : Nat) :
    Sound (atMost search n) (fun p cs p' cs' => ∃ m ≤ n, Linked step m p cs p' cs') := by
  induction n with
  | zero => intro p cs k found hrun; exact ⟨p, cs, ⟨0, Nat.le_refl 0, rfl, rfl⟩, hrun⟩
  | succ n ih =>
    intro p cs k found hrun
    rw [atMost] at hrun
    split at hrun
    · next more =>
      obtain ⟨q, ds, hstep, hk⟩ := h p cs _ _ more
      obtain ⟨p', cs', ⟨m, hm, hlink⟩, hfound⟩ := ih q ds k _ hk
      exact ⟨p', cs', ⟨m + 1, by omega, q, ds, hstep, hlink⟩, hfound.trans hrun⟩
    · exact ⟨p, cs, ⟨0, Nat.zero_le _, rfl, rfl⟩, hrun⟩

/-- **Whatever the search finds is reached.**  The induction is on the pattern, with the
continuation left open. -/
theorem run_eq_some (pat : Pattern) : Sound (pat.run : Matcher α) pat.Reaches := by
  induction pat with
  | empty => intro p cs k found hrun; exact ⟨p, cs, ⟨rfl, rfl⟩, hrun⟩
  | one accepts =>
    rintro ⟨before, rest, offset⟩ cs k found hrun
    cases rest with
    | nil => simp at hrun
    | cons c rest =>
      rw [run_one_cons] at hrun
      split at hrun
      · next hc => exact ⟨_, cs, ⟨c, rest, rfl, hc, rfl, rfl⟩, hrun⟩
      · simp at hrun
  | textStart =>
    intro p cs k found hrun
    rw [run] at hrun
    split at hrun
    · next hb => exact ⟨p, cs, ⟨by simpa using hb, rfl, rfl⟩, hrun⟩
    · simp at hrun
  | textEnd =>
    intro p cs k found hrun
    rw [run] at hrun
    split at hrun
    · next hr => exact ⟨p, cs, ⟨by simpa using hr, rfl, rfl⟩, hrun⟩
    · simp at hrun
  | wordEdge =>
    intro p cs k found hrun
    rw [run] at hrun
    split at hrun
    · next he => exact ⟨p, cs, ⟨he, rfl, rfl⟩, hrun⟩
    · simp at hrun
  | seq first second ih₁ ih₂ =>
    intro p cs k found hrun
    obtain ⟨q, ds, hfirst, hk⟩ := ih₁ p cs _ found hrun
    obtain ⟨p', cs', hsecond, hfound⟩ := ih₂ q ds k found hk
    exact ⟨p', cs', ⟨q, ds, hfirst, hsecond⟩, hfound⟩
  | alt first second ih₁ ih₂ =>
    intro p cs k found hrun
    rw [run] at hrun
    split at hrun
    · next hfirst =>
      obtain ⟨p', cs', hreach, hk⟩ := ih₁ p cs k _ hfirst
      exact ⟨p', cs', .inl hreach, hk.trans hrun⟩
    · obtain ⟨p', cs', hreach, hk⟩ := ih₂ p cs k _ hrun
      exact ⟨p', cs', .inr hreach, hk⟩
  | times least most body ih =>
    intro p cs k found hrun
    obtain ⟨q, ds, hleast, hk⟩ := exactly_eq_some ih least p cs _ found hrun
    obtain ⟨p', cs', ⟨m, hm, hmore⟩, hfound⟩ := atMost_eq_some ih _ q ds k found hk
    refine ⟨p', cs', ⟨least + m, Nat.le_add_right _ _, ?_, hleast.append hmore⟩, hfound⟩
    rintro bound rfl
    simp only at hm
    omega
  | group index body ih =>
    intro p cs k found hrun
    obtain ⟨p', ds, hbody, hk⟩ := ih p cs _ found hrun
    exact ⟨p', _, ⟨ds, hbody, rfl⟩, hk⟩

end Search

/-! ## 3. A pattern takes one piece of the text -/

/-- The text between two places. -/
def Between (p : Point) (piece : List Char) (p' : Point) : Prop :=
  p.rest = piece ++ p'.rest ∧ p'.offset = p.offset + Text.utf8Length piece

theorem between_nil (p : Point) : Between p [] p := ⟨rfl, rfl⟩

theorem between_past {p : Point} {c : Char} {rest : List Char} (h : p.rest = c :: rest) :
    Between p [c] (p.past c rest) := ⟨h, rfl⟩

theorem Between.append {p q p' : Point} {s t : List Char} (h₁ : Between p s q)
    (h₂ : Between q t p') : Between p (s ++ t) p' := by
  refine ⟨?_, ?_⟩
  · rw [h₁.1, h₂.1, List.append_assoc]
  · rw [h₂.2, h₁.2, Text.utf8Length_append, Nat.add_assoc]

theorem Linked.takes {step : Step} (h : ∀ p cs p' cs', step p cs p' cs' → ∃ piece, Between p piece p')
    {n : Nat} {p p' : Point} {cs cs' : List Capture} (hlink : Linked step n p cs p' cs') :
    ∃ piece, Between p piece p' := by
  induction n generalizing p cs with
  | zero =>
    obtain ⟨rfl, -⟩ := hlink
    exact ⟨[], between_nil _⟩
  | succ n ih =>
    obtain ⟨q, ds, hstep, hrest⟩ := hlink
    obtain ⟨s, hs⟩ := h p cs q ds hstep
    obtain ⟨t, ht⟩ := ih hrest
    exact ⟨s ++ t, hs.append ht⟩

/-- **A pattern takes one piece of the text.** -/
theorem Reaches.takes {pat : Pattern} {p p' : Point} {cs cs' : List Capture}
    (h : pat.Reaches p cs p' cs') : ∃ piece, Between p piece p' := by
  induction pat generalizing p cs p' cs' with
  | empty => obtain ⟨rfl, -⟩ := h; exact ⟨[], between_nil _⟩
  | one accepts =>
    obtain ⟨c, rest, hrest, -, rfl, -⟩ := h
    exact ⟨[c], between_past hrest⟩
  | textStart => obtain ⟨-, rfl, -⟩ := h; exact ⟨[], between_nil _⟩
  | textEnd => obtain ⟨-, rfl, -⟩ := h; exact ⟨[], between_nil _⟩
  | wordEdge => obtain ⟨-, rfl, -⟩ := h; exact ⟨[], between_nil _⟩
  | seq first second ih₁ ih₂ =>
    obtain ⟨q, ds, h₁, h₂⟩ := h
    obtain ⟨s, hs⟩ := ih₁ h₁
    obtain ⟨t, ht⟩ := ih₂ h₂
    exact ⟨s ++ t, hs.append ht⟩
  | alt first second ih₁ ih₂ =>
    rcases h with h | h
    · exact ih₁ h
    · exact ih₂ h
  | times least most body ih =>
    obtain ⟨n, -, -, hlink⟩ := h
    exact hlink.takes fun p cs p' cs' hstep => ih hstep
  | group index body ih =>
    obtain ⟨ds, hbody, -⟩ := h
    exact ih hbody

/-! ## 4. A pattern records under its own groups -/

/-- The groups of a pattern. -/
def groups : Pattern → List Nat
  | seq first second | alt first second => first.groups ++ second.groups
  | times _ _ body => body.groups
  | group index body => index :: body.groups
  | _ => []

/-- Later pieces stand in front of earlier ones, under groups of a list. -/
def Records (indices : List Nat) (cs cs' : List Capture) : Prop :=
  ∃ new, cs' = new ++ cs ∧ ∀ c ∈ new, c.index ∈ indices

theorem records_refl (indices : List Nat) (cs : List Capture) : Records indices cs cs :=
  ⟨[], rfl, by simp⟩

theorem Records.trans {indices : List Nat} {cs ds es : List Capture} (h₁ : Records indices cs ds)
    (h₂ : Records indices ds es) : Records indices cs es := by
  obtain ⟨new₁, rfl, hnew₁⟩ := h₁
  obtain ⟨new₂, rfl, hnew₂⟩ := h₂
  refine ⟨new₂ ++ new₁, (List.append_assoc ..).symm, ?_⟩
  intro c hc
  rcases List.mem_append.mp hc with hc | hc
  · exact hnew₂ c hc
  · exact hnew₁ c hc

theorem Records.mono {indices indices' : List Nat} {cs ds : List Capture} (h : Records indices cs ds)
    (hsub : indices ⊆ indices') : Records indices' cs ds := by
  obtain ⟨new, hnew, hmem⟩ := h
  exact ⟨new, hnew, fun c hc => hsub (hmem c hc)⟩

theorem Linked.captures {step : Step} {indices : List Nat}
    (h : ∀ p cs p' cs', step p cs p' cs' → Records indices cs cs') {n : Nat} {p p' : Point}
    {cs cs' : List Capture} (hlink : Linked step n p cs p' cs') : Records indices cs cs' := by
  induction n generalizing p cs with
  | zero =>
    obtain ⟨-, rfl⟩ := hlink
    exact records_refl _ _
  | succ n ih =>
    obtain ⟨q, ds, hstep, hrest⟩ := hlink
    exact (h p cs q ds hstep).trans (ih hrest)

/-- **A pattern records pieces only under its own groups.** -/
theorem Reaches.captures {pat : Pattern} {p p' : Point} {cs cs' : List Capture}
    (h : pat.Reaches p cs p' cs') : Records pat.groups cs cs' := by
  induction pat generalizing p cs p' cs' with
  | empty => obtain ⟨-, rfl⟩ := h; exact records_refl _ _
  | one accepts => obtain ⟨-, -, -, -, -, rfl⟩ := h; exact records_refl _ _
  | textStart => obtain ⟨-, -, rfl⟩ := h; exact records_refl _ _
  | textEnd => obtain ⟨-, -, rfl⟩ := h; exact records_refl _ _
  | wordEdge => obtain ⟨-, -, rfl⟩ := h; exact records_refl _ _
  | seq first second ih₁ ih₂ =>
    obtain ⟨q, ds, h₁, h₂⟩ := h
    exact ((ih₁ h₁).mono (List.subset_append_left _ _)).trans
      ((ih₂ h₂).mono (List.subset_append_right _ _))
  | alt first second ih₁ ih₂ =>
    rcases h with h | h
    · exact (ih₁ h).mono (List.subset_append_left _ _)
    · exact (ih₂ h).mono (List.subset_append_right _ _)
  | times least most body ih =>
    obtain ⟨n, -, -, hlink⟩ := h
    exact hlink.captures fun p cs p' cs' hstep => ih hstep
  | group index body ih =>
    obtain ⟨ds, hbody, rfl⟩ := h
    obtain ⟨new, rfl, hnew⟩ := ih hbody
    refine ⟨⟨index, p.offset, p'.offset⟩ :: new, rfl, ?_⟩
    intro c hc
    rcases List.mem_cons.mp hc with rfl | hc
    · exact List.mem_cons_self
    · exact List.mem_cons_of_mem _ (hnew c hc)

/-- A pattern without groups records nothing. -/
theorem Reaches.captures_eq {pat : Pattern} {p p' : Point} {cs cs' : List Capture}
    (h : pat.Reaches p cs p' cs') (hnone : pat.groups = []) : cs' = cs := by
  obtain ⟨new, rfl, hnew⟩ := h.captures
  rw [hnone] at hnew
  cases new with
  | nil => rfl
  | cons c new => exact absurd (hnew c List.mem_cons_self) List.not_mem_nil

/-! ## 5. The building blocks -/

theorem reaches_one {accepts : Char → Bool} {p p' : Point} {cs cs' : List Capture}
    (h : (one accepts).Reaches p cs p' cs') : ∃ c, accepts c = true ∧ Between p [c] p' ∧ cs' = cs := by
  obtain ⟨c, rest, hrest, hc, rfl, rfl⟩ := h
  exact ⟨c, hc, between_past hrest, rfl⟩

theorem linked_one {accepts : Char → Bool} {n : Nat} {p p' : Point} {cs cs' : List Capture}
    (h : Linked (one accepts).Reaches n p cs p' cs') :
    ∃ s, s.length = n ∧ (∀ c ∈ s, accepts c = true) ∧ Between p s p' ∧ cs' = cs := by
  induction n generalizing p cs with
  | zero =>
    obtain ⟨rfl, rfl⟩ := h
    exact ⟨[], rfl, by simp, between_nil _, rfl⟩
  | succ n ih =>
    obtain ⟨q, ds, hone, hrest⟩ := h
    obtain ⟨c, hc, hbetween, rfl⟩ := reaches_one hone
    obtain ⟨s, hlen, hall, hs, rfl⟩ := ih hrest
    refine ⟨c :: s, by simp [hlen], ?_, hbetween.append hs, rfl⟩
    intro d hd
    rcases List.mem_cons.mp hd with rfl | hd
    · exact hc
    · exact hall d hd

/-- A repeated class takes so many characters of the class. -/
theorem reaches_times_one {accepts : Char → Bool} {least : Nat} {most : Option Nat} {p p' : Point}
    {cs cs' : List Capture} (h : (times least most (one accepts)).Reaches p cs p' cs') :
    ∃ s, least ≤ s.length ∧ (∀ m, most = some m → s.length ≤ max least m) ∧
      (∀ c ∈ s, accepts c = true) ∧ Between p s p' ∧ cs' = cs := by
  obtain ⟨n, hleast, hmost, hlink⟩ := h
  obtain ⟨s, rfl, hall, hs, rfl⟩ := linked_one hlink
  exact ⟨s, hleast, hmost, hall, hs, rfl⟩

theorem reaches_char {c : Char} {p p' : Point} {cs cs' : List Capture}
    (h : (char c).Reaches p cs p' cs') : Between p [c] p' ∧ cs' = cs := by
  obtain ⟨d, hd, hbetween, rfl⟩ := reaches_one h
  obtain rfl : d = c := by simpa using hd
  exact ⟨hbetween, rfl⟩

/-- A word takes its own characters. -/
theorem reaches_exact {s : List Char} {p p' : Point} {cs cs' : List Capture}
    (h : (exact s).Reaches p cs p' cs') : Between p s p' ∧ cs' = cs := by
  induction s generalizing p cs with
  | nil =>
    obtain ⟨rfl, rfl⟩ := h
    exact ⟨between_nil _, rfl⟩
  | cons c s ih =>
    cases s with
    | nil => exact reaches_char h
    | cons d s =>
      obtain ⟨q, ds, h₁, h₂⟩ := h
      obtain ⟨hc, rfl⟩ := reaches_char h₁
      obtain ⟨hs, rfl⟩ := ih h₂
      exact ⟨hc.append hs, rfl⟩

/-- One of some patterns reaches what one of them reaches. -/
theorem reaches_oneOf {ps : List Pattern} {p p' : Point} {cs cs' : List Capture}
    (h : (oneOf ps).Reaches p cs p' cs') : ∃ pat ∈ ps, pat.Reaches p cs p' cs' := by
  induction ps with
  | nil =>
    obtain ⟨c, rest, -, hc, -⟩ := h
    exact absurd hc (by simp)
  | cons a ps ih =>
    cases ps with
    | nil => exact ⟨a, List.mem_cons_self, h⟩
    | cons b ps =>
      rcases h with h | h
      · exact ⟨a, List.mem_cons_self, h⟩
      · obtain ⟨pat, hpat, hreach⟩ := ih h
        exact ⟨pat, List.mem_cons_of_mem _ hpat, hreach⟩

/-- One of some words takes the characters of one of them. -/
theorem reaches_words {ws : List String} {p p' : Point} {cs cs' : List Capture}
    (h : (words ws).Reaches p cs p' cs') : ∃ w ∈ ws, Between p w.toList p' ∧ cs' = cs := by
  obtain ⟨pat, hpat, hreach⟩ := reaches_oneOf h
  obtain ⟨w, hw, rfl⟩ := List.mem_map.mp hpat
  exact ⟨w, hw, reaches_exact hreach⟩

/-- A word in any case takes as many characters as it has. -/
theorem reaches_foldings {s : List Char} {p p' : Point} {cs cs' : List Capture}
    (h : (chain (s.map fun c => one fun d => fold d == c)).Reaches p cs p' cs') :
    ∃ t, t.length = s.length ∧ Between p t p' ∧ cs' = cs := by
  induction s generalizing p cs with
  | nil =>
    obtain ⟨rfl, rfl⟩ := h
    exact ⟨[], rfl, between_nil _, rfl⟩
  | cons c s ih =>
    cases s with
    | nil =>
      obtain ⟨d, -, hd, rfl⟩ := reaches_one h
      exact ⟨[d], rfl, hd, rfl⟩
    | cons c' s =>
      obtain ⟨q, ds, h₁, h₂⟩ := h
      obtain ⟨d, -, hd, rfl⟩ := reaches_one h₁
      obtain ⟨t, hlen, ht, rfl⟩ := ih h₂
      exact ⟨d :: t, by simp [hlen], hd.append ht, rfl⟩

/-- One of some words in any case takes as many characters as one of them has. -/
theorem reaches_wordsAnyCase {ws : List String} {p p' : Point} {cs cs' : List Capture}
    (h : (wordsAnyCase ws).Reaches p cs p' cs') :
    ∃ w ∈ ws, ∃ t, t.length = w.toList.length ∧ Between p t p' ∧ cs' = cs := by
  obtain ⟨pat, hpat, hreach⟩ := reaches_oneOf h
  obtain ⟨w, hw, rfl⟩ := List.mem_map.mp hpat
  exact ⟨w, hw, reaches_foldings hreach⟩

/-- An optional piece is there or not. -/
theorem reaches_optional {pat : Pattern} {p p' : Point} {cs cs' : List Capture}
    (h : (optional pat).Reaches p cs p' cs') : (p' = p ∧ cs' = cs) ∨ pat.Reaches p cs p' cs' := by
  obtain ⟨n, -, hmost, hlink⟩ := h
  have hn : n ≤ 1 := by simpa using hmost 1 rfl
  obtain rfl | rfl : n = 0 ∨ n = 1 := by omega
  · exact .inl hlink
  · obtain ⟨q, ds, hstep, rfl, rfl⟩ := hlink
    exact .inr hstep

/-! ## 6. A match in a text -/

theorem findFrom_eq_some {pat : Pattern} {before : Option Char} {offset : Nat} {text : List Char}
    {m : Match} (h : pat.findFrom before offset text = some m) :
    ∃ pre rest c, text = pre ++ rest ∧
      pat.matchAt ⟨c, rest, offset + Text.utf8Length pre⟩ = some m := by
  induction text generalizing before offset with
  | nil => exact ⟨[], [], before, rfl, h⟩
  | cons c text ih =>
    rw [findFrom] at h
    split at h
    · next hat => exact ⟨[], c :: text, before, rfl, hat.trans h⟩
    · obtain ⟨pre, rest, b, rfl, hat⟩ := ih h
      refine ⟨c :: pre, rest, b, rfl, ?_⟩
      rw [Text.utf8Length_cons, ← Nat.add_assoc]
      exact hat

/-- **A match cuts the text in three**: its offsets are those of its piece, and the pattern reaches
the end of the piece from its beginning. -/
theorem find?_eq_some {pat : Pattern} {text : List Char} {m : Match} (h : pat.find? text = some m) :
    ∃ pre piece post p p', text = pre ++ piece ++ post ∧ p.offset = Text.utf8Length pre ∧
      Between p piece p' ∧ m.start = p.offset ∧ m.stop = p'.offset ∧
      pat.Reaches p [] p' m.captures := by
  obtain ⟨pre, rest, c, rfl, hat⟩ := findFrom_eq_some h
  obtain ⟨p', cs', hreach, hm⟩ := run_eq_some pat _ _ _ _ hat
  cases hm
  obtain ⟨piece, hpiece⟩ := hreach.takes
  refine ⟨pre, piece, p'.rest, _, p', ?_, Nat.zero_add _, hpiece, rfl, rfl, hreach⟩
  rw [List.append_assoc, ← hpiece.1]

end CodeAudit.Pattern
