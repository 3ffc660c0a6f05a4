import CodeAudit.Proofs.Pattern.Reach
import Mathlib.Data.List.Basic

/-!
# What a pattern reaches is found

The search hands each place where a pattern can end to a continuation.  That it finds only what is
reached is `run_eq_some`; here is the other half: **if a pattern reaches a place at which the
continuation is content, the search finds something** (`run_complete`).  This is so for continuations
that look at the place only (`PlaceOnly`).  One that looks at the recorded pieces can be missed,
because a repetition without an upper bound leaves out copies that take no character
(`Linked.shorten`), and with them what they would have recorded.

Whether a pattern occurs in a text is then a question about the relation alone (`occursIn_iff`).
-/

namespace CodeAudit.Pattern

/-! ## 1. Where a piece of text ends -/

/-- The place after a piece, before the rest. -/
def Point.after (p : Point) (piece rest : List Char) : Point :=
  ⟨piece.getLast?.or p.before, rest, p.offset + Text.utf8Length piece⟩

theorem Point.after_nil (p : Point) : p.after [] p.rest = p := by
  simp [after]

theorem Point.after_after (p : Point) (s t rest rest' : List Char) :
    (p.after s rest).after t rest' = p.after (s ++ t) rest' := by
  simp [after, List.getLast?_append, Nat.add_assoc, Option.or_assoc]

/-- A pattern takes one piece of the text and ends after it. -/
def Moves (p p' : Point) : Prop := ∃ piece, p.rest = piece ++ p'.rest ∧ p' = p.after piece p'.rest

theorem moves_refl (p : Point) : Moves p p := ⟨[], rfl, p.after_nil.symm⟩

theorem Moves.trans {p q p' : Point} (h₁ : Moves p q) (h₂ : Moves q p') : Moves p p' := by
  obtain ⟨s, hs, hq⟩ := h₁
  obtain ⟨t, ht, hp'⟩ := h₂
  refine ⟨s ++ t, ?_, ?_⟩
  · rw [hs, ht, List.append_assoc]
  · rw [hq, Point.after_after] at hp'
    exact hp'

theorem Linked.moves {step : Step} (h : ∀ p cs p' cs', step p cs p' cs' → Moves p p') {n : Nat}
    {p p' : Point} {cs cs' : List Capture} (hlink : Linked step n p cs p' cs') : Moves p p' := by
  induction n generalizing p cs with
  | zero =>
    obtain ⟨rfl, -⟩ := hlink
    exact moves_refl _
  | succ n ih =>
    obtain ⟨q, ds, hstep, hrest⟩ := hlink
    exact (h p cs q ds hstep).trans (ih hrest)

theorem Reaches.moves {pat : Pattern} {p p' : Point} {cs cs' : List Capture}
    (h : pat.Reaches p cs p' cs') : Moves p p' := by
  induction pat generalizing p cs p' cs' with
  | empty => obtain ⟨rfl, -⟩ := h; exact moves_refl _
  | one accepts =>
    obtain ⟨c, rest, hrest, -, rfl, -⟩ := h
    exact ⟨[c], hrest, by simp [Point.after, Point.past]⟩
  | textStart => obtain ⟨-, rfl, -⟩ := h; exact moves_refl _
  | textEnd => obtain ⟨-, rfl, -⟩ := h; exact moves_refl _
  | wordEdge => obtain ⟨-, rfl, -⟩ := h; exact moves_refl _
  | seq first second ih₁ ih₂ =>
    obtain ⟨q, ds, h₁, h₂⟩ := h
    exact (ih₁ h₁).trans (ih₂ h₂)
  | alt first second ih₁ ih₂ =>
    rcases h with h | h
    · exact ih₁ h
    · exact ih₂ h
  | times least most body ih =>
    obtain ⟨n, -, -, hlink⟩ := h
    exact hlink.moves fun p cs p' cs' hstep => ih hstep
  | group index body ih =>
    obtain ⟨ds, hbody, -⟩ := h
    exact ih hbody

/-- A piece that leaves as much as there was is empty. -/
theorem Moves.lt_or_eq {p p' : Point} (h : Moves p p') : p'.rest.length < p.rest.length ∨ p' = p := by
  obtain ⟨piece, hrest, hp'⟩ := h
  cases piece with
  | nil =>
    rw [List.nil_append] at hrest
    rw [← hrest, Point.after_nil] at hp'
    exact .inr hp'
  | cons c piece =>
    refine .inl ?_
    rw [hrest, List.length_append, List.length_cons]
    omega

/-! ## 2. What was recorded before plays no part -/

/-- A relation that can be gone through from the same place, whatever is recorded there. -/
def Uniform (step : Step) : Prop :=
  ∀ p cs p' cs', step p cs p' cs' → ∀ ds, ∃ ds', step p ds p' ds'

theorem Uniform.linked {step : Step} (h : Uniform step) (n : Nat) : Uniform (Linked step n) := by
  induction n with
  | zero =>
    rintro p cs p' cs' ⟨rfl, -⟩ ds
    exact ⟨ds, rfl, rfl⟩
  | succ n ih =>
    rintro p cs p' cs' ⟨q, es, hstep, hrest⟩ ds
    obtain ⟨es', hstep'⟩ := h p cs q es hstep ds
    obtain ⟨ds', hrest'⟩ := ih q es p' cs' hrest es'
    exact ⟨ds', q, es', hstep', hrest'⟩

theorem Uniform.linkedUpTo {step : Step} (h : Uniform step) (n : Nat) :
    Uniform fun p cs p' cs' => ∃ m ≤ n, Linked step m p cs p' cs' := by
  rintro p cs p' cs' ⟨m, hm, hlink⟩ ds
  obtain ⟨ds', hlink'⟩ := h.linked m p cs p' cs' hlink ds
  exact ⟨ds', m, hm, hlink'⟩

theorem uniform_reaches (pat : Pattern) : Uniform pat.Reaches := by
  induction pat with
  | empty => rintro p cs p' cs' ⟨rfl, -⟩ ds; exact ⟨ds, rfl, rfl⟩
  | one accepts =>
    rintro p cs p' cs' ⟨c, rest, hrest, hc, rfl, -⟩ ds
    exact ⟨ds, c, rest, hrest, hc, rfl, rfl⟩
  | textStart => rintro p cs p' cs' ⟨hp, rfl, -⟩ ds; exact ⟨ds, hp, rfl, rfl⟩
  | textEnd => rintro p cs p' cs' ⟨hp, rfl, -⟩ ds; exact ⟨ds, hp, rfl, rfl⟩
  | wordEdge => rintro p cs p' cs' ⟨hp, rfl, -⟩ ds; exact ⟨ds, hp, rfl, rfl⟩
  | seq first second ih₁ ih₂ =>
    rintro p cs p' cs' ⟨q, es, h₁, h₂⟩ ds
    obtain ⟨es', h₁'⟩ := ih₁ p cs q es h₁ ds
    obtain ⟨ds', h₂'⟩ := ih₂ q es p' cs' h₂ es'
    exact ⟨ds', q, es', h₁', h₂'⟩
  | alt first second ih₁ ih₂ =>
    rintro p cs p' cs' (h | h) ds
    · obtain ⟨ds', h'⟩ := ih₁ p cs p' cs' h ds
      exact ⟨ds', .inl h'⟩
    · obtain ⟨ds', h'⟩ := ih₂ p cs p' cs' h ds
      exact ⟨ds', .inr h'⟩
  | times least most body ih =>
    rintro p cs p' cs' ⟨n, hleast, hmost, hlink⟩ ds
    obtain ⟨ds', hlink'⟩ := ih.linked n p cs p' cs' hlink ds
    exact ⟨ds', n, hleast, hmost, hlink'⟩
  | group index body ih =>
    rintro p cs p' cs' ⟨es, hbody, -⟩ ds
    obtain ⟨ds', hbody'⟩ := ih p cs p' es hbody ds
    exact ⟨_, ds', hbody', rfl⟩

/-- Steps in one run are steps in two. -/
theorem Linked.split {step : Step} {m n : Nat} {p p' : Point} {cs cs' : List Capture}
    (h : Linked step (m + n) p cs p' cs') :
    ∃ q ds, Linked step m p cs q ds ∧ Linked step n q ds p' cs' := by
  induction m generalizing p cs with
  | zero => exact ⟨p, cs, ⟨rfl, rfl⟩, by rwa [Nat.zero_add] at h⟩
  | succ m ih =>
    rw [Nat.add_right_comm] at h
    obtain ⟨r, es, hstep, hrest⟩ := h
    obtain ⟨q, ds, hfirst, hsecond⟩ := ih hrest
    exact ⟨q, ds, ⟨r, es, hstep, hfirst⟩, hsecond⟩

/-- **Copies that take nothing can be left out**, and then there are no more copies than
characters. -/
theorem Linked.shorten {step : Step} (hmoves : ∀ p cs p' cs', step p cs p' cs' → Moves p p')
    (huniform : Uniform step) {n : Nat} {p p' : Point} {cs cs' : List Capture}
    (hlink : Linked step n p cs p' cs') : ∃ m ≤ p.rest.length, ∃ ds, Linked step m p cs p' ds := by
  induction n generalizing p cs with
  | zero =>
    obtain ⟨rfl, rfl⟩ := hlink
    exact ⟨0, Nat.zero_le _, _, rfl, rfl⟩
  | succ n ih =>
    obtain ⟨q, es, hstep, hrest⟩ := hlink
    obtain ⟨m, hm, ds, hshort⟩ := ih hrest
    rcases (hmoves p cs q es hstep).lt_or_eq with hlt | rfl
    · exact ⟨m + 1, by omega, ds, q, es, hstep, hshort⟩
    · obtain ⟨ds', hshort'⟩ := huniform.linked m q es p' ds hshort cs
      exact ⟨m, hm, ds', hshort'⟩

/-! ## 3. The search finds what is reached -/

section Search

variable {α : Type}

/-- A continuation that is content with a place or not, whatever is recorded. -/
def PlaceOnly (k : Continuation α) : Prop := ∀ p cs ds, (k p cs).isSome = (k p ds).isSome

/-- A matcher that finds something whenever a relation reaches what the continuation wants. -/
def Complete (search : Matcher α) (step : Step) : Prop :=
  ∀ p cs k, PlaceOnly k → ∀ p' cs', step p cs p' cs' → (k p' cs').isSome = true →
    (search p cs k).isSome = true

/-- What a matcher finds is again a matter of the place only. -/
theorem PlaceOnly.search {k : Continuation α} (hk : PlaceOnly k) {search : Matcher α} {step : Step}
    (hsound : Sound search step) (hcomplete : Complete search step) (huniform : Uniform step) :
    PlaceOnly fun p cs => search p cs k := by
  have hone (p : Point) (cs ds : List Capture) (h : (search p cs k).isSome = true) :
      (search p ds k).isSome = true := by
    obtain ⟨found, hfound⟩ := Option.isSome_iff_exists.mp h
    obtain ⟨p', cs', hstep, hk'⟩ := hsound p cs k found hfound
    obtain ⟨ds', hstep'⟩ := huniform p cs p' cs' hstep ds
    refine hcomplete p ds k hk p' ds' hstep' ?_
    rw [hk p' ds' cs', hk']
    rfl
  intro p cs ds
  exact Bool.eq_iff_iff.mpr ⟨hone p cs ds, hone p ds cs⟩

theorem exactly_complete {search : Matcher α} {step : Step} (hsound : Sound search step)
    (hcomplete : Complete search step) (huniform : Uniform step) (n : Nat) :
    Complete (exactly search n) (Linked step n) := by
  induction n with
  | zero =>
    rintro p cs k hk p' cs' ⟨rfl, rfl⟩ hfound
    exact hfound
  | succ n ih =>
    rintro p cs k hk p' cs' ⟨q, ds, hstep, hrest⟩ hfound
    refine hcomplete p cs _ ?_ q ds hstep (ih q ds k hk p' cs' hrest hfound)
    exact hk.search (exactly_eq_some hsound n) ih (huniform.linked n)

theorem atMost_complete {search : Matcher α} {step : Step} (hsound : Sound search step)
    (hcomplete : Complete search step) (huniform : Uniform step) (n : Nat) :
    Complete (atMost search n) (fun p cs p' cs' => ∃ m ≤ n, Linked step m p cs p' cs') := by
  induction n with
  | zero =>
    rintro p cs k hk p' cs' ⟨m, hm, hlink⟩ hfound
    obtain rfl := Nat.le_zero.mp hm
    obtain ⟨rfl, rfl⟩ := hlink
    exact hfound
  | succ n ih =>
    rintro p cs k hk p' cs' ⟨m, hm, hlink⟩ hfound
    rw [atMost]
    split
    · rfl
    · next hnone =>
      -- no copy: the continuation is content right here
      cases m with
      | zero =>
        obtain ⟨rfl, rfl⟩ := hlink
        exact hfound
      | succ m =>
        obtain ⟨q, ds, hstep, hrest⟩ := hlink
        have hmore := ih q ds k hk p' cs' ⟨m, Nat.le_of_succ_le_succ hm, hrest⟩ hfound
        have hplace := hk.search (atMost_eq_some hsound n) ih (huniform.linkedUpTo n)
        have hsome := hcomplete p cs _ hplace q ds hstep hmore
        rw [hnone] at hsome
        cases hsome

/-- **What a pattern reaches, the search finds.**  The induction is on the pattern, with the
continuation left open. -/
theorem run_complete (pat : Pattern) : Complete (pat.run : Matcher α) pat.Reaches := by
  induction pat with
  | empty => rintro p cs k hk p' cs' ⟨rfl, rfl⟩ hfound; exact hfound
  | one accepts =>
    rintro ⟨before, rest, offset⟩ cs k hk p' cs' ⟨c, rest', hrest, hc, rfl, rfl⟩ hfound
    obtain rfl : rest = c :: rest' := hrest
    rw [run_one_cons, if_pos hc]
    exact hfound
  | textStart =>
    rintro p cs k hk p' cs' ⟨hp, rfl, rfl⟩ hfound
    rw [run, if_pos (by simp [hp])]
    exact hfound
  | textEnd =>
    rintro p cs k hk p' cs' ⟨hp, rfl, rfl⟩ hfound
    rw [run, if_pos (by simp [hp])]
    exact hfound
  | wordEdge =>
    rintro p cs k hk p' cs' ⟨hp, rfl, rfl⟩ hfound
    rw [run, if_pos hp]
    exact hfound
  | seq first second ih₁ ih₂ =>
    rintro p cs k hk p' cs' ⟨q, ds, h₁, h₂⟩ hfound
    refine ih₁ p cs _ ?_ q ds h₁ (ih₂ q ds k hk p' cs' h₂ hfound)
    exact hk.search (run_eq_some second) ih₂ (uniform_reaches second)
  | alt first second ih₁ ih₂ =>
    rintro p cs k hk p' cs' h hfound
    rw [run]
    split
    · rfl
    · next hnone =>
      rcases h with h | h
      · have hsome := ih₁ p cs k hk p' cs' h hfound
        rw [hnone] at hsome
        cases hsome
      · exact ih₂ p cs k hk p' cs' h hfound
  | times least most body ih =>
    rintro p cs k hk p' cs' ⟨n, hleast, hmost, hlink⟩ hfound
    have hsound : Sound (body.run : Matcher α) body.Reaches := run_eq_some body
    have huniform := uniform_reaches body
    obtain ⟨more, rfl⟩ := Nat.exists_eq_add_of_le hleast
    obtain ⟨q, ds, hfirst, hrest⟩ := hlink.split
    rw [run]
    refine exactly_complete hsound ih huniform least p cs _ ?_ q ds hfirst ?_
    · intro p cs ds
      exact hk.search (atMost_eq_some hsound _) (atMost_complete hsound ih huniform _)
        (huniform.linkedUpTo _) p cs ds
    · cases most with
      | none =>
        obtain ⟨m, hm, es, hshort⟩ := hrest.shorten (fun _ _ _ _ h => h.moves) huniform
        refine atMost_complete hsound ih huniform _ q ds k hk p' es ⟨m, hm, hshort⟩ ?_
        rw [hk p' es cs']
        exact hfound
      | some m =>
        have hbound := hmost m rfl
        have hmore : more ≤ m - least := by omega
        exact atMost_complete hsound ih huniform _ q ds k hk p' cs' ⟨more, hmore, hrest⟩ hfound
  | group index body ih =>
    rintro p cs k hk p' cs' ⟨ds, hbody, rfl⟩ hfound
    exact ih p cs _ (fun p' cs ds => hk p' _ _) p' ds hbody hfound

end Search

/-! ## 4. Occurrences -/

/-- The place in a text between what is before it and the rest. -/
def Point.between (pre rest : List Char) : Point := ⟨pre.getLast?, rest, Text.utf8Length pre⟩

theorem matchAt_isSome_iff {pat : Pattern} {p : Point} :
    (pat.matchAt p).isSome = true ↔ ∃ p' cs', pat.Reaches p [] p' cs' := by
  constructor
  · intro h
    obtain ⟨found, hfound⟩ := Option.isSome_iff_exists.mp h
    obtain ⟨p', cs', hreach, -⟩ := run_eq_some pat p [] _ found hfound
    exact ⟨p', cs', hreach⟩
  · rintro ⟨p', cs', hreach⟩
    exact run_complete pat p [] _ (fun _ _ _ => rfl) p' cs' hreach rfl

theorem findFrom_isSome_iff {pat : Pattern} {done text : List Char} :
    (pat.findFrom done.getLast? (Text.utf8Length done) text).isSome = true ↔
      ∃ pre rest, text = pre ++ rest ∧ (pat.matchAt (.between (done ++ pre) rest)).isSome = true := by
  induction text generalizing done with
  | nil =>
    rw [findFrom]
    constructor
    · intro h
      exact ⟨[], [], rfl, by rwa [List.append_nil]⟩
    · rintro ⟨pre, rest, htext, h⟩
      obtain ⟨rfl, rfl⟩ := List.append_eq_nil_iff.mp htext.symm
      rwa [List.append_nil] at h
  | cons c text ih =>
    have hnext := @ih (done ++ [c])
    rw [List.getLast?_concat, Text.utf8Length_append, Text.utf8Length_cons, Text.utf8Length_nil,
      Nat.add_zero] at hnext
    rw [findFrom]
    split
    · next m hat =>
      refine ⟨fun _ => ⟨[], c :: text, rfl, ?_⟩, fun _ => rfl⟩
      rw [List.append_nil, Point.between, hat]
      rfl
    · next hnone =>
      rw [hnext]
      constructor
      · rintro ⟨pre, rest, rfl, h⟩
        exact ⟨c :: pre, rest, rfl, by simpa using h⟩
      · rintro ⟨pre, rest, htext, h⟩
        cases pre with
        | nil =>
          obtain rfl : rest = c :: text := htext.symm
          rw [List.append_nil, Point.between, hnone] at h
          cases h
        | cons c' pre =>
          obtain ⟨rfl, rfl⟩ := List.cons.inj htext
          exact ⟨pre, rest, rfl, by simpa using h⟩

/-- **A pattern occurs in a text if it reaches something from some place of the text.** -/
theorem occursIn_iff {pat : Pattern} {text : List Char} :
    pat.occursIn text = true ↔
      ∃ pre rest p' cs', text = pre ++ rest ∧ pat.Reaches (.between pre rest) [] p' cs' := by
  unfold occursIn find?
  rw [show none = ([] : List Char).getLast? from rfl, show 0 = Text.utf8Length [] from rfl,
    findFrom_isSome_iff]
  simp only [matchAt_isSome_iff, List.nil_append]
  constructor
  · rintro ⟨pre, rest, htext, p', cs', hreach⟩
    exact ⟨pre, rest, p', cs', htext, hreach⟩
  · rintro ⟨pre, rest, p', cs', htext, hreach⟩
    exact ⟨pre, rest, htext, p', cs', hreach⟩

/-! ## 5. Pieces between edges -/

theorem Point.between_after (pre s rest : List Char) :
    (between pre (s ++ rest)).after s rest = between (pre ++ s) rest := by
  simp [between, after, List.getLast?_append]

/-- A pattern that takes a known piece ends after it. -/
theorem Reaches.eq_after {pat : Pattern} {p p' : Point} {cs cs' : List Capture} {s : List Char}
    (h : pat.Reaches p cs p' cs') (hs : Between p s p') : p' = p.after s p'.rest := by
  obtain ⟨piece, hrest, hp'⟩ := h.moves
  obtain rfl : piece = s := List.append_cancel_right (hrest.symm.trans hs.1)
  exact hp'

theorem Point.past_eq_after (p : Point) (c : Char) (rest : List Char) :
    p.past c rest = p.after [c] rest := by
  simp [past, after]

/-- **A text takes itself and nothing else.** -/
theorem reaches_exact_iff {s : List Char} {p p' : Point} {cs cs' : List Capture} :
    (exact s).Reaches p cs p' cs' ↔ ∃ rest, p.rest = s ++ rest ∧ p' = p.after s rest ∧ cs' = cs := by
  constructor
  · intro h
    obtain ⟨hs, hcs⟩ := reaches_exact h
    exact ⟨p'.rest, hs.1, h.eq_after hs, hcs⟩
  · rintro ⟨rest, hrest, rfl, rfl⟩
    induction s generalizing p with
    | nil =>
      obtain rfl : p.rest = rest := hrest
      exact ⟨p.after_nil, rfl⟩
    | cons c s ih =>
      have hchar : (char c).Reaches p cs' (p.after [c] (s ++ rest)) cs' :=
        ⟨c, s ++ rest, hrest, by simp, (p.past_eq_after c _).symm, rfl⟩
      have hmore := @ih (p.after [c] (s ++ rest)) rfl
      rw [Point.after_after] at hmore
      cases s with
      | nil => exact hchar
      | cons c' s => exact ⟨_, _, hchar, hmore⟩

/-- **Any number of characters of a class takes a row of such characters.** -/
theorem reaches_many_one_iff {accepts : Char → Bool} {p p' : Point} {cs cs' : List Capture} :
    (many (one accepts)).Reaches p cs p' cs' ↔
      ∃ s rest, (∀ c ∈ s, accepts c = true) ∧ p.rest = s ++ rest ∧ p' = p.after s rest ∧ cs' = cs := by
  constructor
  · intro h
    obtain ⟨s, -, -, hall, hs, hcs⟩ := reaches_times_one h
    exact ⟨s, p'.rest, hall, hs.1, h.eq_after hs, hcs⟩
  · rintro ⟨s, rest, hall, hrest, rfl, rfl⟩
    refine ⟨s.length, Nat.zero_le _, (fun m hm => nomatch hm), ?_⟩
    induction s generalizing p with
    | nil =>
      obtain rfl : p.rest = rest := hrest
      exact ⟨p.after_nil, rfl⟩
    | cons c s ih =>
      have hone : (one accepts).Reaches p cs' (p.after [c] (s ++ rest)) cs' :=
        ⟨c, s ++ rest, hrest, hall c List.mem_cons_self, (p.past_eq_after c _).symm, rfl⟩
      have hmore := @ih (p.after [c] (s ++ rest)) (fun d hd => hall d (List.mem_cons_of_mem c hd)) rfl
      rw [Point.after_after] at hmore
      exact ⟨_, _, hone, hmore⟩

end CodeAudit.Pattern
