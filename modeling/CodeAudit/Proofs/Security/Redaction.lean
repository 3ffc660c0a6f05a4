import CodeAudit.Proofs.Pattern.Reach
import CodeAudit.Proofs.Text.Trim
import CodeAudit.Security.Secret
import Mathlib.Tactic.Tauto

/-!
# Which credentials are masked

A rule of the table masks its second group, or everything it matched where that group took no part.
What should be masked is the *credential*: the value in quotes for the rules that look for one, and
all that was matched for the rules that look for a key of a known form.  The two are told apart
here, the credential being found without looking at any group (`SecretRule.credential`).

* `Sighting.Masked`: of the credential at most four characters are left, and then the mask.
* `SecretRule.Misses`: the second group took part and is not the credential.  **That is so for every
  match of one rule, and for those matches of another in which an optional word took part.**
* `table_masks_credential_iff`: the code that is reported masks the credential exactly when the rule
  does not miss it; and it still shows the credential somewhere exactly when the credential stands a
  second time in what is shown of the line, or ends in four stars itself.
-/

namespace CodeAudit.Security

open Pattern (Point Capture Match Between)

/-! ## 1. The credential of a match -/

/-- The three parts of a text that two byte offsets cut it into. -/
def cutAt (text : List Char) (start stop : Nat) : Option (List Char × List Char × List Char) :=
  match Text.takeBytes start text, Text.slice start stop text, Text.dropBytes stop text with
  | some before, some part, some after => some (before, part, after)
  | _, _, _ => none

/-- What stands before, in and after the last quotes of a text that ends with a quote. -/
def lastQuoted (matched : List Char) : List Char × List Char × List Char :=
  let inner := matched.dropLast
  let value := (inner.reverse.takeWhile (!Text.isQuote ·)).reverse
  (inner.take (inner.length - value.length), value, matched.drop inner.length)

namespace SecretRule

/-- Whether the credential of a rule is a value in quotes. -/
def quotesCredential (rule : SecretRule) : Bool :=
  ["api_key", "password", "bearer_token", "aws_secret_key"].contains rule.name

/-- What stands before, in and after the credential, in what a rule matched. -/
def credential (rule : SecretRule) (matched : List Char) : List Char × List Char × List Char :=
  if rule.quotesCredential then lastQuoted matched else ([], matched, [])

/-- Whether a rule masks something else than the credential. -/
def Misses (rule : SecretRule) (m : Match) : Prop :=
  rule.name = "stripe_key" ∨ rule.name = "aws_secret_key" ∧ (m.capture? 2).isSome = true

end SecretRule

/-- A line with a credential in it. -/
structure Sighting where
  before : List Char
  credential : List Char
  after : List Char
  deriving DecidableEq, Repr

/-- Where the credential of a match stands in the line. -/
def SecretRule.sighting? (rule : SecretRule) (text : List Char) (m : Match) : Option Sighting :=
  (cutAt text m.start m.stop).map fun (pre, matched, post) =>
    let (lead, credential, trail) := rule.credential matched
    ⟨pre ++ lead, credential, trail ++ post⟩

namespace Sighting

/-- The whole line. -/
def line (s : Sighting) : List Char := s.before ++ s.credential ++ s.after

def stars : List Char := ['*', '*', '*', '*']

/-- At most the first four characters of the credential are left, followed by the mask; around it
stands some beginning and some end of the line. -/
def Masked (s : Sighting) (code : List Char) : Prop :=
  ∃ front kept back, front <+: s.before ∧ kept <+: s.credential ∧ kept.length ≤ 4 ∧
    back <:+ s.after ∧ code = Text.trim (front ++ kept ++ stars ++ back)

/-- The credential is four characters and then four stars, so masking it changes nothing. -/
def Starred (s : Sighting) : Prop := s.credential = s.credential.take 4 ++ stars

end Sighting

/-- What is shown of a line before and after the mask. -/
def shown? (text : List Char) (m : Match) : Option (List Char × List Char) :=
  (cutAt text (maskedPart m).1 (maskedPart m).2).map fun (before, part, after) =>
    (before ++ part.take 4, after)

/-- The code that is reported for a match. -/
def reportedCode (text : List Char) (m : Match) : List Char :=
  Text.trim (Text.redact text (maskedPart m).1 (maskedPart m).2)

/-! ## 2. Cutting, masking, trimming -/

theorem cutAt_append (p s q : List Char) :
    cutAt (p ++ s ++ q) (Text.utf8Length p) (Text.utf8Length p + Text.utf8Length s) = some (p, s, q) := by
  have h₁ : Text.takeBytes (Text.utf8Length p) (p ++ s ++ q) = some p := by
    rw [List.append_assoc]
    exact Text.takeBytes_append p (s ++ q)
  have h₂ : Text.dropBytes (Text.utf8Length p + Text.utf8Length s) (p ++ s ++ q) = some q := by
    rw [← Text.utf8Length_append]
    exact Text.dropBytes_append (p ++ s) q
  rw [cutAt, h₁, Text.slice_append, h₂]

/-- The last quotes of a text are where its last value in quotes stands. -/
theorem lastQuoted_eq (lead value : List Char) {q q' : Char} (hq : Text.isQuote q = true)
    (hvalue : ∀ c ∈ value, Text.isQuote c = false) :
    lastQuoted (lead ++ q :: (value ++ [q'])) = (lead ++ [q], value, [q']) := by
  have hinner : (lead ++ q :: (value ++ [q'])).dropLast = lead ++ q :: value := by
    rw [show lead ++ q :: (value ++ [q']) = (lead ++ q :: value) ++ [q'] by simp, List.dropLast_concat]
  have hlast : ((lead ++ q :: value).reverse.takeWhile (!Text.isQuote ·)).reverse = value := by
    rw [show (lead ++ q :: value).reverse = value.reverse ++ q :: lead.reverse by simp,
      List.takeWhile_append_of_pos (by simpa using hvalue), List.takeWhile_cons_of_neg (by simp [hq])]
    simp
  unfold lastQuoted
  simp only [hinner, hlast]
  refine Prod.ext ?_ (Prod.ext rfl ?_)
  · simp only
    rw [show lead ++ q :: value = (lead ++ [q]) ++ value by simp, List.length_append,
      Nat.add_sub_cancel, List.take_left']
    rfl
  · simp only
    rw [show lead ++ q :: (value ++ [q']) = (lead ++ q :: value) ++ [q'] by simp, List.drop_left']
    rfl

theorem isSpace_star : Text.isSpace '*' = false := by decide

/-- Trimming stops at the mask on both sides. -/
theorem trim_stars (front back : List Char) :
    Text.trim (front ++ Sighting.stars ++ back) =
      Text.trimStart front ++ Sighting.stars ++ Text.trimEnd back := by
  have htail : Text.trimEnd ('*' :: '*' :: '*' :: back) = '*' :: '*' :: '*' :: Text.trimEnd back :=
    Text.trimEnd_append_cons ['*', '*'] back isSpace_star
  have h := Text.trim_append_cons front ('*' :: '*' :: '*' :: back) isSpace_star
  rw [htail] at h
  simpa [Sighting.stars] using h

/-- Where the mask stands is known once the masked part is. -/
theorem reportedCode_eq {text A M B : List Char} {m : Match} (htext : text = A ++ M ++ B) (hM : M ≠ [])
    (hpart : maskedPart m = (Text.utf8Length A, Text.utf8Length A + Text.utf8Length M)) :
    shown? text m = some (A ++ M.take 4, B) ∧
      reportedCode text m = Text.trimStart (A ++ M.take 4) ++ Sighting.stars ++ Text.trimEnd B := by
  subst htext
  constructor
  · rw [shown?, hpart, cutAt_append]
    rfl
  · rw [reportedCode, hpart, Text.redact_append A M B hM]
    rw [show "****".toList = Sighting.stars from rfl, trim_stars]

/-! ## 3. Is the credential still there? -/

section Exposure

variable {credential F B : List Char}

theorem infix_stars_iff (hstar : '*' ∉ credential) (hne : credential ≠ []) :
    credential <:+: F ++ Sighting.stars ++ B ↔ credential <:+: F ∨ credential <:+: B := by
  have split : credential <:+: F ++ '*' :: ([] ++ '*' :: ([] ++ '*' :: ([] ++ '*' :: B))) ↔
      credential <:+: F ∨ credential <:+: B := by
    simp only [Text.infix_append_cons_iff hstar, List.infix_nil, hne, false_or]
  simpa [Sighting.stars] using split

/-- A credential without stars is shown exactly if it stands beside the mask. -/
theorem exposed_iff_of_no_star {s : Sighting} (hstar : '*' ∉ s.credential) (hne : s.credential ≠ []) :
    s.credential <:+: F ++ Sighting.stars ++ B ↔
      s.credential <:+: F ∨ s.credential <:+: B ∨ s.Starred := by
  have hnot : ¬ s.Starred := by
    intro h
    have hmem : '*' ∈ s.credential.take 4 ++ Sighting.stars := by simp [Sighting.stars]
    exact hstar (h ▸ hmem)
  rw [infix_stars_iff hstar hne]
  simp only [hnot, or_false]

/-- A credential in quotes is shown exactly if it stands beside its quotes, or is what the mask
makes of it. -/
theorem exposed_iff_of_quoted {s : Sighting} {q q' : Char} (hq : q ∉ s.credential)
    (hq' : q' ∉ s.credential) (hlen : 8 ≤ s.credential.length) :
    s.credential <:+: (F ++ q :: s.credential.take 4) ++ Sighting.stars ++ q' :: B ↔
      s.credential <:+: F ++ q :: s.credential.take 4 ∨ s.credential <:+: q' :: B ∨ s.Starred := by
  have htake : (s.credential.take 4).length = 4 := by
    rw [List.length_take]
    omega
  -- between the quotes there are eight characters, so the credential fills them or is not there
  have hmask : s.credential <:+: s.credential.take 4 ++ Sighting.stars ↔ s.Starred := by
    constructor
    · intro h
      refine h.sublist.eq_of_length_le ?_
      rw [List.length_append, htake]
      exact hlen
    · intro h
      exact (congrArg (s.credential <:+: ·) h).mp (List.infix_refl s.credential)
  have hshort : ¬ s.credential <:+: s.credential.take 4 := by
    intro h
    have := h.length_le
    omega
  have hnil : ¬ s.credential <:+: [] := by
    intro h
    rw [List.infix_nil] at h
    simp [h] at hlen
  have hcode : (F ++ q :: s.credential.take 4) ++ Sighting.stars ++ q' :: B =
      F ++ q :: ((s.credential.take 4 ++ Sighting.stars) ++ q' :: B) := by simp
  have hback : s.credential <:+: q' :: B ↔ s.credential <:+: [] ∨ s.credential <:+: B :=
    Text.infix_append_cons_iff (s := []) hq'
  rw [hcode, Text.infix_append_cons_iff hq, Text.infix_append_cons_iff hq',
    Text.infix_append_cons_iff hq, hback, hmask]
  tauto

end Exposure

/-! ## 4. Is the mask on the credential? -/

/-- Masked code is hardly longer than what stands around the credential. -/
theorem Sighting.Masked.length_le {s : Sighting} {code : List Char} (h : s.Masked code) :
    code.length ≤ (Text.trimStart s.before).length + 8 + (Text.trimEnd s.after).length := by
  obtain ⟨front, kept, back, ⟨front', hfront⟩, -, hlen, ⟨back', hback⟩, rfl⟩ := h
  have h₁ := Text.length_trimStart_append_le front kept
  have h₂ := Text.length_trimStart_le_append front front'
  have h₃ := Text.length_trimEnd_le_append back' back
  rw [hfront] at h₂
  rw [hback] at h₃
  rw [trim_stars, List.length_append, List.length_append]
  simp only [Sighting.stars, List.length_cons, List.length_nil]
  omega

/-! ## 5. What a match comes to

Each form of the table is taken apart by what its pattern reaches, and then judged. -/

/-- The credential of a match and what the report shows of the line: the mask is on the credential
unless the rule misses it, and the credential is seen only beside the mask. -/
def Verdict (rule : SecretRule) (text : List Char) (m : Match) : Prop :=
  ∃ s front back, rule.sighting? text m = some s ∧ text = s.line ∧ shown? text m = some (front, back) ∧
    (s.Masked (reportedCode text m) ↔ ¬ rule.Misses m) ∧
    (s.credential <:+: reportedCode text m ↔
      s.credential <:+: Text.trimStart front ∨ s.credential <:+: Text.trimEnd back ∨ s.Starred)

theorem isQuote_iff {c : Char} : Text.isQuote c = true ↔ c = '"' ∨ c = '\'' := by
  simp [Text.isQuote]

theorem isQuote_eq_false {c : Char} (hdouble : c ≠ '"') (hsingle : c ≠ '\'') : Text.isQuote c = false := by
  simp [Text.isQuote, hdouble, hsingle]

theorem isSpace_of_isQuote {c : Char} (h : Text.isQuote c = true) : Text.isSpace c = false := by
  rcases isQuote_iff.mp h with rfl | rfl <;> decide

theorem reaches_quoteChar {p p' : Point} {cs cs' : List Capture} (h : quoteChar.Reaches p cs p' cs') :
    ∃ q, Text.isQuote q = true ∧ Between p [q] p' ∧ cs' = cs := by
  obtain ⟨q, hq, hbetween, rfl⟩ := Pattern.reaches_one h
  refine ⟨q, isQuote_iff.mpr ?_, hbetween, rfl⟩
  simpa using hq

/-- A sighting, from the parts of the line that a rule finds. -/
theorem sighting?_eq {rule : SecretRule} {pre matched lead credential trail : List Char} {m : Match}
    (hcred : rule.credential matched = (lead, credential, trail))
    (hstart : m.start = Text.utf8Length pre)
    (hstop : m.stop = Text.utf8Length pre + Text.utf8Length matched) (post : List Char) :
    rule.sighting? (pre ++ matched ++ post) m = some ⟨pre ++ lead, credential, trail ++ post⟩ := by
  rw [SecretRule.sighting?, hstart, hstop, cutAt_append]
  simp [hcred]

/-! ### A value in quotes after a name -/

theorem reaches_assigned {name : Pattern} {accepts : Char → Bool} {n : Nat} {p p' : Point}
    {cs' : List Capture}
    (h : (assigned name (.times n none (.one accepts))).Reaches p [] p' cs') :
    ∃ lead q value q', Text.isQuote q = true ∧ Text.isQuote q' = true ∧ n ≤ value.length ∧
      (∀ c ∈ value, accepts c = true) ∧ Between p (lead ++ q :: (value ++ [q'])) p' ∧
      cs'.find? (·.index == 2) =
        some ⟨2, p.offset + Text.utf8Length (lead ++ [q]),
          p.offset + Text.utf8Length (lead ++ [q]) + Text.utf8Length value⟩ := by
  obtain ⟨p₁, cs₁, ⟨ds, h₁, rfl⟩, p₂, cs₂, h₂, p₃, cs₃, h₃, p₄, cs₄, h₄, p₅, cs₅, h₅, p₆, cs₆,
    ⟨es, h₆, rfl⟩, h₇⟩ := h
  obtain ⟨s₁, hs₁⟩ := h₁.takes
  obtain ⟨s₂, hs₂⟩ := h₂.takes
  obtain ⟨s₃, hs₃⟩ := h₃.takes
  obtain ⟨s₄, hs₄⟩ := h₄.takes
  obtain ⟨q, hq, hs₅, rfl⟩ := reaches_quoteChar h₅
  obtain ⟨value, hlen, -, hall, hs₆, rfl⟩ := Pattern.reaches_times_one h₆
  obtain ⟨q', hq', hs₇, rfl⟩ := reaches_quoteChar h₇
  have hlead : Between p ((s₁ ++ (s₂ ++ (s₃ ++ s₄))) ++ [q]) p₅ :=
    (hs₁.append (hs₂.append (hs₃.append hs₄))).append hs₅
  have hwhole : Between p (((s₁ ++ (s₂ ++ (s₃ ++ s₄))) ++ [q]) ++ (value ++ [q'])) p' :=
    hlead.append (hs₆.append hs₇)
  refine ⟨s₁ ++ (s₂ ++ (s₃ ++ s₄)), q, value, q', hq, hq', hlen, hall, ?_, ?_⟩
  · simpa using hwhole
  · rw [← hlead.2, ← hs₆.2]
    rfl

/-- **A rule for a value in quotes after a name masks that value.** -/
theorem verdict_of_assigned {rule : SecretRule} {text : List Char} {m : Match} {name : Pattern}
    {accepts : Char → Bool} {n : Nat} (hpattern : rule.pattern = assigned name (.times n none (.one accepts)))
    (hquotes : rule.quotesCredential = true) (hhits : ¬ rule.Misses m) (hn : 8 ≤ n)
    (hdouble : accepts '"' = false) (hsingle : accepts '\'' = false)
    (hm : rule.pattern.find? text = some m) : Verdict rule text m := by
  obtain ⟨pre, piece, post, p, p', rfl, hoffset, hpiece, hstart, hstop, hreach⟩ :=
    Pattern.find?_eq_some hm
  rw [hpattern] at hreach
  obtain ⟨lead, q, value, q', hq, hq', hlen, hall, hbetween, hcapture⟩ := reaches_assigned hreach
  obtain rfl : piece = lead ++ q :: (value ++ [q']) :=
    List.append_cancel_right (hpiece.1.symm.trans hbetween.1)
  have hvalue : ∀ c ∈ value, Text.isQuote c = false := by
    intro c hc
    refine isQuote_eq_false ?_ ?_
    · rintro rfl
      exact Bool.false_ne_true (hdouble ▸ hall _ hc)
    · rintro rfl
      exact Bool.false_ne_true (hsingle ▸ hall _ hc)
  have hne : value ≠ [] := by
    rintro rfl
    simp at hlen
    omega
  have hnotin : ∀ {d : Char}, Text.isQuote d = true → d ∉ value := by
    intro d hd hmem
    rw [hvalue d hmem] at hd
    exact Bool.false_ne_true hd
  have hcred : rule.credential (lead ++ q :: (value ++ [q'])) = (lead ++ [q], value, [q']) := by
    rw [SecretRule.credential, if_pos hquotes, lastQuoted_eq lead value hq hvalue]
  have hpart : maskedPart m = (Text.utf8Length (pre ++ (lead ++ [q])),
      Text.utf8Length (pre ++ (lead ++ [q])) + Text.utf8Length value) := by
    rw [maskedPart, Match.capture?, hcapture, hoffset, Text.utf8Length_append pre (lead ++ [q])]
  have htext : pre ++ (lead ++ q :: (value ++ [q'])) ++ post =
      (pre ++ (lead ++ [q])) ++ value ++ ([q'] ++ post) := by simp
  obtain ⟨hshown, hcode⟩ := reportedCode_eq htext hne hpart
  have hsight := sighting?_eq hcred (hstart.trans hoffset)
    (hstop.trans (hpiece.2.trans (by rw [hoffset]))) post
  refine ⟨_, _, _, hsight, htext, hshown, iff_of_true ?_ hhits, ?_⟩
  · refine ⟨pre ++ (lead ++ [q]), value.take 4, [q'] ++ post, List.prefix_refl _,
      List.take_prefix 4 value, List.length_take_le 4 value, List.suffix_refl _, ?_⟩
    rw [hcode, trim_stars]
  · have hF : Text.trimStart (pre ++ (lead ++ [q]) ++ value.take 4) =
        Text.trimStart (pre ++ lead) ++ q :: value.take 4 := by
      have h := Text.trimStart_append_cons (pre ++ lead) (value.take 4) (isSpace_of_isQuote hq)
      simpa using h
    have hB : Text.trimEnd ([q'] ++ post) = q' :: Text.trimEnd post :=
      Text.trimEnd_append_cons [] post (isSpace_of_isQuote hq')
    rw [hcode, hF, hB]
    exact exposed_iff_of_quoted (s := ⟨_, value, _⟩) (hnotin hq) (hnotin hq') (Nat.le_trans hn hlen)

/-! ### A key of a known form -/

/-- Without a group of its own, a rule masks all that it matched. -/
theorem maskedPart_of_not_mem_groups {pat : Pattern} {p p' : Point} {m : Match}
    (hgroup : 2 ∉ pat.groups) (h : pat.Reaches p [] p' m.captures) :
    m.capture? 2 = none ∧ maskedPart m = (m.start, m.stop) := by
  obtain ⟨new, hnew, hindex⟩ := h.captures
  have hnone : m.capture? 2 = none := by
    rw [Match.capture?, hnew, List.append_nil, List.find?_eq_none]
    intro c hc
    have hne : c.index ≠ 2 := fun heq => hgroup (heq ▸ hindex c hc)
    simpa using hne
  exact ⟨hnone, by rw [maskedPart, hnone]⟩

/-- **A rule for a key of a known form masks the key, if it has no second group.** -/
theorem verdict_of_whole {rule : SecretRule} {text : List Char} {m : Match}
    (hquotes : rule.quotesCredential = false) (hhits : ¬ rule.Misses m) (hgroup : 2 ∉ rule.pattern.groups)
    (hkey : ∀ {p p' cs'}, rule.pattern.Reaches p [] p' cs' →
      ∃ key, Between p key p' ∧ key ≠ [] ∧ '*' ∉ key)
    (hm : rule.pattern.find? text = some m) : Verdict rule text m := by
  obtain ⟨pre, piece, post, p, p', rfl, hoffset, hpiece, hstart, hstop, hreach⟩ :=
    Pattern.find?_eq_some hm
  obtain ⟨key, hbetween, hne, hstar⟩ := hkey hreach
  obtain rfl : piece = key := List.append_cancel_right (hpiece.1.symm.trans hbetween.1)
  have hcred : rule.credential piece = ([], piece, []) := by
    rw [SecretRule.credential, hquotes]
    rfl
  have hstart' : m.start = Text.utf8Length pre := hstart.trans hoffset
  have hstop' : m.stop = Text.utf8Length pre + Text.utf8Length piece := by
    rw [hstop, hpiece.2, hoffset]
  have hpart : maskedPart m = (Text.utf8Length pre, Text.utf8Length pre + Text.utf8Length piece) := by
    rw [(maskedPart_of_not_mem_groups hgroup hreach).2, hstart', hstop']
  obtain ⟨hshown, hcode⟩ := reportedCode_eq rfl hne hpart
  refine ⟨_, _, _, sighting?_eq hcred hstart' hstop' post, by simp [Sighting.line], hshown,
    iff_of_true ?_ hhits, ?_⟩
  · refine ⟨pre, piece.take 4, post, by simp, List.take_prefix 4 piece, List.length_take_le 4 piece,
      by simp, ?_⟩
    rw [hcode, trim_stars]
  · rw [hcode]
    exact exposed_iff_of_no_star (s := ⟨_, piece, _⟩) hstar hne

/-! ### A key behind a mode -/

/-- A letter or digit is neither blank nor star. -/
theorem not_isSpace_of_plain {c : Char} (h : (Text.isAsciiLetter c || Text.isAsciiDigit c) = true) :
    Text.isSpace c = false ∧ c ≠ '*' := by
  have hrange : 48 ≤ c.toNat ∧ c.toNat ≤ 122 := by
    simp only [Text.isAsciiLetter, Text.isAsciiDigit, Bool.or_eq_true, Bool.and_eq_true,
      decide_eq_true_eq, Char.le_def, UInt32.le_iff_toNat_le] at h
    have hval : c.toNat = c.val.toNat := rfl
    rcases h with (⟨h₁, h₂⟩ | ⟨h₁, h₂⟩) | ⟨h₁, h₂⟩ <;> simp at h₁ h₂ <;> omega
  constructor
  · simp only [Text.isSpace, Bool.or_eq_false_iff, Bool.and_eq_false_iff, decide_eq_false_iff_not,
      beq_eq_false_iff_ne]
    omega
  · rintro rfl
    simp at hrange

/-- A word of two letters, a mode, and the key, joined by underscores; the mode is the second
group. -/
theorem reaches_modeKey {p p' : Point} {cs' : List Capture}
    (h : (Pattern.chain [.group 1 (.words ["sk", "pk", "rk"]), .char '_', .group 2 (.words ["live", "test"]),
      .char '_', .times 10 none plainKeyChar]).Reaches p [] p' cs') :
    ∃ lead mode key last, mode ≠ [] ∧ 9 ≤ key.length ∧ Text.isSpace last = false ∧
      '*' ∉ lead ++ mode ++ '_' :: (key ++ [last]) ∧
      Between p (lead ++ mode ++ '_' :: (key ++ [last])) p' ∧
      cs'.find? (·.index == 2) =
        some ⟨2, p.offset + Text.utf8Length lead, p.offset + Text.utf8Length lead + Text.utf8Length mode⟩ := by
  obtain ⟨p₁, cs₁, ⟨ds, h₁, rfl⟩, p₂, cs₂, h₂, p₃, cs₃, ⟨es, h₃, rfl⟩, p₄, cs₄, h₄, h₅⟩ := h
  obtain ⟨owner, howner, hs₁, rfl⟩ := Pattern.reaches_words h₁
  obtain ⟨hs₂, rfl⟩ := Pattern.reaches_char h₂
  obtain ⟨mode, hmode, hs₃, rfl⟩ := Pattern.reaches_words h₃
  obtain ⟨hs₄, rfl⟩ := Pattern.reaches_char h₄
  obtain ⟨key, hlen, -, hall, hs₅, rfl⟩ := Pattern.reaches_times_one h₅
  obtain ⟨key, last, rfl⟩ : ∃ init last, key = init ++ [last] := by
    rcases List.eq_nil_or_concat key with rfl | ⟨init, last, rfl⟩
    · simp at hlen
    · exact ⟨init, last, List.concat_eq_append⟩
  have hlead : Between p (owner.toList ++ ['_']) p₂ := hs₁.append hs₂
  have hwhole := (hlead.append hs₃).append (hs₄.append hs₅)
  refine ⟨owner.toList ++ ['_'], mode.toList, key, last, ?_, ?_, ?_, ?_, by simpa using hwhole, ?_⟩
  · simp only [List.mem_cons, List.not_mem_nil, or_false] at hmode
    rcases hmode with rfl | rfl <;> decide
  · simp only [List.length_append, List.length_singleton] at hlen
    omega
  · exact (not_isSpace_of_plain (hall last (by simp))).1
  · have hkey : '*' ∉ key ++ [last] := fun hmem => (not_isSpace_of_plain (hall _ hmem)).2 rfl
    simp only [List.mem_cons, List.not_mem_nil, or_false] at howner hmode
    rcases howner with rfl | rfl | rfl <;> rcases hmode with rfl | rfl <;> simpa using hkey
  · rw [← hlead.2, ← hs₃.2]
    rfl

/-- **A rule whose second group is the mode leaves the key to be read**: the mask follows the mode. -/
theorem verdict_of_modeKey {rule : SecretRule} {text : List Char} {m : Match}
    (hpattern : rule.pattern = .chain [.group 1 (.words ["sk", "pk", "rk"]), .char '_',
      .group 2 (.words ["live", "test"]), .char '_', .times 10 none plainKeyChar])
    (hquotes : rule.quotesCredential = false) (hmisses : rule.Misses m)
    (hm : rule.pattern.find? text = some m) : Verdict rule text m := by
  obtain ⟨pre, piece, post, p, p', rfl, hoffset, hpiece, hstart, hstop, hreach⟩ :=
    Pattern.find?_eq_some hm
  rw [hpattern] at hreach
  obtain ⟨lead, mode, key, last, hmode, hlen, hlast, hstar, hbetween, hcapture⟩ :=
    reaches_modeKey hreach
  obtain rfl : piece = lead ++ mode ++ '_' :: (key ++ [last]) :=
    List.append_cancel_right (hpiece.1.symm.trans hbetween.1)
  have hcred : rule.credential (lead ++ mode ++ '_' :: (key ++ [last])) =
      ([], lead ++ mode ++ '_' :: (key ++ [last]), []) := by
    rw [SecretRule.credential, hquotes]
    rfl
  have hpart : maskedPart m =
      (Text.utf8Length (pre ++ lead), Text.utf8Length (pre ++ lead) + Text.utf8Length mode) := by
    rw [maskedPart, Match.capture?, hcapture, hoffset, Text.utf8Length_append pre lead]
  have htext : pre ++ (lead ++ mode ++ '_' :: (key ++ [last])) ++ post =
      (pre ++ lead) ++ mode ++ ('_' :: key ++ last :: post) := by simp
  obtain ⟨hshown, hcode⟩ := reportedCode_eq htext hmode hpart
  have hsight := sighting?_eq hcred (hstart.trans hoffset)
    (hstop.trans (hpiece.2.trans (by rw [hoffset]))) post
  refine ⟨_, _, _, hsight, by simp [Sighting.line], hshown, iff_of_false ?_ (not_not_intro hmisses), ?_⟩
  · -- the key itself makes the code too long
    intro hmasked
    have hle := hmasked.length_le
    have hfront := Text.length_trimStart_le_append pre (lead ++ mode.take 4)
    have hback := Text.trimEnd_append_cons ('_' :: key) post hlast
    rw [← List.append_assoc] at hfront
    rw [hcode, hback] at hle
    simp only [Sighting.stars, List.length_append, List.length_cons, List.length_nil, List.append_nil,
      List.nil_append] at hle
    omega
  · rw [hcode]
    exact exposed_iff_of_no_star (s := ⟨_, lead ++ mode ++ '_' :: (key ++ [last]), _⟩) hstar (by simp)

/-! ### A value in quotes, some way behind a name -/

/-- The quotes stand some way behind the name, which an optional word may follow: that word is the
second group. -/
theorem reaches_remoteValue {p p' : Point} {cs' : List Capture}
    (h : (Pattern.chain [.anyCase "aws", .optional (.group 1 (.times 0 (some 20) .anyChar)),
      .optional (.group 2 (.wordsAnyCase ["secret", "private"])), .times 0 (some 20) .anyChar, quoteChar,
      .times 40 (some 40) (keyChar "/+"), quoteChar]).Reaches p [] p' cs') :
    ∃ lead word gap q value q', Text.isQuote q = true ∧ Text.isQuote q' = true ∧ 3 ≤ lead.length ∧
      word.length ≤ 7 ∧ 40 ≤ value.length ∧ (∀ c ∈ value, Text.isQuote c = false ∧ c ≠ '*') ∧
      Between p (lead ++ word ++ gap ++ q :: (value ++ [q'])) p' ∧
      (cs'.find? (·.index == 2) = none ∨
        word ≠ [] ∧ cs'.find? (·.index == 2) =
          some ⟨2, p.offset + Text.utf8Length lead,
            p.offset + Text.utf8Length lead + Text.utf8Length word⟩) := by
  obtain ⟨p₁, cs₁, h₁, p₂, cs₂, h₂, p₃, cs₃, h₃, p₄, cs₄, h₄, p₅, cs₅, h₅, p₆, cs₆, h₆, h₇⟩ := h
  obtain ⟨name, hname, hs₁, rfl⟩ := Pattern.reaches_foldings h₁
  obtain ⟨s₂, hs₂⟩ := h₂.takes
  obtain ⟨gap, -, -, -, hs₄, rfl⟩ := Pattern.reaches_times_one h₄
  obtain ⟨q, hq, hs₅, rfl⟩ := reaches_quoteChar h₅
  obtain ⟨value, hlen, -, hall, hs₆, rfl⟩ := Pattern.reaches_times_one h₆
  obtain ⟨q', hq', hs₇, rfl⟩ := reaches_quoteChar h₇
  have hlead : Between p (name ++ s₂) p₂ := hs₁.append hs₂
  have hthree : 3 ≤ (name ++ s₂).length := by
    rw [List.length_append, hname]
    exact Nat.le_add_right 3 _
  have hvalue : ∀ c ∈ value, Text.isQuote c = false ∧ c ≠ '*' := by
    intro c hc
    refine ⟨isQuote_eq_false ?_ ?_, ?_⟩ <;>
    · rintro rfl
      exact absurd (hall _ hc) (by decide)
  -- the first group is recorded or not, but not as the second
  have hfirst : cs₂.find? (·.index == 2) = none := by
    rcases Pattern.reaches_optional h₂ with ⟨-, rfl⟩ | ⟨ds, hgroup, rfl⟩
    · rfl
    · rw [hgroup.captures_eq rfl]
      rfl
  rcases Pattern.reaches_optional h₃ with ⟨rfl, rfl⟩ | ⟨ds, hgroup, rfl⟩
  · refine ⟨name ++ s₂, [], gap, q, value, q', hq, hq', hthree, by simp, hlen, hvalue, ?_, .inl hfirst⟩
    simpa using (hlead.append hs₄).append (hs₅.append (hs₆.append hs₇))
  · obtain ⟨w, hw, word, hword, hs₃, rfl⟩ := Pattern.reaches_wordsAnyCase hgroup
    have hword : 0 < word.length ∧ word.length ≤ 7 := by
      simp only [List.mem_cons, List.not_mem_nil, or_false] at hw
      rw [hword]
      rcases hw with rfl | rfl <;> decide
    refine ⟨name ++ s₂, word, gap, q, value, q', hq, hq', hthree, hword.2, hlen, hvalue, ?_,
      .inr ⟨List.ne_nil_of_length_pos hword.1, ?_⟩⟩
    · simpa using ((hlead.append hs₃).append hs₄).append (hs₅.append (hs₆.append hs₇))
    · rw [← hlead.2, ← hs₃.2]
      rfl

/-- **The value behind a name is masked unless the optional word took part**: then the mask is on
that word, and the value stands behind it in full. -/
theorem verdict_of_remoteValue {rule : SecretRule} {text : List Char} {m : Match}
    (hpattern : rule.pattern = .chain [.anyCase "aws", .optional (.group 1 (.times 0 (some 20) .anyChar)),
      .optional (.group 2 (.wordsAnyCase ["secret", "private"])), .times 0 (some 20) .anyChar, quoteChar,
      .times 40 (some 40) (keyChar "/+"), quoteChar])
    (hquotes : rule.quotesCredential = true) (hmisses : rule.Misses m ↔ (m.capture? 2).isSome = true)
    (hm : rule.pattern.find? text = some m) : Verdict rule text m := by
  obtain ⟨pre, piece, post, p, p', rfl, hoffset, hpiece, hstart, hstop, hreach⟩ :=
    Pattern.find?_eq_some hm
  rw [hpattern] at hreach
  obtain ⟨lead, word, gap, q, value, q', hq, hq', hthree, hword, hlen, hvalue, hbetween, hcapture⟩ :=
    reaches_remoteValue hreach
  obtain rfl : piece = lead ++ word ++ gap ++ q :: (value ++ [q']) :=
    List.append_cancel_right (hpiece.1.symm.trans hbetween.1)
  have hstar : '*' ∉ value := fun hmem => (hvalue '*' hmem).2 rfl
  have hne : value ≠ [] := List.ne_nil_of_length_pos (Nat.lt_of_lt_of_le (by decide) hlen)
  have hcred : rule.credential (lead ++ word ++ gap ++ q :: (value ++ [q'])) =
      (lead ++ word ++ gap ++ [q], value, [q']) := by
    rw [SecretRule.credential, if_pos hquotes, lastQuoted_eq _ value hq fun c hc => (hvalue c hc).1]
  have hstart' : m.start = Text.utf8Length pre := hstart.trans hoffset
  have hstop' := hstop.trans hpiece.2
  rw [hoffset] at hstop'
  have hsight := sighting?_eq hcred hstart' hstop' post
  rcases hcapture with hnone | ⟨hnonempty, hsome⟩
  · -- all of the match is masked, so of the value nothing is left
    have hpart : maskedPart m = (m.start, m.stop) := by
      rw [maskedPart, Match.capture?, hnone]
    rw [hstart', hstop'] at hpart
    obtain ⟨hshown, hcode⟩ := reportedCode_eq rfl (by simp) hpart
    have hhits : ¬ rule.Misses m := by
      rw [hmisses, Match.capture?, hnone]
      exact Bool.false_ne_true
    refine ⟨_, _, _, hsight, by simp [Sighting.line], hshown, iff_of_true ?_ hhits, ?_⟩
    · refine ⟨pre ++ (lead ++ word ++ gap ++ q :: (value ++ [q'])).take 4, [], post, ?_, by simp, by simp,
        by simp, ?_⟩
      · rw [List.prefix_append_right_inj, show lead ++ word ++ gap ++ q :: (value ++ [q']) =
          (lead ++ word ++ gap ++ [q]) ++ (value ++ [q']) by simp, List.take_append_of_le_length]
        · exact List.take_prefix 4 _
        · simp only [List.length_append, List.length_singleton]
          omega
      · rw [hcode, List.append_nil, trim_stars]
    · rw [hcode]
      exact exposed_iff_of_no_star (s := ⟨_, value, _⟩) hstar hne
  · have hpart : maskedPart m =
        (Text.utf8Length (pre ++ lead), Text.utf8Length (pre ++ lead) + Text.utf8Length word) := by
      rw [maskedPart, Match.capture?, hsome, hoffset, Text.utf8Length_append pre lead]
    have htext : pre ++ (lead ++ word ++ gap ++ q :: (value ++ [q'])) ++ post =
        (pre ++ lead) ++ word ++ ((gap ++ q :: value) ++ q' :: post) := by simp
    obtain ⟨hshown, hcode⟩ := reportedCode_eq htext hnonempty hpart
    have hmiss : rule.Misses m := by
      rw [hmisses, Match.capture?, hsome]
      rfl
    refine ⟨_, _, _, hsight, by simp [Sighting.line], hshown, iff_of_false ?_ (not_not_intro hmiss), ?_⟩
    · -- what the mask saves is shorter than the value
      intro hmasked
      have hle := hmasked.length_le
      have hfront := Text.length_trimStart_append_le (pre ++ lead ++ word.take 4) (word.drop 4 ++ gap ++ [q])
      have hback := Text.trimEnd_append_cons (gap ++ q :: value) post (isSpace_of_isQuote hq')
      have hafter : Text.trimEnd ([q'] ++ post) = q' :: Text.trimEnd post :=
        Text.trimEnd_append_cons [] post (isSpace_of_isQuote hq')
      have hbefore : pre ++ lead ++ word.take 4 ++ (word.drop 4 ++ gap ++ [q]) =
          pre ++ (lead ++ word ++ gap ++ [q]) := by
        have h := congrArg (fun w => pre ++ (lead ++ w ++ gap ++ [q])) (List.take_append_drop 4 word)
        simpa only [List.append_assoc] using h
      rw [hbefore] at hfront
      rw [hcode, hback, hafter] at hle
      simp only [Sighting.stars, List.length_append, List.length_cons, List.length_nil, List.length_drop]
        at hle hfront
      omega
    · rw [hcode]
      exact exposed_iff_of_no_star (s := ⟨_, value, _⟩) hstar hne

/-! ### The two keys without a second group -/

theorem reaches_prefixedKey {p p' : Point} {cs' : List Capture}
    (h : (Pattern.chain [.word "AKIA", .times 16 (some 16)
      (.one fun c => Text.isAsciiDigit c || ('A' ≤ c && c ≤ 'Z'))]).Reaches p [] p' cs') :
    ∃ key, Between p key p' ∧ key ≠ [] ∧ '*' ∉ key := by
  obtain ⟨p₁, cs₁, h₁, h₂⟩ := h
  obtain ⟨hs₁, rfl⟩ := Pattern.reaches_exact h₁
  obtain ⟨key, -, -, hall, hs₂, rfl⟩ := Pattern.reaches_times_one h₂
  refine ⟨_, hs₁.append hs₂, by simp, ?_⟩
  intro hmem
  rcases List.mem_append.mp hmem with hmem | hmem
  · exact absurd hmem (by decide)
  · exact absurd (hall '*' hmem) (by decide)

theorem reaches_keyHeader {p p' : Point} {cs' : List Capture}
    (h : (Pattern.chain [.word "-----BEGIN ", .optional (.group 1 (.words ["RSA ", "EC ", "DSA ", "OPENSSH "])),
      .word "PRIVATE KEY-----"]).Reaches p [] p' cs') :
    ∃ key, Between p key p' ∧ key ≠ [] ∧ '*' ∉ key := by
  obtain ⟨p₁, cs₁, h₁, p₂, cs₂, h₂, h₃⟩ := h
  obtain ⟨hs₁, rfl⟩ := Pattern.reaches_exact h₁
  obtain ⟨hs₃, rfl⟩ := Pattern.reaches_exact h₃
  rcases Pattern.reaches_optional h₂ with ⟨rfl, rfl⟩ | ⟨ds, hgroup, rfl⟩
  · exact ⟨_, hs₁.append hs₃, by simp, by decide⟩
  · obtain ⟨w, hw, hs₂, rfl⟩ := Pattern.reaches_words hgroup
    refine ⟨_, hs₁.append (hs₂.append hs₃), by simp, ?_⟩
    simp only [List.mem_cons, List.not_mem_nil, or_false] at hw
    rcases hw with rfl | rfl | rfl | rfl <;> decide

/-! ## 6. The table -/

/-- Every rule of the table comes to its verdict. -/
theorem verdict_of_mem_secretRules {rule : SecretRule} {text : List Char} {m : Match}
    (hrule : rule ∈ secretRules) (hm : rule.pattern.find? text = some m) : Verdict rule text m := by
  simp only [secretRules, List.mem_cons, List.not_mem_nil, or_false] at hrule
  rcases hrule with rfl | rfl | rfl | rfl | rfl | rfl | rfl
  · exact verdict_of_assigned rfl (by decide) (by simp [SecretRule.Misses]) (by decide) (by decide)
      (by decide) hm
  · exact verdict_of_whole (by decide) (by simp [SecretRule.Misses]) (by decide) reaches_prefixedKey hm
  · exact verdict_of_remoteValue rfl (by decide) (by simp [SecretRule.Misses]) hm
  · exact verdict_of_assigned rfl (by decide) (by simp [SecretRule.Misses]) (by decide) (by decide)
      (by decide) hm
  · exact verdict_of_assigned rfl (by decide) (by simp [SecretRule.Misses]) (by decide) (by decide)
      (by decide) hm
  · exact verdict_of_whole (by decide) (by simp [SecretRule.Misses]) (by decide) reaches_keyHeader hm
  · exact verdict_of_modeKey rfl (by decide) (by simp [SecretRule.Misses]) hm

/-- **The code reported for a match masks the credential exactly if the rule does not miss it, and
still shows the credential exactly if it stands beside the mask or is four characters and stars.** -/
theorem table_masks_credential_iff (s : Snippet) {line : Nat} {text : List Char} {rule : SecretRule}
    {m : Match} (hline : (line, text) ∈ s.lines) (hrule : rule ∈ secretRules)
    (hm : rule.pattern.find? text = some m) :
    ∃ v ∈ secretsByTable s, secretInLine? line text rule = some v ∧
      v.kind = .hardcodedSecret ∧ v.line = line ∧
      ∃ sight front back, rule.sighting? text m = some sight ∧ text = sight.line ∧
        shown? text m = some (front, back) ∧
        (sight.Masked v.code.toList ↔ ¬ rule.Misses m) ∧
        (sight.credential <:+: v.code.toList ↔
          sight.credential <:+: Text.trimStart front ∨ sight.credential <:+: Text.trimEnd back ∨
            sight.Starred) := by
  obtain ⟨v, hv⟩ : ∃ v, secretInLine? line text rule = some v := by
    rw [secretInLine?, hm]
    exact ⟨_, rfl⟩
  have hmem : v ∈ secretsByTable s :=
    List.mem_flatMap.mpr ⟨(line, text), hline, List.mem_filterMap.mpr ⟨rule, hrule, hv⟩⟩
  have hcode : v.kind = .hardcodedSecret ∧ v.line = line ∧ v.code.toList = reportedCode text m := by
    rw [secretInLine?, hm] at hv
    obtain rfl := Option.some.inj hv
    exact ⟨rfl, rfl, String.toList_ofList⟩
  refine ⟨v, hmem, hv, hcode.1, hcode.2.1, ?_⟩
  rw [hcode.2.2]
  exact verdict_of_mem_secretRules hrule hm

/-- A key behind a mode can be read in full in what is reported. -/
theorem mode_key_not_masked :
    ∃ v ∈ secretsByTable ⟨"x = \"sk_live_abcdefghijkl\"\n".toList, none, "go", {}⟩,
      v.code = "x = \"sk_live****_abcdefghijkl\"" ∧
      ¬ Sighting.Masked ⟨"x = \"".toList, "sk_live_abcdefghijkl".toList, ['"']⟩ v.code.toList := by
  obtain ⟨v, hmem, hv, -, -, sight, front, back, hsight, -, -, hmasked, -⟩ :=
    @table_masks_credential_iff ⟨"x = \"sk_live_abcdefghijkl\"\n".toList, none, "go", {}⟩ 1
      "x = \"sk_live_abcdefghijkl\"".toList (secretRules.get ⟨6, by decide⟩)
      ⟨5, 25, [⟨2, 8, 12⟩, ⟨1, 5, 7⟩]⟩ (by decide) (List.get_mem _ _) (by rfl)
  have hknown : (secretRules.get ⟨6, by decide⟩).sighting? "x = \"sk_live_abcdefghijkl\"".toList
      ⟨5, 25, [⟨2, 8, 12⟩, ⟨1, 5, 7⟩]⟩ =
        some ⟨"x = \"".toList, "sk_live_abcdefghijkl".toList, ['"']⟩ := by decide
  obtain rfl := Option.some.inj (hknown.symm.trans hsight)
  refine ⟨v, hmem, ?_, ?_⟩
  · obtain rfl := Option.some.inj hv
    rfl
  · rw [hmasked]
    exact not_not_intro (.inl rfl)

end CodeAudit.Security
