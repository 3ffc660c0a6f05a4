import CodeAudit.Proofs.Security.Redaction
import CodeAudit.Proofs.Tree.Layout
import CodeAudit.Proofs.Tree.Nodes
import Mathlib.Data.List.TakeWhile

/-!
# Literals that are masked in their binding

The pass over the tree masks a literal in the text of the binding that it stands in.  Where it stands
is computed from two offsets into the source and from the quotes in front of it, all in bytes, and
what is masked is as long as the literal without its quotes.  If the computation were off, the mask
would leave part of the literal, or the two offsets would cut nothing out and the text would be
reported as it is.

Neither happens in a tree whose nodes stand inside their parents and begin and end between characters
(`Snippet.IsNested`):

* a text that stands inside another one at known offsets is a piece of it, so many bytes from its
  beginning (`Text.exists_within`, `Snippet.IsNested.exists_text_within`);
* a literal is quotes, its inner text and quotes (`unquoted_innerText`);
* **so the offsets cut the inner text of the literal out of the text of the binding**
  (`binding_masks_literal`), however the literal is wrapped, quoted and written.
-/

namespace CodeAudit

/-! ## 1. Pieces inside of pieces -/

namespace Text

/-- An offset that no character of the text stands across. -/
def IsBoundary (s : List Char) (offset : Nat) : Prop :=
  ∃ before after, s = before ++ after ∧ utf8Length before = offset

theorem isBoundary_iff {s : List Char} {offset : Nat} :
    IsBoundary s offset ↔ (takeBytes offset s).isSome = true := by
  constructor
  · rintro ⟨before, after, rfl, rfl⟩
    rw [takeBytes_append]
    rfl
  · intro h
    obtain ⟨before, hbefore⟩ := Option.isSome_iff_exists.mp h
    obtain ⟨after, hsplit, hlength⟩ := takeBytes_eq_some hbefore
    exact ⟨before, after, hsplit, hlength⟩

instance (s : List Char) (offset : Nat) : Decidable (IsBoundary s offset) :=
  decidable_of_iff _ isBoundary_iff.symm

theorem utf8Length_eq_zero {s : List Char} (h : utf8Length s = 0) : s = [] := by
  cases s with
  | nil => rfl
  | cons c s =>
    have hpos : 0 < c.utf8Size := c.utf8Size_pos
    rw [utf8Length_cons] at h
    omega

/-- Of two cuts of one text the later one leaves all that the earlier one cuts off. -/
theorem exists_of_append_eq {x y z w : List Char} (h : x ++ y = z ++ w)
    (hle : utf8Length x ≤ utf8Length z) : ∃ m, z = x ++ m ∧ y = m ++ w := by
  rcases List.append_eq_append_iff.mp h with hlater | ⟨m, rfl, rfl⟩
  · exact hlater
  · rw [utf8Length_append] at hle
    obtain rfl := utf8Length_eq_zero (s := m) (by omega)
    exact ⟨[], by simp, by simp⟩

/-- The piece between two boundaries. -/
theorem IsBoundary.exists_slice {s : List Char} {start stop : Nat} (hstart : IsBoundary s start)
    (hstop : IsBoundary s stop) (hle : start ≤ stop) : ∃ piece, slice start stop s = some piece := by
  obtain ⟨before, rest, rfl, rfl⟩ := hstart
  obtain ⟨front, after, hsplit, rfl⟩ := hstop
  obtain ⟨piece, rfl, rfl⟩ := exists_of_append_eq hsplit hle
  exact ⟨piece, slice_eq_some_iff.mpr ⟨before, after, by simp, rfl, rfl⟩⟩

/-- **A piece that begins and ends inside another one stands in it**, as many bytes from its beginning
as the offsets differ. -/
theorem exists_within {s outer inner : List Char} {start stop start' stop' : Nat}
    (houter : slice start stop s = some outer) (hinner : slice start' stop' s = some inner)
    (hstart : start ≤ start') (hstop : stop' ≤ stop) :
    ∃ before after, outer = before ++ inner ++ after ∧ start + utf8Length before = start' := by
  obtain ⟨front, back, rfl, rfl, rfl⟩ := slice_eq_some_iff.mp houter
  obtain ⟨front', back', hsplit, rfl, rfl⟩ := slice_eq_some_iff.mp hinner
  rw [List.append_assoc, List.append_assoc] at hsplit
  obtain ⟨before, rfl, hrest⟩ := exists_of_append_eq hsplit hstart
  have hshort : utf8Length (before ++ inner) ≤ utf8Length outer := by
    simp only [utf8Length_append] at hstop ⊢
    omega
  rw [← List.append_assoc] at hrest
  obtain ⟨after, rfl, -⟩ := exists_of_append_eq hrest.symm hshort
  exact ⟨before, after, rfl, by rw [utf8Length_append]⟩

end Text

/-! ## 2. Nodes inside of nodes -/

/-- The nodes of a tree begin and end between characters, each inside its parent. -/
structure Snippet.IsNested (s : Snippet) : Prop where
  onBoundary : ∀ n ∈ s.nodes,
    Text.IsBoundary s.source n.label.start ∧ Text.IsBoundary s.source n.label.stop
  inParent : ∀ n ∈ s.nodes, ∀ m ∈ n.children,
    n.label.start ≤ m.label.start ∧ m.label.stop ≤ n.label.stop

namespace Snippet.IsNested

variable {s : Snippet} {n m : Site}

theorem within (h : s.IsNested) (hn : n ∈ s.nodes) (hm : n.Within m) :
    n.label.start ≤ m.label.start ∧ m.label.stop ≤ n.label.stop := by
  induction hm with
  | self => exact ⟨Nat.le_refl _, Nat.le_refl _⟩
  | child hm hchild ih =>
    obtain ⟨hstart, hstop⟩ :=
      h.inParent _ (mem_nodes_of_within hn hm) _ (Site.mem_children.mpr ⟨_, hchild⟩)
    exact ⟨ih.1.trans hstart, hstop.trans ih.2⟩

/-- **The text of a node stands in the texts of the nodes above it.** -/
theorem exists_text_within (h : s.IsNested) (hn : n ∈ s.nodes) (hm : n.Within m)
    (htext : s.text m ≠ []) :
    ∃ before after, s.text n = before ++ s.text m ++ after ∧
      n.label.start + Text.utf8Length before = m.label.start := by
  obtain ⟨hstart, hstop⟩ := h.within hn hm
  have hlt : m.label.start < m.label.stop := Site.start_lt_stop htext
  obtain ⟨hfirst, hlast⟩ := h.onBoundary n hn
  obtain ⟨outer, houter⟩ := hfirst.exists_slice hlast (by omega)
  have hm' := mem_nodes_of_within hn hm
  obtain ⟨hfirst', hlast'⟩ := h.onBoundary m hm'
  obtain ⟨inner, hinner⟩ := hfirst'.exists_slice hlast' (by omega)
  have houtertext : s.text n = outer := by rw [text, Site.text, houter, Option.getD_some]
  have hinnertext : s.text m = inner := by rw [text, Site.text, hinner, Option.getD_some]
  rw [houtertext, hinnertext]
  exact Text.exists_within houter hinner hstart hstop

end Snippet.IsNested

namespace Security

/-! ## 3. Quotes around a literal -/

/-- A literal taken apart: quotes, then a text that neither begins nor ends with one, then quotes. -/
structure Unquoted (literal opening inner closing : List Char) : Prop where
  split : literal = opening ++ inner ++ closing
  opening_quotes : ∀ c ∈ opening, isAnyQuote c = true
  closing_quotes : ∀ c ∈ closing, isAnyQuote c = true
  not_first : ∀ c ∈ inner.head?, isAnyQuote c = false
  not_last : ∀ c ∈ inner.getLast?, isAnyQuote c = false

theorem not_of_mem_head?_dropWhile {p : Char → Bool} {s : List Char} {c : Char}
    (h : c ∈ (s.dropWhile p).head?) : p c = false := by
  have hnot := List.head?_dropWhile_not p s
  rw [Option.mem_def.mp h] at hnot
  exact hnot

/-- **A literal is the quotes in front of it, its inner text, and quotes.** -/
theorem unquoted_innerText (literal : List Char) :
    ∃ closing, Unquoted literal (literal.takeWhile isAnyQuote) (innerText literal) closing := by
  obtain ⟨rest, hrest⟩ : ∃ rest, rest = literal.dropWhile isAnyQuote := ⟨_, rfl⟩
  have hinner : innerText literal = (rest.reverse.dropWhile isAnyQuote).reverse := by rw [hrest]; rfl
  have hsplit : innerText literal ++ (rest.reverse.takeWhile isAnyQuote).reverse = rest := by
    rw [hinner, ← List.reverse_append, List.takeWhile_append_dropWhile, List.reverse_reverse]
  refine ⟨(rest.reverse.takeWhile isAnyQuote).reverse, ?_, ?_, ?_, ?_, ?_⟩
  · rw [List.append_assoc, hsplit, hrest, List.takeWhile_append_dropWhile]
  · exact fun c hc => List.mem_takeWhile_imp hc
  · exact fun c hc => List.mem_takeWhile_imp (List.mem_reverse.mp hc)
  · intro c hc
    refine not_of_mem_head?_dropWhile (s := literal) ?_
    rw [← hrest, ← hsplit, List.head?_append, Option.mem_def.mp hc]
    rfl
  · intro c hc
    rw [hinner, List.getLast?_reverse] at hc
    exact not_of_mem_head?_dropWhile hc

/-! ## 4. Bindings -/

variable {s : Snippet} {n name v value : Site} {w : Vulnerability}

theorem within_of_singleLiteral? (h : singleLiteral? n = some v) :
    n.Within v ∧ v.kind ∈ literalKinds := by
  unfold singleLiteral? at h
  split at h
  next hkind =>
    obtain rfl := Option.some.inj h
    exact ⟨.self, List.contains_iff_mem.mp hkind⟩
  next =>
    split at h
    next =>
      split at h
      next only honly =>
        obtain ⟨hkind, honly'⟩ := Option.ite_none_right_eq_some.mp h
        obtain rfl := Option.some.inj honly'
        have hmem : only ∈ n.namedChildren := by rw [honly]; exact List.mem_cons_self
        obtain ⟨i, hchild⟩ := Site.mem_children.mp (List.mem_filter.mp hmem).1
        exact ⟨Site.Within.self.child hchild, List.contains_iff_mem.mp hkind⟩
      next => cases h
    next => cases h

/-- The literal of a binding stands below it. -/
theorem isAbove_of_bindingParts? (h : bindingParts? n = some (name, v)) :
    n.IsAbove v ∧ v.kind ∈ literalKinds := by
  obtain ⟨name', -, h⟩ := Option.bind_eq_some_iff.mp h
  obtain ⟨value, hvalue, h⟩ := Option.bind_eq_some_iff.mp h
  obtain ⟨v', hliteral, hpair⟩ := Option.map_eq_some_iff.mp h
  obtain ⟨-, rfl⟩ := Prod.mk.inj hpair
  obtain ⟨i, hchild⟩ := Site.exists_child_of_field? hvalue
  obtain ⟨hwithin, hkind⟩ := within_of_singleLiteral? hliteral
  exact ⟨⟨i, value, hchild, hwithin⟩, hkind⟩

/-- Where the mask begins in the text of a binding, as it is computed. -/
def maskStart (s : Snippet) (n v : Site) : Nat :=
  v.label.start - n.label.start + openingLength (s.text v)

/-- Where the mask ends. -/
def maskStop (s : Snippet) (n v : Site) : Nat :=
  maskStart s n v + Text.utf8Length (innerText (s.text v))

/-- What is reported for a binding. -/
theorem exists_of_secretBinding? (h : secretBinding? s n = some w) :
    ∃ name v, n.kind ∈ secretBindings ∧ bindingParts? n = some (name, v) ∧
      leastSecret ≤ Text.utf8Length (innerText (s.text v)) ∧ w.span = n.span s.source ∧
      w.code = String.ofList (Text.redact (s.text n) (maskStart s n v) (maskStop s n v)) := by
  unfold secretBinding? at h
  split at h
  next => cases h
  next hkind =>
    obtain ⟨⟨name, v⟩, hparts, h⟩ := Option.bind_eq_some_iff.mp h
    obtain ⟨hcond, hw⟩ := Option.ite_none_left_eq_some.mp h
    obtain rfl := Option.some.inj hw
    simp only [Bool.or_eq_true, decide_eq_true_eq, not_or, Nat.not_lt] at hcond
    refine ⟨name, v, ?_, hparts, hcond.1.2, rfl, rfl⟩
    simpa [Site.hasKind] using hkind

/-- **The inner text of a literal stands in the text of a binding where the mask is computed to
stand.** -/
theorem exists_masked_part (h : s.IsNested) (hn : n ∈ s.nodes) (hv : n.Within v)
    (hinner : innerText (s.text v) ≠ []) :
    n.label.start ≤ v.label.start ∧ ∃ before opening closing after,
      Unquoted (s.text v) opening (innerText (s.text v)) closing ∧
      s.text n = before ++ (opening ++ innerText (s.text v) ++ closing) ++ after ∧
      n.label.start + Text.utf8Length before = v.label.start ∧
      maskStart s n v = Text.utf8Length (before ++ opening) := by
  have htext : s.text v ≠ [] := by
    intro hnil
    rw [hnil] at hinner
    exact hinner rfl
  obtain ⟨before, after, hsplit, hstart⟩ := h.exists_text_within hn hv htext
  obtain ⟨closing, hquotes⟩ := unquoted_innerText (s.text v)
  refine ⟨(h.within hn hv).1, before, _, closing, after, hquotes, ?_, hstart, ?_⟩
  · rw [← hquotes.split, hsplit]
  · rw [maskStart, openingLength, Text.utf8Length_append]
    omega

/-- **The mask stands over the inner text of the literal and over nothing else.**  In a tree whose
nodes stand inside their parents, each credential that is reported for a binding comes with the text of
the binding, of which the inner text of the literal is cut down to its first four characters and
the mask.  The difference of the offsets is no less than zero, and the offsets that are computed do cut
the inner text out, so the text is never reported as it is. -/
theorem binding_masks_literal (s : Snippet) (h : s.IsNested) (w : Vulnerability)
    (hw : w ∈ secretsByBinding s) :
    ∃ n ∈ s.nodes, ∃ name v, secretBinding? s n = some w ∧ w.span = n.span s.source ∧
      n.kind ∈ secretBindings ∧ bindingParts? n = some (name, v) ∧ n.IsAbove v ∧
      v.kind ∈ literalKinds ∧ n.label.start ≤ v.label.start ∧ maskStart s n v < maskStop s n v ∧
      ∃ before opening inner closing after,
        Unquoted (s.text v) opening inner closing ∧
        s.text n = before ++ (opening ++ inner ++ closing) ++ after ∧
        n.label.start + Text.utf8Length before = v.label.start ∧
        cutAt (s.text n) (maskStart s n v) (maskStop s n v) =
          some (before ++ opening, inner, closing ++ after) ∧
        w.code = String.ofList
          (before ++ opening ++ inner.take 4 ++ "****".toList ++ (closing ++ after)) := by
  obtain ⟨n, hn, hreport⟩ := List.mem_filterMap.mp hw
  obtain ⟨name, v, hkind, hparts, hlong, hspan, hcode⟩ := exists_of_secretBinding? hreport
  obtain ⟨habove, hliteral⟩ := isAbove_of_bindingParts? hparts
  have hinner : innerText (s.text v) ≠ [] := by
    intro hnil
    rw [hnil] at hlong
    exact absurd hlong (by decide)
  obtain ⟨hle, before, opening, closing, after, hquotes, hsplit, hstart, hmask⟩ :=
    exists_masked_part h hn habove.within hinner
  have hpos : 0 < Text.utf8Length (innerText (s.text v)) := Nat.lt_of_lt_of_le (by decide) hlong
  have hassoc : s.text n = (before ++ opening) ++ innerText (s.text v) ++ (closing ++ after) := by
    simp [hsplit]
  refine ⟨n, hn, name, v, hreport, hspan, hkind, hparts, habove, hliteral, hle,
    Nat.lt_add_of_pos_right hpos, before, opening, _, closing, after, hquotes, hsplit, hstart, ?_, ?_⟩
  · rw [maskStop, hmask, hassoc, cutAt_append]
  · rw [hcode, maskStop, hmask, hassoc, Text.redact_append _ _ _ hinner]

/-- An assignment whose value is a list with a trailing comma.  The literal in it has three quotes on
either side, and there are longer characters in the name and in the literal. -/
def keyScript : Snippet where
  source := "auth_clé = \"\"\"päßword-0123456789\"\"\",\n".toList
  tree := some <| .named "module" none 0 40
    [.named "expression_statement" none 0 39
      [.named "assignment" none 0 39
        [.named "identifier" (some "left") 0 9 [], .sign "=" 10,
          .named "expression_list" (some "right") 12 39
            [.named "string" none 12 38
              [.named "string_start" none 12 15 [], .named "string_content" none 15 35 [],
                .named "string_end" none 35 38 []],
              .sign "," 38]]]]
  language := "python"

/-- The key is masked from its fifth character on, and its quotes are kept. -/
theorem multibyte_key_masked :
    keyScript.IsNested ∧ ∃ w ∈ secretsByBinding keyScript,
      w.code = "auth_clé = \"\"\"päßw****\"\"\"," ∧
      ∃ n ∈ keyScript.nodes, ∃ name v, bindingParts? n = some (name, v) ∧
        n.label.start ≤ v.label.start ∧ maskStart keyScript n v < maskStop keyScript n v := by
  have hnested : keyScript.IsNested := ⟨by decide +kernel, by decide +kernel⟩
  obtain ⟨w, hw, hcode⟩ : ∃ w ∈ secretsByBinding keyScript,
      w.code = "auth_clé = \"\"\"päßw****\"\"\"," := ⟨_, List.mem_cons_self, by decide +kernel⟩
  obtain ⟨n, hn, name, v, -, -, -, hparts, -, -, hle, hlt, -⟩ :=
    binding_masks_literal keyScript hnested w hw
  exact ⟨hnested, w, hw, hcode, n, hn, name, v, hparts, hle, hlt⟩

end Security

end CodeAudit
