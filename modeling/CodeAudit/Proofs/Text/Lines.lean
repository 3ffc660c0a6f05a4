import CodeAudit.Text.Basic
import Mathlib.Data.List.Basic
import Mathlib.Data.List.Infix
import Mathlib.Data.Prod.Lex

/-!
# Where a piece of text stands

A syntax tree says where a node is in bytes, reports say it in lines, and the detectors that read lines
see the text of one line at a time.  Four facts connect them.  A piece that is cut out by its offsets
stands in the text between a text of so many bytes and the rest (`slice_eq_some_iff`); the row of an
offset is the number of line feeds before it (`row_position`), so it does not go down
(`row_position_mono`); **a later offset of the text has a later position**, also inside a character
(`position_lt`); and **a piece without a line feed stands in one line, the one with its row's
number** (`exists_line_of_piece`).  A carriage return at the end of a line is not part of it, so the
piece may have one that the line has not.
-/

namespace CodeAudit.Text

/-! ## 1. Pieces -/

theorem dropBytes_eq_some {n : Nat} {s t : List Char} (h : dropBytes n s = some t) :
    ∃ before, s = before ++ t ∧ utf8Length before = n := by
  fun_induction dropBytes n s with
  | case1 s => exact ⟨[], (Option.some.inj h), rfl⟩
  | case2 n => cases h
  | case3 n c rest hc ih =>
    obtain ⟨before, rfl, hbefore⟩ := ih h
    exact ⟨c :: before, rfl, by rw [utf8Length_cons]; omega⟩
  | case4 n c rest hc => cases h

theorem takeBytes_eq_some {n : Nat} {s t : List Char} (h : takeBytes n s = some t) :
    ∃ after, s = t ++ after ∧ utf8Length t = n := by
  fun_induction takeBytes n s generalizing t with
  | case1 s => exact ⟨s, by rw [← Option.some.inj h, List.nil_append], by rw [← Option.some.inj h]; rfl⟩
  | case2 n => cases h
  | case3 n c rest hc ih =>
    obtain ⟨t, ht, rfl⟩ := Option.map_eq_some_iff.mp h
    obtain ⟨after, rfl, hlength⟩ := ih ht
    exact ⟨after, rfl, by rw [utf8Length_cons]; omega⟩
  | case4 n c rest hc => cases h

/-- **A piece stands where its offsets say.** -/
theorem slice_eq_some_iff {start stop : Nat} {s piece : List Char} :
    slice start stop s = some piece ↔
      ∃ before after, s = before ++ piece ++ after ∧ utf8Length before = start ∧
        utf8Length (before ++ piece) = stop := by
  constructor
  · intro h
    rw [slice] at h
    split at h
    · next hle =>
      obtain ⟨rest, hdrop, htake⟩ := Option.bind_eq_some_iff.mp h
      obtain ⟨before, rfl, hbefore⟩ := dropBytes_eq_some hdrop
      obtain ⟨after, rfl, hpiece⟩ := takeBytes_eq_some htake
      exact ⟨before, after, (List.append_assoc ..).symm, hbefore, by rw [utf8Length_append]; omega⟩
    · cases h
  · rintro ⟨before, after, rfl, rfl, rfl⟩
    rw [utf8Length_append]
    exact slice_append before piece after

/-! ## 2. Rows -/

/-- Rows are counted from where one starts, and columns play no part. -/
theorem row_positionFrom (row column n : Nat) (s : List Char) :
    (positionFrom ⟨row, column⟩ n s).row = row + (positionFrom ⟨0, 0⟩ n s).row := by
  induction s generalizing row column n with
  | nil => cases n <;> rfl
  | cons c rest ih =>
    cases n with
    | zero => rfl
    | succ n =>
      simp only [positionFrom]
      split
      · rw [ih, ih (0 + 1)]
        omega
      · rw [ih, ih 0 (0 + min c.utf8Size (n + 1)), Nat.zero_add]

theorem row_positionFrom_mono {m n : Nat} (h : m ≤ n) (s : List Char) :
    (positionFrom ⟨0, 0⟩ m s).row ≤ (positionFrom ⟨0, 0⟩ n s).row := by
  induction s generalizing m n with
  | nil => cases m <;> cases n <;> exact Nat.le_refl 0
  | cons c rest ih =>
    cases m with
    | zero => exact Nat.zero_le _
    | succ m =>
      obtain ⟨n, rfl⟩ : ∃ k, n = k + 1 := ⟨n - 1, by omega⟩
      simp only [positionFrom]
      split
      · rw [row_positionFrom, row_positionFrom (0 + 1) 0 n]
        exact Nat.add_le_add_left (ih (by omega)) _
      · rw [row_positionFrom, row_positionFrom 0 _ (n + 1 - c.utf8Size)]
        exact Nat.add_le_add_left (ih (by omega)) _

/-- **Later offsets are not further up.** -/
theorem row_position_mono (s : List Char) {m n : Nat} (h : m ≤ n) :
    (position s m).row ≤ (position s n).row :=
  row_positionFrom_mono h s

/-- **The row of an offset is the number of line feeds before it.** -/
theorem row_position (before after : List Char) :
    (position (before ++ after) (utf8Length before)).row = before.count '\n' := by
  rw [position]
  induction before with
  | nil => cases after <;> rfl
  | cons c before ih =>
    have hpos : 0 < c.utf8Size := c.utf8Size_pos
    obtain ⟨n, hn⟩ : ∃ n, c.utf8Size + utf8Length before = n + 1 :=
      ⟨c.utf8Size + utf8Length before - 1, by omega⟩
    rw [utf8Length_cons, hn, List.cons_append]
    simp only [positionFrom]
    split
    · next hfeed =>
      have hsize : c.utf8Size = 1 := by rw [hfeed]; rfl
      rw [show n = utf8Length before by omega, row_positionFrom, ih, hfeed, List.count_cons_self]
      omega
    · next hfeed =>
      rw [show n + 1 - c.utf8Size = utf8Length before by omega, row_positionFrom, ih,
        List.count_cons_of_ne hfeed, Nat.zero_add]

/-! ## 3. Order of positions -/

/-- What positions are ordered by: first the row, then the column. -/
def Position.rank (p : Position) : Nat ×ₗ Nat := toLex (p.row, p.column)

theorem le_positionFrom (here : Position) (n : Nat) (s : List Char) :
    here.rank ≤ (positionFrom here n s).rank := by
  induction s generalizing here n with
  | nil => cases n <;> exact le_refl _
  | cons c rest ih =>
    cases n with
    | zero => exact le_refl _
    | succ n =>
      simp only [positionFrom]
      split
      · refine le_trans ?_ (ih _ _)
        exact Prod.Lex.toLex_le_toLex.mpr (.inl (Nat.lt_succ_self _))
      · refine le_trans ?_ (ih _ _)
        exact Prod.Lex.toLex_le_toLex.mpr (.inr ⟨rfl, Nat.le_add_right _ _⟩)

theorem lt_positionFrom (here : Position) {n : Nat} {s : List Char} (hpos : 0 < n)
    (h : n ≤ utf8Length s) : here.rank < (positionFrom here n s).rank := by
  obtain ⟨n, rfl⟩ : ∃ k, n = k + 1 := ⟨n - 1, by omega⟩
  cases s with
  | nil => simp at h
  | cons c rest =>
    have hsize : 0 < c.utf8Size := c.utf8Size_pos
    simp only [positionFrom]
    split
    · refine lt_of_lt_of_le ?_ (le_positionFrom _ _ _)
      exact Prod.Lex.toLex_lt_toLex.mpr (.inl (Nat.lt_succ_self _))
    · refine lt_of_lt_of_le ?_ (le_positionFrom _ _ _)
      exact Prod.Lex.toLex_lt_toLex.mpr (.inr ⟨rfl, by dsimp only; omega⟩)

theorem positionFrom_lt (here : Position) {m n : Nat} {s : List Char} (h : m < n)
    (hn : n ≤ utf8Length s) : (positionFrom here m s).rank < (positionFrom here n s).rank := by
  induction s generalizing here m n with
  | nil =>
    rw [utf8Length_nil] at hn
    omega
  | cons c rest ih =>
    rw [utf8Length_cons] at hn
    cases m with
    | zero =>
      have hzero : positionFrom here 0 (c :: rest) = here := by rw [positionFrom]
      rw [hzero]
      exact lt_positionFrom here h (by rwa [utf8Length_cons])
    | succ m =>
      obtain ⟨n, rfl⟩ : ∃ k, n = k + 1 := ⟨n - 1, by omega⟩
      simp only [positionFrom]
      split
      · next hfeed =>
        have hsize : c.utf8Size = 1 := by rw [hfeed]; rfl
        exact ih _ (by omega) (by omega)
      · rcases Nat.lt_or_ge (m + 1) c.utf8Size with hinside | hpast
        · -- the first offset is inside the character
          rw [show m + 1 - c.utf8Size = 0 by omega]
          have hzero : ∀ here, positionFrom here 0 rest = here := fun _ => by rw [positionFrom]
          rw [hzero]
          refine lt_of_lt_of_le ?_ (le_positionFrom _ _ _)
          exact Prod.Lex.toLex_lt_toLex.mpr (.inr ⟨rfl, by dsimp only; omega⟩)
        · rw [show min c.utf8Size (m + 1) = c.utf8Size by omega,
            show min c.utf8Size (n + 1) = c.utf8Size by omega]
          exact ih _ (by omega) (by omega)

/-- **A later offset of the text has a later position.** -/
theorem position_lt {s : List Char} {m n : Nat} (h : m < n) (hn : n ≤ utf8Length s) :
    (position s m).rank < (position s n).rank :=
  positionFrom_lt ⟨0, 0⟩ h hn

/-! ## 4. Lines -/

theorem linesFrom_append {piece : List Char} (h : '\n' ∉ piece) (line s : List Char) :
    linesFrom line (piece ++ s) = linesFrom (piece.reverse ++ line) s := by
  induction piece generalizing line with
  | nil => rfl
  | cons c piece ih =>
    obtain ⟨hc, hpiece⟩ := not_or.mp (List.mem_cons.not.mp h)
    rw [List.cons_append, linesFrom, if_neg (Ne.symm hc), ih hpiece, List.reverse_cons,
      List.append_assoc, List.singleton_append]

/-- What a line begins with stands in it, up to a carriage return at its end. -/
theorem exists_head_linesFrom {line : List Char} (h : line ≠ []) (s : List Char) :
    ∃ text, (linesFrom line s)[0]? = some text ∧ line.reverse <:+: text ++ ['\r'] := by
  induction s generalizing line with
  | nil =>
    refine ⟨line.reverse, ?_, (List.prefix_append _ _).isInfix⟩
    rw [linesFrom, if_neg (by simpa using h)]
    rfl
  | cons c s ih =>
    rw [linesFrom]
    split
    · refine ⟨(dropReturn line).reverse, rfl, ?_⟩
      unfold dropReturn
      split
      · rw [List.reverse_cons]
      · exact (List.prefix_append _ _).isInfix
    · obtain ⟨text, htext, hpiece⟩ := ih (List.cons_ne_nil c line)
      rw [List.reverse_cons] at hpiece
      exact ⟨text, htext, (List.prefix_append _ _).isInfix.trans hpiece⟩

theorem exists_getElem?_linesFrom {piece : List Char} (hne : piece ≠ []) (hfeed : '\n' ∉ piece)
    (line before after : List Char) :
    ∃ text, (linesFrom line (before ++ piece ++ after))[before.count '\n']? = some text ∧
      piece <:+: text ++ ['\r'] := by
  induction before generalizing line with
  | nil =>
    obtain ⟨text, htext, hpiece⟩ := exists_head_linesFrom
      (List.append_ne_nil_of_left_ne_nil (List.reverse_ne_nil_iff.mpr hne) line) after
    refine ⟨text, ?_, ?_⟩
    · rwa [List.nil_append, linesFrom_append hfeed]
    · rw [List.reverse_append, List.reverse_reverse] at hpiece
      exact (List.suffix_append _ _).isInfix.trans hpiece
  | cons c before ih =>
    rw [List.cons_append, List.cons_append, linesFrom]
    split
    · next hc =>
      obtain ⟨text, htext, hpiece⟩ := ih []
      refine ⟨text, ?_, hpiece⟩
      rwa [hc, List.count_cons_self, List.getElem?_cons_succ]
    · next hc =>
      rw [List.count_cons_of_ne hc]
      exact ih (c :: line)

theorem mem_numberedLines {l : Nat} {text s : List Char} :
    (l, text) ∈ numberedLines s ↔ ∃ i, l = i + 1 ∧ (lines s)[i]? = some text := by
  simp only [numberedLines, List.mem_map, Prod.exists, List.mk_mem_zipIdx_iff_getElem?, Prod.mk.injEq]
  constructor
  · rintro ⟨text', i, h, rfl, rfl⟩
    exact ⟨i, rfl, h⟩
  · rintro ⟨i, rfl, h⟩
    exact ⟨text, i, h, rfl, rfl⟩

/-- A line has one text. -/
theorem eq_of_mem_numberedLines {l : Nat} {text text' s : List Char}
    (h : (l, text) ∈ numberedLines s) (h' : (l, text') ∈ numberedLines s) : text = text' := by
  obtain ⟨i, rfl, hi⟩ := mem_numberedLines.mp h
  obtain ⟨j, hj, hj'⟩ := mem_numberedLines.mp h'
  obtain rfl := Nat.succ.inj hj
  exact Option.some.inj (hi.symm.trans hj')

/-- **A piece without a line feed stands in one line.** -/
theorem exists_line_of_piece {piece : List Char} (hne : piece ≠ []) (hfeed : '\n' ∉ piece)
    (before after : List Char) :
    ∃ text, (before.count '\n' + 1, text) ∈ numberedLines (before ++ piece ++ after) ∧
      piece <:+: text ++ ['\r'] := by
  obtain ⟨text, htext, hpiece⟩ := exists_getElem?_linesFrom hne hfeed [] before after
  exact ⟨text, mem_numberedLines.mpr ⟨_, rfl, htext⟩, hpiece⟩

end CodeAudit.Text
