import CodeAudit.Finding.Vulnerability
import CodeAudit.Proofs.Text.Bytes
import CodeAudit.Proofs.Text.Lines
import CodeAudit.Proofs.Tree.Nodes
import CodeAudit.Snippet
import Mathlib.Data.List.Induction
import Mathlib.Data.List.Nodup

/-!
# Lines of text and rows of a tree

Detectors that read lines number them from the top of the text, and those that go through the tree
have the row of a node, which is a count of line feeds.  What both find on one line is merged by its
number, so the two ways of counting have to agree.  They do not look at the same thing: a line
ends before its line feed or before a carriage return and a line feed, the last line may have no
end, and after a final line feed there is no line.

* `position_eq`: a position is counted in bytes, also inside a character.
* `LineAt`: where a line stands in the text, and what it may end with.
* `getElem?_lines_of_lineAt`: **a line that stands behind so many line feeds is the one with that
  number**.
* `exists_lineAt`: **every byte that is not part of a line's end stands in a line.**
-/

namespace CodeAudit.Text

/-! ## 1. Positions in bytes -/

/-- Number of line feeds before an offset. -/
def feedsBefore (bs : List UInt8) (offset : Nat) : Nat := (bs.take offset).count feed

/-- Number of bytes before an offset since the last line feed. -/
def sinceFeed (bs : List UInt8) (offset : Nat) : Nat :=
  ((bs.take offset).reverse.takeWhile (· != feed)).length

/-- The position after a byte. -/
def Position.after (p : Position) (b : UInt8) : Position :=
  if b = feed then ⟨p.row + 1, 0⟩ else ⟨p.row, p.column + 1⟩

/-- Bytes without a line feed stay in the row. -/
theorem foldl_after_of_not_mem {bs : List UInt8} (h : feed ∉ bs) (p : Position) :
    bs.foldl Position.after p = ⟨p.row, p.column + bs.length⟩ := by
  induction bs generalizing p with
  | nil => rfl
  | cons b bs ih =>
    obtain ⟨hb, hbs⟩ := not_or.mp (List.mem_cons.not.mp h)
    rw [List.foldl_cons, ih hbs, Position.after, if_neg (Ne.symm hb), List.length_cons]
    simp only [Position.mk.injEq, true_and]
    omega

/-- Going on by so many bytes goes through each of them. -/
theorem positionFrom_eq_foldl (here : Position) (n : Nat) (s : List Char) :
    positionFrom here n s = ((bytes s).take n).foldl Position.after here := by
  induction s generalizing here n with
  | nil => cases n <;> simp [positionFrom]
  | cons c s ih =>
    cases n with
    | zero => simp [positionFrom]
    | succ n =>
      rw [positionFrom]
      split
      next hc =>
        have hbyte : bytes (c :: s) = feed :: bytes s := by rw [hc, bytes_cons]; rfl
        rw [ih, hbyte, List.take_succ_cons, List.foldl_cons, Position.after, if_pos rfl]
      next hc =>
        -- the bytes of the character that are taken hold no line feed
        have hnone : feed ∉ (String.utf8EncodeChar c).take (n + 1) :=
          fun h => hc (feed_mem_utf8EncodeChar.mp (List.mem_of_mem_take h))
        rw [ih, bytes_cons, List.take_append, List.foldl_append, foldl_after_of_not_mem hnone,
          List.length_take, String.length_utf8EncodeChar, Nat.min_comm]

theorem foldl_after_eq (bs : List UInt8) :
    bs.foldl Position.after ⟨0, 0⟩ =
      ⟨bs.count feed, (bs.reverse.takeWhile (· != feed)).length⟩ := by
  induction bs using List.reverseRecOn with
  | nil => rfl
  | append_singleton bs b ih =>
    rw [List.foldl_append, ih, List.foldl_cons, List.foldl_nil, Position.after, List.count_append,
      List.reverse_append, List.reverse_singleton, List.singleton_append]
    split
    next hb => simp [hb]
    next hb => simp [hb]

/-- **A position is counted in bytes.** -/
theorem position_eq (s : List Char) (offset : Nat) :
    position s offset = ⟨feedsBefore (bytes s) offset, sinceFeed (bytes s) offset⟩ := by
  rw [position, positionFrom_eq_foldl, foldl_after_eq]
  rfl

/-! ## 2. Where a line stands -/

/-- A line of a text, with what stands before it and behind it.  It begins the text or follows a line
feed, and it ends with the text, before a line feed, or before a carriage return and a line feed. -/
structure LineAt (source before text rest : List Char) : Prop where
  split : source = before ++ text ++ rest
  begins : before = [] ∨ ∃ front, before = front ++ ['\n']
  whole : '\n' ∉ text
  ends : (rest = [] ∧ text ≠ []) ∨
    (∃ after, rest = '\n' :: after ∧ text.getLast? ≠ some '\r') ∨
    ∃ after, rest = '\r' :: '\n' :: after

/-- The lines behind a line feed come after those before it. -/
theorem getElem?_linesFrom_feed (line front s : List Char) (i : Nat) :
    (linesFrom line (front ++ '\n' :: s))[front.count '\n' + 1 + i]? = (linesFrom [] s)[i]? := by
  induction front generalizing line with
  | nil =>
    rw [List.nil_append, linesFrom, if_pos rfl, List.count_nil, Nat.zero_add, Nat.add_comm,
      List.getElem?_cons_succ]
  | cons c front ih =>
    rw [List.cons_append, linesFrom]
    split
    next hc =>
      rw [hc, List.count_cons_self, Nat.add_right_comm _ 1 1, Nat.add_right_comm _ 1 i,
        List.getElem?_cons_succ]
      exact ih []
    next hc =>
      rw [List.count_cons_of_ne hc]
      exact ih (c :: line)

/-- The first line, up to its end. -/
theorem getElem?_lines_zero {text rest : List Char} (h : LineAt (text ++ rest) [] text rest) :
    (lines (text ++ rest))[0]? = some text := by
  have hfeed : ∀ after, (linesFrom text.reverse ('\n' :: after))[0]? =
      some (dropReturn text.reverse).reverse := by
    intro after
    rw [linesFrom, if_pos rfl]
    rfl
  rw [lines, linesFrom_append h.whole, List.append_nil]
  rcases h.ends with ⟨rfl, hne⟩ | ⟨after, rfl, hreturn⟩ | ⟨after, rfl⟩
  · rw [linesFrom, if_neg (by simpa using hne), List.reverse_reverse]
    rfl
  · rw [hfeed]
    have hkept : dropReturn text.reverse = text.reverse := by
      unfold dropReturn
      split
      next hhead =>
        have hlast : text.getLast? = some '\r' := by rw [← List.head?_reverse, hhead]; rfl
        exact absurd hlast hreturn
      next => rfl
    rw [hkept, List.reverse_reverse]
  · rw [linesFrom, if_neg (by decide), linesFrom, if_pos rfl]
    simp [dropReturn]

/-- **A line that stands behind so many line feeds has that number.** -/
theorem getElem?_lines_of_lineAt {source before text rest : List Char}
    (h : LineAt source before text rest) : (lines source)[before.count '\n']? = some text := by
  obtain ⟨hsplit, hbegins, hwhole, hends⟩ := h
  have hfirst : (lines (text ++ rest))[0]? = some text :=
    getElem?_lines_zero ⟨rfl, .inl rfl, hwhole, hends⟩
  rw [hsplit, List.append_assoc]
  rcases hbegins with rfl | ⟨front, rfl⟩
  · exact hfirst
  · rw [List.append_assoc, List.singleton_append, List.count_append, List.count_singleton_self]
    exact (getElem?_linesFrom_feed [] front (text ++ rest) 0).trans hfirst

/-! ## 3. The line of a byte -/

/-- A byte that is part of the end of a line: a line feed, or a carriage return right before one. -/
def IsLineEnd (bs : List UInt8) (offset : Nat) : Prop :=
  bs[offset]? = some feed ∨ bs[offset]? = some 13 ∧ bs[offset + 1]? = some feed

/-- A text up to its last line feed, and what follows. -/
theorem exists_row_start (s : List Char) :
    ∃ before row, s = before ++ row ∧ '\n' ∉ row ∧
      (before = [] ∨ ∃ front, before = front ++ ['\n']) := by
  induction s using List.reverseRecOn with
  | nil => exact ⟨[], [], rfl, by simp, .inl rfl⟩
  | append_singleton s c ih =>
    by_cases hc : c = '\n'
    · exact ⟨s ++ [c], [], by simp, by simp, .inr ⟨s, by rw [hc]⟩⟩
    · obtain ⟨before, row, rfl, hrow, hbegins⟩ := ih
      exact ⟨before, row ++ [c], by simp, by simp [hrow, Ne.symm hc], hbegins⟩

/-- A text up to its first line feed, and the rest. -/
theorem exists_row_stop (s : List Char) :
    ∃ row rest, s = row ++ rest ∧ '\n' ∉ row ∧ (rest = [] ∨ ∃ after, rest = '\n' :: after) := by
  induction s with
  | nil => exact ⟨[], [], rfl, by simp, .inl rfl⟩
  | cons c s ih =>
    by_cases hc : c = '\n'
    · exact ⟨[], c :: s, rfl, by simp, .inr ⟨s, by rw [hc]⟩⟩
    · obtain ⟨row, rest, rfl, hrow, hrest⟩ := ih
      exact ⟨c :: row, rest, rfl, by simp [hrow, Ne.symm hc], hrest⟩

/-- **A character that is not part of a line's end stands in a line.** -/
theorem exists_lineAt_of_char (before : List Char) {after : List Char} {c : Char} (hfeed : c ≠ '\n')
    (hreturn : c = '\r' → after.head? ≠ some '\n') :
    ∃ front left right rest, before = front ++ left ∧
      LineAt (before ++ c :: after) front (left ++ c :: right) rest := by
  obtain ⟨front, left, rfl, hleft, hbegins⟩ := exists_row_start before
  obtain ⟨right, rest, rfl, hright, hrest⟩ := exists_row_stop after
  have hwhole : '\n' ∉ left ++ c :: right := by simp [hleft, hright, Ne.symm hfeed]
  rcases hrest with rfl | ⟨after, rfl⟩
  · exact ⟨front, left, right, [], rfl, by simp, hbegins, hwhole, .inl ⟨rfl, by simp⟩⟩
  · by_cases hlast : (left ++ c :: right).getLast? = some '\r'
    · -- the carriage return is not the character itself, so it can be left to the end of the line
      rcases List.eq_nil_or_concat right with rfl | ⟨right, d, rfl⟩
      · have hc : c = '\r' := by simpa using hlast
        exact absurd rfl (hreturn hc)
      · have hconcat : left ++ c :: right.concat d = (left ++ c :: right) ++ [d] := by simp
        rw [hconcat] at hwhole hlast
        have hd : d = '\r' := by rwa [List.getLast?_concat, Option.some.injEq] at hlast
        exact ⟨front, left, right, '\r' :: '\n' :: after, rfl, by simp [hd], hbegins,
          fun h => hwhole (List.mem_append_left [d] h), .inr (.inr ⟨after, rfl⟩)⟩
    · exact ⟨front, left, right, '\n' :: after, rfl, by simp, hbegins, hwhole,
        .inr (.inl ⟨after, rfl, hlast⟩)⟩

/-- What is known of the byte of a character if it is not part of a line's end. -/
theorem not_lineEnd_of_char {before after : List Char} {c : Char} {offset : Nat}
    (hle : utf8Length before ≤ offset) (hlt : offset < utf8Length before + c.utf8Size)
    (h : ¬ IsLineEnd (bytes (before ++ c :: after)) offset) :
    c ≠ '\n' ∧ (c = '\r' → after.head? ≠ some '\n') := by
  have hbyte : c.utf8Size = 1 → ∀ i, (bytes (before ++ c :: after))[offset + i]? =
      (bytes (c :: after))[i]? := by
    intro hone i
    rw [bytes_append, List.getElem?_append_right (by rw [length_bytes]; omega), length_bytes]
    congr 1
    omega
  constructor
  · rintro rfl
    refine h (.inl ?_)
    exact (hbyte rfl 0).trans (by rw [bytes_cons]; rfl)
  · rintro rfl hhead
    obtain ⟨after, rfl⟩ : ∃ rest, after = '\n' :: rest := by
      cases after with
      | nil => cases hhead
      | cons d rest => exact ⟨rest, by rw [Option.some.inj hhead]⟩
    refine h (.inr ⟨?_, ?_⟩)
    · exact (hbyte rfl 0).trans (by rw [bytes_cons]; rfl)
    · exact (hbyte rfl 1).trans (by rw [bytes_cons, bytes_cons]; rfl)

/-- **Every byte that is not part of a line's end stands in a line.** -/
theorem exists_lineAt {source : List Char} {offset : Nat} (hoffset : offset < (bytes source).length)
    (h : ¬ IsLineEnd (bytes source) offset) :
    ∃ before text rest, LineAt source before text rest ∧ utf8Length before ≤ offset ∧
      offset < utf8Length before + utf8Length text := by
  obtain ⟨before, c, after, rfl, hle, hlt⟩ := exists_char_at hoffset
  obtain ⟨hfeed, hreturn⟩ := not_lineEnd_of_char hle hlt h
  obtain ⟨front, left, right, rest, rfl, hline⟩ := exists_lineAt_of_char before hfeed hreturn
  refine ⟨front, _, rest, hline, ?_, ?_⟩
  · rw [utf8Length_append] at hle
    omega
  · simp only [utf8Length_append, utf8Length_cons] at hlt ⊢
    omega

/-- Behind a line feed bytes are counted from it. -/
theorem length_since_feed {front row : List UInt8} (hfront : front = [] ∨ ∃ bs, front = bs ++ [feed])
    (hrow : feed ∉ row) : ((front ++ row).reverse.takeWhile (· != feed)).length = row.length := by
  have hkept : ∀ b ∈ row.reverse, (b != feed) = true := by
    intro b hb
    rw [bne_iff_ne]
    rintro rfl
    exact hrow (List.mem_reverse.mp hb)
  have hstop : front.reverse.takeWhile (· != feed) = [] := by
    rcases hfront with rfl | ⟨bs, rfl⟩
    · rfl
    · rw [List.reverse_append, List.reverse_singleton, List.singleton_append,
        List.takeWhile_cons_of_neg (by simp)]
  rw [List.reverse_append, List.takeWhile_append_of_pos hkept, hstop, List.append_nil,
    List.length_reverse]

/-- The bytes of a line stand behind those of what is before it. -/
theorem LineAt.bytes_of_line {source before text rest : List Char}
    (h : LineAt source before text rest) {k : Nat} (hk : k < (bytes text).length) :
    (bytes source).take (utf8Length before + k) = bytes before ++ (bytes text).take k ∧
      (bytes source)[utf8Length before + k]? = (bytes text)[k]? := by
  have hbytes : bytes source = bytes before ++ (bytes text ++ bytes rest) := by simp [h.split]
  rw [hbytes, ← length_bytes before]
  constructor
  · rw [List.take_length_add_append, List.take_append_of_le_length (Nat.le_of_lt hk)]
  · rw [List.getElem?_append_right (Nat.le_add_right _ _), Nat.add_sub_cancel_left,
      List.getElem?_append_left hk]

/-- **In a line, the row is the number of line feeds before it, and the column counts from its
beginning.** -/
theorem LineAt.position_of_byte {source before text rest : List Char}
    (h : LineAt source before text rest) {offset : Nat} (hle : utf8Length before ≤ offset)
    (hlt : offset < utf8Length before + utf8Length text) :
    feedsBefore (bytes source) offset = before.count '\n' ∧
      utf8Length before + sinceFeed (bytes source) offset = offset ∧
      (bytes text)[sinceFeed (bytes source) offset]? = (bytes source)[offset]? := by
  obtain ⟨k, rfl⟩ : ∃ k, offset = utf8Length before + k := ⟨offset - utf8Length before, by omega⟩
  have hk : k < (bytes text).length := by rw [length_bytes]; omega
  obtain ⟨htake, hbyte⟩ := h.bytes_of_line hk
  have hnone : feed ∉ (bytes text).take k :=
    fun hmem => h.whole (feed_mem_bytes.mp (List.mem_of_mem_take hmem))
  have hfront : bytes before = [] ∨ ∃ bs, bytes before = bs ++ [feed] := by
    rcases h.begins with rfl | ⟨front, rfl⟩
    · exact .inl bytes_nil
    · exact .inr ⟨bytes front, by rw [bytes_append, bytes_cons, bytes_nil]; rfl⟩
  have hcolumn : sinceFeed (bytes source) (utf8Length before + k) = k := by
    rw [sinceFeed, htake, length_since_feed hfront hnone, List.length_take_of_le (Nat.le_of_lt hk)]
  rw [hcolumn]
  refine ⟨?_, rfl, hbyte.symm⟩
  rw [feedsBefore, htake, List.count_append, count_feed_bytes, List.count_eq_zero.mpr hnone,
    Nat.add_zero]

/-- Of a list without repeated keys a key picks out its one entry. -/
theorem filter_key_eq_singleton {α : Type} {xs : List (Nat × α)} (h : (xs.map Prod.fst).Nodup)
    {k : Nat} {a : α} (hmem : (k, a) ∈ xs) : xs.filter (·.1 == k) = [(k, a)] := by
  induction xs with
  | nil => cases hmem
  | cons x xs ih =>
    rw [List.map_cons, List.nodup_cons] at h
    obtain ⟨hnew, hrest⟩ := h
    rcases List.mem_cons.mp hmem with rfl | hmem
    · have hnone : xs.filter (·.1 == k) = [] := by
        rw [List.filter_eq_nil_iff]
        intro y hy hk
        exact hnew (List.mem_map.mpr ⟨y, hy, eq_of_beq hk⟩)
      rw [List.filter_cons, if_pos (by simp), hnone]
    · have hother : ¬ (x.1 == k) = true := by
        intro hk
        exact hnew (List.mem_map.mpr ⟨(k, a), hmem, (eq_of_beq hk).symm⟩)
      rw [List.filter_cons, if_neg hother, ih hrest hmem]

/-- Lines have numbers of their own. -/
theorem nodup_numbers (source : List Char) : ((numberedLines source).map Prod.fst).Nodup := by
  have hnumbers : (numberedLines source).map Prod.fst =
      ((lines source).zipIdx.map Prod.snd).map (· + 1) := by
    rw [numberedLines, List.map_map, List.map_map]
    rfl
  rw [hnumbers, List.zipIdx_map_snd]
  exact List.Nodup.map Nat.succ_injective List.nodup_range'

end CodeAudit.Text

namespace CodeAudit.Vulnerability

open Text

/-! ## 4. Vulnerabilities of one line -/

/-- Two vulnerabilities are merged into one iff they stand for one another. -/
theorem length_mergeByLine_pair (v w : Vulnerability) :
    (mergeByLine [v, w]).length = 1 ↔ alike v w = true := by
  rw [mergeByLine, List.length_mergeSort]
  simp only [winners, List.foldl_cons, List.foldl_nil, absorb]
  split <;> simp_all

/-- A vulnerability at a node is on the line that the node begins in. -/
theorem line_eq_of_span {v : Vulnerability} {n : Site} {source : List Char}
    (h : v.span = n.span source) : v.line = feedsBefore (bytes source) n.label.start + 1 := by
  rw [line, h, Site.span, Site.startPosition, position_eq]

/-- **Lines of text and rows of a tree have the same numbers.**  Take a byte that is not part of a
line's end, with the line feeds before it for its row and the bytes since the last of them for its
column.  There is exactly one line whose number is the next after the row, the line stands in the
text around the byte, and the byte has its column there.

A vulnerability at a node that begins with the byte and one for a whole line have therefore the same
line, and are merged if they are of one kind, exactly if the line is this one. -/
theorem line_numbers_agree (s : Snippet) (offset : Nat) (hoffset : offset < (bytes s.source).length)
    (hend : ¬ IsLineEnd (bytes s.source) offset) :
    ∃ row column text, row = feedsBefore (bytes s.source) offset ∧
      column = sinceFeed (bytes s.source) offset ∧
      s.lines.filter (·.1 == row + 1) = [(row + 1, text)] ∧
      (bytes text)[column]? = (bytes s.source)[offset]? ∧
      (∃ before rest, LineAt s.source before text rest ∧ utf8Length before + column = offset) ∧
      ∀ n : Site, n.label.start = offset → n.startPosition s.source = ⟨row, column⟩ ∧
        ∀ l t, (l, t) ∈ s.lines → ∀ kind severity severity' message message',
          ((atSite kind severity s.source n message).line =
              (atLine kind severity' l t message').line ↔ (l, t) = (row + 1, text)) ∧
          ∀ v w : Vulnerability, v.span = n.span s.source → w.span = .ofLine l t → v.kind = w.kind →
            ((mergeByLine [v, w]).length = 1 ↔ (l, t) = (row + 1, text)) := by
  obtain ⟨before, text, rest, hline, hle, hlt⟩ := exists_lineAt hoffset hend
  obtain ⟨hrow, hcolumn, hbyte⟩ := hline.position_of_byte hle hlt
  have hnumber := getElem?_lines_of_lineAt hline
  rw [← hrow] at hnumber
  have hitem := mem_numberedLines.mpr ⟨_, rfl, hnumber⟩
  refine ⟨_, _, text, rfl, rfl, filter_key_eq_singleton (nodup_numbers _) hitem, hbyte,
    ⟨before, rest, hline, hcolumn⟩, ?_⟩
  rintro n rfl
  refine ⟨position_eq s.source n.label.start, ?_⟩
  intro l t hmem
  -- the text of a line is known from its number
  have hsame : feedsBefore (bytes s.source) n.label.start + 1 = l ↔
      (l, t) = (feedsBefore (bytes s.source) n.label.start + 1, text) := by
    constructor
    · rintro rfl
      rw [eq_of_mem_numberedLines hmem hitem]
    · intro h
      exact (Prod.mk.inj h).1.symm
  have hmerged : ∀ v w : Vulnerability, v.span = n.span s.source → w.span = .ofLine l t →
      (v.line = w.line ↔ (l, t) = (feedsBefore (bytes s.source) n.label.start + 1, text)) := by
    intro v w hv hw
    have hl : w.line = l := by rw [line, hw]; rfl
    rw [line_eq_of_span hv, hl, hsame]
  intro kind severity severity' message message'
  refine ⟨hmerged _ _ rfl rfl, ?_⟩
  intro v w hv hw hkind
  rw [length_mergeByLine_pair, ← hmerged v w hv hw]
  simp [alike, hkind]

/-- Three lines: one that keeps the first of two carriage returns, an empty one, and one that has no
end and keeps its carriage return. -/
def returnsSnippet : Snippet where
  source := "a\r\r\n\né\r".toList
  tree := none
  language := "javascript"

/-- A node at the start of the third line. -/
def thirdLineSite : Site := .top (.named "identifier" none 5 7 [])

/-- What is found at the node and what is found in the third line are merged. -/
theorem third_line_merged :
    5 < (bytes returnsSnippet.source).length ∧ ¬ IsLineEnd (bytes returnsSnippet.source) 5 ∧
      (3, "é\r".toList) ∈ returnsSnippet.lines ∧
      (mergeByLine [atSite .xss .high returnsSnippet.source thirdLineSite "",
        atLine .xss .low 3 "é\r".toList ""]).length = 1 := by
  have hoffset : 5 < (bytes returnsSnippet.source).length := by
    rw [length_bytes]
    decide
  have hend : ¬ IsLineEnd (bytes returnsSnippet.source) 5 := by
    rw [IsLineEnd, bytes_eq_flatMap]
    decide
  have hfeeds : feedsBefore (bytes returnsSnippet.source) 5 = 2 := by
    rw [bytes_eq_flatMap]
    decide
  obtain ⟨row, column, text, rfl, -, honly, -, -, hnode⟩ :=
    line_numbers_agree returnsSnippet 5 hoffset hend
  rw [hfeeds] at honly hnode
  have hthird : returnsSnippet.lines.filter (·.1 == 2 + 1) = [(3, "é\r".toList)] := by decide
  obtain rfl : text = "é\r".toList := by
    rw [hthird] at honly
    exact (Prod.mk.inj (List.cons.inj honly).1).2.symm
  have hmem : (3, "é\r".toList) ∈ returnsSnippet.lines := by decide
  obtain ⟨-, hlines⟩ := hnode thirdLineSite rfl
  obtain ⟨-, hmerged⟩ := hlines 3 _ hmem .xss .high .low "" ""
  refine ⟨hoffset, hend, hmem, (hmerged _ _ ?_ ?_ ?_).mpr rfl⟩ <;> rfl

end CodeAudit.Vulnerability
