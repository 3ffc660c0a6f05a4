import CodeAudit.Proofs.Path.Spelling
import CodeAudit.Proofs.Text.Bytes
import CodeAudit.Search.Cache

/-!
# What the key of a search tells apart

A search is kept under a digest of its query and its root.  In the text of a query the name stands
between marks, and what could be taken for a mark in the name has a backslash before it; a mark is a
backslash and a letter, and no letter is escaped.  So **the text of a query ends where it ends,
whatever comes after it** (`Query.text_append_inj`), even if the name holds a zero.  With a root that
can be read back from its text, the bytes of a key determine the search (`keyBytes_inj`).
-/

namespace CodeAudit

namespace Query

/-! ## 1. The text of a query -/

/-- The characters of a name with the special ones escaped. -/
def escape (name : List Char) : List Char :=
  name.flatMap fun c => if special.contains c then ['\\', c] else [c]

theorem toList_escaped (name : String) : (escaped name).toList = escape name.toList := by
  simp [escaped, escape]

theorem escape_cons (c : Char) (name : List Char) :
    escape (c :: name) = (if special.contains c then ['\\', c] else [c]) ++ escape name := by
  simp [escape]

theorem special_backslash : special.contains '\\' = true := by decide

/-- An escaped name does not begin like a mark. -/
theorem escape_cons_append_ne {c x : Char} (hx : special.contains x = false)
    (name r r' : List Char) : escape (c :: name) ++ r ≠ '\\' :: x :: r' := by
  rw [escape_cons]
  split
  · next hc =>
    intro h
    have hcx : c = x := by
      simp only [List.cons_append, List.cons.injEq] at h
      exact h.2.1
    rw [hcx, hx] at hc
    cases hc
  · next hc =>
    intro h
    have hc' : c = '\\' := by
      simp only [List.cons_append, List.cons.injEq] at h
      exact h.1
    exact hc (hc' ▸ special_backslash)

/-- **A mark ends an escaped name.** -/
theorem escape_append_inj {x y : Char} (hx : special.contains x = false)
    (hy : special.contains y = false) {a b r r' : List Char}
    (h : escape a ++ '\\' :: x :: r = escape b ++ '\\' :: y :: r') : a = b ∧ x = y ∧ r = r' := by
  induction a generalizing b with
  | nil =>
    cases b with
    | nil =>
      obtain ⟨-, rfl, rfl⟩ : '\\' = '\\' ∧ x = y ∧ r = r' := by simpa [escape] using h
      exact ⟨rfl, rfl, rfl⟩
    | cons d b => exact absurd h.symm (escape_cons_append_ne hx b _ r)
  | cons c a ih =>
    cases b with
    | nil => exact absurd h (escape_cons_append_ne hy a _ r')
    | cons d b =>
      have hfirst : c = d ∧ escape a ++ '\\' :: x :: r = escape b ++ '\\' :: y :: r' := by
        rw [escape_cons, escape_cons] at h
        split at h <;> split at h
        · simpa using h
        · next hd =>
          have hbackslash : '\\' = d := by
            simp only [List.cons_append, List.cons.injEq] at h
            exact h.1
          exact absurd (hbackslash ▸ special_backslash) hd
        · next hc _ =>
          have hbackslash : c = '\\' := by
            simp only [List.cons_append, List.cons.injEq] at h
            exact h.1
          exact absurd (hbackslash ▸ special_backslash) hc
        · simpa using h
      obtain ⟨rfl, hxy, hr⟩ := ih hfirst.2
      exact ⟨hfirst.1 ▸ rfl, hxy, hr⟩

/-- **The text of a query shows where it ends.** -/
theorem text_append_inj {q q' : Query} {r r' : List Char}
    (h : q.text.toList ++ r = q'.text.toList ++ r') : q = q' ∧ r = r' := by
  have hword (name : String) (r : List Char) : (word name).text.toList ++ r =
      '\\' :: 'b' :: (escape name.toList ++ '\\' :: 'b' :: r) := by
    simp [text, toList_escaped]
  have hcall (name : String) (r : List Char) : (call name).text.toList ++ r =
      '\\' :: 'b' :: (escape name.toList ++ '\\' :: 's' :: ('*' :: '\\' :: '(' :: r)) := by
    simp [text, toList_escaped]
  have hb : special.contains 'b' = false := by decide
  have hs : special.contains 's' = false := by decide
  cases q with
  | word name =>
    cases q' with
    | word name' =>
      rw [hword, hword] at h
      obtain ⟨hname, -, hr⟩ := escape_append_inj hb hb (List.cons.inj (List.cons.inj h).2).2
      exact ⟨by rw [String.toList_injective hname], hr⟩
    | call name' =>
      rw [hword, hcall] at h
      obtain ⟨-, hmark, -⟩ := escape_append_inj hb hs (List.cons.inj (List.cons.inj h).2).2
      cases hmark
  | call name =>
    cases q' with
    | word name' =>
      rw [hcall, hword] at h
      obtain ⟨-, hmark, -⟩ := escape_append_inj hs hb (List.cons.inj (List.cons.inj h).2).2
      cases hmark
    | call name' =>
      rw [hcall, hcall] at h
      obtain ⟨hname, -, hr⟩ := escape_append_inj hs hs (List.cons.inj (List.cons.inj h).2).2
      refine ⟨by rw [String.toList_injective hname], ?_⟩
      simpa using hr

end Query

/-! ## 2. The key of a search -/

namespace SearchCache

theorem keyBytes_eq_byteList (q : Query) (root : Path) :
    keyBytes q root = (q.text ++ ("\x00" ++ root.spelled)).toUTF8.toList := by
  have hzero : "\x00".toUTF8.toList = [0] := by decide +kernel
  rw [Text.byteList_append, Text.byteList_append, hzero]
  rfl

/-- **The bytes of a key determine the search.** -/
theorem keyBytes_inj {q q' : Query} {root root' : Path} (hroot : root.IsProper)
    (hroot' : root'.IsProper) (h : keyBytes q root = keyBytes q' root') : q = q' ∧ root = root' := by
  rw [keyBytes_eq_byteList, keyBytes_eq_byteList] at h
  have htext := congrArg String.toList (Text.byteList_inj h)
  rw [String.toList_append, String.toList_append (s := q'.text)] at htext
  obtain ⟨hq, hrest⟩ := Query.text_append_inj htext
  have hspelled : root.spelled = root'.spelled := by
    refine String.toList_injective ?_
    simpa using hrest
  exact ⟨hq, Path.eq_of_spelled_eq hroot hroot' hspelled⟩

end SearchCache

end CodeAudit
