import CodeAudit.Disk.Basic
import Mathlib.Data.List.Basic

/-!
# Paths and their texts

A text is cut at its slashes, and what stands between them are steps, so a path can be read back from
its text if the names in it are such as a directory can hold: not empty, without a slash, and neither
`.` nor `..` (`IsName`).  Every path that was read from a text has such names (`isProper_ofString`),
and so has every path that is found on a disk whose directories hold no others
(`Disk.isProper_canonical`).  **Two such paths that are spelled alike are the same**
(`Path.eq_of_spelled_eq`), the ending included.
-/

namespace CodeAudit

/-! ## 1. Cutting a text -/

namespace Text

variable {separator : Char}

theorem splitFrom_append_cons (piece : List Char) {a : List Char} (b : List Char)
    (ha : separator ∉ a) :
    splitFrom separator piece (a ++ separator :: b) = (piece.reverse ++ a) :: split separator b := by
  induction a generalizing piece with
  | nil => simp [splitFrom, split]
  | cons c a ih =>
    obtain ⟨hc, ha⟩ := not_or.mp (mt List.mem_cons.mpr ha)
    rw [List.cons_append, splitFrom, if_neg (Ne.symm hc), ih (c :: piece) ha]
    simp

theorem splitFrom_of_not_mem (piece : List Char) {a : List Char} (ha : separator ∉ a) :
    splitFrom separator piece a = [piece.reverse ++ a] := by
  induction a generalizing piece with
  | nil => simp [splitFrom]
  | cons c a ih =>
    obtain ⟨hc, ha⟩ := not_or.mp (mt List.mem_cons.mpr ha)
    rw [splitFrom, if_neg (Ne.symm hc), ih (c :: piece) ha]
    simp

/-- The first separator ends the first piece. -/
theorem split_append_cons {a : List Char} (b : List Char) (ha : separator ∉ a) :
    split separator (a ++ separator :: b) = a :: split separator b :=
  splitFrom_append_cons [] b ha

theorem split_of_not_mem {a : List Char} (ha : separator ∉ a) : split separator a = [a] :=
  splitFrom_of_not_mem [] ha

theorem not_mem_of_mem_splitFrom {s piece p : List Char} (hpiece : separator ∉ piece)
    (h : p ∈ splitFrom separator piece s) : separator ∉ p := by
  induction s generalizing piece with
  | nil =>
    rw [List.mem_singleton.mp h]
    simpa using hpiece
  | cons c s ih =>
    rw [splitFrom] at h
    split at h
    · rcases List.mem_cons.mp h with rfl | h
      · simpa using hpiece
      · exact ih List.not_mem_nil h
    · next hc =>
      refine ih ?_ h
      intro hmem
      rcases List.mem_cons.mp hmem with heq | hmem
      · exact hc heq.symm
      · exact hpiece hmem

/-- A piece has no separator in it. -/
theorem not_mem_of_mem_split {s p : List Char} (h : p ∈ split separator s) : separator ∉ p :=
  not_mem_of_mem_splitFrom List.not_mem_nil h

end Text

/-! ## 2. Names -/

/-- A name that an entry of a directory can have. -/
structure IsName (name : String) : Prop where
  nonempty : name ≠ ""
  ne_here : name ≠ "."
  ne_up : name ≠ ".."
  noSlash : '/' ∉ name.toList

namespace Path

/-- Every step into an entry is by a name that an entry can have. -/
def IsProper (p : Path) : Prop := ∀ name, .into name ∈ p.steps → IsName name

/-- The piece that a step is written as is read as that step. -/
theorem stepOf?_text {s : Step} (h : ∀ name, s = .into name → IsName name) :
    stepOf? (Step.text s).toList = some s := by
  cases s with
  | up => rfl
  | into name =>
    obtain ⟨hempty, hhere, hup, -⟩ := h name rfl
    have hchars {t : String} (hne : name ≠ t) : name.toList ≠ t.toList :=
      fun heq => hne (String.toList_injective heq)
    have hnone : ¬ (name.toList = [] ∨ name.toList = ['.']) :=
      not_or.mpr ⟨hchars hempty, hchars hhere⟩
    have hnot : name.toList ≠ ['.', '.'] := hchars hup
    simp [stepOf?, Step.text, hnot, not_or.mp hnone]

theorem noSlash_text {s : Step} (h : ∀ name, s = .into name → IsName name) :
    '/' ∉ (Step.text s).toList := by
  cases s with
  | up => decide
  | into name => exact (h name rfl).noSlash

/-- **A path that is read from a text has names that entries can have.** -/
theorem isProper_ofString (s : String) : (ofString s).IsProper := by
  intro name hmem
  obtain ⟨piece, hpiece, hstep⟩ := List.mem_filterMap.mp hmem
  have hslash := Text.not_mem_of_mem_split hpiece
  unfold stepOf? at hstep
  split_ifs at hstep with hnone hup
  · cases hstep
  · obtain ⟨hempty, hhere⟩ := not_or.mp hnone
    obtain rfl := Step.into.inj (Option.some.inj hstep)
    have hchars {t : String} (hne : piece ≠ t.toList) : String.ofList piece ≠ t := by
      rintro rfl
      exact hne String.toList_ofList.symm
    refine ⟨hchars hempty, hchars hhere, hchars hup, ?_⟩
    rwa [String.toList_ofList]

/-! ## 3. Reading a path back -/

/-- Steps that are joined by slashes are read back, with a slash at the end or without. -/
theorem filterMap_stepOf?_split {steps : List Step} (hproper : ∀ name, .into name ∈ steps → IsName name)
    (hne : steps ≠ []) {tail : List Char} (htail : tail = [] ∨ tail = ['/']) :
    (Text.split '/' ((String.intercalate "/" (steps.map Step.text)).toList ++ tail)).filterMap stepOf? =
      steps := by
  rw [String.toList_intercalate]
  induction steps with
  | nil => exact absurd rfl hne
  | cons s rest ih =>
    have hs : ∀ name, s = .into name → IsName name :=
      fun name heq => hproper name (heq ▸ List.mem_cons_self)
    have hstep := stepOf?_text hs
    have hslash := noSlash_text hs
    cases rest with
    | nil =>
      rcases htail with rfl | rfl
      · simp [Text.split_of_not_mem hslash, hstep]
      · have hempty : (Text.split '/' []).filterMap stepOf? = [] := rfl
        simp [Text.split_append_cons _ hslash, hstep, hempty]
    | cons s' rest =>
      have hrest := ih (fun name hmem => hproper name (List.mem_cons_of_mem s hmem)) (by simp)
      simp only [List.map_cons] at hrest
      simp only [List.map_cons, List.intercalate_cons_cons, List.append_assoc]
      have hjoin : "/".toList = ['/'] := rfl
      rw [hjoin] at hrest ⊢
      rw [List.singleton_append, Text.split_append_cons _ hslash, List.filterMap_cons, hstep, hrest]

/-- The characters after the steps of a path. -/
def ending (p : Path) : List Char :=
  if p.folder then (if p.steps.isEmpty then ['.'] else ['/']) else []

theorem ending_eq_nil_iff {p : Path} : p.ending = [] ↔ p.folder = false := by
  unfold ending
  cases p.folder <;> cases p.steps.isEmpty <;> simp

theorem toList_spelled (p : Path) :
    p.spelled.toList = (if p.absolute then ['/'] else []) ++
      ((String.intercalate "/" (p.steps.map Step.text)).toList ++ p.ending) := by
  unfold spelled text ending
  cases p.absolute <;> cases p.folder <;> cases p.steps.isEmpty <;> simp

/-- The steps are read back from a text. -/
theorem steps_ofString_spelled {p : Path} (hp : p.IsProper) : (ofString p.spelled).steps = p.steps := by
  have hrelative : (Text.split '/' ((String.intercalate "/" (p.steps.map Step.text)).toList ++
      p.ending)).filterMap stepOf? = p.steps := by
    cases hsteps : p.steps with
    | nil =>
      unfold ending
      cases p.folder <;> rw [hsteps] <;> rfl
    | cons s rest =>
      have hending : p.ending = [] ∨ p.ending = ['/'] := by
        unfold ending
        cases p.folder
        · exact .inl rfl
        · exact .inr (by simp [hsteps])
      rw [← hsteps]
      exact filterMap_stepOf?_split hp (by simp [hsteps]) hending
  show (Text.split '/' p.spelled.toList).filterMap stepOf? = p.steps
  rw [toList_spelled]
  cases p.absolute with
  | false => exact hrelative
  | true =>
    have hslash (s : List Char) : Text.split '/' ('/' :: s) = [] :: Text.split '/' s :=
      Text.split_append_cons s List.not_mem_nil
    simp only [if_true, List.singleton_append]
    rw [hslash]
    exact hrelative

theorem exists_text_eq_cons {s : Step} (h : ∀ name, s = .into name → IsName name) :
    ∃ c cs, (Step.text s).toList = c :: cs ∧ c ≠ '/' := by
  cases hchars : (Step.text s).toList with
  | nil =>
    have hstep := stepOf?_text h
    rw [hchars] at hstep
    cases hstep
  | cons c cs =>
    refine ⟨c, cs, rfl, ?_⟩
    rintro rfl
    exact noSlash_text h (hchars ▸ List.mem_cons_self)

/-- Whether a path starts at the top is read back from a text. -/
theorem absolute_ofString_spelled {p : Path} (hp : p.IsProper) :
    (ofString p.spelled).absolute = p.absolute := by
  show (p.spelled.toList.head? == some '/') = p.absolute
  rw [toList_spelled]
  cases p.absolute with
  | true => rfl
  | false =>
    simp only [Bool.false_eq_true, if_false, List.nil_append]
    cases hsteps : p.steps with
    | nil =>
      unfold ending
      cases p.folder <;> simp [hsteps]
    | cons s rest =>
      obtain ⟨c, cs, hchars, hc⟩ := exists_text_eq_cons fun name heq =>
        hp name (hsteps ▸ heq ▸ List.mem_cons_self)
      have hhead : ((String.intercalate "/" ((s :: rest).map Step.text)).toList ++ p.ending).head? =
          some c := by
        rw [String.toList_intercalate]
        cases rest <;> simp [hchars, List.intercalate_cons_cons]
      rw [hhead]
      simpa using hc

/-- **Paths that are spelled alike are the same**, if their names are such as entries can have. -/
theorem eq_of_spelled_eq {p q : Path} (hp : p.IsProper) (hq : q.IsProper)
    (h : p.spelled = q.spelled) : p = q := by
  have habsolute : p.absolute = q.absolute := by
    rw [← absolute_ofString_spelled hp, ← absolute_ofString_spelled hq, h]
  have hsteps : p.steps = q.steps := by
    rw [← steps_ofString_spelled hp, ← steps_ofString_spelled hq, h]
  have hending : p.ending = q.ending := by
    have hchars := congrArg String.toList h
    rw [toList_spelled, toList_spelled, habsolute, hsteps] at hchars
    exact List.append_cancel_left (List.append_cancel_left hchars)
  have hfolder : p.folder = q.folder := by
    have hiff : p.folder = false ↔ q.folder = false := by
      rw [← ending_eq_nil_iff, ← ending_eq_nil_iff, hending]
    revert hiff
    cases p.folder <;> cases q.folder <;> decide
  obtain ⟨pa, ps, pf⟩ := p
  obtain ⟨qa, qs, qf⟩ := q
  simp_all

end Path

/-! ## 4. Paths on a disk -/

theorem FileTree.mem_of_lookup? {entries : List (String × FileTree)} {name : String} {t : FileTree}
    (h : (directory entries).lookup? name = some t) : (name, t) ∈ entries := by
  obtain ⟨⟨name', t'⟩, hfind, rfl⟩ := Option.map_eq_some_iff.mp h
  have hname : name' = name := by simpa using List.find?_some hfind
  subst hname
  exact List.mem_of_find?_eq_some hfind

/-- A disk whose directories hold only names that an entry can have. -/
structure Disk.IsProper (d : Disk) : Prop where
  entries : ∀ names entries, d.top.at? names = some (.directory entries) → ∀ e ∈ entries, IsName e.1
  workingDirectory : ∀ name ∈ d.workingDirectory, IsName name

namespace Disk

variable {d : Disk}

theorem IsProper.isName_of_lookup? (h : d.IsProper) {names : List String} {name : String}
    {t : FileTree} (hfound : (d.top.at? names).bind (·.lookup? name) = some t) : IsName name := by
  obtain ⟨found, hat, hlookup⟩ := Option.bind_eq_some_iff.mp hfound
  cases found with
  | file bytes => cases hlookup
  | link target => cases hlookup
  | directory entries => exact h.entries names entries hat _ (FileTree.mem_of_lookup? hlookup)

/-- Following steps leads through entries of directories, if it does so after a link. -/
theorem isName_of_follow (h : d.IsProper) {link : LinkStep}
    (hlink : ∀ here target rest names, (∀ n ∈ here, IsName n) → link here target rest = .ok names →
      ∀ n ∈ names, IsName n)
    {here : List String} (hhere : ∀ n ∈ here, IsName n) {steps : List Step} {names : List String}
    (hok : d.follow link here steps = .ok names) : ∀ n ∈ names, IsName n := by
  induction steps generalizing here with
  | nil =>
    obtain rfl := Except.ok.inj hok
    intro n hn
    exact hhere n (List.mem_reverse.mp hn)
  | cons s rest ih =>
    cases s with
    | up => exact ih (fun n hn => hhere n (List.mem_of_mem_tail hn)) hok
    | into name =>
      have henter {t : FileTree} (hfound : (d.top.at? here.reverse).bind (·.lookup? name) = some t) :
          ∀ n ∈ name :: here, IsName n := by
        intro n hn
        rcases List.mem_cons.mp hn with rfl | hn
        · exact h.isName_of_lookup? hfound
        · exact hhere n hn
      simp only [follow] at hok
      split at hok
      · cases hok
      · exact hlink here _ rest names hhere hok
      · next hfound => exact ih (henter hfound) hok
      · next hfound =>
        split at hok
        · obtain rfl := Except.ok.inj hok
          intro n hn
          exact henter hfound n (List.mem_reverse.mp hn)
        · cases hok

theorem isName_of_followLinks (h : d.IsProper) (n : Nat) {here : List String}
    (hhere : ∀ n ∈ here, IsName n) {steps : List Step} {names : List String}
    (hok : d.followLinks n here steps = .ok names) : ∀ n ∈ names, IsName n := by
  induction n generalizing here steps names with
  | zero => exact isName_of_follow h (by intro _ _ _ _ _ hlink; cases hlink) hhere hok
  | succ n ih =>
    refine isName_of_follow h ?_ hhere hok
    intro here target rest names hhere hlink
    refine ih ?_ hlink
    split
    · simp
    · exact hhere

/-- **What a path leads to is a row of names that entries can have.** -/
theorem isName_of_resolve (h : d.IsProper) {p : Path} {names : List String}
    (hok : d.resolve p = .ok names) : ∀ n ∈ names, IsName n := by
  unfold resolve at hok
  cases hfollow : d.followLinks maxLinks (if p.absolute then [] else d.workingDirectory.reverse)
      p.steps with
  | error cause =>
    rw [hfollow] at hok
    cases hok
  | ok found =>
    have hfound : ∀ n ∈ found, IsName n := by
      refine isName_of_followLinks h maxLinks ?_ hfollow
      split
      · simp
      · intro n hn
        exact h.workingDirectory n (List.mem_reverse.mp hn)
    rw [hfollow] at hok
    simp only [Except.bind] at hok
    split at hok
    · split at hok
      · cases hok
      · obtain rfl := Except.ok.inj hok
        exact hfound
    · obtain rfl := Except.ok.inj hok
      exact hfound

theorem isProper_canonical (h : d.IsProper) {p : Path} (hp : p.IsProper) :
    (d.canonical p).IsProper := by
  unfold canonical
  cases hresolve : d.resolve p with
  | error cause => exact hp
  | ok names =>
    intro name hmem
    obtain ⟨name', hname', heq⟩ := List.mem_map.mp hmem
    obtain rfl := Step.into.inj heq
    exact isName_of_resolve h hresolve name' hname'

end Disk

end CodeAudit
