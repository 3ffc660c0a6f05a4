import CodeAudit.Language.Basic
import CodeAudit.Proofs.Search.Walk

/-!
# Which of the recognised files are searched

A file is analysed if its extension, in any letter case, is one of a language.  It is searched for
references if its extension, as it is written, is one of another list.  The two lists were written
apart.  **All that is searched is recognised** (`isSome_ofPath?_of_isSearched`), but not the other way
round: an extension with a capital letter in it is not searched, and neither are three that only the
languages know (`mem_searchedExtensions_iff`).

A walk also has to come to the file.  If no directory on the way is skipped, it does unless a link on
the way leads back to a directory that the way is inside of (`walked_iff`).  Together these are the
exact condition for a recognised file of a project to be searched
(`recognised_file_searched_iff`).
-/

namespace CodeAudit

/-! ## 1. The two lists of extensions -/

/-- Extensions of a language that no search looks at. -/
def unsearchedExtensions : List String := ["mts", "cts", "pyw"]

theorem exists_extension_of_ofPath? {p : Path} {l : Language} (h : Language.ofPath? p = some l) :
    ∃ e, p.extension? = some e ∧ String.ofList (Text.lower e) ∈ l.extensions := by
  obtain ⟨e, he, hfind⟩ := Option.bind_eq_some_iff.mp h
  exact ⟨e, he, by simpa using List.find?_some hfind⟩

/-- **A recognised extension is searched if it is in lower case and none of three.** -/
theorem mem_searchedExtensions_iff {e : List Char} {l : Language}
    (h : String.ofList (Text.lower e) ∈ l.extensions) :
    String.ofList e ∈ searchedExtensions ↔
      Text.lower e = e ∧ String.ofList e ∉ unsearchedExtensions := by
  have hsearched : ∀ x ∈ searchedExtensions,
      Text.lower x.toList = x.toList ∧ x ∉ unsearchedExtensions := by
    decide +kernel
  have hrecognised : ∀ x ∈ l.extensions, x ∉ unsearchedExtensions → x ∈ searchedExtensions := by
    cases l <;> decide
  constructor
  · intro hmem
    simpa using hsearched _ hmem
  · rintro ⟨hlower, hother⟩
    rw [hlower] at h
    exact hrecognised _ h hother

/-- **What is searched is recognised.** -/
theorem isSome_ofPath?_of_isSearched {filter : PathFilter} {root p : Path}
    (h : isSearched filter root p = true) : (Language.ofPath? p).isSome = true := by
  have hall : ∀ x ∈ searchedExtensions, (Language.all.find? fun l =>
      l.extensions.contains (String.ofList (Text.lower x.toList))).isSome = true := by
    decide +kernel
  rw [isSearched, Bool.and_eq_true] at h
  obtain ⟨e, he, hmem⟩ := (Option.any_eq_true ..).mp h.1
  have hfound := hall _ (by simpa using hmem)
  rw [String.toList_ofList] at hfound
  rw [Language.ofPath?, he]
  exact hfound

/-! ## 2. Ways that a walk takes -/

section Walk

variable (d : Disk) (root : Path)

/-- No link on the way leads back to a directory that the way is inside of. -/
def NeverReturns (dirs names : List String) : Prop :=
  ∀ before name rest, names = before ++ name :: rest → rest ≠ [] → ¬ Returns d root (dirs ++ before) name

variable {d root} {filter : PathFilter} {dirs names rest : List String} {name : String}

theorem neverReturns_singleton : NeverReturns d root dirs [name] := by
  intro before name' rest hnames hrest
  cases before with
  | nil => exact absurd (List.cons.inj hnames).2.symm hrest
  | cons first before => simp at hnames

theorem neverReturns_cons (hrest : rest ≠ []) : NeverReturns d root dirs (name :: rest) ↔
    ¬ Returns d root dirs name ∧ NeverReturns d root (dirs ++ [name]) rest := by
  constructor
  · intro h
    refine ⟨?_, fun before name' rest' hsplit hne => ?_⟩
    · simpa using h [] name rest rfl hrest
    · simpa using h (name :: before) name' rest' (by rw [hsplit]; rfl) hne
  · rintro ⟨hfirst, hmore⟩ before name' rest' hsplit hne
    cases before with
    | nil =>
      obtain ⟨rfl, -⟩ := List.cons.inj hsplit
      simpa using hfirst
    | cons first before =>
      obtain ⟨rfl, hrest'⟩ := List.cons.inj hsplit
      simpa using hmore before name' rest' hrest' hne

theorem walked_cons (hrest : rest ≠ []) : Walked d filter root dirs (name :: rest) ↔
    filter.skipsDirectory name = false ∧ ¬ Returns d root dirs name ∧
      Walked d filter root (dirs ++ [name]) rest := by
  constructor
  · intro h
    cases h with
    | file hfile => exact absurd rfl hrest
    | enter hskips hreturns hwalked => exact ⟨hskips, hreturns, hwalked⟩
  · rintro ⟨hskips, hreturns, hwalked⟩
    exact .enter hskips hreturns hwalked

/-- **A walk takes every way to a file on which no directory is skipped and no link leads back.** -/
theorem walked_iff (hnames : names ≠ []) : Walked d filter root dirs names ↔
    d.isFile (root.down (dirs ++ names)) = true ∧
      (∀ dir ∈ names.dropLast, filter.skipsDirectory dir = false) ∧ NeverReturns d root dirs names := by
  induction names generalizing dirs with
  | nil => exact absurd rfl hnames
  | cons name names ih =>
    cases names with
    | nil =>
      constructor
      · intro h
        exact ⟨h.isFile, by simp, neverReturns_singleton⟩
      · rintro ⟨hfile, -, -⟩
        exact .file hfile
    | cons next names =>
      have hne := List.cons_ne_nil next names
      rw [walked_cons hne, ih hne, neverReturns_cons hne]
      simp only [List.append_assoc, List.singleton_append, List.dropLast_cons_cons, List.forall_mem_cons]
      tauto

end Walk

/-! ## 3. Recognised files -/

/-- A file below the root of a project, left out by no name and no glob of a filter. -/
structure IsProjectFile (d : Disk) (filter : PathFilter) (root : Path) (names : List String) : Prop where
  nonempty : names ≠ []
  isFile : d.isFile (root.down names) = true
  entered : ∀ dir ∈ root.ownName :: names.dropLast, filter.skipsDirectory dir = false
  included : filter.excludes (Path.text ⟨false, names.map .into, false⟩) = false

namespace IsProjectFile

variable {d : Disk} {filter : PathFilter} {root : Path} {names : List String}

/-- What has a file below it is a directory. -/
theorem exists_resolve (h : IsProjectFile d filter root names) :
    ∃ here, d.resolve root = .ok here ∧ d.IsDirectory here := by
  obtain ⟨found, hfound, -⟩ := Disk.isFile_iff.mp h.isFile
  exact Disk.exists_resolve_of_down h.nonempty hfound

theorem walked_iff_neverReturns (h : IsProjectFile d filter root names) :
    Walked d filter root [] names ↔ NeverReturns d root [] names := by
  rw [walked_iff h.nonempty]
  refine ⟨fun hwalked => hwalked.2.2, fun hnever => ⟨h.isFile, fun dir hdir => ?_, hnever⟩⟩
  exact h.entered dir (List.mem_cons_of_mem _ hdir)

theorem isSearched_iff (h : IsProjectFile d filter root names) {l : Language}
    (hlanguage : Language.ofPath? (root.down names) = some l) :
    isSearched filter root (root.down names) = true ↔
      ∃ e, (root.down names).extension? = some e ∧ Text.lower e = e ∧
        String.ofList e ∉ unsearchedExtensions := by
  obtain ⟨e, he, hextension⟩ := exists_extension_of_ofPath? hlanguage
  have hiff := mem_searchedExtensions_iff hextension
  simp [isSearched, Path.relativeTo?_down, he, h.included, hiff]

end IsProjectFile

/-- **Of the recognised files of a project those are searched that have an extension in lower case which
is none of three, and to which no link leads in a circle.**  All others are recognised, so that they can
be analysed, but no reference from them counts.  What is searched is always recognised. -/
theorem recognised_file_searched_iff {d : Disk} (hd : d.IsUnambiguous) {filter : PathFilter}
    {root : Path} {names : List String} (hproject : IsProjectFile d filter root names) {l : Language}
    (hlanguage : Language.ofPath? (root.down names) = some l) :
    ∃ files, sourceFiles d filter root = .ok files ∧
      (root.down names ∈ files ↔
        (∃ e, (root.down names).extension? = some e ∧ Text.lower e = e ∧
          String.ofList e ∉ unsearchedExtensions) ∧ NeverReturns d root [] names) ∧
      (∀ p ∈ files, (Language.ofPath? p).isSome = true) ∧
      ∀ q, ∃ hits, scan d filter root q = .ok hits ∧
        ∀ h, h.path = root.down names →
          (h ∈ hits ↔ root.down names ∈ files ∧ h ∈ hitsIn d q (root.down names)) := by
  obtain ⟨here, hroot, hdirectory⟩ := hproject.exists_resolve
  obtain ⟨files, hfiles⟩ := @exists_sourceFiles d filter root here hroot
  have hentered := hproject.entered _ List.mem_cons_self
  refine ⟨files, hfiles, ?_, ?_, ?_⟩
  · rw [down_mem_sourceFiles hd hroot hdirectory hfiles, hproject.walked_iff_neverReturns,
      hproject.isSearched_iff hlanguage, and_iff_right hentered, and_comm]
  · intro p hp
    obtain ⟨-, rest, rfl, -, hsearched⟩ := (mem_sourceFiles hd hroot hdirectory hfiles).mp hp
    exact isSome_ofPath?_of_isSearched hsearched
  · intro q
    obtain ⟨hits, hhits⟩ := exists_scan hfiles q
    refine ⟨hits, hhits, fun h hpath => ?_⟩
    rw [mem_scan hfiles hhits, hpath]

/-- A disk with a project of one file, which calls a function. -/
def projectOf (file : String) : Disk where
  top := .directory [("p", .directory [(file, .file "x()\n".toUTF8)])]
  workingDirectory := []

/-- A module is recognised by its extension, and not searched. -/
theorem module_extension_not_searched :
    (projectOf "b.mts").IsUnambiguous ∧
    IsProjectFile (projectOf "b.mts") ({} : ValidationSettings).pathFilter (.ofNames ["p"]) ["b.mts"] ∧
    Language.ofPath? ((Path.ofNames ["p"]).down ["b.mts"]) = some .typescript ∧
    ∃ files, sourceFiles (projectOf "b.mts") ({} : ValidationSettings).pathFilter (.ofNames ["p"]) = .ok files ∧
      (Path.ofNames ["p"]).down ["b.mts"] ∉ files := by
  have hd : (projectOf "b.mts").IsUnambiguous := Disk.isUnambiguous_of_hasUniqueNames (by decide)
  have hproject : IsProjectFile (projectOf "b.mts") ({} : ValidationSettings).pathFilter
      (.ofNames ["p"]) ["b.mts"] :=
    ⟨by decide, by rfl, by decide +kernel, by cbv⟩
  have hlanguage : Language.ofPath? ((Path.ofNames ["p"]).down ["b.mts"]) = some .typescript := by
    decide +kernel
  obtain ⟨files, hfiles, hiff, -⟩ := recognised_file_searched_iff hd hproject hlanguage
  refine ⟨hd, hproject, hlanguage, files, hfiles, fun hmem => ?_⟩
  obtain ⟨⟨e, he, -, hother⟩, -⟩ := hiff.mp hmem
  have hextension : ((Path.ofNames ["p"]).down ["b.mts"]).extension? = some "mts".toList := by
    decide +kernel
  obtain rfl := Option.some.inj (hextension.symm.trans he)
  exact hother (by decide)

end CodeAudit
