import CodeAudit.Proofs.Disk.Leads
import CodeAudit.Proofs.Path.Spelling
import CodeAudit.Search.Basic
import Mathlib.Data.Finset.Card
import Mathlib.Data.List.Infix

/-!
# What a walk comes to

The walk through a project is a recursion over the tree of the disk, and at each link to a directory
over a number of links that may still be followed.  Which files it lists is said here without either,
by the names on the way (`Walked`): each directory may be entered by its name, no link leads back to
a directory that the way is inside of, and the last name leads to a file.

**The walk lists the files that are walked to, and no others** (`mem_allFiles`).  One direction is an
induction over the tree.  The other needs that the links suffice: a link that is followed leads to a
directory that the walk is not inside of, so each costs one of the directories that are left
(`room`), and there are no more of these than the disk has directories.

From there on files and hits are sets that are described by paths, and no proof opens the walk again
(`mem_sourceFiles`, `mem_scan`).
-/

namespace CodeAudit

/-! ## 1. Down from a path -/

namespace Path

/-- The path from a directory down through some names. -/
def down (p : Path) (names : List String) : Path := names.foldl entry p

/-- The name by which a directory is judged. -/
def ownName (p : Path) : String := p.fileName?.getD p.text

variable (p : Path) (name : String) (names : List String)

theorem down_append (more : List String) : p.down (names ++ more) = (p.down names).down more :=
  List.foldl_append

theorem down_concat : p.down (names ++ [name]) = (p.down names).entry name := down_append p names [name]

theorem steps_down : (p.down names).steps = p.steps ++ names.map .into := by
  induction names generalizing p with
  | nil => simp [down]
  | cons name names ih =>
    rw [show p.down (name :: names) = (p.entry name).down names from rfl, ih]
    simp [entry]

theorem absolute_down : (p.down names).absolute = p.absolute := by
  induction names generalizing p with
  | nil => rfl
  | cons name names ih => exact ih (p.entry name)

theorem folder_down (h : names ≠ []) : (p.down names).folder = false := by
  obtain ⟨init, last, rfl⟩ := (List.eq_nil_or_concat' names).resolve_left h
  rw [down_concat]
  rfl

theorem fileName?_down (h : names ≠ []) : (p.down names).fileName? = names.getLast? := by
  obtain ⟨init, last, rfl⟩ := (List.eq_nil_or_concat' names).resolve_left h
  simp [fileName?, steps_down]

theorem relativeTo?_down : p.relativeTo? (p.down names) = some ⟨false, names.map .into, false⟩ := by
  simp [relativeTo?, absolute_down, steps_down]

theorem down_injective {xs ys : List String} (h : p.down xs = p.down ys) : xs = ys := by
  have hsteps := congrArg steps h
  rw [steps_down, steps_down] at hsteps
  exact List.map_injective_iff.mpr (fun _ _ => Step.into.inj) (List.append_cancel_left hsteps)

end Path

namespace Disk

variable {d : Disk} {p q : Path} {here names : List String} {name : String}

/-- Two paths lead to one place. -/
def Meet (d : Disk) (p q : Path) : Prop := ∃ names, d.resolve p = .ok names ∧ d.resolve q = .ok names

/-- The entry of a name in a directory is a link. -/
def HasLink (d : Disk) (p : Path) (name : String) : Prop :=
  ∃ here target, d.resolve p = .ok here ∧ d.top.at? (here ++ [name]) = some (.link target)

/-- No two entries of a directory have one name. -/
def IsUnambiguous (d : Disk) : Prop :=
  ∀ names entries, d.top.at? names = some (.directory entries) → (entries.map Prod.fst).Nodup

theorem isFile_iff : d.isFile p = true ↔ ∃ names, d.resolve p = .ok names ∧ d.HoldsFile names := by
  unfold isFile readBytes HoldsFile
  cases d.resolve p with
  | error cause => simp [Except.bind, Except.toBool]
  | ok names =>
    simp only [Except.bind, Except.ok.injEq, exists_eq_left']
    cases d.top.at? names with
    | none => simp [Except.toBool]
    | some t => cases t <;> simp [Except.toBool]

/-- A file that holds a text is read as that text. -/
theorem readText_of_readBytes {text : String} (h : d.readBytes p = .ok text.toUTF8) :
    d.readText p = .ok text := by
  have hvalid : text.toUTF8.IsValidUTF8 := text.isValidUTF8
  have htext : String.fromUTF8? text.toUTF8 = some text := by
    rw [String.fromUTF8?, dif_pos hvalid]
    rfl
  simp only [readText, h, Except.bind, htext]

/-- The entry of a directory that is no link is where its name says. -/
theorem resolve_entry (hp : d.resolve p = .ok here)
    (h : d.IsDirectory (here ++ [name]) ∨ d.HoldsFile (here ++ [name])) :
    d.resolve (p.entry name) = .ok (here ++ [name]) := by
  obtain ⟨⟨m, hm, hleads⟩, -⟩ := resolve_eq_ok_iff.mp hp
  have hhere : d.IsDirectory here := by
    rcases h with ⟨entries, hat⟩ | ⟨bytes, hat⟩ <;> exact FileTree.exists_directory_of_at?_append hat
  have hname : d.Leads 0 here [.into name] (here ++ [name]) := @leads_names _ _ [name] h
  exact resolve_eq_ok_iff.mpr
    ⟨⟨m, hm, hleads.append hname (.inr hhere.not_holdsFile)⟩, fun hfolder => nomatch hfolder⟩

/-- Where an entry of a directory leads. -/
theorem leads_of_resolve_entry (hp : d.resolve p = .ok here)
    (h : d.resolve (p.entry name) = .ok names) : ∃ n, d.Leads n here [.into name] names := by
  obtain ⟨⟨m, hm, hleads⟩, -⟩ := resolve_eq_ok_iff.mp hp
  obtain ⟨⟨m', hm', hleads'⟩, -⟩ := resolve_eq_ok_iff.mp h
  obtain ⟨i, j, mid, hsum, hfirst, hlast, -⟩ := @Leads.split _ _ _ _ p.steps [.into name] hleads'
  have hsame : mid = here := by
    have hi : i ≤ maxLinks := by omega
    exact Except.ok.inj ((hfirst.followLinks hi).symm.trans (hleads.followLinks hm))
  exact ⟨j, hsame ▸ hlast⟩

/-- A path that goes on leads through a directory. -/
theorem exists_resolve_of_down {rest : List String} (hrest : rest ≠ [])
    (h : d.resolve (p.down rest) = .ok names) : ∃ mid, d.resolve p = .ok mid ∧ d.IsDirectory mid := by
  obtain ⟨⟨m, hm, hleads⟩, -⟩ := resolve_eq_ok_iff.mp h
  have hstart : d.startOf (p.down rest) = d.startOf p := by
    rw [startOf, startOf, Path.absolute_down]
  rw [Path.steps_down, hstart] at hleads
  obtain ⟨i, j, mid, hsum, hfirst, hlast, -⟩ := hleads.split
  obtain ⟨next, rest, rfl⟩ := List.exists_cons_of_ne_nil hrest
  have hdirectory : d.IsDirectory mid := hlast.isDirectory_of_into
  have hi : i ≤ maxLinks := by omega
  exact ⟨mid, resolve_eq_ok_iff.mpr ⟨⟨i, hi, hfirst⟩, fun _ => hdirectory.not_holdsFile⟩, hdirectory⟩

theorem meet_iff (hp : d.resolve p = .ok names) : d.Meet p q ↔ d.resolve q = .ok names := by
  constructor
  · rintro ⟨names', hp', hq⟩
    obtain rfl := Except.ok.inj (hp.symm.trans hp')
    exact hq
  · intro hq
    exact ⟨names, hp, hq⟩

theorem canonical_of_resolve (h : d.resolve p = .ok names) : d.canonical p = .ofNames names := by
  rw [canonical, h]

/-- **Two paths are the same with all links followed if they lead to one place.** -/
theorem same_canonical_iff (hp : d.resolve p = .ok names)
    (hfound : d.IsDirectory names ∨ d.HoldsFile names)
    (hq : q.folder = false ∨ ∃ others, d.resolve q = .ok others) :
    (d.canonical p).same (d.canonical q) = true ↔ d.Meet p q := by
  rw [meet_iff hp, canonical_of_resolve hp]
  cases hresolve : d.resolve q with
  | ok others =>
    have hinjective : Function.Injective (List.map Step.into) :=
      List.map_injective_iff.mpr fun _ _ => Step.into.inj
    rw [canonical_of_resolve hresolve]
    simp only [Path.same, Path.ofNames, beq_self_eq_true, Bool.true_and, beq_iff_eq,
      hinjective.eq_iff, Except.ok.injEq]
    exact eq_comm
  | error cause =>
    -- a path that leads nowhere is not the path of what is there
    have hfolder : q.folder = false := by
      rcases hq with hfolder | ⟨others, hothers⟩
      · exact hfolder
      · rw [hresolve] at hothers
        cases hothers
    have hcanonical : d.canonical q = q := by rw [canonical, hresolve]
    rw [hcanonical]
    simp only [Path.same, Path.ofNames, Bool.and_eq_true, beq_iff_eq, reduceCtorEq, iff_false, not_and]
    intro habsolute hsteps
    have heq : q = .ofNames names := by
      obtain ⟨absolute, steps, folder⟩ := q
      simp only at hfolder habsolute hsteps
      simp [Path.ofNames, ← habsolute, ← hsteps, hfolder]
    rw [heq, resolve_ofNames hfound] at hresolve
    cases hresolve

/-- An entry of a directory is found under its name. -/
theorem at?_concat_of_mem {entries : List (String × FileTree)} {t : FileTree}
    (hd : d.IsUnambiguous) (hentries : d.top.at? names = some (.directory entries))
    (hmem : (name, t) ∈ entries) : d.top.at? (names ++ [name]) = some t := by
  have hnodup := hd names entries hentries
  have hfind : (entries.find? fun e => e.1 == name) = some (name, t) := by
    clear hentries
    induction entries with
    | nil => cases hmem
    | cons e entries ih =>
      obtain ⟨hfresh, hnodup⟩ := List.nodup_cons.mp hnodup
      rcases List.mem_cons.mp hmem with rfl | hmem
      · simp
      · have hne : e.1 ≠ name := by
          rintro rfl
          exact hfresh (List.mem_map.mpr ⟨_, hmem, rfl⟩)
        rw [List.find?_cons_of_neg (by simpa using hne)]
        exact ih hmem hnodup
  rw [FileTree.at?_concat, hentries]
  simp [FileTree.lookup?, hfind]

end Disk

mutual

/-- Whether no directory has two entries of one name, which can be computed. -/
def FileTree.hasUniqueNames : FileTree → Bool
  | .directory entries => decide (entries.map Prod.fst).Nodup && hasUniqueNamesIn entries
  | _ => true

def FileTree.hasUniqueNamesIn : List (String × FileTree) → Bool
  | [] => true
  | (_, t) :: rest => t.hasUniqueNames && hasUniqueNamesIn rest

end

theorem FileTree.hasUniqueNames_of_mem {entries : List (String × FileTree)} {e : String × FileTree}
    (h : hasUniqueNamesIn entries = true) (he : e ∈ entries) : e.2.hasUniqueNames = true := by
  induction entries with
  | nil => cases he
  | cons first entries ih =>
    rw [hasUniqueNamesIn, Bool.and_eq_true] at h
    rcases List.mem_cons.mp he with rfl | he
    · exact h.1
    · exact ih h.2 he

theorem Disk.isUnambiguous_of_hasUniqueNames {d : Disk} (h : d.top.hasUniqueNames = true) :
    d.IsUnambiguous := by
  intro names entries hat
  generalize d.top = t at h hat
  induction names generalizing t with
  | nil =>
    obtain rfl := Option.some.inj hat
    rw [FileTree.hasUniqueNames, Bool.and_eq_true, decide_eq_true_eq] at h
    exact h.1
  | cons name names ih =>
    obtain ⟨child, hlookup, hrest⟩ := Option.bind_eq_some_iff.mp hat
    cases t with
    | file bytes => cases hlookup
    | link target => cases hlookup
    | directory children =>
      rw [FileTree.hasUniqueNames, Bool.and_eq_true] at h
      exact ih child (FileTree.hasUniqueNames_of_mem h.2 (FileTree.mem_of_lookup? hlookup)) hrest

/-! ## 2. The directories that are left -/

mutual

/-- The rows of names that end at a directory. -/
def FileTree.directories : FileTree → List (List String)
  | .directory entries => [] :: directoriesIn entries
  | _ => []

def FileTree.directoriesIn : List (String × FileTree) → List (List String)
  | [] => []
  | (name, t) :: rest => t.directories.map (name :: ·) ++ directoriesIn rest

end

mutual

theorem FileTree.length_directories : (t : FileTree) → t.directories.length = t.directoryCount
  | .file _ | .link _ => by simp [directories, directoryCount]
  | .directory entries => by
    simp [directories, directoryCount, length_directoriesIn entries, Nat.add_comm]

theorem FileTree.length_directoriesIn : (entries : List (String × FileTree)) →
    (directoriesIn entries).length = directoryCountIn entries
  | [] => by simp [directoriesIn, directoryCountIn]
  | (_, t) :: rest => by
    simp [directoriesIn, directoryCountIn, length_directories t, length_directoriesIn rest]

end

namespace FileTree

theorem mem_directoriesIn {entries : List (String × FileTree)} {name : String} {t : FileTree}
    {names : List String} (hmem : (name, t) ∈ entries) (h : names ∈ t.directories) :
    name :: names ∈ directoriesIn entries := by
  induction entries with
  | nil => cases hmem
  | cons e entries ih =>
    obtain ⟨name', t'⟩ := e
    rw [directoriesIn]
    rcases List.mem_cons.mp hmem with heq | hmem
    · obtain ⟨rfl, rfl⟩ := Prod.mk.inj heq
      exact List.mem_append_left _ (List.mem_map_of_mem h)
    · exact List.mem_append_right _ (ih hmem)

theorem mem_directories {t : FileTree} {names : List String} {entries : List (String × FileTree)}
    (h : t.at? names = some (.directory entries)) : names ∈ t.directories := by
  induction names generalizing t with
  | nil =>
    obtain rfl := Option.some.inj h
    rw [directories]
    exact List.mem_cons_self
  | cons name names ih =>
    obtain ⟨child, hlookup, hat⟩ := Option.bind_eq_some_iff.mp h
    cases t with
    | file bytes => cases hlookup
    | link target => cases hlookup
    | directory entries =>
      rw [directories]
      exact List.mem_cons_of_mem _ (mem_directoriesIn (mem_of_lookup? hlookup) (ih hat))

end FileTree

/-- The number of directories that a walk is not inside of. -/
def Disk.room (d : Disk) (inside : List (List String)) : Nat :=
  (d.top.directories.toFinset \ inside.toFinset).card

theorem Disk.room_le (d : Disk) (inside : List (List String)) : d.room inside ≤ d.top.directoryCount :=
  calc d.room inside ≤ d.top.directories.toFinset.card := Finset.card_le_card Finset.sdiff_subset
    _ ≤ d.top.directories.length := d.top.directories.toFinset_card_le
    _ = d.top.directoryCount := d.top.length_directories

theorem Disk.room_cons_le (d : Disk) (names : List String) (inside : List (List String)) :
    d.room (names :: inside) ≤ d.room inside := by
  refine Finset.card_le_card (Finset.sdiff_subset_sdiff (Finset.Subset.refl _) ?_)
  rw [List.toFinset_cons]
  exact Finset.subset_insert _ _

/-- **Entering a directory from outside costs one.** -/
theorem Disk.room_cons_lt {d : Disk} {names : List String} {inside : List (List String)}
    (hnames : d.IsDirectory names) (hout : names ∉ inside) : d.room (names :: inside) < d.room inside := by
  obtain ⟨entries, hat⟩ := hnames
  have hmem : names ∈ d.top.directories.toFinset \ inside.toFinset :=
    Finset.mem_sdiff.mpr ⟨List.mem_toFinset.mpr (FileTree.mem_directories hat), by simpa using hout⟩
  rw [room, List.toFinset_cons, Finset.sdiff_insert]
  exact Finset.card_erase_lt_of_mem hmem

/-! ## 3. The walk -/

section Walk

variable (d : Disk) (filter : PathFilter) (root : Path)

/-- After some directories, a name is a link that leads back to one of them, or to the root. -/
def Returns (dirs : List String) (name : String) : Prop :=
  d.HasLink (root.down dirs) name ∧
    ∃ above, above <+: dirs ∧ d.Meet (root.down above) (root.down (dirs ++ [name]))

/-- After some directories, a walk comes by more names to a file. -/
inductive Walked : List String → List String → Prop
  | file {dirs : List String} {name : String} :
    d.isFile (root.down (dirs ++ [name])) = true → Walked dirs [name]
  | enter {dirs rest : List String} {name : String} :
    filter.skipsDirectory name = false → ¬ Returns d root dirs name →
    Walked (dirs ++ [name]) rest → Walked dirs (name :: rest)

/-- A visit of a directory: the way to it, and where it and the directories above it are. -/
structure Visit.StandsAt (dirs : List String) (v : Visit) : Prop where
  path : v.path = root.down dirs
  names : d.resolve (root.down dirs) = .ok v.names
  inside : ∀ names, names ∈ v.inside ↔ ∃ above, above <+: dirs ∧ d.resolve (root.down above) = .ok names

/-- What a walk does at a link, with so many links left. -/
def linkVisit : Nat → LinkVisit
  | 0 => fun _ _ => []
  | n + 1 => walkFiles d filter n

theorem walkFiles_eq (n : Nat) : walkFiles d filter n = filesIn d filter (linkVisit d filter n) := by
  cases n <;> rfl

end Walk

variable {d : Disk} {filter : PathFilter} {root : Path} {v : Visit} {dirs rest : List String}
  {entries : List (String × FileTree)} {p : Path} {follow : LinkVisit}

theorem mem_filesIn :
    p ∈ filesIn d filter follow v entries ↔ ∃ e ∈ entries, p ∈ filesAt d filter follow v e.1 e.2 := by
  induction entries with
  | nil => simp [filesIn]
  | cons e entries ih => simp [filesIn, ih]

/-- A walk that goes on stands in the next directory. -/
theorem Visit.StandsAt.entry (hv : v.StandsAt d root dirs) {name : String} {names : List String}
    (h : d.resolve (root.down (dirs ++ [name])) = .ok names) :
    Visit.StandsAt d root (dirs ++ [name]) ⟨v.path.entry name, names, names :: v.inside⟩ := by
  refine ⟨?_, h, ?_⟩
  · rw [Path.down_concat, hv.path]
  · intro other
    rw [List.mem_cons, hv.inside]
    constructor
    · rintro (rfl | ⟨above, habove, hother⟩)
      · exact ⟨dirs ++ [name], List.prefix_refl _, h⟩
      · exact ⟨above, habove.trans (List.prefix_append _ _), hother⟩
    · rintro ⟨above, habove, hother⟩
      rcases List.prefix_concat_iff.mp habove with rfl | habove
      · exact .inl (Except.ok.inj (hother.symm.trans h))
      · exact .inr ⟨above, habove, hother⟩

/-- Whether a link leads back is whether the walk is inside of where it leads. -/
theorem Visit.StandsAt.mem_inside_iff (hv : v.StandsAt d root dirs) {name : String}
    {names : List String} (h : d.resolve (root.down (dirs ++ [name])) = .ok names)
    (hlink : d.HasLink (root.down dirs) name) : names ∈ v.inside ↔ Returns d root dirs name := by
  rw [hv.inside]
  constructor
  · rintro ⟨above, habove, hnames⟩
    exact ⟨hlink, above, habove, names, hnames, h⟩
  · rintro ⟨-, above, habove, names', hnames', h'⟩
    obtain rfl := Except.ok.inj (h.symm.trans h')
    exact ⟨above, habove, hnames'⟩

/-- One level of the walk, if the rest is right after a link. -/
theorem exists_walked_of_mem_filesIn (hd : d.IsUnambiguous)
    (hfollow : ∀ v dirs entries p, v.StandsAt d root dirs →
      d.top.at? v.names = some (.directory entries) → p ∈ follow v entries →
      ∃ rest, p = v.path.down rest ∧ Walked d filter root dirs rest)
    (hv : v.StandsAt d root dirs) (hentries : d.top.at? v.names = some (.directory entries))
    (hp : p ∈ filesIn d filter follow v entries) :
    ∃ rest, p = v.path.down rest ∧ Walked d filter root dirs rest := by
  induction hsize : sizeOf entries using Nat.strong_induction_on generalizing v dirs entries with
  | _ size ih =>
    obtain ⟨⟨name, t⟩, hmem, hp⟩ := mem_filesIn.mp hp
    have hat := Disk.at?_concat_of_mem hd hentries hmem
    have hresolve (h : d.IsDirectory (v.names ++ [name]) ∨ d.HoldsFile (v.names ++ [name])) :
        d.resolve (root.down (dirs ++ [name])) = .ok (v.names ++ [name]) := by
      rw [Path.down_concat]
      exact Disk.resolve_entry hv.names h
    cases t with
    | file bytes =>
      rw [filesAt, List.mem_singleton] at hp
      have hfile : d.HoldsFile (v.names ++ [name]) := ⟨bytes, hat⟩
      exact ⟨[name], hp, .file (Disk.isFile_iff.mpr ⟨_, hresolve (.inr hfile), hfile⟩)⟩
    | directory children =>
      rw [filesAt] at hp
      split at hp
      · cases hp
      · next hskips =>
        have hsmaller : sizeOf children < size := by
          have := List.sizeOf_lt_of_mem hmem
          simp at this
          omega
        have hnext := hv.entry (hresolve (.inl ⟨children, hat⟩))
        obtain ⟨rest, hrest, hwalked⟩ := ih _ hsmaller hnext hat hp rfl
        refine ⟨name :: rest, hrest, .enter (by simpa using hskips) ?_ hwalked⟩
        rintro ⟨⟨here, target, hhere, hlink⟩, -⟩
        obtain rfl := Except.ok.inj (hv.names.symm.trans hhere)
        rw [hat] at hlink
        cases hlink
    | link target =>
      have hpath : v.path.entry name = root.down (dirs ++ [name]) := by
        rw [Path.down_concat, hv.path]
      have hlink : d.HasLink (root.down dirs) name := ⟨v.names, target, hv.names, hat⟩
      rw [filesAt, filesAtLink, hpath] at hp
      split at hp
      · cases hp
      · next names hnames =>
        split at hp
        · next bytes hfile =>
          rw [List.mem_singleton] at hp
          refine ⟨[name], hp.trans hpath.symm, .file ?_⟩
          exact Disk.isFile_iff.mpr ⟨names, hnames, bytes, hfile⟩
        · next children hchildren =>
          split at hp
          · cases hp
          · next hgo =>
            obtain ⟨hout, hskips⟩ : names ∉ v.inside ∧ filter.skipsDirectory name = false := by
              simpa using hgo
            have hnext := hv.entry hnames
            rw [hpath] at hnext
            obtain ⟨rest, hrest, hwalked⟩ := hfollow _ _ _ _ hnext hchildren hp
            refine ⟨name :: rest, ?_, .enter hskips ?_ hwalked⟩
            · rw [hrest, ← hpath]
              rfl
            · exact mt (hv.mem_inside_iff hnames hlink).mpr hout
        · cases hp

theorem exists_walked_of_mem_walkFiles (hd : d.IsUnambiguous) (n : Nat)
    (hv : v.StandsAt d root dirs) (hentries : d.top.at? v.names = some (.directory entries))
    (hp : p ∈ walkFiles d filter n v entries) :
    ∃ rest, p = v.path.down rest ∧ Walked d filter root dirs rest := by
  induction n generalizing v dirs entries p with
  | zero =>
    refine exists_walked_of_mem_filesIn hd ?_ hv hentries hp
    intro v dirs entries p _ _ hnone
    cases hnone
  | succ n ih =>
    refine exists_walked_of_mem_filesIn hd ?_ hv hentries hp
    intro v dirs entries p hv hentries hp
    exact ih hv hentries hp

theorem Walked.ne_nil (h : Walked d filter root dirs rest) : rest ≠ [] := by
  cases h <;> exact List.cons_ne_nil _ _

theorem Walked.isFile (h : Walked d filter root dirs rest) :
    d.isFile (root.down (dirs ++ rest)) = true := by
  induction h with
  | file hfile => exact hfile
  | enter _ _ _ ih => simpa using ih

/-- What stands under a name is an entry. -/
theorem mem_entries {names : List String} {name : String} {t : FileTree}
    (hentries : d.top.at? names = some (.directory entries))
    (hat : d.top.at? (names ++ [name]) = some t) : (name, t) ∈ entries := by
  rw [FileTree.at?_concat, hentries] at hat
  exact FileTree.mem_of_lookup? hat

theorem mem_filesIn_of_isFile (hv : v.StandsAt d root dirs)
    (hentries : d.top.at? v.names = some (.directory entries)) {name : String}
    (hfile : d.isFile (root.down (dirs ++ [name])) = true) :
    v.path.entry name ∈ filesIn d filter follow v entries := by
  obtain ⟨names, hnames, hholds⟩ := Disk.isFile_iff.mp hfile
  obtain ⟨bytes, hbytes⟩ := hholds
  rw [Path.down_concat] at hnames
  obtain ⟨n, hleads⟩ := Disk.leads_of_resolve_entry hv.names hnames
  refine mem_filesIn.mpr ?_
  cases hleads with
  | directory hdirectory harrived =>
    cases harrived
    exact absurd ⟨bytes, hbytes⟩ hdirectory.not_holdsFile
  | file hname =>
    obtain ⟨bytes', hat⟩ := hname
    refine ⟨_, mem_entries hentries hat, ?_⟩
    rw [filesAt]
    exact List.mem_singleton_self _
  | link hat _ =>
    refine ⟨_, mem_entries hentries hat, ?_⟩
    rw [filesAt, filesAtLink, hv.path, hnames]
    simp only [hbytes]
    exact List.mem_singleton_self _

/-- A walk goes on into a directory, by its entry or by a link to it. -/
theorem mem_filesIn_of_next (hv : v.StandsAt d root dirs)
    (hentries : d.top.at? v.names = some (.directory entries)) {name : String} {names : List String}
    {children : List (String × FileTree)} (hnames : d.resolve (root.down (dirs ++ [name])) = .ok names)
    (hchildren : d.top.at? names = some (.directory children))
    (hskips : filter.skipsDirectory name = false) (hreturns : ¬ Returns d root dirs name)
    (hentry : p ∈ filesIn d filter follow ⟨v.path.entry name, names, names :: v.inside⟩ children)
    (hlink : names ∉ v.inside → p ∈ follow ⟨v.path.entry name, names, names :: v.inside⟩ children) :
    p ∈ filesIn d filter follow v entries := by
  have hpath : v.path.entry name = root.down (dirs ++ [name]) := by
    rw [Path.down_concat, hv.path]
  have hstep := hnames
  rw [Path.down_concat] at hstep
  obtain ⟨n, hleads⟩ := Disk.leads_of_resolve_entry hv.names hstep
  refine mem_filesIn.mpr ?_
  cases hleads with
  | directory hdirectory harrived =>
    cases harrived
    refine ⟨_, mem_entries hentries hchildren, ?_⟩
    rw [filesAt, if_neg (by simp [hskips])]
    exact hentry
  | file hfile => exact absurd hfile (Disk.IsDirectory.not_holdsFile ⟨children, hchildren⟩)
  | link hat _ =>
    have hout : names ∉ v.inside :=
      mt (hv.mem_inside_iff hnames ⟨v.names, _, hv.names, hat⟩).mp hreturns
    refine ⟨_, mem_entries hentries hat, ?_⟩
    rw [filesAt, filesAtLink, hpath, hnames]
    simp only [hchildren]
    rw [if_neg (by simp [hskips, hout]), ← hpath]
    exact hlink hout

/-- **The walk comes to every file that is walked to**, if it may follow as many links as there are
directories left.  The induction is on the names. -/
theorem Walked.mem_walkFiles (h : Walked d filter root dirs rest) {n : Nat}
    (hv : v.StandsAt d root dirs) (hentries : d.top.at? v.names = some (.directory entries))
    (hroom : d.room v.inside ≤ n) : v.path.down rest ∈ walkFiles d filter n v entries := by
  induction h generalizing v entries n with
  | file hfile =>
    rw [walkFiles_eq]
    exact mem_filesIn_of_isFile hv hentries hfile
  | @enter dirs rest name hskips hreturns hwalked ih =>
    obtain ⟨last, hlast, -⟩ := Disk.isFile_iff.mp hwalked.isFile
    rw [Path.down_append] at hlast
    obtain ⟨names, hnames, children, hchildren⟩ := Disk.exists_resolve_of_down hwalked.ne_nil hlast
    have hnext := hv.entry hnames
    rw [walkFiles_eq]
    refine mem_filesIn_of_next hv hentries hnames hchildren hskips hreturns ?_ ?_
    · have hless := d.room_cons_le names v.inside
      rw [← walkFiles_eq]
      exact ih hnext hchildren (hless.trans hroom)
    · intro hout
      have hless := Disk.room_cons_lt ⟨children, hchildren⟩ hout
      obtain ⟨m, rfl⟩ : ∃ m, n = m + 1 := ⟨n - 1, by omega⟩
      have hleft : d.room (names :: v.inside) ≤ m := by omega
      exact ih hnext hchildren hleft

/-! ## 4. Files and hits -/

/-- **The walk through a directory lists the files that are walked to**, and nothing in a directory
that is skipped by its own name. -/
theorem mem_allFiles {names : List String} {files : List Path} (hd : d.IsUnambiguous)
    (hroot : d.resolve root = .ok names) (hdirectory : d.IsDirectory names)
    (hfiles : allFiles d filter root = .ok files) :
    p ∈ files ↔ filter.skipsDirectory root.ownName = false ∧
      ∃ rest, p = root.down rest ∧ Walked d filter root [] rest := by
  obtain ⟨entries, hentries⟩ := hdirectory
  have hv : Visit.StandsAt d root [] ⟨root, names, [names]⟩ := by
    refine ⟨rfl, hroot, ?_⟩
    intro other
    rw [List.mem_singleton]
    constructor
    · rintro rfl
      exact ⟨[], List.prefix_refl _, hroot⟩
    · rintro ⟨above, habove, hother⟩
      obtain rfl := List.prefix_nil.mp habove
      exact Except.ok.inj (hother.symm.trans hroot)
  simp only [allFiles, hroot, Except.map, hentries, Except.ok.injEq] at hfiles
  subst hfiles
  unfold Path.ownName
  split
  · next hskips => simp [hskips]
  · next hskips =>
    have hkeeps : filter.skipsDirectory (root.fileName?.getD root.text) = false := by simpa using hskips
    simp only [hkeeps, true_and]
    constructor
    · exact exists_walked_of_mem_walkFiles hd _ hv hentries
    · rintro ⟨rest, rfl, hwalked⟩
      exact hwalked.mem_walkFiles hv hentries (d.room_le _)

theorem exists_sourceFiles {names : List String} (hroot : d.resolve root = .ok names) :
    ∃ files, sourceFiles d filter root = .ok files := by
  simp only [sourceFiles, allFiles, hroot, Except.map]
  exact ⟨_, rfl⟩

/-- The files that are searched are those that are walked to and wanted. -/
theorem mem_sourceFiles {names : List String} {files : List Path} (hd : d.IsUnambiguous)
    (hroot : d.resolve root = .ok names) (hdirectory : d.IsDirectory names)
    (hfiles : sourceFiles d filter root = .ok files) :
    p ∈ files ↔ filter.skipsDirectory root.ownName = false ∧
      ∃ rest, p = root.down rest ∧ Walked d filter root [] rest ∧ isSearched filter root p = true := by
  unfold sourceFiles at hfiles
  cases hall : allFiles d filter root with
  | error cause =>
    rw [hall] at hfiles
    cases hfiles
  | ok all =>
    rw [hall] at hfiles
    obtain rfl := Except.ok.inj hfiles
    rw [List.mem_filter, mem_allFiles hd hroot hdirectory hall]
    constructor
    · rintro ⟨⟨hskips, rest, hp, hwalked⟩, hsearched⟩
      exact ⟨hskips, rest, hp, hwalked, hsearched⟩
    · rintro ⟨hskips, rest, hp, hwalked, hsearched⟩
      exact ⟨⟨hskips, rest, hp, hwalked⟩, hsearched⟩

theorem down_mem_sourceFiles {names : List String} {files : List Path} (hd : d.IsUnambiguous)
    (hroot : d.resolve root = .ok names) (hdirectory : d.IsDirectory names)
    (hfiles : sourceFiles d filter root = .ok files) :
    root.down rest ∈ files ↔ filter.skipsDirectory root.ownName = false ∧
      Walked d filter root [] rest ∧ isSearched filter root (root.down rest) = true := by
  rw [mem_sourceFiles hd hroot hdirectory hfiles]
  constructor
  · rintro ⟨hskips, rest', hrest, hwalked, hsearched⟩
    obtain rfl := Path.down_injective root hrest
    exact ⟨hskips, hwalked, hsearched⟩
  · rintro ⟨hskips, hwalked, hsearched⟩
    exact ⟨hskips, rest, rfl, hwalked, hsearched⟩

/-- Whether a file is searched is a matter of the names below the root. -/
theorem isSearched_down (hrest : rest ≠ []) : isSearched filter root (root.down rest) =
    (((rest.getLast?.bind fun name => Path.extensionOf? name.toList).any fun e =>
        searchedExtensions.contains (String.ofList e)) &&
      !filter.excludes (Path.text ⟨false, rest.map .into, false⟩)) := by
  rw [isSearched, Path.extension?, Path.fileName?_down _ _ hrest, Path.relativeTo?_down]
  rfl

/-- A hit is a line of a file on which the query occurs. -/
theorem mem_hitsIn {q : Query} {h : Hit} :
    h ∈ hitsIn d q p ↔ h.path = p ∧ ∃ text, d.readText p = .ok text ∧
      ∃ line, (h.line, line) ∈ Text.numberedLines text.toList ∧ h.text = String.ofList line ∧
        q.pattern.occursIn line = true := by
  obtain ⟨path, number, content⟩ := h
  unfold hitsIn
  cases d.readText p with
  | error cause => simp
  | ok text =>
    simp only [List.mem_map, List.mem_filter, Prod.exists, Hit.mk.injEq, Except.ok.injEq,
      exists_eq_left']
    constructor
    · rintro ⟨n, line, ⟨hline, hoccurs⟩, rfl, rfl, rfl⟩
      exact ⟨rfl, line, hline, rfl, hoccurs⟩
    · rintro ⟨rfl, line, hline, rfl, hoccurs⟩
      exact ⟨number, line, ⟨hline, hoccurs⟩, rfl, rfl, rfl⟩

/-- If the files can be listed, every query has an answer. -/
theorem exists_scan {files : List Path} (hfiles : sourceFiles d filter root = .ok files) (q : Query) :
    ∃ hits, scan d filter root q = .ok hits := by
  rw [scan, hfiles]
  exact ⟨_, rfl⟩

/-- **The hits of a search are those in the files that are searched.** -/
theorem mem_scan {q : Query} {files : List Path} {hits : List Hit} {h : Hit}
    (hfiles : sourceFiles d filter root = .ok files) (hhits : scan d filter root q = .ok hits) :
    h ∈ hits ↔ h.path ∈ files ∧ h ∈ hitsIn d q h.path := by
  simp only [scan, hfiles, Except.map, Except.ok.injEq] at hhits
  subst hhits
  rw [List.mem_mergeSort, List.mem_flatMap]
  constructor
  · rintro ⟨path, hpath, hh⟩
    obtain rfl := (mem_hitsIn.mp hh).1
    exact ⟨hpath, hh⟩
  · rintro ⟨hpath, hh⟩
    exact ⟨h.path, hpath, hh⟩

end CodeAudit
