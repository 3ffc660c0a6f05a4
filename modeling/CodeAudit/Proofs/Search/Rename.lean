import CodeAudit.Proofs.Search.Answers

/-!
# A project under another name

A project is searched from its root on, so what stands above the root, and the name of the root itself,
should not matter.  Two roots hold the same project (`SameProject`) if every path below them leads to
the same thing, and the same paths lead to one place.  That is so when a directory is renamed or moved
whose links keep inside of it (`FileTree.KeepsInside`, `sameProject_of_at?`): a way below the root never
leaves it, so it is the same way in the other place (`Leads.moved`).

What is searched below the root is then the same (`SameProject.walked`), **but a walk judges its root by
name like any other directory**.  A project whose own name is one to be skipped has no files at all.
So the two searches agree if both names are skipped or neither is, and otherwise only where there is
nothing to be found (`sameBelow_iff_of_gated`).
-/

namespace CodeAudit

/-! ## 1. One project in two places -/

/-- What a path leads to. -/
def Disk.find? (d : Disk) (p : Path) : Option FileTree := (d.resolve p).toOption.bind d.top.at?

/-- The same directory stands at two roots, and ways below them lead to the same things. -/
structure SameProject (d : Disk) (root : Path) (d' : Disk) (root' : Path) : Prop where
  directory : ∃ entries, d.find? root = some (.directory entries)
  found : ∀ names, d.find? (root.down names) = d'.find? (root'.down names)
  meets : ∀ xs ys, d.Meet (root.down xs) (root.down ys) ↔ d'.Meet (root'.down xs) (root'.down ys)

namespace Disk

variable {d d' : Disk} {p p' : Path} {name : String}

theorem find?_eq_some_iff {t : FileTree} :
    d.find? p = some t ↔ ∃ names, d.resolve p = .ok names ∧ d.top.at? names = some t := by
  unfold find?
  cases d.resolve p <;> simp [Except.toOption]

theorem isFile_iff_find? : d.isFile p = true ↔ ∃ bytes, d.find? p = some (.file bytes) := by
  simp only [isFile_iff, HoldsFile, find?_eq_some_iff]
  constructor
  · rintro ⟨names, hnames, bytes, hat⟩
    exact ⟨bytes, names, hnames, hat⟩
  · rintro ⟨bytes, names, hnames, hat⟩
    exact ⟨names, hnames, bytes, hat⟩

theorem hasLink_iff_find? :
    d.HasLink p name ↔ ∃ target, (d.find? p).bind (·.lookup? name) = some (.link target) := by
  unfold HasLink find?
  cases d.resolve p <;> simp [Except.toOption, FileTree.at?_concat]

/-- A file is read by what its path leads to. -/
theorem readText_eq_of_find? (hfile : d.isFile p = true) (h : d.find? p = d'.find? p') :
    d.readText p = d'.readText p' := by
  obtain ⟨bytes, hbytes⟩ := isFile_iff_find?.mp hfile
  obtain ⟨names, hnames, hat⟩ := find?_eq_some_iff.mp hbytes
  obtain ⟨names', hnames', hat'⟩ := find?_eq_some_iff.mp (h ▸ hbytes)
  simp only [readText, readBytes, hnames, hat, hnames', hat', Except.bind]

end Disk

namespace SameProject

variable {d d' : Disk} {root root' : Path} {filter : PathFilter} {dirs rest : List String}

theorem symm (h : SameProject d root d' root') : SameProject d' root' d root := by
  refine ⟨?_, fun names => (h.found names).symm, fun xs ys => (h.meets xs ys).symm⟩
  obtain ⟨entries, hentries⟩ := h.directory
  exact ⟨entries, (h.found []).symm.trans hentries⟩

theorem isFile (h : SameProject d root d' root') (hfile : d.isFile (root.down rest) = true) :
    d'.isFile (root'.down rest) = true := by
  rw [Disk.isFile_iff_find?] at hfile ⊢
  rw [← h.found rest]
  exact hfile

theorem returns (h : SameProject d root d' root') {name : String} (hreturns : Returns d root dirs name) :
    Returns d' root' dirs name := by
  obtain ⟨hlink, above, habove, hmeet⟩ := hreturns
  refine ⟨?_, above, habove, (h.meets _ _).mp hmeet⟩
  rw [Disk.hasLink_iff_find?] at hlink ⊢
  rw [← h.found dirs]
  exact hlink

/-- **A walk comes to the same files in both places.** -/
theorem walked (h : SameProject d root d' root') (hwalked : Walked d filter root dirs rest) :
    Walked d' filter root' dirs rest := by
  induction hwalked with
  | file hfile => exact .file (h.isFile hfile)
  | enter hskips hreturns _ ih => exact .enter hskips (fun hback => hreturns (h.symm.returns hback)) ih

theorem exists_resolve (h : SameProject d root d' root') :
    ∃ names, d.resolve root = .ok names ∧ d.IsDirectory names := by
  obtain ⟨entries, hentries⟩ := h.directory
  obtain ⟨names, hnames, hat⟩ := Disk.find?_eq_some_iff.mp hentries
  exact ⟨names, hnames, entries, hat⟩

end SameProject

/-! ## 2. Moving a directory -/

/-- Some steps up, and then down through names. -/
def upThenDown (ups : Nat) (names : List String) : List Step :=
  List.replicate ups .up ++ names.map .into

theorem upThenDown_append (ups : Nat) (xs ys : List String) :
    upThenDown ups xs ++ ys.map .into = upThenDown ups (xs ++ ys) := by
  simp [upThenDown]

theorem upThenDown_eq_up {ups : Nat} {names : List String} {rest : List Step}
    (h : upThenDown ups names = .up :: rest) : ∃ fewer, ups = fewer + 1 ∧ upThenDown fewer names = rest := by
  cases ups with
  | zero => cases names <;> cases h
  | succ fewer => exact ⟨fewer, rfl, (List.cons.inj h).2⟩

theorem upThenDown_eq_into {ups : Nat} {names : List String} {name : String} {rest : List Step}
    (h : upThenDown ups names = .into name :: rest) :
    ups = 0 ∧ ∃ more, names = name :: more ∧ rest = more.map .into := by
  cases ups with
  | succ ups => cases h
  | zero =>
    cases names with
    | nil => cases h
    | cons first more =>
      obtain ⟨hfirst, hrest⟩ := List.cons.inj h
      obtain rfl := Step.into.inj hfirst
      exact ⟨rfl, more, rfl, hrest.symm⟩

/-- Every link below a directory goes up no further than to it, and then down. -/
def FileTree.KeepsInside (t : FileTree) : Prop :=
  ∀ names target, t.at? names = some (.link target) →
    target.absolute = false ∧ ∃ ups inner, target.steps = upThenDown ups inner ∧ ups < names.length

namespace Disk

variable {d d' : Disk} {A B : List String} {t : FileTree}

theorem at?_below (hA : d.top.at? A = some t) (names : List String) :
    d.top.at? (A ++ names) = t.at? names := by
  rw [FileTree.at?_append, hA]
  rfl

theorem at?_moved (hA : d.top.at? A = some t) (hB : d'.top.at? B = some t) (names : List String) :
    d'.top.at? (B ++ names) = d.top.at? (A ++ names) := by
  rw [at?_below hA, at?_below hB]

/-- **A way below a directory stays below it, and is the same way where the directory is moved to.**
The invariant along the way: it goes up no further than it is deep, and then only down. -/
theorem Leads.moved (hA : d.top.at? A = some t) (hB : d'.top.at? B = some t) (hkeeps : t.KeepsInside)
    {n ups : Nat} {here inner found : List String}
    (h : d.Leads n (A ++ here) (upThenDown ups inner) found) (hups : ups ≤ here.length) :
    ∃ inside, found = A ++ inside ∧ d'.Leads n (B ++ here) (upThenDown ups inner) (B ++ inside) := by
  generalize hsteps : upThenDown ups inner = steps at h ⊢
  generalize hplace : A ++ here = place at h
  induction h generalizing here ups inner with
  | arrived =>
    subst hplace
    exact ⟨here, rfl, .arrived _⟩
  | up _ ih =>
    subst hplace
    obtain ⟨fewer, rfl, hrest⟩ := upThenDown_eq_up hsteps
    have hne : here ≠ [] := List.ne_nil_of_length_pos (by omega)
    have hdeep : fewer ≤ here.dropLast.length := by
      rw [List.length_dropLast]
      omega
    obtain ⟨inside, hfound, hleads⟩ := ih hdeep hrest (List.dropLast_append_of_ne_nil hne).symm
    refine ⟨inside, hfound, .up ?_⟩
    rwa [List.dropLast_append_of_ne_nil hne]
  | directory hdirectory _ ih =>
    subst hplace
    obtain ⟨rfl, more, rfl, rfl⟩ := upThenDown_eq_into hsteps
    rw [List.append_assoc] at hdirectory ih
    obtain ⟨inside, hfound, hleads⟩ := ih (Nat.zero_le _) rfl rfl
    rw [← List.append_assoc] at hleads
    refine ⟨inside, hfound, .directory ?_ hleads⟩
    rwa [IsDirectory, List.append_assoc, at?_moved hA hB]
  | file hfile =>
    subst hplace
    rw [List.append_assoc] at hfile ⊢
    refine ⟨_, rfl, ?_⟩
    rw [← List.append_assoc]
    refine .file ?_
    rwa [HoldsFile, List.append_assoc, at?_moved hA hB]
  | @link _ _ _ name _ target hat _ ih =>
    subst hplace
    obtain ⟨rfl, more, rfl, rfl⟩ := upThenDown_eq_into hsteps
    rw [List.append_assoc] at hat
    obtain ⟨hrelative, ups, inner, htarget, hdeep⟩ := hkeeps _ _ ((at?_below hA _).symm.trans hat)
    rw [hrelative, htarget, upThenDown_append] at ih
    have hless : ups ≤ here.length := by
      rw [List.length_append, List.length_singleton] at hdeep
      omega
    obtain ⟨inside, hfound, hleads⟩ := ih hless rfl rfl
    have hat' : d'.top.at? (B ++ here ++ [name]) = some (.link target) := by
      rw [List.append_assoc, at?_moved hA hB]
      exact hat
    refine ⟨inside, hfound, .link hat' ?_⟩
    rw [hrelative, htarget, upThenDown_append]
    exact hleads

theorem folder_ofNames_down (A names : List String) : ((Path.ofNames A).down names).folder = false := by
  cases names with
  | nil => rfl
  | cons name names => exact Path.folder_down _ _ (List.cons_ne_nil name names)

/-- Below a directory that is moved, the same paths lead to the same names. -/
theorem resolve_moved {entries : List (String × FileTree)} (hA : d.top.at? A = some (.directory entries))
    (hB : d'.top.at? B = some (.directory entries)) (hkeeps : (FileTree.directory entries).KeepsInside)
    {names found : List String} (h : d.resolve ((Path.ofNames A).down names) = .ok found) :
    ∃ inside, found = A ++ inside ∧ d'.resolve ((Path.ofNames B).down names) = .ok (B ++ inside) := by
  have hleadsA : d.Leads 0 [] (A.map .into) A := leads_names (.inl ⟨entries, hA⟩)
  have hleadsB : d'.Leads 0 [] (B.map .into) B := leads_names (.inl ⟨entries, hB⟩)
  obtain ⟨⟨m, hm, hleads⟩, -⟩ := resolve_eq_ok_iff.mp h
  rw [Path.steps_down, startOf, Path.absolute_down] at hleads
  obtain ⟨i, j, mid, rfl, hfirst, hlast, -⟩ := hleads.split
  have hi : i ≤ maxLinks := by omega
  have hj : j ≤ maxLinks := by omega
  obtain rfl : mid = A :=
    Except.ok.inj ((hfirst.followLinks hi).symm.trans (hleadsA.followLinks (Nat.zero_le _)))
  have hbelow : d.Leads j (mid ++ []) (upThenDown 0 names) found := by
    rw [List.append_nil]
    exact hlast
  obtain ⟨inside, rfl, hmoved⟩ := hbelow.moved hA hB hkeeps (Nat.zero_le _)
  rw [List.append_nil] at hmoved
  have hway := hleadsB.append hmoved (.inr (IsDirectory.not_holdsFile ⟨entries, hB⟩))
  rw [Nat.zero_add] at hway
  refine ⟨inside, rfl, resolve_eq_ok_iff.mpr ⟨⟨j, hj, ?_⟩, ?_⟩⟩
  · rw [Path.steps_down, startOf, Path.absolute_down]
    exact hway
  · rw [folder_ofNames_down]
    exact fun hfolder => absurd hfolder Bool.false_ne_true

section Moved

variable {entries : List (String × FileTree)} {names xs ys : List String}
  (hA : d.top.at? A = some (.directory entries)) (hB : d'.top.at? B = some (.directory entries))
  (hkeeps : (FileTree.directory entries).KeepsInside)

include hA hB hkeeps

theorem find?_moved {u : FileTree} (h : d.find? ((Path.ofNames A).down names) = some u) :
    d'.find? ((Path.ofNames B).down names) = some u := by
  obtain ⟨found, hfound, hat⟩ := find?_eq_some_iff.mp h
  obtain ⟨inside, rfl, hmoved⟩ := resolve_moved hA hB hkeeps hfound
  exact find?_eq_some_iff.mpr ⟨_, hmoved, (at?_moved hA hB inside).trans hat⟩

theorem meet_moved (h : d.Meet ((Path.ofNames A).down xs) ((Path.ofNames A).down ys)) :
    d'.Meet ((Path.ofNames B).down xs) ((Path.ofNames B).down ys) := by
  obtain ⟨found, hxs, hys⟩ := h
  obtain ⟨inside, rfl, hxs'⟩ := resolve_moved hA hB hkeeps hxs
  obtain ⟨inside', hinside, hys'⟩ := resolve_moved hA hB hkeeps hys
  obtain rfl := List.append_cancel_left hinside
  exact ⟨_, hxs', hys'⟩

end Moved

end Disk

/-- **A directory whose links keep inside of it is the same project wherever it stands.** -/
theorem sameProject_of_at? {d d' : Disk} {A B : List String} {entries : List (String × FileTree)}
    (hA : d.top.at? A = some (.directory entries)) (hB : d'.top.at? B = some (.directory entries))
    (hkeeps : (FileTree.directory entries).KeepsInside) :
    SameProject d (.ofNames A) d' (.ofNames B) := by
  refine ⟨⟨entries, ?_⟩, fun names => Option.ext fun u => ?_, fun xs ys => ?_⟩
  · exact Disk.find?_eq_some_iff.mpr ⟨A, Disk.resolve_ofNames (.inl ⟨entries, hA⟩), hA⟩
  · exact ⟨Disk.find?_moved hA hB hkeeps, Disk.find?_moved hB hA hkeeps⟩
  · exact ⟨Disk.meet_moved hA hB hkeeps, Disk.meet_moved hB hA hkeeps⟩

/-! ## 3. What is searched -/

/-- Two lists hold the same things, each seen from its own place. -/
def SameBelow {α β : Type} (place place' : β → α) (xs ys : List α) : Prop :=
  ∃ S : β → Prop, (∀ x, x ∈ xs ↔ ∃ b, x = place b ∧ S b) ∧ ∀ y, y ∈ ys ↔ ∃ b, y = place' b ∧ S b

/-- **Where a gate is closed there is nothing**, so two lists are the same behind gates that are alike,
and else only if both are empty. -/
theorem sameBelow_iff_of_gated {α β : Type} {place place' : β → α} {xs ys : List α} {S : β → Prop}
    {closed closed' : Bool} (hxs : ∀ x, x ∈ xs ↔ closed = false ∧ ∃ b, x = place b ∧ S b)
    (hys : ∀ y, y ∈ ys ↔ closed' = false ∧ ∃ b, y = place' b ∧ S b) :
    SameBelow place place' xs ys ↔ closed = closed' ∨ xs = [] ∧ ys = [] := by
  constructor
  · rintro ⟨T, hxs', hys'⟩
    by_cases halike : closed = closed'
    · exact .inl halike
    · -- behind the closed gate there is nothing, so there is nothing at all
      have hnone (b : β) : ¬ T b := by
        intro hb
        have hx := ((hxs _).mp ((hxs' _).mpr ⟨b, rfl, hb⟩)).1
        have hy := ((hys _).mp ((hys' _).mpr ⟨b, rfl, hb⟩)).1
        exact halike (hx.trans hy.symm)
      refine .inr ⟨List.eq_nil_iff_forall_not_mem.mpr ?_, List.eq_nil_iff_forall_not_mem.mpr ?_⟩
      · intro x hx
        obtain ⟨b, -, hb⟩ := (hxs' x).mp hx
        exact hnone b hb
      · intro y hy
        obtain ⟨b, -, hb⟩ := (hys' y).mp hy
        exact hnone b hb
  · rintro (rfl | ⟨rfl, rfl⟩)
    · refine ⟨fun b => closed = false ∧ S b, fun x => ?_, fun y => ?_⟩
      · simp only [hxs, ← exists_and_left, and_left_comm]
      · simp only [hys, ← exists_and_left, and_left_comm]
    · exact ⟨fun _ => False, by simp, by simp⟩

/-- A hit in a file below a root. -/
def Hit.below (root : Path) (b : List String × Nat × String) : Hit := ⟨root.down b.1, b.2.1, b.2.2⟩

/-- A search of a project: how its root is spelled, which cache is asked, and when. -/
structure ProjectSearch (d : Disk) (filter : PathFilter) (root : Path) (q : Query) where
  spelled : Path
  cache : SearchCache
  now : Instant
  canonical : d.canonical spelled = root
  faithful : cache.Faithful d filter spelled [q]
  fits : SearchCache.Fits cache.ttlSecs now

/-- The answer of a search, without the hits in a file. -/
def ProjectSearch.answer {d : Disk} {filter : PathFilter} {root : Path} {q : Query}
    (a : ProjectSearch d filter root q) (skip : Option Path) : Except SearchError (List Hit) :=
  (a.cache.search d filter a.spelled q skip a.now).1

namespace SameProject

variable {d d' : Disk} {root root' : Path} {filter : PathFilter} {rest : List String} {q : Query}
  {line : Nat} {text : String}

/-- What is searched below the root. -/
def Searched (d : Disk) (filter : PathFilter) (root : Path) (rest : List String) : Prop :=
  Walked d filter root [] rest ∧ isSearched filter root (root.down rest) = true

theorem searched (h : SameProject d root d' root') (hsearched : Searched d filter root rest) :
    Searched d' filter root' rest := by
  obtain ⟨hwalked, hsearched⟩ := hsearched
  rw [isSearched_down hwalked.ne_nil] at hsearched
  refine ⟨h.walked hwalked, ?_⟩
  rwa [isSearched_down hwalked.ne_nil]

theorem searched_iff (h : SameProject d root d' root') :
    Searched d filter root rest ↔ Searched d' filter root' rest :=
  ⟨h.searched, h.symm.searched⟩

/-- A hit that counts: in a searched file, and not in the one that is left out. -/
def Counts (d : Disk) (filter : PathFilter) (root : Path) (q : Query) (skip : Option (List String))
    (b : List String × Nat × String) : Prop :=
  Searched d filter root b.1 ∧ Hit.below root b ∈ hitsIn d q (root.down b.1) ∧
    ∀ names, skip = some names → ¬ d.Meet (root.down b.1) (root.down names)

theorem counts {skip : Option (List String)} {b : List String × Nat × String}
    (h : SameProject d root d' root') (hcounts : Counts d filter root q skip b) :
    Counts d' filter root' q skip b := by
  obtain ⟨hsearched, hhit, hother⟩ := hcounts
  refine ⟨h.searched hsearched, ?_, fun names hnames hmeet => hother names hnames ((h.meets _ _).mpr hmeet)⟩
  obtain ⟨-, text, htext, hline⟩ := mem_hitsIn.mp hhit
  have hread := Disk.readText_eq_of_find? hsearched.1.isFile (h.found b.1)
  exact mem_hitsIn.mpr ⟨rfl, text, hread ▸ htext, hline⟩

theorem counts_iff {skip : Option (List String)} {b : List String × Nat × String}
    (h : SameProject d root d' root') :
    Counts d filter root q skip b ↔ Counts d' filter root' q skip b :=
  ⟨h.counts, h.symm.counts⟩

/-- The files of a project, if its root is not skipped. -/
theorem exists_files (h : SameProject d root d' root') (hd : d.IsUnambiguous) (filter : PathFilter) :
    ∃ files, sourceFiles d filter root = .ok files ∧
      ∀ p, p ∈ files ↔ filter.skipsDirectory root.ownName = false ∧
        ∃ rest, p = root.down rest ∧ Searched d filter root rest := by
  obtain ⟨names, hnames, hdirectory⟩ := h.exists_resolve
  obtain ⟨files, hfiles⟩ := @exists_sourceFiles d filter root names hnames
  refine ⟨files, hfiles, fun p => ?_⟩
  rw [mem_sourceFiles hd hnames hdirectory hfiles]
  constructor
  · rintro ⟨hskips, rest, rfl, hwalked, hsearched⟩
    exact ⟨hskips, rest, rfl, hwalked, hsearched⟩
  · rintro ⟨hskips, rest, rfl, hwalked, hsearched⟩
    exact ⟨hskips, rest, rfl, hwalked, hsearched⟩

/-- Leaving out a file below the root is leaving out what leads to the same place. -/
theorem same_canonical_down_iff (h : SameProject d root d' root') {names : List String}
    (hfile : d.isFile (root.down rest) = true) :
    (d.canonical (root.down rest)).same (d.canonical (root.down names)) = false ↔
      ¬ d.Meet (root.down rest) (root.down names) := by
  obtain ⟨found, hfound, hholds⟩ := Disk.isFile_iff.mp hfile
  have hskip : (root.down names).folder = false ∨ ∃ others, d.resolve (root.down names) = .ok others := by
    cases names with
    | nil =>
      obtain ⟨others, hothers, -⟩ := h.exists_resolve
      exact .inr ⟨others, hothers⟩
    | cons name names => exact .inl (Path.folder_down _ _ (List.cons_ne_nil name names))
  rw [← Disk.same_canonical_iff hfound (.inr hholds) hskip, Bool.not_eq_true]

/-- The hits of a search are those that count, if the root is not skipped. -/
theorem exists_answer (h : SameProject d root d' root') (hd : d.IsUnambiguous)
    (a : ProjectSearch d filter root q) (skip : Option (List String)) :
    ∃ hits, a.answer (skip.map root.down) = .ok hits ∧
      ∀ x, x ∈ hits ↔ filter.skipsDirectory root.ownName = false ∧
        ∃ b, x = Hit.below root b ∧ Counts d filter root q skip b := by
  obtain ⟨files, hfiles, hmem⟩ := h.exists_files hd filter
  obtain ⟨found, hscan⟩ := exists_scan hfiles q
  have hanswer : a.answer (skip.map root.down) = .ok (without d (skip.map root.down) found) := by
    rw [ProjectSearch.answer, SearchCache.search_fst,
      a.faithful.scan (List.mem_singleton_self q) a.fits, a.canonical, hscan]
    rfl
  refine ⟨_, hanswer, fun x => ?_⟩
  rw [mem_without, mem_scan hfiles hscan, hmem]
  constructor
  · rintro ⟨⟨⟨hskips, rest, hpath, hsearched⟩, hhit⟩, hother⟩
    obtain ⟨path, line, text⟩ := x
    obtain rfl : path = root.down rest := hpath
    refine ⟨hskips, (rest, line, text), rfl, hsearched, hhit, fun names hnames => ?_⟩
    refine (h.same_canonical_down_iff hsearched.1.isFile).mp (hother _ ?_)
    rw [hnames]
    rfl
  · rintro ⟨hskips, b, rfl, hsearched, hhit, hother⟩
    refine ⟨⟨⟨hskips, b.1, rfl, hsearched⟩, hhit⟩, fun file hfile => ?_⟩
    obtain ⟨names, hnames, rfl⟩ := Option.map_eq_some_iff.mp hfile
    exact (h.same_canonical_down_iff hsearched.1.isFile).mpr (hother names hnames)

end SameProject

/-! ## 4. The name of the root -/

/-- **The search of a project depends on the name of its root only in that nothing is searched below a
root that is skipped by its name.**  Two disks hold the same project, as they do if a directory is
renamed whose links keep inside of it.  Then both list the same files, and both answer every query with
the same hits, exactly if both roots have names to be skipped or neither has, or there is nothing to be
listed or answered on either. -/
theorem search_same_iff_root_names_alike {d d' : Disk} (hd : d.IsUnambiguous) (hd' : d'.IsUnambiguous)
    (filter : PathFilter) :
    (∀ A B entries, d.top.at? A = some (.directory entries) → d'.top.at? B = some (.directory entries) →
      (FileTree.directory entries).KeepsInside → SameProject d (.ofNames A) d' (.ofNames B)) ∧
    ∀ root root', SameProject d root d' root' →
      (∃ files files', sourceFiles d filter root = .ok files ∧ sourceFiles d' filter root' = .ok files' ∧
        (SameBelow root.down root'.down files files' ↔
          filter.skipsDirectory root.ownName = filter.skipsDirectory root'.ownName ∨
            files = [] ∧ files' = [])) ∧
      ∀ (q : Query) (a : ProjectSearch d filter root q) (b : ProjectSearch d' filter root' q)
        (skip : Option (List String)), ∃ hits hits',
          a.answer (skip.map root.down) = .ok hits ∧ b.answer (skip.map root'.down) = .ok hits' ∧
          (SameBelow (Hit.below root) (Hit.below root') hits hits' ↔
            filter.skipsDirectory root.ownName = filter.skipsDirectory root'.ownName ∨
              hits = [] ∧ hits' = []) := by
  refine ⟨fun A B entries hA hB hkeeps => sameProject_of_at? hA hB hkeeps, ?_⟩
  intro root root' hsame
  constructor
  · obtain ⟨files, hfiles, hmem⟩ := hsame.exists_files hd filter
    obtain ⟨files', hfiles', hmem'⟩ := hsame.symm.exists_files hd' filter
    simp only [← hsame.searched_iff] at hmem'
    exact ⟨files, files', hfiles, hfiles', sameBelow_iff_of_gated hmem hmem'⟩
  · intro q a b skip
    obtain ⟨hits, hhits, hmem⟩ := hsame.exists_answer hd a skip
    obtain ⟨hits', hhits', hmem'⟩ := hsame.symm.exists_answer hd' b skip
    simp only [← hsame.counts_iff] at hmem'
    exact ⟨hits, hits', hhits, hhits', sameBelow_iff_of_gated hmem hmem'⟩

/-- A disk with one project of one file, under a name. -/
def projectNamed (name : String) : Disk where
  top := .directory [(name, .directory [("main.go", .file "package main\n".toUTF8)])]
  workingDirectory := []

/-- Under the name of a directory for built files the project has no files. -/
theorem project_named_build_has_no_files :
    (projectNamed "app").IsUnambiguous ∧ (projectNamed "build").IsUnambiguous ∧
    SameProject (projectNamed "app") (.ofNames ["app"]) (projectNamed "build") (.ofNames ["build"]) ∧
    ∃ files files',
      sourceFiles (projectNamed "app") ({} : ValidationSettings).pathFilter (.ofNames ["app"]) = .ok files ∧
      sourceFiles (projectNamed "build") ({} : ValidationSettings).pathFilter (.ofNames ["build"]) =
        .ok files' ∧
      ¬ SameBelow (Path.ofNames ["app"]).down (Path.ofNames ["build"]).down files files' := by
  have hd : (projectNamed "app").IsUnambiguous := Disk.isUnambiguous_of_hasUniqueNames (by decide)
  have hd' : (projectNamed "build").IsUnambiguous := Disk.isUnambiguous_of_hasUniqueNames (by decide)
  obtain ⟨hmoved, hsearch⟩ :=
    search_same_iff_root_names_alike hd hd' ({} : ValidationSettings).pathFilter
  have hkeeps : (FileTree.directory [("main.go", .file "package main\n".toUTF8)]).KeepsInside := by
    intro names target hat
    cases names with
    | nil => cases hat
    | cons name names =>
      obtain ⟨child, hchild, hat⟩ := FileTree.exists_entry_of_at? hat
      obtain ⟨-, rfl⟩ := Prod.mk.inj (List.mem_singleton.mp hchild)
      cases names <;> cases hat
  have hsame := hmoved ["app"] ["build"] _ rfl rfl hkeeps
  obtain ⟨⟨files, files', hfiles, hfiles', hiff⟩, -⟩ := hsearch _ _ hsame
  refine ⟨hd, hd', hsame, files, files', hfiles, hfiles', fun hbelow => ?_⟩
  have hone : sourceFiles (projectNamed "app") ({} : ValidationSettings).pathFilter (.ofNames ["app"]) =
      .ok [.ofNames ["app", "main.go"]] := by
    cbv
  obtain rfl := Except.ok.inj (hone.symm.trans hfiles)
  rcases hiff.mp hbelow with halike | ⟨hnone, -⟩
  · exact absurd halike (by decide +kernel)
  · cases hnone

end CodeAudit
