import CodeAudit.Proofs.Search.Walk
import CodeAudit.Proofs.Validation.Searches

/-!
# What searches answer

A cache may be asked instead of the disk.  It is *faithful* to a disk (`SearchCache.Faithful`) if it
keeps nothing, or only what was found on that disk, under keys that the digest tells apart; then
**its answers are those of the disk** (`Faithful.scan`, `Faithful.run`).

With `mem_scan` a check that looks for a name is a statement about lines: it finds the name if one of
its queries occurs on a line of a searched file that is not the one it is from
(`Check.exists_found_iff`).  No proof after this module needs to know how hits are collected.
-/

namespace CodeAudit

open SearchCache

/-! ## 1. Faithful caches -/

/-- A cache that can be asked for some queries under a root instead of the disk. -/
inductive SearchCache.Faithful (d : Disk) (filter : PathFilter) (root : Path) (queries : List Query) :
    SearchCache → Prop
  /-- Nothing is kept. -/
  | empty : Faithful d filter root queries (.new 0)
  /-- What is kept was found on this disk. -/
  | shared {c : SearchCache} {asked : Asked} : c.Sound d filter asked →
    (∀ q ∈ queries, (q, d.canonical root) ∈ asked) → Separated asked →
    (∀ a ∈ asked, a.2.IsProper) → Faithful d filter root queries c

theorem SearchCache.ttlSecs_get (c : SearchCache) (key : String) (now : Instant) :
    (c.get key now).2.ttlSecs = c.ttlSecs := by
  unfold get
  split
  · rfl
  · rfl
  · exact ttlSecs_discard c key now

theorem SearchCache.read_of_get {c c' : SearchCache} {key : String} {now : Instant} {hits : List Hit}
    (h : c.get key now = (some hits, c')) : c.read key now = .live hits := by
  unfold get at h
  split at h
  · cases h
  · next hread =>
    cases h
    exact hread
  · cases h

namespace SearchCache.Faithful

variable {d : Disk} {filter : PathFilter} {root : Path} {queries : List Query} {c : SearchCache}

/-- **A search through a faithful cache answers what a scan of the disk finds.** -/
theorem scan (h : c.Faithful d filter root queries) {q : Query} (hq : q ∈ queries) {now : Instant}
    (hfits : Fits c.ttlSecs now) : (c.scan d filter root q now).1 =
      (CodeAudit.scan d filter (d.canonical root) q).mapError SearchError.root := by
  cases h with
  | empty => rw [scan_uncached]
  | shared hsound hasked hseparated hproper =>
    have httl := ttlSecs_get c (key q (d.canonical root)) now
    unfold SearchCache.scan
    dsimp only
    rcases hget : c.get (key q (d.canonical root)) now with ⟨_ | hits, c'⟩
    · rw [hget] at httl
      cases CodeAudit.scan d filter (d.canonical root) q with
      | error cause => rfl
      | ok hits =>
        have hput := put_fst_of_fits (httl ▸ hfits) (key q (d.canonical root)) hits
        dsimp only
        split
        · rfl
        · next hfailed =>
          -- the expiry fits, so what is stored is kept
          rw [hfailed] at hput
          cases hput
    · rw [hsound.scan_of_read hseparated hproper (hasked q hq) (read_of_get hget)]
      rfl

/-- **A check through a faithful cache comes to what it comes to without one.** -/
theorem run {s : Scope} {job : Job} (h : c.Faithful s.disk s.filter s.root job.queries)
    {moment : Nat → Instant} (hfits : ∀ k, Fits c.ttlSecs (moment k)) :
    (Check.run s moment job c).1 = Check.plain s job := by
  cases h with
  | empty => rw [Check.run_uncached]
  | shared hsound hasked hseparated hproper =>
    exact (Check.run_of_sound hsound hasked hseparated hproper hfits).1

end SearchCache.Faithful

theorem SearchCache.search_fst (c : SearchCache) (d : Disk) (filter : PathFilter) (root : Path)
    (q : Query) (skip : Option Path) (now : Instant) :
    (c.search d filter root q skip now).1 = (c.scan d filter root q now).1.map (without d skip) := rfl

theorem mem_without {d : Disk} {skip : Option Path} {hits : List Hit} {h : Hit} :
    h ∈ without d skip hits ↔
      h ∈ hits ∧ ∀ file, skip = some file → (d.canonical h.path).same (d.canonical file) = false := by
  cases skip <;> simp [without]

/-! ## 2. What a check finds -/

theorem Text.mem_lines_iff {line s : List Char} : line ∈ lines s ↔ ∃ n, (n, line) ∈ numberedLines s := by
  simp only [numberedLines, List.mem_map, Prod.exists, Prod.mk.injEq]
  constructor
  · intro h
    obtain ⟨i, hi⟩ := List.mem_iff_getElem?.mp h
    exact ⟨i + 1, line, i, List.mk_mem_zipIdx_iff_getElem?.mpr hi, rfl, rfl⟩
  · rintro ⟨n, line', i, hmem, -, rfl⟩
    exact List.fst_mem_of_mem_zipIdx hmem

/-- Some searched file, other than the one that the findings are from, has a line of a kind. -/
def Scope.HasLine (s : Scope) (P : List Char → Prop) : Prop :=
  ∃ files, sourceFiles s.disk s.filter (s.disk.canonical s.root) = .ok files ∧
    ∃ file ∈ files, (s.disk.canonical file).same (s.disk.canonical s.file) = false ∧
      ∃ text, s.disk.readText file = .ok text ∧ ∃ line ∈ Text.lines text.toList, P line

theorem Scope.HasLine.imp {s : Scope} {P Q : List Char → Prop} (h : s.HasLine P)
    (hPQ : ∀ line, P line → Q line) : s.HasLine Q := by
  obtain ⟨files, hfiles, file, hfile, hother, text, htext, line, hline, hP⟩ := h
  exact ⟨files, hfiles, file, hfile, hother, text, htext, line, hline, hPQ line hP⟩

namespace Check

variable {s : Scope} {job : Job}

theorem placesOf_ne_nil {hits : List Hit} : placesOf hits ≠ [] ↔ hits ≠ [] := by
  cases hits with
  | nil => simp [placesOf]
  | cons h rest =>
    simp only [placesOf, ne_eq, reduceCtorEq, not_false_eq_true, iff_true]
    split
    · next hmem =>
      intro hnil
      simp [hnil] at hmem
    · exact List.cons_ne_nil _ _

/-- If the files of the project can be listed, its searches have answers. -/
theorem exists_plainHits {files : List Path}
    (hfiles : sourceFiles s.disk s.filter (s.disk.canonical s.root) = .ok files)
    (queries : List Query) : ∃ hits, plainHits s queries = .ok hits := by
  induction queries with
  | nil => exact ⟨[], rfl⟩
  | cons q queries ih =>
    obtain ⟨more, hmore⟩ := ih
    obtain ⟨found, hscan⟩ := exists_scan hfiles q
    rw [plainHits_cons queries hscan, hmore]
    exact ⟨_, rfl⟩

/-- **A check finds a name if one of its queries occurs on a line of another file.** -/
theorem exists_found_iff (hneeds : Job.needsName job.kind = true) :
    (∃ e, plain s job = .ok e ∧ e.foundInCodebase = true) ↔
      s.HasLine fun line => ∃ q ∈ job.queries, q.pattern.occursIn line = true := by
  constructor
  · rintro ⟨e, hplain, hfound⟩
    obtain ⟨hits, hhits, rfl⟩ := exists_hits_of_plain hneeds hplain
    have hne : hits ≠ [] := placesOf_ne_nil.mp (by simpa [referencesIn] using hfound)
    obtain ⟨x, hx⟩ := List.exists_mem_of_ne_nil hits hne
    obtain ⟨hother, q, hq, found, hscan, hmem⟩ := (mem_plainHits hhits x).mp hx
    cases hfiles : sourceFiles s.disk s.filter (s.disk.canonical s.root) with
    | error cause =>
      rw [scan, hfiles] at hscan
      cases hscan
    | ok files =>
      obtain ⟨hfile, hhit⟩ := (mem_scan hfiles hscan).mp hmem
      obtain ⟨-, text, htext, line, hline, -, hoccurs⟩ := mem_hitsIn.mp hhit
      exact ⟨files, hfiles, x.path, hfile, hother, text, htext, line,
        Text.mem_lines_iff.mpr ⟨_, hline⟩, q, hq, hoccurs⟩
  · rintro ⟨files, hfiles, file, hfile, hother, text, htext, line, hline, q, hq, hoccurs⟩
    obtain ⟨hits, hhits⟩ := exists_plainHits hfiles job.queries
    obtain ⟨n, hline⟩ := Text.mem_lines_iff.mp hline
    obtain ⟨found, hscan⟩ := exists_scan hfiles q
    have hhit : (⟨file, n, String.ofList line⟩ : Hit) ∈ hits := by
      refine (mem_plainHits hhits _).mpr ⟨hother, q, hq, found, hscan, (mem_scan hfiles hscan).mpr ?_⟩
      exact ⟨hfile, mem_hitsIn.mpr ⟨rfl, text, htext, line, hline, rfl, hoccurs⟩⟩
    have hfound : (referencesIn hits).foundInCodebase = true := by
      have hne := placesOf_ne_nil.mpr (List.ne_nil_of_mem hhit)
      simpa [referencesIn] using hne
    refine ⟨{ referencesIn hits with isExported := isExported s job.name }, ?_, hfound⟩
    rw [plain, hhits]
    obtain ⟨index, kind, line, name⟩ := job
    cases kind with
    | orphanedCode => rfl
    | unusedVariable => rfl
    | _ => cases hneeds

end Check

end CodeAudit
