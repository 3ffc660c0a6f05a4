import CodeAudit.Proofs.Search.Worker
import CodeAudit.Validation.Batch
import Mathlib

/-!
# Shared searches change no result

A validator keeps its searches from one batch to the next, and all checks of a batch use them at the
same time.  A search is kept under its query and its root, with the hits in all files; each check
leaves out the file that it is from.  So a check may get hits that were found for another file, in
another batch, long ago.  **It comes to the same result as without a cache**, which is said twice:
of checks that run side by side, a few phases of one and then of another, and of a validator that is
asked for one batch after another.
-/

namespace CodeAudit

open SearchCache

/-! ## 1. What a check counts -/

/-- A cache that keeps nothing answers with what it finds. -/
theorem SearchCache.scan_uncached (d : Disk) (filter : PathFilter) (root : Path) (q : Query)
    (now : Instant) : (new 0).scan d filter root q now =
      ((CodeAudit.scan d filter (d.canonical root) q).mapError SearchError.root, new 0) := by
  have hget (key : String) : (new 0).get key now = (none, new 0) := rfl
  have hput (key : String) (hits : List Hit) : (new 0).put key hits now = (true, new 0) := rfl
  simp only [SearchCache.scan, hget, hput]
  cases CodeAudit.scan d filter (d.canonical root) q <;> rfl

namespace Check

/-- Hits of several queries are those of the first and those of the others. -/
theorem plainHits_cons_eq_ok {s : Scope} {q : Query} {queries : List Query} {hits : List Hit}
    (h : plainHits s (q :: queries) = .ok hits) :
    ∃ found more, scan s.disk s.filter (s.disk.canonical s.root) q = .ok found ∧
      plainHits s queries = .ok more ∧ hits = without s.disk (some s.file) found ++ more := by
  cases hscan : scan s.disk s.filter (s.disk.canonical s.root) q with
  | error cause => simp only [plainHits, hscan, reduceCtorEq] at h
  | ok found =>
    rw [plainHits_cons queries hscan] at h
    cases hmore : plainHits s queries with
    | error cause =>
      rw [hmore] at h
      cases h
    | ok more =>
      rw [hmore] at h
      exact ⟨found, more, rfl, rfl, (Except.ok.inj h).symm⟩

/-- **A hit counts if one of the searches finds it in another file**, and no other does. -/
theorem mem_plainHits {s : Scope} {queries : List Query} {hits : List Hit}
    (h : plainHits s queries = .ok hits) (x : Hit) :
    x ∈ hits ↔ (s.disk.canonical x.path).same (s.disk.canonical s.file) = false ∧
      ∃ q ∈ queries, ∃ found,
        scan s.disk s.filter (s.disk.canonical s.root) q = .ok found ∧ x ∈ found := by
  induction queries generalizing hits with
  | nil =>
    obtain rfl := Except.ok.inj h
    simp
  | cons q queries ih =>
    obtain ⟨found, more, hscan, hmore, rfl⟩ := plainHits_cons_eq_ok h
    simp only [List.mem_append, ih hmore, without, List.mem_filter, Bool.not_eq_true']
    constructor
    · rintro (⟨hx, hother⟩ | ⟨hother, q', hq', hfound⟩)
      · exact ⟨hother, q, List.mem_cons_self, found, hscan, hx⟩
      · exact ⟨hother, q', List.mem_cons_of_mem q hq', hfound⟩
    · rintro ⟨hother, q', hq', found', hscan', hx⟩
      rcases List.mem_cons.mp hq' with rfl | hq'
      · obtain rfl := Except.ok.inj (hscan.symm.trans hscan')
        exact .inl ⟨hx, hother⟩
      · exact .inr ⟨hother, q', hq', found', hscan', hx⟩

/-- The result of a check that looks for a name. -/
theorem exists_hits_of_plain {s : Scope} {job : Job} {e : Evidence}
    (hneeds : Job.needsName job.kind = true) (h : plain s job = .ok e) :
    ∃ hits, plainHits s job.queries = .ok hits ∧
      e = { referencesIn hits with isExported := isExported s job.name } := by
  unfold plain at h
  cases hhits : plainHits s job.queries with
  | error cause =>
    rw [hhits] at h
    cases h
  | ok hits =>
    rw [hhits] at h
    refine ⟨hits, rfl, ?_⟩
    obtain ⟨index, kind, line, name⟩ := job
    cases kind with
    | orphanedCode => exact (Except.ok.inj h).symm
    | unusedVariable => exact (Except.ok.inj h).symm
    | _ => cases hneeds

/-- Without a cache each search is a scan. -/
theorem hitsOf_uncached (s : Scope) (moment : Nat → Instant) (i : Nat) (queries : List Query) :
    hitsOf s moment i queries (.new 0) = (plainHits s queries, .new 0) := by
  induction queries generalizing i with
  | nil => rfl
  | cons q queries ih =>
    simp only [hitsOf, plainHits, SearchCache.search, scan_uncached]
    cases scan s.disk s.filter (s.disk.canonical s.root) q with
    | error cause => rfl
    | ok hits =>
      simp only [Except.map, Except.mapError, ih]
      cases plainHits s queries <;> rfl

theorem run_uncached (s : Scope) (moment : Nat → Instant) (job : Job) :
    run s moment job (.new 0) = (plain s job, .new 0) := by
  rw [run_eq, hitsOf_uncached]
  rfl

end Check

/-! ## 2. What is asked for -/

/-- Findings of a file that are to be checked against a project. -/
structure Submission where
  findings : List Finding
  file : Path
  root : String
  language : String

namespace Submission

variable {d : Disk} {submissions : List Submission} {a : Submission} {v : Validator}

def jobs (a : Submission) : List Job := Job.ofFindings a.findings

/-- What the checks of a submission share. -/
def scope (a : Submission) (v : Validator) (d : Disk) : Scope :=
  v.scope d a.file (.ofString a.root) a.language

/-- The searches that the checks of a submission make. -/
def searches (a : Submission) (d : Disk) : Asked :=
  a.jobs.flatMap fun job => job.queries.map fun q => (q, d.canonical (.ofString a.root))

/-- The searches that the checks of some submissions make. -/
def asked (submissions : List Submission) (d : Disk) : Asked := submissions.flatMap (·.searches d)

theorem mem_asked (ha : a ∈ submissions) {job : Job} (hjob : job ∈ a.jobs) (v : Validator) :
    ∀ q ∈ job.queries, (q, (a.scope v d).disk.canonical (a.scope v d).root) ∈ asked submissions d := by
  intro q hq
  refine List.mem_flatMap.mpr ⟨a, ha, List.mem_flatMap.mpr ⟨job, hjob, ?_⟩⟩
  exact List.mem_map.mpr ⟨q, hq, rfl⟩

theorem isProper_of_mem_asked (hd : d.IsProper) : ∀ x ∈ asked submissions d, x.2.IsProper := by
  intro x hx
  obtain ⟨a, -, hx⟩ := List.mem_flatMap.mp hx
  obtain ⟨job, -, hx⟩ := List.mem_flatMap.mp hx
  obtain ⟨q, -, rfl⟩ := List.mem_map.mp hx
  exact Disk.isProper_canonical hd (Path.isProper_ofString a.root)

end Submission

/-- A cache of the searches of some submissions, with the lifetime that the settings give. -/
structure SearchCache.Serves (c : SearchCache) (v : ValidationSettings) (d : Disk)
    (submissions : List Submission) : Prop where
  ttlSecs : c.ttlSecs = v.searchCacheTtlSecs
  sound : c.Sound d v.pathFilter (Submission.asked submissions d)

theorem SearchCache.serves_new (v : ValidationSettings) (d : Disk) (submissions : List Submission) :
    (new v.searchCacheTtlSecs).Serves v d submissions :=
  ⟨rfl, sound_new _ _ _ _⟩

/-! ## 3. Checks side by side -/

/-- Checks at work, and the cache that they share. -/
structure Crew where
  cache : SearchCache
  workers : List Worker := []

/-- What can happen: a check is started, or one of those started goes through its next phase. -/
inductive Crew.Move where
  | start (a : Submission) (job : Job)
  | step (i : Nat) (now : Instant)

namespace Crew

/-- The crew after a move; a phase of nobody changes nothing. -/
def move (v : Validator) (d : Disk) (crew : Crew) : Move → Crew
  | .start a job => { crew with workers := crew.workers ++ [.start (a.scope v d) job] }
  | .step i now =>
    match crew.workers[i]? with
    | none => crew
    | some w => ⟨(w.step now crew.cache).2, crew.workers.set i (w.step now crew.cache).1⟩

/-- The crew of a validator after some moves. -/
def run (v : Validator) (d : Disk) (moves : List Move) : Crew :=
  moves.foldl (move v d) { cache := v.searches }

/-- Only checks of some submissions are started, and what is stored expires in the range of the
clock. -/
def Move.Admissible (submissions : List Submission) (ttlSecs : Nat) : Move → Prop
  | .start a job => a ∈ submissions ∧ job ∈ a.jobs
  | .step _ now => Fits ttlSecs now

/-- The checks are on course, and each is one of a submission. -/
structure OnCourse (v : Validator) (d : Disk) (submissions : List Submission) (crew : Crew) : Prop where
  cache : crew.cache.Serves v.settings d submissions
  workers : ∀ w ∈ crew.workers,
    w.OnCourse ∧ ∃ a ∈ submissions, w.scope = a.scope v d ∧ w.job ∈ a.jobs

variable {v : Validator} {d : Disk} {submissions : List Submission} {crew : Crew}

/-- **A move keeps all checks on course**, also those that it does not concern. -/
theorem OnCourse.move (h : crew.OnCourse v d submissions) (hd : d.IsProper)
    (hseparated : Separated (Submission.asked submissions d)) {m : Move}
    (hm : m.Admissible submissions v.settings.searchCacheTtlSecs) :
    (crew.move v d m).OnCourse v d submissions := by
  cases m with
  | start a job =>
    refine ⟨h.cache, ?_⟩
    intro w hw
    rcases List.mem_append.mp hw with hw | hw
    · exact h.workers w hw
    · obtain rfl := List.mem_singleton.mp hw
      exact ⟨Worker.onCourse_start _ _, a, hm.1, rfl, hm.2⟩
  | step i now =>
    cases hworker : crew.workers[i]? with
    | none => simpa only [Crew.move, hworker] using h
    | some w =>
      obtain ⟨hcourse, a, ha, hscope, hjob⟩ := h.workers w (List.mem_of_getElem? hworker)
      obtain ⟨hscope', hjob'⟩ := Worker.scope_step w now crew.cache
      have hsound : crew.cache.Sound w.scope.disk w.scope.filter (Submission.asked submissions d) := by
        rw [hscope]
        exact h.cache.sound
      have hasked : ∀ q ∈ w.job.queries, (q, w.root) ∈ Submission.asked submissions d := by
        rw [Worker.root, hscope]
        exact Submission.mem_asked ha hjob v
      have hfits : Fits crew.cache.ttlSecs now := by
        rw [h.cache.ttlSecs]
        exact hm
      obtain ⟨hcourse', hsound'⟩ := hcourse.step hsound hasked hseparated
        (Submission.isProper_of_mem_asked hd) hfits
      rw [hscope] at hsound'
      simp only [Crew.move, hworker]
      refine ⟨⟨(Worker.ttlSecs_step w now crew.cache).trans h.cache.ttlSecs, hsound'⟩, ?_⟩
      intro w' hw'
      -- the others are as they were, and being on course says nothing of the cache
      rcases List.mem_or_eq_of_mem_set hw' with hw' | rfl
      · exact h.workers w' hw'
      · exact ⟨hcourse', a, ha, hscope'.trans hscope, hjob' ▸ hjob⟩

/-- What a move keeps, all moves keep. -/
theorem onCourse_run (hv : v.searches.Serves v.settings d submissions) (hd : d.IsProper)
    (hseparated : Separated (Submission.asked submissions d)) {moves : List Move}
    (hmoves : ∀ m ∈ moves, m.Admissible submissions v.settings.searchCacheTtlSecs) :
    (run v d moves).OnCourse v d submissions := by
  have hkept : ∀ crew : Crew, crew.OnCourse v d submissions →
      (moves.foldl (Crew.move v d) crew).OnCourse v d submissions := by
    induction moves with
    | nil => exact fun crew h => h
    | cons m moves ih =>
      intro crew h
      have hm := hmoves m List.mem_cons_self
      exact ih (fun m' hm' => hmoves m' (List.mem_cons_of_mem m hm')) _ (h.move hd hseparated hm)
  refine hkept _ ⟨hv, ?_⟩
  intro w hw
  cases hw

end Crew

/-! ## 4. One submission after another -/

/-- The outcomes of jobs that run one after another without a cache. -/
theorem Validation.runJobs_uncached (s : Scope) (moment : Nat → Nat → Instant) (jobs : List Job) :
    runJobs s moment jobs (.new 0) =
      (jobs.map fun job => (job.index, Check.plain s job), .new 0) := by
  induction jobs with
  | nil => rfl
  | cons job jobs ih => simp only [runJobs, Check.run_uncached, ih, List.map_cons]

/-- **Jobs that share their searches have the outcomes they have without a cache.** -/
theorem Validation.runJobs_of_sound {s : Scope} {moment : Nat → Nat → Instant} {jobs : List Job}
    {c : SearchCache} {asked : Asked} (hc : c.Sound s.disk s.filter asked)
    (hasked : ∀ job ∈ jobs, ∀ q ∈ job.queries, (q, s.disk.canonical s.root) ∈ asked)
    (hseparated : Separated asked) (hproper : ∀ a ∈ asked, a.2.IsProper)
    (hfits : ∀ i k, Fits c.ttlSecs (moment i k)) :
    (runJobs s moment jobs c).1 = (jobs.map fun job => (job.index, Check.plain s job)) ∧
      (runJobs s moment jobs c).2.Sound s.disk s.filter asked ∧
        (runJobs s moment jobs c).2.ttlSecs = c.ttlSecs := by
  induction jobs generalizing c with
  | nil => exact ⟨rfl, hc, rfl⟩
  | cons job jobs ih =>
    obtain ⟨hresult, hsound, httl⟩ := Check.run_of_sound hc (hasked job List.mem_cons_self)
      hseparated hproper (hfits job.index)
    obtain ⟨hrest, hsound', httl'⟩ := ih hsound
      (fun job' hjob' => hasked job' (List.mem_cons_of_mem job hjob')) (by rwa [httl])
    simp only [runJobs, List.map_cons]
    exact ⟨by rw [hresult, hrest], hsound', httl'.trans httl⟩

namespace Validator

/-- Validates a submission; `moment i k` is when the k-th search of job i runs. -/
def accept (v : Validator) (d : Disk) (a : Submission) (moment : Nat → Nat → Instant) :
    (List Finding × ValidationSummary) × Validator :=
  v.validate d a.findings a.file (.ofString a.root) a.language moment

/-- The validator after some submissions. -/
def after (v : Validator) (d : Disk) (visits : List (Submission × (Nat → Nat → Instant))) : Validator :=
  visits.foldl (fun v visit => (v.accept d visit.1 visit.2).2) v

variable {v : Validator} {d : Disk} {submissions : List Submission} {a : Submission}
  {moment : Nat → Nat → Instant}

/-- A submission changes nothing of a validator but its cache. -/
theorem accept_snd (v : Validator) (d : Disk) (a : Submission) (moment : Nat → Nat → Instant) :
    (v.accept d a moment).2 = v ∨ (v.accept d a moment).2 =
      { v with searches := (Validation.runJobs (a.scope v d) moment a.jobs v.searches).2 } := by
  simp only [accept, validate]
  split
  · exact .inl rfl
  · exact .inr rfl

/-- A validator that was made with some settings, and has a cache of the searches of some
submissions. -/
structure Serves (v : Validator) (settings : ValidationSettings) (confidences : Confidences)
    (d : Disk) (submissions : List Submission) : Prop where
  searches : v.searches.Serves settings d submissions
  settings : v.settings = settings
  confidences : v.confidences = confidences

variable {settings : ValidationSettings} {confidences : Confidences}

/-- The outcomes of a submission are those without a cache, and its searches may be kept. -/
theorem Serves.runJobs (h : v.Serves settings confidences d submissions) (hd : d.IsProper)
    (hseparated : Separated (Submission.asked submissions d)) (ha : a ∈ submissions)
    (hfits : ∀ i k, Fits settings.searchCacheTtlSecs (moment i k)) :
    (Validation.runJobs (a.scope v d) moment a.jobs v.searches).1 =
        (a.jobs.map fun job => (job.index, Check.plain (a.scope v d) job)) ∧
      (Validation.runJobs (a.scope v d) moment a.jobs v.searches).2.Serves settings d submissions := by
  obtain rfl := h.settings
  have hfits' : ∀ i k, Fits v.searches.ttlSecs (moment i k) := by
    rwa [h.searches.ttlSecs]
  have hasked : ∀ job ∈ a.jobs, ∀ q ∈ job.queries,
      (q, (a.scope v d).disk.canonical (a.scope v d).root) ∈ Submission.asked submissions d :=
    fun job hjob => Submission.mem_asked ha hjob v
  obtain ⟨houtcomes, hsound, httl⟩ := Validation.runJobs_of_sound (s := a.scope v d)
    h.searches.sound hasked hseparated (Submission.isProper_of_mem_asked hd) hfits'
  exact ⟨houtcomes, httl.trans h.searches.ttlSecs, hsound⟩

/-- **A submission leaves a validator that serves the next one.** -/
theorem Serves.accept (h : v.Serves settings confidences d submissions) (hd : d.IsProper)
    (hseparated : Separated (Submission.asked submissions d)) (ha : a ∈ submissions)
    (hfits : ∀ i k, Fits settings.searchCacheTtlSecs (moment i k)) :
    (v.accept d a moment).2.Serves settings confidences d submissions := by
  rcases accept_snd v d a moment with heq | heq <;> rw [heq]
  · exact h
  · exact ⟨(h.runJobs hd hseparated ha hfits).2, h.settings, h.confidences⟩

/-- What a submission keeps, all submissions keep. -/
theorem Serves.after (h : v.Serves settings confidences d submissions) (hd : d.IsProper)
    (hseparated : Separated (Submission.asked submissions d))
    {visits : List (Submission × (Nat → Nat → Instant))}
    (hvisits : ∀ x ∈ visits,
      x.1 ∈ submissions ∧ ∀ i k, Fits settings.searchCacheTtlSecs (x.2 i k)) :
    (v.after d visits).Serves settings confidences d submissions := by
  induction visits generalizing v with
  | nil => exact h
  | cons x visits ih =>
    obtain ⟨hx, hfits⟩ := hvisits x List.mem_cons_self
    exact ih (h.accept hd hseparated hx hfits) (fun y hy => hvisits y (List.mem_cons_of_mem x hy))

/-- The findings of a submission come out as its outcomes say. -/
theorem accept_fst_of_runJobs_eq {u : Validator} (hconfidences : v.confidences = u.confidences)
    (htimeout : v.settings.timeoutMs = u.settings.timeoutMs)
    (houtcomes : (Validation.runJobs (a.scope v d) moment a.jobs v.searches).1 =
      (Validation.runJobs (a.scope u d) moment a.jobs u.searches).1) :
    (v.accept d a moment).1 = (u.accept d a moment).1 := by
  unfold Submission.scope Submission.jobs at houtcomes
  simp only [Validator.accept, validate, htimeout, hconfidences]
  split
  · rfl
  · simp only [houtcomes]

end Validator

/-! ## 5. Sharing changes nothing -/

/-- **A check that shares its searches comes to the result that it comes to without a cache.**  So
does each check of those that run side by side, whatever phases of the others fall between its own
and whatever has expired by then, and what a check for a name counts are the hits of its searches
outside its own file; and so does a validator, whatever it was asked for before.  The digest is not to
collide on the keys, and what is stored is to expire in the range of the clock. -/
theorem shared_searches_transparent (settings : ValidationSettings) (confidences : Confidences)
    (d : Disk) (hd : d.IsProper) (submissions : List Submission)
    (hseparated : Separated (Submission.asked submissions d)) :
    let v := Validator.new settings confidences
    let uncached := Validator.new { settings with searchCacheTtlSecs := 0 } confidences
    (∀ moves : List Crew.Move,
      (∀ m ∈ moves, m.Admissible submissions settings.searchCacheTtlSecs) →
      ∀ w ∈ (Crew.run v d moves).workers, ∀ result, w.stage = .done result →
        (∀ moment, result = (Check.run w.scope moment w.job uncached.searches).1) ∧
        (∀ e, result = .ok e → Job.needsName w.job.kind = true →
          ∃ hits : List Hit,
            (∀ x, x ∈ hits ↔ (d.canonical x.path).same (d.canonical w.scope.file) = false ∧
              ∃ q ∈ w.job.queries, ∃ found,
                scan d settings.pathFilter (d.canonical w.scope.root) q = .ok found ∧ x ∈ found) ∧
            e = { Check.referencesIn hits with isExported := Check.isExported w.scope w.job.name })) ∧
    (∀ visits : List (Submission × (Nat → Nat → Instant)),
      (∀ x ∈ visits, x.1 ∈ submissions ∧ ∀ i k, Fits settings.searchCacheTtlSecs (x.2 i k)) →
      ∀ a ∈ submissions, ∀ moment : Nat → Nat → Instant,
        (∀ i k, Fits settings.searchCacheTtlSecs (moment i k)) →
        (Validation.runJobs (a.scope (v.after d visits) d) moment a.jobs
            (v.after d visits).searches).1 =
          (Validation.runJobs (a.scope uncached d) moment a.jobs uncached.searches).1 ∧
        ((v.after d visits).accept d a moment).1 = (uncached.accept d a moment).1) := by
  intro v uncached
  have hv : v.Serves settings confidences d submissions := ⟨serves_new settings d submissions, rfl, rfl⟩
  refine ⟨?_, ?_⟩
  · intro moves hmoves w hw result hdone
    have hcrew : (Crew.run v d moves).OnCourse v d submissions :=
      Crew.onCourse_run hv.searches hd hseparated hmoves
    obtain ⟨hcourse, a, -, hscope, -⟩ := hcrew.workers w hw
    have hplain : result = Check.plain w.scope w.job := by
      simpa only [Worker.OnCourse, hdone] using hcourse
    refine ⟨?_, ?_⟩
    · intro moment
      exact hplain.trans (congrArg Prod.fst (Check.run_uncached w.scope moment w.job)).symm
    · rintro e rfl hneeds
      obtain ⟨hits, hhits, he⟩ := Check.exists_hits_of_plain hneeds hplain.symm
      have hmem := Check.mem_plainHits hhits
      rw [hscope] at hmem ⊢
      exact ⟨hits, hmem, hscope ▸ he⟩
  · intro visits hvisits a ha moment hfits
    have hafter := hv.after hd hseparated hvisits
    have hscope : a.scope (v.after d visits) d = a.scope uncached d := by
      simp only [Submission.scope, Validator.scope, hafter.settings]
      rfl
    have houtcomes : (Validation.runJobs (a.scope (v.after d visits) d) moment a.jobs
          (v.after d visits).searches).1 =
        (Validation.runJobs (a.scope uncached d) moment a.jobs uncached.searches).1 := by
      rw [(hafter.runJobs hd hseparated ha hfits).1, hscope]
      exact (congrArg Prod.fst (Validation.runJobs_uncached _ moment a.jobs)).symm
    refine ⟨houtcomes, Validator.accept_fst_of_runJobs_eq hafter.confidences ?_ houtcomes⟩
    rw [hafter.settings]
    rfl

/-- A project of two files with a variable of one name in both. -/
def twoFiles : Disk where
  top := .directory [("p", .directory
    [("a.py", .file "n = 1\n".toUTF8), ("b.py", .file "n = 2\n".toUTF8)])]
  workingDirectory := []

theorem FileTree.exists_entry_of_at? {entries : List (String × FileTree)} {name : String}
    {rest : List String} {t : FileTree} (h : (directory entries).at? (name :: rest) = some t) :
    ∃ child, (name, child) ∈ entries ∧ child.at? rest = some t := by
  obtain ⟨child, hlookup, hat⟩ := Option.bind_eq_some_iff.mp h
  exact ⟨child, mem_of_lookup? hlookup, hat⟩

theorem isProper_twoFiles : twoFiles.IsProper := by
  have hnames : ∀ name ∈ ["p", "a.py", "b.py"], IsName name := by
    intro name hname
    simp only [List.mem_cons, List.not_mem_nil, or_false] at hname
    rcases hname with rfl | rfl | rfl <;> constructor <;> decide +kernel
  refine ⟨?_, by simp [twoFiles]⟩
  intro names entries hat e he
  apply hnames
  -- the top, the one directory in it, and the files in that
  cases names with
  | nil =>
    obtain rfl := FileTree.directory.inj (Option.some.inj hat)
    obtain rfl := List.mem_singleton.mp he
    decide
  | cons name names =>
    obtain ⟨child, hchild, hat⟩ := FileTree.exists_entry_of_at? hat
    obtain ⟨-, rfl⟩ := Prod.mk.inj (List.mem_singleton.mp hchild)
    cases names with
    | nil =>
      obtain rfl := FileTree.directory.inj (Option.some.inj hat)
      simp only [List.mem_cons, List.not_mem_nil, or_false] at he
      rcases he with rfl | rfl <;> decide
    | cons name names =>
      obtain ⟨child, hchild, hat⟩ := FileTree.exists_entry_of_at? hat
      simp only [List.mem_cons, List.not_mem_nil, or_false, Prod.mk.injEq] at hchild
      rcases hchild with ⟨-, rfl⟩ | ⟨-, rfl⟩ <;> cases names <;> cases hat

/-- The variable is found unused in a file of the project. -/
def unusedIn (file : String) : Submission where
  findings := [.fresh .unusedVariable .medium default "unused variable 'n'" []]
  file := .ofString file
  root := "/p"
  language := "python"

def checkOfN : Job := ⟨0, .unusedVariable, 0, "n"⟩

/-- The check of the second file looks when that of the first has stored, and both conclude. -/
def lookAfterStore (a b : Submission) (job : Job) : List Crew.Move :=
  [.start a job, .start b job, .step 0 0, .step 0 0, .step 0 0, .step 1 1, .step 0 1, .step 1 1]

/-- The searches of both files are one. -/
theorem separated_unusedIn :
    Separated (Submission.asked [unusedIn "a.py", unusedIn "b.py"] twoFiles) := by
  have hone : ∀ x ∈ Submission.asked [unusedIn "a.py", unusedIn "b.py"] twoFiles,
      x = (.word "n", twoFiles.canonical (.ofString "/p")) := by
    decide +kernel
  intro a ha b hb _
  rw [hone a ha, hone b hb]

theorem scan_twoFiles : scan twoFiles ({} : ValidationSettings).pathFilter
    (twoFiles.canonical (.ofString "/p")) (.word "n") =
      .ok [⟨⟨true, [.into "p", .into "a.py"], false⟩, 1, "n = 1"⟩,
        ⟨⟨true, [.into "p", .into "b.py"], false⟩, 1, "n = 2"⟩] := by
  cbv

/-- The second check is through after two phases: it found the hits of the first in the cache. -/
theorem exists_done_lookAfterStore {v : Validator} {d : Disk} {a b : Submission} {job : Job}
    {q : Query} {hits : List Hit} (hv : v.searches = new 300) (hroot : b.root = a.root)
    (hqueries : job.queries = [q])
    (hscan : scan d v.settings.pathFilter (d.canonical (.ofString a.root)) q = .ok hits) :
    ∃ result, (Crew.run v d (lookAfterStore a b job)).workers[1]? =
      some ⟨b.scope v d, job, .done result⟩ := by
  have habsent (k : String) : (new 300).read k 0 = .absent := rfl
  have hput (k : String) :
      (new 300).put k hits 0 = (true, ⟨⟨[(k, ⟨hits, 300000000000⟩)]⟩, 300, false⟩) := rfl
  have hlive (k : String) :
      SearchCache.read ⟨⟨[(k, ⟨hits, 300000000000⟩)]⟩, 300, false⟩ k 1 = .live hits := by
    simp [SearchCache.read, Store.get?, Entry.isLive]
  simp only [Crew.run, lookAfterStore, List.foldl, Crew.move, List.nil_append, List.cons_append,
    List.getElem?_cons_zero, List.getElem?_cons_succ, List.set_cons_zero, List.set_cons_succ,
    Worker.start, Worker.step, Worker.root, Submission.scope, Validator.scope, hv, hroot, hqueries,
    habsent, hscan, hput, hlive]
  exact ⟨_, rfl⟩

/-- The check of the second file uses the hits that were found for the first, and counts the one
there. -/
theorem second_check_counts_first_file :
    twoFiles.IsProper ∧
    Separated (Submission.asked [unusedIn "a.py", unusedIn "b.py"] twoFiles) ∧
    (Crew.run (.new {} {}) twoFiles
        (lookAfterStore (unusedIn "a.py") (unusedIn "b.py") checkOfN)).workers[1]? =
      some ⟨(unusedIn "b.py").scope (.new {} {}) twoFiles, checkOfN,
        .done (.ok ⟨true, 1, false, true, "1 references in 1 files"⟩)⟩ := by
  refine ⟨isProper_twoFiles, separated_unusedIn, ?_⟩
  have hadmissible : ∀ m ∈ lookAfterStore (unusedIn "a.py") (unusedIn "b.py") checkOfN,
      m.Admissible [unusedIn "a.py", unusedIn "b.py"] ({} : ValidationSettings).searchCacheTtlSecs := by
    intro m hm
    simp only [lookAfterStore, List.mem_cons, List.not_mem_nil, or_false] at hm
    rcases hm with rfl | rfl | rfl | rfl | rfl | rfl | rfl | rfl
    · exact ⟨List.mem_cons_self, by decide +kernel⟩
    · exact ⟨List.mem_cons_of_mem _ List.mem_cons_self, by decide +kernel⟩
    all_goals exact .inr rfl
  have hscan : scan twoFiles (Validator.new {} {}).settings.pathFilter
      (twoFiles.canonical (.ofString (unusedIn "a.py").root)) (.word "n") = .ok _ := scan_twoFiles
  obtain ⟨result, hworker⟩ := exists_done_lookAfterStore (v := .new {} {}) (a := unusedIn "a.py")
    (b := unusedIn "b.py") rfl rfl (show checkOfN.queries = [.word "n"] from rfl) hscan
  have hmem := List.mem_of_getElem? hworker
  obtain ⟨hcrew, -⟩ := shared_searches_transparent {} {} twoFiles isProper_twoFiles
    [unusedIn "a.py", unusedIn "b.py"] separated_unusedIn
  obtain ⟨hsame, -⟩ := hcrew _ hadmissible _ hmem result rfl
  have hplain : Check.plain ((unusedIn "b.py").scope (.new {} {}) twoFiles) checkOfN =
      .ok ⟨true, 1, false, true, "1 references in 1 files"⟩ := by
    have hhits := Check.plainHits_cons (s := (unusedIn "b.py").scope (.new {} {}) twoFiles) []
      scan_twoFiles
    simp only [Check.plain, checkOfN, Job.queries]
    rw [hhits]
    decide +kernel
  rw [hworker, (hsame fun _ => 0).trans (congrArg Prod.fst (Check.run_uncached _ _ _)), hplain]

end CodeAudit
