import CodeAudit.Proofs.Cache.Contents
import CodeAudit.Proofs.Search.Key
import CodeAudit.Validation.Check

/-!
# A check at work

A check searches for one name after the other, and each search goes through up to four phases: it
looks into the cache, removes an entry that it found expired, scans the disk, and stores the hits.
Other checks may use the cache between any two phases, and the clock may say anything at each.

What a check comes to without a cache is `Check.plain`.  Two things are kept by every phase:

* the cache is *sound* (`SearchCache.Sound`): each entry is what a scan for its own query and root
  would find, and **since the key tells searches apart, whoever finds it there may use it**
  (`scan_of_read`);
* the worker is *on course* (`Worker.OnCourse`): with the hits it has and the queries that are left
  it comes to `Check.plain`.

So `Worker.OnCourse.step` is all there is to say about the sharing of searches; that a check which
nobody comes between is `Check.run` is `Worker.exists_alone`.
-/

namespace CodeAudit

/-! ## 1. A check without a cache -/

/-- What the check of a job has to search for. -/
def Job.queries (job : Job) : List Query :=
  match job.kind with
  | .orphanedCode => [.call job.name, .word job.name]
  | .unusedVariable => [.word job.name]
  | _ => []

namespace Check

/-- What the check of a job makes of the hits of its searches. -/
def conclude (s : Scope) (job : Job) (hits : List Hit) : Except CheckError Evidence :=
  match job.kind with
  | .orphanedCode | .unusedVariable =>
    .ok { referencesIn hits with isExported := isExported s job.name }
  | .emptyCatch => intent s job.line
  | _ => .ok {}

/-- The hits of some queries outside the file itself, each found by a scan of its own. -/
def plainHits (s : Scope) : List Query → Except CheckError (List Hit)
  | [] => .ok []
  | q :: rest =>
    match scan s.disk s.filter (s.disk.canonical s.root) q with
    | .error cause => .error (.search cause)
    | .ok hits => (plainHits s rest).map (without s.disk (some s.file) hits ++ ·)

/-- What the check of a job comes to without a cache. -/
def plain (s : Scope) (job : Job) : Except CheckError Evidence :=
  (plainHits s job.queries).bind (conclude s job)

/-- A check searches first and concludes then. -/
theorem run_eq (s : Scope) (moment : Nat → Instant) (job : Job) (c : SearchCache) :
    run s moment job c =
      ((hitsOf s moment 0 job.queries c).1.bind (conclude s job),
        (hitsOf s moment 0 job.queries c).2) := by
  obtain ⟨index, kind, line, name⟩ := job
  cases kind with
  | orphanedCode =>
    simp only [run, references, Job.queries]
    cases (hitsOf s moment 0 [.call name, .word name] c).1 <;> rfl
  | unusedVariable =>
    simp only [run, references, Job.queries]
    cases (hitsOf s moment 0 [.word name] c).1 <;> rfl
  | _ => rfl

/-- A query whose scan has been made leaves the others. -/
theorem plainHits_cons {s : Scope} {q : Query} {hits : List Hit} (rest : List Query)
    (h : scan s.disk s.filter (s.disk.canonical s.root) q = .ok hits) :
    plainHits s (q :: rest) = (plainHits s rest).map (without s.disk (some s.file) hits ++ ·) := by
  simp only [plainHits, h]

end Check

/-! ## 2. What is kept of searches -/

namespace SearchCache

/-- Searches that are asked for: a query, and a root with all links followed. -/
abbrev Asked := List (Query × Path)

/-- The digest does not collide on the keys of the searches that are asked for. -/
def Separated (asked : Asked) : Prop :=
  ∀ a ∈ asked, ∀ b ∈ asked, key a.1 a.2 = key b.1 b.2 → keyBytes a.1 a.2 = keyBytes b.1 b.2

/-- Each entry is what a scan would find, for one of the searches that are asked for. -/
def Sound (d : Disk) (filter : PathFilter) (asked : Asked) (c : SearchCache) : Prop :=
  ∀ x ∈ c.store.entries, ∃ a ∈ asked,
    x.1 = key a.1 a.2 ∧ CodeAudit.scan d filter a.2 a.1 = .ok x.2.value

/-- The expiry of what is stored now lies in the range of the clock. -/
def Fits (ttlSecs : Nat) (now : Instant) : Prop :=
  ttlSecs = 0 ∨ (Instant.after? now ttlSecs).isSome = true

variable {d : Disk} {filter : PathFilter} {asked : Asked} {c : SearchCache} {q : Query} {root : Path}
  {now : Instant} {hits : List Hit}

theorem sound_new (d : Disk) (filter : PathFilter) (asked : Asked) (ttlSecs : Nat) :
    (new ttlSecs).Sound d filter asked := by
  intro x hx
  cases hx

/-- **Whoever finds hits under a key may use them.** -/
theorem Sound.scan_of_read (h : c.Sound d filter asked) (hseparated : Separated asked)
    (hproper : ∀ a ∈ asked, a.2.IsProper) (hasked : (q, root) ∈ asked)
    (hread : c.read (key q root) now = .live hits) : CodeAudit.scan d filter root q = .ok hits := by
  unfold read at hread
  split at hread
  · cases hread
  · split at hread
    · cases hread
    · next e hget =>
      split at hread
      · obtain rfl := Lookup.live.inj hread
        obtain ⟨a, ha, hkey, hscan⟩ := h _ (Store.mem_of_get? hget)
        have hbytes := hseparated (q, root) hasked a ha hkey
        obtain ⟨hq, hroot⟩ : q = a.1 ∧ root = a.2 :=
          keyBytes_inj (hproper _ hasked) (hproper a ha) hbytes
        rw [hq, hroot]
        exact hscan
      · cases hread

theorem Sound.of_subset {c' : SearchCache} (h : c.Sound d filter asked)
    (hsub : c'.store.entries ⊆ c.store.entries) : c'.Sound d filter asked :=
  fun x hx => h x (hsub hx)

theorem Sound.discard (h : c.Sound d filter asked) (key : String) (now : Instant) :
    (c.discard key now).Sound d filter asked := by
  unfold SearchCache.discard
  split
  · exact h
  · split
    · exact h
    · split
      · exact h
      · exact h.of_subset List.filter_sublist.subset

theorem Sound.insert (h : c.Sound d filter asked) (hasked : (q, root) ∈ asked)
    (hscan : CodeAudit.scan d filter root q = .ok hits) (expiresAt now : Instant) (sweeps : Bool) :
    ({ c with store :=
      if sweeps then (c.store.insert (key q root) ⟨hits, expiresAt⟩).sweep now
      else c.store.insert (key q root) ⟨hits, expiresAt⟩ } : SearchCache).Sound d filter asked := by
  have hall : ∀ x ∈ (c.store.insert (key q root) ⟨hits, expiresAt⟩).entries, ∃ a ∈ asked,
      x.1 = key a.1 a.2 ∧ CodeAudit.scan d filter a.2 a.1 = .ok x.2.value := by
    intro x hx
    rcases List.mem_cons.mp hx with rfl | hx
    · exact ⟨(q, root), hasked, rfl, hscan⟩
    · exact h x (Store.mem_erase.mp hx).1
  intro x hx
  cases sweeps with
  | false => exact hall x hx
  | true => exact hall x (List.mem_filter.mp hx).1

/-- What a scan found may be stored. -/
theorem Sound.put (h : c.Sound d filter asked) (hasked : (q, root) ∈ asked)
    (hscan : CodeAudit.scan d filter root q = .ok hits) (now : Instant) :
    (c.put (key q root) hits now).2.Sound d filter asked := by
  unfold SearchCache.put
  split
  · exact h
  · split
    · exact h
    · next expiresAt _ =>
      have hinsert := h.insert hasked hscan expiresAt now
      dsimp only
      split
      · exact hinsert true
      · exact hinsert false

theorem put_fst_of_fits (h : Fits c.ttlSecs now) (key : String) (hits : List Hit) :
    (c.put key hits now).1 = true := by
  unfold put
  split
  · rfl
  · next hkeeps =>
    split
    · next hexpiry =>
      rcases h with hzero | hsome
      · exact absurd (.inl hzero) hkeeps
      · rw [hexpiry] at hsome
        cases hsome
    · rfl

theorem ttlSecs_put (c : SearchCache) (key : String) (hits : List Hit) (now : Instant) :
    (c.put key hits now).2.ttlSecs = c.ttlSecs := by
  unfold put
  split
  · rfl
  · split <;> rfl

theorem ttlSecs_discard (c : SearchCache) (key : String) (now : Instant) :
    (c.discard key now).ttlSecs = c.ttlSecs := by
  unfold discard
  split
  · rfl
  · split
    · rfl
    · split <;> rfl

end SearchCache

/-! ## 3. Workers -/

/-- How far a check has come: the hits so far, and the queries that are left. -/
inductive Worker.Stage where
  /-- It will look into the cache for the first query that is left; if none is left, it concludes. -/
  | looking (found : List Hit) (left : List Query)
  /-- It found an expired entry at an instant, and will remove it if it is still expired then. -/
  | purging (found : List Hit) (q : Query) (left : List Query) (now : Instant)
  | scanning (found : List Hit) (q : Query) (left : List Query)
  | storing (found : List Hit) (q : Query) (left : List Query) (hits : List Hit)
  | done (result : Except CheckError Evidence)

/-- A check at work. -/
structure Worker where
  scope : Scope
  job : Job
  stage : Worker.Stage

namespace Worker

open SearchCache

/-- A check before its first phase. -/
def start (s : Scope) (job : Job) : Worker := ⟨s, job, .looking [] job.queries⟩

/-- The root that is searched. -/
def root (w : Worker) : Path := w.scope.disk.canonical w.scope.root

/-- The hits that count, of those that a scan found. -/
def counted (w : Worker) (hits : List Hit) : List Hit :=
  without w.scope.disk (some w.scope.file) hits

/-- The next phase of a check, at an instant: how far it comes, and the cache afterwards. -/
def step (w : Worker) (now : Instant) (c : SearchCache) : Worker × SearchCache :=
  match w.stage with
  | .looking found [] => ({ w with stage := .done (Check.conclude w.scope w.job found) }, c)
  | .looking found (q :: left) =>
    match c.read (key q w.root) now with
    | .live hits => ({ w with stage := .looking (found ++ w.counted hits) left }, c)
    | .absent => ({ w with stage := .scanning found q left }, c)
    | .expired => ({ w with stage := .purging found q left now }, c)
  | .purging found q left seen =>
    ({ w with stage := .scanning found q left }, c.discard (key q w.root) seen)
  | .scanning found q left =>
    match scan w.scope.disk w.scope.filter w.root q with
    | .error cause => ({ w with stage := .done (.error (.search cause)) }, c)
    | .ok hits => ({ w with stage := .storing found q left hits }, c)
  | .storing found q left hits =>
    match c.put (key q w.root) hits now with
    | (true, c) => ({ w with stage := .looking (found ++ w.counted hits) left }, c)
    | (false, c) => ({ w with stage := .done (.error .aborted) }, c)
  | .done _ => (w, c)

/-- With the hits so far, the queries that are left lead to what the check comes to without a
cache. -/
structure Leads (s : Scope) (job : Job) (found : List Hit) (left : List Query) : Prop where
  subset : left ⊆ job.queries
  plain : (Check.plainHits s left).bind (fun more => Check.conclude s job (found ++ more)) =
    Check.plain s job

/-- A worker will come to what its check comes to without a cache, or has come to it. -/
def OnCourse (w : Worker) : Prop :=
  match w.stage with
  | .looking found left => Leads w.scope w.job found left
  | .purging found q left _ | .scanning found q left => Leads w.scope w.job found (q :: left)
  | .storing found q left hits =>
    Leads w.scope w.job found (q :: left) ∧ scan w.scope.disk w.scope.filter w.root q = .ok hits
  | .done result => result = Check.plain w.scope w.job

variable {w : Worker} {now : Instant} {c : SearchCache} {asked : Asked}

theorem onCourse_start (s : Scope) (job : Job) : (start s job).OnCourse :=
  ⟨List.Subset.refl _, rfl⟩

/-- The hits of the next query are counted, and the query is done with. -/
theorem Leads.advance {s : Scope} {job : Job} {found hits : List Hit} {q : Query}
    {left : List Query} (h : Leads s job found (q :: left))
    (hscan : scan s.disk s.filter (s.disk.canonical s.root) q = .ok hits) :
    Leads s job (found ++ without s.disk (some s.file) hits) left := by
  refine ⟨fun x hx => h.subset (List.mem_cons_of_mem q hx), ?_⟩
  rw [← h.plain, Check.plainHits_cons left hscan]
  cases Check.plainHits s left with
  | error cause => rfl
  | ok more => simp [Except.bind, Except.map]

theorem scope_step (w : Worker) (now : Instant) (c : SearchCache) :
    (w.step now c).1.scope = w.scope ∧ (w.step now c).1.job = w.job := by
  unfold step
  repeat' split
  all_goals exact ⟨rfl, rfl⟩

theorem ttlSecs_step (w : Worker) (now : Instant) (c : SearchCache) :
    (w.step now c).2.ttlSecs = c.ttlSecs := by
  unfold step
  split
  · rfl
  · split <;> rfl
  · exact ttlSecs_discard _ _ _
  · split <;> rfl
  · next q _ hits _ =>
    have hput := ttlSecs_put c (key q w.root) hits now
    split <;> next heq => rw [← hput, heq]
  · rfl

/-- **A phase keeps a worker on course and the cache sound**, whatever the other workers did since
the phase before. -/
theorem OnCourse.step (hw : w.OnCourse) (hc : c.Sound w.scope.disk w.scope.filter asked)
    (hasked : ∀ q ∈ w.job.queries, (q, w.root) ∈ asked) (hseparated : Separated asked)
    (hproper : ∀ a ∈ asked, a.2.IsProper) (hfits : Fits c.ttlSecs now) :
    (w.step now c).1.OnCourse ∧ (w.step now c).2.Sound w.scope.disk w.scope.filter asked := by
  obtain ⟨s, job, stage⟩ := w
  cases stage with
  | looking found left =>
    have hleads : Leads s job found left := hw
    cases left with
    | nil =>
      have hplain := hleads.plain
      simp only [Check.plainHits, Except.bind, List.append_nil] at hplain
      exact ⟨hplain, hc⟩
    | cons q left =>
      simp only [Worker.step]
      split
      · next hits hread =>
        have hq := hasked q (hleads.subset List.mem_cons_self)
        exact ⟨hleads.advance (hc.scan_of_read hseparated hproper hq hread), hc⟩
      · exact ⟨hw, hc⟩
      · exact ⟨hw, hc⟩
  | purging found q left seen => exact ⟨hw, hc.discard _ _⟩
  | scanning found q left =>
    have hleads : Leads s job found (q :: left) := hw
    simp only [Worker.step]
    split
    · next cause hscan =>
      have hplain := hleads.plain
      have hnone : Check.plainHits s (q :: left) = .error (.search cause) := by
        simp only [Check.plainHits]
        rw [show scan s.disk s.filter (s.disk.canonical s.root) q = .error cause from hscan]
      rw [hnone] at hplain
      exact ⟨hplain, hc⟩
    · next hits hscan => exact ⟨⟨hleads, hscan⟩, hc⟩
  | storing found q left hits =>
    obtain ⟨hleads, hscan⟩ : Leads s job found (q :: left) ∧
      scan s.disk s.filter (s.disk.canonical s.root) q = .ok hits := hw
    have hq := hasked q (hleads.subset List.mem_cons_self)
    have hsound : (c.put (key q (s.disk.canonical s.root)) hits now).2.Sound s.disk s.filter asked :=
      hc.put hq hscan now
    have hstored := put_fst_of_fits hfits (key q (s.disk.canonical s.root)) hits
    simp only [Worker.step, root]
    split
    · next c' hput =>
      rw [hput] at hsound
      exact ⟨hleads.advance hscan, hsound⟩
    · next c' hput =>
      -- the expiry fits, so what is stored is kept
      rw [hput] at hstored
      cases hstored
  | done result => exact ⟨hw, hc⟩

/-! ## 4. A worker by itself -/

/-- A worker that nobody comes between, after phases at some instants. -/
def alone (w : Worker) (c : SearchCache) : List Instant → Worker × SearchCache
  | [] => (w, c)
  | now :: rest => (w.step now c).1.alone (w.step now c).2 rest

theorem alone_append (w : Worker) (c : SearchCache) (xs ys : List Instant) :
    w.alone c (xs ++ ys) = (w.alone c xs).1.alone (w.alone c xs).2 ys := by
  induction xs generalizing w c with
  | nil => rfl
  | cons now xs ih => exact ih _ _

/-- **What a phase keeps, all phases keep.** -/
theorem OnCourse.alone (hw : w.OnCourse) (hc : c.Sound w.scope.disk w.scope.filter asked)
    (hasked : ∀ q ∈ w.job.queries, (q, w.root) ∈ asked) (hseparated : Separated asked)
    (hproper : ∀ a ∈ asked, a.2.IsProper) {nows : List Instant}
    (hfits : ∀ now ∈ nows, Fits c.ttlSecs now) :
    (w.alone c nows).1.OnCourse ∧ (w.alone c nows).2.Sound w.scope.disk w.scope.filter asked ∧
      (w.alone c nows).2.ttlSecs = c.ttlSecs := by
  induction nows generalizing w c with
  | nil => exact ⟨hw, hc, rfl⟩
  | cons now nows ih =>
    obtain ⟨hscope, hjob⟩ := scope_step w now c
    have httl := ttlSecs_step w now c
    obtain ⟨hw', hc'⟩ := hw.step hc hasked hseparated hproper (hfits now List.mem_cons_self)
    have hrest := ih hw' (by rwa [hscope]) (by rwa [hjob, root, hscope]) (fun later hlater => by
      rw [httl]
      exact hfits later (List.mem_cons_of_mem now hlater))
    rwa [hscope, httl] at hrest

section

variable (s : Scope) (job : Job)

/-- How a worker stands after a search. -/
def afterSearch (found : List Hit) (left : List Query) :
    Except SearchError (List Hit) × SearchCache → Worker × SearchCache
  | (.ok hits, c) => (⟨s, job, .looking (found ++ without s.disk (some s.file) hits) left⟩, c)
  | (.error (.root cause), c) => (⟨s, job, .done (.error (.search cause))⟩, c)
  | (.error .clockOverflow, c) => (⟨s, job, .done (.error .aborted)⟩, c)

/-- A search is what a worker does with one query. -/
theorem exists_alone_scan (found : List Hit) (q : Query) (left : List Query) (now : Instant)
    (c : SearchCache) :
    ∃ n, Worker.alone ⟨s, job, .looking found (q :: left)⟩ c (List.replicate n now) =
      afterSearch s job found left (c.scan s.disk s.filter s.root q now) := by
  have hscanning : ∀ c : SearchCache, ∃ n,
      Worker.alone ⟨s, job, .scanning found q left⟩ c (List.replicate n now) =
        afterSearch s job found left
          (match CodeAudit.scan s.disk s.filter (s.disk.canonical s.root) q with
          | .error cause => (.error (.root cause), c)
          | .ok hits =>
            match c.put (key q (s.disk.canonical s.root)) hits now with
            | (true, c) => (.ok hits, c)
            | (false, c) => (.error .clockOverflow, c)) := by
    intro c
    cases hscan : CodeAudit.scan s.disk s.filter (s.disk.canonical s.root) q with
    | error cause =>
      refine ⟨1, ?_⟩
      simp only [List.replicate, alone, step, root, hscan, afterSearch]
    | ok hits =>
      refine ⟨2, ?_⟩
      simp only [List.replicate, alone, step, root, hscan]
      rcases hput : c.put (key q (s.disk.canonical s.root)) hits now with ⟨stored, c'⟩
      cases stored <;> simp only [afterSearch, counted]
  -- an expired entry costs one phase more than none, and then both scan
  unfold SearchCache.scan SearchCache.get
  cases hread : c.read (key q (s.disk.canonical s.root)) now with
  | live hits =>
    refine ⟨1, ?_⟩
    simp only [List.replicate, alone, step, root, hread, afterSearch, counted]
  | absent =>
    obtain ⟨n, hn⟩ := hscanning c
    refine ⟨n + 1, ?_⟩
    simp only [List.replicate_succ, alone, step, root, hread]
    exact hn
  | expired =>
    obtain ⟨n, hn⟩ := hscanning (c.discard (key q (s.disk.canonical s.root)) now)
    refine ⟨n + 2, ?_⟩
    simp only [List.replicate_succ, alone, step, root, hread]
    exact hn

/-- How a worker stands after all its searches, or the first that failed. -/
def afterSearches (found : List Hit) :
    Except CheckError (List Hit) × SearchCache → Worker × SearchCache
  | (.ok hits, c) => (⟨s, job, .looking (found ++ hits) []⟩, c)
  | (.error e, c) => (⟨s, job, .done (.error e)⟩, c)

variable (moment : Nat → Instant)

/-- The searches of a check are what a worker does with its queries. -/
theorem exists_alone_hitsOf (left : List Query) (i : Nat) (found : List Hit) (c : SearchCache) :
    ∃ nows : List Instant, (∀ now ∈ nows, ∃ k, now = moment k) ∧
      Worker.alone ⟨s, job, .looking found left⟩ c nows =
        afterSearches s job found (Check.hitsOf s moment i left c) := by
  induction left generalizing i found c with
  | nil =>
    refine ⟨[], by simp, ?_⟩
    simp only [alone, Check.hitsOf, afterSearches, List.append_nil]
  | cons q left ih =>
    obtain ⟨n, hn⟩ := exists_alone_scan s job found q left (moment i) c
    have hmoment : ∀ now ∈ List.replicate n (moment i), ∃ k, now = moment k :=
      fun now hnow => ⟨i, List.eq_of_mem_replicate hnow⟩
    simp only [Check.hitsOf, SearchCache.search]
    rcases hscan : c.scan s.disk s.filter s.root q (moment i) with ⟨(_ | cause) | hits, c'⟩
    · exact ⟨_, hmoment, by rw [hn, hscan]; rfl⟩
    · exact ⟨_, hmoment, by rw [hn, hscan]; rfl⟩
    · obtain ⟨nows, hnows, hrest⟩ := ih (i + 1) (found ++ without s.disk (some s.file) hits) c'
      refine ⟨List.replicate n (moment i) ++ nows, ?_, ?_⟩
      · intro now hnow
        rcases List.mem_append.mp hnow with h | h
        · exact hmoment now h
        · exact hnows now h
      · rw [alone_append, hn, hscan]
        refine hrest.trans ?_
        rcases hmore : Check.hitsOf s moment (i + 1) left c' with ⟨_ | more, c''⟩ <;>
          simp only [afterSearches, Except.map, hmore, List.append_assoc]

/-- **A check that nobody comes between is a worker by itself.** -/
theorem exists_alone (c : SearchCache) :
    ∃ nows : List Instant, (∀ now ∈ nows, ∃ k, now = moment k) ∧
      (start s job).alone c nows =
        (⟨s, job, .done (Check.run s moment job c).1⟩, (Check.run s moment job c).2) := by
  obtain ⟨nows, hnows, halone⟩ := exists_alone_hitsOf s job moment job.queries 0 [] c
  rw [Check.run_eq]
  rcases hhits : Check.hitsOf s moment 0 job.queries c with ⟨e | hits, c'⟩
  · exact ⟨nows, hnows, by rw [start, halone, hhits]; rfl⟩
  · -- the last phase is that which concludes
    refine ⟨nows ++ [moment 0], ?_, ?_⟩
    · intro now hnow
      rcases List.mem_append.mp hnow with h | h
      · exact hnows now h
      · exact ⟨0, List.mem_singleton.mp h⟩
    · rw [alone_append, start, halone, hhits]
      rfl

end

end Worker

namespace Check

open SearchCache

/-- **A check that shares its searches comes to what it comes to without a cache**, and leaves what
it found to the others. -/
theorem run_of_sound {s : Scope} {moment : Nat → Instant} {job : Job} {c : SearchCache}
    {asked : Asked} (hc : c.Sound s.disk s.filter asked)
    (hasked : ∀ q ∈ job.queries, (q, s.disk.canonical s.root) ∈ asked)
    (hseparated : Separated asked) (hproper : ∀ a ∈ asked, a.2.IsProper)
    (hfits : ∀ k, Fits c.ttlSecs (moment k)) :
    (run s moment job c).1 = plain s job ∧
      (run s moment job c).2.Sound s.disk s.filter asked ∧
        (run s moment job c).2.ttlSecs = c.ttlSecs := by
  obtain ⟨nows, hnows, halone⟩ := Worker.exists_alone s job moment c
  have hfit : ∀ now ∈ nows, Fits c.ttlSecs now := by
    intro now hnow
    obtain ⟨k, rfl⟩ := hnows now hnow
    exact hfits k
  have hkept := (Worker.onCourse_start s job).alone hc hasked hseparated hproper hfit
  rwa [halone] at hkept

end Check

end CodeAudit
