import CodeAudit.Proofs.Engine.AutoFix
import CodeAudit.Proofs.Validation.Searches

/-!
# Expiry and the range of the clock

Both caches write down when an entry expires, and the clock ends at `Instant.lastSecond`.  Nothing
bounds a lifetime: `Settings.check` accepts any.  An expiry beyond the range stops the writer
halfway, which has two consequences.

* In the cache of results it is the request itself that is cut short: it ends without a report and
  without a refusal.  The cache is unusable from then on, so **this happens to one request at most**
  (`Session.countP_serveAll`); all later ones are carried out without it.
* In the cache of searches it is the check of a finding that fails; the request is answered.

**Neither happens to requests up to some instant exactly if the clock reaches from there to the end
of the lifetime** (`answered_iff_clock_reaches`), unless no check is ever made.
-/

namespace CodeAudit

/-! ## 1. Lifetimes and the clock -/

/-- Settings with other lifetimes of results and searches. -/
def Settings.lasting (s : Settings) (resultSecs searchSecs : Nat) : Settings :=
  { s with
    cache := { s.cache with ttlSecs := resultSecs }
    validation := { s.validation with searchCacheTtlSecs := searchSecs } }

/-- No lifetime is refused. -/
theorem Settings.check_lasting (s : Settings) (resultSecs searchSecs : Nat) :
    (s.lasting resultSecs searchSecs).check = s.check := rfl

namespace Instant

/-- The clock can count some seconds on from an instant. -/
def Reaches (now : Instant) (seconds : Nat) : Prop := now / nanosPerSecond + seconds ≤ lastSecond

instance (now : Instant) (seconds : Nat) : Decidable (Reaches now seconds) :=
  inferInstanceAs (Decidable (now / nanosPerSecond + seconds ≤ lastSecond))

theorem isSome_after?_iff {now : Instant} {seconds : Nat} :
    (after? now seconds).isSome = true ↔ Reaches now seconds := by
  have hsum : (now + seconds * nanosPerSecond) / nanosPerSecond = now / nanosPerSecond + seconds :=
    Nat.add_mul_div_right now seconds (by decide)
  simp only [after?, Duration.ofSeconds, hsum, Reaches]
  by_cases h : now / nanosPerSecond + seconds ≤ lastSecond
  · simp [h]
  · simp [h]

theorem Reaches.mono {now latest : Instant} {seconds : Nat} (h : Reaches latest seconds)
    (hle : now ≤ latest) : Reaches now seconds :=
  (Nat.add_le_add_right (Nat.div_le_div_right hle) seconds).trans h

end Instant

/-! ## 2. The cache of searches -/

namespace SearchCache

/-- A cache of searches that no writer has failed in, with a lifetime. -/
structure Usable (ttlSecs : Nat) (c : SearchCache) : Prop where
  broken : c.broken = false
  ttlSecs : c.ttlSecs = ttlSecs

variable {ttlSecs : Nat} {c : SearchCache} {now : Instant}

theorem usable_new (ttlSecs : Nat) : (new ttlSecs).Usable ttlSecs := ⟨rfl, rfl⟩

theorem fits_iff : Fits ttlSecs now ↔ ttlSecs = 0 ∨ Instant.Reaches now ttlSecs := by
  rw [Fits, Instant.isSome_after?_iff]

theorem Fits.mono {latest : Instant} (h : Fits ttlSecs latest) (hle : now ≤ latest) :
    Fits ttlSecs now := by
  rw [fits_iff] at h ⊢
  exact h.imp_right fun hreaches => hreaches.mono hle

theorem Usable.discard (h : c.Usable ttlSecs) (key : String) (now : Instant) :
    (c.discard key now).Usable ttlSecs := by
  unfold SearchCache.discard
  repeat' split
  all_goals exact ⟨h.broken, h.ttlSecs⟩

theorem Usable.put (h : c.Usable ttlSecs) (hfits : Fits ttlSecs now) (key : String)
    (hits : List Hit) : (c.put key hits now).2.Usable ttlSecs := by
  refine ⟨?_, (ttlSecs_put c key hits now).trans h.ttlSecs⟩
  have hstored := put_fst_of_fits (h.ttlSecs ▸ hfits) key hits
  unfold SearchCache.put at hstored ⊢
  split
  · exact h.broken
  · next hkeeps =>
    rw [if_neg hkeeps] at hstored
    cases hexpiry : Instant.after? now c.ttlSecs with
    | none =>
      rw [hexpiry] at hstored
      cases hstored
    | some expiresAt => exact h.broken

/-- What is stored beyond the range of the clock is the last thing stored. -/
theorem Usable.put_of_not_fits (h : c.Usable ttlSecs) (hfits : ¬ Fits ttlSecs now) (key : String)
    (hits : List Hit) : c.put key hits now = (false, { c with broken := true }) := by
  obtain ⟨hbroken, rfl⟩ := h
  obtain ⟨hlasts, hnone⟩ := not_or.mp hfits
  have hkeeps : ¬ (c.ttlSecs = 0 ∨ c.broken = true) := by
    rintro (hzero | htrue)
    · exact hlasts hzero
    · exact Bool.false_ne_true (hbroken.symm.trans htrue)
  rw [SearchCache.put, if_neg hkeeps]
  simp only [Option.not_isSome_iff_eq_none.mp hnone]

end SearchCache

open SearchCache

/-- A phase of a check leaves the cache usable. -/
theorem Worker.usable_step {w : Worker} {now : Instant} {c : SearchCache} {ttlSecs : Nat}
    (h : c.Usable ttlSecs) (hfits : Fits ttlSecs now) : (w.step now c).2.Usable ttlSecs := by
  unfold Worker.step
  split
  · exact h
  · split <;> exact h
  · exact h.discard _ _
  · split <;> exact h
  · next q _ hits _ =>
    have hput := h.put hfits (key q w.root) hits
    split <;> next heq => rwa [heq] at hput
  · exact h

/-- So do all phases, however the phases of other checks stand between them. -/
theorem Crew.usable_run {v : Validator} {d : Disk} {ttlSecs : Nat} (hv : v.searches.Usable ttlSecs)
    {moves : List Crew.Move} (hfits : ∀ i now, .step i now ∈ moves → Fits ttlSecs now) :
    (Crew.run v d moves).cache.Usable ttlSecs := by
  have hkept : ∀ crew : Crew, crew.cache.Usable ttlSecs →
      (moves.foldl (Crew.move v d) crew).cache.Usable ttlSecs := by
    induction moves with
    | nil => exact fun crew h => h
    | cons m moves ih =>
      intro crew h
      refine ih (fun i now hmem => hfits i now (List.mem_cons_of_mem m hmem)) _ ?_
      cases m with
      | start a job => exact h
      | step i now =>
        unfold Crew.move
        dsimp only
        split
        · exact h
        · exact Worker.usable_step h (hfits i now List.mem_cons_self)
  exact hkept _ hv

/-- A check that is the only one of a crew. -/
theorem Crew.foldl_move_single (v : Validator) (d : Disk) (w : Worker) (c : SearchCache)
    (nows : List Instant) : (nows.map (Crew.Move.step 0)).foldl (Crew.move v d) ⟨c, [w]⟩ =
      ⟨(w.alone c nows).2, [(w.alone c nows).1]⟩ := by
  induction nows generalizing w c with
  | nil => rfl
  | cons now nows ih => exact ih _ _

theorem Worker.usable_alone {w : Worker} {c : SearchCache} {ttlSecs : Nat} (h : c.Usable ttlSecs)
    {nows : List Instant} (hfits : ∀ now ∈ nows, Fits ttlSecs now) :
    (w.alone c nows).2.Usable ttlSecs := by
  induction nows generalizing w c with
  | nil => exact h
  | cons now nows ih =>
    exact ih (usable_step h (hfits now List.mem_cons_self))
      fun later hlater => hfits later (List.mem_cons_of_mem now hlater)

theorem Check.usable_run {s : Scope} {moment : Nat → Instant} {job : Job} {c : SearchCache}
    {ttlSecs : Nat} (h : c.Usable ttlSecs) (hfits : ∀ k, Fits ttlSecs (moment k)) :
    (run s moment job c).2.Usable ttlSecs := by
  obtain ⟨nows, hnows, halone⟩ := Worker.exists_alone s job moment c
  have hkept : ((Worker.start s job).alone c nows).2.Usable ttlSecs := by
    refine Worker.usable_alone h ?_
    intro now hnow
    obtain ⟨k, rfl⟩ := hnows now hnow
    exact hfits k
  rwa [halone] at hkept

/-- The first search of a check that cannot be stored breaks the cache. -/
theorem Check.broken_run_of_not_fits (scope : Scope) (moment : Nat → Instant) (job : Job)
    {q : Query} {rest : List Query} {ttlSecs : Nat} {hits : List Hit}
    (hqueries : job.queries = q :: rest)
    (hscan : scan scope.disk scope.filter (scope.disk.canonical scope.root) q = .ok hits)
    (hfits : ¬ Fits ttlSecs (moment 0)) :
    (run scope moment job (.new ttlSecs)).2.broken = true := by
  have hget (key : String) :
      (SearchCache.new ttlSecs).get key (moment 0) = (none, .new ttlSecs) := rfl
  rw [run_eq, hqueries]
  simp only [hitsOf, SearchCache.search, SearchCache.scan, hget, hscan,
    (usable_new ttlSecs).put_of_not_fits hfits, Except.map]

theorem Validation.runJobs_singleton (s : Scope) (moment : Nat → Nat → Instant) (job : Job)
    (c : SearchCache) :
    (runJobs s moment [job] c).2 = (Check.run s (moment job.index) job c).2 := rfl

theorem Validation.usable_runJobs {s : Scope} {moment : Nat → Nat → Instant} {jobs : List Job}
    {c : SearchCache} {ttlSecs : Nat} (h : c.Usable ttlSecs)
    (hfits : ∀ i k, Fits ttlSecs (moment i k)) : (runJobs s moment jobs c).2.Usable ttlSecs := by
  induction jobs generalizing c with
  | nil => exact h
  | cons job jobs ih => exact ih (Check.usable_run h (hfits job.index))

namespace Validator

variable {v : Validator} {d : Disk} {fs : List Finding} {file root : Path} {language : String}
  {moment : Nat → Nat → Instant}

theorem settings_validate :
    (v.validate d fs file root language moment).2.settings = v.settings := by
  simp only [validate]
  split <;> rfl

theorem searches_validate (htime : v.settings.timeoutMs ≠ 0) :
    (v.validate d fs file root language moment).2.searches =
      (Validation.runJobs (v.scope d file root language) moment (Job.ofFindings fs)
        v.searches).2 := by
  simp only [validate, if_neg htime]

/-- A batch of checks leaves the cache usable; with no time for any, whatever the lifetime. -/
theorem usable_validate {ttlSecs : Nat} (h : v.searches.Usable ttlSecs)
    (hfits : v.settings.timeoutMs = 0 ∨ ∀ i k, Fits ttlSecs (moment i k)) :
    (v.validate d fs file root language moment).2.searches.Usable ttlSecs := by
  by_cases htime : v.settings.timeoutMs = 0
  · simp only [validate, if_pos htime]
    exact h
  · rw [searches_validate htime]
    exact Validation.usable_runJobs h (hfits.resolve_left htime)

end Validator

namespace Engine

/-! ## 3. One request -/

/-- A request ended as it should: with a report, or refused for a cause. -/
def Returned (answer : Except Fault QualityReport) : Prop :=
  ∃ result : Except AnalysisError QualityReport, answer = result.mapError Fault.refused

/-- A request ended halfway. -/
def cutShort : Except Fault QualityReport → Bool
  | .error .clockOverflow => true
  | _ => false

theorem returned_iff {answer : Except Fault QualityReport} :
    Returned answer ↔ cutShort answer = false := by
  constructor
  · rintro ⟨result, rfl⟩
    cases result <;> rfl
  · intro h
    match answer, h with
    | .ok report, _ => exact ⟨.ok report, rfl⟩
    | .error (.refused cause), _ => exact ⟨.error cause, rfl⟩

variable {e : Engine} {parse : Parser} {r : QualityRequest} {now : Instant} {cache : ResultCache}

/-- **A request is cut short where it breaks the cache**, and only if the clock does not reach. -/
theorem analyze_cutShort_or :
    (cutShort (e.analyze parse r now cache).1 = true ∧ cache.broken = false ∧
        (e.analyze parse r now cache).2.broken = true ∧
        ¬ Instant.Reaches now e.settings.cache.ttlSecs) ∨
      (cutShort (e.analyze parse r now cache).1 = false ∧
        (e.analyze parse r now cache).2.broken = cache.broken) := by
  cases htask : r.task with
  | error cause =>
    rw [analyze_of_refused htask]
    exact .inr ⟨rfl, rfl⟩
  | ok t =>
    cases hget : cache.get t.key now with
    | mk found left =>
      have hleft : left.broken = cache.broken := by
        have hsnd := ResultCache.get_snd cache t.key now
        rw [hget] at hsnd
        exact (congrArg ResultCache.broken hsnd).trans ResultCache.broken_discard
      cases found with
      | some result =>
        rw [analyze_of_hit htask hget]
        exact .inr ⟨rfl, hleft⟩
      | none =>
        rw [analyze_of_miss htask hget]
        cases hbroken : left.broken with
        | true =>
          rw [ResultCache.put_of_broken hbroken]
          exact .inr ⟨rfl, hleft⟩
        | false =>
          cases hexpiry : Instant.after? now e.settings.cache.ttlSecs with
          | none =>
            rw [ResultCache.put_of_none hbroken hexpiry, ← Instant.isSome_after?_iff, hexpiry]
            exact .inl ⟨rfl, hleft.symm.trans hbroken, rfl, Bool.false_ne_true⟩
          | some expiresAt =>
            have hswept := (ResultCache.broken_sweepIfDue left now).trans hleft
            rw [ResultCache.put_of_some hbroken hexpiry]
            exact .inr ⟨rfl, (ResultCache.broken_insert_makeRoom _ t.key _ now).trans hswept⟩

/-- A broken cache stands in nobody's way. -/
theorem analyze_of_broken {t : QualityTask} (htask : r.task = .ok t) (h : cache.broken = true) :
    (e.analyze parse r now cache).1 = .ok (reportOfResult (t.result parse)) := by
  have hget : cache.get t.key now = (none, cache) := by
    simp only [ResultCache.get, ResultCache.read, h, if_true]
  rw [analyze_of_miss htask hget, ResultCache.put_of_broken h]
  rfl

/-! ## 4. Sessions -/

/-- A request at an instant; with a project its findings are validated. -/
structure Order where
  request : QualityRequest
  now : Instant
  project : Option (Disk × Path × Path)

/-- An engine, with the searches that it remembers, and its cache of results. -/
structure Session where
  engine : Engine
  cache : ResultCache

namespace Session

/-- A new engine with a new cache. -/
def new (s : Settings) (start : Instant) : Session := ⟨.new s, .new s.cache start⟩

/-- Serves one order. -/
def serve (parse : Parser) (o : Order) (k : Session) : Except Fault QualityReport × Session :=
  match o.project with
  | none =>
    let (answer, cache) := k.engine.analyze parse o.request o.now k.cache
    (answer, { k with cache })
  | some (disk, file, root) =>
    let (answer, engine, cache) :=
      k.engine.analyzeInProject parse disk file root o.request o.now k.cache
    (answer, ⟨engine, cache⟩)

/-- Serves orders one after another. -/
def serveAll (parse : Parser) : List Order → Session → List (Except Fault QualityReport) × Session
  | [], k => ([], k)
  | o :: rest, k =>
    let (answer, k) := k.serve parse o
    let (answers, k) := serveAll parse rest k
    (answer :: answers, k)

variable {parse : Parser} {o : Order} {k : Session} {orders : List Order}

theorem serve_of_none (h : o.project = none) :
    (k.serve parse o).1 = (k.engine.analyze parse o.request o.now k.cache).1 := by
  rw [serve, h]

/-- Validation cuts nothing short and leaves the results alone. -/
theorem serve_cache : cutShort (k.serve parse o).1 =
      cutShort (k.engine.analyze parse o.request o.now k.cache).1 ∧
    (k.serve parse o).2.cache = (k.engine.analyze parse o.request o.now k.cache).2 := by
  unfold serve
  cases o.project with
  | none => exact ⟨rfl, rfl⟩
  | some project =>
    unfold analyzeInProject
    cases k.engine.analyze parse o.request o.now k.cache with
    | mk answer left => cases answer <;> exact ⟨rfl, rfl⟩

/-- An order leaves the engine as it is, but for a batch of checks if it is answered. -/
theorem serve_engine : (k.serve parse o).2.engine = k.engine ∨
    cutShort (k.serve parse o).1 = false ∧
      ∃ d fs file root, (k.serve parse o).2.engine = { k.engine with
        validator := (k.engine.validator.validate d fs file root o.request.language
          fun _ _ => o.now).2 } := by
  unfold serve
  cases o.project with
  | none => exact .inl rfl
  | some project =>
    obtain ⟨disk, file, root⟩ := project
    unfold analyzeInProject
    cases k.engine.analyze parse o.request o.now k.cache with
    | mk answer left =>
      cases answer with
      | error fault => exact .inl rfl
      | ok report => exact .inr ⟨rfl, disk, report.findings, file, root, rfl⟩

/-- The settings that a session was started with. -/
structure RunsWith (s : Settings) (k : Session) : Prop where
  engine : k.engine.settings = s
  validator : k.engine.validator.settings = s.validation

variable {s : Settings}

theorem runsWith_new (s : Settings) (start : Instant) : (new s start).RunsWith s := ⟨rfl, rfl⟩

theorem RunsWith.serve (h : k.RunsWith s) : (k.serve parse o).2.RunsWith s := by
  rcases @serve_engine parse o k with heq | ⟨-, d, fs, file, root, heq⟩
  · exact ⟨heq ▸ h.engine, heq ▸ h.validator⟩
  · refine ⟨?_, ?_⟩
    · rw [heq]
      exact h.engine
    · rw [heq]
      exact Validator.settings_validate.trans h.validator

/-- An order breaks the cache exactly if it is cut short. -/
theorem cutShort_serve : (cutShort (k.serve parse o).1).toNat + k.cache.broken.toNat =
    (k.serve parse o).2.cache.broken.toNat := by
  rw [serve_cache.1, serve_cache.2]
  rcases @analyze_cutShort_or k.engine parse o.request o.now k.cache with
    ⟨hcut, hbefore, hafter, -⟩ | ⟨hcut, hsame⟩
  · rw [hcut, hbefore, hafter]
    rfl
  · rw [hcut, hsame]
    exact Nat.zero_add _

/-- Where the clock reaches, an order is answered. -/
theorem returned_serve (h : k.RunsWith s) (hreaches : Instant.Reaches o.now s.cache.ttlSecs) :
    Returned (k.serve parse o).1 := by
  rw [returned_iff, serve_cache.1]
  rcases @analyze_cutShort_or k.engine parse o.request o.now k.cache with
    ⟨-, -, -, hnot⟩ | ⟨hcut, -⟩
  · rw [h.engine] at hnot
    exact absurd hreaches hnot
  · exact hcut

/-- Where the clock reaches, or with no time for checks, the searches stay usable. -/
theorem usable_serve {ttlSecs : Nat} (h : k.RunsWith s)
    (hk : k.engine.validator.searches.Usable ttlSecs)
    (hfits : s.validation.timeoutMs = 0 ∨ Fits ttlSecs o.now) :
    (k.serve parse o).2.engine.validator.searches.Usable ttlSecs := by
  rcases @serve_engine parse o k with heq | ⟨-, d, fs, file, root, heq⟩
  · rw [heq]
    exact hk
  · rw [heq]
    refine Validator.usable_validate hk ?_
    rw [h.validator]
    exact hfits.imp_right fun hfit _ _ => hfit

-- What a session comes to is rewritten by these and not computed, as an expiry is.

theorem fst_serveAll_cons (parse : Parser) (o : Order) (rest : List Order) (k : Session) :
    (serveAll parse (o :: rest) k).1 =
      (k.serve parse o).1 :: (serveAll parse rest (k.serve parse o).2).1 := rfl

theorem snd_serveAll_nil (parse : Parser) (k : Session) : (serveAll parse [] k).2 = k := rfl

theorem snd_serveAll_cons (parse : Parser) (o : Order) (rest : List Order) (k : Session) :
    (serveAll parse (o :: rest) k).2 = (serveAll parse rest (k.serve parse o).2).2 := rfl

/-- **At most one order is cut short, and then the cache is broken.** -/
theorem countP_serveAll (parse : Parser) (orders : List Order) (k : Session) :
    (serveAll parse orders k).1.countP cutShort + k.cache.broken.toNat =
      (serveAll parse orders k).2.cache.broken.toNat := by
  induction orders generalizing k with
  | nil => exact Nat.zero_add _
  | cons o rest ih =>
    have hfirst := @cutShort_serve parse o k
    have hrest := ih (k.serve parse o).2
    have hone : (if cutShort (k.serve parse o).1 = true then 1 else 0) =
        (cutShort (k.serve parse o).1).toNat := by
      cases cutShort (k.serve parse o).1 <;> rfl
    rw [fst_serveAll_cons, snd_serveAll_cons, List.countP_cons, hone]
    omega

theorem returned_of_mem_serveAll (h : k.RunsWith s)
    (hreaches : ∀ o ∈ orders, Instant.Reaches o.now s.cache.ttlSecs) :
    ∀ answer ∈ (serveAll parse orders k).1, Returned answer := by
  induction orders generalizing k with
  | nil => simp [serveAll]
  | cons o rest ih =>
    intro answer hanswer
    rw [fst_serveAll_cons] at hanswer
    rcases List.mem_cons.mp hanswer with rfl | hrest
    · exact returned_serve h (hreaches o List.mem_cons_self)
    · exact ih h.serve (fun o' ho' => hreaches o' (List.mem_cons_of_mem o ho')) answer hrest

theorem usable_serveAll {ttlSecs : Nat} (h : k.RunsWith s)
    (hk : k.engine.validator.searches.Usable ttlSecs)
    (hfits : s.validation.timeoutMs = 0 ∨ ∀ o ∈ orders, Fits ttlSecs o.now) :
    (serveAll parse orders k).2.engine.validator.searches.Usable ttlSecs := by
  induction orders generalizing k with
  | nil => exact hk
  | cons o rest ih =>
    rw [snd_serveAll_cons]
    refine ih h.serve (usable_serve h hk ?_) ?_
    · exact hfits.imp_right fun hall => hall o List.mem_cons_self
    · exact hfits.imp_right fun hall o' ho' => hall o' (List.mem_cons_of_mem o ho')

end Session

/-! ## 5. Beyond the range -/

/-- A disk with nothing on it. -/
def bareDisk : Disk := ⟨.directory [], []⟩

theorem exists_scan_bareDisk (filter : PathFilter) (q : Query) :
    ∃ hits, scan bareDisk filter (bareDisk.canonical (.ofString "/")) q = .ok hits := by
  have hresolve : bareDisk.resolve (bareDisk.canonical (.ofString "/")) = .ok [] := by rfl
  rw [scan, sourceFiles, allFiles, hresolve]
  exact ⟨_, rfl⟩

/-- The function that nothing calls, in a project with nothing else in it. -/
def lonelyOrder (now : Instant) : Order :=
  ⟨lonelyRequest, now, some (bareDisk, .ofString "f.go", .ofString "/")⟩

theorem exists_lonely_job : ∃ line, Job.ofFindings (lonelyTask.result lonely).findings =
    [⟨0, .orphanedCode, line, "f"⟩] := by
  obtain ⟨f, hf, hkind, hname, -⟩ := exists_lonely_finding
  rw [hf]
  exact ⟨f.line, by simp [Job.ofFindings, Job.ofFinding?, Job.needsName, hkind, hname]⟩

namespace Session

variable {s : Settings} {k : Session} {latest : Instant}

/-- If the order is answered with its finding, the check of it breaks the searches. -/
theorem broken_searches_of_answered (h : k.RunsWith s) (htime : s.validation.timeoutMs ≠ 0)
    {ttlSecs : Nat} (hsearches : k.engine.validator.searches = .new ttlSecs)
    (hfits : ¬ Fits ttlSecs latest)
    (hanswer : (k.engine.analyze lonely lonelyRequest latest k.cache).1 =
      .ok (reportOfResult (lonelyTask.result lonely))) :
    (k.serve lonely (lonelyOrder latest)).2.engine.validator.searches.broken = true := by
  obtain ⟨line, hjobs⟩ := exists_lonely_job
  cases hanalyze : k.engine.analyze lonely lonelyRequest latest k.cache with
  | mk answer left =>
    rw [hanalyze] at hanswer
    obtain rfl : answer = .ok (reportOfResult (lonelyTask.result lonely)) := hanswer
    have hserve : (k.serve lonely (lonelyOrder latest)).2.engine.validator =
        (k.engine.validator.validate bareDisk (lonelyTask.result lonely).findings
          (.ofString "f.go") (.ofString "/") lonelyRequest.language fun _ _ => latest).2 := by
      simp only [serve, lonelyOrder, analyzeInProject, hanalyze, reportOfResult]
    obtain ⟨hits, hscan⟩ := exists_scan_bareDisk k.engine.validator.settings.pathFilter (.call "f")
    rw [← h.validator] at htime
    rw [hserve, Validator.searches_validate htime, hjobs, hsearches, Validation.runJobs_singleton]
    exact Check.broken_run_of_not_fits _ _ _ rfl hscan hfits

/-- The first answer of a session hangs on the clock alone. -/
theorem analyze_lonely_new (s : Settings) (start latest : Instant) :
    ((new s start).engine.analyze lonely lonelyRequest latest (new s start).cache).1 =
      answerOf (lonelyTask.result lonely) (Instant.after? latest s.cache.ttlSecs).isSome :=
  analyze_new task_lonelyRequest _ _

theorem cutShort_of_not_reaches {start : Instant}
    (h : ¬ Instant.Reaches latest s.cache.ttlSecs) :
    cutShort ((new s start).serve lonely (lonelyOrder latest)).1 = true := by
  have hnone : Instant.after? latest s.cache.ttlSecs = none := by
    rwa [← Instant.isSome_after?_iff, Option.not_isSome_iff_eq_none] at h
  rw [serve_cache.1, lonelyOrder, analyze_lonely_new, hnone]
  rfl

/-- **Beyond the range of the clock there is a session that breaks the searches.**  The first order
may be cut short, and then the second is not. -/
theorem exists_broken_searches (htime : s.validation.timeoutMs ≠ 0)
    (hfits : ¬ Fits s.validation.searchCacheTtlSecs latest) :
    ∃ orders : List Order, (∀ o ∈ orders, o.now ≤ latest) ∧
      (serveAll lonely orders (new s 0)).2.engine.validator.searches.broken = true := by
  by_cases hreaches : Instant.Reaches latest s.cache.ttlSecs
  · refine ⟨[lonelyOrder latest], by simp [lonelyOrder], ?_⟩
    rw [snd_serveAll_cons, snd_serveAll_nil]
    refine broken_searches_of_answered (runsWith_new s 0) htime rfl hfits ?_
    rw [analyze_lonely_new, Instant.isSome_after?_iff.mpr hreaches]
    rfl
  · have hcut := @cutShort_of_not_reaches s latest 0 hreaches
    have hbroken : ((new s 0).serve lonely (lonelyOrder latest)).2.cache.broken = true := by
      have hcount := @cutShort_serve lonely (lonelyOrder latest) (new s 0)
      rw [hcut] at hcount
      cases hafter : ((new s 0).serve lonely (lonelyOrder latest)).2.cache.broken with
      | true => rfl
      | false =>
        rw [hafter] at hcount
        cases hcount
    have hengine : ((new s 0).serve lonely (lonelyOrder latest)).2.engine = (new s 0).engine := by
      rcases @serve_engine lonely (lonelyOrder latest) (new s 0) with heq | ⟨hanswered, -⟩
      · exact heq
      · exact absurd (hanswered.symm.trans hcut) Bool.false_ne_true
    refine ⟨[lonelyOrder latest, lonelyOrder latest], by simp [lonelyOrder], ?_⟩
    rw [snd_serveAll_cons, snd_serveAll_cons, snd_serveAll_nil]
    refine broken_searches_of_answered (runsWith_new s 0).serve htime ?_ hfits
      (analyze_of_broken task_lonelyRequest hbroken)
    rw [hengine]
    rfl

end Session

/-- **A check that is alone in a crew can break the searches too.** -/
theorem exists_broken_crew {v : Validator} {ttlSecs : Nat} {latest : Instant}
    (hv : v.searches = .new ttlSecs) (hfits : ¬ Fits ttlSecs latest) :
    ∃ moves : List Crew.Move, (∀ i now, .step i now ∈ moves → now ≤ latest) ∧
      (Crew.run v bareDisk moves).cache.broken = true := by
  obtain ⟨hits, hscan⟩ := exists_scan_bareDisk v.settings.pathFilter (.word "f")
  let a : Submission := ⟨[], .ofString "f.go", "/", "go"⟩
  let job : Job := ⟨0, .unusedVariable, 1, "f"⟩
  have hbroken :=
    Check.broken_run_of_not_fits (a.scope v bareDisk) (fun _ => latest) job rfl hscan hfits
  obtain ⟨nows, hnows, halone⟩ :=
    Worker.exists_alone (a.scope v bareDisk) job (fun _ => latest) (.new ttlSecs)
  refine ⟨.start a job :: nows.map (.step 0), ?_, ?_⟩
  · intro i now hmem
    obtain ⟨now', hnow', heq⟩ := List.mem_map.mp ((List.mem_cons.mp hmem).resolve_left (by simp))
    obtain ⟨-, rfl⟩ := Crew.Move.step.inj heq
    obtain ⟨-, rfl⟩ := hnows now' hnow'
    exact Nat.le_refl _
  · have hrun : (Crew.run v bareDisk (.start a job :: nows.map (.step 0))).cache =
        ((Worker.start (a.scope v bareDisk) job).alone v.searches nows).2 :=
      congrArg Crew.cache (Crew.foldl_move_single v bareDisk _ v.searches nows)
    rw [hrun, hv, halone]
    exact hbroken

/-! ## 6. All sessions -/

/-- **Every request is answered exactly if the clock reaches to the end of the lifetime.**  For
settings that are accepted, and any instant: in all sessions up to that instant each request ends
with a report or a refusal, exactly if the clock reaches from there to the end of the lifetime of
results; and no search breaks the cache of searches, neither in those sessions nor when checks run
side by side, exactly if it reaches to the end of the lifetime of searches, or searches are not
kept, or, for sessions, no check is made.  In any session one request is cut short if the cache of
results is broken in the end, and none otherwise.  Whatever the lifetimes, the settings are
accepted. -/
theorem answered_iff_clock_reaches (s : Settings) (haccepted : s.check = .ok ())
    (latest : Instant) :
    ((∀ parse start orders, (∀ o ∈ orders, o.now ≤ latest) →
        ∀ answer ∈ ((Session.new s start).serveAll parse orders).1, Returned answer) ↔
      Instant.Reaches latest s.cache.ttlSecs) ∧
    ((∀ parse start orders, (∀ o ∈ orders, o.now ≤ latest) →
        ((Session.new s start).serveAll parse orders).2.engine.validator.searches.broken = false) ↔
      s.validation.timeoutMs = 0 ∨ s.validation.searchCacheTtlSecs = 0 ∨
        Instant.Reaches latest s.validation.searchCacheTtlSecs) ∧
    ((∀ d moves, (∀ i now, .step i now ∈ moves → now ≤ latest) →
        (Crew.run (.new s.validation s.confidence) d moves).cache.broken = false) ↔
      s.validation.searchCacheTtlSecs = 0 ∨
        Instant.Reaches latest s.validation.searchCacheTtlSecs) ∧
    (∀ parse start orders, ((Session.new s start).serveAll parse orders).1.countP cutShort =
      ((Session.new s start).serveAll parse orders).2.cache.broken.toNat) ∧
    ∀ resultSecs searchSecs, (s.lasting resultSecs searchSecs).check = .ok () := by
  rw [← fits_iff]
  refine ⟨⟨?_, ?_⟩, ⟨?_, ?_⟩, ⟨?_, ?_⟩, ?_, ?_⟩
  · intro hreturned
    by_contra hbeyond
    have hcut := @Session.cutShort_of_not_reaches s latest 0 hbeyond
    have hanswers := hreturned lonely 0 [lonelyOrder latest] (by simp [lonelyOrder])
    rw [Session.fst_serveAll_cons] at hanswers
    have hanswer := hanswers _ List.mem_cons_self
    exact Bool.false_ne_true ((returned_iff.mp hanswer).symm.trans hcut)
  · intro hreaches parse start orders hnow
    exact Session.returned_of_mem_serveAll (Session.runsWith_new s start)
      fun o ho => hreaches.mono (hnow o ho)
  · intro husable
    by_contra hbeyond
    obtain ⟨htime, hfits⟩ := not_or.mp hbeyond
    obtain ⟨orders, hnow, hbroken⟩ := Session.exists_broken_searches htime hfits
    exact Bool.false_ne_true ((husable lonely 0 orders hnow).symm.trans hbroken)
  · intro hfits parse start orders hnow
    have husable := @Session.usable_serveAll parse (Session.new s start) orders s _
      (Session.runsWith_new s start) (usable_new s.validation.searchCacheTtlSecs)
      (hfits.imp_right fun hfit o ho => hfit.mono (hnow o ho))
    exact husable.broken
  · intro husable
    by_contra hbeyond
    obtain ⟨moves, hnow, hbroken⟩ :=
      @exists_broken_crew (.new s.validation s.confidence) _ latest rfl hbeyond
    exact Bool.false_ne_true ((husable bareDisk moves hnow).symm.trans hbroken)
  · intro hfits d moves hnow
    exact (Crew.usable_run (usable_new s.validation.searchCacheTtlSecs)
      fun i now hmem => hfits.mono (hnow i now hmem)).broken
  · intro parse start orders
    exact Session.countP_serveAll parse orders (Session.new s start)
  · intro resultSecs searchSecs
    rw [Settings.check_lasting, haccepted]

/-- Settings under which a result is never to expire. -/
def endlessSettings : Settings := Settings.lasting {} 0xffffffffffffffff 300

/-- They are accepted, and the first request is cut short: not every session is answered. -/
theorem endless_result_cut_short :
    endlessSettings.check = .ok () ∧
    ((Session.new endlessSettings 0).serve lonely
      ⟨⟨"x = 1\n", "ruby", []⟩, 0, none⟩).1 = .error .clockOverflow ∧
    ¬ ∀ parse start orders, (∀ o ∈ orders, o.now ≤ 0) →
      ∀ answer ∈ ((Session.new endlessSettings start).serveAll parse orders).1, Returned answer := by
  have haccepted : endlessSettings.check = .ok () := by rfl
  refine ⟨haccepted, ?_, ?_⟩
  · have htask : (⟨"x = 1\n", "ruby", []⟩ : QualityRequest).task =
        .ok ⟨.plainText, "ruby", ⟨[]⟩, "x = 1\n"⟩ := by rfl
    have hnone : Instant.after? 0 (.ofSeconds 0xffffffffffffffff) = none := by decide
    have hanswer : ((Engine.new endlessSettings).analyze lonely ⟨"x = 1\n", "ruby", []⟩ 0
        (.new endlessSettings.cache 0)).1 =
          answerOf _ (Instant.after? 0 (.ofSeconds 0xffffffffffffffff)).isSome :=
      analyze_new htask _ _
    rw [hnone] at hanswer
    exact (Session.serve_of_none rfl).trans hanswer
  · intro hreturned
    have hreaches := (answered_iff_clock_reaches endlessSettings haccepted 0).1.mp hreturned
    exact absurd hreaches (by decide)

end Engine

end CodeAudit
