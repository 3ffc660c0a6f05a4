import CodeAudit.Proofs.Cache.Contents
import CodeAudit.Proofs.Engine.Key

/-!
# What a shared cache can hold

Engines with any settings put their results into one cache and take each other's out, at any times.
Whatever the history, **everything in the cache is the result of a task that was asked for**
(`stored_after`): a result is put in as it was found, before validation looks at it, and nothing in
the settings of an engine has a part in it (`QualityTask.run_scores`).  So an answer is the result of
the task itself, or of a task with the same key, or is cut short by the clock (`answer_cases`).
-/

namespace CodeAudit

namespace ResultCache

/-! ## 1. Entries -/

/-- A cache is well kept, and every entry that is found in it is as it should be. -/
structure Holds (p : String → CachedResult → Prop) (c : ResultCache) : Prop where
  kept : c.WellKept
  each : ∀ x ∈ c.contents, p x.1 x.2.value

variable {p : String → CachedResult → Prop} {c : ResultCache} {key : String} {now : Instant}

theorem holds_new (settings : CacheSettings) : (new settings now).Holds p :=
  ⟨wellKept_new settings now, fun _ hx => absurd hx List.not_mem_nil⟩

/-- **An operation adds what it puts in, and nothing else.** -/
theorem Holds.apply (h : c.Holds p) (o : Operation) (now : Instant)
    (hnew : ∀ key value ttl, o = .put key value ttl → p key value) : (o.apply now c).Holds p := by
  refine ⟨Operation.wellKept_apply h.kept o now, fun x hx => ?_⟩
  have hoffered := Operation.contents_apply_subset h.kept o now hx
  by_cases hreplaces : o.Replaces x.1
  · obtain ⟨ttl, hop, -⟩ := Operation.eq_put_of_mem_offers hreplaces hoffered
    exact hnew x.1 x.2.value ttl hop
  · exact h.each x ((Operation.mem_offers_of_not_replaces hreplaces).mp hoffered)

/-- A look-up finds what it should. -/
theorem Holds.of_get {value : CachedResult} (h : c.Holds p) (hget : (c.get key now).1 = some value) :
    p key value := by
  obtain ⟨e, hmem, rfl, -⟩ := (read_eq_live_iff h.kept.keyed).mp (get_fst_eq_some_iff.mp hget)
  exact h.each _ hmem

theorem Holds.get (h : c.Holds p) : (c.get key now).2.Holds p :=
  h.apply (.get key) now (by simp)

theorem Holds.put {value : CachedResult} {ttl : Duration} (h : c.Holds p) (hnew : p key value) :
    (c.put key value ttl now).2.Holds p := by
  refine h.apply (.put key value ttl) now ?_
  rintro _ _ _ ⟨⟩
  exact hnew

end ResultCache

/-! ## 2. Results -/

/-- The checks of quality do not look at the confidences. -/
theorem QualityCheck.run_scores (check : QualityCheck) (support : Support) (source : List Char)
    (tree : Option Tree) (language : String) (scores scores' : DetectorScores) :
    check.run support ⟨source, tree, language, scores⟩ =
      check.run support ⟨source, tree, language, scores'⟩ := by
  cases support with
  | plainText => rfl
  | grammar l => cases check <;> rfl

namespace Engine

/-- **No setting has a part in a result.** -/
theorem QualityTask.run_scores (t : QualityTask) (parse : Parser) (scores scores' : DetectorScores) :
    t.run parse scores = t.run parse scores' := by
  have hchecks : ∀ tree, (fun check : QualityCheck =>
      check.run t.support ⟨t.source.toList, tree, t.language, scores⟩) =
        fun check => check.run t.support ⟨t.source.toList, tree, t.language, scores'⟩ :=
    fun tree => funext fun check => check.run_scores t.support _ tree _ scores scores'
  unfold QualityTask.run Support.snippet Battery.quality
  cases hsupport : t.support with
  | plainText => rfl
  | grammar l =>
    rw [hsupport] at hchecks
    simp only [hchecks]

/-- The result of a task, whatever the settings. -/
def QualityTask.result (t : QualityTask) (parse : Parser) : CachedResult := t.run parse {}

/-- A result as it is reported. -/
def reportOfResult (result : CachedResult) : QualityReport :=
  { findings := result.findings, nodes := result.nodes }

/-- What is said of a result that was stored, or could not be. -/
def answerOf (result : CachedResult) (stored : Bool) : Except Fault QualityReport :=
  if stored then .ok (reportOfResult result) else .error .clockOverflow

variable {e : Engine} {parse : Parser} {r : QualityRequest} {t : QualityTask} {now : Instant}
  {cache : ResultCache}

/-- A request that is refused says so at once. -/
theorem analyze_of_refused {cause : AnalysisError} (h : r.task = .error cause) :
    e.analyze parse r now cache = (.error (.refused cause), cache) := by
  unfold analyze
  rw [h]

/-- A request that is understood is answered from the cache. -/
theorem analyze_of_hit {result : CachedResult} {left : ResultCache} (h : r.task = .ok t)
    (hget : cache.get t.key now = (some result, left)) :
    e.analyze parse r now cache = (.ok (reportOfResult result), left) := by
  unfold analyze
  rw [h]
  simp only [hget]
  rfl

/-- Otherwise its task is carried out and the result put into the cache. -/
theorem analyze_of_miss {left : ResultCache} (h : r.task = .ok t)
    (hget : cache.get t.key now = (none, left)) :
    e.analyze parse r now cache =
      (answerOf (t.result parse) (left.put t.key (t.result parse) e.settings.cache.ttlSecs now).1,
        (left.put t.key (t.result parse) e.settings.cache.ttlSecs now).2) := by
  unfold analyze
  rw [h]
  simp only [hget]
  rw [t.run_scores parse e.settings.detectors {}, ← QualityTask.result]
  cases left.put t.key (t.result parse) e.settings.cache.ttlSecs now with
  | mk stored left' => cases stored <;> rfl

/-- What an analysis leaves in the cache: what was there, and the result of its task. -/
theorem holds_analyze {p : String → CachedResult → Prop} (h : cache.Holds p)
    (hnew : ∀ t, r.task = .ok t → p t.key (t.result parse)) :
    (e.analyze parse r now cache).2.Holds p := by
  cases htask : r.task with
  | error cause =>
    rw [analyze_of_refused htask]
    exact h
  | ok t =>
    have hleft : (cache.get t.key now).2.Holds p := h.get
    cases hget : cache.get t.key now with
    | mk found left =>
      rw [hget] at hleft
      cases found with
      | some result =>
        rw [analyze_of_hit htask hget]
        exact hleft
      | none =>
        rw [analyze_of_miss htask hget]
        exact hleft.put (hnew t htask)

/-- An answer is something that the cache holds under the key, or the result of the task, unless the
clock cuts it short. -/
theorem answer_cases {p : String → CachedResult → Prop} (h : cache.Holds p) (htask : r.task = .ok t) :
    (∃ result, p t.key result ∧ (e.analyze parse r now cache).1 = .ok (reportOfResult result)) ∨
      (e.analyze parse r now cache).1 = .ok (reportOfResult (t.result parse)) ∨
      Instant.after? now e.settings.cache.ttlSecs = none ∧
        (e.analyze parse r now cache).1 = .error .clockOverflow := by
  have hfound : ∀ result, (cache.get t.key now).1 = some result → p t.key result :=
    fun _ hget => h.of_get hget
  cases hget : cache.get t.key now with
  | mk found left =>
    rw [hget] at hfound
    cases found with
    | some result =>
      rw [analyze_of_hit htask hget]
      exact .inl ⟨result, hfound result rfl, rfl⟩
    | none =>
      rw [analyze_of_miss htask hget]
      cases hbroken : left.broken with
      | true =>
        rw [ResultCache.put_of_broken hbroken]
        exact .inr (.inl rfl)
      | false =>
        cases hexpiry : Instant.after? now e.settings.cache.ttlSecs with
        | none =>
          rw [ResultCache.put_of_none hbroken hexpiry]
          exact .inr (.inr ⟨rfl, rfl⟩)
        | some expiresAt =>
          rw [ResultCache.put_of_some hbroken hexpiry]
          exact .inr (.inl rfl)

/-- The answer of an engine with an empty cache. -/
theorem analyze_new (htask : r.task = .ok t) (settings : CacheSettings) (start : Instant) :
    (e.analyze parse r now (.new settings start)).1 =
      answerOf (t.result parse) (Instant.after? now e.settings.cache.ttlSecs).isSome := by
  have hget : (ResultCache.new settings start).get t.key now = (none, .new settings start) := rfl
  have hbroken : (ResultCache.new settings start).broken = false := rfl
  rw [analyze_of_miss htask hget]
  cases hexpiry : Instant.after? now e.settings.cache.ttlSecs with
  | none => rw [ResultCache.put_of_none hbroken hexpiry, Option.isSome_none]
  | some expiresAt => rw [ResultCache.put_of_some hbroken hexpiry, Option.isSome_some]

/-! ## 3. Histories -/

/-- A request made to some engine at some time; with a project its findings are validated. -/
structure Call where
  engine : Engine
  request : QualityRequest
  now : Instant
  project : Option (Disk × Path × Path)

/-- Answers a call. -/
def Call.answer (parse : Parser) (call : Call) (cache : ResultCache) :
    Except Fault QualityReport × ResultCache :=
  match call.project with
  | none => call.engine.analyze parse call.request call.now cache
  | some (disk, file, root) =>
    let (report, _, cache) :=
      call.engine.analyzeInProject parse disk file root call.request call.now cache
    (report, cache)

/-- The cache after some calls. -/
def after (parse : Parser) (calls : List Call) (cache : ResultCache) : ResultCache :=
  calls.foldl (fun cache call => (call.answer parse cache).2) cache

/-- Validation leaves the cache alone. -/
theorem Call.answer_snd (call : Call) :
    (call.answer parse cache).2 = (call.engine.analyze parse call.request call.now cache).2 := by
  unfold Call.answer
  cases call.project with
  | none => rfl
  | some project =>
    unfold analyzeInProject
    cases call.engine.analyze parse call.request call.now cache with
    | mk answer left => cases answer <;> rfl

/-- The result of a task that was asked for, under its key. -/
def Stored (parse : Parser) (requests : List QualityRequest) (key : String) (result : CachedResult) :
    Prop :=
  ∃ q ∈ requests, ∃ t, q.task = .ok t ∧ key = t.key ∧ result = t.result parse

theorem stored_answer {requests : List QualityRequest} {call : Call} (hcall : call.request ∈ requests)
    (h : cache.Holds (Stored parse requests)) : (call.answer parse cache).2.Holds (Stored parse requests) := by
  rw [call.answer_snd]
  exact holds_analyze h fun t htask => ⟨call.request, hcall, t, htask, rfl, rfl⟩

/-- **Whatever the history, the cache holds results of tasks that were asked for.** -/
theorem stored_after {requests : List QualityRequest} (calls : List Call)
    (hcalls : ∀ call ∈ calls, call.request ∈ requests) (h : cache.Holds (Stored parse requests)) :
    (after parse calls cache).Holds (Stored parse requests) := by
  induction calls generalizing cache with
  | nil => exact h
  | cons call calls ih =>
    have hrest := fun call' hmem => hcalls call' (List.mem_cons_of_mem call hmem)
    exact ih hrest (stored_answer (hcalls call List.mem_cons_self) h)

/-! ## 4. A cache with one entry -/

/-- An empty cache stays empty when it is swept. -/
theorem sweepIfDue_new (settings : CacheSettings) (start now : Instant) :
    ((ResultCache.new settings start).sweepIfDue now).store = {} ∧
      ((ResultCache.new settings start).sweepIfDue now).broken = false ∧
      1 ≤ ((ResultCache.new settings start).sweepIfDue now).capacity := by
  have hcapacity : 1 ≤ max settings.maxEntries 1 := Nat.le_max_right _ _
  unfold ResultCache.sweepIfDue
  split
  · exact ⟨rfl, rfl, hcapacity⟩
  · exact ⟨rfl, rfl, hcapacity⟩

/-- The only entry of a cache is found as long as it is live. -/
theorem get_of_insert {c : ResultCache} {key : String} {result : CachedResult} {now expiresAt : Instant}
    (hstore : c.store = {}) (hbroken : c.broken = false) (hcapacity : 1 ≤ c.capacity)
    (hlive : now < expiresAt) :
    ∃ left, ({ c with store := c.store.insert key ⟨result, expiresAt⟩ }.makeRoom now).get key now =
      (some result, left) := by
  have hsize : ¬ c.capacity < (c.store.insert key ⟨result, expiresAt⟩).size := by
    rw [hstore]
    exact Nat.not_lt.mpr hcapacity
  have hentry : (⟨result, expiresAt⟩ : Entry CachedResult).isLive now = true := by
    simpa [Entry.isLive] using hlive
  rw [ResultCache.makeRoom, if_neg hsize, ResultCache.get, ResultCache.read]
  simp only [hbroken, Bool.false_eq_true, if_false, Store.get?_insert_self, hentry, if_true]
  exact ⟨_, rfl⟩

/-- What is stored in an empty cache is found again at once. -/
theorem get_of_put_new {settings : CacheSettings} {key : String} {result : CachedResult} {ttl : Duration}
    {start now expiresAt : Instant} (hexpiry : Instant.after? now ttl = some expiresAt)
    (hlive : now < expiresAt) :
    ∃ left, ((ResultCache.new settings start).put key result ttl now).2.get key now =
      (some result, left) := by
  obtain ⟨hstore, hbroken, hcapacity⟩ := sweepIfDue_new settings start now
  have hfresh : (ResultCache.new settings start).broken = false := rfl
  rw [ResultCache.put_of_some hfresh hexpiry]
  exact get_of_insert hstore hbroken hcapacity hlive

/-- After one request a cache has its result. -/
theorem get_after_request {q : QualityRequest} (htask : q.task = .ok t) (parse : Parser) :
    ∃ left, (after parse [⟨.new {}, q, 0, none⟩] (.new {} 0)).get t.key 0 =
      (some (t.result parse), left) := by
  have httl : (Engine.new {}).settings.cache.ttlSecs = 300 := rfl
  have hexpiry : Instant.after? 0 (.ofSeconds 300) = some 300000000000 := by decide
  have hcache : after parse [⟨.new {}, q, 0, none⟩] (.new {} 0) =
      ((ResultCache.new {} 0).put t.key (t.result parse) (.ofSeconds 300) 0).2 := by
    have hnew : (ResultCache.new {} 0).get t.key 0 = (none, .new {} 0) := rfl
    have hmiss : (Engine.new {}).analyze parse q 0 (.new {} 0) = _ := analyze_of_miss htask hnew
    rw [httl] at hmiss
    exact congrArg Prod.snd hmiss
  rw [hcache]
  exact get_of_put_new hexpiry (by decide)

end Engine

end CodeAudit
