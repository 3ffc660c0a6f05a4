import CodeAudit.Proofs.Cache.Replay

/-!
# Many users of one cache

A call looks at the clock when it starts and takes its locks later, with other calls in between.  A
look-up takes two: it reads, lets go, and comes back to remove the entry if that was expired.  All
other calls take one, for writing.  So a *system* of calls moves in two ways (`Move`): a call starts,
with an instant it goes by from then on, or one of the calls takes its next phase.  Any list of moves
is an interleaving, and the instants are arbitrary: nothing below asks that a phase runs soon, nor
that two calls agree on what time it is.  A look-up whose phases follow one another is
`ResultCache.get` (`move_step_step`).

The phases that hold the lock for writing are written down in a log.  **The cache is always what the
log says** (`cache_run`), so that what holds of histories holds of every interleaving; only what a
look-up reads is not in the log, and that is traced back to the phase in which it read
(`exists_read_of_answer`).
-/

namespace CodeAudit.ResultCache

open Store

/-! ## 1. Calls and their phases -/

/-- How far a call has come. -/
inductive Phase where
  /-- It holds no lock yet. -/
  | waiting
  /-- It found its entry expired, and has let go of the lock since. -/
  | purging
  | done (answer : Option CachedResult)

/-- A call under way, and the instant it goes by. -/
structure Call where
  operation : Operation
  now : Instant
  phase : Phase

/-- The next phase of a call: how far it comes, and the cache afterwards. -/
def Call.step (t : Call) (c : ResultCache) : Call × ResultCache :=
  match t.phase, t.operation with
  | .waiting, .get key =>
    match c.read key t.now with
    | .absent => ({ t with phase := .done none }, c)
    | .live value => ({ t with phase := .done (some value) }, c)
    | .expired => ({ t with phase := .purging }, c)
  | .purging, .get key => ({ t with phase := .done none }, c.discard key t.now)
  | .waiting, o => ({ t with phase := .done none }, o.apply t.now c)
  | _, _ => (t, c)

/-- What the next phase of a call does while it holds the lock for writing. -/
def Call.writes (t : Call) : List Event :=
  match t.phase, t.operation with
  | .waiting, .get _ => []
  | .waiting, o => [⟨o, t.now⟩]
  | .purging, .get key => [⟨.get key, t.now⟩]
  | _, _ => []

/-- **A phase does to the cache what it writes down.** -/
theorem Call.step_snd (t : Call) (c : ResultCache) : (t.step c).2 = replay c t.writes := by
  obtain ⟨o, now, phase⟩ := t
  cases phase with
  | waiting =>
    cases o with
    | get key =>
      simp only [Call.step]
      cases c.read key now <;> rfl
    | _ => rfl
  | purging =>
    cases o with
    | get key => exact (get_snd c key now).symm
    | _ => rfl
  | done answer => cases o <;> rfl

/-- The two phases of a look-up come to `get`; a second step changes nothing, if the first one was the
last. -/
theorem Call.step_step (c : ResultCache) (key : String) (now : Instant) :
    let first := Call.step ⟨.get key, now, .waiting⟩ c
    first.1.step first.2 = (⟨.get key, now, .done (c.get key now).1⟩, (c.get key now).2) := by
  cases hread : c.read key now <;> simp [Call.step, ResultCache.get, hread]

/-- A call has an answer if it had it before or reads it now. -/
theorem Call.step_fst_eq_answer {t : Call} {c : ResultCache} {o : Operation} {now : Instant}
    {value : CachedResult} (h : (t.step c).1 = ⟨o, now, .done (some value)⟩) :
    t = ⟨o, now, .done (some value)⟩ ∨
      ∃ key, o = .get key ∧ t = ⟨.get key, now, .waiting⟩ ∧ c.read key now = .live value := by
  obtain ⟨o', now', phase⟩ := t
  cases phase with
  | waiting =>
    cases o' with
    | get key =>
      cases hread : c.read key now' with
      | live found =>
        simp only [Call.step, hread, Call.mk.injEq, Phase.done.injEq, Option.some.injEq] at h
        obtain ⟨rfl, rfl, rfl⟩ := h
        exact .inr ⟨key, rfl, rfl, hread⟩
      | absent => simp [Call.step, hread] at h
      | expired => simp [Call.step, hread] at h
    | _ => simp [Call.step] at h
  | purging => cases o' <;> simp [Call.step] at h
  | done answer =>
    left
    cases o' <;> exact h

/-! ## 2. Interleavings -/

/-- A cache, the calls that were made of it, and what was written so far. -/
structure System where
  cache : ResultCache
  calls : List Call := []
  log : List Event := []

/-- What can happen: a call starts, or one of the calls takes its next phase. -/
inductive Move where
  | call (o : Operation) (now : Instant)
  | step (i : Nat)

namespace System

/-- The system after a move; a phase that no call can take changes nothing. -/
def move (s : System) : Move → System
  | .call o now => { s with calls := s.calls ++ [⟨o, now, .waiting⟩] }
  | .step i =>
    match s.calls[i]? with
    | none => s
    | some t => ⟨(t.step s.cache).2, s.calls.set i (t.step s.cache).1, s.log ++ t.writes⟩

/-- The system after an interleaving of moves, from an empty cache. -/
def run (settings : CacheSettings) (start : Instant) (moves : List Move) : System :=
  moves.foldl move { cache := new settings start }

variable {s : System} {i : Nat} {t : Call} {key : String} {now : Instant} {settings : CacheSettings}
  {start : Instant} {moves : List Move}

theorem run_concat (m : Move) :
    run settings start (moves ++ [m]) = (run settings start moves).move m := by
  simp [run]

theorem move_step (h : s.calls[i]? = some t) :
    s.move (.step i) = ⟨(t.step s.cache).2, s.calls.set i (t.step s.cache).1, s.log ++ t.writes⟩ := by
  simp only [move, h]

theorem calls_move_step (h : s.calls[i]? = some t) :
    (s.move (.step i)).calls[i]? = some (t.step s.cache).1 := by
  obtain ⟨hi, -⟩ := List.getElem?_eq_some_iff.mp h
  simp [move_step h, hi]

/-- **A look-up whose phases follow one another is `get`.** -/
theorem move_step_step (h : s.calls[i]? = some ⟨.get key, now, .waiting⟩) :
    ((s.move (.step i)).move (.step i)).calls[i]? =
        some ⟨.get key, now, .done (s.cache.get key now).1⟩ ∧
      ((s.move (.step i)).move (.step i)).cache = (s.cache.get key now).2 := by
  have hfirst := calls_move_step h
  have hcache : (s.move (.step i)).cache = (Call.step ⟨.get key, now, .waiting⟩ s.cache).2 := by
    rw [move_step h]
  have hboth := Call.step_step s.cache key now
  refine ⟨?_, ?_⟩
  · rw [calls_move_step hfirst, hcache, hboth]
  · rw [move_step hfirst, hcache, hboth]

/-- **The cache is what the log says**, whoever wrote it and in whatever order. -/
theorem cache_run (settings : CacheSettings) (start : Instant) (moves : List Move) :
    (run settings start moves).cache = replay (new settings start) (run settings start moves).log := by
  induction moves using List.reverseRecOn with
  | nil => rfl
  | append_singleton moves m ih =>
    rw [run_concat]
    cases m with
    | call o now => exact ih
    | step i =>
      cases hcall : (run settings start moves).calls[i]? with
      | none => simpa only [move, hcall] using ih
      | some t =>
        rw [move_step hcall, t.step_snd, ih]
        simp only [replay, List.foldl_append]

theorem wellKept_run (settings : CacheSettings) (start : Instant) (moves : List Move) :
    (run settings start moves).cache.WellKept := by
  rw [cache_run]
  exact (wellKept_new settings start).replay _

/-- A call that has an answer had it before the move, or reads it by taking its phase. -/
theorem answer_cases {m : Move} {o : Operation} {value : CachedResult}
    (h : (s.move m).calls[i]? = some ⟨o, now, .done (some value)⟩) :
    s.calls[i]? = some ⟨o, now, .done (some value)⟩ ∨
      ∃ key, o = .get key ∧ m = .step i ∧ s.calls[i]? = some ⟨.get key, now, .waiting⟩ ∧
        s.cache.read key now = .live value := by
  cases m with
  | call o' now' =>
    left
    rw [move, List.getElem?_append] at h
    split at h
    · exact h
    · have hnew := List.mem_of_getElem? h
      simp at hnew
  | step j =>
    cases hcall : s.calls[j]? with
    | none => simpa only [move, hcall] using Or.inl h
    | some t =>
      by_cases hj : j = i
      · subst hj
        rw [calls_move_step hcall] at h
        rcases Call.step_fst_eq_answer (Option.some.inj h) with rfl | ⟨key, rfl, rfl, hread⟩
        · exact .inl hcall
        · exact .inr ⟨key, rfl, rfl, hcall, hread⟩
      · left
        rwa [move_step hcall, List.getElem?_set_ne hj] at h

/-- **An answer was there when it was read**: under the key, and live at the instant the call goes
by. -/
theorem exists_read_of_answer {o : Operation} {value : CachedResult}
    (h : (run settings start moves).calls[i]? = some ⟨o, now, .done (some value)⟩) :
    ∃ key e before after, o = .get key ∧ moves = before ++ .step i :: after ∧
      (run settings start before).calls[i]? = some ⟨.get key, now, .waiting⟩ ∧
      (key, e) ∈ (run settings start before).cache.contents ∧ e.value = value ∧
      now < e.expiresAt := by
  induction moves using List.reverseRecOn with
  | nil => cases h
  | append_singleton moves m ih =>
    rw [run_concat] at h
    rcases answer_cases h with hbefore | ⟨key, rfl, rfl, hcall, hread⟩
    · obtain ⟨key, e, before, after, ho, rfl, hrest⟩ := ih hbefore
      exact ⟨key, e, before, after ++ [m], ho, by simp, hrest⟩
    · have hkeyed := (wellKept_run settings start moves).keyed
      obtain ⟨e, hmem, hvalue, hlive⟩ := (read_eq_live_iff hkeyed).mp hread
      exact ⟨key, e, moves, [], rfl, rfl, hcall, hmem, hvalue, hlive⟩

/-! ## 3. No update is lost -/

/-- **No update is lost, however calls interleave.**  A look-up that nobody comes between is `get`;
the second phase of a look-up takes out the entry under its key if that is expired at the instant the
call goes by, and nothing else; an answer was in the cache when it was read, live at that instant; a
look-up answers what it finds live; and the cache holds all that was stored last and is live for every
call that wrote, less what was crowded out. -/
theorem interleaving_loses_no_update (settings : CacheSettings) (start : Instant)
    (moves : List Move) :
    let s := run settings start moves
    (∀ i key now, s.calls[i]? = some ⟨.get key, now, .waiting⟩ →
      ((s.move (.step i)).move (.step i)).calls[i]? =
          some ⟨.get key, now, .done (s.cache.get key now).1⟩ ∧
        ((s.move (.step i)).move (.step i)).cache = (s.cache.get key now).2) ∧
    (∀ i key now, s.calls[i]? = some ⟨.get key, now, .purging⟩ →
      ∀ x, x ∈ (s.move (.step i)).cache.contents ↔
        x ∈ s.cache.contents ∧ ¬ (x.1 = key ∧ x.2.expiresAt ≤ now)) ∧
    (∀ i o now value, s.calls[i]? = some ⟨o, now, .done (some value)⟩ →
      ∃ key e before after, o = .get key ∧ moves = before ++ .step i :: after ∧
        (run settings start before).calls[i]? = some ⟨.get key, now, .waiting⟩ ∧
        (key, e) ∈ (run settings start before).cache.contents ∧ e.value = value ∧
        now < e.expiresAt) ∧
    (∀ i key now e, s.calls[i]? = some ⟨.get key, now, .waiting⟩ → (key, e) ∈ s.cache.contents →
      now < e.expiresAt →
      (s.move (.step i)).calls[i]? = some ⟨.get key, now, .done (some e.value)⟩ ∧
        (s.move (.step i)).cache = s.cache) ∧
    (∀ key e, StoredLast s.log key e → s.cache.broken = false → (∀ ev ∈ s.log, ev.now < e.expiresAt) →
      (key, e) ∈ s.cache.contents ∨ Evicted (new settings start) s.log (key, e)) := by
  intro s
  have hkept : s.cache.WellKept := wellKept_run settings start moves
  have hcache : s.cache = replay (new settings start) s.log := cache_run settings start moves
  refine ⟨?_, ?_, ?_, ?_, ?_⟩
  · intro i key now hcall
    exact move_step_step hcall
  · intro i key now hcall x
    rw [move_step hcall]
    exact mem_contents_discard hkept.keyed
  · intro i o now value hcall
    exact exists_read_of_answer hcall
  · intro i key now e hcall hmem hlive
    have hread : s.cache.read key now = .live e.value :=
      (read_eq_live_iff hkept.keyed).mpr ⟨e, hmem, rfl, hlive⟩
    refine ⟨?_, ?_⟩
    · rw [calls_move_step hcall]
      simp only [Call.step, hread]
    · rw [move_step hcall]
      simp only [Call.step, hread]
  · intro key e hstored husable hlive
    rw [hcache] at husable ⊢
    exact held_or_evicted (wellKept_new settings start) husable hstored hlive

/-- A result for five milliseconds is looked up when it is expired, and while the look-up is between
its phases, a fresh result is put in its place. -/
def putBetween : List Move :=
  [.call (.put "k" ⟨[], 1⟩ ⟨5000000⟩) 0, .step 0, .call (.get "k") 20000000, .step 1,
    .call (.put "k" ⟨[], 2⟩ (.ofSeconds 60)) 20000000, .step 2]

/-- The look-up comes back for the expired result and leaves the fresh one. -/
theorem fresh_result_survives :
    (run {} 0 putBetween).calls[1]? = some ⟨.get "k", 20000000, .purging⟩ ∧
      (("k", ⟨⟨[], 2⟩, 60020000000⟩) : String × Entry CachedResult) ∈
        ((run {} 0 putBetween).move (.step 1)).cache.contents := by
  have hcall : (run {} 0 putBetween).calls[1]? = some ⟨.get "k", 20000000, .purging⟩ := by rfl
  have hfresh : (("k", ⟨⟨[], 2⟩, 60020000000⟩) : String × Entry CachedResult) ∈
      (run {} 0 putBetween).cache.contents := by
    have hcontents : (run {} 0 putBetween).cache.contents = [("k", ⟨⟨[], 2⟩, 60020000000⟩)] := by rfl
    rw [hcontents]
    exact List.mem_singleton_self _
  have hremoved := (interleaving_loses_no_update {} 0 putBetween).2.1 1 "k" 20000000 hcall
  exact ⟨hcall, (hremoved _).mpr ⟨hfresh, by simp⟩⟩

end System

end CodeAudit.ResultCache
