import CodeAudit.Proofs.Cache.Contents
import Mathlib

/-!
# A cache against its history

What a cache may answer can be read off the operations that were applied to it, without the cache.
An entry is *stored last* under its key if some put stored it and no put under that key and no clear
came since (`StoredLast`).  Two facts tie the cache to this:

* **it holds nothing else** (`storedLast_of_mem`), so an outdated value is never served;
* **it holds all of it that is live, less what was crowded out** (`held_or_evicted`), so a value is
  never lost for any other reason.

Both are by induction on the history from its end: the last operation either put the entry itself or
left it alone, and what one operation does to the contents is known.  The instants need not be in
order for the first; for the second an entry has to be live at each of them.
-/

namespace CodeAudit.ResultCache

open Store

/-! ## 1. Histories -/

/-- An operation, and the instant it goes by. -/
structure Event where
  operation : Operation
  now : Instant

/-- The cache after an event. -/
def Event.apply (ev : Event) (c : ResultCache) : ResultCache := ev.operation.apply ev.now c

/-- The cache after a history. -/
def replay (c : ResultCache) (evs : List Event) : ResultCache := evs.foldl (fun c ev => ev.apply c) c

/-- The last put under a key stored this entry, and no clear came since. -/
def StoredLast (evs : List Event) (key : String) (e : Entry CachedResult) : Prop :=
  ∃ before since ttl now, evs = before ++ ⟨.put key e.value ttl, now⟩ :: since ∧
    e.expiresAt = now + ttl.nanos ∧
    ∀ ev ∈ since, ¬ ev.operation.Replaces key

/-- Somewhere in a history an entry has to give way. -/
def Evicted (c : ResultCache) (evs : List Event) (x : String × Entry CachedResult) : Prop :=
  ∃ before ev since, evs = before ++ ev :: since ∧
    (replay c before).Evicts ev.operation ev.now x

variable {c : ResultCache} {evs : List Event} {ev : Event} {key : String} {e : Entry CachedResult}

theorem replay_concat (c : ResultCache) (evs : List Event) (ev : Event) :
    replay c (evs ++ [ev]) = ev.apply (replay c evs) := by
  simp [replay]

theorem Evicted.concat {x : String × Entry CachedResult} (h : Evicted c evs x) (ev : Event) :
    Evicted c (evs ++ [ev]) x := by
  obtain ⟨before, at_, since, rfl, hevicts⟩ := h
  exact ⟨before, at_, since ++ [ev], by simp, hevicts⟩

theorem storedLast_put {ttl : Duration} (hop : ev.operation = .put key e.value ttl)
    (hexpiry : e.expiresAt = ev.now + ttl.nanos) :
    StoredLast (evs ++ [ev]) key e :=
  ⟨evs, [], ttl, ev.now, by rw [← hop], hexpiry, by simp⟩

theorem StoredLast.concat (h : StoredLast evs key e) (hkeep : ¬ ev.operation.Replaces key) :
    StoredLast (evs ++ [ev]) key e := by
  obtain ⟨before, since, ttl, now, rfl, hexpiry, hsince⟩ := h
  refine ⟨before, since ++ [ev], ttl, now, by simp, hexpiry, ?_⟩
  intro later hlater
  rcases List.mem_append.mp hlater with hlater | hlater
  · exact hsince later hlater
  · rw [List.mem_singleton.mp hlater]
    exact hkeep

/-- What is stored last was put by the last event, or stored last before it and left alone. -/
theorem StoredLast.cases (h : StoredLast (evs ++ [ev]) key e) :
    (∃ ttl, ev.operation = .put key e.value ttl ∧
      e.expiresAt = ev.now + ttl.nanos) ∨
    ¬ ev.operation.Replaces key ∧ StoredLast evs key e := by
  obtain ⟨before, since, ttl, now, hsplit, hexpiry, hsince⟩ := h
  rcases List.eq_nil_or_concat since with rfl | ⟨since, last, rfl⟩
  · obtain ⟨-, rfl⟩ := List.append_singleton_inj.mp hsplit
    exact .inl ⟨ttl, rfl, hexpiry⟩
  · rw [List.concat_eq_append, ← List.cons_append, ← List.append_assoc] at hsplit
    obtain ⟨rfl, rfl⟩ := List.append_singleton_inj.mp hsplit
    refine .inr ⟨hsince ev (by simp), before, since, ttl, now, rfl, hexpiry, ?_⟩
    intro later hlater
    exact hsince later (by simp [hlater])

/-! ## 2. What every history keeps -/

theorem WellKept.replay (h : c.WellKept) (evs : List Event) : (replay c evs).WellKept := by
  induction evs using List.reverseRecOn with
  | nil => exact h
  | append_singleton evs ev ih =>
    rw [replay_concat]
    exact Operation.wellKept_apply ih ev.operation ev.now

theorem capacity_replay (c : ResultCache) (evs : List Event) :
    (replay c evs).capacity = c.capacity := by
  induction evs using List.reverseRecOn with
  | nil => rfl
  | append_singleton evs ev ih =>
    rw [replay_concat]
    exact (Operation.capacity_apply ev.operation ev.now _).trans ih

/-- A cache stays usable as long as all that is put fits. -/
theorem broken_replay (h : c.broken = false) (hfits : ∀ ev ∈ evs, ev.operation.Fits ev.now) :
    (replay c evs).broken = false := by
  induction evs using List.reverseRecOn with
  | nil => exact h
  | append_singleton evs ev ih =>
    rw [replay_concat]
    exact Operation.broken_apply (ih fun ev' hev' => hfits ev' (by simp [hev'])) (hfits ev (by simp))

/-- **A cache that started empty holds only what is stored last.** -/
theorem storedLast_of_mem (hkept : c.WellKept) (hempty : c.contents = [])
    {x : String × Entry CachedResult} (hx : x ∈ (replay c evs).contents) :
    StoredLast evs x.1 x.2 := by
  induction evs using List.reverseRecOn with
  | nil =>
    have hnone : x ∈ c.contents := hx
    rw [hempty] at hnone
    cases hnone
  | append_singleton evs ev ih =>
    rw [replay_concat] at hx
    have hoffered := Operation.contents_apply_subset (hkept.replay evs) ev.operation ev.now hx
    by_cases hreplaces : ev.operation.Replaces x.1
    · obtain ⟨ttl, hop, hexpiry⟩ := Operation.eq_put_of_mem_offers hreplaces hoffered
      exact storedLast_put hop hexpiry
    · have hheld := (Operation.mem_offers_of_not_replaces hreplaces).mp hoffered
      exact (ih hheld).concat hreplaces

/-- **A cache holds all that is stored last and has been live since, less what was crowded out.** -/
theorem held_or_evicted (hkept : c.WellKept) (husable : (replay c evs).broken = false)
    (hstored : StoredLast evs key e) (hlive : ∀ ev ∈ evs, ev.now < e.expiresAt) :
    (key, e) ∈ (replay c evs).contents ∨ Evicted c evs (key, e) := by
  induction evs using List.reverseRecOn with
  | nil =>
    obtain ⟨before, since, ttl, now, hsplit, -, -⟩ := hstored
    simp at hsplit
  | append_singleton evs ev ih =>
    rw [replay_concat] at husable ⊢
    have hlast : ev.now < e.expiresAt := hlive ev (by simp)
    have hstep : (key, e) ∈ ev.operation.offers ev.now (replay c evs).contents →
        (key, e) ∈ (ev.apply (replay c evs)).contents ∨ Evicted c (evs ++ [ev]) (key, e) := by
      intro hoffered
      rcases Operation.mem_or_evicts (hkept.replay evs) husable hoffered hlast with hheld | hevicts
      · exact .inl hheld
      · exact .inr ⟨evs, ev, [], rfl, hevicts⟩
    rcases hstored.cases with ⟨ttl, hop, hexpiry⟩ | ⟨hkeep, hbefore⟩
    · refine hstep ?_
      rw [hop, Operation.offers, ← hexpiry]
      exact List.mem_cons_self
    · have husable := (Operation.usable_of_apply husable).1
      have hlive : ∀ ev' ∈ evs, ev'.now < e.expiresAt := fun ev' hev' => hlive ev' (by simp [hev'])
      rcases ih husable hbefore hlive with hheld | hgone
      · exact hstep ((Operation.mem_offers_of_not_replaces hkeep).mpr hheld)
      · exact .inr (hgone.concat ev)

/-! ## 3. The cache and its history -/

/-- **A cache answers as its history says.**  There are never more entries than there is room for;
what is served is live and stored last; what is stored last and live is served, unless a put had to
crowd it out; one further operation takes away nothing live but what it replaces or crowds out; and a
sweep takes away what is expired, and counts it. -/
theorem replay_agrees_with_history (settings : CacheSettings) (start : Instant) {evs : List Event}
    (hfits : ∀ ev ∈ evs, ev.operation.Fits ev.now) :
    let c := replay (new settings start) evs
    (c.capacity = max settings.maxEntries 1 ∧ c.size ≤ max settings.maxEntries 1) ∧
    (∀ key now value, (c.get key now).1 = some value →
      ∃ e, StoredLast evs key e ∧ e.value = value ∧ now < e.expiresAt) ∧
    (∀ key e now, StoredLast evs key e → (∀ ev ∈ evs, ev.now ≤ now) → now < e.expiresAt →
      (c.get key now).1 = some e.value ∨ Evicted (new settings start) evs (key, e)) ∧
    (∀ ev : Event, ev.operation.Fits ev.now → ∀ x ∈ c.contents, ev.now < x.2.expiresAt →
      ¬ ev.operation.Replaces x.1 → x ∉ (ev.apply c).contents → c.Evicts ev.operation ev.now x) ∧
    ∀ now, (∀ x, x ∈ (c.sweep now).2.contents ↔ x ∈ c.contents ∧ now < x.2.expiresAt) ∧
      (c.sweep now).1 = (c.contents.filter fun x => decide (x.2.expiresAt ≤ now)).length := by
  intro c
  have hnew : (new settings start).WellKept := wellKept_new settings start
  have hkept : c.WellKept := hnew.replay evs
  have hcapacity : c.capacity = max settings.maxEntries 1 := capacity_replay _ evs
  have husable : c.broken = false := broken_replay rfl hfits
  refine ⟨⟨hcapacity, ?_⟩, ?_, ?_, ?_, ?_⟩
  · rw [size_eq, contents_of_not_broken husable, ← hcapacity]
    exact hkept.size_le
  · intro key now value hget
    obtain ⟨e, hmem, hvalue, hlive⟩ := (read_eq_live_iff hkept.keyed).mp (get_fst_eq_some_iff.mp hget)
    exact ⟨e, storedLast_of_mem hnew rfl hmem, hvalue, hlive⟩
  · intro key e now hstored hlatest hlive
    have hlive' : ∀ ev ∈ evs, ev.now < e.expiresAt := fun ev hev => (hlatest ev hev).trans_lt hlive
    rcases held_or_evicted hnew husable hstored hlive' with hheld | hgone
    · exact .inl (get_fst_eq_some_iff.mpr ((read_eq_live_iff hkept.keyed).mpr ⟨e, hheld, rfl, hlive⟩))
    · exact .inr hgone
  · intro ev hev x hx hlive hkeep hgone
    have hoffered : x ∈ ev.operation.offers ev.now c.contents :=
      (Operation.mem_offers_of_not_replaces hkeep).mpr hx
    have husable' := Operation.broken_apply husable hev
    exact (Operation.mem_or_evicts hkept husable' hoffered hlive).resolve_left hgone
  · intro now
    refine ⟨fun x => ?_, sweep_fst c now⟩
    rw [contents_sweep, mem_liveAt]

/-- Three results for different times, the last of which expires first. -/
def threePuts : List Event :=
  [⟨.put "mid" ⟨[], 1⟩ ⟨20000000⟩, 0⟩, ⟨.put "long" ⟨[], 2⟩ (.ofSeconds 30), 1⟩,
    ⟨.put "short" ⟨[], 3⟩ ⟨5000000⟩, 2⟩]

/-- Of three results in a cache for two, the one that expires first is crowded out. -/
theorem short_of_three_evicted :
    (∀ ev ∈ threePuts, ev.operation.Fits ev.now) ∧
      (replay (new { maxEntries := 2 } 0) threePuts).size ≤ 2 ∧
      StoredLast threePuts "short" ⟨⟨[], 3⟩, 5000002⟩ ∧
      Evicted (new { maxEntries := 2 } 0) threePuts ("short", ⟨⟨[], 3⟩, 5000002⟩) := by
  have hfits : ∀ ev ∈ threePuts, ev.operation.Fits ev.now := by
    simp [threePuts, Operation.Fits, Instant.after?, Duration.ofSeconds, Instant.nanosPerSecond,
      Instant.lastSecond]
  have hstored : StoredLast threePuts "short" ⟨⟨[], 3⟩, 5000002⟩ :=
    ⟨threePuts.take 2, [], ⟨5000000⟩, 2, rfl, rfl, by simp⟩
  have hall := replay_agrees_with_history { maxEntries := 2 } 0 hfits
  have hlost : ((replay (new { maxEntries := 2 } 0) threePuts).get "short" 3).1.isNone = true := by
    cbv
  refine ⟨hfits, hall.1.2, hstored, (hall.2.2.1 "short" _ 3 hstored ?_ ?_).resolve_left ?_⟩
  · simp [threePuts]
  · simp
  · intro hserved
    simp [hserved] at hlost

end CodeAudit.ResultCache
