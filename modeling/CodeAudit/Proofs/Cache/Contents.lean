import CodeAudit.Cache.Result
import CodeAudit.Proofs.Order.Stable
import Mathlib.Data.List.Nodup
import Mathlib.Data.String.Basic

/-!
# What a cache holds

An operation on a cache *offers* a list of entries (`Operation.offers`): those that were there, less
what it overwrites or clears, and the one it puts in.  What the cache holds afterwards is never more
than that (`contents_apply_subset`), and **nothing live is missing from it, unless a put found more
live entries than there is room for** (`mem_or_evicts`).  Then it keeps as many as there is room for,
and each of them gives way later than each that goes (`Greatest`).

This is all that a step does to the contents of a cache, whoever takes it and whatever time it goes
by, so the laws of single users and of many at once both rest on it.
-/

namespace CodeAudit

namespace Store

variable {α : Type}

/-! ## 1. Entries of a store -/

/-- A key occurs once. -/
def Keyed (entries : List (String × Entry α)) : Prop := (entries.map Prod.fst).Nodup

theorem Keyed.sublist {xs ys : List (String × Entry α)} (h : Keyed ys) (hsub : xs.Sublist ys) :
    Keyed xs :=
  List.Nodup.sublist (hsub.map Prod.fst) h

theorem Keyed.filter {xs : List (String × Entry α)} (h : Keyed xs)
    (p : String × Entry α → Bool) : Keyed (xs.filter p) :=
  h.sublist List.filter_sublist

theorem mem_erase {s : Store α} {key : String} {x : String × Entry α} :
    x ∈ (s.erase key).entries ↔ x ∈ s.entries ∧ x.1 ≠ key := by
  simp [erase]

theorem keyed_insert {s : Store α} (h : Keyed s.entries) (key : String) (e : Entry α) :
    Keyed (s.insert key e).entries := by
  refine List.nodup_cons.mpr ⟨?_, h.filter _⟩
  intro hmem
  obtain ⟨x, hx, hkey⟩ := List.mem_map.mp hmem
  exact (mem_erase.mp hx).2 hkey

theorem mem_of_get? {s : Store α} {key : String} {e : Entry α} (h : s.get? key = some e) :
    (key, e) ∈ s.entries := by
  obtain ⟨⟨key', e'⟩, hfind, rfl⟩ := Option.map_eq_some_iff.mp h
  have hkey : key' = key := by simpa using List.find?_some hfind
  subst hkey
  exact List.mem_of_find?_eq_some hfind

/-- Looking up a key finds the entry that is under it. -/
theorem get?_eq_some_iff {s : Store α} (h : Keyed s.entries) {key : String} {e : Entry α} :
    s.get? key = some e ↔ (key, e) ∈ s.entries := by
  refine ⟨mem_of_get?, fun hmem => ?_⟩
  cases hfind : s.get? key with
  | none =>
    have hnone := List.find?_eq_none.mp (Option.map_eq_none_iff.mp hfind) _ hmem
    exact absurd (beq_self_eq_true key) hnone
  | some e' =>
    have hsame : (key, e') = (key, e) := List.inj_on_of_nodup_map h (mem_of_get? hfind) hmem rfl
    rw [(Prod.mk.inj hsame).2]

/-! ## 2. Giving way -/

/-- One entry gives way before another: it expires earlier, or at the same time and has the lesser
key. -/
def Precedes (a b : String × Entry α) : Prop :=
  a.2.expiresAt < b.2.expiresAt ∨ a.2.expiresAt = b.2.expiresAt ∧ a.1 < b.1

theorem givesWay_iff {a b : String × Entry α} :
    givesWay a b = true ↔
      a.2.expiresAt < b.2.expiresAt ∨ a.2.expiresAt = b.2.expiresAt ∧ a.1 ≤ b.1 := by
  unfold givesWay
  split_ifs with heq
  · simp [heq]
  · simp [heq]

/-- What entries give way by: first their expiry, then their key. -/
def rank (x : String × Entry α) : Nat ×ₗ String := toLex (x.2.expiresAt, x.1)

theorem rankedBy_rank : RankedBy givesWay (rank : String × Entry α → Nat ×ₗ String) := by
  intro a b
  rw [givesWay_iff, rank, rank, Prod.Lex.toLex_le_toLex]

theorem precedes_iff {a b : String × Entry α} : Precedes a b ↔ rank a < rank b := by
  rw [Precedes, rank, rank, Prod.Lex.toLex_lt_toLex]

/-- Of the entries found, the `n` that give way last are kept. -/
structure Greatest (n : Nat) (found kept : List (String × Entry α)) : Prop where
  keyed : Keyed kept
  subset : kept ⊆ found
  length : kept.length = n
  precedes : ∀ a ∈ found, a ∉ kept → ∀ b ∈ kept, Precedes a b

theorem shrink_of_le {s : Store α} {n : Nat} (h : s.size ≤ n) : s.shrink n = s := if_pos h

/-- **A store that is too large shrinks to its greatest entries.** -/
theorem greatest_shrink {s : Store α} {n : Nat} (h : Keyed s.entries) (hsize : n < s.size) :
    Greatest n s.entries (s.shrink n).entries := by
  have hperm : (s.entries.mergeSort givesWay).Perm s.entries := List.mergeSort_perm _ _
  have hlength : (s.entries.mergeSort givesWay).length = s.size := hperm.length_eq
  have hsorted := rankedBy_rank.pairwise_mergeSort s.entries
  unfold shrink
  rw [if_neg (Nat.not_le.mpr hsize)]
  generalize s.entries.mergeSort givesWay = sorted at hperm hlength hsorted
  generalize hexcess : s.size - n = excess
  have hkeyed : Keyed sorted := (hperm.map Prod.fst).nodup_iff.mpr h
  have hdrop : (sorted.drop excess).length = n := by
    rw [List.length_drop]
    omega
  refine ⟨hkeyed.sublist (List.drop_sublist _ _), ?_, hdrop, ?_⟩
  · intro x hx
    exact hperm.subset (List.mem_of_mem_drop hx)
  · intro a ha hgone b hb
    -- what is not among the last is among the first, and the first give way to the last
    have hfirst : a ∈ sorted.take excess := by
      have hsplit : a ∈ sorted.take excess ++ sorted.drop excess := by
        rw [List.take_append_drop]
        exact hperm.mem_iff.mpr ha
      exact (List.mem_append.mp hsplit).resolve_right hgone
    have hrank : rank a ≤ rank b := by
      rw [← List.take_append_drop excess sorted, List.pairwise_append] at hsorted
      exact hsorted.2.2 a hfirst b hb
    have hkey : a.1 ≠ b.1 := by
      intro heq
      have hsame : a = b := List.inj_on_of_nodup_map hkeyed (List.mem_of_mem_take hfirst)
        (List.mem_of_mem_drop hb) heq
      exact hgone (hsame ▸ hb)
    have hne : rank a ≠ rank b := fun heq => hkey (congrArg (fun r => (ofLex r).2) heq)
    exact precedes_iff.mpr (lt_of_le_of_ne hrank hne)

end Store

open Store

/-! ## 3. Operations -/

namespace ResultCache

/-- What is found in a cache; in one that a writer has left unusable there is nothing. -/
def contents (c : ResultCache) : List (String × Entry CachedResult) :=
  if c.broken then [] else c.store.entries

/-- The entries that are live at an instant. -/
def liveAt (now : Instant) (entries : List (String × Entry CachedResult)) :
    List (String × Entry CachedResult) :=
  entries.filter fun x => x.2.isLive now

theorem mem_liveAt {now : Instant} {entries : List (String × Entry CachedResult)}
    {x : String × Entry CachedResult} :
    x ∈ liveAt now entries ↔ x ∈ entries ∧ now < x.2.expiresAt := by
  simp [liveAt, Entry.isLive]

/-- What is asked of a cache. -/
inductive Operation where
  | put (key : String) (value : CachedResult) (ttl : Duration)
  | get (key : String)
  | sweep
  | clear

namespace Operation

/-- The cache after an operation at an instant. -/
def apply (o : Operation) (now : Instant) (c : ResultCache) : ResultCache :=
  match o with
  | put key value ttl => (c.put key value ttl now).2
  | get key => (c.get key now).2
  | sweep => (c.sweep now).2
  | clear => c.clear

/-- What there is to be held after an operation, if nothing expires and there is room for all. -/
def offers (o : Operation) (now : Instant) (held : List (String × Entry CachedResult)) :
    List (String × Entry CachedResult) :=
  match o with
  | put key value ttl =>
    (key, ⟨value, now + ttl.nanos⟩) :: held.filter fun x => x.1 != key
  | get _ | sweep => held
  | clear => []

/-- Whether an operation does away with what was under a key before. -/
def Replaces (o : Operation) (key : String) : Prop := o = clear ∨ ∃ value ttl, o = put key value ttl

/-- Whether the expiry of what is put lies in the range of the clock. -/
def Fits (o : Operation) (now : Instant) : Prop :=
  ∀ key value ttl, o = put key value ttl → (Instant.after? now ttl).isSome

end Operation

/-- A put finds more live entries than there is room for, and one that is live has to go. -/
structure Evicts (c : ResultCache) (o : Operation) (now : Instant) (x : String × Entry CachedResult) :
    Prop where
  put : ∃ key value ttl, o = .put key value ttl
  found : x ∈ liveAt now (o.offers now c.contents)
  crowded : c.capacity < (liveAt now (o.offers now c.contents)).length
  kept : Greatest c.capacity (liveAt now (o.offers now c.contents)) (o.apply now c).contents
  gone : x ∉ (o.apply now c).contents

variable {c : ResultCache} {o : Operation} {now : Instant} {key : String}

theorem contents_of_broken (h : c.broken = true) : c.contents = [] := if_pos h

theorem contents_of_not_broken (h : c.broken = false) : c.contents = c.store.entries := by
  rw [contents, h]
  rfl

theorem size_eq : c.size = c.contents.length := by
  unfold size contents
  split <;> rfl

/-! ## 4. Looking up -/

/-- A look-up leaves the cache as its removing part does. -/
theorem get_snd (c : ResultCache) (key : String) (now : Instant) :
    (c.get key now).2 = c.discard key now := by
  unfold get read discard
  cases hbroken : c.broken with
  | true => simp
  | false =>
    cases hget : c.store.get? key with
    | none => simp
    | some e => cases hlive : e.isLive now <;> simp [hlive]

/-- **The removing part of a look-up takes out the entry under its key if that is expired, and no
other.** -/
theorem mem_contents_discard (h : Keyed c.store.entries) {x : String × Entry CachedResult} :
    x ∈ (c.discard key now).contents ↔
      x ∈ c.contents ∧ ¬ (x.1 = key ∧ x.2.expiresAt ≤ now) := by
  cases hbroken : c.broken with
  | true => simp [discard, hbroken, contents]
  | false =>
    rw [contents_of_not_broken hbroken]
    cases hget : c.store.get? key with
    | none =>
      have hsame : c.discard key now = c := by simp [discard, hbroken, hget]
      rw [hsame, contents_of_not_broken hbroken]
      refine ⟨fun hx => ⟨hx, ?_⟩, fun hx => hx.1⟩
      rintro ⟨rfl, -⟩
      have hfound : c.store.get? x.1 = some x.2 := (get?_eq_some_iff h).mpr hx
      rw [hget] at hfound
      cases hfound
    | some e =>
      have hunder : ∀ x ∈ c.store.entries, x.1 = key → x.2 = e := by
        rintro ⟨key', e'⟩ hx rfl
        exact Option.some.inj (((get?_eq_some_iff h).mpr hx).symm.trans hget)
      by_cases hlive : now < e.expiresAt
      · have hsame : c.discard key now = c := by
          simp [discard, hbroken, hget, Entry.isLive, hlive]
        rw [hsame, contents_of_not_broken hbroken]
        refine ⟨fun hx => ⟨hx, ?_⟩, fun hx => hx.1⟩
        rintro ⟨hkey, hexpired⟩
        rw [hunder x hx hkey] at hexpired
        exact Nat.not_le.mpr hlive hexpired
      · have hgone : c.discard key now = { c with store := c.store.erase key } := by
          simp [discard, hbroken, hget, Entry.isLive, hlive]
        have hleft : (c.discard key now).contents = (c.store.erase key).entries := by
          rw [hgone, contents, hbroken]
          rfl
        rw [hleft, mem_erase]
        refine and_congr_right fun hx => not_congr ⟨fun hkey => ⟨hkey, ?_⟩, fun hx => hx.1⟩
        rw [hunder x hx hkey]
        exact Nat.not_lt.mp hlive

/-- **A look-up finds what is live under its key, and nothing else.** -/
theorem read_eq_live_iff (h : Keyed c.store.entries) {value : CachedResult} :
    c.read key now = .live value ↔
      ∃ e, (key, e) ∈ c.contents ∧ e.value = value ∧ now < e.expiresAt := by
  cases hbroken : c.broken with
  | true => simp [read, hbroken, contents]
  | false =>
    rw [contents_of_not_broken hbroken]
    simp only [← get?_eq_some_iff h, read, hbroken, Bool.false_eq_true, if_false]
    cases hget : c.store.get? key with
    | none => simp
    | some e => by_cases hlive : now < e.expiresAt <;> simp [Entry.isLive, hlive]

theorem get_fst_eq_some_iff {value : CachedResult} :
    (c.get key now).1 = some value ↔ c.read key now = .live value := by
  unfold get
  cases c.read key now <;> simp

/-! ## 5. Sweeping and putting -/

theorem entries_sweep (s : Store CachedResult) (now : Instant) :
    (s.sweep now).entries = liveAt now s.entries := rfl

theorem contents_sweep (c : ResultCache) (now : Instant) :
    (c.sweep now).2.contents = liveAt now c.contents := by
  cases hbroken : c.broken with
  | true => simp [sweep, contents, liveAt, hbroken]
  | false =>
    rw [contents_of_not_broken hbroken]
    simp [sweep, sweepAt, contents, hbroken, entries_sweep]

/-- What is swept away is counted. -/
theorem sweep_fst (c : ResultCache) (now : Instant) :
    (c.sweep now).1 = (c.contents.filter fun x => decide (x.2.expiresAt ≤ now)).length := by
  have hexpired : ∀ x : String × Entry CachedResult,
      (!x.2.isLive now) = decide (x.2.expiresAt ≤ now) := by
    intro x
    rw [Entry.isLive, ← decide_not]
    exact decide_eq_decide.mpr Nat.not_lt
  simp only [← hexpired]
  cases hbroken : c.broken with
  | true => simp [sweep, contents, hbroken]
  | false =>
    have hsplit := List.length_eq_length_filter_add (l := c.store.entries) fun x => x.2.isLive now
    rw [contents_of_not_broken hbroken]
    simp only [sweep, hbroken, Bool.false_eq_true, if_false, Store.size, Store.sweep]
    omega

theorem contents_clear (c : ResultCache) : c.clear.contents = [] := by
  cases hbroken : c.broken <;> simp [clear, contents, hbroken]

/-- A sweep that is due leaves all that is live. -/
theorem sweepIfDue_cases (c : ResultCache) (now : Instant) :
    (c.sweepIfDue now).store = c.store ∨ (c.sweepIfDue now).store = c.store.sweep now := by
  unfold sweepIfDue
  split
  · exact .inr rfl
  · exact .inl rfl

theorem liveAt_insert_sweepIfDue (c : ResultCache) (key : String) (e : Entry CachedResult)
    (now : Instant) :
    liveAt now ((c.sweepIfDue now).store.insert key e).entries =
      liveAt now (c.store.insert key e).entries := by
  rcases sweepIfDue_cases c now with heq | heq
  · rw [heq]
  · rw [heq]
    have htwice : ∀ x : String × Entry CachedResult,
        (x.2.isLive now && (x.1 != key && x.2.isLive now)) = (x.2.isLive now && x.1 != key) := by
      intro x
      cases x.2.isLive now <;> simp
    simp only [Store.insert, Store.erase, Store.sweep, liveAt, List.filter_cons, List.filter_filter,
      htwice]

theorem makeRoom_of_le (h : c.store.size ≤ c.capacity) : c.makeRoom now = c :=
  if_neg (Nat.not_lt.mpr h)

theorem store_makeRoom_of_lt (h : c.capacity < c.store.size) :
    (c.makeRoom now).store = (c.store.sweep now).shrink c.capacity := by
  unfold makeRoom
  rw [if_pos h]
  rfl

-- The expiry is a sum of large numbers: it is rewritten here and nowhere computed.

theorem put_of_broken {value : CachedResult} {ttl : Duration} (h : c.broken = true) :
    c.put key value ttl now = (true, c) := by
  unfold put
  rw [if_pos h]

theorem put_of_none {value : CachedResult} {ttl : Duration} (h : c.broken = false)
    (hexpiry : Instant.after? now ttl = none) :
    c.put key value ttl now = (false, { c.sweepIfDue now with broken := true }) := by
  simp only [put, h, hexpiry, Bool.false_eq_true, if_false]

theorem put_of_some {value : CachedResult} {ttl : Duration} {expiresAt : Instant} (h : c.broken = false)
    (hexpiry : Instant.after? now ttl = some expiresAt) :
    c.put key value ttl now = (true, { c.sweepIfDue now with
      store := (c.sweepIfDue now).store.insert key ⟨value, expiresAt⟩ }.makeRoom now) := by
  simp only [put, h, hexpiry, Bool.false_eq_true, if_false]

theorem capacity_sweepIfDue (c : ResultCache) (now : Instant) :
    (c.sweepIfDue now).capacity = c.capacity := by
  unfold sweepIfDue
  split <;> rfl

theorem broken_sweepIfDue (c : ResultCache) (now : Instant) :
    (c.sweepIfDue now).broken = c.broken := by
  unfold sweepIfDue
  split <;> rfl

theorem capacity_makeRoom (c : ResultCache) (now : Instant) :
    (c.makeRoom now).capacity = c.capacity := by
  unfold makeRoom
  split <;> rfl

theorem broken_makeRoom (c : ResultCache) (now : Instant) : (c.makeRoom now).broken = c.broken := by
  unfold makeRoom
  split <;> rfl

/-- What room is made for: all that is there, or what is live of it, or the greatest of that. -/
theorem store_makeRoom_cases (c : ResultCache) (now : Instant) :
    (c.makeRoom now).store = c.store ∧ c.store.size ≤ c.capacity ∨
    (c.makeRoom now).store = c.store.sweep now ∧ (c.store.sweep now).size ≤ c.capacity ∨
    c.capacity < (c.store.sweep now).size ∧
      (c.makeRoom now).store = (c.store.sweep now).shrink c.capacity := by
  by_cases hroom : c.store.size ≤ c.capacity
  · left
    rw [makeRoom_of_le hroom]
    exact ⟨rfl, hroom⟩
  · right
    rw [store_makeRoom_of_lt (Nat.not_le.mp hroom)]
    by_cases hswept : (c.store.sweep now).size ≤ c.capacity
    · left
      rw [shrink_of_le hswept]
      exact ⟨rfl, hswept⟩
    · right
      exact ⟨Nat.not_le.mp hswept, rfl⟩

/-- Making room leaves all that is live, or the greatest of it. -/
theorem entries_makeRoom (h : Keyed c.store.entries) :
    (c.makeRoom now).store.entries ⊆ c.store.entries ∧
      (liveAt now c.store.entries ⊆ (c.makeRoom now).store.entries ∨
        c.capacity < (liveAt now c.store.entries).length ∧
          Greatest c.capacity (liveAt now c.store.entries) (c.makeRoom now).store.entries) := by
  have hall : liveAt now c.store.entries ⊆ c.store.entries := List.filter_sublist.subset
  rcases store_makeRoom_cases c now with ⟨hstore, -⟩ | ⟨hstore, -⟩ | ⟨hsize, hstore⟩
  · rw [hstore]
    exact ⟨List.Subset.refl _, .inl hall⟩
  · rw [hstore]
    exact ⟨hall, .inl (List.Subset.refl _)⟩
  · have hgreatest := greatest_shrink (h.filter fun x => x.2.isLive now) hsize
    rw [hstore]
    exact ⟨fun x hx => hall (hgreatest.subset hx), .inr ⟨hsize, hgreatest⟩⟩

theorem entries_insert_makeRoom (h : Keyed c.store.entries) (key : String) (e : Entry CachedResult)
    (now : Instant) :
    ({ c with store := c.store.insert key e }.makeRoom now).store.entries ⊆
        (c.store.insert key e).entries ∧
      (liveAt now (c.store.insert key e).entries ⊆
          ({ c with store := c.store.insert key e }.makeRoom now).store.entries ∨
        c.capacity < (liveAt now (c.store.insert key e).entries).length ∧
          Greatest c.capacity (liveAt now (c.store.insert key e).entries)
            ({ c with store := c.store.insert key e }.makeRoom now).store.entries) :=
  entries_makeRoom (keyed_insert h key e)

/-! ## 6. What every operation keeps -/

/-- A key occurs once, and there are no more entries than there is room for. -/
structure WellKept (c : ResultCache) : Prop where
  keyed : Keyed c.store.entries
  size_le : c.store.size ≤ c.capacity

theorem wellKept_new (settings : CacheSettings) (start : Instant) : (new settings start).WellKept :=
  ⟨List.nodup_nil, Nat.zero_le _⟩

/-- Fewer entries are as well kept. -/
theorem WellKept.of_sublist {c' : ResultCache} (h : c.WellKept) (hcapacity : c'.capacity = c.capacity)
    (hsub : c'.store.entries.Sublist c.store.entries) : c'.WellKept := by
  refine ⟨h.keyed.sublist hsub, ?_⟩
  rw [hcapacity]
  exact hsub.length_le.trans h.size_le

theorem WellKept.discard (h : c.WellKept) : (c.discard key now).WellKept := by
  unfold ResultCache.discard
  split
  · exact h
  · split
    · exact h
    · split
      · exact h
      · exact h.of_sublist rfl List.filter_sublist

theorem WellKept.sweepIfDue (h : c.WellKept) : (c.sweepIfDue now).WellKept := by
  unfold ResultCache.sweepIfDue
  split
  · exact h.of_sublist rfl List.filter_sublist
  · exact h

theorem wellKept_makeRoom (h : Keyed c.store.entries) : (c.makeRoom now).WellKept := by
  have hswept : Keyed (c.store.sweep now).entries := h.filter _
  rcases store_makeRoom_cases c now with ⟨hstore, hsize⟩ | ⟨hstore, hsize⟩ | ⟨hsize, hstore⟩
  · refine ⟨?_, ?_⟩ <;> rw [hstore]
    · exact h
    · rwa [capacity_makeRoom]
  · refine ⟨?_, ?_⟩ <;> rw [hstore]
    · exact hswept
    · rwa [capacity_makeRoom]
  · refine ⟨?_, ?_⟩ <;> rw [hstore]
    · exact (greatest_shrink hswept hsize).keyed
    · rw [capacity_makeRoom]
      exact size_shrink_le _ _

theorem WellKept.halt (h : c.WellKept) : WellKept { c with broken := true } :=
  ⟨h.keyed, h.size_le⟩

theorem WellKept.insert_makeRoom (h : c.WellKept) (key : String) (e : Entry CachedResult)
    (now : Instant) : ({ c with store := c.store.insert key e }.makeRoom now).WellKept :=
  wellKept_makeRoom (keyed_insert h.keyed key e)

theorem WellKept.put {value : CachedResult} {ttl : Duration} (h : c.WellKept) :
    (c.put key value ttl now).2.WellKept := by
  have hswept : (c.sweepIfDue now).WellKept := h.sweepIfDue
  cases hbroken : c.broken with
  | true =>
    rw [put_of_broken hbroken]
    exact h
  | false =>
    cases hexpiry : Instant.after? now ttl with
    | none =>
      rw [put_of_none hbroken hexpiry]
      exact hswept.halt
    | some expiresAt =>
      rw [put_of_some hbroken hexpiry]
      exact hswept.insert_makeRoom key _ now

theorem capacity_insert_makeRoom (c : ResultCache) (key : String) (e : Entry CachedResult)
    (now : Instant) :
    ({ c with store := c.store.insert key e }.makeRoom now).capacity = c.capacity :=
  capacity_makeRoom _ now

theorem broken_insert_makeRoom (c : ResultCache) (key : String) (e : Entry CachedResult)
    (now : Instant) : ({ c with store := c.store.insert key e }.makeRoom now).broken = c.broken :=
  broken_makeRoom _ now

theorem capacity_halt (c : ResultCache) : ({ c with broken := true } : ResultCache).capacity = c.capacity :=
  rfl

theorem capacity_put {value : CachedResult} {ttl : Duration} :
    (c.put key value ttl now).2.capacity = c.capacity := by
  have hswept := capacity_sweepIfDue c now
  cases hbroken : c.broken with
  | true => rw [put_of_broken hbroken]
  | false =>
    cases hexpiry : Instant.after? now ttl with
    | none =>
      rw [put_of_none hbroken hexpiry]
      exact (capacity_halt _).trans hswept
    | some expiresAt =>
      rw [put_of_some hbroken hexpiry]
      exact (capacity_insert_makeRoom _ key _ now).trans hswept

theorem capacity_discard : (c.discard key now).capacity = c.capacity := by
  unfold discard
  repeat' split
  all_goals rfl

theorem broken_discard : (c.discard key now).broken = c.broken := by
  unfold discard
  repeat' split
  all_goals rfl

namespace Operation

/-- **Every operation keeps a cache well.** -/
theorem wellKept_apply (h : c.WellKept) (o : Operation) (now : Instant) : (o.apply now c).WellKept := by
  cases o with
  | put key value ttl => exact h.put
  | get key =>
    rw [apply, get_snd]
    exact h.discard
  | sweep =>
    change (c.sweep now).2.WellKept
    unfold ResultCache.sweep
    split
    · exact h
    · exact h.of_sublist rfl List.filter_sublist
  | clear =>
    change c.clear.WellKept
    unfold ResultCache.clear
    split
    · exact h
    · exact h.of_sublist rfl (List.nil_sublist _)

theorem capacity_apply (o : Operation) (now : Instant) (c : ResultCache) :
    (o.apply now c).capacity = c.capacity := by
  cases o with
  | put key value ttl => exact capacity_put
  | get key =>
    rw [apply, get_snd]
    exact capacity_discard
  | sweep =>
    change (c.sweep now).2.capacity = _
    unfold ResultCache.sweep
    split <;> rfl
  | clear =>
    change c.clear.capacity = _
    unfold ResultCache.clear
    split <;> rfl

/-- An operation leaves a cache usable, unless it puts something whose expiry cannot be written
down. -/
theorem broken_apply (h : c.broken = false) (hfits : o.Fits now) : (o.apply now c).broken = false := by
  cases o with
  | put key value ttl =>
    obtain ⟨expiresAt, hexpiry⟩ := Option.isSome_iff_exists.mp (hfits key value ttl rfl)
    have hswept := (broken_sweepIfDue c now).trans h
    rw [apply, put_of_some h hexpiry]
    exact (broken_insert_makeRoom _ key _ now).trans hswept
  | get key =>
    rw [apply, get_snd]
    exact broken_discard.trans h
  | sweep => simp [apply, ResultCache.sweep, sweepAt, h]
  | clear => simp [apply, ResultCache.clear, h]

/-- A cache that is usable after an operation was so before, and what was put fits. -/
theorem usable_of_apply (h : (o.apply now c).broken = false) : c.broken = false ∧ o.Fits now := by
  cases hbroken : c.broken with
  | true =>
    cases o with
    | put key value ttl => simp [apply, put_of_broken hbroken, hbroken] at h
    | get key =>
      rw [apply, get_snd, broken_discard, hbroken] at h
      cases h
    | sweep => simp [apply, ResultCache.sweep, hbroken] at h
    | clear => simp [apply, ResultCache.clear, hbroken] at h
  | false =>
    refine ⟨rfl, ?_⟩
    rintro key value ttl rfl
    cases hexpiry : Instant.after? now ttl with
    | none =>
      rw [apply, put_of_none hbroken hexpiry] at h
      cases h
    | some expiresAt => rfl

/-! ## 7. What a put does -/

/-- A put that fits offers the entry that it inserts. -/
theorem offers_put {value : CachedResult} {ttl : Duration} {expiresAt : Instant}
    (hbroken : c.broken = false) (hexpiry : Instant.after? now ttl = some expiresAt) :
    (put key value ttl).offers now c.contents = (c.store.insert key ⟨value, expiresAt⟩).entries := by
  rw [contents_of_not_broken hbroken, Instant.eq_of_after?_eq_some hexpiry]
  rfl

/-- **What a put leaves**: all that it offers, less some that is expired; or the greatest of what is
live, if there is too much of it. -/
theorem contents_put (h : c.WellKept) {value : CachedResult} {ttl : Duration} (hbroken : c.broken = false)
    (hfits : (put key value ttl).Fits now) {offered : List (String × Entry CachedResult)}
    (hoffered : (put key value ttl).offers now c.contents = offered) :
    ((put key value ttl).apply now c).contents ⊆ offered ∧
      (liveAt now offered ⊆ ((put key value ttl).apply now c).contents ∨
        c.capacity < (liveAt now offered).length ∧
          Greatest c.capacity (liveAt now offered) ((put key value ttl).apply now c).contents) := by
  obtain ⟨expiresAt, hexpiry⟩ := Option.isSome_iff_exists.mp (hfits key value ttl rfl)
  rw [offers_put hbroken hexpiry] at hoffered
  subst hoffered
  have hswept : (c.sweepIfDue now).WellKept := h.sweepIfDue
  have hsub : ((c.sweepIfDue now).store.insert key ⟨value, expiresAt⟩).entries ⊆
      (c.store.insert key ⟨value, expiresAt⟩).entries := by
    rcases sweepIfDue_cases c now with heq | heq
    · rw [heq]
      exact List.Subset.refl _
    · rw [heq]
      exact ((List.filter_sublist.filter _).cons_cons _).subset
  obtain ⟨hheld, hrest⟩ := entries_insert_makeRoom hswept.keyed key ⟨value, expiresAt⟩ now
  rw [liveAt_insert_sweepIfDue] at hrest
  rw [contents_of_not_broken (broken_apply hbroken hfits), ← capacity_sweepIfDue c now, apply,
    put_of_some hbroken hexpiry]
  exact ⟨fun x hx => hsub (hheld hx), hrest⟩

/-! ## 8. What any operation does -/

/-- **Nothing is held that was not offered.** -/
theorem contents_apply_subset (h : c.WellKept) (o : Operation) (now : Instant) :
    (o.apply now c).contents ⊆ o.offers now c.contents := by
  cases o with
  | put key value ttl =>
    cases husable : ((put key value ttl).apply now c).broken with
    | true =>
      rw [contents_of_broken husable]
      exact List.nil_subset _
    | false =>
      obtain ⟨hbroken, hfits⟩ := usable_of_apply husable
      exact (contents_put h hbroken hfits rfl).1
  | get key =>
    intro x hx
    rw [apply, get_snd] at hx
    exact ((mem_contents_discard h.keyed).mp hx).1
  | sweep =>
    rw [apply, contents_sweep]
    exact List.filter_sublist.subset
  | clear =>
    rw [apply, contents_clear]
    exact List.nil_subset _

/-- **What is offered and live is held, or has to give way to what is greater.** -/
theorem mem_or_evicts (h : c.WellKept) (husable : (o.apply now c).broken = false)
    {x : String × Entry CachedResult} (hx : x ∈ o.offers now c.contents)
    (hlive : now < x.2.expiresAt) : x ∈ (o.apply now c).contents ∨ c.Evicts o now x := by
  have hfound : x ∈ liveAt now (o.offers now c.contents) := mem_liveAt.mpr ⟨hx, hlive⟩
  by_cases hheld : x ∈ (o.apply now c).contents
  · exact .inl hheld
  cases o with
  | put key value ttl =>
    obtain ⟨hbroken, hfits⟩ := usable_of_apply husable
    rcases (contents_put h hbroken hfits rfl).2 with hall | ⟨hcrowded, hgreatest⟩
    · exact .inl (hall hfound)
    · exact .inr ⟨⟨key, value, ttl, rfl⟩, hfound, hcrowded, hgreatest, hheld⟩
  | get key =>
    refine .inl ?_
    rw [apply, get_snd]
    exact (mem_contents_discard h.keyed).mpr ⟨hx, fun hexpired => Nat.not_le.mpr hlive hexpired.2⟩
  | sweep =>
    refine .inl ?_
    rw [apply, contents_sweep]
    exact hfound
  | clear => cases hx

/-- What an operation offers under a key was there before, unless the operation replaces it. -/
theorem mem_offers_of_not_replaces {held : List (String × Entry CachedResult)}
    {x : String × Entry CachedResult} (h : ¬ o.Replaces x.1) : x ∈ o.offers now held ↔ x ∈ held := by
  cases o with
  | put key value ttl =>
    have hkey : x.1 ≠ key := fun heq => h (.inr ⟨value, ttl, heq ▸ rfl⟩)
    have hother : x ≠ (key, ⟨value, now + ttl.nanos⟩) :=
      fun heq => hkey (congrArg Prod.fst heq)
    simp [offers, hkey, hother]
  | get key => exact Iff.rfl
  | sweep => exact Iff.rfl
  | clear => exact absurd (.inl rfl) h

/-- What an operation offers in place of what it replaces is what it puts. -/
theorem eq_put_of_mem_offers {held : List (String × Entry CachedResult)}
    {x : String × Entry CachedResult} (h : o.Replaces x.1) (hx : x ∈ o.offers now held) :
    ∃ ttl, o = put x.1 x.2.value ttl ∧ x.2.expiresAt = now + ttl.nanos := by
  rcases h with rfl | ⟨value, ttl, rfl⟩
  · cases hx
  · rcases List.mem_cons.mp hx with hnew | hold
    · rw [hnew]
      exact ⟨ttl, rfl, rfl⟩
    · simp at hold

end Operation

end ResultCache

end CodeAudit
