import CodeAudit.Cache.Store
import CodeAudit.Digest
import CodeAudit.Finding.Basic
import CodeAudit.Settings.Basic

/-!
# The cache of results

Results are kept under a digest of what determines them, until they expire or the cache is full.
A look-up has two parts: reading, and, if the entry turned out to be expired, removing it.  They
are separate operations (`read`, `discard`), because other users of the cache may come in between.

**A writer that fails halfway leaves the cache unusable**: from then on it serves nothing, stores
nothing and counts as empty.  The only way to fail is an expiry beyond the range of the clock.
-/

namespace CodeAudit

/-- What is kept of an analysis. -/
structure CachedResult where
  findings : List Finding
  nodes : Nat
  deriving Inhabited

structure ResultCache where
  store : Store CachedResult := {}
  lastSweep : Instant
  sweepIntervalSecs : Nat
  /-- The greatest number of entries, at least one. -/
  capacity : Nat
  /-- Whether a writer failed halfway. -/
  broken : Bool := false
  deriving Inhabited

namespace ResultCache

/-- The bytes that determine a result: source, language and selectors, told apart by zeros. -/
def keyBytes (source language selectors : String) : List UInt8 :=
  source.toUTF8.toList ++ 0 :: (language.toUTF8.toList ++ 0 :: selectors.toUTF8.toList)

/-- The key of a result. -/
def key (source language selectors : String) : String := Digest.hex (keyBytes source language selectors)

/-- An empty cache. -/
def new (c : CacheSettings) (now : Instant) : ResultCache where
  lastSweep := now
  sweepIntervalSecs := c.sweepIntervalSecs
  capacity := max c.maxEntries 1

/-- Number of entries, expired ones included. -/
def size (c : ResultCache) : Nat := if c.broken then 0 else c.store.size

def isEmpty (c : ResultCache) : Bool := c.size == 0

/-! ## 1. Look-up -/

/-- The reading part of a look-up at an instant. -/
def read (c : ResultCache) (key : String) (now : Instant) : Lookup CachedResult :=
  if c.broken then .absent
  else
    match c.store.get? key with
    | none => .absent
    | some e => if e.isLive now then .live e.value else .expired

/-- The removing part of a look-up: takes an entry out only if it was expired at `now`. -/
def discard (c : ResultCache) (key : String) (now : Instant) : ResultCache :=
  if c.broken then c
  else
    match c.store.get? key with
    | none => c
    | some e => if e.isLive now then c else { c with store := c.store.erase key }

/-- The live result under a key, and the cache afterwards. -/
def get (c : ResultCache) (key : String) (now : Instant) : Option CachedResult × ResultCache :=
  match c.read key now with
  | .absent => (none, c)
  | .live value => (some value, c)
  | .expired => (none, c.discard key now)

/-! ## 2. Writing -/

/-- Removes all expired entries. -/
def sweepAt (c : ResultCache) (now : Instant) : ResultCache :=
  { c with store := c.store.sweep now, lastSweep := now }

/-- Removes all expired entries and counts them. -/
def sweep (c : ResultCache) (now : Instant) : Nat × ResultCache :=
  if c.broken then (0, c) else (c.store.size - (c.store.sweep now).size, c.sweepAt now)

def clear (c : ResultCache) : ResultCache := if c.broken then c else { c with store := {} }

/-- Sweeps if the last sweep is long enough ago. -/
def sweepIfDue (c : ResultCache) (now : Instant) : ResultCache :=
  if Instant.hasPassed c.lastSweep now c.sweepIntervalSecs then c.sweepAt now else c

/-- Makes room if there are too many entries: expired ones go first, then those that give way. -/
def makeRoom (c : ResultCache) (now : Instant) : ResultCache :=
  if c.capacity < c.store.size then
    let swept := c.sweepAt now
    { swept with store := swept.store.shrink c.capacity }
  else c

/-- The cache after a result was stored for some time, and whether that went well. -/
def put (c : ResultCache) (key : String) (value : CachedResult) (ttl : Duration) (now : Instant) :
    Bool × ResultCache :=
  if c.broken then (true, c)
  else
    let swept := c.sweepIfDue now
    match Instant.after? now ttl with
    | none => (false, { swept with broken := true })
    | some expiresAt =>
      (true, { swept with store := swept.store.insert key ⟨value, expiresAt⟩ }.makeRoom now)

end ResultCache

end CodeAudit
