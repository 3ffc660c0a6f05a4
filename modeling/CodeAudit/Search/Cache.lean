import CodeAudit.Cache.Store
import CodeAudit.Digest
import CodeAudit.Search.Basic

/-!
# The cache of searches

Searches of a whole project are kept for a while under a digest of query and root.  **Hits are
stored before any file is left out**, so findings of different files share them.  A lifetime of zero
keeps nothing.  As with results, a look-up reads first and removes an expired entry afterwards
(`read`, `discard`), and a writer that fails halfway leaves the cache unusable: searches then run
uncached.
-/

namespace CodeAudit

/-- Why a search has no answer. -/
inductive SearchError where
  /-- The root cannot be read. -/
  | root (cause : FileError)
  /-- The expiry lies beyond the range of the clock. -/
  | clockOverflow
  deriving DecidableEq, Repr

structure SearchCache where
  store : Store (List Hit) := {}
  ttlSecs : Nat
  /-- Whether a writer failed halfway. -/
  broken : Bool := false
  deriving Inhabited

namespace SearchCache

/-- Above this number of entries, expired ones are removed. -/
def maxEntries : Nat := 1000

def new (ttlSecs : Nat) : SearchCache := { ttlSecs }

/-- Number of entries, expired ones included. -/
def size (c : SearchCache) : Nat := if c.broken then 0 else c.store.size

/-- The bytes that determine a search: its query and its root, told apart by a zero. -/
def keyBytes (q : Query) (root : Path) : List UInt8 :=
  q.text.toUTF8.toList ++ 0 :: root.spelled.toUTF8.toList

/-- What a search is kept under. -/
def key (q : Query) (root : Path) : String := Digest.hex (keyBytes q root)

/-- The reading part of a look-up at an instant. -/
def read (c : SearchCache) (key : String) (now : Instant) : Lookup (List Hit) :=
  if c.broken then .absent
  else
    match c.store.get? key with
    | none => .absent
    | some e => if e.isLive now then .live e.value else .expired

/-- The removing part of a look-up: takes an entry out only if it was expired at `now`. -/
def discard (c : SearchCache) (key : String) (now : Instant) : SearchCache :=
  if c.broken then c
  else
    match c.store.get? key with
    | none => c
    | some e => if e.isLive now then c else { c with store := c.store.erase key }

/-- The live hits under a key, and the cache afterwards. -/
def get (c : SearchCache) (key : String) (now : Instant) : Option (List Hit) × SearchCache :=
  match c.read key now with
  | .absent => (none, c)
  | .live hits => (some hits, c)
  | .expired => (none, c.discard key now)

/-- The cache after hits were stored, and whether that went well. -/
def put (c : SearchCache) (key : String) (hits : List Hit) (now : Instant) : Bool × SearchCache :=
  if c.ttlSecs = 0 ∨ c.broken then (true, c)
  else
    match Instant.after? now c.ttlSecs with
    | none => (false, { c with broken := true })
    | some expiresAt =>
      let store := c.store.insert key ⟨hits, expiresAt⟩
      (true, { c with store := if maxEntries < store.size then store.sweep now else store })

/-- All hits under a root, from the cache if it has them. -/
def scan (c : SearchCache) (d : Disk) (filter : PathFilter) (root : Path) (q : Query) (now : Instant) :
    Except SearchError (List Hit) × SearchCache :=
  let root := d.canonical root
  match c.get (key q root) now with
  | (some hits, c) => (.ok hits, c)
  | (none, c) =>
    match CodeAudit.scan d filter root q with
    | .error cause => (.error (.root cause), c)
    | .ok hits =>
      match c.put (key q root) hits now with
      | (true, c) => (.ok hits, c)
      | (false, c) => (.error .clockOverflow, c)

/-- All hits under a root outside a file, from the cache if it has them. -/
def search (c : SearchCache) (d : Disk) (filter : PathFilter) (root : Path) (q : Query)
    (skip : Option Path) (now : Instant) : Except SearchError (List Hit) × SearchCache :=
  let (answer, c) := c.scan d filter root q now
  (answer.map (CodeAudit.without d skip), c)

end SearchCache

end CodeAudit
