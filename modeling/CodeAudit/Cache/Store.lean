import CodeAudit.Clock

/-!
# Values that expire

A store keeps at most one entry per key.  An entry is *live* before its expiry and worth nothing
from then on; expired entries stay until something removes them.
-/

namespace CodeAudit

/-- A value with the instant from which it is expired. -/
structure Entry (α : Type) where
  value : α
  expiresAt : Instant
  deriving DecidableEq, Repr

/-- Whether an entry can still be served. -/
def Entry.isLive {α : Type} (e : Entry α) (now : Instant) : Bool := now < e.expiresAt

/-- The outcome of reading a cache. -/
inductive Lookup (α : Type) where
  | absent
  | live (value : α)
  | expired

/-- Entries by key; a key occurs once. -/
structure Store (α : Type) where
  entries : List (String × Entry α) := []
  deriving Repr

namespace Store

variable {α : Type}

instance : Inhabited (Store α) := ⟨{}⟩

def size (s : Store α) : Nat := s.entries.length

/-- The entry under a key. -/
def get? (s : Store α) (key : String) : Option (Entry α) :=
  (s.entries.find? fun e => e.1 == key).map Prod.snd

/-- Removes the entry under a key. -/
def erase (s : Store α) (key : String) : Store α := ⟨s.entries.filter fun e => e.1 != key⟩

/-- Puts an entry under a key, in place of any other. -/
def insert (s : Store α) (key : String) (e : Entry α) : Store α := ⟨(key, e) :: (s.erase key).entries⟩

/-- Removes all expired entries. -/
def sweep (s : Store α) (now : Instant) : Store α := ⟨s.entries.filter fun e => e.2.isLive now⟩

/-- The order in which entries give way: earlier expiry first, then the lesser key. -/
def givesWay (a b : String × Entry α) : Bool :=
  if a.2.expiresAt = b.2.expiresAt then a.1 ≤ b.1 else a.2.expiresAt < b.2.expiresAt

/-- Drops the entries that give way first, until at most `capacity` are left. -/
def shrink (s : Store α) (capacity : Nat) : Store α :=
  if s.size ≤ capacity then s else ⟨(s.entries.mergeSort givesWay).drop (s.size - capacity)⟩

/-! ## What inserting and shrinking come to -/

@[simp] theorem get?_insert_self (s : Store α) (key : String) (e : Entry α) :
    (s.insert key e).get? key = some e := by
  simp [get?, insert]

theorem size_shrink_le (s : Store α) (capacity : Nat) : (s.shrink capacity).size ≤ capacity := by
  unfold shrink
  split
  · assumption
  · simp only [size, List.length_drop, List.length_mergeSort]
    omega

end Store

end CodeAudit
