import CodeAudit.Text.Basic

/-!
# Digests of byte strings

BLAKE3 in its plain mode, with 256 bits of output.  The input is cut into chunks of 1024 bytes,
each chunk into blocks of 64, and the chunks are the leaves of a binary tree: **the left part of a
node holds the largest power of two of chunks that leaves something for the right part.**
-/

namespace CodeAudit.Digest

/-! ## 1. The compression function -/

abbrev Words := Vector UInt32 16

def initial : Vector UInt32 8 :=
  #v[0x6A09E667, 0xBB67AE85, 0x3C6EF372, 0xA54FF53A, 0x510E527F, 0x9B05688C, 0x1F83D9AB, 0x5BE0CD19]

/-- The order in which the next round takes the words of the message. -/
def permutation : Vector (Fin 16) 16 := #v[2, 6, 3, 10, 7, 0, 4, 13, 1, 11, 12, 5, 9, 14, 15, 8]

def chunkStart : UInt32 := 1
def chunkEnd : UInt32 := 2
def parentNode : UInt32 := 4
def rootNode : UInt32 := 8

def rotateRight (x : UInt32) (n : UInt32) : UInt32 := (x >>> n) ||| (x <<< (32 - n))

/-- Mixes two words of the message into one column or diagonal. -/
def mix (v : Words) (a b c d : Fin 16) (x y : UInt32) : Words :=
  let v := v.set a (v[a] + v[b] + x)
  let v := v.set d (rotateRight (v[d] ^^^ v[a]) 16)
  let v := v.set c (v[c] + v[d])
  let v := v.set b (rotateRight (v[b] ^^^ v[c]) 12)
  let v := v.set a (v[a] + v[b] + y)
  let v := v.set d (rotateRight (v[d] ^^^ v[a]) 8)
  let v := v.set c (v[c] + v[d])
  v.set b (rotateRight (v[b] ^^^ v[c]) 7)

def round (v m : Words) : Words :=
  let v := mix v 0 4 8 12 m[0] m[1]
  let v := mix v 1 5 9 13 m[2] m[3]
  let v := mix v 2 6 10 14 m[4] m[5]
  let v := mix v 3 7 11 15 m[6] m[7]
  let v := mix v 0 5 10 15 m[8] m[9]
  let v := mix v 1 6 11 12 m[10] m[11]
  let v := mix v 2 7 8 13 m[12] m[13]
  mix v 3 4 9 14 m[14] m[15]

def permute (m : Words) : Words := Vector.ofFn fun i => m[permutation[i]]

/-- The given number of rounds, the message permuted after each. -/
def rounds : Nat → Words → Words → Words
  | 0, v, _ => v
  | n + 1, v, m => rounds n (round v m) (permute m)

/-- What a node compresses: everything but the flag that marks the root. -/
structure Input where
  chaining : Vector UInt32 8
  block : Words
  counter : UInt64
  length : UInt32
  flags : UInt32

/-- The eight words that a node hands up. -/
def Input.compress (i : Input) (extra : UInt32) : Vector UInt32 8 :=
  let h := i.chaining
  let v : Words :=
    #v[h[0], h[1], h[2], h[3], h[4], h[5], h[6], h[7], initial[0], initial[1], initial[2], initial[3],
      i.counter.toUInt32, (i.counter >>> 32).toUInt32, i.length, i.flags ||| extra]
  let v := rounds 7 v i.block
  Vector.ofFn fun k : Fin 8 => v[k.val] ^^^ v[k.val + 8]

/-! ## 2. Chunks -/

/-- Four bytes as a word, the lowest first; bytes that are not there count as zero. -/
def wordAt (bytes : List UInt8) : UInt32 :=
  (bytes.take 4).foldr (fun b w => (w <<< 8) ||| b.toUInt32) 0

/-- At most 64 bytes as sixteen words. -/
def blockWords (bytes : List UInt8) : Words :=
  let rest := bytes.toArray
  Vector.ofFn fun i : Fin 16 => wordAt (rest.extract (4 * i.val) (4 * i.val + 4)).toList

/-- The last block of a chunk, after the blocks before it have been compressed. -/
def lastBlock (counter : UInt64) : Nat → Vector UInt32 8 → UInt32 → List UInt8 → Input
  | 0, chaining, flags, bytes =>
    ⟨chaining, blockWords (bytes.take 64), counter, (bytes.take 64).length.toUInt32, flags ||| chunkEnd⟩
  | left + 1, chaining, flags, bytes =>
    if bytes.length ≤ 64 then
      ⟨chaining, blockWords bytes, counter, bytes.length.toUInt32, flags ||| chunkEnd⟩
    else
      let block : Input := ⟨chaining, blockWords (bytes.take 64), counter, 64, flags⟩
      lastBlock counter left (block.compress 0) 0 (bytes.drop 64)

/-- A chunk of at most 1024 bytes. -/
def chunk (counter : UInt64) (bytes : List UInt8) : Input := lastBlock counter 15 initial chunkStart bytes

/-- Two nodes under one. -/
def parent (left right : Vector UInt32 8) : Input :=
  ⟨initial, (left ++ right : Vector UInt32 (8 + 8)), 0, 64, parentNode⟩

/-! ## 3. The tree -/

/-- Largest power of two below `n`, from a power `p` on that is known to be below it. -/
def powerBelow (n : Nat) : Nat → Nat → Nat
  | 0, p => p
  | left + 1, p => if 2 * p < n then powerBelow n left (2 * p) else p

/-- The node over some bytes, `depth` bounding the height of its tree. -/
def node : Nat → UInt64 → List UInt8 → Input
  | 0, counter, bytes => chunk counter bytes
  | depth + 1, counter, bytes =>
    if bytes.length ≤ 1024 then chunk counter bytes
    else
      let chunks := (bytes.length + 1023) / 1024
      let left := powerBelow chunks depth 1
      let l := node depth counter (bytes.take (1024 * left))
      let r := node depth (counter + left.toUInt64) (bytes.drop (1024 * left))
      parent (l.compress 0) (r.compress 0)

/-- The digest of some bytes, as eight words. -/
def digest (bytes : List UInt8) : Vector UInt32 8 :=
  (node (bytes.length / 1024 + 1).log2.succ 0 bytes).compress rootNode

/-- Two hexadecimal digits of a byte. -/
def hexByte (n : Nat) : List Char := [Nat.digitChar (n / 16 % 16), Nat.digitChar (n % 16)]

/-- A word as eight hexadecimal digits, the lowest byte first. -/
def hexWord (w : UInt32) : List Char :=
  let n := w.toNat
  hexByte n ++ hexByte (n / 256) ++ hexByte (n / 65536) ++ hexByte (n / 16777216)

/-- The digest of some bytes, as 64 hexadecimal digits. -/
def hex (bytes : List UInt8) : String := String.ofList ((digest bytes).toList.flatMap hexWord)

end CodeAudit.Digest
