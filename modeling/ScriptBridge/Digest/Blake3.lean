import ScriptBridge.Number.Power
import ScriptBridge.Text.Hex
/-!
The BLAKE3 hash of a byte sequence.

The input is cut into chunks of 1024 bytes and each chunk into blocks of 64. A compression turns a
chaining value and a block into sixteen words, whose first half is the next chaining value. Chunks
are the leaves of a binary tree whose left subtrees are full, and the digest is the first half of
the last compression at the root.
-/
namespace ScriptBridge.Blake3

/-- Words of 32 bits. -/
abbrev Words := Array UInt32

/-- The words that chaining starts from. -/
def initial : Words :=
  #[0x6A09E667, 0xBB67AE85, 0x3C6EF372, 0xA54FF53A, 0x510E527F, 0x9B05688C, 0x1F83D9AB, 0x5BE0CD19]

/-- Where each word of a block comes from in the next round. -/
def permutation : List Nat := [2, 6, 3, 10, 7, 0, 4, 13, 1, 11, 12, 5, 9, 14, 15, 8]

/-- Marks the first block of a chunk. -/
def chunkStart : UInt32 := 1

/-- Marks the last block of a chunk. -/
def chunkEnd : UInt32 := 2

/-- Marks a node above two others. -/
def parent : UInt32 := 4

/-- Marks the root. -/
def root : UInt32 := 8

/-- A word of a list of words. -/
def word (words : Words) (i : Nat) : UInt32 := words.getD i 0

/-- A word rotated to the right. -/
def rotateRight (w : UInt32) (n : UInt32) : UInt32 := (w >>> n) ||| (w <<< (32 - n))

/-- Mixes two words of a block into four words of the state. -/
def mix (s : Words) (ia ib ic id : Nat) (x y : UInt32) : Words :=
  let a := word s ia + word s ib + x
  let d := rotateRight (word s id ^^^ a) 16
  let c := word s ic + d
  let b := rotateRight (word s ib ^^^ c) 12
  let a := a + b + y
  let d := rotateRight (d ^^^ a) 8
  let c := c + d
  let b := rotateRight (b ^^^ c) 7
  (((s.setIfInBounds ia a).setIfInBounds ib b).setIfInBounds ic c).setIfInBounds id d

/-- One round: the four columns of the state and then its four diagonals. -/
def round (s block : Words) : Words :=
  let s := mix s 0 4 8 12 (word block 0) (word block 1)
  let s := mix s 1 5 9 13 (word block 2) (word block 3)
  let s := mix s 2 6 10 14 (word block 4) (word block 5)
  let s := mix s 3 7 11 15 (word block 6) (word block 7)
  let s := mix s 0 5 10 15 (word block 8) (word block 9)
  let s := mix s 1 6 11 12 (word block 10) (word block 11)
  let s := mix s 2 7 8 13 (word block 12) (word block 13)
  mix s 3 4 9 14 (word block 14) (word block 15)

/-- So many rounds, the block permuted in between. -/
def rounds : Nat → Words → Words → Words
  | 0, s, _ => s
  | n + 1, s, block => rounds n (round s block) (permutation.map (word block)).toArray

/-- What is compressed at a node of the tree. -/
structure Node where
  chaining : Words
  block : Words
  /-- The number of the chunk. -/
  counter : Nat
  /-- How many bytes of the block count. -/
  length : Nat
  /-- The marks. -/
  flags : UInt32

/-- The first half of a compression. -/
def Node.value (n : Node) (marks : UInt32) : Words :=
  let state := n.chaining ++ initial.extract 0 4 ++
    #[UInt32.ofNat n.counter, UInt32.ofNat (n.counter / 4294967296), UInt32.ofNat n.length,
      n.flags ||| marks]
  let s := rounds 7 state n.block
  ((List.range 8).map fun i => word s i ^^^ word s (i + 8)).toArray

/-- A word of up to four bytes, the least significant first. -/
def wordOf (bytes : List UInt8) : UInt32 :=
  bytes.foldr (fun b w => w <<< 8 ||| b.toUInt32) 0

/-- The words of a block; missing bytes are zero. -/
def blockOf (bytes : List UInt8) : Words :=
  ((List.range 16).map fun i => wordOf ((bytes.drop (4 * i)).take 4)).toArray

/-- The last compression of a chunk, given what is left of it after so many blocks at least. -/
def chunkFrom (counter : Nat) : (blocks : Nat) → (chaining : Words) → (flags : UInt32) →
    List UInt8 → Node
  | blocks + 1, chaining, flags, bytes =>
    if 64 < bytes.length then
      let node : Node :=
        { chaining, block := blockOf (bytes.take 64), counter, length := 64, flags }
      chunkFrom counter blocks (node.value 0) 0 (bytes.drop 64)
    else
      { chaining, block := blockOf bytes, counter, length := bytes.length,
        flags := flags ||| chunkEnd }
  | 0, chaining, flags, bytes =>
    { chaining, block := blockOf bytes, counter, length := bytes.length,
      flags := flags ||| chunkEnd }

/-- The last compression of a chunk of at most 1024 bytes. -/
def chunk (counter : Nat) (bytes : List UInt8) : Node :=
  chunkFrom counter 16 initial chunkStart bytes

/-- How many bytes go to the left of a node over more than one chunk. -/
def leftLength (length : Nat) : Nat := 1024 * Number.twoTo ((length - 1) / 1024).log2

theorem leftLength_pos (length : Nat) : 0 < leftLength length := by
  have := Number.twoTo_pos ((length - 1) / 1024).log2
  simp only [leftLength]; omega

theorem leftLength_lt {length : Nat} (h : 1024 < length) : leftLength length < length := by
  have h1 : (length - 1) / 1024 ≠ 0 := by omega
  have h2 := Number.twoTo_log2_le h1
  simp only [leftLength]; omega

/-- The last compression over the chunks of a byte sequence. -/
def node (counter : Nat) (bytes : List UInt8) : Node :=
  if h : 1024 < bytes.length then
    let full := leftLength bytes.length
    let left := node counter (bytes.take full)
    let right := node (counter + full / 1024) (bytes.drop full)
    { chaining := initial, block := left.value 0 ++ right.value 0, counter := 0, length := 64,
      flags := parent }
  else chunk counter bytes
termination_by bytes.length
decreasing_by
  · have := leftLength_lt h
    simp only [List.length_take]; omega
  · have := leftLength_pos bytes.length
    simp only [List.length_drop]; omega

/-- The bytes of a word, the least significant first. -/
def bytesOf (w : UInt32) : List UInt8 :=
  [w.toUInt8, (w >>> 8).toUInt8, (w >>> 16).toUInt8, (w >>> 24).toUInt8]

/-- The digest of a byte sequence. -/
def digest (bytes : List UInt8) : List UInt8 := ((node 0 bytes).value root).toList.flatMap bytesOf

def hexDigest (bytes : List UInt8) : String := String.ofList (Hex.lower (digest bytes))

end ScriptBridge.Blake3
