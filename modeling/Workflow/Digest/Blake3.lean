import Workflow.Text.Digits

/-!
# BLAKE3

The hash of a byte sequence: chunks of 1024 bytes are compressed block by block into chaining
values, which are joined by a binary tree whose left branches are full. `hexDigest` writes the 32
bytes of the root as lower-case hexadecimal digits.
-/
namespace Workflow.Blake3

abbrev Word := UInt32

/-- The eight words that one compression hands to the next. -/
abbrev Chain := Vector Word 8

/-- A message block of sixteen words, or a state of the compression. -/
abbrev Block := Vector Word 16

def initialChain : Chain :=
  #v[0x6A09E667, 0xBB67AE85, 0x3C6EF372, 0xA54FF53A, 0x510E527F, 0x9B05688C, 0x1F83D9AB, 0x5BE0CD19]

/-- Marks that a compression carries about the place of its block. -/
def chunkStart : Word := 1
def chunkEnd : Word := 2
def parentNode : Word := 4
def rootNode : Word := 8

def rotateRight (x n : Word) : Word := (x >>> n) ||| (x <<< (32 - n))

/-- Mix two message words into four words of the state. -/
def mix (s : Block) (a b c d : Fin 16) (x y : Word) : Block :=
  let va := s[a] + s[b] + x
  let vd := rotateRight (s[d] ^^^ va) 16
  let vc := s[c] + vd
  let vb := rotateRight (s[b] ^^^ vc) 12
  let va := va + vb + y
  let vd := rotateRight (vd ^^^ va) 8
  let vc := vc + vd
  let vb := rotateRight (vb ^^^ vc) 7
  (((s.set a va).set b vb).set c vc).set d vd

/-- One round: the columns of the state, then its diagonals. -/
def round (s m : Block) : Block :=
  let s := mix s 0 4 8 12 m[0] m[1]
  let s := mix s 1 5 9 13 m[2] m[3]
  let s := mix s 2 6 10 14 m[4] m[5]
  let s := mix s 3 7 11 15 m[6] m[7]
  let s := mix s 0 5 10 15 m[8] m[9]
  let s := mix s 1 6 11 12 m[10] m[11]
  let s := mix s 2 7 8 13 m[12] m[13]
  mix s 3 4 9 14 m[14] m[15]

/-- The order in which a round hands the message words to the next one. -/
def permute (m : Block) : Block :=
  #v[m[2], m[6], m[3], m[10], m[7], m[0], m[4], m[13], m[1], m[11], m[12], m[5], m[9], m[14], m[15],
    m[8]]

def rounds : Nat → Block → Block → Block
  | 0, s, _ => s
  | n + 1, s, m => rounds n (round s m) (permute m)

/-- What goes into one compression. -/
structure Node where
  chain : Chain
  block : Block
  counter : UInt64
  length : Word
  marks : Word

namespace Node

/-- Run the seven rounds and give the first half of the result. -/
def compress (n : Node) : Chain :=
  let h := n.chain
  let s : Block :=
    #v[h[0], h[1], h[2], h[3], h[4], h[5], h[6], h[7], 0x6A09E667, 0xBB67AE85, 0x3C6EF372,
      0xA54FF53A, n.counter.toUInt32, (n.counter >>> 32).toUInt32, n.length, n.marks]
  let r := rounds 7 s n.block
  #v[r[0] ^^^ r[8], r[1] ^^^ r[9], r[2] ^^^ r[10], r[3] ^^^ r[11], r[4] ^^^ r[12], r[5] ^^^ r[13],
    r[6] ^^^ r[14], r[7] ^^^ r[15]]

/-- The compression of the top of the tree. -/
def root (n : Node) : Chain := compress { n with marks := n.marks ||| rootNode }

/-- The node above two subtrees. -/
def parent (left right : Node) : Node :=
  { chain := initialChain
    block := left.compress ++ right.compress
    counter := 0
    length := 64
    marks := parentNode }

end Node

/-- The byte at a place, zero past the end. -/
def byteAt (bytes : Array UInt8) (i : Nat) : Word := (bytes[i]?.getD 0).toUInt32

/-- The sixteen words of the block that begins at `start`, padded with zeros. -/
def blockAt (bytes : Array UInt8) (start stop : Nat) : Block :=
  Vector.ofFn fun i =>
    let p := start + 4 * i.val
    let byte (k : Nat) : Word := if p + k < stop then byteAt bytes (p + k) else 0
    byte 0 ||| (byte 1 <<< 8) ||| (byte 2 <<< 16) ||| (byte 3 <<< 24)

/-- The last node of a chunk; `blocks` counts the full blocks before the last one. -/
def chunkFrom (bytes : Array UInt8) (index : UInt64) (stop : Nat) :
    Nat → Nat → Chain → Word → Node
  | 0, start, chain, marks =>
    { chain, block := blockAt bytes start stop, counter := index
      length := UInt32.ofNat (stop - start), marks := marks ||| chunkEnd }
  | blocks + 1, start, chain, marks =>
    let node : Node :=
      { chain, block := blockAt bytes start stop, counter := index, length := 64, marks }
    chunkFrom bytes index stop blocks (start + 64) node.compress 0

/-- The node of the chunk with an index. -/
def chunkNode (bytes : Array UInt8) (index : Nat) : Node :=
  let start := 1024 * index
  let stop := min bytes.size (start + 1024)
  chunkFrom bytes (UInt64.ofNat index) stop ((stop - start - 1) / 64) start initialChain chunkStart

/-- The node above `count` chunks from `first` on. The left subtree takes the greatest power of two
below the count. -/
def subtree (bytes : Array UInt8) : Nat → Nat → Nat → Node
  | 0, first, _ => chunkNode bytes first
  | fuel + 1, first, count =>
    if count ≤ 1 then chunkNode bytes first
    else
      let left := Nat.pow 2 (count - 1).log2
      Node.parent (subtree bytes fuel first left) (subtree bytes fuel (first + left) (count - left))

/-- A word as four bytes, the lowest first, in hexadecimal. -/
def wordText (w : Word) : String :=
  let n := w.toNat
  String.join ([n % 256, n / 256 % 256, n / 65536 % 256, n / 16777216 % 256].map (hexPadded 2))

/-- The hash of a byte sequence in hexadecimal. -/
def hexDigest (bytes : List UInt8) : String :=
  let bytes := bytes.toArray
  let chunks := max 1 ((bytes.size + 1023) / 1024)
  String.join ((subtree bytes chunks 0 chunks).root.toList.map wordText)

end Workflow.Blake3
