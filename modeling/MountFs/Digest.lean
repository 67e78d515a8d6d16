/-!
# Content digests

`Digest.hex` is the BLAKE3 digest of a byte string, 32 bytes written as 64
lower-case hexadecimal digits.  Two files with the same digest are taken to have
the same content.

The input is cut into chunks of 1024 bytes and each chunk into blocks of 64 bytes,
the last of each possibly shorter.  Empty input is one chunk with one empty block.
The blocks of a chunk are compressed one after the other, each under the chaining
value of the one before.  The chunks are the leaves of a binary tree, joined two
by two level by level.  A leaf without a partner moves up as it is.  The last
compression of the tree runs under the flag `root`.

Whether a compression is the last one is known only once the tree is built.  So a
`Node` is a compression that has not run yet.
-/

namespace MountFs.Digest

/-! ## Compression -/

/-- The words a compression starts from. -/
def initial : Vector UInt32 8 :=
  #v[0x6A09E667, 0xBB67AE85, 0x3C6EF372, 0xA54FF53A,
     0x510E527F, 0x9B05688C, 0x1F83D9AB, 0x5BE0CD19]

/-- Flag of the first block of a chunk. -/
def chunkStart : UInt32 := 1

/-- Flag of the last block of a chunk. -/
def chunkEnd : UInt32 := 2

/-- Flag of an inner node of the tree. -/
def parentFlag : UInt32 := 4

/-- Flag of the last compression. -/
def rootFlag : UInt32 := 8

/-- Rotate a word to the right by a number of bits between 1 and 31. -/
def rotate (word bits : UInt32) : UInt32 := (word >>> bits) ||| (word <<< (32 - bits))

/-- Mix two message words into four words of the state. -/
def mix (v : Vector UInt32 16) (a b c d : Fin 16) (x y : UInt32) : Vector UInt32 16 :=
  let v := v.set a (v[a] + v[b] + x)
  let v := v.set d (rotate (v[d] ^^^ v[a]) 16)
  let v := v.set c (v[c] + v[d])
  let v := v.set b (rotate (v[b] ^^^ v[c]) 12)
  let v := v.set a (v[a] + v[b] + y)
  let v := v.set d (rotate (v[d] ^^^ v[a]) 8)
  let v := v.set c (v[c] + v[d])
  v.set b (rotate (v[b] ^^^ v[c]) 7)

/-- One round: mix the columns of the state, then its diagonals. -/
def round (v m : Vector UInt32 16) : Vector UInt32 16 :=
  let v := mix v 0 4 8 12 m[0] m[1]
  let v := mix v 1 5 9 13 m[2] m[3]
  let v := mix v 2 6 10 14 m[4] m[5]
  let v := mix v 3 7 11 15 m[6] m[7]
  let v := mix v 0 5 10 15 m[8] m[9]
  let v := mix v 1 6 11 12 m[10] m[11]
  let v := mix v 2 7 8 13 m[12] m[13]
  mix v 3 4 9 14 m[14] m[15]

/-- The order of the message words in the next round. -/
def permute (m : Vector UInt32 16) : Vector UInt32 16 :=
  #v[m[2], m[6], m[3], m[10], m[7], m[0], m[4], m[13],
     m[1], m[11], m[12], m[5], m[9], m[14], m[15], m[8]]

/-- Some rounds, with the message permuted between them. -/
def rounds : Nat → Vector UInt32 16 → Vector UInt32 16 → Vector UInt32 16
  | 0, v, _ => v
  | n + 1, v, m => rounds n (round v m) (permute m)

/-! ## Nodes -/

/-- A compression that has not run yet. -/
structure Node where
  /-- The chaining value it starts from. -/
  chain : Vector UInt32 8
  block : Vector UInt32 16
  /-- The number of the chunk, and `0` for inner nodes. -/
  counter : UInt64
  /-- The number of message bytes that are not padding. -/
  length : UInt32
  flags : UInt32

/-- Run a compression. -/
def Node.compress (n : Node) : Vector UInt32 8 :=
  let low := n.counter.toUInt32
  let high := (n.counter >>> 32).toUInt32
  let chain := n.chain
  let start : Vector UInt32 16 :=
    #v[chain[0], chain[1], chain[2], chain[3], chain[4], chain[5], chain[6], chain[7],
       initial[0], initial[1], initial[2], initial[3], low, high, n.length, n.flags]
  let v := rounds 7 start n.block
  Vector.ofFn fun (i : Fin 8) => v[i.val] ^^^ v[i.val + 8]

/-- The inner node over two nodes. -/
def Node.join (left right : Node) : Node where
  chain := initial
  block := (left.compress ++ right.compress).cast rfl
  counter := 0
  length := 64
  flags := parentFlag

/-! ## Chunks -/

/-- A byte string in parts of `size` bytes, the last one possibly shorter.  The
first argument bounds the number of parts.  Empty input is one empty part. -/
def parts : Nat → Nat → List UInt8 → List (List UInt8)
  | 0, _, _ => []
  | bound + 1, size, bytes =>
      let rest := bytes.drop size
      bytes.take size :: if rest.isEmpty then [] else parts bound size rest

/-- The sixteen words of a block, least byte first and padded with zeros. -/
def words (block : List UInt8) : Vector UInt32 16 :=
  let bytes := block.toArray
  Vector.ofFn fun (i : Fin 16) =>
    let byte (k : Nat) : UInt32 := (bytes.getD (4 * i.val + k) 0).toUInt32
    byte 0 ||| (byte 1 <<< 8) ||| (byte 2 <<< 16) ||| (byte 3 <<< 24)

/-- The last compression of a chunk, after running those of the blocks before. -/
def chunkFrom (counter : UInt64) : Vector UInt32 8 → UInt32 → List (List UInt8) → Node
  | chain, start, [] => ⟨chain, words [], counter, 0, start ||| chunkEnd⟩
  | chain, start, [block] =>
      ⟨chain, words block, counter, block.length.toUInt32, start ||| chunkEnd⟩
  | chain, start, block :: blocks =>
      let node : Node := ⟨chain, words block, counter, block.length.toUInt32, start⟩
      chunkFrom counter node.compress 0 blocks

/-- The node of a chunk. -/
def chunk (counter : UInt64) (bytes : List UInt8) : Node :=
  chunkFrom counter initial chunkStart (parts (bytes.length + 1) 64 bytes)

/-- The nodes of numbered chunks. -/
def chunks : UInt64 → List (List UInt8) → List Node
  | _, [] => []
  | counter, bytes :: rest => chunk counter bytes :: chunks (counter + 1) rest

/-! ## The tree -/

/-- Join the nodes of a level two by two. -/
def level : List Node → List Node
  | left :: right :: rest => left.join right :: level rest
  | rest => rest

/-- The top of the tree over some nodes.  The first argument bounds its height. -/
def top : Nat → Node → List Node → Node
  | 0, first, _ => first
  | bound + 1, first, rest =>
      match level (first :: rest) with
      | [] => first
      | [node] => node
      | node :: nodes => top bound node nodes

/-- The digest of a byte string, as eight words. -/
def sum (bytes : List UInt8) : Vector UInt32 8 :=
  let nodes := chunks 0 (parts (bytes.length + 1) 1024 bytes)
  let last :=
    match nodes with
    | [] => chunk 0 []
    | [node] => node
    | node :: rest => top nodes.length node rest
  { last with flags := last.flags ||| rootFlag }.compress

/-! ## Hexadecimal text -/

/-- A hexadecimal digit of a number below 16. -/
def hexDigit (n : Nat) : Char :=
  if n < 10 then Char.ofNat (48 + n) else Char.ofNat (87 + n)

/-- The two digits of a byte. -/
def hexByte (byte : UInt8) : List Char := [hexDigit (byte.toNat / 16), hexDigit (byte.toNat % 16)]

/-- Bytes in hexadecimal. -/
def hexText (bytes : List UInt8) : String := String.ofList (bytes.flatMap hexByte)

/-- The four bytes of a word, least first. -/
def wordBytes (word : UInt32) : List UInt8 :=
  [word.toUInt8, (word >>> 8).toUInt8, (word >>> 16).toUInt8, (word >>> 24).toUInt8]

/-- The digest of a byte string, in hexadecimal. -/
def hex (bytes : List UInt8) : String := hexText ((sum bytes).toList.flatMap wordBytes)

end MountFs.Digest
