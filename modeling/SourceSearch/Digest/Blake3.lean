import SourceSearch.Digest.Bytes

/-!
# The BLAKE3 digest

The keyed digest and key derivation of BLAKE3.  A message is a binary tree over chunks of 1024
bytes: each chunk is compressed block by block, and two subtrees are joined by compressing their
two chaining values.
-/

namespace SourceSearch
namespace Digest
namespace Blake3

/-- The initial value of an unkeyed digest. -/
def initial : Array UInt32 := #[
  0x6a09e667, 0xbb67ae85, 0x3c6ef372, 0xa54ff53a, 0x510e527f, 0x9b05688c, 0x1f83d9ab, 0x5be0cd19]

/-- The order in which a round takes the words of the round before. -/
def permutation : Array Nat := #[2, 6, 3, 10, 7, 0, 4, 13, 1, 11, 12, 5, 9, 14, 15, 8]

/-- Marks the first block of a chunk. -/
def chunkStart : UInt32 := 1
/-- Marks the last block of a chunk. -/
def chunkEnd : UInt32 := 2
/-- Marks the compression of two chaining values. -/
def parent : UInt32 := 4
/-- Marks the compression that ends the tree. -/
def root : UInt32 := 8
/-- Marks a keyed digest. -/
def keyed : UInt32 := 16
/-- Marks the digest of a key derivation's context. -/
def deriveContext : UInt32 := 32
/-- Marks the digest of a key derivation's material. -/
def deriveMaterial : UInt32 := 64

/-- Mix two message words into the four state words at the given places. -/
def quarter (state : Array UInt32) (a b c d : Nat) (x y : UInt32) : Array UInt32 :=
  let at_ (s : Array UInt32) (i : Nat) : UInt32 := s.getD i 0
  let half (s : Array UInt32) (word right left : UInt32) : Array UInt32 :=
    let s := s.setIfInBounds a (at_ s a + at_ s b + word)
    let s := s.setIfInBounds d (rotateLeft (at_ s d ^^^ at_ s a) right)
    let s := s.setIfInBounds c (at_ s c + at_ s d)
    s.setIfInBounds b (rotateLeft (at_ s b ^^^ at_ s c) left)
  half (half state x 16 20) y 24 25

/-- The places mixed in a round: four columns, then four diagonals. -/
def places : List (Nat × Nat × Nat × Nat) := [
  (0, 4, 8, 12), (1, 5, 9, 13), (2, 6, 10, 14), (3, 7, 11, 15),
  (0, 5, 10, 15), (1, 6, 11, 12), (2, 7, 8, 13), (3, 4, 9, 14)]

/-- One round on the state, with the sixteen words of the block. -/
def round (state block : Array UInt32) : Array UInt32 :=
  places.zipIdx.foldl (fun s ((a, b, c, d), i) =>
    quarter s a b c d (block.getD (2 * i) 0) (block.getD (2 * i + 1) 0)) state

/-- Apply `rounds` rounds, permuting the block between them. -/
def rounds : Nat → Array UInt32 → Array UInt32 → Array UInt32
  | 0, state, _ => state
  | n + 1, state, block =>
      rounds n (round state block) (permutation.map fun i => block.getD i 0)

/-- What a compression is applied to. -/
structure Node where
  /-- Chaining value before the compression. -/
  chaining : Array UInt32
  /-- The block, sixteen words. -/
  block : Array UInt32
  /-- Number of bytes of the block. -/
  length : UInt32
  /-- Index of the chunk. -/
  counter : Nat
  /-- Marks of the compression. -/
  flags : UInt32

/-- The eight words that a node passes on. -/
def Node.compress (node : Node) (flags : UInt32) : Array UInt32 :=
  let counter := [UInt32.ofNat node.counter, UInt32.ofNat (node.counter / 0x100000000)]
  let state := node.chaining ++ initial.take 4 ++ counter.toArray ++
    #[node.length, node.flags ||| flags]
  let final := rounds 7 state node.block
  (Array.range 8).map fun i => final.getD i 0 ^^^ final.getD (i + 8) 0

/-- The last node of a chunk, after its other blocks have been compressed. -/
def chunkNode (key : Array UInt32) (flags : UInt32) (counter : Nat) (chunk : List UInt8) : Node :=
  let pieces := if chunk.isEmpty then [[]] else blocks 64 chunk
  let last := pieces.length - 1
  let node (chaining : Array UInt32) (piece : List UInt8) (index : Nat) : Node :=
    let first := if index = 0 then chunkStart else 0
    let final := if index = last then chunkEnd else 0
    { chaining
      block := wordsOfBytes (piece ++ List.replicate (64 - piece.length) 0)
      length := UInt32.ofNat piece.length
      counter
      flags := flags ||| first ||| final }
  let chaining := (pieces.zipIdx.take last).foldl
    (fun chaining (piece, index) => (node chaining piece index).compress 0) key
  node chaining (pieces.getD last []) last

/-- The topmost node over a list of chunks.  The left subtree holds the greatest power of two of
chunks that leaves some for the right; `depth` bounds the height of the tree. -/
def treeNode (key : Array UInt32) (flags : UInt32) :
    (depth counter : Nat) → List (List UInt8) → Node
  | 0, counter, chunks => chunkNode key flags counter (chunks.headD [])
  | depth + 1, counter, chunks =>
      if chunks.length ≤ 1 then chunkNode key flags counter (chunks.headD [])
      else
        let left := Nat.pow 2 (Nat.log2 (chunks.length - 1))
        let below := (treeNode key flags depth counter (chunks.take left)).compress 0
        let above := (treeNode key flags depth (counter + left) (chunks.drop left)).compress 0
        { chaining := key
          block := below ++ above
          length := 64
          counter := 0
          flags := flags ||| parent }

/-- The first thirty-two bytes of the digest of a message under a key and marks. -/
def digestWith (key : Array UInt32) (flags : UInt32) (message : List UInt8) : List UInt8 :=
  let chunks := blocks 1024 message
  ((treeNode key flags chunks.length 0 chunks).compress root).toList.flatMap bytesOfWord

/-- The digest of a message under a key of thirty-two bytes. -/
def keyedDigest (key message : List UInt8) : List UInt8 :=
  digestWith (wordsOfBytes key) keyed message

/-- Derive a key of thirty-two bytes from arbitrary material, for one purpose. -/
def deriveKey (context : String) (material : List UInt8) : List UInt8 :=
  let contextKey := digestWith initial deriveContext context.toUTF8.toList
  digestWith (wordsOfBytes contextKey) deriveMaterial material

end Blake3
end Digest
end SourceSearch
