import SourceSearch.Digest.Bytes

/-!
# The MD5 digest

The digest of a byte list as sixteen bytes: the message is padded to whole blocks of sixteen
words, and each block is mixed into a state of four words in sixty-four steps.
-/

namespace SourceSearch
namespace Digest
namespace Md5

/-- The additive constant of each step, the integer part of `2³² · |sin (i + 1)|`. -/
def sines : Array UInt32 := #[
  0xd76aa478, 0xe8c7b756, 0x242070db, 0xc1bdceee, 0xf57c0faf, 0x4787c62a,
  0xa8304613, 0xfd469501, 0x698098d8, 0x8b44f7af, 0xffff5bb1, 0x895cd7be,
  0x6b901122, 0xfd987193, 0xa679438e, 0x49b40821, 0xf61e2562, 0xc040b340,
  0x265e5a51, 0xe9b6c7aa, 0xd62f105d, 0x02441453, 0xd8a1e681, 0xe7d3fbc8,
  0x21e1cde6, 0xc33707d6, 0xf4d50d87, 0x455a14ed, 0xa9e3e905, 0xfcefa3f8,
  0x676f02d9, 0x8d2a4c8a, 0xfffa3942, 0x8771f681, 0x6d9d6122, 0xfde5380c,
  0xa4beea44, 0x4bdecfa9, 0xf6bb4b60, 0xbebfbc70, 0x289b7ec6, 0xeaa127fa,
  0xd4ef3085, 0x04881d05, 0xd9d4d039, 0xe6db99e5, 0x1fa27cf8, 0xc4ac5665,
  0xf4292244, 0x432aff97, 0xab9423a7, 0xfc93a039, 0x655b59c3, 0x8f0ccc92,
  0xffeff47d, 0x85845dd1, 0x6fa87e4f, 0xfe2ce6e0, 0xa3014314, 0x4e0811a1,
  0xf7537e82, 0xbd3af235, 0x2ad7d2bb, 0xeb86d391]

/-- The rotations of the four steps that repeat within a round. -/
def rotations (round : Nat) : Array UInt32 :=
  #[#[7, 12, 17, 22], #[5, 9, 14, 20], #[4, 11, 16, 23], #[6, 10, 15, 21]].getD round #[]

/-- The four words that carry the digest from block to block. -/
structure State where
  /-- First word. -/
  a : UInt32
  /-- Second word. -/
  b : UInt32
  /-- Third word. -/
  c : UInt32
  /-- Fourth word. -/
  d : UInt32
  deriving DecidableEq

/-- The state before the first block. -/
def start : State := ⟨0x67452301, 0xefcdab89, 0x98badcfe, 0x10325476⟩

/-- The bitwise function of a round together with the index of the block word it reads. -/
def select (state : State) (step : Nat) : UInt32 × Nat :=
  let ⟨_, b, c, d⟩ := state
  match step / 16 with
  | 0 => ((b &&& c) ||| (~~~b &&& d), step)
  | 1 => ((d &&& b) ||| (~~~d &&& c), (5 * step + 1) % 16)
  | 2 => (b ^^^ c ^^^ d, (3 * step + 5) % 16)
  | _ => (c ^^^ (b ||| ~~~d), (7 * step) % 16)

/-- One of the sixty-four steps on a block. -/
def mix (block : Array UInt32) (state : State) (step : Nat) : State :=
  let (f, index) := select state step
  let sum := state.a + f + sines.getD step 0 + block.getD index 0
  let places := (rotations (step / 16)).getD (step % 4) 0
  ⟨state.d, state.b + rotateLeft sum places, state.b, state.c⟩

/-- Mix a block into the state. -/
def absorb (state : State) (block : Array UInt32) : State :=
  let mixed := (List.range 64).foldl (mix block) state
  ⟨state.a + mixed.a, state.b + mixed.b, state.c + mixed.c, state.d + mixed.d⟩

/-- The message with its padding: a one bit, zeros, and the length in bits as eight bytes. -/
def padded (message : List UInt8) : List UInt8 :=
  let zeros := (119 - message.length % 64) % 64
  let bits := 8 * message.length
  let size := (List.range 8).map fun i => UInt8.ofNat (bits / Nat.pow 256 i % 256)
  message ++ 0x80 :: List.replicate zeros 0 ++ size

/-- The MD5 digest of a message. -/
def digest (message : List UInt8) : List UInt8 :=
  let final := ((blocks 64 (padded message)).map wordsOfBytes).foldl absorb start
  [final.a, final.b, final.c, final.d].flatMap bytesOfWord

end Md5
end Digest
end SourceSearch
