/-! The MD5 digest. A message is padded to whole blocks of 64 bytes, and the blocks are folded, one
after the other, into a state of four words. -/
namespace ChunkedUpload.Md5

structure State where
  a : UInt32
  b : UInt32
  c : UInt32
  d : UInt32
deriving DecidableEq, Repr

def initial : State := ⟨0x67452301, 0xefcdab89, 0x98badcfe, 0x10325476⟩

/-- The constant of each step: the integer part of `2 ^ 32` times the sine of the step's number,
counted from one, without its sign. -/
def sines : Array UInt32 := #[
  0xd76aa478, 0xe8c7b756, 0x242070db, 0xc1bdceee, 0xf57c0faf, 0x4787c62a,
  0xa8304613, 0xfd469501, 0x698098d8, 0x8b44f7af, 0xffff5bb1, 0x895cd7be,
  0x6b901122, 0xfd987193, 0xa679438e, 0x49b40821, 0xf61e2562, 0xc040b340,
  0x265e5a51, 0xe9b6c7aa, 0xd62f105d, 0x02441453, 0xd8a1e681, 0xe7d3fbc8,
  0x21e1cde6, 0xc33707d6, 0xf4d50d87, 0x455a14ed, 0xa9e3e905, 0xfcefa3f8,
  0x676f02d9, 0x8d2a4c8a, 0xfffa3942, 0x8771f681, 0x6d9d6122, 0xfde5380c,
  0xa4beea44, 0x4bdecfa9, 0xf6bb4b60, 0xbebfbc70, 0x289b7ec6, 0xeaa127fa,
  0xd4ef3085, 0x04881d05, 0xd9d4d039, 0xe6db99e5, 0x1fa27cf8, 0xc4ac5665,
  0xf4292244, 0x432aff97, 0xab9423a7, 0xfc93a039, 0x655b59c3, 0x8f0ccc92,
  0xffeff47d, 0x85845dd1, 0x6fa87e4f, 0xfe2ce6e0, 0xa3014314, 0x4e0811a1,
  0xf7537e82, 0xbd3af235, 0x2ad7d2bb, 0xeb86d391]

/-- How far each step turns its word to the left: four amounts in each of four rounds. -/
def turn (step : Nat) : UInt32 :=
  match step / 16, step % 4 with
  | 0, 0 => 7
  | 0, 1 => 12
  | 0, 2 => 17
  | 0, _ => 22
  | 1, 0 => 5
  | 1, 1 => 9
  | 1, 2 => 14
  | 1, _ => 20
  | 2, 0 => 4
  | 2, 1 => 11
  | 2, 2 => 16
  | 2, _ => 23
  | _, 0 => 6
  | _, 1 => 10
  | _, 2 => 15
  | _, _ => 21

def rotateLeft (word amount : UInt32) : UInt32 :=
  word <<< amount ||| word >>> (32 - amount)

/-- The function that mixes three words, and the word of the block that is added, in each step. -/
def mix (step : Nat) (b c d : UInt32) : UInt32 × Nat :=
  match step / 16 with
  | 0 => (b &&& c ||| (b ^^^ 0xffffffff) &&& d, step)
  | 1 => (d &&& b ||| (d ^^^ 0xffffffff) &&& c, (5 * step + 1) % 16)
  | 2 => (b ^^^ c ^^^ d, (3 * step + 5) % 16)
  | _ => (c ^^^ (b ||| (d ^^^ 0xffffffff)), 7 * step % 16)

def byteAt (bytes : ByteArray) (i : Nat) : UInt8 :=
  if h : i < bytes.size then bytes[i] else 0

/-- Four bytes as a word, the lowest first. -/
def wordAt (bytes : ByteArray) (start : Nat) : UInt32 :=
  (byteAt bytes start).toUInt32 ||| (byteAt bytes (start + 1)).toUInt32 <<< 8 |||
    (byteAt bytes (start + 2)).toUInt32 <<< 16 ||| (byteAt bytes (start + 3)).toUInt32 <<< 24

/-- The last `count` of the 64 steps over the block that begins at `start`. -/
def steps (bytes : ByteArray) (start : Nat) : Nat → State → State
  | 0, state => state
  | count + 1, ⟨a, b, c, d⟩ =>
    let step := 63 - count
    let (mixed, word) := mix step b c d
    let sum := a + mixed + sines.getD step 0 + wordAt bytes (start + 4 * word)
    steps bytes start count ⟨d, b + rotateLeft sum (turn step), b, c⟩

def compress (bytes : ByteArray) (start : Nat) (state : State) : State :=
  let after := steps bytes start 64 state
  ⟨state.a + after.a, state.b + after.b, state.c + after.c, state.d + after.d⟩

/-- Folds so many blocks, from `start` on, into the state. -/
def absorb (bytes : ByteArray) (start : Nat) : Nat → State → State
  | 0, state => state
  | count + 1, state => absorb bytes (start + 64) count (compress bytes start state)

/-- A word as bytes, the lowest first. -/
def wordBytes (word : UInt32) : List UInt8 :=
  [word.toUInt8, (word >>> 8).toUInt8, (word >>> 16).toUInt8, (word >>> 24).toUInt8]

/-- The length of a message in bits as eight bytes, the lowest first. -/
def lengthBytes (size : Nat) : List UInt8 :=
  (List.range 8).map fun i => UInt8.ofNat ((8 * size) >>> (8 * i))

/-- The zeros that fill up the last block. -/
def paddingZeros (size : Nat) : Nat := (119 - size % 64) % 64

/-- What follows a message of this size: a single bit, zeros, and the length. -/
def padding (size : Nat) : ByteArray :=
  ⟨(0x80 :: List.replicate (paddingZeros size) 0 ++ lengthBytes size).toArray⟩

def State.digest (state : State) : List UInt8 :=
  wordBytes state.a ++ wordBytes state.b ++ wordBytes state.c ++ wordBytes state.d

def digest (message : ByteArray) : List UInt8 :=
  let padded := message ++ padding message.size
  (absorb padded 0 (padded.size / 64) initial).digest

end ChunkedUpload.Md5
