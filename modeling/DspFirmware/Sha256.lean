import DspFirmware.Bytes

/-!
The SHA-256 digest of a byte string.

The padded message is cut into blocks of 64 bytes, and each block stirs the eight words of the
state once.
-/

namespace DspFirmware.Sha256

/-- The eight words that are carried from block to block. -/
structure State where
  (a b c d e f g h : UInt32)

def initial : State :=
  ⟨0x6a09e667, 0xbb67ae85, 0x3c6ef372, 0xa54ff53a, 0x510e527f, 0x9b05688c, 0x1f83d9ab, 0x5be0cd19⟩

def constants : List UInt32 :=
  [0x428a2f98, 0x71374491, 0xb5c0fbcf, 0xe9b5dba5, 0x3956c25b, 0x59f111f1, 0x923f82a4, 0xab1c5ed5,
   0xd807aa98, 0x12835b01, 0x243185be, 0x550c7dc3, 0x72be5d74, 0x80deb1fe, 0x9bdc06a7, 0xc19bf174,
   0xe49b69c1, 0xefbe4786, 0x0fc19dc6, 0x240ca1cc, 0x2de92c6f, 0x4a7484aa, 0x5cb0a9dc, 0x76f988da,
   0x983e5152, 0xa831c66d, 0xb00327c8, 0xbf597fc7, 0xc6e00bf3, 0xd5a79147, 0x06ca6351, 0x14292967,
   0x27b70a85, 0x2e1b2138, 0x4d2c6dfc, 0x53380d13, 0x650a7354, 0x766a0abb, 0x81c2c92e, 0x92722c85,
   0xa2bfe8a1, 0xa81a664b, 0xc24b8b70, 0xc76c51a3, 0xd192e819, 0xd6990624, 0xf40e3585, 0x106aa070,
   0x19a4c116, 0x1e376c08, 0x2748774c, 0x34b0bcb5, 0x391c0cb3, 0x4ed8aa4a, 0x5b9cca4f, 0x682e6ff3,
   0x748f82ee, 0x78a5636f, 0x84c87814, 0x8cc70208, 0x90befffa, 0xa4506ceb, 0xbef9a3f7, 0xc67178f2]

def rotate (word count : UInt32) : UInt32 := word >>> count ||| word <<< (32 - count)

/-- The four bytes of a word, most significant first. -/
def bigEndian (word : UInt32) : Bytes := (Bytes.ofUInt32 word).reverse

/-- The word with the given bytes, most significant first. -/
def ofBigEndian (bytes : Bytes) : UInt32 := UInt32.ofNat (Bytes.ofLittleEndian bytes.reverse)

/-- The message, a one bit, zeros up to a whole number of blocks, and the length in bits. -/
def pad (message : Bytes) : Bytes :=
  message ++ [0x80] ++ List.replicate ((119 - message.length % 64) % 64) 0
    ++ (Bytes.littleEndian 8 (8 * message.length)).reverse

/-- The `count` words at the start of a byte string. -/
def words : (count : Nat) → Bytes → List UInt32
  | 0, _ => []
  | count + 1, bytes => ofBigEndian (bytes.take 4) :: words count (bytes.drop 4)

/-- Puts the next word of the schedule in front of the earlier ones, newest first. -/
def nextWord (earlier : List UInt32) : UInt32 :=
  let w2 := earlier.getD 1 0
  let w15 := earlier.getD 14 0
  earlier.getD 15 0 + (rotate w15 7 ^^^ rotate w15 18 ^^^ w15 >>> 3) + earlier.getD 6 0
    + (rotate w2 17 ^^^ rotate w2 19 ^^^ w2 >>> 10)

/-- Extends a schedule, newest word first, by `count` words. -/
def extend : (count : Nat) → List UInt32 → List UInt32
  | 0, earlier => earlier
  | count + 1, earlier => extend count (nextWord earlier :: earlier)

/-- The 64 words that a block gives to the rounds. -/
def schedule (block : Bytes) : List UInt32 := (extend 48 (words 16 block).reverse).reverse

def round (s : State) (input : UInt32 × UInt32) : State :=
  let first := s.h + (rotate s.e 6 ^^^ rotate s.e 11 ^^^ rotate s.e 25)
    + ((s.e &&& s.f) ^^^ (~~~s.e &&& s.g)) + input.1 + input.2
  let second := (rotate s.a 2 ^^^ rotate s.a 13 ^^^ rotate s.a 22)
    + ((s.a &&& s.b) ^^^ (s.a &&& s.c) ^^^ (s.b &&& s.c))
  ⟨first + second, s.a, s.b, s.c, s.d + first, s.e, s.f, s.g⟩

/-- Stirs a block into the state. -/
def compress (s : State) (block : Bytes) : State :=
  let t := (constants.zip (schedule block)).foldl round s
  ⟨s.a + t.a, s.b + t.b, s.c + t.c, s.d + t.d, s.e + t.e, s.f + t.f, s.g + t.g, s.h + t.h⟩

/-- Stirs `count` blocks into the state, one after the other. -/
def absorb : (count : Nat) → State → Bytes → State
  | 0, s, _ => s
  | count + 1, s, bytes => absorb count (compress s (bytes.take 64)) (bytes.drop 64)

def State.words (s : State) : List UInt32 := [s.a, s.b, s.c, s.d, s.e, s.f, s.g, s.h]

end Sha256

abbrev Digest := Bytes.Block 32

def sha256 (message : Bytes) : Digest :=
  let padded := Sha256.pad message
  let final := Sha256.absorb (padded.length / 64) Sha256.initial padded
  ⟨final.words.flatMap Sha256.bigEndian, by
    simp [Sha256.State.words, Sha256.bigEndian, Bytes.ofUInt32]⟩

end DspFirmware
