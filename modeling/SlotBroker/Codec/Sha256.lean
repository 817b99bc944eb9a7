/-!
# SHA-256

The digest of a message: the message is padded to whole blocks of sixty-four bytes, and each block
is mixed into a state of eight words by sixty-four rounds. The type says that a digest has
thirty-two bytes.
-/

namespace SlotBroker.Codec.Sha256

/-- The word that each round adds. -/
def roundWords : List UInt32 :=
  [0x428a2f98, 0x71374491, 0xb5c0fbcf, 0xe9b5dba5, 0x3956c25b, 0x59f111f1, 0x923f82a4, 0xab1c5ed5,
   0xd807aa98, 0x12835b01, 0x243185be, 0x550c7dc3, 0x72be5d74, 0x80deb1fe, 0x9bdc06a7, 0xc19bf174,
   0xe49b69c1, 0xefbe4786, 0x0fc19dc6, 0x240ca1cc, 0x2de92c6f, 0x4a7484aa, 0x5cb0a9dc, 0x76f988da,
   0x983e5152, 0xa831c66d, 0xb00327c8, 0xbf597fc7, 0xc6e00bf3, 0xd5a79147, 0x06ca6351, 0x14292967,
   0x27b70a85, 0x2e1b2138, 0x4d2c6dfc, 0x53380d13, 0x650a7354, 0x766a0abb, 0x81c2c92e, 0x92722c85,
   0xa2bfe8a1, 0xa81a664b, 0xc24b8b70, 0xc76c51a3, 0xd192e819, 0xd6990624, 0xf40e3585, 0x106aa070,
   0x19a4c116, 0x1e376c08, 0x2748774c, 0x34b0bcb5, 0x391c0cb3, 0x4ed8aa4a, 0x5b9cca4f, 0x682e6ff3,
   0x748f82ee, 0x78a5636f, 0x84c87814, 0x8cc70208, 0x90befffa, 0xa4506ceb, 0xbef9a3f7, 0xc67178f2]

/-- The state before the first block. -/
def start : Vector UInt32 8 :=
  #v[0x6a09e667, 0xbb67ae85, 0x3c6ef372, 0xa54ff53a, 0x510e527f, 0x9b05688c, 0x1f83d9ab, 0x5be0cd19]

/-- The word turned right by `n` bits, for `n` from 1 to 31. -/
def turn (n x : UInt32) : UInt32 := (x >>> n) ||| (x <<< (32 - n))

/-- The big-endian word at the head of some bytes, zero past their end. -/
def wordOf (bs : List UInt8) : UInt32 :=
  (bs.getD 0 0).toUInt32 <<< 24 ||| (bs.getD 1 0).toUInt32 <<< 16 |||
    (bs.getD 2 0).toUInt32 <<< 8 ||| (bs.getD 3 0).toUInt32

/-- The eight big-endian bytes of the length of a message in bits. -/
def lengthBytes (size : Nat) : List UInt8 :=
  (List.range 8).map fun i => UInt8.ofNat ((size * 8) >>> (56 - 8 * i) % 256)

/-- The message, a set bit, zeros up to a whole block less eight bytes, and the length. -/
def pad (message : List UInt8) : List UInt8 :=
  message ++ 0x80 :: List.replicate ((119 - message.length % 64) % 64) 0 ++
    lengthBytes message.length

/-- The sixty-four words that a block supplies: its own sixteen, then each made of four before. -/
def schedule (block : List UInt8) : Array UInt32 :=
  (List.range 48).foldl extend ((List.range 16).map fun i => wordOf (block.drop (4 * i))).toArray
where
  /-- The next word, pushed. -/
  extend (w : Array UInt32) (i : Nat) : Array UInt32 :=
    let x := w.getD (i + 1) 0
    let y := w.getD (i + 14) 0
    let s0 := turn 7 x ^^^ turn 18 x ^^^ (x >>> 3)
    let s1 := turn 17 y ^^^ turn 19 y ^^^ (y >>> 10)
    w.push (w.getD i 0 + s0 + w.getD (i + 9) 0 + s1)

/-- One round on the state, with the word that the block supplies and the round's own added up. -/
def round (h : Vector UInt32 8) (word : UInt32) : Vector UInt32 8 :=
  let a := h[0]; let b := h[1]; let c := h[2]; let e := h[4]; let f := h[5]; let g := h[6]
  let s1 := turn 6 e ^^^ turn 11 e ^^^ turn 25 e
  let choice := (e &&& f) ^^^ (~~~e &&& g)
  let t1 := h[7] + s1 + choice + word
  let s0 := turn 2 a ^^^ turn 13 a ^^^ turn 22 a
  let majority := (a &&& b) ^^^ (a &&& c) ^^^ (b &&& c)
  #v[t1 + (s0 + majority), a, b, c, h[3] + t1, e, f, g]

/-- The state after a block. -/
def absorb (h : Vector UInt32 8) (block : List UInt8) : Vector UInt32 8 :=
  let mixed := (roundWords.zipWith (· + ·) (schedule block).toList).foldl round h
  h.zipWith (· + ·) mixed

/-- The state after the first `n` blocks of some bytes. -/
def absorbAll : Nat → Vector UInt32 8 → List UInt8 → Vector UInt32 8
  | 0, h, _ => h
  | n + 1, h, bs => absorbAll n (absorb h (bs.take 64)) (bs.drop 64)

/-- The SHA-256 digest of a message. -/
def digest (message : List UInt8) : Vector UInt8 32 :=
  let padded := pad message
  let state := absorbAll (padded.length / 64) start padded
  Vector.ofFn fun i => (state[i.val / 4] >>> UInt32.ofNat (24 - 8 * (i.val % 4))).toUInt8

end SlotBroker.Codec.Sha256
