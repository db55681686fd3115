/-!
# BLAKE2b with a 64-byte digest and no key

The state is eight 64-bit words. Each block of 128 bytes is read as sixteen little-endian
words and mixed into the state by twelve rounds, together with the number of bytes read so
far; the last block, padded with zero bytes, is mixed with the finalization flag set.
-/
namespace Overlay.Hash.Blake2b

/-- The initialization vector: fractional parts of the square roots of the first primes. -/
def iv : Vector UInt64 8 := #v[
  0x6a09e667f3bcc908, 0xbb67ae8584caa73b, 0x3c6ef372fe94f82b, 0xa54ff53a5f1d36f1,
  0x510e527fade682d1, 0x9b05688c2b3e6c1f, 0x1f83d9abfb41bd6b, 0x5be0cd19137e2179]

/-- The order in which the ten distinct rounds take the message words. -/
def schedule : List (Vector (Fin 16) 16) := [
  #v[0, 1, 2, 3, 4, 5, 6, 7, 8, 9, 10, 11, 12, 13, 14, 15],
  #v[14, 10, 4, 8, 9, 15, 13, 6, 1, 12, 0, 2, 11, 7, 5, 3],
  #v[11, 8, 12, 0, 5, 2, 15, 13, 10, 14, 3, 6, 7, 1, 9, 4],
  #v[7, 9, 3, 1, 13, 12, 11, 14, 2, 6, 5, 10, 4, 0, 15, 8],
  #v[9, 0, 5, 7, 2, 4, 10, 15, 14, 1, 11, 12, 6, 8, 3, 13],
  #v[2, 12, 6, 10, 0, 11, 8, 3, 4, 13, 7, 5, 15, 14, 1, 9],
  #v[12, 5, 1, 15, 14, 13, 4, 10, 0, 7, 6, 3, 9, 2, 8, 11],
  #v[13, 11, 7, 14, 12, 1, 3, 9, 5, 0, 15, 4, 8, 6, 2, 10],
  #v[6, 15, 14, 9, 11, 3, 0, 8, 12, 2, 13, 7, 1, 4, 10, 5],
  #v[10, 2, 8, 4, 7, 6, 1, 5, 15, 11, 9, 14, 3, 12, 13, 0]]

/-- The twelve rounds: the ten distinct ones, then the first two again. -/
def rounds : List (Vector (Fin 16) 16) := schedule ++ schedule.take 2

/-- Rotation of a word to the right. -/
def rotateRight (word : UInt64) (amount : UInt64) : UInt64 :=
  (word >>> amount) ||| (word <<< (64 - amount))

/-- Mix two message words into four words of the working vector. -/
def mix (v : Vector UInt64 16) (a b c d : Fin 16) (x y : UInt64) : Vector UInt64 16 :=
  let va := v[a] + v[b] + x
  let vd := rotateRight (v[d] ^^^ va) 32
  let vc := v[c] + vd
  let vb := rotateRight (v[b] ^^^ vc) 24
  let va := va + vb + y
  let vd := rotateRight (vd ^^^ va) 16
  let vc := vc + vd
  let vb := rotateRight (vb ^^^ vc) 63
  (((v.set a va).set b vb).set c vc).set d vd

/-- One round: the four columns, then the four diagonals. -/
def round (message v : Vector UInt64 16) (order : Vector (Fin 16) 16) : Vector UInt64 16 :=
  let m := fun i : Fin 16 => message[order[i]]
  let v := mix v 0 4 8 12 (m 0) (m 1)
  let v := mix v 1 5 9 13 (m 2) (m 3)
  let v := mix v 2 6 10 14 (m 4) (m 5)
  let v := mix v 3 7 11 15 (m 6) (m 7)
  let v := mix v 0 5 10 15 (m 8) (m 9)
  let v := mix v 1 6 11 12 (m 10) (m 11)
  let v := mix v 2 7 8 13 (m 12) (m 13)
  mix v 3 4 9 14 (m 14) (m 15)

/-- The little-endian word of up to eight bytes. -/
def word (bytes : List UInt8) : UInt64 :=
  bytes.foldr (fun byte rest => byte.toUInt64 ||| (rest <<< 8)) 0

/-- The sixteen words of a block, missing bytes counting as zero. -/
def blockWords (block : List UInt8) : Vector UInt64 16 :=
  Vector.ofFn fun i => word ((block.drop (8 * i.val)).take 8)

/-- Mix one block into the state; `count` bytes have been read, this block included. -/
def compress (h : Vector UInt64 8) (block : List UInt8) (count : Nat) (last : Bool) :
    Vector UInt64 8 :=
  let v : Vector UInt64 16 := h ++ iv
  let v := v.set 12 (v[12] ^^^ UInt64.ofNat count)
  let v := v.set 13 (v[13] ^^^ UInt64.ofNat (count / UInt64.size))
  let v := if last then v.set 14 (~~~ v[14]) else v
  let v := rounds.foldl (round (blockWords block)) v
  Vector.ofFn fun i : Fin 8 =>
    h[i] ^^^ v[(⟨i.val, by omega⟩ : Fin 16)] ^^^ v[(⟨i.val + 8, by omega⟩ : Fin 16)]

/-- Mix all remaining blocks into the state; `count` bytes went before. -/
def absorb (h : Vector UInt64 8) (count : Nat) (data : List UInt8) : Vector UInt64 8 :=
  match remaining : data.drop 128 with
  | [] => compress h data (count + data.length) true
  | next :: later => absorb (compress h (data.take 128) (count + 128) false) (count + 128)
      (next :: later)
termination_by data.length
decreasing_by
  have shorter := congrArg List.length remaining
  simp only [List.length_drop, List.length_cons] at shorter ⊢
  omega

/-- The bytes of a word, low byte first. -/
def wordBytes (w : UInt64) : List UInt8 :=
  (List.range 8).map fun i => (w >>> UInt64.ofNat (8 * i)).toUInt8

/-- The state before the first block: digest length 64, no key, one lane. -/
def start : Vector UInt64 8 := iv.set 0 (iv[0] ^^^ 0x01010040)

/-- The 64-byte digest. -/
def digest (data : List UInt8) : List UInt8 :=
  (absorb start 0 data).toList.flatMap wordBytes

end Overlay.Hash.Blake2b
