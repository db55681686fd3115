import Overlay.Distance

/-!
# Random identifiers

A draw is 32 bytes from some source, read as an identifier. Identifiers with a wanted first
part keep the draw's bits after that part, so every identifier of the wanted form comes from
some draw. A byte script is the source that repeats a fixed byte list for ever.
-/
namespace Overlay

namespace Id

/-- The word whose first `depth` bits are set. -/
def stemMask (depth : Nat) : BitVec 256 := BitVec.allOnes 256 <<< (256 - depth)

/-- The first `depth` bits of `stem`, at most 256, followed by those of the draw. -/
def withStem (stem : Id) (depth : Nat) (draw : Id) : Id :=
  let mask := stemMask (min depth 256)
  ⟨(stem.word &&& mask) ||| (draw.word &&& ~~~mask)⟩

/-- An identifier whose distance to `id` has exactly `min distance 256` significant bits. -/
def atLogDistance (id : Id) (distance : Nat) (draw : Id) : Id :=
  if distance = 0 then id
  else
    let shared := 256 - min distance 256
    (id.withStem shared draw).withBit shared (!id.bit shared)

end Id

/-- A byte list repeated for ever; the empty list counts as one zero byte. -/
structure ByteScript where
  /-- The bytes of one repetition. -/
  bytes : List UInt8
  deriving DecidableEq, Repr

namespace ByteScript

/-- The byte at a position of the repeated list. -/
def byteAt (script : ByteScript) (position : Nat) : UInt8 :=
  script.bytes.getD (position % script.bytes.length) 0

/-- The draw number `index`: the bytes from position `32 * index` on. -/
def draw (script : ByteScript) (index : Nat) : Id :=
  Id.ofBytes ((List.range 32).map fun i => script.byteAt (32 * index + i))

end ByteScript

end Overlay
