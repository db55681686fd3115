import Overlay.Id

/-!
# The exclusive-or metric

The distance of two identifiers is the exclusive or of their words, read as a number: the
earlier the first differing bit, the larger the distance. The number of leading bits that two
identifiers share orders them more coarsely and is what buckets go by.
-/
namespace Overlay

/-- How far two identifiers lie apart; a smaller number is closer. -/
@[ext]
structure Distance where
  /-- The differing bits, most significant first. -/
  word : BitVec 256
  deriving DecidableEq, Repr

namespace Distance

/-- The distance of an identifier to itself. -/
def zero : Distance := ⟨0⟩

/-- The largest distance: every bit differs. -/
def max : Distance := ⟨BitVec.allOnes 256⟩

instance : LT Distance := ⟨fun a b => a.word < b.word⟩

instance : LE Distance := ⟨fun a b => a.word ≤ b.word⟩

instance (a b : Distance) : Decidable (a < b) :=
  inferInstanceAs (Decidable (a.word < b.word))

instance (a b : Distance) : Decidable (a ≤ b) :=
  inferInstanceAs (Decidable (a.word ≤ b.word))

/-- The 64 lower-case digits of a distance. -/
def hex (d : Distance) : String := Id.hex ⟨d.word⟩

/-- The form that names its type. -/
def debug (d : Distance) : String := "Distance(" ++ d.hex ++ ")"

/-- Number of leading clear bits, 256 for the zero distance. -/
def leadingZeros (d : Distance) : Nat :=
  if d.word = 0 then 256 else 255 - d.word.toNat.log2

end Distance

namespace Id

/-- The exclusive or of two identifiers. -/
def distance (a b : Id) : Distance := ⟨a.word ^^^ b.word⟩

/-- Number of leading bits that two identifiers share. -/
def sharedBits (a b : Id) : Nat := (a.distance b).leadingZeros

/-- Number of bits from the first differing one on: 0 for equal identifiers, 256 when the
first bits differ. -/
def logDistance (a b : Id) : Nat := 256 - a.sharedBits b

/-- The first `depth` bits of the identifier are those of `stem`. -/
def hasStem (id stem : Id) (depth : Nat) : Bool := decide (depth ≤ id.sharedBits stem)

/-- `a` is strictly closer to `target` than `b`. -/
def closer (target a b : Id) : Bool := decide (target.distance a < target.distance b)

/-- The order of two identifiers as numbers. -/
def order (a b : Id) : Ordering := compare a.word.toNat b.word.toNat

/-- The order of two identifiers by their distance to `target`. -/
def orderBy (target a b : Id) : Ordering :=
  compare (target.distance a).word.toNat (target.distance b).word.toNat

/-- Sorted by value; equal identifiers keep their order. -/
def sortByValue (ids : List Id) : List Id := ids.mergeSort fun a b => decide (a ≤ b)

/-- Sorted by distance to `target`; equal identifiers keep their order. -/
def sortByDistance (target : Id) (ids : List Id) : List Id :=
  ids.mergeSort fun a b => decide (target.distance a ≤ target.distance b)

end Id

end Overlay
