/-!
# Room

Room for the items of a list can be reserved before there is any item. No list can take more than
`2 ^ 63 - 1` bytes, whatever memory there is, so asking for more is a fault of whoever asks. That
there is memory for less is taken for granted.
-/
namespace Overlay

/-- Room was asked for that no list can take. -/
structure RoomOverflow where
  /-- The number of items asked for. -/
  count : Nat
  deriving DecidableEq, Repr

/-- The wording of the complaint. -/
def RoomOverflow.message (_ : RoomOverflow) : String := "capacity overflow"

/-- Ask for room for so many items of so many bytes each. -/
def reserve (bytes count : Nat) : Except RoomOverflow Unit :=
  if bytes * count < Nat.pow 2 63 then .ok () else .error ⟨count⟩

end Overlay
