/-!
# Feeds

A feed announces values to any number of readers. It keeps the latest 256 of them; a reader
is a position in the sequence of all announcements and, when it reads, gets what came after
its position. A reader that fell further behind learns how many announcements it has lost.
-/
namespace Overlay

/-- The tail of a sequence of announcements. -/
structure Feed (α : Type) where
  /-- Number of announcements ever made. -/
  total : Nat
  /-- The latest announcements, oldest first. -/
  recent : List α
  deriving DecidableEq, Repr

namespace Feed

variable {α : Type}

/-- Number of announcements kept. -/
def capacity : Nat := 256

/-- Nothing has been announced. -/
def empty : Feed α := ⟨0, []⟩

/-- Announce a value. -/
def push (f : Feed α) (value : α) : Feed α :=
  let recent := f.recent ++ [value]
  ⟨f.total + 1, recent.drop (recent.length - capacity)⟩

/-- What a reader at a position gets. -/
structure Batch (α : Type) where
  /-- Number of announcements lost to the reader. -/
  lost : Nat
  /-- The announcements after those, in order. -/
  values : List α
  deriving DecidableEq, Repr

/-- Everything announced after the first `position` announcements. -/
def since (f : Feed α) (position : Nat) : Batch α :=
  let pending := f.total - position
  ⟨pending - f.recent.length, f.recent.drop (f.recent.length - pending)⟩

end Feed

end Overlay
