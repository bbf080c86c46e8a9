/-! Sizes of screens.

A screen has 65535 cells at most. One that is asked for with more gets sides of
the same proportion that make up that many, computed in floating point and cut to
whole cells.
-/

set_option autoImplicit false

namespace TypedLisp.Screen

structure Size where
  width : Nat
  height : Nat
  deriving Repr, DecidableEq

def cellLimit : Nat := 65535

namespace Size

def cells (size : Size) : Nat :=
  size.width * size.height

/-- A size of the same proportion with about as many cells as there may be. -/
def shrunk (size : Size) : Size :=
  let proportion := size.width.toFloat / size.height.toFloat
  let height := (cellLimit.toFloat / proportion).sqrt
  ⟨(height * proportion).toUInt16.toNat, height.toUInt16.toNat⟩

/-- The size of the screen that is there when one of some size is asked for. -/
def available (size : Size) : Size :=
  if size.cells ≤ cellLimit then size else size.shrunk

theorem available_of_cells_le {size : Size} (fits : size.cells ≤ cellLimit) :
    size.available = size :=
  if_pos fits

end Size

end TypedLisp.Screen
