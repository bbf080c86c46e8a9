/-! Faults with the line they are reported on.

Lines count from one. Moving a text down by some lines moves its faults by as many.
-/

set_option autoImplicit false

namespace TypedLisp

structure Located (Fault : Type) where
  fault : Fault
  line : Nat
  deriving Repr, DecidableEq

namespace Located

variable {Fault Other : Type}

def map (transform : Fault → Other) (located : Located Fault) : Located Other :=
  ⟨transform located.fault, located.line⟩

/-- The same fault in a text that starts `lines` further down. -/
def shift (lines : Nat) (located : Located Fault) : Located Fault :=
  ⟨located.fault, located.line + lines⟩

end Located

end TypedLisp
