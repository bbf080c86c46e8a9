/-! Decimal integers as text.

A text is an optional sign followed by at least one digit. Leading zeros and a
negative zero are read; the written form has neither, and reads back.
-/

set_option autoImplicit false

namespace TypedLisp.Decimal

def unsigned? (digits : List Char) : Option Nat :=
  if digits ≠ [] ∧ digits.all Char.isDigit then some (Nat.ofDigitChars 10 digits 0) else none

/-- The integer that a text of a sign and digits denotes, however long it is. -/
def read? : List Char → Option Int
  | '-' :: digits => (unsigned? digits).map fun magnitude => -(magnitude : Int)
  | '+' :: digits => (unsigned? digits).map Int.ofNat
  | digits => (unsigned? digits).map Int.ofNat

structure Bounds where
  least : Int
  greatest : Int
  deriving Repr, DecidableEq

def signed32 : Bounds := ⟨-0x80000000, 0x7fffffff⟩

def signed64 : Bounds := ⟨-0x8000000000000000, 0x7fffffffffffffff⟩

def Bounds.contains (bounds : Bounds) (integer : Int) : Bool :=
  bounds.least ≤ integer && integer ≤ bounds.greatest

def write : Int → List Char
  | .ofNat magnitude => Nat.toDigits 10 magnitude
  | .negSucc magnitude => '-' :: Nat.toDigits 10 (magnitude + 1)

theorem unsigned?_toDigits (magnitude : Nat) :
    unsigned? (Nat.toDigits 10 magnitude) = some magnitude := by
  have digits : (Nat.toDigits 10 magnitude).all Char.isDigit := by
    rw [List.all_eq_true]
    exact fun digit member => Nat.isDigit_of_mem_toDigits (by decide) (by decide) member
  rw [unsigned?, if_pos ⟨Nat.toDigits_ne_nil, digits⟩, Nat.ofDigitChars_ten_toDigits]

theorem read?_of_isDigit {first : Char} (rest : List Char) (digit : first.isDigit) :
    read? (first :: rest) = (unsigned? (first :: rest)).map Int.ofNat := by
  unfold read?
  split
  next same => cases same; exact absurd digit (by decide)
  next same => cases same; exact absurd digit (by decide)
  next => rfl

theorem read?_toDigits (magnitude : Nat) :
    read? (Nat.toDigits 10 magnitude) = some (magnitude : Int) := by
  cases written : Nat.toDigits 10 magnitude with
  | nil => exact absurd written Nat.toDigits_ne_nil
  | cons first rest =>
    have digit : first.isDigit :=
      Nat.isDigit_of_mem_toDigits (b := 10) (n := magnitude) (by decide) (by decide) (by simp [written])
    rw [read?_of_isDigit rest digit, ← written, unsigned?_toDigits]
    rfl

theorem read?_write (integer : Int) : read? (write integer) = some integer := by
  cases integer with
  | ofNat magnitude => exact read?_toDigits magnitude
  | negSucc magnitude =>
    simp only [write, read?, unsigned?_toDigits]
    rfl

end TypedLisp.Decimal
