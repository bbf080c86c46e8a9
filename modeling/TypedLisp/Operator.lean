import TypedLisp.Typing

/-! Operators, the class of their operands and how many they take.

An operator's result has the concrete type of its operand class, so comparisons
are numbers.
-/

set_option autoImplicit false

namespace TypedLisp

inductive Operator where
  | add
  | sub
  | mul
  | div
  | mod
  | greater
  | smaller
  | equal
  | and
  | or
  | not
  deriving Repr, DecidableEq

namespace Operator

def all : List Operator :=
  [.add, .sub, .mul, .div, .mod, .greater, .smaller, .equal, .and, .or, .not]

def symbol : Operator → String
  | .add => "+"
  | .sub => "-"
  | .mul => "*"
  | .div => "/"
  | .mod => "mod"
  | .greater => ">"
  | .smaller => "<"
  | .equal => "="
  | .and => "and"
  | .or => "or"
  | .not => "not"

def operandClass : Operator → OperandClass
  | .and | .or | .not => .boolean
  | _ => .number

/-- Variadic operators take two operands or more. -/
def variadic : Operator → Bool
  | .add | .mul | .equal | .and | .or => true
  | _ => false

/-- The least number of operands, and the greatest unless the operator is variadic. -/
def arity : Operator → Nat
  | .not => 1
  | _ => 2

def takesMore (operator : Operator) (count : Nat) : Bool :=
  operator.variadic || count < operator.arity

def isSaturated (operator : Operator) (count : Nat) : Bool :=
  operator.arity ≤ count

theorem mem_all (operator : Operator) : operator ∈ all := by
  cases operator <;> decide

def ofSymbol? (symbol : String) : Option Operator :=
  all.find? fun operator => operator.symbol == symbol

end Operator

end TypedLisp
