/-! Value types and the operand rules.

There is no name resolution, so identifiers and calls are `unconstrained` and
fit wherever a number or a boolean is asked for. Conditionals and functions have
no value type at all and fit nowhere.
-/

set_option autoImplicit false

namespace TypedLisp

inductive ValueType where
  | number
  | boolean
  | unconstrained
  deriving Repr, DecidableEq

inductive OperandClass where
  | number
  | boolean
  deriving Repr, DecidableEq

def ValueType.name : ValueType → String
  | .number => "number"
  | .boolean => "boolean"
  | .unconstrained => "unconstrained"

def OperandClass.name : OperandClass → String
  | .number => "number"
  | .boolean => "boolean"

/-- The one type that pins a class down. -/
def OperandClass.valueType : OperandClass → ValueType
  | .number => .number
  | .boolean => .boolean

def ValueType.fits (valueType : ValueType) (expected : OperandClass) : Bool :=
  valueType == .unconstrained || valueType == expected.valueType

/-- An operand as the rules see it: its type, and the name it goes by without one. -/
structure Operand where
  valueType : Option ValueType
  kindName : String
  deriving Repr, DecidableEq

namespace Operand

def fits (operand : Operand) (expected : OperandClass) : Bool :=
  operand.valueType.any (·.fits expected)

def name (operand : Operand) : String :=
  (operand.valueType.map ValueType.name).getD operand.kindName

end Operand

inductive TypeFault where
  | mismatch (context : String) (expected : OperandClass) (found : String)
  | mixedList (found : List String)
  deriving Repr, DecidableEq

def TypeFault.message : TypeFault → String
  | .mismatch context expected found =>
      context ++ ": expect '" ++ expected.name ++ "' but got '" ++ found ++ "'"
  | .mixedList found =>
      "all arguments must be of the same type, got " ++ ", ".intercalate found

def expectClass (context : String) (expected : OperandClass) (operands : List Operand) :
    Except TypeFault Unit :=
  match operands.find? fun operand => !operand.fits expected with
  | none => .ok ()
  | some misfit => .error (.mismatch context expected misfit.name)

def typeWithin (expected : OperandClass) (operands : List Operand) : ValueType :=
  if operands.any fun operand => operand.valueType == some expected.valueType then expected.valueType
  else .unconstrained

/-- The type that all members of a list share, numbers being tried before booleans. -/
def sharedType (operands : List Operand) : Except TypeFault ValueType :=
  if operands.all (·.fits .number) then .ok (typeWithin .number operands)
  else if operands.all (·.fits .boolean) then .ok (typeWithin .boolean operands)
  else .error (.mixedList (operands.map Operand.name))

theorem expectClass_eq_ok_iff (context : String) (expected : OperandClass)
    (operands : List Operand) :
    expectClass context expected operands = .ok () ↔
      ∀ operand ∈ operands, operand.fits expected := by
  unfold expectClass
  split
  next none => simpa using none
  next misfit found =>
    have member := List.mem_of_find?_eq_some found
    have unfit := List.find?_some found
    simp only [reduceCtorEq, false_iff]
    exact fun all => by simp [all misfit member] at unfit

end TypedLisp
