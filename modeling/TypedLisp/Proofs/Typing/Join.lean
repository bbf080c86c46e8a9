import Mathlib.Order.Bounds.Basic
import TypedLisp.Proofs.Typing.Operands

/-! The type of a list is a join.

An unconstrained value may be of either type, so it is below both; numbers and booleans
have nothing above them both, and an operand without a type has nothing above it at all.
The type of a list is the least one above all of its operands, and a list is refused if
there is none. In which order the two classes are tried, and in which order and how often
operands stand in the list, makes no difference.
-/

set_option autoImplicit false

namespace TypedLisp

namespace ValueType

variable {first second shared : ValueType}

/-- What is unconstrained is below every type, and every type is below itself. -/
instance : PartialOrder ValueType where
  le first second := first = .unconstrained ∨ first = second
  le_refl _ := .inr rfl
  le_trans _ _ _ below above := by
    rcases below with rfl | rfl
    · exact .inl rfl
    · exact above
  le_antisymm _ _ below above := by
    rcases below with rfl | rfl
    · exact (above.elim id id).symm
    · rfl

theorem le_iff : first ≤ second ↔ first = .unconstrained ∨ first = second := Iff.rfl

theorem unconstrained_le (valueType : ValueType) : .unconstrained ≤ valueType := .inl rfl

theorem le_total_of_le {bound : ValueType} (below : first ≤ bound) (below' : second ≤ bound) :
    first ≤ second ∨ second ≤ first := by
  rcases below with rfl | rfl
  · exact .inl (unconstrained_le second)
  · exact .inr below'

/-- The least type above two types, unless nothing is above them both. -/
def join? : ValueType → ValueType → Option ValueType
  | .unconstrained, other | other, .unconstrained => some other
  | first, second => if first = second then some first else none

theorem join?_eq_some_iff_of_le (below : first ≤ second) :
    first.join? second = some shared ↔ second = shared := by
  rcases below with rfl | rfl
  · cases second <;> simp [join?]
  · cases first <;> simp [join?]

theorem join?_comm (first second : ValueType) : first.join? second = second.join? first := by
  cases first <;> cases second <;> rfl

theorem join?_eq_some_iff : first.join? second = some shared ↔ IsLUB {first, second} shared := by
  have upper {bound : ValueType} :
      bound ∈ upperBounds {first, second} ↔ first ≤ bound ∧ second ≤ bound := by
    simp [upperBounds]
  have comparable (below : first ≤ second) : IsLUB {first, second} second :=
    ⟨upper.mpr ⟨below, le_refl second⟩, fun _ bounds => (upper.mp bounds).2⟩
  have comparable' (below : second ≤ first) : IsLUB {first, second} first :=
    ⟨upper.mpr ⟨le_refl first, below⟩, fun _ bounds => (upper.mp bounds).1⟩
  by_cases below : first ≤ second
  · rw [join?_eq_some_iff_of_le below]
    exact ⟨fun same => same ▸ comparable below, (comparable below).unique⟩
  by_cases below' : second ≤ first
  · rw [join?_comm, join?_eq_some_iff_of_le below']
    exact ⟨fun same => same ▸ comparable' below', (comparable' below').unique⟩
  · constructor
    · cases first <;> cases second <;> simp_all [join?, le_iff]
    · intro least
      obtain ⟨bound, bound'⟩ := upper.mp least.1
      exact ((le_total_of_le bound bound').elim below below').elim

end ValueType

/-- An operand may be taken for a value of this type. -/
def Operand.Below (operand : Operand) (bound : ValueType) : Prop :=
  ∃ valueType, operand.valueType = some valueType ∧ valueType ≤ bound

def upperTypes (operands : List Operand) : Set ValueType :=
  fun bound => ∀ operand ∈ operands, operand.Below bound

section
variable {operands first second : List Operand} {shared bound : ValueType}

theorem Operand.below_iff {operand : Operand} :
    operand.Below bound ↔
      operand.valueType = some .unconstrained ∨ operand.valueType = some bound := by
  simp [Below, ValueType.le_iff, exists_or, and_or_left]

theorem mem_upperTypes_iff :
    bound ∈ upperTypes operands ↔ ∀ operand ∈ operands,
      operand.valueType = some .unconstrained ∨ operand.valueType = some bound :=
  forall₂_congr fun _ _ => Operand.below_iff

theorem upperTypes_append :
    upperTypes (first ++ second) = upperTypes first ∩ upperTypes second :=
  Set.ext fun _ => List.forall_mem_append

theorem upperTypes_congr (same : ∀ operand, operand ∈ first ↔ operand ∈ second) :
    upperTypes first = upperTypes second :=
  Set.ext fun _ => forall_congr' fun operand => imp_congr_left (same operand)

theorem upperTypes_mono (above : bound ∈ upperTypes operands) (below : bound ≤ shared) :
    shared ∈ upperTypes operands := by
  intro operand member
  obtain ⟨valueType, typed, le⟩ := above operand member
  exact ⟨valueType, typed, le.trans below⟩

theorem le_of_mem_upperTypes {operand : Operand} {valueType : ValueType} (member : operand ∈ operands)
    (typed : operand.valueType = some valueType) (above : bound ∈ upperTypes operands) :
    valueType ≤ bound := by
  obtain ⟨other, typed', below⟩ := above operand member
  cases typed.symm.trans typed'
  exact below

theorem attained_or_free (above : bound ∈ upperTypes operands) :
    (∃ operand ∈ operands, operand.valueType = some bound) ∨ .unconstrained ∈ upperTypes operands := by
  refine or_iff_not_imp_left.mpr fun unattained => mem_upperTypes_iff.mpr fun operand member => .inl ?_
  exact (mem_upperTypes_iff.mp above operand member).resolve_right fun typed =>
    unattained ⟨operand, member, typed⟩

theorem isLeast_iff_shares : IsLeast (upperTypes operands) shared ↔ Shares operands shared := by
  constructor
  · rintro ⟨above, least⟩
    refine ⟨mem_upperTypes_iff.mp above, ?_⟩
    rcases attained_or_free above with attained | free
    · exact .inr attained
    · exact .inl ((least free).elim id id)
  · rintro ⟨within, attained⟩
    refine ⟨mem_upperTypes_iff.mpr within, fun bound above => ?_⟩
    rcases attained with rfl | ⟨operand, member, typed⟩
    · exact ValueType.unconstrained_le bound
    · exact le_of_mem_upperTypes member typed above

theorem exists_isLeast (above : bound ∈ upperTypes operands) :
    ∃ shared, IsLeast (upperTypes operands) shared := by
  rcases attained_or_free above with ⟨operand, member, typed⟩ | free
  · exact ⟨bound, above, fun _ => le_of_mem_upperTypes member typed⟩
  · exact ⟨_, free, fun other _ => ValueType.unconstrained_le other⟩

/-! ## The type of a list -/

theorem sharedType_eq_ok_iff_isLeast :
    sharedType operands = .ok shared ↔ IsLeast (upperTypes operands) shared :=
  sharedType_eq_ok_iff.trans isLeast_iff_shares.symm

theorem sharedType_eq_error_iff_isLeast {fault : TypeFault} :
    sharedType operands = .error fault ↔
      (∀ shared, ¬ IsLeast (upperTypes operands) shared) ∧
        fault = .mixedList (operands.map Operand.name) := by
  simp only [← sharedType_eq_ok_iff_isLeast]
  constructor
  · intro refused
    refine ⟨fun shared found => ?_, (sharedType_eq_error_iff.mp refused).2⟩
    rw [found] at refused
    cases refused
  · rintro ⟨none, rfl⟩
    cases found : sharedType operands with
    | ok shared => exact absurd found (none shared)
    | error other => rw [(sharedType_eq_error_iff.mp found).2]

theorem toOption_sharedType_eq_some_iff :
    (sharedType operands).toOption = some shared ↔ IsLeast (upperTypes operands) shared := by
  rw [← sharedType_eq_ok_iff_isLeast]
  cases sharedType operands <;> simp [Except.toOption]

theorem mem_upperTypes_iff_le :
    bound ∈ upperTypes operands ↔
      ∃ shared, (sharedType operands).toOption = some shared ∧ shared ≤ bound := by
  simp only [toOption_sharedType_eq_some_iff]
  constructor
  · intro above
    obtain ⟨shared, least⟩ := exists_isLeast above
    exact ⟨shared, least, least.2 above⟩
  · rintro ⟨shared, least, below⟩
    exact upperTypes_mono least.1 below

-- Upper types of the whole are those of both parts, so the least one is the join of the two least.
theorem sharedType_append (first second : List Operand) :
    (sharedType (first ++ second)).toOption =
      (sharedType first).toOption.bind fun one =>
        (sharedType second).toOption.bind fun other => one.join? other := by
  refine Option.ext fun shared => ?_
  rw [toOption_sharedType_eq_some_iff, upperTypes_append]
  cases one : (sharedType first).toOption with
  | none =>
    have none (bound : ValueType) : bound ∉ upperTypes first := by simp [mem_upperTypes_iff_le, one]
    exact iff_of_false (fun least => none shared least.1.1) (by simp)
  | some one' =>
    cases other : (sharedType second).toOption with
    | none =>
      have none (bound : ValueType) : bound ∉ upperTypes second := by
        simp [mem_upperTypes_iff_le, other]
      exact iff_of_false (fun least => none shared least.1.2) (by simp)
    | some other' =>
      have both : upperTypes first ∩ upperTypes second = upperBounds {one', other'} := by
        ext bound
        simp [mem_upperTypes_iff_le, one, other, upperBounds]
      rw [both]
      exact ValueType.join?_eq_some_iff.symm

end

/-- The type of a list is the join of the types of its operands, if there is one. So the types of two
lists decide that of both together, and which operands there are decides it, not how they are listed. -/
theorem sharedType_is_join :
    ((.unconstrained : ValueType) ≤ .number ∧ (.unconstrained : ValueType) ≤ .boolean ∧
      ¬ ∃ bound, ValueType.number ≤ bound ∧ ValueType.boolean ≤ bound) ∧
    (∀ operands shared, sharedType operands = .ok shared ↔ IsLeast (upperTypes operands) shared) ∧
    (∀ operands fault, sharedType operands = .error fault ↔
      (∀ shared, ¬ IsLeast (upperTypes operands) shared) ∧
        fault = .mixedList (operands.map Operand.name)) ∧
    sharedType [] = .ok .unconstrained ∧
    (∀ first second, (sharedType (first ++ second)).toOption =
      (sharedType first).toOption.bind fun one =>
        (sharedType second).toOption.bind fun other => one.join? other) ∧
    (∀ one other shared : ValueType, one.join? other = some shared ↔ IsLUB {one, other} shared) ∧
    ∀ first second, (∀ operand, operand ∈ first ↔ operand ∈ second) →
      (sharedType first).toOption = (sharedType second).toOption := by
  refine ⟨⟨.inl rfl, .inl rfl, ?_⟩, fun _ _ => sharedType_eq_ok_iff_isLeast,
    fun _ _ => sharedType_eq_error_iff_isLeast, rfl, sharedType_append,
    fun _ _ _ => ValueType.join?_eq_some_iff, fun first second same => ?_⟩
  · rintro ⟨bound, below, below'⟩
    have apart := ValueType.le_total_of_le below below'
    simp [ValueType.le_iff] at apart
  · refine Option.ext fun shared => ?_
    rw [toOption_sharedType_eq_some_iff, toOption_sharedType_eq_some_iff, upperTypes_congr same]

theorem sharedType_is_join_repeated :
    ∃ name literal : Operand, name = ⟨some .unconstrained, "id"⟩ ∧
      literal = ⟨some .boolean, "boolean"⟩ ∧
      (∀ operand, operand ∈ [name, literal] ↔ operand ∈ [literal, name, literal]) ∧
      (sharedType [name, literal]).toOption = (sharedType [literal, name, literal]).toOption ∧
      sharedType [name, literal] = .ok .boolean := by
  refine ⟨_, _, rfl, rfl, ?same, sharedType_is_join.2.2.2.2.2.2 _ _ ?same, rfl⟩
  intro operand
  simp [or_comm]

end TypedLisp
