import TypedLisp.Typing

/-! What the checks of operands decide.

A check against a class fails on the first operand that does not fit. Operands
share a type if each of them is unconstrained or of that type, and a list of
them fits exactly where each of its members does.
-/

set_option autoImplicit false

namespace TypedLisp

theorem ValueType.fits_iff {valueType : ValueType} {expected : OperandClass} :
    valueType.fits expected ↔ valueType = .unconstrained ∨ valueType = expected.valueType := by
  simp [fits]

theorem Operand.fits_iff {operand : Operand} {expected : OperandClass} :
    operand.fits expected ↔
      operand.valueType = some .unconstrained ∨ operand.valueType = some expected.valueType := by
  unfold fits
  cases operand.valueType <;> simp [ValueType.fits_iff]

theorem expectClass_eq_error_iff {context : String} {expected : OperandClass}
    {operands : List Operand} {fault : TypeFault} :
    expectClass context expected operands = .error fault ↔
      ∃ before misfit after, operands = before ++ misfit :: after ∧
        (∀ operand ∈ before, operand.fits expected) ∧ ¬ misfit.fits expected ∧
        fault = .mismatch context expected misfit.name := by
  unfold expectClass
  constructor
  · intro failed
    split at failed
    · cases failed
    next misfit found =>
      obtain ⟨unfit, before, after, split, fitting⟩ := List.find?_eq_some_iff_append.mp found
      cases failed
      exact ⟨before, misfit, after, split, by simpa using fitting, by simpa using unfit, rfl⟩
  · rintro ⟨before, misfit, after, split, fitting, unfit, rfl⟩
    have found : operands.find? (fun operand => !operand.fits expected) = some misfit :=
      List.find?_eq_some_iff_append.mpr
        ⟨by simpa using unfit, before, after, split, by simpa using fitting⟩
    rw [found]

/-- The least type that none of some operands exceeds. -/
structure Shares (operands : List Operand) (shared : ValueType) : Prop where
  within : ∀ operand ∈ operands,
    operand.valueType = some .unconstrained ∨ operand.valueType = some shared
  attained : shared = .unconstrained ∨ ∃ operand ∈ operands, operand.valueType = some shared

theorem Shares.unique {operands : List Operand} {first second : ValueType}
    (one : Shares operands first) (other : Shares operands second) : first = second := by
  rcases one.attained with rfl | ⟨operand, member, typed⟩
  · rcases other.attained with rfl | ⟨operand, member, typed⟩
    · rfl
    · simpa [typed, eq_comm] using one.within operand member
  · rcases other.within operand member with free | same
    · rcases other.attained with rfl | ⟨operand', member', typed'⟩
      · simpa [typed] using free
      · have := one.within operand' member'
        simp_all
    · simpa [typed] using same

theorem shares_typeWithin {operands : List Operand} {expected : OperandClass}
    (fitting : ∀ operand ∈ operands, operand.fits expected) :
    Shares operands (typeWithin expected operands) := by
  simp only [Operand.fits_iff] at fitting
  unfold typeWithin
  split
  next concrete =>
    refine ⟨fitting, .inr ?_⟩
    simpa using concrete
  next free =>
    refine ⟨fun operand member => .inl ?_, .inl rfl⟩
    have other : operand.valueType ≠ some expected.valueType := by
      simp only [List.any_eq_true, beq_iff_eq, not_exists, not_and] at free
      exact free operand member
    exact (fitting operand member).resolve_right other

theorem Shares.fit {operands : List Operand} {shared : ValueType} (shares : Shares operands shared) :
    ∃ expected, ∀ operand ∈ operands, operand.fits expected := by
  cases shared with
  | boolean => exact ⟨.boolean, fun operand member => Operand.fits_iff.mpr (shares.within operand member)⟩
  | number => exact ⟨.number, fun operand member => Operand.fits_iff.mpr (shares.within operand member)⟩
  | unconstrained =>
    exact ⟨.number, fun operand member =>
      Operand.fits_iff.mpr (.inl ((shares.within operand member).elim id id))⟩

theorem sharedType_eq_error_iff {operands : List Operand} {fault : TypeFault} :
    sharedType operands = .error fault ↔
      (∀ expected, ∃ operand ∈ operands, ¬ operand.fits expected) ∧
      fault = .mixedList (operands.map Operand.name) := by
  unfold sharedType
  constructor
  · intro failed
    split at failed
    · cases failed
    next unfitNumber =>
      split at failed
      · cases failed
      next unfitBoolean =>
        cases failed
        refine ⟨fun expected => ?_, rfl⟩
        cases expected with
        | number => simpa using unfitNumber
        | boolean => simpa using unfitBoolean
  · rintro ⟨unfit, rfl⟩
    rw [if_neg (by simpa using unfit .number), if_neg (by simpa using unfit .boolean)]

theorem sharedType_eq_ok_iff {operands : List Operand} {shared : ValueType} :
    sharedType operands = .ok shared ↔ Shares operands shared := by
  have sound : ∀ result, sharedType operands = .ok result → Shares operands result := by
    intro result ok
    unfold sharedType at ok
    split at ok
    next fitting =>
      cases ok
      exact shares_typeWithin (by simpa using fitting)
    · split at ok
      next fitting =>
        cases ok
        exact shares_typeWithin (by simpa using fitting)
      · cases ok
  refine ⟨sound shared, fun shares => ?_⟩
  cases found : sharedType operands with
  | ok result => rw [(sound result found).unique shares]
  | error fault =>
    obtain ⟨unfit, -⟩ := sharedType_eq_error_iff.mp found
    obtain ⟨expected, fitting⟩ := shares.fit
    obtain ⟨operand, member, misfit⟩ := unfit expected
    exact absurd (fitting operand member) misfit

theorem Shares.fits_iff {operands : List Operand} {shared : ValueType}
    (shares : Shares operands shared) (expected : OperandClass) :
    shared.fits expected ↔ ∀ operand ∈ operands, operand.fits expected := by
  obtain ⟨within, attained⟩ := shares
  simp only [ValueType.fits_iff, Operand.fits_iff]
  constructor
  · rintro (rfl | rfl) operand member
    · exact .inl ((within operand member).elim id id)
    · exact within operand member
  · intro fitting
    rcases attained with rfl | ⟨operand, member, same⟩
    · exact .inl rfl
    · simpa [same] using fitting operand member

/-- An operator finds the same misfit whether operands are listed or stand one by one. -/
theorem expectClass_listed {first : Operand} {operands : List Operand} {shared : ValueType}
    (shares : Shares operands shared) (context : String) (expected : OperandClass)
    (kindName : String) :
    expectClass context expected [first, ⟨some shared, kindName⟩] =
      expectClass context expected (first :: operands) := by
  by_cases firstFits : first.fits expected
  case neg => simp [expectClass, firstFits]
  have listFits : Operand.fits ⟨some shared, kindName⟩ expected = shared.fits expected := rfl
  by_cases fits : shared.fits expected
  · have fitting := (shares.fits_iff expected).mp fits
    have all : expectClass context expected (first :: operands) = .ok () :=
      (expectClass_eq_ok_iff ..).mpr (by simpa [firstFits] using fitting)
    rw [all]
    simp [expectClass, firstFits, listFits, fits]
  · cases found : expectClass context expected (first :: operands) with
    | ok _ =>
      have fitting := (expectClass_eq_ok_iff ..).mp found
      exact absurd ((shares.fits_iff expected).mpr fun operand member =>
        fitting operand (List.mem_cons_of_mem first member)) fits
    | error fault =>
      obtain ⟨before, misfit, after, split, -, unfit, rfl⟩ := expectClass_eq_error_iff.mp found
      have member : misfit ∈ operands := by
        have within : misfit ∈ first :: operands := by simp [split]
        rcases List.mem_cons.mp within with rfl | member
        · exact absurd firstFits unfit
        · exact member
      -- A misfit is not unconstrained, so it has the shared type and goes by its name.
      have typed : misfit.valueType = some shared :=
        (shares.within misfit member).resolve_left fun free => unfit (Operand.fits_iff.mpr (.inl free))
      simp [expectClass, firstFits, listFits, fits, Operand.name, typed]

end TypedLisp
