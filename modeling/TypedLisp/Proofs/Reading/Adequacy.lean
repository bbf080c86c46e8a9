import TypedLisp.Proofs.Reading.Programs
import TypedLisp.Proofs.Typing.Settled

/-! Reading is the grammar with types and the nesting limit.

A text is read to a tree exactly when its tokens derive that tree, the tree is well
typed and no more forms are nested than allowed. Within the limit, tokens that
derive a tree are refused for the first rule broken in it, and for nothing else.
-/

set_option autoImplicit false

namespace TypedLisp

open Grammar

theorem Reader.firstOr_ok_eq_error_iff {α : Type} {faults : List SourceError} {value : α}
    {error : SourceError} :
    Reader.firstOr faults (.ok value) = .error error ↔ faults.head? = some error := by
  cases faults <;> simp [Reader.firstOr]

/-! ## What is read -/

theorem parse_eq_ok_iff {source : String} {tree : Node} :
    parse source = .ok tree ↔
      ∃ tokens, tokenize source = .ok tokens ∧ Program tokens tree ∧ tree.WellTyped ∧
        tree.nesting ≤ 128 := by
  constructor
  · -- Soundness gives the derivation, and completeness for it leaves no fault in the tree.
    intro parsed
    obtain ⟨tokens, lexes, program⟩ := program_of_parse parsed
    rw [parse_of_program lexes program, Reader.firstOr_eq_ok_iff, Node.faultsFrom_eq_nil_iff] at parsed
    obtain ⟨⟨shallow, inOrder⟩, -⟩ := parsed
    exact ⟨tokens, lexes, program, program.covers.wellTyped_iff.mpr inOrder, shallow⟩
  · rintro ⟨tokens, lexes, program, wellTyped, shallow⟩
    have inOrder := program.covers.wellTyped_iff.mp wellTyped
    rw [parse_of_program lexes program, Reader.firstOr_eq_ok_iff, Node.faultsFrom_eq_nil_iff]
    exact ⟨⟨shallow, inOrder⟩, rfl⟩

/-! ## What is refused -/

/-- Within the nesting limit the first node with a violation decides. -/
theorem parse_eq_error_iff_violation {source : String} {tokens : List Token} {tree : Node}
    (lexes : tokenize source = .ok tokens) (program : Program tokens tree)
    (shallow : tree.nesting ≤ 128) {error : SourceError} :
    parse source = .error error ↔ tree.postorder.findSome? Node.violation? = some error := by
  have within : 0 + tree.nestingFrom false ≤ Reader.nestingLimit := by rwa [Nat.zero_add]
  rw [parse_of_program lexes program, Reader.firstOr_ok_eq_error_iff,
    Node.faultsFrom_of_shallow tree within, Node.violations, List.head?_filterMap]

theorem parse_eq_error_iff_breaks {source : String} {tokens : List Token} {tree : Node}
    (lexes : tokenize source = .ok tokens) (program : Program tokens tree)
    (shallow : tree.nesting ≤ 128) {error : SourceError} :
    parse source = .error error ↔
      ∃ before node after, tree.postorder = before ++ node :: after ∧
        (∀ earlier ∈ before, ∀ other, ¬ Breaks tokens earlier other) ∧ Breaks tokens node error := by
  rw [parse_eq_error_iff_violation lexes program shallow, List.findSome?_eq_some_iff]
  -- At the nodes of a derived tree, breaking a rule and having a violation are the same.
  have free {before after : List Node} {node : Node}
      (split : tree.postorder = before ++ node :: after) :
      (∀ earlier ∈ before, earlier.violation? = none) ↔
        ∀ earlier ∈ before, ∀ other, ¬ Breaks tokens earlier other := by
    refine forall₂_congr fun earlier member => ?_
    have listed : earlier ∈ tree.postorder := by simp [split, member]
    simp only [program.covers.breaks_iff listed, Option.eq_none_iff_forall_ne_some]
  constructor
  · rintro ⟨before, node, after, split, violated, earlier⟩
    have listed : node ∈ tree.postorder := by simp [split]
    exact ⟨before, node, after, split, (free split).mp earlier,
      (program.covers.breaks_iff listed).mpr violated⟩
  · rintro ⟨before, node, after, split, earlier, breaks⟩
    have listed : node ∈ tree.postorder := by simp [split]
    exact ⟨before, node, after, split, (program.covers.breaks_iff listed).mp breaks,
      (free split).mpr earlier⟩

theorem Demand.Fails.found_mem {demand : Demand} {context found : String} {expected : OperandClass}
    (fails : demand.Fails (.mismatch context expected found)) :
    found ∈ ["number", "boolean", "if_expr", "fun_expr"] := by
  cases fails with
  | misfit _ unfit shows =>
    cases shows with
    | unconstrained typed => exact absurd (Operand.fits_iff.mpr (.inl typed)) unfit
    | number | boolean | conditional | function => simp

theorem parse_of_grammatical {source : String} {tokens : List Token} {tree : Node}
    (lexes : tokenize source = .ok tokens) (program : Program tokens tree)
    (shallow : tree.nesting ≤ 128) :
    ((∃ error, parse source = .error error) ↔
      ∃ node ∈ tree.postorder, ∃ error, Breaks tokens node error) ∧
    (∀ error, parse source = .error error ↔
      ∃ before node after, tree.postorder = before ++ node :: after ∧
        (∀ earlier ∈ before, ∀ other, ¬ Breaks tokens earlier other) ∧
        Breaks tokens node error) ∧
    ∀ error, parse source = .error error →
      ∃ fault, error.fault = .illTyped fault ∧
        ∀ context expected found, fault = .mismatch context expected found →
          found ∈ ["number", "boolean", "if_expr", "fun_expr"] := by
  refine ⟨?_, fun error => parse_eq_error_iff_breaks lexes program shallow, fun error failed => ?_⟩
  · constructor
    · rintro ⟨error, failed⟩
      obtain ⟨before, node, after, split, -, breaks⟩ :=
        (parse_eq_error_iff_breaks lexes program shallow).mp failed
      exact ⟨node, by simp [split], error, breaks⟩
    · rintro ⟨node, member, error, breaks⟩
      have violated := (program.covers.breaks_iff member).mp breaks
      have found : (tree.postorder.findSome? Node.violation?).isSome :=
        List.findSome?_isSome_iff.mpr ⟨node, member, by simp [violated]⟩
      obtain ⟨first, found⟩ := Option.isSome_iff_exists.mp found
      exact ⟨first, (parse_eq_error_iff_violation lexes program shallow).mpr found⟩
  · obtain ⟨before, node, after, -, -, demand, fault, -, fails, illTyped⟩ :=
      (parse_eq_error_iff_breaks lexes program shallow).mp failed
    refine ⟨fault, illTyped, ?_⟩
    rintro context expected found rfl
    exact fails.found_mem

theorem parse_of_grammatical_negation :
    parse "(not 1)" = .error ⟨.illTyped (.mismatch "not" .boolean "number"), 1⟩ ∧
      ∃ tokens node, tokenize "(not 1)" = .ok tokens ∧
        Breaks tokens node ⟨.illTyped (.mismatch "not" .boolean "number"), 1⟩ := by
  let opening : Token := ⟨.leftParen, "(", 1⟩
  let head : Token := ⟨.operator .not, "not", 1⟩
  let operand : Token := ⟨.number 1, "1", 1⟩
  let closing : Token := ⟨.rightParen, ")", 1⟩
  have failed : parse "(not 1)" = .error ⟨.illTyped (.mismatch "not" .boolean "number"), 1⟩ := by
    decide +kernel
  have lexes : tokenize "(not 1)" = .ok [opening, head, operand, closing] := by decide +kernel
  have parens : Parens opening closing := ⟨rfl, rfl⟩
  have kind : head.kind = .operator .not := rfl
  have operands : Many Expression [operand] [.expression (.number 1 1)] := .single (.number rfl)
  have program := Program.single (.bare (.operation parens kind operands rfl))
  obtain ⟨before, node, after, -, -, breaks⟩ :=
    ((parse_of_grammatical lexes program (by decide)).2.1 _).mp failed
  exact ⟨failed, _, node, lexes, breaks⟩

end TypedLisp
