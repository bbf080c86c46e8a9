import TypedLisp.Proofs.Lexing.Pattern

/-! The kinds of lexemes.

Numerals, words and signs are told apart by their texts. A numeral has a kind if it
denotes an integer of 32 bits, a word is reserved if its capitals are, and signs
and booleans stand for themselves.
-/

set_option autoImplicit false

namespace TypedLisp

inductive Classifies : List Char → TokenKind → Prop
  | numeral {text : List Char} {value : Int} : Numeral text value → -2147483648 ≤ value →
      value ≤ 2147483647 → Classifies text (.number value)
  | reserved {text : List Char} {kind : TokenKind} : Word text →
      (capitals text, kind) ∈ reservedWords → Classifies text kind
  | identifier {text : List Char} : Word text → capitals text ∉ reservedWords.map Prod.fst →
      Classifies text .identifier
  | sign {text : List Char} {kind : TokenKind} : (String.ofList text, kind) ∈ signs →
      Classifies text kind

/-! ## Tables -/

theorem lookup_eq_some_iff_mem {α : Type} {table : List (String × α)} {key : String} {value : α}
    (distinct : (table.map Prod.fst).Nodup) : table.lookup key = some value ↔ (key, value) ∈ table := by
  induction table with
  | nil => simp
  | cons entry table ih =>
    obtain ⟨head, first⟩ := entry
    obtain ⟨fresh, distinct⟩ := List.nodup_cons.mp distinct
    by_cases same : key = head
    · subst same
      have absent : (key, value) ∉ table := fun member =>
        fresh (List.mem_map.mpr ⟨(key, value), member, rfl⟩)
      simp [absent, eq_comm]
    · have other : (key == head) = false := beq_eq_false_iff_ne.mpr same
      rw [List.lookup_cons, other, List.mem_cons]
      simp [same, ih distinct]

theorem lookup_eq_none_iff_notMem {α : Type} {table : List (String × α)} {key : String} :
    table.lookup key = none ↔ key ∉ table.map Prod.fst := by
  simp only [List.lookup_eq_none_iff, bne_iff_ne, List.mem_map, not_exists, not_and]
  exact forall₂_congr fun entry _ => ne_comm

theorem signs_distinct : (signs.map Prod.fst).Nodup := by decide

theorem reservedWords_distinct : (reservedWords.map Prod.fst).Nodup := by decide

/-! ## Telling lexemes apart -/

theorem unsigned?_of_digits {digits : List Char} (nonempty : digits ≠ [])
    (all : ∀ digit ∈ digits, digit.isDigit) :
    Decimal.unsigned? digits = some (Nat.ofDigitChars 10 digits 0) :=
  if_pos ⟨nonempty, List.all_eq_true.mpr all⟩

theorem Numeral.read? {text : List Char} {value : Int} (numeral : Numeral text value) :
    Decimal.read? text = some value := by
  cases numeral with
  | positive nonempty digits =>
    cases text with
    | nil => exact absurd rfl nonempty
    | cons first rest =>
      rw [Decimal.read?_of_isDigit rest (digits first List.mem_cons_self),
        unsigned?_of_digits nonempty digits]
      rfl
  | negative nonempty digits =>
    rw [Decimal.read?, unsigned?_of_digits nonempty digits]
    rfl

theorem Word.read? {text : List Char} (word : Word text) : Decimal.read? text = none := by
  cases word with
  | @intro first rest alpha characters =>
    have noDigit : ¬ first.isDigit := fun digit => by
      simp [isAlpha_eq_false_of_isDigit digit] at alpha
    have noNumber : Decimal.unsigned? (first :: rest) = none := by
      simp [Decimal.unsigned?, noDigit]
    unfold Decimal.read?
    split
    next same => cases same; exact absurd alpha (by decide)
    next same => cases same; exact absurd alpha (by decide)
    next => rw [noNumber]; rfl

theorem Word.not_mem_signs {text : List Char} (word : Word text) (kind : TokenKind) :
    (String.ofList text, kind) ∉ signs := by
  have table : ∀ entry ∈ signs, entry.1.toList.head?.any Char.isAlpha = false := by decide
  intro member
  have noAlpha := table _ member
  cases word with
  | intro alpha _ => simp [alpha] at noAlpha

theorem read?_of_mem_signs {text : List Char} {kind : TokenKind}
    (member : (String.ofList text, kind) ∈ signs) : Decimal.read? text = none := by
  have table : ∀ entry ∈ signs, Decimal.read? entry.1.toList = none := by decide
  simpa using table _ member

-- Reading a decimal tells numerals from the rest, looking up a sign tells signs from words.
theorem IsLexeme.cases_kind {text : List Char} (lexeme : IsLexeme text) :
    (∃ value, Numeral text value) ∨ Word text ∨ ∃ kind, (String.ofList text, kind) ∈ signs := by
  cases lexeme with
  | numeral numeral => exact .inl ⟨_, numeral⟩
  | word word => exact .inr (.inl word)
  | trueLiteral => exact .inr (.inr ⟨.boolean true, by decide⟩)
  | falseLiteral => exact .inr (.inr ⟨.boolean false, by decide⟩)
  | @sign character member =>
    have table : ['+', '-', '*', '/', '>', '<', '=', '(', ')'].all fun character =>
        (signs.lookup (String.ofList [character])).isSome := by decide
    obtain ⟨kind, found⟩ := Option.isSome_iff_exists.mp (List.all_eq_true.mp table character member)
    exact .inr (.inr ⟨kind, (lookup_eq_some_iff_mem signs_distinct).mp found⟩)

/-! ## Kinds -/

theorem signed32_contains_iff {value : Int} :
    Decimal.signed32.contains value ↔ -2147483648 ≤ value ∧ value ≤ 2147483647 := by
  rw [Decimal.Bounds.contains, Bool.and_eq_true, decide_eq_true_eq, decide_eq_true_eq]
  rfl

theorem Numeral.classifies_iff {text : List Char} {value : Int} (numeral : Numeral text value)
    {kind : TokenKind} :
    Classifies text kind ↔
      (-2147483648 ≤ value ∧ value ≤ 2147483647) ∧ kind = .number value := by
  have read := numeral.read?
  constructor
  · intro classifies
    cases classifies with
    | numeral other low high =>
      cases other.read?.symm.trans read
      exact ⟨⟨low, high⟩, rfl⟩
    | reserved word | identifier word => cases word.read?.symm.trans read
    | sign member => cases (read?_of_mem_signs member).symm.trans read
  · rintro ⟨⟨low, high⟩, rfl⟩
    exact .numeral numeral low high

theorem classifies_iff_of_mem_signs {text : List Char} {sign : TokenKind}
    (member : (String.ofList text, sign) ∈ signs) {kind : TokenKind} :
    Classifies text kind ↔ kind = sign := by
  constructor
  · intro classifies
    cases classifies with
    | numeral numeral => cases (read?_of_mem_signs member).symm.trans numeral.read?
    | reserved word | identifier word => exact absurd member (word.not_mem_signs sign)
    | sign other =>
      have found := (lookup_eq_some_iff_mem signs_distinct).mpr member
      have found' := (lookup_eq_some_iff_mem signs_distinct).mpr other
      exact Option.some.inj (found'.symm.trans found)
  · rintro rfl
    exact .sign member

theorem Word.ofWord_eq_iff {text : List Char} {kind : TokenKind} (word : Word text) :
    TokenKind.ofWord text = kind ↔ Classifies text kind := by
  have noSign : signs.lookup (String.ofList text) = none := by
    rw [Option.eq_none_iff_forall_ne_some]
    intro kind found
    exact word.not_mem_signs kind ((lookup_eq_some_iff_mem signs_distinct).mp found)
  simp only [TokenKind.ofWord, noSign]
  constructor
  · rintro rfl
    cases found : reservedWords.lookup (capitals text) with
    | none => exact .identifier word (lookup_eq_none_iff_notMem.mp found)
    | some kind => exact .reserved word ((lookup_eq_some_iff_mem reservedWords_distinct).mp found)
  · intro classifies
    cases classifies with
    | numeral numeral => cases word.read?.symm.trans numeral.read?
    | reserved _ member =>
      rw [(lookup_eq_some_iff_mem reservedWords_distinct).mpr member]
      rfl
    | identifier _ absent =>
      rw [lookup_eq_none_iff_notMem.mpr absent]
      rfl
    | sign member => exact absurd member (word.not_mem_signs kind)

theorem ofWord_of_mem_signs {text : List Char} {sign : TokenKind}
    (member : (String.ofList text, sign) ∈ signs) : TokenKind.ofWord text = sign := by
  rw [TokenKind.ofWord, (lookup_eq_some_iff_mem signs_distinct).mpr member]

theorem IsLexeme.ofLexeme_eq_ok_iff {text : List Char} {kind : TokenKind} (lexeme : IsLexeme text) :
    TokenKind.ofLexeme text = .ok kind ↔ Classifies text kind := by
  rcases lexeme.cases_kind with ⟨value, numeral⟩ | word | ⟨sign, member⟩
  · simp only [TokenKind.ofLexeme, numeral.read?, numeral.classifies_iff, ← signed32_contains_iff]
    split
    next within => simp [within, eq_comm]
    next beyond => simp [beyond]
  · simp only [TokenKind.ofLexeme, word.read?, Except.ok.injEq, word.ofWord_eq_iff]
  · simp only [TokenKind.ofLexeme, read?_of_mem_signs member, Except.ok.injEq,
      ofWord_of_mem_signs member, classifies_iff_of_mem_signs member, eq_comm]

-- Only numerals are read as integers, and a numeral has one value, so that value decides.
theorem IsLexeme.ofLexeme_eq_error_iff {text : List Char} {fault : LexicalFault}
    (lexeme : IsLexeme text) :
    TokenKind.ofLexeme text = .error fault ↔
      ∃ value, Numeral text value ∧ ¬ (-2147483648 ≤ value ∧ value ≤ 2147483647) ∧
        fault = .overflow (String.ofList text) := by
  simp only [← signed32_contains_iff]
  cases read : Decimal.read? text with
  | none =>
    simp only [TokenKind.ofLexeme, read, reduceCtorEq, false_iff]
    rintro ⟨value, numeral, -⟩
    cases read.symm.trans numeral.read?
  | some value =>
    have numeral : Numeral text value := by
      rcases lexeme.cases_kind with ⟨other, numeral⟩ | word | ⟨sign, member⟩
      · cases read.symm.trans numeral.read?
        exact numeral
      · cases read.symm.trans word.read?
      · cases read.symm.trans (read?_of_mem_signs member)
    have only (other : Int) (numeral' : Numeral text other) : other = value :=
      Option.some.inj (numeral'.read?.symm.trans read)
    simp only [TokenKind.ofLexeme, read]
    split
    next within =>
      simp only [reduceCtorEq, false_iff]
      rintro ⟨other, numeral', beyond, -⟩
      exact beyond (only other numeral' ▸ within)
    next beyond =>
      constructor
      · intro same
        cases same
        exact ⟨value, numeral, beyond, rfl⟩
      · rintro ⟨-, -, -, rfl⟩
        rfl

end TypedLisp
