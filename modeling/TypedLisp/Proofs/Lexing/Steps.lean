import Mathlib.Data.List.TakeWhile
import TypedLisp.Proofs.Lexing.Continuation

/-! One lexer, asked for a token or for all of them in any order.

A step takes tokens off the front of those that the lexer has left, and meets the
failure behind them if it takes them all. The steps of a course take from one list in
turn, so no token is lexed twice. What a `tokenize` has collected before it meets the
failure is lost, and after the end or the failure there is nothing left to take.
-/

set_option autoImplicit false

namespace TypedLisp

namespace Pull

def after : Pull → Lexer
  | .ended after => after
  | .failed _ after => after
  | .token _ after => after

def token? : Pull → Option Token
  | .token found _ => some found
  | _ => none

def error? : Pull → Option LexicalError
  | .failed error _ => some error
  | _ => none

def text : Pull → List Char
  | .ended _ => []
  | .failed error _ => error.fault.text
  | .token found _ => found.lexeme.toList

end Pull

namespace Lexer

inductive Step where
  | next
  | tokenize
  deriving Repr, DecidableEq

inductive Answer where
  | next (item : Option (Except LexicalError Token))
  | tokenize (result : Except LexicalError (List Token))

namespace Answer

def tokens : Answer → List Token
  | .next (some (.ok token)) => [token]
  | .tokenize (.ok tokens) => tokens
  | _ => []

def error? : Answer → Option LexicalError
  | .next (some (.error error)) | .tokenize (.error error) => some error
  | _ => none

def isLast : Answer → Bool
  | .next (some (.ok _)) => false
  | _ => true

def nothing : Step → Answer
  | .next => .next none
  | .tokenize => .tokenize (.ok [])

end Answer

/-- What comes of some steps: the answers, the tokens lexed for them, handed out or not,
the text gone by and the lexer then. -/
structure Course where
  answers : List Answer
  lexed : List Token
  passed : List Char
  after : Lexer

namespace Course

def handed (course : Course) : List Token :=
  course.answers.flatMap Answer.tokens

def errors (course : Course) : List LexicalError :=
  course.answers.filterMap Answer.error?

def append (course later : Course) : Course :=
  ⟨course.answers ++ later.answers, course.lexed ++ later.lexed, course.passed ++ later.passed,
    later.after⟩

@[simp] theorem handed_append (course later : Course) :
    (course.append later).handed = course.handed ++ later.handed :=
  List.flatMap_append ..

@[simp] theorem errors_append (course later : Course) :
    (course.append later).errors = course.errors ++ later.errors :=
  List.filterMap_append ..

end Course

def passed (lexer : Lexer) : List Char :=
  lexer.rest.takeWhile isBlank ++ lexer.pull.text

def passedAll (lexer : Lexer) : List Char :=
  match _ : lexer.pull with
  | .token _ after => lexer.passed ++ after.passedAll
  | .ended _ | .failed _ _ => lexer.passed
termination_by lexer.rest.length
decreasing_by exact length_lt_of_pull ‹_›

def answer (lexer : Lexer) : Step → Answer
  | .next =>
      match lexer.pull with
      | .ended _ => .next none
      | .failed error _ => .next (some (.error error))
      | .token token _ => .next (some (.ok token))
  | .tokenize => .tokenize lexer.lexAll.result

def step (lexer : Lexer) : Step → Course
  | .next => ⟨[lexer.answer .next], lexer.pull.token?.toList, lexer.passed, lexer.pull.after⟩
  | .tokenize =>
      ⟨[lexer.answer .tokenize], lexer.lexAll.tokens, lexer.passedAll, lexer.lexAll.after⟩

def course (lexer : Lexer) : List Step → Course
  | [] => ⟨[], [], [], lexer⟩
  | step :: steps => (lexer.step step).append ((lexer.step step).after.course steps)

theorem passedAll_of_token {lexer after : Lexer} {token : Token}
    (pulled : lexer.pull = .token token after) :
    lexer.passedAll = lexer.passed ++ after.passedAll := by
  rw [passedAll]
  split <;> simp_all

theorem passedAll_of_ended {lexer after : Lexer} (pulled : lexer.pull = .ended after) :
    lexer.passedAll = lexer.passed := by
  rw [passedAll]
  split <;> simp_all

theorem passedAll_of_failed {lexer after : Lexer} {error : LexicalError}
    (pulled : lexer.pull = .failed error after) : lexer.passedAll = lexer.passed := by
  rw [passedAll]
  split <;> simp_all

/-! ## What is taken -/

/-- Some of what a lexer has left, up to another lexer that has the rest of it. -/
structure Takes (lexer : Lexer) (lexed : List Token) (errors : List LexicalError)
    (passed : List Char) (after : Lexer) : Prop where
  tokens : lexer.lexAll.tokens = lexed ++ after.lexAll.tokens
  failure : lexer.lexAll.failure.toList = errors ++ after.lexAll.failure.toList
  whole : lexer.passedAll = passed ++ after.passedAll
  split : ∃ unread, lexer.rest = passed ++ unread ∧ (errors = [] → unread = after.rest)
  line : after.line = lexer.line + passed.count '\n'
  place : ∀ error ∈ errors, error.fault.text <:+ passed ∧ error.line = after.line
  ends : errors ≠ [] → after.rest = []

theorem passedAll_of_nothing {lexer : Lexer} (nothing : lexer.rest = []) : lexer.passedAll = [] := by
  have pulled := pull_of_nothing nothing
  simp only [passedAll_of_ended pulled, passed, pulled, Pull.text, nothing]
  rfl

namespace Takes

section
variable {lexer middle after : Lexer} {lexed later : List Token} {errors more : List LexicalError}
  {passed further : List Char}

theorem refl (lexer : Lexer) : Takes lexer [] [] [] lexer where
  tokens := rfl
  failure := rfl
  whole := rfl
  split := ⟨lexer.rest, rfl, fun _ => rfl⟩
  line := rfl
  place := List.forall_mem_nil _
  ends := fun failed => absurd rfl failed

theorem of_nothing (takes : Takes lexer lexed errors passed after) (nothing : lexer.rest = []) :
    lexed = [] ∧ errors = [] ∧ passed = [] ∧ after = lexer := by
  have tokens := takes.tokens
  have failure := takes.failure
  rw [lexAll_of_nothing nothing] at tokens failure
  obtain ⟨rfl, -⟩ := List.append_eq_nil_iff.mp tokens.symm
  obtain ⟨rfl, -⟩ := List.append_eq_nil_iff.mp failure.symm
  obtain ⟨unread, split, rest⟩ := takes.split
  obtain ⟨rfl, used⟩ := List.append_eq_nil_iff.mp (split.symm.trans nothing)
  have same : after.rest = lexer.rest := by rw [← rest rfl, used, nothing]
  have line : after.line = lexer.line := by simpa using takes.line
  refine ⟨rfl, rfl, rfl, ?_⟩
  cases after
  cases lexer
  simp_all

theorem trans (first : Takes lexer lexed errors passed middle)
    (second : Takes middle later more further after) :
    Takes lexer (lexed ++ later) (errors ++ more) (passed ++ further) after where
  tokens := by rw [first.tokens, second.tokens, List.append_assoc]
  failure := by rw [first.failure, second.failure, List.append_assoc]
  whole := by rw [first.whole, second.whole, List.append_assoc]
  split := by
    obtain ⟨unread, split, rest⟩ := first.split
    by_cases failed : errors = []
    · obtain ⟨unread', split', rest'⟩ := second.split
      rw [rest failed, split', ← List.append_assoc] at split
      exact ⟨unread', split, fun none => rest' (List.append_eq_nil_iff.mp none).2⟩
    · -- The lexer forgets the text behind a failure, so nothing of it is taken any more.
      obtain ⟨-, -, rfl, -⟩ := second.of_nothing (first.ends failed)
      rw [List.append_nil]
      exact ⟨unread, split, fun none => absurd (List.append_eq_nil_iff.mp none).1 failed⟩
  line := by rw [second.line, first.line, List.count_append, Nat.add_assoc]
  place := by
    intro error member
    rcases List.mem_append.mp member with here | there
    · obtain ⟨-, -, rfl, rfl⟩ := second.of_nothing (first.ends (List.ne_nil_of_mem here))
      rw [List.append_nil]
      exact first.place error here
    · obtain ⟨suffix, line⟩ := second.place error there
      exact ⟨suffix.trans (List.suffix_append ..), line⟩
  ends := by
    intro failed
    by_cases none : more = []
    · rw [none, List.append_nil] at failed
      have nothing := first.ends failed
      obtain ⟨-, -, -, rfl⟩ := second.of_nothing nothing
      exact nothing
    · exact second.ends none

end

end Takes

theorem passed_of_append {blanks text : List Char} (line : Nat) (allBlank : AllBlank blanks)
    (starts : ∃ first rest, text = first :: rest ∧ isBlank first = false) :
    (⟨blanks ++ text, line⟩ : Lexer).passed = blanks ++ (⟨blanks ++ text, line⟩ : Lexer).pull.text := by
  obtain ⟨first, rest, rfl, noBlank⟩ := starts
  simp [passed, List.takeWhile_append_of_pos allBlank, noBlank]

theorem takes_pull_of_allBlank {text : List Char} (line : Nat) (allBlank : AllBlank text) :
    (⟨text, line⟩ : Lexer).Takes [] [] (⟨text, line⟩ : Lexer).passed ⟨[], line + text.count '\n'⟩ := by
  have pulled := pull_of_allBlank allBlank line
  have blanks : text.takeWhile isBlank = text := List.takeWhile_eq_self_iff.mpr allBlank
  have passed : (⟨text, line⟩ : Lexer).passed = text := by
    simp only [Lexer.passed, pulled, Pull.text, blanks, List.append_nil]
  exact {
    tokens := by simp only [lexAll_of_ended pulled, lexAll_of_nothing, List.append_nil]
    failure := by simp only [lexAll_of_ended pulled, lexAll_of_nothing, List.nil_append]
    whole := by rw [passedAll_of_ended pulled, passedAll_of_nothing rfl, List.append_nil]
    split := ⟨[], by rw [passed, List.append_nil], fun _ => rfl⟩
    line := by rw [passed]
    place := List.forall_mem_nil _
    ends := fun _ => rfl }

theorem takes_pull_of_stuck {blanks text : List Char} {fault : LexicalFault} (line : Nat)
    (allBlank : AllBlank blanks) (stuck : Stuck text fault) :
    (⟨blanks ++ text, line⟩ : Lexer).Takes [] [⟨fault, line + blanks.count '\n'⟩]
      (⟨blanks ++ text, line⟩ : Lexer).passed (finished (line + blanks.count '\n')) := by
  have pulled := pull_of_stuck line allBlank stuck
  have passed := passed_of_append line allBlank stuck.starts
  rw [pulled, Pull.text] at passed
  obtain ⟨unread, split, -, noBlank⟩ := stuck.split
  have nothing : (finished (line + blanks.count '\n')).rest = [] := rfl
  exact {
    tokens := by simp only [lexAll_of_failed pulled, lexAll_of_nothing nothing, List.append_nil]
    failure := by simp [lexAll_of_failed pulled, lexAll_of_nothing nothing]
    whole := by rw [passedAll_of_failed pulled, passedAll_of_nothing nothing, List.append_nil]
    split := ⟨unread, by rw [passed, List.append_assoc, ← split], fun none => by cases none⟩
    line := by rw [passed, List.count_append, count_newline_of_not_blank noBlank]; rfl
    place := List.forall_mem_singleton.mpr ⟨passed ▸ List.suffix_append .., rfl⟩
    ends := fun _ => rfl }

theorem takes_pull_of_longest {blanks text lexeme after : List Char} {kind : TokenKind} (line : Nat)
    (allBlank : AllBlank blanks) (longest : Longest text lexeme after)
    (classifies : Classifies lexeme kind) :
    (⟨blanks ++ text, line⟩ : Lexer).Takes
      [⟨kind, String.ofList lexeme, line + blanks.count '\n'⟩] []
      (⟨blanks ++ text, line⟩ : Lexer).passed ⟨after, line + blanks.count '\n'⟩ := by
  have pulled := pull_of_longest line allBlank longest classifies
  have passed := passed_of_append line allBlank longest.starts
  rw [pulled, Pull.text, String.toList_ofList] at passed
  have noNewline := count_newline_of_not_blank longest.isLexeme.not_blank
  exact {
    tokens := congrArg Lexed.tokens (lexAll_of_token pulled)
    failure := by rw [lexAll_of_token pulled, List.nil_append]
    whole := passedAll_of_token pulled
    split := ⟨after, by rw [passed, List.append_assoc, ← longest.split], fun _ => rfl⟩
    line := by rw [passed, List.count_append, noNewline]; rfl
    place := List.forall_mem_nil _
    ends := fun failed => absurd rfl failed }

theorem takes_pull (lexer : Lexer) :
    lexer.Takes lexer.pull.token?.toList lexer.pull.error?.toList lexer.passed lexer.pull.after := by
  obtain ⟨text, line⟩ := lexer
  rcases cases_text text with allBlank | ⟨blanks, rest, rfl, allBlank, ⟨fault, stuck⟩ |
    ⟨lexeme, after, kind, longest, classifies⟩⟩
  · have takes := takes_pull_of_allBlank line allBlank
    rwa [pull_of_allBlank allBlank line]
  · have takes := takes_pull_of_stuck line allBlank stuck
    rwa [pull_of_stuck line allBlank stuck]
  · have takes := takes_pull_of_longest line allBlank longest classifies
    rwa [pull_of_longest line allBlank longest classifies]

-- Along the pulls, each of which takes from what the ones before it have left.
theorem takes_lexAll (lexer : Lexer) :
    lexer.Takes lexer.lexAll.tokens lexer.lexAll.failure.toList lexer.passedAll lexer.lexAll.after := by
  have takes := lexer.takes_pull
  induction lexer using lexAll.induct with
  | case1 lexer after pulled =>
    rw [lexAll_of_ended pulled, passedAll_of_ended pulled]
    rwa [pulled] at takes
  | case2 lexer error after pulled =>
    rw [lexAll_of_failed pulled, passedAll_of_failed pulled]
    rwa [pulled] at takes
  | case3 lexer token after pulled ih =>
    rw [lexAll_of_token pulled, passedAll_of_token pulled]
    rw [pulled] at takes
    exact takes.trans (ih after.takes_pull)

/-! ## Courses of steps -/

/-- What a course takes from a lexer it hands out, unless the failure is met on the way. -/
structure Yields (lexer : Lexer) (course : Course) : Prop where
  takes : lexer.Takes course.lexed course.errors course.passed course.after
  handed : course.handed <+: course.lexed
  kept : course.errors = [] → course.handed = course.lexed
  last : (∃ answer ∈ course.answers, answer.isLast) → course.after.rest = []

theorem Yields.of_nothing {lexer : Lexer} {course : Course} (yields : lexer.Yields course)
    (nothing : lexer.rest = []) : course.handed = [] ∧ course.lexed = [] ∧ course.errors = [] := by
  obtain ⟨lexed, errors, -⟩ := yields.takes.of_nothing nothing
  exact ⟨(yields.kept errors).trans lexed, lexed, errors⟩

theorem Yields.append {lexer : Lexer} {course later : Course} (yields : lexer.Yields course)
    (onward : course.after.Yields later) : lexer.Yields (course.append later) where
  takes := by
    rw [Course.errors_append]
    exact yields.takes.trans onward.takes
  handed := by
    rw [Course.handed_append]
    -- What is lexed later would stand behind a gap if the failure were met in between.
    by_cases failed : course.errors = []
    · rw [yields.kept failed]
      exact List.prefix_append_right_inj _ |>.mpr onward.handed
    · rw [(onward.of_nothing (yields.takes.ends failed)).1, List.append_nil]
      exact yields.handed.trans (List.prefix_append ..)
  kept := by
    intro none
    rw [Course.errors_append, List.append_eq_nil_iff] at none
    rw [Course.handed_append, yields.kept none.1, onward.kept none.2]
    rfl
  last := by
    rintro ⟨answer, member, last⟩
    rcases List.mem_append.mp member with here | there
    · have nothing := yields.last ⟨answer, here, last⟩
      obtain ⟨-, -, -, same⟩ := onward.takes.of_nothing nothing
      exact (congrArg Lexer.rest same).trans nothing
    · exact onward.last ⟨answer, there, last⟩

theorem yields_next (lexer : Lexer) : lexer.Yields (lexer.step .next) := by
  have takes := lexer.takes_pull
  simp only [step, answer]
  cases pulled : lexer.pull with
  | ended after =>
    rw [pulled] at takes
    exact ⟨takes, List.prefix_rfl, fun _ => rfl, fun _ => rest_of_ended pulled⟩
  | failed error after =>
    rw [pulled] at takes
    refine ⟨takes, List.prefix_rfl, fun _ => rfl, fun _ => ?_⟩
    rw [rest_of_failed pulled]
    rfl
  | token token after =>
    rw [pulled] at takes
    refine ⟨takes, List.prefix_rfl, fun _ => rfl, ?_⟩
    rintro ⟨answer, member, last⟩
    rw [List.mem_singleton.mp member] at last
    cases last

theorem yields_tokenize (lexer : Lexer) : lexer.Yields (lexer.step .tokenize) := by
  have takes := lexer.takes_lexAll
  simp only [step, answer, Lexed.result]
  cases failure : lexer.lexAll.failure with
  | none =>
    rw [failure] at takes
    have handed : [Answer.tokenize (.ok lexer.lexAll.tokens)].flatMap Answer.tokens = lexer.lexAll.tokens :=
      List.flatMap_singleton ..
    have all := (List.append_nil _).trans handed
    exact ⟨takes, ⟨[], all⟩, fun _ => handed, fun _ => lexer.rest_lexAll⟩
  | some error =>
    rw [failure] at takes
    exact ⟨takes, List.nil_prefix, fun none => (by cases none), fun _ => lexer.rest_lexAll⟩

theorem yields_step (lexer : Lexer) (step : Step) : lexer.Yields (lexer.step step) := by
  cases step with
  | next => exact lexer.yields_next
  | tokenize => exact lexer.yields_tokenize

theorem yields_course (lexer : Lexer) (steps : List Step) : lexer.Yields (lexer.course steps) := by
  induction steps generalizing lexer with
  | nil =>
    refine ⟨.refl lexer, List.prefix_rfl, fun _ => rfl, ?_⟩
    rintro ⟨answer, member, -⟩
    cases member
  | cons step steps ih => exact (lexer.yields_step step).append (ih _)

theorem course_append (lexer : Lexer) (steps later : List Step) :
    lexer.course (steps ++ later) =
      (lexer.course steps).append ((lexer.course steps).after.course later) := by
  induction steps generalizing lexer with
  | nil => rfl
  | cons step steps ih => simp [course, ih, Course.append]

theorem course_of_nothing {lexer : Lexer} (nothing : lexer.rest = []) (steps : List Step) :
    lexer.course steps = ⟨steps.map Answer.nothing, [], [], lexer⟩ := by
  induction steps with
  | nil => rfl
  | cons step steps ih =>
    have stepped : lexer.step step = ⟨[.nothing step], [], [], lexer⟩ := by
      have pulled := pull_of_nothing nothing
      have passed : lexer.passed = [] :=
        (passedAll_of_ended pulled).symm.trans (passedAll_of_nothing nothing)
      cases step with
      | next => simp [Lexer.step, answer, pulled, passed, Pull.token?, Pull.after, Answer.nothing]
      | tokenize =>
        simp [Lexer.step, answer, lexAll_of_nothing nothing, passedAll_of_nothing nothing, Lexed.result,
          Answer.nothing]
    rw [course, stepped, ih]
    rfl

-- Induction on the calls; after the end or the failure the lexer has nothing left and every call is idle.
theorem course_replicate_next (lexer : Lexer) (count : Nat) :
    (lexer.course (.replicate count .next)).handed = lexer.lexAll.tokens.take count ∧
    (lexer.course (.replicate count .next)).lexed = lexer.lexAll.tokens.take count ∧
    (lexer.course (.replicate count .next)).errors =
      if lexer.lexAll.tokens.length < count then lexer.lexAll.failure.toList else [] := by
  induction count generalizing lexer with
  | zero => exact ⟨rfl, rfl, rfl⟩
  | succ count ih =>
    rw [List.replicate_succ, course, Course.handed_append, Course.errors_append, Course.append, step,
      answer]
    cases pulled : lexer.pull with
    | ended after =>
      obtain ⟨handed, lexed, errors⟩ :=
        (after.yields_course (.replicate count .next)).of_nothing (rest_of_ended pulled)
      simp only [Pull.after, handed, lexed, errors, lexAll_of_ended pulled]
      exact ⟨rfl, rfl, rfl⟩
    | failed error after =>
      have nothing : after.rest = [] := congrArg Lexer.rest (rest_of_failed pulled)
      obtain ⟨handed, lexed, errors⟩ := (after.yields_course (.replicate count .next)).of_nothing nothing
      simp only [Pull.after, handed, lexed, errors, lexAll_of_failed pulled]
      exact ⟨rfl, rfl, rfl⟩
    | token token after =>
      obtain ⟨handed, lexed, errors⟩ := ih after
      simp only [Pull.after, handed, lexed, errors, lexAll_of_token pulled, List.length_cons,
        Nat.add_lt_add_iff_right]
      exact ⟨rfl, rfl, rfl⟩

theorem handed_tokenize (lexer : Lexer) (later : List Step) :
    (lexer.course (.tokenize :: later)).handed =
      if lexer.lexAll.failure = none then lexer.lexAll.tokens else [] := by
  obtain ⟨handed, -⟩ := (lexer.lexAll.after.yields_course later).of_nothing lexer.rest_lexAll
  rw [course, Course.handed_append, step, handed, answer, Lexed.result]
  cases lexer.lexAll.failure with
  | none => simp [Course.handed, Answer.tokens]
  | some error => rfl

/-! ## What a whole course takes -/

/-- Steps take tokens one by one, up to the first that collects the others if there is one. -/
theorem steps_cases (steps : List Step) :
    (.tokenize ∉ steps ∧ steps = .replicate steps.length .next) ∨
    ∃ count later, steps = .replicate count .next ++ .tokenize :: later := by
  by_cases collects : .tokenize ∈ steps
  · obtain ⟨before, later, rfl, none⟩ := List.eq_append_cons_of_mem collects
    refine .inr ⟨before.length, later, ?_⟩
    have single : before = .replicate before.length .next :=
      List.eq_replicate_of_mem fun step member => by cases step <;> simp_all
    rw [← single]
  · refine .inl ⟨collects, List.eq_replicate_of_mem fun step member => ?_⟩
    cases step <;> simp_all

theorem rest_of_tokenize (lexer : Lexer) {steps : List Step} (collects : .tokenize ∈ steps) :
    (lexer.course steps).after.rest = [] := by
  obtain ⟨before, later, rfl⟩ := List.append_of_mem collects
  refine (lexer.yields_course _).last ⟨(lexer.course before).after.answer .tokenize, ?_, rfl⟩
  rw [course_append]
  exact List.mem_append_right _ List.mem_cons_self

theorem lexed_course (lexer : Lexer) (steps : List Step) :
    (lexer.course steps).lexed =
      if .tokenize ∈ steps then lexer.lexAll.tokens else lexer.lexAll.tokens.take steps.length := by
  split
  next collects =>
    have tokens := (lexer.yields_course steps).takes.tokens
    rw [lexAll_of_nothing (lexer.rest_of_tokenize collects), List.append_nil] at tokens
    exact tokens.symm
  next single =>
    obtain ⟨-, same⟩ | ⟨_, _, rfl⟩ := steps_cases steps
    · rw [same, List.length_replicate]
      exact (lexer.course_replicate_next _).2.1
    · exact absurd (List.mem_append_right _ List.mem_cons_self) single

theorem errors_course (lexer : Lexer) (steps : List Step) :
    (lexer.course steps).errors =
      if .tokenize ∈ steps ∨ lexer.lexAll.tokens.length < steps.length then
        lexer.lexAll.failure.toList
      else [] := by
  obtain ⟨single, same⟩ | ⟨count, later, rfl⟩ := steps_cases steps
  · simp only [single, false_or]
    have errors := (lexer.course_replicate_next steps.length).2.2
    rwa [← same] at errors
  · have collects : .tokenize ∈ List.replicate count Step.next ++ .tokenize :: later :=
      List.mem_append_right _ List.mem_cons_self
    rw [if_pos (.inl collects), (lexer.yields_course _).takes.failure,
      lexAll_of_nothing (lexer.rest_of_tokenize collects)]
    exact (List.append_nil _).symm

theorem handed_course (lexer : Lexer) (steps : List Step) :
    (lexer.course steps).handed =
      if lexer.lexAll.failure = none then (lexer.course steps).lexed
      else lexer.lexAll.tokens.take (steps.takeWhile (· == .next)).length := by
  have yields := lexer.yields_course steps
  split
  next whole =>
    have failure := yields.takes.failure
    rw [whole] at failure
    exact yields.kept (List.append_eq_nil_iff.mp failure.symm).1
  next failed =>
    have nexts (count : Nat) : ∀ step ∈ List.replicate count Step.next, (step == .next) = true :=
      fun step member => by rw [List.eq_of_mem_replicate member]; rfl
    obtain ⟨-, same⟩ | ⟨count, later, rfl⟩ := steps_cases steps
    · have handed := (lexer.course_replicate_next steps.length).1
      rw [← same] at handed
      rw [handed, same, List.takeWhile_eq_self_iff.mpr (nexts _), List.length_replicate]
    · have before := lexer.yields_course (.replicate count .next)
      -- The collecting step meets the failure, or finds nothing as it is met already.
      have lost : ((lexer.course (.replicate count .next)).after.course (.tokenize :: later)).handed = [] := by
        rw [handed_tokenize]
        split
        next none =>
          have failure := before.takes.failure
          rw [none, Option.toList_none, List.append_nil] at failure
          have met : (lexer.course (.replicate count .next)).errors ≠ [] := by
            rw [← failure]
            simpa using failed
          rw [lexAll_of_nothing (before.takes.ends met)]
        next => rfl
      rw [course_append, Course.handed_append, lost, List.append_nil,
        (lexer.course_replicate_next count).1, List.takeWhile_append_of_pos (nexts count)]
      simp

/-- What some steps on one lexer of a text come to, in terms of the tokens and the failure of the text. -/
structure Streams (source : String) (steps : List Step) (course : Course) : Prop where
  handed : course.handed <+: (ofSource source).lexAll.tokens
  complete : .tokenize ∈ steps → (ofSource source).lexAll.failure = none →
    course.handed = (ofSource source).lexAll.tokens
  /-- Tokens that are collected before a failure are lost. -/
  lost : (ofSource source).lexAll.failure ≠ none →
    course.handed = (ofSource source).lexAll.tokens.take (steps.takeWhile (· == .next)).length
  /-- No token is lexed twice, lost or not. -/
  lexed : course.lexed =
    if .tokenize ∈ steps then (ofSource source).lexAll.tokens
    else (ofSource source).lexAll.tokens.take steps.length
  errors : course.errors =
    if .tokenize ∈ steps ∨ (ofSource source).lexAll.tokens.length < steps.length then
      (ofSource source).lexAll.failure.toList
    else []
  /-- The failure is met where it stands in the text, behind all the tokens. -/
  place : ∀ error ∈ course.errors, course.lexed = (ofSource source).lexAll.tokens ∧
    course.passed = (ofSource source).passedAll ∧ error.fault.text <:+ course.passed ∧
    error.line = course.after.line
  ended : ∀ later, (∃ answer ∈ course.answers, answer.isLast) →
    course.after.course later = ⟨later.map .nothing, [], [], course.after⟩
  split : ∃ unread, source.toList = course.passed ++ unread ∧
    (course.errors = [] → unread = course.after.rest)
  line : course.after.line = 1 + course.passed.count '\n'

/-- Whichever steps are made on a lexer, they go along one text once. -/
theorem course_streams (source : String) (steps : List Step) :
    Streams source steps ((ofSource source).course steps) := by
  have yields := (ofSource source).yields_course steps
  exact {
    handed := by
      rw [yields.takes.tokens]
      exact yields.handed.trans (List.prefix_append ..)
    complete := by
      intro collects whole
      rw [handed_course, if_pos whole, lexed_course, if_pos collects]
    lost := by
      intro failed
      rw [handed_course, if_neg failed]
    lexed := lexed_course ..
    errors := errors_course ..
    place := by
      intro error met
      have nothing := yields.takes.ends (List.ne_nil_of_mem met)
      have tokens := yields.takes.tokens
      have whole := yields.takes.whole
      rw [lexAll_of_nothing nothing, List.append_nil] at tokens
      rw [passedAll_of_nothing nothing, List.append_nil] at whole
      exact ⟨tokens.symm, whole.symm, yields.takes.place error met⟩
    ended := fun later last => course_of_nothing (yields.last last) later
    split := yields.takes.split
    line := yields.takes.line }

theorem course_streams_illegal :
    let course := (ofSource "a\n7 ? b").course [.next, .tokenize, .next, .tokenize]
    Streams "a\n7 ? b" [.next, .tokenize, .next, .tokenize] course ∧
      course.handed = [⟨.identifier, "a", 1⟩] ∧
      course.lexed = [⟨.identifier, "a", 1⟩, ⟨.number 7, "7", 2⟩] ∧
      course.errors = [⟨.illegal '?', 2⟩] ∧ course.passed = "a\n7 ?".toList ∧ course.after.line = 2 :=
  ⟨course_streams _ _, by decide +kernel, by decide +kernel, by decide +kernel, by decide +kernel,
    by decide +kernel⟩

end Lexer

end TypedLisp
