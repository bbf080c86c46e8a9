import TypedLisp.CommandLine.Options

/-! Asking for a drawing among other arguments.

No argument takes a directory back that was asked for. So where no directory comes
out in the end, none is there and none is waited for at any time, and the arguments
that follow are read the same with a directory set before them.
-/

set_option autoImplicit false

namespace TypedLisp.CommandLine

def Options.drawing (options : Options) (directory : String) : Options :=
  { options with dotDirectory := some directory }

namespace Progress

def into (progress : Progress) (directory : String) : Progress :=
  { progress with options := progress.options.drawing directory }

/-- No directory has been asked for. -/
structure Undrawn (progress : Progress) : Prop where
  directory : progress.options.dotDirectory = none
  waiting : progress.waiting ≠ .dotDirectory

variable {progress next : Progress} {text : String} (directory : String)

theorem directory_of_setDirectory (taken : progress.setDirectory text = .ok next) :
    next.options.dotDirectory ≠ none := by
  unfold setDirectory at taken
  split at taken
  · cases taken
  · cases taken
    exact Option.some_ne_none text

theorem setExpression_into (taken : progress.setExpression text = .ok next) :
    next.options.dotDirectory = progress.options.dotDirectory ∧
      (progress.into directory).setExpression text = .ok (next.into directory) := by
  unfold setExpression at taken ⊢
  split at taken
  · cases taken
  next free =>
    cases taken
    exact ⟨rfl, if_neg free⟩

theorem setFile_into (taken : progress.setFile text = .ok next) :
    next.options.dotDirectory = progress.options.dotDirectory ∧ next.waiting = progress.waiting ∧
      (progress.into directory).setFile text = .ok (next.into directory) := by
  unfold setFile at taken ⊢
  split at taken
  · cases taken
  next free =>
    cases taken
    exact ⟨rfl, rfl, if_neg free⟩

theorem settle_into (settled : progress.settle = .ok next)
    (undrawn : next.options.dotDirectory = none) :
    progress.Undrawn ∧ (progress.into directory).settle = .ok (next.into directory) := by
  cases waiting : progress.waiting with
  | none =>
    simp only [settle, waiting] at settled
    cases settled
    refine ⟨⟨undrawn, by simp [waiting]⟩, ?_⟩
    simp only [settle, into, waiting]
  | expression =>
    simp only [settle, waiting] at settled
    cases settled
  | dotDirectory =>
    simp only [settle, waiting] at settled
    exact absurd undrawn (directory_of_setDirectory settled)

-- From here on steps are followed backwards: what is absent after a step was absent before it.
theorem longOption_into {name : String} {attached : Option String}
    (taken : progress.longOption name attached = .ok next) (undrawn : next.Undrawn) :
    progress.options.dotDirectory = none ∧
      (progress.into directory).longOption name attached = .ok (next.into directory) := by
  unfold longOption at taken
  split at taken
  · cases taken
  · obtain ⟨kept, same⟩ := setExpression_into directory taken
    exact ⟨kept ▸ undrawn.directory, same⟩
  · cases taken
    exact ⟨undrawn.directory, rfl⟩
  · exact absurd undrawn.directory (directory_of_setDirectory taken)
  · cases taken
    exact absurd rfl undrawn.waiting
  · split at taken
    · cases taken
    next free =>
      cases taken
      exact ⟨undrawn.directory, if_neg free⟩
  · split at taken
    · cases taken
    next free =>
      cases taken
      exact ⟨undrawn.directory, if_neg free⟩
  · cases taken

theorem shortOption_into {characters : List Char}
    (taken : progress.shortOption characters = .ok next) (undrawn : next.Undrawn) :
    progress.options.dotDirectory = none ∧
      (progress.into directory).shortOption characters = .ok (next.into directory) := by
  unfold shortOption at taken
  split at taken
  · cases taken
  · cases taken
    exact ⟨undrawn.directory, rfl⟩
  · obtain ⟨kept, same⟩ := setExpression_into directory taken
    exact ⟨kept ▸ undrawn.directory, same⟩
  next noText noEquals =>
    obtain ⟨kept, same⟩ := setExpression_into directory taken
    refine ⟨kept ▸ undrawn.directory, ?_⟩
    rw [shortOption]
    · exact same
    · exact noText
    · exact noEquals
  · cases taken

theorem plain_into (taken : progress.plain text = .ok next) (undrawn : next.Undrawn) :
    progress.Undrawn ∧ (progress.into directory).plain text = .ok (next.into directory) := by
  cases waiting : progress.waiting with
  | none =>
    simp only [plain, waiting] at taken
    obtain ⟨kept, -, same⟩ := setFile_into directory taken
    refine ⟨⟨kept ▸ undrawn.directory, by simp [waiting]⟩, ?_⟩
    simpa only [plain, into, waiting] using same
  | expression =>
    simp only [plain, waiting] at taken
    obtain ⟨kept, same⟩ := setExpression_into directory taken
    refine ⟨⟨kept ▸ undrawn.directory, by simp [waiting]⟩, ?_⟩
    simpa only [plain, into, waiting] using same
  | dotDirectory =>
    simp only [plain, waiting] at taken
    exact absurd undrawn.directory (directory_of_setDirectory taken)

theorem settled_into {change : Progress → Except Stop Progress}
    (carries : ∀ {settled : Progress}, change settled = .ok next →
      settled.options.dotDirectory = none ∧
        change (settled.into directory) = .ok (next.into directory))
    (taken : (progress.settle >>= change) = .ok next) :
    progress.Undrawn ∧ ((progress.into directory).settle >>= change) = .ok (next.into directory) := by
  cases settling : progress.settle with
  | error stop =>
    rw [settling] at taken
    cases taken
  | ok settled =>
    rw [settling] at taken
    obtain ⟨free, changed⟩ := carries taken
    obtain ⟨undrawn, settling'⟩ := settle_into directory settling free
    rw [settling']
    exact ⟨undrawn, changed⟩

theorem step_into {argument : String} (taken : progress.step argument = .ok next)
    (undrawn : next.Undrawn) :
    progress.Undrawn ∧ (progress.into directory).step argument = .ok (next.into directory) := by
  unfold step at taken ⊢
  split at taken
  next literal =>
    obtain ⟨kept, waits, same⟩ := setFile_into directory taken
    rw [if_pos (show (progress.into directory).literal from literal)]
    exact ⟨⟨kept ▸ undrawn.directory, waits ▸ undrawn.waiting⟩, same⟩
  next literal =>
    rw [if_neg (show ¬(progress.into directory).literal from literal)]
    split at taken
    · apply settled_into directory _ taken
      intro settled closed
      cases closed
      exact ⟨undrawn.directory, rfl⟩
    · exact settled_into directory (fun taken => longOption_into directory taken undrawn) taken
    · exact settled_into directory (fun taken => shortOption_into directory taken undrawn) taken
    · exact plain_into directory taken undrawn

theorem steps_into {arguments : List String} (taken : arguments.foldlM step progress = .ok next)
    (undrawn : next.Undrawn) :
    progress.Undrawn ∧
      arguments.foldlM step (progress.into directory) = .ok (next.into directory) := by
  induction arguments generalizing progress with
  | nil =>
    cases taken
    exact ⟨undrawn, rfl⟩
  | cons argument arguments ih =>
    rw [List.foldlM_cons] at taken ⊢
    cases stepped : progress.step argument with
    | error stop =>
      rw [stepped] at taken
      cases taken
    | ok middle =>
      rw [stepped] at taken
      obtain ⟨free, rest⟩ := ih taken
      obtain ⟨undrawn, stepped'⟩ := step_into directory stepped free
      rw [stepped']
      exact ⟨undrawn, rest⟩

theorem finish_into {options : Options} (finished : progress.finish = .ok options)
    (undrawn : options.dotDirectory = none) :
    progress.Undrawn ∧ (progress.into directory).finish = .ok (options.drawing directory) := by
  unfold finish at finished ⊢
  cases settling : progress.settle with
  | error stop =>
    rw [settling] at finished
    cases finished
  | ok settled =>
    rw [settling] at finished
    simp only [bind, Except.bind] at finished ⊢
    split at finished
    · cases finished
    next apart =>
      cases finished
      obtain ⟨free, settling'⟩ := settle_into directory settling undrawn
      rw [settling']
      exact ⟨free, if_neg apart⟩

structure Ready (progress : Progress) : Prop where
  waiting : progress.waiting = .none
  literal : progress.literal = false

theorem step_dot (ready : progress.Ready) (undrawn : progress.Undrawn) (nonempty : directory ≠ "") :
    progress.step ("--dot=" ++ directory) = .ok (progress.into directory) := by
  have characters : ("--dot=" ++ directory).toList =
      '-' :: '-' :: 'd' :: 'o' :: 't' :: '=' :: directory.toList := by
    rw [String.toList_append]
    rfl
  have settled : progress.settle = .ok progress := by simp only [settle, ready.waiting]
  have set : progress.setDirectory directory = .ok (progress.into directory) := by
    have free : ¬(progress.options.dotDirectory.isSome || directory.isEmpty) := by
      simpa [undrawn.directory] using nonempty
    rw [setDirectory, if_neg free, into, ready.waiting]
    rfl
  rw [step, if_neg (by simp [ready.literal]), characters]
  show (progress.settle >>= fun settled =>
    settled.longOption "dot" (some (String.ofList directory.toList))) = _
  rw [settled, String.ofList_toList]
  exact set

end Progress

/-- With a drawing asked for among them, arguments that ask for none give the same options else. -/
theorem parseArguments_dot {before after : List String} {options : Options} {directory : String}
    (parsed : parseArguments (before ++ after) = .ok options) (undrawn : options.dotDirectory = none)
    (nonempty : directory ≠ "") {progress : Progress}
    (read : before.foldlM Progress.step {} = .ok progress) (ready : progress.Ready) :
    parseArguments (before ++ ("--dot=" ++ directory) :: after) = .ok (options.drawing directory) := by
  unfold parseArguments at parsed ⊢
  rw [List.foldlM_append, read] at parsed ⊢
  cases taken : after.foldlM Progress.step progress with
  | error stop =>
    simp only [bind, Except.bind, taken] at parsed
    cases parsed
  | ok last =>
    simp only [bind, Except.bind, taken] at parsed
    obtain ⟨free, finished⟩ := Progress.finish_into directory parsed undrawn
    obtain ⟨undrawn', taken'⟩ := Progress.steps_into directory taken free
    have stepped := Progress.step_dot directory ready undrawn' nonempty
    simp only [bind, Except.bind, List.foldlM_cons, stepped, taken', finished]

end TypedLisp.CommandLine
