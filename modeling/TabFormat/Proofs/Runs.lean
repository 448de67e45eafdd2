import TabFormat.Template.Expand

/-!
# Laws of runs

Runs compose: what a run does after its first part is what the second part does by itself, told of
the calls of the first. The laws below let later modules take the run of a list of steps apart at
any place (`runSteps_append`) without opening `Run.andThen`.
-/

namespace TabFormat.Template

section

variable {ε ε' α : Type}

@[simp] theorem mapError_ok (f : ε → ε') (a : α) :
    (Except.ok a : Except ε α).mapError f = .ok a := rfl

@[simp] theorem mapError_error (f : ε → ε') (e : ε) :
    (Except.error e : Except ε α).mapError f = .error (f e) := rfl

end

namespace Run

variable {ε α β γ : Type}

@[simp] theorem calls_done (a : α) : (done a : Run ε α).calls = [] := rfl

@[simp] theorem warnings_done (a : α) : (done a : Run ε α).warnings = [] := rfl

@[simp] theorem result_done (a : α) : (done a : Run ε α).result = .ok a := rfl

@[simp] theorem calls_map (f : α → β) (run : Run ε α) : (run.map f).calls = run.calls := rfl

@[simp] theorem warnings_map (f : α → β) (run : Run ε α) :
    (run.map f).warnings = run.warnings := rfl

@[simp] theorem result_map (f : α → β) (run : Run ε α) :
    (run.map f).result = run.result.map f := rfl

@[simp] theorem map_done (f : α → β) (a : α) : (done a : Run ε α).map f = done (f a) := rfl

theorem map_map (f : α → β) (g : β → γ) (run : Run ε α) :
    (run.map f).map g = run.map fun a => g (f a) := by
  obtain ⟨calls, warnings, _ | a⟩ := run <;> rfl

theorem map_id (run : Run ε α) : (run.map fun a => a) = run := by
  obtain ⟨calls, warnings, _ | a⟩ := run <;> rfl

/-! ### One run after another -/

theorem andThen_of_error {first : Run ε α} {e : Failure ε} (h : first.result = .error e)
    (next : α → Run ε β) :
    first.andThen next = ⟨first.calls, first.warnings, .error e⟩ := by
  rw [andThen, h]

theorem andThen_of_ok {first : Run ε α} {a : α} (h : first.result = .ok a)
    (next : α → Run ε β) :
    first.andThen next =
      ⟨first.calls ++ (next a).calls, first.warnings ++ (next a).warnings, (next a).result⟩ := by
  rw [andThen, h]

@[simp] theorem done_andThen (a : α) (next : α → Run ε β) : (done a).andThen next = next a := by
  rw [andThen_of_ok rfl]
  rfl

theorem map_andThen (f : α → β) (run : Run ε α) (next : β → Run ε γ) :
    (run.map f).andThen next = run.andThen fun a => next (f a) := by
  obtain ⟨calls, warnings, _ | a⟩ := run <;> rfl

theorem andThen_done (run : Run ε α) (f : α → β) :
    (run.andThen fun a => done (f a)) = run.map f := by
  obtain ⟨calls, warnings, _ | a⟩ := run
  · rfl
  · rw [andThen_of_ok rfl]
    simp only [calls_done, warnings_done, List.append_nil]
    rfl

theorem ok_of_map_ok {f : α → β} {run : Run ε α} {b : β} (h : (run.map f).result = .ok b) :
    ∃ a, run.result = .ok a ∧ f a = b := by
  obtain ⟨calls, warnings, e | a⟩ := run
  · simp [Except.map] at h
  · exact ⟨a, rfl, Except.ok.inj h⟩

theorem error_of_map_error {f : α → β} {run : Run ε α} {e : Failure ε}
    (h : (run.map f).result = .error e) : run.result = .error e := by
  obtain ⟨calls, warnings, e' | a⟩ := run
  · exact congrArg Except.error (Except.error.inj h)
  · simp [Except.map] at h

/-- A run that succeeds begins with a run that succeeds. -/
theorem ok_of_andThen_ok {first : Run ε α} {next : α → Run ε β} {b : β}
    (h : (first.andThen next).result = .ok b) :
    ∃ a, first.result = .ok a ∧ (next a).result = .ok b := by
  cases hf : first.result with
  | error e =>
    rw [andThen_of_error hf] at h
    simp at h
  | ok a =>
    rw [andThen_of_ok hf] at h
    exact ⟨a, rfl, h⟩

/-- The calls of the first part come first. -/
theorem calls_prefix_andThen (first : Run ε α) (next : α → Run ε β) :
    first.calls <+: (first.andThen next).calls := by
  obtain ⟨calls, warnings, _ | a⟩ := first
  · exact List.prefix_rfl
  · exact List.prefix_append _ _

/-- The warnings of the first part come first. -/
theorem warnings_prefix_andThen (first : Run ε α) (next : α → Run ε β) :
    first.warnings <+: (first.andThen next).warnings := by
  obtain ⟨calls, warnings, _ | a⟩ := first
  · exact List.prefix_rfl
  · exact List.prefix_append _ _

/-! ### Other reasons for a failure -/

@[simp] theorem calls_mapFailure (f : Failure ε → Failure ε) (run : Run ε α) :
    (run.mapFailure f).calls = run.calls := rfl

@[simp] theorem warnings_mapFailure (f : Failure ε → Failure ε) (run : Run ε α) :
    (run.mapFailure f).warnings = run.warnings := rfl

@[simp] theorem result_mapFailure (f : Failure ε → Failure ε) (run : Run ε α) :
    (run.mapFailure f).result = run.result.mapError f := rfl

theorem mapFailure_of_ok {run : Run ε α} {a : α} (h : run.result = .ok a)
    (f : Failure ε → Failure ε) : run.mapFailure f = run := by
  obtain ⟨calls, warnings, e | b⟩ := run
  · simp at h
  · rfl

theorem mapFailure_map (f : Failure ε → Failure ε) (g : α → β) (run : Run ε α) :
    (run.map g).mapFailure f = (run.mapFailure f).map g := by
  obtain ⟨calls, warnings, _ | a⟩ := run <;> rfl

theorem mapFailure_andThen (f : Failure ε → Failure ε) (run : Run ε α) (next : α → Run ε β) :
    (run.andThen next).mapFailure f =
      (run.mapFailure f).andThen fun a => (next a).mapFailure f := by
  obtain ⟨calls, warnings, _ | a⟩ := run <;> rfl

/-! ### What is handed on -/

theorem outcome_of_ok {run : Run ε α} {a : α} (h : run.result = .ok a) :
    run.outcome = .ok a := by
  rw [outcome, h]
  rfl

theorem outcome_of_error {run : Run ε α} {reason : Failure ε} (h : run.result = .error reason) :
    run.outcome = .error reason.error := by
  rw [outcome, h]
  rfl

/-- An error of another kind comes from a call that is refused. -/
theorem refused_of_outcome_other {run : Run ε α} {e : ε} (h : run.outcome = .error (.other e)) :
    ∃ place, run.result = .error (.refused (.other e) place) := by
  obtain ⟨calls, warnings, (e' | ⟨e' | e', _ | place⟩) | a⟩ := run <;>
    simp only [outcome, mapError_ok, mapError_error, Failure.error, Error.relocate, Except.error.injEq,
      Error.other.injEq, reduceCtorEq] at h
  · exact ⟨none, by rw [h]⟩
  · exact ⟨some place, by rw [h]⟩

/-- An answer outside of arguments is handed on as it is. -/
theorem outcome_of_answer {run : Run ε α} {answer : Except (Error ε) α}
    (h : run.result = answer.mapError (.refused · none)) : run.outcome = answer := by
  rw [outcome, h]
  cases answer <;> rfl

/-! ### Arguments, as seen from outside -/

@[simp] theorem calls_relocate (span : Span) (consumed : Text) (run : Run ε α) :
    (run.relocate span consumed).calls = run.calls := rfl

@[simp] theorem warnings_relocate (span : Span) (consumed : Text) (run : Run ε α) :
    (run.relocate span consumed).warnings = run.warnings := rfl

theorem relocate_of_ok {run : Run ε α} {a : α} (h : run.result = .ok a) (span : Span)
    (consumed : Text) : run.relocate span consumed = run :=
  mapFailure_of_ok h _

theorem result_relocate_malformed {run : Run ε α} {e : SyntaxError}
    (h : run.result = .error (.malformed e)) (span : Span) (consumed : Text) :
    (run.relocate span consumed).result = .error (.malformed (e.relocate span consumed)) := by
  rw [relocate, result_mapFailure, h]
  rfl

theorem result_relocate_refused {run : Run ε α} {e : Error ε} {place : Option Location}
    (h : run.result = .error (.refused e place)) (span : Span) (consumed : Text) :
    (run.relocate span consumed).result = .error (.refused e (some ⟨span, consumed⟩)) := by
  rw [relocate, result_mapFailure, h]
  rfl

/-- Only the argument itself decides whether it succeeds. -/
theorem ok_of_relocate_ok {run : Run ε α} {span : Span} {consumed : Text} {a : α}
    (h : (run.relocate span consumed).result = .ok a) : run.result = .ok a := by
  obtain ⟨calls, warnings, e | b⟩ := run
  · simp [relocate] at h
  · exact h

/-- A fault seen from outside is one of the argument itself. -/
theorem malformed_of_relocate_malformed {run : Run ε α} {span : Span} {consumed : Text}
    {e : SyntaxError} (h : (run.relocate span consumed).result = .error (.malformed e)) :
    ∃ e', run.result = .error (.malformed e') ∧ e = e'.relocate span consumed := by
  obtain ⟨calls, warnings, (e' | ⟨e', place⟩) | a⟩ := run
  · exact ⟨e', rfl, (Failure.malformed.inj (Except.error.inj h)).symm⟩
  · simp [relocate, Failure.relocate] at h
  · simp [relocate] at h

/-- A call refused in an argument is refused there, seen from outside. -/
theorem refused_of_relocate_refused {run : Run ε α} {span : Span} {consumed : Text}
    {e : Error ε} {place : Option Location}
    (h : (run.relocate span consumed).result = .error (.refused e place)) :
    (∃ inner, run.result = .error (.refused e inner)) ∧ place = some ⟨span, consumed⟩ := by
  obtain ⟨calls, warnings, (e' | ⟨e', inner⟩) | a⟩ := run
  · simp [relocate, Failure.relocate] at h
  · obtain ⟨rfl, rfl⟩ := Failure.refused.inj (Except.error.inj h)
    exact ⟨⟨inner, rfl⟩, rfl⟩
  · simp [relocate] at h

end Run

variable {ε : Type}

/-- A call that fails is refused outside of arguments. -/
theorem Call.refused_of_run_error {resolver : Resolver ε} {call : Call} {reason : Failure ε}
    (h : (Call.run resolver call).result = .error reason) :
    ∃ e, resolver call = .error e ∧ reason = .refused e none := by
  rw [Call.run] at h
  cases hanswer : resolver call with
  | ok answer =>
    rw [hanswer] at h
    cases h
  | error e =>
    rw [hanswer] at h
    exact ⟨e, rfl, (Except.error.inj h).symm⟩

/-! ### Steps in a row -/

theorem runSteps_nil (oracle : Oracle ε) (before : List Call) (args : List Text) :
    runSteps oracle before args [] = .done (args, []) := by
  rw [runSteps]

theorem runSteps_cons (oracle : Oracle ε) (before : List Call) (args : List Text) (step : Step)
    (rest : List Step) :
    runSteps oracle before args (step :: rest) =
      (step.run oracle before args).andThen fun next =>
        (runSteps oracle (before ++ (step.run oracle before args).calls) next.1 rest).map
          fun last => (last.1, next.2 ++ last.2) := by
  rw [runSteps]

theorem runSteps_copy_cons (oracle : Oracle ε) (before : List Call) (args : List Text) (s : Text)
    (rest : List Step) :
    runSteps oracle before args (.copy s :: rest) =
      (runSteps oracle before args rest).map fun last => (last.1, s ++ last.2) := by
  rw [runSteps_cons, Step.run, Run.done_andThen, Run.calls_done, List.append_nil]

/-- Steps can be carried out in two parts. The second part is told of the calls and the arguments
of the first. -/
theorem runSteps_append (oracle : Oracle ε) (before : List Call) (args : List Text)
    (first second : List Step) :
    runSteps oracle before args (first ++ second) =
      (runSteps oracle before args first).andThen fun next =>
        (runSteps oracle (before ++ (runSteps oracle before args first).calls) next.1 second).map
          fun last => (last.1, next.2 ++ last.2) := by
  induction first generalizing before args with
  | nil =>
    rw [List.nil_append, runSteps_nil, Run.done_andThen, Run.calls_done, List.append_nil]
    exact (Run.map_id _).symm
  | cons step first ih =>
    rw [List.cons_append, runSteps_cons, runSteps_cons]
    cases hs : (step.run oracle before args).result with
    | error e => rw [Run.andThen_of_error hs, Run.andThen_of_error hs, Run.andThen_of_error rfl]
    | ok next =>
      rw [Run.andThen_of_ok hs, Run.andThen_of_ok hs, ih]
      cases hf : (runSteps oracle (before ++ (step.run oracle before args).calls) next.1
          first).result with
      | error e =>
        rw [Run.andThen_of_error hf, Run.andThen_of_error (e := e)
          (by simp only [Run.result_map, hf]; rfl)]
        rfl
      | ok last =>
        rw [Run.andThen_of_ok hf, Run.andThen_of_ok (a := (last.1, next.2 ++ last.2))
          (by simp only [Run.result_map, hf]; rfl)]
        simp only [Run.calls_map, Run.warnings_map, Run.result_map, List.append_assoc]
        congr 1
        cases (runSteps oracle (before ++ ((step.run oracle before args).calls ++ (runSteps oracle
          (before ++ (step.run oracle before args).calls) next.1 first).calls)) last.1
          second).result with
        | error e => rfl
        | ok final => simp only [Except.map]

/-- Steps that succeed begin with a step that succeeds. -/
theorem ok_of_runSteps_cons_ok {oracle : Oracle ε} {before : List Call} {args : List Text}
    {step : Step} {rest : List Step} {last : List Text × Text}
    (h : (runSteps oracle before args (step :: rest)).result = .ok last) :
    ∃ next last', (step.run oracle before args).result = .ok next ∧
      (runSteps oracle (before ++ (step.run oracle before args).calls) next.1 rest).result =
        .ok last' := by
  rw [runSteps_cons] at h
  obtain ⟨next, hn, hl⟩ := Run.ok_of_andThen_ok h
  obtain ⟨last', hr, -⟩ := Run.ok_of_map_ok hl
  exact ⟨next, last', hn, hr⟩

/-- Steps that succeed can be carried out in two parts that succeed. -/
theorem ok_of_runSteps_append_ok {oracle : Oracle ε} {before : List Call} {args : List Text}
    {first second : List Step} {last : List Text × Text}
    (h : (runSteps oracle before args (first ++ second)).result = .ok last) :
    ∃ next last', (runSteps oracle before args first).result = .ok next ∧
      (runSteps oracle (before ++ (runSteps oracle before args first).calls) next.1
        second).result = .ok last' ∧ last'.1 = last.1 := by
  rw [runSteps_append] at h
  obtain ⟨next, hn, hl⟩ := Run.ok_of_andThen_ok h
  obtain ⟨last', hr, rfl⟩ := Run.ok_of_map_ok hl
  exact ⟨next, last', hn, hr, rfl⟩

/-- **The step at which a run fails.** The steps before it succeed. -/
theorem exists_failing_step {oracle : Oracle ε} {before : List Call} {args : List Text}
    {steps : List Step} {reason : Failure ε}
    (h : (runSteps oracle before args steps).result = .error reason) :
    ∃ front step back last, steps = front ++ step :: back ∧
      (runSteps oracle before args front).result = .ok last ∧
      (step.run oracle (before ++ (runSteps oracle before args front).calls) last.1).result =
        .error reason := by
  induction steps generalizing before args with
  | nil => simp [runSteps_nil] at h
  | cons step steps ih =>
    rw [runSteps_cons] at h
    cases hstep : (step.run oracle before args).result with
    | error reason' =>
      rw [Run.andThen_of_error hstep] at h
      refine ⟨[], step, steps, (args, []), rfl, by rw [runSteps_nil]; rfl, ?_⟩
      rwa [runSteps_nil, Run.calls_done, List.append_nil, hstep]
    | ok next =>
      rw [Run.andThen_of_ok hstep] at h
      obtain ⟨front, failing, back, last, rfl, hfront, hfailing⟩ :=
        ih (Run.error_of_map_error h)
      have hrun := runSteps_cons oracle before args step front
      rw [Run.andThen_of_ok hstep] at hrun
      refine ⟨step :: front, failing, back, (last.1, next.2 ++ last.2), rfl, ?_, ?_⟩
      · simp only [hrun, Run.result_map, hfront]
        rfl
      · rwa [hrun, Run.calls_map, ← List.append_assoc]

/-- Steps behind one that fails do not matter. -/
theorem runSteps_of_failing_step {oracle : Oracle ε} {before : List Call} {args : List Text}
    {front front' : List Step} {step : Step} {last : List Text × Text} {reason : Failure ε}
    (hsame : runSteps oracle before args front' = runSteps oracle before args front)
    (hfront : (runSteps oracle before args front).result = .ok last)
    (hstep : (step.run oracle (before ++ (runSteps oracle before args front).calls) last.1).result =
      .error reason) (back back' : List Step) :
    runSteps oracle before args (front' ++ step :: back') =
      runSteps oracle before args (front ++ step :: back) := by
  rw [runSteps_append, runSteps_append, hsame, Run.andThen_of_ok hfront, Run.andThen_of_ok hfront,
    runSteps_cons, runSteps_cons, Run.andThen_of_error hstep, Run.andThen_of_error hstep]

/-- A run that succeeds meets no fault. -/
theorem malformed_notMem_of_ok {oracle : Oracle ε} {before : List Call} {args : List Text}
    {steps : List Step} {last : List Text × Text}
    (h : (runSteps oracle before args steps).result = .ok last) (e : SyntaxError) :
    .malformed e ∉ steps := by
  induction steps generalizing before args last with
  | nil => exact List.not_mem_nil
  | cons step steps ih =>
    obtain ⟨next, last', hstep, hrest⟩ := ok_of_runSteps_cons_ok h
    refine List.not_mem_cons_of_ne_of_not_mem ?_ (ih hrest)
    rintro rfl
    rw [Step.run] at hstep
    simp [Run.failed] at hstep

end TabFormat.Template
