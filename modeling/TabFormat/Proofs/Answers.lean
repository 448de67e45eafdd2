import TabFormat.Proofs.Arguments
import TabFormat.Proofs.Course

/-!
# What answers decide

A run asks the resolver for the answers to its calls and for nothing else. So two resolvers that
agree on the calls of a run carry out the same run, and if the run succeeds, then all its calls are
answered.

## Main results

* `runSteps_congr`, `Expands.congr` : resolvers that agree on the calls that are made.
* `answered_of_ok` : the calls of a run that succeeds are answered.
-/

namespace TabFormat.Template

variable {ε : Type} {resolver resolver' : Resolver ε}

/-- What comes after a run needs to agree only on its result. -/
theorem Run.andThen_congr {α β : Type} {first : Run ε α} {next next' : α → Run ε β}
    (h : ∀ a, first.result = .ok a → next a = next' a) :
    first.andThen next = first.andThen next' := by
  cases hfirst : first.result with
  | error e => rw [andThen_of_error hfirst, andThen_of_error hfirst]
  | ok a => rw [andThen_of_ok hfirst, andThen_of_ok hfirst, h a hfirst]

/-! ### Resolvers that agree -/

mutual

theorem Step.run_congr (before : List Call) (args : List Text) : (step : Step) →
    (∀ call ∈ (step.run (fun _ => resolver) before args).calls, resolver' call = resolver call) →
    step.run (fun _ => resolver') before args = step.run (fun _ => resolver) before args
  | .copy s, _ => by rw [Step.run, Step.run]
  | .argument span consumed body, h => by
    rw [Step.run, Run.calls_map, Run.calls_relocate] at h
    rw [Step.run, Step.run, runSteps_congr before [] body h]
  | .ignored name text, _ => by rw [Step.run, Step.run]
  | .call name rawArgs, h => by
    rw [Step.run, Run.calls_map, Call.run] at h
    rw [Step.run, Step.run, Call.run, Call.run, h _ List.mem_cons_self]
  | .malformed e, _ => by rw [Step.run, Step.run]

/-- **Resolvers that agree on the calls of a run carry out the same run.** -/
theorem runSteps_congr (before : List Call) (args : List Text) : (steps : List Step) →
    (∀ call ∈ (runSteps (fun _ => resolver) before args steps).calls,
      resolver' call = resolver call) →
    runSteps (fun _ => resolver') before args steps =
      runSteps (fun _ => resolver) before args steps
  | [], _ => by rw [runSteps_nil, runSteps_nil]
  | step :: rest, h => by
    rw [runSteps_cons] at h
    rw [runSteps_cons, runSteps_cons, Step.run_congr before args step fun call hcall =>
      h call ((Run.calls_prefix_andThen _ _).subset hcall)]
    refine Run.andThen_congr fun next hnext => ?_
    rw [Run.andThen_of_ok hnext] at h
    rw [runSteps_congr _ next.1 rest fun call hcall => h call (List.mem_append_right _ hcall)]

end

/-- Resolvers that agree on the calls of texts expand them in the same way. -/
theorem Expands.congr {limit depth : Nat} {before calls : List Call} {texts values : List Text}
    {warnings : List Ignored}
    (h : Expands limit depth (fun _ => resolver) before texts calls warnings values)
    (hagree : ∀ call ∈ calls, resolver' call = resolver call) :
    Expands limit depth (fun _ => resolver') before texts calls warnings values := by
  induction h with
  | nil => exact .nil
  | cons hfirst hok _ ih =>
    obtain ⟨hhead, hrest⟩ := List.forall_mem_append.mp hagree
    subst hfirst
    exact .cons (runSteps_congr _ _ _ hhead) hok (ih hrest)

/-! ### Runs that succeed -/

/-- **The calls of a run that succeeds are answered.** -/
theorem answered_of_ok {before : List Call} {args : List Text} {steps : List Step}
    {last : List Text × Text}
    (h : (runSteps (fun _ => resolver) before args steps).result = .ok last) {call : Call}
    (hcall : call ∈ (runSteps (fun _ => resolver) before args steps).calls) :
    ∃ answer, resolver call = .ok answer := by
  obtain ⟨earlier, later, hcalls⟩ := List.append_of_mem hcall
  have hshadows : Run.Shadows _ _ _ _ (runSteps (.answering _ : Oracle Empty) before args steps) :=
    runSteps_shadows (fun _ => resolver) before before (fun _ _ => []) rfl steps
  rcases hshadows with ⟨-, hanswers⟩ | ⟨_, _, _, _, -, -, -, hrefused, -⟩
  · exact hanswers earlier call later hcalls
  · simp [hrefused] at h

end TabFormat.Template
