import TabFormat.Proofs.Arguments

/-!
# Inert arguments

An argument in which nothing is special is copied instead of being expanded. That is a matter of
speed only: such a text expands to itself at every level, also below the limit, since it opens no
placeholder and has no escapes; parentheses, commas and quotation marks mean nothing outside of
placeholders. So whichever inert arguments are copied, and also if none is, the expansion of a
template is the same run.

## Main definitions

* `planSkipping` : the plan of a template that copies the arguments that pass a test.
* `consultThoroughly` : the expansion that copies no argument.

## Main results

* `runSteps_plan_of_isInert` : an inert text expands to itself.
* `runSteps_planSkipping` : it does not matter which inert arguments are copied.
* `consultThoroughly_eq` : the expansion that copies no argument.
-/

namespace TabFormat.Template

variable {ε : Type} {limit depth : Nat} {skip : Text → Bool}

/-! ### Texts that expand to themselves -/

/-- A text is inert if it has neither percent signs nor backslashes. -/
theorem isInert_iff {text : Text} : isInert text = true ↔ '%' ∉ text ∧ '\\' ∉ text := by
  constructor
  · intro h
    have hspecial (c : Char) (hc : c ∈ text) : c ≠ '%' ∧ c ≠ '\\' := by
      simpa [isInert] using List.all_eq_true.mp h c hc
    exact ⟨fun hc => (hspecial _ hc).1 rfl, fun hc => (hspecial _ hc).2 rfl⟩
  · rintro ⟨hpercent, hback⟩
    refine List.all_eq_true.mpr fun c hc => ?_
    have hp : c ≠ '%' := ne_of_mem_of_not_mem hc hpercent
    have hb : c ≠ '\\' := ne_of_mem_of_not_mem hc hback
    simp [hp, hb]

/-- **An inert text expands to itself**, at every level. -/
theorem runSteps_plan_of_isInert {text : Text} (h : isInert text = true) (limit depth : Nat)
    (oracle : Oracle ε) (before : List Call) (args : List Text) :
    runSteps oracle before args (plan limit depth text) = .done (args, text) := by
  calc
    runSteps oracle before args (plan limit depth text)
      = runSteps oracle before args
          (if isInert text then [.copy text] else plan limit depth text) :=
        (runSteps_argument oracle before args text).symm
    _ = runSteps oracle before args ([text].map .copy) := by rw [if_pos h, List.map_singleton]
    _ = .done (args, text) := by
        rw [runSteps_copy, List.flatten_cons, List.flatten_nil, List.append_nil]

/-! ### Other tests for arguments to copy -/

/-- The steps of a text that lies `depth` levels deep, if the arguments that pass the test `skip`
are copied and all others expanded. -/
def planSkipping (skip : Text → Bool) (limit depth : Nat) (input : Text) : List Step :=
  (outline limit depth input).attach.map fun
    | ⟨.copy s, _⟩ => .copy s
    | ⟨.argument text span, _⟩ =>
      .argument span (input.upTo span.stop)
        (if skip text then [.copy text] else planSkipping skip limit (depth + 1) text)
    | ⟨.ignored name text, _⟩ => .ignored name text
    | ⟨.call name rawArgs, _⟩ => .call name rawArgs
    | ⟨.fault fault span, _⟩ => .malformed ⟨fault, span, input.upTo span.stop⟩
termination_by input.byteLength
decreasing_by
  rename_i h _
  have := argument_add_four_le h
  omega

/-- Expands a template with an oracle, every argument included. -/
def consultThoroughly (limit : Nat) (oracle : Oracle ε) (template : Text) : Run ε Text :=
  (runSteps oracle [] [] (planSkipping (fun _ => false) limit 0 template)).map Prod.snd

/-- The step that an event of the outline of `input` asks for, if the arguments that pass a test are
copied. -/
def Event.stepSkipping (skip : Text → Bool) (limit depth : Nat) (input : Text) : Event → Step
  | argument text span =>
    .argument span (input.upTo span.stop)
      (if skip text then [.copy text] else planSkipping skip limit (depth + 1) text)
  | event => event.step limit depth input

theorem planSkipping_eq (skip : Text → Bool) (limit depth : Nat) (input : Text) :
    planSkipping skip limit depth input =
      (outline limit depth input).map (Event.stepSkipping skip limit depth input) := by
  calc
    planSkipping skip limit depth input
      = (outline limit depth input).attach.map fun e =>
          Event.stepSkipping skip limit depth input e.val := by
        rw [planSkipping]
        refine List.map_congr_left fun ⟨e, _⟩ _ => ?_
        cases e <;> rfl
    _ = _ := List.attach_map_val

/-- Steps that are carried out alike one by one are carried out alike. -/
theorem runSteps_map_congr {α : Type} {oracle : Oracle ε} {f g : α → Step} {items : List α}
    (h : ∀ a ∈ items, ∀ before args, (f a).run oracle before args = (g a).run oracle before args)
    (before : List Call) (args : List Text) :
    runSteps oracle before args (items.map f) = runSteps oracle before args (items.map g) := by
  induction items generalizing before args with
  | nil => rfl
  | cons a items ih =>
    obtain ⟨hfirst, hrest⟩ := List.forall_mem_cons.mp h
    rw [List.map_cons, List.map_cons, runSteps_cons, runSteps_cons, hfirst]
    congr 1
    funext next
    rw [ih hrest]

/-- **It does not matter which inert arguments are copied.** It goes by induction on the length of
the text, since an argument is shorter than the text around it. -/
theorem runSteps_planSkipping (hskip : ∀ text, skip text = true → isInert text = true)
    (limit depth : Nat) (oracle : Oracle ε) (before : List Call) (args : List Text)
    (text : Text) :
    runSteps oracle before args (planSkipping skip limit depth text) =
      runSteps oracle before args (plan limit depth text) := by
  induction hlen : text.byteLength using Nat.strongRecOn
    generalizing depth text before args with
  | ind n ih =>
    rw [planSkipping_eq, plan_eq]
    refine runSteps_map_congr (fun event hevent before args => ?_) before args
    cases event with
    | argument arg span =>
      have hshorter := argument_add_four_le hevent
      have hbody : runSteps oracle before []
            (if skip arg then [.copy arg] else planSkipping skip limit (depth + 1) arg) =
          runSteps oracle before [] (plan limit (depth + 1) arg) := by
        split
        · rename_i hcopied
          have hinert := hskip arg hcopied
          rw [← runSteps_argument, if_pos hinert]
        · exact ih _ (by omega) (depth + 1) before [] arg rfl
      rw [Event.stepSkipping, Event.step, Step.run, Step.run, hbody, runSteps_argument]
    | _ => rfl

/-- **Copying inert arguments changes nothing.** A text without percent signs and backslashes
expands to itself, without calls, warnings or faults, at every level and under every limit, whether
inert arguments are copied or not; and the expansion of a template that copies no argument is the
same run, with the same calls, warnings and result. -/
theorem consultThoroughly_eq :
    (∀ text : Text, '%' ∉ text → '\\' ∉ text →
      ∀ (limit depth : Nat) (oracle : Oracle ε) (before : List Call) (args : List Text),
        runSteps oracle before args (plan limit depth text) = .done (args, text) ∧
        runSteps oracle before args (planSkipping (fun _ => false) limit depth text) =
          .done (args, text)) ∧
    (∀ (limit depth : Nat) (oracle : Oracle ε) (before : List Call) (args : List Text)
        (text : Text),
      runSteps oracle before args (planSkipping (fun _ => false) limit depth text) =
        runSteps oracle before args (plan limit depth text)) ∧
    ∀ (limit : Nat) (oracle : Oracle ε) (template : Text),
      consultThoroughly limit oracle template = consult limit oracle template := by
  have hnone : ∀ text : Text, (fun _ => false) text = true → isInert text = true :=
    fun _ h => absurd h Bool.false_ne_true
  refine ⟨fun text hpercent hback limit depth oracle before args => ?_,
    runSteps_planSkipping hnone, fun limit oracle template => ?_⟩
  · have hself := runSteps_plan_of_isInert (isInert_iff.mpr ⟨hpercent, hback⟩) limit depth oracle
      before args
    exact ⟨hself, by rw [runSteps_planSkipping hnone, hself]⟩
  · rw [consultThoroughly, consult, runSteps_planSkipping hnone]

/-- What was quoted in an argument at the limit is inert one level below the limit, with an
unbalanced parenthesis and an unbalanced quotation mark in it. -/
theorem consultThoroughly_eq_of_marks :
    ('%' ∉ "a, (b 'c".toList ∧ '\\' ∉ "a, (b 'c".toList) ∧
    (runSteps (fun _ call => .ok call.name : Oracle Empty) [] []
      (plan 0 1 "a, (b 'c".toList)).result = .ok ([], "a, (b 'c".toList) ∧
    consultThoroughly 0 (fun _ call => .ok call.name : Oracle Empty) "%f(\"a, (b 'c\")%".toList =
      consult 0 (fun _ call => .ok call.name : Oracle Empty) "%f(\"a, (b 'c\")%".toList := by
  obtain ⟨hself, -, hconsult⟩ := consultThoroughly_eq (ε := Empty)
  obtain ⟨hrun, -⟩ := hself "a, (b 'c".toList (by decide) (by decide) 0 1
    (fun _ call => .ok call.name) [] []
  exact ⟨⟨by decide, by decide⟩, by rw [hrun]; rfl, hconsult _ _ _⟩

end TabFormat.Template
