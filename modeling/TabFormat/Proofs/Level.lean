import TabFormat.Proofs.Arguments

/-!
# Reading at a deeper level

How deep a text lies matters only in comparison to the limit: `n` levels deeper and under a limit
that is larger by `n`, the same text is expanded in the same way. If a placeholder lies too deep,
it does so in both cases, and only the limit that the fault names is another one.

## Main definitions

* `Fault.under` : a fault under another limit.

## Main results

* `outline_deeper` : the outline of a text at a deeper level.
* `runSteps_plan_deeper` : the expansion of a text at a deeper level.
-/

namespace TabFormat.Template

/-- The fault under another limit. Only a fault of nesting names the limit. -/
def Fault.under (limit : Nat) : Fault → Fault
  | nestingTooDeep _ => nestingTooDeep limit
  | f => f

/-- The event under another limit. -/
def Event.under (limit : Nat) : Event → Event
  | fault f span => fault (f.under limit) span
  | e => e

/-- Why an expansion failed, under another limit. -/
def Failure.under {ε : Type} (limit : Nat) : Failure ε → Failure ε
  | malformed e => malformed { e with fault := e.fault.under limit }
  | refused e place => refused e place

/-! ### Outlines -/

/-- What a token does under another limit. -/
def underResult (limit : Nat) :
    Except (Fault × Span) (State × List Event) → Except (Fault × Span) (State × List Event)
  | .error (f, span) => .error (f.under limit, span)
  | .ok next => .ok next

variable (limit depth n : Nat)

/-- A step of the reader at a deeper level. -/
theorem State.advance_deeper (span : Span) (token : Token) (state : State) :
    state.advance (limit + n) (depth + n) span token =
      underResult (limit + n) (state.advance limit depth span token) := by
  cases state with
  | literal =>
    cases token with
    | percent =>
      show readLiteral (limit + n) (depth + n) span .percent =
        underResult (limit + n) (readLiteral limit depth span .percent)
      rw [readLiteral, readLiteral]
      by_cases h : limit < depth
      · rw [if_pos h, if_pos (Nat.add_lt_add_right h n)]
        rfl
      · rw [if_neg h, if_neg (mt Nat.lt_of_add_lt_add_right h)]
        rfl
    | _ => rfl
  | name start sofar quote =>
    cases quote with
    | some q => rfl
    | none =>
      cases token with
      | percent =>
        show readBareName start sofar span .percent = underResult _ (readBareName _ _ _ .percent)
        rw [readBareName]
        split <;> rfl
      | openParen =>
        show readBareName start sofar span .openParen =
          underResult _ (readBareName _ _ _ .openParen)
        rw [readBareName]
        split <;> rfl
      | _ => rfl
  | args call group quote => rfl
  | afterArgs call => rfl

/-- The events of a step are not about the limit. -/
theorem map_under_of_advance {state next : State} {span : Span} {token : Token}
    {events : List Event} (h : state.advance limit depth span token = .ok (next, events))
    (limit' : Nat) : events.map (Event.under limit') = events := by
  rcases State.advance_cases h with
    ⟨-, -, text, rfl⟩ | ⟨-, -, name, rawArgs, rfl⟩ |
      ⟨-, rfl | ⟨text, span, rfl⟩ | ⟨name, text, rfl⟩⟩
  all_goals rfl

/-- The end of a text at a deeper level. -/
theorem State.map_under_finish (stop : Nat) (state : State) :
    (state.finish stop).map (Event.under limit) = state.finish stop := by
  cases state with
  | literal => rfl
  | name start sofar quote => cases quote <;> rfl
  | args call group quote => cases quote <;> rfl
  | afterArgs call => rfl

theorem outlineFrom_deeper (state : State) (pos : Nat) (tokens : List Token) :
    outlineFrom (limit + n) (depth + n) state pos tokens =
      (outlineFrom limit depth state pos tokens).map (Event.under (limit + n)) := by
  induction tokens generalizing state pos with
  | nil => exact (state.map_under_finish (limit + n) pos).symm
  | cons token tokens ih =>
    rw [outlineFrom, outlineFrom, State.advance_deeper]
    cases hstep : state.advance limit depth ⟨pos, pos + token.width⟩ token with
    | error e => rfl
    | ok next =>
      show next.2 ++ _ = List.map _ (next.2 ++ _)
      rw [ih, List.map_append, map_under_of_advance limit depth hstep]

/-- **The outline of a text at a deeper level.** -/
theorem outline_deeper (input : Text) :
    outline (limit + n) (depth + n) input =
      (outline limit depth input).map (Event.under (limit + n)) :=
  outlineFrom_deeper limit depth n .literal 0 (Token.scan input)

/-! ### Runs -/

variable {limit depth n} {ε : Type}

/-- An argument under another limit. -/
theorem Run.under_relocate {α : Type} (limit : Nat) (span : Span) (consumed : Text)
    (run : Run ε α) : (run.relocate span consumed).mapFailure (Failure.under limit) =
      (run.mapFailure (Failure.under limit)).relocate span consumed := by
  obtain ⟨calls, warnings, (e | e) | a⟩ := run <;> rfl

/-- A step of a plan at a deeper level, if arguments are carried out there in the same way. -/
theorem Step.run_deeper {input : Text} {oracle : Oracle ε} {before : List Call} {e : Event}
    (hargs : ∀ text span, e = .argument text span → ∀ before args,
      runSteps oracle before args (plan (limit + n) (depth + n + 1) text) =
        (runSteps oracle before args (plan limit (depth + 1) text)).mapFailure
          (Failure.under (limit + n))) (args : List Text) :
    (Event.step (limit + n) (depth + n) input (e.under (limit + n))).run oracle before args =
      ((Event.step limit depth input e).run oracle before args).mapFailure
        (Failure.under (limit + n)) := by
  cases e with
  | argument text span =>
    show (Event.step (limit + n) (depth + n) input (.argument text span)).run oracle before args = _
    rw [Event.step, Event.step, Step.run, Step.run, runSteps_argument, runSteps_argument,
      hargs text span rfl, Run.mapFailure_map, Run.under_relocate]
  | call name rawArgs =>
    show (Step.call name rawArgs).run oracle before args =
      ((Step.call name rawArgs).run oracle before args).mapFailure _
    rw [Step.run, Run.mapFailure_map, Call.run]
    cases oracle before ⟨name, rawArgs, args⟩ <;> rfl
  | fault f span => rfl
  | copy s => rfl
  | ignored name text => rfl

theorem runSteps_events_deeper {input : Text} {oracle : Oracle ε} {events : List Event}
    (hargs : ∀ text span, .argument text span ∈ events → ∀ before args,
      runSteps oracle before args (plan (limit + n) (depth + n + 1) text) =
        (runSteps oracle before args (plan limit (depth + 1) text)).mapFailure
          (Failure.under (limit + n))) (before : List Call) (args : List Text) :
    runSteps oracle before args ((events.map (Event.under (limit + n))).map
        (Event.step (limit + n) (depth + n) input)) =
      (runSteps oracle before args (events.map (Event.step limit depth input))).mapFailure
        (Failure.under (limit + n)) := by
  induction events generalizing before args with
  | nil => rfl
  | cons e events ih =>
    have hhead : (Event.step (limit + n) (depth + n) input (e.under (limit + n))).run oracle
        before args = _ :=
      Step.run_deeper (fun text span he => hargs text span (he ▸ List.mem_cons_self)) args
    have hrest := ih fun text span he => hargs text span (List.mem_cons_of_mem _ he)
    rw [List.map_cons, List.map_cons, List.map_cons, runSteps_cons, runSteps_cons, hhead,
      Run.mapFailure_andThen]
    congr 1
    funext next
    rw [hrest, Run.mapFailure_map]
    rfl

/-- **The expansion of a text at a deeper level.** It goes by induction on the length of the text,
since an argument is shorter than the text around it. -/
theorem runSteps_plan_deeper (limit depth n : Nat) (oracle : Oracle ε) (before : List Call)
    (args : List Text) (text : Text) :
    runSteps oracle before args (plan (limit + n) (depth + n) text) =
      (runSteps oracle before args (plan limit depth text)).mapFailure
        (Failure.under (limit + n)) := by
  induction hlen : Text.byteLength text using Nat.strongRecOn
    generalizing text depth before args with
  | ind m ih =>
    rw [plan_eq, plan_eq, outline_deeper]
    refine runSteps_events_deeper (fun arg span harg before' args' => ?_) before args
    have hlt := argument_add_four_le harg
    have hdepth : depth + n + 1 = depth + 1 + n := by omega
    rw [hdepth]
    exact ih _ (by omega) (depth + 1) before' args' arg rfl

end TabFormat.Template
