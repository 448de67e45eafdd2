import TabFormat.Proofs.Runs

/-!
# Reading further on

A text that stands behind another one is read in the same way, with all positions later by the
length of the text in front. So is its plan carried out; only a fault shows the difference, in its
place and in the text read so far.

## Main definitions

* `Event.shift` : an event, seen behind a text of some length.
* `SyntaxError.shift`, `Run.shift` : a fault, and what came of an expansion, seen behind a text.

## Main results

* `outlineFrom_shift` : the outline of a text behind another one.
* `runSteps_shift` : carrying out the plan of a text behind another one.
-/

namespace TabFormat

namespace Text

/-- A text cut in its second part. -/
theorem upTo_append (front s : Text) (n : Nat) :
    upTo (byteLength front + n) (front ++ s) = front ++ upTo n s := by
  induction front with
  | nil => rw [byteLength_nil, Nat.zero_add, List.nil_append, List.nil_append]
  | cons c front ih =>
    rw [List.cons_append, upTo, byteLength_cons, if_pos (by omega), List.cons_append, ← ih]
    congr 2
    omega

end Text

/-- The range behind `n` bytes. -/
def Span.shift (n : Nat) (span : Span) : Span :=
  ⟨n + span.start, n + span.stop⟩

namespace Template

/-! ### Outlines -/

/-- The placeholder behind `n` bytes. -/
def Opened.shift (n : Nat) (call : Opened) : Opened :=
  { call with start := n + call.start }

/-- The group behind `n` bytes. -/
def Group.shift (n : Nat) (group : Group) : Group :=
  { group with start := n + group.start }

/-- The state behind `n` bytes. -/
def State.shift (n : Nat) : State → State
  | literal => literal
  | name start sofar quote => name (n + start) sofar quote
  | args call group quote => args (call.shift n) (group.shift n) quote
  | afterArgs call => afterArgs (call.shift n)

/-- The event behind `n` bytes. -/
def Event.shift (n : Nat) : Event → Event
  | argument text span => argument text (span.shift n)
  | fault f span => fault f (span.shift n)
  | e => e

/-- What a token does behind `n` bytes. -/
def shiftResult (n : Nat) :
    Except (Fault × Span) (State × List Event) → Except (Fault × Span) (State × List Event)
  | .error (f, span) => .error (f, span.shift n)
  | .ok (next, events) => .ok (next.shift n, events.map (Event.shift n))

theorem readBareName_shift (n start : Nat) (sofar : Text) (span : Span) (token : Token) :
    readBareName (n + start) sofar (span.shift n) token =
      shiftResult n (readBareName start sofar span token) := by
  cases token with
  | percent =>
    rw [readBareName, readBareName]
    split <;> rfl
  | openParen =>
    rw [readBareName, readBareName]
    split <;> rfl
  | _ => rfl

theorem readQuoted_shift (n : Nat) (group : Group) (q : Quote) (token : Token) :
    (group.shift n).readQuoted q token =
      ((group.readQuoted q token).1.shift n, (group.readQuoted q token).2) := by
  cases token with
  | quote q' =>
    rw [Group.readQuoted, Group.readQuoted]
    split <;> rfl
  | _ => rfl

theorem readBare_shift (n : Nat) (call : Opened) (group : Group) (span : Span) (token : Token) :
    readBare (call.shift n) (group.shift n) (span.shift n) token =
      ((readBare call group span token).1.shift n,
        (readBare call group span token).2.map (Event.shift n)) := by
  cases token with
  | closeParen =>
    have hiff : ((group.shift n).argument.started || decide (0 < (group.shift n).argCount)) = true ↔
        (group.argument.started || decide (0 < group.argCount)) = true := Iff.rfl
    rw [readBare, readBare]
    by_cases h : (group.argument.started || decide (0 < group.argCount)) = true
    · rw [if_pos h, if_pos (hiff.mpr h)]
      rfl
    · rw [if_neg h, if_neg (mt hiff.mp h)]
      rfl
  | _ => rfl

/-- A step of the reader behind `n` bytes. -/
theorem State.advance_shift (limit depth n : Nat) (state : State) (span : Span) (token : Token) :
    (state.shift n).advance limit depth (span.shift n) token =
      shiftResult n (state.advance limit depth span token) := by
  cases state with
  | literal =>
    cases token with
    | percent =>
      show readLiteral limit depth (span.shift n) .percent =
        shiftResult n (readLiteral limit depth span .percent)
      rw [readLiteral, readLiteral]
      split <;> rfl
    | _ => rfl
  | name start sofar quote =>
    cases quote with
    | none => exact readBareName_shift n start sofar span token
    | some q => rfl
  | args call group quote =>
    cases quote with
    | none =>
      rw [shift, advance, readArgs, readBare_shift]
      rfl
    | some q =>
      rw [shift, advance, readArgs, readQuoted_shift]
      rfl
  | afterArgs call => cases token <;> rfl

theorem State.finish_shift (n stop : Nat) (state : State) :
    (state.shift n).finish (n + stop) = (state.finish stop).map (Event.shift n) := by
  cases state with
  | literal => rfl
  | name start sofar quote => cases quote <;> rfl
  | args call group quote => cases quote <;> rfl
  | afterArgs call => rfl

/-- **The outline of a text behind another one.** -/
theorem outlineFrom_shift (limit depth n : Nat) (state : State) (pos : Nat) (tokens : List Token) :
    outlineFrom limit depth (state.shift n) (n + pos) tokens =
      (outlineFrom limit depth state pos tokens).map (Event.shift n) := by
  induction tokens generalizing state pos with
  | nil => exact state.finish_shift n pos
  | cons token tokens ih =>
    have hspan : (⟨n + pos, n + pos + token.width⟩ : Span) =
        Span.shift n ⟨pos, pos + token.width⟩ := by
      rw [Span.shift, Nat.add_assoc]
    rw [outlineFrom, outlineFrom, hspan, State.advance_shift]
    cases state.advance limit depth ⟨pos, pos + token.width⟩ token with
    | error e => rfl
    | ok next =>
      show next.2.map (Event.shift n) ++ _ = List.map _ (next.2 ++ _)
      rw [Nat.add_assoc, ih, List.map_append]

/-! ### Runs -/

/-- The fault of a text behind another one. -/
def SyntaxError.shift (front : Text) (e : SyntaxError) : SyntaxError :=
  { e with span := e.span.shift front.byteLength, consumed := front ++ e.consumed }

/-- The place of an argument in a text behind another one. -/
def Location.shift (front : Text) (place : Location) : Location where
  span := place.span.shift front.byteLength
  consumed := front ++ place.consumed

/-- Why the expansion of a text behind another one failed. -/
def Failure.shift {ε : Type} (front : Text) : Failure ε → Failure ε
  | malformed e => malformed (e.shift front)
  | refused e place => refused e (place.map (Location.shift front))

namespace Run

variable {ε α β : Type}

/-- What came of the expansion of a text behind another one. -/
def shift (front : Text) (run : Run ε α) : Run ε α :=
  run.mapFailure (Failure.shift front)

theorem shift_map (front : Text) (f : α → β) (run : Run ε α) :
    (run.map f).shift front = (run.shift front).map f :=
  mapFailure_map (Failure.shift front) f run

theorem shift_andThen (front : Text) (run : Run ε α) (next : α → Run ε β) :
    (run.andThen next).shift front = (run.shift front).andThen fun a => (next a).shift front :=
  mapFailure_andThen (Failure.shift front) run next

/-- An argument of a text behind another one. -/
theorem shift_relocate (front : Text) (span : Span) (consumed : Text) (run : Run ε α) :
    (run.relocate span consumed).shift front =
      run.relocate (span.shift front.byteLength) (front ++ consumed) := by
  obtain ⟨calls, warnings, (e | e) | a⟩ := run <;> rfl

end Run

variable {ε : Type}

/-- A step of a plan behind another text. -/
theorem Step.run_shift (limit depth : Nat) (front input : Text) (oracle : Oracle ε)
    (before : List Call) (args : List Text) (e : Event) :
    (Event.step limit depth (front ++ input) (e.shift front.byteLength)).run oracle before args =
      ((Event.step limit depth input e).run oracle before args).shift front := by
  cases e with
  | argument text span =>
    have hupTo := Text.upTo_append front input span.stop
    rw [Event.shift, Event.step, Event.step, Step.run, Step.run, Run.shift_map,
      Run.shift_relocate]
    show Run.map _ (Run.relocate _ (Text.upTo (front.byteLength + span.stop) _) _) = _
    rw [hupTo]
  | fault f span =>
    have hupTo := Text.upTo_append front input span.stop
    rw [Event.shift, Event.step, Event.step, Step.run, Step.run]
    show Run.failed (.malformed ⟨f, _, Text.upTo (front.byteLength + span.stop) _⟩) = _
    rw [hupTo]
    rfl
  | call name rawArgs =>
    show (Step.call name rawArgs).run oracle before args =
      ((Step.call name rawArgs).run oracle before args).shift front
    rw [Step.run, Run.shift_map, Call.run]
    cases oracle before ⟨name, rawArgs, args⟩ <;> rfl
  | copy s => rfl
  | ignored name text => rfl

/-- **Carrying out the plan of a text behind another one.** -/
theorem runSteps_shift (limit depth : Nat) (front input : Text) (oracle : Oracle ε)
    (before : List Call) (args : List Text) (events : List Event) :
    runSteps oracle before args ((events.map (Event.shift front.byteLength)).map
        (Event.step limit depth (front ++ input))) =
      (runSteps oracle before args (events.map (Event.step limit depth input))).shift front := by
  induction events generalizing before args with
  | nil => rfl
  | cons e events ih =>
    rw [List.map_cons, List.map_cons, List.map_cons, runSteps_cons, runSteps_cons, Step.run_shift,
      Run.shift_andThen]
    congr 1
    funext next
    rw [ih, Run.shift_map]
    rfl

end Template

end TabFormat
