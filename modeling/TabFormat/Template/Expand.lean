import TabFormat.Template.Call
import TabFormat.Template.Plan

/-!
# Expanding a template

A run carries out the steps of a plan with a resolver. It stops at the first fault and at the first
call that the resolver refuses. Beside its result it keeps the calls and the warnings that came
before, in order.
-/

namespace TabFormat.Template

/-- Where an argument lies in the text around it. -/
structure Location where
  /-- The bytes from the placeholder to the end of the argument. -/
  span : Span
  /-- The text up to the end of the argument. -/
  consumed : Text
deriving DecidableEq, Repr

/-- Why an expansion failed. -/
inductive Failure (ε : Type) where
  /-- The template is malformed. -/
  | malformed (e : SyntaxError)
  /-- The resolver refused a call with the error `e`. If the call lies in an argument, `place` is
  where that argument lies in the template, with whatever arguments there are in it. -/
  | refused (e : Error ε) (place : Option Location)
deriving DecidableEq, Repr

namespace Failure

variable {ε : Type}

/-- The failure of an argument, as a failure of the text around it. -/
def relocate (span : Span) (consumed : Text) : Failure ε → Failure ε
  | malformed e => malformed (e.relocate span consumed)
  | refused e _ => refused e (some ⟨span, consumed⟩)

/-- The error that the failure shows as. The resolver's own error is relocated like any other one on
its way out of an argument. -/
def error : Failure ε → Error ε
  | malformed e => .malformed e
  | refused e none => e
  | refused e (some place) => e.relocate place.span place.consumed

/-- Out of an argument comes its error, relocated, whoever raised it. -/
theorem error_relocate (span : Span) (consumed : Text) (failure : Failure ε) :
    (failure.relocate span consumed).error = failure.error.relocate span consumed := by
  obtain e | ⟨e | e, _ | place⟩ := failure <;> rfl

end Failure

/-- The warning that a text after the arguments of a placeholder was passed over. -/
structure Ignored where
  /-- The name of the placeholder. -/
  name : Text
  /-- The text. -/
  text : Text
deriving DecidableEq, Repr

/-- What came of an expansion, or of a part of one. -/
structure Run (ε : Type) (α : Type) where
  /-- The calls that were made. A refused call is the last one. -/
  calls : List Call := []
  /-- The warnings that were given. -/
  warnings : List Ignored := []
  /-- The result, or why there is none. -/
  result : Except (Failure ε) α

namespace Run

variable {ε α β : Type}

/-- The run that does nothing and succeeds. -/
def done (a : α) : Run ε α where
  result := .ok a

/-- The run that does nothing and fails. -/
def failed (e : Failure ε) : Run ε α where
  result := .error e

/-- One run and, if it succeeds, another one that depends on its result. -/
def andThen (first : Run ε α) (next : α → Run ε β) : Run ε β :=
  match first.result with
  | .error e => { first with result := .error e }
  | .ok a =>
    let second := next a
    { calls := first.calls ++ second.calls
      warnings := first.warnings ++ second.warnings
      result := second.result }

/-- The run with another result made of its own. -/
def map (f : α → β) (run : Run ε α) : Run ε β :=
  { run with result := run.result.map f }

/-- The run with another reason if it fails. -/
def mapFailure (f : Failure ε → Failure ε) (run : Run ε α) : Run ε α :=
  { run with result := run.result.mapError f }

/-- The run of an argument, as seen from the text around it. -/
def relocate (span : Span) (consumed : Text) (run : Run ε α) : Run ε α :=
  run.mapFailure (Failure.relocate span consumed)

/-- The result as it is handed on: a value or an error. -/
def outcome (run : Run ε α) : Except (Error ε) α :=
  run.result.mapError Failure.error

/-- What an argument hands on to the text around it is its error, relocated, whoever raised it. -/
theorem outcome_relocate (span : Span) (consumed : Text) (run : Run ε α) :
    (run.relocate span consumed).outcome = run.outcome.mapError (Error.relocate span consumed) := by
  obtain ⟨calls, warnings, failure | a⟩ := run
  · exact congrArg Except.error (failure.error_relocate span consumed)
  · rfl

end Run

variable {ε : Type}

/-- The run of a single call. -/
def Call.run (resolver : Resolver ε) (call : Call) : Run ε Text where
  calls := [call]
  result := (resolver call).mapError fun e => .refused e none

mutual

/-- Carries out a step. `before` are the calls made so far and `args` the arguments expanded since
the last one; the result is what the arguments are afterwards, and the text to copy to the
output. -/
def Step.run (oracle : Oracle ε) (before : List Call) (args : List Text) :
    Step → Run ε (List Text × Text)
  | .copy s => .done (args, s)
  | .argument span consumed body =>
    ((runSteps oracle before [] body).relocate span consumed).map fun value =>
      (args ++ [value.2], [])
  | .ignored name text => { warnings := [⟨name, text⟩], result := .ok (args, []) }
  | .call name rawArgs =>
    (Call.run (oracle before) ⟨name, rawArgs, args⟩).map fun answer => ([], answer)
  | .malformed e => .failed (.malformed e)

/-- Carries out steps one after another. The result is what the arguments are afterwards, and the
output. -/
def runSteps (oracle : Oracle ε) (before : List Call) (args : List Text) :
    List Step → Run ε (List Text × Text)
  | [] => .done (args, [])
  | step :: rest =>
    let first := step.run oracle before args
    first.andThen fun next =>
      (runSteps oracle (before ++ first.calls) next.1 rest).map fun last =>
        (last.1, next.2 ++ last.2)

end

/-- The deepest nesting that is allowed unless another limit is set. -/
def defaultLimit : Nat := 32

/-- Expands a template with an oracle. Placeholders may lie `limit` levels deep; those outside of
arguments are at level 0. -/
def consult (limit : Nat) (oracle : Oracle ε) (template : Text) : Run ε Text :=
  (runSteps oracle [] [] (plan limit 0 template)).map Prod.snd

/-- Expands a template with a resolver. -/
def expand (limit : Nat) (resolver : Resolver ε) (template : Text) : Run ε Text :=
  consult limit (fun _ => resolver) template

end TabFormat.Template
