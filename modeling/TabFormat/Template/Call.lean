import TabFormat.Template.Fault

/-!
# Calls and resolvers

A placeholder with its arguments is a call. What a call stands for is decided by a resolver, which
answers with a text or refuses with an error. That may be an error of a kind of its own or the fault
of a template, such as one that the resolver has expanded itself.
-/

namespace TabFormat.Template

/-- A placeholder as it is handed to a resolver. -/
structure Call where
  /-- The name, as it was written. -/
  name : Text
  /-- The source text between the parentheses. -/
  rawArgs : Text
  /-- The arguments, with the placeholders in them expanded. -/
  args : List Text
deriving DecidableEq, Repr

namespace Call

/-- The argument at an index, or nothing if there are fewer. -/
def arg (call : Call) (index : Nat) : Text :=
  call.args.getD index []

/-- The placeholder as it was written. -/
def passthrough (call : Call) : Text :=
  if call.rawArgs.isEmpty then '%' :: call.name ++ ['%']
  else '%' :: call.name ++ '(' :: call.rawArgs ++ [')', '%']

end Call

/-- Answers calls, or refuses them with an error. -/
abbrev Resolver (ε : Type) := Call → Except (Error ε) Text

/-- Answers calls, or refuses them, in the light of the calls made before. A resolver is an oracle
that does not look back. -/
abbrev Oracle (ε : Type) := List Call → Call → Except (Error ε) Text

namespace Resolver

/-- Leaves every placeholder as it was written. -/
def passthrough {ε : Type} : Resolver ε :=
  fun call => .ok call.passthrough

end Resolver

end TabFormat.Template
