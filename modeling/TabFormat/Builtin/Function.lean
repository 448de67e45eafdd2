import TabFormat.Builtin.Basic
import TabFormat.Builtin.Escape
import TabFormat.Builtin.Replace
import TabFormat.Template.Call

/-!
# Functions

The placeholders that depend on their arguments only. Missing arguments count as empty.
-/

namespace TabFormat

open Template

/-- The first text that is not empty, if there is one, or else the empty text. -/
def firstNonempty (texts : List Text) : Text :=
  (texts.find? (!·.isEmpty)).getD []

/-- What a function answers to a call. -/
def Function.apply (f : Function) (call : Call) : Except ReplaceError Text :=
  match f with
  | replace => Replace.run call.args
  | htmlSafe => .ok (Escape.html (call.arg 0))
  | mdSafe => .ok (Escape.markdown (call.arg 0))
  | mdLinkTitleSafe => .ok (Escape.markdownLinkTitle (call.arg 0))
  | any => .ok (firstNonempty call.args)
  | tab => .ok ['\t']

/-- Answers the calls of functions, and leaves every other placeholder as it was written. -/
def Function.resolver : Resolver ReplaceError := fun call =>
  match Builtin.lookup call.name with
  | some (.function f) => (f.apply call).mapError .other
  | _ => .ok call.passthrough

end TabFormat
