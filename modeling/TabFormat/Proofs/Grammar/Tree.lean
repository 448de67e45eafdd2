import TabFormat.Proofs.Grammar.Placeholder
import TabFormat.Template.Call

/-!
# The grammar of templates

A derivation of a template lists its tokens outside of placeholders and its placeholders, with a
derivation of each argument. The grammar is resolved level by level: the text of an argument is a
template of its own, one level deeper, and placeholders may stand down to a limit. A derivation is
evaluated from the inside out, without reference to the reader or to plans.

## Main definitions

* `Tree` : a derivation.
* `Tree.Valid` : the derivation keeps the rules of the grammar.
* `IsTemplate` : a token sequence is a template of some depth.
* `Tree.eval` : the calls that a template makes, and its output.
-/

namespace TabFormat.Template

/-- A derivation of a template. -/
inductive Tree where
  /-- The end of the template. -/
  | nil
  /-- A token outside of placeholders, and the rest. -/
  | literal (t : Token) (rest : Tree)
  /-- A placeholder with its arguments, and the rest. -/
  | placeholder (p : Placeholder) (args : List Tree) (rest : Tree)

namespace Tree

/-- The tokens of the derived template. -/
def tokens : Tree → List Token
  | nil => []
  | literal t rest => t :: rest.tokens
  | placeholder p _ rest => p.tokens ++ rest.tokens

/-- A derivation of a template that lies `depth` levels deep: a token by itself is no percent sign,
placeholders stand at level `limit` at the deepest, and the arguments of a placeholder are
templates one level deeper. -/
inductive Valid (limit : Nat) : Nat → Tree → Prop where
  | nil {depth} : Valid limit depth .nil
  | literal {depth t rest} (ht : t ≠ .percent) (hrest : Valid limit depth rest) :
      Valid limit depth (.literal t rest)
  | placeholder {depth p args rest} (hdepth : depth ≤ limit) (hp : p.WellFormed)
      (htexts : args.map tokens = p.argumentTexts.map Token.scan)
      (hargs : ∀ arg ∈ args, Valid limit (depth + 1) arg) (hrest : Valid limit depth rest) :
      Valid limit depth (.placeholder p args rest)

mutual

/-- The calls that a template makes, and its output, when calls are answered in the light of the
calls before them. `before` are the calls made before the template is reached. -/
def eval (answer : List Call → Call → Text) (before : List Call) : Tree → List Call × Text
  | nil => ([], [])
  | literal t rest =>
    let last := rest.eval answer before
    (last.1, t.spoken ++ last.2)
  | placeholder p args rest =>
    let inner := evalAll answer before args
    let call : Call := ⟨p.nameText, p.rawArgs, inner.2⟩
    let last := rest.eval answer (before ++ inner.1 ++ [call])
    (inner.1 ++ call :: last.1, answer (before ++ inner.1) call ++ last.2)

/-- The calls that several templates make one after another, and their outputs. -/
def evalAll (answer : List Call → Call → Text) (before : List Call) :
    List Tree → List Call × List Text
  | [] => ([], [])
  | tree :: rest =>
    let first := tree.eval answer before
    let last := evalAll answer (before ++ first.1) rest
    (first.1 ++ last.1, first.2 :: last.2)

end

end Tree

/-- Whether a token sequence is a template that may lie `depth` levels deep. -/
def IsTemplate (limit depth : Nat) (tokens : List Token) : Prop :=
  ∃ tree : Tree, tree.Valid limit depth ∧ tree.tokens = tokens

end TabFormat.Template
