import TabFormat.Proofs.Slices
import TabFormat.Template.Plan

/-!
# A reader with registers

The states of the reader hold what belongs to them and nothing else. A reader can also keep one set
of registers for all states, change some of them with each token and leave the others as they are:
then an argument is there outside of groups too, the position of a group outlives the group, and
opening a group does not reset the argument. Such a reader takes the characters of tokens, of groups
and of what has been read from the template by byte positions, and it breaks down where no part of
the template lies between them.

## Main definitions

* `Registers`, `Draft` : what such a reader keeps.
* `Registers.advance?`, `Registers.read?` : what a token does, and what tokens do.
* `Registers.plan?` : the steps of a text, read in this way.
* `Registers.Shows` : the registers in a state of the reader.

## Main results

* `Opened.rawArgs_closeGroup` : the source text of the arguments grows group by group.
-/

namespace TabFormat.Template

/-! ### Registers -/

/-- Where the reading of a template stands, without what it holds. -/
inductive Mode where
  /-- Outside of placeholders. -/
  | literal
  /-- In the name of a placeholder. -/
  | name
  /-- In a group of arguments. -/
  | args
  /-- After a group of arguments. -/
  | afterArgs
deriving DecidableEq, Repr

/-- What has been read of a placeholder. -/
structure Draft where
  /-- The position of the opening percent sign. -/
  start : Nat := 0
  /-- The name. -/
  name : Text := []
  /-- The source text of the arguments in closed groups. -/
  rawArgs : Text := []
  /-- The number of arguments finished so far. -/
  argCount : Nat := 0
  /-- The position just past the opening parenthesis of the last group. -/
  groupStart : Nat := 0
  /-- The number of arguments finished in the last group. -/
  groupArgs : Nat := 0
  /-- The argument being read. -/
  argument : Argument := .empty
deriving DecidableEq, Repr

/-- What a reader keeps from token to token. -/
structure Registers where
  /-- Where the reading stands. -/
  mode : Mode := .literal
  /-- The quotation that is open. -/
  quote : Option Quote := none
  /-- The placeholder that is being read. -/
  call : Draft := {}
deriving DecidableEq, Repr

/-- What reading a token comes to: the registers afterwards and the steps it asks for, or a
fault. -/
abbrev Reading := Except SyntaxError (Registers × List Step)

namespace Registers

/-! ### Changes of the registers -/

/-- Goes on with another name and another open quotation. -/
def withName (r : Registers) (name : Text) (quote : Option Quote) : Registers :=
  { r with quote, call := { r.call with name } }

/-- Goes on with another argument and another open quotation. -/
def withArgument (r : Registers) (argument : Argument) (quote : Option Quote) : Registers :=
  { r with quote, call := { r.call with argument } }

/-- Opens a placeholder. -/
def openCall (r : Registers) (start : Nat) : Registers :=
  { r with mode := .name, call := { start } }

/-- Opens a group of arguments. The argument stays as it is. -/
def openGroup (r : Registers) (start : Nat) : Registers :=
  { r with mode := .args, call := { r.call with groupStart := start, groupArgs := 0 } }

/-- Puts the finished argument aside. -/
def nextArgument (r : Registers) : Registers :=
  { r with call := { r.call with
      argument := .empty, argCount := r.call.argCount + 1, groupArgs := r.call.groupArgs + 1 } }

/-- Closes a group with the contents `raw`. -/
def closeGroup (r : Registers) (raw : Text) : Registers :=
  { r with mode := .afterArgs, call := { r.call with rawArgs :=
      if raw.isEmpty then r.call.rawArgs
      else if r.call.rawArgs.isEmpty then raw else r.call.rawArgs ++ [',', ' '] ++ raw } }

/-- Leaves the placeholder. -/
def closeCall (r : Registers) : Registers :=
  { r with mode := .literal, call := {} }

/-! ### What a token does -/

section

variable (limit depth : Nat) (input : Text) (span : Span)

/-- The step for an argument that ends at byte `stop`. -/
def argumentStep? (r : Registers) (stop : Nat) : Option Step := do
  return .argument ⟨r.call.start, stop⟩ (← input.slice? 0 stop)
    (if isInert r.call.argument.text then [.copy r.call.argument.text]
      else plan limit (depth + 1) r.call.argument.text)

/-- The fault of a placeholder without a name. -/
def missingName? (r : Registers) : Option Reading := do
  return .error ⟨.missingName, ⟨r.call.start, span.stop⟩, ← input.slice? 0 span.stop⟩

/-- What a token does outside of placeholders. -/
def readLiteral? (r : Registers) : Token → Option Reading
  | .percent =>
    if limit < depth then do
      return .error ⟨.nestingTooDeep limit, span, ← input.slice? 0 span.stop⟩
    else return .ok (r.openCall span.start, [])
  | .escape c => return .ok (r, [.copy [c]])
  | _ => do return .ok (r, [.copy (← input.slice? span.start span.stop)])

/-- What a token does in a quotation inside a name. -/
def readQuotedName? (r : Registers) (q : Quote) : Token → Option Reading
  | .quote q' =>
    if q' = q then return .ok (r.withName r.call.name none, [])
    else do
      return .ok (r.withName (r.call.name ++ (← input.slice? span.start span.stop)) (some q), [])
  | .escape c => return .ok (r.withName (r.call.name ++ [c]) (some q), [])
  | _ => do
    return .ok (r.withName (r.call.name ++ (← input.slice? span.start span.stop)) (some q), [])

/-- What a token does in a name, outside of quotations. -/
def readBareName? (r : Registers) : Token → Option Reading
  | .percent =>
    if r.call.name.isEmpty then r.missingName? input span
    else return .ok (r.closeCall, [.call r.call.name r.call.rawArgs])
  | .openParen =>
    if r.call.name.isEmpty then r.missingName? input span
    else return .ok (r.openGroup span.stop, [])
  | .quote q => return .ok (r.withName r.call.name (some q), [])
  | .escape c => return .ok (r.withName (r.call.name ++ [c]) none, [])
  | _ => do return .ok (r.withName (r.call.name ++ (← input.slice? span.start span.stop)) none, [])

/-- What a token does in a quotation inside a group of arguments. -/
def readQuoted? (r : Registers) (q : Quote) : Token → Option Reading
  | .quote q' =>
    if q' = q then return .ok (r.withArgument r.call.argument.closeQuote none, [])
    else do
      return .ok (r.withArgument
        (r.call.argument.quoted (← input.slice? span.start span.stop)) (some q), [])
  | .escape c =>
    return .ok (r.withArgument (r.call.argument.quoted (Argument.escaped c)) (some q), [])
  | _ => do
    return .ok (r.withArgument
      (r.call.argument.quoted (← input.slice? span.start span.stop)) (some q), [])

/-- What a token does inside a group of arguments, outside of quotations. -/
def readBare? (r : Registers) : Token → Option Reading
  | .closeParen => do
    let raw ← input.slice? r.call.groupStart span.start
    if r.call.argument.started || 0 < r.call.groupArgs then
      return .ok (r.nextArgument.closeGroup raw,
        [← r.argumentStep? limit depth input span.start])
    else return .ok (r.closeGroup raw, [])
  | .comma => do return .ok (r.nextArgument, [← r.argumentStep? limit depth input span.start])
  | .quote q => return .ok (r.withArgument r.call.argument.openQuote (some q), [])
  | .escape c => return .ok (r.withArgument (r.call.argument.bare (Argument.escaped c)) none, [])
  | .blank _ => do
    return .ok (r.withArgument
      (r.call.argument.space (← input.slice? span.start span.stop)) none, [])
  | _ => do
    return .ok (r.withArgument
      (r.call.argument.bare (← input.slice? span.start span.stop)) none, [])

/-- What a token does after a group of arguments. -/
def readAfterArgs? (r : Registers) : Token → Option Reading
  | .percent => return .ok (r.closeCall, [.call r.call.name r.call.rawArgs])
  | .openParen => return .ok (r.openGroup span.stop, [])
  | .blank _ => return .ok (r, [])
  | _ => do return .ok (r, [.ignored r.call.name (← input.slice? span.start span.stop)])

/-- What a token does, or nothing if a part of the template cannot be taken. -/
def advance? (r : Registers) (token : Token) : Option Reading :=
  match r.mode, r.quote with
  | .literal, _ => r.readLiteral? limit depth input span token
  | .name, some q => r.readQuotedName? input span q token
  | .name, none => r.readBareName? input span token
  | .args, some q => r.readQuoted? input span q token
  | .args, none => r.readBare? limit depth input span token
  | .afterArgs, _ => r.readAfterArgs? input span token

end

/-- The steps that tokens ask for, read from byte `pos` on, and the registers afterwards, unless the
tokens reveal a fault. There is nothing if a part of the template cannot be taken. -/
def read? (limit depth : Nat) (input : Text) (r : Registers) (pos : Nat) :
    List Token → Option (List Step × Option Registers)
  | [] => return ([], some r)
  | token :: rest => do
    match ← r.advance? limit depth input ⟨pos, pos + token.width⟩ token with
    | .error e => return ([.malformed e], none)
    | .ok (next, steps) =>
      let later ← read? limit depth input next (pos + token.width) rest
      return (steps ++ later.1, later.2)

/-- The fault of a text that ends with these registers. -/
def finish (input : Text) (r : Registers) : List Step :=
  if r.quote.isSome then
    [.malformed ⟨.unterminatedString, ⟨r.call.start, input.byteLength⟩, input⟩]
  else
    match r.mode with
    | .literal => []
    | .args =>
      [.malformed ⟨.unterminatedArgs r.call.name, ⟨r.call.start, input.byteLength⟩, input⟩]
    | .name | .afterArgs =>
      [.malformed ⟨.unterminatedPlaceholder, ⟨r.call.start, input.byteLength⟩, input⟩]

/-- The steps of a text that lies `depth` levels deep. -/
def plan? (limit depth : Nat) (input : Text) : Option (List Step) := do
  match ← read? limit depth input {} 0 (Token.scan input) with
  | (steps, none) => return steps
  | (steps, some r) => return steps ++ r.finish input

end Registers

/-! ### The registers in a state -/

/-- What has been read of a placeholder whose name is complete. -/
def Opened.draft (call : Opened) (groupStart groupArgs : Nat) (argument : Argument) : Draft where
  start := call.start
  name := call.name
  rawArgs := call.rawArgs
  argCount := call.argCount
  groupStart := groupStart
  groupArgs := groupArgs
  argument := argument

/-- The registers in a state at byte `pos`. The characters that a group holds are those since its
position; after a group, the registers still have its position and its number of arguments. -/
def Registers.Shows (input : Text) (pos : Nat) (r : Registers) : State → Prop
  | .literal => r = {}
  | .name start sofar quote => r = { mode := .name, quote, call := { start, name := sofar } }
  | .args call group quote =>
    r = ⟨.args, quote, call.draft group.start group.argCount group.argument⟩ ∧
      input.slice? group.start pos = some group.raw
  | .afterArgs call =>
    ∃ groupStart groupArgs, r = ⟨.afterArgs, none, call.draft groupStart groupArgs .empty⟩

/-- **The source text of the arguments grows group by group.** Empty groups are left out. -/
theorem Opened.rawArgs_closeGroup (call : Opened) (raw : Text) :
    (call.closeGroup raw).rawArgs =
      if raw.isEmpty then call.rawArgs
      else if call.rawArgs.isEmpty then raw else call.rawArgs ++ [',', ' '] ++ raw := by
  have hafter : (call.closeGroup raw).rawArgs = Text.join [',', ' ']
      (call.groups.filter (!·.isEmpty) ++ [raw].filter (!·.isEmpty)) := by
    rw [rawArgs, closeGroup, List.filter_append]
  by_cases hraw : raw.isEmpty
  · rw [hafter, if_pos hraw, List.filter_cons_of_neg (by simpa using hraw), List.filter_nil,
      List.append_nil, rawArgs]
  rw [hafter, if_neg hraw, List.filter_cons_of_pos (by simpa using hraw), List.filter_nil]
  rcases hgroups : call.groups.filter (!·.isEmpty) with _ | ⟨first, rest⟩
  · rw [rawArgs, hgroups]
    rfl
  · have hfirst : first ∈ call.groups.filter (!·.isEmpty) := hgroups ▸ List.mem_cons_self
    have hne : first ≠ [] := by simpa using (List.mem_filter.mp hfirst).2
    have hbefore : ¬call.rawArgs.isEmpty := by
      rw [rawArgs, hgroups]
      simpa using Text.join_cons_ne_nil [',', ' '] hne rest
    rw [if_neg hbefore, rawArgs, hgroups,
      Text.join_append_of_ne_nil _ (List.cons_ne_nil _ _) (List.cons_ne_nil _ _), Text.join]

end TabFormat.Template
