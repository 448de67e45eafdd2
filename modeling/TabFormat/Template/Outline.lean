import TabFormat.Template.Token
import TabFormat.Template.Fault

/-!
# The outline of one nesting level

A template is read token by token through four states: literal text, the name of a placeholder, a
group of arguments, and what may follow a group. The outline lists what the reading yields in the
order in which it happens: text to copy, finished arguments, text that is passed over, finished
calls, and at most one fault, which is the last event. An argument is kept as text here: it is a
template of its own, one level deeper.

`argument_add_four_le` says that an argument is at least four bytes shorter than the text it was
found in, so that reading the arguments of arguments comes to an end.
-/

namespace TabFormat.Template

/-! ### Arguments -/

/-- An argument while it is read. -/
structure Argument where
  /-- The text collected so far. Escapes of `%` and of the backslash are kept in it. -/
  text : Text := []
  /-- White space outside quotations, kept back until more bare text follows. -/
  pending : Text := []
  /-- Whether anything but white space was read. -/
  started : Bool := false
  /-- Whether the last piece was bare text, so that white space after it may count. -/
  bareTail : Bool := false
deriving DecidableEq, Repr

namespace Argument

/-- The argument of which nothing has been read. -/
def empty : Argument := {}

/-- Adds bare text. White space before it counts if it follows other bare text. -/
def bare (a : Argument) (s : Text) : Argument where
  text := (if a.bareTail then a.text ++ a.pending else a.text) ++ s
  pending := []
  started := true
  bareTail := true

/-- Adds white space outside quotations. -/
def space (a : Argument) (s : Text) : Argument :=
  if a.started then { a with pending := a.pending ++ s } else a

/-- Adds text inside a quotation. -/
def quoted (a : Argument) (s : Text) : Argument :=
  { a with text := a.text ++ s }

/-- Opens a quotation. White space before it does not count. -/
def openQuote (a : Argument) : Argument :=
  { a with pending := [], started := true, bareTail := false }

/-- Closes a quotation. -/
def closeQuote (a : Argument) : Argument :=
  { a with bareTail := false }

/-- The form in which an escaped character is kept: `%` and the backslash stay escaped, because
the argument is read again as a template. -/
def escaped (c : Char) : Text :=
  if c = '%' ∨ c = '\\' then ['\\', c] else [c]

end Argument

/-! ### States -/

/-- A placeholder whose name is complete. -/
structure Opened where
  /-- The position of the opening percent sign. -/
  start : Nat
  /-- The name. -/
  name : Text
  /-- The contents of the closed groups, in order. -/
  groups : List Text := []
  /-- The number of arguments finished so far. -/
  argCount : Nat := 0
deriving DecidableEq, Repr

/-- A group of arguments while it is read. -/
structure Group where
  /-- The position just past the opening parenthesis. -/
  start : Nat
  /-- The characters read since then. -/
  raw : Text := []
  /-- The number of arguments finished in this group. -/
  argCount : Nat := 0
  /-- The argument being read. -/
  argument : Argument := .empty
deriving DecidableEq, Repr

/-- Where the reading of a template stands. -/
inductive State where
  /-- Outside of placeholders. -/
  | literal
  /-- In the name of the placeholder that starts at `start`. -/
  | name (start : Nat) (name : Text) (quote : Option Quote)
  /-- In a group of arguments. -/
  | args (call : Opened) (group : Group) (quote : Option Quote)
  /-- After a group of arguments. -/
  | afterArgs (call : Opened)
deriving DecidableEq, Repr

/-- What the reading of a template yields. -/
inductive Event where
  /-- Text outside of placeholders. -/
  | copy (s : Text)
  /-- An argument ends; `span` reaches from the placeholder's start to the end of the argument. -/
  | argument (text : Text) (span : Span)
  /-- Text between a group of the placeholder `name` and its closing percent sign. -/
  | ignored (name text : Text)
  /-- A placeholder is complete; its arguments are those that ended since the last call. -/
  | call (name rawArgs : Text)
  /-- The template is malformed. -/
  | fault (f : Fault) (span : Span)
deriving DecidableEq, Repr

/-! ### The reading -/

/-- The group after one more token, with the argument as the token left it. -/
def Group.extend (group : Group) (token : Token) (argument : Argument) : Group :=
  { group with raw := group.raw ++ token.chars, argument }

/-- Opens the next group, whose contents start at `start`. -/
def Opened.openGroup (call : Opened) (start : Nat) : State :=
  .args call { start } none

/-- Counts one more finished argument. -/
def Opened.addArgument (call : Opened) : Opened :=
  { call with argCount := call.argCount + 1 }

/-- Adds the contents of a closed group to the placeholder. -/
def Opened.closeGroup (call : Opened) (raw : Text) : Opened :=
  { call with groups := call.groups ++ [raw] }

/-- The source text of the arguments: the groups that are not empty, joined by a comma and a
space. -/
def Opened.rawArgs (call : Opened) : Text :=
  Text.join [',', ' '] (call.groups.filter (!·.isEmpty))

/-- What a token does outside of placeholders. `limit` is the deepest level at which a placeholder
may open, and `depth` the level of this text. -/
def readLiteral (limit depth : Nat) (span : Span) :
    Token → Except (Fault × Span) (State × List Event)
  | .percent =>
    if limit < depth then .error (.nestingTooDeep limit, span)
    else .ok (.name span.start [] none, [])
  | .escape c => .ok (.literal, [.copy [c]])
  | token => .ok (.literal, [.copy token.chars])

/-- What a token does in a quotation inside the name of a placeholder: the name afterwards, and
whether the quotation is still open. -/
def quotedName (name : Text) (q : Quote) : Token → Text × Option Quote
  | .escape c => (name ++ [c], some q)
  | .quote q' => if q' = q then (name, none) else (name ++ [q'.char], some q)
  | token => (name ++ token.chars, some q)

/-- What a token does in the name of a placeholder, outside of quotations. -/
def readBareName (start : Nat) (name : Text) (span : Span) :
    Token → Except (Fault × Span) (State × List Event)
  | .percent =>
    if name.isEmpty then .error (.missingName, ⟨start, span.stop⟩)
    else .ok (.literal, [.call name []])
  | .openParen =>
    if name.isEmpty then .error (.missingName, ⟨start, span.stop⟩)
    else .ok (({ start, name } : Opened).openGroup span.stop, [])
  | .quote q => .ok (.name start name (some q), [])
  | .escape c => .ok (.name start (name ++ [c]) none, [])
  | token => .ok (.name start (name ++ token.chars) none, [])

/-- What a token does in the name of a placeholder. -/
def readName (start : Nat) (name : Text) (span : Span) (quote : Option Quote) (token : Token) :
    Except (Fault × Span) (State × List Event) :=
  match quote with
  | some q => .ok (.name start (quotedName name q token).1 (quotedName name q token).2, [])
  | none => readBareName start name span token

/-- What a token does in a quotation inside a group of arguments: the group afterwards, and whether
the quotation is still open. -/
def Group.readQuoted (group : Group) (q : Quote) : Token → Group × Option Quote
  | .escape c => (group.extend (.escape c) (group.argument.quoted (Argument.escaped c)), some q)
  | .quote q' =>
    if q' = q then (group.extend (.quote q') group.argument.closeQuote, none)
    else (group.extend (.quote q') (group.argument.quoted [q'.char]), some q)
  | token => (group.extend token (group.argument.quoted token.chars), some q)

/-- What a token does inside a group of arguments, outside of quotations. -/
def readBare (call : Opened) (group : Group) (span : Span) : Token → State × List Event
  | .quote q => (.args call (group.extend (.quote q) group.argument.openQuote) (some q), [])
  | .comma =>
    (.args call.addArgument { group.extend .comma .empty with argCount := group.argCount + 1 } none,
      [.argument group.argument.text ⟨call.start, span.start⟩])
  | .closeParen =>
    if group.argument.started || 0 < group.argCount then
      (.afterArgs (call.addArgument.closeGroup group.raw),
        [.argument group.argument.text ⟨call.start, span.start⟩])
    else (.afterArgs (call.closeGroup group.raw), [])
  | .escape c =>
    (.args call (group.extend (.escape c) (group.argument.bare (Argument.escaped c))) none, [])
  | .blank s => (.args call (group.extend (.blank s) (group.argument.space s)) none, [])
  | token => (.args call (group.extend token (group.argument.bare token.chars)) none, [])

/-- What a token does inside a group of arguments. -/
def readArgs (call : Opened) (group : Group) (span : Span) (token : Token) :
    Option Quote → State × List Event
  | some q => (.args call (group.readQuoted q token).1 (group.readQuoted q token).2, [])
  | none => readBare call group span token

/-- What a token does after a group of arguments. -/
def readAfterArgs (call : Opened) (span : Span) : Token → State × List Event
  | .percent => (.literal, [.call call.name call.rawArgs])
  | .openParen => (call.openGroup span.stop, [])
  | .blank _ => (.afterArgs call, [])
  | token => (.afterArgs call, [.ignored call.name token.chars])

/-- The state after a token, and the events that it causes; or the fault that it reveals. -/
def State.advance (limit depth : Nat) (span : Span) (token : Token) (state : State) :
    Except (Fault × Span) (State × List Event) :=
  match state with
  | literal => readLiteral limit depth span token
  | name start sofar quote => readName start sofar span quote token
  | args call group quote => .ok (readArgs call group span token quote)
  | afterArgs call => .ok (readAfterArgs call span token)

/-- The fault of a text that ends in this state at byte `stop`. -/
def State.finish (stop : Nat) (state : State) : List Event :=
  match state with
  | literal => []
  | name start _ (some _) => [.fault .unterminatedString ⟨start, stop⟩]
  | name start _ none => [.fault .unterminatedPlaceholder ⟨start, stop⟩]
  | args call _ (some _) => [.fault .unterminatedString ⟨call.start, stop⟩]
  | args call _ none => [.fault (.unterminatedArgs call.name) ⟨call.start, stop⟩]
  | afterArgs call => [.fault .unterminatedPlaceholder ⟨call.start, stop⟩]

/-- The events of the remaining tokens, read from a state at byte `pos`. -/
def outlineFrom (limit depth : Nat) (state : State) (pos : Nat) : List Token → List Event
  | [] => state.finish pos
  | token :: rest =>
    match state.advance limit depth ⟨pos, pos + token.width⟩ token with
    | .error (f, span) => [.fault f span]
    | .ok (next, events) => events ++ outlineFrom limit depth next (pos + token.width) rest

/-- The events of a text that lies `depth` levels deep. -/
def outline (limit depth : Nat) (input : Text) : List Event :=
  outlineFrom limit depth .literal 0 (Token.scan input)

/-! ### Arguments are shorter than the text around them -/

namespace Argument

/-- The number of bytes that the argument holds. -/
def held (a : Argument) : Nat := Text.byteLength a.text + Text.byteLength a.pending

@[simp] theorem held_empty : empty.held = 0 := rfl

theorem held_bare_le (a : Argument) (s : Text) :
    (a.bare s).held ≤ a.held + Text.byteLength s := by
  simp only [held, bare, Text.byteLength_append, Text.byteLength_nil]
  split
  · simp only [Text.byteLength_append]; omega
  · omega

theorem held_space_le (a : Argument) (s : Text) :
    (a.space s).held ≤ a.held + Text.byteLength s := by
  unfold space
  split <;> simp only [held, Text.byteLength_append] <;> omega

theorem held_quoted_le (a : Argument) (s : Text) :
    (a.quoted s).held ≤ a.held + Text.byteLength s := by
  simp only [held, quoted, Text.byteLength_append]; omega

theorem held_openQuote_le (a : Argument) : a.openQuote.held ≤ a.held := by
  simp only [held, openQuote, Text.byteLength_nil]; omega

theorem held_closeQuote (a : Argument) : a.closeQuote.held = a.held := rfl

theorem byteLength_escaped_le (c : Char) :
    Text.byteLength (escaped c) ≤ (Token.escape c).width := by
  unfold escaped
  split <;> simp [Token.width, Token.chars]

end Argument

/-- The bytes that a state holds were read since the placeholder opened: at least one byte comes
before the name, and at least three come before the arguments of a group. -/
def State.Accounted (pos : Nat) (state : State) : Prop :=
  match state with
  | literal => True
  | name _ sofar _ => Text.byteLength sofar + 1 ≤ pos
  | args _ group _ => group.argument.held + 3 ≤ pos
  | afterArgs _ => 3 ≤ pos

theorem byteLength_pos_of_isEmpty_eq_false {s : Text} (h : s.isEmpty = false) :
    0 < Text.byteLength s := by
  cases s with
  | nil => simp at h
  | cons c s => have := c.utf8Size_pos; simp only [Text.byteLength_cons]; omega

theorem byteLength_quotedName_le (name : Text) (q : Quote) (token : Token) :
    Text.byteLength (quotedName name q token).1 ≤ Text.byteLength name + token.width := by
  unfold quotedName
  split
  · simp only [Text.byteLength_append, Token.width, Token.chars, Text.byteLength_cons]
    omega
  · split
    · exact Nat.le_add_right _ _
    · simp only [Text.byteLength_append, Token.width, Token.chars]
      omega
  · simp only [Text.byteLength_append, Token.width]
    omega

theorem accounted_readBareName {start pos : Nat} {name : Text} {token : Token} {next : State}
    {events : List Event} (hs : Text.byteLength name + 1 ≤ pos)
    (h : readBareName start name ⟨pos, pos + token.width⟩ token = .ok (next, events)) :
    next.Accounted (pos + token.width) ∧
      ∀ text span, Event.argument text span ∉ events := by
  cases token with
  | percent =>
    simp only [readBareName] at h
    split at h
    · simp at h
    · simp only [Except.ok.injEq, Prod.mk.injEq] at h
      obtain ⟨rfl, rfl⟩ := h
      exact ⟨trivial, by simp⟩
  | openParen =>
    simp only [readBareName] at h
    split at h
    · simp at h
    · rename_i hn
      simp only [Except.ok.injEq, Prod.mk.injEq] at h
      obtain ⟨rfl, rfl⟩ := h
      refine ⟨?_, fun _ _ => List.not_mem_nil⟩
      have := byteLength_pos_of_isEmpty_eq_false (Bool.eq_false_iff.mpr hn)
      have : Token.openParen.width = 1 := rfl
      simp only [State.Accounted, Opened.openGroup, Argument.held_empty]
      omega
  | escape c =>
    simp only [readBareName, Except.ok.injEq, Prod.mk.injEq] at h
    obtain ⟨rfl, rfl⟩ := h
    refine ⟨?_, fun _ _ => List.not_mem_nil⟩
    simp only [State.Accounted, Token.width, Token.chars, Text.byteLength_append,
      Text.byteLength_cons]
    omega
  | quote q =>
    simp only [readBareName, Except.ok.injEq, Prod.mk.injEq] at h
    obtain ⟨rfl, rfl⟩ := h
    refine ⟨?_, fun _ _ => List.not_mem_nil⟩
    simp only [State.Accounted]
    omega
  | _ =>
    simp only [readBareName, Except.ok.injEq, Prod.mk.injEq] at h
    obtain ⟨rfl, rfl⟩ := h
    refine ⟨?_, fun _ _ => List.not_mem_nil⟩
    simp only [State.Accounted, Text.byteLength_append, Token.width]
    omega

theorem accounted_readName {start pos : Nat} {name : Text} {quote : Option Quote} {token : Token}
    {next : State} {events : List Event} (hs : Text.byteLength name + 1 ≤ pos)
    (h : readName start name ⟨pos, pos + token.width⟩ quote token = .ok (next, events)) :
    next.Accounted (pos + token.width) ∧
      ∀ text span, Event.argument text span ∉ events := by
  cases quote with
  | none => exact accounted_readBareName hs h
  | some q =>
    simp only [readName, Except.ok.injEq, Prod.mk.injEq] at h
    obtain ⟨rfl, rfl⟩ := h
    have := byteLength_quotedName_le name q token
    refine ⟨?_, fun _ _ => List.not_mem_nil⟩
    show Text.byteLength (quotedName name q token).1 + 1 ≤ pos + token.width
    omega

theorem held_readQuoted_le (group : Group) (q : Quote) (token : Token) :
    (group.readQuoted q token).1.argument.held ≤ group.argument.held + token.width := by
  have hq (s : Text) := group.argument.held_quoted_le s
  unfold Group.readQuoted
  split
  · rename_i c
    have := hq (Argument.escaped c)
    have := Argument.byteLength_escaped_le c
    simp only [Group.extend]; omega
  · rename_i q'
    have := hq [q'.char]
    have := group.argument.held_closeQuote
    split <;> simp only [Group.extend, Token.width, Token.chars] <;> omega
  · exact hq _

theorem accounted_readBare {call : Opened} {group : Group} {pos : Nat} {token : Token}
    (hs : group.argument.held + 3 ≤ pos) :
    (readBare call group ⟨pos, pos + token.width⟩ token).1.Accounted (pos + token.width) ∧
      ∀ text span, Event.argument text span ∈
          (readBare call group ⟨pos, pos + token.width⟩ token).2 →
        Text.byteLength text + 4 ≤ pos + token.width := by
  have hb (s : Text) := group.argument.held_bare_le s
  have ht : Text.byteLength group.argument.text ≤ group.argument.held := Nat.le_add_right _ _
  have hc : Token.comma.width = 1 := rfl
  have hp : Token.closeParen.width = 1 := rfl
  unfold readBare
  split
  · have := group.argument.held_openQuote_le
    simp only [State.Accounted, Group.extend, List.not_mem_nil, false_implies, implies_true,
      and_true]
    omega
  · simp only [State.Accounted, Group.extend, Argument.held_empty, List.mem_singleton,
      Event.argument.injEq]
    refine ⟨by omega, ?_⟩
    rintro _ _ ⟨rfl, rfl⟩
    omega
  · split
    · simp only [State.Accounted, List.mem_singleton, Event.argument.injEq]
      refine ⟨by omega, ?_⟩
      rintro _ _ ⟨rfl, rfl⟩
      omega
    · simp only [State.Accounted, List.not_mem_nil, false_implies, implies_true, and_true]
      omega
  · rename_i c
    have := hb (Argument.escaped c)
    have := Argument.byteLength_escaped_le c
    simp only [State.Accounted, Group.extend, List.not_mem_nil, false_implies, implies_true,
      and_true]
    omega
  · rename_i s
    have h := group.argument.held_space_le s
    have hw : (Token.blank s).width = Text.byteLength s := rfl
    simp only [State.Accounted, Group.extend, List.not_mem_nil, false_implies, implies_true,
      and_true]
    omega
  · have h := hb token.chars
    have hw : token.width = Text.byteLength token.chars := rfl
    simp only [State.Accounted, Group.extend, List.not_mem_nil, false_implies, implies_true,
      and_true]
    omega

theorem State.accounted_advance {limit depth pos : Nat} {state next : State} {token : Token}
    {events : List Event} (hs : state.Accounted pos)
    (h : state.advance limit depth ⟨pos, pos + token.width⟩ token = .ok (next, events)) :
    next.Accounted (pos + token.width) ∧
      ∀ text span, Event.argument text span ∈ events →
        Text.byteLength text + 4 ≤ pos + token.width := by
  cases state with
  | literal =>
    simp only [State.advance] at h
    unfold readLiteral at h
    split at h
    · split at h
      · simp only [reduceCtorEq] at h
      · simp only [Except.ok.injEq, Prod.mk.injEq] at h
        obtain ⟨rfl, rfl⟩ := h
        have hw : Token.percent.width = 1 := rfl
        simp [State.Accounted, hw]
    all_goals
      simp only [Except.ok.injEq, Prod.mk.injEq] at h
      obtain ⟨rfl, rfl⟩ := h
      simp [State.Accounted]
  | name start sofar quote =>
    have := accounted_readName hs h
    exact ⟨this.1, fun text span hm => absurd hm (this.2 text span)⟩
  | args call group quote =>
    simp only [State.advance, Except.ok.injEq] at h
    cases quote with
    | some q =>
      simp only [readArgs, Prod.mk.injEq] at h
      obtain ⟨rfl, rfl⟩ := h
      have := held_readQuoted_le group q token
      simp only [State.Accounted, List.not_mem_nil, false_implies, implies_true, and_true] at hs ⊢
      omega
    | none =>
      have := @accounted_readBare call group _ token hs
      simp only [readArgs] at h
      rw [h] at this
      exact this
  | afterArgs call =>
    simp only [State.advance, Except.ok.injEq] at h
    simp only [State.Accounted] at hs
    unfold readAfterArgs at h
    split at h
    all_goals
      simp only [Prod.mk.injEq] at h
      obtain ⟨rfl, rfl⟩ := h
      simp [State.Accounted, Opened.openGroup]
    all_goals omega

theorem argument_outlineFrom {limit depth pos : Nat} {state : State} {tokens : List Token}
    (hs : state.Accounted pos) {text : Text} {span : Span}
    (h : Event.argument text span ∈ outlineFrom limit depth state pos tokens) :
    Text.byteLength text + 4 ≤ pos + Token.totalWidth tokens := by
  induction tokens generalizing pos state with
  | nil =>
    exfalso
    simp only [outlineFrom, State.finish] at h
    split at h <;> simp at h
  | cons token rest ih =>
    simp only [outlineFrom] at h
    simp only [Token.totalWidth]
    split at h
    · simp at h
    · rename_i next events hn
      obtain ⟨hnext, harg⟩ := State.accounted_advance hs hn
      rcases List.mem_append.mp h with h | h
      · have := harg text span h; omega
      · have := ih hnext h; omega

/-- An argument is at least four bytes shorter than the text it was found in. -/
theorem argument_add_four_le {limit depth : Nat} {input text : Text} {span : Span}
    (h : Event.argument text span ∈ outline limit depth input) :
    Text.byteLength text + 4 ≤ Text.byteLength input := by
  have := argument_outlineFrom (by trivial : State.literal.Accounted 0) h
  rwa [Token.totalWidth_scan, Nat.zero_add] at this

end TabFormat.Template
