import TabFormat.Proofs.Passage
import TabFormat.Proofs.Position
import TabFormat.Proofs.Registers
import TabFormat.Proofs.Runs

/-!
# The reader with registers never breaks down

Since the registers outlive the states they belong to, a reader that keeps them relies on facts that
no type gives: that nothing of an argument is left when a group opens, and that the positions it
cuts at are in order and between characters. These facts are the invariant `Registers.WellFormed`.
One lemma for each change of the registers says that the invariant is kept; a step of the reader is
one or two of these changes. So no part of the template is ever missing, and the reader carries out
the plan of the template.

## Main definitions

* `Argument.WellFormed`, `Registers.WellFormed` : the invariant.
* `Registers.Tracks` : well-formed registers in a state of the reader.
* `Registers.Agrees` : the same step, with registers and without.

## Main results

* `Registers.Tracks.agrees` : a step with registers.
* `Registers.Tracks.exists_read?` : a run with registers.
* `registers_wellFormed` : the registers are well formed after any number of tokens, and the reader
  carries out the plan.
-/

namespace TabFormat.Token

variable {input : Text} {pos : Nat} {token : Token}

/-! ### The place of a token -/

/-- The token has its characters at byte `pos` of the text. -/
structure StandsAt (input : Text) (pos : Nat) (token : Token) : Prop where
  /-- The characters are of the class of the token. -/
  proper : token.Proper
  /-- The characters are there. -/
  slice : input.slice? pos (pos + token.width) = some token.chars

theorem standsAt_append {front back : Text} (hproper : token.Proper)
    (h : input = front ++ (token.chars ++ back)) : token.StandsAt input front.byteLength :=
  ⟨hproper, Text.slice?_eq_some_iff.mpr ⟨front, back, h, rfl, rfl⟩⟩

namespace StandsAt

variable (h : token.StandsAt input pos)
include h

theorem isBoundary_stop : input.IsBoundary (pos + token.width) := by
  obtain ⟨front, back, hinput, rfl, hstop⟩ := Text.slice?_eq_some_iff.mp h.slice
  rw [hinput, hstop, ← Text.byteLength_append, ← List.append_assoc]
  exact Text.isBoundary_append _ _

/-- What has been read with the token. -/
theorem upTo_stop : input.upTo (pos + token.width) = input.upTo pos ++ token.chars := by
  obtain ⟨front, back, hinput, rfl, hstop⟩ := Text.slice?_eq_some_iff.mp h.slice
  rw [hstop, hinput, Text.upTo_byteLength_append, ← Text.byteLength_append, ← List.append_assoc,
    Text.upTo_byteLength_append]

theorem width_pos : 0 < token.width :=
  Nat.pos_of_ne_zero fun hzero => h.proper.chars_ne_nil (Text.eq_nil_of_byteLength hzero)

theorem bind_slice {α : Type} (f : Text → Option α) :
    (input.slice? pos (pos + token.width)).bind f = f token.chars := by
  rw [h.slice, Option.bind_some]

end StandsAt

end TabFormat.Token

namespace TabFormat.Template

open Token (scan source totalWidth)

variable {limit depth pos stop : Nat} {input : Text} {r : Registers} {token : Token}

/-! ### The invariant -/

/-- The white space that an argument keeps back is the last that has been read, and nothing is kept
of an argument that has not begun. -/
structure Argument.WellFormed (read : Text) (a : Argument) : Prop where
  /-- An argument that has not begun is empty. -/
  eq_empty : a.started = false → a = .empty
  /-- The text kept back is white space. -/
  blank : ∀ c ∈ a.pending, Text.isBlank c = true
  /-- It comes last in what has been read. -/
  suffix : a.pending <:+ read

theorem Argument.wellFormed_empty (read : Text) : Argument.empty.WellFormed read :=
  ⟨fun _ => rfl, fun _ h => absurd h List.not_mem_nil, List.nil_suffix⟩

/-- An argument that has begun and keeps nothing back. -/
theorem Argument.wellFormed_of_started {a : Argument} (hs : a.started = true) (hp : a.pending = [])
    (read : Text) : a.WellFormed read := by
  refine ⟨fun h => absurd (hs.symm.trans h) Bool.noConfusion, ?_, ?_⟩
  · simp [hp]
  · simp [hp]

theorem Argument.WellFormed.space {read s : Text} {a : Argument} (h : a.WellFormed read)
    (hs : ∀ c ∈ s, Text.isBlank c = true) : (a.space s).WellFormed (read ++ s) := by
  unfold Argument.space
  by_cases ha : a.started
  · rw [if_pos ha]
    obtain ⟨front, hfront⟩ := h.suffix
    refine ⟨fun hn => absurd (ha.symm.trans hn) Bool.noConfusion,
      List.forall_mem_append.mpr ⟨h.blank, hs⟩, front, ?_⟩
    rw [← List.append_assoc, hfront]
  · rw [if_neg ha, h.eq_empty (Bool.eq_false_iff.mpr ha)]
    exact wellFormed_empty _

/-- What holds of the registers when the text has been read up to byte `pos`. -/
structure Registers.WellFormed (input : Text) (pos : Nat) (r : Registers) : Prop where
  /-- The position that has been reached lies between characters. -/
  reached : input.IsBoundary pos
  /-- A quotation is open only in names and in groups of arguments. -/
  quoted : r.quote ≠ none → r.mode = .name ∨ r.mode = .args
  /-- An argument with an open quotation has begun, and it keeps nothing back. -/
  begun : r.mode = .args → r.quote ≠ none →
    r.call.argument.started = true ∧ r.call.argument.pending = []
  /-- Outside of groups no argument has begun. -/
  outside : r.mode ≠ .args → r.call.argument.started = false
  /-- The argument is well formed. -/
  argument : r.call.argument.WellFormed (input.upTo pos)
  /-- A placeholder opens before the position that has been reached. -/
  opened : r.mode ≠ .literal → input.IsBoundary r.call.start ∧ r.call.start < pos
  /-- A placeholder with a group of arguments has a name, and the contents of the group begin after
  the placeholder and not after the position that has been reached. -/
  grouped : r.mode = .args ∨ r.mode = .afterArgs → r.call.name ≠ [] ∧
    input.IsBoundary r.call.groupStart ∧ r.call.start < r.call.groupStart ∧
    r.call.groupStart ≤ pos
  /-- The arguments of a group are some of those of the placeholder. -/
  counted : r.call.groupArgs ≤ r.call.argCount

namespace Registers.WellFormed

theorem init (input : Text) : WellFormed input 0 {} where
  reached := Text.isBoundary_append [] input
  quoted := fun h => absurd rfl h
  begun := fun h => by cases h
  outside := fun _ => rfl
  argument := Argument.wellFormed_empty _
  opened := fun h => absurd rfl h
  grouped := by rintro (h | h) <;> cases h
  counted := Nat.le_refl 0

/-- Outside of groups nothing of an argument is there. -/
theorem argument_eq_empty (h : r.WellFormed input pos) (hmode : r.mode ≠ .args) :
    r.call.argument = .empty :=
  h.argument.eq_empty (h.outside hmode)

theorem opened_of_le (h : r.WellFormed input pos) (hle : pos ≤ stop) (hmode : r.mode ≠ .literal) :
    input.IsBoundary r.call.start ∧ r.call.start < stop :=
  ⟨(h.opened hmode).1, Nat.lt_of_lt_of_le (h.opened hmode).2 hle⟩

theorem grouped_of_le (h : r.WellFormed input pos) (hle : pos ≤ stop)
    (hmode : r.mode = .args ∨ r.mode = .afterArgs) : r.call.name ≠ [] ∧
      input.IsBoundary r.call.groupStart ∧ r.call.start < r.call.groupStart ∧
      r.call.groupStart ≤ stop := by
  obtain ⟨hname, hgroup, hlt, hgle⟩ := h.grouped hmode
  exact ⟨hname, hgroup, hlt, Nat.le_trans hgle hle⟩

/-- Reads on. -/
theorem move (h : r.WellFormed input pos) (hstop : input.IsBoundary stop) (hle : pos ≤ stop)
    (hargument : r.call.argument.WellFormed (input.upTo stop)) : r.WellFormed input stop :=
  { h with
    reached := hstop
    argument := hargument
    opened := h.opened_of_le hle
    grouped := h.grouped_of_le hle }

/-- Reads on outside of groups. -/
theorem moveOutside (h : r.WellFormed input pos) (hmode : r.mode ≠ .args)
    (hstop : input.IsBoundary stop) (hle : pos ≤ stop) : r.WellFormed input stop := by
  refine h.move hstop hle ?_
  rw [h.argument_eq_empty hmode]
  exact Argument.wellFormed_empty _

theorem openCall (h : r.WellFormed input pos) (hstop : input.IsBoundary stop) (hlt : pos < stop) :
    (r.openCall pos).WellFormed input stop where
  reached := hstop
  quoted := fun _ => .inl rfl
  begun := fun hargs => by cases hargs
  outside := fun _ => rfl
  argument := Argument.wellFormed_empty _
  opened := fun _ => ⟨h.reached, hlt⟩
  grouped := by rintro (hm | hm) <;> cases hm
  counted := Nat.le_refl 0

theorem withName (h : r.WellFormed input pos) (hmode : r.mode = .name) (name : Text)
    (quote : Option Quote) : (r.withName name quote).WellFormed input pos :=
  { h with
    quoted := fun _ => .inl hmode
    begun := fun hargs => absurd (hmode.symm.trans hargs) Mode.noConfusion
    grouped := by rintro (hm | hm) <;> cases hmode.symm.trans hm }

/-- A group opens outside of groups, so that no argument has begun, although none is reset. -/
theorem openGroup (h : r.WellFormed input pos) (hopen : r.mode = .name ∨ r.mode = .afterArgs)
    (hname : r.call.name ≠ []) (hquote : r.quote = none) :
    (r.openGroup pos).WellFormed input pos := by
  have hliteral : r.mode ≠ .literal := by rcases hopen with hm | hm <;> simp [hm]
  exact { h with
    quoted := fun _ => .inr rfl
    begun := fun _ hq => absurd hquote hq
    outside := fun hargs => absurd rfl hargs
    opened := fun _ => h.opened hliteral
    grouped := fun _ => ⟨hname, h.reached, (h.opened hliteral).2, Nat.le_refl pos⟩
    counted := Nat.zero_le _ }

theorem withArgument (h : r.WellFormed input pos) (hmode : r.mode = .args)
    (hstop : input.IsBoundary stop) (hle : pos ≤ stop) {argument : Argument}
    {quote : Option Quote} (hargument : argument.WellFormed (input.upTo stop))
    (hquote : quote ≠ none → argument.started = true ∧ argument.pending = []) :
    (r.withArgument argument quote).WellFormed input stop :=
  { h with
    reached := hstop
    quoted := fun _ => .inr hmode
    begun := fun _ => hquote
    outside := fun hm => absurd hmode hm
    argument := hargument
    opened := h.opened_of_le hle
    grouped := h.grouped_of_le hle }

theorem nextArgument (h : r.WellFormed input pos) (hmode : r.mode = .args)
    (hstop : input.IsBoundary stop) (hle : pos ≤ stop) (hquote : r.quote = none) :
    r.nextArgument.WellFormed input stop :=
  { h.withArgument hmode hstop hle (Argument.wellFormed_empty _) (absurd hquote) with
    counted := Nat.succ_le_succ h.counted }

theorem closeGroup (h : r.WellFormed input pos) (hmode : r.mode = .args) (hquote : r.quote = none)
    (hempty : r.call.argument = .empty) (raw : Text) : (r.closeGroup raw).WellFormed input pos :=
  { h with
    quoted := fun hq => absurd hquote hq
    begun := fun hargs => by cases hargs
    outside := fun _ => congrArg Argument.started hempty
    opened := fun _ => h.opened (by simp [hmode])
    grouped := fun _ => h.grouped (.inl hmode) }

theorem closeCall (h : r.WellFormed input pos) (hquote : r.quote = none) :
    r.closeCall.WellFormed input pos :=
  { init input with
    reached := h.reached
    quoted := fun hq => absurd hquote hq
    begun := fun hargs => by cases hargs
    argument := Argument.wellFormed_empty _
    opened := fun hm => absurd rfl hm
    grouped := by rintro (hm | hm) <;> cases hm }

end Registers.WellFormed

/-! ### Steps with registers -/

/-- The arguments at hand after a step, if there are `n` before it. -/
def Step.argsAfter (n : Nat) : Step → Nat
  | argument _ _ _ => n + 1
  | call _ _ => 0
  | _ => n

/-- Well-formed registers in a state of the reader. -/
structure Registers.Tracks (input : Text) (pos : Nat) (r : Registers) (state : State) : Prop where
  /-- The registers are those of the state. -/
  shows : r.Shows input pos state
  /-- The registers are well formed. -/
  wellFormed : r.WellFormed input pos

/-- A step with the registers `r` up to byte `stop` is the step of the reader: it finds the same
fault, or it goes on with registers that track the reader, asks for the same steps and counts the
arguments in them. -/
def Registers.Agrees (limit depth : Nat) (input : Text) (stop : Nat) (r : Registers)
    (reading : Option Reading) : Except (Fault × Span) (State × List Event) → Prop
  | .error (f, span) => reading = some (.error ⟨f, span, input.upTo span.stop⟩)
  | .ok (next, events) => ∃ r' : Registers,
      reading = some (.ok (r', events.map (Event.step limit depth input))) ∧
      r'.Tracks input stop next ∧
      r'.call.argCount =
        (events.map (Event.step limit depth input)).foldl Step.argsAfter r.call.argCount

theorem Registers.missingName?_eq (r : Registers) {span : Span}
    (hstop : input.IsBoundary span.stop) : r.missingName? input span =
      some (.error ⟨.missingName, ⟨r.call.start, span.stop⟩, input.upTo span.stop⟩) := by
  rw [missingName?, Text.slice?_zero hstop]
  rfl

/-- The step for an argument that ends at the position that has been reached. -/
theorem Registers.WellFormed.argumentStep?_eq (h : r.WellFormed input pos) (limit depth : Nat) :
    r.argumentStep? limit depth input pos = some (Event.step limit depth input
      (.argument r.call.argument.text ⟨r.call.start, pos⟩)) := by
  rw [argumentStep?, Text.slice?_zero h.reached]
  rfl

/-- What a closing parenthesis does, if the parts of the template can be taken. -/
theorem Registers.readBare?_closeParen (span : Span) {raw : Text} {step : Step}
    (hraw : input.slice? r.call.groupStart span.start = some raw)
    (hstep : r.argumentStep? limit depth input span.start = some step) :
    r.readBare? limit depth input span .closeParen =
      if r.call.argument.started || 0 < r.call.groupArgs then
        some (.ok (r.nextArgument.closeGroup raw, [step]))
      else some (.ok (r.closeGroup raw, [])) := by
  simp only [readBare?, hraw, hstep]
  rfl

/-- After a group, without an argument. -/
theorem Registers.shows_closeGroup (call : Opened) (groupStart groupArgs : Nat) {a : Argument}
    (ha : a = .empty) (raw : Text) :
    (closeGroup ⟨.args, none, call.draft groupStart groupArgs a⟩ raw).Shows input pos
      (.afterArgs (call.closeGroup raw)) := by
  refine ⟨groupStart, groupArgs, ?_⟩
  rw [closeGroup, ha, Opened.draft, Opened.draft, Opened.rawArgs_closeGroup]
  rfl

section

variable (hat : token.StandsAt input pos)
include hat

/-- Outside of placeholders. -/
theorem Registers.Tracks.agrees_literal (h : r.Tracks input pos .literal) :
    r.Agrees limit depth input (pos + token.width)
      (r.readLiteral? limit depth input ⟨pos, pos + token.width⟩ token)
      (readLiteral limit depth ⟨pos, pos + token.width⟩ token) := by
  have hstop := hat.isBoundary_stop
  obtain rfl := h.shows
  have hstay : Registers.Tracks input (pos + token.width) {} .literal :=
    ⟨rfl, h.wellFormed.moveOutside Mode.noConfusion hstop (Nat.le_add_right _ _)⟩
  cases token with
  | percent =>
    by_cases hdepth : limit < depth
    · rw [Registers.readLiteral?, readLiteral, if_pos hdepth, if_pos hdepth,
        Text.slice?_zero hstop]
      rfl
    · rw [Registers.readLiteral?, readLiteral, if_neg hdepth, if_neg hdepth]
      exact ⟨_, rfl, ⟨rfl, h.wellFormed.openCall hstop (Nat.lt_add_of_pos_right hat.width_pos)⟩,
        rfl⟩
  | escape c => exact ⟨_, rfl, hstay, rfl⟩
  | _ => exact ⟨_, hat.bind_slice _, hstay, rfl⟩

/-- Goes on in a name. -/
theorem Registers.Tracks.withName {start : Nat} {sofar : Text} {quote : Option Quote}
    (h : r.Tracks input pos (.name start sofar quote)) (name : Text) (quote' : Option Quote) :
    (r.withName name quote').Tracks input (pos + token.width) (.name start name quote') := by
  obtain rfl := h.shows
  have hmove := h.wellFormed.moveOutside Mode.noConfusion hat.isBoundary_stop
    (Nat.le_add_right _ _)
  exact ⟨rfl, hmove.withName rfl name quote'⟩

/-- Goes on in a group of arguments. -/
theorem Registers.Tracks.withArgument {call : Opened} {group : Group} {quote : Option Quote}
    (h : r.Tracks input pos (.args call group quote)) (argument : Argument)
    (quote' : Option Quote)
    (hwell : argument.WellFormed (input.upTo (pos + token.width)))
    (hquote : quote' ≠ none → argument.started = true ∧ argument.pending = []) :
    (r.withArgument argument quote').Tracks input (pos + token.width)
      (.args call (group.extend token argument) quote') := by
  obtain ⟨rfl, hraw⟩ := h.shows
  exact ⟨⟨rfl, Text.slice?_trans hraw hat.slice⟩, h.wellFormed.withArgument rfl
    hat.isBoundary_stop (Nat.le_add_right _ _) hwell hquote⟩

/-- In a quotation inside a name. -/
theorem Registers.Tracks.agrees_quotedName {start : Nat} {sofar : Text} {q : Quote}
    (h : r.Tracks input pos (.name start sofar (some q))) :
    r.Agrees limit depth input (pos + token.width)
      (r.readQuotedName? input ⟨pos, pos + token.width⟩ q token)
      (readName start sofar ⟨pos, pos + token.width⟩ (some q) token) := by
  have hname := h.withName hat
  obtain rfl := h.shows
  cases token with
  | quote q' =>
    by_cases hq : q' = q
    · rw [Registers.readQuotedName?, readName, quotedName, if_pos hq, if_pos hq]
      exact ⟨_, rfl, hname _ _, rfl⟩
    · rw [Registers.readQuotedName?, readName, quotedName, if_neg hq, if_neg hq]
      exact ⟨_, hat.bind_slice _, hname _ _, rfl⟩
  | escape c => exact ⟨_, rfl, hname _ _, rfl⟩
  | _ => exact ⟨_, hat.bind_slice _, hname _ _, rfl⟩

/-- In a name, outside of quotations. -/
theorem Registers.Tracks.agrees_bareName {start : Nat} {sofar : Text}
    (h : r.Tracks input pos (.name start sofar none)) :
    r.Agrees limit depth input (pos + token.width)
      (r.readBareName? input ⟨pos, pos + token.width⟩ token)
      (readName start sofar ⟨pos, pos + token.width⟩ none token) := by
  have hstop := hat.isBoundary_stop
  have hname := h.withName hat
  obtain rfl := h.shows
  have hmove := h.wellFormed.moveOutside Mode.noConfusion hstop (Nat.le_add_right _ _)
  cases token with
  | percent =>
    rw [Registers.readBareName?, readName, readBareName]
    by_cases hempty : sofar.isEmpty
    · rw [if_pos hempty, if_pos hempty]
      exact Registers.missingName?_eq _ hstop
    · rw [if_neg hempty, if_neg hempty]
      exact ⟨_, rfl, ⟨rfl, hmove.closeCall rfl⟩, rfl⟩
  | openParen =>
    rw [Registers.readBareName?, readName, readBareName]
    by_cases hempty : sofar.isEmpty
    · rw [if_pos hempty, if_pos hempty]
      exact Registers.missingName?_eq _ hstop
    · rw [if_neg hempty, if_neg hempty]
      have hne : sofar ≠ [] := by simpa using hempty
      exact ⟨_, rfl, ⟨⟨rfl, Text.slice?_self hstop⟩, hmove.openGroup (.inl rfl) hne rfl⟩, rfl⟩
  | quote q => exact ⟨_, rfl, hname _ _, rfl⟩
  | escape c => exact ⟨_, rfl, hname _ _, rfl⟩
  | _ => exact ⟨_, hat.bind_slice _, hname _ _, rfl⟩

/-- In a quotation inside a group of arguments. -/
theorem Registers.Tracks.agrees_quoted {call : Opened} {group : Group} {q : Quote}
    (h : r.Tracks input pos (.args call group (some q))) :
    r.Agrees limit depth input (pos + token.width)
      (r.readQuoted? input ⟨pos, pos + token.width⟩ q token)
      (.ok (readArgs call group ⟨pos, pos + token.width⟩ token (some q))) := by
  have hargument (argument : Argument) (quote : Option Quote)
      (hs : argument.started = true) (hp : argument.pending = []) :=
    h.withArgument hat argument quote (Argument.wellFormed_of_started hs hp _) fun _ => ⟨hs, hp⟩
  obtain ⟨rfl, -⟩ := h.shows
  obtain ⟨hbegun, hpending⟩ := h.wellFormed.begun rfl (Option.some_ne_none q)
  cases token with
  | quote q' =>
    by_cases hq : q' = q
    · rw [Registers.readQuoted?, readArgs, Group.readQuoted, if_pos hq, if_pos hq]
      exact ⟨_, rfl, hargument _ _ hbegun hpending, rfl⟩
    · rw [Registers.readQuoted?, readArgs, Group.readQuoted, if_neg hq, if_neg hq]
      exact ⟨_, hat.bind_slice _, hargument _ _ hbegun hpending, rfl⟩
  | escape c => exact ⟨_, rfl, hargument _ _ hbegun hpending, rfl⟩
  | _ => exact ⟨_, hat.bind_slice _, hargument _ _ hbegun hpending, rfl⟩

/-- Inside a group of arguments, outside of quotations. -/
theorem Registers.Tracks.agrees_bare {call : Opened} {group : Group}
    (h : r.Tracks input pos (.args call group none)) :
    r.Agrees limit depth input (pos + token.width)
      (r.readBare? limit depth input ⟨pos, pos + token.width⟩ token)
      (.ok (readArgs call group ⟨pos, pos + token.width⟩ token none)) := by
  have hstop := hat.isBoundary_stop
  have hle := Nat.le_add_right pos token.width
  have hargument := h.withArgument hat
  have hbare (s : Text) :
      (group.argument.bare s).WellFormed (input.upTo (pos + token.width)) :=
    Argument.wellFormed_of_started rfl rfl _
  obtain ⟨rfl, hraw⟩ := h.shows
  have hnext := h.wellFormed.nextArgument rfl hstop hle rfl
  have hstep := h.wellFormed.argumentStep?_eq limit depth
  cases token with
  | closeParen =>
    have hread := Registers.readBare?_closeParen ⟨pos, pos + Token.closeParen.width⟩ hraw hstep
    by_cases hsome : (group.argument.started || decide (0 < group.argCount)) = true
    · rw [readArgs, readBare, if_pos hsome]
      exact ⟨_, hread.trans (if_pos hsome),
        ⟨Registers.shows_closeGroup call.addArgument _ _ rfl _, hnext.closeGroup rfl rfl rfl _⟩,
        rfl⟩
    · -- the argument is not put aside, but there is nothing in it
      have hempty : group.argument = .empty := by
        rw [Bool.or_eq_true, not_or] at hsome
        exact h.wellFormed.argument.eq_empty (Bool.eq_false_iff.mpr hsome.1)
      have hwell : group.argument.WellFormed (input.upTo (pos + Token.closeParen.width)) :=
        hempty ▸ Argument.wellFormed_empty _
      rw [readArgs, readBare, if_neg hsome]
      exact ⟨_, hread.trans (if_neg hsome), ⟨Registers.shows_closeGroup call _ _ hempty _,
        (h.wellFormed.move hstop hle hwell).closeGroup rfl rfl hempty _⟩, rfl⟩
  | comma =>
    rw [Registers.readBare?, hstep]
    exact ⟨_, rfl, ⟨⟨rfl, Text.slice?_trans hraw hat.slice⟩, hnext⟩, rfl⟩
  | quote q =>
    have hopen := Argument.wellFormed_of_started (a := group.argument.openQuote) rfl rfl
    exact ⟨_, rfl, hargument _ _ (hopen _) fun _ => ⟨rfl, rfl⟩, rfl⟩
  | escape c => exact ⟨_, rfl, hargument _ _ (hbare _) (absurd rfl), rfl⟩
  | blank s =>
    have hspace : (group.argument.space s).WellFormed
        (input.upTo (pos + (Token.blank s).width)) := by
      rw [hat.upTo_stop]
      exact h.wellFormed.argument.space hat.proper.2
    exact ⟨_, hat.bind_slice _, hargument _ _ hspace (absurd rfl), rfl⟩
  | _ => exact ⟨_, hat.bind_slice _, hargument _ _ (hbare _) (absurd rfl), rfl⟩

/-- After a group of arguments. -/
theorem Registers.Tracks.agrees_afterArgs {call : Opened}
    (h : r.Tracks input pos (.afterArgs call)) :
    r.Agrees limit depth input (pos + token.width)
      (r.readAfterArgs? input ⟨pos, pos + token.width⟩ token)
      (.ok (readAfterArgs call ⟨pos, pos + token.width⟩ token)) := by
  have hstop := hat.isBoundary_stop
  obtain ⟨groupStart, groupArgs, rfl⟩ := h.shows
  have hmove := h.wellFormed.moveOutside Mode.noConfusion hstop (Nat.le_add_right _ _)
  have hstay : Registers.Tracks input (pos + token.width)
      ⟨.afterArgs, none, call.draft groupStart groupArgs .empty⟩ (.afterArgs call) :=
    ⟨⟨groupStart, groupArgs, rfl⟩, hmove⟩
  cases token with
  | percent => exact ⟨_, rfl, ⟨rfl, hmove.closeCall rfl⟩, rfl⟩
  | openParen =>
    have hname := (hmove.grouped (.inr rfl)).1
    exact ⟨_, rfl, ⟨⟨rfl, Text.slice?_self hstop⟩, hmove.openGroup (.inr rfl) hname rfl⟩, rfl⟩
  | blank s => exact ⟨_, rfl, hstay, rfl⟩
  | _ => exact ⟨_, hat.bind_slice _, hstay, rfl⟩

/-- **A step with registers.** -/
theorem Registers.Tracks.agrees {state : State} (h : r.Tracks input pos state) (limit depth : Nat) :
    r.Agrees limit depth input (pos + token.width)
      (r.advance? limit depth input ⟨pos, pos + token.width⟩ token)
      (state.advance limit depth ⟨pos, pos + token.width⟩ token) := by
  cases state with
  | literal =>
    obtain rfl := h.shows
    exact h.agrees_literal hat
  | name start sofar quote =>
    obtain rfl := h.shows
    cases quote with
    | some q => exact h.agrees_quotedName hat
    | none => exact h.agrees_bareName hat
  | args call group quote =>
    obtain ⟨rfl, -⟩ := h.shows
    cases quote with
    | some q => exact h.agrees_quoted hat
    | none => exact h.agrees_bare hat
  | afterArgs call =>
    obtain ⟨groupStart, groupArgs, rfl⟩ := h.shows
    exact h.agrees_afterArgs hat

end

/-! ### Runs with registers -/

/-- What a reader with registers arrives at over some tokens, from a state at byte `pos`: at the
events of the outline, or in a state that the registers track. -/
def Registers.Arrives (limit depth : Nat) (input : Text) (pos : Nat) (r : Registers)
    (state : State) (tokens : List Token) : List Step × Option Registers → Prop
  | (steps, none) => ∀ rest,
      (outlineFrom limit depth state pos (tokens ++ rest)).map (Event.step limit depth input) =
        steps
  | (steps, some r') => ∃ events last,
      events.map (Event.step limit depth input) = steps ∧
      Passage limit depth state pos tokens events last ∧
      r'.Tracks input (pos + totalWidth tokens) last ∧
      r'.call.argCount = steps.foldl Step.argsAfter r.call.argCount

/-- A run begins with a step. -/
theorem Registers.Arrives.cons {r' : Registers} {state next : State} {events : List Event}
    {rest : List Token} {steps : List Step} {reached : Option Registers}
    (hstep : state.advance limit depth ⟨pos, pos + token.width⟩ token = .ok (next, events))
    (hcount : r'.call.argCount =
      (events.map (Event.step limit depth input)).foldl Step.argsAfter r.call.argCount)
    (h : r'.Arrives limit depth input (pos + token.width) next rest (steps, reached)) :
    r.Arrives limit depth input pos state (token :: rest)
      (events.map (Event.step limit depth input) ++ steps, reached) := by
  cases reached with
  | none =>
    intro more
    rw [List.cons_append, outlineFrom, hstep]
    simp only [List.map_append, h more]
  | some last =>
    obtain ⟨later, state', rfl, hpassage, htracks, hlast⟩ := h
    refine ⟨events ++ later, state', List.map_append, .cons hstep hpassage, ?_, ?_⟩
    · rwa [totalWidth, ← Nat.add_assoc]
    · rw [List.foldl_append, ← hcount, hlast]

/-- **A run with registers.** No part of the template is missing. -/
theorem Registers.Tracks.exists_read? {state : State} {tokens : List Token} {front back : Text}
    (hproper : ∀ t ∈ tokens, t.Proper) (hinput : input = front ++ (source tokens ++ back))
    (h : r.Tracks input front.byteLength state) (limit depth : Nat) :
    ∃ outcome, Registers.read? limit depth input r front.byteLength tokens = some outcome ∧
      r.Arrives limit depth input front.byteLength state tokens outcome := by
  -- on the tokens, from any registers that track the reader
  induction tokens generalizing front r state with
  | nil => exact ⟨([], some r), rfl, [], state, rfl, .nil, h, rfl⟩
  | cons token rest ih =>
    obtain ⟨htoken, hrest⟩ := List.forall_mem_cons.mp hproper
    have hsource : input = front ++ (token.chars ++ (source rest ++ back)) := by
      rw [hinput, source, List.flatMap_cons, List.append_assoc]
      rfl
    have hagrees := h.agrees (Token.standsAt_append htoken hsource) limit depth
    rcases hadvance : state.advance limit depth ⟨_, _⟩ token with ⟨f, span⟩ | ⟨next, events⟩
    · rw [hadvance] at hagrees
      have hread : r.advance? limit depth input ⟨_, _⟩ token = _ := hagrees
      refine ⟨([.malformed ⟨f, span, input.upTo span.stop⟩], none), ?_, fun more => ?_⟩
      · rw [read?, hread]
        rfl
      · rw [List.cons_append, outlineFrom, hadvance]
        rfl
    · rw [hadvance] at hagrees
      obtain ⟨r', hread, htracks, hcount⟩ := hagrees
      have hpos : (front ++ token.chars).byteLength = front.byteLength + token.width :=
        Text.byteLength_append _ _
      rw [← hpos] at htracks
      obtain ⟨⟨steps, reached⟩, hlater, harrives⟩ :=
        ih hrest (by rw [hsource, List.append_assoc]) htracks
      rw [hpos] at hlater harrives
      refine ⟨(events.map (Event.step limit depth input) ++ steps, reached), ?_,
        harrives.cons hadvance hcount⟩
      rw [read?, hread]
      simp only [Option.bind_eq_bind, Option.bind_some, hlater]
      rfl

/-- The end of the text with registers. -/
theorem Registers.Tracks.finish_eq {state : State} (h : r.Tracks input input.byteLength state) :
    r.finish input =
      (state.finish input.byteLength).map (Event.step limit depth input) := by
  have hall : input.upTo input.byteLength = input := by
    simpa only [List.append_nil] using Text.upTo_byteLength_append input []
  have hshows := h.shows
  cases state with
  | literal =>
    obtain rfl := hshows
    rfl
  | name start sofar quote =>
    obtain rfl := hshows
    cases quote <;> simp [finish, State.finish, Event.step, hall]
  | args call group quote =>
    obtain ⟨rfl, -⟩ := hshows
    cases quote <;> simp [finish, State.finish, Event.step, hall, Opened.draft]
  | afterArgs call =>
    obtain ⟨groupStart, groupArgs, rfl⟩ := hshows
    simp [finish, State.finish, Event.step, hall, Opened.draft]

/-! ### The arguments at hand -/

/-- How many arguments a run leaves at hand depends on its steps alone. -/
theorem length_of_runSteps_ok {ε : Type} {oracle : Oracle ε} {before : List Call}
    {args : List Text} {steps : List Step} {last : List Text × Text}
    (h : (runSteps oracle before args steps).result = .ok last) :
    last.1.length = steps.foldl Step.argsAfter args.length := by
  induction steps generalizing before args last with
  | nil =>
    rw [runSteps_nil, Run.result_done, Except.ok.injEq] at h
    rw [← h, List.foldl_nil]
  | cons step steps ih =>
    rw [runSteps_cons] at h
    obtain ⟨next, hstep, hrest⟩ := Run.ok_of_andThen_ok h
    obtain ⟨last', hlast, rfl⟩ := Run.ok_of_map_ok hrest
    have hnext : next.1.length = step.argsAfter args.length := by
      cases step with
      | argument span consumed body =>
        rw [Step.run] at hstep
        obtain ⟨value, -, rfl⟩ := Run.ok_of_map_ok hstep
        exact List.length_append
      | call name rawArgs =>
        rw [Step.run] at hstep
        obtain ⟨answer, -, rfl⟩ := Run.ok_of_map_ok hstep
        rfl
      | malformed e =>
        rw [Step.run] at hstep
        simp [Run.failed] at hstep
      | _ =>
        rw [Step.run] at hstep
        obtain rfl := Except.ok.inj hstep
        rfl
    rw [ih hlast, List.foldl_cons, hnext]

/-! ### All runs -/

/-- The registers over the first tokens of a text. -/
theorem Registers.exists_read?_scan (limit depth : Nat) (input : Text) (n : Nat) :
    ∃ outcome, Registers.read? limit depth input {} 0 ((scan input).take n) = some outcome ∧
      Arrives limit depth input 0 {} .literal ((scan input).take n) outcome := by
  have hproper : ∀ t ∈ (scan input).take n, t.Proper := fun t ht =>
    Token.proper_of_mem_scan input t (List.mem_of_mem_take ht)
  have hinput : input = [] ++ (source ((scan input).take n) ++ source ((scan input).drop n)) := by
    rw [List.nil_append, ← Token.source_append, List.take_append_drop]
    exact (Token.flatMap_chars_scan input).symm
  have hinit : Tracks input (Text.byteLength []) {} .literal := ⟨rfl, .init input⟩
  exact hinit.exists_read? hproper hinput limit depth

/-- **Reachable registers are well formed, and no part of a template is ever missing.** After any
number of tokens, the registers satisfy the invariant, and they count the arguments that the steps
so far leave at hand, whatever the oracle answers. Since a part that is out of range, out of order
or not between characters would be missing, and reading would stop there, all parts that are taken
from the template lie between characters and in order; and the steps are those of the plan. -/
theorem registers_wellFormed (limit depth : Nat) (input : Text) :
    (∀ n, ∃ steps reached,
      Registers.read? limit depth input {} 0 ((scan input).take n) = some (steps, reached) ∧
      steps <+: plan limit depth input ∧
      ∀ r, reached = some r →
        r.WellFormed input (totalWidth ((scan input).take n)) ∧
        ∀ (ε : Type) (oracle : Oracle ε) (before : List Call) (last : List Text × Text),
          (runSteps oracle before [] steps).result = .ok last →
          last.1.length = r.call.argCount) ∧
    Registers.plan? limit depth input = some (plan limit depth input) := by
  refine ⟨fun n => ?_, ?_⟩
  · obtain ⟨⟨steps, reached⟩, hread, harrives⟩ :=
      Registers.exists_read?_scan limit depth input n
    have hsplit := List.take_append_drop n (scan input)
    refine ⟨steps, reached, hread, ?_, ?_⟩
    · rw [plan_eq, outline, ← hsplit]
      cases reached with
      | none => exact ⟨[], by rw [harrives, List.append_nil]⟩
      | some r =>
        obtain ⟨events, last, rfl, hpassage, -, -⟩ := harrives
        rw [hpassage.outlineFrom_append, List.map_append]
        exact List.prefix_append _ _
    · rintro r rfl
      obtain ⟨events, last, -, -, htracks, hcount⟩ := harrives
      rw [Nat.zero_add] at htracks
      refine ⟨htracks.wellFormed, fun ε oracle before last hok => ?_⟩
      rw [length_of_runSteps_ok hok, hcount]
      rfl
  · obtain ⟨⟨steps, reached⟩, hread, harrives⟩ :=
      Registers.exists_read?_scan limit depth input (scan input).length
    rw [List.take_length] at hread harrives
    rw [Registers.plan?, hread, plan_eq, outline]
    cases reached with
    | none =>
      have hall := harrives []
      rw [List.append_nil] at hall
      rw [hall]
      rfl
    | some r =>
      obtain ⟨events, last, rfl, hpassage, htracks, -⟩ := harrives
      rw [Nat.zero_add, Token.totalWidth_scan] at htracks
      have hall := hpassage.outlineFrom_append []
      rw [List.append_nil, outlineFrom, Nat.zero_add, Token.totalWidth_scan] at hall
      rw [hall, List.map_append, ← htracks.finish_eq]
      rfl

/-- In the second group of a call, after white space of three bytes that the argument keeps back. -/
theorem registers_wellFormed_of_two_groups :
    let template := "é%f(a, 'ü' )(b\u3000".toList
    let r : Registers :=
      { mode := .args
        call := { start := 2, name := ['f'], rawArgs := "a, 'ü' ".toList, argCount := 2
                  groupStart := 15, argument := ⟨['b'], "\u3000".toList, true, true⟩ } }
    ∃ steps, Registers.read? 0 0 template {} 0 ((scan template).take 15) = some (steps, some r) ∧
      r.WellFormed template 19 ∧
      (runSteps (fun _ call => .ok call.name : Oracle Empty) [] [] steps).result =
        .ok (["a".toList, "ü".toList], "é".toList) ∧
      ["a".toList, "ü".toList].length = r.call.argCount := by
  intro template r
  obtain ⟨hreads, -⟩ := registers_wellFormed 0 0 template
  obtain ⟨steps, reached, hread, -, hwell⟩ := hreads 15
  have hreached : (Registers.read? 0 0 template {} 0 ((scan template).take 15)).map Prod.snd =
      some (some r) := by
    decide +kernel
  have hrun : (Registers.read? 0 0 template {} 0 ((scan template).take 15)).map (fun outcome =>
      (runSteps (fun _ call => .ok call.name : Oracle Empty) [] [] outcome.1).result) =
      some (.ok (["a".toList, "ü".toList], "é".toList)) := by
    decide +kernel
  have hwidth : totalWidth ((scan template).take 15) = 19 := by decide +kernel
  rw [hread, Option.map_some, Option.some.injEq] at hreached hrun
  obtain rfl : reached = some r := hreached
  obtain ⟨hwellFormed, hcount⟩ := hwell r rfl
  exact ⟨steps, hread, hwidth ▸ hwellFormed, hrun, hcount _ _ _ _ hrun⟩

end TabFormat.Template
