import TabFormat.Template.Outline

/-!
# Passages of the reader

A passage leads from one state of the reader to another over some tokens, without a fault. The
outline of a text is made of passages: reading a passage yields its events, and what follows is read
from the state that it leads to. A text has no fault exactly if a passage over all its tokens ends
outside of placeholders (`fault_notMem_outlineFrom_iff`).

## Main results

* `Passage.outlineFrom_append` : the outline of tokens that begin with a passage.
* `State.advance_inversion`, `State.advance_error` : what a step of the reader can do.
* `fault_notMem_outlineFrom_iff` : texts without faults.
-/

namespace TabFormat.Template

/-- The reader, in a state at byte `pos`, reads some tokens without a fault; it yields some events
and ends in another state. -/
inductive Passage (limit depth : Nat) :
    State → Nat → List Token → List Event → State → Prop where
  | nil {state pos} : Passage limit depth state pos [] [] state
  | cons {state next last pos token rest events events'}
      (hstep : state.advance limit depth ⟨pos, pos + token.width⟩ token = .ok (next, events))
      (hrest : Passage limit depth next (pos + token.width) rest events' last) :
      Passage limit depth state pos (token :: rest) (events ++ events') last

namespace Passage

variable {limit depth pos : Nat} {state middle last : State} {tokens tokens' : List Token}
  {events events' : List Event}

/-- A passage over one token is a step of the reader. -/
theorem single {token : Token}
    (h : state.advance limit depth ⟨pos, pos + token.width⟩ token = .ok (last, events)) :
    Passage limit depth state pos [token] events last := by
  have hnil : Passage limit depth last (pos + token.width) [] [] last := nil
  simpa only [List.append_nil] using cons h hnil

theorem append (h : Passage limit depth state pos tokens events middle)
    (h' : Passage limit depth middle (pos + Token.totalWidth tokens) tokens' events' last) :
    Passage limit depth state pos (tokens ++ tokens') (events ++ events') last := by
  induction h with
  | nil => exact h'
  | cons hstep _ ih =>
    rw [List.cons_append, List.append_assoc]
    refine cons hstep (ih ?_)
    rwa [Token.totalWidth, ← Nat.add_assoc] at h'

/-- A step of the reader after a passage. -/
theorem snoc {token : Token} (h : Passage limit depth state pos tokens events middle)
    (h' : middle.advance limit depth ⟨pos + Token.totalWidth tokens,
      pos + Token.totalWidth tokens + token.width⟩ token = .ok (last, events')) :
    Passage limit depth state pos (tokens ++ [token]) (events ++ events') last :=
  h.append (single h')

/-- A step without events before a passage. -/
theorem after_quiet {token : Token}
    (h : Passage limit depth middle (pos + token.width) tokens events last)
    (h' : state.advance limit depth ⟨pos, pos + token.width⟩ token = .ok (middle, [])) :
    Passage limit depth state pos (token :: tokens) events last :=
  cons h' h

/-- A step after a passage without events. -/
theorem quiet_snoc {token : Token} (h : Passage limit depth state pos tokens [] middle)
    (h' : middle.advance limit depth ⟨pos + Token.totalWidth tokens,
      pos + Token.totalWidth tokens + token.width⟩ token = .ok (last, events)) :
    Passage limit depth state pos (tokens ++ [token]) events last :=
  h.snoc h'

/-- Tokens lead from a state to one state only. -/
theorem last_unique {events₁ events₂ : List Event} {last₁ last₂ : State}
    (h₁ : Passage limit depth state pos tokens events₁ last₁)
    (h₂ : Passage limit depth state pos tokens events₂ last₂) : last₁ = last₂ := by
  induction h₁ generalizing events₂ with
  | nil =>
    cases h₂
    rfl
  | cons hstep _ ih =>
    cases h₂ with
    | cons hstep' hrest' =>
      obtain ⟨rfl, -⟩ := Prod.mk.inj (Except.ok.inj (hstep.symm.trans hstep'))
      exact ih hrest'

/-- The outline of tokens that begin with a passage. -/
theorem outlineFrom_append (h : Passage limit depth state pos tokens events last)
    (rest : List Token) :
    outlineFrom limit depth state pos (tokens ++ rest) =
      events ++ outlineFrom limit depth last (pos + Token.totalWidth tokens) rest := by
  induction h with
  | nil => rfl
  | cons hstep _ ih =>
    rw [List.cons_append, outlineFrom, hstep]
    simp only [ih, Token.totalWidth, Nat.add_assoc, List.append_assoc]

/-- The outline of a passage that ends outside of placeholders. -/
theorem outlineFrom_eq (h : Passage limit depth state pos tokens events .literal) :
    outlineFrom limit depth state pos tokens = events := by
  have := h.outlineFrom_append []
  rwa [List.append_nil, outlineFrom, State.finish, List.append_nil] at this

end Passage

variable {limit depth : Nat}

/-! ### Steps of the reader -/

/-- The position of the percent sign of the placeholder that the reader is inside of. -/
def State.start? : State → Option Nat
  | literal => none
  | name start _ _ => some start
  | args call _ _ => some call.start
  | afterArgs call => some call.start

/-- What a token does inside the placeholder that begins at `start`: it completes the call; or the
reader stays inside, and the token finishes an argument or is passed over at most. -/
def StepsInside (start : Nat) (span : Span) (token : Token) (next : State)
    (events : List Event) : Prop :=
  (token = .percent ∧ next = .literal ∧ ∃ name rawArgs, events = [.call name rawArgs]) ∨
  (next.start? = some start ∧ (events = [] ∨
    (∃ text, events = [.argument text ⟨start, span.start⟩]) ∨
    ∃ name text, events = [.ignored name text]))

theorem stepsInside_bareName {start : Nat} {sofar : Text} {span : Span} {token : Token}
    {next : State} {events : List Event}
    (h : readBareName start sofar span token = .ok (next, events)) :
    StepsInside start span token next events := by
  cases token with
  | percent =>
    rw [readBareName] at h
    split at h
    · simp at h
    · obtain ⟨rfl, rfl⟩ := Prod.mk.inj (Except.ok.inj h)
      exact .inl ⟨rfl, rfl, _, _, rfl⟩
  | openParen =>
    rw [readBareName] at h
    split at h
    · simp at h
    · obtain ⟨rfl, rfl⟩ := Prod.mk.inj (Except.ok.inj h)
      exact .inr ⟨rfl, .inl rfl⟩
  | _ =>
    obtain ⟨rfl, rfl⟩ := Prod.mk.inj (Except.ok.inj h)
    exact .inr ⟨rfl, .inl rfl⟩

theorem stepsInside_bare (call : Opened) (group : Group) (span : Span) (token : Token) :
    StepsInside call.start span token (readBare call group span token).1
      (readBare call group span token).2 := by
  cases token with
  | comma => exact .inr ⟨rfl, .inr (.inl ⟨_, rfl⟩)⟩
  | closeParen =>
    rw [readBare]
    split
    · exact .inr ⟨rfl, .inr (.inl ⟨_, rfl⟩)⟩
    · exact .inr ⟨rfl, .inl rfl⟩
  | _ => exact .inr ⟨rfl, .inl rfl⟩

theorem stepsInside_afterArgs (call : Opened) (span : Span) (token : Token) :
    StepsInside call.start span token (readAfterArgs call span token).1
      (readAfterArgs call span token).2 := by
  cases token with
  | percent => exact .inl ⟨rfl, rfl, _, _, rfl⟩
  | openParen => exact .inr ⟨rfl, .inl rfl⟩
  | blank s => exact .inr ⟨rfl, .inl rfl⟩
  | _ => exact .inr ⟨rfl, .inr (.inr ⟨_, _, rfl⟩)⟩

/-- **What a token can do.** Outside of placeholders it is copied, or it is the percent sign that
opens a placeholder; inside a placeholder it completes the call or leaves the reader inside. -/
theorem State.advance_inversion {state next : State} {span : Span} {token : Token}
    {events : List Event} (h : state.advance limit depth span token = .ok (next, events)) :
    (state = .literal ∧ token ≠ .percent ∧ next = .literal ∧ ∃ s, events = [.copy s]) ∨
    (state = .literal ∧ token = .percent ∧ next = .name span.start [] none ∧ events = []) ∨
    ∃ start, state.start? = some start ∧ StepsInside start span token next events := by
  cases state with
  | literal =>
    cases token with
    | percent =>
      rw [advance, readLiteral] at h
      split at h
      · simp at h
      · obtain ⟨rfl, rfl⟩ := Prod.mk.inj (Except.ok.inj h)
        exact .inr (.inl ⟨rfl, rfl, rfl, rfl⟩)
    | _ =>
      obtain ⟨rfl, rfl⟩ := Prod.mk.inj (Except.ok.inj h)
      exact .inl ⟨rfl, by simp, rfl, _, rfl⟩
  | name start sofar quote =>
    cases quote with
    | some q =>
      obtain ⟨rfl, rfl⟩ := Prod.mk.inj (Except.ok.inj h)
      exact .inr (.inr ⟨start, rfl, .inr ⟨rfl, .inl rfl⟩⟩)
    | none => exact .inr (.inr ⟨start, rfl, stepsInside_bareName h⟩)
  | args call group quote =>
    cases quote with
    | some q =>
      obtain ⟨rfl, rfl⟩ := Prod.mk.inj (Except.ok.inj h)
      exact .inr (.inr ⟨call.start, rfl, .inr ⟨rfl, .inl rfl⟩⟩)
    | none =>
      have hinside := stepsInside_bare call group span token
      rw [show readBare call group span token = (next, events) from Except.ok.inj h] at hinside
      exact .inr (.inr ⟨call.start, rfl, hinside⟩)
  | afterArgs call =>
    have hinside := stepsInside_afterArgs call span token
    rw [show readAfterArgs call span token = (next, events) from Except.ok.inj h] at hinside
    exact .inr (.inr ⟨call.start, rfl, hinside⟩)

/-- What a token can do, as far as the events tell. -/
theorem State.advance_cases {state next : State} {span : Span} {token : Token}
    {events : List Event} (h : state.advance limit depth span token = .ok (next, events)) :
    (state = .literal ∧ next = .literal ∧ ∃ s, events = [.copy s]) ∨
    (token = .percent ∧ next = .literal ∧ ∃ name rawArgs, events = [.call name rawArgs]) ∨
    next ≠ .literal ∧ (events = [] ∨ (∃ text span, events = [.argument text span]) ∨
      ∃ name text, events = [.ignored name text]) := by
  rcases State.advance_inversion h with
    ⟨hstate, -, hnext, hcopy⟩ | ⟨-, -, rfl, hnil⟩ | ⟨start, -, hcall | ⟨hnext, hevents⟩⟩
  · exact .inl ⟨hstate, hnext, hcopy⟩
  · exact .inr (.inr ⟨by simp, .inl hnil⟩)
  · exact .inr (.inl hcall)
  · refine .inr (.inr ⟨?_, ?_⟩)
    · rintro rfl
      simp [start?] at hnext
    · rcases hevents with hnil | ⟨text, rfl⟩ | hignored
      · exact .inl hnil
      · exact .inr (.inl ⟨text, _, rfl⟩)
      · exact .inr (.inr hignored)

/-- The faults that a token can reveal: a placeholder that lies too deep, or one without a name. -/
theorem State.advance_error {state : State} {span s : Span} {token : Token} {f : Fault}
    (h : state.advance limit depth span token = .error (f, s)) :
    (state = .literal ∧ limit < depth ∧ f = .nestingTooDeep limit ∧ s = span) ∨
    ∃ start, state.start? = some start ∧ f = .missingName ∧ s = ⟨start, span.stop⟩ := by
  cases state with
  | literal =>
    cases token with
    | percent =>
      rw [advance, readLiteral] at h
      split at h
      · obtain ⟨rfl, rfl⟩ := Prod.mk.inj (Except.error.inj h)
        exact .inl ⟨rfl, ‹_›, rfl, rfl⟩
      · simp at h
    | _ => simp [advance, readLiteral] at h
  | name start sofar quote =>
    cases quote with
    | some q => simp [advance, readName] at h
    | none =>
      have hbare {c : Bool} {r : State × List Event}
          (h : (if c then .error (.missingName, ⟨start, span.stop⟩) else .ok r :
            Except (Fault × Span) (State × List Event)) = .error (f, s)) :
          f = .missingName ∧ s = ⟨start, span.stop⟩ := by
        split at h
        · obtain ⟨rfl, rfl⟩ := Prod.mk.inj (Except.error.inj h)
          exact ⟨rfl, rfl⟩
        · simp at h
      cases token with
      | percent => exact .inr ⟨start, rfl, hbare h⟩
      | openParen => exact .inr ⟨start, rfl, hbare h⟩
      | _ => simp [advance, readName, readBareName] at h
  | args call group quote => simp [advance] at h
  | afterArgs call => simp [advance] at h

/-- A text may end outside of placeholders only. -/
theorem State.finish_cases (state : State) (stop : Nat) :
    (state = .literal ∧ state.finish stop = []) ∨
    ∃ start f, state.start? = some start ∧ state.finish stop = [.fault f ⟨start, stop⟩] := by
  cases state with
  | literal => exact .inl ⟨rfl, rfl⟩
  | name start sofar quote => cases quote <;> exact .inr ⟨start, _, rfl, rfl⟩
  | args call group quote => cases quote <;> exact .inr ⟨call.start, _, rfl, rfl⟩
  | afterArgs call => exact .inr ⟨call.start, _, rfl, rfl⟩

/-- The events of a step are not faults: a fault ends the reading instead. -/
theorem State.fault_notMem_advance {state next : State} {span : Span} {token : Token}
    {events : List Event} (h : state.advance limit depth span token = .ok (next, events))
    (f : Fault) (s : Span) : Event.fault f s ∉ events := by
  rcases State.advance_cases h with
    ⟨-, -, text, rfl⟩ | ⟨-, -, name, rawArgs, rfl⟩ |
      ⟨-, rfl | ⟨text, span, rfl⟩ | ⟨name, text, rfl⟩⟩
  all_goals simp

/-- A text has no fault exactly if some passage over all its tokens ends outside of placeholders. -/
theorem fault_notMem_outlineFrom_iff {state : State} {pos : Nat} {tokens : List Token} :
    (∀ f span, Event.fault f span ∉ outlineFrom limit depth state pos tokens) ↔
      ∃ events, Passage limit depth state pos tokens events .literal := by
  induction tokens generalizing state pos with
  | nil =>
    constructor
    · intro h
      cases state with
      | literal => exact ⟨[], .nil⟩
      | name start sofar quote => cases quote <;> simp [outlineFrom, State.finish] at h
      | args call group quote => cases quote <;> simp [outlineFrom, State.finish] at h
      | afterArgs call => simp [outlineFrom, State.finish] at h
    · rintro ⟨events, h⟩ f span
      cases h
      simp [outlineFrom, State.finish]
  | cons token rest ih =>
    rw [outlineFrom]
    cases hstep : state.advance limit depth ⟨pos, pos + token.width⟩ token with
    | error fs =>
      refine ⟨fun h => absurd (List.mem_singleton_self _) (h fs.1 fs.2), ?_⟩
      rintro ⟨events, h⟩
      cases h with
      | cons hstep' _ => simp [hstep] at hstep'
    | ok next =>
      have hmem : (∀ f span, Event.fault f span ∉
          next.2 ++ outlineFrom limit depth next.1 (pos + token.width) rest) ↔
          ∀ f span, Event.fault f span ∉
            outlineFrom limit depth next.1 (pos + token.width) rest := by
        refine forall_congr' fun f => forall_congr' fun span => ?_
        rw [List.mem_append, not_or]
        exact and_iff_right (State.fault_notMem_advance hstep f span)
      rw [hmem, ih]
      constructor
      · rintro ⟨events, h⟩
        exact ⟨_, .cons hstep h⟩
      · rintro ⟨events, h⟩
        cases h with
        | cons hstep' hrest =>
          obtain rfl := Except.ok.inj (hstep.symm.trans hstep')
          exact ⟨_, hrest⟩

end TabFormat.Template
