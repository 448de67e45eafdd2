import TabFormat.Proofs.Normal
import TabFormat.Proofs.Seam

/-!
# The place of a fault

A fault is shown at a placeholder of the template itself, also if it lies in an argument of an
argument: the range that it concerns begins with the percent sign of a placeholder outside of which
the reader was before, and the text that has been read ends where the range ends. What stands
before the percent sign is a template that expands.

The reader knows where the placeholder that it is inside of begins (`State.start?`), and a passage
that ends inside a placeholder is a passage that ends outside, the percent sign, and what has been
read since (`Passage.exists_opening`).

## Main definitions

* `Event.span?` : the range that an event concerns if it may turn out to be a fault.
* `State.Yields` : what makes the reader yield an event.
* `eventsBefore`, `callsBefore` : what happens before a position of the template is reached.

## Main results

* `exists_passage_of_outlineFrom_eq` : the passage before an event.
* `exists_opening_of_outlineFrom_eq` : the placeholder that an event belongs to.
* `exists_event_of_malformed` : the event at which a run meets a fault.
* `place_of_malformed` : the place of a fault.
-/

namespace TabFormat.Template

open Token (scan source totalWidth)

variable {limit depth : Nat}

theorem totalWidth_append (first second : List Token) :
    totalWidth (first ++ second) = totalWidth first + totalWidth second := by
  rw [Token.totalWidth_eq, Token.totalWidth_eq, Token.totalWidth_eq, List.flatMap_append,
    Text.byteLength_append]

/-! ### The placeholder that the reader is inside of -/

/-- **The opening of a placeholder.** If a passage ends inside a placeholder, then it came to the
percent sign of the placeholder outside of placeholders. -/
theorem Passage.exists_opening {pos start : Nat} {tokens : List Token} {events : List Event}
    {last : State} (h : Passage limit depth .literal pos tokens events last)
    (hstart : last.start? = some start) :
    ∃ front inside events₁ events₂, tokens = front ++ .percent :: inside ∧
      start = pos + totalWidth front ∧ Passage limit depth .literal pos front events₁ .literal ∧
      events = events₁ ++ events₂ := by
  -- on the tokens from the end, since the state after the last one is known
  induction tokens using List.reverseRecOn generalizing events last with
  | nil =>
    cases h
    simp [State.start?] at hstart
  | append_singleton tokens t ih =>
    obtain ⟨events₁, events₂, middle, rfl, hread, hlast⟩ := h.split
    cases hlast with
    | cons hstep hnil =>
      cases hnil
      rcases State.advance_inversion hstep with
        ⟨-, -, rfl, -⟩ | ⟨rfl, rfl, rfl, rfl⟩ | ⟨start', hmiddle, ⟨-, rfl, -⟩ | ⟨hnext, -⟩⟩
      · simp [State.start?] at hstart
      · exact ⟨tokens, [], events₁, [], rfl, (Option.some.inj hstart).symm, hread, rfl⟩
      · simp [State.start?] at hstart
      · obtain rfl : start' = start := Option.some.inj (hnext.symm.trans hstart)
        obtain ⟨front, inside, events₁', events₂', rfl, hpos, hfront, rfl⟩ := ih hread hmiddle
        refine ⟨front, inside ++ [t], events₁', _, ?_, hpos, hfront, List.append_assoc ..⟩
        rw [List.append_assoc, List.cons_append]

/-! ### The place of an event -/

/-- The range of an event that is a fault or may turn out to hide one. -/
def Event.span? : Event → Option Span
  | argument _ span => some span
  | fault _ span => some span
  | _ => none

/-- A step of the reader has one event at most. -/
theorem State.events_of_advance {state next : State} {span : Span} {token : Token}
    {events : List Event} (h : state.advance limit depth span token = .ok (next, events)) :
    events = [] ∨ ∃ e, events = [e] := by
  rcases State.advance_cases h with
    ⟨-, -, text, rfl⟩ | ⟨-, -, name, rawArgs, rfl⟩ | ⟨-, rfl | ⟨text, s, rfl⟩ | ⟨name, text, rfl⟩⟩
  · exact .inr ⟨_, rfl⟩
  · exact .inr ⟨_, rfl⟩
  · exact .inl rfl
  · exact .inr ⟨_, rfl⟩
  · exact .inr ⟨_, rfl⟩

/-- What makes the reader yield an event in a state at byte `pos`: the end of the text, or the next
token. -/
def State.Yields (limit depth : Nat) (state : State) (pos : Nat) (e : Event) :
    List Token → Prop
  | [] => state.finish pos = [e]
  | token :: _ =>
    (∃ next, state.advance limit depth ⟨pos, pos + token.width⟩ token = .ok (next, [e])) ∨
    ∃ f span, state.advance limit depth ⟨pos, pos + token.width⟩ token = .error (f, span) ∧
      e = .fault f span

/-- **The passage before an event.** -/
theorem exists_passage_of_outlineFrom_eq {state : State} {pos : Nat} {tokens : List Token}
    {front back : List Event} {e : Event}
    (h : outlineFrom limit depth state pos tokens = front ++ e :: back) :
    ∃ read rest middle, tokens = read ++ rest ∧ Passage limit depth state pos read front middle ∧
      middle.Yields limit depth (pos + totalWidth read) e rest := by
  induction tokens generalizing state pos front with
  | nil =>
    obtain ⟨-, hnil⟩ | ⟨start, f, -, hfault⟩ := state.finish_cases pos
    · rw [outlineFrom, hnil] at h
      simp at h
    · rw [outlineFrom, hfault, List.singleton_eq_append_iff] at h
      obtain ⟨rfl, he⟩ | ⟨-, hnil⟩ := h
      · obtain ⟨rfl, -⟩ := List.cons.inj he
        exact ⟨[], [], state, rfl, .nil, hfault⟩
      · simp at hnil
  | cons token tokens ih =>
    rw [outlineFrom] at h
    cases hstep : state.advance limit depth ⟨pos, pos + token.width⟩ token with
    | error fault =>
      rw [hstep] at h
      simp only [List.singleton_eq_append_iff, List.cons_ne_nil, and_false, or_false] at h
      obtain ⟨rfl, he⟩ := h
      obtain ⟨rfl, -⟩ := List.cons.inj he
      exact ⟨[], token :: tokens, state, rfl, .nil, .inr ⟨_, _, hstep, rfl⟩⟩
    | ok next =>
      obtain ⟨next, events⟩ := next
      rw [hstep] at h
      have hlater {front' : List Event} (hfront : front = events ++ front')
          (h' : outlineFrom limit depth next (pos + token.width) tokens = front' ++ e :: back) :
          ∃ read rest middle, token :: tokens = read ++ rest ∧
            Passage limit depth state pos read front middle ∧
            middle.Yields limit depth (pos + totalWidth read) e rest := by
        obtain ⟨read, rest, middle, rfl, hread, hyields⟩ := ih h'
        refine ⟨token :: read, rest, middle, rfl, hfront ▸ .cons hstep hread, ?_⟩
        rwa [Token.totalWidth, ← Nat.add_assoc]
      rcases State.events_of_advance hstep with rfl | ⟨e', rfl⟩
      · exact hlater rfl h
      · cases front with
        | nil =>
          obtain ⟨rfl, -⟩ := List.cons.inj h
          exact ⟨[], token :: tokens, state, rfl, .nil, .inl ⟨next, hstep⟩⟩
        | cons e'' front =>
          obtain ⟨rfl, h'⟩ := List.cons.inj h
          exact hlater rfl h'

/-- An event that may hide a fault happens inside a placeholder. Its range begins with the
placeholder and ends before or after the next token. -/
theorem State.Yields.span_eq {state : State} {pos : Nat} {e : Event} {tokens : List Token}
    (h : state.Yields limit depth pos e tokens) (hdepth : depth ≤ limit) {span : Span}
    (hspan : e.span? = some span) :
    ∃ start more rest, state.start? = some start ∧ tokens = more ++ rest ∧
      span = ⟨start, pos + totalWidth more⟩ := by
  cases tokens with
  | nil =>
    obtain ⟨-, hnil⟩ | ⟨start, f, hstart, hfault⟩ := state.finish_cases pos
    · rw [State.Yields, hnil] at h
      simp at h
    · rw [State.Yields, hfault] at h
      obtain rfl := List.singleton_inj.mp h
      exact ⟨start, [], [], hstart, rfl, (Option.some.inj hspan).symm⟩
  | cons token tokens =>
    obtain ⟨next, hstep⟩ | ⟨f, s, hstep, rfl⟩ := h
    · rcases State.advance_inversion hstep with
        ⟨-, -, -, s, hcopy⟩ | ⟨-, -, -, hnil⟩ | ⟨start, hstart, ⟨-, -, name, rawArgs, hcall⟩ |
          ⟨-, hnil | ⟨text, hargument⟩ | ⟨name, text, hignored⟩⟩⟩
      · obtain rfl := List.singleton_inj.mp hcopy
        simp [Event.span?] at hspan
      · simp at hnil
      · obtain rfl := List.singleton_inj.mp hcall
        simp [Event.span?] at hspan
      · simp at hnil
      · obtain rfl := List.singleton_inj.mp hargument
        exact ⟨start, [], token :: tokens, hstart, rfl, (Option.some.inj hspan).symm⟩
      · obtain rfl := List.singleton_inj.mp hignored
        simp [Event.span?] at hspan
    · obtain ⟨-, hdeep, -⟩ | ⟨start, hstart, -, rfl⟩ := State.advance_error hstep
      · exact absurd hdepth (Nat.not_le.mpr hdeep)
      · exact ⟨start, [token], tokens, hstart, rfl, (Option.some.inj hspan).symm⟩

/-- **The placeholder that an event belongs to.** The range of an event that may hide a fault begins
with a percent sign that the reader came to outside of placeholders. -/
theorem exists_opening_of_outlineFrom_eq (hdepth : depth ≤ limit) {pos : Nat}
    {tokens : List Token} {before after : List Event} {e : Event}
    (h : outlineFrom limit depth .literal pos tokens = before ++ e :: after) {span : Span}
    (hspan : e.span? = some span) :
    ∃ front inside rest events events', tokens = front ++ .percent :: (inside ++ rest) ∧
      before = events ++ events' ∧ Passage limit depth .literal pos front events .literal ∧
      span = ⟨pos + totalWidth front, pos + totalWidth (front ++ .percent :: inside)⟩ := by
  obtain ⟨read, rest, middle, rfl, hread, hyields⟩ := exists_passage_of_outlineFrom_eq h
  obtain ⟨start, more, rest, hstart, rfl, rfl⟩ := hyields.span_eq hdepth hspan
  obtain ⟨front, inside, events, events', rfl, rfl, hfront, rfl⟩ := hread.exists_opening hstart
  refine ⟨front, inside ++ more, rest, events, events', ?_, rfl, hfront, ?_⟩
  · simp only [List.append_assoc, List.cons_append]
  · have hassoc : front ++ .percent :: (inside ++ more) =
        (front ++ .percent :: inside) ++ more := by
      rw [List.append_assoc, List.cons_append]
    rw [hassoc, totalWidth_append _ more, Nat.add_assoc]

/-! ### The event at which a run meets a fault -/

variable {ε : Type}

/-- The place of a fault that a step meets is that of its event. -/
theorem place_of_step {input : Text} {oracle : Oracle ε} {before : List Call} {args : List Text}
    {event : Event} {e : SyntaxError}
    (h : ((event.step limit depth input).run oracle before args).result =
      .error (.malformed e)) :
    event.span? = some e.span ∧ e.consumed = input.upTo e.span.stop := by
  cases event with
  | copy s => simp [Event.step, Step.run] at h
  | ignored name text => simp [Event.step, Step.run] at h
  | call name rawArgs =>
    rw [Event.step, Step.run] at h
    have hcall := Run.error_of_map_error h
    obtain ⟨_, _, hreason⟩ := Call.refused_of_run_error hcall
    cases hreason
  | argument text span =>
    rw [Event.step, Step.run] at h
    obtain ⟨e', -, rfl⟩ := Run.malformed_of_relocate_malformed (Run.error_of_map_error h)
    exact ⟨rfl, rfl⟩
  | fault f span =>
    obtain rfl : (⟨f, span, input.upTo span.stop⟩ : SyntaxError) = e := by
      simpa [Event.step, Step.run, Run.failed] using h
    exact ⟨rfl, rfl⟩

/-- **The event at which a run fails.** The events before it are carried out. -/
theorem exists_failing_event {input : Text} {oracle : Oracle ε} {before : List Call}
    {args : List Text} {events : List Event} {reason : Failure ε}
    (h : (runSteps oracle before args (events.map (Event.step limit depth input))).result =
      .error reason) :
    ∃ front event back last, events = front ++ event :: back ∧
      (runSteps oracle before args (front.map (Event.step limit depth input))).result = .ok last ∧
      ((event.step limit depth input).run oracle (before ++ (runSteps oracle before args
        (front.map (Event.step limit depth input))).calls) last.1).result = .error reason := by
  obtain ⟨front, step, back, last, hsteps, hfront, hstep⟩ := exists_failing_step h
  obtain ⟨front, rest, rfl, rfl, hrest⟩ := List.map_eq_append_iff.mp hsteps
  obtain ⟨event, back, rfl, rfl, rfl⟩ := List.map_eq_cons_iff.mp hrest
  exact ⟨front, event, back, last, rfl, hfront, hstep⟩

/-- The event at which a run meets a fault, with the place of the fault. -/
theorem exists_event_of_malformed {input : Text} {oracle : Oracle ε} {before : List Call}
    {args : List Text} {events : List Event} {e : SyntaxError}
    (h : (runSteps oracle before args (events.map (Event.step limit depth input))).result =
      .error (.malformed e)) :
    ∃ front event back last, events = front ++ event :: back ∧ event.span? = some e.span ∧
      e.consumed = input.upTo e.span.stop ∧
      (runSteps oracle before args (front.map (Event.step limit depth input))).result =
        .ok last := by
  obtain ⟨front, event, back, last, hevents, hfront, hstep⟩ := exists_failing_event h
  obtain ⟨hspan, hconsumed⟩ := place_of_step hstep
  exact ⟨front, event, back, last, hevents, hspan, hconsumed, hfront⟩

/-! ### What happens before a position -/

/-- The events of the tokens that begin before byte `stop`. -/
def eventsBefore (limit depth stop : Nat) (state : State) (pos : Nat) : List Token → List Event
  | [] => []
  | token :: rest =>
    if pos < stop then
      match state.advance limit depth ⟨pos, pos + token.width⟩ token with
      | .error (f, span) => [.fault f span]
      | .ok (next, events) =>
        events ++ eventsBefore limit depth stop next (pos + token.width) rest
    else []

/-- The calls that the expansion of a template makes before the reader comes to byte `stop`. -/
def callsBefore (limit : Nat) (oracle : Oracle ε) (template : Text) (stop : Nat) : List Call :=
  (runSteps oracle [] [] ((eventsBefore limit 0 stop .literal 0 (scan template)).map
    (Event.step limit 0 template))).calls

theorem eventsBefore_prefix (stop : Nat) (state : State) (pos : Nat) (tokens : List Token) :
    eventsBefore limit depth stop state pos tokens <+:
      outlineFrom limit depth state pos tokens := by
  induction tokens generalizing state pos with
  | nil => exact List.nil_prefix
  | cons token tokens ih =>
    rw [eventsBefore, outlineFrom]
    split
    · cases state.advance limit depth ⟨pos, pos + token.width⟩ token with
      | error fault => exact List.prefix_rfl
      | ok next => exact (List.prefix_append_right_inj _).mpr (ih _ _)
    · exact List.nil_prefix

/-- The calls before a position are the first ones of the expansion. -/
theorem callsBefore_prefix (oracle : Oracle ε) (template : Text) (stop : Nat) :
    callsBefore limit oracle template stop <+: (consult limit oracle template).calls := by
  have hprefix : eventsBefore limit 0 stop .literal 0 (scan template) <+:
      outlineFrom limit 0 .literal 0 (scan template) :=
    eventsBefore_prefix stop .literal 0 (scan template)
  obtain ⟨later, hlater⟩ := hprefix
  rw [consult, Run.calls_map, plan_eq, outline, ← hlater, List.map_append, runSteps_append]
  exact Run.calls_prefix_andThen _ _

/-- Before the end of a passage, what happens are its events. -/
theorem Passage.eventsBefore_append {state last : State} {pos : Nat} {tokens : List Token}
    {events : List Event} (h : Passage limit depth state pos tokens events last)
    (hproper : ∀ t ∈ tokens, t.Proper) (rest : List Token) :
    eventsBefore limit depth (pos + totalWidth tokens) state pos (tokens ++ rest) = events := by
  induction h with
  | nil =>
    cases rest with
    | nil => rfl
    | cons t rest =>
      rw [List.nil_append, Token.totalWidth, Nat.add_zero, eventsBefore, if_neg (Nat.lt_irrefl _)]
  | @cons state next last pos token tokens events events' hstep _ ih =>
    obtain ⟨htoken, hrest⟩ := List.forall_mem_cons.mp hproper
    have hwidth : 0 < token.width :=
      byteLength_pos_of_isEmpty_eq_false (List.isEmpty_eq_false_iff.mpr htoken.chars_ne_nil)
    have hlt : pos < pos + totalWidth (token :: tokens) := by
      rw [Token.totalWidth]
      omega
    rw [List.cons_append, eventsBefore, if_pos hlt, hstep, Token.totalWidth, ← Nat.add_assoc]
    exact congrArg (events ++ ·) (ih hrest)

/-! ### The place of a fault -/

/-- A text with a percent sign among its tokens, in three parts. -/
theorem parts_of_scan_eq {template : Text} {front inside rest : List Token}
    (h : scan template = front ++ .percent :: (inside ++ rest)) :
    template = source front ++ '%' :: (source inside ++ source rest) ∧
      scan (source front) = front ∧ scan (source inside ++ source rest) = inside ++ rest := by
  have hnormal := Token.normal_scan template
  rw [h] at hnormal
  have hrest := Token.scan_source (Token.normal_cons.mp hnormal.right).2.2
  rw [Token.source_append] at hrest
  refine ⟨?_, Token.scan_source hnormal.left, hrest⟩
  calc
    template = source (scan template) := (Token.flatMap_chars_scan template).symm
    _ = source front ++ source (.percent :: (inside ++ rest)) := by rw [h, Token.source_append]
    _ = source front ++ '%' :: source (inside ++ rest) := rfl
    _ = _ := by rw [Token.source_append]

/-- If the events of a passage are carried out without failure, as a part of any template, then so
is the text of the passage. -/
theorem consult_of_passage {oracle : Oracle ε} {front template : Text} {events : List Event}
    (hread : Passage limit 0 .literal 0 (scan front) events .literal) {out : List Text × Text}
    (hok : (runSteps oracle [] [] (events.map (Event.step limit 0 template))).result = .ok out) :
    consult limit oracle front =
      (runSteps oracle [] [] (events.map (Event.step limit 0 template))).map Prod.snd := by
  rw [consult, plan_eq, outline, hread.outlineFrom_eq, runSteps_input template front hok]

/-- **The place of a fault.** If the expansion of a template meets a fault, at whatever depth, then
the range that it concerns begins with a percent sign of the template that is not escaped, and ends
within the template, where the text that has been read ends. The template up to the percent sign
expands; the calls that it makes are those that the whole template makes before the percent sign,
which are its first ones. -/
theorem place_of_malformed (limit : Nat) (oracle : Oracle ε) (template : Text) {e : SyntaxError}
    (h : (consult limit oracle template).result = .error (.malformed e)) :
    ∃ front inside rest : Text, template = front ++ '%' :: (inside ++ rest) ∧
      scan template = scan front ++ .percent :: scan (inside ++ rest) ∧
      e.span = ⟨front.byteLength, (front ++ '%' :: inside).byteLength⟩ ∧
      e.span.start < e.span.stop ∧ e.span.stop ≤ template.byteLength ∧
      e.consumed = front ++ '%' :: inside ∧
      (∃ out, (consult limit oracle front).result = .ok out) ∧
      (consult limit oracle front).calls = callsBefore limit oracle template e.span.start ∧
      callsBefore limit oracle template e.span.start <+:
        (consult limit oracle template).calls := by
  have hrun := Run.error_of_map_error h
  rw [plan_eq] at hrun
  obtain ⟨before, event, after, last, houtline, hspan, hconsumed, hlast⟩ :=
    exists_event_of_malformed hrun
  obtain ⟨front, inside, rest, events, events', htokens, rfl, hread, hplace⟩ :=
    exists_opening_of_outlineFrom_eq (Nat.zero_le limit) houtline hspan
  obtain ⟨htemplate, hscanFront, hscanRest⟩ := parts_of_scan_eq htokens
  have hproper : ∀ t ∈ front, t.Proper := fun t ht =>
    Token.proper_of_mem_scan template t (htokens ▸ List.mem_append_left _ ht)
  have hbefore := hread.eventsBefore_append hproper (.percent :: (inside ++ rest))
  rw [← htokens] at hbefore
  -- positions are lengths of texts
  have hsource : source (front ++ .percent :: inside) = source front ++ '%' :: source inside :=
    Token.source_append front _
  rw [Token.totalWidth_eq, Token.totalWidth_eq, ← source, ← source, hsource, Nat.zero_add,
    Nat.zero_add] at hplace
  rw [Token.totalWidth_eq, ← source, Nat.zero_add] at hbefore
  -- the run up to the percent sign
  rw [List.map_append] at hlast
  obtain ⟨out, -, hfront, -⟩ := ok_of_runSteps_append_ok hlast
  rw [← hscanFront] at hread
  have hfrontRun := consult_of_passage hread hfront
  refine ⟨source front, source inside, source rest, htemplate, ?_, hplace, ?_, ?_, ?_, ?_, ?_,
    callsBefore_prefix oracle template e.span.start⟩
  · rw [hscanFront, hscanRest, htokens]
  · rw [hplace]
    simp only [Text.byteLength_append, Text.byteLength_cons]
    have := Char.utf8Size_pos '%'
    omega
  · rw [hplace, htemplate]
    simp only [Text.byteLength_append, Text.byteLength_cons]
    omega
  · have happend : template = (source front ++ '%' :: source inside) ++ source rest := by
      rw [htemplate, List.append_assoc, List.cons_append]
    rw [hconsumed, hplace, happend]
    exact Text.upTo_byteLength_append _ _
  · rw [hfrontRun, Run.result_map, hfront]
    exact ⟨_, rfl⟩
  · rw [hfrontRun, Run.calls_map, callsBefore, hplace, hbefore]

/-- A name is missing in the argument of an argument, after a call and a character of two bytes. -/
theorem place_of_missingName :
    (consult 2 (fun _ call => .ok call.name : Oracle Empty) "%a%é%f(x, '%g(%%)%')%".toList).result =
      .error (.malformed ⟨.missingName, ⟨5, 20⟩, "%a%é%f(x, '%g(%%)%'".toList⟩) ∧
    ∃ front rest : Text, "%a%é%f(x, '%g(%%)%')%".toList = front ++ '%' :: rest ∧
      5 = front.byteLength ∧
      (consult 2 (fun _ call => .ok call.name : Oracle Empty) front).calls =
        callsBefore 2 (fun _ call => .ok call.name : Oracle Empty)
          "%a%é%f(x, '%g(%%)%')%".toList 5 := by
  have hfault : (consult 2 (fun _ call => .ok call.name : Oracle Empty)
      "%a%é%f(x, '%g(%%)%')%".toList).result =
      .error (.malformed ⟨.missingName, ⟨5, 20⟩, "%a%é%f(x, '%g(%%)%'".toList⟩) := by
    decide +kernel
  obtain ⟨front, inside, rest, htemplate, -, hspan, -, -, -, -, hcalls, -⟩ :=
    place_of_malformed 2 _ _ hfault
  exact ⟨hfault, front, inside ++ rest, htemplate, congrArg Span.start hspan, hcalls⟩

end TabFormat.Template
