import TabFormat.Proofs.Position
import TabFormat.Proofs.Spelling.Call

/-!
# Faults are final

A fault that shows before the end of a template shows at a special character: at the comma or the
closing parenthesis that ends a faulty argument, or at the percent sign or the opening parenthesis
where a name is missing. A special character is a token whatever follows it, so every template that
begins in the same way is read in the same way up to there, and meets the same fault.

## Main results

* `State.Yields.exists_special` : the special character at which a fault shows.
* `consult_eq_of_scan_eq` : templates that begin in the same way.
* `exists_special_of_malformed` : the special character behind which nothing matters.
* `consult_of_consumed` : a fault is met again whatever follows.
-/

namespace TabFormat.Template

open Token (scan source totalWidth ofChar?)

variable {limit depth : Nat}

/-! ### Where a fault shows -/

/-- An argument ends at a comma or at a closing parenthesis, which is not a part of it. -/
theorem State.argument_inversion {state next : State} {span s : Span} {token : Token} {text : Text}
    (h : state.advance limit depth span token = .ok (next, [.argument text s])) :
    (token = .comma ∨ token = .closeParen) ∧ s.stop = span.start := by
  cases state with
  | literal =>
    rcases State.advance_inversion h with
      ⟨-, -, -, s, hcopy⟩ | ⟨-, -, -, hnil⟩ | ⟨start, hstart, -⟩
    · simp at hcopy
    · simp at hnil
    · simp [start?] at hstart
  | name start sofar quote =>
    cases quote with
    | some q => simp [advance, readName] at h
    | none =>
      cases token with
      | percent =>
        rw [advance, readName, readBareName] at h
        split at h <;> simp at h
      | openParen =>
        rw [advance, readName, readBareName] at h
        split at h <;> simp at h
      | _ => simp [advance, readName, readBareName] at h
  | args call group quote =>
    cases quote with
    | some q => simp [advance, readArgs] at h
    | none =>
      cases token with
      | comma =>
        simp only [advance, readArgs, readBare, Except.ok.injEq, Prod.mk.injEq, List.cons.injEq,
          Event.argument.injEq, and_true] at h
        exact ⟨.inl rfl, h.2.2 ▸ rfl⟩
      | closeParen =>
        rw [advance, readArgs, readBare] at h
        split at h
        · simp only [Except.ok.injEq, Prod.mk.injEq, List.cons.injEq, Event.argument.injEq,
            and_true] at h
          exact ⟨.inr rfl, h.2.2 ▸ rfl⟩
        · simp at h
      | _ => simp [advance, readArgs, readBare] at h
  | afterArgs call => cases token <;> simp [advance, readAfterArgs] at h

/-- A token that reveals a fault is a percent sign or an opening parenthesis. -/
theorem State.token_of_advance_error {state : State} {span : Span} {token : Token}
    {fault : Fault × Span} (h : state.advance limit depth span token = .error fault) :
    token = .percent ∨ token = .openParen := by
  cases state with
  | literal =>
    cases token with
    | percent => exact .inl rfl
    | _ => simp [advance, readLiteral] at h
  | name start sofar quote =>
    cases quote with
    | some q => simp [advance, readName] at h
    | none =>
      cases token with
      | percent => exact .inl rfl
      | openParen => exact .inr rfl
      | _ => simp [advance, readName, readBareName] at h
  | args call group quote => simp [advance] at h
  | afterArgs call => simp [advance] at h

/-- **The special character at which a fault shows.** An event that may hide a fault and is not
caused by the end of the text is caused by a special character. The range of the event ends before
that character or, if a name is missing, behind it. -/
theorem State.Yields.exists_special {state : State} {pos : Nat} {e : Event} {token : Token}
    {rest : List Token} (h : state.Yields limit depth pos e (token :: rest))
    (hdepth : depth ≤ limit) {span : Span} (hspan : e.span? = some span) :
    (∃ c, ofChar? c = some token) ∧
      ((∃ text, e = .argument text span) ∧ span.stop = pos ∨
        e = .fault .missingName span ∧ span.stop = pos + token.width) := by
  obtain ⟨next, hstep⟩ | ⟨f, s, hstep, rfl⟩ := h
  · cases e with
    | argument text s =>
      obtain rfl := Option.some.inj hspan
      obtain ⟨htoken, hstop⟩ := State.argument_inversion hstep
      refine ⟨?_, .inl ⟨⟨text, rfl⟩, hstop⟩⟩
      rcases htoken with rfl | rfl
      · exact ⟨',', rfl⟩
      · exact ⟨')', rfl⟩
    | fault f s => exact absurd List.mem_cons_self (State.fault_notMem_advance hstep f s)
    | _ => simp [Event.span?] at hspan
  · obtain rfl := Option.some.inj hspan
    obtain ⟨-, hdeep, -⟩ | ⟨start, -, rfl, rfl⟩ := State.advance_error hstep
    · exact absurd hdepth (Nat.not_le.mpr hdeep)
    · refine ⟨?_, .inr ⟨rfl, rfl⟩⟩
      rcases State.token_of_advance_error hstep with rfl | rfl
      · exact ⟨'%', rfl⟩
      · exact ⟨'(', rfl⟩

/-! ### Templates that begin in the same way -/

/-- What an event asks for depends on the text up to the end of its range only. -/
theorem Event.step_eq_of_upTo_eq {e : Event} {span : Span} (hspan : e.span? = some span)
    {input input' : Text} (h : input'.upTo span.stop = input.upTo span.stop) :
    e.step limit depth input' = e.step limit depth input := by
  cases e with
  | argument text s =>
    obtain rfl := Option.some.inj hspan
    rw [step, step, h]
  | fault f s =>
    obtain rfl := Option.some.inj hspan
    rw [step, step, h]
  | _ => simp [span?] at hspan

/-- A text cut behind some of its tokens. -/
theorem upTo_of_scan_eq {text : Text} {front back : List Token} (h : scan text = front ++ back) :
    text.upTo (totalWidth front) = source front := by
  have hsource : text = source front ++ source back := by
    rw [← Token.source_append, ← h]
    exact (Token.flatMap_chars_scan text).symm
  rw [hsource, Token.totalWidth_eq]
  exact Text.upTo_byteLength_append _ _

/-- A text cut behind one more of its tokens. -/
theorem upTo_snoc_of_scan_eq {text : Text} {front back : List Token} {token : Token}
    (h : scan text = front ++ token :: back) :
    text.upTo (totalWidth front + token.width) = source (front ++ [token]) := by
  have hwidth : totalWidth front + token.width = totalWidth (front ++ [token]) := by
    rw [totalWidth_append, totalWidth, totalWidth, Nat.add_zero]
  rw [List.append_cons] at h
  rw [hwidth, upTo_of_scan_eq h]

theorem scan_source_of_scan_eq {text : Text} {front back : List Token}
    (h : scan text = front ++ back) : scan (source front) = front := by
  have hnormal := Token.normal_scan text
  rw [h] at hnormal
  exact Token.scan_source hnormal.left

/-- A special character is a token whatever follows it. -/
theorem scan_source_append_cons {text : Text} {front back : List Token} {token : Token} {c : Char}
    (h : scan text = front ++ token :: back) (hc : ofChar? c = some token) (rest : Text) :
    scan (source front ++ c :: rest) = front ++ token :: scan rest := by
  have hnormal := Token.normal_scan text
  rw [h] at hnormal
  have hback : .backslash ∉ scan (source front) := by
    rw [scan_source_of_scan_eq h]
    exact hnormal.backslash_notMem (List.cons_ne_nil _ _)
  rw [scans_of_notMem hback c token rest hc, scan_source_of_scan_eq h]

/-- What comes after an event in the reading does not change what comes before it. -/
theorem Passage.exists_outlineFrom_eq {state middle : State} {pos : Nat} {read : List Token}
    {front : List Event} {e : Event} {token : Token} {rest : List Token}
    (hread : Passage limit depth state pos read front middle)
    (hyields : middle.Yields limit depth (pos + totalWidth read) e (token :: rest))
    (rest' : List Token) :
    ∃ back, outlineFrom limit depth state pos (read ++ token :: rest') = front ++ e :: back := by
  rw [hread.outlineFrom_append]
  obtain ⟨next, hstep⟩ | ⟨f, s, hstep, rfl⟩ := hyields
  · rw [outlineFrom, hstep]
    exact ⟨_, rfl⟩
  · rw [outlineFrom, hstep]
    exact ⟨[], rfl⟩

variable {ε : Type}

/-- **Templates that begin in the same way** up to the token at which an expansion fails are
expanded in the same way. -/
theorem consult_eq_of_scan_eq {oracle : Oracle ε} {template template' : Text}
    {read rest rest' : List Token} {token : Token} {middle : State} {front : List Event}
    {event : Event} {span : Span} {last : List Text × Text} {reason : Failure ε}
    (hscan : scan template = read ++ token :: rest)
    (hscan' : scan template' = read ++ token :: rest')
    (hread : Passage limit 0 .literal 0 read front middle)
    (hyields : middle.Yields limit 0 (0 + totalWidth read) event (token :: rest))
    (hspan : event.span? = some span)
    (hfront : (runSteps oracle [] [] (front.map (Event.step limit 0 template))).result = .ok last)
    (hstep : ((event.step limit 0 template).run oracle ([] ++ (runSteps oracle [] []
      (front.map (Event.step limit 0 template))).calls) last.1).result = .error reason) :
    consult limit oracle template' = consult limit oracle template := by
  obtain ⟨back, hback⟩ := hread.exists_outlineFrom_eq hyields rest
  obtain ⟨back', hback'⟩ := hread.exists_outlineFrom_eq hyields rest'
  -- both templates agree up to the end of the range, which is before or behind the token
  have hupTo : template'.upTo span.stop = template.upTo span.stop := by
    obtain ⟨-, ⟨-, hstop⟩ | ⟨-, hstop⟩⟩ := hyields.exists_special (Nat.zero_le limit) hspan
    · rw [hstop, Nat.zero_add, upTo_of_scan_eq hscan, upTo_of_scan_eq hscan']
    · rw [hstop, Nat.zero_add, upTo_snoc_of_scan_eq hscan, upTo_snoc_of_scan_eq hscan']
  rw [consult, consult, plan_eq, plan_eq, outline, outline, hscan, hscan', hback, hback',
    List.map_append, List.map_append, List.map_cons, List.map_cons,
    Event.step_eq_of_upTo_eq hspan hupTo]
  exact congrArg (Run.map Prod.snd)
    (runSteps_of_failing_step (runSteps_input template template' hfront) hfront hstep _ _)

/-! ### Faults are final -/

theorem State.missingName_notMem_finish (state : State) (stop : Nat) (span : Span) :
    .fault .missingName span ∉ state.finish stop := by
  cases state with
  | literal => exact List.not_mem_nil
  | name start sofar quote => cases quote <;> simp [finish]
  | args call group quote => cases quote <;> simp [finish]
  | afterArgs call => simp [finish]

/-- A fault that shows at the end of a template has read all of it, and no name is missing. -/
theorem State.Yields.consumed_of_nil {state : State} {pos : Nat} {template : Text} {event : Event}
    {e : SyntaxError} {oracle : Oracle ε} {before : List Call} {args : List Text}
    (h : state.Yields limit 0 pos event []) (hpos : pos = totalWidth (scan template))
    (hstep :
      ((event.step limit 0 template).run oracle before args).result = .error (.malformed e)) :
    e.consumed = template ∧ e.fault ≠ .missingName := by
  obtain ⟨-, hnil⟩ | ⟨start, f, -, hend⟩ := state.finish_cases pos
  · rw [State.Yields, hnil] at h
    simp at h
  · rw [State.Yields, hend] at h
    obtain rfl := List.singleton_inj.mp h
    obtain rfl : (⟨f, ⟨start, pos⟩, template.upTo pos⟩ : SyntaxError) = e := by
      rw [Event.step, Step.run] at hstep
      exact Failure.malformed.inj (Except.error.inj hstep)
    refine ⟨?_, fun hmissing => ?_⟩
    · have hupTo := Text.upTo_byteLength_append template []
      rwa [List.append_nil, ← Token.totalWidth_scan, ← hpos] at hupTo
    · obtain rfl : f = .missingName := hmissing
      exact state.missingName_notMem_finish _ _ (hend ▸ List.mem_cons_self)

/-- **The special character behind which nothing matters.** An expansion meets a fault at the end of
the template; or at a special character, before which the text that has been read ends, if an
argument is at fault, and behind which it ends, if a name is missing. -/
theorem exists_special_of_malformed {oracle : Oracle ε} {template : Text} {e : SyntaxError}
    (h : (consult limit oracle template).result = .error (.malformed e)) :
    (e.consumed = template ∧ e.fault ≠ .missingName) ∨
    ∃ read token rest c, scan template = read ++ token :: rest ∧ token.chars = [c] ∧
      (∀ rest', consult limit oracle (source read ++ c :: rest') =
        consult limit oracle template) ∧
      ((e.consumed = source read ∧ ∃ events last, Passage limit 0 .literal 0 read events last) ∨
        e.consumed = source (read ++ [token])) := by
  have hrun := Run.error_of_map_error h
  rw [plan_eq] at hrun
  obtain ⟨front, event, back, last, houtline, hfront, hstep⟩ := exists_failing_event hrun
  obtain ⟨hspan, hconsumed⟩ := place_of_step hstep
  obtain ⟨read, rest, middle, hscan, hread, hyields⟩ := exists_passage_of_outlineFrom_eq houtline
  cases rest with
  | nil =>
    rw [List.append_nil] at hscan
    exact .inl (hyields.consumed_of_nil (by rw [hscan, Nat.zero_add]) hstep)
  | cons token rest =>
    obtain ⟨⟨c, hc⟩, hplace⟩ := hyields.exists_special (Nat.zero_le limit) hspan
    refine .inr ⟨read, token, rest, c, hscan, Token.chars_of_ofChar? hc, fun rest' => ?_, ?_⟩
    · exact consult_eq_of_scan_eq hscan (scan_source_append_cons hscan hc rest') hread hyields hspan
        hfront hstep
    · obtain ⟨-, hstop⟩ | ⟨-, hstop⟩ := hplace
      · refine .inl ⟨?_, front, middle, hread⟩
        rw [hconsumed, hstop, Nat.zero_add, upTo_of_scan_eq hscan]
      · refine .inr ?_
        rw [hconsumed, hstop, Nat.zero_add, upTo_snoc_of_scan_eq hscan]

/-- If a name outside of arguments is missing, then the reader does not pass over the text that has
been read. -/
theorem not_passage_of_missingName {template : Text} {e : SyntaxError}
    (hmem : .malformed e ∈ plan limit 0 template) (hfault : e.fault = .missingName)
    (events : List Event) (last : State) :
    ¬ Passage limit 0 .literal 0 (scan e.consumed) events last := by
  rw [plan_eq] at hmem
  obtain ⟨event, hevent, hstep⟩ := List.mem_map.mp hmem
  obtain ⟨f, span, rfl⟩ : ∃ f span, event = .fault f span := by
    cases event with
    | fault f span => exact ⟨f, span, rfl⟩
    | _ => simp [Event.step] at hstep
  obtain rfl : (⟨f, span, template.upTo span.stop⟩ : SyntaxError) = e := by
    simpa [Event.step] using hstep
  obtain rfl : f = .missingName := hfault
  obtain ⟨front, back, houtline⟩ := List.append_of_mem hevent
  obtain ⟨read, rest, middle, hscan, hread, hyields⟩ := exists_passage_of_outlineFrom_eq houtline
  cases rest with
  | nil => exact absurd (hyields ▸ List.mem_cons_self) (middle.missingName_notMem_finish _ span)
  | cons token rest =>
    obtain ⟨-, ⟨⟨text, htext⟩, -⟩ | ⟨-, hstop⟩⟩ := hyields.exists_special (Nat.zero_le limit) rfl
    · simp at htext
    · rw [hstop, Nat.zero_add, upTo_snoc_of_scan_eq hscan,
        scan_source_of_scan_eq (hscan.trans (List.append_cons ..))]
      intro hpassage
      obtain ⟨_, _, middle', -, hread', htoken⟩ := hpassage.split
      obtain rfl := hread'.last_unique hread
      cases htoken with
      | cons hnext _ =>
        obtain ⟨next, hyields⟩ | ⟨f, s, herror, -⟩ := hyields
        · exact State.fault_notMem_advance hyields _ _ List.mem_cons_self
        · exact absurd (hnext.symm.trans herror) (by simp)

/-- **A fault that shows before the end of a template is final.** Every template that begins with
the text that has been read and the character after it makes the same calls and meets the same
fault. If the fault is a missing name outside of arguments, the character after it does not matter
either. -/
theorem consult_of_consumed (limit : Nat) (oracle : Oracle ε) (template : Text) {e : SyntaxError}
    (h : (consult limit oracle template).result = .error (.malformed e)) :
    (∀ c rest, template = e.consumed ++ c :: rest →
      ∀ rest', consult limit oracle (e.consumed ++ c :: rest') = consult limit oracle template) ∧
    (.malformed e ∈ plan limit 0 template → e.fault = .missingName →
      ∀ rest', consult limit oracle (e.consumed ++ rest') = consult limit oracle template) := by
  obtain ⟨hwhole, hfault⟩ | ⟨read, token, rest, c, hscan, hc, hsame, hcut⟩ :=
    exists_special_of_malformed h
  · refine ⟨fun c rest htemplate => ?_, fun _ hmissing => absurd hmissing hfault⟩
    rw [hwhole] at htemplate
    simp at htemplate
  · have hsource : source (read ++ [token]) = source read ++ [c] := by
      rw [Token.source_append, source, source, List.flatMap_singleton, hc]
    have hbehind (rest' : Text) : consult limit oracle (source (read ++ [token]) ++ rest') =
        consult limit oracle template := by
      rw [hsource, List.append_assoc, List.singleton_append, hsame]
    obtain ⟨hconsumed, events, last, hread⟩ | hconsumed := hcut
    · refine ⟨fun c' rest' htemplate rest'' => ?_, fun hmem hmissing => ?_⟩
      · have hchars : template = source read ++ c :: source rest := by
          rw [← Token.flatMap_chars_scan template, hscan, List.append_cons]
          exact (Token.source_append _ _).trans (by rw [hsource, List.append_assoc]; rfl)
        rw [hconsumed, hchars] at htemplate
        obtain ⟨rfl, -⟩ := List.cons.inj (List.append_cancel_left htemplate)
        rw [hconsumed, hsame]
      · rw [← scan_source_of_scan_eq hscan, ← hconsumed] at hread
        exact absurd hread (not_passage_of_missingName hmem hmissing events last)
    · exact ⟨fun c' rest' _ rest'' => hconsumed ▸ hbehind (c' :: rest''),
        fun _ _ rest' => hconsumed ▸ hbehind rest'⟩

/-- A name is missing in an argument, before a comma; and a name is missing outside of arguments,
before a quotation that is not closed. -/
theorem consult_of_consumed_missingName :
    (∀ rest, consult 1 (fun _ call => .ok call.name : Oracle Empty)
      ("é%f(%%".toList ++ ',' :: rest) =
        consult 1 (fun _ call => .ok call.name) "é%f(%%, %g%)%".toList) ∧
    ∀ rest, consult 1 (fun _ call => .ok call.name : Oracle Empty) ("%a%%(".toList ++ rest) =
      consult 1 (fun _ call => .ok call.name) "%a%%('b".toList := by
  have hargument : (consult 1 (fun _ call => .ok call.name : Oracle Empty)
      "é%f(%%, %g%)%".toList).result =
      .error (.malformed ⟨.missingName, ⟨2, 7⟩, "é%f(%%".toList⟩) := by decide +kernel
  have htemplate : (consult 1 (fun _ call => .ok call.name : Oracle Empty)
      "%a%%('b".toList).result =
      .error (.malformed ⟨.missingName, ⟨3, 5⟩, "%a%%(".toList⟩) := by decide +kernel
  have houtline : .fault .missingName ⟨3, 5⟩ ∈ outline 1 0 "%a%%('b".toList := by decide +kernel
  have hplan : .malformed ⟨.missingName, ⟨3, 5⟩, "%a%%(".toList⟩ ∈ plan 1 0 "%a%%('b".toList := by
    rw [plan_eq]
    exact List.mem_map_of_mem houtline
  exact ⟨(consult_of_consumed 1 _ _ hargument).1 ',' " %g%)%".toList rfl,
    (consult_of_consumed 1 _ _ htemplate).2 hplan rfl⟩

end TabFormat.Template
