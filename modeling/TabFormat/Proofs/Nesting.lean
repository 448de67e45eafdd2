import TabFormat.Proofs.Level
import TabFormat.Proofs.Spelling.Call

/-!
# A template as an argument

A whole template can be put between quotation marks and passed as an argument. The placeholder
around it makes the calls of the template first, and then it is called with the output of the
template as its only argument, character by character. If the template does not expand, neither
does the placeholder, and for the same reason; a fault is shown at the placeholder.

The argument is read from the placeholder with the escapes of the quotation marks undone, so that
it is the template again (`Quotable.flatMap_kept_scan`), and it is expanded one level deeper
(`runSteps_plan_deeper`).

## Main definitions

* `Quotable` : a text whose backslashes are in escapes of active characters.
* `guarded` : a text with a backslash before each quotation mark of a kind.

## Main results

* `passage_quotedCall` : what the reader yields of a call with one argument between marks.
* `consult_quotedCall` : a template as an argument.
-/

namespace TabFormat.Template

open Token (scan kept)

/-! ### Between quotation marks -/

/-- A text whose only backslashes are in escapes of the percent sign and of the backslash. -/
inductive Quotable : Text → Prop
  | nil : Quotable []
  | plain {c : Char} {s : Text} (hc : c ≠ '\\') (h : Quotable s) : Quotable (c :: s)
  | escaped {c : Char} {s : Text} (hc : c = '%' ∨ c = '\\') (h : Quotable s) :
      Quotable ('\\' :: c :: s)

/-- The text with a backslash before each quotation mark of the kind. -/
def guarded (q : Quote) (s : Text) : Text :=
  s.flatMap fun c => if c = q.char then ['\\', c] else [c]

theorem guarded_cons_mark (q : Quote) (s : Text) :
    guarded q (q.char :: s) = '\\' :: q.char :: guarded q s := by
  rw [guarded, List.flatMap_cons, if_pos rfl]
  rfl

theorem guarded_cons_of_ne {q : Quote} {c : Char} (h : c ≠ q.char) (s : Text) :
    guarded q (c :: s) = c :: guarded q s := by
  rw [guarded, List.flatMap_cons, if_neg h]
  rfl

/-- Quotation marks are neither percent signs nor backslashes. -/
theorem mark_ne (q : Quote) : '%' ≠ q.char ∧ '\\' ≠ q.char := by
  cases q <;> decide

theorem Quotable.guarded_escaped {q : Quote} {c : Char} (hc : c = '%' ∨ c = '\\') (s : Text) :
    guarded q ('\\' :: c :: s) = '\\' :: c :: guarded q s := by
  have hne : c ≠ q.char := by
    rcases hc with rfl | rfl
    · exact (mark_ne q).1
    · exact (mark_ne q).2
  rw [guarded_cons_of_ne (mark_ne q).2, guarded_cons_of_ne hne]

/-- Between the marks, the text is written with the escapes that it needs there. -/
theorem Quotable.exists_written (q : Quote) {s : Text} (h : Quotable s) :
    ∃ s', Written (mustInQuotedName q) s' (guarded q s) := by
  induction h with
  | nil => exact ⟨[], .nil⟩
  | @plain c s hc _ ih =>
    obtain ⟨s', hw⟩ := ih
    by_cases hq : c = q.char
    · subst hq
      rw [guarded_cons_mark]
      exact ⟨_, .escaped hw⟩
    · rw [guarded_cons_of_ne hq]
      exact ⟨_, .plain (by simp [mustInQuotedName, hc, hq]) hw⟩
  | escaped hc _ ih =>
    obtain ⟨s', hw⟩ := ih
    rw [Quotable.guarded_escaped hc]
    exact ⟨_, .escaped hw⟩

theorem kept_fuse (s t : Token) : (Token.fuse s t).flatMap kept = s.kept ++ t.kept := by
  unfold Token.fuse
  split
  · exact List.flatMap_singleton ..
  · exact List.flatMap_singleton ..
  · rw [List.flatMap_cons, List.flatMap_singleton]

theorem kept_single (c : Char) : (Token.single c).kept = [c] := by
  have hchars := Token.chars_single c
  cases hs : Token.single c with
  | escape d => simp [hs, Token.chars] at hchars
  | _ => rwa [hs] at hchars

/-- **What an argument keeps of a text between quotation marks is the text.** -/
theorem Quotable.flatMap_kept_scan (q : Quote) {s : Text} (h : Quotable s) :
    (scan (guarded q s)).flatMap kept = s := by
  induction h with
  | nil => rw [guarded, List.flatMap_nil, Token.scan_nil, List.flatMap_nil]
  | @plain c s hc _ ih =>
    by_cases hq : c = q.char
    · subst hq
      have hescaped : Argument.escaped q.char = [q.char] :=
        if_neg (not_or.mpr ⟨(mark_ne q).1.symm, (mark_ne q).2.symm⟩)
      rw [guarded_cons_mark, Token.scan_escape, List.flatMap_cons, ih, kept, hescaped]
      rfl
    · rw [guarded_cons_of_ne hq, Token.scan_cons hc, Token.flatMap_join kept_fuse, ih,
        List.flatMap_singleton, kept_single]
      rfl
  | @escaped c s hc _ ih =>
    rw [Quotable.guarded_escaped hc, Token.scan_escape, List.flatMap_cons, ih, kept,
      Argument.escaped, if_pos hc]
    rfl

/-! ### A call with one argument between marks -/

section

variable {limit depth : Nat} {name : List Piece} {q : Quote} {body : List Token}

/-- **What the reader yields of a call with one argument between marks.** The argument reaches from
the placeholder's percent sign to the closing parenthesis. -/
theorem passage_quotedCall (hdepth : depth ≤ limit)
    (hname : ∀ piece ∈ name, piece.Fits [.percent, .openParen])
    (hne : name.flatMap Piece.spoken ≠ []) (hbody : .quote q ∉ body) (pos : Nat) :
    let front := ([.percent] ++ spell name ++ [.openParen]) ++ (Piece.quotation q body).tokens
    Passage limit depth .literal pos (front ++ [.closeParen] ++ [.percent])
      [.argument (body.flatMap kept) ⟨pos, pos + Token.totalWidth front⟩,
        .call (name.flatMap Piece.spoken) (Token.source (Piece.quotation q body).tokens)]
      .literal := by
  intro front
  have hargument := (passage_openGroup limit depth hdepth hname hne pos).append
    (passage_piece limit depth _ (show (Piece.quotation q body).Fits [.closeParen] from hbody)
      (by simp) _ _)
  exact (hargument.snoc rfl).snoc rfl

end

/-- The tokens of a call with one argument between marks. -/
theorem scan_quotedCall {name w : Text} {tokens body : List Token} {q : Quote}
    (hname : Scans name tokens) (hw : Scans w body) (rest : Text) :
    scan ('%' :: (name ++ '(' :: q.char :: (w ++ q.char :: ')' :: '%' :: rest))) =
      ([.percent] ++ tokens ++ [.openParen]) ++ (Piece.quotation q body).tokens ++
        [.closeParen] ++ [.percent] ++ scan rest := by
  have hmarks := scans_nil.append_special (ofChar?_mark q)
    (hw.append_special (ofChar?_mark q) (scans_nil.append_special (c := ')') rfl scans_nil))
  have hall := (hname.append_special (c := '(') rfl hmarks) '%' .percent rest rfl
  rw [Token.scan_cons_special (t := .percent) rfl]
  simp only [List.append_assoc, List.cons_append, List.nil_append] at hall
  rw [hall]
  simp only [Piece.tokens, List.append_assoc, List.cons_append, List.nil_append]

/-- **The plan of a call with one argument between marks.** -/
theorem plan_quotedCall (limit depth : Nat) (hdepth : depth ≤ limit) (q : Quote)
    {name text : Text} (hne : name ≠ []) (hname : ∀ c ∈ name, mustInName c = false)
    (htext : Quotable text) :
    let rawArgs := q.char :: (guarded q text ++ [q.char])
    let opening : Text := '%' :: (name ++ '(' :: rawArgs)
    plan limit depth (opening ++ [')', '%']) =
      [.argument ⟨0, opening.byteLength⟩ opening
        (if isInert text then [.copy text] else plan limit (depth + 1) text),
        .call name rawArgs] := by
  intro rawArgs opening
  obtain ⟨pieces, hscans, hfits, hspoken⟩ := (WrittenName.bare (.refl hname)).exists_pieces
  obtain ⟨s, hwritten⟩ := htext.exists_written q
  have hbody : .quote q ∉ scan (guarded q text) := fun hmem =>
    (hwritten.clear_scan rfl _ hmem).ne_of_ofChar? (ofChar?_mark q) (by simp [mustInQuotedName])
      rfl
  have hbodyScans := scans_of_notMem (hwritten.backslash_notMem_scan rfl)
  have hread : Passage limit depth .literal 0 _ _ .literal :=
    passage_quotedCall hdepth hfits (by rwa [hspoken]) hbody 0
  -- the source text of the argument, and of everything before the closing parenthesis
  have hraw : Token.source (Piece.quotation q (scan (guarded q text))).tokens = rawArgs := by
    rw [Piece.tokens, Token.source_append, ← List.singleton_append, Token.source_append,
      hbodyScans.source_eq]
    simp [Token.source, Token.chars, rawArgs]
  have hwidth := Token.totalWidth_eq (([.percent] ++ spell pieces ++ [.openParen]) ++
    (Piece.quotation q (scan (guarded q text))).tokens)
  have hopening : Token.source (([.percent] ++ spell pieces ++ [.openParen]) ++
      (Piece.quotation q (scan (guarded q text))).tokens) = opening := by
    rw [Token.source_append, Token.source_append, Token.source_append, hscans.source_eq, hraw]
    simp [Token.source, Token.chars, opening]
  rw [← Token.source, hopening] at hwidth
  have hwhole : opening ++ [')', '%'] = '%' :: (name ++ '(' :: q.char ::
      (guarded q text ++ q.char :: ')' :: '%' :: [])) := by
    simp [opening, rawArgs]
  rw [plan_eq, outline, hwhole, scan_quotedCall hscans hbodyScans [], Token.scan_nil,
    List.append_nil, hread.outlineFrom_eq, hspoken, hraw, htext.flatMap_kept_scan, hwidth,
    Nat.zero_add, ← hwhole]
  simp only [List.map_cons, List.map_nil, Event.step, Text.upTo_byteLength_append]

/-! ### The run of such a call -/

variable {ε : Type}

/-- What comes of a call with one argument, from what comes of the argument. -/
theorem runSteps_argument_call (limit depth : Nat) (oracle : Oracle ε) (text name rawArgs : Text)
    (span : Span) (consumed : Text) :
    let inner := runSteps oracle [] [] (plan limit depth text)
    let outer := runSteps oracle [] [] [
      .argument span consumed (if isInert text then [.copy text] else plan limit depth text),
      .call name rawArgs]
    outer.warnings = inner.warnings ∧
    (∀ last, inner.result = .ok last →
      outer.calls = inner.calls ++ [⟨name, rawArgs, [last.2]⟩] ∧
      outer.result = ((oracle inner.calls ⟨name, rawArgs, [last.2]⟩).mapError
        (.refused · none)).map fun answer => ([], answer)) ∧
    ∀ reason, inner.result = .error reason →
      outer.calls = inner.calls ∧ outer.result = .error (reason.relocate span consumed) := by
  intro inner outer
  have houter : outer = (inner.relocate span consumed).andThen fun value =>
      (Call.run (oracle inner.calls) ⟨name, rawArgs, [value.2]⟩).map fun answer =>
        ([], answer) := by
    simp only [outer]
    rw [runSteps_cons, Step.run, runSteps_argument, Run.map_andThen, Run.calls_map,
      Run.calls_relocate]
    congr 1
    funext value
    rw [runSteps_cons, Step.run, Run.map_andThen]
    simp only [runSteps_nil, Run.map_done, Run.andThen_done, Run.map_map, List.append_nil,
      List.nil_append]
    rfl
  rw [houter]
  generalize inner = run
  obtain ⟨calls, warnings, reason | last⟩ := run
  · refine ⟨rfl, fun last h => ?_, fun reason' h => ?_⟩
    · simp at h
    · obtain rfl : reason = reason' := by simpa using h
      exact ⟨rfl, rfl⟩
  · refine ⟨List.append_nil warnings, fun last' h => ?_, fun reason h => ?_⟩
    · obtain rfl : last = last' := by simpa using h
      exact ⟨rfl, rfl⟩
    · simp at h

/-- **A template as an argument.** Between quotation marks, with the marks in it escaped, a template
expands under a limit that is larger by one as it does by itself: the same calls are made and the
same warnings are given. If it expands, the placeholder around it is called last, with its output as
the only argument, and the answer is the whole output. If it is malformed, the fault is the same up
to the limit, and it concerns the placeholder up to the closing parenthesis. If a call is refused,
it is refused here. The resolver's error comes out unchanged unless it is the fault of a template;
then it concerns the placeholder up to the closing parenthesis as well. -/
theorem consult_quotedCall (limit : Nat) (oracle : Oracle ε) (q : Quote) {name template : Text}
    (hne : name ≠ []) (hname : ∀ c ∈ name, mustInName c = false) (hquotable : Quotable template) :
    let rawArgs := q.char :: (guarded q template ++ [q.char])
    let opening : Text := '%' :: (name ++ '(' :: rawArgs)
    let inner := consult limit oracle template
    let outer := consult (limit + 1) oracle (opening ++ [')', '%'])
    outer.warnings = inner.warnings ∧
    (∀ out, inner.result = .ok out →
      outer.calls = inner.calls ++ [⟨name, rawArgs, [out]⟩] ∧
      outer.result = (oracle inner.calls ⟨name, rawArgs, [out]⟩).mapError (.refused · none)) ∧
    (∀ e, inner.result = .error (.malformed e) →
      outer.calls = inner.calls ∧
      outer.result = .error (.malformed
        { fault := e.fault.under (limit + 1)
          span := ⟨0, opening.byteLength⟩
          consumed := opening })) ∧
    (∀ e, inner.outcome = .error (.other e) →
      outer.calls = inner.calls ∧ outer.outcome = .error (.other e)) ∧
    ∀ e place, inner.result = .error (.refused (.malformed e) place) →
      outer.calls = inner.calls ∧
      outer.outcome = .error (.malformed
        { fault := e.fault
          span := ⟨0, opening.byteLength⟩
          consumed := opening }) := by
  intro rawArgs opening inner outer
  have houter : outer = (runSteps oracle [] [] _).map Prod.snd := congrArg (Run.map Prod.snd)
    (congrArg (runSteps oracle [] []) (plan_quotedCall (limit + 1) 0 (Nat.zero_le _) q hne hname
      hquotable))
  have hdeeper := runSteps_plan_deeper limit 0 1 oracle [] [] template
  obtain ⟨hwarnings, hok, hfailed⟩ := runSteps_argument_call (limit + 1) 1 oracle template name
    rawArgs ⟨0, opening.byteLength⟩ opening
  rw [Nat.zero_add] at hdeeper
  rw [hdeeper] at hwarnings hok hfailed
  -- what the template fails with comes out of the argument
  have hfailure : ∀ reason, inner.result = .error reason → outer.calls = inner.calls ∧
      outer.result = .error
        ((reason.under (limit + 1)).relocate ⟨0, opening.byteLength⟩ opening) := by
    intro reason h
    obtain ⟨hcalls, hresult⟩ := hfailed (reason.under (limit + 1))
      (by rw [Run.result_mapFailure, Run.error_of_map_error h]; rfl)
    rw [houter]
    exact ⟨hcalls, by rw [Run.result_map, hresult]; rfl⟩
  refine ⟨houter ▸ hwarnings, fun out h => ?_, fun e h => hfailure _ h, fun e h => ?_,
    fun e place h => ?_⟩
  · obtain ⟨last, hlast, rfl⟩ := Run.ok_of_map_ok h
    obtain ⟨hcalls, hresult⟩ := hok last (by rw [Run.result_mapFailure, hlast]; rfl)
    rw [houter]
    refine ⟨hcalls, ?_⟩
    rw [Run.result_map, hresult]
    show ((Except.mapError (Failure.refused · none)
      (oracle inner.calls ⟨name, rawArgs, [last.2]⟩)).map _).map _ = _
    cases oracle inner.calls ⟨name, rawArgs, [last.2]⟩ <;> rfl
  · obtain ⟨place, hinner⟩ := Run.refused_of_outcome_other h
    obtain ⟨hcalls, hresult⟩ := hfailure _ hinner
    exact ⟨hcalls, Run.outcome_of_error hresult⟩
  · obtain ⟨hcalls, hresult⟩ := hfailure _ h
    exact ⟨hcalls, Run.outcome_of_error hresult⟩

/-- A template with a call between marks of the same kind and an escaped percent sign. -/
theorem consult_quotedCall_of_marks :
    ['f'] ≠ [] ∧ (∀ c ∈ ['f'], mustInName c = false) ∧ Quotable "%g('x')%\\%".toList ∧
    (consult 1 (fun _ call => .ok (call.name ++ call.args.flatten) : Oracle Empty)
        "%f('%g(\\'x\\')%\\%')%".toList).calls =
      [⟨['g'], "'x'".toList, [['x']]⟩, ⟨['f'], "'%g(\\'x\\')%\\%'".toList, ["gx%".toList]⟩] := by
  have hname : ∀ c ∈ ['f'], mustInName c = false := List.forall_mem_singleton.mpr rfl
  have hquotable : Quotable "%g('x')%\\%".toList := by
    have hend : Quotable ['\\', '%'] := .escaped (.inl rfl) .nil
    exact .plain (by decide) (.plain (by decide) (.plain (by decide) (.plain (by decide)
      (.plain (by decide) (.plain (by decide) (.plain (by decide) (.plain (by decide) hend)))))))
  have hinner : (consult 0 (fun _ call => .ok (call.name ++ call.args.flatten) : Oracle Empty)
      "%g('x')%\\%".toList).result = .ok "gx%".toList ∧
      (consult 0 (fun _ call => .ok (call.name ++ call.args.flatten) : Oracle Empty)
        "%g('x')%\\%".toList).calls = [⟨['g'], "'x'".toList, [['x']]⟩] := by decide +kernel
  obtain ⟨-, hok, -⟩ := consult_quotedCall 0
    (fun _ call => .ok (call.name ++ call.args.flatten) : Oracle Empty) .single
    (List.cons_ne_nil 'f' []) hname hquotable
  have hcalls := (hok _ hinner.1).1
  rw [hinner.2] at hcalls
  exact ⟨List.cons_ne_nil _ _, hname, hquotable, hcalls⟩

/-- The oracle refuses `B` with a fault of its own. Out of the argument it comes as a fault of the
template around it. -/
theorem consult_quotedCall_of_own_fault :
    let own : SyntaxError := ⟨.missingName, ⟨7, 9⟩, "%greet%%%".toList⟩
    let oracle : Oracle Empty := fun _ call =>
      if call.name = ['B'] then .error (.malformed own) else .ok call.passthrough
    (consult 0 oracle "%B%".toList).outcome = .error (.malformed own) ∧
    (consult 1 oracle "%F('%B%')%".toList).outcome =
      .error (.malformed ⟨.missingName, ⟨0, 8⟩, "%F('%B%'".toList⟩) ∧
    (consult 1 oracle "%F('%B%')%".toList).outcome ≠ .error (.malformed own) := by
  decide +kernel

end TabFormat.Template
