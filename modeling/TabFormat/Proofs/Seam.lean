import TabFormat.Proofs.Arguments
import TabFormat.Proofs.Scan
import TabFormat.Proofs.Shift

/-!
# Expanding two templates in a row

A resolver that does not look back expands a template and then another one as it expands both at
once, provided that the first one succeeds and does not end in the middle of an escape. A run of
text that reaches across the seam is copied in one piece or in two, the reader is outside of
placeholders at the seam with no arguments at hand, and a fault of the second template shows behind
the first one.

## Main results

* `runSteps_join` : a run across the seam makes no difference.
* `args_eq_nil_of_passage` : no arguments are left over outside of placeholders.
* `expand_append` : two templates in a row.
-/

namespace TabFormat

namespace Template

open Token (scan join fuse)

variable {ε : Type} {limit depth : Nat}

/-! ### Resolvers do not look back -/

mutual

theorem Step.run_resolver (resolver : Resolver ε) (before : List Call) (args : List Text) :
    (step : Step) → step.run (fun _ => resolver) before args = step.run (fun _ => resolver) [] args
  | .copy s => by rw [Step.run, Step.run]
  | .argument span consumed body => by
    rw [Step.run, Step.run, runSteps_resolver resolver before []]
  | .ignored name text => by rw [Step.run, Step.run]
  | .call name rawArgs => by rw [Step.run, Step.run]
  | .malformed e => by rw [Step.run, Step.run]

/-- A resolver carries out steps in the same way after any calls. -/
theorem runSteps_resolver (resolver : Resolver ε) (before : List Call) (args : List Text) :
    (steps : List Step) → runSteps (fun _ => resolver) before args steps =
      runSteps (fun _ => resolver) [] args steps
  | [] => by rw [runSteps_nil, runSteps_nil]
  | step :: rest => by
    rw [runSteps_cons, runSteps_cons, Step.run_resolver resolver before args step]
    congr 1
    funext next
    rw [runSteps_resolver resolver (before ++ _) next.1 rest,
      runSteps_resolver resolver ([] ++ _) next.1 rest]

end

/-! ### The text around a placeholder -/

/-- As long as nothing fails, the text around arguments does not matter. -/
theorem runSteps_input (input input' : Text) {oracle : Oracle ε} {before : List Call}
    {args : List Text} {events : List Event} {last : List Text × Text}
    (h : (runSteps oracle before args (events.map (Event.step limit depth input))).result =
      .ok last) :
    runSteps oracle before args (events.map (Event.step limit depth input')) =
      runSteps oracle before args (events.map (Event.step limit depth input)) := by
  induction events generalizing before args last with
  | nil => rfl
  | cons e events ih =>
    obtain ⟨next, last', hstep, hrest⟩ := ok_of_runSteps_cons_ok h
    have hinput : (Event.step limit depth input' e).run oracle before args =
        (Event.step limit depth input e).run oracle before args := by
      cases e with
      | argument text span =>
        rw [Event.step, Step.run] at hstep
        obtain ⟨value, hr, -⟩ := Run.ok_of_map_ok hstep
        have hok := Run.ok_of_relocate_ok hr
        rw [Event.step, Event.step, Step.run, Step.run, Run.relocate_of_ok hok,
          Run.relocate_of_ok hok]
      | fault f span =>
        rw [Event.step, Step.run] at hstep
        simp [Run.failed] at hstep
      | _ => rfl
    rw [List.map_cons, List.map_cons, runSteps_cons, runSteps_cons, hinput,
      Run.andThen_of_ok hstep, Run.andThen_of_ok hstep, ih hrest]

/-! ### No arguments are left over -/

/-- **Outside of placeholders no arguments are at hand.** -/
theorem args_eq_nil_of_passage {state last : State} {pos : Nat} {tokens : List Token}
    {events : List Event} (h : Passage limit depth state pos tokens events last)
    (hlast : last = .literal) (input : Text) {oracle : Oracle ε} {before : List Call}
    {args : List Text} (hargs : state = .literal → args = []) {out : List Text × Text}
    (hok : (runSteps oracle before args (events.map (Event.step limit depth input))).result =
      .ok out) : out.1 = [] := by
  induction h generalizing before args out with
  | nil =>
    rw [List.map_nil, runSteps_nil, Run.result_done, Except.ok.injEq] at hok
    rw [← hok]
    exact hargs hlast
  | @cons state next last pos token rest events events' hstep _ ih =>
    rw [List.map_append] at hok
    obtain ⟨mid, out', hmid, hok', hout⟩ := ok_of_runSteps_append_ok hok
    rw [← hout]
    refine ih hlast ?_ hok'
    intro hnext
    rcases State.advance_cases hstep with
      ⟨hstate, -, s, rfl⟩ | ⟨-, -, name, rawArgs, rfl⟩ | ⟨hne, -⟩
    · rw [List.map_singleton, Event.step, runSteps_copy_cons, runSteps_nil, Run.map_done,
        Run.result_done, Except.ok.injEq] at hmid
      rw [← hmid]
      exact hargs hstate
    · rw [List.map_singleton, Event.step, runSteps_cons, Step.run, Run.map_andThen] at hmid
      obtain ⟨answer, -, hmid⟩ := Run.ok_of_andThen_ok hmid
      rw [runSteps_nil, Run.map_done, Run.result_done, Except.ok.injEq] at hmid
      rw [← hmid]
    · exact absurd hnext hne

/-! ### Across the seam -/

/-- Two tokens stay apart, or they are runs of one kind. -/
theorem fuse_cases (s t : Token) :
    fuse s t = [s, t] ∨ ∃ u, fuse s t = [u] ∧ u.chars = s.chars ++ t.chars ∧
      u.spoken = s.spoken ++ t.spoken ∧ s ≠ .percent ∧ t ≠ .percent ∧ u ≠ .percent := by
  unfold fuse
  split
  · exact .inr ⟨_, rfl, rfl, rfl, by simp, by simp, by simp⟩
  · exact .inr ⟨_, rfl, rfl, rfl, by simp, by simp, by simp⟩
  · exact .inl rfl

theorem Passage.split {state last : State} {pos : Nat} {first second : List Token}
    {events : List Event} (h : Passage limit depth state pos (first ++ second) events last) :
    ∃ events₁ events₂ middle, events = events₁ ++ events₂ ∧
      Passage limit depth state pos first events₁ middle ∧
      Passage limit depth middle (pos + Token.totalWidth first) second events₂ last := by
  induction first generalizing state pos events with
  | nil => exact ⟨[], events, state, rfl, .nil, h⟩
  | cons t first ih =>
    cases h with
    | cons hstep hrest =>
      obtain ⟨events₁, events₂, middle, rfl, h₁, h₂⟩ := ih hrest
      refine ⟨_, events₂, middle, (List.append_assoc ..).symm, .cons hstep h₁, ?_⟩
      rwa [Token.totalWidth, ← Nat.add_assoc]

/-- A text can be copied in two parts. -/
theorem runSteps_copy_append (oracle : Oracle ε) (before : List Call) (args : List Text)
    (s t : Text) (rest : List Step) :
    runSteps oracle before args (.copy (s ++ t) :: rest) =
      runSteps oracle before args (.copy s :: .copy t :: rest) := by
  rw [runSteps_copy_cons, runSteps_copy_cons, runSteps_copy_cons, Run.map_map]
  simp only [List.append_assoc]

/-- **A run across the seam makes no difference.** -/
theorem runSteps_join {pos : Nat} {first : List Token} {events : List Event}
    (hread : Passage limit depth .literal pos first events .literal) (second : List Token)
    (oracle : Oracle ε) (before : List Call) (args : List Text) (input : Text) :
    runSteps oracle before args
        ((outlineFrom limit depth .literal pos (join first second)).map
          (Event.step limit depth input)) =
      runSteps oracle before args
        ((events ++ outlineFrom limit depth .literal (pos + Token.totalWidth first) second).map
          (Event.step limit depth input)) := by
  cases second with
  | nil =>
    have h := hread.outlineFrom_append []
    rw [List.append_nil] at h
    rw [Token.join_nil, h]
  | cons t second =>
    rcases List.eq_nil_or_concat first with rfl | ⟨front, s, rfl⟩
    · cases hread
      rfl
    · rw [List.concat_eq_append] at hread ⊢
      rw [Token.join_append front (List.cons_ne_nil _ _), join]
      rcases fuse_cases s t with hst | ⟨u, hu, hchars, hspoken, hs, ht, hup⟩
      · rw [hst, ← hread.outlineFrom_append, List.append_assoc]
        rfl
      · obtain ⟨events₁, events₂, middle, hevents, h₁, h₂⟩ := hread.split
        -- the reader is outside of placeholders before the run as well
        obtain rfl : middle = .literal := by
          cases h₂ with
          | cons hstep hrest =>
            cases hrest
            rcases State.advance_cases hstep with ⟨hmiddle, -⟩ | ⟨hpercent, -⟩ | ⟨hne, -⟩
            · exact hmiddle
            · exact absurd hpercent hs
            · exact absurd rfl hne
        have hleft := h₁.outlineFrom_append (u :: second)
        have hright := h₁.outlineFrom_append (s :: t :: second)
        have hwidth (p : Nat) : p + u.width = p + s.width + t.width := by
          rw [Token.width, hchars, Text.byteLength_append, ← Nat.add_assoc]
          rfl
        rw [outlineFrom_cons_literal _ _ hup, hwidth, hspoken] at hleft
        rw [outlineFrom_cons_literal _ _ hs, outlineFrom_cons_literal _ _ ht] at hright
        rw [hu, ← hread.outlineFrom_append, List.append_assoc]
        show runSteps oracle before args ((outlineFrom _ _ _ _ (front ++ u :: second)).map _) =
          runSteps oracle before args ((outlineFrom _ _ _ _ (front ++ s :: t :: second)).map _)
        rw [hleft, hright, List.map_append, List.map_append, runSteps_append, runSteps_append]
        congr 1
        funext next
        rw [List.map_cons, List.map_cons, List.map_cons, Event.step, Event.step, Event.step,
          runSteps_copy_append]

/-! ### Two templates -/

/-- **The plan of two texts in a row** is carried out like the plan of the first and then that of
the second, as seen behind the first. -/
theorem runSteps_plan_append {resolver : Resolver ε} {a : Text} {last : List Text × Text}
    (hok : (runSteps (fun _ => resolver) [] [] (plan limit depth a)).result = .ok last)
    (hseam : .backslash ∉ scan a) (b : Text) :
    runSteps (fun _ => resolver) [] [] (plan limit depth (a ++ b)) =
      (runSteps (fun _ => resolver) [] [] (plan limit depth a)).andThen fun next =>
        ((runSteps (fun _ => resolver) [] [] (plan limit depth b)).shift a).map
          fun last => (last.1, next.2 ++ last.2) := by
  have hread := passage_of_runSteps_ok hok
  rw [plan_eq limit depth a] at hok ⊢
  have hargs : last.1 = [] := args_eq_nil_of_passage hread rfl a (fun _ => rfl) hok
  have hbehind : outlineFrom limit depth .literal (0 + Token.totalWidth (scan a)) (scan b) =
      (outline limit depth b).map (Event.shift a.byteLength) := by
    rw [Nat.zero_add, Token.totalWidth_scan]
    exact outlineFrom_shift limit depth a.byteLength .literal 0 (scan b)
  rw [plan_eq, outline, Token.scan_append a b hseam, runSteps_join hread, hbehind, List.map_append,
    runSteps_append, runSteps_input a (a ++ b) hok, Run.andThen_of_ok hok, Run.andThen_of_ok hok,
    hargs, runSteps_shift, ← plan_eq limit depth b, runSteps_resolver resolver ([] ++ _)]

/-- **Two templates in a row.** If the first one expands and does not end in a lone backslash, then
both together make the calls and give the warnings of the first and then those of the second, and
the output is that of the first and then that of the second. A fault of the second is the same fault
behind the first: the range that it concerns is moved by the length of the first template, which has
been read before it. If a call of the second is refused, then it is refused here as well. The
resolver's error comes out unchanged if it is no fault of a template, and if the call lies outside
of arguments. A fault of the resolver's own that comes out of an argument concerns that argument,
and it is moved as well. -/
theorem expand_append (limit : Nat) (resolver : Resolver ε) (a b : Text)
    {out : Text} (hok : (expand limit resolver a).result = .ok out)
    (hseam : (scan a).getLast? ≠ some .backslash) :
    let first := expand limit resolver a
    let second := expand limit resolver b
    let whole := expand limit resolver (a ++ b)
    whole.calls = first.calls ++ second.calls ∧
    whole.warnings = first.warnings ++ second.warnings ∧
    (∀ out', second.result = .ok out' → whole.result = .ok (out ++ out')) ∧
    (∀ e, second.result = .error (.malformed e) → whole.result = .error (.malformed
      { fault := e.fault
        span := ⟨a.byteLength + e.span.start, a.byteLength + e.span.stop⟩
        consumed := a ++ e.consumed })) ∧
    (∀ e, second.outcome = .error (.other e) → whole.outcome = .error (.other e)) ∧
    (∀ e, second.result = .error (.refused e none) →
      second.outcome = .error e ∧ whole.outcome = .error e) ∧
    ∀ e place, second.result = .error (.refused (.malformed e) (some place)) →
      second.outcome = .error (.malformed
        { fault := e.fault, span := place.span, consumed := place.consumed }) ∧
      whole.outcome = .error (.malformed
        { fault := e.fault
          span := ⟨a.byteLength + place.span.start, a.byteLength + place.span.stop⟩
          consumed := a ++ place.consumed }) := by
  intro first second whole
  obtain ⟨last, hlast, rfl⟩ := Run.ok_of_map_ok hok
  have hplan := runSteps_plan_append hlast
    (fun h => hseam (Token.getLast?_scan_of_backslash_mem a h)) b
  rw [Run.andThen_of_ok hlast] at hplan
  have hwhole : whole = (runSteps _ [] [] (plan limit 0 (a ++ b))).map Prod.snd := rfl
  have hsecond : second = (runSteps _ [] [] (plan limit 0 b)).map Prod.snd := rfl
  rw [hplan] at hwhole
  -- what the second template fails with, the whole fails with behind the first
  have hfailure : ∀ reason, second.result = .error reason →
      whole.result = .error (reason.shift a) := by
    intro reason h
    rw [hsecond] at h
    rw [hwhole]
    simp only [Run.result_map, Run.shift, Run.result_mapFailure, Run.error_of_map_error h]
    rfl
  have hrefused : ∀ e place, second.result = .error (.refused e place) →
      second.outcome = .error (Failure.refused e place).error ∧
        whole.outcome = .error (Failure.refused e (place.map (Location.shift a))).error :=
    fun e place h => ⟨Run.outcome_of_error h, Run.outcome_of_error (hfailure _ h)⟩
  refine ⟨by rw [hwhole]; rfl, by rw [hwhole]; rfl, fun out' h => ?_, fun e h => hfailure _ h,
    fun e h => ?_, fun e h => hrefused e none h, fun e place h => hrefused _ _ h⟩
  · rw [hsecond] at h
    obtain ⟨last', hlast', rfl⟩ := Run.ok_of_map_ok h
    rw [hwhole]
    simp only [Run.result_map, Run.shift, Run.result_mapFailure, hlast']
    rfl
  · obtain ⟨place, hsecond⟩ := Run.refused_of_outcome_other h
    obtain ⟨-, hout⟩ := hrefused _ place hsecond
    cases place <;> exact hout

/-- An unterminated placeholder behind a template of six bytes. -/
theorem expand_append_of_unterminated :
    (expand 0 .passthrough "é %f%".toList : Run Empty Text).result = .ok "é %f%".toList ∧
    (scan "é %f%".toList).getLast? ≠ some .backslash ∧
    (expand 0 .passthrough ("é %f%".toList ++ "%g(x".toList) : Run Empty Text).result =
      .error (.malformed ⟨.unterminatedArgs ['g'], ⟨6, 10⟩, "é %f%%g(x".toList⟩) := by
  have hok : (expand 0 .passthrough "é %f%".toList : Run Empty Text).result =
      .ok "é %f%".toList := by decide +kernel
  have hseam : (scan "é %f%".toList).getLast? ≠ some .backslash := by decide +kernel
  have hfault : (expand 0 .passthrough "%g(x".toList : Run Empty Text).result =
      .error (.malformed ⟨.unterminatedArgs ['g'], ⟨0, 4⟩, "%g(x".toList⟩) := by decide +kernel
  obtain ⟨-, -, -, hbehind, -⟩ := expand_append 0 .passthrough _ "%g(x".toList hok hseam
  exact ⟨hok, hseam, hbehind _ hfault⟩

/-- The resolver refuses `B` with a fault of its own. Behind `x` it comes out of the argument as a
fault of the template, neither unchanged nor as it comes out of `%A(%B%)%` by itself. -/
theorem expand_append_of_own_fault :
    let own : SyntaxError := ⟨.missingName, ⟨7, 9⟩, "%greet%%%".toList⟩
    let resolver : Resolver Empty := fun call =>
      if call.name = ['B'] then .error (.malformed own) else .ok call.passthrough
    (expand 1 resolver ['x']).result = .ok ['x'] ∧
    (expand 1 resolver "%A(%B%)%".toList).outcome =
      .error (.malformed ⟨.missingName, ⟨0, 6⟩, "%A(%B%".toList⟩) ∧
    (expand 1 resolver ('x' :: "%A(%B%)%".toList)).outcome =
      .error (.malformed ⟨.missingName, ⟨1, 7⟩, "x%A(%B%".toList⟩) ∧
    (expand 1 resolver ('x' :: "%A(%B%)%".toList)).outcome ≠ .error (.malformed own) := by
  decide +kernel

end Template

end TabFormat
