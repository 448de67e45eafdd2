import Mathlib.Data.List.Basic
import TabFormat.Format
import TabFormat.Proofs.Runs

/-!
# The course of an expansion

What happens when a template is expanded is decided by its syntax: which placeholders are called in
which order, with which names, source texts and numbers of arguments, which warnings are given, and
whether and where a fault shows. The texts that are answered only show in the arguments of later
calls and in the output, whatever they contain. An oracle that refuses a call ends the run there.

The proof compares the run of a plan with any oracle to its run with an oracle that answers
everything, step by step (`Step.run_shadows`, `runSteps_shadows`). The oracles need not agree on
anything, and each may look at the calls made before. What comes out if a call is refused depends on
the error and on where the call lies, which the plan says as well (`callPlaces`).

## Main definitions

* `Call.shape` : what a call shows of the template.
* `Run.SameCourse` : two runs that differ in answered texts only.
* `Run.Shadows` : a run that takes the course of another one, or stops short at a refused call.
* `callPlaces` : the arguments that the calls of a plan lie in.

## Main results

* `runSteps_shadows` : every run of a plan shadows every run of it in which nothing is refused.
* `runSteps_located` : a refused call lies where the plan says.
* `course_of_template` : the syntax of a template decides the course of its expansion.
-/

namespace TabFormat

namespace Template

/-- What a call shows of the template: its name, its source text and its number of arguments. -/
def Call.shape (call : Call) : Text × Text × Nat :=
  (call.name, call.rawArgs, call.args.length)

namespace Oracle

/-- The oracle that answers every call. -/
def answering {ε : Type} (answer : List Call → Call → Text) : Oracle ε :=
  fun before call => .ok (answer before call)

/-- Each call of a list was answered, in the light of the calls before it. -/
def Answers {ε : Type} (oracle : Oracle ε) (before calls : List Call) : Prop :=
  ∀ earlier call later, calls = earlier ++ call :: later →
    ∃ answer, oracle (before ++ earlier) call = .ok answer

variable {ε : Type} {oracle : Oracle ε} {before : List Call}

theorem answers_nil : oracle.Answers before [] := by
  intro earlier call later h
  simp at h

theorem answers_singleton {call : Call} {answer : Text} (h : oracle before call = .ok answer) :
    oracle.Answers before [call] := by
  intro earlier call' later heq
  obtain ⟨rfl, hc⟩ : earlier = [] ∧ [call] = call' :: later := by
    cases earlier with
    | nil => exact ⟨rfl, heq⟩
    | cons c earlier => simp at heq
  obtain ⟨rfl, rfl⟩ := List.cons.inj hc
  exact ⟨answer, by rwa [List.append_nil]⟩

theorem Answers.append {first second : List Call} (hf : oracle.Answers before first)
    (hs : oracle.Answers (before ++ first) second) : oracle.Answers before (first ++ second) := by
  intro earlier call later heq
  obtain ⟨more, rfl, hm⟩ | ⟨more, rfl, hm⟩ := List.append_eq_append_iff.mp heq
  · obtain ⟨answer, ha⟩ := hs more call later hm
    exact ⟨answer, by rwa [← List.append_assoc]⟩
  · cases more with
    | nil =>
      obtain ⟨answer, ha⟩ := hs [] call later hm.symm
      refine ⟨answer, ?_⟩
      rwa [List.append_nil, List.append_nil] at ha
    | cons c more =>
      obtain ⟨rfl, rfl⟩ := List.cons.inj hm
      exact hf earlier call more rfl

end Oracle

namespace Run

variable {ε ε' α β γ δ : Type}

/-- Two runs make calls of the same shapes and give the same warnings, and both succeed, with
results that are related, or both meet the same fault. -/
structure SameCourse (R : α → β → Prop) (first : Run ε α) (second : Run ε' β) : Prop where
  /-- The calls differ in the texts of arguments only. -/
  shapes : first.calls.map Call.shape = second.calls.map Call.shape
  /-- The warnings are the same. -/
  warnings : first.warnings = second.warnings
  /-- The outcomes are of one kind, and a fault is the same fault. -/
  outcome : (∃ a b, first.result = .ok a ∧ second.result = .ok b ∧ R a b) ∨
    ∃ e, first.result = .error (.malformed e) ∧ second.result = .error (.malformed e)

/-- A run that ends with the first call that the oracle refuses, having made the first calls of
another run. -/
def StopsShort (oracle : Oracle ε) (before : List Call) (run : Run ε α) (full : Run ε' β) : Prop :=
  ∃ earlier call e place, run.calls = earlier ++ [call] ∧ oracle.Answers before earlier ∧
    oracle (before ++ earlier) call = .error e ∧ run.result = .error (.refused e place) ∧
    run.calls.map Call.shape <+: full.calls.map Call.shape ∧ run.warnings <+: full.warnings

/-- A run takes the course of another one and no call is refused, or it stops short. -/
def Shadows (R : α → β → Prop) (oracle : Oracle ε) (before : List Call) (run : Run ε α)
    (full : Run ε' β) : Prop :=
  (run.SameCourse R full ∧ oracle.Answers before run.calls) ∨ run.StopsShort oracle before full

variable {R : α → β → Prop} {S : γ → δ → Prop} {oracle : Oracle ε} {before : List Call}
  {run : Run ε α} {full : Run ε' β}

theorem shadows_done {a : α} {b : β} (h : R a b) :
    (done a : Run ε α).Shadows R oracle before (done b : Run ε' β) :=
  .inl ⟨⟨rfl, rfl, .inl ⟨a, b, rfl, rfl, h⟩⟩, Oracle.answers_nil⟩

theorem shadows_malformed (e : SyntaxError) :
    (failed (.malformed e) : Run ε α).Shadows R oracle before
      (failed (.malformed e) : Run ε' β) :=
  .inl ⟨⟨rfl, rfl, .inr ⟨e, rfl, rfl⟩⟩, Oracle.answers_nil⟩

theorem SameCourse.map (h : run.SameCourse R full) {f : α → γ} {g : β → δ}
    (hfg : ∀ a b, R a b → S (f a) (g b)) : (run.map f).SameCourse S (full.map g) := by
  refine ⟨h.shapes, h.warnings, ?_⟩
  rcases h.outcome with ⟨a, b, ha, hb, hab⟩ | ⟨e, ha, hb⟩
  · exact .inl ⟨f a, g b, by rw [result_map, ha]; rfl, by rw [result_map, hb]; rfl, hfg a b hab⟩
  · exact .inr ⟨e, by rw [result_map, ha]; rfl, by rw [result_map, hb]; rfl⟩

theorem Shadows.map (h : run.Shadows R oracle before full) {f : α → γ} {g : β → δ}
    (hfg : ∀ a b, R a b → S (f a) (g b)) :
    (run.map f).Shadows S oracle before (full.map g) := by
  rcases h with ⟨hc, ha⟩ | ⟨earlier, call, e, place, hc, ha, ho, hr, hs, hw⟩
  · exact .inl ⟨hc.map hfg, ha⟩
  · exact .inr ⟨earlier, call, e, place, hc, ha, ho, by rw [result_map, hr]; rfl, hs, hw⟩

theorem Shadows.relocate (h : run.Shadows R oracle before full) (span : Span) (consumed : Text) :
    (run.relocate span consumed).Shadows R oracle before (full.relocate span consumed) := by
  rcases h with ⟨hc, ha⟩ | ⟨earlier, call, e, place, hc, ha, ho, hr, hs, hw⟩
  · refine .inl ⟨⟨?_, ?_, ?_⟩, by rwa [calls_relocate]⟩
    · rw [calls_relocate, calls_relocate, hc.shapes]
    · rw [warnings_relocate, warnings_relocate, hc.warnings]
    · rcases hc.outcome with ⟨a, b, ha, hb, hab⟩ | ⟨e, ha, hb⟩
      · rw [relocate_of_ok ha, relocate_of_ok hb]
        exact .inl ⟨a, b, ha, hb, hab⟩
      · exact .inr ⟨_, result_relocate_malformed ha span consumed,
          result_relocate_malformed hb span consumed⟩
  · exact .inr ⟨earlier, call, e, some ⟨span, consumed⟩, hc, ha, ho,
      result_relocate_refused hr span consumed, by rwa [calls_relocate, calls_relocate],
      by rwa [warnings_relocate, warnings_relocate]⟩

/-- The calls of a run that stops short are the first calls of the other one. -/
theorem StopsShort.shapes_eq_take {earlier : List Call} {call : Call}
    (hc : run.calls = earlier ++ [call])
    (hs : run.calls.map Call.shape <+: full.calls.map Call.shape) :
    run.calls.map Call.shape = (full.calls.map Call.shape).take (earlier.length + 1) := by
  rw [List.prefix_iff_eq_take.mp hs, List.length_map, hc, List.length_append,
    List.length_singleton]

theorem Shadows.andThen (h : run.Shadows R oracle before full) {next : α → Run ε γ}
    {next' : β → Run ε' δ}
    (hn : ∀ a b, R a b → (next a).Shadows S oracle (before ++ run.calls) (next' b)) :
    (run.andThen next).Shadows S oracle before (full.andThen next') := by
  rcases h with ⟨hc, ha⟩ | ⟨earlier, call, e, place, hc, ha, ho, hr, hs, hw⟩
  · rcases hc.outcome with ⟨a, b, hra, hrb, hab⟩ | ⟨e, hra, hrb⟩
    · rw [andThen_of_ok hra, andThen_of_ok hrb]
      rcases hn a b hab with ⟨hc', ha'⟩ | ⟨earlier, call, e, place, hc', ha', ho, hr, hs, hw⟩
      · refine .inl ⟨⟨?_, ?_, hc'.outcome⟩, ha.append ha'⟩
        · rw [List.map_append, List.map_append, hc.shapes, hc'.shapes]
        · rw [hc.warnings, hc'.warnings]
      · refine .inr ⟨run.calls ++ earlier, call, e, place, ?_, ha.append ha', ?_, hr, ?_, ?_⟩
        · rw [hc', List.append_assoc]
        · rw [← List.append_assoc]
          exact ho
        · rw [List.map_append, List.map_append, hc.shapes]
          exact (List.prefix_append_right_inj _).mpr hs
        · rw [hc.warnings]
          exact (List.prefix_append_right_inj _).mpr hw
    · rw [andThen_of_error hra, andThen_of_error hrb]
      exact .inl ⟨⟨hc.shapes, hc.warnings, .inr ⟨e, rfl, rfl⟩⟩, ha⟩
  · rw [andThen_of_error hr]
    exact .inr ⟨earlier, call, e, place, hc, ha, ho, rfl,
      hs.trans ((calls_prefix_andThen full next').map _),
      hw.trans (warnings_prefix_andThen full next')⟩

end Run

/-! ### A plan takes one course -/

variable {ε ε' : Type}

/-- A call is answered, or the run ends with it. -/
theorem Call.run_shadows (oracle : Oracle ε) (before before' : List Call)
    (answer : List Call → Call → Text) {call call' : Call} (h : call.shape = call'.shape) :
    (Call.run (oracle before) call).Shadows (fun _ _ => True) oracle before
      (Call.run ((Oracle.answering answer : Oracle ε') before') call') := by
  have hs : [call].map Call.shape = [call'].map Call.shape := by
    rw [List.map_singleton, List.map_singleton, h]
  cases ho : oracle before call with
  | ok s =>
    refine .inl ⟨⟨hs, rfl, .inl ⟨s, answer before' call', ?_, rfl, trivial⟩⟩,
      Oracle.answers_singleton ho⟩
    rw [Call.run, ho]
    rfl
  | error e =>
    refine .inr ⟨[], call, e, none, rfl, Oracle.answers_nil, by rwa [List.append_nil], ?_, ?_,
      List.prefix_rfl⟩
    · rw [Call.run, ho]
      rfl
    · exact hs ▸ List.prefix_rfl

mutual

/-- A step with any oracle shadows the step with an oracle that refuses nothing, if the numbers of
arguments at hand agree, and then they agree afterwards. -/
theorem Step.run_shadows (oracle : Oracle ε) (before before' : List Call)
    (answer : List Call → Call → Text) {args args' : List Text} (h : args.length = args'.length) :
    (step : Step) → (step.run oracle before args).Shadows (fun p q => p.1.length = q.1.length)
      oracle before (step.run (Oracle.answering answer : Oracle ε') before' args')
  | .copy s => by
    rw [Step.run, Step.run]
    exact Run.shadows_done h
  | .argument span consumed body => by
    rw [Step.run, Step.run]
    have hnil : ([] : List Text).length = ([] : List Text).length := rfl
    have hb := runSteps_shadows oracle before before' answer hnil body
    refine (hb.relocate span consumed).map fun a b _ => ?_
    simp only [List.length_append, h, List.length_singleton]
  | .ignored name text => by
    rw [Step.run, Step.run]
    exact .inl ⟨⟨rfl, rfl, .inl ⟨_, _, rfl, rfl, h⟩⟩, Oracle.answers_nil⟩
  | .call name rawArgs => by
    rw [Step.run, Step.run]
    refine (Call.run_shadows oracle before before' answer ?_).map fun _ _ _ => rfl
    simp only [Call.shape, h]
  | .malformed e => by
    rw [Step.run, Step.run]
    exact Run.shadows_malformed e

/-- The run of a plan with any oracle shadows its run with an oracle that refuses nothing. -/
theorem runSteps_shadows (oracle : Oracle ε) (before before' : List Call)
    (answer : List Call → Call → Text) {args args' : List Text} (h : args.length = args'.length) :
    (steps : List Step) →
      (runSteps oracle before args steps).Shadows (fun p q => p.1.length = q.1.length)
        oracle before (runSteps (Oracle.answering answer : Oracle ε') before' args' steps)
  | [] => by
    rw [runSteps_nil, runSteps_nil]
    exact Run.shadows_done h
  | step :: rest => by
    rw [runSteps_cons, runSteps_cons]
    refine (Step.run_shadows oracle before before' answer h step).andThen fun next next' hn => ?_
    exact (runSteps_shadows oracle _ _ answer hn rest).map fun _ _ hl => hl

end

theorem consult_shadows (limit : Nat) (oracle : Oracle ε) (answer : List Call → Call → Text)
    (template : Text) :
    (consult limit oracle template).Shadows (fun _ _ => True) oracle []
      (consult limit (Oracle.answering answer : Oracle ε') template) :=
  (runSteps_shadows oracle [] [] answer rfl _).map fun _ _ _ => trivial

/-! ### Where a call lies -/

mutual

/-- Where the calls of a step lie: for each call, the place of the argument that it lies in, or
nothing if it lies outside of arguments. -/
def Step.callPlaces : Step → List (Option Location)
  | .copy _ => []
  | .argument span consumed body => (Template.callPlaces body).map fun _ => some ⟨span, consumed⟩
  | .ignored _ _ => []
  | .call _ _ => [none]
  | .malformed _ => []

/-- Where the calls of steps lie. -/
def callPlaces : List Step → List (Option Location)
  | [] => []
  | step :: rest => step.callPlaces ++ callPlaces rest

end

namespace Run

variable {α β : Type}

/-- The calls of a run lie in the places of a list: a run that succeeds makes them all, and a call
that is refused lies in its place. -/
structure Located (run : Run ε α) (places : List (Option Location)) : Prop where
  /-- There is a place for each call. -/
  length_eq : ∀ a, run.result = .ok a → run.calls.length = places.length
  /-- The last call is the one that is refused. -/
  refused : ∀ e place, run.result = .error (.refused e place) →
    ∃ earlier call, run.calls = earlier ++ [call] ∧ places[earlier.length]? = some place

variable {run : Run ε α} {places : List (Option Location)}

theorem Located.map (h : run.Located places) (f : α → β) : (run.map f).Located places where
  length_eq b hb := by
    obtain ⟨a, ha, -⟩ := ok_of_map_ok hb
    exact h.length_eq a ha
  refused e place hr := h.refused e place (error_of_map_error hr)

theorem Located.relocate (h : run.Located places) (span : Span) (consumed : Text) :
    (run.relocate span consumed).Located (places.map fun _ => some ⟨span, consumed⟩) where
  length_eq a ha := by
    rw [calls_relocate, List.length_map, h.length_eq a (ok_of_relocate_ok ha)]
  refused e place hr := by
    obtain ⟨⟨inner, hinner⟩, rfl⟩ := refused_of_relocate_refused hr
    obtain ⟨earlier, call, hcalls, hplace⟩ := h.refused e inner hinner
    exact ⟨earlier, call, hcalls, by rw [List.getElem?_map, hplace]; rfl⟩

theorem Located.andThen (h : run.Located places) {next : α → Run ε β}
    {rest : List (Option Location)} (hn : ∀ a, run.result = .ok a → (next a).Located rest) :
    (run.andThen next).Located (places ++ rest) := by
  cases hr : run.result with
  | error reason =>
    rw [andThen_of_error hr]
    refine ⟨fun b hb => by simp at hb, fun e place he => ?_⟩
    obtain rfl : reason = .refused e place := Except.error.inj he
    obtain ⟨earlier, call, hcalls, hplace⟩ := h.refused e place hr
    exact ⟨earlier, call, hcalls, List.getElem?_append_left
      (List.getElem?_eq_some_iff.mp hplace).1 |>.trans hplace⟩
  | ok a =>
    have hlength := h.length_eq a hr
    rw [andThen_of_ok hr]
    refine ⟨fun b hb => ?_, fun e place he => ?_⟩
    · rw [List.length_append, List.length_append, hlength, (hn a hr).length_eq b hb]
    · obtain ⟨earlier, call, hcalls, hplace⟩ := (hn a hr).refused e place he
      refine ⟨run.calls ++ earlier, call, by rw [hcalls, List.append_assoc], ?_⟩
      rw [List.length_append, hlength, List.getElem?_append_right (Nat.le_add_right _ _),
        Nat.add_sub_cancel_left, hplace]

end Run

mutual

theorem Step.run_located (oracle : Oracle ε) (before : List Call) (args : List Text) :
    (step : Step) → (step.run oracle before args).Located step.callPlaces
  | .copy s => by
    rw [Step.run, Step.callPlaces]
    exact ⟨fun _ _ => rfl, fun e place h => by simp at h⟩
  | .argument span consumed body => by
    rw [Step.run, Step.callPlaces]
    exact ((runSteps_located oracle before [] body).relocate span consumed).map _
  | .ignored name text => by
    rw [Step.run, Step.callPlaces]
    exact ⟨fun _ _ => rfl, fun e place h => by simp at h⟩
  | .call name rawArgs => by
    rw [Step.run, Step.callPlaces]
    refine Run.Located.map ⟨fun _ _ => rfl, fun e place h => ⟨[], _, rfl, ?_⟩⟩ _
    obtain ⟨_, _, hreason⟩ := Call.refused_of_run_error h
    cases hreason
    rfl
  | .malformed e => by
    rw [Step.run, Step.callPlaces]
    exact ⟨fun _ _ => rfl, fun e place h => by simp [Run.failed] at h⟩

/-- **The place of a call that is refused** is the one that the plan has for it. -/
theorem runSteps_located (oracle : Oracle ε) (before : List Call) (args : List Text) :
    (steps : List Step) → (runSteps oracle before args steps).Located (callPlaces steps)
  | [] => by
    rw [runSteps_nil, callPlaces]
    exact ⟨fun _ _ => rfl, fun e place h => by simp at h⟩
  | step :: rest => by
    rw [runSteps_cons, callPlaces]
    exact (Step.run_located oracle before args step).andThen fun next _ =>
      (runSteps_located oracle _ next.1 rest).map _

end

end Template

open Template

/-! ### Checking and formatting -/

/-- A call is refused with an error of another kind. -/
theorem Context.answer_of_resolver_error {ctx : Context} {call : Call} {e : Error ReplaceError}
    (h : ctx.resolver call = .error e) : ∃ err, ctx.answer call = .error err ∧ e = .other err := by
  rw [resolver] at h
  cases hanswer : ctx.answer call with
  | ok s =>
    rw [hanswer] at h
    cases h
  | error err =>
    rw [hanswer] at h
    exact ⟨err, rfl, (Except.error.inj h).symm⟩

/-- Only functions refuse calls. -/
theorem Context.function_of_answer_error {ctx : Context} {call : Call} {err : ReplaceError}
    (hanswer : ctx.answer call = .error err) :
    ∃ f : Function, (Builtin.lookup call.name = some (.function f) ∨
      Builtin.lookupHtmlSuffixed call.name = some (.function f)) ∧ f.apply call = .error err := by
  rw [answer] at hanswer
  split at hanswer
  · rename_i b hb
    cases b with
    | function f => exact ⟨f, .inl hb, hanswer⟩
    | field f => simp [Context.apply] at hanswer
  · split at hanswer
    · rename_i b hb
      cases b with
      | function f =>
        cases hf : f.apply call with
        | ok s => simp [Context.apply, hf, Except.map] at hanswer
        | error err' =>
          simp only [Context.apply, hf, Except.map, Except.error.injEq] at hanswer
          exact ⟨f, .inr hb, by rw [hf, hanswer]⟩
      | field f => simp [Context.apply, Except.map] at hanswer
    · simp at hanswer

/-- Formatting a tab shadows the check of the template, under the same limit. -/
theorem formatTab_shadows (template : Text) {checked settings : Settings}
    (h : checked.maxDepth = settings.maxDepth) (times : Times) (tab : Tab) :
    (formatTab template settings times tab).Shadows (fun _ _ => True)
      (fun _ => Context.resolver ⟨tab, settings.eol, times⟩) []
      (checkTemplate template checked) := by
  have hs : Run.Shadows _ _ _ _
      (consult settings.maxDepth (.answering _ : Oracle Empty) template) :=
    consult_shadows settings.maxDepth (fun _ => Context.resolver ⟨tab, settings.eol, times⟩)
      (fun _ call => call.passthrough) template
  rw [formatTab, Run.andThen_done, checkTemplate, h]
  rw [← Run.map_id (expand settings.maxDepth Resolver.passthrough template)]
  exact hs.map fun _ _ _ => trivial

/-- **The syntax of a template decides the course of its expansion.** Two oracles that refuse
nothing see calls of the same shapes in the same order, and both runs give the same warnings and
end alike, in a fault if and only if the other does, and then in the same one. An oracle that
refuses a call sees the first calls of any such run, up to the one that it refuses. Its error comes
out unchanged if it is no fault of a template, and if the call lies outside of arguments; otherwise
the fault comes out with the place of the argument that the call lies in. So no tab makes a template
fail that passes the check; and where the check finds a fault, formatting finds it as well, unless a
function refuses one of the calls before it. -/
theorem course_of_template (limit : Nat) (template : Text) :
    (∀ (ε₁ ε₂ : Type) (answer₁ answer₂ : List Call → Call → Text),
      (consult limit (.answering answer₁ : Oracle ε₁) template).SameCourse (fun _ _ => True)
        (consult limit (.answering answer₂ : Oracle ε₂) template)) ∧
    (∀ (ε ε' : Type) (oracle : Oracle ε) (answer : List Call → Call → Text),
      let run := consult limit oracle template
      let full := consult limit (.answering answer : Oracle ε') template
      (run.SameCourse (fun _ _ => True) full ∧ oracle.Answers [] run.calls) ∨
      ∃ earlier call e place, run.calls = earlier ++ [call] ∧ oracle.Answers [] earlier ∧
        oracle earlier call = .error e ∧ run.result = .error (.refused e place) ∧
        (callPlaces (plan limit 0 template))[earlier.length]? = some place ∧
        (∀ err, e = .other err → run.outcome = .error e) ∧
        (place = none → run.outcome = .error e) ∧
        (∀ fault l, e = .malformed fault → place = some l →
          run.outcome = .error (.malformed
            { fault := fault.fault, span := l.span, consumed := l.consumed })) ∧
        run.calls.map Call.shape = (full.calls.map Call.shape).take (earlier.length + 1) ∧
        run.warnings <+: full.warnings) ∧
    (∀ (checked settings : Settings) (times : Times) (tab : Tab),
      checked.maxDepth = limit → settings.maxDepth = limit →
      let check := checkTemplate template checked
      let format := formatTab template settings times tab
      ((∃ s, check.outcome = .ok s) → ∀ e, format.outcome ≠ .error (.malformed e)) ∧
      ∀ e, check.outcome = .error (.malformed e) →
        format.outcome = .error (.malformed e) ∨
        ∃ earlier call err, ∃ f : Function, format.calls = earlier ++ [call] ∧
          format.calls.map Call.shape = (check.calls.map Call.shape).take (earlier.length + 1) ∧
          (Builtin.lookup call.name = some (.function f) ∨
            Builtin.lookupHtmlSuffixed call.name = some (.function f)) ∧
          f.apply call = .error err ∧ format.outcome = .error (.other err)) := by
  refine ⟨fun ε₁ ε₂ answer₁ answer₂ => ?_, fun ε ε' oracle answer => ?_,
    fun checked settings times tab hc hs => ?_⟩
  · rcases consult_shadows limit (.answering answer₁ : Oracle ε₁) answer₂ template with
      ⟨h, _⟩ | ⟨earlier, call, e, _, _, _, ho, _⟩
    · exact h
    · simp [Oracle.answering] at ho
  · rcases consult_shadows limit oracle answer template with h | h
    · exact .inl h
    · obtain ⟨earlier, call, e, place, hc, ha, ho, hr, hs, hw⟩ := h
      have hlocated := (runSteps_located oracle [] [] (plan limit 0 template)).map Prod.snd
      obtain ⟨earlier', call', hc', hplace⟩ := hlocated.refused e place hr
      obtain ⟨rfl, -⟩ := List.append_inj' (hc'.symm.trans hc) rfl
      have hout := Run.outcome_of_error hr
      refine .inr ⟨earlier', call, e, place, hc, ha, ho, hr, hplace, ?_, ?_, ?_,
        Run.StopsShort.shapes_eq_take hc hs, hw⟩
      · rintro err rfl
        cases place <;> exact hout
      · rintro rfl
        exact hout
      · rintro fault l rfl rfl
        exact hout
  · rcases formatTab_shadows template (hc.trans hs.symm) times tab with
      ⟨h, -⟩ | ⟨earlier, call, e, place, hcalls, -, ho, hr, hshapes, -⟩
    · rcases h.outcome with ⟨a, b, ha, hb, -⟩ | ⟨e, ha, hb⟩
      · have hformat := Run.outcome_of_ok ha
        have hcheck := Run.outcome_of_ok hb
        exact ⟨fun _ e he => by simp [hformat] at he, fun e he => by simp [hcheck] at he⟩
      · have hformat := Run.outcome_of_error ha
        have hcheck := Run.outcome_of_error hb
        refine ⟨fun ⟨s, hok⟩ => by simp [hcheck] at hok, fun e' he => .inl ?_⟩
        obtain rfl := Error.malformed.inj (Except.error.inj (hcheck.symm.trans he))
        exact hformat
    · obtain ⟨err, hanswer, rfl⟩ := Context.answer_of_resolver_error ho
      obtain ⟨f, hf, hfe⟩ := Context.function_of_answer_error hanswer
      have hout : (formatTab template settings times tab).outcome = .error (.other err) := by
        rw [Run.outcome_of_error hr]
        cases place <;> rfl
      exact ⟨fun _ e he => by simp [hout] at he, fun e he => .inr ⟨earlier, call, err, f, hcalls,
        Run.StopsShort.shapes_eq_take hcalls hshapes, hf, hfe, hout⟩⟩

/-- A title that reads like the beginning of a placeholder does no harm. -/
theorem course_of_title_with_percent :
    (∃ s, (checkTemplate "%ANY(%TITLE%)%".toList {}).outcome = .ok s) ∧
    ∀ e, (formatTab "%ANY(%TITLE%)%".toList {} ⟨[], []⟩
      { url := [], title := "%X('".toList }).outcome ≠ .error (.malformed e) := by
  have hresult : (checkTemplate "%ANY(%TITLE%)%".toList {}).result =
      .ok "%ANY(%TITLE%)%".toList := by decide +kernel
  have hcheck : ∃ s, (checkTemplate "%ANY(%TITLE%)%".toList {}).outcome = .ok s :=
    ⟨_, Run.outcome_of_ok hresult⟩
  obtain ⟨-, -, hformat⟩ := course_of_template defaultLimit "%ANY(%TITLE%)%".toList
  exact ⟨hcheck, (hformat {} {} _ _ rfl rfl).1 hcheck⟩

/-- The resolver refuses `B` with a fault of its own. It does not come out unchanged: the argument
that the call lies in takes the place of its range and of its text. -/
theorem course_of_own_fault :
    let own : SyntaxError := ⟨.missingName, ⟨7, 9⟩, "%greet%%%".toList⟩
    let resolver : Resolver Empty := fun call =>
      if call.name = ['B'] then .error (.malformed own) else .ok call.passthrough
    let run := expand defaultLimit resolver "%A(%B%)%".toList
    run.calls = [⟨['B'], [], []⟩] ∧ resolver ⟨['B'], [], []⟩ = .error (.malformed own) ∧
    run.outcome = .error (.malformed ⟨.missingName, ⟨0, 6⟩, "%A(%B%".toList⟩) ∧
    run.outcome ≠ .error (.malformed own) := by
  decide +kernel

end TabFormat
