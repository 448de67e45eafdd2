import Mathlib.Data.List.Forall2
import TabFormat.Proofs.Arguments

/-!
# The limit of nesting

The limit decides only whether a placeholder may open. A larger limit leads to the same run, unless
a placeholder lies too deep for the smaller one: then the smaller one cuts the run short at that
placeholder. The calls that a run makes are those of the first placeholders of the plan, and a plan
has no placeholder that lies deeper than the limit.

## Main definitions

* `Run.CutShort` : a run under a limit, compared to a run under a larger one.
* `Occurrence`, `occurrences` : the placeholders of a plan with their levels.

## Main results

* `outlineFrom_of_limit_lt` : the outline of a text that lies too deep.
* `runSteps_plan_cutShort` : the plan of a text under two limits.
* `runSteps_follows` : the calls of a run are those of the first placeholders of the plan.
* `consult_of_limit_le` : the limit cuts an expansion short, and does nothing else.
-/

namespace TabFormat.Template

variable {ε α β : Type}

/-! ### Runs that are cut short -/

/-- What becomes of a run `run'` when the limit is lowered to `limit`: the run is the same, and no
placeholder lies too deep; or a placeholder does, and the run is cut short. -/
inductive Run.CutShort (limit : Nat) (run run' : Run ε α) : Prop where
  /-- Both runs are the same. -/
  | same (heq : run' = run)
      (hfault : ∀ e n, run.result = .error (.malformed e) → e.fault ≠ .nestingTooDeep n)
  /-- The run ends at a placeholder that lies too deep. -/
  | short (e : SyntaxError) (hresult : run.result = .error (.malformed e))
      (hfault : e.fault = .nestingTooDeep limit) (hcalls : run.calls <+: run'.calls)
      (hwarnings : run.warnings <+: run'.warnings)

namespace Run

variable {limit : Nat} {run run' : Run ε α}

theorem cutShort_done (a : α) : (done a : Run ε α).CutShort limit (done a) :=
  .same rfl fun e n h => by simp at h

theorem cutShort_failed {e : SyntaxError} (h : ∀ n, e.fault ≠ .nestingTooDeep n) :
    (failed (.malformed e) : Run ε α).CutShort limit (failed (.malformed e)) := by
  refine .same rfl fun e' n he => ?_
  obtain rfl := Failure.malformed.inj (Except.error.inj he)
  exact h n

theorem CutShort.map (h : run.CutShort limit run') (f : α → β) :
    (run.map f).CutShort limit (run'.map f) := by
  cases h with
  | same heq hfault =>
    subst heq
    exact .same rfl fun e n he => hfault e n (error_of_map_error he)
  | short e hresult hfault hcalls hwarnings =>
    exact .short e (by rw [result_map, hresult]; rfl) hfault hcalls hwarnings

theorem CutShort.relocate (h : run.CutShort limit run') (span : Span) (consumed : Text) :
    (run.relocate span consumed).CutShort limit (run'.relocate span consumed) := by
  cases h with
  | same heq hfault =>
    refine .same (by rw [heq]) fun e n he => ?_
    obtain ⟨e', he', rfl⟩ := malformed_of_relocate_malformed he
    exact hfault e' n he'
  | short e hresult hfault hcalls hwarnings =>
    refine .short _ (result_relocate_malformed hresult span consumed) hfault ?_ ?_
    · rwa [calls_relocate, calls_relocate]
    · rwa [warnings_relocate, warnings_relocate]

/-- If the first part is not cut short, then only the second part can be. -/
theorem CutShort.andThen (h : run.CutShort limit run') {next next' : α → Run ε β}
    (hn : ∀ a, run' = run → run.result = .ok a → (next a).CutShort limit (next' a)) :
    (run.andThen next).CutShort limit (run'.andThen next') := by
  cases h with
  | same heq hfault =>
    cases hr : run.result with
    | error reason =>
      rw [heq, andThen_of_error hr, andThen_of_error hr]
      exact .same rfl fun e n he => hfault e n (by rw [hr, Except.error.inj he])
    | ok a =>
      have ha := hn a heq hr
      rw [heq, andThen_of_ok hr, andThen_of_ok hr]
      cases ha with
      | same heq' hfault' => exact .same (by rw [heq']) hfault'
      | short e hresult hfault' hcalls hwarnings =>
        exact .short e hresult hfault' ((List.prefix_append_right_inj _).mpr hcalls)
          ((List.prefix_append_right_inj _).mpr hwarnings)
  | short e hresult hfault hcalls hwarnings =>
    rw [andThen_of_error hresult]
    exact .short e rfl hfault (hcalls.trans (calls_prefix_andThen run' next'))
      (hwarnings.trans (warnings_prefix_andThen run' next'))

end Run

/-! ### Outlines under two limits -/

variable {limit limit' depth : Nat}

/-- Where placeholders may open, the limit does not matter to a step of the reader. -/
theorem State.advance_eq_of_depth_le (h : depth ≤ limit) (h' : depth ≤ limit') (span : Span)
    (token : Token) (state : State) :
    state.advance limit depth span token = state.advance limit' depth span token := by
  cases state with
  | literal =>
    cases token with
    | percent =>
      rw [advance, advance, readLiteral, readLiteral, if_neg (Nat.not_lt.mpr h),
        if_neg (Nat.not_lt.mpr h')]
    | _ => rfl
  | _ => rfl

/-- Where placeholders may open, the limit does not matter. -/
theorem outlineFrom_eq_of_depth_le (h : depth ≤ limit) (h' : depth ≤ limit') (state : State)
    (pos : Nat) (tokens : List Token) :
    outlineFrom limit depth state pos tokens = outlineFrom limit' depth state pos tokens := by
  induction tokens generalizing state pos with
  | nil => rfl
  | cons token tokens ih =>
    rw [outlineFrom, outlineFrom, State.advance_eq_of_depth_le h h']
    cases state.advance limit' depth ⟨pos, pos + token.width⟩ token with
    | error fault => rfl
    | ok next => exact congrArg (next.2 ++ ·) (ih _ _)

/-- Where placeholders may open, none lies too deep. -/
theorem nestingTooDeep_notMem_outlineFrom (h : depth ≤ limit) {state : State} {pos : Nat}
    {tokens : List Token} {n : Nat} {span : Span} :
    .fault (.nestingTooDeep n) span ∉ outlineFrom limit depth state pos tokens := by
  induction tokens generalizing state pos with
  | nil =>
    cases state with
    | literal => exact List.not_mem_nil
    | name start sofar quote => cases quote <;> simp [outlineFrom, State.finish]
    | args call group quote => cases quote <;> simp [outlineFrom, State.finish]
    | afterArgs call => simp [outlineFrom, State.finish]
  | cons token tokens ih =>
    rw [outlineFrom]
    cases hstep : state.advance limit depth ⟨pos, pos + token.width⟩ token with
    | error fault =>
      obtain ⟨-, hdeep, -⟩ | ⟨start, -, hmissing, -⟩ := State.advance_error (f := fault.1) hstep
      · exact absurd h (Nat.not_le.mpr hdeep)
      · simp [hmissing]
    | ok next =>
      rw [List.mem_append, not_or]
      exact ⟨State.fault_notMem_advance hstep _ _, ih⟩

/-- **The outline of a text that lies too deep.** All of it is copied; or it is copied up to a
percent sign, which is the fault. -/
theorem outlineFrom_of_limit_lt (h : limit < depth) (pos : Nat) (tokens : List Token) :
    .percent ∉ tokens ∨ ∃ (texts : List Text) (span : Span),
      outlineFrom limit depth .literal pos tokens =
        texts.map .copy ++ [.fault (.nestingTooDeep limit) span] := by
  induction tokens generalizing pos with
  | nil => exact .inl List.not_mem_nil
  | cons token tokens ih =>
    by_cases htoken : token = .percent
    · subst htoken
      refine .inr ⟨[], ⟨pos, pos + Token.percent.width⟩, ?_⟩
      rw [outlineFrom, State.advance, readLiteral, if_pos h]
      rfl
    · rw [outlineFrom_cons_literal limit depth htoken]
      obtain hnone | ⟨texts, span, hrest⟩ := ih (pos + token.width)
      · exact .inl (List.not_mem_cons_of_ne_of_not_mem (Ne.symm htoken) hnone)
      · exact .inr ⟨token.spoken :: texts, span, by rw [hrest]; rfl⟩

/-! ### Runs under two limits -/

/-- A step under two limits, if this is known of arguments. -/
theorem Step.run_cutShort {input : Text} {oracle : Oracle ε} {e : Event}
    (hargs : ∀ text span, e = .argument text span → ∀ before args,
      (runSteps oracle before args (plan limit (depth + 1) text)).CutShort limit
        (runSteps oracle before args (plan limit' (depth + 1) text)))
    (hfault : ∀ n span, e ≠ .fault (.nestingTooDeep n) span) (before : List Call)
    (args : List Text) :
    ((e.step limit depth input).run oracle before args).CutShort limit
      ((e.step limit' depth input).run oracle before args) := by
  cases e with
  | copy s =>
    rw [Event.step, Event.step, Step.run]
    exact Run.cutShort_done _
  | argument text span =>
    rw [Event.step, Event.step, Step.run, Step.run, runSteps_argument, runSteps_argument]
    exact ((hargs text span rfl before []).relocate _ _).map _
  | ignored name text =>
    rw [Event.step, Event.step, Step.run]
    exact .same rfl fun e n h => by simp at h
  | call name rawArgs =>
    rw [Event.step, Event.step, Step.run]
    refine .same rfl fun e n h => ?_
    have hcall := Run.error_of_map_error h
    obtain ⟨_, _, hreason⟩ := Call.refused_of_run_error hcall
    cases hreason
  | fault f span =>
    rw [Event.step, Event.step, Step.run]
    refine Run.cutShort_failed fun n hn => hfault n span ?_
    rw [show f = .nestingTooDeep n from hn]

theorem runSteps_events_cutShort {input : Text} {oracle : Oracle ε} {events : List Event}
    (hargs : ∀ text span, .argument text span ∈ events → ∀ before args,
      (runSteps oracle before args (plan limit (depth + 1) text)).CutShort limit
        (runSteps oracle before args (plan limit' (depth + 1) text)))
    (hfault : ∀ n span, .fault (.nestingTooDeep n) span ∉ events) (before : List Call)
    (args : List Text) :
    (runSteps oracle before args (events.map (Event.step limit depth input))).CutShort limit
      (runSteps oracle before args (events.map (Event.step limit' depth input))) := by
  induction events generalizing before args with
  | nil => exact Run.cutShort_done _
  | cons e events ih =>
    have hhead : ((e.step limit depth input).run oracle before args).CutShort limit
        ((e.step limit' depth input).run oracle before args) :=
      Step.run_cutShort (fun text span he => hargs text span (he ▸ List.mem_cons_self))
        (fun n span he => hfault n span (he ▸ List.mem_cons_self)) before args
    have hrest := ih (fun text span he => hargs text span (List.mem_cons_of_mem _ he))
      (fun n span he => hfault n span (List.mem_cons_of_mem _ he))
    rw [List.map_cons, List.map_cons, runSteps_cons, runSteps_cons]
    refine hhead.andThen fun next heq _ => ?_
    rw [heq]
    exact (hrest _ next.1).map _

/-- **The plan of a text under two limits.** It goes by induction on the length of the text, since
an argument is shorter than the text around it. -/
theorem runSteps_plan_cutShort (h : limit ≤ limit') (depth : Nat) (oracle : Oracle ε)
    (before : List Call) (args : List Text) (text : Text) :
    (runSteps oracle before args (plan limit depth text)).CutShort limit
      (runSteps oracle before args (plan limit' depth text)) := by
  induction hlen : Text.byteLength text using Nat.strongRecOn
    generalizing text depth before args with
  | ind m ih =>
    by_cases hdepth : depth ≤ limit
    · have houtline : outline limit' depth text = outline limit depth text :=
        outlineFrom_eq_of_depth_le (hdepth.trans h) hdepth .literal 0 (Token.scan text)
      rw [plan_eq, plan_eq, houtline]
      refine runSteps_events_cutShort (fun arg span harg before' args' => ?_)
        (fun n span => nestingTooDeep_notMem_outlineFrom hdepth) before args
      have hlt := argument_add_four_le harg
      exact ih _ (by omega) (depth + 1) before' args' arg rfl
    · obtain hnone | ⟨texts, span, houtline⟩ :=
        outlineFrom_of_limit_lt (Nat.not_le.mp hdepth) 0 (Token.scan text)
      · rw [runSteps_plan_of_percent_notMem oracle before args hnone,
          runSteps_plan_of_percent_notMem oracle before args hnone]
        exact Run.cutShort_done _
      · have hsteps : plan limit depth text = texts.map .copy ++
            [.malformed ⟨.nestingTooDeep limit, span, text.upTo span.stop⟩] := by
          rw [plan_eq, outline, houtline, List.map_append, List.map_map]
          rfl
        have hrun : runSteps oracle before args (plan limit depth text) =
            .failed (.malformed ⟨.nestingTooDeep limit, span, text.upTo span.stop⟩) := by
          rw [hsteps, runSteps_append, runSteps_copy, Run.done_andThen, runSteps_cons, Step.run]
          rfl
        rw [hrun]
        exact .short _ rfl rfl List.nil_prefix List.nil_prefix

/-! ### The placeholders of a plan -/

/-- A placeholder of a plan. -/
structure Occurrence where
  /-- The number of arguments around it, one inside the other. -/
  level : Nat
  /-- The name. -/
  name : Text
  /-- The source text between the parentheses. -/
  rawArgs : Text
deriving DecidableEq, Repr

mutual

/-- The placeholders of a step that lies `level` levels deep, in the order of their ends. -/
def Step.occurrences (level : Nat) : Step → List Occurrence
  | .copy _ => []
  | .argument _ _ body => Template.occurrences (level + 1) body
  | .ignored _ _ => []
  | .call name rawArgs => [⟨level, name, rawArgs⟩]
  | .malformed _ => []

/-- The placeholders of steps that lie `level` levels deep, in the order of their ends. -/
def occurrences (level : Nat) : List Step → List Occurrence
  | [] => []
  | step :: rest => step.occurrences level ++ occurrences level rest

end

/-- The call is one of the placeholder: it has its name and its source text. -/
def Call.Matches (call : Call) (o : Occurrence) : Prop :=
  call.name = o.name ∧ call.rawArgs = o.rawArgs

/-- The calls of a run belong to the first of the placeholders, and to all of them if the run
succeeds. -/
def Run.Follows (run : Run ε α) (placeholders : List Occurrence) : Prop :=
  ∃ called, called <+: placeholders ∧ List.Forall₂ Call.Matches run.calls called ∧
    ∀ a, run.result = .ok a → called = placeholders

namespace Run

variable {run : Run ε α} {placeholders : List Occurrence}

theorem follows_of_calls_eq_nil (h : run.calls = []) : run.Follows [] :=
  ⟨[], List.prefix_rfl, by rw [h]; exact .nil, fun _ _ => rfl⟩

theorem Follows.map (h : run.Follows placeholders) (f : α → β) :
    (run.map f).Follows placeholders := by
  obtain ⟨called, hfirst, hcalls, hall⟩ := h
  refine ⟨called, hfirst, hcalls, fun b hb => ?_⟩
  obtain ⟨a, ha, -⟩ := ok_of_map_ok hb
  exact hall a ha

theorem Follows.relocate (h : run.Follows placeholders) (span : Span) (consumed : Text) :
    (run.relocate span consumed).Follows placeholders := by
  obtain ⟨called, hfirst, hcalls, hall⟩ := h
  exact ⟨called, hfirst, by rwa [calls_relocate], fun a ha => hall a (ok_of_relocate_ok ha)⟩

theorem Follows.andThen (h : run.Follows placeholders) {next : α → Run ε β}
    {rest : List Occurrence} (hn : ∀ a, run.result = .ok a → (next a).Follows rest) :
    (run.andThen next).Follows (placeholders ++ rest) := by
  obtain ⟨called, hfirst, hcalls, hall⟩ := h
  cases hr : run.result with
  | error reason =>
    rw [andThen_of_error hr]
    exact ⟨called, hfirst.trans (List.prefix_append _ _), hcalls, fun b hb => by simp at hb⟩
  | ok a =>
    obtain ⟨called', hfirst', hcalls', hall'⟩ := hn a hr
    rw [andThen_of_ok hr, ← hall a hr]
    exact ⟨called ++ called', (List.prefix_append_right_inj called).mpr hfirst',
      List.rel_append hcalls hcalls', fun b hb => by rw [hall' b hb]⟩

end Run

mutual

theorem Step.run_follows (oracle : Oracle ε) (before : List Call) (args : List Text)
    (level : Nat) : (step : Step) →
    (step.run oracle before args).Follows (step.occurrences level)
  | .copy s => by
    rw [Step.run, Step.occurrences]
    exact Run.follows_of_calls_eq_nil rfl
  | .argument span consumed body => by
    rw [Step.run, Step.occurrences]
    exact ((runSteps_follows oracle before [] (level + 1) body).relocate span consumed).map _
  | .ignored name text => by
    rw [Step.run, Step.occurrences]
    exact Run.follows_of_calls_eq_nil rfl
  | .call name rawArgs => by
    rw [Step.run, Step.occurrences]
    exact ⟨_, List.prefix_rfl, .cons ⟨rfl, rfl⟩ .nil, fun _ _ => rfl⟩
  | .malformed e => by
    rw [Step.run, Step.occurrences]
    exact Run.follows_of_calls_eq_nil rfl

/-- **The calls of a run are those of the first placeholders.** -/
theorem runSteps_follows (oracle : Oracle ε) (before : List Call) (args : List Text)
    (level : Nat) : (steps : List Step) →
    (runSteps oracle before args steps).Follows (occurrences level steps)
  | [] => by
    rw [runSteps_nil, occurrences]
    exact Run.follows_of_calls_eq_nil rfl
  | step :: rest => by
    rw [runSteps_cons, occurrences]
    exact (Step.run_follows oracle before args level step).andThen fun next _ =>
      (runSteps_follows oracle _ next.1 level rest).map _

end

/-! ### The levels of placeholders -/

theorem mem_occurrences {level : Nat} {o : Occurrence} {steps : List Step} :
    o ∈ occurrences level steps ↔ ∃ step ∈ steps, o ∈ step.occurrences level := by
  induction steps with
  | nil => simp [occurrences]
  | cons step steps ih => rw [occurrences, List.mem_append, ih, List.exists_mem_cons_iff]

/-- A placeholder opens only where the limit allows it. -/
theorem depth_le_of_call_mem_outline {text name rawArgs : Text}
    (h : .call name rawArgs ∈ outline limit depth text) : depth ≤ limit := by
  by_contra hdepth
  rw [outline] at h
  obtain hnone | ⟨texts, span, houtline⟩ :=
    outlineFrom_of_limit_lt (Nat.not_le.mp hdepth) 0 (Token.scan text)
  · simp [outlineFrom_literal 0 hnone] at h
  · simp [houtline] at h

/-- **No placeholder of a plan lies deeper than the limit.** -/
theorem level_le_of_mem_plan {text : Text} {o : Occurrence}
    (h : o ∈ occurrences depth (plan limit depth text)) : o.level ≤ limit := by
  induction hlen : Text.byteLength text using Nat.strongRecOn generalizing text depth with
  | ind m ih =>
    obtain ⟨step, hstep, ho⟩ := mem_occurrences.mp h
    rw [plan_eq] at hstep
    obtain ⟨e, he, rfl⟩ := List.mem_map.mp hstep
    cases e with
    | copy s => simp [Event.step, Step.occurrences] at ho
    | argument arg span =>
      rw [Event.step, Step.occurrences] at ho
      split at ho
      · simp [occurrences, Step.occurrences] at ho
      · have hlt := argument_add_four_le he
        exact ih _ (by omega) ho rfl
    | ignored name text => simp [Event.step, Step.occurrences] at ho
    | call name rawArgs =>
      rw [Event.step, Step.occurrences] at ho
      rw [List.mem_singleton.mp ho]
      exact depth_le_of_call_mem_outline he
    | fault f span => simp [Event.step, Step.occurrences] at ho

/-! ### Expansions under two limits -/

/-- **The limit cuts an expansion short, and does nothing else.** Under a larger limit the run is
the same, unless a placeholder lies too deep for the smaller one: then the fault names the smaller
limit, and its calls and warnings are the first of those under the larger one. In any case the calls
are those of the first placeholders of the template, and none lies deeper than the limit. -/
theorem consult_of_limit_le (h : limit ≤ limit') (oracle : Oracle ε) (template : Text) :
    let run := consult limit oracle template
    let run' := consult limit' oracle template
    ((∀ e n, run.result = .error (.malformed e) → e.fault ≠ .nestingTooDeep n) → run' = run) ∧
    (∀ e n, run.result = .error (.malformed e) → e.fault = .nestingTooDeep n →
      n = limit ∧ run.calls <+: run'.calls ∧ run.warnings <+: run'.warnings) ∧
    ∃ called, called <+: occurrences 0 (plan limit 0 template) ∧
      List.Forall₂ Call.Matches run.calls called ∧ ∀ o ∈ called, o.level ≤ limit := by
  intro run run'
  have hcut : run.CutShort limit run' :=
    (runSteps_plan_cutShort h 0 oracle [] [] template).map Prod.snd
  refine ⟨fun hfault => ?_, fun e n hresult hfault => ?_, ?_⟩
  · cases hcut with
    | same heq _ => exact heq
    | short e hresult hdeep => exact absurd hdeep (hfault e limit hresult)
  · cases hcut with
    | same _ hnone => exact absurd hfault (hnone e n hresult)
    | short e' hresult' hdeep hcalls hwarnings =>
      obtain rfl := Failure.malformed.inj (Except.error.inj (hresult.symm.trans hresult'))
      exact ⟨Fault.nestingTooDeep.inj (hfault.symm.trans hdeep), hcalls, hwarnings⟩
  · obtain ⟨called, hfirst, hcalls, -⟩ :=
      (runSteps_follows oracle [] [] 0 (plan limit 0 template)).map Prod.snd
    exact ⟨called, hfirst, hcalls, fun o ho => level_le_of_mem_plan (hfirst.subset ho)⟩

/-- Placeholders that lie two levels deep: a limit of one level cuts the run short behind the first
call, and a limit of three levels is as good as one of two. -/
theorem consult_of_limit_le_of_two_levels :
    let template := "%a%%f('%g(%h%)%')%".toList
    let oracle : Oracle Empty := fun _ call => .ok call.name
    (consult 1 oracle template).calls = [⟨"a".toList, [], []⟩] ∧
    (consult 1 oracle template).calls <+: (consult 2 oracle template).calls ∧
    consult 3 oracle template = consult 2 oracle template := by
  intro template oracle
  have hcalls : (consult 1 oracle template).calls = [⟨"a".toList, [], []⟩] := by decide +kernel
  have hshort : (consult 1 oracle template).result = .error (.malformed
      ⟨.nestingTooDeep 1, ⟨3, 16⟩, "%a%%f('%g(%h%)%'".toList⟩) := by decide +kernel
  have hlong : (consult 2 oracle template).result = .ok "af".toList := by decide +kernel
  exact ⟨hcalls, ((consult_of_limit_le (Nat.le_succ 1) oracle template).2.1 _ 1 hshort rfl).2.1,
    (consult_of_limit_le (Nat.le_succ 2) oracle template).1 fun e n he => by simp [hlong] at he⟩

end TabFormat.Template
