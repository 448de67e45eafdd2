import TabFormat.Proofs.Runs
import TabFormat.Proofs.Grammar.Reading

/-!
# Carrying out a placeholder

The arguments of a placeholder are expanded from left to right, each one told of the calls of those
before it, and then the placeholder is called with what they expanded to. An argument without
percent signs makes no calls and expands to what its tokens stand for; that a text in which nothing
is special is copied instead makes no difference.

## Main definitions

* `Expands` : texts expand one after another.

## Main results

* `runSteps_plan_of_percent_notMem` : the expansion of a text without placeholders.
* `runSteps_placeholder` : the expansion of a placeholder.
* `exists_call_of_ok` : a placeholder that is carried out is called.
-/

namespace TabFormat.Template

variable {ε : Type} {limit depth : Nat}

/-! ### Texts without placeholders -/

/-- The reader copies tokens outside of placeholders. -/
theorem outlineFrom_literal (pos : Nat) {tokens : List Token} (h : .percent ∉ tokens) :
    outlineFrom limit depth .literal pos tokens = tokens.map fun t => .copy t.spoken := by
  induction tokens generalizing pos with
  | nil => rfl
  | cons t tokens ih =>
    rw [outlineFrom_cons_literal limit depth (List.ne_of_not_mem_cons h).symm,
      ih _ (List.not_mem_of_not_mem_cons h), List.map_cons]

theorem runSteps_copy (oracle : Oracle ε) (before : List Call) (args : List Text)
    (texts : List Text) :
    runSteps oracle before args (texts.map .copy) = .done (args, texts.flatten) := by
  induction texts with
  | nil => rw [List.map_nil, runSteps_nil, List.flatten_nil]
  | cons s texts ih =>
    rw [List.map_cons, runSteps_copy_cons, ih, Run.map_done, List.flatten_cons]

/-- A text without percent signs expands to what its tokens stand for. -/
theorem runSteps_plan_of_percent_notMem (oracle : Oracle ε) (before : List Call)
    (args : List Text) {text : Text} (h : .percent ∉ Token.scan text) :
    runSteps oracle before args (plan limit depth text) =
      .done (args, (Token.scan text).flatMap Token.spoken) := by
  have hsteps : plan limit depth text = ((Token.scan text).map Token.spoken).map .copy := by
    rw [plan_eq, outline, outlineFrom_literal 0 h, List.map_map, List.map_map]
    rfl
  rw [hsteps, runSteps_copy, List.flatMap_def]

/-- The reader passes over a text that expands. -/
theorem passage_of_runSteps_ok {oracle : Oracle ε} {before : List Call} {args : List Text}
    {text : Text} {last : List Text × Text}
    (h : (runSteps oracle before args (plan limit depth text)).result = .ok last) :
    Passage limit depth .literal 0 (Token.scan text) (outline limit depth text) .literal := by
  rw [plan_eq] at h
  have hfault (f : Fault) (span : Span) : .fault f span ∉ outline limit depth text := fun hmem =>
    malformed_notMem_of_ok h _ (List.mem_map_of_mem hmem)
  obtain ⟨events, hread⟩ := fault_notMem_outlineFrom_iff.mp hfault
  rwa [outline, hread.outlineFrom_eq]

theorem chars_subset_of_mem_scan {text : Text} {t : Token} (h : t ∈ Token.scan text) {c : Char}
    (hc : c ∈ t.chars) : c ∈ text := by
  rw [← Token.flatMap_chars_scan text]
  exact List.mem_flatMap.mpr ⟨t, h, hc⟩

/-- The two ways to expand an argument agree on texts in which nothing is special. -/
theorem runSteps_argument (oracle : Oracle ε) (before : List Call) (args : List Text)
    (text : Text) :
    runSteps oracle before args (if isInert text then [.copy text] else plan limit depth text) =
      runSteps oracle before args (plan limit depth text) := by
  split
  · rename_i hinert
    have hspecial (c : Char) (hc : c ∈ text) : c ≠ '%' ∧ c ≠ '\\' := by
      simpa [isInert] using List.all_eq_true.mp hinert c hc
    have hpercent : .percent ∉ Token.scan text := fun h =>
      (hspecial '%' (chars_subset_of_mem_scan h List.mem_cons_self)).1 rfl
    have hspoken : (Token.scan text).flatMap Token.spoken = text := by
      conv_rhs => rw [← Token.flatMap_chars_scan text]
      rw [List.flatMap_def, List.flatMap_def]
      refine congrArg List.flatten (List.map_congr_left fun t ht => ?_)
      cases t with
      | escape c =>
        have hmem : '\\' ∈ text := chars_subset_of_mem_scan ht List.mem_cons_self
        exact absurd rfl (hspecial '\\' hmem).2
      | _ => rfl
    rw [runSteps_plan_of_percent_notMem oracle before args hpercent, hspoken]
    exact (runSteps_copy oracle before args [text]).trans (by simp)
  · rfl

/-! ### Arguments -/

/-- Texts that lie `depth` levels deep expand one after another: the calls that they make, the
warnings that they give, and what they expand to. -/
inductive Expands (limit depth : Nat) (oracle : Oracle ε) :
    List Call → List Text → List Call → List Ignored → List Text → Prop
  | nil {before} : Expands limit depth oracle before [] [] [] []
  | cons {before text rest first last calls warnings values}
      (hfirst : runSteps oracle before [] (plan limit depth text) = first)
      (hok : first.result = .ok last)
      (hrest : Expands limit depth oracle (before ++ first.calls) rest calls warnings values) :
      Expands limit depth oracle before (text :: rest) (first.calls ++ calls)
        (first.warnings ++ warnings) (last.2 :: values)

/-- Each of the texts expands. -/
theorem Expands.exists_ok {oracle : Oracle ε} {before calls : List Call} {texts values : List Text}
    {warnings : List Ignored} (h : Expands limit depth oracle before texts calls warnings values)
    {text : Text} (ht : text ∈ texts) :
    ∃ before' last, (runSteps oracle before' [] (plan limit depth text)).result = .ok last := by
  induction h with
  | nil => simp at ht
  | @cons before _ _ _ last _ _ _ hfirst hok _ ih =>
    rcases List.mem_cons.mp ht with rfl | ht
    · exact ⟨before, last, by rw [hfirst, hok]⟩
    · exact ih ht

variable {oracle : Oracle ε} {before calls : List Call} {warnings : List Ignored}
  {name : Text} {texts ignored values : List Text} {front : List Event}

/-- What is finished before a placeholder is called: its arguments are expanded. -/
theorem runSteps_inner (h : Inner name texts ignored front)
    (hx : Expands limit (depth + 1) oracle before texts calls warnings values) (input : Text)
    (args : List Text) :
    ∃ warnings', runSteps oracle before args (front.map (Event.step limit depth input)) =
        ⟨calls, warnings', .ok (args ++ values, [])⟩ ∧ (ignored = [] → warnings' = warnings) := by
  induction h generalizing before calls warnings values args with
  | nil =>
    cases hx
    refine ⟨[], ?_, fun _ => rfl⟩
    rw [List.map_nil, runSteps_nil, List.append_nil]
    rfl
  | @argument text span _ _ _ _ ih =>
    cases hx with
    | @cons _ _ _ first last _ _ _ hfirst hok hrest =>
      obtain ⟨warnings', hrun, hw⟩ := ih hrest (args ++ [last.2])
      refine ⟨first.warnings ++ warnings', ?_, fun h => congrArg (first.warnings ++ ·) (hw h)⟩
      have hstep : (Event.step limit depth input (.argument text span)).run oracle before args =
          ⟨first.calls, first.warnings, .ok (args ++ [last.2], [])⟩ := by
        rw [Event.step, Step.run, runSteps_argument, hfirst, Run.relocate_of_ok hok, Run.map, hok]
        rfl
      rw [List.map_cons, runSteps_cons, hstep, Run.andThen_of_ok rfl, hrun, List.append_assoc]
      rfl
  | @ignored text _ _ _ _ ih =>
    obtain ⟨warnings', hrun, -⟩ := ih hx args
    refine ⟨[⟨name, text⟩] ++ warnings', ?_, fun h => absurd h (List.cons_ne_nil _ _)⟩
    rw [List.map_cons, runSteps_cons, Event.step, Step.run, Run.andThen_of_ok rfl, List.append_nil,
      hrun]
    rfl

/-- If what comes before the call of a placeholder succeeds, then its arguments expand. -/
theorem expands_of_inner_ok (h : Inner name texts ignored front) (input : Text) (args : List Text)
    {last : List Text × Text}
    (hok : (runSteps oracle before args (front.map (Event.step limit depth input))).result =
      .ok last) :
    ∃ calls warnings values,
      Expands limit (depth + 1) oracle before texts calls warnings values := by
  induction h generalizing before args last with
  | nil => exact ⟨[], [], [], .nil⟩
  | @argument text span _ _ _ _ ih =>
    obtain ⟨next, last', hstep, hrest⟩ := ok_of_runSteps_cons_ok hok
    rw [Event.step, Step.run, runSteps_argument] at hstep
    rw [Event.step, Step.run, runSteps_argument, Run.calls_map, Run.calls_relocate] at hrest
    obtain ⟨calls, warnings, values, hx⟩ := ih _ hrest
    obtain ⟨value, hr, -⟩ := Run.ok_of_map_ok hstep
    exact ⟨_, _, _, .cons rfl (Run.ok_of_relocate_ok hr) hx⟩
  | @ignored text _ _ _ _ ih =>
    obtain ⟨next, last', hstep, hrest⟩ := ok_of_runSteps_cons_ok hok
    rw [Event.step, Step.run, List.append_nil] at hrest
    exact ih _ hrest

/-- **The expansion of a placeholder.** Once its arguments are expanded it is called, and then the
rest of the text is expanded. -/
theorem runSteps_placeholder (h : Inner name texts ignored front)
    (hx : Expands limit (depth + 1) oracle before texts calls warnings values)
    (input rawArgs : Text) (rest : List Event) :
    let call : Call := ⟨name, rawArgs, values⟩
    let run := runSteps oracle before []
      ((front ++ .call name rawArgs :: rest).map (Event.step limit depth input))
    let last := (Call.run (oracle (before ++ calls)) call).andThen fun answer =>
      (runSteps oracle (before ++ calls ++ [call]) [] (rest.map (Event.step limit depth input))).map
        fun last => (last.1, answer ++ last.2)
    run.calls = calls ++ last.calls ∧ run.result = last.result ∧
      (ignored = [] → run.warnings = warnings ++ last.warnings) := by
  intro call run last
  obtain ⟨warnings', hfront, hw⟩ := runSteps_inner h hx input []
  have hrun : run = ⟨calls ++ last.calls, warnings' ++ last.warnings, last.result⟩ := by
    have hmap : (last.map fun last => (last.1, ([] : Text) ++ last.2)) = last := Run.map_id last
    simp only [run]
    rw [List.map_append, runSteps_append, hfront, Run.andThen_of_ok rfl, List.map_cons,
      runSteps_cons, Event.step, Step.run, Run.map_andThen, List.nil_append]
    exact congrArg (fun last : Run ε (List Text × Text) =>
      (⟨calls ++ last.calls, warnings' ++ last.warnings, last.result⟩ : Run ε _)) hmap
  rw [hrun]
  exact ⟨rfl, rfl, fun hi => congrArg (· ++ last.warnings) (hw hi)⟩

/-- If a placeholder and the rest of a text are carried out, then the arguments of the placeholder
expand, and then it is called. -/
theorem exists_call_of_ok (h : Inner name texts ignored front) {input rawArgs : Text}
    {rest : List Event} {last : List Text × Text}
    (hok : (runSteps oracle before [] ((front ++ .call name rawArgs :: rest).map
      (Event.step limit depth input))).result = .ok last) :
    ∃ calls warnings values later,
      Expands limit (depth + 1) oracle before texts calls warnings values ∧
      (runSteps oracle before [] ((front ++ .call name rawArgs :: rest).map
        (Event.step limit depth input))).calls = calls ++ ⟨name, rawArgs, values⟩ :: later := by
  have hfront := hok
  rw [List.map_append] at hfront
  obtain ⟨_, _, hfront, -⟩ := ok_of_runSteps_append_ok hfront
  obtain ⟨calls, warnings, values, hx⟩ := expands_of_inner_ok h input [] hfront
  obtain ⟨hcalls, -, -⟩ := runSteps_placeholder h hx input rawArgs rest
  obtain ⟨later, hlater⟩ := Run.calls_prefix_andThen
    (Call.run (oracle (before ++ calls)) ⟨name, rawArgs, values⟩) _
  refine ⟨calls, warnings, values, later, hx, ?_⟩
  rw [hcalls, ← hlater]
  rfl

end TabFormat.Template
