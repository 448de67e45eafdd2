import TabFormat.Proofs.Arguments
import TabFormat.Proofs.Course
import TabFormat.Proofs.Grammar.Remainder
import TabFormat.Proofs.Grammar.Tree

/-!
# Templates are evaluated from the inside out

An oracle that answers every call expands a text exactly if its tokens are a template, and then
the calls and the output are those of the derivation. One direction goes by induction on the
derivation; the other one by induction on the length of the text, since an argument is shorter than
the text around it.

## Main results

* `runSteps_of_valid` : the plan of a derived template carries out its derivation.
* `isTemplate_of_runSteps_ok` : a text that expands is a template.
* `consult_grammar` : the language of the expansion, and what it computes.
-/

namespace TabFormat.Template

variable {ε : Type} {limit depth : Nat}

/-! ### From a derivation to its evaluation -/

/-- The steps of the derived template, as a part of any text, make the calls of the derivation and
come to its output. -/
def Tree.Realized (ε : Type) (limit depth : Nat) (answer : List Call → Call → Text)
    (tree : Tree) : Prop :=
  ∀ (input : Text) (pos : Nat) (before : List Call),
    let run := runSteps (.answering answer : Oracle ε) before []
      ((outlineFrom limit depth .literal pos tree.tokens).map (Event.step limit depth input))
    run.result = .ok ([], (tree.eval answer before).2) ∧ run.calls = (tree.eval answer before).1

/-- The arguments of a placeholder are evaluated one after another. -/
theorem expands_evalAll (answer : List Call → Call → Text) {args : List Tree} {texts : List Text}
    (hargs : ∀ arg ∈ args, arg.Realized ε limit depth answer)
    (htexts : args.map Tree.tokens = texts.map Token.scan) (before : List Call) :
    ∃ warnings, Expands limit depth (.answering answer : Oracle ε) before texts
      (Tree.evalAll answer before args).1 warnings (Tree.evalAll answer before args).2 := by
  induction args generalizing texts before with
  | nil =>
    obtain rfl := List.map_eq_nil_iff.mp htexts.symm
    exact ⟨[], .nil⟩
  | cons arg args ih =>
    cases texts with
    | nil => simp at htexts
    | cons text texts =>
      obtain ⟨htext, hrest⟩ := List.cons.inj htexts
      obtain ⟨hok, hcalls⟩ := hargs arg List.mem_cons_self text 0 before
      rw [htext, ← outline, ← plan_eq] at hok hcalls
      obtain ⟨warnings, hx⟩ := ih (fun a ha => hargs a (List.mem_cons_of_mem _ ha)) hrest
        (before ++ (arg.eval answer before).1)
      rw [← hcalls] at hx
      have := Expands.cons rfl hok hx
      rw [hcalls] at this
      exact ⟨_, this⟩

/-- **The plan of a derived template carries out its derivation.** -/
theorem runSteps_of_valid (answer : List Call → Call → Text) {tree : Tree}
    (h : tree.Valid limit depth) : tree.Realized ε limit depth answer := by
  induction h with
  | nil =>
    intro input pos before run
    exact ⟨rfl, rfl⟩
  | @literal depth t rest ht _ ih =>
    intro input pos before run
    obtain ⟨hok, hcalls⟩ := ih input (pos + t.width) before
    simp only [run, Tree.tokens]
    rw [outlineFrom_cons_literal limit depth ht, List.map_cons, Event.step, runSteps_copy_cons,
      Run.result_map, Run.calls_map, hok, hcalls]
    exact ⟨rfl, rfl⟩
  | @placeholder depth p args rest hdepth hp htexts _ _ ihargs ihrest =>
    intro input pos before run
    obtain ⟨front, hinner, hevents⟩ := outlineFrom_placeholder limit depth hp hdepth pos
    obtain ⟨warnings, hx⟩ := expands_evalAll answer ihargs htexts before
    obtain ⟨hcalls, hresult, -⟩ := runSteps_placeholder hinner hx input p.rawArgs
      (outlineFrom limit depth .literal (pos + Token.totalWidth p.tokens) rest.tokens)
    obtain ⟨hok', hcalls'⟩ := ihrest input (pos + Token.totalWidth p.tokens)
      (before ++ (Tree.evalAll answer before args).1 ++
        [⟨p.nameText, p.rawArgs, (Tree.evalAll answer before args).2⟩])
    simp only [run, Tree.tokens, hevents]
    rw [hcalls, hresult, Run.andThen_of_ok (by rw [Call.run, Oracle.answering]; rfl),
      Run.result_map, Run.calls_map, hok', hcalls']
    exact ⟨rfl, rfl⟩

/-! ### From an expansion to a derivation -/

/-- Derivations of several texts. -/
theorem exists_trees {texts : List Text}
    (h : ∀ text ∈ texts, IsTemplate limit depth (Token.scan text)) :
    ∃ args : List Tree, args.map Tree.tokens = texts.map Token.scan ∧
      ∀ arg ∈ args, arg.Valid limit depth := by
  induction texts with
  | nil => exact ⟨[], rfl, fun _ h => absurd h List.not_mem_nil⟩
  | cons text texts ih =>
    obtain ⟨tree, hv, ht⟩ := h text List.mem_cons_self
    obtain ⟨args, hts, hvs⟩ := ih fun t ht => h t (List.mem_cons_of_mem _ ht)
    refine ⟨tree :: args, ?_, List.forall_mem_cons.mpr ⟨hv, hvs⟩⟩
    rw [List.map_cons, List.map_cons, ht, hts]

/-- A row that expands is a template, if this holds of its arguments. -/
theorem isTemplate_of_row {oracle : Oracle ε} {tokens : List Token} (h : Row limit depth tokens)
    (input : Text) (pos : Nat)
    (hargs : ∀ text span, .argument text span ∈ outlineFrom limit depth .literal pos tokens →
      ∀ before last, (runSteps oracle before [] (plan limit (depth + 1) text)).result = .ok last →
        IsTemplate limit (depth + 1) (Token.scan text))
    {before : List Call} {last : List Text × Text}
    (hok : (runSteps oracle before [] ((outlineFrom limit depth .literal pos tokens).map
      (Event.step limit depth input))).result = .ok last) :
    IsTemplate limit depth tokens := by
  induction h generalizing pos before last with
  | nil => exact ⟨.nil, .nil, rfl⟩
  | @literal t tokens ht _ ih =>
    have hevents := outlineFrom_cons_literal limit depth ht pos tokens
    rw [hevents, List.map_cons] at hok
    obtain ⟨next, last', hstep, hrest⟩ := ok_of_runSteps_cons_ok hok
    rw [Event.step, Step.run, Run.result_done, Except.ok.injEq] at hstep
    subst hstep
    obtain ⟨tree, hv, rfl⟩ := ih _
      (fun text span hmem => hargs text span (hevents ▸ List.mem_cons_of_mem _ hmem)) hrest
    exact ⟨.literal t tree, .literal ht hv, rfl⟩
  | @placeholder p tokens hdepth hp _ ih =>
    obtain ⟨front, hinner, hall⟩ := outlineFrom_placeholder limit depth hp hdepth pos
    have hevents := hall tokens
    rw [hevents] at hok
    -- the arguments
    have hfront := hok
    rw [List.map_append] at hfront
    obtain ⟨_, _, hfront, -⟩ := ok_of_runSteps_append_ok hfront
    obtain ⟨calls, warnings, values, hx⟩ := expands_of_inner_ok hinner input [] hfront
    obtain ⟨args, htexts, hvalid⟩ := exists_trees fun text htext => by
      obtain ⟨before', last', hr⟩ := hx.exists_ok htext
      obtain ⟨span, hmem⟩ := hinner.exists_span htext
      exact hargs text span (hevents ▸ List.mem_append_left _ hmem) before' last' hr
    -- the rest
    obtain ⟨-, hresult, -⟩ := runSteps_placeholder hinner hx input p.rawArgs
      (outlineFrom limit depth .literal (pos + Token.totalWidth p.tokens) tokens)
    rw [hok] at hresult
    obtain ⟨_, -, hrest⟩ := Run.ok_of_andThen_ok hresult.symm
    obtain ⟨last', hrest, -⟩ := Run.ok_of_map_ok hrest
    obtain ⟨tree, hv, rfl⟩ := ih _ (fun text span hmem => hargs text span
      (hevents ▸ List.mem_append_right _ (List.mem_cons_of_mem _ hmem))) hrest
    exact ⟨.placeholder p args tree, .placeholder hdepth hp htexts hvalid hv, rfl⟩

/-- **A text that expands is a template.** -/
theorem isTemplate_of_runSteps_ok {oracle : Oracle ε} (text : Text) {before : List Call}
    {last : List Text × Text}
    (h : (runSteps oracle before [] (plan limit depth text)).result = .ok last) :
    IsTemplate limit depth (Token.scan text) := by
  induction hn : Text.byteLength text using Nat.strongRecOn
    generalizing text depth before last with
  | ind n ih =>
    have hread := passage_of_runSteps_ok h
    rw [plan_eq] at h
    refine isTemplate_of_row (row_of_passage hread) text 0
      (fun arg span harg before' last' h' => ?_) h
    have hlt := argument_add_four_le harg
    exact ih _ (by omega) arg h' rfl

/-! ### The language of the expansion -/

/-- **Exactly the templates expand, and they are evaluated from the inside out.** With an oracle
that answers every call, the expansion succeeds if and only if the tokens of the text are a
template whose placeholders lie `limit` levels deep at most; and then it makes the calls of the
derivation, each with the outputs of its arguments, and its output is that of the derivation: the
literal tokens and the answers, in order. -/
theorem consult_grammar (ε : Type) (limit : Nat) (template : Text)
    (answer : List Call → Call → Text) :
    let run := consult limit (.answering answer : Oracle ε) template
    ((∃ s, run.result = .ok s) ↔ IsTemplate limit 0 (Token.scan template)) ∧
    ∀ tree : Tree, tree.Valid limit 0 → tree.tokens = Token.scan template →
      run.result = .ok (tree.eval answer []).2 ∧ run.calls = (tree.eval answer []).1 := by
  intro run
  have heval (tree : Tree) (hv : tree.Valid limit 0) (ht : tree.tokens = Token.scan template) :
      run.result = .ok (tree.eval answer []).2 ∧ run.calls = (tree.eval answer []).1 := by
    have hrun : tree.Realized ε limit 0 answer := runSteps_of_valid answer hv
    obtain ⟨hok, hcalls⟩ := hrun template 0 []
    rw [ht, ← outline, ← plan_eq] at hok hcalls
    refine ⟨?_, hcalls⟩
    simp only [run]
    rw [consult, Run.result_map, hok]
    rfl
  refine ⟨⟨?_, ?_⟩, heval⟩
  · rintro ⟨s, hs⟩
    obtain ⟨last, hr, -⟩ := Run.ok_of_map_ok hs
    exact isTemplate_of_runSteps_ok template hr
  · rintro ⟨tree, hv, ht⟩
    exact ⟨_, (heval tree hv ht).1⟩

end TabFormat.Template
