import TabFormat.Proofs.Limit
import TabFormat.Proofs.Position

/-!
# How deep texts nest

The arguments of a text are read as texts of their own, one level deeper, and so are their
arguments. Each is at least four bytes shorter than the text around it, whatever escapes it is
written with, so the reading comes to an end after a quarter as many levels as the template has
bytes, under any limit. A placeholder that lies too deep takes a byte more, its percent sign.

## Main definitions

* `Nested` : the texts that are read for a template, with their levels.
* `height` : how many arguments of a plan lie one inside the other.

## Main results

* `wellFounded_argument` : arguments of arguments come to an end.
* `height_plan_le` : the height of a plan.
* `length_of_nestingTooDeep` : the length of a text in which a placeholder lies too deep.
* `nesting_bounded` : the length of a template bounds its levels.
-/

namespace TabFormat.Template

variable {ε : Type} {limit depth : Nat}

/-! ### Arguments of arguments -/

/-- The texts that are read for a template, each with its level: the template itself, and the
arguments of all texts that are read. -/
inductive Nested (limit : Nat) (template : Text) : Nat → Text → Prop
  | template : Nested limit template 0 template
  | argument {depth text arg span} (h : Nested limit template depth text)
      (harg : .argument arg span ∈ outline limit depth text) :
      Nested limit template (depth + 1) arg

/-- Each level takes four bytes of the template. -/
theorem Nested.length_le {template text : Text} (h : Nested limit template depth text) :
    4 * depth + text.byteLength ≤ template.byteLength := by
  induction h with
  | template => omega
  | argument _ harg ih =>
    have hshorter := argument_add_four_le harg
    omega

/-- **Arguments of arguments come to an end**, whatever the limit and the levels are. -/
theorem wellFounded_argument : WellFounded fun arg text : Text =>
    ∃ limit depth span, .argument arg span ∈ outline limit depth text := by
  refine Subrelation.wf ?_ (measure Text.byteLength).wf
  rintro arg text ⟨limit, depth, span, harg⟩
  have hshorter := argument_add_four_le harg
  show arg.byteLength < text.byteLength
  omega

/-! ### The height of a plan -/

mutual

/-- How many arguments lie one inside the other in a step. -/
def Step.height : Step → Nat
  | .argument _ _ body => Template.height body + 1
  | .copy _ | .ignored _ _ | .call _ _ | .malformed _ => 0

/-- How many arguments lie one inside the other in some steps. -/
def height : List Step → Nat
  | [] => 0
  | step :: rest => max step.height (height rest)

end

theorem height_le_of_forall {n : Nat} {steps : List Step} (h : ∀ step ∈ steps, step.height ≤ n) :
    height steps ≤ n := by
  induction steps with
  | nil => exact Nat.zero_le n
  | cons step steps ih =>
    obtain ⟨hstep, hrest⟩ := List.forall_mem_cons.mp h
    exact Nat.max_le.mpr ⟨hstep, ih hrest⟩

/-- **The height of a plan.** There is a level for each four bytes of the text at most. -/
theorem height_plan_le (limit depth : Nat) (text : Text) :
    height (plan limit depth text) ≤ text.byteLength / 4 := by
  induction hlen : text.byteLength using Nat.strongRecOn generalizing depth text with
  | ind n ih =>
    rw [plan_eq]
    refine height_le_of_forall fun step hstep => ?_
    obtain ⟨event, hevent, rfl⟩ := List.mem_map.mp hstep
    cases event with
    | argument arg span =>
      have hshorter := argument_add_four_le hevent
      have hbody : height (if isInert arg then [.copy arg] else plan limit (depth + 1) arg) ≤
          arg.byteLength / 4 := by
        split
        · exact Nat.zero_le _
        · exact ih _ (by omega) (depth + 1) arg rfl
      rw [Event.step, Step.height]
      omega
    | _ => exact Nat.zero_le _

/-! ### Placeholders that lie too deep -/

/-- A text in which a placeholder lies too deep lies below the limit, and it is not empty. -/
theorem lt_of_nestingTooDeep_mem_outline {text : Text} {n : Nat} {span : Span}
    (h : .fault (.nestingTooDeep n) span ∈ outline limit depth text) :
    n = limit ∧ limit < depth ∧ 0 < text.byteLength := by
  have hdepth : limit < depth := by
    by_contra hle
    exact nestingTooDeep_notMem_outlineFrom (Nat.not_lt.mp hle) h
  refine ⟨?_, hdepth, ?_⟩
  · obtain hnone | ⟨texts, span', houtline⟩ := outlineFrom_of_limit_lt hdepth 0 (Token.scan text)
    · rw [outline, outlineFrom_literal 0 hnone] at h
      simp at h
    · rw [outline, houtline] at h
      obtain ⟨hn, -⟩ : n = limit ∧ span = span' := by simpa using h
      exact hn
  · cases text with
    | nil => simp [outline, Token.scan_nil, outlineFrom, State.finish] at h
    | cons c text =>
      have hpos := c.utf8Size_pos
      rw [Text.byteLength_cons]
      omega

/-- **The length of a text in which a placeholder lies too deep.** It goes by induction on that
length; the placeholder belongs to the text itself or to one of its arguments. -/
theorem length_of_nestingTooDeep {oracle : Oracle ε} {before : List Call} {args : List Text}
    {text : Text} {e : SyntaxError} {n : Nat}
    (h : (runSteps oracle before args (plan limit depth text)).result = .error (.malformed e))
    (hfault : e.fault = .nestingTooDeep n) :
    n = limit ∧ 4 * (limit + 1) + 1 ≤ 4 * depth + text.byteLength := by
  induction hlen : text.byteLength using Nat.strongRecOn
    generalizing depth text before args e with
  | ind m ih =>
    rw [plan_eq] at h
    obtain ⟨front, event, back, last, hevents, -, hevent⟩ := exists_failing_event h
    have hmem : event ∈ outline limit depth text := by simp [hevents]
    have hspan := (place_of_step hevent).1
    cases event with
    | argument arg span =>
      rw [Event.step, Step.run, runSteps_argument] at hevent
      obtain ⟨e', hbody, rfl⟩ :=
        Run.malformed_of_relocate_malformed (Run.error_of_map_error hevent)
      have hshorter := argument_add_four_le hmem
      obtain ⟨hn, hlength⟩ := ih _ (by omega) hbody hfault rfl
      exact ⟨hn, by omega⟩
    | fault f span =>
      obtain rfl : (⟨f, span, text.upTo span.stop⟩ : SyntaxError) = e := by
        simpa [Event.step, Step.run, Run.failed] using hevent
      obtain rfl : f = .nestingTooDeep n := hfault
      obtain ⟨hn, hdepth, hpos⟩ := lt_of_nestingTooDeep_mem_outline hmem
      exact ⟨hn, by omega⟩
    | _ => simp [Event.span?] at hspan

/-! ### Templates -/

/-- **The length of a template bounds its levels**, whatever the limit is. An argument is at least
four bytes shorter than the text that it is read from, so that arguments of arguments come to an
end; a text lies at most as deep as a quarter of the bytes of the template, and so does an argument
that is about to be read, whose level is therefore no larger than any number that the length fits
into; no more arguments are carried out one inside the other; and the limit is the one that is
exceeded, by a template of four bytes for each level and one for the percent sign. -/
theorem nesting_bounded (limit : Nat) (template : Text) :
    (∀ depth text, Nested limit template depth text →
      depth ≤ template.byteLength / 4 ∧
      ∀ arg span, .argument arg span ∈ outline limit depth text →
        arg.byteLength + 4 ≤ text.byteLength ∧
        ∀ size, template.byteLength ≤ size → depth + 1 ≤ size) ∧
    WellFounded (fun arg text : Text =>
      ∃ limit depth span, .argument arg span ∈ outline limit depth text) ∧
    height (plan limit 0 template) ≤ template.byteLength / 4 ∧
    ∀ (ε : Type) (oracle : Oracle ε) (e : SyntaxError) (n : Nat),
      (consult limit oracle template).result = .error (.malformed e) →
      e.fault = .nestingTooDeep n → n = limit ∧ 4 * (n + 1) + 1 ≤ template.byteLength := by
  refine ⟨fun depth text h => ?_, wellFounded_argument, height_plan_le limit 0 template,
    fun ε oracle e n h hfault => ?_⟩
  · have hlength := h.length_le
    refine ⟨by omega, fun arg span harg => ⟨argument_add_four_le harg, fun size hsize => ?_⟩⟩
    have hnested := (h.argument harg).length_le
    omega
  · obtain ⟨rfl, hlength⟩ := length_of_nestingTooDeep (Run.error_of_map_error h) hfault
    exact ⟨rfl, by omega⟩

/-- Five bytes are enough for a placeholder that lies too deep. -/
example : (expand 0 .passthrough "%F(%)".toList : Run Empty Text).result =
    .error (.malformed ⟨.nestingTooDeep 0, ⟨0, 4⟩, "%F(%".toList⟩) := by decide +kernel

end TabFormat.Template
