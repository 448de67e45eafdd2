import TabFormat.Template.Outline

/-!
# The plan of a template

The plan is the outline of a template with the plans of its arguments in place of their texts. It
depends on the template and on the nesting limit alone: what resolvers answer has no influence on
which calls are made and in which order.
-/

namespace TabFormat.Template

/-- A step of the expansion of a template. -/
inductive Step where
  /-- Copy a text to the output. -/
  | copy (s : Text)
  /-- Expand an argument. A fault in it concerns `span` of the text around it, of which `consumed`
  has been read. -/
  | argument (span : Span) (consumed : Text) (body : List Step)
  /-- Warn that a text after the arguments of the placeholder `name` is passed over. -/
  | ignored (name text : Text)
  /-- Call a placeholder with the arguments expanded since the last call, and copy the answer to
  the output. -/
  | call (name rawArgs : Text)
  /-- Give up. -/
  | malformed (e : SyntaxError)

/-- Whether a text expands to itself because nothing in it is special outside of placeholders. -/
def isInert (s : Text) : Bool :=
  s.all fun c => c != '%' && c != '\\'

/-- The steps of a text that lies `depth` levels deep. An argument that is inert is copied. -/
def plan (limit depth : Nat) (input : Text) : List Step :=
  (outline limit depth input).attach.map fun
    | ⟨.copy s, _⟩ => .copy s
    | ⟨.argument text span, _⟩ =>
      .argument span (input.upTo span.stop)
        (if isInert text then [.copy text] else plan limit (depth + 1) text)
    | ⟨.ignored name text, _⟩ => .ignored name text
    | ⟨.call name rawArgs, _⟩ => .call name rawArgs
    | ⟨.fault fault span, _⟩ => .malformed ⟨fault, span, input.upTo span.stop⟩
termination_by input.byteLength
decreasing_by
  rename_i h _
  have := argument_add_four_le h
  omega

/-- The step that an event of the outline of `input` asks for. -/
def Event.step (limit depth : Nat) (input : Text) : Event → Step
  | copy s => .copy s
  | argument text span =>
    .argument span (input.upTo span.stop)
      (if isInert text then [.copy text] else plan limit (depth + 1) text)
  | ignored name text => .ignored name text
  | call name rawArgs => .call name rawArgs
  | fault f span => .malformed ⟨f, span, input.upTo span.stop⟩

/-- A plan follows the outline event by event. -/
theorem plan_eq (limit depth : Nat) (input : Text) :
    plan limit depth input = (outline limit depth input).map (Event.step limit depth input) := by
  calc
    plan limit depth input
      = (outline limit depth input).attach.map fun e => Event.step limit depth input e.val := by
        rw [plan]
        refine List.map_congr_left fun ⟨e, _⟩ _ => ?_
        cases e <;> rfl
    _ = _ := List.attach_map_val

end TabFormat.Template
