import TabFormat.Pattern.Basic

/-!
# Places in a text

Matching moves through a text in both directions, so a place keeps what lies on either side of it.
-/

namespace TabFormat.Pattern

/-- A place in a text, between two characters or at an end. -/
structure Place where
  /-- The number of characters before the place. -/
  index : Nat
  /-- What lies before the place, nearest character first. -/
  behind : Text
  /-- What lies after the place, nearest character first. -/
  ahead : Text
deriving DecidableEq, Repr

namespace Place

/-- The place before a text. -/
def start (s : Text) : Place := ⟨0, [], s⟩

/-- The place after the next character. -/
def forward (p : Place) : Option (Char × Place) :=
  match p.ahead with
  | [] => none
  | c :: rest => some (c, ⟨p.index + 1, c :: p.behind, rest⟩)

/-- The place before so many characters. -/
def back (p : Place) : Nat → Option Place
  | 0 => some p
  | n + 1 =>
    match p.behind with
    | [] => none
    | c :: rest => back ⟨p.index - 1, rest, c :: p.ahead⟩ n

/-- The place after a text, if that text comes next. -/
def past (p : Place) : Text → Option Place
  | [] => some p
  | c :: s =>
    match p.ahead with
    | [] => none
    | d :: rest => if c = d then past ⟨p.index + 1, d :: p.behind, rest⟩ s else none

/-- The text up to a later place. -/
def upTo (p q : Place) : Text :=
  p.ahead.take (q.index - p.index)

/-- Whether a condition holds at the place. -/
def satisfies (p : Place) (a : Anchor) : Bool :=
  a.holds p.behind.head? p.ahead.head?

/-- The text before the place. -/
def before (p : Place) : Text := p.behind.reverse

/-- What stays the same wherever one moves: the whole text. -/
def whole (p : Place) : Text := p.before ++ p.ahead

theorem whole_start (s : Text) : (start s).whole = s := rfl

theorem whole_of_forward {p q : Place} {c : Char} (h : p.forward = some (c, q)) :
    q.whole = p.whole := by
  unfold forward at h
  split at h
  · simp at h
  · rename_i d rest hp
    simp only [Option.some.injEq, Prod.mk.injEq] at h
    obtain ⟨-, rfl⟩ := h
    simp [whole, before, hp]

end Place

/-- A condition on a single character. -/
inductive Test where
  /-- Every character. -/
  | any
  /-- Every character but the newline. -/
  | notNewline
  /-- One of a few characters. -/
  | oneOf (cs : List Char)
  /-- A character of a set, with or without regard to letter case. -/
  | set (s : CharSet) (fold : Bool)
deriving DecidableEq, Repr

namespace Test

/-- Whether a character satisfies the condition. -/
def holds : Test → Char → Bool
  | any, _ => true
  | notNewline, c => c != '\n'
  | oneOf cs, c => cs.contains c
  | set s fold, c => s.holds fold c

/-- The condition for a given character. -/
def ofChar (c : Char) (fold : Bool) : Test :=
  .oneOf (if fold then Text.caseVariants c else [c])

end Test

end TabFormat.Pattern
