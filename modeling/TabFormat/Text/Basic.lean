/-!
# Texts and byte positions

A text is a list of characters. Positions in a text are counted in bytes of its UTF-8 form;
`Text.upTo` turns such a position back into characters, by keeping those that end at or before it.
-/

namespace TabFormat

/-- A text, as the list of its characters. -/
abbrev Text := List Char

namespace Text

/-- The number of bytes of the UTF-8 form. -/
def byteLength : Text → Nat
  | [] => 0
  | c :: s => c.utf8Size + byteLength s

@[simp] theorem byteLength_nil : byteLength [] = 0 := rfl

@[simp] theorem byteLength_cons (c : Char) (s : Text) :
    byteLength (c :: s) = c.utf8Size + byteLength s := rfl

@[simp] theorem byteLength_append (s t : Text) :
    byteLength (s ++ t) = byteLength s + byteLength t := by
  induction s with
  | nil => simp
  | cons c s ih => simp only [List.cons_append, byteLength_cons, ih]; omega

/-- The characters that end at or before byte `n`. -/
def upTo : Nat → Text → Text
  | _, [] => []
  | n, c :: s => if c.utf8Size ≤ n then c :: upTo (n - c.utf8Size) s else []

/-- A text cut at the end of a first part is that part. -/
theorem upTo_byteLength_append (s t : Text) : upTo (byteLength s) (s ++ t) = s := by
  induction s with
  | nil =>
    cases t with
    | nil => rfl
    | cons c t =>
      have := c.utf8Size_pos
      simp only [List.nil_append, byteLength_nil, upTo]
      rw [if_neg (by omega)]
  | cons c s ih =>
    simp only [byteLength_cons, List.cons_append, upTo]
    rw [if_pos (by omega), Nat.add_sub_cancel_left, ih]

/-- The decimal digits of a number. -/
def ofNat (n : Nat) : Text :=
  Nat.toDigits 10 n

/-- The texts of a list one after another, with `separator` between each two. -/
def join (separator : Text) : List Text → Text
  | [] => []
  | [s] => s
  | s :: t :: rest => s ++ separator ++ join separator (t :: rest)

section Join

variable (separator : Text)

theorem join_cons_ne_nil {s : Text} (h : s ≠ []) (rest : List Text) :
    join separator (s :: rest) ≠ [] := by
  cases rest with
  | nil => exact h
  | cons t rest =>
    rw [join, List.append_assoc]
    exact List.append_ne_nil_of_left_ne_nil h _

/-- The texts of two lists, one after the other. -/
theorem join_append_of_ne_nil {first second : List Text} (hf : first ≠ []) (hs : second ≠ []) :
    join separator (first ++ second) =
      join separator first ++ separator ++ join separator second := by
  induction first with
  | nil => exact absurd rfl hf
  | cons s first ih =>
    cases first with
    | nil =>
      obtain ⟨t, second, rfl⟩ := List.exists_cons_of_ne_nil hs
      rw [List.singleton_append, join, join]
    | cons s' first =>
      have hrest := ih (List.cons_ne_nil _ _)
      rw [List.cons_append] at hrest
      rw [List.cons_append, List.cons_append, join, hrest, join]
      simp only [List.append_assoc]

/-- A text of the list, with what stands before it and after it. -/
theorem join_append_cons (first : List Text) (s : Text) (second : List Text) :
    join separator (first ++ s :: second) =
      first.flatMap (· ++ separator) ++ (s ++ second.flatMap (separator ++ ·)) := by
  have hright (s : Text) :
      join separator (s :: second) = s ++ second.flatMap (separator ++ ·) := by
    induction second generalizing s with
    | nil => rw [join, List.flatMap_nil, List.append_nil]
    | cons t second ih => rw [join, ih, List.flatMap_cons, List.append_assoc, List.append_assoc]
  induction first with
  | nil => exact hright s
  | cons t first ih =>
    rw [List.flatMap_cons, List.append_assoc, ← ih]
    obtain ⟨u, rest, hrest⟩ : ∃ u rest, first ++ s :: second = u :: rest :=
      List.exists_cons_of_ne_nil (List.append_ne_nil_of_right_ne_nil _ (List.cons_ne_nil _ _))
    rw [List.cons_append, hrest, join]

end Join

/-- Whether one text occurs in another. -/
def occursIn (part : Text) : Text → Bool
  | [] => part.isEmpty
  | c :: s => part.isPrefixOf (c :: s) || occursIn part s

theorem occursIn_iff {part s : Text} : occursIn part s = true ↔ part <:+: s := by
  induction s with
  | nil => simp [occursIn, List.isEmpty_iff]
  | cons c s ih =>
    rw [occursIn, Bool.or_eq_true, List.isPrefixOf_iff_prefix, ih, List.infix_cons_iff]

end Text

/-- A half-open range of byte positions. -/
structure Span where
  /-- The position of the first byte. -/
  start : Nat
  /-- The position just past the last byte. -/
  stop : Nat
deriving DecidableEq, Repr

end TabFormat
