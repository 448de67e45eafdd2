import TabFormat.Pattern.Matcher

/-!
# Replacement texts

A replacement text refers to what was matched: `$&` is the match, `$1` to `$99` are groups by
number, `$<name>` is a group by name, and `$$` is a dollar sign. Such a text is first rewritten so
that each reference stands in braces, and is then filled with the texts of a match.
-/

namespace TabFormat.Pattern.Replacement

/-- A reference in braces. -/
def braced (name : Text) : Text :=
  '$' :: '\x7b' :: name ++ ['\x7d']

/-- The name at the start of a text and what follows the angle bracket that closes it, unless the
name is empty or not closed. -/
def angled? (s : Text) : Option (Text × Text) :=
  let name := s.takeWhile (· != '>')
  match s.drop name.length with
  | _ :: rest => if name.isEmpty then none else some (name, rest)
  | [] => none

theorem length_of_angled? {s name rest : Text} (h : angled? s = some (name, rest)) :
    rest.length < s.length := by
  simp only [angled?] at h
  split at h
  · rename_i c rest' hd
    split at h
    · simp at h
    · simp only [Option.some.injEq, Prod.mk.injEq] at h
      obtain ⟨-, rfl⟩ := h
      have := congrArg List.length hd
      simp only [List.length_drop, List.length_cons] at this
      omega
  · simp at h

/-- What a dollar sign with the text after it is translated to, and the text that does not belong to
it any more. -/
def dollar : Text → Text × Text
  | [] => (['$', '$'], [])
  | c :: rest =>
    if c = '$' then (['$', '$'], rest)
    else if c = '&' then (braced ['0'], rest)
    else if c = '<' then
      match angled? rest with
      | some (name, rest') => (braced name, rest')
      | none => (['$', '$'], c :: rest)
    else if c.isDigit then
      match rest with
      | [] => (braced [c], [])
      | d :: rest' => if d.isDigit then (braced [c, d], rest') else (braced [c], rest)
    else (['$', '$'], c :: rest)

theorem length_dollar_le (s : Text) : (dollar s).2.length ≤ s.length := by
  unfold dollar
  split
  · exact Nat.le_refl _
  · rename_i c rest
    split
    · exact Nat.le_succ _
    split
    · exact Nat.le_succ _
    split
    · split
      · rename_i h
        have := length_of_angled? h
        simp only [List.length_cons]
        omega
      · exact Nat.le_refl _
    split
    · split
      · exact Nat.le_succ _
      · split <;> simp only [List.length_cons] <;> omega
    · exact Nat.le_refl _

/-- The replacement text with its references in braces and all other dollar signs doubled. -/
def translate : Text → Text
  | [] => []
  | c :: rest =>
    if c = '$' then (dollar rest).1 ++ translate (dollar rest).2 else c :: translate rest
termination_by s => s.length
decreasing_by
  all_goals simp only [List.length_cons]
  · have := length_dollar_le rest
    omega
  · omega

/-- The name of a reference at the start of a text, with or without braces, and what follows. -/
def reference? (s : Text) : Option (Text × Text) :=
  let bare := s.takeWhile isNameChar
  match s with
  | '{' :: inside => name? '}' inside
  | _ => if bare.isEmpty then none else some (bare, s.drop bare.length)

theorem length_of_name? {close : Char} {s name rest : Text}
    (h : name? close s = some (name, rest)) :
    rest.length < s.length := by
  simp only [name?] at h
  split at h
  · rename_i c rest' hd
    split at h
    · simp only [Option.some.injEq, Prod.mk.injEq] at h
      obtain ⟨-, rfl⟩ := h
      have := congrArg List.length hd
      simp only [List.length_drop, List.length_cons] at this
      omega
    · simp at h
  · simp at h

theorem length_of_reference? {s name rest : Text} (h : reference? s = some (name, rest)) :
    rest.length < s.length := by
  simp only [reference?] at h
  split at h
  · have := length_of_name? h
    simp only [List.length_cons]
    omega
  · split at h
    · simp at h
    · rename_i hb
      simp only [Option.some.injEq, Prod.mk.injEq] at h
      obtain ⟨-, rfl⟩ := h
      have hle := (List.takeWhile_prefix isNameChar (l := s)).length_le
      have hpos : 0 < (s.takeWhile isNameChar).length :=
        List.length_pos_iff.mpr (by simpa using hb)
      simp only [List.length_drop]
      omega

/-- What a reference stands for: the group of the name if it has matched, or else the group of the
number. -/
def resolve (m : Match) (name : Text) : Text :=
  match m.named? name, number? name with
  | some s, _ => s
  | none, some (index, []) => (m.group? index).getD []
  | none, _ => []

/-- The text with its references filled with the texts of a match. -/
def fill (m : Match) : Text → Text
  | [] => []
  | '$' :: '$' :: rest => '$' :: fill m rest
  | '$' :: rest =>
    match _h : reference? rest with
    | some (name, rest') => resolve m name ++ fill m rest'
    | none => '$' :: fill m rest
  | c :: rest => c :: fill m rest
termination_by s => s.length
decreasing_by
  all_goals simp only [List.length_cons]
  all_goals try omega
  all_goals
    have := length_of_reference? _h
    omega

/-- The text that takes the place of a match. -/
def expand (m : Match) (replacement : Text) : Text :=
  fill m (translate replacement)

end TabFormat.Pattern.Replacement
