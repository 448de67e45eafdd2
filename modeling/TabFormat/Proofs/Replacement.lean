import Mathlib.Data.List.Basic
import Mathlib.Data.List.TakeWhile
import TabFormat.Builtin.Replace

/-!
# What replacement texts refer to

A replacement text is read from left to right: `$$` is a dollar sign, `$&` the match, `$` with one
or two digits a group by number, `$<name>` a group by name, and all the rest stands for itself. The
text that takes the place of a match is not found in this way. References are first put in braces,
and the braces are read again by other rules: a name in them ends at the first character that
cannot occur in names, and a name of digits may also be a number. Both ways agree on references by
number, unless a group is named by the digits, and on names of name characters, unless such a name
is a number and no group of that name has matched.

## Main definitions

* `Part`, `parts` : the characters and references of a replacement text.
* `Part.meaning` : what a part refers to.
* `Part.filled` : what takes its place.
* `Part.Clear` : the parts that the rules for braces read as they are meant.

## Main results

* `translate_eq` : a translated text consists of its translated parts.
* `fill_append` : a text up to a closing brace is filled on its own.
* `expand_eq_filled` : a text is filled part by part, and clear parts with what they refer to.
-/

namespace TabFormat.Pattern.Replacement

open Text

/-! ### The parts of a replacement text -/

/-- A part of a replacement text. -/
inductive Part where
  /-- A character that stands for itself. -/
  | char (c : Char)
  /-- A reference to the match. -/
  | whole
  /-- A reference to a group by number. -/
  | numbered (digits : Text)
  /-- A reference to a group by name. -/
  | named (name : Text)
deriving DecidableEq, Repr

namespace Part

/-- The part that a dollar sign and the text after it begin with, and what follows the part. -/
def read : Text → Part × Text
  | '$' :: s => (.char '$', s)
  | '&' :: s => (.whole, s)
  | '<' :: s =>
    let name := s.takeWhile (· != '>')
    if name ≠ [] ∧ '>' ∈ s then (.named name, s.drop (name.length + 1)) else (.char '$', '<' :: s)
  | s =>
    let digits := (s.take 2).takeWhile Char.isDigit
    if digits = [] then (.char '$', s) else (.numbered digits, s.drop digits.length)

theorem length_read_le (s : Text) : (read s).2.length ≤ s.length := by
  fun_cases read s
  all_goals simp only [List.length_cons, List.length_drop]
  all_goals omega

/-- The part as it is translated. -/
def translated : Part → Text
  | char c => if c = '$' then ['$', '$'] else [c]
  | whole => braced ['0']
  | numbered name | named name => braced name

/-- What the part refers to. -/
def meaning (m : Match) : Part → Text
  | char c => [c]
  | whole => (m.group? 0).getD []
  | numbered digits => (m.group? (ofDigits 10 digits)).getD []
  | named name => (m.named? name).getD []

/-- What takes the place of the part. A name in braces ends at the first character that cannot
occur in names. If that is a brace, then it ends the reference, and otherwise there is none. -/
def filled (m : Match) : Part → Text
  | char c => [c]
  | whole => resolve m ['0']
  | numbered digits => resolve m digits
  | named name =>
    let front := name.takeWhile isNameChar
    match name.dropWhile isNameChar with
    | [] => resolve m name
    | c :: back =>
      if c = '}' ∧ front ≠ [] then resolve m front ++ fill m (back ++ ['}'])
      else '$' :: '{' :: (front ++ fill m (c :: back ++ ['}']))

/-- References that have the same meaning in braces. -/
def Clear (m : Match) : Part → Prop
  | char _ => True
  | whole => m.named? ['0'] = none
  | numbered digits => m.named? digits = none
  | named name => name.all isNameChar ∧ (name.all Char.isDigit → (m.named? name).isSome)

instance decidableClear (m : Match) : (part : Part) → Decidable (part.Clear m)
  | char _ => inferInstanceAs (Decidable True)
  | whole => inferInstanceAs (Decidable (m.named? ['0'] = none))
  | numbered digits => inferInstanceAs (Decidable (m.named? digits = none))
  | named name => inferInstanceAs (Decidable
      (name.all isNameChar ∧ (name.all Char.isDigit → (m.named? name).isSome)))

/-- Names are not empty, and numbers have one or two digits. -/
def Proper : Part → Prop
  | char _ | whole => True
  | numbered digits => digits ≠ [] ∧ digits.length ≤ 2 ∧ ∀ c ∈ digits, c.isDigit
  | named name => name ≠ []

end Part

/-- The parts of a replacement text. -/
def parts : Text → List Part
  | [] => []
  | '$' :: s => (Part.read s).1 :: parts (Part.read s).2
  | c :: s => .char c :: parts s
termination_by s => s.length
decreasing_by
  all_goals simp only [List.length_cons]
  · have := Part.length_read_le s
    omega
  · omega

/-! ### Translation -/

theorem drop_length_takeWhile (p : Char → Bool) (s : Text) :
    s.drop (s.takeWhile p).length = s.dropWhile p := by
  calc s.drop (s.takeWhile p).length
    _ = (s.takeWhile p ++ s.dropWhile p).drop (s.takeWhile p).length := by
      rw [List.takeWhile_append_dropWhile]
    _ = s.dropWhile p := List.drop_left

theorem dropWhile_ne_eq_nil_iff {a : Char} {s : Text} : s.dropWhile (· != a) = [] ↔ a ∉ s := by
  rw [List.dropWhile_eq_nil_iff]
  constructor
  · intro h ha
    simpa using h a ha
  · rintro h c hc
    simpa using ne_of_mem_of_not_mem hc h

theorem angled?_of_mem {s : Text} (hname : s.takeWhile (· != '>') ≠ []) (hclosed : '>' ∈ s) :
    angled? s =
      some (s.takeWhile (· != '>'), s.drop ((s.takeWhile (· != '>')).length + 1)) := by
  obtain ⟨c, back, hback⟩ : ∃ c back, s.dropWhile (· != '>') = c :: back :=
    List.exists_cons_of_ne_nil (mt dropWhile_ne_eq_nil_iff.mp (not_not.mpr hclosed))
  simp only [angled?, drop_length_takeWhile, ← List.drop_drop, hback]
  simp [hname]

theorem angled?_eq_none {s : Text} (h : ¬(s.takeWhile (· != '>') ≠ [] ∧ '>' ∈ s)) :
    angled? s = none := by
  simp only [angled?, drop_length_takeWhile]
  rw [not_and', not_not] at h
  cases hback : s.dropWhile (· != '>') with
  | nil => rfl
  | cons c back =>
    have hclosed : '>' ∈ s := by
      by_contra hopen
      simp [dropWhile_ne_eq_nil_iff.mpr hopen] at hback
    simp [h hclosed]

theorem Part.read_angle (s : Text) :
    Part.read ('<' :: s) = match angled? s with
      | some (name, rest) => (.named name, rest)
      | none => (.char '$', '<' :: s) := by
  rw [Part.read]
  split
  · rename_i h
    rw [angled?_of_mem h.1 h.2]
  · rename_i h
    rw [angled?_eq_none h]

theorem dollar_eq (s : Text) : dollar s = ((Part.read s).1.translated, (Part.read s).2) := by
  fun_cases dollar s with
  | case1 => rfl
  | case2 s => rfl
  | case3 s h => rfl
  | case4 s name rest hangled => rw [Part.read_angle, hangled]; rfl
  | case5 s hangled => rw [Part.read_angle, hangled]; rfl
  | case6 c hdollar hmatch hangle hc => simp [Part.read, Part.translated, *]
  | case7 c hdollar hmatch hangle hc d s hd => simp [Part.read, Part.translated, *]
  | case8 c hdollar hmatch hangle hc d s hd => simp [Part.read, Part.translated, *]
  | case9 c s hdollar hmatch hangle hc => simp [Part.read, Part.translated, *]

/-- **A translated text** consists of its translated parts. -/
theorem translate_eq (s : Text) : translate s = (parts s).flatMap Part.translated := by
  fun_induction parts s with
  | case1 => simp [translate]
  | case2 s ih => rw [translate, if_pos rfl, dollar_eq, ih, List.flatMap_cons]
  | case3 c s hc ih =>
    rw [translate, if_neg hc, ih, List.flatMap_cons, Part.translated, if_neg hc]
    rfl

/-! ### Names and references -/

theorem toNat_le_of_isDigit {c : Char} (h : c.isDigit) : c.toNat ≤ 57 := by
  simp only [Char.isDigit, Bool.and_eq_true, decide_eq_true_eq, UInt32.le_iff_toNat_le] at h
  exact h.2

theorem isNameChar_of_isDigit {c : Char} (h : c.isDigit) : isNameChar c := by
  have hascii : c.toNat < 128 := Nat.lt_of_le_of_lt (toNat_le_of_isDigit h) (by decide)
  simp [isNameChar, isAlphanumeric, hascii, Char.isAlphanum, h]

theorem exists_of_not_all {s : Text} (h : ¬∀ c ∈ s, isNameChar c) :
    ∃ front c back, s = front ++ c :: back ∧ (∀ d ∈ front, isNameChar d) ∧
      isNameChar c = false := by
  obtain ⟨c, back, hback⟩ : ∃ c back, s.dropWhile isNameChar = c :: back :=
    List.exists_cons_of_ne_nil (mt List.dropWhile_eq_nil_iff.mp h)
  refine ⟨s.takeWhile isNameChar, c, back, ?_, fun d hd => List.mem_takeWhile_imp hd, ?_⟩
  · rw [← hback, List.takeWhile_append_dropWhile]
  · simpa [hback] using List.head?_dropWhile_not isNameChar s

variable {m : Match} {front back : Text} {c : Char}

theorem takeWhile_append_cons (hfront : ∀ d ∈ front, isNameChar d) (hc : isNameChar c = false) :
    (front ++ c :: back).takeWhile isNameChar = front := by
  rw [List.takeWhile_append_of_pos hfront, List.takeWhile_cons_of_neg (by simp [hc]),
    List.append_nil]

theorem dropWhile_append_cons (hfront : ∀ d ∈ front, isNameChar d) (hc : isNameChar c = false) :
    (front ++ c :: back).dropWhile isNameChar = c :: back := by
  rw [List.dropWhile_append_of_pos hfront, List.dropWhile_cons_of_neg (by simp [hc])]

/-- A name ends at the first character that cannot occur in names. -/
theorem name?_append_cons (close : Char) (hfront : ∀ d ∈ front, isNameChar d)
    (hc : isNameChar c = false) :
    name? close (front ++ c :: back) =
      if c = close ∧ front ≠ [] then some (front, back) else none := by
  simp [name?, takeWhile_append_cons hfront hc]

theorem reference?_brace (s : Text) : reference? ('{' :: s) = name? '}' s := by
  simp [reference?]

theorem reference?_of_ne {s : Text} (h : s.head? ≠ some '{') :
    reference? s = if s.takeWhile isNameChar = [] then none
      else some (s.takeWhile isNameChar, s.dropWhile isNameChar) := by
  unfold reference?
  split
  · simp at h
  · simp [drop_length_takeWhile]

/-- What follows a reference is part of the text. -/
theorem suffix_of_reference? {s name rest : Text} (h : reference? s = some (name, rest)) :
    rest <:+ s := by
  by_cases hbrace : s.head? = some '{'
  · obtain ⟨inside, rfl⟩ := List.head?_eq_some_iff.mp hbrace
    rw [reference?_brace, name?, drop_length_takeWhile] at h
    have hsuffix := List.dropWhile_suffix isNameChar (l := inside)
    cases hinside : inside.dropWhile isNameChar with
    | nil => simp [hinside] at h
    | cons c back =>
      simp only [hinside] at h hsuffix
      obtain ⟨-, -, rfl⟩ : _ ∧ _ = name ∧ back = rest := by simpa using h
      exact ((List.suffix_cons c back).trans hsuffix).trans (List.suffix_cons '{' inside)
  · rw [reference?_of_ne hbrace] at h
    obtain ⟨-, -, rfl⟩ : _ ∧ _ = name ∧ _ = rest := by simpa using h
    exact List.dropWhile_suffix isNameChar

/-- A reference in a text with a closing brace does not reach beyond the text. -/
theorem reference?_append {t : Text} (h : '}' ∈ t) (s : Text) :
    reference? (t ++ s) = (reference? t).map fun found => (found.1, found.2 ++ s) := by
  -- A brace does not occur in names, so every name at the start of `t` ends in `t`.
  have hclose : isNameChar '}' = false := by decide
  by_cases hbrace : t.head? = some '{'
  · obtain ⟨inside, rfl⟩ := List.head?_eq_some_iff.mp hbrace
    have hinside : '}' ∈ inside := by simpa using h
    obtain ⟨front, c, back, rfl, hfront, hc⟩ :=
      exists_of_not_all fun hall => by simpa [hclose] using hall _ hinside
    rw [List.cons_append, reference?_brace, reference?_brace, List.append_assoc, List.cons_append,
      name?_append_cons '}' hfront hc, name?_append_cons '}' hfront hc]
    split <;> rfl
  · obtain ⟨front, c, back, rfl, hfront, hc⟩ :=
      exists_of_not_all fun hall => by simpa [hclose] using hall _ h
    have hbrace' : (front ++ c :: back ++ s).head? ≠ some '{' := by
      simpa using hbrace
    rw [reference?_of_ne hbrace, reference?_of_ne hbrace', List.append_assoc, List.cons_append,
      takeWhile_append_cons hfront hc, takeWhile_append_cons hfront hc,
      dropWhile_append_cons hfront hc, dropWhile_append_cons hfront hc]
    split <;> rfl

/-! ### Filling -/

theorem fill_cons {c : Char} (h : c ≠ '$') (s : Text) : fill m (c :: s) = c :: fill m s :=
  fill.eq_4 m c s (fun _ hc => absurd hc h) h

theorem fill_append_of_notMem {t : Text} (h : '$' ∉ t) (s : Text) :
    fill m (t ++ s) = t ++ fill m s := by
  induction t with
  | nil => rfl
  | cons c t ih =>
    rw [List.mem_cons, not_or] at h
    rw [List.cons_append, fill_cons (Ne.symm h.1), ih h.2, List.cons_append]

theorem fill_of_reference {s name rest : Text} (h : reference? s = some (name, rest)) :
    fill m ('$' :: s) = resolve m name ++ fill m rest := by
  have hne : ∀ s', s = '$' :: s' → False := by
    rintro s' rfl
    have hdollar : isNameChar '$' = false := by decide
    rw [reference?_of_ne (by simp)] at h
    simp [hdollar] at h
  rw [fill.eq_3 m s hne]
  split <;> simp_all

theorem fill_of_not_reference {s : Text} (hne : s.head? ≠ some '$') (h : reference? s = none) :
    fill m ('$' :: s) = '$' :: fill m s := by
  rw [fill.eq_3 m s (by rintro s' rfl; simp at hne)]
  split <;> simp_all

theorem getLast?_brace (t : Text) : ∀ c ∈ (t ++ ['}']).getLast?, c = '}' := by
  simp

theorem getLast?_of_suffix {s t : Text} (hsuffix : s <:+ t) (h : ∀ c ∈ t.getLast?, c = '}') :
    ∀ c ∈ s.getLast?, c = '}' := by
  obtain ⟨front, rfl⟩ := hsuffix
  intro c hc
  exact h c (by simp [List.getLast?_append, Option.mem_def.mp hc])

theorem brace_mem_of_getLast? {t : Text} (h : ∀ c ∈ ('$' :: t).getLast?, c = '}') : '}' ∈ t := by
  cases hlast : t.getLast? with
  | none => simp [List.getLast?_eq_none_iff.mp hlast] at h
  | some c =>
    obtain rfl : c = '}' := getLast?_of_suffix (List.suffix_cons '$' t) h c hlast
    exact List.mem_of_getLast? hlast

/-- **A text up to a closing brace** is filled on its own. -/
theorem fill_append {t : Text} (h : ∀ c ∈ t.getLast?, c = '}') (s : Text) :
    fill m (t ++ s) = fill m t ++ fill m s := by
  fun_induction fill m t with
  | case1 => rfl
  | case2 rest ih =>
    have hrest := getLast?_of_suffix ((List.suffix_cons '$' rest).trans (List.suffix_cons _ _)) h
    rw [List.cons_append, List.cons_append, fill.eq_2, ih hrest, List.cons_append]
  | case3 rest hne name rest' href ih =>
    have hrest' := getLast?_of_suffix ((suffix_of_reference? href).trans (List.suffix_cons '$' _)) h
    have href' : reference? (rest ++ s) = some (name, rest' ++ s) := by
      rw [reference?_append (brace_mem_of_getLast? h), href, Option.map_some]
    rw [List.cons_append, fill_of_reference href', ih hrest', List.append_assoc]
  | case4 rest hne href ih =>
    have hhead : (rest ++ s).head? ≠ some '$' := by
      cases rest with
      | nil => simp at h
      | cons c rest => simpa using hne rest
    have href' : reference? (rest ++ s) = none := by
      rw [reference?_append (brace_mem_of_getLast? h), href, Option.map_none]
    rw [List.cons_append, fill_of_not_reference hhead href',
      ih (getLast?_of_suffix (List.suffix_cons '$' rest) h), List.cons_append]
  | case5 c rest _ hc ih =>
    have hrest := getLast?_of_suffix (List.suffix_cons c rest) h
    rw [List.cons_append, fill_cons hc, ih hrest, List.cons_append]

/-! ### What takes the place of a part -/

theorem Part.proper_read (s : Text) : (Part.read s).1.Proper := by
  fun_cases Part.read s with
  | case1 | case2 | case4 | case5 => trivial
  | case3 s name h => exact h.1
  | case6 s _ _ _ digits h =>
    refine ⟨h, ?_, fun c hc => List.mem_takeWhile_imp hc⟩
    exact ((List.takeWhile_prefix _).length_le).trans (List.length_take_le 2 s)

theorem Part.proper_of_mem_parts {s : Text} {part : Part} (h : part ∈ parts s) : part.Proper := by
  fun_induction parts s with
  | case1 => simp at h
  | case2 s ih =>
    obtain rfl | h := List.mem_cons.mp h
    · exact Part.proper_read s
    · exact ih h
  | case3 c s _ ih =>
    obtain rfl | h := List.mem_cons.mp h
    · trivial
    · exact ih h

/-- A name in braces ends at the first character that cannot occur in names. -/
theorem Part.filled_named (hfront : ∀ d ∈ front, isNameChar d) (hc : isNameChar c = false) :
    (Part.named (front ++ c :: back)).filled m =
      if c = '}' ∧ front ≠ [] then resolve m front ++ fill m (back ++ ['}'])
      else '$' :: '{' :: (front ++ fill m (c :: back ++ ['}'])) := by
  rw [Part.filled, takeWhile_append_cons hfront hc, dropWhile_append_cons hfront hc]

theorem Part.filled_named_of_isNameChar {name : Text} (h : ∀ c ∈ name, isNameChar c) :
    (Part.named name).filled m = resolve m name := by
  rw [Part.filled, List.dropWhile_eq_nil_iff.mpr h]

/-- A name of name characters in braces stands for what it resolves to. -/
theorem fill_braced_append {name : Text} (hne : name ≠ []) (h : ∀ c ∈ name, isNameChar c)
    (s : Text) : fill m (braced name ++ s) = resolve m name ++ fill m s := by
  have href : reference? ('{' :: (name ++ '}' :: s)) = some (name, s) := by
    rw [reference?_brace, name?_append_cons '}' h (by decide), if_pos ⟨rfl, hne⟩]
  simpa [braced] using fill_of_reference (m := m) href

/-- The rest of any other name is filled as text. -/
theorem fill_braced_append_cons (hfront : ∀ d ∈ front, isNameChar d) (hc : isNameChar c = false)
    (s : Text) :
    fill m (braced (front ++ c :: back) ++ s) =
      (Part.named (front ++ c :: back)).filled m ++ fill m s := by
  have hbraced : braced (front ++ c :: back) ++ s =
      '$' :: '{' :: (front ++ c :: (back ++ ['}'] ++ s)) := by simp [braced]
  have href : reference? ('{' :: (front ++ c :: (back ++ ['}'] ++ s))) =
      if c = '}' ∧ front ≠ [] then some (front, back ++ ['}'] ++ s) else none := by
    rw [reference?_brace, name?_append_cons '}' hfront hc]
  rw [Part.filled_named hfront hc, hbraced]
  by_cases hclose : c = '}' ∧ front ≠ []
  · rw [if_pos hclose] at href ⊢
    rw [fill_of_reference href, fill_append (getLast?_brace back), List.append_assoc]
  · rw [if_neg hclose] at href ⊢
    have hdollar : '$' ∉ front := fun hmem => absurd (hfront '$' hmem) (by decide)
    have hback : fill m (c :: (back ++ ['}'] ++ s)) = fill m (c :: back ++ ['}']) ++ fill m s :=
      fill_append (getLast?_brace (c :: back)) s
    rw [fill_of_not_reference (by simp) href, fill_cons (by decide),
      fill_append_of_notMem hdollar, hback]
    simp

/-- **A part is filled on its own.** -/
theorem fill_translated_append {part : Part} (h : part.Proper) (s : Text) :
    fill m (part.translated ++ s) = part.filled m ++ fill m s := by
  cases part with
  | char c =>
    rw [Part.translated, Part.filled]
    split
    · rename_i hc
      rw [hc]
      exact fill.eq_2 m s
    · rename_i hc
      exact fill_cons hc s
  | whole =>
    have hname : ∀ c ∈ ['0'], isNameChar c :=
      List.forall_mem_singleton.mpr (isNameChar_of_isDigit rfl)
    exact fill_braced_append (List.cons_ne_nil _ _) hname s
  | numbered digits =>
    have hname : ∀ c ∈ digits, isNameChar c := fun c hc => isNameChar_of_isDigit (h.2.2 c hc)
    exact fill_braced_append h.1 hname s
  | named name =>
    rw [Part.translated]
    by_cases hname : ∀ c ∈ name, isNameChar c
    · rw [Part.filled_named_of_isNameChar hname]
      exact fill_braced_append h hname s
    · obtain ⟨front, c, back, rfl, hfront, hc⟩ := exists_of_not_all hname
      exact fill_braced_append_cons hfront hc s

theorem fill_flatMap_translated {ps : List Part} (h : ∀ part ∈ ps, part.Proper) :
    fill m (ps.flatMap Part.translated) = ps.flatMap (Part.filled m) := by
  induction ps with
  | nil => simp [fill]
  | cons part ps ih =>
    rw [List.forall_mem_cons] at h
    rw [List.flatMap_cons, List.flatMap_cons, fill_translated_append h.1, ih h.2]

/-! ### Clear references -/

theorem hexValue_le_of_isDigit {c : Char} (h : c.isDigit) : (hexValue? c).getD 0 ≤ 9 := by
  have hle := toNat_le_of_isDigit h
  have hzero : '0'.toNat = 48 := rfl
  rw [hexValue?, if_pos h, Option.getD_some]
  omega

/-- One or two digits are a number. -/
theorem number?_of_digits {digits : Text} (h : (Part.numbered digits).Proper) :
    number? digits = some (ofDigits 10 digits, []) := by
  obtain ⟨hne, hlen, hdigit⟩ := h
  have hlimit : ofDigits 10 digits ≤ wordLimit := by
    match digits, hlen with
    | [], _ => decide
    | [c], _ =>
      have hc := hexValue_le_of_isDigit (hdigit c (by simp))
      simp [ofDigits, wordLimit]
      omega
    | [c, d], _ =>
      have hc := hexValue_le_of_isDigit (hdigit c (by simp))
      have hd := hexValue_le_of_isDigit (hdigit d (by simp))
      simp [ofDigits, wordLimit]
      omega
  rw [number?, List.takeWhile_eq_self_iff.mpr hdigit]
  simp [hne, Nat.not_lt.mpr hlimit]

theorem isDigit_of_number? {name : Text} {n : Nat} (h : number? name = some (n, [])) :
    ∀ c ∈ name, c.isDigit := by
  rw [number?, drop_length_takeWhile] at h
  split at h
  · simp at h
  · rw [Option.some.injEq, Prod.mk.injEq] at h
    exact List.dropWhile_eq_nil_iff.mp h.2

theorem resolve_eq_named {name : Text}
    (h : name.all Char.isDigit → (m.named? name).isSome) :
    resolve m name = (m.named? name).getD [] := by
  unfold resolve
  split
  · rename_i s hnamed
    rw [hnamed, Option.getD_some]
  · rename_i n hnamed hnumber
    simpa [hnamed] using h (List.all_eq_true.mpr (isDigit_of_number? hnumber))
  · rename_i hnamed _
    rw [hnamed, Option.getD_none]

theorem resolve_eq_group {digits : Text} (hproper : (Part.numbered digits).Proper)
    (h : m.named? digits = none) :
    resolve m digits = (m.group? (ofDigits 10 digits)).getD [] := by
  rw [resolve, h, number?_of_digits hproper]

/-- Clear parts are filled with what they refer to. -/
theorem Part.filled_of_clear {part : Part} (hproper : part.Proper) (hclear : part.Clear m) :
    part.filled m = part.meaning m := by
  cases part with
  | char c => rfl
  | whole => exact resolve_eq_group (by simp [Part.Proper]) hclear
  | numbered digits => exact resolve_eq_group hproper hclear
  | named name =>
    rw [Part.filled_named_of_isNameChar (List.all_eq_true.mp hclear.1), resolve_eq_named hclear.2,
      Part.meaning]

/-- **A text is filled part by part**, and if its references are clear, with what they refer to. -/
theorem expand_eq_filled (m : Match) (s : Text) :
    expand m s = (parts s).flatMap (Part.filled m) ∧
      ((∀ part ∈ parts s, part.Clear m) → expand m s = (parts s).flatMap (Part.meaning m)) := by
  have hfilled : expand m s = (parts s).flatMap (Part.filled m) := by
    rw [expand, translate_eq, fill_flatMap_translated fun _ => Part.proper_of_mem_parts]
  refine ⟨hfilled, fun hclear => ?_⟩
  rw [hfilled]
  refine List.flatMap_congr fun part hpart => ?_
  exact Part.filled_of_clear (Part.proper_of_mem_parts hpart) (hclear part hpart)

/-- The match of `(?<n>a)(b)` in `xabz`. -/
def sampleMatch : Match where
  start := ⟨1, "x".toList, "abz".toList⟩
  stop := ⟨3, "bax".toList, "z".toList⟩
  slots := #[some ⟨1, "x".toList, "abz".toList⟩, some ⟨3, "bax".toList, "z".toList⟩,
    some ⟨1, "x".toList, "abz".toList⟩, some ⟨2, "ax".toList, "bz".toList⟩,
    some ⟨2, "ax".toList, "bz".toList⟩, some ⟨3, "bax".toList, "z".toList⟩]
  names := [("n".toList, 1)]

/-- Braces and dollar signs next to clear references. -/
theorem expand_eq_filled_of_clear_references :
    expand sampleMatch "$2-\x7b$<n>\x7d $$$&$1st $<m>$3".toList = "b-\x7ba\x7d $abast ".toList := by
  have hmeaning := (expand_eq_filled sampleMatch "$2-\x7b$<n>\x7d $$$&$1st $<m>$3".toList).2
    (by decide +kernel)
  rw [hmeaning]
  decide +kernel

/-- In `$<n}>`, the brace in the name closes the reference to the group `n`, although no group
has the name `n}`. -/
theorem expand_ne_meaning_of_brace_in_name :
    (parts "$<n\x7d>".toList).flatMap (Part.meaning sampleMatch) = [] ∧
      expand sampleMatch "$<n\x7d>".toList = "a\x7d".toList ∧
      (Replace.run ["xabz".toList, "(?<n>a)(b)".toList, "$<n\x7d>".toList]).toOption =
        some "xa\x7dz".toList := by
  decide +kernel

end TabFormat.Pattern.Replacement
