import TabFormat.Text.Basic

/-!
# White space

White space is the Unicode property of that name: 25 characters, among them the line and paragraph
separators and the no-break spaces, but not the zero-width space.
-/

namespace TabFormat.Text

/-- The code points of the Unicode property White_Space, as closed ranges in ascending order. -/
def blankRanges : List (Nat × Nat) :=
  [(0x09, 0x0D), (0x20, 0x20), (0x85, 0x85), (0xA0, 0xA0), (0x1680, 0x1680), (0x2000, 0x200A),
   (0x2028, 0x2029), (0x202F, 0x202F), (0x205F, 0x205F), (0x3000, 0x3000)]

/-- Whether the character is white space. -/
def isBlank (c : Char) : Bool :=
  blankRanges.any fun r => r.1 ≤ c.toNat && c.toNat ≤ r.2

example : (blankRanges.map fun r => r.2 + 1 - r.1).sum = 25 := by decide

example : isBlank '\u00a0' = true ∧ isBlank '\u200b' = false := by decide

/-- The text without the white space at its start. -/
def trimStart (s : Text) : Text :=
  s.dropWhile isBlank

/-- The text without the white space at its end. -/
def trimEnd (s : Text) : Text :=
  (s.reverse.dropWhile isBlank).reverse

/-- The text without the white space at both ends. -/
def trim (s : Text) : Text :=
  trimEnd (trimStart s)

/-! ### Trimming -/

/-- White space is taken away from both ends. -/
theorem exists_trim (s : Text) :
    ∃ lead trail, s = lead ++ (trim s ++ trail) ∧ (∀ c ∈ lead, isBlank c = true) ∧
      ∀ c ∈ trail, isBlank c = true := by
  refine ⟨s.takeWhile isBlank, ((trimStart s).reverse.takeWhile isBlank).reverse, ?_,
    fun c hc => List.all_eq_true.mp List.all_takeWhile c hc, fun c hc => ?_⟩
  · have hend : trim s ++ ((trimStart s).reverse.takeWhile isBlank).reverse = trimStart s := by
      rw [trim, trimEnd, ← List.reverse_append, List.takeWhile_append_dropWhile,
        List.reverse_reverse]
    rw [hend, trimStart, List.takeWhile_append_dropWhile]
  · exact List.all_eq_true.mp List.all_takeWhile c (List.mem_reverse.mp hc)

/-- A text that begins and ends with other characters, with white space around it. -/
theorem trim_append {lead s trail : Text} (hlead : ∀ c ∈ lead, isBlank c = true)
    (htrail : ∀ c ∈ trail, isBlank c = true) (hhead : ∀ c ∈ s.head?, isBlank c = false)
    (hlast : ∀ c ∈ s.getLast?, isBlank c = false) : trim (lead ++ (s ++ trail)) = s := by
  have hstart (t : Text) (ht : ∀ c ∈ t.head?, isBlank c = false) : t.dropWhile isBlank = t := by
    cases t with
    | nil => rfl
    | cons c t => rw [List.dropWhile_cons_of_neg (by simp [ht c rfl])]
  have htrail' : ∀ c ∈ trail.reverse, isBlank c = true := fun c hc =>
    htrail c (List.mem_reverse.mp hc)
  rw [trim, trimStart, List.dropWhile_append_of_pos hlead, trimEnd]
  cases hs : s with
  | nil =>
    have hnil : (trail ++ []).dropWhile isBlank = [] := List.dropWhile_append_of_pos htrail
    rw [List.append_nil] at hnil
    rw [List.nil_append, hnil]
    rfl
  | cons c t =>
    rw [← hs, hstart (s ++ trail) (by simpa [hs] using hhead), List.reverse_append,
      List.dropWhile_append_of_pos htrail', hstart s.reverse (by rwa [List.head?_reverse]),
      List.reverse_reverse]

theorem head?_trim (s : Text) : ∀ c ∈ (trim s).head?, isBlank c = false := by
  intro c hc
  obtain ⟨rest, hrest⟩ : trim s <+: trimStart s := by
    have hfront : trim s <+: (trimStart s).reverse.reverse :=
      List.reverse_prefix.mpr (List.dropWhile_suffix isBlank)
    rwa [List.reverse_reverse] at hfront
  have hstop := List.head?_dropWhile_not isBlank s
  rw [← trimStart, ← hrest, List.head?_append, Option.mem_def.mp hc] at hstop
  simpa using hstop

theorem getLast?_trim (s : Text) : ∀ c ∈ (trim s).getLast?, isBlank c = false := by
  intro c hc
  have hstop := List.head?_dropWhile_not isBlank (trimStart s).reverse
  rw [trim, trimEnd, List.getLast?_reverse] at hc
  rw [Option.mem_def.mp hc] at hstop
  simpa using hstop

theorem trim_trim (s : Text) : trim (trim s) = trim s := by
  have hnil : ∀ c ∈ ([] : Text), isBlank c = true := fun c h => absurd h List.not_mem_nil
  have htrim := trim_append hnil hnil (head?_trim s) (getLast?_trim s)
  rwa [List.append_nil, List.nil_append] at htrim

/-- Only white space is taken away from a text, so that its length tells whether there was any. -/
theorem trim_eq_of_length {s : Text} (h : s.trim.length = s.length) : s.trim = s := by
  obtain ⟨lead, trail, hs, -, -⟩ := exists_trim s
  have hlength := congrArg List.length hs
  rw [List.length_append, List.length_append] at hlength
  obtain rfl : lead = [] := List.eq_nil_of_length_eq_zero (by omega)
  obtain rfl : trail = [] := List.eq_nil_of_length_eq_zero (by omega)
  rw [List.append_nil, List.nil_append] at hs
  exact hs.symm

end TabFormat.Text
