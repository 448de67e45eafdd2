import TabFormat.Text.Blank

/-!
# Letter case of names

Names are written in ASCII, so folding their case needs only the characters whose lower case is an
ASCII letter: the ASCII capitals and the Kelvin sign. Every other character is left as it is, which
keeps it different from every ASCII letter, as its own lower case would. White space has no case, so
it does not matter whether the case is folded before white space is taken away or after it.
-/

namespace TabFormat.Text

/-- The ASCII letter that is the lower case of the character, or else the character itself. -/
def foldChar (c : Char) : Char :=
  if c = '\u212a' then 'k' else c.toLower

/-- The text with every character folded. -/
def fold (s : Text) : Text :=
  s.map foldChar

/-- Whether two texts differ in the case of ASCII letters at most. -/
def eqIgnoringCase (s t : Text) : Bool :=
  s.map Char.toLower == t.map Char.toLower

/-! ### What does not see the case -/

/-- The characters that change when they are folded. -/
def capitals : List Char :=
  "ABCDEFGHIJKLMNOPQRSTUVWXYZ\u212a".toList

theorem foldChar_of_notMem {c : Char} (h : c ∉ capitals) : foldChar c = c := by
  have hcapital : ∀ n < 0x5B, 0x41 ≤ n → Char.ofNat n ∈ capitals := by decide
  rw [foldChar, if_neg]
  · refine dif_neg fun hc => h ?_
    have hmem := hcapital c.toNat (Nat.lt_succ_of_le hc.2) hc.1
    rwa [Char.ofNat_toNat] at hmem
  · rintro rfl
    exact h (by decide)

/-- A function that does not tell the capitals from their lower case does not see whether the case
was folded. -/
theorem apply_foldChar {α : Type} {f : Char → α}
    (h : capitals.map (fun c => f (foldChar c)) = capitals.map f) (c : Char) :
    f (foldChar c) = f c := by
  by_cases hc : c ∈ capitals
  · exact List.map_inj_left.mp h c hc
  · rw [foldChar_of_notMem hc]

theorem isBlank_foldChar (c : Char) : isBlank (foldChar c) = isBlank c :=
  apply_foldChar (by decide) c

theorem foldChar_foldChar (c : Char) : foldChar (foldChar c) = foldChar c :=
  apply_foldChar (by decide) c

theorem fold_append (s t : Text) : fold (s ++ t) = fold s ++ fold t :=
  List.map_append

theorem fold_fold (s : Text) : fold (fold s) = fold s := by
  rw [fold, fold, List.map_map]
  exact List.map_congr_left fun c _ => foldChar_foldChar c

/-- It does not matter whether the case is folded before white space is taken away or after it. -/
theorem trim_fold (s : Text) : trim (fold s) = fold (trim s) := by
  have hcomp : isBlank ∘ foldChar = isBlank := funext isBlank_foldChar
  simp only [trim, trimStart, trimEnd, fold, List.dropWhile_map, ← List.map_reverse, hcomp]

theorem toLower_of_notMem {c : Char} (h : c ∉ capitals) : c.toLower = c := by
  have hfold := foldChar_of_notMem h
  rwa [foldChar, if_neg] at hfold
  rintro rfl
  exact h (by decide)

/-- A function that does not tell the capitals from their lower case does not see the case. -/
theorem apply_toLower {α : Type} {f : Char → α}
    (h : capitals.map (fun c => f c.toLower) = capitals.map f) (c : Char) :
    f c.toLower = f c := by
  by_cases hc : c ∈ capitals
  · exact List.map_inj_left.mp h c hc
  · rw [toLower_of_notMem hc]

theorem eqIgnoringCase_iff {s t : Text} :
    eqIgnoringCase s t = true ↔ s.map Char.toLower = t.map Char.toLower :=
  beq_iff_eq

theorem trim_map_toLower (s : Text) : trim (s.map Char.toLower) = (trim s).map Char.toLower := by
  have hblank : isBlank ∘ Char.toLower = isBlank := funext (apply_toLower (by decide))
  simp only [trim, trimStart, trimEnd, List.dropWhile_map, ← List.map_reverse, hblank]

/-- Texts that differ in letter case differ in letter case without the white space around them. -/
theorem eqIgnoringCase_trim {s t : Text} (h : eqIgnoringCase s t = true) :
    eqIgnoringCase s.trim t.trim = true := by
  rw [eqIgnoringCase_iff] at h ⊢
  rw [← trim_map_toLower, ← trim_map_toLower, h]

end TabFormat.Text
