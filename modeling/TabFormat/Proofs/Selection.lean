import TabFormat.Config
import TabFormat.Proofs.Names

/-!
# Choosing a format

A key chooses the first format with its label, or else the format at its position. Letter case does
not matter to a key, and neither does white space around it. White space around a label does: a key
never has any when it is compared, so a label with white space around it is never found, and a
format with such a label is chosen by its position at most. There is always a key for a position,
since zeros may stand before its digits until no label is the same.

## Main definitions

* `Text.isNumeral` : the characters that numbers are written with.
* `Text.padded` : the decimal digits of a number after some zeros.

## Main results

* `Text.natural?_padded` : the number that digits are.
* `Config.format?_congr` : letter case does not matter to a key.
* `Config.trim_label_of_formatLabelled?` : labels that are found have no white space around them.
* `Config.choice_of_format` : which formats are chosen by their own labels and positions.
-/

namespace TabFormat

namespace Text

/-! ### Numbers -/

/-- Whether a character occurs in numbers: a digit, or the plus sign before the digits. -/
def isNumeral (c : Char) : Bool :=
  c.isDigit || c == '+'

theorem notMem_capitals_of_isNumeral {c : Char} (h : isNumeral c = true) : c ∉ capitals := by
  have hcapitals : capitals.all (!isNumeral ·) = true := by decide
  intro hc
  have hnot := List.all_eq_true.mp hcapitals c hc
  rw [h] at hnot
  exact absurd hnot Bool.false_ne_true

theorem eq_of_toLower_eq {c d : Char} (hd : isNumeral d = true) (h : c.toLower = d.toLower) :
    c = d := by
  have hcase : ∀ c : Char, isNumeral c.toLower = isNumeral c := apply_toLower (by decide)
  have hc : isNumeral c = true := by rw [← hcase, h, hcase, hd]
  rwa [toLower_of_notMem (notMem_capitals_of_isNumeral hc),
    toLower_of_notMem (notMem_capitals_of_isNumeral hd)] at h

/-- Numbers have no letter case. -/
theorem eq_of_eqIgnoringCase {s t : Text} (ht : ∀ c ∈ t, isNumeral c = true)
    (h : eqIgnoringCase s t = true) : s = t := by
  rw [eqIgnoringCase_iff] at h
  induction t generalizing s with
  | nil => exact List.map_eq_nil_iff.mp h
  | cons d t ih =>
    obtain ⟨c, s', rfl, hc, hs⟩ := List.map_eq_cons_iff.mp h
    obtain ⟨hd, ht⟩ := List.forall_mem_cons.mp ht
    rw [eq_of_toLower_eq hd hc, ih ht hs]

theorem isDigit_of_decimal? {s : Text} {n : Nat} (h : decimal? s = some n) :
    ∀ c ∈ s, c.isDigit = true := by
  rw [decimal?] at h
  split at h
  · simp at h
  · rename_i hdigits
    intro c hc
    have hall : s.all Char.isDigit = true := by
      cases hs : s.all Char.isDigit with
      | true => rfl
      | false => simp [hs] at hdigits
    exact List.all_eq_true.mp hall c hc

theorem isNumeral_of_natural? {s : Text} {n : Nat} (h : natural? s = some n) :
    ∀ c ∈ s, isNumeral c = true := by
  have hdigits {t : Text} (ht : decimal? t = some n) : ∀ c ∈ t, isNumeral c = true := fun c hc => by
    rw [isNumeral, isDigit_of_decimal? ht c hc, Bool.true_or]
  unfold natural? at h
  split at h
  · exact List.forall_mem_cons.mpr ⟨by decide, hdigits h⟩
  · exact hdigits h

/-- Letter case does not matter to whether a text is a number, and to which one. -/
theorem natural?_congr {s t : Text} (h : eqIgnoringCase s t = true) : natural? s = natural? t := by
  have hsymm : eqIgnoringCase t s = true := by rw [eqIgnoringCase_iff] at h ⊢; exact h.symm
  cases ht : natural? t with
  | some n => rw [eq_of_eqIgnoringCase (isNumeral_of_natural? ht) h, ht]
  | none =>
    cases hs : natural? s with
    | none => rfl
    | some n =>
      rw [eq_of_eqIgnoringCase (isNumeral_of_natural? hs) hsymm, hs] at ht
      simp at ht

/-- The decimal digits of a number, after `k` zeros. -/
def padded (k n : Nat) : Text :=
  List.replicate k '0' ++ ofNat n

theorem isDigit_of_mem_padded {k n : Nat} {c : Char} (h : c ∈ padded k n) : c.isDigit = true := by
  rcases List.mem_append.mp h with hzero | hdigit
  · rw [List.eq_of_mem_replicate hzero]
    decide
  · exact Nat.isDigit_of_mem_toDigits (by decide) (by decide) hdigit

theorem padded_ne_nil (k n : Nat) : padded k n ≠ [] :=
  List.append_ne_nil_of_right_ne_nil _ Nat.toDigits_ne_nil

theorem ofDigits_padded (k n : Nat) : ofDigits 10 (padded k n) = n := by
  have hvalue {m : Nat} {digits : Text} (h : ∀ c ∈ digits, c.isDigit = true) :
      digits.foldl (fun m c => 10 * m + (hexValue? c).getD 0) m = Nat.ofDigitChars 10 digits m := by
    induction digits generalizing m with
    | nil => rfl
    | cons c digits ih =>
      obtain ⟨hc, hrest⟩ := List.forall_mem_cons.mp h
      rw [List.foldl_cons, ih hrest, hexValue?, if_pos hc]
      rfl
  have hzeros : (List.replicate k '0').foldl (fun m c => 10 * m + (hexValue? c).getD 0) 0 = 0 := by
    induction k with
    | zero => rfl
    | succ k ih => rwa [List.replicate_succ, List.foldl_cons]
  have hdigits : ∀ c ∈ ofNat n, c.isDigit = true := fun c hc =>
    Nat.isDigit_of_mem_toDigits (by decide) (by decide) hc
  rw [ofDigits, padded, List.foldl_append, hzeros, hvalue hdigits]
  exact Nat.ofDigitChars_toDigits (by decide) (by decide)

/-- **The number that digits are.** -/
theorem natural?_padded (k n : Nat) : natural? (padded k n) = some n := by
  have hdigits : (padded k n).all Char.isDigit = true :=
    List.all_eq_true.mpr fun c hc => isDigit_of_mem_padded hc
  have hdecimal : decimal? (padded k n) = some n := by
    rw [decimal?, hdigits, List.isEmpty_eq_false_iff.mpr (padded_ne_nil k n), ofDigits_padded]
    rfl
  rw [natural?]
  · exact hdecimal
  · intro s hs
    have hplus : '+' ∈ padded k n := hs ▸ List.mem_cons_self
    exact absurd (isDigit_of_mem_padded hplus) (by decide)

theorem isBlank_of_isDigit {c : Char} (h : c.isDigit = true) : isBlank c = false := by
  have hdigits : ∀ n < 58, 48 ≤ n → isBlank (Char.ofNat n) = false := by decide
  simp only [Char.isDigit, Bool.and_eq_true, decide_eq_true_eq, UInt32.le_iff_toNat_le] at h
  have hblank := hdigits c.toNat (Nat.lt_succ_of_le h.2) h.1
  rwa [Char.ofNat_toNat] at hblank

theorem trim_padded (k n : Nat) : (padded k n).trim = padded k n := by
  have hblank (c : Char) (hc : c ∈ padded k n) : isBlank c = false :=
    isBlank_of_isDigit (isDigit_of_mem_padded hc)
  have hnil : ∀ c ∈ ([] : Text), isBlank c = true := fun c h => absurd h List.not_mem_nil
  have htrim := trim_append hnil hnil (fun c hc => hblank c (List.mem_of_mem_head? hc))
    fun c hc => hblank c (List.mem_of_mem_getLast? hc)
  rwa [List.append_nil, List.nil_append] at htrim

end Text

namespace Config

variable {config : Config} {key key' : Text} {entry : LabelledFormat}

/-! ### Labels -/

theorem formatLabelled?_congr (h : Text.eqIgnoringCase key key' = true) :
    config.formatLabelled? key = config.formatLabelled? key' := by
  rw [Text.eqIgnoringCase_iff] at h
  rw [formatLabelled?, formatLabelled?]
  congr 1
  funext f
  rw [Text.eqIgnoringCase, Text.eqIgnoringCase, h]

/-- **Letter case does not matter to a key.** -/
theorem format?_congr (h : Text.eqIgnoringCase key key' = true) :
    config.format? key = config.format? key' := by
  have htrim := Text.eqIgnoringCase_trim h
  rw [format?, format?, formatLabelled?_congr htrim, Text.natural?_congr htrim]

/-- The first format with a label is found by the label. -/
theorem formatLabelled?_label {front back : List LabelledFormat}
    (hformats : config.formats = front ++ entry :: back)
    (hfirst : ∀ f ∈ front, Text.eqIgnoringCase f.label entry.label = false) :
    config.formatLabelled? entry.label = some entry := by
  have hself : Text.eqIgnoringCase entry.label entry.label = true := Text.eqIgnoringCase_iff.mpr rfl
  have hfront : front.find? (fun f => Text.eqIgnoringCase f.label entry.label) = none :=
    List.find?_eq_none.mpr fun f hf => by simp [hfirst f hf]
  rw [formatLabelled?, hformats, List.find?_append, hfront, Option.none_or]
  exact List.find?_cons_of_pos hself

/-- **Labels that are found have no white space around them.** -/
theorem trim_label_of_formatLabelled? (h : config.formatLabelled? key.trim = some entry) :
    entry.label.trim = entry.label := by
  have hlabel : Text.eqIgnoringCase entry.label key.trim = true := by
    simpa using List.find?_some h
  have htrim := Text.eqIgnoringCase_trim hlabel
  rw [Text.trim_trim, Text.eqIgnoringCase_iff] at htrim
  rw [Text.eqIgnoringCase_iff] at hlabel
  have hlength := congrArg List.length (htrim.trans hlabel.symm)
  rw [List.length_map, List.length_map] at hlength
  exact Text.trim_eq_of_length hlength

/-! ### Positions -/

/-- A number that is no label chooses the format at its position. -/
theorem format?_padded {k p : Nat} (h : ∀ f ∈ config.formats, f.label ≠ Text.padded k p) :
    config.format? (Text.padded k p) = config.formatAt? p := by
  have hnone : config.formatLabelled? (Text.padded k p) = none := by
    refine List.find?_eq_none.mpr fun f hf hlabel => h f hf ?_
    refine Text.eq_of_eqIgnoringCase (fun c hc => ?_) hlabel
    rw [Text.isNumeral, Text.isDigit_of_mem_padded hc, Bool.true_or]
  rw [format?, Text.trim_padded, hnone, Text.natural?_padded]
  rfl

theorem formatAt?_eq_getElem {p : Nat} (hp : 1 ≤ p) (h : p - 1 < config.formats.length) :
    config.formatAt? p = some config.formats[p - 1] := by
  rw [formatAt?, if_neg (by omega), List.getElem?_eq_getElem h]

/-- There is a key for every position: with enough zeros before it, a number is longer than all
labels. -/
theorem exists_format?_eq (config : Config) {i : Nat} (h : i < config.formats.length) :
    ∃ key, config.format? key = some config.formats[i] := by
  obtain ⟨k, hk⟩ : ∃ k, ∀ f ∈ config.formats, f.label.length ≤ k := by
    induction config.formats with
    | nil => exact ⟨0, fun f hf => absurd hf List.not_mem_nil⟩
    | cons f formats ih =>
      obtain ⟨k, hk⟩ := ih
      refine ⟨max f.label.length k, List.forall_mem_cons.mpr ⟨by omega, fun g hg => ?_⟩⟩
      have hlength := hk g hg
      omega
  refine ⟨Text.padded (k + 1) (i + 1), ?_⟩
  rw [format?_padded, formatAt?_eq_getElem (Nat.le_add_left 1 i) h]
  · rfl
  · intro f hf heq
    have hlength := hk f hf
    rw [heq, Text.padded, List.length_append, List.length_replicate] at hlength
    omega

/-! ### Labels and positions -/

/-- **Choosing a format.** If no earlier format has its label, a format is chosen by its label, in
any letter case, exactly if the label has no white space around it, or if it stands for the position
of the format and no other label is the same without white space. A format is chosen by its
position, unless a label is that number; and there is a key for every format. -/
theorem choice_of_format (config : Config) :
    (∀ front entry back key, config.formats = front ++ entry :: back →
      (∀ f ∈ front, Text.eqIgnoringCase f.label entry.label = false) →
      Text.eqIgnoringCase key entry.label = true →
      (config.format? key = some entry ↔ entry.label.trim = entry.label ∨
        config.formatLabelled? entry.label.trim = none ∧
          ∃ p, entry.label.trim.natural? = some p ∧ config.formatAt? p = some entry)) ∧
    (∀ p, 1 ≤ p → p ≤ config.formats.length → (∀ f ∈ config.formats, f.label ≠ Text.ofNat p) →
      ∃ h : p - 1 < config.formats.length,
        config.format? (Text.ofNat p) = some config.formats[p - 1]) ∧
    ∀ (i : Nat) (h : i < config.formats.length),
      ∃ key, config.format? key = some config.formats[i] := by
  refine ⟨fun front entry back key hformats hfirst hkey => ?_, fun p hp hle hlabel => ?_,
    fun i h => config.exists_format?_eq h⟩
  · rw [format?_congr hkey, format?]
    constructor
    · intro h
      cases hfound : config.formatLabelled? entry.label.trim with
      | none =>
        rw [hfound] at h
        exact .inr ⟨rfl, Option.bind_eq_some_iff.mp h⟩
      | some f =>
        rw [hfound] at h
        obtain rfl : f = entry := Option.some.inj h
        exact .inl (trim_label_of_formatLabelled? hfound)
    · rintro (htrim | ⟨hnone, p, hp, hentry⟩)
      · rw [htrim, formatLabelled?_label hformats hfirst]
        rfl
      · rw [hnone, hp]
        exact hentry
  · have hlt : p - 1 < config.formats.length := by omega
    have hnumber : Text.ofNat p = Text.padded 0 p := rfl
    rw [hnumber] at hlabel ⊢
    exact ⟨hlt, by rw [format?_padded hlabel, formatAt?_eq_getElem hp hlt]⟩

/-- Of three formats the first one is chosen by its label in other letters, the second one is not
chosen by its label, which has spaces around it, and the third one is, since the label is its
position. -/
theorem choice_of_format_of_three_formats :
    Text.eqIgnoringCase "url".toList "URL".toList = true ∧
    Config.format? { formats := [⟨"URL".toList, "a".toList⟩, ⟨" Org ".toList, "b".toList⟩,
      ⟨" 3 ".toList, "c".toList⟩] } "url".toList = some ⟨"URL".toList, "a".toList⟩ ∧
    Config.format? { formats := [⟨"URL".toList, "a".toList⟩, ⟨" Org ".toList, "b".toList⟩,
      ⟨" 3 ".toList, "c".toList⟩] } " Org ".toList ≠ some ⟨" Org ".toList, "b".toList⟩ ∧
    Config.format? { formats := [⟨"URL".toList, "a".toList⟩, ⟨" Org ".toList, "b".toList⟩,
      ⟨" 3 ".toList, "c".toList⟩] } " 3 ".toList = some ⟨" 3 ".toList, "c".toList⟩ ∧
    Config.format? { formats := [⟨"URL".toList, "a".toList⟩, ⟨" Org ".toList, "b".toList⟩,
      ⟨" 3 ".toList, "c".toList⟩] } "2".toList = some ⟨" Org ".toList, "b".toList⟩ := by
  obtain ⟨hlabel, hposition, -⟩ := choice_of_format { formats := [⟨"URL".toList, "a".toList⟩,
    ⟨" Org ".toList, "b".toList⟩, ⟨" 3 ".toList, "c".toList⟩] }
  refine ⟨by decide, ?_, fun h => ?_, ?_, ?_⟩
  · exact (hlabel [] _ _ _ rfl (by decide) (by decide)).mpr (.inl (by decide))
  · rcases (hlabel [⟨"URL".toList, "a".toList⟩] _ _ _ rfl (by decide) (by decide)).mp h with
      htrim | ⟨-, p, hp, -⟩
    · exact absurd htrim (by decide)
    · have hnone : Text.natural? "Org".toList = none := by decide
      exact absurd (hnone.symm.trans hp) (by simp)
  · exact (hlabel [⟨"URL".toList, "a".toList⟩, ⟨" Org ".toList, "b".toList⟩] _ [] _ rfl
      (by decide) (by decide)).mpr (.inr ⟨by decide, 3, by decide, by decide⟩)
  · obtain ⟨_, hchosen⟩ := hposition 2 (by decide) (by decide) (by decide)
    exact hchosen

/-- A format whose label has spaces around it is not chosen by its own label, though it is the only
one. -/
theorem not_chosen_of_padded_label :
    Config.format? { formats := [⟨" Org ".toList, "%URL%".toList⟩] } " Org ".toList = none := by
  decide

end Config

end TabFormat
