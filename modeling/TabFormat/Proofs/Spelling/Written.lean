import TabFormat.Proofs.Grammar.Placeholder
import TabFormat.Proofs.Scan

/-!
# Writing a text with escapes

A text is written with backslashes before the characters that would mean something where it stands,
and perhaps before others. Scanned, it stands for the text itself (`spoken_scan`). An argument is
scanned twice: what the first reading keeps of it is again a text with escapes, of the percent sign
and the backslash alone (`written_kept`).

## Main definitions

* `Written must s w` : `w` is the text `s` with backslashes before all characters in `must`, and
  perhaps before others.
* `Token.Clear` : what such a text is made of.

## Main results

* `Written.spoken_scan`, `Written.clear_scan` : scanning a written text.
* `written_kept` : what is kept of a written text is a written text.
-/

namespace TabFormat

namespace Template

/-- A text with a backslash before each character in `must`, and perhaps before others. -/
inductive Written (must : Char → Bool) : Text → Text → Prop
  | nil : Written must [] []
  | plain {c : Char} {s w : Text} (hc : must c = false) (h : Written must s w) :
      Written must (c :: s) (c :: w)
  | escaped {c : Char} {s w : Text} (h : Written must s w) : Written must (c :: s) ('\\' :: c :: w)

namespace Written

variable {must : Char → Bool} {s s' w w' : Text}

theorem append (h : Written must s w) (h' : Written must s' w') :
    Written must (s ++ s') (w ++ w') := by
  induction h with
  | nil => exact h'
  | plain hc _ ih => exact .plain hc ih
  | escaped _ ih => exact .escaped ih

/-- A text without characters that must be escaped can be written as it is. -/
theorem refl (h : ∀ c ∈ s, must c = false) : Written must s s := by
  induction s with
  | nil => exact .nil
  | cons c s ih =>
    obtain ⟨hc, hs⟩ := List.forall_mem_cons.mp h
    exact .plain hc (ih hs)

/-- Every text can be written. -/
theorem exists_written (must : Char → Bool) (s : Text) : ∃ w, Written must s w := by
  induction s with
  | nil => exact ⟨[], .nil⟩
  | cons c s ih =>
    obtain ⟨w, hw⟩ := ih
    exact ⟨'\\' :: c :: w, .escaped hw⟩

end Written

end Template

/-! ### Tokens of a written text -/

namespace Token

/-- The token is an escape or has no character that must be escaped. -/
def Clear (must : Char → Bool) : Token → Prop
  | escape _ => True
  | token => ∀ c ∈ token.chars, must c = false

variable {must : Char → Bool}

theorem clear_of_chars {t : Token} (h : ∀ c ∈ t.chars, must c = false) : t.Clear must := by
  cases t with
  | escape c => trivial
  | _ => exact h

theorem chars_single (c : Char) : (single c).chars = [c] := by
  rw [single]
  cases hc : ofChar? c with
  | some t => exact chars_of_ofChar? hc
  | none =>
    rw [Option.getD_none]
    split <;> rfl

theorem spoken_single (c : Char) : (single c).spoken = [c] := by
  have hchars := chars_single c
  cases hs : single c with
  | escape d => simp [hs, chars] at hchars
  | _ => rwa [hs] at hchars

theorem spoken_fuse (s t : Token) : (fuse s t).flatMap spoken = s.spoken ++ t.spoken := by
  unfold fuse
  split
  · exact List.flatMap_singleton ..
  · exact List.flatMap_singleton ..
  · rw [List.flatMap_cons, List.flatMap_singleton]

theorem clear_of_mem_fuse (s t : Token) (hs : s.Clear must) (ht : t.Clear must) :
    ∀ u ∈ fuse s t, u.Clear must := by
  unfold fuse
  split
  · exact List.forall_mem_singleton.mpr (List.forall_mem_append.mpr ⟨hs, ht⟩)
  · exact List.forall_mem_singleton.mpr (List.forall_mem_append.mpr ⟨hs, ht⟩)
  · exact List.forall_mem_cons.mpr ⟨hs, List.forall_mem_singleton.mpr ht⟩

/-- A clear token that is a special character by itself is not one of those that must be escaped. -/
theorem Clear.ne_of_ofChar? {t u : Token} {c : Char} (h : t.Clear must) (hu : ofChar? c = some u)
    (hc : must c = true) : t ≠ u := by
  rintro rfl
  have hchars := chars_of_ofChar? hu
  have hmust : must c = false := by
    cases t with
    | escape d => simp [chars] at hchars
    | _ => exact h c (hchars ▸ List.mem_cons_self)
  simp [hc] at hmust

end Token

namespace Template

open Token (scan single join spoken kept Clear)

variable {must : Char → Bool} {s w : Text}

/-- A written text stands for the text itself. -/
theorem Written.spoken_scan (hm : must '\\' = true) (h : Written must s w) :
    (scan w).flatMap spoken = s := by
  induction h with
  | nil =>
    rw [Token.scan_nil]
    rfl
  | @plain c s w hc _ ih =>
    have hne : c ≠ '\\' := by
      rintro rfl
      simp [hm] at hc
    rw [Token.scan_cons hne, Token.flatMap_join Token.spoken_fuse, ih, List.flatMap_singleton,
      Token.spoken_single]
    rfl
  | @escaped c s w _ ih =>
    rw [Token.scan_escape, List.flatMap_cons, ih]
    rfl

/-- A written text has special characters in escapes only, as far as they must be escaped. -/
theorem Written.clear_scan (hm : must '\\' = true) (h : Written must s w) :
    ∀ t ∈ scan w, t.Clear must := by
  induction h with
  | nil =>
    rw [Token.scan_nil]
    exact fun t h => absurd h List.not_mem_nil
  | @plain c s w hc _ ih =>
    have hne : c ≠ '\\' := by
      rintro rfl
      simp [hm] at hc
    rw [Token.scan_cons hne]
    refine Token.forall_mem_join Token.clear_of_mem_fuse (List.forall_mem_singleton.mpr ?_) ih
    refine Token.clear_of_chars ?_
    rw [Token.chars_single]
    exact List.forall_mem_singleton.mpr hc
  | escaped _ ih =>
    rw [Token.scan_escape]
    exact List.forall_mem_cons.mpr ⟨trivial, ih⟩

/-- A written text does not end in the middle of an escape. -/
theorem Written.backslash_notMem_scan (hm : must '\\' = true) (h : Written must s w) :
    .backslash ∉ scan w := by
  intro hmem
  have hclear : must '\\' = false := h.clear_scan hm _ hmem '\\' List.mem_cons_self
  simp [hm] at hclear

/-! ### The second reading -/

/-- The characters that mean something outside of placeholders. -/
def isActive (c : Char) : Bool :=
  c == '%' || c == '\\'

theorem written_kept_token (hp : must '%' = true) (hm : must '\\' = true) {t : Token}
    (h : t.Clear must) : Written isActive t.spoken t.kept := by
  have hplain (h : ∀ c ∈ t.chars, must c = false) : Written isActive t.chars t.chars := by
    refine .refl fun c hc => ?_
    have hmust := h c hc
    simp only [isActive, Bool.or_eq_false_iff, beq_eq_false_iff_ne, ne_eq]
    constructor <;> rintro rfl <;> simp [hp, hm] at hmust
  cases t with
  | escape c =>
    show Written isActive [c] (Argument.escaped c)
    rw [Argument.escaped]
    split
    · exact .escaped .nil
    · rename_i hc
      obtain ⟨hp', hm'⟩ := not_or.mp hc
      exact .plain (by simp [isActive, hp', hm']) .nil
  | _ => exact hplain h

/-- **What is kept of a written text is a written text**, with escapes of active characters only. -/
theorem written_kept (hp : must '%' = true) (hm : must '\\' = true) {tokens : List Token}
    (h : ∀ t ∈ tokens, t.Clear must) :
    Written isActive (tokens.flatMap spoken) (tokens.flatMap kept) := by
  induction tokens with
  | nil => exact .nil
  | cons t tokens ih =>
    obtain ⟨ht, hrest⟩ := List.forall_mem_cons.mp h
    rw [List.flatMap_cons, List.flatMap_cons]
    exact (written_kept_token hp hm ht).append (ih hrest)

/-- The text has no placeholders and expands to `s`. -/
def Literal (s text : Text) : Prop :=
  .percent ∉ scan text ∧ (scan text).flatMap spoken = s

/-- What is kept of a written argument expands to the text that was written. -/
theorem Written.literal_kept (hp : must '%' = true) (hm : must '\\' = true)
    (h : Written must s w) : Literal s ((scan w).flatMap kept) := by
  have hw := written_kept hp hm (h.clear_scan hm)
  rw [h.spoken_scan hm] at hw
  refine ⟨fun hmem => ?_, hw.spoken_scan rfl⟩
  have hclear : isActive '%' = false := hw.clear_scan rfl _ hmem '%' List.mem_cons_self
  simp [isActive] at hclear

end Template

end TabFormat
