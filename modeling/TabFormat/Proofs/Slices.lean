import TabFormat.Proofs.Tokenization

/-!
# Parts of a text by byte positions

A part of a text can be taken between two byte positions if both lie within the text and between
characters, and the first one does not come after the second one. Otherwise there is no such part.

## Main definitions

* `Text.IsBoundary` : a position between characters.
* `Text.slice?` : the part between two positions.

## Main results

* `Text.isBoundary_iff` : where a text can be cut in two.
* `Text.prefix_upTo_iff` : what stands before a position.
* `Text.slice?_eq_some_iff` : the parts of a text.
-/

namespace TabFormat.Text

variable {s : Text} {m n : Nat}

/-! ### Positions between characters -/

/-- The position lies within the text, and not inside a character. -/
def IsBoundary (s : Text) (n : Nat) : Prop :=
  (s.upTo n).byteLength = n

instance : Decidable (s.IsBoundary n) :=
  inferInstanceAs (Decidable (_ = _))

theorem upTo_prefix_upTo (s : Text) (h : m ≤ n) : s.upTo m <+: s.upTo n := by
  induction s generalizing m n with
  | nil => exact List.nil_prefix
  | cons c s ih =>
    rw [upTo, upTo]
    by_cases hm : c.utf8Size ≤ m
    · rw [if_pos hm, if_pos (by omega), List.cons_prefix_cons]
      exact ⟨rfl, ih (by omega)⟩
    · rw [if_neg hm]
      exact List.nil_prefix

theorem upTo_prefix (s : Text) (n : Nat) : s.upTo n <+: s := by
  induction s generalizing n with
  | nil => exact List.nil_prefix
  | cons c s ih =>
    rw [upTo]
    by_cases hn : c.utf8Size ≤ n
    · rw [if_pos hn, List.cons_prefix_cons]
      exact ⟨rfl, ih _⟩
    · rw [if_neg hn]
      exact List.nil_prefix

/-- **Where a text can be cut in two.** -/
theorem isBoundary_iff :
    s.IsBoundary n ↔ ∃ front back, s = front ++ back ∧ front.byteLength = n := by
  constructor
  · intro h
    obtain ⟨back, hback⟩ := upTo_prefix s n
    exact ⟨s.upTo n, back, hback.symm, h⟩
  · rintro ⟨front, back, rfl, rfl⟩
    rw [IsBoundary, upTo_byteLength_append]

theorem isBoundary_append (front back : Text) : (front ++ back).IsBoundary front.byteLength :=
  isBoundary_iff.mpr ⟨front, back, rfl, rfl⟩

theorem isBoundary_zero (s : Text) : s.IsBoundary 0 :=
  isBoundary_append [] s

/-! ### The characters before a position -/

theorem byteLength_upTo_le (s : Text) (n : Nat) : (s.upTo n).byteLength ≤ n := by
  induction s generalizing n with
  | nil => exact Nat.zero_le n
  | cons c s ih =>
    rw [upTo]
    by_cases hn : c.utf8Size ≤ n
    · rw [if_pos hn, byteLength_cons]
      have := ih (n - c.utf8Size)
      omega
    · rw [if_neg hn]
      exact Nat.zero_le n

/-- **The characters before a position** are the longest front that ends at or before it. -/
theorem prefix_upTo_iff {front : Text} :
    front <+: s.upTo n ↔ front <+: s ∧ front.byteLength ≤ n := by
  constructor
  · intro h
    have hfront : s.upTo n <+: s := upTo_prefix s n
    refine ⟨h.trans hfront, ?_⟩
    obtain ⟨more, hmore⟩ := h
    have hle := byteLength_upTo_le s n
    rw [← hmore, byteLength_append] at hle
    omega
  · rintro ⟨⟨back, rfl⟩, hle⟩
    have hfront := upTo_prefix_upTo (front ++ back) hle
    rwa [upTo_byteLength_append] at hfront

/-- The next character, if there is one, ends after the position. -/
theorem upTo_cases (s : Text) (n : Nat) :
    s.upTo n = s ∨
    ∃ c back, s = s.upTo n ++ c :: back ∧ n < (s.upTo n).byteLength + c.utf8Size := by
  obtain ⟨back, hback⟩ := upTo_prefix s n
  cases back with
  | nil => exact .inl (by rwa [List.append_nil] at hback)
  | cons c back =>
    refine .inr ⟨c, back, hback.symm, Nat.lt_of_not_le fun hle => ?_⟩
    have hlonger : s.upTo n ++ [c] <+: s.upTo n := by
      refine prefix_upTo_iff.mpr ⟨⟨back, ?_⟩, ?_⟩
      · rw [List.append_assoc, List.singleton_append, hback]
      · rwa [byteLength_append, byteLength_cons, byteLength_nil]
    have := hlonger.length_le
    simp only [List.length_append, List.length_singleton] at this
    omega

theorem isBoundary_byteLength_upTo (s : Text) (n : Nat) :
    s.IsBoundary (s.upTo n).byteLength := by
  obtain ⟨back, hback⟩ := upTo_prefix s n
  exact isBoundary_iff.mpr ⟨s.upTo n, back, hback.symm, rfl⟩

theorem upTo_byteLength_upTo (s : Text) (n : Nat) :
    s.upTo (s.upTo n).byteLength = s.upTo n := by
  obtain ⟨back, hback⟩ := upTo_prefix s n
  have hcut := upTo_byteLength_append (s.upTo n) back
  rwa [hback] at hcut

/-! ### Parts -/

/-- The part of a text from byte `start` to byte `stop`. There is none if the positions are out of
order, outside of the text or inside a character. -/
def slice? (s : Text) (start stop : Nat) : Option Text :=
  if start ≤ stop ∧ s.IsBoundary start ∧ s.IsBoundary stop then
    some ((s.upTo stop).drop (s.upTo start).length)
  else none

/-- **The parts of a text** are those that it consists of, together with a text in front and one
behind. -/
theorem slice?_eq_some_iff {part : Text} : s.slice? m n = some part ↔
    ∃ front back, s = front ++ (part ++ back) ∧ m = front.byteLength ∧
      n = front.byteLength + part.byteLength := by
  rw [slice?]
  constructor
  · intro h
    split at h
    · rename_i hvalid
      obtain ⟨hle, hm, hn⟩ := hvalid
      obtain ⟨part', hpart⟩ := upTo_prefix_upTo s hle
      obtain ⟨back, hback⟩ := upTo_prefix s n
      rw [← hpart, List.drop_left] at h
      obtain rfl := Option.some.inj h
      rw [IsBoundary, ← hpart, byteLength_append, hm] at hn
      refine ⟨s.upTo m, back, ?_, hm.symm, by rw [hm, hn]⟩
      rw [← List.append_assoc, hpart, hback]
    · simp at h
  · rintro ⟨front, back, rfl, rfl, rfl⟩
    have hfront := upTo_byteLength_append front (part ++ back)
    have hpart := upTo_byteLength_append (front ++ part) back
    rw [List.append_assoc, byteLength_append] at hpart
    rw [if_pos, hpart, hfront, List.drop_left]
    refine ⟨by omega, by rw [IsBoundary, hfront], by rw [IsBoundary, hpart, byteLength_append]⟩

theorem slice?_append (front part back : Text) :
    slice? (front ++ (part ++ back)) front.byteLength (front.byteLength + part.byteLength) =
      some part :=
  slice?_eq_some_iff.mpr ⟨front, back, rfl, rfl, rfl⟩

/-- The part before a position. -/
theorem slice?_zero (h : s.IsBoundary n) : s.slice? 0 n = some (s.upTo n) := by
  obtain ⟨back, hback⟩ := upTo_prefix s n
  refine slice?_eq_some_iff.mpr ⟨[], back, hback.symm, rfl, ?_⟩
  rw [byteLength_nil, Nat.zero_add, h]

/-- The part from a position to the same one. -/
theorem slice?_self (h : s.IsBoundary n) : s.slice? n n = some [] := by
  obtain ⟨front, back, rfl, rfl⟩ := isBoundary_iff.mp h
  exact slice?_append front [] back

/-- Two parts, one after the other, are a part. -/
theorem slice?_trans {start stop : Nat} {first second : Text}
    (hfirst : s.slice? start m = some first) (hsecond : s.slice? m stop = some second) :
    s.slice? start stop = some (first ++ second) := by
  obtain ⟨front, back, hs, rfl, rfl⟩ := slice?_eq_some_iff.mp hfirst
  obtain ⟨front', back', hs', hm, rfl⟩ := slice?_eq_some_iff.mp hsecond
  rw [← byteLength_append] at hm
  rw [hs, ← List.append_assoc] at hs'
  obtain ⟨rfl, rfl⟩ := append_inj_of_byteLength hs' hm
  refine slice?_eq_some_iff.mpr ⟨front, back', by rw [hs, List.append_assoc], rfl, ?_⟩
  simp only [byteLength_append]
  omega

end TabFormat.Text
