import TabFormat.Proofs.Slices

/-!
# The bytes of a text

The UTF-8 form of a text has one to four bytes for each character. The bytes that continue a
character can be told from those that begin one, so that the byte behind a position shows whether
the position is between characters; no other byte has to be looked at.

## Main definitions

* `Text.bytes` : the bytes of a text.
* `Text.beginsAt` : whether the byte at a position begins a character.

## Main results

* `Text.beginsAt_iff` : the positions between characters, by the bytes behind them.
* `Text.bytes_of_slice?` : the bytes of a part of a text.
-/

namespace TabFormat.Text

variable {s part : Text} {m n : Nat}

/-! ### The UTF-8 form -/

/-- The bytes of the UTF-8 form. -/
def bytes (s : Text) : List UInt8 :=
  s.flatMap String.utf8EncodeChar

@[simp] theorem bytes_nil : bytes [] = [] := rfl

@[simp] theorem bytes_cons (c : Char) (s : Text) :
    bytes (c :: s) = String.utf8EncodeChar c ++ bytes s := rfl

@[simp] theorem bytes_append (s t : Text) : bytes (s ++ t) = bytes s ++ bytes t :=
  List.flatMap_append

@[simp] theorem length_bytes (s : Text) : s.bytes.length = s.byteLength := by
  induction s with
  | nil => rfl
  | cons c s ih =>
    rw [bytes_cons, List.length_append, String.length_utf8EncodeChar, ih, byteLength_cons]

/-- **The bytes of a part of a text** are those between its ends. -/
theorem bytes_of_slice? (h : s.slice? m n = some part) : part.bytes = s.bytes.extract m n := by
  obtain ⟨front, back, rfl, rfl, rfl⟩ := slice?_eq_some_iff.mp h
  rw [bytes_append, bytes_append, List.extract_eq_take_drop, ← length_bytes front,
    ← length_bytes part, List.drop_left, Nat.add_sub_cancel_left, List.take_left]

/-! ### Bytes that begin a character -/

/-- Whether a byte continues a character. -/
def isContinuation (b : UInt8) : Bool :=
  0x80 ≤ b && b < 0xC0

theorem isContinuation_ofNat {v : Nat} (h : v < 256) :
    isContinuation (.ofNat v) = (decide (0x80 ≤ v) && decide (v < 0xC0)) := by
  rw [isContinuation]
  simp only [UInt8.le_iff_toNat_le, UInt8.lt_iff_toNat_lt, UInt8.toNat_ofNat', Nat.mod_eq_of_lt h]
  rfl

/-- A character begins with a byte that continues no character, and goes on with bytes that do. -/
theorem exists_utf8EncodeChar_eq (c : Char) : ∃ first rest,
    String.utf8EncodeChar c = first :: rest ∧ isContinuation first = false ∧
      ∀ b ∈ rest, isContinuation b = true := by
  have hfirst {v : Nat} (hv : v < 256) (h : v < 0x80 ∨ 0xC0 ≤ v) :
      isContinuation (.ofNat v) = false := by
    rw [isContinuation_ofNat hv, Bool.and_eq_false_iff, decide_eq_false_iff_not,
      decide_eq_false_iff_not]
    omega
  -- six bits of the code of the character in each byte
  have hrest (vs : List Nat) :
      ∀ b ∈ vs.map fun v => UInt8.ofNat (v % 0x40 + 0x80), isContinuation b = true := by
    intro b hb
    obtain ⟨v, -, rfl⟩ := List.mem_map.mp hb
    rw [isContinuation_ofNat (by omega), Bool.and_eq_true, decide_eq_true_eq, decide_eq_true_eq]
    omega
  fun_cases String.utf8EncodeChar c with
  | case1 v => exact ⟨_, _, rfl, hfirst (by omega) (.inl (by omega)), hrest []⟩
  | case2 v => exact ⟨_, _, rfl, hfirst (by omega) (.inr (by omega)), hrest [v]⟩
  | case3 v => exact ⟨_, _, rfl, hfirst (by omega) (.inr (by omega)), hrest [v / 64, v]⟩
  | case4 v => exact ⟨_, _, rfl, hfirst (by omega) (.inr (by omega)), hrest [v / 4096, v / 64, v]⟩

/-- The first byte of a character, and no other one of it, begins a character. -/
theorem exists_getElem?_bytes (front back : Text) {c : Char} {i : Nat} (hi : i < c.utf8Size) :
    ∃ b, (front ++ c :: back).bytes[front.byteLength + i]? = some b ∧
      isContinuation b = (i != 0) := by
  obtain ⟨first, rest, hencoded, hfirst, hrest⟩ := exists_utf8EncodeChar_eq c
  have hlength : rest.length + 1 = c.utf8Size := by
    rw [← String.length_utf8EncodeChar, hencoded, List.length_cons]
  have hbyte : (front ++ c :: back).bytes[front.byteLength + i]? = (first :: rest)[i]? := by
    rw [bytes_append, bytes_cons, hencoded, ← length_bytes,
      List.getElem?_append_right (Nat.le_add_right ..), Nat.add_sub_cancel_left,
      List.getElem?_append_left (by rwa [List.length_cons, hlength])]
  rw [hbyte]
  cases i with
  | zero => exact ⟨first, rfl, hfirst⟩
  | succ i =>
    have hlt : i < rest.length := by omega
    exact ⟨rest[i], List.getElem?_eq_getElem hlt, hrest _ (List.getElem_mem hlt)⟩

/-- Whether the byte at a position begins a character. The end of a text counts as one. -/
def beginsAt (s : Text) (n : Nat) : Bool :=
  n == 0 ||
    match s.bytes[n]? with
    | some b => !isContinuation b
    | none => n == s.byteLength

theorem beginsAt_of_isBoundary (h : s.IsBoundary n) : s.beginsAt n = true := by
  obtain ⟨front, back, rfl, rfl⟩ := isBoundary_iff.mp h
  cases back with
  | nil =>
    have hnone : (front ++ []).bytes[front.byteLength]? = none :=
      List.getElem?_eq_none (by rw [List.append_nil, length_bytes])
    rw [beginsAt, hnone]
    simp
  | cons c back =>
    obtain ⟨b, hb, hfirst⟩ := exists_getElem?_bytes front back c.utf8Size_pos
    rw [Nat.add_zero] at hb
    rw [beginsAt, hb]
    simp [hfirst]

theorem isBoundary_of_beginsAt (h : s.beginsAt n = true) : s.IsBoundary n := by
  by_contra hinside
  have hlt : (s.upTo n).byteLength < n := Nat.lt_of_le_of_ne (byteLength_upTo_le s n) hinside
  have hn : (n == 0) = false := beq_eq_false_iff_ne.mpr (by omega)
  rw [beginsAt, hn, Bool.false_or] at h
  obtain hall | ⟨c, back, hs, hc⟩ := upTo_cases s n
  · -- behind the end
    rw [hall] at hlt
    rw [List.getElem?_eq_none (by rw [length_bytes]; omega)] at h
    exact absurd (beq_iff_eq.mp h) (by omega)
  · -- inside of the next character
    have hi : n - (s.upTo n).byteLength < c.utf8Size := by omega
    obtain ⟨b, hb, hrest⟩ := exists_getElem?_bytes (s.upTo n) back hi
    rw [← hs, Nat.add_sub_cancel' hlt.le] at hb
    have hcontinues : isContinuation b = true := by
      rw [hrest]
      exact bne_iff_ne.mpr (by omega)
    rw [hb] at h
    simp [hcontinues] at h

/-- **Positions between characters are told by the bytes behind them.** -/
theorem beginsAt_iff : s.beginsAt n = true ↔ s.IsBoundary n :=
  ⟨isBoundary_of_beginsAt, beginsAt_of_isBoundary⟩

end TabFormat.Text
