import Mathlib.Data.Finset.Card
import Mathlib.Data.Finset.Range
import Mathlib.Data.Nat.PSub
import Mathlib.Order.Monotone.Defs
import TabFormat.Proofs.Bytes
import TabFormat.Proofs.Position
import TabFormat.Report

/-!
# The characters of a range of bytes

A report counts characters where a fault counts bytes. A position is turned from bytes into
characters by going back to the end of the text if it lies beyond, then byte by byte to the first
position between characters, and by counting the characters before that one. The start of the text
is between characters and no character has more than four bytes, so three steps are enough, and the
characters that are counted are those that end at or before the position. The range of a fault
begins and ends between characters, so that the characters which a report shows are the bytes of the
fault.

## Main definitions

* `Text.stepBack?`, `Text.charactersBefore?`, `Span.stretch?` : characters counted from bytes.
* `Text.endingBy` : how many characters end at or before a position.

## Main results

* `Text.stepBack?_eq_some_iff` : where stepping back ends, and after how many steps.
* `Text.length_upTo` : the characters before a position are those that end at or before it.
* `Template.exists_slice?_of_malformed` : the range of a fault is a part of the template.
* `stretch_of_span` : the characters of a range of bytes, and of the range of a fault.
-/

namespace TabFormat

namespace Text

variable {s part : Text} {m n steps : Nat}

/-! ### Going back to a position between characters -/

/-- The first position between characters on the way back from byte `n`. There is none if it takes
more than `steps` steps, or one below zero. -/
def stepBack? (s : Text) : Nat → Nat → Option Nat
  | 0, n => if s.beginsAt n then some n else none
  | steps + 1, n => if s.beginsAt n then some n else n.ppred.bind (s.stepBack? steps)

theorem stepBack?_of_isBoundary (h : s.IsBoundary n) (steps : Nat) :
    s.stepBack? steps n = some n := by
  have hbegins := beginsAt_iff.mpr h
  cases steps with
  | zero => rw [stepBack?, if_pos hbegins]
  | succ steps => rw [stepBack?, if_pos hbegins]

/-- A position inside of a character has the same characters before it as the one a byte earlier. -/
theorem upTo_succ_of_not_isBoundary (h : ¬s.IsBoundary (n + 1)) : s.upTo (n + 1) = s.upTo n := by
  have hle : (s.upTo (n + 1)).byteLength ≤ n :=
    Nat.le_of_lt_succ (Nat.lt_of_le_of_ne (byteLength_upTo_le s (n + 1)) h)
  have hfront : s.upTo (n + 1) <+: s := upTo_prefix s (n + 1)
  have hback : s.upTo (n + 1) <+: s.upTo n := prefix_upTo_iff.mpr ⟨hfront, hle⟩
  exact hback.eq_of_length_le (upTo_prefix_upTo s (Nat.le_succ n)).length_le

/-- **Stepping back** ends where the last character before the position ends, if there are steps
enough for the bytes in between. -/
theorem stepBack?_eq_some_iff :
    s.stepBack? steps n = some m ↔ m = (s.upTo n).byteLength ∧ n ≤ m + steps := by
  induction steps generalizing n with
  | zero =>
    by_cases hn : s.IsBoundary n
    · rw [stepBack?_of_isBoundary hn, hn, Option.some.injEq]
      omega
    · have hlt : (s.upTo n).byteLength < n := Nat.lt_of_le_of_ne (byteLength_upTo_le s n) hn
      rw [stepBack?, if_neg (mt beginsAt_iff.mp hn)]
      simp only [reduceCtorEq, false_iff]
      omega
  | succ steps ih =>
    by_cases hn : s.IsBoundary n
    · rw [stepBack?_of_isBoundary hn, hn, Option.some.injEq]
      omega
    · rw [stepBack?, if_neg (mt beginsAt_iff.mp hn)]
      cases n with
      | zero => exact absurd (isBoundary_zero s) hn
      | succ n =>
        rw [Nat.ppred_succ, Option.bind_some, ih, upTo_succ_of_not_isBoundary hn, ← Nat.add_assoc,
          Nat.add_le_add_iff_right]

/-! ### Counting characters -/

theorem upTo_of_byteLength_le (h : s.byteLength ≤ n) : s.upTo n = s := by
  have hfront : s.upTo n <+: s := upTo_prefix s n
  have hall : s <+: s.upTo n := prefix_upTo_iff.mpr ⟨List.prefix_rfl, h⟩
  exact hfront.eq_of_length_le hall.length_le

theorem upTo_min (s : Text) (n : Nat) : s.upTo (min n s.byteLength) = s.upTo n := by
  obtain hle | hle := Nat.le_total n s.byteLength
  · rw [Nat.min_eq_left hle]
  · rw [Nat.min_eq_right hle, upTo_of_byteLength_le hle, upTo_of_byteLength_le (Nat.le_refl _)]

/-- A position within the text is three bytes at most behind the last character before it. -/
theorem min_le_byteLength_upTo (s : Text) (n : Nat) :
    min n s.byteLength ≤ (s.upTo n).byteLength + 3 := by
  obtain hall | ⟨c, back, -, hc⟩ := upTo_cases s n
  · rw [hall]
    omega
  · have := c.utf8Size_le_four
    omega

/-- The number of characters before byte `n`, by going back to a position between characters in at
most `steps` steps. -/
def charactersBefore? (s : Text) (steps n : Nat) : Option Nat := do
  let stop ← s.stepBack? steps (min n s.byteLength)
  let front ← s.slice? 0 stop
  return front.length

/-- **Three steps are enough.** -/
theorem charactersBefore?_eq (hsteps : 3 ≤ steps) (s : Text) (n : Nat) :
    s.charactersBefore? steps n = some (s.upTo n).length := by
  have hback : s.stepBack? steps (min n s.byteLength) = some (s.upTo n).byteLength := by
    refine stepBack?_eq_some_iff.mpr ⟨by rw [upTo_min], ?_⟩
    have := min_le_byteLength_upTo s n
    omega
  have hfront : s.slice? 0 (s.upTo n).byteLength = some (s.upTo n) := by
    rw [slice?_zero (isBoundary_byteLength_upTo s n), upTo_byteLength_upTo]
  rw [charactersBefore?, hback, Option.bind_eq_bind, Option.bind_some, hfront,
    Option.bind_eq_bind, Option.bind_some]
  rfl

/-- Two steps are not enough from the last byte of a character of four bytes. -/
example : charactersBefore? ['😀'] 2 3 = none := by decide

/-- The number of characters that end at or before byte `n`. -/
def endingBy (s : Text) (n : Nat) : Nat :=
  ((Finset.range s.length).filter fun k => byteLength (s.take (k + 1)) ≤ n).card

/-- A character stands before a position if it ends at or before it. -/
theorem lt_length_upTo_iff {k : Nat} :
    k < (s.upTo n).length ↔ k < s.length ∧ byteLength (s.take (k + 1)) ≤ n := by
  have hfront : s.upTo n <+: s := upTo_prefix s n
  have htake : s.take (k + 1) <+: s := List.take_prefix (k + 1) s
  constructor
  · intro hk
    have hbefore : s.take (k + 1) <+: s.upTo n :=
      List.prefix_of_prefix_length_le htake hfront ((List.length_take_le _ _).trans hk)
    exact ⟨hk.trans_le hfront.length_le, (prefix_upTo_iff.mp hbefore).2⟩
  · rintro ⟨hk, hle⟩
    have hlength := (prefix_upTo_iff.mpr ⟨htake, hle⟩).length_le
    rwa [List.length_take, Nat.min_eq_left hk] at hlength

/-- **The characters before a position** are those that end at or before it. -/
theorem length_upTo (s : Text) (n : Nat) : (s.upTo n).length = s.endingBy n := by
  have hfilter : ((Finset.range s.length).filter fun k => byteLength (s.take (k + 1)) ≤ n) =
      Finset.range (s.upTo n).length := by
    ext k
    rw [Finset.mem_filter, Finset.mem_range, Finset.mem_range, lt_length_upTo_iff]
  rw [endingBy, hfilter, Finset.card_range]

theorem monotone_endingBy (s : Text) : Monotone s.endingBy := by
  intro m n h
  rw [← length_upTo, ← length_upTo]
  exact (upTo_prefix_upTo s h).length_le

theorem endingBy_le_length (s : Text) (n : Nat) : s.endingBy n ≤ s.length := by
  have hfront : s.upTo n <+: s := upTo_prefix s n
  rw [← length_upTo]
  exact hfront.length_le

/-- A part of a text consists of the characters from those before its start to those before its
end. -/
theorem extract_of_slice? (h : s.slice? m n = some part) :
    s.extract (s.upTo m).length (s.upTo n).length = part := by
  obtain ⟨front, back, rfl, rfl, rfl⟩ := slice?_eq_some_iff.mp h
  have hstop := upTo_byteLength_append (front ++ part) back
  rw [List.append_assoc, byteLength_append] at hstop
  rw [hstop, upTo_byteLength_append, List.extract_eq_take_drop, List.drop_left, List.length_append,
    Nat.add_sub_cancel_left, List.take_left]

end Text

namespace Span

/-- The characters of a range of bytes, where each end goes back in at most `steps` steps. -/
def stretch? (span : Span) (steps : Nat) (source : Text) : Option Stretch := do
  let start ← source.charactersBefore? steps span.start
  let stop ← source.charactersBefore? steps span.stop
  return ⟨start, stop⟩

theorem stretch?_eq {steps : Nat} (hsteps : 3 ≤ steps) (span : Span) (source : Text) :
    span.stretch? steps source = some (span.stretch source) := by
  rw [stretch?, Text.charactersBefore?_eq hsteps, Text.charactersBefore?_eq hsteps]
  rfl

theorem stretch_eq (span : Span) (source : Text) :
    span.stretch source = ⟨source.endingBy span.start, source.endingBy span.stop⟩ := by
  rw [stretch, Text.length_upTo, Text.length_upTo]

end Span

/-! ### The range of a fault -/

namespace Template

variable {ε : Type} {limit : Nat}

/-- **The range of a fault is a part of the template**, which begins with a percent sign. -/
theorem exists_slice?_of_malformed {oracle : Oracle ε} {template : Text} {e : SyntaxError}
    (h : (consult limit oracle template).result = .error (.malformed e)) :
    ∃ inside, template.slice? e.span.start e.span.stop = some ('%' :: inside) := by
  have hrun := Run.error_of_map_error h
  rw [plan_eq] at hrun
  obtain ⟨before, event, after, last, houtline, hspan, -, -⟩ := exists_event_of_malformed hrun
  obtain ⟨front, inside, rest, -, -, htokens, -, -, hplace⟩ :=
    exists_opening_of_outlineFrom_eq (Nat.zero_le limit) houtline hspan
  obtain ⟨htemplate, -, -⟩ := parts_of_scan_eq htokens
  refine ⟨Token.source inside,
    Text.slice?_eq_some_iff.mpr ⟨Token.source front, Token.source rest, htemplate, ?_, ?_⟩⟩
  · rw [hplace, Nat.zero_add, Token.totalWidth_eq, ← Token.source]
  · rw [hplace, totalWidth_append, Token.totalWidth_eq, Token.totalWidth_eq, ← Token.source,
      ← Token.source]
    exact Nat.zero_add _

end Template

/-- **Reports count the right characters.** Both ends of a range of bytes, wherever they lie, come
to a position between characters in three steps and are turned into the number of characters that
end at or before them. This number does not exceed that of the text, and is never smaller for a
later position, so that the ends stay in order. For the range of a fault that the expansion of a
template meets, the characters between these numbers are the part of the template at the range, and
their bytes are the bytes of the range. -/
theorem stretch_of_span :
    (∀ (source : Text) (span : Span),
      (∀ steps, 3 ≤ steps → span.stretch? steps source = some (span.stretch source)) ∧
      span.stretch source = ⟨source.endingBy span.start, source.endingBy span.stop⟩ ∧
      (span.start ≤ span.stop → (span.stretch source).start ≤ (span.stretch source).stop) ∧
      (span.stretch source).start ≤ source.length ∧
      (span.stretch source).stop ≤ source.length) ∧
    (∀ source : Text, Monotone source.endingBy) ∧
    ∀ (ε : Type) (limit : Nat) (oracle : Template.Oracle ε) (template : Text)
      (e : Template.SyntaxError),
      (Template.consult limit oracle template).result = .error (.malformed e) →
      let shown : Text :=
        template.extract (e.span.stretch template).start (e.span.stretch template).stop
      template.slice? e.span.start e.span.stop = some shown ∧
      shown.bytes = template.bytes.extract e.span.start e.span.stop := by
  refine ⟨fun source span => ⟨fun steps hsteps => Span.stretch?_eq hsteps span source,
    span.stretch_eq source, fun hle => ?_, ?_, ?_⟩, Text.monotone_endingBy,
    fun ε limit oracle template e he => ?_⟩
  · rw [span.stretch_eq]
    exact source.monotone_endingBy hle
  · rw [span.stretch_eq]
    exact source.endingBy_le_length _
  · rw [span.stretch_eq]
    exact source.endingBy_le_length _
  · obtain ⟨inside, hslice⟩ := Template.exists_slice?_of_malformed he
    have hshown : template.extract (e.span.stretch template).start (e.span.stretch template).stop =
        '%' :: inside := Text.extract_of_slice? hslice
    simp only [hshown]
    exact ⟨hslice, Text.bytes_of_slice? hslice⟩

/-- A name is missing in the argument of an argument, behind a character of four bytes: the range of
the fault has one character less than it has bytes. A range that begins at the last byte of that
character and ends beyond the template comes back to the whole template in three steps. -/
theorem stretch_of_span_of_missingName :
    let template : Text := "😀%f(é, '%g(%%)%')%".toList
    let whole : Span := ⟨3, 99⟩
    let fault : Span := ⟨4, 20⟩
    (3 ≤ 3 ∧ whole.stretch? 3 template = some ⟨0, 18⟩) ∧
    (whole.start ≤ whole.stop ∧ (whole.stretch template).start ≤ (whole.stretch template).stop) ∧
    (Template.consult 2 (fun _ call => .ok call.name : Template.Oracle Empty) template).result =
      .error (.malformed ⟨.missingName, fault, "😀%f(é, '%g(%%)%'".toList⟩) ∧
    fault.stretch template = ⟨1, 16⟩ ∧
    Text.bytes (template.extract 1 16) = template.bytes.extract 4 20 := by
  intro template whole fault
  obtain ⟨hranges, -, hfaults⟩ := stretch_of_span
  obtain ⟨hsteps, -, horder, -, -⟩ := hranges template whole
  have hwhole : whole.stretch template = ⟨0, 18⟩ := by decide +kernel
  have hfault : fault.stretch template = ⟨1, 16⟩ := by decide +kernel
  have hrun : (Template.consult 2 (fun _ call => .ok call.name : Template.Oracle Empty)
      template).result = .error (.malformed ⟨.missingName, fault, "😀%f(é, '%g(%%)%'".toList⟩) := by
    decide +kernel
  obtain ⟨-, hbytes⟩ := hfaults Empty 2 _ template _ hrun
  rw [hfault] at hbytes
  exact ⟨⟨Nat.le_refl 3, by rw [hsteps 3 (Nat.le_refl 3), hwhole]⟩,
    ⟨by decide, horder (by decide)⟩, hrun, hfault, hbytes⟩

end TabFormat
