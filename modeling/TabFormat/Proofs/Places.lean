import TabFormat.Pattern.Place

/-!
# Places that a match notes

A text is cut at two places into what lies before the first, between them, and after the second.

## Main definitions

* `Place.In` : the places of a text.
* `Noted` : slots whose places have a property.

## Main results

* `Place.In.eq_append` : a text cut at two places.
-/

namespace TabFormat.Pattern

/-! ### Places of a text -/

namespace Place

/-- The place lies in the text `s`, and its index counts the characters before it. -/
structure In (p : Place) (s : Text) : Prop where
  /-- What lies on both sides is the text. -/
  whole_eq : p.whole = s
  /-- The characters before the place are counted. -/
  index_eq : p.index = p.behind.length

theorem in_start (s : Text) : (start s).In s :=
  ⟨whole_start s, rfl⟩

variable {s : Text} {p q : Place}

theorem In.forward {c : Char} (h : p.In s) (hq : p.forward = some (c, q)) : q.In s := by
  refine ⟨(whole_of_forward hq).trans h.whole_eq, ?_⟩
  obtain ⟨index, behind, ahead⟩ := p
  cases ahead with
  | nil => simp [Place.forward] at hq
  | cons d rest =>
    simp only [Place.forward, Option.some.injEq, Prod.mk.injEq] at hq
    obtain ⟨-, rfl⟩ := hq
    exact congrArg (· + 1) h.index_eq

/-- The place after the next character. -/
theorem In.next {index : Nat} {behind rest : Text} {c : Char}
    (h : In ⟨index, behind, c :: rest⟩ s) : In ⟨index + 1, c :: behind, rest⟩ s :=
  h.forward rfl

theorem In.back {n : Nat} (h : p.In s) (hq : p.back n = some q) : q.In s := by
  induction n generalizing p with
  | zero =>
    obtain rfl : p = q := by simpa [Place.back] using hq
    exact h
  | succ n ih =>
    obtain ⟨index, behind, ahead⟩ := p
    cases behind with
    | nil => simp [Place.back] at hq
    | cons c rest =>
      refine ih ⟨?_, ?_⟩ hq
      · rw [← h.whole_eq]
        simp [whole, before]
      · have hindex : index = rest.length + 1 := h.index_eq
        exact Nat.sub_eq_of_eq_add hindex

theorem In.past {t : Text} (h : p.In s) (hq : p.past t = some q) : q.In s := by
  induction t generalizing p with
  | nil =>
    obtain rfl : p = q := by simpa [Place.past] using hq
    exact h
  | cons c t ih =>
    obtain ⟨index, behind, ahead⟩ := p
    cases ahead with
    | nil => simp [Place.past] at hq
    | cons d rest =>
      by_cases hc : c = d
      · simp only [Place.past, hc, if_true] at hq
        exact ih h.next hq
      · simp [Place.past, hc] at hq

theorem In.before_eq (h : p.In s) : p.before = s.take p.index := by
  rw [← h.whole_eq, whole, h.index_eq, before, ← List.length_reverse, List.take_left]

theorem In.ahead_eq (h : p.In s) : p.ahead = s.drop p.index := by
  rw [← h.whole_eq, whole, h.index_eq, before, ← List.length_reverse, List.drop_left]

/-- **A text is cut at two of its places.** -/
theorem In.eq_append (hp : p.In s) (hq : q.In s) (hle : p.index ≤ q.index) :
    s = p.before ++ (p.upTo q ++ q.ahead) := by
  rw [upTo, hp.before_eq, hp.ahead_eq, hq.ahead_eq]
  have hdrop : s.drop q.index = (s.drop p.index).drop (q.index - p.index) := by
    rw [List.drop_drop, Nat.add_sub_cancel' hle]
  rw [hdrop, List.take_append_drop, List.take_append_drop]

/-- The places from one on, given what lies before it and after it. -/
def onwardFrom (index : Nat) (behind : Text) : Text → List Place
  | [] => [⟨index, behind, []⟩]
  | c :: rest => ⟨index, behind, c :: rest⟩ :: onwardFrom (index + 1) (c :: behind) rest

/-- A place and all places after it, in order. -/
def onward (p : Place) : List Place :=
  onwardFrom p.index p.behind p.ahead

theorem onward_of_forward_eq_none (h : p.forward = none) : p.onward = [p] := by
  obtain ⟨index, behind, ahead⟩ := p
  cases ahead with
  | nil => rfl
  | cons d rest => simp [Place.forward] at h

theorem onward_of_forward {c : Char} (h : p.forward = some (c, q)) : p.onward = p :: q.onward := by
  obtain ⟨index, behind, ahead⟩ := p
  cases ahead with
  | nil => simp [Place.forward] at h
  | cons d rest =>
    simp only [Place.forward, Option.some.injEq, Prod.mk.injEq] at h
    obtain ⟨-, rfl⟩ := h
    rfl

/-- A place comes first of those from it on. -/
theorem exists_onward (p : Place) : ∃ later, p.onward = p :: later := by
  obtain ⟨index, behind, ahead⟩ := p
  cases ahead with
  | nil => exact ⟨[], rfl⟩
  | cons c rest => exact ⟨onwardFrom (index + 1) (c :: behind) rest, rfl⟩

/-- The places from one on lie in the same text. -/
theorem In.onward (h : p.In s) : ∀ q ∈ p.onward, q.In s := by
  obtain ⟨index, behind, ahead⟩ := p
  induction ahead generalizing index behind with
  | nil => exact List.forall_mem_singleton.mpr h
  | cons c rest ih => exact List.forall_mem_cons.mpr ⟨h, ih _ _ h.next⟩

end Place

/-! ### Places in slots -/

theorem getD_setIfInBounds_ne {i j : Nat} (h : i ≠ j) (slots : Array (Option Place))
    (v : Option Place) : (slots.setIfInBounds i v).getD j none = slots.getD j none := by
  rw [Array.getD_eq_getD_getElem?, Array.getD_eq_getD_getElem?, Array.getElem?_setIfInBounds_ne h]

/-- The place that is noted in a slot, if there is such a slot. -/
theorem eq_of_getD_setIfInBounds {i : Nat} {slots : Array (Option Place)} {p q : Place}
    (h : (slots.setIfInBounds i (some p)).getD i none = some q) : p = q := by
  rw [Array.getD_eq_getD_getElem?, Array.getElem?_setIfInBounds_self] at h
  split at h
  · exact Option.some.inj h
  · cases h

/-- The places in the slots have a property. -/
def Noted (P : Place → Prop) (slots : Array (Option Place)) : Prop :=
  ∀ p, some p ∈ slots → P p

namespace Noted

variable {P Q : Place → Prop} {slots : Array (Option Place)}

theorem replicate (n : Nat) : Noted P (Array.replicate n none) := by
  intro p hp
  simp at hp

theorem mono (h : Noted P slots) (hPQ : ∀ p, P p → Q p) : Noted Q slots :=
  fun p hp => hPQ p (h p hp)

theorem set (h : Noted P slots) (n : Nat) {v : Option Place} (hv : ∀ p, v = some p → P p) :
    Noted P (slots.setIfInBounds n v) := by
  intro p hp
  obtain hp | hp := Array.mem_or_eq_of_mem_setIfInBounds hp
  · exact h p hp
  · exact hv p hp.symm

theorem getD (h : Noted P slots) {n : Nat} {p : Place} (hp : slots.getD n none = some p) :
    P p := by
  refine h p ?_
  rw [Array.getD_eq_getD_getElem?] at hp
  cases hn : slots[n]? with
  | none => simp [hn] at hp
  | some v =>
    obtain rfl : v = some p := by simpa [hn] using hp
    exact Array.mem_of_getElem? hn

end Noted

end TabFormat.Pattern
