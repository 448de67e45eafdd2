import Mathlib.Data.List.Chain
import TabFormat.Proofs.Grammar.Placeholder
import TabFormat.Proofs.Scan

/-!
# Normal token sequences

Not every token sequence is the tokens of a text: two runs of one kind next to each other would be
scanned as one, a lone backslash would make an escape with what follows it, and a run is made of
characters of its class. Sequences without such faults are normal. The tokens of a text are normal,
and a normal sequence is what its own text is scanned as; so tokens can be taken apart and put
together again without looking at characters.

## Main definitions

* `Apart` : two tokens that stay two tokens next to each other.
* `Normal` : a token sequence that is the tokens of its text.

## Main results

* `normal_scan` : the tokens of a text are normal.
* `scan_source` : a normal sequence is the tokens of its text.
* `scan_append_of_backslash` : a lone backslash escapes what follows the text.
-/

namespace TabFormat.Token

/-- The second token can follow the first one: it does not become a part of it. -/
def Apart (s t : Token) : Prop :=
  s ≠ .backslash ∧ fuse s t = [s, t]

/-- A token sequence in which runs are made of characters of their class and neighbours stay
apart. -/
structure Normal (tokens : List Token) : Prop where
  /-- Runs are made of characters of their class. -/
  proper : ∀ t ∈ tokens, t.Proper
  /-- Neighbours stay apart. -/
  apart : tokens.IsChain Apart

theorem normal_nil : Normal [] :=
  ⟨fun _ h => absurd h List.not_mem_nil, List.isChain_nil⟩

theorem normal_cons {t : Token} {tokens : List Token} :
    Normal (t :: tokens) ↔ t.Proper ∧ (∀ u ∈ tokens.head?, Apart t u) ∧ Normal tokens := by
  constructor
  · rintro ⟨hproper, hapart⟩
    obtain ⟨ht, hrest⟩ := List.forall_mem_cons.mp hproper
    obtain ⟨hhead, htail⟩ := List.isChain_cons.mp hapart
    exact ⟨ht, hhead, hrest, htail⟩
  · rintro ⟨ht, hhead, hrest, htail⟩
    exact ⟨List.forall_mem_cons.mpr ⟨ht, hrest⟩, List.isChain_cons.mpr ⟨hhead, htail⟩⟩

/-- A special character stays apart from what follows it. -/
theorem apart_special {c : Char} {t : Token} (h : ofChar? c = some t) (u : Token) : Apart t u := by
  refine ⟨?_, fuse_of_ofChar? h u⟩
  rintro rfl
  unfold ofChar? at h
  split at h <;> simp at h

namespace Normal

variable {first second : List Token}

theorem append (h : Normal first) (h' : Normal second)
    (hseam : ∀ s ∈ first.getLast?, ∀ t ∈ second.head?, Apart s t) : Normal (first ++ second) :=
  ⟨List.forall_mem_append.mpr ⟨h.proper, h'.proper⟩,
    List.isChain_append.mpr ⟨h.apart, h'.apart, hseam⟩⟩

theorem left (h : Normal (first ++ second)) : Normal first :=
  ⟨fun t ht => h.proper t (List.mem_append_left _ ht), h.apart.left_of_append⟩

theorem right (h : Normal (first ++ second)) : Normal second :=
  ⟨fun t ht => h.proper t (List.mem_append_right _ ht), h.apart.right_of_append⟩

/-- Tokens have characters. -/
theorem source_ne_nil (h : Normal first) (hne : first ≠ []) : source first ≠ [] := by
  obtain ⟨t, rest, rfl⟩ := List.exists_cons_of_ne_nil hne
  have ht := (h.proper t List.mem_cons_self).chars_ne_nil
  exact List.append_ne_nil_of_left_ne_nil ht _

/-- A lone backslash can only be the last token. -/
theorem backslash_notMem (h : Normal (first ++ second)) (hne : second ≠ []) :
    .backslash ∉ first := by
  intro hmem
  obtain ⟨front, back, rfl⟩ := List.mem_iff_append.mp hmem
  have hchain := h.apart
  rw [List.append_assoc, List.cons_append] at hchain
  obtain ⟨t, rest, hrest⟩ :=
    List.exists_cons_of_ne_nil (List.append_ne_nil_of_right_ne_nil back hne)
  rw [hrest] at hchain
  exact (List.isChain_append_cons_cons.mp hchain).2.1.1 rfl

end Normal

/-- A special character is a token by itself or escaped. -/
theorem eq_or_escape_of_mem_chars {c : Char} {t u : Token} (hu : ofChar? c = some u)
    (ht : t.Proper) (hc : c ∈ t.chars) : t = u ∨ ∃ d, t = .escape d := by
  cases t with
  | blank s =>
    rw [ofChar?_of_isBlank (ht.2 c hc)] at hu
    simp at hu
  | plain s =>
    have hplain := ht.2 c hc
    simp [isPlain, hu] at hplain
  | escape d => exact .inr ⟨d, rfl⟩
  | backslash =>
    obtain rfl := List.mem_singleton.mp hc
    simp [ofChar?] at hu
  | quote q =>
    obtain rfl := List.mem_singleton.mp hc
    cases q <;> exact .inl (Option.some.inj hu)
  | _ =>
    obtain rfl := List.mem_singleton.mp hc
    exact .inl (Option.some.inj hu)

/-! ### The tokens of a text -/

/-- What follows a run does not belong to it. -/
theorem apart_scan_dropWhile {p : Char → Bool} {run : Text → Token}
    (hne : ∀ u, run u ≠ .backslash)
    (hapart : ∀ u t, (∀ v, t ≠ run v) → fuse (run u) t = [run u, t])
    (hproper : ∀ u, (run u).Proper → ∀ c ∈ (run u).chars, p c = true) (u s : Text) :
    ∀ t ∈ (scan (s.dropWhile p)).head?, Apart (run u) t := by
  intro t ht
  cases hs : s.dropWhile p with
  | nil =>
    rw [hs, scan_nil] at ht
    simp at ht
  | cons d rest =>
    rw [hs] at ht
    have hd : p d = false := by
      have hne' : s.dropWhile p ≠ [] := by simp [hs]
      have hhead := List.head_dropWhile_not p hne'
      simpa only [hs, List.head_cons] using hhead
    refine ⟨hne u, hapart u t ?_⟩
    rintro v rfl
    have hmem := mem_chars_of_mem_head_scan ht
    have hp := hproper v (proper_of_mem_scan _ _ (List.mem_of_mem_head? ht)) d hmem
    exact Bool.false_ne_true (hd.symm.trans hp)

/-- **The tokens of a text are normal.** -/
theorem normal_scan (s : Text) : Normal (scan s) := by
  refine ⟨proper_of_mem_scan s, ?_⟩
  fun_induction scan s with
  | case1 => exact List.isChain_nil
  | case2 => exact List.isChain_singleton _
  | case3 c rest ih =>
    exact ih.cons fun u _ => ⟨by simp, by cases u <;> rfl⟩
  | case4 c rest _ _ t h ih => exact ih.cons fun u _ => apart_special h u
  | case5 c rest _ _ _ _ ih =>
    refine ih.cons (apart_scan_dropWhile (fun u => by simp) (fun u t ht => ?_)
      (fun u (hu : (blank u).Proper) => hu.2) _ _)
    cases t with
    | blank v => exact absurd rfl (ht v)
    | _ => rfl
  | case6 c rest _ _ _ _ ih =>
    refine ih.cons (apart_scan_dropWhile (fun u => by simp) (fun u t ht => ?_)
      (fun u (hu : (plain u).Proper) => hu.2) _ _)
    cases t with
    | plain v => exact absurd rfl (ht v)
    | _ => rfl

/-- A token is the token of its own text. -/
theorem scan_chars {t : Token} (h : t.Proper) : scan t.chars = [t] := by
  have hall {p : Char → Bool} {c : Char} {s : Text} (hs : ∀ d ∈ c :: s, p d = true) :
      s.takeWhile p = s ∧ s.dropWhile p = [] := by
    have hrest : ∀ d ∈ s, p d = true := fun d hd => hs d (List.mem_cons_of_mem _ hd)
    exact ⟨List.takeWhile_eq_self_iff.mpr hrest, List.dropWhile_eq_nil_iff.mpr hrest⟩
  cases t with
  | blank s =>
    obtain ⟨c, s, rfl⟩ := List.exists_cons_of_ne_nil h.1
    obtain ⟨htake, hdrop⟩ := hall h.2
    rw [chars, scan_cons_blank (h.2 c List.mem_cons_self), htake, hdrop, scan_nil]
  | plain s =>
    obtain ⟨c, s, rfl⟩ := List.exists_cons_of_ne_nil h.1
    obtain ⟨htake, hdrop⟩ := hall h.2
    rw [chars, scan_cons_plain (h.2 c List.mem_cons_self), htake, hdrop, scan_nil]
  | quote q => cases q <;> rw [chars, Quote.char, scan_cons_special rfl, scan_nil]
  | escape c => rw [chars, scan_escape, scan_nil]
  | backslash => rw [chars, scan]
  | _ => rw [chars, scan_cons_special rfl, scan_nil]

/-- One token more in front of a text, from which it stays apart. -/
theorem scan_chars_append {t : Token} (ht : t.Proper) {s : Text}
    (h : ∀ u ∈ (scan s).head?, Apart t u) : scan (t.chars ++ s) = t :: scan s := by
  cases hs : scan s with
  | nil =>
    have hnil := flatMap_chars_scan s
    rw [hs, List.flatMap_nil] at hnil
    rw [← hnil, List.append_nil, scan_chars ht]
  | cons u rest =>
    have hapart := h u (by rw [hs]; rfl)
    have hback : .backslash ∉ scan t.chars := by
      rw [scan_chars ht, List.mem_singleton]
      exact hapart.1.symm
    rw [scan_append _ _ hback, scan_chars ht, hs, join, hapart.2]
    rfl

/-- **A normal sequence is the tokens of its text.** -/
theorem scan_source {tokens : List Token} (h : Normal tokens) : scan (source tokens) = tokens := by
  induction tokens with
  | nil => exact scan_nil
  | cons t tokens ih =>
    obtain ⟨ht, hhead, hrest⟩ := normal_cons.mp h
    have hscan := ih hrest
    show scan (t.chars ++ source tokens) = t :: tokens
    rw [scan_chars_append ht (by rwa [hscan]), hscan]

/-- **A lone backslash at the end of a text** escapes the character after it. -/
theorem scan_append_of_backslash {s : Text} {front : List Token}
    (h : scan s = front ++ [.backslash]) (c : Char) (t : Text) :
    scan (s ++ c :: t) = front ++ .escape c :: scan t := by
  have hnormal : Normal (front ++ [.backslash]) := h ▸ normal_scan s
  have hfront : scan (source front) = front := scan_source hnormal.left
  have hs : s = source front ++ ['\\'] := by
    rw [← flatMap_chars_scan s, h]
    exact source_append _ _
  have hseam : .backslash ∉ scan (source front) := by
    rw [hfront]
    exact hnormal.backslash_notMem (List.cons_ne_nil _ _)
  rw [hs, List.append_assoc]
  show scan (source front ++ '\\' :: c :: t) = _
  rw [scan_append _ _ hseam, hfront, scan_escape]
  refine join_eq_append fun u _ v hv => ?_
  obtain rfl : .escape c = v := Option.some.inj hv
  cases u <;> rfl

end TabFormat.Token
