import Mathlib.Data.List.TakeWhile
import TabFormat.Template.Token

/-!
# Scanning a text in parts

A run of plain text or of white space is as long as it can be, so the tokens of two texts, one after
the other, are not the tokens of both: the last run of the first text and the first run of the
second one may be one run. `join` puts token sequences together in this way; it is associative, and
a text can be scanned in two parts wherever an escape is not torn apart (`scan_append`).

## Main definitions

* `join` : token sequences put together, with the runs at the seam fused.

## Main results

* `join_assoc` : where a sequence is cut does not matter.
* `scan_cons`, `scan_append` : the tokens of a text are those of its parts, joined.
-/

namespace TabFormat.Token

/-! ### Joining token sequences -/

/-- Two tokens next to each other: runs of one kind are one run. -/
def fuse : Token → Token → List Token
  | plain s, plain t => [plain (s ++ t)]
  | blank s, blank t => [blank (s ++ t)]
  | first, second => [first, second]

/-- One token sequence after another, with the tokens at the seam fused. -/
def join : List Token → List Token → List Token
  | [], second => second
  | [s], [] => [s]
  | [s], t :: second => fuse s t ++ second
  | s :: s' :: first, second => s :: join (s' :: first) second

theorem join_nil (first : List Token) : join first [] = first := by
  induction first with
  | nil => rfl
  | cons s first ih =>
    cases first with
    | nil => rfl
    | cons s' first => rw [join, ih]

theorem fuse_ne_nil (s t : Token) : fuse s t ≠ [] := by
  unfold fuse
  split <;> exact List.cons_ne_nil _ _

theorem join_ne_nil {first : List Token} (h : first ≠ []) (second : List Token) :
    join first second ≠ [] := by
  match first, second with
  | [], _ => exact absurd rfl h
  | [s], [] => exact List.cons_ne_nil _ _
  | [s], t :: second => exact List.append_ne_nil_of_left_ne_nil (fuse_ne_nil s t) second
  | s :: s' :: first, second => exact List.cons_ne_nil _ _

/-- Only the last token takes part in a seam. -/
theorem join_append (front : List Token) {first : List Token} (h : first ≠ [])
    (second : List Token) : join (front ++ first) second = front ++ join first second := by
  induction front with
  | nil => rfl
  | cons s front ih =>
    rw [List.cons_append, List.cons_append, ← ih]
    cases hf : front ++ first with
    | nil => exact absurd (List.append_eq_nil_iff.mp hf).2 h
    | cons s' rest => rfl

/-- Three tokens next to each other: it does not matter which two are fused first. -/
theorem join_fuse (s t u : Token) : join (fuse s t) [u] = join [s] (fuse t u) := by
  cases s with
  | plain a =>
    cases t with
    | plain b => cases u <;> simp [fuse, join]
    | _ => cases u <;> rfl
  | blank a =>
    cases t with
    | blank b => cases u <;> simp [fuse, join]
    | _ => cases u <;> rfl
  | _ =>
    cases t with
    | plain b => cases u <;> rfl
    | blank b => cases u <;> rfl
    | _ => rfl

/-- Only the first token of the second sequence takes part in a seam. -/
theorem join_append_right (first : List Token) {second : List Token} (h : second ≠ [])
    (rest : List Token) : join first (second ++ rest) = join first second ++ rest := by
  obtain ⟨t, second, rfl⟩ := List.exists_cons_of_ne_nil h
  induction first with
  | nil => rfl
  | cons s first ih =>
    cases first with
    | nil => rw [List.cons_append, join, join, List.append_assoc]
    | cons s' first => rw [join, ih, join, List.cons_append]

theorem join_assoc (first second third : List Token) :
    join (join first second) third = join first (join second third) := by
  induction first with
  | nil => rfl
  | cons s first ih =>
    cases first with
    | cons s' first =>
      have hne : join (s' :: first) second ≠ [] := join_ne_nil (List.cons_ne_nil _ _) second
      rw [join, join, ← ih]
      exact join_append [s] hne third
    | nil =>
      match second, third with
      | [], third => rfl
      | [t], [] => rw [join_nil, join_nil]
      | [t], u :: third =>
        have hthird : u :: third = [u] ++ third := rfl
        rw [hthird, join_append_right _ (List.cons_ne_nil _ _),
          join_append_right [t] (List.cons_ne_nil _ _)]
        show join (fuse s t ++ []) [u] ++ third = join [s] ((fuse t u ++ []) ++ third)
        rw [List.append_nil, List.append_nil, join_append_right _ (fuse_ne_nil t u), join_fuse]
      | t :: t' :: second, third =>
        have hne : t' :: second ≠ [] := List.cons_ne_nil _ _
        show join (fuse s t ++ (t' :: second)) third = fuse s t ++ join (t' :: second) third
        rw [join_append _ hne]

/-- What holds of two sequences and of fused tokens holds of the joined sequence. -/
theorem forall_mem_join {P : Token → Prop} (hfuse : ∀ s t, P s → P t → ∀ u ∈ fuse s t, P u)
    {first second : List Token} (hf : ∀ t ∈ first, P t) (hs : ∀ t ∈ second, P t) :
    ∀ t ∈ join first second, P t := by
  induction first with
  | nil => exact hs
  | cons s first ih =>
    obtain ⟨hhead, htail⟩ := List.forall_mem_cons.mp hf
    cases first with
    | nil =>
      cases second with
      | nil => exact hf
      | cons t second =>
        obtain ⟨ht, hrest⟩ := List.forall_mem_cons.mp hs
        exact List.forall_mem_append.mpr ⟨hfuse s t hhead ht, hrest⟩
    | cons s' first => exact List.forall_mem_cons.mpr ⟨hhead, ih htail⟩

/-- What tokens contribute to a text does not change when runs are fused. -/
theorem flatMap_join {f : Token → Text} (hf : ∀ s t, (fuse s t).flatMap f = f s ++ f t)
    (first second : List Token) :
    (join first second).flatMap f = first.flatMap f ++ second.flatMap f := by
  induction first with
  | nil => rfl
  | cons s first ih =>
    cases first with
    | nil =>
      cases second with
      | nil => rw [join_nil, List.flatMap_nil, List.append_nil]
      | cons t second =>
        rw [join, List.flatMap_append, hf, List.flatMap_singleton, List.flatMap_cons,
          List.append_assoc]
    | cons s' first =>
      rw [join, List.flatMap_cons, ih, List.flatMap_cons (x := s), List.append_assoc]

/-- Sequences whose tokens at the seam stay apart are appended. -/
theorem join_eq_append {first second : List Token}
    (h : ∀ s ∈ first.getLast?, ∀ t ∈ second.head?, fuse s t = [s, t]) :
    join first second = first ++ second := by
  cases second with
  | nil => rw [join_nil, List.append_nil]
  | cons t second =>
    rcases List.eq_nil_or_concat first with rfl | ⟨front, s, rfl⟩
    · rfl
    · rw [List.concat_eq_append] at h ⊢
      rw [join_append front (List.cons_ne_nil _ _), join, h s (by simp) t rfl, List.append_assoc]
      rfl

/-! ### Characters and runs -/

/-- The token of a character by itself, which is no backslash. -/
def single (c : Char) : Token :=
  (ofChar? c).getD (if Text.isBlank c then blank [c] else plain [c])

theorem ofChar?_of_isBlank {c : Char} (h : Text.isBlank c = true) : ofChar? c = none := by
  unfold ofChar?
  split
  all_goals first | rfl | exact absurd h (by decide)

theorem ne_backslash_of_isBlank {c : Char} (h : Text.isBlank c = true) : c ≠ '\\' := by
  rintro rfl
  exact absurd h (by decide)

/-- White space is scanned as a run. -/
theorem scan_cons_blank {c : Char} (h : Text.isBlank c = true) (s : Text) :
    scan (c :: s) = blank (c :: s.takeWhile Text.isBlank) :: scan (s.dropWhile Text.isBlank) := by
  have hc := ne_backslash_of_isBlank h
  rw [scan]
  · rw [ofChar?_of_isBlank h, if_pos h]
  · exact fun hc' _ => hc hc'
  · exact fun _ _ hc' _ => hc hc'

/-- Plain text is scanned as a run. -/
theorem scan_cons_plain {c : Char} (h : isPlain c = true) (s : Text) :
    scan (c :: s) = plain (c :: s.takeWhile isPlain) :: scan (s.dropWhile isPlain) := by
  simp only [isPlain, Bool.and_eq_true, Option.isNone_iff_eq_none, bne_iff_ne, ne_eq,
    Bool.not_eq_true'] at h
  obtain ⟨⟨hnone, hc⟩, hb⟩ := h
  rw [scan]
  · rw [hnone, if_neg (Bool.eq_false_iff.mp hb)]
  · exact fun hc' _ => hc hc'
  · exact fun _ _ hc' _ => hc hc'

/-- A special character is a token by itself. -/
theorem scan_cons_special {c : Char} {t : Token} (h : ofChar? c = some t) (s : Text) :
    scan (c :: s) = t :: scan s := by
  have hc : c ≠ '\\' := by
    rintro rfl
    simp [ofChar?] at h
  rw [scan]
  · rw [h]
  · exact fun hc' _ => hc hc'
  · exact fun _ _ hc' _ => hc hc'

theorem scan_nil : scan [] = [] := by
  rw [scan]

theorem scan_escape (c : Char) (s : Text) : scan ('\\' :: c :: s) = escape c :: scan s := by
  rw [scan]

/-- A run is not empty and is made of characters of one class. -/
def Proper : Token → Prop
  | blank s => s ≠ [] ∧ ∀ c ∈ s, Text.isBlank c = true
  | plain s => s ≠ [] ∧ ∀ c ∈ s, isPlain c = true
  | _ => True

/-- A special character fuses with nothing. -/
theorem fuse_of_ofChar? {c : Char} {t : Token} (h : ofChar? c = some t) (u : Token) :
    fuse t u = [t, u] := by
  unfold ofChar? at h
  split at h <;> simp only [Option.some.injEq, reduceCtorEq] at h <;> subst h <;> rfl

theorem proper_of_ofChar? {c : Char} {t : Token} (h : ofChar? c = some t) : t.Proper := by
  unfold ofChar? at h
  split at h <;> simp only [Option.some.injEq, reduceCtorEq] at h <;> subst h <;> trivial

theorem proper_of_mem_scan (s : Text) : ∀ t ∈ scan s, t.Proper := by
  fun_induction scan s with
  | case1 => exact fun t h => absurd h List.not_mem_nil
  | case2 => exact List.forall_mem_singleton.mpr trivial
  | case3 c rest ih => exact List.forall_mem_cons.mpr ⟨trivial, ih⟩
  | case4 c rest _ _ t h ih => exact List.forall_mem_cons.mpr ⟨proper_of_ofChar? h, ih⟩
  | case5 c rest _ _ _ hb ih =>
    refine List.forall_mem_cons.mpr ⟨⟨List.cons_ne_nil _ _, ?_⟩, ih⟩
    exact List.forall_mem_cons.mpr ⟨hb, fun d hd => List.mem_takeWhile_imp hd⟩
  | case6 c rest hnil hcons hn hb ih =>
    have hc : c ≠ '\\' := fun hc => by
      cases rest with
      | nil => exact hnil hc rfl
      | cons d rest => exact hcons d rest hc rfl
    refine List.forall_mem_cons.mpr ⟨⟨List.cons_ne_nil _ _, ?_⟩, ih⟩
    refine List.forall_mem_cons.mpr ⟨?_, fun d hd => List.mem_takeWhile_imp hd⟩
    simp [isPlain, hn, hc, hb]

theorem Proper.chars_ne_nil {t : Token} (h : t.Proper) : t.chars ≠ [] := by
  cases t with
  | blank s => exact h.1
  | plain s => exact h.1
  | _ => exact List.cons_ne_nil _ _

/-- The first token of a text begins with its first character. -/
theorem mem_chars_of_mem_head_scan {c : Char} {s : Text} {t : Token}
    (h : t ∈ (scan (c :: s)).head?) : c ∈ t.chars := by
  have hchars := flatMap_chars_scan (c :: s)
  have hproper := proper_of_mem_scan (c :: s)
  cases hs : scan (c :: s) with
  | nil => simp [hs] at h
  | cons t' rest =>
    obtain rfl : t' = t := by simpa [hs] using h
    rw [hs, List.flatMap_cons] at hchars
    rw [hs] at hproper
    obtain ⟨d, u, hu⟩ := List.exists_cons_of_ne_nil (hproper t' List.mem_cons_self).chars_ne_nil
    rw [hu, List.cons_append] at hchars
    rw [hu, (List.cons.inj hchars).1]
    exact List.mem_cons_self

/-- One character more in front of a run, or in front of what is not one. -/
theorem scan_cons_run {p : Char → Bool} {run : Text → Token}
    (hscan : ∀ {c}, p c = true → ∀ s,
      scan (c :: s) = run (c :: s.takeWhile p) :: scan (s.dropWhile p))
    (hfuse : ∀ u v, fuse (run u) (run v) = [run (u ++ v)])
    (hapart : ∀ u t, (∀ v, t ≠ run v) → fuse (run u) t = [run u, t])
    (hproper : ∀ u, (run u).Proper → ∀ c ∈ (run u).chars, p c = true)
    {c : Char} (h : p c = true) (s : Text) : scan (c :: s) = join [run [c]] (scan s) := by
  cases s with
  | nil =>
    rw [hscan h, List.takeWhile_nil, List.dropWhile_nil, scan_nil, join_nil]
  | cons d s =>
    cases hd : p d with
    | true =>
      rw [hscan h, hscan hd, List.takeWhile_cons_of_pos hd, List.dropWhile_cons_of_pos hd, join,
        hfuse]
      rfl
    | false =>
      rw [hscan h, List.takeWhile_cons_of_neg (by simp [hd]),
        List.dropWhile_cons_of_neg (by simp [hd])]
      show [run [c]] ++ scan (d :: s) = _
      refine (join_eq_append fun t ht u hu => ?_).symm
      obtain rfl : run [c] = t := by simpa using ht
      refine hapart _ u ?_
      rintro v rfl
      have hmem := mem_chars_of_mem_head_scan hu
      have := hproper v (proper_of_mem_scan _ _ (List.mem_of_mem_head? hu)) d hmem
      rw [hd] at this
      exact absurd this Bool.false_ne_true

/-- **One character more in front of a text.** -/
theorem scan_cons {c : Char} (h : c ≠ '\\') (s : Text) :
    scan (c :: s) = join [single c] (scan s) := by
  cases hc : ofChar? c with
  | some t =>
    rw [scan_cons_special hc, single, hc, Option.getD_some]
    show [t] ++ scan s = _
    refine (join_eq_append fun t' ht u _ => ?_).symm
    obtain rfl : t = t' := by simpa using ht
    exact fuse_of_ofChar? hc u
  | none =>
    rw [single, hc, Option.getD_none]
    cases hb : Text.isBlank c with
    | true =>
      rw [if_pos rfl]
      refine scan_cons_run scan_cons_blank (fun _ _ => rfl) (fun u t ht => ?_)
        (fun u hu => hu.2) hb s
      cases t with
      | blank v => exact absurd rfl (ht v)
      | _ => rfl
    | false =>
      rw [if_neg Bool.false_ne_true]
      refine scan_cons_run scan_cons_plain (fun _ _ => rfl) (fun u t ht => ?_)
        (fun u hu => hu.2) (by simp [isPlain, hc, hb, h]) s
      cases t with
      | plain v => exact absurd rfl (ht v)
      | _ => rfl

/-! ### Two texts -/

/-- A lone backslash is never fused. -/
theorem backslash_mem_join (first : List Token) {second : List Token}
    (h : .backslash ∈ second) : .backslash ∈ join first second := by
  induction first with
  | nil => exact h
  | cons s first ih =>
    cases first with
    | cons s' first => exact List.mem_cons_of_mem _ ih
    | nil =>
      cases second with
      | nil => exact absurd h List.not_mem_nil
      | cons t second =>
        rw [join]
        rcases List.mem_cons.mp h with rfl | h
        · refine List.mem_append_left _ ?_
          cases s <;> simp [fuse]
        · exact List.mem_append_right _ h

/-- **The tokens of two texts, one after the other.** No escape may be torn apart. -/
theorem scan_append (s t : Text) (h : .backslash ∉ scan s) :
    scan (s ++ t) = join (scan s) (scan t) := by
  induction hn : s.length using Nat.strongRecOn generalizing s with
  | ind n ih =>
    match s with
    | [] =>
      rw [scan_nil]
      rfl
    | c :: s =>
      by_cases hc : c = '\\'
      · subst hc
        match s with
        | [] =>
          rw [scan] at h
          exact absurd List.mem_cons_self h
        | c :: s =>
          have hlt : s.length < n := by
            rw [← hn, List.length_cons, List.length_cons]
            omega
          have hjoin (s : Text) : scan ('\\' :: c :: s) = join [escape c] (scan s) := by
            rw [scan_escape]
            cases scan s <;> rfl
          rw [scan_escape] at h
          rw [List.cons_append, List.cons_append, hjoin, hjoin, join_assoc,
            ih _ hlt s (List.not_mem_of_not_mem_cons h) rfl]
      · have hlt : s.length < n := by
          rw [← hn, List.length_cons]
          omega
        rw [scan_cons hc] at h
        rw [List.cons_append, scan_cons hc, scan_cons hc, join_assoc,
          ih _ hlt s (fun hs => h (backslash_mem_join _ hs)) rfl]

/-- A lone backslash can only be the last token. -/
theorem getLast?_scan_of_backslash_mem (s : Text) (h : .backslash ∈ scan s) :
    (scan s).getLast? = some .backslash := by
  have hcons {t : Token} {rest : List Token} (hrest : .backslash ∈ rest →
      rest.getLast? = some .backslash) (ht : t ≠ .backslash) (h : .backslash ∈ t :: rest) :
      (t :: rest).getLast? = some .backslash := by
    have hmem := (List.mem_cons.mp h).resolve_left ht.symm
    obtain ⟨u, rest, rfl⟩ := List.exists_cons_of_ne_nil (List.ne_nil_of_mem hmem)
    rw [List.getLast?_cons_cons]
    exact hrest hmem
  fun_induction scan s with
  | case1 => simp at h
  | case2 => rfl
  | case3 c rest ih => exact hcons ih (by simp) h
  | case4 c rest _ _ t ht ih =>
    refine hcons ih ?_ h
    rintro rfl
    unfold ofChar? at ht
    split at ht <;> simp at ht
  | case5 c rest _ _ _ _ ih => exact hcons ih (by simp) h
  | case6 c rest _ _ _ _ ih => exact hcons ih (by simp) h

end TabFormat.Token
