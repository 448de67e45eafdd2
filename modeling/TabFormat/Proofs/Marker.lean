import TabFormat.Format
import TabFormat.Proofs.Passthrough

/-!
# The marker of rich text

A template asks for rich text if the letters of the marker stand between two percent signs somewhere
in it. Where this is so can be told from the tokens, since nothing but the first percent sign can be
part of a longer token. The arguments of a placeholder keep what stands in its groups, so a marker
in a group is one in an argument; and if a group has no quotation marks and no backslashes, then its
arguments are parts of it.

## Main definitions

* `Marker` : the tokens of the marker.
* `Marked` : a token sequence with the marker in it.

## Main results

* `isRichText_iff` : the marker of a template is found in its tokens.
* `Marked.exists_argument` : a marker in a group is one in an argument.
* `argument_isInfix` : an argument of a group without quotation marks and backslashes.
-/

namespace TabFormat

/-! ### Letter case -/

/-- Few characters are folded to a percent sign or a letter of the marker. -/
theorem Text.eq_or_eq_of_foldChar_eq {c d : Char} (hd : d ∈ ['%', 'r', 't'])
    (h : Text.foldChar c = d) : c = d ∨ c = d.toUpper := by
  have hascii : ∀ n < 0x80, Text.foldChar (Char.ofNat n) ∈ ['%', 'r', 't'] →
      Char.ofNat n = Text.foldChar (Char.ofNat n) ∨
        Char.ofNat n = (Text.foldChar (Char.ofNat n)).toUpper := by decide +kernel
  by_cases hc : c.toNat < 0x80
  · have hcase := hascii c.toNat hc
    rw [Char.ofNat_toNat, h] at hcase
    exact hcase hd
  · -- beyond ASCII, only the Kelvin sign is folded to something else
    have hlower : c.toLower = c := by
      refine dif_neg ?_
      rintro ⟨-, hle⟩
      have : c.toNat ≤ 90 := hle
      omega
    rw [Text.foldChar, hlower] at h
    split at h
    · subst h
      simp at hd
    · exact .inl h

/-- The ways to write the letters of the marker. -/
theorem Text.mem_of_fold_eq {s : Text} (h : Text.fold s = "rt".toList) :
    s ∈ ["rt".toList, "rT".toList, "Rt".toList, "RT".toList] := by
  obtain ⟨first, rest, rfl, hfirst, hrest⟩ := List.map_eq_cons_iff.mp h
  obtain ⟨second, rest, rfl, hsecond, hrest⟩ := List.map_eq_cons_iff.mp hrest
  obtain rfl := List.map_eq_nil_iff.mp hrest
  obtain rfl | rfl := Text.eq_or_eq_of_foldChar_eq (by decide) hfirst <;>
    obtain rfl | rfl := Text.eq_or_eq_of_foldChar_eq (by decide) hsecond <;> decide

namespace Template

open Token (scan source kept Normal)

/-! ### Parts of lists -/

section Infix

variable {α β : Type} {part front back : List α} {x : α}

/-- A part without `x` lies on one side of it. -/
theorem infix_append_cons (hx : x ∉ part) (h : part <:+: front ++ x :: back) :
    part <:+: front ∨ part <:+: back := by
  obtain hfront | hback | ⟨left, right, rfl, hleft, hright⟩ := List.infix_append_iff.mp h
  · exact .inl hfront
  · obtain hhead | hback := List.infix_cons_iff.mp hback
    · cases part with
      | nil => exact .inl List.nil_infix
      | cons y part => exact absurd ((List.cons_prefix_cons.mp hhead).1 ▸ List.mem_cons_self) hx
    · exact .inr hback
  · cases right with
    | nil => exact .inl (by rw [List.append_nil]; exact hleft.isInfix)
    | cons y right =>
      have hy := (List.cons_prefix_cons.mp hright).1
      exact absurd (hy ▸ List.mem_append_right _ List.mem_cons_self) hx

theorem infix_dropWhile {p : α → Bool} (hx : p x = false) (h : x :: part <:+: front) :
    x :: part <:+: front.dropWhile p := by
  induction front with
  | nil => exact h
  | cons y front ih =>
    cases hy : p y with
    | false => rwa [List.dropWhile_cons_of_neg (by simp [hy])]
    | true =>
      rw [List.dropWhile_cons_of_pos hy]
      refine ih ((List.infix_cons_iff.mp h).resolve_left fun hhead => ?_)
      rw [(List.cons_prefix_cons.mp hhead).1, hy] at hx
      exact Bool.true_eq_false.mp hx

theorem infix_flatMap (f : α → List β) (h : part <:+: front) :
    part.flatMap f <:+: front.flatMap f := by
  obtain ⟨left, right, rfl⟩ := h
  rw [List.flatMap_append, List.flatMap_append]
  exact List.infix_append _ _ _

theorem infix_intercalate {sep : List α} {parts : List (List α)} (h : part ∈ parts) :
    part <:+: sep.intercalate parts := by
  induction parts with
  | nil => exact absurd h List.not_mem_nil
  | cons first parts ih =>
    cases parts with
    | nil =>
      exact ⟨[], [], by simp [List.mem_singleton.mp h]⟩
    | cons second parts =>
      rw [List.intercalate_cons_cons]
      rcases List.mem_cons.mp h with rfl | h
      · rw [List.append_assoc]
        exact List.infix_append_left
      · exact List.infix_append_of_infix_right (ih h)

end Infix

/-! ### The marker in tokens -/

/-- The tokens of the marker: its letters between two percent signs, of which the first one may be
escaped. -/
def Marker (tokens : List Token) : Prop :=
  ∃ t s, (t = .percent ∨ t = .escape '%') ∧ Text.fold s = "rt".toList ∧
    tokens = [t, .plain s, .percent]

/-- Whatever divides a placeholder is not part of a marker. -/
theorem Marker.notMem {marker : List Token} (h : Marker marker) {u : Token}
    (hu : ∀ s, u ∉ [.percent, .escape '%', .plain s]) : u ∉ marker := by
  obtain ⟨t, s, ht, -, rfl⟩ := h
  obtain ⟨hpercent, hescape, hplain⟩ : u ≠ .percent ∧ u ≠ .escape '%' ∧ u ≠ .plain s := by
    simpa using hu s
  have hfirst : u ≠ t := by
    rcases ht with rfl | rfl
    · exact hpercent
    · exact hescape
  simp [hfirst, hplain, hpercent]

/-- The marker is part of the tokens. -/
def Marked (tokens : List Token) : Prop :=
  ∃ marker, Marker marker ∧ marker <:+: tokens

theorem Marked.mono {tokens tokens' : List Token} (h : Marked tokens) (hle : tokens <:+: tokens') :
    Marked tokens' := by
  obtain ⟨marker, hmarker, hpart⟩ := h
  exact ⟨marker, hmarker, hpart.trans hle⟩

theorem isRichText_of_isInfix {s s' : Text} (h : s <:+: s') (hs : isRichText s = true) :
    isRichText s' = true := by
  rw [isRichText, Text.occursIn_iff] at hs ⊢
  exact hs.trans (h.map Text.foldChar)

theorem Marker.isRichText_source {marker : List Token} (h : Marker marker) :
    isRichText (source marker) = true := by
  obtain ⟨t, s, ht, hs, rfl⟩ := h
  have hletters : isRichText ('%' :: (s ++ ['%'])) = true := by
    rw [isRichText, Text.fold, List.map_cons, List.map_append, ← Text.fold, hs]
    decide
  refine isRichText_of_isInfix ?_ hletters
  rcases ht with rfl | rfl
  · exact List.infix_rfl
  · show _ <:+: ['\\'] ++ '%' :: (s ++ ['%'])
    exact List.infix_append_right

/-- An argument keeps a marker as it is. -/
theorem Marker.flatMap_kept {marker : List Token} (h : Marker marker) :
    marker.flatMap kept = source marker := by
  obtain ⟨t, s, rfl | rfl, -, rfl⟩ := h <;> rfl

theorem Marked.isRichText_source {tokens : List Token} (h : Marked tokens) :
    isRichText (source tokens) = true := by
  obtain ⟨marker, hmarker, hpart⟩ := h
  exact isRichText_of_isInfix (infix_flatMap Token.chars hpart) hmarker.isRichText_source

/-- A percent sign ends a token. -/
theorem exists_scan_percent (front back : Text) :
    ∃ tokens t, scan (front ++ '%' :: back) = tokens ++ t :: scan back ∧
      (t = .percent ∨ t = .escape '%') := by
  by_cases hback : .backslash ∈ scan front
  · have hlast := Token.getLast?_scan_of_backslash_mem front hback
    obtain ⟨tokens, htokens⟩ := List.getLast?_eq_some_iff.mp hlast
    have hnormal := Token.normal_scan front
    rw [htokens] at hnormal
    have hfront : front = source tokens ++ ['\\'] := by
      rw [← Token.flatMap_chars_scan front, htokens]
      exact Token.source_append _ _
    refine ⟨tokens, .escape '%', ?_, .inr rfl⟩
    rw [hfront, List.append_assoc, List.singleton_append, Token.scan_append _ _ (by
      rw [Token.scan_source hnormal.left]
      exact hnormal.backslash_notMem (List.cons_ne_nil _ _)), Token.scan_source hnormal.left,
      Token.scan_escape]
    refine Token.join_eq_append fun s _ u hu => ?_
    obtain rfl : .escape '%' = u := by simpa using hu
    cases s <;> rfl
  · exact ⟨scan front, .percent, scans_of_notMem hback '%' .percent back rfl, .inl rfl⟩

/-- The letters of the marker are a run of plain text. -/
theorem scan_letters {letters : Text} (h : Text.fold letters = "rt".toList) (back : Text) :
    scan (letters ++ '%' :: back) = .plain letters :: .percent :: scan back := by
  have hplain : ∀ s ∈ ["rt".toList, "rT".toList, "Rt".toList, "RT".toList],
      s ≠ [] ∧ s.all Token.isPlain = true := by decide
  obtain ⟨hne, hall⟩ := hplain letters (Text.mem_of_fold_eq h)
  have hscan : scan letters = [.plain letters] :=
    Token.scan_chars (t := .plain letters) ⟨hne, List.all_eq_true.mp hall⟩
  have hscans : Scans letters (scan letters) := scans_of_notMem (by simp [hscan])
  rw [hscans '%' .percent back rfl, hscan]
  rfl

/-- **The marker of a template is found in its tokens.** -/
theorem isRichText_iff (template : Text) :
    isRichText template = true ↔ Marked (scan template) := by
  refine ⟨fun h => ?_, fun h => ?_⟩
  · rw [isRichText, Text.occursIn_iff] at h
    obtain ⟨before, after, hfold⟩ := h
    obtain ⟨front, rest, rfl, -, hrest⟩ := List.map_eq_append_iff.mp
      (show (template.map Text.foldChar) = before ++ ('%' :: ("rt".toList ++ '%' :: after)) by
        rw [← Text.fold, ← hfold, List.append_assoc]; rfl)
    obtain ⟨first, rest, rfl, hfirst, hrest⟩ := List.map_eq_cons_iff.mp hrest
    obtain ⟨letters, rest, rfl, hletters, hrest⟩ := List.map_eq_append_iff.mp hrest
    obtain ⟨last, back, rfl, hlast, -⟩ := List.map_eq_cons_iff.mp hrest
    obtain rfl : first = '%' :=
      (Text.eq_or_eq_of_foldChar_eq List.mem_cons_self hfirst).elim id id
    obtain rfl : last = '%' :=
      (Text.eq_or_eq_of_foldChar_eq List.mem_cons_self hlast).elim id id
    obtain ⟨tokens, t, hscan, ht⟩ := exists_scan_percent front (letters ++ '%' :: back)
    refine ⟨_, ⟨t, letters, ht, hletters, rfl⟩, tokens, scan back, ?_⟩
    rw [hscan, scan_letters hletters, List.append_assoc]
    rfl
  · have hsource := h.isRichText_source
    rwa [source, Token.flatMap_chars_scan] at hsource

/-! ### The marker in arguments -/

/-- The marker begins and ends with something else than white space. -/
theorem Marked.trim {stretch : List Token} (h : Marked stretch) : Marked (Token.trim stretch) := by
  obtain ⟨_, ⟨t, s, ht, hs, rfl⟩, hpart⟩ := h
  refine ⟨_, ⟨t, s, ht, hs, rfl⟩, ?_⟩
  have hleft : [t, .plain s, .percent] <:+: stretch.dropWhile Token.isBlank :=
    infix_dropWhile (by rcases ht with rfl | rfl <;> rfl) hpart
  have hright : [.percent, .plain s, t] <:+:
      (stretch.dropWhile Token.isBlank).reverse.dropWhile Token.isBlank :=
    infix_dropWhile rfl (List.reverse_infix.mpr hleft)
  exact List.reverse_infix.mpr hright

theorem Marked.isRichText_stretchText {stretch : List Token} (h : Marked stretch) :
    isRichText (stretchText stretch) = true := by
  obtain ⟨marker, hmarker, hpart⟩ := h.trim
  refine isRichText_of_isInfix (infix_flatMap kept hpart) ?_
  rw [hmarker.flatMap_kept]
  exact hmarker.isRichText_source

/-- A marker between the quotations of an argument, or in one of them, is kept. -/
theorem Marked.isRichText_argumentTextFrom {stretch : List Token} {pieces : List Piece}
    (h : Marked (stretch ++ spell pieces)) :
    isRichText (argumentTextFrom stretch pieces) = true := by
  induction pieces generalizing stretch with
  | nil =>
    rw [spell, List.flatMap_nil, List.append_nil] at h
    exact h.isRichText_stretchText
  | cons piece pieces ih =>
    cases piece with
    | token t =>
      refine ih ?_
      rwa [List.append_assoc]
    | quotation q body =>
      obtain ⟨marker, hmarker, hpart⟩ := h
      rw [spell_cons, Piece.tokens, List.append_assoc, List.cons_append] at hpart
      rw [argumentTextFrom]
      obtain hstretch | hpart := infix_append_cons (hmarker.notMem (by simp)) hpart
      · exact isRichText_of_isInfix List.infix_append_left
          (isRichText_stretchText ⟨marker, hmarker, hstretch⟩)
      · obtain hbody | hrest := infix_append_cons (hmarker.notMem (by simp)) hpart
        · refine isRichText_of_isInfix ((infix_flatMap kept hbody).trans ?_) ?_
          · exact List.infix_append_of_infix_right List.infix_append_left
          · rw [hmarker.flatMap_kept]
            exact hmarker.isRichText_source
        · exact isRichText_of_isInfix (List.infix_append_of_infix_right List.infix_append_right)
            (ih ⟨marker, hmarker, hrest⟩)

/-- Commas do not divide a marker. -/
theorem Marked.exists_part {parts : List (List Piece)}
    (h : Marked (spell ([.token .comma].intercalate parts))) :
    ∃ part ∈ parts, Marked (spell part) := by
  obtain ⟨marker, hmarker, hpart⟩ := h
  induction parts with
  | nil =>
    obtain ⟨t, s, -, -, rfl⟩ := hmarker
    exact absurd (List.eq_nil_of_infix_nil hpart) (List.cons_ne_nil _ _)
  | cons first parts ih =>
    cases parts with
    | nil =>
      rw [List.intercalate_singleton] at hpart
      exact ⟨first, List.mem_cons_self, marker, hmarker, hpart⟩
    | cons second parts =>
      rw [List.intercalate_cons_cons, List.append_assoc, spell_append, spell_append] at hpart
      obtain hfirst | hrest := infix_append_cons (hmarker.notMem (by simp)) hpart
      · exact ⟨first, List.mem_cons_self, marker, hmarker, hfirst⟩
      · obtain ⟨part, hmem, hmarked⟩ := ih hrest
        exact ⟨part, List.mem_cons_of_mem _ hmem, hmarked⟩

/-- A group with a marker is more than white space. -/
theorem Marked.all_isBlank_eq_false {content : List Piece} (h : Marked (spell content)) :
    content.all Piece.isBlank = false := by
  obtain ⟨_, ⟨t, s, -, -, rfl⟩, hpart⟩ := h
  have hpercent : .percent ∈ spell content := hpart.subset (by simp)
  obtain ⟨piece, hpiece, hmem⟩ := List.mem_flatMap.mp hpercent
  refine List.all_eq_false.mpr ⟨piece, hpiece, ?_⟩
  cases piece with
  | token t => rw [← List.mem_singleton.mp hmem]; exact Bool.false_ne_true
  | quotation q body => exact Bool.false_ne_true

/-- **A marker in a group is one in an argument.** -/
theorem Marked.exists_argument {content : List Piece} (h : Marked (spell content)) :
    ∃ text ∈ argumentTexts content, isRichText text = true := by
  rw [argumentTexts, h.all_isBlank_eq_false, if_neg Bool.false_ne_true]
  obtain ⟨part, hpart, hmarked⟩ :
      ∃ part ∈ content.splitOn (.token .comma), Marked (spell part) := by
    refine Marked.exists_part ?_
    rwa [List.intercalate_splitOn]
  exact ⟨argumentText part, List.mem_map_of_mem hpart, hmarked.isRichText_argumentTextFrom⟩

theorem trim_isInfix (tokens : List Token) : Token.trim tokens <:+: tokens :=
  (List.rdropWhile_prefix ..).isInfix.trans (List.dropWhile_suffix _).isInfix

theorem kept_of_backslash_notMem {t : Token} (h : '\\' ∉ t.chars) : t.kept = t.chars := by
  cases t with
  | escape c => exact absurd List.mem_cons_self h
  | _ => rfl

/-- Without quotation marks and backslashes, an argument is its tokens without the white space at
both ends. -/
theorem argumentText_isInfix {pieces : List Piece}
    (hclean : ∀ c ∈ source (spell pieces), c ≠ '\\' ∧ isMark c = false) :
    argumentText pieces <:+: source (spell pieces) := by
  obtain ⟨tokens, rfl, hback⟩ : ∃ tokens : List Token, pieces = tokens.map .token ∧
      ∀ t ∈ tokens, '\\' ∉ t.chars := by
    have htokens : ∀ piece ∈ pieces, ∃ t, piece = .token t ∧ '\\' ∉ t.chars :=
      fun _ hpiece => exists_token_of_clean hclean hpiece
    clear hclean
    induction pieces with
    | nil => exact ⟨[], rfl, fun t h => absurd h List.not_mem_nil⟩
    | cons piece pieces ih =>
      obtain ⟨⟨t, rfl, ht⟩, hrest⟩ := List.forall_mem_cons.mp htokens
      obtain ⟨tokens, rfl, hback⟩ := ih hrest
      exact ⟨t :: tokens, rfl, List.forall_mem_cons.mpr ⟨ht, hback⟩⟩
  have htext : argumentText (tokens.map .token) = stretchText tokens := by
    have h := argumentTextFrom_tokens [] tokens []
    rwa [List.append_nil, List.nil_append] at h
  rw [htext, spell_map_token, stretchText, List.flatMap_def, List.map_congr_left fun t ht =>
    kept_of_backslash_notMem (hback t ((trim_isInfix tokens).subset ht)), ← List.flatMap_def]
  exact infix_flatMap Token.chars (trim_isInfix tokens)

/-- **An argument of a group without quotation marks and backslashes is a part of the group.** -/
theorem argument_isInfix {content : List Piece}
    (hclean : ∀ c ∈ source (spell content), c ≠ '\\' ∧ isMark c = false) {text : Text}
    (h : text ∈ argumentTexts content) : text <:+: source (spell content) := by
  rw [argumentTexts] at h
  split at h
  · exact absurd h List.not_mem_nil
  · obtain ⟨part, hpart, rfl⟩ := List.mem_map.mp h
    have hpart' : part <:+: content := by
      have hjoin : [.token .comma].intercalate (content.splitOn (.token .comma)) = content :=
        List.intercalate_splitOn _
      rw [← hjoin]
      exact infix_intercalate hpart
    have hsource : source (spell part) <:+: source (spell content) :=
      infix_flatMap Token.chars (infix_flatMap Piece.tokens hpart')
    exact (argumentText_isInfix fun c hc => hclean c (hsource.subset hc)).trans hsource

end Template

end TabFormat
