import TabFormat.Proofs.Normal
import TabFormat.Proofs.Spelling.Call

/-!
# Several groups as one

The source text of the arguments of a placeholder is that of its groups, with a comma and a space
between each two of them that are not empty. Between one pair of parentheses it is a group again,
whose contents are those of the groups, joined. This group has the arguments of all groups, but
there may be more: a group of white space has no arguments by itself, and beside another group it is
an empty argument.

## Main definitions

* `joinContents` : the contents of several groups as those of one.
* `Placeholder.contents` : the contents of the groups that are not empty.
* `Placeholder.Separable` : no group of white space stands beside another group.
* `Padded` : a list of texts with empty texts added.

## Main results

* `Enclosed.joinContents` : joined contents can stand between parentheses.
* `argumentTexts_joinContents_iff` : when the arguments are the same.
* `Placeholder.exists_merged` : a placeholder with all its groups in one.
-/

namespace TabFormat.Template

open Token (scan source ofChar? Apart Normal)

/-! ### Contents of groups -/

theorem spell_ne_nil (piece : Piece) (pieces : List Piece) : spell (piece :: pieces) ≠ [] := by
  cases piece <;> simp [spell, Piece.tokens]

/-- The contents of a group with one space more in front. -/
def spaced : List Piece → List Piece
  | .token (.blank s) :: rest => .token (.blank (' ' :: s)) :: rest
  | content => .token (.blank [' ']) :: content

/-- The contents of several groups as those of one, with a comma and a space between each two. -/
def joinContents : List (List Piece) → List Piece
  | [] => []
  | [content] => content
  | content :: next :: rest => content ++ .token .comma :: spaced (joinContents (next :: rest))

/-- The space is part of the white space that the contents begin with, or it stands by itself. -/
theorem spaced_cases (content : List Piece) :
    (∃ s rest, content = .token (.blank s) :: rest ∧
      spaced content = .token (.blank (' ' :: s)) :: rest) ∨
    (spaced content = .token (.blank [' ']) :: content ∧
      ∀ t ∈ (spell content).head?, t.isBlank = false) := by
  cases content with
  | nil => exact .inr ⟨rfl, by simp [spell]⟩
  | cons piece rest =>
    cases piece with
    | quotation q body => exact .inr ⟨rfl, by simp [spell, Piece.tokens, Token.isBlank]⟩
    | token t =>
      cases t with
      | blank s => exact .inl ⟨s, rest, rfl, rfl⟩
      | _ => exact .inr ⟨rfl, by simp [spell, Piece.tokens, Token.isBlank]⟩

theorem source_spaced (content : List Piece) :
    source (spell (spaced content)) = ' ' :: source (spell content) := by
  obtain ⟨s, rest, rfl, hs⟩ | ⟨hs, -⟩ := spaced_cases content
  · rw [hs]
    rfl
  · rw [hs]
    rfl

/-- The source text of joined contents. -/
theorem source_joinContents (contents : List (List Piece)) :
    source (spell (joinContents contents)) =
      Text.join [',', ' '] (contents.map fun content => source (spell content)) := by
  induction contents with
  | nil => rfl
  | cons content contents ih =>
    cases contents with
    | nil => rfl
    | cons next rest =>
      rw [joinContents, spell_append, spell_cons, Token.source_append, Piece.tokens,
        Token.source_append, source_spaced, ih]
      simp only [List.map_cons, Text.join, List.append_assoc]
      rfl

/-! ### Between parentheses -/

/-- Contents that can stand between parentheses: they are what their text is read as, and end
before the closing parenthesis. -/
structure Enclosed (content : List Piece) : Prop where
  /-- The tokens are those of their text. -/
  normal : Normal (spell content)
  /-- The last token is no lone backslash. -/
  backslash_notMem : .backslash ∉ spell content
  /-- No part ends the group. -/
  fits : ∀ piece ∈ content, piece.Fits [.closeParen]

namespace Enclosed

variable {content content' : List Piece}

/-- The contents are what is read before the closing parenthesis. -/
theorem scans (h : Enclosed content) : Scans (source (spell content)) (spell content) := by
  have hscans : Scans (source (spell content)) (scan (source (spell content))) :=
    scans_of_notMem (by rw [Token.scan_source h.normal]; exact h.backslash_notMem)
  rwa [Token.scan_source h.normal] at hscans

theorem nil : Enclosed [] :=
  ⟨Token.normal_nil, List.not_mem_nil, fun _ h => absurd h List.not_mem_nil⟩

/-- A comma between contents. -/
theorem comma (h : Enclosed content) (h' : Enclosed content') :
    Enclosed (content ++ .token .comma :: content') := by
  have hspell : spell (content ++ .token .comma :: content') =
      spell content ++ .comma :: spell content' := by
    rw [spell_append, spell_cons]
    rfl
  have hright : Normal (.comma :: spell content') :=
    Token.normal_cons.mpr ⟨trivial, fun u _ => Token.apart_special (c := ',') rfl u, h'.normal⟩
  refine ⟨?_, ?_, ?_⟩
  · rw [hspell]
    refine h.normal.append hright fun s hs t ht => ?_
    obtain rfl : .comma = t := Option.some.inj ht
    refine ⟨?_, fuse_special s (c := ',') rfl⟩
    rintro rfl
    exact h.backslash_notMem (List.mem_of_getLast? hs)
  · rw [hspell, List.mem_append, List.mem_cons]
    rintro (hmem | hmem | hmem)
    · exact h.backslash_notMem hmem
    · simp at hmem
    · exact h'.backslash_notMem hmem
  · refine List.forall_mem_append.mpr ⟨h.fits, List.forall_mem_cons.mpr ⟨?_, h'.fits⟩⟩
    exact ⟨by simp, by simp⟩

/-- One space more in front of contents. -/
theorem spaced (h : Enclosed content) : Enclosed (spaced content) := by
  have hfits (s : Text) : (Piece.token (.blank s)).Fits [.closeParen] := ⟨by simp, by simp⟩
  obtain ⟨s, rest, rfl, hs⟩ | ⟨hs, hhead⟩ := spaced_cases content
  · obtain ⟨hproper, hapart, hrest⟩ :=
      Token.normal_cons.mp (show Normal (.blank s :: spell rest) from h.normal)
    rw [hs]
    refine ⟨?_, ?_, List.forall_mem_cons.mpr ⟨hfits _, (List.forall_mem_cons.mp h.fits).2⟩⟩
    · refine Token.normal_cons.mpr ⟨?_, fun u hu => ⟨by simp, ?_⟩, hrest⟩
      · exact ⟨List.cons_ne_nil _ _, List.forall_mem_cons.mpr ⟨by decide, hproper.2⟩⟩
      · have hfuse := (hapart u hu).2
        cases u with
        | blank v => simp [Token.fuse] at hfuse
        | _ => rfl
    · have hmem := h.backslash_notMem
      rw [spell_cons, List.mem_append, not_or] at hmem ⊢
      exact ⟨by simp [Piece.tokens], hmem.2⟩
  · rw [hs]
    refine ⟨?_, ?_, List.forall_mem_cons.mpr ⟨hfits _, h.fits⟩⟩
    · refine Token.normal_cons.mpr ⟨?_, fun u hu => ⟨by simp, ?_⟩, h.normal⟩
      · exact ⟨List.cons_ne_nil _ _, List.forall_mem_singleton.mpr (by decide)⟩
      · refine fuse_of_isBlank_ne ?_
        rw [hhead u hu]
        exact Bool.false_ne_true.symm
    · rw [spell_cons, List.mem_append, not_or]
      exact ⟨by simp [Piece.tokens], h.backslash_notMem⟩

/-- **Joined contents can stand between parentheses.** -/
theorem joinContents {contents : List (List Piece)} (h : ∀ content ∈ contents, Enclosed content) :
    Enclosed (joinContents contents) := by
  induction contents with
  | nil => exact .nil
  | cons content contents ih =>
    obtain ⟨hfirst, hrest⟩ := List.forall_mem_cons.mp h
    cases contents with
    | nil => exact hfirst
    | cons next rest => exact hfirst.comma (ih hrest).spaced

end Enclosed

/-! ### The arguments of joined contents -/

/-- The texts between the commas of a group, also if it is all white space. -/
def textsBetweenCommas (content : List Piece) : List Text :=
  (content.splitOn (.token .comma)).map argumentText

theorem argumentTextFrom_cons_blank {t : Token} (ht : t.isBlank = true) (stretch : List Token)
    (pieces : List Piece) :
    argumentTextFrom (t :: stretch) pieces = argumentTextFrom stretch pieces := by
  have hstretch (stretch : List Token) : stretchText (t :: stretch) = stretchText stretch := by
    rw [stretchText, Token.trim, List.dropWhile_cons_of_pos ht]
    rfl
  induction pieces generalizing stretch with
  | nil => exact hstretch stretch
  | cons piece pieces ih =>
    cases piece with
    | token u => exact ih (stretch ++ [u])
    | quotation q body => rw [argumentTextFrom, argumentTextFrom, hstretch]

/-- White space in front of the first argument does not count. -/
theorem textsBetweenCommas_cons_blank {t : Token} (ht : t.isBlank = true) (content : List Piece) :
    textsBetweenCommas (.token t :: content) = textsBetweenCommas content := by
  have hne : Piece.token t ≠ .token .comma := (fits_of_isBlank ht).2
  by_cases hc : .token .comma ∈ content
  · obtain ⟨first, rest, rfl, hfirst⟩ := List.eq_append_cons_of_mem hc
    rw [textsBetweenCommas, textsBetweenCommas, ← List.cons_append,
      List.splitOn_append_cons_self_of_not_mem
        (List.not_mem_cons_of_ne_of_not_mem hne.symm hfirst),
      List.splitOn_append_cons_self_of_not_mem hfirst, List.map_cons, List.map_cons]
    exact congrArg (· :: _) (argumentTextFrom_cons_blank ht [] first)
  · rw [textsBetweenCommas, textsBetweenCommas,
      List.splitOn_eq_singleton (List.not_mem_cons_of_ne_of_not_mem hne.symm hc),
      List.splitOn_eq_singleton hc]
    exact congrArg (fun text => [text]) (argumentTextFrom_cons_blank ht [] content)

theorem textsBetweenCommas_spaced (content : List Piece) :
    textsBetweenCommas (spaced content) = textsBetweenCommas content := by
  obtain ⟨s, rest, rfl, hs⟩ | ⟨hs, -⟩ := spaced_cases content
  · rw [hs, textsBetweenCommas_cons_blank rfl, textsBetweenCommas_cons_blank rfl]
  · rw [hs, textsBetweenCommas_cons_blank rfl]

/-- Between the commas of joined contents stands what stands between the commas of each. -/
theorem textsBetweenCommas_joinContents {contents : List (List Piece)} (h : contents ≠ []) :
    textsBetweenCommas (joinContents contents) = contents.flatMap textsBetweenCommas := by
  induction contents with
  | nil => exact absurd rfl h
  | cons content contents ih =>
    cases contents with
    | nil => rw [joinContents, List.flatMap_singleton]
    | cons next rest =>
      rw [joinContents, textsBetweenCommas, List.splitOn_append_cons_self, List.map_append,
        ← textsBetweenCommas, ← textsBetweenCommas, textsBetweenCommas_spaced,
        ih (List.cons_ne_nil _ _)]
      rfl

theorem argumentTexts_of_not_blank {content : List Piece}
    (h : content.all Piece.isBlank = false) :
    argumentTexts content = textsBetweenCommas content := by
  rw [argumentTexts, h, if_neg Bool.false_ne_true]
  rfl

/-- White space has no arguments, and is an empty text before a comma. -/
theorem argumentTexts_of_blank {content : List Piece} (h : content.all Piece.isBlank = true) :
    argumentTexts content = [] ∧ textsBetweenCommas content = [[]] := by
  refine ⟨by rw [argumentTexts, if_pos h], ?_⟩
  induction content with
  | nil => rfl
  | cons piece content ih =>
    rw [List.all_cons, Bool.and_eq_true] at h
    cases piece with
    | token t => rw [textsBetweenCommas_cons_blank h.1, ih h.2]
    | quotation q body => exact absurd h.1 Bool.false_ne_true

/-- The arguments of joined contents. -/
theorem argumentTexts_joinContents (contents : List (List Piece)) :
    argumentTexts (joinContents contents) =
      if contents.length ≤ 1 then contents.flatMap argumentTexts
      else contents.flatMap textsBetweenCommas := by
  match contents with
  | [] => rfl
  | [content] =>
    have hone : [content].length ≤ 1 := Nat.le_refl 1
    rw [if_pos hone, joinContents, List.flatMap_singleton]
  | content :: next :: rest =>
    rw [if_neg (by simp), ← textsBetweenCommas_joinContents (List.cons_ne_nil _ _)]
    -- there is a comma
    refine argumentTexts_of_not_blank (List.all_eq_false.mpr ⟨.token .comma, ?_, by decide⟩)
    exact List.mem_append_right _ List.mem_cons_self

/-! ### Empty arguments -/

/-- The second list is the first one with empty texts added. -/
inductive Padded : List Text → List Text → Prop
  | nil : Padded [] []
  | keep {text : Text} {texts texts' : List Text} (h : Padded texts texts') :
      Padded (text :: texts) (text :: texts')
  | add {texts texts' : List Text} (h : Padded texts texts') : Padded texts ([] :: texts')

namespace Padded

variable {texts texts' more more' : List Text}

theorem refl (texts : List Text) : Padded texts texts := by
  induction texts with
  | nil => exact .nil
  | cons text texts ih => exact .keep ih

theorem append (h : Padded texts texts') (h' : Padded more more') :
    Padded (texts ++ more) (texts' ++ more') := by
  induction h with
  | nil => exact h'
  | keep _ ih => exact .keep ih
  | add _ ih => exact .add ih

theorem length_le (h : Padded texts texts') : texts.length ≤ texts'.length := by
  induction h with
  | nil => exact Nat.le_refl _
  | keep _ ih => exact Nat.succ_le_succ ih
  | add _ ih => exact Nat.le_succ_of_le ih

/-- What was added is empty. -/
theorem mem_or_eq_nil (h : Padded texts texts') {text : Text} (ht : text ∈ texts') :
    text ∈ texts ∨ text = [] := by
  induction h with
  | nil => exact absurd ht List.not_mem_nil
  | keep _ ih =>
    rcases List.mem_cons.mp ht with rfl | ht
    · exact .inl List.mem_cons_self
    · exact (ih ht).imp_left (List.mem_cons_of_mem _)
  | add _ ih =>
    rcases List.mem_cons.mp ht with rfl | ht
    · exact .inr rfl
    · exact ih ht

end Padded

theorem padded_textsBetweenCommas (content : List Piece) :
    Padded (argumentTexts content) (textsBetweenCommas content) := by
  cases h : content.all Piece.isBlank with
  | true =>
    obtain ⟨hnone, hempty⟩ := argumentTexts_of_blank h
    rw [hnone, hempty]
    exact .add .nil
  | false =>
    rw [argumentTexts_of_not_blank h]
    exact .refl _

theorem padded_flatMap (contents : List (List Piece)) :
    Padded (contents.flatMap argumentTexts) (contents.flatMap textsBetweenCommas) := by
  induction contents with
  | nil => exact .nil
  | cons content contents ih =>
    rw [List.flatMap_cons, List.flatMap_cons]
    exact (padded_textsBetweenCommas content).append ih

/-- The arguments of joined contents are those of all groups, and perhaps empty ones. -/
theorem padded_joinContents (contents : List (List Piece)) :
    Padded (contents.flatMap argumentTexts) (argumentTexts (joinContents contents)) := by
  rw [argumentTexts_joinContents]
  split
  · exact .refl _
  · exact padded_flatMap contents

/-- White space beside other contents is one argument more. -/
theorem length_lt_of_blank_mem {contents : List (List Piece)} {content : List Piece}
    (hmem : content ∈ contents) (hblank : content.all Piece.isBlank = true) :
    (contents.flatMap argumentTexts).length < (contents.flatMap textsBetweenCommas).length := by
  obtain ⟨front, back, rfl⟩ := List.append_of_mem hmem
  obtain ⟨hnone, hempty⟩ := argumentTexts_of_blank hblank
  have hfront := (padded_flatMap front).length_le
  have hback := (padded_flatMap back).length_le
  simp only [List.flatMap_append, List.flatMap_cons, List.length_append, hnone, hempty,
    List.length_nil, List.length_singleton]
  omega

/-! ### Placeholders -/

/-- The contents of a group if they are not empty. -/
def Sequel.contents : Sequel → List (List Piece)
  | group content => if content.isEmpty then [] else [content]
  | passed _ => []

/-- The contents of the groups that are not empty, in order. -/
def Placeholder.contents (p : Placeholder) : List (List Piece) :=
  p.sequels.flatMap Sequel.contents

/-- No group of white space stands beside another group that is not empty. -/
def Placeholder.Separable (p : Placeholder) : Prop :=
  p.contents.length ≤ 1 ∨ ∀ content ∈ p.contents, content.all Piece.isBlank = false

theorem Sequel.mem_contents {sequel : Sequel} {content : List Piece} :
    content ∈ sequel.contents ↔ sequel = .group content ∧ content ≠ [] := by
  cases sequel with
  | passed t => simp [contents]
  | group content' =>
    cases content' with
    | nil =>
      simp only [contents, List.isEmpty_nil, if_true, List.not_mem_nil, group.injEq, false_iff]
      rintro ⟨rfl, hne⟩
      exact hne rfl
    | cons piece rest =>
      simp only [contents, List.isEmpty_cons, Bool.false_eq_true, if_false, List.mem_singleton,
        group.injEq]
      refine ⟨?_, fun h => h.1.symm⟩
      rintro rfl
      exact ⟨rfl, List.cons_ne_nil _ _⟩

namespace Placeholder

variable {p : Placeholder}

/-- The arguments of a placeholder are those of its groups that are not empty. -/
theorem argumentTexts_eq (p : Placeholder) :
    p.argumentTexts = p.contents.flatMap TabFormat.Template.argumentTexts := by
  rw [argumentTexts, contents, List.flatMap_assoc]
  refine congrArg List.flatten (List.map_congr_left fun sequel _ => ?_)
  cases sequel with
  | passed t => rfl
  | group content =>
    cases content with
    | nil => rfl
    | cons piece rest => exact (List.flatMap_singleton ..).symm

/-- The groups that are not empty can stand between parentheses. -/
theorem enclosed_of_mem (hp : p.WellFormed) (hn : Normal p.tokens) {content : List Piece}
    (h : content ∈ p.contents) : Enclosed content := by
  obtain ⟨sequel, hsequel, hcontent⟩ := List.mem_flatMap.mp h
  obtain ⟨rfl, -⟩ := Sequel.mem_contents.mp hcontent
  have hfits := hp.sequels_wellFormed _ hsequel
  obtain ⟨front, back, hsequels⟩ := List.append_of_mem hsequel
  have htokens : p.tokens = ((.percent :: spell p.name) ++ front.flatMap Sequel.tokens ++
      [.openParen]) ++ (spell content ++
        .closeParen :: (back.flatMap Sequel.tokens ++ [.percent])) := by
    rw [tokens, hsequels, List.flatMap_append, List.flatMap_cons, Sequel.tokens]
    simp only [List.append_assoc, List.cons_append, List.nil_append]
  rw [htokens] at hn
  exact ⟨hn.right.left, hn.right.backslash_notMem (List.cons_ne_nil _ _), hfits⟩

/-- The source text of the arguments is that of the joined groups. -/
theorem rawArgs_eq (hp : p.WellFormed) (hn : Normal p.tokens) :
    p.rawArgs = source (spell (joinContents p.contents)) := by
  rw [rawArgs, source_joinContents, contents, List.map_flatMap, List.filter_flatMap]
  refine congrArg (fun groups => Text.join [',', ' '] (List.flatten groups))
    (List.map_congr_left fun sequel hsequel => ?_)
  cases sequel with
  | passed t => rfl
  | group content =>
    cases content with
    | nil => rfl
    | cons piece rest =>
      have hmem : piece :: rest ∈ p.contents :=
        List.mem_flatMap.mpr ⟨_, hsequel, Sequel.mem_contents.mpr ⟨rfl, List.cons_ne_nil _ _⟩⟩
      have hne := (enclosed_of_mem hp hn hmem).normal.source_ne_nil (spell_ne_nil piece rest)
      rw [Sequel.rawGroup, Sequel.contents, List.filter_cons, List.isEmpty_eq_false_iff.mpr hne]
      rfl

/-- **A placeholder with all its groups in one.** If the name needs no quotation marks, then the
name with the source text of the arguments between parentheses is a placeholder of this name and
with this source text, whose arguments are those of the joined groups. -/
theorem exists_merged (hp : p.WellFormed) (hn : Normal p.tokens)
    (hname : ∀ c ∈ p.nameText, mustInName c = false) :
    ∃ p' : Placeholder, p'.WellFormed ∧ p'.nameText = p.nameText ∧ p'.rawArgs = p.rawArgs ∧
      p'.argumentTexts = TabFormat.Template.argumentTexts (joinContents p.contents) ∧
      ∀ rest, scan ('%' :: (p.nameText ++ '(' :: (p.rawArgs ++ ')' :: '%' :: rest))) =
        p'.tokens ++ scan rest := by
  obtain ⟨pieces, hscans, hfits, hspoken⟩ := (WrittenName.bare (.refl hname)).exists_pieces
  have henclosed := Enclosed.joinContents fun content h => enclosed_of_mem hp hn h
  have hgroup := hscans.append_special (c := '(') rfl
    (henclosed.scans.append_special (c := ')') rfl scans_nil)
  refine ⟨⟨pieces, [.group (joinContents p.contents)]⟩, ⟨hfits, ?_, by simp, ?_⟩, hspoken, ?_,
    List.flatMap_singleton .., fun rest => ?_⟩
  · rw [nameText, hspoken]
    exact hp.nameText_ne_nil
  · exact List.forall_mem_singleton.mpr henclosed.fits
  · rw [rawArgs_eq hp hn, rawArgs, List.flatMap_singleton, Sequel.rawGroup, join_filter_singleton]
  · have hall := hgroup '%' .percent rest rfl
    rw [← rawArgs_eq hp hn] at hall
    rw [Token.scan_cons_special (t := .percent) rfl]
    simp only [List.append_assoc, List.cons_append, List.nil_append] at hall
    rw [hall]
    simp only [tokens, Sequel.tokens, List.flatMap_cons, List.flatMap_nil, List.append_assoc,
      List.cons_append, List.nil_append]

end Placeholder

/-- **When joined contents have the arguments of all groups**, and when they have as many. -/
theorem argumentTexts_joinContents_iff (p : Placeholder) :
    (p.Separable → argumentTexts (joinContents p.contents) =
      p.contents.flatMap argumentTexts) ∧
    ((argumentTexts (joinContents p.contents)).length =
      (p.contents.flatMap argumentTexts).length → p.Separable) := by
  constructor
  · rintro (hone | hblank)
    · rw [argumentTexts_joinContents, if_pos hone]
    · rw [argumentTexts_joinContents]
      split
      · rfl
      · rw [List.flatMap_def, List.flatMap_def]
        refine congrArg List.flatten (List.map_congr_left fun content hmem => ?_)
        exact (argumentTexts_of_not_blank (hblank content hmem)).symm
  · rw [argumentTexts_joinContents]
    intro hlength
    by_cases hone : p.contents.length ≤ 1
    · exact .inl hone
    · rw [if_neg hone] at hlength
      refine .inr fun content hmem => ?_
      rw [Bool.eq_false_iff]
      intro hblank
      exact absurd (length_lt_of_blank_mem hmem hblank) (by rw [hlength]; exact Nat.lt_irrefl _)

end TabFormat.Template
