import TabFormat.Proofs.Marker
import TabFormat.Proofs.Resplit

/-!
# Rich text

A tab is formatted with rich text if the marker is found in its template. Where it is the marker is
also a placeholder, which stands for nothing, but the two are found in different ways: the marker as
a part of the text, and the placeholder by its name. So letters between two placeholders, or after
an escaped percent sign, can be the marker without being a placeholder; and a placeholder that is
written in another way than the marker is none.

## Main definitions

* `Placeholder.IsMarker` : the placeholder is written as the marker.
* `Tree.HasMarker` : one of the placeholders is the marker.
* `Tree.Stray` : a marker that is no placeholder.
* `Tree.Shown` : a placeholder that is a marker, in the template itself.

## Main results

* `Tree.Valid.hasMarker_or_stray` : a marker is a placeholder, or else it is stray.
* `Tree.Shown.isRichText` : a placeholder that is shown is a marker.
* `formatTab_richText` : when a tab is formatted with rich text.
-/

namespace TabFormat

namespace Template

open Token (scan source Normal)

variable {limit depth : Nat}

/-! ### Placeholders and markers -/

/-- A name of plain text between percent signs. -/
def Placeholder.plain (name : Text) : Placeholder :=
  ⟨[.token (.plain name)], []⟩

/-- The placeholder is written as the marker. -/
def Placeholder.IsMarker (p : Placeholder) : Prop :=
  ∃ s, Text.fold s = "rt".toList ∧ p = .plain s

/-- The tokens without the contents of a group. -/
def Sequel.outer : Sequel → List Token
  | group _ => [.openParen, .closeParen]
  | passed t => [t]

/-- There is a marker in the name of the placeholder or in text that is passed over. -/
def Placeholder.Stray (p : Placeholder) : Prop :=
  Marked (spell p.name ++ (p.sequels.flatMap Sequel.outer ++ [.percent]))

theorem Placeholder.nameText_plain (name : Text) : (plain name).nameText = name := by
  rw [nameText, plain, List.flatMap_singleton]
  rfl

theorem Placeholder.wellFormed_plain {name : Text} (h : name ≠ []) : (plain name).WellFormed where
  name_fits := List.forall_mem_singleton.mpr ⟨by simp, by simp⟩
  nameText_ne_nil := by rwa [nameText_plain]
  head_group := by simp [plain]
  sequels_wellFormed _ h := absurd h List.not_mem_nil

/-- The placeholder of the marker is known. -/
theorem Placeholder.IsMarker.lookup {p : Placeholder} (h : p.IsMarker) :
    Builtin.lookup p.nameText = some (.field .richText) := by
  have hall : ∀ s ∈ ["rt".toList, "rT".toList, "Rt".toList, "RT".toList],
      Builtin.lookup s = some (.field .richText) := by decide +kernel
  obtain ⟨s, hs, rfl⟩ := h
  rw [nameText_plain]
  exact hall s (Text.mem_of_fold_eq hs)

theorem Placeholder.IsMarker.marked {p : Placeholder} (h : p.IsMarker) : Marked p.tokens := by
  obtain ⟨s, hs, rfl⟩ := h
  exact ⟨_, ⟨.percent, s, .inl rfl, hs, rfl⟩, List.infix_rfl⟩

/-- A marker behind the name is in a group or outside of groups. -/
theorem outer_or_group_of_marked {front back : List Token} {sequels : List Sequel}
    (h : Marked (front ++ (sequels.flatMap Sequel.tokens ++ back))) :
    Marked (front ++ (sequels.flatMap Sequel.outer ++ back)) ∨
      ∃ content, .group content ∈ sequels ∧ Marked (spell content) := by
  induction sequels generalizing front with
  | nil => exact .inl h
  | cons sequel sequels ih =>
    cases sequel with
    | group content =>
      obtain ⟨marker, hmarker, hpart⟩ := h
      simp only [List.flatMap_cons, Sequel.tokens, Sequel.outer, List.cons_append,
        List.append_assoc, List.nil_append] at hpart ⊢
      obtain hfront | hpart := infix_append_cons (hmarker.notMem (by simp)) hpart
      · exact .inl ⟨marker, hmarker, List.infix_append_of_infix_left hfront⟩
      · obtain hcontent | hrest := infix_append_cons (hmarker.notMem (by simp)) hpart
        · exact .inr ⟨content, List.mem_cons_self, marker, hmarker, hcontent⟩
        · obtain houter | ⟨content', hmem, hmarked⟩ := ih
              (show Marked ([] ++ (sequels.flatMap Sequel.tokens ++ back)) from
                ⟨marker, hmarker, hrest⟩)
          · refine .inl (houter.mono (List.infix_append_of_infix_right ?_))
            exact List.infix_cons (List.infix_cons List.infix_rfl)
          · exact .inr ⟨content', List.mem_cons_of_mem _ hmem, hmarked⟩
    | passed t =>
      have hsplit (f : Sequel → List Token) (hf : f (.passed t) = [t]) :
          front ++ ((Sequel.passed t :: sequels).flatMap f ++ back) =
            (front ++ [t]) ++ (sequels.flatMap f ++ back) := by
        simp [List.flatMap_cons, hf]
      rw [hsplit _ rfl] at h ⊢
      obtain houter | ⟨content, hmem, hmarked⟩ := ih h
      · exact .inl houter
      · exact .inr ⟨content, List.mem_cons_of_mem _ hmem, hmarked⟩

/-- Only the closing percent sign of a placeholder is outside of its parts. -/
theorem eq_nil_of_percent_prefix {name : List Piece} {sequels : List Sequel}
    (hname : ∀ piece ∈ name, piece.Fits [.percent, .openParen])
    (hsequels : ∀ sequel ∈ sequels, sequel.WellFormed)
    (h : [.percent] <+: spell name ++ (sequels.flatMap Sequel.tokens ++ [.percent])) :
    name = [] ∧ sequels = [] := by
  cases name with
  | cons piece name =>
    cases piece with
    | token t =>
      have ht := (hname _ List.mem_cons_self).1
      exact absurd ((List.cons_prefix_cons.mp h).1 ▸ List.mem_cons_self) ht
    | quotation q body => simp [spell_cons, Piece.tokens] at h
  | nil =>
    refine ⟨rfl, ?_⟩
    cases sequels with
    | nil => rfl
    | cons sequel sequels =>
      cases sequel with
      | group content => simp [spell, Sequel.tokens] at h
      | passed t =>
        have ht := (hsequels _ List.mem_cons_self).1
        exact absurd (List.cons_prefix_cons.mp h).1.symm ht

/-- **Where a marker is in a placeholder.** -/
theorem Placeholder.WellFormed.cases_of_marked {p : Placeholder} (hp : p.WellFormed)
    (h : Marked p.tokens) :
    p.IsMarker ∨ p.Stray ∨ ∃ content, .group content ∈ p.sequels ∧ Marked (spell content) := by
  obtain ⟨_, ⟨t, s, ht, hs, rfl⟩, hpart⟩ := h
  obtain hhead | hpart := List.infix_cons_iff.mp hpart
  · left
    obtain ⟨-, hname⟩ := List.cons_prefix_cons.mp hhead
    refine ⟨s, hs, ?_⟩
    cases hname' : p.name with
    | nil => exact absurd (by rw [nameText, hname']; rfl) hp.nameText_ne_nil
    | cons piece name =>
      rw [hname', spell_cons, List.append_assoc] at hname
      obtain ⟨-, hfits⟩ := List.forall_mem_cons.mp (hname' ▸ hp.name_fits)
      cases piece with
      | quotation q body => simp [Piece.tokens] at hname
      | token u =>
        obtain ⟨rfl, hclose⟩ := List.cons_prefix_cons.mp hname
        obtain ⟨hnil, hsequels⟩ := eq_nil_of_percent_prefix hfits hp.sequels_wellFormed hclose
        obtain ⟨name', sequels⟩ := p
        obtain rfl : name' = .token (.plain s) :: name := hname'
        obtain rfl : sequels = [] := hsequels
        rw [hnil]
        rfl
  · right
    exact outer_or_group_of_marked ⟨_, ⟨t, s, ht, hs, rfl⟩, hpart⟩

/-! ### Derivations and markers -/

/-- There is a marker that is no placeholder: its letters stand between two placeholders, or between
an escaped percent sign and a placeholder, or it is in a name or in text that is passed over. -/
inductive Tree.Stray : Tree → Prop
  | between {p p' args args' rest} (s : Text) (hs : Text.fold s = "rt".toList) :
      Stray (.placeholder p args (.literal (.plain s) (.placeholder p' args' rest)))
  | escaped {p args rest} (s : Text) (hs : Text.fold s = "rt".toList) :
      Stray (.literal (.escape '%') (.literal (.plain s) (.placeholder p args rest)))
  | own {p args rest} (h : p.Stray) : Stray (.placeholder p args rest)
  | argument {p args rest arg} (harg : arg ∈ args) (h : Stray arg) :
      Stray (.placeholder p args rest)
  | literal {t rest} (h : Stray rest) : Stray (.literal t rest)
  | placeholder {p args rest} (h : Stray rest) : Stray (.placeholder p args rest)

/-- There is a placeholder that is written as the marker, and the placeholders around it are written
without quotation marks and backslashes. -/
inductive Tree.Shown : Tree → Prop
  | marker {p args rest} (h : p.IsMarker) : Shown (.placeholder p args rest)
  | argument {p args rest arg}
      (hclean : ∀ c ∈ source p.tokens, c ≠ '\\' ∧ isMark c = false)
      (harg : arg ∈ args) (h : Shown arg) : Shown (.placeholder p args rest)
  | literal {t rest} (h : Shown rest) : Shown (.literal t rest)
  | placeholder {p args rest} (h : Shown rest) : Shown (.placeholder p args rest)

/-- One of the placeholders is written as the marker. -/
def Tree.HasMarker (tree : Tree) : Prop :=
  ∃ site ∈ tree.sites, site.placeholder.IsMarker

section HasMarker

variable {p : Placeholder} {args : List Tree} {rest : Tree}

theorem Tree.HasMarker.own (h : p.IsMarker) : (placeholder p args rest).HasMarker :=
  ⟨_, List.mem_append_right _ List.mem_cons_self, h⟩

theorem Tree.HasMarker.argument {arg : Tree} (harg : arg ∈ args) (h : arg.HasMarker) :
    (placeholder p args rest).HasMarker := by
  obtain ⟨site, hsite, hmarker⟩ := h
  exact ⟨site, List.mem_append_left _ (mem_sitesAll.mpr ⟨arg, harg, hsite⟩), hmarker⟩

theorem Tree.HasMarker.placeholder (h : rest.HasMarker) :
    (Tree.placeholder p args rest).HasMarker := by
  obtain ⟨site, hsite, hmarker⟩ := h
  exact ⟨site, List.mem_append_right _ (List.mem_cons_of_mem _ hsite), hmarker⟩

end HasMarker

/-- A percent sign can only be the end or the beginning of a marker. -/
theorem Marked.cases_of_percent {front back : List Token}
    (h : Marked (front ++ .percent :: back)) :
    Marked (front ++ [.percent]) ∨
      (∃ s, Text.fold s = "rt".toList ∧ [.plain s, .percent] <+: back) ∨ Marked back := by
  obtain ⟨_, ⟨t, s, ht, hs, rfl⟩, hpart⟩ := h
  have hfront (h : [t, .plain s, .percent] <:+: front ++ [.percent]) :
      Marked (front ++ [.percent]) := ⟨_, ⟨t, s, ht, hs, rfl⟩, h⟩
  obtain hpart | hpart | ⟨left, right, hsplit, hleft, hright⟩ := List.infix_append_iff.mp hpart
  · exact .inl (hfront (List.infix_append_of_infix_left hpart))
  · obtain hhead | hpart := List.infix_cons_iff.mp hpart
    · exact .inr (.inl ⟨s, hs, (List.cons_prefix_cons.mp hhead).2⟩)
    · exact .inr (.inr ⟨_, ⟨t, s, ht, hs, rfl⟩, hpart⟩)
  · cases right with
    | nil =>
      rw [List.append_nil] at hsplit
      exact .inl (hfront (List.infix_append_of_infix_left (hsplit ▸ hleft.isInfix)))
    | cons u right =>
      obtain ⟨rfl, hback⟩ := List.cons_prefix_cons.mp hright
      match left, hsplit with
      | [], hsplit =>
        obtain rfl : [.plain s, .percent] = right := (List.cons.inj hsplit).2
        exact .inr (.inl ⟨s, hs, hback⟩)
      | [_], hsplit => simp at hsplit
      | [_, _], hsplit =>
        obtain ⟨before, rfl⟩ := hleft
        simp only [List.cons_append, List.nil_append, List.cons.injEq] at hsplit
        obtain ⟨rfl, rfl, -⟩ := hsplit
        exact .inl (hfront ⟨before, [], by simp⟩)
      | _ :: _ :: _ :: _, hsplit => simp at hsplit

theorem Placeholder.tokens_eq_concat (p : Placeholder) :
    p.tokens = (.percent :: (spell p.name ++ p.sequels.flatMap Sequel.tokens)) ++ [.percent] := by
  rw [tokens, List.cons_append, List.append_assoc]

/-- The letters of the marker before a percent sign stand before a placeholder. -/
theorem Tree.Valid.eq_of_letters {tree : Tree} (hv : tree.Valid limit depth) {s : Text}
    (h : [.plain s, .percent] <+: tree.tokens) :
    ∃ p args rest, tree = .literal (.plain s) (.placeholder p args rest) := by
  cases hv with
  | nil => simp [tokens] at h
  | placeholder => exact absurd (List.cons_prefix_cons.mp h).1 (by simp)
  | @literal _ t rest _ hrest =>
    obtain ⟨rfl, hclose⟩ := List.cons_prefix_cons.mp h
    cases hrest with
    | nil => simp [tokens] at hclose
    | literal ht => exact absurd (List.cons_prefix_cons.mp hclose).1.symm ht
    | @placeholder _ p args rest => exact ⟨p, args, rest, rfl⟩

/-- **A marker is a placeholder, or else it is stray.** -/
theorem Tree.Valid.hasMarker_or_stray {tree : Tree} (hv : tree.Valid limit depth)
    (h : Marked tree.tokens) : tree.HasMarker ∨ tree.Stray := by
  induction hv with
  | nil =>
    obtain ⟨_, ⟨t, s, -, -, rfl⟩, hpart⟩ := h
    exact absurd (List.eq_nil_of_infix_nil hpart) (List.cons_ne_nil _ _)
  | @literal depth t rest ht hrest ih =>
    obtain ⟨_, ⟨t', s, ht', hs, rfl⟩, hpart⟩ := h
    obtain hhead | hpart := List.infix_cons_iff.mp hpart
    · obtain ⟨rfl, hletters⟩ := List.cons_prefix_cons.mp hhead
      obtain ⟨p, args, rest, rfl⟩ := hrest.eq_of_letters hletters
      obtain rfl := ht'.resolve_left ht
      exact .inr (.escaped s hs)
    · exact (ih ⟨_, ⟨t', s, ht', hs, rfl⟩, hpart⟩).imp_right .literal
  | @placeholder depth p args rest _ hp htexts _ hrest ihargs ihrest =>
    rw [tokens, Placeholder.tokens_eq_concat, List.append_assoc, List.singleton_append] at h
    obtain hmarked | ⟨s, hs, hletters⟩ | hmarked := h.cases_of_percent
    · rw [← Placeholder.tokens_eq_concat] at hmarked
      obtain hmarker | hstray | ⟨content, hcontent, hmarked⟩ := hp.cases_of_marked hmarked
      · exact .inl (.own hmarker)
      · exact .inr (.own hstray)
      · obtain ⟨text, htext, hrich⟩ := hmarked.exists_argument
        obtain ⟨arg, harg, htokens⟩ : ∃ arg ∈ args, arg.tokens = scan text :=
          List.mem_map.mp (htexts ▸ List.mem_map_of_mem
            (List.mem_flatMap.mpr ⟨_, hcontent, htext⟩))
        rw [isRichText_iff, ← htokens] at hrich
        exact (ihargs arg harg hrich).imp (.argument harg) (.argument harg)
    · obtain ⟨p', args', rest, rfl⟩ := hrest.eq_of_letters hletters
      exact .inr (.between s hs)
    · exact (ihrest hmarked).imp .placeholder .placeholder

/-- The contents of a group are a part of the placeholder. -/
theorem Placeholder.spell_isInfix {p : Placeholder} {content : List Piece}
    (h : .group content ∈ p.sequels) : spell content <:+: p.tokens := by
  obtain ⟨front, back, hsequels⟩ := List.append_of_mem h
  refine ⟨.percent :: (spell p.name ++ (front.flatMap Sequel.tokens ++ [.openParen])),
    .closeParen :: (back.flatMap Sequel.tokens ++ [.percent]), ?_⟩
  simp [tokens, hsequels, Sequel.tokens]

/-- An argument of a placeholder without quotation marks and backslashes is a part of it. -/
theorem Placeholder.argument_isInfix {p : Placeholder}
    (hclean : ∀ c ∈ source p.tokens, c ≠ '\\' ∧ isMark c = false) {text : Text}
    (h : text ∈ p.argumentTexts) : text <:+: source p.tokens := by
  obtain ⟨sequel, hsequel, htext⟩ := List.mem_flatMap.mp h
  cases sequel with
  | passed t => exact absurd htext List.not_mem_nil
  | group content =>
    have hcontent : source (spell content) <:+: source p.tokens :=
      infix_flatMap Token.chars (spell_isInfix hsequel)
    exact (TabFormat.Template.argument_isInfix
      (fun c hc => hclean c (hcontent.subset hc)) htext).trans hcontent

/-- **A placeholder that is shown is a marker.** -/
theorem Tree.Shown.isRichText {tree : Tree} (h : tree.Shown) (hv : tree.Valid limit depth) :
    isRichText (source tree.tokens) = true := by
  induction h generalizing depth with
  | marker h =>
    exact (h.marked.mono List.infix_append_left).isRichText_source
  | @argument p args rest arg hclean harg _ ih =>
    cases hv with
    | placeholder _ _ htexts hargs _ =>
      have hmem : arg.tokens ∈ p.argumentTexts.map scan := htexts ▸ List.mem_map_of_mem harg
      obtain ⟨text, htext, hscan⟩ := List.mem_map.mp hmem
      have hrich := ih (hargs arg harg)
      rw [← hscan, source, Token.flatMap_chars_scan] at hrich
      refine isRichText_of_isInfix ((p.argument_isInfix hclean htext).trans ?_) hrich
      exact infix_flatMap Token.chars List.infix_append_left
  | literal _ ih =>
    cases hv with
    | literal _ hrest =>
      exact isRichText_of_isInfix (infix_flatMap Token.chars (List.infix_cons List.infix_rfl))
        (ih hrest)
  | placeholder _ ih =>
    cases hv with
    | placeholder _ _ _ _ hrest =>
      exact isRichText_of_isInfix (infix_flatMap Token.chars List.infix_append_right) (ih hrest)

theorem Tree.Shown.hasMarker {tree : Tree} (h : tree.Shown) : tree.HasMarker := by
  induction h with
  | marker h => exact .own h
  | argument _ harg _ ih => exact .argument harg ih
  | literal _ ih => exact ih
  | placeholder _ ih => exact .placeholder ih

end Template

open Template

/-! ### Rich text -/

theorem Formatted.isSome_rich_ofFilled (template : Text) (tab : Tab) (filled : Text) :
    (Formatted.ofFilled template tab filled).rich.isSome = isRichText template := by
  unfold Formatted.ofFilled
  cases isRichText template with
  | false => rfl
  | true => cases filled.trim.isEmpty <;> rfl

/-- Without rich text, the plain text is what the template was filled with. -/
theorem Formatted.plain_ofFilled {template : Text} {tab : Tab} {filled : Text}
    (h : (Formatted.ofFilled template tab filled).rich = none) :
    (Formatted.ofFilled template tab filled).plain = filled := by
  have hrich := Formatted.isSome_rich_ofFilled template tab filled
  rw [h, Option.isSome_none] at hrich
  rw [Formatted.ofFilled, ← hrich]
  rfl

/-- **When a tab is formatted with rich text.** Without rich text, the plain text is the expansion.
There is rich text exactly if the marker is found in the tokens of the template. Then the
placeholder of rich text is called, or a marker is stray; and if a placeholder that is written as
the marker is shown, then there is rich text. So if the placeholder is called only where one is
shown, and no marker is stray, then there is rich text exactly if the placeholder is called. -/
theorem formatTab_richText (template : Text) (settings : Settings) (times : Times) (tab : Tab)
    {formatted : Formatted} (h : (formatTab template settings times tab).result = .ok formatted) :
    let run := expand settings.maxDepth (Context.resolver ⟨tab, settings.eol, times⟩) template
    let Called : Prop := ∃ call ∈ run.calls, Builtin.lookup call.name = some (.field .richText)
    (formatted.rich = none → run.result = .ok formatted.plain) ∧
    (formatted.rich.isSome = true ↔ Marked (Token.scan template)) ∧
    (∃ tree : Tree, tree.Valid settings.maxDepth 0 ∧ tree.tokens = Token.scan template) ∧
    ∀ tree : Tree, tree.Valid settings.maxDepth 0 → tree.tokens = Token.scan template →
      (formatted.rich.isSome = true → Called ∨ tree.Stray) ∧
      (tree.Shown → formatted.rich.isSome = true ∧ Called) ∧
      ((Called → tree.Shown) → ¬tree.Stray → (formatted.rich.isSome = true ↔ Called)) := by
  intro run Called
  rw [formatTab, Run.andThen_done] at h
  obtain ⟨filled, hfilled, rfl⟩ := Run.ok_of_map_ok h
  obtain ⟨last, hlast, -⟩ := Run.ok_of_map_ok hfilled
  have hrich : (Formatted.ofFilled template tab filled).rich.isSome = true ↔
      Marked (Token.scan template) := by
    rw [Formatted.isSome_rich_ofFilled, isRichText_iff]
  have hplain (hnone : (Formatted.ofFilled template tab filled).rich = none) :
      run.result = .ok (Formatted.ofFilled template tab filled).plain := by
    rw [Formatted.plain_ofFilled hnone]
    exact hfilled
  refine ⟨hplain, hrich, isTemplate_of_runSteps_ok template hlast, fun tree hv ht => ?_⟩
  have hcalled : Called ↔ ∃ site ∈ tree.sites,
      Builtin.lookup site.placeholder.nameText = some (.field .richText) := by
    simp only [Called, run]
    rw [calls_eq_map_sites hlast hv ht]
    simp only [List.mem_map, exists_exists_and_eq_and]
    rfl
  have hmarker (h : tree.HasMarker) : Called := by
    obtain ⟨site, hsite, hwritten⟩ := h
    exact hcalled.mpr ⟨site, hsite, hwritten.lookup⟩
  have hstray (hsome : (Formatted.ofFilled template tab filled).rich.isSome = true) :
      Called ∨ tree.Stray := by
    rw [hrich, ← ht] at hsome
    exact (hv.hasMarker_or_stray hsome).imp_left hmarker
  have hshown (h : tree.Shown) :
      (Formatted.ofFilled template tab filled).rich.isSome = true ∧ Called := by
    have hmarked := h.isRichText hv
    rw [ht, Token.source, Token.flatMap_chars_scan, isRichText_iff] at hmarked
    exact ⟨hrich.mpr hmarked, hmarker h.hasMarker⟩
  exact ⟨hstray, hshown, fun hall hnone =>
    ⟨fun hsome => (hstray hsome).resolve_right hnone, fun hcall => (hshown (hall hcall)).1⟩⟩

/-- A template that begins with the marker. -/
theorem formatTab_richText_of_marker :
    let ctx : Context := ⟨{ url := ['u'], title := ['t'] }, ['\n'], ⟨[], []⟩⟩
    (formatTab "%RT%%URL%".toList {} ctx.times ctx.tab).result = .ok ⟨['u'], some ['u']⟩ ∧
    ∃ call ∈ (expand defaultLimit ctx.resolver "%RT%%URL%".toList).calls,
      Builtin.lookup call.name = some (.field .richText) := by
  intro ctx
  have hresult : (formatTab "%RT%%URL%".toList {} ctx.times ctx.tab).result =
      .ok ⟨['u'], some ['u']⟩ := by decide +kernel
  have hnone {P : Tree → Prop} : ∀ arg ∈ ([] : List Tree), P arg :=
    fun _ h => absurd h List.not_mem_nil
  have hv : (Tree.placeholder (.plain "RT".toList) []
      (.placeholder (.plain "URL".toList) [] .nil)).Valid defaultLimit 0 :=
    .placeholder (by decide) (Placeholder.wellFormed_plain (by decide)) rfl hnone
      (.placeholder (by decide) (Placeholder.wellFormed_plain (by decide)) rfl hnone .nil)
  obtain ⟨-, -, -, hall⟩ := formatTab_richText _ _ _ _ hresult
  obtain ⟨-, hshown, -⟩ := hall _ hv (by decide +kernel)
  exact ⟨hresult, (hshown (.marker ⟨_, by decide, rfl⟩)).2⟩

/-- Letters between two placeholders are a marker, although no placeholder of rich text is called;
and with spaces around its name the placeholder is called, although it is no marker. -/
theorem formatTab_richText_of_letters :
    let tab : Tab := { url := ['u'], title := ['t'] }
    let called (template : Text) : List (Option Builtin) :=
      (formatTab template {} ⟨[], []⟩ tab).calls.map fun call => Builtin.lookup call.name
    (formatTab "%URL%rt%TITLE%".toList {} ⟨[], []⟩ tab).result =
      .ok ⟨"urtt".toList, some "urtt".toList⟩ ∧
    called "%URL%rt%TITLE%".toList = [some (.field .url), some (.field .title)] ∧
    (formatTab "% RT %%URL%".toList {} ⟨[], []⟩ tab).result = .ok ⟨['u'], none⟩ ∧
    called "% RT %%URL%".toList = [some (.field .richText), some (.field .url)] := by
  decide +kernel

end TabFormat
