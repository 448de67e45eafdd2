import Mathlib.Data.List.Forall2
import TabFormat.Format

/-!
# Lists of tabs

A list of tabs is formatted tab by tab: each tab has a share in the plain text, in the rich text and
in the warnings, which depends on this tab alone, and the shares are put together in order. A tab
that cannot be formatted has its share too. So the texts of two lists are the texts of the one that
is made of both, up to what stands between tabs, and another tab in one place of a list changes
nothing but its share.

## Main definitions

* `Share`, `HasShare` : what a tab contributes to the texts of a list.
* `Share.assemble` : the shares put together.

## Main results

* `formatTabs_eq_assemble` : a list of tabs is formatted tab by tab.
* `formatTabs_concat` : the texts of two lists, and of a list with another tab in one place.
-/

namespace TabFormat

/-! ### What a tab contributes -/

/-- What a tab contributes to the texts of a list. -/
structure Share where
  /-- The part of the plain text. -/
  plain : Text
  /-- The part of the rich text. -/
  rich : Text
  /-- The warnings. -/
  warnings : List Warning

/-- The texts and the warnings of several tabs put together. The line ending also follows the last
one of several plain texts. -/
def Share.assemble (template : Text) (settings : Settings) (shares : List Share) : Item where
  formatted := {
    plain :=
      Text.join settings.separator (shares.map plain) ++
        if settings.delimiter = .lineBreak ∧ 2 ≤ shares.length then settings.eol else []
    rich :=
      if isRichText template then some (Text.join "<br />".toList (shares.map rich)) else none }
  warnings := shares.flatMap warnings

section

variable (template : Text) (settings : Settings) (times : Times)

/-- The share of a tab: its own texts, or else the message of the error, no rich text, and a warning
with the address of the tab and the message. The warnings that were given for the tab come first. -/
inductive HasShare (tab : Tab) : Share → Prop
  | formatted {f : Formatted} (h : (formatTab template settings times tab).outcome = .ok f) :
      HasShare tab
        { plain := f.plain
          rich := f.rich.getD []
          warnings := (formatTab template settings times tab).warnings.map .ignored }
  | malformed {e : Template.SyntaxError}
      (h : (formatTab template settings times tab).outcome = .error (.malformed e)) :
      HasShare tab
        { plain := e.message
          rich := []
          warnings := (formatTab template settings times tab).warnings.map .ignored ++
            [.failed tab.url e.message] }
  | refused {e : ReplaceError}
      (h : (formatTab template settings times tab).outcome = .error (.other e)) :
      HasShare tab
        { plain := e.message
          rich := []
          warnings := (formatTab template settings times tab).warnings.map .ignored ++
            [.failed tab.url e.message] }

/-- The share of a tab as a part of a list. -/
def Share.ofItem (item : Item) : Share where
  plain := item.formatted.plain
  rich := item.formatted.rich.getD []
  warnings := item.warnings

/-- Each tab has one share. -/
theorem hasShare_iff {tab : Tab} {share : Share} :
    HasShare template settings times tab share ↔
      share = .ofItem (formatItem template settings times tab) := by
  rw [formatItem]
  constructor
  · rintro (h | h | h) <;> rw [h] <;> rfl
  · rintro rfl
    cases houtcome : (formatTab template settings times tab).outcome with
    | ok f => exact .formatted houtcome
    | error e =>
      cases e with
      | malformed e => exact .malformed houtcome
      | other e => exact .refused houtcome

/-- **A list of tabs is formatted tab by tab.** -/
theorem formatTabs_eq_assemble {tabs : List Tab} {shares : List Share}
    (h : List.Forall₂ (HasShare template settings times) tabs shares) :
    formatTabs template settings times tabs = Share.assemble template settings shares := by
  have hshares : shares = tabs.map fun tab => .ofItem (formatItem template settings times tab) := by
    induction h with
    | nil => rfl
    | cons hhead _ ih => rw [(hasShare_iff template settings times).mp hhead, ih, List.map_cons]
  have htrailing :
      (if settings.delimiter = .lineBreak ∧ 1 < tabs.length then settings.separator else []) =
        if settings.delimiter = .lineBreak ∧ 2 ≤ tabs.length then settings.eol else [] := by
    refine if_ctx_congr Iff.rfl (fun hline => ?_) fun _ => rfl
    rw [Settings.separator, hline.1]
  simp only [formatTabs, joinItems, Share.assemble, hshares, List.map_map, List.flatMap_map,
    List.length_map, htrailing]
  rfl

theorem exists_shares (tabs : List Tab) :
    ∃ shares, List.Forall₂ (HasShare template settings times) tabs shares := by
  refine ⟨tabs.map fun tab => .ofItem (formatItem template settings times tab), ?_⟩
  rw [List.forall₂_map_right_iff]
  exact List.forall₂_same.mpr fun tab _ => (hasShare_iff template settings times).mpr rfl

/-- Another tab in one place of a list: the texts before and after its share stay the same. -/
theorem exists_surroundings (xs ys : List Tab) :
    ∃ before after : Share, ∀ z share, HasShare template settings times z share →
      formatTabs template settings times (xs ++ z :: ys) =
        { formatted := {
            plain := before.plain ++ (share.plain ++ after.plain)
            rich := if isRichText template then some (before.rich ++ (share.rich ++ after.rich))
              else none }
          warnings := before.warnings ++ (share.warnings ++ after.warnings) } := by
  obtain ⟨first, hfirst⟩ := exists_shares template settings times xs
  obtain ⟨second, hsecond⟩ := exists_shares template settings times ys
  let breaks : Text := "<br />".toList
  refine ⟨⟨(first.map Share.plain).flatMap (· ++ settings.separator),
    (first.map Share.rich).flatMap (· ++ breaks), first.flatMap Share.warnings⟩,
    ⟨(second.map Share.plain).flatMap (settings.separator ++ ·) ++
      (if settings.delimiter = .lineBreak ∧ 2 ≤ first.length + (second.length + 1)
        then settings.eol else []),
    (second.map Share.rich).flatMap (breaks ++ ·), second.flatMap Share.warnings⟩,
    fun z share hshare => ?_⟩
  rw [formatTabs_eq_assemble template settings times
    (List.rel_append hfirst (.cons hshare hsecond))]
  simp only [Share.assemble, List.map_append, List.map_cons, List.flatMap_append,
    List.flatMap_cons, List.length_append, List.length_cons, Text.join_append_cons,
    List.append_assoc]
  rfl

end

/-! ### Two lists -/

section

variable {template : Text} {settings : Settings} {first second : List Share}

theorem plain_assemble_append_of_lineBreak (hline : settings.delimiter = .lineBreak)
    (hf : 2 ≤ first.length) (hs : 2 ≤ second.length) :
    (Share.assemble template settings (first ++ second)).formatted.plain =
      (Share.assemble template settings first).formatted.plain ++
        (Share.assemble template settings second).formatted.plain := by
  have hseparator : settings.separator = settings.eol := by rw [Settings.separator, hline]
  have hjoin := Text.join_append_of_ne_nil settings.separator
    (List.ne_nil_of_length_pos (by rw [List.length_map]; omega) : first.map Share.plain ≠ [])
    (List.ne_nil_of_length_pos (by rw [List.length_map]; omega) : second.map Share.plain ≠ [])
  simp only [Share.assemble, List.map_append, List.length_append]
  rw [hjoin, if_pos ⟨hline, by omega⟩, if_pos ⟨hline, hf⟩, if_pos ⟨hline, hs⟩, hseparator,
    List.append_assoc, List.append_assoc]

theorem plain_assemble_append_of_ne (hline : settings.delimiter ≠ .lineBreak) (hf : first ≠ [])
    (hs : second ≠ []) :
    (Share.assemble template settings (first ++ second)).formatted.plain =
      (Share.assemble template settings first).formatted.plain ++ (settings.separator ++
        (Share.assemble template settings second).formatted.plain) := by
  have hjoin := Text.join_append_of_ne_nil settings.separator
    (mt List.map_eq_nil_iff.mp hf : first.map Share.plain ≠ [])
    (mt List.map_eq_nil_iff.mp hs : second.map Share.plain ≠ [])
  simp only [Share.assemble, List.map_append, hline, false_and, if_false, List.append_nil]
  rw [hjoin, List.append_assoc]

theorem rich_assemble_append (hf : first ≠ []) (hs : second ≠ []) {r r' : Text}
    (hr : (Share.assemble template settings first).formatted.rich = some r)
    (hr' : (Share.assemble template settings second).formatted.rich = some r') :
    (Share.assemble template settings (first ++ second)).formatted.rich =
      some (r ++ "<br />".toList ++ r') := by
  have hjoin := Text.join_append_of_ne_nil "<br />".toList
    (mt List.map_eq_nil_iff.mp hf : first.map Share.rich ≠ [])
    (mt List.map_eq_nil_iff.mp hs : second.map Share.rich ≠ [])
  simp only [Share.assemble, List.map_append] at hr hr' ⊢
  cases hrich : isRichText template with
  | false => simp [hrich] at hr
  | true =>
    simp only [hrich, if_true, Option.some.injEq] at hr hr' ⊢
    rw [hjoin, hr, hr']

end

/-- **Lists of tabs.** With line breaks between tabs, the plain text of two lists of two tabs or
more is that of the first followed by that of the second, and with another delimiter it stands
between them. There is rich text for every list or for none, and a line break in HTML stands between
the rich texts of two lists. Each tab has its share in the texts and in the warnings, and the shares
are put together in order; in place of a tab, another one changes only the share of this tab. -/
theorem formatTabs_concat (template : Text) (settings : Settings) (times : Times) :
    let batch := formatTabs template settings times
    let plain (tabs : List Tab) := (batch tabs).formatted.plain
    let rich (tabs : List Tab) := (batch tabs).formatted.rich
    (∀ xs ys, settings.delimiter = .lineBreak → 2 ≤ xs.length → 2 ≤ ys.length →
      plain (xs ++ ys) = plain xs ++ plain ys) ∧
    (∀ xs ys, xs ≠ [] → ys ≠ [] →
      (settings.delimiter = .space → plain (xs ++ ys) = plain xs ++ ' ' :: plain ys) ∧
      (settings.delimiter = .tab → plain (xs ++ ys) = plain xs ++ '\t' :: plain ys) ∧
      ∀ r r', rich xs = some r → rich ys = some r' →
        rich (xs ++ ys) = some (r ++ "<br />".toList ++ r')) ∧
    (∀ tabs, (rich tabs).isSome = isRichText template) ∧
    (∀ tabs, ∃ shares, List.Forall₂ (HasShare template settings times) tabs shares ∧
      batch tabs = Share.assemble template settings shares) ∧
    ∀ xs ys, ∃ before after : Share, ∀ z, ∃ share, HasShare template settings times z share ∧
      batch (xs ++ z :: ys) =
        { formatted := {
            plain := before.plain ++ (share.plain ++ after.plain)
            rich := if isRichText template then some (before.rich ++ (share.rich ++ after.rich))
              else none }
          warnings := before.warnings ++ (share.warnings ++ after.warnings) } := by
  intro batch plain rich
  have hbatch (tabs : List Tab) : ∃ shares : List Share, shares.length = tabs.length ∧
      List.Forall₂ (HasShare template settings times) tabs shares := by
    obtain ⟨shares, hshares⟩ := exists_shares template settings times tabs
    exact ⟨shares, hshares.length_eq.symm, hshares⟩
  have heq {tabs : List Tab} {shares : List Share}
      (h : List.Forall₂ (HasShare template settings times) tabs shares) :
      batch tabs = Share.assemble template settings shares :=
    formatTabs_eq_assemble template settings times h
  refine ⟨fun xs ys hline hxs hys => ?lineBreak, fun xs ys hxs hys => ?other, fun tabs => ?rich,
    fun tabs => ?shares, fun xs ys => ?replaced⟩
  case lineBreak =>
    obtain ⟨first, hlength, hfirst⟩ := hbatch xs
    obtain ⟨second, hlength', hsecond⟩ := hbatch ys
    simp only [plain, heq hfirst, heq hsecond, heq (List.rel_append hfirst hsecond)]
    exact plain_assemble_append_of_lineBreak hline (by omega) (by omega)
  case other =>
    obtain ⟨first, hlength, hfirst⟩ := hbatch xs
    obtain ⟨second, hlength', hsecond⟩ := hbatch ys
    have hf : first ≠ [] := List.ne_nil_of_length_pos (hlength ▸ List.length_pos_iff.mpr hxs)
    have hs : second ≠ [] := List.ne_nil_of_length_pos (hlength' ▸ List.length_pos_iff.mpr hys)
    simp only [plain, rich, heq hfirst, heq hsecond, heq (List.rel_append hfirst hsecond)]
    refine ⟨fun hspace => ?_, fun htab => ?_, fun r r' => rich_assemble_append hf hs⟩
    · rw [plain_assemble_append_of_ne (by simp [hspace]) hf hs, Settings.separator, hspace]
      rfl
    · rw [plain_assemble_append_of_ne (by simp [htab]) hf hs, Settings.separator, htab]
      rfl
  case rich =>
    obtain ⟨shares, -, hshares⟩ := hbatch tabs
    simp only [rich, heq hshares, Share.assemble]
    cases isRichText template <;> rfl
  case shares =>
    obtain ⟨shares, -, hshares⟩ := hbatch tabs
    exact ⟨shares, hshares, heq hshares⟩
  case replaced =>
    obtain ⟨before, after, hall⟩ := exists_surroundings template settings times xs ys
    refine ⟨before, after, fun z => ?_⟩
    have hshare : HasShare template settings times z _ :=
      (hasShare_iff template settings times).mpr rfl
    exact ⟨_, hshare, hall z _ hshare⟩

/-- Two lists of two tabs, one of which cannot be formatted because its address is no pattern. -/
theorem formatTabs_concat_of_failure :
    let template := "%RT%%REPLACE(%TITLE%, %URL%, c)%".toList
    let batch := formatTabs template {} ⟨[], []⟩
    let plain (tabs : List Tab) := (batch tabs).formatted.plain
    let xs : List Tab := [{ url := ['a'], title := "ab".toList }, { url := ['('], title := [] }]
    let ys : List Tab := [{ url := ['b'], title := "ab".toList }, { url := ['d'], title := ['e'] }]
    2 ≤ xs.length ∧ 2 ≤ ys.length ∧ plain (xs ++ ys) = plain xs ++ plain ys ∧
      plain ys = "ac\ne\n".toList ∧ (batch xs).formatted.rich = some "cb<br />".toList ∧
      (batch xs).warnings.length = 1 := by
  intro template batch plain xs ys
  have hconcat :=
    (formatTabs_concat template {} ⟨[], []⟩).1 xs ys rfl (Nat.le_refl _) (Nat.le_refl _)
  exact ⟨Nat.le_refl _, Nat.le_refl _, hconcat, by decide +kernel⟩

end TabFormat
