import Mathlib.Data.List.Basic
import TabFormat.Builtin.Basic

/-!
# Names of placeholders

Only the letters of a name count when a placeholder is looked up: neither their case nor the white
space around the name makes a difference. A name that asks for HTML consists of a name that is known
and of one of two endings; no known name has such an ending, so that no name can be taken both ways.

## Main definitions

* `Builtin.IsHtmlEnding` : the endings by which a name asks for HTML.

## Main results

* `Builtin.lookup_eq_some_iff` : the names of a placeholder.
* `Builtin.lookupHtmlSuffixed_eq_some_iff` : the names that ask for HTML.
* `Builtin.exists_trim_append` : white space before an ending.
-/

namespace TabFormat.Builtin

/-! ### Known names -/

theorem mem_all (b : Builtin) : b ∈ all := by
  cases b with
  | function f => cases f <;> decide
  | field f => cases f <;> decide

/-- No name belongs to two placeholders. -/
theorem find?_alias : ∀ b ∈ all, ∀ name ∈ b.aliases,
    all.find? (·.hasName name.toList) = some b := by
  decide +kernel

/-- **The names of a placeholder** are told apart by their letters. -/
theorem lookup_eq_some_iff {name : Text} {b : Builtin} :
    lookup name = some b ↔ ∃ a ∈ b.aliases, Text.fold name.trim = a.toList := by
  constructor
  · intro h
    rw [lookup] at h
    have hname : b.hasName (Text.fold name.trim) = true := by
      simpa using List.find?_some h
    obtain ⟨a, ha, heq⟩ := List.any_eq_true.mp hname
    exact ⟨a, ha, (beq_iff_eq.mp heq).symm⟩
  · rintro ⟨a, ha, heq⟩
    rw [lookup, heq]
    exact find?_alias b (mem_all b) a ha

theorem lookup_congr {name name' : Text} (h : Text.fold name.trim = Text.fold name'.trim) :
    lookup name = lookup name' := by
  rw [lookup, h, lookup]

theorem lookup_fold (name : Text) : lookup (Text.fold name) = lookup name :=
  lookup_congr (by rw [Text.trim_fold, Text.fold_fold])

/-! ### Endings -/

/-- The endings by which a name asks for HTML, in any letter case. -/
def IsHtmlEnding (s : Text) : Prop :=
  Text.fold s = "_html".toList ∨ Text.fold s = "_htmlified".toList

/-- The endings, in lower case. -/
def htmlEndings : List Text :=
  ["_html".toList, "_htmlified".toList]

theorem isHtmlEnding_iff {s : Text} : IsHtmlEnding s ↔ Text.fold s ∈ htmlEndings := by
  simp [IsHtmlEnding, htmlEndings]

theorem withoutEnd?_append (ending s : Text) : withoutEnd? ending (s ++ ending) = some s := by
  rw [withoutEnd?, if_pos (List.isSuffixOf_iff_suffix.mpr (List.suffix_append s ending)),
    List.length_append, Nat.add_sub_cancel, List.take_left]

theorem eq_append_of_withoutEnd? {ending s base : Text} (h : withoutEnd? ending s = some base) :
    s = base ++ ending := by
  rw [withoutEnd?] at h
  split at h
  · rename_i hsuffix
    obtain ⟨front, rfl⟩ := List.isSuffixOf_iff_suffix.mp hsuffix
    rw [List.length_append, Nat.add_sub_cancel, List.take_left] at h
    rw [Option.some.inj h]
  · simp at h

/-- What is found of a name that ends in one of the endings. -/
theorem base_of_ending {base ending : Text} (h : ending ∈ htmlEndings) :
    (withoutEnd? "_htmlified".toList (base ++ ending) <|>
      withoutEnd? "_html".toList (base ++ ending)) = some base := by
  have hother : withoutEnd? "_htmlified".toList (base ++ "_html".toList) = none := by
    rw [withoutEnd?, if_neg]
    intro hsuffix
    obtain ⟨front, hfront⟩ := List.isSuffixOf_iff_suffix.mp hsuffix
    have hlast := congrArg List.getLast? hfront
    simp at hlast
  simp only [htmlEndings, List.mem_cons, List.not_mem_nil, or_false] at h
  obtain rfl | rfl := h
  · rw [hother, withoutEnd?_append]
    rfl
  · rw [withoutEnd?_append]
    rfl

/-- No known name has one of the endings. -/
theorem not_suffix_alias : ∀ b ∈ all, ∀ a ∈ b.aliases, ∀ ending ∈ htmlEndings,
    ¬ending <:+ a.toList := by
  decide +kernel

/-- An ending is not empty, and there is no white space at its end. -/
theorem IsHtmlEnding.getLast? {s : Text} (h : IsHtmlEnding s) :
    s ≠ [] ∧ ∀ c ∈ s.getLast?, Text.isBlank c = false := by
  have hall : ∀ ending ∈ htmlEndings, ending ≠ [] ∧ ending.getLast?.any Text.isBlank = false := by
    decide
  obtain ⟨hne, hlast⟩ := hall _ (isHtmlEnding_iff.mp h)
  refine ⟨fun hs => hne (by rw [hs]; rfl), fun c hc => ?_⟩
  rw [Text.fold, List.getLast?_map, Option.mem_def.mp hc] at hlast
  rw [← Text.isBlank_foldChar]
  exact hlast

theorem trim_ne_nil_of_lookup {name : Text} {b : Builtin} (h : lookup name = some b) :
    name.trim ≠ [] := by
  have hall : ∀ b ∈ all, ∀ a ∈ b.aliases, a.toList ≠ [] := by decide
  obtain ⟨a, ha, heq⟩ := lookup_eq_some_iff.mp h
  intro hnil
  rw [hnil] at heq
  exact hall b (mem_all b) a ha heq.symm

/-- White space before an ending makes no difference. -/
theorem exists_trim_append {name ending : Text} {b : Builtin} (h : lookup name = some b)
    (hending : IsHtmlEnding ending) :
    ∃ name', (name ++ ending).trim = name' ++ ending ∧ lookup name' = some b := by
  obtain ⟨lead, trail, hname, hlead, htrail⟩ := Text.exists_trim name
  obtain ⟨hne, hlast⟩ := hending.getLast?
  obtain ⟨c, rest, hc⟩ := List.exists_cons_of_ne_nil (trim_ne_nil_of_lookup h)
  have hnil : ∀ c ∈ ([] : Text), Text.isBlank c = true := fun c h => absurd h List.not_mem_nil
  refine ⟨name.trim ++ trail, ?_, ?_⟩
  · have hwhole : name ++ ending = lead ++ (name.trim ++ trail ++ ending ++ []) :=
      calc
        name ++ ending = lead ++ (name.trim ++ trail) ++ ending := congrArg (· ++ ending) hname
        _ = _ := by simp only [List.append_assoc, List.append_nil]
    rw [hwhole]
    refine Text.trim_append hlead hnil (fun d hd => ?_) fun d hd => ?_
    · refine Text.head?_trim name d ?_
      rw [hc] at hd ⊢
      exact hd
    · exact hlast d (by rwa [List.getLast?_append_of_ne_nil _ hne] at hd)
  · rw [← h]
    refine lookup_congr (congrArg Text.fold ?_)
    exact Text.trim_append hnil htrail (Text.head?_trim name) (Text.getLast?_trim name)

/-- A name with an ending is not known. -/
theorem lookup_eq_none_of_ending {name base ending : Text} (hname : name.trim = base ++ ending)
    (hending : IsHtmlEnding ending) : lookup name = none := by
  rw [Option.eq_none_iff_forall_not_mem]
  intro b hb
  obtain ⟨a, ha, heq⟩ := lookup_eq_some_iff.mp hb
  rw [hname, Text.fold_append] at heq
  exact not_suffix_alias b (mem_all b) a ha _ (isHtmlEnding_iff.mp hending) ⟨_, heq⟩

/-- **The names that ask for HTML** are known names with an ending. -/
theorem lookupHtmlSuffixed_eq_some_iff {name : Text} {b : Builtin} :
    lookupHtmlSuffixed name = some b ↔
      ∃ base ending, name.trim = base ++ ending ∧ lookup base = some b ∧ IsHtmlEnding ending := by
  constructor
  · intro h
    rw [lookupHtmlSuffixed] at h
    split at h
    · rename_i c base hbase
      obtain ⟨ending, hending, heq⟩ : ∃ ending ∈ htmlEndings,
          Text.fold name.trim = (c :: base) ++ ending := by
        rw [Option.orElse_eq_orElse, Option.orElse_eq_or, Option.or_eq_some_iff] at hbase
        obtain hlong | ⟨-, hshort⟩ := hbase
        · exact ⟨"_htmlified".toList, by decide, eq_append_of_withoutEnd? hlong⟩
        · exact ⟨"_html".toList, by decide, eq_append_of_withoutEnd? hshort⟩
      obtain ⟨base', ending', hname, hbase', hending'⟩ := List.map_eq_append_iff.mp heq
      refine ⟨base', ending', hname, ?_, isHtmlEnding_iff.mpr ?_⟩
      · rwa [← lookup_fold, Text.fold, hbase']
      · rwa [Text.fold, hending']
    · simp at h
  · rintro ⟨base, ending, hname, hbase, hending⟩
    have hne : Text.fold base ≠ [] := by
      intro hnil
      have htrim := trim_ne_nil_of_lookup hbase
      rw [List.map_eq_nil_iff.mp hnil] at htrim
      exact htrim rfl
    obtain ⟨c, rest, hc⟩ := List.exists_cons_of_ne_nil hne
    rw [lookupHtmlSuffixed, hname, Text.fold_append]
    simp only [base_of_ending (isHtmlEnding_iff.mp hending), hc]
    rw [← hc, lookup_fold, hbase]

end TabFormat.Builtin
