import Mathlib.Data.List.GetD
import TabFormat.Tab.Field

/-!
# Indentation in the tree of tabs

The indentation of a tab has a unit for each level of the tree, the innermost level last. A call
for it asks for its units one by one, and the last one that it asks for stands for all levels
beyond. So a tab one level deeper has one more unit in front, and arguments beyond the level of the
tab make no difference.

## Main definitions

* `Template.Call.unit` : the unit that a call asks for at a level.
* `Context.atLevel` : a context with its tab at another level.

## Main results

* `Tab.indentUnit_indentUnits` : the unit of a level is there, and it is the one asked for.
* `Tab.indentation_congr` : an indentation depends on the units of its levels only.
* `Context.field_treeIndent` : the indentation, and how it changes with the level and with more
  arguments.
-/

namespace TabFormat

open Template

/-- The unit that a call asks for at a level, counted from the innermost one: the argument at that
place, or the last one if there are fewer. A call without arguments asks for its source text at all
levels, or for two spaces if that is empty. -/
def Template.Call.unit (call : Call) (level : Nat) : Text :=
  match call.args with
  | [] => if call.rawArgs.isEmpty then [' ', ' '] else call.rawArgs
  | first :: rest => (first :: rest)[level]?.getD ((first :: rest).getLast (List.cons_ne_nil _ _))

/-- The context with its tab at another level of the tree. -/
def Context.atLevel (ctx : Context) (n : Nat) : Context :=
  { ctx with tab := { ctx.tab with indentLevel := n } }

namespace Tab

variable {units units' : List Text}

/-! ### Units -/

/-- A call with arguments asks for its arguments. -/
theorem indentUnits_of_args {call : Call} (h : call.args ≠ []) : indentUnits call = call.args := by
  rw [indentUnits, if_pos (by simpa using h)]

theorem indentUnits_ne_nil (call : Call) : indentUnits call ≠ [] := by
  rw [indentUnits]
  split
  · rename_i hargs
    simpa using hargs
  · split <;> exact List.cons_ne_nil _ _

/-- The place where the unit of a level is looked up is one of the places of the list. -/
theorem min_level_lt_length (h : units ≠ []) (level : Nat) :
    min level (units.length - 1) < units.length := by
  have hpos := List.length_pos_iff.mpr h
  omega

theorem indentUnit_eq_getElem (h : units ≠ []) (level : Nat) :
    indentUnit units level =
      units.get ⟨min level (units.length - 1), min_level_lt_length h level⟩ :=
  List.getD_eq_getElem _ _ _

theorem indentUnit_singleton (unit : Text) (level : Nat) : indentUnit [unit] level = unit := by
  rw [indentUnit, List.length_singleton, Nat.sub_self, Nat.min_zero]
  rfl

/-- Where there is a unit for the level, further units do not matter. -/
theorem indentUnit_append_of_lt {level : Nat} (h : level < units.length) (more : List Text) :
    indentUnit (units ++ more) level = indentUnit units level := by
  have hlevel : min level (units.length - 1) = level := by omega
  have hlevel' : min level ((units ++ more).length - 1) = level := by
    rw [List.length_append]
    omega
  rw [indentUnit, indentUnit, hlevel, hlevel', List.getD_append _ _ _ _ h]

/-- **The unit of a level is the one that the call asks for.** -/
theorem indentUnit_indentUnits (call : Call) (level : Nat) :
    indentUnit (indentUnits call) level = call.unit level := by
  obtain ⟨name, rawArgs, args⟩ := call
  cases args with
  | nil =>
    cases rawArgs with
    | nil => exact indentUnit_singleton _ level
    | cons c s => exact indentUnit_singleton _ level
  | cons first rest =>
    have hunits : indentUnits ⟨name, rawArgs, first :: rest⟩ = first :: rest := rfl
    rw [hunits, indentUnit_eq_getElem (List.cons_ne_nil _ _), List.get_eq_getElem]
    by_cases hlevel : level < (first :: rest).length
    · have hmin : min level ((first :: rest).length - 1) = level := by omega
      simp only [Call.unit, hmin, List.getElem?_eq_getElem hlevel, Option.getD_some]
    · have hmin : min level ((first :: rest).length - 1) = (first :: rest).length - 1 := by omega
      simp only [Call.unit, hmin, List.getElem?_eq_none (Nat.not_lt.mp hlevel), Option.getD_none,
        List.getLast_eq_getElem]

/-! ### Levels -/

/-- The units of the levels, from the outermost one to the innermost one. -/
theorem indentation_eq_flatten (units : List Text) (n : Nat) :
    indentation units n = ((List.range n).reverse.map (indentUnit units)).flatten := by
  induction n with
  | zero => rfl
  | succ n ih =>
    rw [indentation, ih, List.range_succ, List.reverse_append, List.reverse_singleton,
      List.singleton_append, List.map_cons, List.flatten_cons]

/-- An indentation depends on the units of its levels only. -/
theorem indentation_congr {n : Nat} (h : ∀ i < n, indentUnit units' i = indentUnit units i) :
    indentation units' n = indentation units n := by
  induction n with
  | zero => rfl
  | succ n ih =>
    rw [indentation, indentation, h n (Nat.lt_succ_self n), ih fun i hi => h i (by omega)]

end Tab

/-! ### The field -/

/-- **The indentation of a tab** has the unit of each of its levels, the innermost one last; each
unit is found within the list of units. One level deeper, the unit of the new level stands in front
of the indentation, of which the old one is the end. Arguments beyond the level of the tab make no
difference. -/
theorem Context.field_treeIndent (ctx : Context) (call : Call) (n : Nat) :
    (ctx.atLevel n).field .treeIndent call = ((List.range n).reverse.map call.unit).flatten ∧
    (∀ level, ∃ h : min level ((Tab.indentUnits call).length - 1) < (Tab.indentUnits call).length,
      Tab.indentUnit (Tab.indentUnits call) level =
        (Tab.indentUnits call)[min level ((Tab.indentUnits call).length - 1)]) ∧
    (ctx.atLevel (n + 1)).field .treeIndent call =
      call.unit n ++ (ctx.atLevel n).field .treeIndent call ∧
    (ctx.atLevel n).field .treeIndent call <:+ (ctx.atLevel (n + 1)).field .treeIndent call ∧
    (n ≤ call.args.length → ∀ more,
      (ctx.atLevel n).field .treeIndent { call with args := call.args ++ more } =
        (ctx.atLevel n).field .treeIndent call) := by
  have hfield (call : Call) (n : Nat) : (ctx.atLevel n).field .treeIndent call =
      Tab.indentation (Tab.indentUnits call) n := rfl
  have hunit : Tab.indentUnit (Tab.indentUnits call) = call.unit :=
    funext (Tab.indentUnit_indentUnits call)
  have hdeeper : (ctx.atLevel (n + 1)).field .treeIndent call =
      call.unit n ++ (ctx.atLevel n).field .treeIndent call := by
    rw [hfield, hfield, Tab.indentation, hunit]
  have hne := Tab.indentUnits_ne_nil call
  refine ⟨?_, fun level => ⟨Tab.min_level_lt_length hne level, ?_⟩, hdeeper, ?_, ?_⟩
  · rw [hfield, Tab.indentation_eq_flatten, hunit]
  · exact Tab.indentUnit_eq_getElem hne level
  · rw [hdeeper]
    exact List.suffix_append _ _
  · intro hn more
    rw [hfield, hfield]
    refine Tab.indentation_congr fun i hi => ?_
    have hlt : i < call.args.length := by omega
    have hargs : call.args ≠ [] := List.ne_nil_of_length_pos (by omega)
    have hmore : call.args ++ more ≠ [] := List.append_ne_nil_of_left_ne_nil hargs more
    rw [Tab.indentUnits_of_args hmore, Tab.indentUnits_of_args hargs,
      Tab.indentUnit_append_of_lt hlt]

/-- Three levels with two units, of which the last one is used twice; at two levels a third unit
makes no difference. -/
theorem Context.field_treeIndent_of_two_units :
    (Context.atLevel ⟨{ url := [], title := [] }, [], ⟨[], []⟩⟩ 3).field .treeIndent
        ⟨"TST_INDENT".toList, "'|   ', '|---'".toList, ["|   ".toList, "|---".toList]⟩ =
      "|---|---|   ".toList ∧
    2 ≤ ["|   ".toList, "|---".toList].length ∧
    (Context.atLevel ⟨{ url := [], title := [] }, [], ⟨[], []⟩⟩ 2).field .treeIndent
        ⟨"TST_INDENT".toList, "'|   ', '|---'".toList,
          ["|   ".toList, "|---".toList] ++ ["+".toList]⟩ =
      (Context.atLevel ⟨{ url := [], title := [] }, [], ⟨[], []⟩⟩ 2).field .treeIndent
        ⟨"TST_INDENT".toList, "'|   ', '|---'".toList, ["|   ".toList, "|---".toList]⟩ := by
  obtain ⟨htext, -, -, -, -⟩ := Context.field_treeIndent ⟨{ url := [], title := [] }, [], ⟨[], []⟩⟩
    ⟨"TST_INDENT".toList, "'|   ', '|---'".toList, ["|   ".toList, "|---".toList]⟩ 3
  obtain ⟨-, -, -, -, hmore⟩ := Context.field_treeIndent ⟨{ url := [], title := [] }, [], ⟨[], []⟩⟩
    ⟨"TST_INDENT".toList, "'|   ', '|---'".toList, ["|   ".toList, "|---".toList]⟩ 2
  exact ⟨htext.trans (by decide), by decide, hmore (by decide) ["+".toList]⟩

end TabFormat
