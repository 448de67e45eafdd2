import TabFormat.Proofs.Grammar.Evaluation
import TabFormat.Proofs.Normal

/-!
# The calls of a derivation

Each placeholder of a template, at whatever depth it lies, makes one call, and the order of the
calls is that of the places where the placeholders end. If calls are answered without regard to
those before them, then the call of a placeholder depends on the placeholder and its arguments
alone, so that the same call is made wherever the placeholder stands.

## Main definitions

* `Site` : a placeholder somewhere in a template.
* `Tree.sites` : the placeholders of a template, in the order of their calls.
* `Site.call` : the call of a placeholder.

## Main results

* `Tree.calls_eval` : the calls of a template are those of its placeholders.
* `Tree.Valid.site` : what the grammar says of a placeholder somewhere in a template.
-/

namespace TabFormat.Template

open Token (scan Normal)

/-- A placeholder somewhere in a template. -/
structure Site where
  /-- The placeholder. -/
  placeholder : Placeholder
  /-- The derivations of its arguments. -/
  args : List Tree

namespace Tree

mutual

/-- The placeholders of a template, in the order of their calls. -/
def sites : Tree → List Site
  | nil => []
  | literal _ rest => rest.sites
  | placeholder p args rest => sitesAll args ++ ⟨p, args⟩ :: rest.sites

/-- The placeholders of several templates one after another. -/
def sitesAll : List Tree → List Site
  | [] => []
  | tree :: rest => tree.sites ++ sitesAll rest

end

theorem mem_sitesAll {site : Site} {trees : List Tree} :
    site ∈ sitesAll trees ↔ ∃ tree ∈ trees, site ∈ tree.sites := by
  induction trees with
  | nil => simp [sitesAll]
  | cons tree trees ih => rw [sitesAll, List.mem_append, ih, List.exists_mem_cons_iff]

/-! ### Answers without regard to the calls before -/

variable (answer : Call → Text)

mutual

/-- Calls that were made before make no difference. -/
theorem eval_before (before : List Call) : (tree : Tree) →
    tree.eval (fun _ => answer) before = tree.eval (fun _ => answer) []
  | nil => by rw [eval, eval]
  | literal t rest => by rw [eval, eval, eval_before before rest]
  | placeholder p args rest => by
    rw [eval, eval, evalAll_before before args, eval_before _ rest]
    simp only [eval_before ([] ++ _ ++ _) rest]

theorem evalAll_before (before : List Call) : (trees : List Tree) →
    evalAll (fun _ => answer) before trees = evalAll (fun _ => answer) [] trees
  | [] => by rw [evalAll, evalAll]
  | tree :: rest => by
    rw [evalAll, evalAll, eval_before before tree, evalAll_before _ rest]
    simp only [evalAll_before ([] ++ _) rest]

end

end Tree

/-- The call of a placeholder, when calls are answered without regard to those before them. -/
def Site.call (answer : Call → Text) (site : Site) : Call :=
  ⟨site.placeholder.nameText, site.placeholder.rawArgs,
    (Tree.evalAll (fun _ => answer) [] site.args).2⟩

namespace Tree

mutual

/-- **The calls of a template are those of its placeholders.** -/
theorem calls_eval (answer : Call → Text) (before : List Call) : (tree : Tree) →
    (tree.eval (fun _ => answer) before).1 = tree.sites.map (Site.call answer)
  | nil => by
    rw [eval, sites]
    rfl
  | literal t rest => by
    rw [eval, sites]
    exact calls_eval answer before rest
  | placeholder p args rest => by
    rw [eval, sites, List.map_append, List.map_cons, ← calls_evalAll answer before args,
      ← calls_eval answer _ rest, Site.call, ← evalAll_before answer before args]

theorem calls_evalAll (answer : Call → Text) (before : List Call) : (trees : List Tree) →
    (evalAll (fun _ => answer) before trees).1 = (sitesAll trees).map (Site.call answer)
  | [] => by
    rw [evalAll, sitesAll]
    rfl
  | tree :: rest => by
    rw [evalAll, sitesAll, List.map_append, ← calls_eval answer before tree,
      ← calls_evalAll answer _ rest]

end

/-! ### What the grammar says of a placeholder -/

/-- A template may stand higher up. -/
theorem Valid.of_le {limit depth depth' : Nat} {tree : Tree} (h : tree.Valid limit depth)
    (hle : depth' ≤ depth) : tree.Valid limit depth' := by
  induction h generalizing depth' with
  | nil => exact .nil
  | literal ht _ ih => exact .literal ht (ih hle)
  | placeholder hdepth hp htexts _ _ ihargs ihrest =>
    exact .placeholder (Nat.le_trans hle hdepth) hp htexts
      (fun arg harg => ihargs arg harg (Nat.succ_le_succ hle)) (ihrest hle)

/-- The tokens of arguments are those of their texts. -/
theorem normal_of_mem {trees : List Tree} {texts : List Text}
    (h : trees.map tokens = texts.map scan) {tree : Tree} (ht : tree ∈ trees) :
    Normal tree.tokens := by
  have hmem : tree.tokens ∈ texts.map scan := h ▸ List.mem_map_of_mem ht
  obtain ⟨text, -, hscan⟩ := List.mem_map.mp hmem
  rw [← hscan]
  exact Token.normal_scan text

/-- **A placeholder somewhere in a template.** It is well-formed, its tokens are those of their
text, and its arguments are templates one level deep at least; the placeholders in them are
placeholders of the template. -/
theorem Valid.site {limit depth : Nat} {tree : Tree} (h : tree.Valid limit depth)
    (hn : Normal tree.tokens) {site : Site} (hsite : site ∈ tree.sites) :
    site.placeholder.WellFormed ∧ Normal site.placeholder.tokens ∧
      site.args.map tokens = site.placeholder.argumentTexts.map scan ∧
      (∀ arg ∈ site.args, arg.Valid limit 1) ∧ sitesAll site.args ⊆ tree.sites := by
  induction h with
  | nil => simp [sites] at hsite
  | @literal depth t rest _ _ ih => exact ih (Token.normal_cons.mp hn).2.2 hsite
  | @placeholder depth p args rest _ hp htexts hargs _ ihargs ihrest =>
    have hinside : sitesAll args ⊆ (Tree.placeholder p args rest).sites :=
      fun s hs => List.mem_append_left _ hs
    rcases List.mem_append.mp hsite with hmem | hmem
    · obtain ⟨arg, harg, hs⟩ := mem_sitesAll.mp hmem
      obtain ⟨hp', hn', htexts', hargs', hsub⟩ := ihargs arg harg (normal_of_mem htexts harg) hs
      exact ⟨hp', hn', htexts', hargs',
        fun s hs => hinside (mem_sitesAll.mpr ⟨arg, harg, hsub hs⟩)⟩
    · rcases List.mem_cons.mp hmem with rfl | hmem
      · exact ⟨hp, hn.left, htexts,
          fun arg harg => (hargs arg harg).of_le (Nat.le_add_left 1 depth), hinside⟩
      · obtain ⟨hp', hn', htexts', hargs', hsub⟩ := ihrest hn.right hmem
        exact ⟨hp', hn', htexts', hargs',
          fun s hs => List.mem_append_right _ (List.mem_cons_of_mem _ (hsub hs))⟩

end Tree

end TabFormat.Template
