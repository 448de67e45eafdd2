import TabFormat.Proofs.Grammar.Calls
import TabFormat.Proofs.Groups

/-!
# Leaving placeholders as they are

A resolver that leaves each placeholder as it was written does not return the template: the groups
of a placeholder become one, groups that are empty and text after groups are dropped. But what it
returns is a template again, which it returns as it is. In the template, backslashes and quotation
marks may stand in the arguments; elsewhere they would be gone after the first time.

## Main definitions

* `Tree.restored` : a template with its placeholders as they were written.
* `Tree.Clean` : a template with backslashes and quotation marks in arguments only.
* `Tree.Tidy` : a template with placeholders that are written in one way only.

## Main results

* `Tree.exists_restored` : the returned text is a template that is returned as it is.
* `Tree.restored_of_tidy` : a tidy template is returned as it is.
* `expand_passthrough` : expanding with the resolver that leaves placeholders as they are.
-/

namespace TabFormat.Template

open Token (scan source Normal)

variable {limit depth : Nat}

/-! ### What is returned -/

/-- The placeholder as a resolver sees it. -/
def Placeholder.restored (p : Placeholder) : Text :=
  Call.passthrough ⟨p.nameText, p.rawArgs, []⟩

/-- The template with its placeholders as resolvers see them. -/
def Tree.restored : Tree → Text
  | nil => []
  | literal t rest => t.spoken ++ rest.restored
  | placeholder p _ rest => p.restored ++ rest.restored

/-- Outside the groups of its placeholders the template has no backslashes, and the names of its
placeholders have no quotation marks. -/
def Tree.Clean : Tree → Prop
  | nil => True
  | literal t rest => '\\' ∉ t.chars ∧ rest.Clean
  | placeholder p _ rest =>
    (∀ c ∈ source (spell p.name), c ≠ '\\' ∧ isMark c = false) ∧ rest.Clean

/-- Each placeholder has no groups, or one that is not empty and that the closing percent sign
follows. -/
def Tree.Tidy : Tree → Prop
  | nil => True
  | literal _ rest => rest.Tidy
  | placeholder p _ rest =>
    (p.sequels = [] ∨ ∃ content, content ≠ [] ∧ p.sequels = [.group content]) ∧ rest.Tidy

/-- If each call is answered with the placeholder as it was written, then the output is the template
with its placeholders as resolvers see them. -/
theorem Tree.Valid.eval_passthrough {tree : Tree} (hv : tree.Valid limit depth) :
    (tree.eval (fun _ => Call.passthrough) []).2 = tree.restored := by
  induction hv with
  | nil => rw [eval, restored]
  | literal _ _ ih => rw [eval, restored, ← ih]
  | placeholder _ _ _ _ _ _ ih =>
    rw [eval, restored, ← ih, eval_before]
    rfl

/-- The resolver returns the template with its placeholders as it sees them. -/
theorem expand_passthrough_of_valid (ε : Type) {template : Text} {tree : Tree}
    (hv : tree.Valid limit 0) (ht : tree.tokens = scan template) :
    (expand limit .passthrough template : Run ε Text).result = .ok tree.restored := by
  have hrun : tree.Realized ε limit 0 fun _ => Call.passthrough := runSteps_of_valid _ hv
  have hok := (hrun template 0 []).1
  rw [ht, ← outline, ← plan_eq, hv.eval_passthrough] at hok
  exact congrArg (Except.map Prod.snd) hok

/-! ### Placeholders -/

theorem spoken_of_backslash_notMem {t : Token} (h : '\\' ∉ t.chars) : t.spoken = t.chars := by
  cases t with
  | escape c => exact absurd List.mem_cons_self h
  | _ => rfl

section

variable {pieces : List Piece}
  (hclean : ∀ c ∈ source (spell pieces), c ≠ '\\' ∧ isMark c = false)

include hclean

/-- Without backslashes and quotation marks, the parts of a name are tokens by themselves. -/
theorem exists_token_of_clean {piece : Piece} (hpiece : piece ∈ pieces) :
    ∃ t, piece = .token t ∧ '\\' ∉ t.chars := by
  have hchars : ∀ c ∈ source piece.tokens, c ≠ '\\' ∧ isMark c = false := by
    intro c hc
    refine hclean c ?_
    rw [source, spell, List.flatMap_assoc]
    exact List.mem_flatMap_of_mem hpiece hc
  cases piece with
  | quotation q body =>
    have hmark := (hchars q.char List.mem_cons_self).2
    rw [isMark_mark] at hmark
    exact absurd hmark (Bool.false_ne_true).symm
  | token t => exact ⟨t, rfl, fun hmem => (hchars '\\' (List.mem_append_left _ hmem)).1 rfl⟩

/-- Without backslashes and quotation marks, a name stands for itself. -/
theorem spoken_of_clean : pieces.flatMap Piece.spoken = source (spell pieces) := by
  rw [source, spell, List.flatMap_assoc, List.flatMap_def, List.flatMap_def]
  refine congrArg List.flatten (List.map_congr_left fun piece hpiece => ?_)
  obtain ⟨t, rfl, hback⟩ := exists_token_of_clean hclean hpiece
  exact (spoken_of_backslash_notMem hback).trans (List.append_nil _).symm

/-- Without backslashes and quotation marks, a name has no special characters. -/
theorem mustInName_of_clean (hfits : ∀ piece ∈ pieces, piece.Fits [.percent, .openParen])
    (hproper : ∀ t ∈ spell pieces, t.Proper) {c : Char} (hc : c ∈ source (spell pieces)) :
    mustInName c = false := by
  obtain ⟨hback, hmark⟩ := hclean c hc
  -- the percent sign and the parenthesis would end the name
  have hstop {u : Token} (hu : u ∈ [Token.percent, .openParen]) : Token.ofChar? c ≠ some u := by
    intro hof
    obtain ⟨t, ht, hmem⟩ := List.mem_flatMap.mp hc
    obtain ⟨piece, hpiece, htokens⟩ := List.mem_flatMap.mp ht
    obtain ⟨t', rfl, hback'⟩ := exists_token_of_clean hclean hpiece
    obtain rfl := List.mem_singleton.mp htokens
    obtain rfl | ⟨d, rfl⟩ := Token.eq_or_escape_of_mem_chars hof (hproper t ht) hmem
    · exact (hfits _ hpiece).1 hu
    · exact hback' List.mem_cons_self
  have hpercent : c ≠ '%' := by
    rintro rfl
    exact hstop List.mem_cons_self rfl
  have hparen : c ≠ '(' := by
    rintro rfl
    exact hstop (List.mem_cons_of_mem _ List.mem_cons_self) rfl
  simp [mustInName, hpercent, hparen, hback, hmark]

end

namespace Placeholder

variable {p : Placeholder}

/-- Without backslashes and quotation marks, a name stands for itself and needs none. -/
theorem nameText_of_clean (hp : p.WellFormed) (hn : Normal p.tokens)
    (hclean : ∀ c ∈ source (spell p.name), c ≠ '\\' ∧ isMark c = false) :
    p.nameText = source (spell p.name) ∧ ∀ c ∈ p.nameText, mustInName c = false := by
  have hname : p.nameText = source (spell p.name) := spoken_of_clean hclean
  have hproper : ∀ t ∈ spell p.name, t.Proper := fun t ht =>
    hn.proper t (List.mem_cons_of_mem _ (List.mem_append_left _ ht))
  rw [hname]
  exact ⟨rfl, fun c hc => mustInName_of_clean hclean hp.name_fits hproper hc⟩

/-- **A placeholder as it was written** is a placeholder of the same name and with the same source
text. Its arguments are the same, up to empty ones. -/
theorem exists_restored (hp : p.WellFormed) (hn : Normal p.tokens)
    (hname : ∀ c ∈ p.nameText, mustInName c = false) :
    ∃ p' : Placeholder, p'.WellFormed ∧ p'.nameText = p.nameText ∧ p'.rawArgs = p.rawArgs ∧
      (∀ text ∈ p'.argumentTexts, text ∈ p.argumentTexts ∨ text = []) ∧
      ∀ rest, scan (p.restored ++ rest) = p'.tokens ++ scan rest := by
  by_cases hraw : p.rawArgs = []
  · obtain ⟨pieces, hscans, hfits, hspoken⟩ := (WrittenName.bare (.refl hname)).exists_pieces
    refine ⟨⟨pieces, []⟩, ⟨hfits, ?_, by simp, by simp⟩, hspoken, hraw.symm,
      by simp [argumentTexts], fun rest => ?_⟩
    · rw [nameText, hspoken]
      exact hp.nameText_ne_nil
    · have hrestored : p.restored ++ rest = '%' :: (p.nameText ++ '%' :: rest) := by
        rw [restored, Call.passthrough, hraw]
        simp
      rw [hrestored, Token.scan_cons_special (t := .percent) rfl, hscans '%' .percent rest rfl]
      simp [tokens]
  · obtain ⟨p', hp', hnameText, hrawArgs, htexts, hscan⟩ := exists_merged hp hn hname
    refine ⟨p', hp', hnameText, hrawArgs, fun text htext => ?_, fun rest => ?_⟩
    · rw [htexts] at htext
      rw [argumentTexts_eq]
      exact (padded_joinContents p.contents).mem_or_eq_nil htext
    · have hrestored : p.restored ++ rest =
          '%' :: (p.nameText ++ '(' :: (p.rawArgs ++ ')' :: '%' :: rest)) := by
        rw [restored, Call.passthrough, if_neg (by simpa using hraw)]
        simp
      rw [hrestored, hscan rest]

/-- A placeholder with one group that is not empty, or none, is left as it is. -/
theorem restored_of_tidy (hp : p.WellFormed) (hn : Normal p.tokens)
    (hname : p.nameText = source (spell p.name))
    (h : p.sequels = [] ∨ ∃ content, content ≠ [] ∧ p.sequels = [.group content]) :
    p.restored = source p.tokens := by
  rcases h with hnone | ⟨content, hne, hone⟩
  · have hraw : p.rawArgs = [] := by
      rw [rawArgs, hnone]
      rfl
    rw [restored, Call.passthrough, hraw, tokens, hnone, hname]
    simp [source, Token.chars]
  · obtain ⟨piece, pieces, rfl⟩ := List.exists_cons_of_ne_nil hne
    have hcontents : p.contents = [piece :: pieces] := by
      rw [contents, hone]
      rfl
    have hraw : p.rawArgs = source (spell (piece :: pieces)) := by
      rw [rawArgs_eq hp hn, hcontents]
      rfl
    have henclosed := enclosed_of_mem hp hn (hcontents ▸ List.mem_singleton_self _)
    have hraw' := henclosed.normal.source_ne_nil (spell_ne_nil piece pieces)
    rw [restored, Call.passthrough, hraw, if_neg (by simpa using hraw'), tokens, hone, hname]
    simp [Sequel.tokens, source, Token.chars]

end Placeholder

/-! ### Templates -/

/-- The texts of arguments are templates, and so is the empty text. -/
theorem isTemplate_of_mem_or_eq_nil {args : List Tree} {texts : List Text}
    (htexts : args.map Tree.tokens = texts.map scan)
    (hargs : ∀ arg ∈ args, arg.Valid limit depth) {text : Text}
    (h : text ∈ texts ∨ text = []) : IsTemplate limit depth (scan text) := by
  rcases h with hmem | rfl
  · have hscan : scan text ∈ args.map Tree.tokens := htexts ▸ List.mem_map_of_mem hmem
    obtain ⟨arg, harg, heq⟩ := List.mem_map.mp hscan
    exact ⟨arg, hargs arg harg, heq⟩
  · exact ⟨.nil, .nil, Token.scan_nil.symm⟩

/-- **The returned text is a template that is returned as it is.** It begins like the template, so
that it can stand behind the same tokens. -/
theorem Tree.exists_restored {tree : Tree} (hv : tree.Valid limit depth)
    (hn : Normal tree.tokens) (hc : tree.Clean) :
    ∃ tree' : Tree, tree'.Valid limit depth ∧ tree'.tokens = scan tree.restored ∧
      tree'.restored = tree.restored ∧ tree'.tokens.head? = tree.tokens.head? := by
  induction hv with
  | nil => exact ⟨.nil, .nil, Token.scan_nil.symm, rfl, rfl⟩
  | @literal depth t rest ht _ ih =>
    obtain ⟨hproper, hapart, hrest⟩ := Token.normal_cons.mp hn
    obtain ⟨rest', hv', htokens, hrestored, hhead⟩ := ih hrest hc.2
    refine ⟨.literal t rest', .literal ht hv', ?_, ?_, rfl⟩
    · rw [restored, spoken_of_backslash_notMem hc.1, Token.scan_chars_append hproper, ← htokens,
        tokens]
      rwa [← htokens, hhead]
    · rw [restored, restored, hrestored]
  | @placeholder depth p args rest hdepth hp htexts hargs _ _ ih =>
    obtain ⟨-, hname⟩ := Placeholder.nameText_of_clean hp hn.left hc.1
    obtain ⟨p', hp', hnameText, hrawArgs, htexts', hscan⟩ :=
      Placeholder.exists_restored hp hn.left hname
    obtain ⟨args', htokens', hargs'⟩ := exists_trees fun text htext =>
      isTemplate_of_mem_or_eq_nil htexts hargs (htexts' text htext)
    obtain ⟨rest', hv', htokens, hrestored, -⟩ := ih hn.right hc.2
    refine ⟨.placeholder p' args' rest', .placeholder hdepth hp' htokens' hargs' hv', ?_, ?_, rfl⟩
    · rw [restored, hscan, ← htokens, tokens]
    · rw [restored, restored, hrestored, Placeholder.restored, Placeholder.restored, hnameText,
        hrawArgs]

/-- **A tidy template is returned as it is.** -/
theorem Tree.restored_of_tidy {tree : Tree} (hv : tree.Valid limit depth)
    (hn : Normal tree.tokens) (hc : tree.Clean) (ht : tree.Tidy) :
    tree.restored = source tree.tokens := by
  induction hv with
  | nil => rfl
  | literal _ _ ih =>
    rw [restored, spoken_of_backslash_notMem hc.1,
      ih (Token.normal_cons.mp hn).2.2 hc.2 ht]
    rfl
  | placeholder _ hp _ _ _ _ ih =>
    obtain ⟨hname, -⟩ := Placeholder.nameText_of_clean hp hn.left hc.1
    rw [restored, tokens, Token.source_append,
      Placeholder.restored_of_tidy hp hn.left hname ht.1, ih hn.right hc.2 ht.2]

/-- **Expanding with the resolver that leaves placeholders as they are.** A template that expands
has a derivation; if it has no backslashes outside of groups and no quotation marks in names, then
what it expands to is a template that expands to itself. If, besides, each placeholder has no groups
or a single one that is not empty, directly before the closing percent sign, then the template
itself is returned. -/
theorem expand_passthrough (ε : Type) (limit : Nat) {template out : Text}
    (hok : (expand limit .passthrough template : Run ε Text).result = .ok out) :
    (∃ tree : Tree, tree.Valid limit 0 ∧ tree.tokens = scan template) ∧
    ∀ tree : Tree, tree.Valid limit 0 → tree.tokens = scan template → tree.Clean →
      (expand limit .passthrough out : Run ε Text).result = .ok out ∧
      (tree.Tidy → out = template) := by
  obtain ⟨last, hlast, -⟩ := Run.ok_of_map_ok hok
  refine ⟨isTemplate_of_runSteps_ok template hlast, fun tree hv ht hc => ?_⟩
  have hn : Normal tree.tokens := ht ▸ Token.normal_scan template
  obtain rfl : out = tree.restored :=
    Except.ok.inj (hok.symm.trans (expand_passthrough_of_valid ε hv ht))
  obtain ⟨tree', hv', ht', hrestored, -⟩ := tree.exists_restored hv hn hc
  have hagain := expand_passthrough_of_valid ε hv' ht'
  rw [hrestored] at hagain
  refine ⟨hagain, fun htidy => ?_⟩
  rw [Tree.restored_of_tidy hv hn hc htidy, ht]
  exact Token.flatMap_chars_scan template

/-- Three groups, of which one is empty, become one. -/
theorem expand_passthrough_of_three_groups :
    (expand 0 .passthrough "x%f(a)() (b)%".toList : Run Empty Text).result =
      .ok "x%f(a, b)%".toList ∧
    (expand 0 .passthrough "x%f(a, b)%".toList : Run Empty Text).result =
      .ok "x%f(a, b)%".toList := by
  let p : Placeholder := ⟨[.token (.plain ['f'])], [.group [.token (.plain ['a'])], .group [],
    .passed (.blank [' ']), .group [.token (.plain ['b'])]]⟩
  let tree : Tree := .literal (.plain ['x'])
    (.placeholder p [.literal (.plain ['a']) .nil, .literal (.plain ['b']) .nil] .nil)
  have hok : (expand 0 .passthrough "x%f(a)() (b)%".toList : Run Empty Text).result =
      .ok "x%f(a, b)%".toList := by decide +kernel
  have hp : p.WellFormed :=
    ⟨by simp [p, Piece.Fits], by decide, by simp [p], by simp [p, Sequel.WellFormed, Piece.Fits]⟩
  have hv : tree.Valid 0 0 := by
    refine .literal (by simp) (.placeholder (Nat.zero_le 0) hp (by decide +kernel) ?_ .nil)
    simp only [List.forall_mem_cons, List.not_mem_nil, false_implies, implies_true, and_true]
    exact ⟨.literal (by simp) .nil, .literal (by simp) .nil⟩
  have hc : tree.Clean := ⟨by decide, List.forall_mem_singleton.mpr ⟨by decide, rfl⟩, trivial⟩
  exact ⟨hok, ((expand_passthrough Empty 0 hok).2 tree hv (by decide +kernel) hc).1⟩

end TabFormat.Template
