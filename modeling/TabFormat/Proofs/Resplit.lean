import TabFormat.Proofs.Answers
import TabFormat.Proofs.Grammar.Calls
import TabFormat.Proofs.Groups

/-!
# Reading the source text of arguments again

A resolver is handed the arguments of a call and their source text. If the call is written again,
with this source text between parentheses, then its expansion makes the same calls for the
arguments, and its last call has the same name and the same source text. The arguments are the same
up to empty ones that are added; none are added exactly if no group of white space stood beside
another group of the placeholder. Such a group has no arguments, but a comma stands beside it in the
source text.

## Main definitions

* `Call.rewritten` : a call, written with the source text of its arguments.

## Main results

* `consult_placeholder` : the expansion of a single placeholder.
* `expand_rewritten_placeholder` : the expansion of a call that is written again.
* `expand_rewritten` : all the calls of an expansion, written again.
-/

namespace TabFormat.Template

open Token (scan source Normal)

variable {ε : Type} {limit depth : Nat}

/-- The call, written with the source text of its arguments between parentheses. -/
def Call.rewritten (call : Call) : Text :=
  '%' :: (call.name ++ '(' :: (call.rawArgs ++ [')', '%']))

/-! ### White space -/

theorem isBlank_iff_of_proper {t : Token} (ht : t.Proper) :
    t.isBlank = true ↔ ∀ c ∈ t.chars, Text.isBlank c = true := by
  cases t with
  | blank s => exact ⟨fun _ => ht.2, fun _ => rfl⟩
  | plain s =>
    refine ⟨fun h => absurd h Bool.false_ne_true, fun h => ?_⟩
    obtain ⟨c, hc⟩ := List.exists_mem_of_ne_nil s ht.1
    have hplain := ht.2 c hc
    simp [Token.isPlain, h c hc] at hplain
  | quote q =>
    refine ⟨fun h => absurd h Bool.false_ne_true, fun h => ?_⟩
    cases q <;> exact absurd (h _ List.mem_cons_self) (by decide)
  | _ =>
    refine ⟨fun h => absurd h Bool.false_ne_true, fun h => ?_⟩
    exact absurd (h _ List.mem_cons_self) (by decide)

/-- The text of a part is white space exactly if the part is. -/
theorem Piece.isBlank_iff {piece : Piece} (h : ∀ t ∈ piece.tokens, t.Proper) :
    piece.isBlank = true ↔ ∀ c ∈ source piece.tokens, Text.isBlank c = true := by
  cases piece with
  | token t =>
    rw [tokens, source, List.flatMap_singleton]
    exact isBlank_iff_of_proper (h t List.mem_cons_self)
  | quotation q body =>
    refine ⟨fun h => absurd h Bool.false_ne_true, fun h => ?_⟩
    have hmark := h q.char List.mem_cons_self
    cases q <;> exact absurd hmark (by decide)

/-- A group has no arguments exactly if its text is white space. -/
theorem Enclosed.argumentTexts_eq_nil_iff {content : List Piece} (h : Enclosed content) :
    argumentTexts content = [] ↔ ∀ c ∈ source (spell content), Text.isBlank c = true := by
  have hblank : content.all Piece.isBlank = true ↔
      ∀ c ∈ source (spell content), Text.isBlank c = true := by
    rw [List.all_eq_true, source, spell, List.flatMap_assoc, List.forall_mem_flatMap]
    refine forall₂_congr fun piece hpiece => ?_
    exact Piece.isBlank_iff fun t ht => h.normal.proper t (List.mem_flatMap_of_mem hpiece ht)
  rw [← hblank]
  cases hall : content.all Piece.isBlank with
  | true => simp [argumentTexts_of_blank hall]
  | false =>
    rw [argumentTexts_of_not_blank hall, textsBetweenCommas, List.map_eq_nil_iff]
    simp [List.splitOn_ne_nil]

/-- A placeholder without white space beside other groups has no arguments exactly if their source
text is white space. -/
theorem Placeholder.argumentTexts_eq_nil_iff {p : Placeholder} (hp : p.WellFormed)
    (hn : Normal p.tokens) (hs : p.Separable) :
    p.argumentTexts = [] ↔ ∀ c ∈ p.rawArgs, Text.isBlank c = true := by
  have henclosed := Enclosed.joinContents fun content h => enclosed_of_mem hp hn h
  rw [argumentTexts_eq, ← (argumentTexts_joinContents_iff p).1 hs, rawArgs_eq hp hn]
  exact henclosed.argumentTexts_eq_nil_iff

/-! ### The expansion of one placeholder -/

/-- **The expansion of a single placeholder.** Its arguments are expanded, and then it is called. -/
theorem consult_placeholder {p : Placeholder} (hp : p.WellFormed) {template : Text}
    (hscan : scan template = p.tokens) {oracle : Oracle ε} {calls : List Call}
    {warnings : List Ignored} {values : List Text}
    (hx : Expands limit 1 oracle [] p.argumentTexts calls warnings values) :
    let call : Call := ⟨p.nameText, p.rawArgs, values⟩
    (consult limit oracle template).calls = calls ++ [call] ∧
    (consult limit oracle template).result = (oracle calls call).mapError (.refused · none) := by
  intro call
  obtain ⟨front, hread, hinner⟩ := passage_placeholder limit 0 hp (Nat.zero_le limit) 0
  have hplan : plan limit 0 template =
      (front ++ [Event.call p.nameText p.rawArgs]).map (Event.step limit 0 template) := by
    rw [plan_eq, outline, hscan, hread.outlineFrom_eq]
  obtain ⟨hcalls, hresult, -⟩ := runSteps_placeholder hinner hx template p.rawArgs []
  simp only [← hplan, List.map_nil, runSteps_nil, Run.map_done, Run.andThen_done,
    List.append_nil, List.nil_append] at hcalls hresult
  refine ⟨hcalls, ?_⟩
  rw [consult, Run.result_map, hresult, Run.result_map, Call.run]
  cases oracle calls call <;> rfl

/-! ### Empty arguments -/

theorem Padded.eq_of_length {texts texts' : List Text} (h : Padded texts texts')
    (hlength : texts'.length = texts.length) : texts' = texts := by
  induction h with
  | nil => rfl
  | keep _ ih => rw [ih (Nat.succ_inj.mp hlength)]
  | add hrest _ =>
    have hle := hrest.length_le
    rw [List.length_cons] at hlength
    omega

theorem Expands.length_eq {oracle : Oracle ε} {before calls : List Call}
    {texts values : List Text} {warnings : List Ignored}
    (h : Expands limit depth oracle before texts calls warnings values) :
    values.length = texts.length := by
  induction h with
  | nil => rfl
  | cons _ _ _ ih => rw [List.length_cons, List.length_cons, ih]

/-- Empty texts expand to empty texts, without calls. -/
theorem Expands.padded {oracle : Oracle ε} {before calls : List Call}
    {texts texts' values : List Text} {warnings : List Ignored}
    (h : Expands limit depth oracle before texts calls warnings values)
    (hpadded : Padded texts texts') :
    ∃ values', Padded values values' ∧
      Expands limit depth oracle before texts' calls warnings values' := by
  induction hpadded generalizing before calls warnings values with
  | nil =>
    cases h
    exact ⟨[], .nil, .nil⟩
  | keep _ ih =>
    cases h with
    | cons hfirst hok hrest =>
      obtain ⟨values', hvalues, hx⟩ := ih hrest
      exact ⟨_, .keep hvalues, .cons hfirst hok hx⟩
  | add _ ih =>
    obtain ⟨values', hvalues, hx⟩ := ih h
    have hempty : runSteps oracle before [] (plan limit depth []) = .done ([], []) := by
      rw [plan_eq, outline, Token.scan_nil, outlineFrom, State.finish, List.map_nil, runSteps_nil]
    rw [← List.append_nil before] at hx
    exact ⟨_, .add hvalues, .cons hempty rfl hx⟩

/-! ### Calls that are written again -/

/-- **The expansion of a call that is written again.** The calls for the arguments are the same;
the last call has the same name and source text, and the arguments are the same up to empty ones. -/
theorem expand_rewritten_placeholder {p : Placeholder} (hp : p.WellFormed) (hn : Normal p.tokens)
    (hname : ∀ c ∈ p.nameText, mustInName c = false) {resolver : Resolver ε} {calls : List Call}
    {warnings : List Ignored} {values : List Text}
    (hx : Expands limit 1 (fun _ => resolver) [] p.argumentTexts calls warnings values) :
    ∃ values', Padded values values' ∧ (values' = values ↔ p.Separable) ∧
      let again := expand limit resolver (Call.rewritten ⟨p.nameText, p.rawArgs, values⟩)
      again.calls = calls ++ [⟨p.nameText, p.rawArgs, values'⟩] ∧
      again.result = (resolver ⟨p.nameText, p.rawArgs, values'⟩).mapError (.refused · none) := by
  obtain ⟨p', hp', hnameText, hrawArgs, htexts, hscan⟩ := Placeholder.exists_merged hp hn hname
  have hpadded : Padded p.argumentTexts p'.argumentTexts := by
    rw [htexts, Placeholder.argumentTexts_eq]
    exact padded_joinContents p.contents
  obtain ⟨values', hvalues, hx'⟩ := hx.padded hpadded
  have hrewritten : scan (Call.rewritten ⟨p.nameText, p.rawArgs, values⟩) = p'.tokens := by
    have h := hscan []
    rwa [Token.scan_nil, List.append_nil] at h
  obtain ⟨hcalls, hresult⟩ := consult_placeholder hp' hrewritten hx'
  rw [hnameText, hrawArgs] at hcalls hresult
  have hlength : values'.length = values.length ↔
      p'.argumentTexts.length = p.argumentTexts.length := by
    rw [hx.length_eq, hx'.length_eq]
  rw [htexts, Placeholder.argumentTexts_eq] at hlength
  obtain ⟨hsame, hseparable⟩ := argumentTexts_joinContents_iff p
  refine ⟨values', hvalues, ⟨fun h => ?_, fun h => ?_⟩, hcalls, hresult⟩
  · exact hseparable (hlength.mp (congrArg List.length h))
  · exact hvalues.eq_of_length (hlength.mpr (congrArg List.length (hsame h)))

/-- The text with which a resolver answers, if it does. -/
def Resolver.answer (resolver : Resolver ε) (call : Call) : Text :=
  match resolver call with
  | .ok answer => answer
  | .error _ => []

theorem Resolver.eq_ok_answer {resolver : Resolver ε} {call : Call}
    (h : ∃ answer, resolver call = .ok answer) : resolver call = .ok (resolver.answer call) := by
  obtain ⟨answer, hanswer⟩ := h
  rw [Resolver.answer, hanswer]

/-- The calls of an expansion that succeeds are those of the placeholders of a derivation. -/
theorem calls_eq_map_sites {resolver : Resolver ε} {template : Text} {last : List Text × Text}
    (hok : (runSteps (fun _ => resolver) [] [] (plan limit 0 template)).result = .ok last)
    {tree : Tree} (hv : tree.Valid limit 0) (ht : tree.tokens = scan template) :
    (expand limit resolver template).calls = tree.sites.map (Site.call resolver.answer) := by
  have hcongr : runSteps (.answering fun _ => resolver.answer : Oracle ε) [] []
      (plan limit 0 template) = runSteps (fun _ => resolver) [] [] (plan limit 0 template) :=
    runSteps_congr [] [] _ fun call hcall =>
      (Resolver.eq_ok_answer (answered_of_ok hok hcall)).symm
  have hrun : tree.Realized ε limit 0 fun _ => resolver.answer := runSteps_of_valid _ hv
  have hcalls := (hrun template 0 []).2
  rw [ht, ← outline, ← plan_eq, hcongr, Tree.calls_eval] at hcalls
  exact hcalls

/-- The arguments of a placeholder expand by themselves as they do in the template. -/
theorem expands_site {resolver : Resolver ε} {site : Site}
    (htexts : site.args.map Tree.tokens = site.placeholder.argumentTexts.map scan)
    (hargs : ∀ arg ∈ site.args, arg.Valid limit 1)
    (hanswered : ∀ inner ∈ Tree.sitesAll site.args,
      ∃ answer, resolver (inner.call resolver.answer) = .ok answer) :
    ∃ calls warnings, Expands limit 1 (fun _ => resolver) [] site.placeholder.argumentTexts calls
      warnings (site.call resolver.answer).args := by
  obtain ⟨warnings, hx⟩ : ∃ warnings, Expands limit 1 (fun _ call => .ok (resolver.answer call)) []
      site.placeholder.argumentTexts _ warnings (site.call resolver.answer).args :=
    expands_evalAll (fun _ => resolver.answer)
      (fun arg harg => runSteps_of_valid _ (hargs arg harg)) htexts []
  refine ⟨_, warnings, hx.congr fun call hcall => ?_⟩
  rw [Tree.calls_evalAll] at hcall
  obtain ⟨inner, hinner, rfl⟩ := List.mem_map.mp hcall
  exact Resolver.eq_ok_answer (hanswered inner hinner)

/-- **The calls of an expansion, written again.** A template that expands has a derivation, and each
call of the expansion belongs to a placeholder of it. If the name of the call needs no quotation
marks, then writing it with the source text of its arguments leads to the same call again, but that
the arguments may be more by empty ones; the call is the same exactly if the placeholder has no
group of white space beside another one. Then the expansion succeeds, and there are no arguments
exactly if their source text is white space. -/
theorem expand_rewritten (limit : Nat) (resolver : Resolver ε) (template : Text) {out : Text}
    (hok : (expand limit resolver template).result = .ok out) :
    (∃ tree : Tree, tree.Valid limit 0 ∧ tree.tokens = scan template) ∧
    ∀ tree : Tree, tree.Valid limit 0 → tree.tokens = scan template →
      List.Forall₂ (fun site call =>
          call.name = site.placeholder.nameText ∧ call.rawArgs = site.placeholder.rawArgs ∧
          ((∀ c ∈ call.name, mustInName c = false) →
            let again := expand limit resolver call.rewritten
            (∃ args, Padded call.args args ∧ again.calls.getLast? = some { call with args } ∧
              again.result = (resolver { call with args }).mapError (.refused · none)) ∧
            (again.calls.getLast? = some call ↔ site.placeholder.Separable) ∧
            (site.placeholder.Separable → (∃ out, again.result = .ok out) ∧
              (call.args = [] ↔ ∀ c ∈ call.rawArgs, Text.isBlank c = true))))
        tree.sites (expand limit resolver template).calls := by
  obtain ⟨last, hlast, -⟩ := Run.ok_of_map_ok hok
  refine ⟨isTemplate_of_runSteps_ok template hlast, fun tree hv ht => ?_⟩
  have hcalls := calls_eq_map_sites hlast hv ht
  have hanswered : ∀ site ∈ tree.sites, ∃ answer,
      resolver (site.call resolver.answer) = .ok answer := by
    intro site hsite
    have hmem : site.call resolver.answer ∈ (expand limit resolver template).calls :=
      hcalls ▸ List.mem_map_of_mem hsite
    exact answered_of_ok hlast hmem
  rw [hcalls, List.forall₂_map_right_iff, List.forall₂_same]
  intro site hsite
  obtain ⟨hp, hn, htexts, hargs, hsub⟩ := hv.site (ht ▸ Token.normal_scan template) hsite
  refine ⟨rfl, rfl, fun hname => ?_⟩
  obtain ⟨calls, warnings, hx⟩ :=
    expands_site htexts hargs fun inner hinner => hanswered inner (hsub hinner)
  obtain ⟨args, hpadded, hiff, hagain, hresult⟩ := expand_rewritten_placeholder hp hn hname hx
  intro again
  have hgetLast : again.calls.getLast? = some { site.call resolver.answer with args } := by
    refine (congrArg List.getLast? hagain).trans ?_
    rw [List.getLast?_concat]
    rfl
  refine ⟨⟨args, hpadded, hgetLast, hresult⟩, ?_, fun hs => ⟨?_, ?_⟩⟩
  · rw [hgetLast, ← hiff, Option.some.injEq]
    exact ⟨congrArg Call.args, fun h => by rw [h]⟩
  · obtain rfl := hiff.mpr hs
    obtain ⟨answer, hanswer⟩ := hanswered site hsite
    exact ⟨answer, hresult.trans (congrArg (Except.mapError (Failure.refused · none)) hanswer)⟩
  · rw [show (site.call resolver.answer).rawArgs = site.placeholder.rawArgs from rfl,
      ← Placeholder.argumentTexts_eq_nil_iff hp hn hs, ← List.length_eq_zero_iff, hx.length_eq,
      List.length_eq_zero_iff]

/-- Two groups with an argument each, one of them a call. -/
theorem expand_rewritten_of_two_groups :
    (expand 1 .passthrough "%F(%g%)(a)%".toList : Run Empty Text).result =
      .ok "%F(%g%, a)%".toList ∧
    ∃ site : Site, site.placeholder.nameText = ['F'] ∧
      ((expand 1 .passthrough "%F(%g%, a)%".toList : Run Empty Text).calls.getLast? =
        some ⟨['F'], "%g%, a".toList, ["%g%".toList, ['a']]⟩ ↔ site.placeholder.Separable) := by
  have hok : (expand 1 .passthrough "%F(%g%)(a)%".toList : Run Empty Text).result =
      .ok "%F(%g%, a)%".toList := by decide +kernel
  have hcalls : (expand 1 .passthrough "%F(%g%)(a)%".toList : Run Empty Text).calls =
      [⟨['g'], [], []⟩, ⟨['F'], "%g%, a".toList, ["%g%".toList, ['a']]⟩] := by decide +kernel
  obtain ⟨⟨tree, hv, ht⟩, hall⟩ := expand_rewritten 1 _ _ hok
  have hsites := hall tree hv ht
  rw [hcalls] at hsites
  generalize tree.sites = sites at hsites
  cases hsites with
  | cons _ hrest =>
    cases hrest with
    | cons hsite _ =>
      obtain ⟨hname, -, hagain⟩ := hsite
      exact ⟨hok, _, hname.symm, (hagain (List.forall_mem_singleton.mpr rfl)).2.1⟩

/-- A group of white space has no argument, but it has one when the call is written again. -/
theorem expand_rewritten_of_blank_group :
    (expand 32 .passthrough "%F( )(a)%".toList : Run Empty Text) =
      { calls := [⟨['F'], " , a".toList, [['a']]⟩], result := .ok "%F( , a)%".toList } ∧
    (∀ c ∈ ['F'], mustInName c = false) ∧
    (expand 32 .passthrough (Call.rewritten ⟨['F'], " , a".toList, [['a']]⟩) : Run Empty Text) =
      { calls := [⟨['F'], " , a".toList, [[], ['a']]⟩], result := .ok "%F( , a)%".toList } ∧
    (expand 32 .passthrough "%F( )( )%".toList : Run Empty Text) =
      { calls := [⟨['F'], " ,  ".toList, []⟩], result := .ok "%F( ,  )%".toList } := by
  have hrun {run : Run Empty Text} {calls : List Call} {out : Text} (hc : run.calls = calls)
      (hw : run.warnings = []) (hr : run.result = .ok out) :
      run = { calls := calls, result := .ok out } := by
    obtain ⟨calls', warnings', result'⟩ := run
    simp only at hc hw hr
    rw [hc, hw, hr]
  exact ⟨hrun (by decide +kernel) (by decide +kernel) (by decide +kernel),
    List.forall_mem_singleton.mpr rfl,
    hrun (by decide +kernel) (by decide +kernel) (by decide +kernel),
    hrun (by decide +kernel) (by decide +kernel) (by decide +kernel)⟩

end TabFormat.Template
