import TabFormat.Format
import TabFormat.Proofs.Names
import TabFormat.Proofs.Nesting
import TabFormat.Proofs.Tokenization

/-!
# Names that ask for HTML

A known name with an ending that asks for HTML is answered with what the name without the ending is
answered, escaped for HTML. So a placeholder with such a name comes to the same as the function
for HTML around the placeholder without the ending, and it is refused for the same reason. All names
that are neither known nor have such an ending are left as they were written.

## Main results

* `result_expand_name`, `result_expand_call_name` : a placeholder that is a name only, and one whose
  argument is such a placeholder.
* `Context.answer_ending` : the answer to a name with an ending.
* `Context.resolver_by_name` : what a name decides.
-/

namespace TabFormat

/-! ### Characters of known names -/

namespace Builtin

theorem notMem_specials_of_isBlank {c : Char} (h : Text.isBlank c = true) :
    c ∉ Token.specials := by
  have hspecials : Token.specials.any Text.isBlank = false := by decide
  intro hmem
  simp [List.any_eq_false.mp hspecials c hmem] at h

/-- The case of letters does not matter to what is special. -/
theorem notMem_specials_of_fold {s t : Text} (h : Text.fold s = t)
    (ht : t.all (· ∉ Token.specials) = true) : ∀ c ∈ s, c ∉ Token.specials := by
  intro c hc
  have hfold : decide (Text.foldChar c ∈ Token.specials) = decide (c ∈ Token.specials) :=
    Text.apply_foldChar (f := fun c => decide (c ∈ Token.specials)) (by decide) c
  have hmem : Text.foldChar c ∈ t := h ▸ List.mem_map_of_mem hc
  have hnot : Text.foldChar c ∉ Token.specials := of_decide_eq_true (List.all_eq_true.mp ht _ hmem)
  simpa [hnot] using hfold

/-- The characters of a known name, white space around it included, are not special. -/
theorem notMem_specials_of_lookup {name : Text} {b : Builtin} (h : lookup name = some b) :
    ∀ c ∈ name, c ∉ Token.specials := by
  have haliases : ∀ b ∈ all, ∀ a ∈ b.aliases, a.toList.all (· ∉ Token.specials) = true := by
    decide +kernel
  obtain ⟨a, ha, hfold⟩ := lookup_eq_some_iff.mp h
  have hname := notMem_specials_of_fold hfold (haliases b (mem_all b) a ha)
  obtain ⟨lead, trail, hwhole, hlead, htrail⟩ := Text.exists_trim name
  rw [hwhole]
  refine List.forall_mem_append.mpr ⟨fun c hc => notMem_specials_of_isBlank (hlead c hc), ?_⟩
  exact List.forall_mem_append.mpr ⟨hname, fun c hc => notMem_specials_of_isBlank (htrail c hc)⟩

theorem IsHtmlEnding.notMem_specials {s : Text} (h : IsHtmlEnding s) :
    ∀ c ∈ s, c ∉ Token.specials := by
  have hall : ∀ ending ∈ htmlEndings, ending.all (· ∉ Token.specials) = true := by decide
  exact notMem_specials_of_fold rfl (hall _ (isHtmlEnding_iff.mp h))

end Builtin

/-! ### Placeholders that are names only -/

namespace Template

open Token (scan)

variable {ε : Type} {limit depth : Nat} {name outer : Text}

/-- The plan of a placeholder by itself. -/
theorem exists_plan_placeholder {p : Placeholder} (hp : p.WellFormed) (hdepth : depth ≤ limit)
    {text : Text} (hscan : scan text = p.tokens) :
    ∃ front, Inner p.nameText p.argumentTexts p.ignored front ∧
      plan limit depth text =
        (front ++ [Event.call p.nameText p.rawArgs]).map (Event.step limit depth text) := by
  obtain ⟨front, hread, hinner⟩ := passage_placeholder limit depth hp hdepth 0
  refine ⟨front, hinner, ?_⟩
  rw [plan_eq, outline, hscan, hread.outlineFrom_eq]

theorem mustInName_of_notMem_specials {c : Char} (h : c ∉ Token.specials) :
    mustInName c = false := by
  have hall : ∀ c, mustInName c = true → c ∈ Token.specials := by
    intro c hc
    simp only [mustInName, isMark, Bool.or_eq_true, beq_iff_eq] at hc
    rcases hc with ((rfl | rfl) | rfl) | ((rfl | rfl) | rfl) <;> decide
  simpa using mt (hall c) h

/-- A text without special characters is a name. -/
theorem exists_namePieces (h : ∀ c ∈ name, c ∉ Token.specials) :
    ∃ pieces, Scans name (spell pieces) ∧ (∀ p ∈ pieces, p.Fits [.percent, .openParen]) ∧
      pieces.flatMap Piece.spoken = name :=
  (WrittenName.bare (.refl fun c hc => mustInName_of_notMem_specials (h c hc))).exists_pieces

/-- **The plan of a placeholder that is a name only** is its call. -/
theorem plan_name (hdepth : depth ≤ limit) (hne : name ≠ [])
    (hname : ∀ c ∈ name, c ∉ Token.specials) :
    plan limit depth ('%' :: (name ++ ['%'])) = [.call name []] := by
  obtain ⟨pieces, hscans, hfits, hspoken⟩ := exists_namePieces hname
  have htext : Placeholder.nameText ⟨pieces, []⟩ = name := hspoken
  have hp : Placeholder.WellFormed ⟨pieces, []⟩ :=
    ⟨hfits, htext ▸ hne, fun t h => by simp at h, fun s h => absurd h List.not_mem_nil⟩
  have hscan : scan ('%' :: (name ++ ['%'])) = Placeholder.tokens ⟨pieces, []⟩ := by
    rw [Token.scan_cons_special (t := .percent) rfl, hscans '%' .percent [] rfl, Token.scan_nil]
    rfl
  obtain ⟨front, hinner, hplan⟩ := exists_plan_placeholder hp hdepth hscan
  have hfront : front = [] := by
    cases hinner
    rfl
  rw [hplan, hfront, htext]
  rfl

/-- A text without special characters has no tokens that are special. -/
theorem ne_of_notMem_specials (hname : ∀ c ∈ name, c ∉ Token.specials) {t u : Token}
    (ht : t ∈ scan name) {c : Char} (hu : Token.ofChar? c = some u) (hc : c ∈ Token.specials) :
    t ≠ u := by
  rintro rfl
  have hchars : c ∈ t.chars := Token.chars_of_ofChar? hu ▸ List.mem_singleton_self c
  exact hname c (chars_subset_of_mem_scan ht hchars) hc

/-- What an argument keeps of a placeholder that is a name only is the placeholder. -/
theorem argumentTexts_name (hname : ∀ c ∈ name, c ∉ Token.specials) :
    argumentTexts ((.percent :: (scan name ++ [.percent])).map .token) =
      ['%' :: (name ++ ['%'])] := by
  have hcomma : Token.comma ∉ Token.percent :: (scan name ++ [.percent]) := by
    simp only [List.mem_cons, List.mem_append, reduceCtorEq, List.not_mem_nil, or_false, false_or]
    exact fun ht => ne_of_notMem_specials hname ht (c := ',') rfl (by decide) rfl
  have htrim : Token.trim (.percent :: (scan name ++ [.percent])) =
      .percent :: (scan name ++ [.percent]) := by
    rw [Token.trim, List.dropWhile_cons_of_neg (by decide), ← List.cons_append,
      List.rdropWhile_concat_neg _ _ _ (by decide)]
  have hkept : (scan name).flatMap Token.kept = name := by
    conv_rhs => rw [← Token.flatMap_chars_scan name]
    rw [List.flatMap_def, List.flatMap_def]
    refine congrArg List.flatten (List.map_congr_left fun t ht => ?_)
    cases t with
    | escape c =>
      have hback : '\\' ∈ name := chars_subset_of_mem_scan ht List.mem_cons_self
      exact absurd (by decide) (hname '\\' hback)
    | _ => rfl
  rw [argumentTexts, if_neg, List.splitOn_eq_singleton, List.map_singleton, argumentText]
  · have htokens := argumentTextFrom_tokens [] (.percent :: (scan name ++ [.percent])) []
    rw [List.append_nil, List.nil_append] at htokens
    rw [htokens, argumentTextFrom, stretchText, htrim, List.flatMap_cons, List.flatMap_append,
      hkept]
    rfl
  · simpa using hcomma
  · simp [Piece.isBlank, Token.isBlank]

/-- **The plan of a placeholder whose argument is a placeholder that is a name only.** -/
theorem exists_plan_call_name (hdepth : depth ≤ limit) (hne : outer ≠ [])
    (houter : ∀ c ∈ outer, c ∉ Token.specials) (hname : ∀ c ∈ name, c ∉ Token.specials) :
    let arg : Text := '%' :: (name ++ ['%'])
    ∃ span consumed, plan limit depth ('%' :: (outer ++ '(' :: (arg ++ [')', '%']))) =
      [.argument span consumed (if isInert arg then [.copy arg] else plan limit (depth + 1) arg),
        .call outer arg] := by
  intro arg
  obtain ⟨pieces, hscans, hfits, hspoken⟩ := exists_namePieces houter
  let content : List Piece := (.percent :: (scan name ++ [.percent])).map .token
  have hspell : spell content = .percent :: (scan name ++ [.percent]) := spell_map_token _
  have hcontent : Scans arg (spell content) := by
    have hback : .backslash ∉ scan name := fun h =>
      hname '\\' (chars_subset_of_mem_scan h List.mem_cons_self) (by decide)
    rw [hspell]
    exact scans_nil.append_special (t := .percent) rfl
      ((scans_of_notMem hback).append_special (t := .percent) rfl scans_nil)
  have hgroup : (Sequel.group content).WellFormed := by
    refine List.forall_mem_map.mpr fun t ht => ⟨fun hclose => ?_, fun q hmark => ?_⟩
    · obtain rfl := List.mem_singleton.mp hclose
      have hmem : .closeParen ∈ scan name := by simpa using ht
      exact ne_of_notMem_specials hname hmem (c := ')') rfl (by decide) rfl
    · subst hmark
      have hmem : .quote q ∈ scan name := by simpa using ht
      exact ne_of_notMem_specials hname hmem (ofChar?_mark q) (by cases q <;> decide) rfl
  have htext : Placeholder.nameText ⟨pieces, [.group content]⟩ = outer := hspoken
  have hp : Placeholder.WellFormed ⟨pieces, [.group content]⟩ :=
    ⟨hfits, htext ▸ hne, fun t h => by simp at h, List.forall_mem_singleton.mpr hgroup⟩
  have hscan : scan ('%' :: (outer ++ '(' :: (arg ++ [')', '%']))) =
      Placeholder.tokens ⟨pieces, [.group content]⟩ := by
    rw [Token.scan_cons_special (t := .percent) rfl, hscans '(' .openParen _ rfl,
      hcontent ')' .closeParen ['%'] rfl, Token.scan_cons_special (t := .percent) rfl,
      Token.scan_nil, Placeholder.tokens, List.flatMap_singleton, Sequel.tokens]
    simp only [List.cons_append, List.append_assoc, List.nil_append]
  obtain ⟨front, hinner, hplan⟩ := exists_plan_placeholder hp hdepth hscan
  have hargs : Placeholder.argumentTexts ⟨pieces, [.group content]⟩ = [arg] := by
    rw [Placeholder.argumentTexts, List.flatMap_singleton]
    exact argumentTexts_name hname
  have hraw : Placeholder.rawArgs ⟨pieces, [.group content]⟩ = arg := by
    rw [Placeholder.rawArgs, List.flatMap_singleton, Sequel.rawGroup, hcontent.source_eq,
      join_filter_singleton]
  have hignored : Placeholder.ignored ⟨pieces, [.group content]⟩ = [] := rfl
  rw [hargs, hignored] at hinner
  obtain ⟨span, rfl⟩ : ∃ span, front = [.argument arg span] := by
    cases hinner with
    | argument h =>
      cases h
      exact ⟨_, rfl⟩
  rw [hplan, htext, hraw]
  exact ⟨span, _, rfl⟩

theorem result_runSteps_call (oracle : Oracle ε) (name : Text) :
    (runSteps oracle [] [] [.call name []]).result =
      ((oracle [] ⟨name, [], []⟩).mapError (.refused · none)).map fun answer => ([], answer) := by
  rw [runSteps_cons, Step.run]
  simp only [runSteps_nil, Run.map_done, Run.andThen_done, Run.map_map, Run.result_map,
    List.append_nil, Call.run]

/-- **A placeholder that is a name only** comes to what it is answered. -/
theorem outcome_expand_name (limit : Nat) (resolver : Resolver ε) (hne : name ≠ [])
    (hname : ∀ c ∈ name, c ∉ Token.specials) :
    (expand limit resolver ('%' :: (name ++ ['%']))).outcome = resolver ⟨name, [], []⟩ := by
  refine Run.outcome_of_answer ?_
  rw [expand, consult, plan_name (Nat.zero_le limit) hne hname, Run.result_map,
    result_runSteps_call]
  cases resolver ⟨name, [], []⟩ <;> rfl

/-- **A placeholder whose argument is a placeholder that is a name only** comes to the answer to the
call with the answer, or to the error of the call in the argument, as it comes out of there. -/
theorem outcome_expand_call_name (hlimit : 1 ≤ limit) (resolver : Resolver ε) (hne : name ≠ [])
    (hname : ∀ c ∈ name, c ∉ Token.specials) (houter_ne : outer ≠ [])
    (houter : ∀ c ∈ outer, c ∉ Token.specials) :
    let arg : Text := '%' :: (name ++ ['%'])
    ∃ span consumed,
      (expand limit resolver ('%' :: (outer ++ '(' :: (arg ++ [')', '%'])))).outcome =
        ((resolver ⟨name, [], []⟩).mapError (Error.relocate span consumed)).bind fun value =>
          resolver ⟨outer, arg, [value]⟩ := by
  intro arg
  obtain ⟨span, consumed, hplan⟩ : ∃ span consumed,
      plan limit 0 ('%' :: (outer ++ '(' :: (arg ++ [')', '%']))) =
        [.argument span consumed (if isInert arg then [.copy arg] else plan limit 1 arg),
          .call outer arg] :=
    exists_plan_call_name (Nat.zero_le limit) houter_ne houter hname
  refine ⟨span, consumed, ?_⟩
  obtain ⟨-, hok, hfailed⟩ := runSteps_argument_call limit 1 (fun _ => resolver) arg outer arg
    span consumed
  have hinner : (runSteps (fun _ => resolver) [] [] (plan limit 1 arg)).result =
      ((resolver ⟨name, [], []⟩).mapError (.refused · none)).map fun answer => ([], answer) := by
    rw [plan_name hlimit hne hname, result_runSteps_call]
  rw [hinner] at hok hfailed
  rw [Run.outcome, expand, consult, hplan, Run.result_map]
  cases hanswer : resolver ⟨name, [], []⟩ with
  | error e =>
    rw [hanswer] at hfailed
    rw [(hfailed (.refused e none) rfl).2]
    rfl
  | ok value =>
    rw [hanswer] at hok
    rw [(hok ([], value) rfl).2]
    show (((Except.mapError (Failure.refused · none)
      (resolver ⟨outer, arg, [value]⟩)).map _).map _).mapError _ = resolver ⟨outer, arg, [value]⟩
    cases resolver ⟨outer, arg, [value]⟩ <;> rfl

end Template

/-! ### Answers -/

/-- A placeholder as it was written has parentheses if there is text between them. -/
theorem Template.Call.passthrough_eq (call : Template.Call) :
    call.passthrough =
      if call.rawArgs = [] then ['%'] ++ call.name ++ ['%']
      else ['%'] ++ call.name ++ ['('] ++ call.rawArgs ++ [')', '%'] := by
  simp only [passthrough, List.isEmpty_iff, List.cons_append, List.nil_append, List.append_assoc]

namespace Context

open Template Builtin

variable (ctx : Context) {name base ending : Text}

theorem answer_of_lookup (call : Call) {b : Builtin} (h : lookup call.name = some b) :
    ctx.answer call = ctx.apply b call := by
  rw [answer, h]

/-- A known placeholder does not look at the name by which it is called. -/
theorem apply_name (b : Builtin) (name name' rawArgs : Text) (args : List Text) :
    ctx.apply b ⟨name, rawArgs, args⟩ = ctx.apply b ⟨name', rawArgs, args⟩ := by
  cases b with
  | function f => cases f <;> rfl
  | field f => cases f <;> rfl

/-- **The answer to a name with an ending** is that to the name without it, escaped for HTML. -/
theorem answer_ending {b : Builtin} (hbase : lookup base = some b)
    (hending : IsHtmlEnding ending) (hname : name.trim = (base ++ ending).trim) (rawArgs : Text)
    (args : List Text) :
    ctx.answer ⟨name, rawArgs, args⟩ = (ctx.answer ⟨base, rawArgs, args⟩).map Escape.html := by
  obtain ⟨base', htrim, hbase'⟩ := exists_trim_append hbase hending
  rw [htrim] at hname
  have hnone : lookup name = none := lookup_eq_none_of_ending hname hending
  have hsome : lookupHtmlSuffixed name = some b :=
    lookupHtmlSuffixed_eq_some_iff.mpr ⟨base', ending, hname, hbase', hending⟩
  have hanswer : ctx.answer ⟨name, rawArgs, args⟩ =
      (ctx.apply b ⟨name, rawArgs, args⟩).map Escape.html := by
    simp only [answer, hnone, hsome]
  rw [hanswer, ctx.answer_of_lookup ⟨base, rawArgs, args⟩ hbase, ctx.apply_name b name base]

/-- **What a name decides.** A name that ends in a way that asks for HTML, after a known name, is
answered as the known name is, with the answer escaped for HTML and with the same error. So a
placeholder with such a name comes to the same as the function for HTML around the placeholder
without the ending. All other names that are not known are left as they were written, without
parentheses if there is no text between them, and those of fields as well, if only functions are
answered. -/
theorem resolver_by_name (ctx : Context) :
    (∀ (name base ending rawArgs : Text) (args : List Text), (lookup base).isSome →
      IsHtmlEnding ending → name.trim = (base ++ ending).trim →
      ctx.resolver ⟨name, rawArgs, args⟩ =
        (ctx.resolver ⟨base, rawArgs, args⟩).map Escape.html) ∧
    (∀ (limit : Nat) (base ending : Text), 1 ≤ limit → (lookup base).isSome →
      IsHtmlEnding ending →
      (expand limit ctx.resolver ('%' :: (base ++ ending ++ ['%']))).outcome =
        (expand limit ctx.resolver ("%HTML_SAFE(%".toList ++ base ++ "%)%".toList)).outcome) ∧
    (∀ call : Call, lookup call.name = none →
      (∀ base ending, (lookup base).isSome → IsHtmlEnding ending →
        call.name.trim ≠ (base ++ ending).trim) →
      ctx.resolver call = .ok (
        if call.rawArgs = [] then ['%'] ++ call.name ++ ['%']
        else ['%'] ++ call.name ++ ['('] ++ call.rawArgs ++ [')', '%'])) ∧
    ∀ call : Call, (∀ f, lookup call.name ≠ some (.function f)) →
      Function.resolver call = .ok (
        if call.rawArgs = [] then ['%'] ++ call.name ++ ['%']
        else ['%'] ++ call.name ++ ['('] ++ call.rawArgs ++ [')', '%']) := by
  refine ⟨fun name base ending rawArgs args hbase hending hname => ?ending,
    fun limit base ending hlimit hbase hending => ?expanded, fun call hnone hother => ?unknown,
    fun call hother => ?functions⟩
  case ending =>
    obtain ⟨b, hb⟩ := Option.isSome_iff_exists.mp hbase
    rw [resolver, resolver, ctx.answer_ending hb hending hname rawArgs args]
    cases ctx.answer ⟨base, rawArgs, args⟩ <;> rfl
  case expanded =>
    obtain ⟨b, hb⟩ := Option.isSome_iff_exists.mp hbase
    have hne : base ≠ [] := by
      rintro rfl
      exact trim_ne_nil_of_lookup hb rfl
    have hspecials := notMem_specials_of_lookup hb
    have hsafe : lookup "HTML_SAFE".toList = some (.function .htmlSafe) := by decide +kernel
    have hsafe_ne : "HTML_SAFE".toList ≠ [] := by decide
    have hnested : "%HTML_SAFE(%".toList ++ base ++ "%)%".toList =
        '%' :: ("HTML_SAFE".toList ++ '(' :: ('%' :: (base ++ ['%']) ++ [')', '%'])) := by
      simp
    obtain ⟨span, consumed, houtcome⟩ := outcome_expand_call_name hlimit ctx.resolver hne hspecials
      hsafe_ne (notMem_specials_of_lookup hsafe)
    rw [hnested, houtcome,
      outcome_expand_name limit ctx.resolver (List.append_ne_nil_of_left_ne_nil hne ending)
        (List.forall_mem_append.mpr ⟨hspecials, hending.notMem_specials⟩),
      resolver, resolver, ctx.answer_ending hb hending rfl]
    -- an error of the function is none of a template, so that it has no place
    cases ctx.answer ⟨base, [], []⟩ with
    | error err => rfl
    | ok value =>
      show _ = (ctx.answer ⟨"HTML_SAFE".toList, _, [value]⟩).mapError Error.other
      rw [ctx.answer_of_lookup ⟨"HTML_SAFE".toList, _, [value]⟩ hsafe]
      rfl
  case unknown =>
    have hsuffix : lookupHtmlSuffixed call.name = none := by
      rw [Option.eq_none_iff_forall_not_mem]
      intro b hb
      obtain ⟨base, ending, hname, hbase, hending⟩ := lookupHtmlSuffixed_eq_some_iff.mp hb
      refine hother base ending (Option.isSome_of_eq_some hbase) hending ?_
      rw [← hname, Text.trim_trim]
    simp only [resolver, answer, hnone, hsuffix, ← call.passthrough_eq]
    rfl
  case functions =>
    rw [Function.resolver, ← call.passthrough_eq]
    cases hb : lookup call.name with
    | none => rfl
    | some b =>
      cases b with
      | function f => exact absurd hb (hother f)
      | field f => rfl

/-- A name with a Kelvin sign and an ending in mixed case, with white space before it. -/
theorem resolver_by_name_of_kelvin_sign :
    let ctx : Context := ⟨{ url := [], title := [], keywords := some "a & b".toList }, [], ⟨[], []⟩⟩
    let base : Text := "\u212aeywords ".toList
    let ending : Text := "_hTmL".toList
    (lookup base).isSome ∧ IsHtmlEnding ending ∧
      (expand 1 ctx.resolver ('%' :: (base ++ ending ++ ['%']))).outcome = .ok "a &amp; b".toList ∧
      (expand 1 ctx.resolver ("%HTML_SAFE(%".toList ++ base ++ "%)%".toList)).outcome =
        .ok "a &amp; b".toList := by
  intro ctx base ending
  have hbase : (lookup base).isSome := by decide +kernel
  have hending : IsHtmlEnding ending := .inl (by decide)
  have houtcome : (expand 1 ctx.resolver ('%' :: (base ++ ending ++ ['%']))).outcome =
      .ok "a &amp; b".toList := by decide +kernel
  have hexpanded := ctx.resolver_by_name.2.1 1 base ending (Nat.le_refl 1) hbase hending
  exact ⟨hbase, hending, houtcome, hexpanded ▸ houtcome⟩

end Context

end TabFormat
