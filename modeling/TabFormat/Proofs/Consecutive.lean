import TabFormat.Proofs.Groups
import TabFormat.Proofs.Seam

/-!
# Groups of arguments in a row

A placeholder may have several groups of arguments with text between them. To a resolver that does
not look back, each group makes the calls and gives the warnings that it does as the only group of
the placeholder, and the placeholder is called with the arguments of all groups. The text behind a
group never matters: it gives a warning for each of its tokens that is not white space, and nothing
else.

## Main definitions

* `ClosedGroup` : a text that can stand between parentheses.
* `Passed` : a text that can stand behind a group.
* `grouped` : a placeholder with several groups and text behind each of them.
* `ReadAsGroups` : what such a placeholder is read as.

## Main results

* `expand_sequels` : what the sequels of a placeholder contribute to its expansion.
* `expand_grouped` : groups in a row.
-/

namespace TabFormat.Template

open Token (scan source Normal)

variable {ε : Type} {limit depth : Nat}

/-! ### The contributions of sequels -/

variable {resolver : Resolver ε} {name : Text}

/-- Text that is passed over gives warnings only. -/
theorem runSteps_ignored {oracle : Oracle ε} {before : List Call} {ignored : List Text}
    {events : List Event} (h : Inner name [] ignored events) (input : Text) (args : List Text) :
    runSteps oracle before args (events.map (Event.step limit depth input)) =
      ⟨[], ignored.map (⟨name, ·⟩), .ok (args, [])⟩ := by
  generalize hnone : ([] : List Text) = arguments at h
  induction h generalizing before with
  | nil => exact runSteps_nil _ _ _
  | argument => simp at hnone
  | ignored _ ih =>
    rw [List.map_cons, runSteps_cons, Event.step, Step.run, Run.andThen_of_ok rfl, ih hnone]
    rfl

/-- What a sequel yields: its arguments are expanded, or its text is passed over. -/
theorem runSteps_sequel {sequel : Sequel} {events : List Event}
    (h : Inner name sequel.arguments sequel.ignored events) {calls : List Call}
    {warnings : List Ignored} {values : List Text}
    (hx : Expands limit (depth + 1) (fun _ => resolver) [] sequel.arguments calls warnings values)
    (input : Text) (args : List Text) :
    runSteps (fun _ => resolver) [] args (events.map (Event.step limit depth input)) =
      ⟨calls, warnings ++ sequel.ignored.map (⟨name, ·⟩), .ok (args ++ values, [])⟩ := by
  cases sequel with
  | group content =>
    obtain ⟨warnings', hrun, hw⟩ := runSteps_inner h hx input args
    rw [hrun, hw rfl, Sequel.ignored, List.map_nil, List.append_nil]
  | passed t =>
    cases hx
    rw [runSteps_ignored h, List.nil_append, List.append_nil]

/-- What sequels yield, one after another. -/
theorem runSteps_sequels {sequels : List Sequel} {events : List (List Event)}
    (h : InnerEach name sequels events) {calls : Sequel → List Call}
    {warnings : Sequel → List Ignored} {values : Sequel → List Text}
    (hx : ∀ sequel ∈ sequels, Expands limit (depth + 1) (fun _ => resolver) [] sequel.arguments
      (calls sequel) (warnings sequel) (values sequel)) (input : Text) (args : List Text) :
    runSteps (fun _ => resolver) [] args (events.flatten.map (Event.step limit depth input)) =
      ⟨sequels.flatMap calls,
        sequels.flatMap fun sequel => warnings sequel ++ sequel.ignored.map (⟨name, ·⟩),
        .ok (args ++ sequels.flatMap values, [])⟩ := by
  induction h generalizing args with
  | nil =>
    rw [List.flatten_nil, List.map_nil, runSteps_nil, List.flatMap_nil, List.flatMap_nil,
      List.flatMap_nil, List.append_nil]
    rfl
  | cons hfirst _ ih =>
    obtain ⟨hsequel, hrest⟩ := List.forall_mem_cons.mp hx
    rw [List.flatten_cons, List.map_append, runSteps_append, runSteps_sequel hfirst hsequel,
      Run.andThen_of_ok rfl, runSteps_resolver, ih hrest]
    simp only [List.flatMap_cons, List.append_assoc]
    rfl

/-- **What the sequels of a placeholder contribute to its expansion.** -/
theorem expand_sequels {p : Placeholder} (hp : p.WellFormed) {template : Text}
    (hscan : scan template = p.tokens) {calls : Sequel → List Call}
    {warnings : Sequel → List Ignored} {values : Sequel → List Text}
    (hx : ∀ sequel ∈ p.sequels, Expands limit 1 (fun _ => resolver) [] sequel.arguments
      (calls sequel) (warnings sequel) (values sequel)) :
    let call : Call := ⟨p.nameText, p.rawArgs, p.sequels.flatMap values⟩
    let run := expand limit resolver template
    run.calls = p.sequels.flatMap calls ++ [call] ∧
    run.result = (resolver call).mapError (.refused · none) ∧
    run.warnings =
      p.sequels.flatMap fun sequel => warnings sequel ++ sequel.ignored.map (⟨p.nameText, ·⟩) := by
  intro call run
  obtain ⟨events, hread, hinner⟩ := passage_placeholder_each limit 0 hp (Nat.zero_le limit) 0
  have hplan : plan limit 0 template =
      (events.flatten ++ [Event.call p.nameText p.rawArgs]).map (Event.step limit 0 template) := by
    rw [plan_eq, outline, hscan, hread.outlineFrom_eq]
  have hrun : run = (runSteps (fun _ => resolver) [] [] (plan limit 0 template)).map Prod.snd := rfl
  rw [hplan, List.map_append, runSteps_append, runSteps_sequels hinner hx, Run.andThen_of_ok rfl,
    List.nil_append, List.map_singleton, runSteps_cons, Event.step, Step.run] at hrun
  simp only [runSteps_nil, Run.map_done, Run.andThen_done, Run.map_map, List.append_nil] at hrun
  rw [hrun]
  refine ⟨rfl, ?_, List.append_nil _⟩
  rw [Run.result_map, Run.result_map, Call.run]
  cases resolver call <;> rfl

/-! ### Writing groups in a row -/

/-- A text that can stand between parentheses: its quotations are closed, and it has no closing
parenthesis that is neither quoted nor escaped. -/
def ClosedGroup (group : Text) : Prop :=
  ∃ content, scan group = spell content ∧ (Sequel.group content).WellFormed

/-- A text that can stand behind a group. -/
def Passed (text : Text) : Prop :=
  ∀ t ∈ scan text, t ≠ .percent ∧ t ≠ .openParen ∧ t ≠ .backslash

/-- A placeholder with groups of arguments, each with a text behind it. -/
def grouped (name : Text) (parts : List (Text × Text)) : Text :=
  '%' :: (name ++ ((parts.flatMap fun part => '(' :: (part.1 ++ ')' :: part.2)) ++ ['%']))

/-- The warnings for a text behind a group of the placeholder `name`. -/
def passedWarnings (name text : Text) : List Ignored :=
  ((scan text).filter (!·.isBlank)).map fun t => ⟨name, t.chars⟩

/-- The sequels that a group with the given content and the text behind it are read as. -/
def sequelsOf (content : Text → List Piece) (part : Text × Text) : List Sequel :=
  .group (content part.1) :: (scan part.2).map .passed

/-- What a sequel contributes if only groups contribute anything. -/
def Sequel.ofGroup {α : Type} (f : List Piece → List α) : Sequel → List α
  | group content => f content
  | passed _ => []

/-- What a placeholder with groups in a row is read as: the parts of its name, and the contents of
its groups. -/
structure ReadAsGroups (name : Text) (parts : List (Text × Text)) (pieces : List Piece)
    (content : Text → List Piece) : Prop where
  /-- The name is what is scanned. -/
  name_scans : Scans name (spell pieces)
  /-- The name does not end before its end. -/
  name_fits : ∀ piece ∈ pieces, piece.Fits [.percent, .openParen]
  /-- The name stands for itself. -/
  name_spoken : pieces.flatMap Piece.spoken = name
  /-- The name is not empty. -/
  name_ne_nil : name ≠ []
  /-- There is a group. -/
  parts_ne_nil : parts ≠ []
  /-- Each group is what is scanned. -/
  group_scan : ∀ part ∈ parts, scan part.1 = spell (content part.1)
  /-- Each group ends at its closing parenthesis. -/
  group_enclosed : ∀ part ∈ parts, Enclosed (content part.1)
  /-- The texts behind the groups are passed over. -/
  passed : ∀ part ∈ parts, Passed part.2

section Parts

variable {content : Text → List Piece} {parts : List (Text × Text)}

theorem flatMap_ofGroup {α : Type} (f : List Piece → List α) :
    (parts.flatMap (sequelsOf content)).flatMap (Sequel.ofGroup f) =
      parts.flatMap fun part => f (content part.1) := by
  rw [List.flatMap_assoc]
  refine List.flatMap_congr fun part _ => ?_
  rw [sequelsOf, List.flatMap_cons, List.flatMap_map]
  exact (congrArg _ (List.flatMap_eq_nil_iff.mpr fun _ _ => rfl)).trans (List.append_nil _)

/-- Tokens that are passed over give a warning each, except for white space. -/
theorem flatMap_ignored_passed (tokens : List Token) :
    (tokens.map Sequel.passed).flatMap (fun sequel => sequel.ignored.map (⟨name, ·⟩)) =
      (tokens.filter (!·.isBlank)).map fun t => (⟨name, t.chars⟩ : Ignored) := by
  induction tokens with
  | nil => rfl
  | cons t tokens ih =>
    rw [List.map_cons, List.flatMap_cons, ih, List.filter_cons, Sequel.ignored]
    cases t.isBlank <;> rfl

theorem flatMap_warnings (f : List Piece → List Ignored) :
    (parts.flatMap (sequelsOf content)).flatMap
        (fun sequel => sequel.ofGroup f ++ sequel.ignored.map (⟨name, ·⟩)) =
      parts.flatMap fun part => f (content part.1) ++ passedWarnings name part.2 := by
  rw [List.flatMap_assoc]
  refine List.flatMap_congr fun part _ => ?_
  rw [sequelsOf, List.flatMap_cons, passedWarnings, ← flatMap_ignored_passed, List.flatMap_map,
    List.flatMap_map, Sequel.ignored, List.map_nil, List.append_nil]
  rfl

/-- The tokens of groups with texts behind them. -/
theorem scans_parts (hread : ∀ part ∈ parts, scan part.1 = spell (content part.1))
    (henclosed : ∀ part ∈ parts, Enclosed (content part.1))
    (hpassed : ∀ part ∈ parts, Passed part.2) {w : Text} {tokens : List Token}
    (h : Scans w tokens) :
    Scans (w ++ parts.flatMap fun part => '(' :: (part.1 ++ ')' :: part.2))
      (tokens ++ (parts.flatMap (sequelsOf content)).flatMap Sequel.tokens) := by
  induction parts generalizing w tokens with
  | nil =>
    rwa [List.flatMap_nil, List.flatMap_nil, List.flatMap_nil, List.append_nil, List.append_nil]
  | cons part parts ih =>
    obtain ⟨hscan, hread⟩ := List.forall_mem_cons.mp hread
    obtain ⟨hgroup, henclosed⟩ := List.forall_mem_cons.mp henclosed
    obtain ⟨hbehind, hpassed⟩ := List.forall_mem_cons.mp hpassed
    have hfirst : Scans ((w ++ '(' :: part.1) ++ ')' :: part.2)
        ((tokens ++ .openParen :: spell (content part.1)) ++ .closeParen :: scan part.2) := by
      refine (h.append_special rfl ?_).append_special rfl (scans_of_notMem ?_)
      · rw [← hscan]
        exact scans_of_notMem (hscan ▸ hgroup.backslash_notMem)
      · exact fun hmem => (hbehind _ hmem).2.2 rfl
    have htokens : (sequelsOf content part).flatMap Sequel.tokens =
        .openParen :: (spell (content part.1) ++ .closeParen :: scan part.2) := by
      rw [sequelsOf, List.flatMap_cons, List.flatMap_map, Sequel.tokens, List.append_assoc]
      exact congrArg (fun tokens => .openParen :: (spell (content part.1) ++ .closeParen :: tokens))
        (List.flatMap_singleton' _)
    rw [List.flatMap_cons, List.flatMap_cons, List.flatMap_append, htokens]
    simpa only [List.append_assoc, List.cons_append] using ih hread henclosed hpassed hfirst

end Parts

namespace ReadAsGroups

variable {content : Text → List Piece} {parts : List (Text × Text)} {pieces : List Piece}

/-- A group by itself. -/
theorem single (h : ReadAsGroups name parts pieces content) {part : Text × Text}
    (hpart : part ∈ parts) : ReadAsGroups name [(part.1, [])] pieces content where
  name_scans := h.name_scans
  name_fits := h.name_fits
  name_spoken := h.name_spoken
  name_ne_nil := h.name_ne_nil
  parts_ne_nil := List.cons_ne_nil _ _
  group_scan := List.forall_mem_singleton.mpr (h.group_scan part hpart)
  group_enclosed := List.forall_mem_singleton.mpr (h.group_enclosed part hpart)
  passed := by
    refine List.forall_mem_singleton.mpr fun t ht => ?_
    rw [Token.scan_nil] at ht
    exact absurd ht List.not_mem_nil

variable (h : ReadAsGroups name parts pieces content)

include h

/-- The tokens are those of a placeholder. -/
theorem scan_eq :
    scan (grouped name parts) =
      (⟨pieces, parts.flatMap (sequelsOf content)⟩ : Placeholder).tokens := by
  have hall := scans_parts h.group_scan h.group_enclosed h.passed h.name_scans '%' .percent [] rfl
  rw [List.append_assoc, Token.scan_nil, List.append_assoc] at hall
  rw [grouped, Token.scan_cons_special (t := .percent) rfl, hall, Placeholder.tokens]

/-- The placeholder is well-formed. -/
theorem wellFormed : (⟨pieces, parts.flatMap (sequelsOf content)⟩ : Placeholder).WellFormed := by
  refine ⟨h.name_fits, h.name_spoken.trans_ne h.name_ne_nil, ?_, ?_⟩
  · obtain ⟨part, rest, rfl⟩ := List.exists_cons_of_ne_nil h.parts_ne_nil
    simp [sequelsOf]
  · refine List.forall_mem_flatMap.mpr fun part hpart => ?_
    refine List.forall_mem_cons.mpr ⟨(h.group_enclosed part hpart).fits, ?_⟩
    refine List.forall_mem_map.mpr fun t ht => ?_
    obtain ⟨hpercent, hopen, -⟩ := h.passed part hpart t ht
    exact ⟨hpercent, hopen⟩

/-- The source texts of the groups. -/
theorem flatMap_rawGroup :
    (parts.flatMap (sequelsOf content)).flatMap Sequel.rawGroup = parts.map Prod.fst := by
  have hraw : Sequel.rawGroup = Sequel.ofGroup fun content => [source (spell content)] := by
    funext sequel
    cases sequel <;> rfl
  rw [hraw, flatMap_ofGroup, List.map_eq_flatMap]
  refine List.flatMap_congr fun part hpart => ?_
  rw [← h.group_scan part hpart]
  exact congrArg (fun text => [text]) (Token.flatMap_chars_scan part.1)

/-- **What groups in a row contribute to the expansion of their placeholder.** -/
theorem expand_eq {calls : List Piece → List Call} {warnings : List Piece → List Ignored}
    {values : List Piece → List Text}
    (hx : ∀ part ∈ parts, Expands limit 1 (fun _ => resolver) [] (argumentTexts (content part.1))
      (calls (content part.1)) (warnings (content part.1)) (values (content part.1))) :
    let call : Call := ⟨name, Text.join [',', ' '] ((parts.map Prod.fst).filter (!·.isEmpty)),
      parts.flatMap fun part => values (content part.1)⟩
    let run := expand limit resolver (grouped name parts)
    run.calls = (parts.flatMap fun part => calls (content part.1)) ++ [call] ∧
    run.result = (resolver call).mapError (.refused · none) ∧
    run.warnings =
      parts.flatMap fun part => warnings (content part.1) ++ passedWarnings name part.2 := by
  have hsequels : ∀ sequel ∈ parts.flatMap (sequelsOf content),
      Expands limit 1 (fun _ => resolver) [] sequel.arguments (sequel.ofGroup calls)
        (sequel.ofGroup warnings) (sequel.ofGroup values) := by
    refine List.forall_mem_flatMap.mpr fun part hpart => ?_
    exact List.forall_mem_cons.mpr ⟨hx part hpart, List.forall_mem_map.mpr fun t _ => .nil⟩
  have hrun := expand_sequels h.wellFormed h.scan_eq hsequels
  simp only [Placeholder.nameText, Placeholder.rawArgs, h.name_spoken, h.flatMap_rawGroup,
    flatMap_ofGroup, flatMap_warnings] at hrun
  exact hrun

end ReadAsGroups

/-! ### Groups that are accepted by themselves -/

/-- A group that is not closed leaves the reader inside of it. -/
theorem passage_unclosed {pieces content : List Piece}
    (hfits : ∀ piece ∈ pieces, piece.Fits [.percent, .openParen])
    (hname : pieces.flatMap Piece.spoken ≠ []) (hcontent : (Sequel.group content).WellFormed)
    (hdepth : depth ≤ limit) (pos : Nat) :
    ∃ events call group, Passage limit depth .literal pos
      (.percent :: (spell pieces ++ .openParen :: spell content)) events
      (.args call group none) := by
  have hopen := passage_openGroup limit depth hdepth hfits hname pos
  obtain ⟨n, events, group, hread, -⟩ := passage_content limit depth
    ⟨pos, pieces.flatMap Piece.spoken, [], 0⟩ hcontent { start := _ } rfl _
  have hall := hopen.append hread
  simp only [List.cons_append, List.append_assoc, List.nil_append] at hall
  exact ⟨_, _, _, hall⟩

/-- If a placeholder by itself expands, then its arguments expand. -/
theorem expands_of_expand_ok {p : Placeholder} (hp : p.WellFormed) {template out : Text}
    (hscan : scan template = p.tokens) (hok : (expand limit resolver template).result = .ok out) :
    ∃ calls warnings values,
      Expands limit 1 (fun _ => resolver) [] p.argumentTexts calls warnings values := by
  obtain ⟨front, hread, hinner⟩ := passage_placeholder limit 0 hp (Nat.zero_le limit) 0
  obtain ⟨last, hlast, -⟩ := Run.ok_of_map_ok hok
  rw [plan_eq, outline, hscan, hread.outlineFrom_eq] at hlast
  obtain ⟨calls, warnings, values, -, hx, -⟩ := exists_call_of_ok hinner hlast
  exact ⟨calls, warnings, values, hx⟩

section Single

variable {group out : Text}
  (hok : (expand limit resolver (grouped name [(group, [])])).result = .ok out)

include hok

/-- The reader passes over a group that is accepted. -/
theorem passage_of_single_ok :
    ∃ events, Passage limit 0 .literal 0
      (scan ('%' :: (name ++ '(' :: (group ++ ')' :: ['%'])))) events .literal := by
  obtain ⟨last, hlast, -⟩ := Run.ok_of_map_ok hok
  have hread := passage_of_runSteps_ok hlast
  rw [grouped, List.flatMap_singleton] at hread
  simp only [List.cons_append, List.append_assoc, List.nil_append] at hread
  exact ⟨_, hread⟩

/-- The name of a placeholder that is accepted is not empty. -/
theorem name_ne_nil_of_single_ok : name ≠ [] := by
  rintro rfl
  obtain ⟨events, hread⟩ := passage_of_single_ok hok
  rw [List.nil_append, Token.scan_cons_special (t := .percent) rfl,
    Token.scan_cons_special (t := .openParen) rfl] at hread
  cases hread with
  | cons hpercent hrest =>
    rw [State.advance, readLiteral, if_neg (Nat.not_lt_zero _)] at hpercent
    obtain ⟨rfl, -⟩ := Prod.mk.inj (Except.ok.inj hpercent)
    cases hrest with
    | cons hopen _ => simp [State.advance, readName, readBareName] at hopen

/-- A group that is accepted does not end in a lone backslash: the closing parenthesis would be
escaped. -/
theorem enclosed_of_single_ok {pieces : List Piece} (hscans : Scans name (spell pieces))
    (hfits : ∀ piece ∈ pieces, piece.Fits [.percent, .openParen])
    (hname : pieces.flatMap Piece.spoken ≠ []) {content : List Piece}
    (hread : scan group = spell content) (hcontent : (Sequel.group content).WellFormed) :
    Enclosed content := by
  refine ⟨hread ▸ Token.normal_scan group, fun hmem => ?_, hcontent⟩
  have hlast := Token.getLast?_scan_of_backslash_mem group (hread ▸ hmem)
  rw [hread] at hlast
  rcases List.eq_nil_or_concat content with rfl | ⟨front, piece, rfl⟩
  · simp [spell] at hlast
  · rw [List.concat_eq_append] at hread hcontent hlast
    rw [spell_append] at hlast
    obtain ⟨hfront, -⟩ := List.forall_mem_append.mp hcontent
    obtain rfl : piece = .token .backslash := by
      cases piece with
      | token t => simpa [spell, Piece.tokens] using hlast
      | quotation q body =>
        have hquoted : spell [.quotation q body] = (.quote q :: body) ++ [.quote q] :=
          List.flatMap_singleton ..
        rw [hquoted, ← List.append_assoc, List.getLast?_concat] at hlast
        simp at hlast
    -- the rest of the template is inside of the group
    have hescaped :=
      Token.scan_append_of_backslash (hread.trans (spell_append front _)) ')' ['%']
    have hinside : (Sequel.group (front ++ [.token (.escape ')'), .token .percent])).WellFormed :=
      List.forall_mem_append.mpr ⟨hfront, by simp [Piece.Fits]⟩
    obtain ⟨_, call, inner, hunclosed⟩ := passage_unclosed hfits hname hinside (Nat.zero_le limit) 0
    obtain ⟨events, hclosed⟩ := passage_of_single_ok hok
    rw [Token.scan_cons_special (t := .percent) rfl, hscans '(' .openParen _ rfl, hescaped,
      Token.scan_cons_special (t := .percent) rfl, Token.scan_nil] at hclosed
    rw [spell_append] at hunclosed
    exact State.noConfusion (hclosed.last_unique hunclosed)

end Single

/-! ### Groups in a row -/

/-- If each group is accepted by itself, then the groups in a row are a placeholder. -/
theorem exists_readAsGroups (hname : ∀ c ∈ name, mustInName c = false)
    {parts : List (Text × Text)} (hparts : parts ≠ [])
    (hgroups : ∀ part ∈ parts, ClosedGroup part.1) (hpassed : ∀ part ∈ parts, Passed part.2)
    (hok : ∀ part ∈ parts,
      ∃ out, (expand limit resolver (grouped name [(part.1, [])])).result = .ok out) :
    ∃ pieces content, ReadAsGroups name parts pieces content := by
  obtain ⟨pieces, hscans, hfits, hspoken⟩ := (WrittenName.bare (.refl hname)).exists_pieces
  have hne : name ≠ [] := by
    obtain ⟨part, hpart⟩ := List.exists_mem_of_ne_nil parts hparts
    obtain ⟨out, hsingle⟩ := hok part hpart
    exact name_ne_nil_of_single_ok hsingle
  choose! content hcontent using fun (group : Text) (h : ClosedGroup group) => h
  refine ⟨pieces, content, hscans, hfits, hspoken, hne, hparts, fun part hpart => ?_,
    fun part hpart => ?_, hpassed⟩
  · exact (hcontent _ (hgroups part hpart)).1
  · obtain ⟨out, hsingle⟩ := hok part hpart
    obtain ⟨hread, hfit⟩ := hcontent _ (hgroups part hpart)
    exact enclosed_of_single_ok hsingle hscans hfits (hspoken.trans_ne hne) hread hfit

/-- **Several groups of arguments in a row.** Let each group be accepted as the only one of a
placeholder. The placeholder with all of them makes the calls inside of the first group, then those
inside of the second one and so on, and then it is called with the arguments of the first group,
those of the second one and so on; its source text is that of the groups that are not empty. The
text behind each group gives one warning for each of its tokens that is not white space, behind the
warnings of the group, and it changes nothing else. -/
theorem expand_grouped (hname : ∀ c ∈ name, mustInName c = false) {parts : List (Text × Text)}
    (hparts : parts ≠ []) (hgroups : ∀ part ∈ parts, ClosedGroup part.1)
    (hpassed : ∀ part ∈ parts, Passed part.2)
    (hok : ∀ part ∈ parts,
      ∃ out, (expand limit resolver (grouped name [(part.1, [])])).result = .ok out) :
    ∃ (nested : Text → List Call) (args : Text → List Text),
      let single (group : Text) := expand limit resolver (grouped name [(group, [])])
      let whole := expand limit resolver (grouped name parts)
      let call : Call := ⟨name,
        Text.join [',', ' '] ((parts.map Prod.fst).filter (!·.isEmpty)),
        parts.flatMap fun part => args part.1⟩
      (∀ part ∈ parts, (single part.1).calls = nested part.1 ++ [⟨name, part.1, args part.1⟩]) ∧
      whole.calls = (parts.flatMap fun part => nested part.1) ++ [call] ∧
      whole.result = (resolver call).mapError (.refused · none) ∧
      whole.warnings =
        parts.flatMap fun part => (single part.1).warnings ++ passedWarnings name part.2 := by
  obtain ⟨pieces, content, h⟩ := exists_readAsGroups hname hparts hgroups hpassed hok
  -- what the arguments of a group expand to does not depend on the other groups
  have hexpands (inner : List Piece) (hinner : ∃ part ∈ parts, content part.1 = inner) :
      ∃ calls warnings values,
        Expands limit 1 (fun _ => resolver) [] (argumentTexts inner) calls warnings values := by
    obtain ⟨part, hpart, rfl⟩ := hinner
    obtain ⟨out, hsingle⟩ := hok part hpart
    have hone := expands_of_expand_ok (h.single hpart).wellFormed (h.single hpart).scan_eq hsingle
    rwa [Placeholder.argumentTexts, List.flatMap_singleton, sequelsOf, Token.scan_nil,
      List.map_nil, List.flatMap_singleton] at hone
  choose! calls warnings values hx using hexpands
  have hparts' (part) (hpart : part ∈ parts) := hx (content part.1) ⟨part, hpart, rfl⟩
  have hone (part) (hpart : part ∈ parts) :=
    (h.single hpart).expand_eq (List.forall_mem_singleton.mpr (hparts' part hpart))
  obtain ⟨hcalls, hresult, hwarnings⟩ := h.expand_eq hparts'
  refine ⟨fun group => calls (content group), fun group => values (content group),
    fun part hpart => ?_, hcalls, hresult, hwarnings.trans ?_⟩
  · have hpart := (hone part hpart).1
    simp only [List.flatMap_singleton, List.map_singleton, join_filter_singleton] at hpart
    exact hpart
  · refine List.flatMap_congr fun part hpart => congrArg (· ++ _) ?_
    have hpart := (hone part hpart).2.2
    rw [hpart, List.flatMap_singleton, passedWarnings, Token.scan_nil]
    exact (List.append_nil _).symm

/-- A group with a quoted call that passes over text itself, a group of white space, and one with an
escaped parenthesis. -/
theorem expand_grouped_of_quotation :
    let name : Text := ['F']
    let parts : List (Text × Text) :=
      [("'%g(1)?%', ".toList, " x,".toList), (" ".toList, "' y\\%".toList), ("b\\)".toList, [])]
    let resolver : Resolver Empty := .passthrough
    let whole := expand 1 resolver (grouped name parts)
    (∀ c ∈ name, mustInName c = false) ∧ parts ≠ [] ∧ (∀ part ∈ parts, ClosedGroup part.1) ∧
    (∀ part ∈ parts, Passed part.2) ∧
    (∀ part ∈ parts, ∃ out, (expand 1 resolver (grouped name [(part.1, [])])).result = .ok out) ∧
    whole.calls = [⟨['g'], ['1'], [['1']]⟩,
      ⟨name, "'%g(1)?%', ,  , b\\)".toList, ["%g(1)%".toList, [], "b)".toList]⟩] ∧
    whole.result = .ok "%F('%g(1)?%', ,  , b\\))%".toList ∧
    whole.warnings = [⟨['g'], ['?']⟩, ⟨name, ['x']⟩, ⟨name, [',']⟩, ⟨name, "'".toList⟩,
      ⟨name, ['y']⟩, ⟨name, "\\%".toList⟩] := by
  intro name parts resolver whole
  have hname : ∀ c ∈ name, mustInName c = false := List.forall_mem_singleton.mpr (by decide)
  have hparts : parts ≠ [] := List.cons_ne_nil _ _
  have hgroups : ∀ part ∈ parts, ClosedGroup part.1 := by
    have hfirst : scan "'%g(1)?%', ".toList = spell [.quotation .single (scan "%g(1)?%".toList),
        .token .comma, .token (.blank [' '])] := by decide +kernel
    have hblank : scan " ".toList = spell [.token (.blank [' '])] := by decide +kernel
    have hlast : scan "b\\)".toList = spell [.token (.plain ['b']), .token (.escape ')')] := by
      decide +kernel
    have hbody : .quote .single ∉ scan "%g(1)?%".toList := by decide +kernel
    refine List.forall_mem_cons.mpr ⟨⟨_, hfirst, ?_⟩, List.forall_mem_cons.mpr ⟨⟨_, hblank, ?_⟩,
      List.forall_mem_singleton.mpr ⟨_, hlast, ?_⟩⟩⟩
    · simpa [Sequel.WellFormed, Piece.Fits] using hbody
    · simp [Sequel.WellFormed, Piece.Fits]
    · simp [Sequel.WellFormed, Piece.Fits]
  have hpassed : ∀ part ∈ parts, Passed part.2 := by
    unfold Passed
    decide +kernel
  have hok : ∀ part ∈ parts,
      ∃ out, (expand 1 resolver (grouped name [(part.1, [])])).result = .ok out := by
    refine List.forall_mem_cons.mpr ⟨⟨"%F('%g(1)?%', )%".toList, ?_⟩, List.forall_mem_cons.mpr
      ⟨⟨"%F( )%".toList, ?_⟩, List.forall_mem_singleton.mpr ⟨"%F(b\\))%".toList, ?_⟩⟩⟩ <;>
    decide +kernel
  refine ⟨hname, hparts, hgroups, hpassed, hok, ?_⟩
  obtain ⟨nested, args, hsingle, hcalls, hresult, hwarnings⟩ :=
    expand_grouped hname hparts hgroups hpassed hok
  obtain ⟨hfirst, hrest⟩ := List.forall_mem_cons.mp hsingle
  obtain ⟨hblank, hrest⟩ := List.forall_mem_cons.mp hrest
  have hlast := List.forall_mem_singleton.mp hrest
  have hsplit {group : Text} {calls : List Call} {values : List Text} (calls' : List Call)
      (values' : List Text) (h : calls ++ [⟨name, group, values⟩] =
        calls' ++ [⟨name, group, values'⟩]) : calls = calls' ∧ values = values' := by
    simpa using List.append_inj' h rfl
  obtain ⟨hn₁, ha₁⟩ := hsplit [⟨['g'], ['1'], [['1']]⟩] ["%g(1)%".toList, []]
    (hfirst.symm.trans (by decide +kernel))
  obtain ⟨hn₂, ha₂⟩ := hsplit [] [] (hblank.symm.trans (by decide +kernel))
  obtain ⟨hn₃, ha₃⟩ := hsplit [] ["b)".toList] (hlast.symm.trans (by decide +kernel))
  simp only [parts, List.flatMap_cons, List.flatMap_nil, hn₁, hn₂, hn₃, ha₁, ha₂, ha₃] at hcalls
  refine ⟨hcalls.trans ?_, hresult.trans rfl, hwarnings.trans ?_⟩
  · decide +kernel
  · decide +kernel

end TabFormat.Template
