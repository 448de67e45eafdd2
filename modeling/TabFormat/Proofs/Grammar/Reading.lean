import TabFormat.Proofs.Grammar.Placeholder
import TabFormat.Proofs.Passage

/-!
# Reading a placeholder

The reader passes over every well-formed placeholder and comes out where it went in, outside of
placeholders. What it yields on the way is what the form of the placeholder says: first the
arguments and the texts that are passed over, in order, then the call.

The reader decides on the fly which white space counts in an argument; `Argument.Holds` is the
invariant that ties its bookkeeping to the trimmed stretches of `argumentText`.

## Main results

* `Argument.text_pushAll` : the argument that is collected is the one that the parts spell.
* `passage_group` : a group yields its arguments.
* `passage_placeholder_each` : a placeholder yields what its sequels yield, and its call.
* `passage_placeholder`, `outlineFrom_placeholder` : a placeholder yields its arguments and its
  call.
-/

namespace TabFormat.Template

/-! ### Collecting an argument -/

theorem kept_of_isBlank {t : Token} (h : t.isBlank = true) : t.kept = t.chars := by
  cases t <;> simp [Token.isBlank] at h
  rfl

theorem source_rtakeWhile (stretch : List Token) :
    Token.source (stretch.rtakeWhile Token.isBlank) =
      (stretch.rtakeWhile Token.isBlank).flatMap Token.kept := by
  rw [Token.source, List.flatMap_def, List.flatMap_def]
  refine congrArg List.flatten (List.map_congr_left fun t ht => ?_)
  exact (kept_of_isBlank (List.mem_rtakeWhile_imp ht)).symm

namespace Argument

/-- The argument after one more part of it has been read. -/
def push (a : Argument) : Piece → Argument
  | .token t => if t.isBlank then a.space t.chars else a.bare t.kept
  | .quotation _ body => (a.openQuote.quoted (body.flatMap Token.kept)).closeQuote

/-- The argument after more parts of it have been read. -/
def pushAll (a : Argument) (pieces : List Piece) : Argument :=
  pieces.foldl push a

theorem started_push (a : Argument) (piece : Piece) :
    (a.push piece).started = (a.started || !piece.isBlank) := by
  cases piece with
  | token t =>
    rw [push, Piece.isBlank]
    cases ht : t.isBlank with
    | true =>
      rw [if_pos rfl, space]
      split <;> simp
    | false => simp [bare]
  | quotation q body => simp [push, closeQuote, quoted, openQuote, Piece.isBlank]

/-- An argument counts as begun exactly if it has a part that is not white space. -/
theorem started_pushAll (a : Argument) (pieces : List Piece) :
    (a.pushAll pieces).started = (a.started || !pieces.all Piece.isBlank) := by
  induction pieces generalizing a with
  | nil => simp [pushAll]
  | cons piece pieces ih =>
    show ((a.push piece).pushAll pieces).started = _
    rw [ih, started_push, List.all_cons, Bool.not_and, Bool.or_assoc]

/-- The argument holds the text `sofar` and after it a stretch without quotations, of which
`stretch` is what follows its first white space: the text lacks the white space at the end of the
stretch, which is kept back. -/
structure Holds (a : Argument) (sofar : Text) (stretch : List Token) : Prop where
  /-- The text so far. -/
  text : a.text = sofar ++ (stretch.rdropWhile Token.isBlank).flatMap Token.kept
  /-- The last part is bare text if the stretch has any. -/
  bareTail : a.bareTail = !stretch.isEmpty
  /-- The white space that is kept back. -/
  pending : stretch ≠ [] → a.pending = Token.source (stretch.rtakeWhile Token.isBlank)
  /-- Bare text begins an argument. -/
  started : stretch ≠ [] → a.started = true

theorem holds_empty : empty.Holds [] [] :=
  ⟨rfl, rfl, fun h => absurd rfl h, fun h => absurd rfl h⟩

theorem Holds.bare {a : Argument} {sofar : Text} {stretch : List Token}
    (h : a.Holds sofar stretch) {t : Token} (ht : t.isBlank = false) :
    (a.bare t.kept).Holds sofar (stretch ++ [t]) := by
  refine ⟨?_, by simp [Argument.bare], fun _ => ?_, fun _ => rfl⟩
  · rw [List.rdropWhile_concat_neg _ _ _ (by simp [ht]), List.flatMap_append, ← List.append_assoc,
      List.flatMap_singleton]
    show (if a.bareTail then a.text ++ a.pending else a.text) ++ t.kept = _
    congr 1
    by_cases hs : stretch = []
    · rw [h.bareTail, h.text, hs]
      rfl
    · rw [h.bareTail, h.text, h.pending hs, List.isEmpty_eq_false_iff.mpr hs, Bool.not_false,
        if_pos rfl, List.append_assoc, source_rtakeWhile, ← List.flatMap_append,
        List.rdropWhile_append_rtakeWhile]
  · rw [List.rtakeWhile_concat_neg _ _ _ (by simp [ht])]
    rfl

theorem Holds.space {a : Argument} {sofar : Text} {stretch : List Token}
    (h : a.Holds sofar stretch) {t : Token} (ht : t.isBlank = true) :
    (a.space t.chars).Holds sofar (if stretch.isEmpty then [] else stretch ++ [t]) := by
  by_cases hs : stretch = []
  · subst hs
    have hb : a.bareTail = false := h.bareTail
    have htext := h.text
    rw [Argument.space]
    split
    · exact ⟨htext, hb, fun h => absurd rfl h, fun h => absurd rfl h⟩
    · exact h
  · rw [Argument.space, if_pos (h.started hs), List.isEmpty_eq_false_iff.mpr hs]
    refine ⟨?_, ?_, fun _ => ?_, fun _ => h.started hs⟩
    · rw [if_neg (by simp), List.rdropWhile_concat_pos _ _ _ ht]
      exact h.text
    · rw [if_neg (by simp)]
      show a.bareTail = _
      rw [h.bareTail, List.isEmpty_eq_false_iff.mpr hs]
      simp
    · rw [if_neg (by simp), List.rtakeWhile_concat_pos _ _ _ ht]
      show a.pending ++ t.chars = _
      rw [h.pending hs, Token.source, Token.source, List.flatMap_append, List.flatMap_singleton]

theorem Holds.quotation {a : Argument} {sofar : Text} {stretch : List Token}
    (h : a.Holds sofar stretch) (q : Quote) (body : List Token) :
    (a.push (.quotation q body)).Holds
      (sofar ++ ((stretch.rdropWhile Token.isBlank).flatMap Token.kept ++
        body.flatMap Token.kept)) [] := by
  refine ⟨?_, rfl, fun h => absurd rfl h, fun h => absurd rfl h⟩
  show a.text ++ body.flatMap Token.kept = _
  rw [h.text, List.rdropWhile_nil, List.flatMap_nil, List.append_nil, List.append_assoc]

theorem text_pushAll_of_holds {a : Argument} (sofar : Text) (stretch : List Token)
    (h : a.Holds sofar (stretch.dropWhile Token.isBlank)) (pieces : List Piece) :
    (a.pushAll pieces).text = sofar ++ argumentTextFrom stretch pieces := by
  induction pieces generalizing a sofar stretch with
  | nil => exact h.text
  | cons piece pieces ih =>
    show ((a.push piece).pushAll pieces).text = _
    cases piece with
    | token t =>
      rw [argumentTextFrom]
      refine ih sofar (stretch ++ [t]) ?_
      rw [push, List.dropWhile_append]
      cases ht : t.isBlank with
      | true =>
        rw [if_pos rfl, List.dropWhile_cons_of_pos ht, List.dropWhile_nil]
        exact h.space ht
      | false =>
        rw [if_neg Bool.false_ne_true, List.dropWhile_cons_of_neg (by simp [ht])]
        have hs := h.bare ht
        by_cases he : stretch.dropWhile Token.isBlank = []
        · rwa [he] at hs ⊢
        · rwa [if_neg (by simpa using he)]
    | quotation q body =>
      rw [argumentTextFrom, ih _ [] (h.quotation q body), stretchText, Token.trim]
      simp only [List.append_assoc]

/-- The argument that is collected is the one that its parts spell. -/
theorem text_pushAll (pieces : List Piece) : (empty.pushAll pieces).text = argumentText pieces :=
  text_pushAll_of_holds [] [] holds_empty pieces

end Argument

/-! ### Groups of arguments -/

variable (limit depth : Nat)

/-- The group after some tokens more, with the argument as they leave it. -/
def Group.after (group : Group) (tokens : List Token) (argument : Argument) : Group :=
  { group with raw := group.raw ++ Token.source tokens, argument }

theorem Group.extend_eq_after (group : Group) (t : Token) (a : Argument) :
    group.extend t a = group.after [t] a := by
  rw [extend, after, Token.source, List.flatMap_singleton]

theorem Group.after_after (group : Group) (ts us : List Token) (a b : Argument) :
    (group.after ts a).after us b = group.after (ts ++ us) b := by
  simp only [after, Token.source_append, List.append_assoc]

theorem Group.after_nil (group : Group) : group.after [] group.argument = group := by
  simp only [after, Token.source, List.flatMap_nil, List.append_nil]

/-- Inside a quotation, every token but the mark that ends it is text. -/
theorem Group.readQuoted_of_ne (group : Group) {q : Quote} {t : Token} (h : t ≠ .quote q) :
    group.readQuoted q t = (group.extend t (group.argument.quoted t.kept), some q) := by
  cases t with
  | quote q' =>
    have hq : q' ≠ q := fun hq => h (congrArg Token.quote hq)
    rw [readQuoted, if_neg hq]
    rfl
  | _ => rfl

/-- Outside of quotations, a token that ends neither the argument nor the group is part of the
argument. -/
theorem readBare_of_ne (call : Opened) (group : Group) (span : Span) {t : Token}
    (hq : ∀ q, t ≠ .quote q) (hc : t ≠ .comma) (hp : t ≠ .closeParen) :
    readBare call group span t =
      (.args call (group.extend t (group.argument.push (.token t))) none, []) := by
  cases t with
  | quote q => exact absurd rfl (hq q)
  | comma => exact absurd rfl hc
  | closeParen => exact absurd rfl hp
  | _ => rfl

theorem passage_quoted (call : Opened) (q : Quote) {body : List Token} (h : .quote q ∉ body)
    (group : Group) (pos : Nat) :
    Passage limit depth (.args call group (some q)) pos body []
      (.args call (group.after body (group.argument.quoted (body.flatMap Token.kept)))
        (some q)) := by
  induction body generalizing group pos with
  | nil =>
    have : group.argument.quoted [] = group.argument := by
      rw [Argument.quoted, List.append_nil]
    rw [List.flatMap_nil, this, group.after_nil]
    exact .nil
  | cons t body ih =>
    let a := group.argument.quoted t.kept
    have hrest : Passage limit depth (.args call (group.extend t a) (some q)) (pos + t.width)
        body [] (.args call ((group.extend t a).after body (a.quoted (body.flatMap Token.kept)))
          (some q)) :=
      ih (List.not_mem_of_not_mem_cons h) (group.extend t a) (pos + t.width)
    have ha : a.quoted (body.flatMap Token.kept) =
        group.argument.quoted ((t :: body).flatMap Token.kept) := by
      simp only [a, Argument.quoted, List.flatMap_cons, List.append_assoc]
    rw [ha, group.extend_eq_after, Group.after_after] at hrest
    refine hrest.after_quiet ?_
    rw [State.advance, readArgs, group.readQuoted_of_ne (List.ne_of_not_mem_cons h).symm,
      group.extend_eq_after]

theorem passage_piece (call : Opened) {piece : Piece} (h : piece.Fits [.closeParen])
    (hc : piece ≠ .token .comma) (group : Group) (pos : Nat) :
    Passage limit depth (.args call group none) pos piece.tokens []
      (.args call (group.after piece.tokens (group.argument.push piece)) none) := by
  cases piece with
  | token t =>
    refine .single ?_
    rw [State.advance, readArgs, readBare_of_ne call group _ h.2
      (fun ht => hc (congrArg Piece.token ht)) (List.ne_of_not_mem_cons h.1),
      group.extend_eq_after]
    rfl
  | quotation q body =>
    have hopen : Passage limit depth (.args call group none) pos [.quote q] []
        (.args call (group.after [.quote q] group.argument.openQuote) (some q)) :=
      .single (by rw [State.advance, readArgs, readBare, group.extend_eq_after])
    have hbody := hopen.append (passage_quoted limit depth call q h _ _)
    rw [Group.after_after] at hbody
    refine hbody.quiet_snoc ?_
    rw [State.advance, readArgs, Group.readQuoted, if_pos rfl, Group.extend_eq_after,
      Group.after_after]
    rfl

theorem passage_pieces (call : Opened) {pieces : List Piece}
    (h : ∀ piece ∈ pieces, piece.Fits [.closeParen]) (hc : .token .comma ∉ pieces)
    (group : Group) (pos : Nat) :
    Passage limit depth (.args call group none) pos (spell pieces) []
      (.args call (group.after (spell pieces) (group.argument.pushAll pieces)) none) := by
  induction pieces generalizing group pos with
  | nil =>
    show Passage limit depth _ pos [] [] (.args call (group.after [] group.argument) none)
    rw [group.after_nil]
    exact .nil
  | cons piece pieces ih =>
    have hpiece := passage_piece limit depth call (h _ List.mem_cons_self)
      (List.ne_of_not_mem_cons hc).symm group pos
    have hrest := hpiece.append (ih (fun p hp => h p (List.mem_cons_of_mem _ hp))
      (List.not_mem_of_not_mem_cons hc) _ _)
    rwa [Group.after_after] at hrest

/-- The text of an argument that an event finishes. -/
def Event.argumentText? : Event → Option Text
  | argument text _ => some text
  | _ => none

/-- The group after an argument and a comma. -/
def Group.next (group : Group) (tokens : List Token) : Group where
  start := group.start
  raw := group.raw ++ Token.source (tokens ++ [.comma])
  argCount := group.argCount + 1

theorem passage_comma (call : Opened) {pieces : List Piece}
    (h : ∀ piece ∈ pieces, piece.Fits [.closeParen]) (hc : .token .comma ∉ pieces)
    (group : Group) (hg : group.argument = .empty) (pos : Nat) :
    Passage limit depth (.args call group none) pos (spell pieces ++ [.comma])
      [.argument (argumentText pieces) ⟨call.start, pos + Token.totalWidth (spell pieces)⟩]
      (.args call.addArgument (group.next (spell pieces)) none) := by
  refine (passage_pieces limit depth call h hc group pos).quiet_snoc ?_
  rw [State.advance, readArgs, readBare, hg, ← Argument.text_pushAll, Group.extend_eq_after,
    Group.after_after]
  rfl

/-- Parts of a group up to its closing parenthesis: each comma finishes an argument, and the last
one is left. The group has an argument exactly if it is not all white space. -/
theorem passage_content (call : Opened) {content : List Piece}
    (h : ∀ piece ∈ content, piece.Fits [.closeParen]) (group : Group)
    (hg : group.argument = .empty) (pos : Nat) :
    ∃ n events group', Passage limit depth (.args call group none) pos (spell content) events
        (.args { call with argCount := n } group' none) ∧
      events.map Event.argumentText? ++ [some group'.argument.text] =
        (content.splitOn (.token .comma)).map (some ∘ argumentText) ∧
      group'.raw = group.raw ++ Token.source (spell content) ∧
      group.argCount ≤ group'.argCount ∧
      (group'.argument.started || decide (group.argCount < group'.argCount)) =
        !content.all Piece.isBlank := by
  induction hn : content.length using Nat.strongRecOn generalizing content call group pos with
  | ind n ih =>
    by_cases hc : .token .comma ∈ content
    · obtain ⟨first, rest, rfl, hfirst⟩ := List.eq_append_cons_of_mem hc
      have hlen : rest.length < n := by
        rw [← hn, List.length_append, List.length_cons]
        omega
      have hread := passage_comma limit depth call
        (fun p hp => h p (List.mem_append_left _ hp)) hfirst group hg pos
      obtain ⟨m, events, group', hrest, htexts, hraw, hle, -⟩ := ih _ hlen call.addArgument
        (fun p hp => h p (List.mem_append_right _ (List.mem_cons_of_mem _ hp)))
        (group.next (spell first)) rfl _ rfl
      have hspell : spell (first ++ .token .comma :: rest) =
          (spell first ++ [.comma]) ++ spell rest := by
        rw [spell_append, spell_cons, Piece.tokens, List.append_assoc]
      refine ⟨m, _, group', hspell ▸ hread.append hrest, ?_, ?_, ?_, ?_⟩
      · rw [List.splitOn_append_cons_self_of_not_mem hfirst, List.map_append, List.append_assoc,
          htexts]
        rfl
      · rw [hraw, hspell, Group.next, Token.source_append _ (spell rest), List.append_assoc]
      · exact Nat.le_trans (Nat.le_succ _) hle
      · have hlt : group.argCount < group'.argCount := hle
        rw [decide_eq_true hlt, Bool.or_true, List.all_append, List.all_cons]
        simp [Piece.isBlank, Token.isBlank]
    · refine ⟨call.argCount, [], _, passage_pieces limit depth call h hc group pos, ?_, rfl,
        Nat.le_refl _, ?_⟩
      · rw [List.splitOn_eq_singleton hc]
        show [some (group.argument.pushAll content).text] = _
        rw [hg, Argument.text_pushAll]
        rfl
      · show ((group.argument.pushAll content).started ||
          decide (group.argCount < group.argCount)) = _
        rw [hg, Argument.started_pushAll, decide_eq_false (Nat.lt_irrefl _), Bool.or_false]
        rfl

/-- A closing parenthesis finishes the last argument if the group has any. -/
theorem advance_closeParen (call : Opened) (group : Group) (span : Span) :
    ∃ n, (State.args call group none).advance limit depth span .closeParen =
      .ok (.afterArgs { call with groups := call.groups ++ [group.raw], argCount := n },
        if group.argument.started || decide (0 < group.argCount) then
          [.argument group.argument.text ⟨call.start, span.start⟩] else []) := by
  rw [State.advance, readArgs, readBare]
  split
  · exact ⟨call.argCount + 1, rfl⟩
  · exact ⟨call.argCount, rfl⟩

/-- **A group yields its arguments.** -/
theorem passage_group (call : Opened) {content : List Piece}
    (h : ∀ piece ∈ content, piece.Fits [.closeParen]) (start pos : Nat) :
    ∃ n events, Passage limit depth (call.openGroup start) pos (spell content ++ [.closeParen])
        events (.afterArgs { call with
          groups := call.groups ++ [Token.source (spell content)], argCount := n }) ∧
      events.map Event.argumentText? = (argumentTexts content).map some := by
  obtain ⟨m, events, group', hread, htexts, hraw, -, hbegun⟩ :=
    passage_content limit depth call h { start } rfl pos
  obtain ⟨n, hclose⟩ := advance_closeParen limit depth { call with argCount := m } group' ⟨_, _⟩
  have hlast := hread.snoc hclose
  rw [hraw, List.nil_append, hbegun] at hlast
  refine ⟨n, _, hlast, ?_⟩
  rw [List.map_append, argumentTexts]
  cases hb : content.all Piece.isBlank with
  | true =>
    have hc : .token .comma ∉ content := fun hc => by
      simpa [Piece.isBlank, Token.isBlank] using List.all_eq_true.mp hb _ hc
    rw [List.splitOn_eq_singleton hc] at htexts
    have hnil : events.map Event.argumentText? = [] := by
      simpa using congrArg List.dropLast htexts
    rw [hnil]
    rfl
  | false =>
    rw [Bool.not_false, if_pos rfl, if_neg Bool.false_ne_true, List.map_map]
    exact htexts

/-! ### Names -/

/-- Inside a quotation, every token but the mark that ends it belongs to the name. -/
theorem quotedName_of_ne (sofar : Text) {q : Quote} {t : Token} (h : t ≠ .quote q) :
    quotedName sofar q t = (sofar ++ t.spoken, some q) := by
  cases t with
  | quote q' =>
    have hq : q' ≠ q := fun hq => h (congrArg Token.quote hq)
    rw [quotedName, if_neg hq]
    rfl
  | _ => rfl

theorem passage_quotedName (start : Nat) (q : Quote) {body : List Token} (h : .quote q ∉ body)
    (sofar : Text) (pos : Nat) :
    Passage limit depth (.name start sofar (some q)) pos body []
      (.name start (sofar ++ body.flatMap Token.spoken) (some q)) := by
  induction body generalizing sofar pos with
  | nil =>
    rw [List.flatMap_nil, List.append_nil]
    exact .nil
  | cons t body ih =>
    have hrest := ih (List.not_mem_of_not_mem_cons h) (sofar ++ t.spoken) (pos + t.width)
    rw [List.append_assoc, ← List.flatMap_cons] at hrest
    refine hrest.after_quiet ?_
    rw [State.advance, readName, quotedName_of_ne sofar (List.ne_of_not_mem_cons h).symm]

theorem passage_namePiece (start : Nat) {piece : Piece} (h : piece.Fits [.percent, .openParen])
    (sofar : Text) (pos : Nat) :
    Passage limit depth (.name start sofar none) pos piece.tokens []
      (.name start (sofar ++ piece.spoken) none) := by
  cases piece with
  | token t =>
    refine .single ?_
    rw [State.advance, readName]
    cases t with
    | percent => exact absurd List.mem_cons_self h.1
    | openParen => exact absurd (List.mem_cons_of_mem _ List.mem_cons_self) h.1
    | quote q => exact absurd rfl (h.2 q)
    | _ => rfl
  | quotation q body =>
    have hopen : Passage limit depth (.name start sofar none) pos [.quote q] []
        (.name start sofar (some q)) := .single rfl
    refine (hopen.append (passage_quotedName limit depth start q h sofar _)).quiet_snoc ?_
    rw [State.advance, readName, quotedName, if_pos rfl]
    rfl

theorem passage_name (start : Nat) {name : List Piece}
    (h : ∀ piece ∈ name, piece.Fits [.percent, .openParen]) (sofar : Text) (pos : Nat) :
    Passage limit depth (.name start sofar none) pos (spell name) []
      (.name start (sofar ++ name.flatMap Piece.spoken) none) := by
  induction name generalizing sofar pos with
  | nil =>
    rw [List.flatMap_nil, List.append_nil]
    exact .nil
  | cons piece name ih =>
    have hpiece := passage_namePiece limit depth start (h _ List.mem_cons_self) sofar pos
    have hrest := hpiece.append (ih (fun p hp => h p (List.mem_cons_of_mem _ hp)) _ _)
    rwa [List.append_assoc, ← List.flatMap_cons] at hrest

/-! ### Into a placeholder -/

/-- A percent sign begins a placeholder. -/
theorem passage_percent (hdepth : depth ≤ limit) (pos : Nat) :
    Passage limit depth .literal pos [.percent] [] (.name pos [] none) := by
  refine .single ?_
  rw [State.advance, readLiteral, if_neg (Nat.not_lt.mpr hdepth)]

/-- An opening parenthesis ends a name. -/
theorem passage_openParen (start : Nat) {name : Text} (hname : name ≠ []) (pos : Nat) :
    Passage limit depth (.name start name none) pos [.openParen] []
      (({ start, name } : Opened).openGroup (pos + Token.openParen.width)) := by
  refine .single ?_
  rw [State.advance, readName, readBareName, List.isEmpty_eq_false_iff.mpr hname]
  rfl

/-- The beginning of a placeholder, up to the opening parenthesis of its first group. -/
theorem passage_openGroup (hdepth : depth ≤ limit) {name : List Piece}
    (hfits : ∀ piece ∈ name, piece.Fits [.percent, .openParen])
    (hname : name.flatMap Piece.spoken ≠ []) (pos : Nat) :
    Passage limit depth .literal pos (([.percent] ++ spell name) ++ [.openParen]) []
      (({ start := pos, name := name.flatMap Piece.spoken } : Opened).openGroup
        (pos + Token.totalWidth ([.percent] ++ spell name) + Token.openParen.width)) :=
  ((passage_percent limit depth hdepth pos).append
    (passage_name limit depth pos hfits [] _)).append
    (passage_openParen limit depth pos hname _)

/-! ### What follows a name -/

/-- Events that finish arguments or pass over text of the placeholder `name`: which arguments, and
which texts. -/
inductive Inner (name : Text) : List Text → List Text → List Event → Prop
  | nil : Inner name [] [] []
  | argument {text span arguments ignored events} (h : Inner name arguments ignored events) :
      Inner name (text :: arguments) ignored (.argument text span :: events)
  | ignored {text arguments ignored events} (h : Inner name arguments ignored events) :
      Inner name arguments (text :: ignored) (.ignored name text :: events)

theorem Inner.append {name : Text} {as as' is is' : List Text} {events events' : List Event}
    (h : Inner name as is events) (h' : Inner name as' is' events') :
    Inner name (as ++ as') (is ++ is') (events ++ events') := by
  induction h with
  | nil => exact h'
  | argument _ ih => exact .argument ih
  | ignored _ ih => exact .ignored ih

theorem Inner.exists_span {name : Text} {arguments ignored : List Text} {events : List Event}
    (h : Inner name arguments ignored events) {text : Text} (ht : text ∈ arguments) :
    ∃ span, .argument text span ∈ events := by
  induction h with
  | nil => simp at ht
  | @argument text' span _ _ _ _ ih =>
    rcases List.mem_cons.mp ht with rfl | ht
    · exact ⟨span, List.mem_cons_self⟩
    · obtain ⟨span', h⟩ := ih ht
      exact ⟨span', List.mem_cons_of_mem _ h⟩
  | ignored _ ih =>
    obtain ⟨span, h⟩ := ih ht
    exact ⟨span, List.mem_cons_of_mem _ h⟩

theorem inner_of_map_eq (name : Text) {texts : List Text} {events : List Event}
    (h : events.map Event.argumentText? = texts.map some) : Inner name texts [] events := by
  induction events generalizing texts with
  | nil =>
    cases texts with
    | nil => exact .nil
    | cons text texts => simp at h
  | cons e events ih =>
    cases texts with
    | nil => simp at h
    | cons text texts =>
      obtain ⟨he, hrest⟩ := List.cons.inj h
      cases e with
      | argument text' span =>
        obtain rfl := Option.some.inj he
        exact .argument (ih hrest)
      | _ => simp [Event.argumentText?] at he

/-- Events of the sequels of the placeholder `name`, those of one after those of another. -/
def InnerEach (name : Text) (sequels : List Sequel) (events : List (List Event)) : Prop :=
  List.Forall₂ (fun sequel events => Inner name sequel.arguments sequel.ignored events)
    sequels events

theorem InnerEach.inner {name : Text} {sequels : List Sequel} {events : List (List Event)}
    (h : InnerEach name sequels events) :
    Inner name (sequels.flatMap Sequel.arguments) (sequels.flatMap Sequel.ignored)
      events.flatten := by
  induction h with
  | nil => exact .nil
  | cons hfirst _ ih => exact hfirst.append ih

theorem passage_sequel (call : Opened) {sequel : Sequel} (h : sequel.WellFormed) (pos : Nat) :
    ∃ n events, Passage limit depth (.afterArgs call) pos sequel.tokens events
        (.afterArgs { call with groups := call.groups ++ sequel.rawGroup, argCount := n }) ∧
      Inner call.name sequel.arguments sequel.ignored events := by
  cases sequel with
  | group content =>
    have hopen : Passage limit depth (.afterArgs call) pos [.openParen] []
        (call.openGroup (pos + 1)) := .single rfl
    obtain ⟨n, events, hread, htexts⟩ := passage_group limit depth call h (pos + 1) (pos + 1)
    exact ⟨n, events, hopen.append hread, inner_of_map_eq call.name htexts⟩
  | passed t =>
    have hcall : ({ call with
        groups := call.groups ++ (Sequel.passed t).rawGroup
        argCount := call.argCount } : Opened) = call := by
      rw [Sequel.rawGroup, List.append_nil]
    refine ⟨call.argCount, if t.isBlank then [] else [.ignored call.name t.chars], ?_, ?_⟩
    · rw [hcall]
      refine .single ?_
      rw [State.advance, readAfterArgs.eq_def]
      cases t with
      | percent => exact absurd rfl h.1
      | openParen => exact absurd rfl h.2
      | _ => rfl
    · rw [Sequel.ignored]
      cases t.isBlank with
      | true => exact .nil
      | false => exact .ignored .nil

theorem passage_sequels (call : Opened) {sequels : List Sequel}
    (h : ∀ sequel ∈ sequels, sequel.WellFormed) (pos : Nat) :
    ∃ n events, Passage limit depth (.afterArgs call) pos (sequels.flatMap Sequel.tokens)
        events.flatten (.afterArgs { call with
          groups := call.groups ++ sequels.flatMap Sequel.rawGroup, argCount := n }) ∧
      InnerEach call.name sequels events := by
  induction sequels generalizing call pos with
  | nil =>
    refine ⟨call.argCount, [], ?_, .nil⟩
    simp only [List.flatMap_nil, List.append_nil]
    exact .nil
  | cons sequel sequels ih =>
    obtain ⟨m, events, hread, hinner⟩ :=
      passage_sequel limit depth call (h _ List.mem_cons_self) pos
    obtain ⟨n, events', hread', hinner'⟩ := ih
      { call with groups := call.groups ++ sequel.rawGroup, argCount := m }
      (fun s hs => h s (List.mem_cons_of_mem _ hs)) _
    refine ⟨n, events :: events', ?_, .cons hinner hinner'⟩
    have hall := hread.append hread'
    rwa [List.append_assoc] at hall

/-- The rest of a placeholder after its name. -/
theorem passage_sequels_percent (start : Nat) {name : Text} (hname : name ≠ [])
    {sequels : List Sequel} (hhead : ∀ t, sequels.head? ≠ some (.passed t))
    (h : ∀ sequel ∈ sequels, sequel.WellFormed) (pos : Nat) :
    ∃ events, Passage limit depth (.name start name none) pos
        (sequels.flatMap Sequel.tokens ++ [.percent])
        (events.flatten ++ [.call name (Text.join [',', ' ']
          ((sequels.flatMap Sequel.rawGroup).filter (!·.isEmpty)))]) .literal ∧
      InnerEach name sequels events := by
  cases sequels with
  | nil =>
    refine ⟨[], .single ?_, .nil⟩
    rw [State.advance, readName, readBareName, List.isEmpty_eq_false_iff.mpr hname]
    rfl
  | cons sequel sequels =>
    cases sequel with
    | passed t => exact absurd rfl (hhead t)
    | group content =>
      have hopen := passage_openParen limit depth start hname pos
      obtain ⟨m, events, hgroup, htexts⟩ := passage_group limit depth { start, name }
        (h _ List.mem_cons_self) (pos + Token.openParen.width) _
      obtain ⟨n, events', hrest, hinner⟩ := passage_sequels limit depth
        { start, name, groups := [] ++ [Token.source (spell content)], argCount := m }
        (fun s hs => h s (List.mem_cons_of_mem _ hs)) _
      refine ⟨events :: events', ?_, .cons (inner_of_map_eq name htexts) hinner⟩
      exact ((hopen.append hgroup).append hrest).snoc (by rw [State.advance, readAfterArgs]; rfl)

/-! ### Templates -/

/-- A token outside of placeholders is copied. -/
theorem outlineFrom_cons_literal {t : Token} (ht : t ≠ .percent) (pos : Nat)
    (rest : List Token) :
    outlineFrom limit depth .literal pos (t :: rest) =
      .copy t.spoken :: outlineFrom limit depth .literal (pos + t.width) rest := by
  cases t with
  | percent => exact absurd rfl ht
  | _ => rfl

/-- **A placeholder yields what its sequels yield, and its call.** -/
theorem passage_placeholder_each {p : Placeholder} (h : p.WellFormed) (hdepth : depth ≤ limit)
    (pos : Nat) :
    ∃ events, Passage limit depth .literal pos p.tokens
        (events.flatten ++ [.call p.nameText p.rawArgs]) .literal ∧
      InnerEach p.nameText p.sequels events := by
  have hname := (passage_percent limit depth hdepth pos).append
    (passage_name limit depth pos h.name_fits [] _)
  obtain ⟨events, hrest, hinner⟩ := passage_sequels_percent limit depth pos h.nameText_ne_nil
    h.head_group h.sequels_wellFormed _
  exact ⟨events, hname.append hrest, hinner⟩

/-- **A placeholder yields its arguments and its call.** -/
theorem passage_placeholder {p : Placeholder} (h : p.WellFormed) (hdepth : depth ≤ limit)
    (pos : Nat) :
    ∃ front, Passage limit depth .literal pos p.tokens (front ++ [.call p.nameText p.rawArgs])
        .literal ∧
      Inner p.nameText p.argumentTexts p.ignored front := by
  obtain ⟨events, hread, hinner⟩ := passage_placeholder_each limit depth h hdepth pos
  exact ⟨events.flatten, hread, hinner.inner⟩

/-- The outline of a text that begins with a placeholder. -/
theorem outlineFrom_placeholder {p : Placeholder} (h : p.WellFormed) (hdepth : depth ≤ limit)
    (pos : Nat) :
    ∃ front, Inner p.nameText p.argumentTexts p.ignored front ∧ ∀ rest,
      outlineFrom limit depth .literal pos (p.tokens ++ rest) =
        front ++ .call p.nameText p.rawArgs ::
          outlineFrom limit depth .literal (pos + Token.totalWidth p.tokens) rest := by
  obtain ⟨front, hread, hinner⟩ := passage_placeholder limit depth h hdepth pos
  refine ⟨front, hinner, fun rest => ?_⟩
  rw [hread.outlineFrom_append, List.append_assoc, List.singleton_append]

end TabFormat.Template
