import TabFormat.Proofs.Grammar.Reading

/-!
# What is left to read

A passage of the reader that ends outside of placeholders spells a row of well-formed placeholders
and other tokens. The proof goes backwards from the end: for each state of the reader,
`State.Completes` says which tokens bring what has been begun to its end, and each step of the
reader adds one token in front of them.

## Main definitions

* `Row` : tokens outside of placeholders and well-formed placeholders, one after another.
* `State.Completes` : what is left to read in a state.

## Main results

* `State.completes_advance` : a step of the reader adds one token to what is left to read.
* `row_of_passage` : what the reader passes over is a row.
-/

namespace TabFormat.Template

variable (limit depth : Nat)

/-- Tokens outside of placeholders and well-formed placeholders, one after another: a template
without regard to its arguments. -/
inductive Row : List Token → Prop
  | nil : Row []
  | literal {t : Token} {tokens : List Token} (ht : t ≠ .percent) (h : Row tokens) :
      Row (t :: tokens)
  | placeholder {p : Placeholder} {tokens : List Token} (hdepth : depth ≤ limit)
      (hp : p.WellFormed) (h : Row tokens) : Row (p.tokens ++ tokens)

/-- The end of a quotation, and what comes after it, which may depend on its body. -/
def QuotationThen (q : Quote) (after : List Token → List Token → Prop) (tokens : List Token) :
    Prop :=
  ∃ body rest, tokens = body ++ .quote q :: rest ∧ .quote q ∉ body ∧ after body rest

/-- The end of a placeholder after a group, and a row. -/
def SequelsThen (tokens : List Token) : Prop :=
  ∃ (sequels : List Sequel) (rest : List Token),
    tokens = sequels.flatMap Sequel.tokens ++ .percent :: rest ∧
    (∀ sequel ∈ sequels, sequel.WellFormed) ∧ Row limit depth rest

/-- The end of a group, and of its placeholder, and a row. -/
def GroupThen (tokens : List Token) : Prop :=
  ∃ (content : List Piece) (rest : List Token), tokens = spell content ++ .closeParen :: rest ∧
    (∀ piece ∈ content, piece.Fits [.closeParen]) ∧ SequelsThen limit depth rest

/-- The end of a name that begins with `sofar`, and of its placeholder, and a row. -/
def NameThen (sofar : Text) (tokens : List Token) : Prop :=
  ∃ (name : List Piece) (sequels : List Sequel) (rest : List Token),
    tokens = spell name ++ (sequels.flatMap Sequel.tokens ++ .percent :: rest) ∧
    (∀ piece ∈ name, piece.Fits [.percent, .openParen]) ∧
    sofar ++ name.flatMap Piece.spoken ≠ [] ∧
    (∀ t, sequels.head? ≠ some (.passed t)) ∧
    (∀ sequel ∈ sequels, sequel.WellFormed) ∧ Row limit depth rest

/-- The tokens that complete what has been begun in a state, and a row. -/
def State.Completes : State → List Token → Prop
  | literal => Row limit depth
  | name _ sofar none => NameThen limit depth sofar
  | name _ sofar (some q) =>
    QuotationThen q fun body => NameThen limit depth (sofar ++ body.flatMap Token.spoken)
  | args _ _ none => GroupThen limit depth
  | args _ _ (some q) => QuotationThen q fun _ => GroupThen limit depth
  | afterArgs _ => SequelsThen limit depth

variable {limit depth : Nat} {tokens : List Token}

/-! ### One token more -/

theorem QuotationThen.close {q : Quote} {after : List Token → List Token → Prop}
    (h : after [] tokens) : QuotationThen q after (.quote q :: tokens) :=
  ⟨[], tokens, rfl, List.not_mem_nil, h⟩

theorem QuotationThen.cons {q : Quote} {after : List Token → List Token → Prop} {t : Token}
    (ht : t ≠ .quote q) (h : QuotationThen q (fun body => after (t :: body)) tokens) :
    QuotationThen q after (t :: tokens) := by
  obtain ⟨body, rest, rfl, hb, ha⟩ := h
  exact ⟨t :: body, rest, rfl, List.not_mem_cons_of_ne_of_not_mem ht.symm hb, ha⟩

theorem SequelsThen.close (h : Row limit depth tokens) :
    SequelsThen limit depth (.percent :: tokens) :=
  ⟨[], tokens, rfl, fun _ h => absurd h List.not_mem_nil, h⟩

theorem SequelsThen.cons (sequel : Sequel) (hs : sequel.WellFormed)
    (h : SequelsThen limit depth tokens) : SequelsThen limit depth (sequel.tokens ++ tokens) := by
  obtain ⟨sequels, rest, rfl, hw, hr⟩ := h
  refine ⟨sequel :: sequels, rest, ?_, List.forall_mem_cons.mpr ⟨hs, hw⟩, hr⟩
  rw [List.flatMap_cons, List.append_assoc]

theorem GroupThen.close (h : SequelsThen limit depth tokens) :
    GroupThen limit depth (.closeParen :: tokens) :=
  ⟨[], tokens, rfl, fun _ h => absurd h List.not_mem_nil, h⟩

theorem GroupThen.cons (piece : Piece) (hp : piece.Fits [.closeParen])
    (h : GroupThen limit depth tokens) : GroupThen limit depth (piece.tokens ++ tokens) := by
  obtain ⟨content, rest, rfl, hc, hr⟩ := h
  refine ⟨piece :: content, rest, ?_, List.forall_mem_cons.mpr ⟨hp, hc⟩, hr⟩
  rw [spell_cons, List.append_assoc]

/-- A group is a sequel once its opening parenthesis is put in front. -/
theorem GroupThen.sequel (h : GroupThen limit depth tokens) :
    ∃ content rest, .openParen :: tokens = (Sequel.group content).tokens ++ rest ∧
      (Sequel.group content).WellFormed ∧ SequelsThen limit depth rest := by
  obtain ⟨content, rest, rfl, hc, hr⟩ := h
  refine ⟨content, rest, ?_, hc, hr⟩
  rw [Sequel.tokens, List.cons_append, List.cons_append, List.append_assoc]
  rfl

theorem NameThen.close {sofar : Text} (hs : sofar ≠ []) (h : Row limit depth tokens) :
    NameThen limit depth sofar (.percent :: tokens) := by
  refine ⟨[], [], tokens, rfl, fun _ h => absurd h List.not_mem_nil, ?_, fun t => by simp,
    fun _ h => absurd h List.not_mem_nil, h⟩
  rwa [List.flatMap_nil, List.append_nil]

theorem NameThen.group {sofar : Text} (hs : sofar ≠ []) (h : GroupThen limit depth tokens) :
    NameThen limit depth sofar (.openParen :: tokens) := by
  obtain ⟨content, _, heq, hc, sequels, rest, rfl, hw, hr⟩ := h.sequel
  refine ⟨[], .group content :: sequels, rest, ?_, fun _ h => absurd h List.not_mem_nil, ?_,
    fun t => by simp, List.forall_mem_cons.mpr ⟨hc, hw⟩, hr⟩
  · rw [heq, List.flatMap_cons, List.append_assoc]
    rfl
  · rwa [List.flatMap_nil, List.append_nil]

theorem NameThen.cons {sofar : Text} (piece : Piece) (hp : piece.Fits [.percent, .openParen])
    (h : NameThen limit depth (sofar ++ piece.spoken) tokens) :
    NameThen limit depth sofar (piece.tokens ++ tokens) := by
  obtain ⟨name, sequels, rest, rfl, hn, hne, hhead, hw, hr⟩ := h
  refine ⟨piece :: name, sequels, rest, ?_, List.forall_mem_cons.mpr ⟨hp, hn⟩, ?_, hhead, hw, hr⟩
  · rw [spell_cons, List.append_assoc]
  · rwa [List.flatMap_cons, ← List.append_assoc]

/-- A quotation is a part of a name or of a group once its opening mark is put in front. -/
theorem QuotationThen.piece {q : Quote} {after : List Token → List Token → Prop}
    {stops : List Token} (h : QuotationThen q after tokens) :
    ∃ body rest, .quote q :: tokens = (Piece.quotation q body).tokens ++ rest ∧
      (Piece.quotation q body).Fits stops ∧ after body rest := by
  obtain ⟨body, rest, rfl, hb, ha⟩ := h
  refine ⟨body, rest, ?_, hb, ha⟩
  rw [Piece.tokens, List.cons_append, List.cons_append, List.append_assoc]
  rfl

theorem Row.of_nameThen (hdepth : depth ≤ limit) (h : NameThen limit depth [] tokens) :
    Row limit depth (.percent :: tokens) := by
  obtain ⟨name, sequels, rest, rfl, hn, hne, hhead, hw, hr⟩ := h
  have hp : Placeholder.WellFormed ⟨name, sequels⟩ := ⟨hn, hne, hhead, hw⟩
  have := Row.placeholder hdepth hp hr
  rwa [Placeholder.tokens, List.cons_append, List.append_assoc, List.append_assoc] at this

/-! ### Steps of the reader -/

theorem completes_literal {span : Span} {token : Token} {next : State} {events : List Event}
    (h : readLiteral limit depth span token = .ok (next, events))
    (hn : next.Completes limit depth tokens) : Row limit depth (token :: tokens) := by
  cases token with
  | percent =>
    rw [readLiteral] at h
    split at h
    · simp at h
    · rename_i hdepth
      obtain ⟨rfl, rfl⟩ := Prod.mk.inj (Except.ok.inj h)
      exact .of_nameThen (Nat.not_lt.mp hdepth) hn
  | _ =>
    obtain ⟨rfl, rfl⟩ := Prod.mk.inj (Except.ok.inj h)
    exact .literal (by simp) hn

theorem completes_bareName {start : Nat} {sofar : Text} {span : Span} {token : Token}
    {next : State} {events : List Event}
    (h : readBareName start sofar span token = .ok (next, events))
    (hn : next.Completes limit depth tokens) : NameThen limit depth sofar (token :: tokens) := by
  cases token with
  | percent =>
    rw [readBareName] at h
    split at h
    · simp at h
    · rename_i hs
      obtain ⟨rfl, rfl⟩ := Prod.mk.inj (Except.ok.inj h)
      exact .close (fun hnil => hs (by rw [hnil]; rfl)) hn
  | openParen =>
    rw [readBareName] at h
    split at h
    · simp at h
    · rename_i hs
      obtain ⟨rfl, rfl⟩ := Prod.mk.inj (Except.ok.inj h)
      exact .group (fun hnil => hs (by rw [hnil]; rfl)) hn
  | quote q =>
    obtain ⟨rfl, rfl⟩ := Prod.mk.inj (Except.ok.inj h)
    obtain ⟨body, rest, heq, hb, ha⟩ := QuotationThen.piece hn
    rw [heq]
    exact .cons _ hb ha
  | _ =>
    obtain ⟨rfl, rfl⟩ := Prod.mk.inj (Except.ok.inj h)
    exact NameThen.cons (.token _) ⟨by simp, by simp⟩ hn

theorem completes_quotedName {start : Nat} {sofar : Text} {q : Quote} {token : Token}
    (h : (State.name start (quotedName sofar q token).1 (quotedName sofar q token).2).Completes
      limit depth tokens) :
    (State.name start sofar (some q)).Completes limit depth (token :: tokens) := by
  by_cases ht : token = .quote q
  · subst ht
    rw [quotedName, if_pos rfl] at h
    refine QuotationThen.close ?_
    rwa [List.flatMap_nil, List.append_nil]
  · rw [quotedName_of_ne sofar ht] at h
    refine QuotationThen.cons ht ?_
    simp only [List.flatMap_cons, ← List.append_assoc]
    exact h

theorem completes_bare {call : Opened} {group : Group} {span : Span} {token : Token}
    (h : (readBare call group span token).1.Completes limit depth tokens) :
    GroupThen limit depth (token :: tokens) := by
  cases token with
  | quote q =>
    obtain ⟨body, rest, heq, hb, ha⟩ := QuotationThen.piece h
    rw [heq]
    exact .cons _ hb ha
  | closeParen =>
    rw [readBare] at h
    split at h <;> exact .close h
  | _ => exact GroupThen.cons (.token _) ⟨by simp, by simp⟩ h

theorem completes_quoted {call : Opened} {group : Group} {q : Quote} {token : Token}
    (h : (State.args call (group.readQuoted q token).1 (group.readQuoted q token).2).Completes
      limit depth tokens) :
    QuotationThen q (fun _ => GroupThen limit depth) (token :: tokens) := by
  by_cases ht : token = .quote q
  · subst ht
    rw [Group.readQuoted, if_pos rfl] at h
    exact .close h
  · rw [group.readQuoted_of_ne ht] at h
    exact .cons ht h

theorem completes_afterArgs {call : Opened} {span : Span} {token : Token}
    (h : (readAfterArgs call span token).1.Completes limit depth tokens) :
    SequelsThen limit depth (token :: tokens) := by
  cases token with
  | percent => exact .close h
  | openParen =>
    obtain ⟨content, rest, heq, hc, hr⟩ := GroupThen.sequel h
    rw [heq]
    exact .cons _ hc hr
  | _ => exact SequelsThen.cons (.passed _) ⟨by simp, by simp⟩ h

/-- A step of the reader adds one token to what is left to read. -/
theorem State.completes_advance {state next : State} {span : Span} {token : Token}
    {events : List Event} (h : state.advance limit depth span token = .ok (next, events))
    (hn : next.Completes limit depth tokens) :
    state.Completes limit depth (token :: tokens) := by
  match state with
  | .literal => exact completes_literal h hn
  | .name start sofar none => exact completes_bareName h hn
  | .name start sofar (some q) =>
    obtain ⟨rfl, rfl⟩ := Prod.mk.inj (Except.ok.inj h)
    exact completes_quotedName hn
  | .args call group none =>
    have hnext : (readBare call group span token).1 = next := congrArg Prod.fst (Except.ok.inj h)
    exact completes_bare (hnext ▸ hn)
  | .args call group (some q) =>
    obtain ⟨rfl, rfl⟩ := Prod.mk.inj (Except.ok.inj h)
    exact completes_quoted hn
  | .afterArgs call =>
    have hnext : (readAfterArgs call span token).1 = next := congrArg Prod.fst (Except.ok.inj h)
    exact completes_afterArgs (hnext ▸ hn)

/-- What the reader passes over before it ends outside of placeholders is what was left to read. -/
theorem completes_of_passage {state last : State} {pos : Nat} {events : List Event}
    (h : Passage limit depth state pos tokens events last) (hlast : last = .literal) :
    state.Completes limit depth tokens := by
  induction h with
  | nil =>
    subst hlast
    exact Row.nil
  | cons hstep _ ih => exact State.completes_advance hstep (ih hlast)

/-- **What the reader passes over is a row.** -/
theorem row_of_passage {pos : Nat} {events : List Event}
    (h : Passage limit depth .literal pos tokens events .literal) : Row limit depth tokens :=
  completes_of_passage h rfl

end TabFormat.Template
