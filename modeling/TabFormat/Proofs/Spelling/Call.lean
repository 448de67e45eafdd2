import TabFormat.Proofs.Arguments
import TabFormat.Proofs.Spelling.Written

/-!
# Writing a call

Every name that is not empty and every list of arguments can be written as a placeholder, in many
ways: the name and each argument may stand in quotation marks of any kind or without any, more
characters than necessary may be escaped, and white space may surround the arguments. Whichever way
is taken, expanding the placeholder makes this one call and returns its answer.

## Main definitions

* `WrittenName`, `WrittenArgument`, `WrittenGroup` : the parts of a written call.
* `WrittenCall` : the ways to write a call.
* `Scans` : the tokens of a text before a special character.

## Main results

* `WrittenCall.exists_placeholder` : a written call is a placeholder that says what was written.
* `consult_writtenCall` : a written call expands to its answer.
-/

namespace TabFormat

namespace Template

open Token (scan ofChar? fuse)

/-! ### The ways to write a call -/

/-- Whether the character is a quotation mark. -/
def isMark (c : Char) : Bool :=
  c == Quote.single.char || c == Quote.double.char || c == Quote.back.char

/-- The characters that need a backslash in a name without quotation marks. -/
def mustInName (c : Char) : Bool :=
  c == '%' || c == '(' || c == '\\' || isMark c

/-- The characters that need a backslash in a name between quotation marks. -/
def mustInQuotedName (q : Quote) (c : Char) : Bool :=
  c == '\\' || c == q.char

/-- The characters that need a backslash in an argument without quotation marks. -/
def mustInArgument (c : Char) : Bool :=
  c == '%' || c == '\\' || c == ',' || c == ')' || isMark c || Text.isBlank c

/-- The characters that need a backslash in an argument between quotation marks. -/
def mustInQuotedArgument (q : Quote) (c : Char) : Bool :=
  c == '%' || c == '\\' || c == q.char

/-- The ways to write a name. -/
inductive WrittenName (name : Text) : Text → Prop
  | bare {w : Text} (h : Written mustInName name w) : WrittenName name w
  | quoted {w : Text} (q : Quote) (h : Written (mustInQuotedName q) name w) :
      WrittenName name (q.char :: (w ++ [q.char]))

/-- The ways to write an argument, white space around it included. -/
inductive WrittenArgument (s : Text) : Text → Prop
  | bare {lead w trail : Text} (hs : s ≠ []) (h : Written mustInArgument s w)
      (hlead : ∀ c ∈ lead, Text.isBlank c = true) (htrail : ∀ c ∈ trail, Text.isBlank c = true) :
      WrittenArgument s (lead ++ (w ++ trail))
  | quoted {lead w trail : Text} (q : Quote) (h : Written (mustInQuotedArgument q) s w)
      (hlead : ∀ c ∈ lead, Text.isBlank c = true) (htrail : ∀ c ∈ trail, Text.isBlank c = true) :
      WrittenArgument s (lead ++ q.char :: (w ++ q.char :: trail))

/-- The ways to write one argument or more, with commas between them. -/
inductive WrittenArguments : List Text → Text → Prop
  | one {s w : Text} (h : WrittenArgument s w) : WrittenArguments [s] w
  | more {s w : Text} {rest : List Text} {w' : Text} (h : WrittenArgument s w)
      (hrest : WrittenArguments rest w') : WrittenArguments (s :: rest) (w ++ ',' :: w')

/-- The ways to write a group of arguments, with the text between its parentheses. -/
inductive WrittenGroup : List Text → Text → Text → Prop
  | absent : WrittenGroup [] [] []
  | empty : WrittenGroup [] [] ['(', ')']
  | arguments {args : List Text} {w : Text} (h : WrittenArguments args w) :
      WrittenGroup args w ('(' :: (w ++ [')']))

/-- The ways to write a call. -/
inductive WrittenCall (name : Text) (args : List Text) (rawArgs : Text) : Text → Prop
  | mk {w g : Text} (hname : WrittenName name w) (hgroup : WrittenGroup args rawArgs g) :
      WrittenCall name args rawArgs ('%' :: (w ++ g ++ ['%']))

theorem exists_writtenArguments (s : Text) (rest : List Text) :
    ∃ w, WrittenArguments (s :: rest) w := by
  have hone (s : Text) : ∃ w, WrittenArgument s w := by
    obtain ⟨w, hw⟩ := Written.exists_written (mustInQuotedArgument .double) s
    have hnil : ∀ c ∈ ([] : Text), Text.isBlank c = true := fun c h => absurd h List.not_mem_nil
    have hquoted : WrittenArgument s ([] ++ Quote.double.char :: (w ++ Quote.double.char :: [])) :=
      .quoted .double hw hnil hnil
    exact ⟨_, hquoted⟩
  induction rest generalizing s with
  | nil =>
    obtain ⟨w, hw⟩ := hone s
    exact ⟨w, .one hw⟩
  | cons s' rest ih =>
    obtain ⟨w, hw⟩ := hone s
    obtain ⟨w', hw'⟩ := ih s'
    exact ⟨w ++ ',' :: w', .more hw hw'⟩

/-- Every call can be written. -/
theorem exists_writtenCall (name : Text) (args : List Text) :
    ∃ rawArgs w, WrittenCall name args rawArgs w := by
  obtain ⟨w, hname⟩ := Written.exists_written mustInName name
  cases args with
  | nil => exact ⟨_, _, .mk (.bare hname) .absent⟩
  | cons s rest =>
    obtain ⟨w', hargs⟩ := exists_writtenArguments s rest
    exact ⟨_, _, .mk (.bare hname) (.arguments hargs)⟩

/-! ### Tokens before a special character -/

theorem ofChar?_mark (q : Quote) : ofChar? q.char = some (.quote q) := by
  cases q <;> rfl

theorem isMark_mark (q : Quote) : isMark q.char = true := by
  cases q <;> rfl

/-- Before a special character, the text gives these tokens. -/
def Scans (w : Text) (tokens : List Token) : Prop :=
  ∀ (c : Char) (t : Token) (rest : Text), ofChar? c = some t →
    scan (w ++ c :: rest) = tokens ++ t :: scan rest

/-- A special character does not fuse with what is before it. -/
theorem fuse_special (s : Token) {c : Char} {t : Token} (h : ofChar? c = some t) :
    fuse s t = [s, t] := by
  unfold ofChar? at h
  split at h <;> simp only [Option.some.injEq, reduceCtorEq] at h <;> subst h <;> cases s <;> rfl

theorem fuse_of_isBlank_ne {s t : Token} (h : s.isBlank ≠ t.isBlank) : fuse s t = [s, t] := by
  unfold fuse
  split
  · exact absurd rfl h
  · exact absurd rfl h
  · rfl

theorem scans_nil : Scans [] [] :=
  fun _ _ rest h => Token.scan_cons_special h rest

/-- A text that does not end in the middle of an escape, before another one. -/
theorem Scans.append {w w' : Text} {tokens : List Token} (hw : .backslash ∉ scan w)
    (h : Scans w' tokens)
    (hapart : ∀ s ∈ (scan w).getLast?, ∀ t ∈ tokens.head?, fuse s t = [s, t]) :
    Scans (w ++ w') (scan w ++ tokens) := by
  intro c t rest hc
  rw [List.append_assoc, Token.scan_append _ _ hw, h c t rest hc, List.append_assoc]
  refine Token.join_eq_append fun s hs u hu => ?_
  cases tokens with
  | nil =>
    obtain rfl : t = u := by simpa using hu
    exact fuse_special s hc
  | cons t' tokens =>
    obtain rfl : t' = u := by simpa using hu
    exact hapart s hs t' rfl

theorem scans_of_notMem {w : Text} (hw : .backslash ∉ scan w) : Scans w (scan w) := by
  have h := scans_nil.append hw fun s _ t ht => by simp at ht
  rwa [List.append_nil, List.append_nil] at h

/-- Two texts with a special character between them. -/
theorem Scans.append_special {w w' : Text} {tokens tokens' : List Token} {c : Char} {t : Token}
    (h : Scans w tokens) (hc : ofChar? c = some t) (h' : Scans w' tokens') :
    Scans (w ++ c :: w') (tokens ++ t :: tokens') := by
  intro d u rest hd
  rw [List.append_assoc, List.cons_append, h c t _ hc, h' d u rest hd, List.append_assoc,
    List.cons_append]

/-- The source text of the tokens is the text that was scanned. -/
theorem Scans.source_eq {w : Text} {tokens : List Token} (h : Scans w tokens) :
    Token.source tokens = w := by
  have hsource := Token.flatMap_chars_scan (w ++ ['%'])
  rw [h '%' .percent [] rfl, List.flatMap_append, Token.scan_nil] at hsource
  exact List.append_cancel_right hsource

/-! ### Names and arguments -/

theorem spell_map_token (tokens : List Token) : spell (tokens.map .token) = tokens := by
  induction tokens with
  | nil => rfl
  | cons t tokens ih => rw [List.map_cons, spell_cons, ih, Piece.tokens, List.singleton_append]

/-- A written name is a name. -/
theorem WrittenName.exists_pieces {name w : Text} (h : WrittenName name w) :
    ∃ pieces, Scans w (spell pieces) ∧ (∀ p ∈ pieces, p.Fits [.percent, .openParen]) ∧
      pieces.flatMap Piece.spoken = name := by
  cases h with
  | bare h =>
    refine ⟨(scan w).map .token, ?_, ?_, ?_⟩
    · rw [spell_map_token]
      exact scans_of_notMem (h.backslash_notMem_scan rfl)
    · refine List.forall_mem_map.mpr fun t ht => ?_
      have hclear := h.clear_scan rfl t ht
      refine ⟨?_, fun q => hclear.ne_of_ofChar? (ofChar?_mark q) ?_⟩
      · rw [List.mem_cons, List.mem_singleton, not_or]
        exact ⟨hclear.ne_of_ofChar? (c := '%') rfl rfl, hclear.ne_of_ofChar? (c := '(') rfl rfl⟩
      · simp [mustInName, isMark_mark]
    · rw [List.flatMap_map]
      exact h.spoken_scan rfl
  | @quoted w q h =>
    refine ⟨[.quotation q (scan w)], ?_, List.forall_mem_singleton.mpr ?_, ?_⟩
    · rw [spell, List.flatMap_singleton]
      exact scans_nil.append_special (ofChar?_mark q)
        ((scans_of_notMem (h.backslash_notMem_scan rfl)).append_special (ofChar?_mark q) scans_nil)
    · intro hmem
      refine (h.clear_scan rfl _ hmem).ne_of_ofChar? (ofChar?_mark q) ?_ rfl
      simp [mustInQuotedName]
    · rw [List.flatMap_singleton]
      exact h.spoken_scan rfl

/-- White space is scanned as white space. -/
theorem isBlank_of_mem_scan {s : Text} (h : ∀ c ∈ s, Text.isBlank c = true) :
    ∀ t ∈ scan s, t.isBlank = true := by
  induction s with
  | nil =>
    rw [Token.scan_nil]
    exact fun t h => absurd h List.not_mem_nil
  | cons c s ih =>
    obtain ⟨hc, hs⟩ := List.forall_mem_cons.mp h
    have hsingle : Token.single c = .blank [c] := by
      rw [Token.single, Token.ofChar?_of_isBlank hc, Option.getD_none, if_pos hc]
    rw [Token.scan_cons (Token.ne_backslash_of_isBlank hc), hsingle]
    refine Token.forall_mem_join (fun s t hs ht => ?_) (List.forall_mem_singleton.mpr rfl) (ih hs)
    unfold fuse
    split
    · exact absurd hs Bool.false_ne_true
    · exact List.forall_mem_singleton.mpr rfl
    · exact List.forall_mem_cons.mpr ⟨hs, List.forall_mem_singleton.mpr ht⟩

theorem backslash_notMem_of_isBlank {s : Text} (h : ∀ c ∈ s, Text.isBlank c = true) :
    .backslash ∉ scan s :=
  fun hmem => absurd (isBlank_of_mem_scan h _ hmem) Bool.false_ne_true

/-- White space at both ends does not count. -/
theorem trim_append {lead tokens trail : List Token} (hlead : ∀ t ∈ lead, t.isBlank = true)
    (htokens : ∀ t ∈ tokens, t.isBlank = false) (htrail : ∀ t ∈ trail, t.isBlank = true) :
    Token.trim (lead ++ (tokens ++ trail)) = tokens := by
  have hright (l : List Token) :
      (l ++ trail).rdropWhile Token.isBlank = l.rdropWhile Token.isBlank := by
    rw [List.rdropWhile, List.reverse_append,
      List.dropWhile_append_of_pos fun t ht => htrail t (List.mem_reverse.mp ht)]
    rfl
  rw [Token.trim, List.dropWhile_append_of_pos hlead]
  cases tokens with
  | nil => rw [List.nil_append, List.dropWhile_eq_nil_iff.mpr htrail, List.rdropWhile_nil]
  | cons t tokens =>
    have ht := htokens t List.mem_cons_self
    rw [List.cons_append, List.dropWhile_cons_of_neg (by simp [ht]), ← List.cons_append, hright]
    refine List.rdropWhile_eq_self_iff.mpr fun hne => ?_
    simp [htokens _ (List.getLast_mem hne)]

theorem argumentTextFrom_tokens (stretch tokens : List Token) (pieces : List Piece) :
    argumentTextFrom stretch (tokens.map .token ++ pieces) =
      argumentTextFrom (stretch ++ tokens) pieces := by
  induction tokens generalizing stretch with
  | nil => rw [List.map_nil, List.nil_append, List.append_nil]
  | cons t tokens ih =>
    rw [List.map_cons, List.cons_append, argumentTextFrom, ih, List.append_assoc]
    rfl

/-- White space by itself does not count. -/
theorem stretchText_of_isBlank {tokens : List Token} (h : ∀ t ∈ tokens, t.isBlank = true) :
    stretchText tokens = [] := by
  have htrim : Token.trim (tokens ++ ([] ++ [])) = [] :=
    trim_append h (fun t h => by simp at h) (fun t h => by simp at h)
  rw [List.append_nil, List.append_nil] at htrim
  rw [stretchText, htrim, List.flatMap_nil]

/-- A text of white space can stand before and after any part of an argument. -/
theorem fits_of_isBlank {t : Token} (h : t.isBlank = true) :
    (Piece.token t).Fits [.closeParen] ∧ Piece.token t ≠ .token .comma := by
  cases t with
  | blank s => exact ⟨⟨by simp, by simp⟩, by simp⟩
  | _ => exact absurd h Bool.false_ne_true

theorem fits_of_clear {t : Token} (h : t.Clear mustInArgument) :
    (Piece.token t).Fits [.closeParen] ∧ Piece.token t ≠ .token .comma := by
  refine ⟨⟨?_, fun q => h.ne_of_ofChar? (ofChar?_mark q) (by simp [mustInArgument, isMark_mark])⟩,
    fun ht => ?_⟩
  · exact fun ht => h.ne_of_ofChar? (c := ')') rfl rfl (List.mem_singleton.mp ht)
  · exact h.ne_of_ofChar? (c := ',') rfl rfl (Piece.token.inj ht)

/-- The parts of a group that the text `w` is read as: one argument, which expands to `s`. -/
structure ReadAs (w s : Text) (pieces : List Piece) : Prop where
  /-- The parts are what is scanned. -/
  scans : Scans w (spell pieces)
  /-- The argument does not end before its end. -/
  fits : ∀ p ∈ pieces, p.Fits [.closeParen] ∧ p ≠ .token .comma
  /-- There is an argument. -/
  started : ∃ p ∈ pieces, p.isBlank = false
  /-- What the argument expands to. -/
  literal : Literal s (argumentText pieces)

section

variable {lead s w trail : Text} (hlead : ∀ c ∈ lead, Text.isBlank c = true)
  (htrail : ∀ c ∈ trail, Text.isBlank c = true)

include hlead htrail

/-- A bare argument: its tokens are no white space, so that exactly what surrounds them is
trimmed. -/
theorem readAs_bare (hs : s ≠ []) (h : Written mustInArgument s w) :
    ReadAs (lead ++ (w ++ trail)) s ((scan lead ++ (scan w ++ scan trail)).map .token) := by
  have hclear := h.clear_scan rfl
  have hblank : ∀ t ∈ scan w, t.isBlank = false := by
    intro t ht
    cases t with
    | blank u =>
      obtain ⟨hne, hu⟩ := Token.proper_of_mem_scan w _ ht
      obtain ⟨c, hc⟩ := List.exists_mem_of_ne_nil u hne
      have hmust : mustInArgument c = false := hclear _ ht c hc
      simp [mustInArgument, hu c hc] at hmust
    | _ => rfl
  have hne : scan w ≠ [] := by
    intro hnil
    have hspoken := h.spoken_scan rfl
    rw [hnil] at hspoken
    exact hs hspoken.symm
  have hright : Scans (w ++ trail) (scan w ++ scan trail) := by
    refine (scans_of_notMem (backslash_notMem_of_isBlank htrail)).append
      (h.backslash_notMem_scan rfl) fun t ht u hu => fuse_of_isBlank_ne ?_
    rw [hblank t (List.mem_of_getLast? ht),
      isBlank_of_mem_scan htrail u (List.mem_of_mem_head? hu)]
    exact Bool.false_ne_true
  refine ⟨?_, ?_, ?_, ?_⟩
  · rw [spell_map_token]
    refine hright.append (backslash_notMem_of_isBlank hlead)
      fun t ht u hu => fuse_of_isBlank_ne ?_
    rw [List.head?_append_of_ne_nil _ hne] at hu
    rw [isBlank_of_mem_scan hlead t (List.mem_of_getLast? ht), hblank u (List.mem_of_mem_head? hu)]
    exact Bool.false_ne_true.symm
  · refine List.forall_mem_map.mpr fun t ht => ?_
    rcases List.mem_append.mp ht with ht | ht
    · exact fits_of_isBlank (isBlank_of_mem_scan hlead t ht)
    · rcases List.mem_append.mp ht with ht | ht
      · exact fits_of_clear (hclear t ht)
      · exact fits_of_isBlank (isBlank_of_mem_scan htrail t ht)
  · obtain ⟨t, ht⟩ := List.exists_mem_of_ne_nil _ hne
    refine ⟨.token t, List.mem_map_of_mem ?_, hblank t ht⟩
    exact List.mem_append_right _ (List.mem_append_left _ ht)
  · have htext := argumentTextFrom_tokens [] (scan lead ++ (scan w ++ scan trail)) []
    rw [List.append_nil, List.nil_append] at htext
    rw [argumentText, htext, argumentTextFrom, stretchText, trim_append
      (isBlank_of_mem_scan hlead) hblank (isBlank_of_mem_scan htrail)]
    exact h.literal_kept rfl rfl

/-- An argument between quotation marks: only white space stands around it. -/
theorem readAs_quoted (q : Quote) (h : Written (mustInQuotedArgument q) s w) :
    ReadAs (lead ++ q.char :: (w ++ q.char :: trail)) s
      ((scan lead).map .token ++ .quotation q (scan w) :: (scan trail).map .token) := by
  have hbody : .quote q ∉ scan w := by
    intro hmem
    have hclear := h.clear_scan rfl _ hmem
    exact hclear.ne_of_ofChar? (ofChar?_mark q) (by simp [mustInQuotedArgument]) rfl
  refine ⟨?_, ?_, ⟨_, List.mem_append_right _ List.mem_cons_self, rfl⟩, ?_⟩
  · have hright : Scans (w ++ q.char :: trail) (scan w ++ .quote q :: scan trail) :=
      (scans_of_notMem (h.backslash_notMem_scan rfl)).append_special (ofChar?_mark q)
        (scans_of_notMem (backslash_notMem_of_isBlank htrail))
    rw [spell_append, spell_cons, spell_map_token, spell_map_token, Piece.tokens,
      List.cons_append, List.cons_append, List.append_assoc]
    exact (scans_of_notMem (backslash_notMem_of_isBlank hlead)).append_special
      (ofChar?_mark q) hright
  · refine List.forall_mem_append.mpr ⟨?_, List.forall_mem_cons.mpr ⟨⟨hbody, by simp⟩, ?_⟩⟩
    · exact List.forall_mem_map.mpr fun t ht => fits_of_isBlank (isBlank_of_mem_scan hlead t ht)
    · exact List.forall_mem_map.mpr fun t ht => fits_of_isBlank (isBlank_of_mem_scan htrail t ht)
  · have hend := argumentTextFrom_tokens [] (scan trail) []
    rw [List.append_nil, List.nil_append, argumentTextFrom,
      stretchText_of_isBlank (isBlank_of_mem_scan htrail)] at hend
    rw [argumentText, argumentTextFrom_tokens, argumentTextFrom, List.nil_append,
      stretchText_of_isBlank (isBlank_of_mem_scan hlead), hend, List.nil_append, List.append_nil]
    exact h.literal_kept (by simp [mustInQuotedArgument]) (by simp [mustInQuotedArgument])

end

/-- A written argument is an argument. -/
theorem WrittenArgument.exists_pieces {s w : Text} (h : WrittenArgument s w) :
    ∃ pieces, ReadAs w s pieces := by
  cases h with
  | bare hs h hlead htrail => exact ⟨_, readAs_bare hlead htrail hs h⟩
  | quoted q h hlead htrail => exact ⟨_, readAs_quoted hlead htrail q h⟩

/-! ### Groups and calls -/

/-- Written arguments are the arguments of a group. -/
theorem WrittenArguments.exists_content {args : List Text} {w : Text}
    (h : WrittenArguments args w) :
    ∃ content, Scans w (spell content) ∧ (∀ p ∈ content, p.Fits [.closeParen]) ∧
      content.all Piece.isBlank = false ∧
      List.Forall₂ Literal args ((content.splitOn (.token .comma)).map argumentText) := by
  induction h with
  | one h =>
    obtain ⟨pieces, hread⟩ := h.exists_pieces
    refine ⟨pieces, hread.scans, fun p hp => (hread.fits p hp).1, ?_, ?_⟩
    · obtain ⟨p, hp, hblank⟩ := hread.started
      exact List.all_eq_false.mpr ⟨p, hp, by simp [hblank]⟩
    · rw [List.splitOn_eq_singleton fun hc => (hread.fits _ hc).2 rfl]
      exact .cons hread.literal .nil
  | more h _ ih =>
    obtain ⟨pieces, hread⟩ := h.exists_pieces
    obtain ⟨content, hscans', hfits', -, hliterals⟩ := ih
    refine ⟨pieces ++ .token .comma :: content, ?_, ?_, ?_, ?_⟩
    · rw [spell_append, spell_cons]
      exact hread.scans.append_special (t := .comma) rfl hscans'
    · refine List.forall_mem_append.mpr ⟨fun p hp => (hread.fits p hp).1, ?_⟩
      exact List.forall_mem_cons.mpr ⟨⟨by simp, by simp⟩, hfits'⟩
    · refine List.all_eq_false.mpr ⟨_, List.mem_append_right _ List.mem_cons_self, ?_⟩
      simp [Piece.isBlank, Token.isBlank]
    · rw [List.splitOn_append_cons_self_of_not_mem fun hc => (hread.fits _ hc).2 rfl]
      exact .cons hread.literal hliterals

/-- The source text of the arguments of a single group is that of the group. -/
theorem join_filter_singleton (raw : Text) :
    Text.join [',', ' '] ([raw].filter (!·.isEmpty)) = raw := by
  cases raw <;> rfl

/-- A written group follows a written name as a group of arguments or not at all. -/
theorem WrittenGroup.exists_sequels {args : List Text} {rawArgs w g : Text} {tokens : List Token}
    (h : WrittenGroup args rawArgs g) (hw : Scans w tokens) :
    ∃ sequels : List Sequel, Scans (w ++ g) (tokens ++ sequels.flatMap Sequel.tokens) ∧
      (∀ t, sequels.head? ≠ some (.passed t)) ∧ (∀ s ∈ sequels, s.WellFormed) ∧
      Text.join [',', ' '] ((sequels.flatMap Sequel.rawGroup).filter (!·.isEmpty)) = rawArgs ∧
      sequels.flatMap Sequel.ignored = [] ∧
      List.Forall₂ Literal args (sequels.flatMap Sequel.arguments) := by
  cases h with
  | absent =>
    refine ⟨[], ?_, by simp, fun _ h => absurd h List.not_mem_nil, rfl, rfl, .nil⟩
    rwa [List.append_nil, List.flatMap_nil, List.append_nil]
  | empty =>
    have hempty : (Sequel.group []).WellFormed := fun _ h => absurd h List.not_mem_nil
    refine ⟨[.group []], ?_, by simp, List.forall_mem_singleton.mpr hempty, rfl, rfl, .nil⟩
    exact hw.append_special (t := .openParen) rfl
      (scans_nil.append_special (t := .closeParen) rfl scans_nil)
  | arguments h =>
    obtain ⟨content, hscans, hfits, hblank, hliterals⟩ := h.exists_content
    refine ⟨[.group content], ?_, by simp, List.forall_mem_singleton.mpr hfits, ?_, rfl, ?_⟩
    · rw [List.flatMap_singleton, Sequel.tokens, List.cons_append]
      exact hw.append_special (t := .openParen) rfl
        (hscans.append_special (t := .closeParen) rfl scans_nil)
    · rw [List.flatMap_singleton, Sequel.rawGroup, hscans.source_eq, join_filter_singleton]
    · rw [List.flatMap_singleton, Sequel.arguments, argumentTexts, hblank,
        if_neg Bool.false_ne_true]
      exact hliterals

/-- **A written call is a placeholder that says what was written.** -/
theorem WrittenCall.exists_placeholder {name : Text} (hne : name ≠ []) {args : List Text}
    {rawArgs w : Text} (h : WrittenCall name args rawArgs w) :
    ∃ p : Placeholder, p.WellFormed ∧ scan w = p.tokens ∧ p.nameText = name ∧
      p.rawArgs = rawArgs ∧ p.ignored = [] ∧ List.Forall₂ Literal args p.argumentTexts := by
  cases h with
  | mk hname hgroup =>
    obtain ⟨pieces, hscans, hfits, hspoken⟩ := hname.exists_pieces
    obtain ⟨sequels, hscans', hhead, hwf, hraw, hignored, hliterals⟩ :=
      hgroup.exists_sequels hscans
    refine ⟨⟨pieces, sequels⟩, ⟨hfits, ?_, hhead, hwf⟩, ?_, hspoken, hraw, hignored, hliterals⟩
    · rw [Placeholder.nameText, hspoken]
      exact hne
    · rw [Token.scan_cons_special (t := .percent) rfl, hscans' '%' .percent [] rfl,
        Token.scan_nil, Placeholder.tokens, List.append_assoc]

/-- Texts without placeholders expand without calls. -/
theorem expands_of_literal {ε : Type} {limit depth : Nat} (oracle : Oracle ε)
    (before : List Call) {values texts : List Text} (h : List.Forall₂ Literal values texts) :
    Expands limit depth oracle before texts [] [] values := by
  induction h with
  | nil => exact .nil
  | @cons value text values texts hliteral _ ih =>
    have hrun : runSteps oracle before [] (plan limit depth text) = _ :=
      runSteps_plan_of_percent_notMem oracle before [] hliteral.1
    rw [hliteral.2] at hrun
    rw [← List.append_nil before] at ih
    exact .cons hrun rfl ih

/-- **A written call expands to its answer.** Every call with a name can be written; and however it
is written, under any limit its expansion makes this call and no other one, gives no warnings, and
comes to what the oracle answers, or fails with its error. -/
theorem consult_writtenCall (name : Text) (args : List Text) (hne : name ≠ []) :
    (∃ rawArgs template, WrittenCall name args rawArgs template) ∧
    ∀ (ε : Type) (limit : Nat) (oracle : Oracle ε) (rawArgs template : Text),
      WrittenCall name args rawArgs template →
      consult limit oracle template =
        { calls := [⟨name, rawArgs, args⟩]
          warnings := []
          result := (oracle [] ⟨name, rawArgs, args⟩).mapError (.refused · none) } ∧
      (consult limit oracle template).outcome = oracle [] ⟨name, rawArgs, args⟩ := by
  refine ⟨exists_writtenCall name args, fun ε limit oracle rawArgs template h => ?_⟩
  obtain ⟨p, hp, hscan, rfl, rfl, hignored, hliterals⟩ := h.exists_placeholder hne
  obtain ⟨front, hread, hinner⟩ := passage_placeholder limit 0 hp (Nat.zero_le limit) 0
  have hplan : plan limit 0 template =
      (front ++ [Event.call p.nameText p.rawArgs]).map (Event.step limit 0 template) := by
    rw [plan_eq, outline, hscan, hread.outlineFrom_eq]
  have hx : Expands limit 1 oracle [] p.argumentTexts [] [] args :=
    expands_of_literal oracle [] hliterals
  obtain ⟨hcalls, hresult, hwarnings⟩ := runSteps_placeholder hinner hx template p.rawArgs []
  simp only [← hplan, List.map_nil, runSteps_nil, Run.map_done, Run.andThen_done,
    List.append_nil, List.nil_append] at hcalls hresult hwarnings
  have hrun : consult limit oracle template =
      { calls := [⟨p.nameText, p.rawArgs, args⟩]
        warnings := []
        result := (oracle [] ⟨p.nameText, p.rawArgs, args⟩).mapError (.refused · none) } := by
    show (⟨_, _, _⟩ : Run ε Text) = _
    rw [hcalls, hwarnings hignored, hresult]
    cases hanswer : oracle [] ⟨p.nameText, p.rawArgs, args⟩ with
    | error e =>
      simp only [Call.run, hanswer]
      rfl
    | ok answer =>
      simp only [Call.run, hanswer]
      rfl
  exact ⟨hrun, Run.outcome_of_answer (by rw [hrun])⟩

/-- A call with an argument in quotation marks and a bare one with white space around it, both with
escapes. -/
theorem consult_writtenCall_of_two_arguments :
    ['f'] ≠ [] ∧
    consult 0 (fun _ call => .ok call.args.flatten : Oracle Empty) "%f('\\%', \\, )%".toList =
      { calls := [⟨['f'], "'\\%', \\, ".toList, [['%'], [',']]⟩]
        result := .ok ['%', ','] } := by
  have hname : WrittenName ['f'] ['f'] := .bare (.plain rfl .nil)
  have hquoted : WrittenArgument ['%'] ([] ++ '\'' :: (['\\', '%'] ++ '\'' :: [])) :=
    .quoted .single (.escaped .nil) (fun c h => by simp at h) fun c h => by simp at h
  have hbare : WrittenArgument [','] ([' '] ++ (['\\', ','] ++ [' '])) :=
    .bare (List.cons_ne_nil _ _) (.escaped .nil) (List.forall_mem_singleton.mpr rfl)
      (List.forall_mem_singleton.mpr rfl)
  exact ⟨List.cons_ne_nil _ _, ((consult_writtenCall ['f'] [['%'], [',']] (List.cons_ne_nil _ _)).2
    Empty 0 _ _ _ (.mk hname (.arguments (.more hquoted (.one hbare))))).1⟩

end Template

end TabFormat
