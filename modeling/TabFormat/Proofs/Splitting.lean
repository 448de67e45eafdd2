import Mathlib.Data.List.SplitBy
import TabFormat.Proofs.Resplit
import TabFormat.Proofs.Seam

/-!
# Splitting a group into arguments

The reader decides from token to token which white space of an argument counts. Here the arguments
of a group are found by looking at its characters as a whole. Each character stands outside of
quotations or inside of one, or it is the mark of one, and it may be escaped. The group is split at
its commas, a piece is divided into stretches, and each stretch outside of quotations is trimmed.
The two ways agree on every group of a template that expands.

## Main definitions

* `Letter`, `letters` : the characters of a group as they are read.
* `pieceText` : the text of an argument, stretch by stretch.
* `splitGroup` : the texts of the arguments of a group.

## Main results

* `Enclosed.argumentTexts_eq` : the reader splits a group in this way.
* `exists_call_of_placeholder` : the call of a placeholder in a text that expands.
* `expands_splitGroup` : the placeholder is called with what the arguments of its groups expand to.
-/

namespace TabFormat

/-- The kind of quotation that a character opens. -/
def Quote.ofChar? (c : Char) : Option Quote :=
  [single, double, back].find? (·.char == c)

namespace Template

open Token (scan source Normal)

/-! ### The characters of a group -/

/-- Where a character of a group stands. -/
inductive Role where
  /-- Outside of quotations. -/
  | outside
  /-- Inside of a quotation. -/
  | inside
  /-- At the beginning or the end of a quotation, as its mark. -/
  | mark
deriving DecidableEq, Repr

/-- A character of a group as it is read. -/
structure Letter where
  /-- The character. -/
  char : Char
  /-- Whether a backslash stands before it. -/
  escaped : Bool
  /-- Where it stands. -/
  role : Role
deriving DecidableEq, Repr

namespace Letter

/-- The comma between two arguments. -/
def comma : Letter := ⟨',', false, .outside⟩

/-- Whether the character is white space that may be trimmed. -/
def isBlank (l : Letter) : Bool :=
  l.role == .outside && !l.escaped && Text.isBlank l.char

/-- What the character contributes to an argument. -/
def text (l : Letter) : Text :=
  if l.role = .mark then []
  else if l.escaped ∧ (l.char = '%' ∨ l.char = '\\') then ['\\', l.char]
  else [l.char]

end Letter

/-- The role of characters that are no marks, in a quotation of the given kind, if in any. -/
def roleIn : Option Quote → Role
  | none => .outside
  | some _ => .inside

/-- The quotation after a mark that opens or closes one, if the character is such a mark. -/
def turn : Option Quote → Char → Option (Option Quote)
  | none, c => (Quote.ofChar? c).map some
  | some q, c => if c = q.char then some none else none

/-- The characters of a group, of which the first one stands in a quotation of the given kind, if
in any. -/
def letters (within : Option Quote) : Text → List Letter
  | [] => []
  | '\\' :: c :: s => ⟨c, true, roleIn within⟩ :: letters within s
  | c :: s =>
    match turn within c with
    | some next => ⟨c, false, .mark⟩ :: letters next s
    | none => ⟨c, false, roleIn within⟩ :: letters within s

/-- The number of commas of a group that are neither quoted nor escaped. -/
def commas (group : Text) : Nat :=
  (letters none group).count .comma

/-- The text of a stretch of characters with one role. -/
def segmentText (segment : List Letter) : Text :=
  ((segment.dropWhile Letter.isBlank).rdropWhile Letter.isBlank).flatMap Letter.text

/-- The text of an argument, stretch by stretch. -/
def pieceText (piece : List Letter) : Text :=
  (piece.splitBy fun l l' => l.role == l'.role).flatMap segmentText

/-- The texts of the arguments of a group. -/
def splitGroup (group : Text) : List Text :=
  if group.all Text.isBlank then [] else ((letters none group).splitOn .comma).map pieceText

/-! ### The characters of tokens -/

/-- The characters of a token with a role. -/
def tokenLetters (role : Role) : Token → List Letter
  | .escape c => [⟨c, true, role⟩]
  | t => t.chars.map (⟨·, false, role⟩)

/-- The characters of a part. -/
def Piece.letters : Piece → List Letter
  | token t => tokenLetters .outside t
  | quotation q body =>
    ⟨q.char, false, .mark⟩ :: (body.flatMap (tokenLetters .inside) ++ [⟨q.char, false, .mark⟩])

theorem tokenLetters_of_ne (role : Role) {t : Token} (h : ∀ c, t ≠ .escape c) :
    tokenLetters role t = t.chars.map (⟨·, false, role⟩) := by
  cases t with
  | escape c => exact absurd rfl (h c)
  | _ => rfl

theorem exists_quote_of_turn {within next : Option Quote} {c : Char}
    (h : turn within c = some next) : ∃ q : Quote, q.char = c := by
  cases within with
  | none =>
    obtain ⟨q, hq, -⟩ := Option.map_eq_some_iff.mp h
    exact ⟨q, by simpa using List.find?_some hq⟩
  | some q =>
    rw [turn] at h
    split at h
    · rename_i hc
      exact ⟨q, hc.symm⟩
    · simp at h

/-- A token with a backslash is the backslash or an escape. -/
theorem ne_backslash_of_mem_chars {t : Token} (ht : t.Proper) (hb : t ≠ .backslash)
    (he : ∀ c, t ≠ .escape c) {c : Char} (hc : c ∈ t.chars) : c ≠ '\\' := by
  rintro rfl
  cases t with
  | blank s => exact absurd (ht.2 _ hc) (by decide)
  | plain s => exact absurd (ht.2 _ hc) (by decide)
  | escape c => exact he c rfl
  | backslash => exact hb rfl
  | quote q => cases q <;> simp [Token.chars, Quote.char] at hc
  | _ => simp [Token.chars] at hc

/-- A run of characters none of which is special. -/
theorem letters_run_append {within : Option Quote} {run : Text}
    (h : ∀ c ∈ run, c ≠ '\\' ∧ turn within c = none) (s : Text) :
    letters within (run ++ s) = run.map (⟨·, false, roleIn within⟩) ++ letters within s := by
  induction run with
  | nil => rfl
  | cons c run ih =>
    obtain ⟨⟨hc, hturn⟩, hrun⟩ := List.forall_mem_cons.mp h
    rw [List.cons_append, letters.eq_3 within c _ fun _ _ heq _ => hc heq, hturn, ih hrun]
    rfl

/-- The characters of a token that does not open or close a quotation. -/
theorem letters_token_append {within : Option Quote} {t : Token} (ht : t.Proper)
    (hb : t ≠ .backslash) (hq : ∀ q, (turn within q.char).isSome → t ≠ .quote q) (s : Text) :
    letters within (t.chars ++ s) = tokenLetters (roleIn within) t ++ letters within s := by
  by_cases he : ∃ c, t = .escape c
  · obtain ⟨c, rfl⟩ := he
    exact letters.eq_2 within c s
  · rw [not_exists] at he
    rw [tokenLetters_of_ne _ he]
    refine letters_run_append (fun c hc => ⟨ne_backslash_of_mem_chars ht hb he hc, ?_⟩) s
    by_contra hturn
    obtain ⟨next, hnext⟩ := Option.ne_none_iff_exists'.mp hturn
    obtain ⟨q, rfl⟩ := exists_quote_of_turn hnext
    obtain rfl | ⟨d, rfl⟩ := Token.eq_or_escape_of_mem_chars (ofChar?_mark q) ht hc
    · exact hq q (Option.isSome_of_eq_some hnext) rfl
    · exact he d rfl

/-- A mark that opens or closes a quotation. -/
theorem letters_mark {within next : Option Quote} {q : Quote} (h : turn within q.char = some next)
    (s : Text) :
    letters within (q.char :: s) = ⟨q.char, false, .mark⟩ :: letters next s := by
  have hmark : q.char ≠ '\\' := by cases q <;> decide
  rw [letters.eq_3 within q.char s fun _ _ heq _ => hmark heq, h]

theorem turn_open (q : Quote) : turn none q.char = some (some q) := by
  cases q <;> rfl

theorem turn_close (q : Quote) : turn (some q) q.char = some none :=
  if_pos rfl

/-- Inside of a quotation only its own mark closes it. -/
theorem eq_of_turn {q q' : Quote} (h : (turn (some q) q'.char).isSome) : q' = q := by
  cases q <;> cases q' <;> first | rfl | exact absurd h (by decide)

/-- The characters of a quotation up to its closing mark. -/
theorem letters_body_append {q : Quote} {body : List Token} (hproper : ∀ t ∈ body, t.Proper)
    (hb : .backslash ∉ body) (hq : .quote q ∉ body) (s : Text) :
    letters (some q) (source body ++ q.char :: s) =
      body.flatMap (tokenLetters .inside) ++ ⟨q.char, false, .mark⟩ :: letters none s := by
  induction body with
  | nil => exact letters_mark (turn_close q) s
  | cons t body ih =>
    obtain ⟨ht, hproper⟩ := List.forall_mem_cons.mp hproper
    rw [List.mem_cons, not_or] at hb hq
    have hopen (q' : Quote) (h : (turn (some q) q'.char).isSome) : t ≠ .quote q' := by
      rw [eq_of_turn h]
      exact Ne.symm hq.1
    rw [source, List.flatMap_cons, List.append_assoc, letters_token_append ht (Ne.symm hb.1) hopen,
      List.flatMap_cons, List.append_assoc]
    exact congrArg _ (ih hproper hb.2 hq.2)

theorem letters_piece_append {piece : Piece} (hproper : ∀ t ∈ piece.tokens, t.Proper)
    (hb : .backslash ∉ piece.tokens) {stops : List Token} (hfits : piece.Fits stops) (s : Text) :
    letters none (source piece.tokens ++ s) = piece.letters ++ letters none s := by
  cases piece with
  | token t =>
    rw [Piece.tokens, List.mem_singleton] at hb
    rw [Piece.tokens, source, List.flatMap_singleton]
    exact letters_token_append (hproper t List.mem_cons_self) (Ne.symm hb) (fun q _ => hfits.2 q) s
  | quotation q body =>
    have hbody {t : Token} (ht : t ∈ body) : t ∈ (Piece.quotation q body).tokens :=
      List.mem_cons_of_mem _ (List.mem_append_left _ ht)
    have hsource : source (Piece.quotation q body).tokens ++ s =
        q.char :: (source body ++ q.char :: s) := by
      simp [Piece.tokens, source, Token.chars]
    rw [hsource, letters_mark (turn_open q),
      letters_body_append (fun t ht => hproper t (hbody ht)) (fun h => hb (hbody h)) hfits]
    simp [Piece.letters]

/-- **The characters of a group**, part by part. -/
theorem Enclosed.letters_eq {content : List Piece} (h : Enclosed content) :
    letters none (source (spell content)) = content.flatMap Piece.letters := by
  obtain ⟨hnormal, hb, hfits⟩ := h
  have hproper := hnormal.proper
  clear hnormal
  induction content with
  | nil => rfl
  | cons piece content ih =>
    rw [spell_cons] at hb hproper ⊢
    obtain ⟨hpiece, hproper⟩ := List.forall_mem_append.mp hproper
    obtain ⟨hfits, hrest⟩ := List.forall_mem_cons.mp hfits
    rw [List.mem_append, not_or] at hb
    rw [Token.source_append, letters_piece_append hpiece hb.1 hfits, ih hb.2 hrest hproper,
      List.flatMap_cons]

/-! ### The stretches of a piece -/

variable {role : Role} {stretch rest : List Letter}

/-- A stretch of one role in front of another one. -/
theorem pieceText_append (hstretch : ∀ l ∈ stretch, l.role = role)
    (hrest : ∀ l ∈ rest.head?, l.role ≠ role) :
    pieceText (stretch ++ rest) = segmentText stretch ++ pieceText rest := by
  have hseam : ∀ l ∈ stretch.getLast?, ∀ l' ∈ rest.head?, (l.role == l'.role) = false := by
    intro l hl l' hl'
    rw [hstretch l (List.mem_of_getLast? hl)]
    exact beq_eq_false_iff_ne.mpr (hrest l' hl').symm
  rw [pieceText, List.splitBy_append hseam, List.flatMap_append]
  cases stretch with
  | nil => rfl
  | cons l stretch =>
    have hchain : (l :: stretch).IsChain fun l l' => l.role == l'.role := by
      refine List.Pairwise.isChain (List.pairwise_of_forall_mem_list fun l hl l' hl' => ?_)
      rw [hstretch l hl, hstretch l' hl', beq_self_eq_true]
    rw [List.splitBy_of_isChain (List.cons_ne_nil _ _) hchain, List.flatMap_singleton]
    rfl

/-- Quotations are not trimmed. -/
theorem segmentText_of_ne (h : ∀ l ∈ stretch, l.role ≠ .outside) :
    segmentText stretch = stretch.flatMap Letter.text := by
  have hblank : ∀ l ∈ stretch, ¬l.isBlank := by
    intro l hl
    simp [Letter.isBlank, h l hl]
  have hstart : stretch.dropWhile Letter.isBlank = stretch :=
    List.dropWhile_eq_self_iff.mpr fun _ => hblank _ (List.get_mem _ _)
  have hend : stretch.rdropWhile Letter.isBlank = stretch :=
    List.rdropWhile_eq_self_iff.mpr fun _ => hblank _ (List.getLast_mem _)
  rw [segmentText, hstart, hend]

theorem pieceText_cons_of_ne {l : Letter} (h : l.role ≠ .outside) (rest : List Letter) :
    pieceText (l :: rest) = l.text ++ pieceText rest := by
  -- the character and the stretch that it continues
  have hsplit := List.takeWhile_append_dropWhile (p := fun l' => l'.role == l.role) (l := rest)
  set run := rest.takeWhile fun l' => l'.role == l.role
  set after := rest.dropWhile fun l' => l'.role == l.role with hafter
  have hrun : ∀ l' ∈ run, l'.role = l.role := fun l' hl' =>
    beq_iff_eq.mp (List.mem_takeWhile_imp (p := fun l' : Letter => l'.role == l.role) hl')
  have hhead : ∀ l' ∈ after.head?, l'.role ≠ l.role := by
    intro l' hl'
    have hnot := List.head?_dropWhile_not (fun l' : Letter => l'.role == l.role) rest
    rw [← hafter, Option.mem_def.mp hl'] at hnot
    exact beq_eq_false_iff_ne.mp hnot
  have hne (segment : List Letter) (hsegment : ∀ l' ∈ segment, l'.role = l.role) :
      pieceText (segment ++ after) = segment.flatMap Letter.text ++ pieceText after := by
    rw [pieceText_append hsegment hhead, segmentText_of_ne fun l' hl' => hsegment l' hl' ▸ h]
  rw [← hsplit, hne run hrun, ← List.cons_append,
    hne (l :: run) (List.forall_mem_cons.mpr ⟨rfl, hrun⟩), List.flatMap_cons, List.append_assoc]

theorem pieceText_append_of_ne (h : ∀ l ∈ stretch, l.role ≠ .outside) (rest : List Letter) :
    pieceText (stretch ++ rest) = stretch.flatMap Letter.text ++ pieceText rest := by
  induction stretch with
  | nil => rfl
  | cons l stretch ih =>
    obtain ⟨hl, hstretch⟩ := List.forall_mem_cons.mp h
    rw [List.cons_append, pieceText_cons_of_ne hl, ih hstretch, List.flatMap_cons,
      List.append_assoc]

/-! ### Trimming -/

theorem dropWhile_flatMap {α β : Type} {f : α → List β} {p : α → Bool} {q : β → Bool} {l : List α}
    (h : ∀ a ∈ l, f a ≠ [] ∧ ∀ b ∈ f a, q b = p a) :
    (l.flatMap f).dropWhile q = (l.dropWhile p).flatMap f := by
  induction l with
  | nil => rfl
  | cons a l ih =>
    obtain ⟨⟨hne, hall⟩, hrest⟩ := List.forall_mem_cons.mp h
    by_cases hp : p a
    · rw [List.flatMap_cons, List.dropWhile_append_of_pos fun b hb => (hall b hb).trans hp,
        List.dropWhile_cons_of_pos hp, ih hrest]
    · obtain ⟨b, rest, hb⟩ := List.exists_cons_of_ne_nil hne
      have hq : ¬q b := by rwa [hall b (hb ▸ List.mem_cons_self)]
      rw [List.dropWhile_cons_of_neg hp, List.flatMap_cons, hb, List.cons_append,
        List.dropWhile_cons_of_neg hq]

theorem rdropWhile_flatMap {α β : Type} {f : α → List β} {p : α → Bool} {q : β → Bool}
    {l : List α} (h : ∀ a ∈ l, f a ≠ [] ∧ ∀ b ∈ f a, q b = p a) :
    (l.flatMap f).rdropWhile q = (l.rdropWhile p).flatMap f := by
  rw [List.rdropWhile, List.rdropWhile, List.reverse_flatMap,
    dropWhile_flatMap (p := p) (by simpa using h), List.reverse_flatMap]
  exact List.flatMap_congr fun a _ => List.reverse_reverse (f a)

theorem flatMap_text_tokenLetters {role : Role} (h : role ≠ .mark) (t : Token) :
    (tokenLetters role t).flatMap Letter.text = t.kept := by
  by_cases he : ∃ c, t = .escape c
  · obtain ⟨c, rfl⟩ := he
    simp [tokenLetters, Letter.text, h, Token.kept, Argument.escaped]
  · rw [not_exists] at he
    have hkept : t.kept = t.chars := by
      cases t with
      | escape c => exact absurd rfl (he c)
      | _ => rfl
    rw [tokenLetters_of_ne role he, hkept]
    simp [List.flatMap_map, Letter.text, h]

theorem role_of_mem_tokenLetters {role : Role} {t : Token} {l : Letter}
    (h : l ∈ tokenLetters role t) : l.role = role := by
  by_cases he : ∃ c, t = .escape c
  · obtain ⟨c, rfl⟩ := he
    rw [List.mem_singleton.mp h]
  · rw [tokenLetters_of_ne role (not_exists.mp he)] at h
    obtain ⟨c, -, rfl⟩ := List.mem_map.mp h
    rfl

theorem tokenLetters_ne_nil (role : Role) {t : Token} (ht : t.Proper) :
    tokenLetters role t ≠ [] := by
  by_cases he : ∃ c, t = .escape c
  · obtain ⟨c, rfl⟩ := he
    exact List.cons_ne_nil _ _
  · rw [tokenLetters_of_ne role (not_exists.mp he), ne_eq, List.map_eq_nil_iff]
    exact ht.chars_ne_nil

/-- The characters of a token are white space exactly if the token is. -/
theorem isBlank_of_mem_tokenLetters {t : Token} (ht : t.Proper) {l : Letter}
    (h : l ∈ tokenLetters .outside t) : l.isBlank = t.isBlank := by
  cases t with
  | escape c => rw [List.mem_singleton.mp h]; rfl
  | blank s =>
    obtain ⟨c, hc, rfl⟩ := List.mem_map.mp h
    exact ht.2 c hc
  | plain s =>
    obtain ⟨c, hc, rfl⟩ := List.mem_map.mp h
    have hplain := ht.2 c hc
    simp only [Token.isPlain, Bool.and_eq_true, Bool.not_eq_true'] at hplain
    exact hplain.2
  | quote q => rw [List.mem_singleton.mp h]; cases q <;> decide
  | _ => rw [List.mem_singleton.mp h]; decide

/-- **A stretch outside of quotations** is trimmed as a whole. -/
theorem segmentText_tokens {tokens : List Token} (h : ∀ t ∈ tokens, t.Proper) :
    segmentText (tokens.flatMap (tokenLetters .outside)) = stretchText tokens := by
  have huniform {tokens : List Token} (h : ∀ t ∈ tokens, t.Proper) :
      ∀ t ∈ tokens, tokenLetters .outside t ≠ [] ∧
        ∀ l ∈ tokenLetters .outside t, l.isBlank = t.isBlank :=
    fun t ht => ⟨tokenLetters_ne_nil _ (h t ht), fun _ => isBlank_of_mem_tokenLetters (h t ht)⟩
  have hdrop : ∀ t ∈ tokens.dropWhile Token.isBlank, t.Proper :=
    fun t ht => h t ((List.dropWhile_sublist _).subset ht)
  rw [segmentText, dropWhile_flatMap (huniform h), rdropWhile_flatMap (huniform hdrop),
    List.flatMap_assoc, stretchText, Token.trim]
  simp only [flatMap_text_tokenLetters (show Role.outside ≠ .mark by decide)]

/-! ### The arguments of a group -/

theorem role_of_mem_quotation {q : Quote} {body : List Token} {l : Letter}
    (h : l ∈ (Piece.quotation q body).letters) : l.role ≠ .outside := by
  rw [Piece.letters, List.mem_cons, List.mem_append, List.mem_singleton] at h
  obtain rfl | hl | rfl := h
  · exact Role.noConfusion
  · obtain ⟨t, -, hl⟩ := List.mem_flatMap.mp hl
    rw [role_of_mem_tokenLetters hl]
    exact Role.noConfusion
  · exact Role.noConfusion

theorem flatMap_text_quotation (q : Quote) (body : List Token) :
    (Piece.quotation q body).letters.flatMap Letter.text = body.flatMap Token.kept := by
  have hbody : (body.flatMap (tokenLetters .inside)).flatMap Letter.text =
      body.flatMap Token.kept := by
    rw [List.flatMap_assoc]
    simp only [flatMap_text_tokenLetters (show Role.inside ≠ .mark by decide)]
  rw [Piece.letters, List.flatMap_cons, List.flatMap_append, hbody]
  simp [Letter.text]

/-- The text of an argument, token by token and character by character. -/
theorem argumentTextFrom_eq {stretch : List Token} {pieces : List Piece}
    (hstretch : ∀ t ∈ stretch, t.Proper) (h : ∀ piece ∈ pieces, ∀ t ∈ piece.tokens, t.Proper) :
    argumentTextFrom stretch pieces =
      pieceText (stretch.flatMap (tokenLetters .outside) ++ pieces.flatMap Piece.letters) := by
  have houtside (stretch : List Token) :
      ∀ l ∈ stretch.flatMap (tokenLetters .outside), l.role = .outside := by
    intro l hl
    obtain ⟨t, -, hl⟩ := List.mem_flatMap.mp hl
    exact role_of_mem_tokenLetters hl
  induction pieces generalizing stretch with
  | nil =>
    rw [argumentTextFrom, ← segmentText_tokens hstretch,
      pieceText_append (houtside stretch) (by simp)]
    exact (List.append_nil _).symm
  | cons piece pieces ih =>
    obtain ⟨hpiece, hpieces⟩ := List.forall_mem_cons.mp h
    cases piece with
    | token t =>
      have ht : t.Proper := hpiece t List.mem_cons_self
      rw [argumentTextFrom, ih (List.forall_mem_append.mpr ⟨hstretch, by simpa using ht⟩) hpieces]
      simp [Piece.letters]
    | quotation q body =>
      have hrest : argumentTextFrom [] pieces = pieceText (pieces.flatMap Piece.letters) :=
        ih (fun _ h => absurd h List.not_mem_nil) hpieces
      rw [argumentTextFrom, hrest, ← segmentText_tokens hstretch, List.flatMap_cons,
        pieceText_append (houtside stretch) (by simp [Piece.letters]),
        pieceText_append_of_ne fun _ => role_of_mem_quotation, flatMap_text_quotation]

/-- A list in which each element stands for a part of another one is split like that one. -/
theorem splitOn_flatMap {α β : Type} [BEq α] [LawfulBEq α] [BEq β] [LawfulBEq β] {f : α → List β}
    {a : α} {b : β} (ha : f a = [b]) {l : List α} (h : ∀ x ∈ l, x ≠ a → b ∉ f x) :
    (l.flatMap f).splitOn b = (l.splitOn a).map (List.flatMap f) := by
  induction hn : l.length using Nat.strongRecOn generalizing l with
  | ind n ih =>
    have hnot {part : List α} (hsub : ∀ x ∈ part, x ∈ l) (hpart : a ∉ part) :
        b ∉ part.flatMap f := by
      intro hb
      obtain ⟨x, hx, hb⟩ := List.mem_flatMap.mp hb
      exact h x (hsub x hx) (ne_of_mem_of_not_mem hx hpart) hb
    by_cases hmem : a ∈ l
    · obtain ⟨first, rest, rfl, hfirst⟩ := List.eq_append_cons_of_mem hmem
      have hlen : rest.length < n := by
        rw [← hn, List.length_append, List.length_cons]
        omega
      have hrest := ih _ hlen
        (fun x hx => h x (List.mem_append_right _ (List.mem_cons_of_mem _ hx))) rfl
      rw [List.flatMap_append, List.flatMap_cons, ha, List.singleton_append,
        List.splitOn_append_cons_self_of_not_mem
          (hnot (fun x hx => List.mem_append_left _ hx) hfirst),
        List.splitOn_append_cons_self_of_not_mem hfirst, hrest, List.map_cons]
    · rw [List.splitOn_eq_singleton hmem, List.splitOn_eq_singleton (hnot (fun _ hx => hx) hmem)]
      rfl

theorem subset_of_mem_splitOn {α : Type} [BEq α] [LawfulBEq α] {a : α} {l part : List α}
    (h : part ∈ l.splitOn a) : part ⊆ l := by
  induction l generalizing part with
  | nil => simpa using h
  | cons x l ih =>
    rw [List.splitOn_cons_eq_if_modifyHead] at h
    split at h
    · obtain rfl | h := List.mem_cons.mp h
      · exact List.nil_subset _
      · exact List.subset_cons_of_subset x (ih h)
    · obtain ⟨first, parts, hparts⟩ := List.exists_cons_of_ne_nil (List.splitOn_ne_nil a l)
      rw [hparts] at h ih
      obtain rfl | h := List.mem_cons.mp h
      · exact List.cons_subset_cons x (ih List.mem_cons_self)
      · exact List.subset_cons_of_subset x (ih (List.mem_cons_of_mem _ h))

theorem length_splitOn {α : Type} [BEq α] [LawfulBEq α] (a : α) (l : List α) :
    (l.splitOn a).length = l.count a + 1 := by
  induction l with
  | nil => rfl
  | cons x l ih =>
    rw [List.splitOn_cons_eq_if_modifyHead, List.count_cons]
    split <;> simp [ih]

theorem comma_notMem_tokenLetters {role : Role} {t : Token} (ht : t.Proper) (h : t ≠ .comma) :
    Letter.comma ∉ tokenLetters role t := by
  intro hmem
  by_cases he : ∃ c, t = .escape c
  · obtain ⟨c, rfl⟩ := he
    simp [tokenLetters, Letter.comma] at hmem
  · rw [not_exists] at he
    rw [tokenLetters_of_ne role he] at hmem
    obtain ⟨c, hc, hcomma⟩ := List.mem_map.mp hmem
    obtain rfl : c = ',' := congrArg Letter.char hcomma
    obtain ht | ⟨d, hd⟩ := Token.eq_or_escape_of_mem_chars (c := ',') rfl ht hc
    · exact h ht
    · exact he d hd

/-- **The reader splits a group into the arguments that its characters say.** -/
theorem Enclosed.argumentTexts_eq {content : List Piece} (h : Enclosed content) :
    argumentTexts content = splitGroup (source (spell content)) := by
  have hproper : ∀ piece ∈ content, ∀ t ∈ piece.tokens, t.Proper := fun piece hpiece t ht =>
    h.normal.proper t (List.mem_flatMap_of_mem hpiece ht)
  have hcomma : ∀ piece ∈ content, piece ≠ .token .comma → Letter.comma ∉ piece.letters := by
    intro piece hpiece hne
    cases piece with
    | token t =>
      exact comma_notMem_tokenLetters (hproper _ hpiece t List.mem_cons_self)
        fun ht => hne (congrArg Piece.token ht)
    | quotation q body => exact fun hmem => role_of_mem_quotation hmem rfl
  have hsplit : (letters none (source (spell content))).splitOn .comma =
      (content.splitOn (.token .comma)).map (List.flatMap Piece.letters) := by
    rw [h.letters_eq]
    exact splitOn_flatMap (f := Piece.letters) rfl hcomma
  by_cases hblank : (source (spell content)).all Text.isBlank
  · rw [splitGroup, if_pos hblank]
    exact h.argumentTexts_eq_nil_iff.mpr (List.all_eq_true.mp hblank)
  · have hall : content.all Piece.isBlank = false := by
      by_contra hall
      refine hblank (List.all_eq_true.mpr (h.argumentTexts_eq_nil_iff.mp ?_))
      exact if_pos (by simpa using hall)
    rw [splitGroup, if_neg hblank, hsplit, argumentTexts_of_not_blank hall, textsBetweenCommas,
      List.map_map]
    refine List.map_congr_left fun part hpart => ?_
    exact argumentTextFrom_eq (fun _ h => absurd h List.not_mem_nil)
      fun piece hpiece => hproper piece (subset_of_mem_splitOn hpart hpiece)

example : splitGroup " a 'b , c' \\, d ,\\%".toList =
    ["ab , c, d".toList, "\\%".toList] := by decide +kernel

theorem length_splitGroup {group : Text} (h : ¬group.all Text.isBlank) :
    (splitGroup group).length = commas group + 1 := by
  rw [splitGroup, if_neg h, List.length_map, length_splitOn, commas]

/-! ### The placeholders of a text -/

variable {ε : Type} {limit depth : Nat}

/-- The reader passes over a row. -/
theorem Row.exists_passage {tokens : List Token} (h : Row limit depth tokens) (pos : Nat) :
    ∃ events, Passage limit depth .literal pos tokens events .literal := by
  induction h generalizing pos with
  | nil => exact ⟨[], .nil⟩
  | @literal t tokens ht _ ih =>
    obtain ⟨events, hread⟩ := ih (pos + t.width)
    have hstep : State.literal.advance limit depth ⟨pos, pos + t.width⟩ t =
        .ok (.literal, [.copy t.spoken]) := by
      cases t with
      | percent => exact absurd rfl ht
      | _ => rfl
    exact ⟨_, .cons hstep hread⟩
  | placeholder hdepth hp _ ih =>
    obtain ⟨front, hread, -⟩ := passage_placeholder limit depth hp hdepth pos
    obtain ⟨events, hrest⟩ := ih _
    exact ⟨_, hread.append hrest⟩

/-- A placeholder that is passed over does not lie too deep. -/
theorem depth_le_of_passage {pos : Nat} {p : Placeholder} {rest : List Token}
    {events : List Event} {last : State}
    (h : Passage limit depth .literal pos (p.tokens ++ rest) events last) : depth ≤ limit := by
  cases h with
  | cons hstep _ =>
    rw [State.advance, readLiteral] at hstep
    split at hstep
    · simp at hstep
    · rename_i hdepth
      exact Nat.not_lt.mp hdepth

/-- The texts of the arguments of a placeholder are found by splitting its groups. -/
theorem Placeholder.argumentTexts_eq_flatMap {p : Placeholder} (hp : p.WellFormed)
    (hn : Normal p.tokens) :
    p.argumentTexts = (p.sequels.flatMap Sequel.rawGroup).flatMap splitGroup := by
  rw [argumentTexts, List.flatMap_assoc]
  refine List.flatMap_congr fun sequel hsequel => ?_
  cases sequel with
  | passed t => rfl
  | group content =>
    rw [Sequel.rawGroup, List.flatMap_singleton]
    by_cases hempty : content = []
    · rw [hempty]
      rfl
    · have hmem : content ∈ p.contents :=
        List.mem_flatMap.mpr ⟨_, hsequel, Sequel.mem_contents.mpr ⟨rfl, hempty⟩⟩
      exact (enclosed_of_mem hp hn hmem).argumentTexts_eq

/-- **The call of a placeholder.** A placeholder behind other tokens is called once its arguments
are expanded, after the calls that the tokens in front of it make by themselves. -/
theorem exists_call_of_placeholder {oracle : Oracle ε} {before : List Call} {text : Text}
    {last : List Text × Text}
    (hok : (runSteps oracle before [] (plan limit depth text)).result = .ok last)
    {front : List Token} {p : Placeholder} {back : List Token}
    (hscan : scan text = front ++ (p.tokens ++ back)) (hrow : Row limit depth front)
    (hp : p.WellFormed) :
    let earlier := (runSteps oracle before [] (plan limit depth (source front))).calls
    ∃ inner warnings values later,
      (runSteps oracle before [] (plan limit depth text)).calls =
        earlier ++ (inner ++ ⟨p.nameText, p.rawArgs, values⟩ :: later) ∧
      Expands limit (depth + 1) oracle (before ++ earlier) p.argumentTexts inner warnings
        values := by
  intro earlier
  have hnormal : Normal (front ++ (p.tokens ++ back)) := hscan ▸ Token.normal_scan text
  have hread := passage_of_runSteps_ok hok
  rw [hscan] at hread
  -- the reader is outside of placeholders behind `front`
  obtain ⟨events, hfront⟩ := hrow.exists_passage 0
  obtain ⟨_, _, middle, _, hfront', hbehind⟩ := hread.split
  obtain rfl := hfront.last_unique hfront'
  obtain ⟨arguments, hinner, hplaceholder⟩ := outlineFrom_placeholder limit depth hp
    (depth_le_of_passage hbehind) (0 + Token.totalWidth front)
  have houtline := hfront.outlineFrom_append (p.tokens ++ back)
  rw [hplaceholder, ← hscan] at houtline
  rw [plan_eq limit depth text, outline, houtline, List.map_append] at hok ⊢
  obtain ⟨mid, out, hmid, hrest, -⟩ := ok_of_runSteps_append_ok hok
  have hnil : mid.1 = [] := args_eq_nil_of_passage hfront rfl text (fun _ => rfl) hmid
  have hearlier : earlier =
      (runSteps oracle before [] (events.map (Event.step limit depth text))).calls := by
    simp only [earlier]
    rw [plan_eq, outline, Token.scan_source hnormal.left, hfront.outlineFrom_eq,
      runSteps_input text (source front) hmid]
  rw [hnil, ← hearlier] at hrest
  rw [runSteps_append, Run.andThen_of_ok hmid, Run.calls_map, ← hearlier, hnil]
  obtain ⟨inner, warnings, values, later, hx, hcalls⟩ := exists_call_of_ok hinner hrest
  exact ⟨inner, warnings, values, later, congrArg (earlier ++ ·) hcalls, hx⟩

/-- **The groups of an expanded text are split into arguments.** The text is a row of placeholders
and other tokens. A group of white space has no arguments, and any other group has one more than it
has commas that are neither quoted nor escaped; the placeholder is called with what the arguments of
all its groups expand to, one level deeper. -/
theorem expands_splitGroup {oracle : Oracle ε} {before : List Call} {text : Text}
    {last : List Text × Text}
    (hok : (runSteps oracle before [] (plan limit depth text)).result = .ok last) :
    Row limit depth (scan text) ∧
    ∀ (front : List Token) (p : Placeholder) (back : List Token),
      scan text = front ++ (p.tokens ++ back) → Row limit depth front → p.WellFormed →
      let groups := p.sequels.flatMap Sequel.rawGroup
      let earlier := (runSteps oracle before [] (plan limit depth (source front))).calls
      (∀ group ∈ groups, if group.all Text.isBlank then splitGroup group = []
        else (splitGroup group).length = commas group + 1) ∧
      ∃ inner warnings values later,
        (runSteps oracle before [] (plan limit depth text)).calls =
          earlier ++ (inner ++ ⟨p.nameText, p.rawArgs, values⟩ :: later) ∧
        Expands limit (depth + 1) oracle (before ++ earlier) (groups.flatMap splitGroup) inner
          warnings values := by
  refine ⟨row_of_passage (passage_of_runSteps_ok hok), fun front p back hscan hrow hp => ?_⟩
  intro groups earlier
  constructor
  · intro group _
    split
    · rename_i hblank
      exact if_pos hblank
    · rename_i hblank
      exact length_splitGroup hblank
  · have hnormal : Normal (front ++ (p.tokens ++ back)) := hscan ▸ Token.normal_scan text
    have htexts := Placeholder.argumentTexts_eq_flatMap hp hnormal.right.left
    exact htexts ▸ exists_call_of_placeholder hok hscan hrow hp

/-- A group with a quotation between other text, an escaped comma and a quoted call. -/
theorem expands_splitGroup_of_quotations :
    let oracle : Oracle Empty := fun _ call => .ok call.args.flatten
    let text := "%F( a 'b , c' \\, d , '%G( x )%')%".toList
    (runSteps oracle [] [] (plan 1 0 text)).result = .ok ([], "ab , c, dx".toList) ∧
    ∃ inner warnings values later,
      (runSteps oracle [] [] (plan 1 0 text)).calls =
        inner ++ ⟨['F'], " a 'b , c' \\, d , '%G( x )%'".toList, values⟩ :: later ∧
      Expands 1 1 oracle [] ["ab , c, d".toList, "%G( x )%".toList] inner warnings values := by
  intro oracle text
  let p : Placeholder := ⟨[.token (.plain ['F'])], [.group [.token (.blank [' ']),
    .token (.plain ['a']), .token (.blank [' ']), .quotation .single (scan "b , c".toList),
    .token (.blank [' ']), .token (.escape ','), .token (.blank [' ']), .token (.plain ['d']),
    .token (.blank [' ']), .token .comma, .token (.blank [' ']),
    .quotation .single (scan "%G( x )%".toList)]]⟩
  have hok : (runSteps oracle [] [] (plan 1 0 text)).result = .ok ([], "ab , c, dx".toList) := by
    decide +kernel
  have hscan : scan text = [] ++ (p.tokens ++ []) := by decide +kernel
  have hp : p.WellFormed := by
    refine ⟨?_, ?_, ?_, ?_⟩
    · simp [p, Piece.Fits]
    · decide
    · simp [p]
    · have hbodies : .quote .single ∉ scan "b , c".toList ∧
          .quote .single ∉ scan "%G( x )%".toList := by decide +kernel
      simpa [p, Sequel.WellFormed, Piece.Fits] using hbodies
  have hearlier : (runSteps oracle [] [] (plan 1 0 (source []))).calls = [] := by decide +kernel
  have hraw : p.rawArgs = " a 'b , c' \\, d , '%G( x )%'".toList := by decide +kernel
  have htexts : (p.sequels.flatMap Sequel.rawGroup).flatMap splitGroup =
      ["ab , c, d".toList, "%G( x )%".toList] := by decide +kernel
  obtain ⟨-, inner, warnings, values, later, hcalls, hx⟩ :=
    (expands_splitGroup hok).2 [] p [] hscan .nil hp
  rw [hearlier, hraw] at hcalls
  rw [hearlier, htexts] at hx
  exact ⟨hok, inner, warnings, values, later, hcalls, hx⟩

end Template

end TabFormat
