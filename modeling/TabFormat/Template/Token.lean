import TabFormat.Text.Blank

/-!
# Tokens of a template

A template is read as a sequence of tokens: the seven special characters, escapes, runs of white
space and runs of other text. What a token means depends on where it stands, so a token only names
the class of its characters. Nothing is lost: the characters of the tokens, one after another, are
the template.
-/

namespace TabFormat

/-- The kinds of quotation mark. -/
inductive Quote where
  /-- The apostrophe. -/
  | single
  /-- The double quotation mark. -/
  | double
  /-- The grave accent. -/
  | back
deriving DecidableEq, Repr

/-- The character that opens and closes a quotation of this kind. -/
def Quote.char : Quote → Char
  | single => '\''
  | double => '"'
  | back => '\x60'

/-- A token of a template. -/
inductive Token where
  /-- The percent sign. -/
  | percent
  /-- The opening parenthesis. -/
  | openParen
  /-- The closing parenthesis. -/
  | closeParen
  /-- The comma. -/
  | comma
  /-- A quotation mark. -/
  | quote (q : Quote)
  /-- A backslash and the character after it, which may be any. -/
  | escape (c : Char)
  /-- A backslash with nothing after it. -/
  | backslash
  /-- A run of white space. -/
  | blank (s : Text)
  /-- A run of characters without a class of their own. -/
  | plain (s : Text)
deriving DecidableEq, Repr

namespace Token

/-- The characters of the token. -/
def chars : Token → Text
  | percent => ['%']
  | openParen => ['(']
  | closeParen => [')']
  | comma => [',']
  | quote q => [q.char]
  | escape c => ['\\', c]
  | backslash => ['\\']
  | blank s => s
  | plain s => s

/-- The number of bytes of the token. -/
def width (t : Token) : Nat := t.chars.byteLength

/-- The token that a special character forms by itself. -/
def ofChar? : Char → Option Token
  | '%' => some percent
  | '(' => some openParen
  | ')' => some closeParen
  | ',' => some comma
  | '\'' => some (quote .single)
  | '"' => some (quote .double)
  | '\x60' => some (quote .back)
  | _ => none

/-- Whether the character belongs to a run of plain text. -/
def isPlain (c : Char) : Bool :=
  (ofChar? c).isNone && c != '\\' && !Text.isBlank c

/-- The tokens of a text. A run is as long as it can be. -/
def scan : Text → List Token
  | [] => []
  | '\\' :: [] => [backslash]
  | '\\' :: c :: rest => escape c :: scan rest
  | c :: rest =>
    match ofChar? c with
    | some token => token :: scan rest
    | none =>
      if Text.isBlank c then
        blank (c :: rest.takeWhile Text.isBlank) :: scan (rest.dropWhile Text.isBlank)
      else
        plain (c :: rest.takeWhile isPlain) :: scan (rest.dropWhile isPlain)
termination_by s => s.length
decreasing_by
  all_goals simp only [List.length_cons]
  all_goals first
    | omega
    | exact Nat.lt_succ_of_le (List.dropWhile_suffix _).length_le

/-- The tokens with their byte ranges, the first one starting at `start`. -/
def locate (start : Nat) : List Token → List (Token × Span)
  | [] => []
  | t :: rest => (t, ⟨start, start + t.width⟩) :: locate (start + t.width) rest

/-- The number of bytes of a sequence of tokens. -/
def totalWidth : List Token → Nat
  | [] => 0
  | t :: rest => t.width + totalWidth rest

theorem chars_of_ofChar? {c : Char} {t : Token} (h : ofChar? c = some t) : t.chars = [c] := by
  unfold ofChar? at h
  split at h <;> simp only [Option.some.injEq, reduceCtorEq] at h <;> subst h <;> rfl

/-- The characters of the tokens, one after another, are the text. -/
theorem flatMap_chars_scan (s : Text) : (scan s).flatMap chars = s := by
  fun_induction scan s with
  | case1 => rfl
  | case2 => rfl
  | case3 c rest ih => simp [chars, ih]
  | case4 c rest _ _ t h ih => simp [chars_of_ofChar? h, ih]
  | case5 c rest _ _ _ _ ih => simp [chars, ih]
  | case6 c rest _ _ _ _ ih => simp [chars, ih]

theorem totalWidth_eq (ts : List Token) : totalWidth ts = Text.byteLength (ts.flatMap chars) := by
  induction ts with
  | nil => rfl
  | cons t ts ih => simp [totalWidth, width, ih]

/-- The tokens take as many bytes as the text. -/
theorem totalWidth_scan (s : Text) : totalWidth (scan s) = s.byteLength := by
  rw [totalWidth_eq, flatMap_chars_scan]

end Token

end TabFormat
