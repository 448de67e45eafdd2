import TabFormat.Builtin.Escape

/-!
# Reading escaped texts

A text that was escaped for HTML is read by decoding its entities, and one that was escaped for
Markdown by taking each backslash together with the character after it. In both cases the text comes
back, and none of its characters can be taken for markup.

## Main definitions

* `decodeHtml` : the text that a text with entities stands for.
* `readBackslashes` : the characters of a text with backslashes, each with whether it is escaped.
* `Guards` : a text with backslashes in which no character of a set is without one.

## Main results

* `decodeHtml_html`, `markup_notMem_html`, `entity_of_html_eq` : texts escaped for HTML.
* `readBackslashes_backslash` : the reading of a text that was escaped with backslashes.
* `guards_markdown`, `guards_markdownLinkTitle` : texts escaped for Markdown.
-/

namespace TabFormat.Escape

/-! ### HTML -/

/-- What follows the ampersand in an entity, and the character that the entity stands for. -/
def entities : List (Text × Char) :=
  [("amp;".toList, '&'), ("quot;".toList, '"'), ("lt;".toList, '<'), ("gt;".toList, '>')]

/-- Decodes the entities of a text, after so many more characters of an entity. -/
def decodeFrom : Nat → Text → Text
  | _, [] => []
  | skipped + 1, _ :: s => decodeFrom skipped s
  | 0, c :: s =>
    match if c = '&' then entities.find? (·.1.isPrefixOf s) else none with
    | some (name, decoded) => decoded :: decodeFrom name.length s
    | none => c :: decodeFrom 0 s

/-- The text that a text with entities stands for. -/
def decodeHtml (s : Text) : Text :=
  decodeFrom 0 s

theorem entity_of_notMem {c : Char} (h : c ∉ ['&', '"', '<', '>']) : entity c = [c] := by
  simp only [List.mem_cons, List.not_mem_nil, or_false, not_or] at h
  obtain ⟨hamp, hquot, hlt, hgt⟩ := h
  unfold entity
  split <;> first | contradiction | rfl

/-- A character is written as an entity, or else it is no markup and is written as it is. -/
theorem entity_cases (c : Char) :
    (∃ name, (name, c) ∈ entities ∧ entity c = '&' :: name) ∨
      c ∉ ['&', '"', '<', '>'] ∧ entity c = [c] := by
  by_cases hc : c ∈ ['&', '"', '<', '>']
  · left
    simp only [List.mem_cons, List.not_mem_nil, or_false] at hc
    rcases hc with rfl | rfl | rfl | rfl
    all_goals exact ⟨_, by decide, rfl⟩
  · exact .inr ⟨hc, entity_of_notMem hc⟩

theorem decodeFrom_length_append (name s : Text) :
    decodeFrom name.length (name ++ s) = decodeFrom 0 s := by
  induction name with
  | nil => rfl
  | cons c name ih => exact ih

/-- None of the entities begins another one. -/
theorem find?_entities {name : Text} {c : Char} (h : (name, c) ∈ entities) (s : Text) :
    entities.find? (·.1.isPrefixOf (name ++ s)) = some (name, c) := by
  simp only [entities, List.mem_cons, List.not_mem_nil, or_false, Prod.mk.injEq] at h
  rcases h with ⟨rfl, rfl⟩ | ⟨rfl, rfl⟩ | ⟨rfl, rfl⟩ | ⟨rfl, rfl⟩ <;> rfl

theorem decodeFrom_entity_append (c : Char) (s : Text) :
    decodeFrom 0 (entity c ++ s) = c :: decodeFrom 0 s := by
  obtain ⟨name, hname, hentity⟩ | ⟨hplain, hentity⟩ := entity_cases c
  · rw [hentity, List.cons_append, decodeFrom, if_pos rfl, find?_entities hname]
    exact congrArg (c :: ·) (decodeFrom_length_append name s)
  · rw [hentity, List.singleton_append, decodeFrom, if_neg (List.ne_of_not_mem_cons hplain)]

/-- **Decoding the entities gives the text back.** -/
theorem decodeHtml_html (s : Text) : decodeHtml (html s) = s := by
  induction s with
  | nil => rfl
  | cons c s ih =>
    rw [decodeHtml, html, List.flatMap_cons, decodeFrom_entity_append, ← html]
    exact congrArg (c :: ·) ih

/-- A text that was escaped for HTML has no characters of markup but ampersands. -/
theorem markup_notMem_html (s : Text) : ∀ c ∈ html s, c ∉ ['"', '<', '>'] := by
  intro c hc
  obtain ⟨d, -, hd⟩ := List.mem_flatMap.mp hc
  obtain ⟨name, hname, hentity⟩ | ⟨hplain, hentity⟩ := entity_cases d
  · have hnames : ∀ e ∈ entities, ('&' :: e.1).all (· ∉ ['"', '<', '>']) := by decide
    exact of_decide_eq_true (List.all_eq_true.mp (hnames _ hname) c (hentity ▸ hd))
  · rw [hentity, List.mem_singleton] at hd
    exact hd ▸ List.not_mem_of_not_mem_cons hplain

/-- The only ampersand of an entity is its first character. -/
theorem entity_of_entity_eq {c : Char} {before after : Text}
    (h : entity c = before ++ '&' :: after) : before = [] ∧ (after, c) ∈ entities := by
  obtain ⟨name, hname, hentity⟩ | ⟨hplain, hentity⟩ := entity_cases c
  · rw [hentity] at h
    cases before with
    | nil => exact ⟨rfl, List.tail_eq_of_cons_eq h ▸ hname⟩
    | cons d before =>
      have hnames : ∀ e ∈ entities, '&' ∉ e.1 := by decide
      have hmem : '&' ∈ name :=
        List.tail_eq_of_cons_eq h ▸ List.mem_append_right _ List.mem_cons_self
      exact absurd hmem (hnames _ hname)
  · have hmem : '&' ∈ [c] := hentity ▸ h ▸ List.mem_append_right _ List.mem_cons_self
    rw [← List.mem_singleton.mp hmem] at hplain
    exact absurd List.mem_cons_self hplain

/-- **Every ampersand in a text that was escaped for HTML begins an entity.** -/
theorem entity_of_html_eq {s before after : Text} (h : html s = before ++ '&' :: after) :
    ∃ e ∈ entities, e.1 <+: after := by
  induction s generalizing before with
  | nil => simp [html] at h
  | cons c s ih =>
    rw [html, List.flatMap_cons, ← html] at h
    obtain ⟨rest, -, hrest⟩ | ⟨rest, hentity, hrest⟩ := List.append_eq_append_iff.mp h
    · exact ih hrest
    · cases rest with
      | nil => exact ih (show html s = [] ++ '&' :: after from hrest.symm)
      | cons d rest =>
        obtain ⟨rfl, hafter⟩ := List.cons.inj hrest
        obtain ⟨-, hname⟩ := entity_of_entity_eq hentity
        exact ⟨(rest, c), hname, hafter ▸ List.prefix_append _ _⟩

/-! ### Markdown -/

/-- The characters of a text, each with whether a backslash escapes it. -/
def readBackslashes : Text → List (Bool × Char)
  | '\\' :: c :: s => (true, c) :: readBackslashes s
  | c :: s => (false, c) :: readBackslashes s
  | [] => []

theorem readBackslashes_cons {c : Char} (h : c ≠ '\\') (s : Text) :
    readBackslashes (c :: s) = (false, c) :: readBackslashes s := by
  rw [readBackslashes]
  intros
  contradiction

/-- **Reading the backslashes gives the text back**, and exactly the characters of the set are
escaped, if the backslash is one of them. -/
theorem readBackslashes_backslash {special : Char → Bool} (h : special '\\' = true) (s : Text) :
    readBackslashes (backslash special s) = s.map fun c => (special c, c) := by
  induction s with
  | nil => rfl
  | cons c s ih =>
    rw [backslash, List.flatMap_cons, ← backslash, List.map_cons]
    cases hc : special c with
    | true => rw [if_pos rfl, ← ih]; rfl
    | false =>
      have hne : c ≠ '\\' := fun heq => by simp [heq, h] at hc
      rw [if_neg Bool.false_ne_true, List.singleton_append, readBackslashes_cons hne, ih]

/-- A text in which every character of a set has a backslash before it, and which is another text
but for the backslashes that escape. -/
structure Guards (special : Char → Prop) (s escaped : Text) : Prop where
  /-- The characters of the set are escaped. -/
  escapes : ∀ c, (false, c) ∈ readBackslashes escaped → ¬special c
  /-- Without the backslashes that escape, the text is the other one. -/
  text : (readBackslashes escaped).map Prod.snd = s

theorem guards_backslash {special : Char → Bool} (h : special '\\' = true) (s : Text) :
    Guards (special · = true) s (backslash special s) where
  escapes c hc := by
    rw [readBackslashes_backslash h] at hc
    obtain ⟨d, -, hd⟩ := List.mem_map.mp hc
    obtain ⟨hspecial, rfl⟩ := Prod.mk.inj hd
    rw [hspecial]
    exact Bool.false_ne_true
  text := by
    rw [readBackslashes_backslash h, List.map_map]
    exact List.map_id s

theorem toNat_lt_of_isPunctuation {c : Char} (h : isPunctuation c = true) : c.toNat < 0x7F := by
  have hall : "!\"#$%&'()*+,-./:;<=>?@[\\]^_\x60\x7b|\x7d~".toList.all (·.toNat < 0x7F) := by
    decide
  exact of_decide_eq_true (List.all_eq_true.mp hall c (List.contains_iff_mem.mp h))

/-- The characters of ASCII between the space and the control character at its end, but for digits
and letters. -/
def IsAsciiPunctuation (c : Char) : Prop :=
  0x21 ≤ c.toNat ∧ c.toNat ≤ 0x2F ∨ 0x3A ≤ c.toNat ∧ c.toNat ≤ 0x40 ∨
    0x5B ≤ c.toNat ∧ c.toNat ≤ 0x60 ∨ 0x7B ≤ c.toNat ∧ c.toNat ≤ 0x7E

/-- The characters that are escaped in Markdown are all the punctuation of ASCII. -/
theorem isPunctuation_iff (c : Char) : isPunctuation c = true ↔ IsAsciiPunctuation c := by
  have hascii : ∀ n < 0x7F, isPunctuation (Char.ofNat n) = true ↔ 0x21 ≤ n ∧ n ≤ 0x2F ∨
      0x3A ≤ n ∧ n ≤ 0x40 ∨ 0x5B ≤ n ∧ n ≤ 0x60 ∨ 0x7B ≤ n ∧ n ≤ 0x7E := by decide +kernel
  rw [IsAsciiPunctuation]
  by_cases hc : c.toNat < 0x7F
  · have h := hascii c.toNat hc
    rwa [Char.ofNat_toNat] at h
  · have hfalse : isPunctuation c ≠ true := fun h => hc (toNat_lt_of_isPunctuation h)
    constructor
    · exact fun h => absurd h hfalse
    · omega

theorem guards_markdown (s : Text) : Guards IsAsciiPunctuation s (markdown s) := by
  have h : Guards (isPunctuation · = true) s (markdown s) := guards_backslash rfl s
  rwa [funext fun c => propext (isPunctuation_iff c)] at h

theorem guards_markdownLinkTitle (s : Text) :
    Guards (· ∈ ['"', '\'', '(', ')', '&', '\\']) s (markdownLinkTitle s) := by
  have h : Guards (isLinkTitleSpecial · = true) s (markdownLinkTitle s) := guards_backslash rfl s
  rwa [show (isLinkTitleSpecial · = true) = (· ∈ ['"', '\'', '(', ')', '&', '\\']) from
    funext fun c => propext List.contains_iff_mem] at h

end TabFormat.Escape
