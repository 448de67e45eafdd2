import TabFormat.Proofs.Normal
import TabFormat.Proofs.Shift

/-!
# The tokenization of a text

What a token is can be said without the scanner: it takes up a range of bytes, and the characters in
that range are of its class. A run ends where no further character belongs to it, so that the ranges
are determined from left to right; before a run there may be a character of its class all the same,
if a backslash escapes it. A text has exactly one sequence of such tokens whose ranges cover it
without gaps, and the scanner finds it. Since no token depends on what comes before it, the rest of
a text after any token can be scanned on its own.

## Main definitions

* `Span.Tile`, `Span.Cuts` : ranges that cover a text, and the characters in a range.
* `Token.Describes` : the class of a token.
* `Token.IsTokenization` : a sequence of tokens that covers a text.

## Main results

* `Token.scan_of_describes` : a token is scanned where it is described.
* `Token.exists_of_locate_eq` : a token and its range in the sequence of all.
* `Token.tokenization_unique` : the scanner finds the one tokenization, and it can begin anew after
  each token.
-/

namespace TabFormat

/-! ### Ranges -/

/-- The ranges are not empty, and they cover the bytes from `start` to `stop`, each one beginning
where the one before ends. -/
def Span.Tile (start stop : Nat) : List Span → Prop
  | [] => start = stop
  | span :: rest => span.start = start ∧ start < span.stop ∧ Tile span.stop stop rest

/-- The range has the characters `part` of a text, between `front` and `back`. So both of its ends
lie between characters. -/
structure Span.Cuts (span : Span) (s front part back : Text) : Prop where
  /-- The text consists of the three parts. -/
  text_eq : s = front ++ (part ++ back)
  /-- The range begins after the first part. -/
  start_eq : span.start = front.byteLength
  /-- The range ends after the second part. -/
  stop_eq : span.stop = front.byteLength + part.byteLength

theorem Text.eq_nil_of_byteLength {s : Text} (h : s.byteLength = 0) : s = [] := by
  cases s with
  | nil => rfl
  | cons c s =>
    have hpos := c.utf8Size_pos
    rw [byteLength_cons] at h
    omega

/-- A text is cut in two at a position in one way only. -/
theorem Text.append_inj_of_byteLength {front front' back back' : Text}
    (h : front ++ back = front' ++ back') (hlength : byteLength front = byteLength front') :
    front = front' ∧ back = back' := by
  have hfront : front = front' := by
    rw [← upTo_byteLength_append front back, h, hlength, upTo_byteLength_append]
  exact ⟨hfront, List.append_cancel_left (hfront ▸ h)⟩

namespace Token

/-! ### Classes of tokens -/

/-- The characters that are special, the backslash among them. -/
def specials : List Char :=
  ['%', '(', ')', ',', '\'', '"', '\x60', '\\']

/-- The text `run` is not empty, it is made of characters with a property, and the rest does not go
on with another one. -/
structure IsRun (P : Char → Prop) (run rest : Text) : Prop where
  /-- There is a character. -/
  ne_nil : run ≠ []
  /-- All characters have the property. -/
  forall_mem : ∀ c ∈ run, P c
  /-- The run does not go on. -/
  head_rest : ∀ c ∈ rest.head?, ¬P c

/-- The characters `part`, with `rest` behind them, are of the class of the token. -/
def Describes (part rest : Text) : Token → Prop
  | percent => part = ['%']
  | openParen => part = ['(']
  | closeParen => part = [')']
  | comma => part = [',']
  | quote .single => part = ['\'']
  | quote .double => part = ['"']
  | quote .back => part = ['\x60']
  | escape c => part = ['\\', c]
  | backslash => part = ['\\'] ∧ rest = []
  | blank run => part = run ∧ IsRun (fun c => Text.isBlank c = true) run rest
  | plain run => part = run ∧ IsRun (fun c => c ∉ specials ∧ Text.isBlank c = false) run rest

/-- The ranges of the tokens cover the text, and the characters in each range are of the class of
its token. -/
structure IsTokenization (s : Text) (ts : List (Token × Span)) : Prop where
  /-- The ranges cover the text. -/
  tile : Span.Tile 0 s.byteLength (ts.map Prod.snd)
  /-- The tokens are of their classes. -/
  describes : ∀ t span, (t, span) ∈ ts →
    ∃ front part back, span.Cuts s front part back ∧ t.Describes part back

theorem isPlain_iff (c : Char) :
    isPlain c = true ↔ c ∉ specials ∧ Text.isBlank c = false := by
  have hnone : ofChar? c = none ↔ c ∉ specials ∨ c = '\\' := by
    unfold ofChar?
    split <;> simp_all [specials]
    exact em' _
  have hback : '\\' ∈ specials := by decide
  simp only [isPlain, Bool.and_eq_true, Option.isNone_iff_eq_none, hnone, bne_iff_ne, ne_eq,
    Bool.not_eq_true']
  refine and_congr_left' ⟨fun h => h.1.resolve_right h.2, fun h => ⟨.inl h, ?_⟩⟩
  rintro rfl
  exact h hback

/-- A run is what is taken from a text as long as the property holds. -/
theorem IsRun.span_eq {P : Char → Prop} {p : Char → Bool} (hp : ∀ c, p c = true ↔ P c) {c : Char}
    {run rest : Text} (h : IsRun P (c :: run) rest) :
    p c = true ∧ (run ++ rest).takeWhile p = run ∧ (run ++ rest).dropWhile p = rest := by
  obtain ⟨hc, hrun⟩ := List.forall_mem_cons.mp h.forall_mem
  have hall : ∀ d ∈ run, p d = true := fun d hd => (hp d).mpr (hrun d hd)
  refine ⟨(hp c).mpr hc, ?_, ?_⟩
  · rw [List.takeWhile_append_of_pos hall]
    cases rest with
    | nil => rw [List.takeWhile_nil, List.append_nil]
    | cons d rest =>
      rw [List.takeWhile_cons_of_neg (mt (hp d).mp (h.head_rest d rfl)), List.append_nil]
  · rw [List.dropWhile_append_of_pos hall]
    cases rest with
    | nil => rfl
    | cons d rest => rw [List.dropWhile_cons_of_neg (mt (hp d).mp (h.head_rest d rfl))]

theorem Describes.chars_eq {t : Token} {part rest : Text} (h : t.Describes part rest) :
    t.chars = part := by
  cases t with
  | quote q => cases q <;> exact h.symm
  | backslash => exact h.1.symm
  | blank run => exact h.1.symm
  | plain run => exact h.1.symm
  | _ => exact h.symm

/-- **A token is scanned where it is described**, and then the rest is scanned. -/
theorem scan_of_describes {t : Token} {part rest : Text} (h : t.Describes part rest) :
    scan (part ++ rest) = t :: scan rest := by
  cases t with
  | quote q =>
    cases q
    all_goals
      obtain rfl := h
      exact scan_cons_special rfl rest
  | escape c =>
    obtain rfl := h
    exact scan_escape c rest
  | backslash =>
    obtain ⟨rfl, rfl⟩ := h
    rw [List.append_nil, scan_nil, scan]
  | blank run =>
    obtain ⟨rfl, hrun⟩ := h
    obtain ⟨c, run, rfl⟩ := List.exists_cons_of_ne_nil hrun.ne_nil
    obtain ⟨hc, htake, hdrop⟩ := hrun.span_eq fun _ => Iff.rfl
    rw [List.cons_append, scan_cons_blank hc, htake, hdrop]
  | plain run =>
    obtain ⟨rfl, hrun⟩ := h
    obtain ⟨c, run, rfl⟩ := List.exists_cons_of_ne_nil hrun.ne_nil
    obtain ⟨hc, htake, hdrop⟩ := hrun.span_eq isPlain_iff
    rw [List.cons_append, scan_cons_plain hc, htake, hdrop]
  | _ =>
    obtain rfl := h
    exact scan_cons_special rfl rest

theorem describes_of_ofChar? {c : Char} {t : Token} (h : ofChar? c = some t) (rest : Text) :
    t.Describes [c] rest := by
  unfold ofChar? at h
  split at h <;> simp only [Option.some.injEq, reduceCtorEq] at h <;> subst h <;> rfl

/-- What follows a run that is as long as it can be. -/
theorem isRun_takeWhile {P : Char → Prop} {p : Char → Bool} (hp : ∀ c, p c = true ↔ P c) {c : Char}
    (hc : P c) (s : Text) : IsRun P (c :: s.takeWhile p) (s.dropWhile p) where
  ne_nil := List.cons_ne_nil _ _
  forall_mem := List.forall_mem_cons.mpr ⟨hc, fun d hd => (hp d).mp (List.mem_takeWhile_imp hd)⟩
  head_rest d hd hP := by
    have hstop := List.head?_dropWhile_not p s
    rw [Option.mem_def.mp hd] at hstop
    simp [(hp d).mpr hP] at hstop

/-- **The first token is described**, and the others are the tokens of the rest. -/
theorem exists_describes {s : Text} {t : Token} {tokens : List Token} (h : scan s = t :: tokens) :
    ∃ part rest, s = part ++ rest ∧ t.Describes part rest ∧ scan rest = tokens := by
  fun_cases scan s with
  | case1 => simp [scan_nil] at h
  | case2 =>
    rw [scan] at h
    obtain ⟨rfl, rfl⟩ := List.cons.inj h
    exact ⟨['\\'], [], rfl, ⟨rfl, rfl⟩, scan_nil⟩
  | case3 c rest =>
    rw [scan_escape] at h
    obtain ⟨rfl, rfl⟩ := List.cons.inj h
    exact ⟨['\\', c], rest, rfl, rfl, rfl⟩
  | case4 c rest _ _ u hu =>
    rw [scan_cons_special hu] at h
    obtain ⟨rfl, rfl⟩ := List.cons.inj h
    exact ⟨[c], rest, rfl, describes_of_ofChar? hu rest, rfl⟩
  | case5 c rest _ _ _ hc =>
    rw [scan_cons_blank hc] at h
    obtain ⟨rfl, rfl⟩ := List.cons.inj h
    refine ⟨_, rest.dropWhile Text.isBlank, ?_,
      ⟨rfl, isRun_takeWhile (fun _ => Iff.rfl) hc rest⟩, rfl⟩
    rw [List.cons_append, List.takeWhile_append_dropWhile]
  | case6 c rest hnil hcons hnone hblank =>
    have hne : c ≠ '\\' := by
      rintro rfl
      cases rest with
      | nil => exact hnil rfl rfl
      | cons d rest => exact hcons d rest rfl rfl
    have hc : isPlain c = true := by simp [isPlain, hnone, hblank, hne]
    rw [scan_cons_plain hc] at h
    obtain ⟨rfl, rfl⟩ := List.cons.inj h
    refine ⟨_, rest.dropWhile isPlain, ?_,
      ⟨rfl, isRun_takeWhile isPlain_iff ((isPlain_iff c).mp hc) rest⟩, rfl⟩
    rw [List.cons_append, List.takeWhile_append_dropWhile]

/-! ### Located tokens -/

/-- Tokens behind `n` bytes. -/
theorem locate_add (n start : Nat) (tokens : List Token) :
    locate (n + start) tokens = (locate start tokens).map (Prod.map id (Span.shift n)) := by
  induction tokens generalizing start with
  | nil => rfl
  | cons t tokens ih =>
    rw [locate, locate, Nat.add_assoc, ih, List.map_cons]
    rfl

/-- **A token and its range in the sequence of all.** -/
theorem exists_of_locate_eq {start : Nat} {tokens : List Token} {front back : List (Token × Span)}
    {t : Token} {span : Span} (h : locate start tokens = front ++ (t, span) :: back) :
    ∃ before after, tokens = before ++ t :: after ∧ span.start = start + totalWidth before ∧
      span.stop = span.start + t.width ∧ back = locate span.stop after := by
  induction front generalizing start tokens with
  | nil =>
    cases tokens with
    | nil => simp [locate] at h
    | cons u tokens =>
      rw [locate, List.nil_append] at h
      obtain ⟨hhead, rfl⟩ := List.cons.inj h
      obtain ⟨rfl, rfl⟩ := Prod.mk.inj hhead
      exact ⟨[], tokens, rfl, rfl, rfl, rfl⟩
  | cons first front ih =>
    cases tokens with
    | nil => simp [locate] at h
    | cons u tokens =>
      rw [locate, List.cons_append] at h
      obtain ⟨before, after, rfl, hstart, hstop, hback⟩ := ih (List.cons.inj h).2
      refine ⟨u :: before, after, rfl, ?_, hstop, hback⟩
      rw [hstart, totalWidth, Nat.add_assoc]

/-- The ranges of tokens cover their bytes. -/
theorem tile_locate (start : Nat) {tokens : List Token} (h : ∀ t ∈ tokens, t.Proper) :
    Span.Tile start (start + totalWidth tokens) ((locate start tokens).map Prod.snd) := by
  induction tokens generalizing start with
  | nil => rfl
  | cons t tokens ih =>
    obtain ⟨ht, hrest⟩ := List.forall_mem_cons.mp h
    have hwidth : t.width ≠ 0 := fun hzero => ht.chars_ne_nil (Text.eq_nil_of_byteLength hzero)
    have htile := ih (start + t.width) hrest
    rw [Nat.add_assoc] at htile
    refine ⟨rfl, ?_, htile⟩
    show start < start + t.width
    omega

/-- A token of a text, the text in front of it and the text behind it. -/
theorem cuts_of_scan_eq {s : Text} {before after : List Token} {t : Token}
    (h : scan s = before ++ t :: after) {span : Span} (hstart : span.start = totalWidth before)
    (hstop : span.stop = span.start + t.width) :
    span.Cuts s (source before) t.chars (source after) ∧ t.Describes t.chars (source after) ∧
      scan (source after) = after := by
  have hnormal : Normal (before ++ t :: after) := h ▸ normal_scan s
  obtain ⟨part, rest, -, hdescribes, hrest⟩ := exists_describes (scan_source hnormal.right)
  obtain rfl : t.chars = part := hdescribes.chars_eq
  obtain rfl : source after = rest := by rw [← hrest, source, flatMap_chars_scan]
  refine ⟨⟨?_, hstart.trans (totalWidth_eq before), ?_⟩, hdescribes, hrest⟩
  · rw [← flatMap_chars_scan s, h]
    exact source_append _ _
  · rw [hstop, hstart, totalWidth_eq]
    rfl

/-- The scanner finds a tokenization. -/
theorem isTokenization_scan (s : Text) : IsTokenization s (locate 0 (scan s)) where
  tile := by
    have htile := tile_locate 0 (proper_of_mem_scan s)
    rwa [totalWidth_scan, Nat.zero_add] at htile
  describes t span h := by
    obtain ⟨front, back, hlocate⟩ := List.append_of_mem h
    obtain ⟨before, after, hscan, hstart, hstop, -⟩ := exists_of_locate_eq hlocate
    rw [Nat.zero_add] at hstart
    obtain ⟨hcuts, hdescribes, -⟩ := cuts_of_scan_eq hscan hstart hstop
    exact ⟨_, _, _, hcuts, hdescribes⟩

/-- Tokens that cover the rest of a text are those that the scanner finds in the rest. -/
theorem eq_locate_of_tile {s read rest : Text} (hs : s = read ++ rest)
    {ts : List (Token × Span)}
    (htile : Span.Tile read.byteLength s.byteLength (ts.map Prod.snd))
    (hdescribes : ∀ t span, (t, span) ∈ ts →
      ∃ front part back, span.Cuts s front part back ∧ t.Describes part back) :
    ts = locate read.byteLength (scan rest) := by
  induction ts generalizing read rest with
  | nil =>
    have hlength : read.byteLength = s.byteLength := htile
    rw [hs, Text.byteLength_append] at hlength
    obtain rfl : rest = [] := Text.eq_nil_of_byteLength (by omega)
    rw [scan_nil]
    rfl
  | cons first ts ih =>
    obtain ⟨t, ⟨start, stop⟩⟩ := first
    obtain ⟨hstart, -, hrest⟩ := htile
    obtain ⟨front, part, back, hcuts, ht⟩ := hdescribes t _ List.mem_cons_self
    obtain rfl : start = read.byteLength := hstart
    obtain rfl : stop = front.byteLength + part.byteLength := hcuts.stop_eq
    obtain ⟨rfl, rfl⟩ := Text.append_inj_of_byteLength (hs.symm.trans hcuts.text_eq) hcuts.start_eq
    have hwidth : t.width = part.byteLength := congrArg Text.byteLength ht.chars_eq
    have hread : read.byteLength + part.byteLength = Text.byteLength (read ++ part) :=
      (Text.byteLength_append _ _).symm
    have hwhole : s = read ++ part ++ back := by rw [hs, List.append_assoc]
    have hlater := ih hwhole (hread ▸ hrest) fun u span hu =>
      hdescribes u span (List.mem_cons_of_mem _ hu)
    rw [scan_of_describes ht, locate, hwidth, hlater, hread]

/-- **The scanner finds the one tokenization of a text.** The ranges of its tokens cover the text
without gaps and begin and end between characters, each token is of its class, and no other sequence
is like this. After each token, the scanner finds the same further tokens in the rest of the text by
itself. -/
theorem tokenization_unique (s : Text) :
    (∀ ts, IsTokenization s ts ↔ ts = locate 0 (scan s)) ∧
    ∀ front t span back, locate 0 (scan s) = front ++ (t, span) :: back →
      ∃ read rest, s = read ++ rest ∧ read.byteLength = span.stop ∧
        back = (locate 0 (scan rest)).map (Prod.map id (Span.shift span.stop)) := by
  refine ⟨fun ts => ⟨fun h => ?_, fun h => h ▸ isTokenization_scan s⟩,
    fun front t span back h => ?_⟩
  · exact eq_locate_of_tile (List.nil_append s).symm h.tile h.describes
  · obtain ⟨before, after, hscan, hstart, hstop, rfl⟩ := exists_of_locate_eq h
    rw [Nat.zero_add] at hstart
    obtain ⟨hcuts, -, hafter⟩ := cuts_of_scan_eq hscan hstart hstop
    refine ⟨source before ++ t.chars, source after, ?_, ?_, ?_⟩
    · rw [List.append_assoc]
      exact hcuts.text_eq
    · rw [Text.byteLength_append, hcuts.stop_eq]
    · rw [hafter, ← locate_add, Nat.add_zero]

/-- After an escaped space, the scanner goes on with the white space that is not escaped. -/
theorem tokenization_unique_after_escape :
    let tokens : List (Token × Span) := [(.blank "\u3000 ".toList, ⟨4, 8⟩), (.plain ['x'], ⟨8, 9⟩),
      (.percent, ⟨9, 10⟩), (.backslash, ⟨10, 11⟩)]
    locate 0 (scan "é\\ \u3000 x%\\".toList) =
        (.plain ['é'], ⟨0, 2⟩) :: (.escape ' ', ⟨2, 4⟩) :: tokens ∧
      ∃ read rest : Text, "é\\ \u3000 x%\\".toList = read ++ rest ∧ read.byteLength = 4 ∧
        tokens = (locate 0 (scan rest)).map (Prod.map id (Span.shift 4)) := by
  intro tokens
  have hscan : locate 0 (scan "é\\ \u3000 x%\\".toList) =
      [(.plain ['é'], ⟨0, 2⟩)] ++ (.escape ' ', ⟨2, 4⟩) :: tokens := by decide +kernel
  exact ⟨hscan, (tokenization_unique _).2 _ _ _ _ hscan⟩

end Token

end TabFormat
