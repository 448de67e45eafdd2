import TabFormat.Builtin.Replace
import TabFormat.Proofs.Leftmost

/-!
# Pairs act one after another

The function `replace` is a left fold: each pair of a pattern and a replacement text acts on the
result of the pairs before it and replaces the leftmost match, if there is any. The first pair that
cannot be used decides, whatever the later ones are. So applying two lists of pairs one after the
other is applying them as one.

## Main definitions

* `Replace.arguments` : the arguments that a text and pairs make up.
* `Replace.Refused` : a pattern that cannot be used on a text.
* `Replace.Substituted` : what a single pair makes of a text.

## Main results

* `Replace.substituted_firstMatch` : what a single pair does.
* `Replace.run_arguments` : the pairs act one after another.
* `Replace.foldlM_act_eq_error_iff` : the first pair that cannot be used decides.
* `Replace.run_eq_foldlM` : all of this for every list of arguments.
-/

namespace TabFormat.Replace

open Pattern

/-- The arguments for a text and pairs of a pattern and a replacement text. -/
def arguments (base : Text) (ps : List (Text × Text)) : List Text :=
  base :: ps.flatMap fun pair => [pair.1, pair.2]

/-- What a pair makes of a text. -/
def act (s : Text) (pair : Text × Text) : Except ReplaceError Text :=
  firstMatch pair.1 pair.2 s

/-- The pattern cannot be used on the text: it does not compile, or matching it fails. -/
def Refused (pattern s : Text) (reason : Failure) : Prop :=
  Matcher.ofText pattern = .error reason ∨
    ∃ matcher, Matcher.ofText pattern = .ok matcher ∧ matcher.first? s = .error reason

/-- What a single pair makes of a text. -/
inductive Substituted (pattern replacement s : Text) : Except ReplaceError Text → Prop where
  /-- Without a match, the text stays as it is. The pattern then matches at no place. -/
  | unchanged {matcher : Matcher} (hmatcher : Matcher.ofText pattern = .ok matcher)
    (h : matcher.first? s = .ok none)
    (hnone : ∀ place ∈ (Place.start s).onward, matcher.matchAt (some 0) place = .ok none) :
    Substituted pattern replacement s (.ok s)
  /-- The leftmost match gives way to the replacement text, with its references filled. -/
  | changed {matcher : Matcher} {m : Match} (hmatcher : Matcher.ofText pattern = .ok matcher)
    (h : matcher.first? s = .ok (some m)) (hleftmost : matcher.Leftmost s m) :
    Substituted pattern replacement s
      (.ok (m.start.before ++ Replacement.fill m (Replacement.translate replacement) ++
        m.stop.ahead))
  /-- A pattern that cannot be used is reported. -/
  | refused {reason : Failure} (h : Refused pattern s reason) :
    Substituted pattern replacement s (.error (.invalidPattern pattern reason))

variable {base s pattern replacement : Text} {ps qs : List (Text × Text)}

theorem firstMatch_of_ofText {matcher : Matcher} (h : Matcher.ofText pattern = .ok matcher) :
    firstMatch pattern replacement s =
      match matcher.first? s with
      | .error reason => .error (.invalidPattern pattern reason)
      | .ok none => .ok s
      | .ok (some m) => .ok (m.replaceBy (Replacement.expand m replacement)) := by
  rw [firstMatch, h]
  rfl

/-- **What a single pair does.** -/
theorem substituted_firstMatch (pattern replacement s : Text) :
    Substituted pattern replacement s (firstMatch pattern replacement s) := by
  cases hmatcher : Matcher.ofText pattern with
  | error reason =>
    rw [firstMatch, hmatcher]
    exact .refused (.inl hmatcher)
  | ok matcher =>
    rw [firstMatch_of_ofText hmatcher]
    cases hfirst : matcher.first? s with
    | error reason => exact .refused (.inr ⟨matcher, hmatcher, hfirst⟩)
    | ok found =>
      cases found with
      | none =>
        exact .unchanged hmatcher hfirst (Matcher.matchAt_of_first?_eq_none hmatcher hfirst)
      | some m =>
        exact .changed hmatcher hfirst (Matcher.leftmost_of_first? hmatcher hfirst)

/-- A pair fails exactly if its pattern cannot be used. -/
theorem act_eq_error_iff {pair : Text × Text} {e : ReplaceError} :
    act s pair = .error e ↔
      ∃ reason, Refused pair.1 s reason ∧ e = .invalidPattern pair.1 reason := by
  constructor
  · intro h
    have hsubstituted := substituted_firstMatch pair.1 pair.2 s
    rw [show firstMatch pair.1 pair.2 s = .error e from h] at hsubstituted
    cases hsubstituted with
    | @refused reason hrefused => exact ⟨reason, hrefused, rfl⟩
  · rintro ⟨reason, hofText | ⟨matcher, hmatcher, hfirst⟩, rfl⟩
    · rw [act, firstMatch, hofText]
      rfl
    · rw [act, firstMatch_of_ofText hmatcher, hfirst]

theorem pairs_flatMap (s : Text) (ps : List (Text × Text)) :
    pairs s (ps.flatMap fun pair => [pair.1, pair.2]) = ps.foldlM act s := by
  induction ps generalizing s with
  | nil => rfl
  | cons pair ps ih =>
    rw [List.foldlM_cons, List.flatMap_cons]
    exact congrArg (act s pair >>= ·) (funext ih)

theorem length_flatMap_pair (ps : List (Text × Text)) :
    (ps.flatMap fun pair => [pair.1, pair.2]).length = 2 * ps.length := by
  induction ps with
  | nil => rfl
  | cons pair ps ih =>
    rw [List.flatMap_cons, List.length_append, ih]
    simp
    omega

/-- **The pairs act one after another**, each on the result of the one before. -/
theorem run_arguments (base : Text) (hps : ps ≠ []) :
    run (arguments base ps) = ps.foldlM act base := by
  obtain ⟨pair, ps, rfl⟩ := List.exists_cons_of_ne_nil hps
  have hlength := length_flatMap_pair (pair :: ps)
  have hodd : ¬(2 * (pair :: ps).length) % 2 = 1 := by omega
  rw [← pairs_flatMap]
  rw [← hlength] at hodd
  exact if_neg hodd

/-- The first failure decides. -/
theorem foldlM_act_eq_error_iff {e : ReplaceError} :
    ps.foldlM act base = .error e ↔ ∃ earlier pair later s, ps = earlier ++ pair :: later ∧
      earlier.foldlM act base = .ok s ∧ act s pair = .error e := by
  constructor
  · intro h
    induction ps generalizing base with
    | nil => cases h
    | cons pair ps ih =>
      rw [List.foldlM_cons] at h
      cases hact : act base pair with
      | error e' =>
        rw [hact] at h
        cases h
        exact ⟨[], pair, ps, base, rfl, rfl, hact⟩
      | ok s =>
        rw [hact] at h
        obtain ⟨earlier, pair', later, s', rfl, hearlier, hfail⟩ := ih h
        refine ⟨pair :: earlier, pair', later, s', rfl, ?_, hfail⟩
        rw [List.foldlM_cons, hact]
        exact hearlier
  · rintro ⟨earlier, pair, later, s, rfl, hearlier, hfail⟩
    rw [List.foldlM_append, hearlier]
    show List.foldlM act s (pair :: later) = .error e
    rw [List.foldlM_cons, hfail]
    rfl

/-- An even number of texts makes up pairs. -/
theorem exists_flatMap_pair : (texts : List Text) → texts.length % 2 = 0 →
    ∃ ps : List (Text × Text), texts = ps.flatMap fun pair => [pair.1, pair.2]
  | [], _ => ⟨[], rfl⟩
  | [_], h => absurd h (by simp)
  | pattern :: replacement :: texts, h => by
    have heven : texts.length % 2 = 0 := by
      simp only [List.length_cons] at h
      omega
    obtain ⟨ps, hps⟩ := exists_flatMap_pair texts heven
    refine ⟨(pattern, replacement) :: ps, ?_⟩
    rw [List.flatMap_cons, ← hps]
    rfl

/-- An odd number of arguments, three at least, is made up of a text and pairs. -/
theorem exists_arguments {args : List Text} (hlength : 2 < args.length)
    (hodd : args.length % 2 = 1) : ∃ base ps, ps ≠ [] ∧ args = arguments base ps := by
  cases args with
  | nil => simp at hlength
  | cons base texts =>
    rw [List.length_cons] at hlength hodd
    obtain ⟨ps, rfl⟩ := exists_flatMap_pair texts (by omega)
    refine ⟨base, ps, ?_, rfl⟩
    rintro rfl
    simp at hlength

theorem run_of_even {args : List Text} (hlength : 2 < args.length) (heven : args.length % 2 = 0) :
    run args = .error .missingReplaceText := by
  match args with
  | [] | [_] | [_, _] => simp at hlength
  | base :: pattern :: replacement :: texts =>
    refine if_pos ?_
    rw [List.length_cons] at heven
    omega

/-- **A left fold of single substitutions.** -/
theorem run_eq_foldlM :
    run [] = .error .missingArgument ∧
    (∀ base, run [base] = .error .missingPair) ∧
    (∀ base pattern, run [base, pattern] = .error .missingPair) ∧
    (∀ args, 2 < args.length → args.length % 2 = 0 → run args = .error .missingReplaceText) ∧
    (∀ args, 2 < args.length → args.length % 2 = 1 →
      ∃ base ps, ps ≠ [] ∧ args = arguments base ps) ∧
    (∀ base ps, ps ≠ [] →
      run (arguments base ps) = ps.foldlM act base ∧
      (∀ e, run (arguments base ps) = .error e ↔
        ∃ earlier pair later s reason, ps = earlier ++ pair :: later ∧
          earlier.foldlM act base = .ok s ∧ Refused pair.1 s reason ∧
            e = .invalidPattern pair.1 reason) ∧
      ∀ qs, qs ≠ [] → run (arguments base (ps ++ qs)) =
        (run (arguments base ps)).bind fun s => run (arguments s qs)) ∧
    ∀ s pair, Substituted pair.1 pair.2 s (act s pair) := by
  refine ⟨rfl, fun _ => rfl, fun _ _ => rfl, fun _ => run_of_even, fun _ => exists_arguments,
    fun base ps hps => ⟨run_arguments base hps, fun e => ?_, fun qs hqs => ?_⟩,
    fun s pair => substituted_firstMatch pair.1 pair.2 s⟩
  · rw [run_arguments base hps, foldlM_act_eq_error_iff]
    constructor
    · rintro ⟨earlier, pair, later, s, hsplit, hearlier, hfail⟩
      obtain ⟨reason, hrefused, he⟩ := act_eq_error_iff.mp hfail
      exact ⟨earlier, pair, later, s, reason, hsplit, hearlier, hrefused, he⟩
    · rintro ⟨earlier, pair, later, s, reason, hsplit, hearlier, hrefused, he⟩
      exact ⟨earlier, pair, later, s, hsplit, hearlier, act_eq_error_iff.mpr ⟨reason, hrefused, he⟩⟩
  · -- the later pairs act on the result of the earlier ones
    rw [run_arguments base (List.append_ne_nil_of_left_ne_nil hps qs), List.foldlM_append,
      run_arguments base hps]
    exact congrArg (ps.foldlM act base).bind (funext fun s => (run_arguments s hqs).symm)

/-- The second pair finds what the first one has inserted. Of two patterns that are malformed, the
first one is reported. A pattern that has to look ahead and finds nothing matches nowhere. -/
theorem run_eq_foldlM_of_inserted_match :
    run (arguments "ab".toList [("A".toList, "b$&".toList), ("b".toList, "c".toList)]) =
        .ok "cab".toList ∧
      run (arguments "ab".toList
        [("A".toList, "b$&".toList), ("(".toList, []), ("[".toList, [])]) =
          .error (.invalidPattern "(".toList (.malformed 1 .unclosedParen)) ∧
      run (arguments "ab".toList [("a(?!b)".toList, "x".toList), ("a(?=b)".toList, "y".toList)]) =
          .ok "yb".toList ∧
        ∃ matcher, Matcher.ofText "a(?!b)".toList = .ok matcher ∧
          ∀ place ∈ (Place.start "ab".toList).onward,
            matcher.matchAt (some 0) place = .ok none := by
  obtain ⟨-, -, -, -, -, hpairs, hsubstituted⟩ := run_eq_foldlM
  refine ⟨?_, ?_, ?_, ?_⟩
  · obtain ⟨-, -, happend⟩ := hpairs "ab".toList [("A".toList, "b$&".toList)] (by simp)
    have hfirst : run (arguments "ab".toList [("A".toList, "b$&".toList)]) = .ok "bab".toList := by
      decide +kernel
    have hboth := happend [("b".toList, "c".toList)] (by simp)
    rw [hfirst] at hboth
    refine hboth.trans ?_
    show run (arguments "bab".toList [("b".toList, "c".toList)]) = .ok "cab".toList
    decide +kernel
  · obtain ⟨-, herror, -⟩ := hpairs "ab".toList
      [("A".toList, "b$&".toList), ("(".toList, []), ("[".toList, [])] (by simp)
    have hfirst : [("A".toList, "b$&".toList)].foldlM act "ab".toList = .ok "bab".toList := by
      decide +kernel
    have hfail : act "bab".toList ("(".toList, []) =
        .error (.invalidPattern "(".toList (.malformed 1 .unclosedParen)) := by
      decide +kernel
    obtain ⟨reason, hrefused, hreason⟩ := act_eq_error_iff.mp hfail
    exact (herror _).mpr ⟨_, ("(".toList, []), _, _, reason, rfl, hfirst, hrefused, hreason⟩
  · obtain ⟨hfold, -⟩ := hpairs "ab".toList
      [("a(?!b)".toList, "x".toList), ("a(?=b)".toList, "y".toList)] (by simp)
    refine hfold.trans ?_
    decide +kernel
  · have hact : act "ab".toList ("a(?!b)".toList, "x".toList) = .ok "ab".toList := by
      decide +kernel
    have hab := hsubstituted "ab".toList ("a(?!b)".toList, "x".toList)
    generalize act "ab".toList ("a(?!b)".toList, "x".toList) = result at hact hab
    cases hab with
    | unchanged hmatcher h hnone => exact ⟨_, hmatcher, hnone⟩
    | @changed matcher m hmatcher h hleftmost =>
      -- the replacement text would be a part of the result
      have htranslate : Replacement.translate "x".toList = "x".toList := by decide +kernel
      have hfill : Replacement.fill m "x".toList = "x".toList := by simp [Replacement.fill]
      rw [htranslate, hfill, Except.ok.injEq] at hact
      have hmem : 'x' ∈ "ab".toList := by simp [← hact]
      simp at hmem
    | refused h => cases hact

end TabFormat.Replace
