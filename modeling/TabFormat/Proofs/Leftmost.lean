import TabFormat.Pattern.Matcher
import TabFormat.Proofs.Attempts

/-!
# The match that is found

Whichever way a pattern is matched, what is found is the leftmost match: it is had at one place of
the text, and none is had at an earlier place. The match is a part of the text, and it does not end
before its start.

## Main definitions

* `Matcher.matchAt` : what is found at one place.
* `Matcher.Leftmost` : the leftmost match in a text.

## Main results

* `Matcher.findSomeM?_of_search` : a search tries the places in turn.
* `Matcher.leftmost_of_first?` : the first match is the leftmost one.
* `Matcher.matchAt_of_first?_eq_none` : a pattern that is not found matches nowhere.
-/

namespace TabFormat.Pattern.Matcher

/-- The slots of the match that starts at a place. -/
def matchAt (matcher : Matcher) (origin : Option Nat) (place : Place) :
    Except Failure (Option Slots) :=
  match matcher.method with
  | .automaton a =>
    .ok ((a.matchAt matcher.groups place).map fun accepted =>
      accepted.slots.setIfInBounds 1 (some accepted.stop))
  | .program p => p.matchAt matcher.groups origin place

/-- The match is the leftmost one in the text `s`. -/
structure Leftmost (matcher : Matcher) (s : Text) (m : Match) : Prop where
  /-- It is a part of the text. -/
  eq_append : s = m.start.before ++ (m.start.upTo m.stop ++ m.stop.ahead)
  /-- It starts where its slots say. -/
  start_eq : ∀ p, m.slots.getD 0 none = some p → m.start = p
  /-- It ends where its slots say. -/
  stop_eq : ∀ p, m.slots.getD 1 none = some p → m.stop = p
  /-- It is had at one place, and none is had at an earlier one. -/
  exists_start : ∃ earlier start later, (Place.start s).onward = earlier ++ start :: later ∧
    matcher.matchAt (some 0) start = .ok (some m.slots) ∧
      ∀ place ∈ earlier, matcher.matchAt (some 0) place = .ok none

variable {matcher : Matcher} {pattern s : Text} {m : Match} {origin : Option Nat} {place : Place}

/-- A program for backtracking comes from a pattern. -/
theorem exists_ofPattern (h : ofText pattern = .ok matcher) {p : Program}
    (hmethod : matcher.method = .program p) :
    ∃ referenced q, Program.ofPattern referenced q = .ok p := by
  rw [ofText] at h
  cases hparse : parse pattern with
  | error e =>
    rw [hparse] at h
    cases h
  | ok parsed =>
    rw [hparse] at h
    dsimp only [bind, Except.bind] at h
    split at h
    · -- a regular pattern becomes an automaton or is refused
      split at h
      · cases h
        cases hmethod
      · cases h
    · cases hprogram : Program.ofPattern parsed.referenced parsed.pattern with
      | error e =>
        rw [hprogram] at h
        cases h
      | ok program =>
        rw [hprogram] at h
        cases h
        cases hmethod
        exact ⟨_, _, hprogram⟩

section

variable {a : Automaton}

theorem matchAt_of_automaton (hmethod : matcher.method = .automaton a) (origin : Option Nat)
    (place : Place) : matcher.matchAt origin place =
      .ok ((a.matchAt matcher.groups place).map fun accepted =>
        accepted.slots.setIfInBounds 1 (some accepted.stop)) := by
  rw [matchAt, hmethod]

theorem search_of_automaton (hmethod : matcher.method = .automaton a) (origin : Option Nat)
    (place : Place) : matcher.search origin place =
      .ok ((a.matchFrom matcher.groups place).map fun accepted =>
        ⟨(accepted.slots.getD 0 none).getD place, accepted.stop,
          accepted.slots.setIfInBounds 1 (some accepted.stop), matcher.names⟩) := by
  rw [search, hmethod]
  dsimp only
  cases a.matchFrom matcher.groups place with
  | none => rfl
  | some accepted => rfl

theorem findSomeM?_of_automaton (hmethod : matcher.method = .automaton a)
    {found : Option Match} (h : matcher.search origin place = .ok found) :
    place.onward.findSomeM? (matcher.matchAt origin) = .ok (found.map Match.slots) := by
  have hat : matcher.matchAt origin = fun place => pure ((a.matchAt matcher.groups place).map
      fun accepted => accepted.slots.setIfInBounds 1 (some accepted.stop)) :=
    funext (matchAt_of_automaton hmethod origin)
  rw [search_of_automaton hmethod, Except.ok.injEq] at h
  rw [hat, List.findSomeM?_pure, ← h, a.matchFrom_eq, Option.map_map]
  exact congrArg Except.ok List.map_findSome?.symm

theorem leftmost_of_automaton (hmethod : matcher.method = .automaton a)
    (h : matcher.search (some 0) (.start s) = .ok (some m)) : matcher.Leftmost s m := by
  have hfound := findSomeM?_of_automaton hmethod h
  rw [search_of_automaton hmethod, Except.ok.injEq, Option.map_eq_some_iff] at h
  obtain ⟨accepted, hfrom, rfl⟩ := h
  rw [a.matchFrom_eq] at hfrom
  obtain ⟨start, honward, hat⟩ := List.exists_of_findSome?_eq_some hfrom
  have hstart : start.In s := Place.In.onward (Place.in_start s) start honward
  obtain ⟨hstop, -, hslots⟩ := Automaton.places_matchAt hstart hat
  refine ⟨?_, fun p hp => ?_, fun p hp => ?_, exists_of_findSomeM?_eq_some hfound⟩
  · cases hfirst : accepted.slots.getD 0 none with
    | none => exact Place.In.eq_append (Place.in_start s) hstop (Nat.zero_le _)
    | some first =>
      obtain ⟨hin, hle⟩ := hslots.getD hfirst
      exact Place.In.eq_append hin hstop hle
  · have hfirst := (getD_setIfInBounds_ne Nat.one_ne_zero _ _).symm.trans hp
    simp only [hfirst, Option.getD_some]
  · exact eq_of_getD_setIfInBounds hp

end

section

variable {p : Program} {referenced : List Nat} {q : Pattern}

theorem search_of_program (hmethod : matcher.method = .program p) (origin : Option Nat)
    (place : Place) : matcher.search origin place =
      (p.matchFrom matcher.groups origin place).map fun found => found.map fun slots =>
        ⟨(slots.getD 0 none).getD place, (slots.getD 1 none).getD place, slots, matcher.names⟩ := by
  rw [search, hmethod]
  dsimp only
  obtain _ | _ | _ := p.matchFrom matcher.groups origin place <;> rfl

theorem findSomeM?_of_program (hmethod : matcher.method = .program p)
    (hp : Program.ofPattern referenced q = .ok p) {found : Option Match}
    (h : matcher.search origin place = .ok found) :
    place.onward.findSomeM? (matcher.matchAt origin) = .ok (found.map Match.slots) := by
  have hat : matcher.matchAt origin = p.matchAt matcher.groups origin := by
    funext place
    rw [matchAt, hmethod]
  rw [search_of_program hmethod] at h
  cases hfrom : p.matchFrom matcher.groups origin place with
  | error e =>
    rw [hfrom] at h
    cases h
  | ok slots =>
    rw [hfrom] at h
    cases h
    rw [hat, Program.findSomeM?_of_run hp (Nat.le_refl _) hfrom, Option.map_map]
    exact congrArg Except.ok Option.map_id'.symm

theorem leftmost_of_program (hmethod : matcher.method = .program p)
    (hp : Program.ofPattern referenced q = .ok p)
    (h : matcher.search (some 0) (.start s) = .ok (some m)) : matcher.Leftmost s m := by
  have hfound := findSomeM?_of_program hmethod hp h
  obtain ⟨code, hcomposed, hcode⟩ := Program.exists_composed hp
  have hclosed := (Program.composed_trying.append hcomposed).closed
  rw [search_of_program hmethod] at h
  cases hfrom : p.matchFrom matcher.groups (some 0) (.start s) with
  | error e =>
    rw [hfrom] at h
    cases h
  | ok found =>
    rw [hfrom] at h
    cases found with
    | none => cases h
    | some slots =>
      cases h
      have hmachine : Machine.In s (Program.trying ++ code).length
          ⟨0, .start s, p.blank matcher.groups, [], 0, 0⟩ := by
        refine ⟨.inl (Nat.zero_le _), Place.in_start s, ⟨.replicate _, .replicate _, ?_⟩, by simp⟩
        simp [Program.blank]
      obtain ⟨hnoted, stop, hstop, hle⟩ := Machine.in_run hclosed hcode hmachine hfrom
      refine ⟨?_, fun p hp => by simp [hp], fun p hp => by simp [hp],
        exists_of_findSomeM?_eq_some hfound⟩
      simp only [hstop, Option.getD_some]
      cases hfirst : slots.getD 0 none with
      | none => exact Place.In.eq_append (Place.in_start s) (hnoted.getD hstop) (Nat.zero_le _)
      | some first =>
        exact Place.In.eq_append (hnoted.getD hfirst) (hnoted.getD hstop) (hle first hfirst)

end

/-- **A search tries the places in turn**, whichever way the pattern is matched. -/
theorem findSomeM?_of_search (hmatcher : ofText pattern = .ok matcher) {found : Option Match}
    (h : matcher.search origin place = .ok found) :
    place.onward.findSomeM? (matcher.matchAt origin) = .ok (found.map Match.slots) := by
  cases hmethod : matcher.method with
  | automaton a => exact findSomeM?_of_automaton hmethod h
  | program p =>
    obtain ⟨referenced, q, hp⟩ := exists_ofPattern hmatcher hmethod
    exact findSomeM?_of_program hmethod hp h

/-- What lies beyond the first match makes no difference to it. -/
theorem search_of_first? {found : Option Match} (h : matcher.first? s = .ok found) :
    matcher.search (some 0) (.start s) = .ok found := by
  rw [first?] at h
  cases hsearch : matcher.search (some 0) (.start s) with
  | error e =>
    rw [hsearch] at h
    cases h
  | ok found' =>
    rw [hsearch] at h
    dsimp only [bind, Except.bind] at h
    cases found' with
    | none =>
      cases h
      rfl
    | some m =>
      have hreturn {checked : Except Failure Unit}
          (hchecked : (checked >>= fun _ => pure (some m)) = .ok found) : some m = found := by
        cases checked with
        | error e => cases hchecked
        | ok _ =>
          cases hchecked
          rfl
      dsimp only at h
      split at h
      · split at h
        · rw [hreturn h]
        · cases h
          rfl
      · rw [hreturn h]

/-- **The first match is the leftmost one.** -/
theorem leftmost_of_first? (hmatcher : ofText pattern = .ok matcher)
    (h : matcher.first? s = .ok (some m)) : matcher.Leftmost s m := by
  have hsearch := search_of_first? h
  cases hmethod : matcher.method with
  | automaton a => exact leftmost_of_automaton hmethod hsearch
  | program p =>
    obtain ⟨referenced, q, hp⟩ := exists_ofPattern hmatcher hmethod
    exact leftmost_of_program hmethod hp hsearch

/-- **A pattern that is not found matches nowhere.** -/
theorem matchAt_of_first?_eq_none (hmatcher : ofText pattern = .ok matcher)
    (h : matcher.first? s = .ok none) :
    ∀ place ∈ (Place.start s).onward, matcher.matchAt (some 0) place = .ok none :=
  eq_none_of_findSomeM?_eq_none (findSomeM?_of_search hmatcher (search_of_first? h))

end TabFormat.Pattern.Matcher
