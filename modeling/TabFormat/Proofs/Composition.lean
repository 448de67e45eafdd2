import TabFormat.Pattern.Program

/-!
# What programs are composed of

Whatever a pattern is, its instructions are composed in a few ways from plain ones, which lead to
the next instruction only. What holds of the instructions of every pattern is proved for each of
these ways.

## Main definitions

* `Instruction.Branches` : an instruction that leads to the next one or to a distance.
* `Composed` : the ways in which the instructions of patterns are composed.

## Main results

* `Program.composed_visit` : the instructions of a pattern are composed in these ways.
* `Program.exists_composed` : the instructions of a program.
-/

namespace TabFormat.Pattern

/-- The instruction leads to the next one only, and it leaves the kept choices alone. -/
def Instruction.isPlain : Instruction → Bool
  | .fork .. | .jump _ | .repetition .. | .nonemptyRepetition .. => false
  | .reject | .beginAtomic | .endAtomic | .accept => false
  | _ => true

/-- The instruction leads to the next one or to the distance `exit`. -/
inductive Instruction.Branches (exit : Int) : Instruction → Prop where
  /-- The next one is preferred. -/
  | enter : Branches exit (.fork 1 exit)
  /-- The distance is preferred. -/
  | leave : Branches exit (.fork exit 1)
  /-- A counter decides. -/
  | repetition (least : Nat) (most : Option Nat) (greedy : Bool) (counter : Nat) :
    Branches exit (.repetition least most greedy counter exit)
  /-- A counter and a mark decide. -/
  | nonemptyRepetition (least : Nat) (greedy : Bool) (counter mark : Nat) :
    Branches exit (.nonemptyRepetition least greedy counter mark exit)

/-- The ways in which the instructions of patterns are composed. -/
inductive Composed : List Instruction → Prop where
  /-- No instructions. -/
  | nil : Composed []
  /-- A plain instruction. -/
  | plain {instr : Instruction} (h : instr.isPlain) : Composed [instr]
  /-- Instructions one after another. -/
  | append {code code' : List Instruction} (h : Composed code) (h' : Composed code') :
    Composed (code ++ code')
  /-- Instructions that may be passed over. -/
  | optional {code : List Instruction} {first : Instruction} (h : Composed code)
    (hfirst : first.Branches (code.length + 1)) : Composed (first :: code)
  /-- Instructions that may be repeated; whether to do so is decided before each time. -/
  | loop {code : List Instruction} {first : Instruction} (h : Composed code)
    (hfirst : first.Branches (code.length + 2)) :
    Composed (first :: code ++ [.jump (-(code.length + 1))])
  /-- Instructions that may be repeated; whether to do so is decided after each time. -/
  | again {code : List Instruction} {last : Instruction} (h : Composed code)
    (hlast : last.Branches (-code.length)) : Composed (code ++ [last])
  /-- Instructions, or else others. -/
  | either {code others : List Instruction} (h : Composed code) (h' : Composed others) :
    Composed (.fork 1 (code.length + 2) :: code ++ .jump (others.length + 1) :: others)
  /-- Instructions that must not come to an end. -/
  | never {code : List Instruction} (h : Composed code) :
    Composed (.fork 1 (code.length + 2) :: code ++ [.reject])
  /-- Instructions whose choices are not taken back later. -/
  | atomic {code : List Instruction} (h : Composed code) :
    Composed (.beginAtomic :: code ++ [.endAtomic])
  /-- Instructions that decide between others. -/
  | conditional {condition accepted rejected : List Instruction} (h : Composed condition)
    (haccepted : Composed accepted) (hrejected : Composed rejected) :
    Composed (.beginAtomic :: .fork 1 (condition.length + accepted.length + 3) :: condition ++
      .endAtomic :: accepted ++ .jump (rejected.length + 1) :: rejected)

section

variable {code : List Instruction} {first last : Instruction}

/-- A plain instruction before others. -/
theorem Composed.cons (h : Composed code) (hfirst : first.isPlain) : Composed (first :: code) :=
  (Composed.plain hfirst).append h

/-- Instructions between two plain ones. -/
theorem Composed.within (h : Composed code) (hfirst : first.isPlain) (hlast : last.isPlain) :
    Composed (first :: code ++ [last]) :=
  (h.cons hfirst).append (.plain hlast)

theorem composed_flatten {codes : List (List Instruction)} (h : ∀ code ∈ codes, Composed code) :
    Composed codes.flatten := by
  induction codes with
  | nil => exact .nil
  | cons code codes ih =>
    obtain ⟨hcode, hcodes⟩ := List.forall_mem_cons.mp h
    exact hcode.append (ih hcodes)

end

/-! ### Making instructions -/

namespace Program

/-- All that is made has a property. -/
def Makes {α : Type} (m : Maker α) (P : α → Prop) : Prop :=
  ∀ a x a', m a = .ok (x, a') → P x

section

variable {α β : Type} {P : α → Prop} {Q : β → Prop}

theorem makes_pure {x : α} (h : P x) : Makes (pure x) P := by
  intro a y a' hm
  cases hm
  exact h

theorem makes_throw (e : Failure) : Makes (throw e) P := by
  intro a y a' hm
  cases hm

theorem Makes.bind {m : Maker α} {f : α → Maker β} (h : Makes m P)
    (hf : ∀ x, P x → Makes (f x) Q) : Makes (m >>= f) Q := by
  intro a y a' hm
  have hm : ((m a).bind fun r => f r.1 r.2) = .ok (y, a') := hm
  cases hx : m a with
  | error e =>
    rw [hx] at hm
    cases hm
  | ok r =>
    rw [hx] at hm
    exact hf r.1 (h a r.1 r.2 hx) r.2 y a' hm

theorem Makes.any (m : Maker α) : Makes m fun _ => True :=
  fun _ _ _ _ => trivial

end

theorem composed_delegate (ps : List Pattern) : Makes (delegate ps) Composed := by
  unfold delegate
  split
  · exact makes_pure .nil
  · exact makes_pure .nil
  · exact makes_pure (.plain rfl)
  · exact makes_pure (.plain rfl)
  · exact makes_pure (.plain rfl)
  · exact makes_pure (.plain rfl)
  · split
    · exact makes_pure (.plain rfl)
    · dsimp only
      split
      · exact (makes_throw _).bind fun _ h => absurd h id
      · exact makes_pure (.plain rfl)

theorem composed_alternatives {codes : List (List Instruction)}
    (h : ∀ code ∈ codes, Composed code) : Composed (alternatives codes) := by
  fun_induction alternatives codes with
  | case1 => exact .nil
  | case2 code => exact h code List.mem_cons_self
  | case3 code rest hne others ih =>
    obtain ⟨hcode, hrest⟩ := List.forall_mem_cons.mp h
    exact hcode.either (ih hrest)

theorem branches_enterOrPass (length : Nat) (greedy : Bool) :
    (enterOrPass length greedy).Branches (length + 1) := by
  cases greedy with
  | false => exact .leave
  | true => exact .enter

theorem composed_repetitions {code : List Instruction} (h : Composed code) (mayBeEmpty : Bool)
    (least : Nat) (most : Option Nat) (greedy : Bool) :
    Makes (repetitions code mayBeEmpty least most greedy) Composed := by
  unfold repetitions
  dsimp only
  split
  · exact makes_pure (h.optional (branches_enterOrPass ..))
  · split
    · refine Makes.bind (Makes.any _) fun counter _ => Makes.bind (Makes.any _) fun mark _ => ?_
      exact makes_pure ((h.loop (.nonemptyRepetition ..)).cons rfl)
    · split
      · exact makes_pure (h.loop (branches_enterOrPass ..))
      · refine makes_pure (h.again ?_)
        split
        · exact .leave
        · exact .enter
      · refine Makes.bind (Makes.any _) fun counter _ => ?_
        exact makes_pure ((h.loop (.repetition ..)).cons rfl)
  · refine Makes.bind (Makes.any _) fun counter _ => ?_
    exact makes_pure ((h.loop (.repetition ..)).cons rfl)

theorem composed_lookAround {code : List Instruction} (h : Composed code) (behind negated : Bool)
    (p : Pattern) : Makes (lookAround behind negated p code) Composed := by
  have hbody : Composed (if behind then .goBack p.minSize :: code else code) := by
    split
    · exact h.cons rfl
    · exact h
  unfold lookAround
  generalize (if behind then Instruction.goBack p.minSize :: code else code) = body at hbody ⊢
  dsimp only
  split
  · exact (makes_throw _).bind fun _ h => absurd h id
  · split
    · exact makes_pure hbody.never
    · refine Makes.bind (Makes.any _) fun m _ => ?_
      exact makes_pure (hbody.within rfl rfl)

theorem composed_lookAroundEach (behind negated : Bool) (ps : List Pattern)
    {codes : List (List Instruction)} (h : ∀ code ∈ codes, Composed code) :
    Makes (lookAroundEach behind negated ps codes) fun codes => ∀ code ∈ codes, Composed code := by
  induction ps generalizing codes with
  | nil => exact makes_pure (by simp)
  | cons p ps ih =>
    cases codes with
    | nil => exact makes_pure (by simp)
    | cons code codes =>
      obtain ⟨hcode, hcodes⟩ := List.forall_mem_cons.mp h
      refine (composed_lookAround hcode behind negated p).bind fun first hfirst => ?_
      refine (ih hcodes).bind fun rest hrest => ?_
      exact makes_pure (List.forall_mem_cons.mpr ⟨hfirst, hrest⟩)

/-- The parts between the two ends of a sequence are some of its parts. -/
theorem splitSequence_subset (referenced : List Nat) (inContext : Bool)
    (parts : List (Pattern × List Instruction)) :
    ∀ code ∈ (splitSequence referenced inContext parts).2.1, ∃ p, (p, code) ∈ parts := by
  intro code hcode
  obtain ⟨⟨p, code⟩, hpart, rfl⟩ := List.mem_map.mp hcode
  exact ⟨p, List.mem_of_mem_drop (List.mem_of_mem_take hpart)⟩

theorem composed_handOver {referenced : List Nat} {inContext : Bool} {p : Pattern}
    {apart : Maker (List Instruction)} (h : Makes apart Composed) :
    Makes (handOver referenced inContext p apart) Composed := by
  rw [handOver]
  split
  · exact composed_delegate [p]
  · exact h

mutual

/-- **The instructions of a pattern are composed in these ways.** -/
theorem composed_visit (referenced : List Nat) (inContext : Bool) : (p : Pattern) →
    Makes (visit referenced inContext p) Composed
  | .empty => by
    rw [visit]
    exact composed_handOver (composed_delegate _)
  | .any _ => by
    rw [visit]
    exact composed_handOver (composed_delegate _)
  | .char .. => by
    rw [visit]
    exact composed_handOver (composed_delegate _)
  | .set .. => by
    rw [visit]
    exact composed_handOver (composed_delegate _)
  | .anchor _ => by
    rw [visit]
    exact composed_handOver (composed_delegate _)
  | .seq ps => by
    rw [visit]
    refine composed_handOver ?_
    refine (composed_visitEach referenced true ps).bind fun codes hcodes => ?_
    have hmiddle := splitSequence_subset referenced inContext (ps.zip codes)
    generalize splitSequence referenced inContext (ps.zip codes) = parts at hmiddle
    obtain ⟨first, middle, last⟩ := parts
    refine (composed_delegate first).bind fun _ hfirst => ?_
    refine (composed_delegate last).bind fun _ hlast => makes_pure ?_
    refine (hfirst.append (composed_flatten fun code hcode => ?_)).append hlast
    obtain ⟨p, hp⟩ := hmiddle code hcode
    exact hcodes code (List.of_mem_zip hp).2
  | .alt ps => by
    rw [visit]
    refine composed_handOver ?_
    refine (composed_visitEach referenced inContext ps).bind fun codes hcodes => ?_
    exact makes_pure (composed_alternatives hcodes)
  | .group index q => by
    rw [visit]
    refine composed_handOver ?_
    refine (composed_visit referenced inContext q).bind fun code hcode => ?_
    exact makes_pure (hcode.within rfl rfl)
  | .look behind negated q => by
    have hvisit := composed_visit referenced false q
    have halternatives := composed_alternativesOf referenced q
    rw [visit.eq_def]
    refine composed_handOver ?_
    dsimp only
    split
    · split
      · rename_i ps _
        refine (halternatives ps rfl).bind fun codes hcodes => ?_
        refine (composed_lookAroundEach behind negated ps hcodes).bind fun codes hcodes => ?_
        refine makes_pure ?_
        split
        · exact composed_flatten hcodes
        · exact composed_alternatives hcodes
      · exact makes_throw _
    · exact hvisit.bind fun code hcode => composed_lookAround hcode behind negated q
  | .repeated q least most greedy => by
    rw [visit]
    refine composed_handOver ?_
    refine (composed_visit referenced _ q).bind fun code hcode => ?_
    exact composed_repetitions hcode _ least most greedy
  | .atomic q => by
    rw [visit]
    refine composed_handOver ?_
    refine (composed_visit referenced false q).bind fun code hcode => ?_
    exact makes_pure hcode.atomic
  | .reference _ => by
    rw [visit]
    exact composed_handOver (makes_pure (.plain rfl))
  | .keepOut => by
    rw [visit]
    exact composed_handOver (makes_pure (.plain rfl))
  | .searchStart => by
    rw [visit]
    exact composed_handOver (makes_pure (.plain rfl))
  | .hasMatched _ => by
    rw [visit]
    exact composed_handOver (makes_pure (.plain rfl))
  | .conditional c t f => by
    rw [visit]
    refine composed_handOver ?_
    refine (composed_visit referenced inContext c).bind fun condition hcondition => ?_
    refine (composed_visit referenced inContext t).bind fun accepted haccepted => ?_
    refine (composed_visit referenced inContext f).bind fun rejected hrejected => ?_
    exact makes_pure (hcondition.conditional haccepted hrejected)

/-- The instructions of the alternatives that make up a pattern. -/
theorem composed_alternativesOf (referenced : List Nat) : (p : Pattern) → ∀ ps, p = .alt ps →
    Makes (visitEach referenced false ps) fun codes => ∀ code ∈ codes, Composed code
  | .alt ps, _, rfl => composed_visitEach referenced false ps

/-- The instructions of each of several patterns. -/
theorem composed_visitEach (referenced : List Nat) (inContext : Bool) : (ps : List Pattern) →
    Makes (visitEach referenced inContext ps) fun codes => ∀ code ∈ codes, Composed code
  | [] => makes_pure (by simp)
  | p :: ps => by
    rw [visitEach]
    refine (composed_visit referenced inContext p).bind fun first hfirst => ?_
    refine (composed_visitEach referenced inContext ps).bind fun rest hrest => ?_
    exact makes_pure (List.forall_mem_cons.mpr ⟨hfirst, hrest⟩)

end

/-- The instructions that try each place in turn as the start of a match. -/
def trying : List Instruction :=
  [.fork 3 1, .test .any, .jump (-2)]

theorem composed_trying : Composed trying := by
  have htest : Composed [.test .any] := .plain rfl
  exact htest.loop .leave

/-- **The instructions of a program.** The first ones try each place in turn. The last ones note the
end of the match and accept. -/
theorem exists_composed {referenced : List Nat} {p : Pattern} {program : Program}
    (h : Program.ofPattern referenced p = .ok program) :
    ∃ code, Composed code ∧
      program.code = (trying ++ code ++ [Instruction.save 1, .accept]).toArray := by
  rw [ofPattern] at h
  cases hvisit : (visit referenced true p).run {} with
  | error e =>
    rw [hvisit] at h
    cases h
  | ok r =>
    obtain ⟨code, a⟩ := r
    rw [hvisit] at h
    have hcode : Composed code := composed_visit referenced true p _ _ _ hvisit
    cases h
    exact ⟨.save 0 :: code, hcode.cons rfl, rfl⟩

end Program

end TabFormat.Pattern
