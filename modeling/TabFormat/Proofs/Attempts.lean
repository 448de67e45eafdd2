import TabFormat.Proofs.Frames
import TabFormat.Proofs.Machines

/-!
# The leftmost match of a program

A program tries the places of a text in turn. While it tries one, the choice to go on to the next
place lies beneath all other choices. It makes no difference to the machine until no other choice is
left, and no instruction takes it back together with others, because the choice that is looked for
is found above it. So what a program finds at all is what it finds at the first place where a match
can be had, and it finds nothing only if no place has any.

## Main definitions

* `Program.matchAt` : what is found at one place.
* `Machine.above` : a machine with a choice beneath all others.

## Main results

* `Machine.above_step` : a step with a choice beneath.
* `Machine.run_above` : a run with a choice beneath.
* `Program.findSomeM?_of_run` : the match of a program is the one at the first place that has any.
-/

namespace TabFormat.Pattern

/-- The machine that goes on with a choice after so many were taken back, when no other is left. -/
def Choice.resume (choice : Choice) (retries : Nat) : Machine where
  pc := choice.pc
  place := choice.place
  notes := choice.notes
  retries

/-- What a machine of the program has noted at first. -/
def Program.blank (p : Program) (groups : Nat) : Notes where
  slots := Array.replicate (2 * groups + 2) none
  marks := Array.replicate p.marks none
  counters := Array.replicate p.counters 0

/-- A machine that tries a match at a place, behind the instructions that try each place in turn. -/
def Program.attempt (p : Program) (groups : Nat) (place : Place) : Machine where
  pc := trying.length
  place
  notes := p.blank groups

/-- The slots of the match that starts at a place. -/
def Program.matchAt (p : Program) (groups : Nat) (origin : Option Nat) (place : Place) :
    Except Failure (Option Slots) :=
  Machine.run p.code groups origin Machine.stepLimit (p.attempt groups place)

/-! ### Machines with a choice beneath all others -/

/-- The notes when there is one more choice beneath all others. -/
def Notes.above (notes : Notes) : Notes :=
  { notes with remembered := notes.remembered.map (· + 1) }

/-- The choice when there is one more beneath all others. -/
def Choice.above (choice : Choice) : Choice :=
  { choice with notes := choice.notes.above }

/-- The machine with one more choice beneath all others, and with more choices taken back. -/
def Machine.above (bottom : Choice) (retries : Nat) (m : Machine) : Machine where
  pc := m.pc
  place := m.place
  notes := m.notes.above
  choices := m.choices.map Choice.above ++ [bottom]
  height := m.height + 1
  retries := retries + m.retries

/-- What comes of a step, and what comes of it with one more choice beneath all others. -/
inductive Outcome.Above (bottom : Choice) (retries : Nat) : Outcome → Outcome → Prop where
  /-- Both runs go on. -/
  | running {m : Machine} (h : m.Counted) :
    Above bottom retries (.running m) (.running (m.above bottom retries))
  /-- Both take back the latest choice. -/
  | stuck {m : Machine} (h : m.Counted) :
    Above bottom retries (.stuck m) (.stuck (m.above bottom retries))
  /-- Both have matched. -/
  | matched (slots : Slots) : Above bottom retries (.matched slots) (.matched slots)
  /-- With more choices, the run is given up. -/
  | failed (outcome : Outcome) (e : Failure) : Above bottom retries outcome (.failed e)

namespace Machine

variable {bottom : Choice} {retries groups fuel : Nat} {m : Machine} {origin : Option Nat}
  {code : Array Instruction}

theorem above_fork (h : m.Counted) (first second : Int) :
    Outcome.Above bottom retries (m.fork first second)
      ((m.above bottom retries).fork first second) := by
  have hheight : (m.above bottom retries).height = m.height + 1 := rfl
  rw [fork, fork, hheight]
  by_cases hlimit : choiceLimit ≤ m.height + 1
  · rw [if_pos hlimit]
    exact .failed _ _
  · rw [if_neg hlimit, if_neg (by omega)]
    exact .running (congrArg (· + 1) h)

theorem above_nextIf (h : m.Counted) (place : Option Place) :
    Outcome.Above bottom retries (m.nextIf place) ((m.above bottom retries).nextIf place) := by
  cases place with
  | none => exact .stuck h
  | some p => exact .running h

theorem above_nextWhen (h : m.Counted) (condition : Bool) :
    Outcome.Above bottom retries (m.nextWhen condition)
      ((m.above bottom retries).nextWhen condition) := by
  cases condition with
  | false => exact .stuck h
  | true => exact .running h

theorem above_repeatOrLeave (h : m.Counted) (least : Nat) (greedy : Bool) (count : Nat)
    (exit : Int) :
    Outcome.Above bottom retries (m.repeatOrLeave least greedy count exit)
      ((m.above bottom retries).repeatOrLeave least greedy count exit) := by
  rw [repeatOrLeave, repeatOrLeave]
  split
  · exact .running h
  · split
    · exact above_fork h 1 exit
    · exact above_fork h exit 1

theorem Counted.count (h : m.Counted) (marks : Array (Option Place)) (counters : Array Nat) :
    Counted { m with notes := { m.notes with marks, counters } } :=
  h

theorem above_dropChoices (h : m.Counted) {n : Nat} (hn : n ≤ m.choices.length) :
    (m.above bottom retries).dropChoices n = (m.dropChoices n).above bottom retries := by
  have hchoices : (m.choices.map Choice.above ++ [bottom]).drop n =
      (m.choices.drop n).map Choice.above ++ [bottom] := by
    rw [List.drop_append_of_le_length (by rwa [List.length_map]), List.map_drop]
  have hheight : m.height + 1 - n = m.height - n + 1 := by
    rw [← h] at hn
    omega
  simp [above, Machine.dropChoices, hchoices, hheight]

/-- Taking back choices up to one that leads to the next instruction. -/
theorem above_reject (h : m.Counted) (hwaits : ∃ choice ∈ m.choices, choice.pc = m.pc + 1)
    (groups : Nat) (origin : Option Nat) :
    Outcome.Above bottom retries (m.step groups origin .reject)
      ((m.above bottom retries).step groups origin .reject) := by
  let other (choice : Choice) : Bool := choice.pc != m.pc + 1
  have hmap : (m.choices.map Choice.above).takeWhile other =
      (m.choices.takeWhile other).map Choice.above := List.takeWhile_map ..
  have hstep : m.step groups origin .reject =
      .stuck (m.dropChoices ((m.choices.takeWhile other).length + 1)) := rfl
  have hstep' : (m.above bottom retries).step groups origin .reject =
      .stuck ((m.above bottom retries).dropChoices
        (((m.choices.map Choice.above ++ [bottom]).takeWhile other).length + 1)) := rfl
  have hlength : (m.choices.takeWhile other).length < m.choices.length := by
    obtain ⟨choice, hchoice, hpc⟩ := hwaits
    refine (List.takeWhile_prefix other).length_le.lt_of_ne fun hall => ?_
    have hself := (List.takeWhile_prefix other).eq_of_length hall
    have hother : other choice = true := List.takeWhile_eq_self_iff.mp hself choice hchoice
    exact bne_iff_ne.mp hother hpc
  rw [hstep, hstep', List.takeWhile_append, hmap, List.length_map, List.length_map,
    if_neg hlength.ne, List.length_map, above_dropChoices h hlength]
  exact .stuck (h.dropChoices _)

/-- Taking back choices down to as many as were remembered. -/
theorem above_endAtomic (h : m.Counted) (groups : Nat) (origin : Option Nat) :
    Outcome.Above bottom retries (m.step groups origin .endAtomic)
      ((m.above bottom retries).step groups origin .endAtomic) := by
  obtain ⟨pc, place, ⟨slots, marks, counters, remembered⟩, choices, height, taken⟩ := m
  cases remembered with
  | nil => exact .running h
  | cons kept remembered =>
    let next : Machine :=
      ⟨pc + 1, place, ⟨slots, marks, counters, remembered⟩, choices, height, taken⟩
    have hnext : next.Counted := h
    have hle : height - kept ≤ choices.length := by
      have hheight : height = choices.length := h
      omega
    have hstep : step ⟨pc, place, ⟨slots, marks, counters, kept :: remembered⟩, choices, height,
        taken⟩ groups origin .endAtomic = .running (next.dropChoices (height - kept)) := by
      have hmin : min height kept = height - (height - kept) := by omega
      simp only [step, dropChoices, note, hmin, next]
    have hstep' : (above bottom retries ⟨pc, place, ⟨slots, marks, counters, kept :: remembered⟩,
        choices, height, taken⟩).step groups origin .endAtomic =
          .running ((next.above bottom retries).dropChoices (height - kept)) := by
      have hmin : min (height + 1) (kept + 1) = height + 1 - (height - kept) := by omega
      simp only [step, dropChoices, note, above, Notes.above, List.map_cons, hmin, next,
        Nat.add_sub_add_right]
    rw [hstep, hstep', above_dropChoices hnext hle]
    exact .running (hnext.dropChoices _)

/-- **A choice beneath all others makes no difference to a step.** -/
theorem above_step (h : m.Counted) (groups : Nat) (origin : Option Nat) {instr : Instruction}
    (hwaits : instr = .reject → ∃ choice ∈ m.choices, choice.pc = m.pc + 1) :
    Outcome.Above bottom retries (m.step groups origin instr)
      ((m.above bottom retries).step groups origin instr) := by
  cases instr with
  | test t =>
    have hplace : (m.above bottom retries).place = m.place := rfl
    rw [step, step, hplace]
    split
    · split
      · exact .running h
      · exact .stuck h
    · exact .stuck h
  | text t => exact above_nextIf h _
  | anchor a => exact above_nextWhen h _
  | regular a inside =>
    have hplace : (m.above bottom retries).place = m.place := rfl
    rw [step, step, hplace]
    split
    · exact .running h
    · exact .stuck h
  | fork first second => exact above_fork h first second
  | jump distance => exact .running h
  | save slot => exact .running h
  | mark i => exact .running h
  | returnTo i => exact above_nextIf h _
  | reset counter => exact .running h
  | repetition least most greedy counter exit =>
    have hcounters : (m.above bottom retries).notes.counters = m.notes.counters := rfl
    rw [step, step, hcounters]
    dsimp only
    split
    · exact .running h
    · exact above_repeatOrLeave (h.count m.notes.marks (m.notes.counters.setIfInBounds counter
        (m.notes.counters.getD counter 0 + 1))) _ _ _ _
  | nonemptyRepetition least greedy counter mark exit =>
    have hcounters : (m.above bottom retries).notes.counters = m.notes.counters := rfl
    have hmarks : (m.above bottom retries).notes.marks = m.notes.marks := rfl
    have hplace : (m.above bottom retries).place = m.place := rfl
    rw [step, step, hcounters, hmarks, hplace]
    dsimp only
    split
    · exact .stuck h
    · exact above_repeatOrLeave (h.count _ (m.notes.counters.setIfInBounds counter
        (m.notes.counters.getD counter 0 + 1))) _ _ _ _
  | goBack count => exact above_nextIf h _
  | reject => exact above_reject h (hwaits rfl) groups origin
  | reference index =>
    have hslot (i : Nat) : (m.above bottom retries).slot i = m.slot i := rfl
    rw [step, step, hslot, hslot]
    split
    · exact above_nextIf h _
    · exact .stuck h
  | hasMatched index => exact above_nextWhen h _
  | beginAtomic => exact .running h
  | endAtomic => exact above_endAtomic h groups origin
  | searchStart => exact above_nextWhen h _
  | accept => exact .matched _

/-! ### Runs with a choice beneath all others -/

/-- More steps make no difference to a run that has come to an end. -/
theorem run_mono {fuel' : Nat} (hle : fuel ≤ fuel') {found : Option Slots}
    (h : run code groups origin fuel m = .ok found) :
    run code groups origin fuel' m = .ok found := by
  induction fuel generalizing m fuel' with
  | zero => simp [run] at h
  | succ fuel ih =>
    obtain ⟨fuel', rfl⟩ : ∃ n, fuel' = n + 1 := ⟨fuel' - 1, by omega⟩
    have hle : fuel ≤ fuel' := by omega
    rw [run] at h ⊢
    generalize m.step groups origin (code.getD m.pc .accept) = outcome at h ⊢
    cases outcome with
    | running next => exact ih hle h
    | matched slots => exact h
    | failed e => simp at h
    | stuck stuck =>
      dsimp only at h ⊢
      split at h
      · exact ih hle h
      · simp at h
      · exact h

/-- **A choice beneath all others makes no difference** until no other is left. -/
theorem run_above {frames : Nat → List Frame}
    (hcode : ∀ k, (code.getD k .accept).Keeps frames k) (h : m.Safe frames) {found : Option Slots}
    (hrun : run code groups origin fuel (m.above bottom retries) = .ok found) :
    (∃ slots, found = some slots ∧ run code groups origin fuel m = .ok (some slots)) ∨
      run code groups origin fuel m = .ok none ∧ ∃ fuel' < fuel, ∃ retries',
        run code groups origin fuel' (bottom.resume retries') = .ok found := by
  induction fuel generalizing m with
  | zero => simp [run] at hrun
  | succ fuel ih =>
    have hwaits (hreject : code.getD m.pc .accept = .reject) :
        ∃ choice ∈ m.choices, choice.pc = m.pc + 1 := h.exists_choice (hreject ▸ hcode m.pc)
    have hsafe := safe_step h (hcode m.pc) groups origin
    have hstep : Outcome.Above bottom retries _ _ := above_step h.counted groups origin hwaits
    have hpc : (m.above bottom retries).pc = m.pc := rfl
    rw [run, hpc] at hrun
    rw [run]
    generalize m.step groups origin (code.getD m.pc .accept) = outcome at hstep hsafe
    generalize (m.above bottom retries).step groups origin (code.getD m.pc .accept) = outcome'
      at hstep hrun
    cases hstep with
    | running _ =>
      obtain hfound | ⟨hnone, fuel', hlt, hrest⟩ := ih hsafe hrun
      · exact .inl hfound
      · exact .inr ⟨hnone, fuel', by omega, hrest⟩
    | matched slots =>
      cases hrun
      exact .inl ⟨slots, rfl, rfl⟩
    | failed _ e => simp at hrun
    | @stuck stuck hcounted =>
      obtain ⟨pc, place, notes, choices, height, taken⟩ := stuck
      cases choices with
      | nil =>
        -- the choice beneath is taken back
        obtain rfl : height = 0 := hcounted
        refine .inr ⟨rfl, fuel, Nat.lt_succ_self _, ?_⟩
        by_cases hlimit : retryLimit ≤ retries + taken
        · simp [retry, above, hlimit] at hrun
        · simp only [retry, above, List.map_nil, List.nil_append, hlimit, if_false] at hrun
          exact ⟨_, hrun⟩
      | cons choice choices =>
        obtain rfl : height = choices.length + 1 := hcounted
        by_cases hlimit : retryLimit ≤ retries + taken
        · simp [retry, above, hlimit] at hrun
        · have hlimit' : ¬retryLimit ≤ taken := by omega
          simp only [retry, above, List.map_cons, List.cons_append, hlimit, if_false] at hrun
          simp only [retry, hlimit', if_false]
          obtain hfound | ⟨hnone, fuel', hlt, hrest⟩ :=
            ih (safe_of_held hsafe.2 (taken + 1)) hrun
          · exact .inl hfound
          · exact .inr ⟨hnone, fuel', by omega, hrest⟩

end Machine

/-! ### Trying one after another -/

section

variable {α β ε : Type} {f : α → Except ε (Option β)} {a : α} {l : List α} {b : β}

theorem findSomeM?_cons_of_none (h : f a = .ok none) :
    (a :: l).findSomeM? f = l.findSomeM? f := by
  rw [List.findSomeM?, h]
  rfl

theorem findSomeM?_cons_of_some (h : f a = .ok (some b)) :
    (a :: l).findSomeM? f = .ok (some b) := by
  rw [List.findSomeM?, h]
  rfl

theorem findSomeM?_cons_of_error {e : ε} (h : f a = .error e) :
    (a :: l).findSomeM? f = .error e := by
  rw [List.findSomeM?, h]
  rfl

/-- What is found is had first where nothing is found before. -/
theorem exists_of_findSomeM?_eq_some (h : l.findSomeM? f = .ok (some b)) :
    ∃ earlier a later, l = earlier ++ a :: later ∧ f a = .ok (some b) ∧
      ∀ x ∈ earlier, f x = .ok none := by
  induction l with
  | nil => cases h
  | cons a l ih =>
    cases hfa : f a with
    | error e =>
      rw [findSomeM?_cons_of_error hfa] at h
      cases h
    | ok found =>
      cases found with
      | none =>
        rw [findSomeM?_cons_of_none hfa] at h
        obtain ⟨earlier, x, later, rfl, hx, hearlier⟩ := ih h
        exact ⟨a :: earlier, x, later, rfl, hx, List.forall_mem_cons.mpr ⟨hfa, hearlier⟩⟩
      | some b' =>
        rw [findSomeM?_cons_of_some hfa] at h
        cases h
        exact ⟨[], a, l, rfl, hfa, by simp⟩

/-- Where nothing is found at all, nothing is found anywhere. -/
theorem eq_none_of_findSomeM?_eq_none (h : l.findSomeM? f = .ok none) :
    ∀ x ∈ l, f x = .ok none := by
  induction l with
  | nil => simp
  | cons a l ih =>
    cases hfa : f a with
    | error e =>
      rw [findSomeM?_cons_of_error hfa] at h
      cases h
    | ok found =>
      cases found with
      | none =>
        rw [findSomeM?_cons_of_none hfa] at h
        exact List.forall_mem_cons.mpr ⟨hfa, ih h⟩
      | some b' =>
        rw [findSomeM?_cons_of_some hfa] at h
        cases h

end

/-! ### The leftmost match -/

namespace Program

open Machine

variable {p : Program} {groups fuel retries : Nat} {origin : Option Nat} {place : Place}
  {code : List Instruction} {found : Option Slots}

/-- At the start of a program, a match is tried while the choice to go on waits. -/
theorem run_start (hcode : p.code = (trying ++ code).toArray)
    (h : run p.code groups origin (fuel + 1) ⟨0, place, p.blank groups, [], 0, retries⟩ =
      .ok found) :
    run p.code groups origin fuel
      (above ⟨1, place, p.blank groups⟩ retries (p.attempt groups place)) = .ok found := by
  have hinstr : p.code.getD 0 .accept = .fork 3 1 := by rw [hcode]; rfl
  rw [run, hinstr] at h
  exact h

/-- The choice to go on leads to the start of the program at the next place, if there is one. -/
theorem run_resume (hcode : p.code = (trying ++ code).toArray)
    (h : run p.code groups origin fuel (Choice.resume ⟨1, place, p.blank groups⟩ retries) =
      .ok found) :
    place.forward = none ∧ found = none ∨
      ∃ c next, place.forward = some (c, next) ∧ ∃ fuel' < fuel,
        run p.code groups origin fuel' ⟨0, next, p.blank groups, [], 0, retries⟩ = .ok found := by
  have htest : p.code.getD 1 .accept = .test .any := by rw [hcode]; rfl
  have hjump : p.code.getD 2 .accept = .jump (-2) := by rw [hcode]; rfl
  cases fuel with
  | zero => simp [run] at h
  | succ fuel =>
    cases hnext : place.forward with
    | none =>
      simp only [run, Choice.resume, htest, step, hnext, retry, Except.ok.injEq] at h
      exact .inl ⟨rfl, h.symm⟩
    | some r =>
      obtain ⟨c, next⟩ := r
      simp only [run, Choice.resume, htest, step, hnext, Test.holds, if_true] at h
      cases fuel with
      | zero => simp [run] at h
      | succ fuel =>
        simp only [run, Machine.next, hjump, step] at h
        exact .inr ⟨c, next, rfl, fuel, by omega, h⟩

/-- **The leftmost match.** A program finds what it finds at the first place where it finds
anything, and it finds nothing only if there is no such place. -/
theorem findSomeM?_of_run {referenced : List Nat} {q : Pattern}
    (hp : Program.ofPattern referenced q = .ok p) (hfuel : fuel ≤ stepLimit)
    (h : run p.code groups origin fuel ⟨0, place, p.blank groups, [], 0, retries⟩ = .ok found) :
    place.onward.findSomeM? (p.matchAt groups origin) = .ok found := by
  obtain ⟨code, hcomposed, hcode⟩ := exists_composed hp
  obtain ⟨frames, hstart, hframes⟩ := exists_frames hcomposed hcode
  rw [List.append_assoc] at hcode
  induction fuel using Nat.strongRecOn generalizing place retries with
  | ind fuel ih =>
    cases fuel with
    | zero => simp [run] at h
    | succ fuel =>
      have hsafe : (p.attempt groups place).Safe frames := ⟨rfl, hstart ▸ trivial, trivial⟩
      obtain ⟨slots, rfl, hfound⟩ | ⟨hnone, fuel', hlt, retries', hrest⟩ :=
        run_above hframes hsafe (run_start hcode h)
      · obtain ⟨later, hlater⟩ := place.exists_onward
        have hat : p.matchAt groups origin place = .ok (some slots) := run_mono (by omega) hfound
        rw [hlater, findSomeM?_cons_of_some hat]
      · have hat : p.matchAt groups origin place = .ok none := run_mono (by omega) hnone
        obtain ⟨hlast, rfl⟩ | ⟨c, next, hnext, fuel'', hlt', hrun⟩ := run_resume hcode hrest
        · rw [Place.onward_of_forward_eq_none hlast, findSomeM?_cons_of_none hat]
          rfl
        · rw [Place.onward_of_forward hnext, findSomeM?_cons_of_none hat]
          exact ih fuel'' (by omega) (by omega) hrun

end Program

end TabFormat.Pattern
