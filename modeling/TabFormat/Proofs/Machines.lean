import TabFormat.Pattern.Machine
import TabFormat.Proofs.ControlFlow
import TabFormat.Proofs.Search

/-!
# Runs of a machine

All that a machine notes while it runs are places of the text. When it accepts, it has just noted
the end of the match, and the start of the match does not lie after its end.

## Main definitions

* `Machine.In` : what holds of a machine at work on a text.

## Main results

* `Machine.in_step` : what a step preserves.
* `Machine.in_run` : what a run comes to.
-/

namespace TabFormat.Pattern

/-! ### Machines at work on a text -/

/-- What is noted are places of the text `s`, and there are slots for the match. -/
structure Notes.In (s : Text) (notes : Notes) : Prop where
  /-- The slots hold places of the text. -/
  slots : Noted (fun p => p.In s) notes.slots
  /-- The marks hold places of the text. -/
  marks : Noted (fun p => p.In s) notes.marks
  /-- There are slots for the match. -/
  size : 1 < notes.slots.size

/-- The choice is that of a machine at work on the text `s` with `n` instructions. -/
structure Choice.In (s : Text) (n : Nat) (choice : Choice) : Prop where
  /-- The instruction is one of them, or follows them. -/
  pc_le : choice.pc ≤ n
  /-- The place lies in the text. -/
  place : choice.place.In s
  /-- What was noted lies in the text. -/
  notes : choice.notes.In s

/-- The machine is at work on the text `s` with `n` instructions, which the instructions that note
the end of the match and that accept follow. -/
structure Machine.In (s : Text) (n : Nat) (m : Machine) : Prop where
  /-- The machine accepts only if the end of the match is noted. -/
  pc_le : m.pc ≤ n ∨ m.pc = n + 1 ∧ (m.slot 1).isSome
  /-- The place lies in the text. -/
  place : m.place.In s
  /-- What was noted lies in the text. -/
  notes : m.notes.In s
  /-- The choices are of the same kind. -/
  choices : ∀ choice ∈ m.choices, choice.In s n

/-- The slots of a match: places of the text `s`, the start not after the end. -/
structure MatchSlots (s : Text) (slots : Slots) : Prop where
  /-- The slots hold places of the text. -/
  noted : Noted (fun p => p.In s) slots
  /-- The end is noted, and the start does not lie after it. -/
  exists_stop : ∃ stop, slots.getD 1 none = some stop ∧
    ∀ start, slots.getD 0 none = some start → start.index ≤ stop.index

/-- What holds of the outcome of a step. -/
def Outcome.In (s : Text) (n : Nat) : Outcome → Prop
  | .running m => m.In s n
  | .stuck m => ∀ choice ∈ m.choices, choice.In s n
  | .matched slots => MatchSlots s slots
  | .failed _ => True

namespace Machine

variable {s : Text} {n : Nat} {m : Machine} {groups : Nat} {origin : Option Nat}

theorem In.move (h : m.In s n) {d : Int} (hd : 0 ≤ (m.pc : Int) + d ∧ (m.pc : Int) + d ≤ n) :
    (m.move d).In s n :=
  { h with pc_le := .inl (by simp only [Machine.move]; omega) }

theorem In.fork (h : m.In s n) {first second : Int}
    (hfirst : 0 ≤ (m.pc : Int) + first ∧ (m.pc : Int) + first ≤ n)
    (hsecond : 0 ≤ (m.pc : Int) + second ∧ (m.pc : Int) + second ≤ n) :
    (m.fork first second).In s n := by
  rw [Machine.fork]
  split
  · trivial
  · refine { h.move hfirst with choices := List.forall_mem_cons.mpr ⟨⟨?_, h.place, h.notes⟩,
      h.choices⟩ }
    show ((m.pc : Int) + second).toNat ≤ n
    omega

theorem In.next (h : m.In s n) (hpc : m.pc + 1 ≤ n) {place : Place} (hplace : place.In s) :
    (m.next place).In s n :=
  { h with pc_le := .inl hpc, place := hplace }

theorem In.nextIf (h : m.In s n) (hpc : m.pc + 1 ≤ n) {place : Option Place}
    (hplace : ∀ p, place = some p → p.In s) : (m.nextIf place).In s n := by
  cases place with
  | none => exact h.choices
  | some p => exact h.next hpc (hplace p rfl)

theorem In.nextWhen (h : m.In s n) (hpc : m.pc + 1 ≤ n) (condition : Bool) :
    (m.nextWhen condition).In s n := by
  cases condition with
  | false => exact h.choices
  | true => exact h.next hpc h.place

theorem In.note (h : m.In s n) (hpc : m.pc + 1 ≤ n) {notes : Notes} (hnotes : notes.In s) :
    (m.note notes).In s n :=
  { h with pc_le := .inl hpc, notes := hnotes }

theorem In.count (h : m.In s n) (hpc : m.pc + 1 ≤ n) {marks : Array (Option Place)}
    (hmarks : Noted (fun p => p.In s) marks) (counters : Array Nat) :
    In s n { m with notes := { m.notes with marks, counters } } :=
  ⟨.inl (Nat.le_of_succ_le hpc), h.place, ⟨h.notes.slots, hmarks, h.notes.size⟩, h.choices⟩

theorem In.repeatOrLeave (h : m.In s n) (hpc : m.pc + 1 ≤ n) {exit : Int}
    (hexit : 0 ≤ (m.pc : Int) + exit ∧ (m.pc : Int) + exit ≤ n) (least : Nat) (greedy : Bool)
    (count : Nat) : (m.repeatOrLeave least greedy count exit).In s n := by
  have hnext : 0 ≤ (m.pc : Int) + 1 ∧ (m.pc : Int) + 1 ≤ n := by omega
  rw [Machine.repeatOrLeave]
  split
  · exact h.move hnext
  · split
    · exact h.fork hnext hexit
    · exact h.fork hexit hnext

theorem in_copySlots {source target : Slots} (inside : List Nat)
    (hsource : Noted (fun p => p.In s) source) (htarget : Noted (fun p => p.In s) target) :
    Noted (fun p => p.In s) (copySlots inside source target) ∧
      (copySlots inside source target).size = target.size := by
  induction inside generalizing target with
  | nil => exact ⟨htarget, rfl⟩
  | cons g inside ih =>
    obtain ⟨hnoted, hsize⟩ := ih ((htarget.set (2 * g) fun p => hsource.getD).set (2 * g + 1)
      fun p => hsource.getD)
    refine ⟨hnoted, hsize.trans ?_⟩
    rw [Array.size_setIfInBounds, Array.size_setIfInBounds]

/-- **A step keeps to the text and to the instructions.** -/
theorem in_step (h : m.In s n) {instr : Instruction} (hstays : instr.Stays n m.pc)
    (groups : Nat) (origin : Option Nat) : (m.step groups origin instr).In s n := by
  obtain ⟨hne, hbounds⟩ := hstays
  have hone (hd : 1 ∈ instr.distances) : m.pc + 1 ≤ n := by
    have := (hbounds 1 hd).2
    omega
  cases instr with
  | test t =>
    rw [step]
    split
    · rename_i c place hforward
      split
      · exact h.next (hone (by simp [Instruction.distances])) (h.place.forward hforward)
      · exact h.choices
    · exact h.choices
  | text t => exact h.nextIf (hone (by simp [Instruction.distances])) fun p hp => h.place.past hp
  | anchor a => exact h.nextWhen (hone (by simp [Instruction.distances])) _
  | regular a inside =>
    rw [step]
    split
    · rename_i accepted haccepted
      obtain ⟨hstop, -, hslots⟩ := Automaton.places_matchAt h.place haccepted
      obtain ⟨hnoted, hsize⟩ :=
        in_copySlots inside (hslots.mono fun p hp => hp.1) h.notes.slots
      have hnotes : Notes.In s { m.notes with slots := _ } :=
        ⟨hnoted, h.notes.marks, hsize ▸ h.notes.size⟩
      exact ⟨.inl (hone (by simp [Instruction.distances])), hstop, hnotes, h.choices⟩
    · exact h.choices
  | fork first second =>
    exact h.fork (hbounds _ (by simp [Instruction.distances]))
      (hbounds _ (by simp [Instruction.distances]))
  | jump distance => exact h.move (hbounds _ (by simp [Instruction.distances]))
  | save slot =>
    refine h.note (hone (by simp [Instruction.distances])) ⟨?_, h.notes.marks, ?_⟩
    · exact h.notes.slots.set slot fun p hp => Option.some.inj hp ▸ h.place
    · rw [Array.size_setIfInBounds]
      exact h.notes.size
  | mark i =>
    refine h.note (hone (by simp [Instruction.distances])) ⟨h.notes.slots, ?_, h.notes.size⟩
    exact h.notes.marks.set i fun p hp => Option.some.inj hp ▸ h.place
  | returnTo i =>
    exact h.nextIf (hone (by simp [Instruction.distances])) fun p hp => h.notes.marks.getD hp
  | reset counter => exact h.note (hone (by simp [Instruction.distances])) { h.notes with }
  | repetition least most greedy counter exit =>
    have hexit := hbounds exit (by simp [Instruction.distances])
    rw [step]
    dsimp only
    split
    · exact h.move hexit
    · have hpc := hone (by simp [Instruction.distances])
      exact (h.count hpc h.notes.marks (m.notes.counters.setIfInBounds counter
        (m.notes.counters.getD counter 0 + 1))).repeatOrLeave hpc hexit _ _ _
  | nonemptyRepetition least greedy counter mark exit =>
    have hexit := hbounds exit (by simp [Instruction.distances])
    rw [step]
    dsimp only
    split
    · exact h.choices
    · have hpc := hone (by simp [Instruction.distances])
      have hmarks : Noted (fun p => p.In s)
          (if m.notes.counters.getD counter 0 < least then m.notes.marks
            else m.notes.marks.setIfInBounds mark (some m.place)) := by
        split
        · exact h.notes.marks
        · exact h.notes.marks.set mark fun p hp => Option.some.inj hp ▸ h.place
      exact (h.count hpc hmarks (m.notes.counters.setIfInBounds counter
        (m.notes.counters.getD counter 0 + 1))).repeatOrLeave hpc hexit _ _ _
  | goBack count =>
    exact h.nextIf (hone (by simp [Instruction.distances])) fun p hp => h.place.back hp
  | reject => exact fun choice hchoice => h.choices choice (List.mem_of_mem_drop hchoice)
  | reference index =>
    rw [step]
    split
    · exact h.nextIf (hone (by simp [Instruction.distances])) fun p hp => h.place.past hp
    · exact h.choices
  | hasMatched index => exact h.nextWhen (hone (by simp [Instruction.distances])) _
  | beginAtomic => exact h.note (hone (by simp [Instruction.distances])) { h.notes with }
  | endAtomic =>
    rw [step]
    split
    · exact h.move (hbounds _ (by simp [Instruction.distances]))
    · exact ⟨.inl (hone (by simp [Instruction.distances])), h.place, { h.notes with },
        fun choice hchoice => h.choices choice (List.mem_of_mem_drop hchoice)⟩
  | searchStart => exact h.nextWhen (hone (by simp [Instruction.distances])) _
  | accept => exact absurd rfl hne

/-- The end of the match is noted. -/
theorem in_step_save (h : m.In s n) (hpc : m.pc = n) (groups : Nat) (origin : Option Nat) :
    (m.step groups origin (.save 1)).In s n := by
  refine ⟨.inr ⟨by simp [note, hpc], ?_⟩, h.place, ⟨?_, h.notes.marks, ?_⟩, h.choices⟩
  · have hsize := h.notes.size
    simp [slot, note, hsize]
  · exact h.notes.slots.set 1 fun p hp => Option.some.inj hp ▸ h.place
  · simpa [note] using h.notes.size

/-- The match does not start after its end. -/
theorem matchSlots_result (h : m.In s n) (hstop : (m.slot 1).isSome) : MatchSlots s m.result := by
  obtain ⟨stop, hstop⟩ := Option.isSome_iff_exists.mp hstop
  rw [result, hstop]
  cases hstart : m.slot 0 with
  | none =>
    exact ⟨h.notes.slots, stop, hstop, fun start h => absurd (hstart.symm.trans h) (by simp)⟩
  | some start =>
    dsimp only
    split
    · -- the start is moved to the end
      refine ⟨h.notes.slots.set 0 fun p hp => ?_, stop, ?_, fun start h => ?_⟩
      · obtain rfl := Option.some.inj hp
        exact h.notes.slots.getD hstop
      · rw [getD_setIfInBounds_ne Nat.zero_ne_one]
        exact hstop
      · obtain rfl := eq_of_getD_setIfInBounds h
        exact Nat.le_refl _
    · rename_i hle
      refine ⟨h.notes.slots, stop, hstop, fun start' h => ?_⟩
      obtain rfl := Option.some.inj (hstart.symm.trans h)
      exact Nat.le_of_not_lt hle

theorem In.accept (h : m.In s n) (hpc : m.pc = n + 1) (groups : Nat) (origin : Option Nat) :
    (m.step groups origin .accept).In s n := by
  refine matchSlots_result h ?_
  obtain hle | ⟨-, hstop⟩ := h.pc_le
  · omega
  · exact hstop

section

variable {code : List Instruction} {program : Array Instruction}

/-- **A step of a program keeps to the text and to the program.** -/
theorem in_step_program (hcode : Closed code)
    (hprogram : program = (code ++ [Instruction.save 1, .accept]).toArray)
    (h : m.In s code.length) (groups : Nat) (origin : Option Nat) :
    (m.step groups origin (program.getD m.pc .accept)).In s code.length := by
  have hinstr : program.getD m.pc .accept =
      ((code ++ [Instruction.save 1, .accept])[m.pc]?).getD .accept := by
    rw [hprogram, Array.getD_eq_getD_getElem?, List.getElem?_toArray]
  rw [hinstr]
  obtain hlt | heq | hgt := Nat.lt_trichotomy m.pc code.length
  · have hget : code[m.pc]? = some code[m.pc] := List.getElem?_eq_getElem hlt
    have hstays := hcode m.pc _ hget
    rw [List.getElem?_append_left hlt, hget]
    rw [Nat.zero_add] at hstays
    exact in_step h hstays groups origin
  · rw [heq, List.getElem?_append_right (Nat.le_refl _), Nat.sub_self]
    exact in_step_save h heq groups origin
  · have hpc : m.pc = code.length + 1 := by
      obtain hle | ⟨hpc, -⟩ := h.pc_le <;> omega
    rw [hpc, List.getElem?_append_right (Nat.le_add_right _ 1), Nat.add_sub_cancel_left]
    exact h.accept hpc groups origin

/-- **What a run comes to.** -/
theorem in_run (hcode : Closed code)
    (hprogram : program = (code ++ [Instruction.save 1, .accept]).toArray) {fuel : Nat}
    (h : m.In s code.length) {slots : Slots}
    (hrun : run program groups origin fuel m = .ok (some slots)) : MatchSlots s slots := by
  induction fuel generalizing m with
  | zero => simp [run] at hrun
  | succ fuel ih =>
    have hstep := in_step_program hcode hprogram h groups origin
    rw [run] at hrun
    generalize m.step groups origin (program.getD m.pc .accept) = outcome at hrun hstep
    cases outcome with
    | running next => exact ih hstep hrun
    | matched found =>
      obtain rfl : found = slots := by simpa using hrun
      exact hstep
    | failed e => simp at hrun
    | stuck stuck =>
      dsimp only at hrun
      cases hchoices : stuck.choices with
      | nil =>
        rw [retry, hchoices] at hrun
        simp at hrun
      | cons choice choices =>
        have hall : ∀ choice ∈ stuck.choices, choice.In s code.length := hstep
        rw [hchoices] at hall
        obtain ⟨hchoice, hrest⟩ := List.forall_mem_cons.mp hall
        rw [retry, hchoices] at hrun
        dsimp only at hrun
        split at hrun
        · rename_i next hnext
          split at hnext
          · simp at hnext
          · obtain rfl : _ = next := by simpa using hnext
            exact ih ⟨.inl hchoice.pc_le, hchoice.place, hchoice.notes, hrest⟩ hrun
        · simp at hrun
        · simp at hrun

end

end Machine

end TabFormat.Pattern
