import Mathlib.Data.List.DropRight
import Mathlib.Data.List.Infix
import TabFormat.Pattern.Machine
import TabFormat.Proofs.ControlFlow

/-!
# What waits while a program runs

An instruction that takes back choices takes them back up to a certain one. That one was kept when
the machine entered the instructions of a negated look-around, and nothing has taken it back since:
the atomic groups inside take back later choices only. So each instruction has frames, which say
what waits when the machine comes to it, and every step of the machine keeps to them.

## Main definitions

* `Frame` : a choice or a number of choices that waits.
* `Instruction.Keeps` : an instruction that keeps to the frames.
* `Fits` : what frames say about choices and remembered numbers.
* `Machine.Safe` : a machine at which everything waits that should.

## Main results

* `Composed.framed` : there are frames for the instructions of a pattern.
* `Program.exists_frames` : there are frames for a program.
* `Machine.safe_step` : a step keeps to the frames.
-/

namespace TabFormat.Pattern

/-! ### Frames of instructions -/

/-- Something that waits for a later instruction. -/
inductive Frame where
  /-- A choice to go on with an instruction. -/
  | choice (pc : Nat)
  /-- A number of choices that is remembered. -/
  | atomic

/-- The instruction at index `i` keeps to the frames of the instructions, where the innermost one
comes first. A choice that it keeps may become a frame of the way that it takes, and fewer frames
may be asked for on either way. The ends of an atomic group add a frame and take it away, and an
instruction that takes back choices has their frame. Any other instruction leads to where the frames
are the same. -/
def Instruction.Keeps (frames : Nat → List Frame) (i : Nat) : Instruction → Prop
  | .fork first second =>
    frames (i + first).toNat <:+ .choice (i + second).toNat :: frames i ∧
      frames (i + second).toNat <:+ frames i
  | .reject => frames i = .choice (i + 1) :: frames (i + 1)
  | .beginAtomic => frames (i + 1) = .atomic :: frames i
  | .endAtomic => frames i = .atomic :: frames (i + 1)
  | .accept => True
  | instr => ∀ d ∈ instr.distances, frames (i + d).toNat = frames i

/-- There are frames for the instructions, wherever they stand and whatever waits around them. What
waits at the first instruction also waits behind the last one. -/
def Framed (code : List Instruction) : Prop :=
  ∀ (i : Nat) (base : List Frame), ∃ frames : Nat → List Frame,
    (∀ k, k ≤ i ∨ i + code.length ≤ k → frames k = base) ∧ Each (Instruction.Keeps frames) code i

section

variable {frames frames' : Nat → List Frame} {base : List Frame} {i : Nat} {instr : Instruction}
  {exit : Int} {code code' : List Instruction}

/-- Only the frames of the instruction and of those that it leads to matter. -/
theorem Instruction.Keeps.congr (h : instr.Keeps frames i) (hpc : frames' i = frames i)
    (hnext : ∀ d ∈ instr.distances, frames' (i + d).toNat = frames (i + d).toNat) :
    instr.Keeps frames' i := by
  have hone (hd : 1 ∈ instr.distances) : frames' (i + 1) = frames (i + 1) := hnext 1 hd
  cases instr with
  | fork first second =>
    simp only [Keeps, distances, List.mem_cons, List.not_mem_nil, or_false, forall_eq_or_imp,
      forall_eq] at h hnext ⊢
    rw [hnext.1, hnext.2, hpc]
    exact h
  | reject | beginAtomic | endAtomic =>
    simp only [Keeps] at h ⊢
    rw [hpc, hone (by simp [distances])]
    exact h
  | accept => trivial
  | _ => exact fun d hd => (hnext d hd).trans ((h d hd).trans hpc.symm)

theorem Instruction.Keeps.of_isPlain (h : instr.isPlain) (hpc : frames i = base)
    (hnext : frames (i + 1) = base) : instr.Keeps frames i := by
  cases instr with
  | fork | jump | repetition | nonemptyRepetition | reject | beginAtomic | endAtomic | accept =>
    simp [isPlain] at h
  | _ => exact fun d hd => List.mem_singleton.mp hd ▸ hnext.trans hpc.symm

theorem Instruction.Keeps.of_branches (h : instr.Branches exit) (hpc : frames i = base)
    (hnext : frames (i + 1) = base) (hexit : frames (i + exit).toNat = base) :
    instr.Keeps frames i := by
  have hnext : frames ((i : Int) + 1).toNat = base := hnext
  have hsuffix (frame : Frame) : base <:+ frame :: base := List.suffix_cons ..
  cases h with
  | enter =>
    rw [Keeps, hpc, hnext, hexit]
    exact ⟨hsuffix _, List.suffix_refl _⟩
  | leave =>
    rw [Keeps, hpc, hnext, hexit]
    exact ⟨hsuffix _, List.suffix_refl _⟩
  | repetition | nonemptyRepetition =>
    intro d hd
    obtain rfl | rfl : d = 1 ∨ d = exit := by simpa [distances] using hd
    · exact hnext.trans hpc.symm
    · exact hexit.trans hpc.symm

theorem Instruction.Keeps.of_jump {d : Int} (hpc : frames i = base)
    (h : frames (i + d).toNat = base) : (Instruction.jump d).Keeps frames i :=
  fun _ hd => List.mem_singleton.mp hd ▸ h.trans hpc.symm

/-- Frames may differ elsewhere. -/
theorem Closed.keeps_congr (hclosed : Closed code) (h : Each (Instruction.Keeps frames) code i)
    (heq : ∀ k, i ≤ k → k ≤ i + code.length → frames' k = frames k) :
    Each (Instruction.Keeps frames') code i := by
  intro k instr hk
  obtain ⟨-, hbounds⟩ := hclosed k instr hk
  obtain ⟨hlt, -⟩ := List.getElem?_eq_some_iff.mp hk
  refine (h k instr hk).congr (heq _ (by omega) (by omega)) fun d hd => ?_
  obtain ⟨hlow, hhigh⟩ := hbounds d hd
  push_cast at hlow hhigh ⊢
  exact heq _ (by omega) (by omega)

/-- Frames of instructions inside of other frames. -/
theorem Framed.within (h : Framed code) (hclosed : Closed code) (frames : Nat → List Frame)
    (i : Nat) (inner : List Frame) : ∃ frames' : Nat → List Frame,
      frames' i = inner ∧ frames' (i + code.length) = inner ∧
      (∀ k, k < i ∨ i + code.length < k → frames' k = frames k) ∧
      Each (Instruction.Keeps frames') code i := by
  obtain ⟨own, hown, heach⟩ := h i inner
  let joined (k : Nat) : List Frame := if i ≤ k ∧ k ≤ i + code.length then own k else frames k
  have hin (k : Nat) (hle : i ≤ k) (hle' : k ≤ i + code.length) : joined k = own k :=
    if_pos ⟨hle, hle'⟩
  refine ⟨joined, ?_, ?_, fun k hk => if_neg (by omega), hclosed.keeps_congr heach hin⟩
  · rw [hin i (by omega) (by omega), hown i (by omega)]
  · rw [hin _ (by omega) (by omega), hown _ (by omega)]

/-- Frames of instructions in two places. -/
theorem Framed.both (h : Framed code) (h' : Framed code') (hclosed : Closed code)
    (hclosed' : Closed code') (i j : Nat) (base : List Frame) (hij : i + code.length ≤ j) :
    ∃ frames : Nat → List Frame,
      (∀ k, k ≤ i ∨ i + code.length ≤ k ∧ k ≤ j ∨ j + code'.length ≤ k → frames k = base) ∧
      Each (Instruction.Keeps frames) code i ∧ Each (Instruction.Keeps frames) code' j := by
  obtain ⟨first, hfirst, heach⟩ := h i base
  obtain ⟨frames, hstart, hstop, hother, heach'⟩ := h'.within hclosed' first j base
  refine ⟨frames, fun k hk => ?_, hclosed.keeps_congr heach fun k hle hle' => ?_, heach'⟩
  · obtain hlt | rfl | hgt := Nat.lt_trichotomy k j
    · rw [hother k (.inl hlt), hfirst k (by omega)]
    · exact hstart
    · obtain rfl | hgt' : k = j + code'.length ∨ j + code'.length < k := by omega
      · exact hstop
      · rw [hother k (.inr hgt'), hfirst k (by omega)]
  · obtain hlt | rfl : k < j ∨ k = j := by omega
    · exact hother k (.inl hlt)
    · rw [hstart, hfirst k (by omega)]

theorem framed_nil : Framed [] :=
  fun _ base => ⟨fun _ => base, fun _ _ => rfl, each_nil⟩

theorem framed_plain (h : instr.isPlain) : Framed [instr] :=
  fun _ base => ⟨fun _ => base, fun _ _ => rfl, by simpa using .of_isPlain h rfl rfl⟩

theorem Framed.append (h : Framed code) (h' : Framed code') (hclosed : Closed code)
    (hclosed' : Closed code') : Framed (code ++ code') := by
  intro i base
  obtain ⟨frames, hbase, heach, heach'⟩ := h.both h' hclosed hclosed' i _ base (Nat.le_refl _)
  refine ⟨frames, fun k hk => hbase k ?_, each_append.mpr ⟨heach, heach'⟩⟩
  rw [List.length_append] at hk
  omega

theorem Framed.optional (h : Framed code) (hinstr : instr.Branches (code.length + 1)) :
    Framed (instr :: code) := by
  intro i base
  obtain ⟨frames, hbase, heach⟩ := h (i + 1) base
  refine ⟨frames, fun k hk => hbase k ?_, each_cons.mpr ⟨?_, heach⟩⟩
  · rw [List.length_cons] at hk
    omega
  · exact .of_branches hinstr (hbase _ (by omega)) (hbase _ (by omega)) (hbase _ (by omega))

theorem Framed.loop (h : Framed code) (hinstr : instr.Branches (code.length + 2)) :
    Framed (instr :: code ++ [.jump (-(code.length + 1))]) := by
  intro i base
  obtain ⟨frames, hbase, heach⟩ := h (i + 1) base
  refine ⟨frames, fun k hk => hbase k ?_, ?_⟩
  · simp only [List.length_append, List.length_cons, List.length_nil] at hk
    omega
  · simp only [List.cons_append, each_cons, each_append, each_nil, and_true]
    exact ⟨.of_branches hinstr (hbase _ (by omega)) (hbase _ (by omega)) (hbase _ (by omega)),
      heach, .of_jump (hbase _ (by omega)) (hbase _ (by omega))⟩

theorem Framed.again (h : Framed code) (hinstr : instr.Branches (-code.length)) :
    Framed (code ++ [instr]) := by
  intro i base
  obtain ⟨frames, hbase, heach⟩ := h i base
  refine ⟨frames, fun k hk => hbase k ?_, ?_⟩
  · simp only [List.length_append, List.length_cons, List.length_nil] at hk
    omega
  · simp only [each_append, each_cons, each_nil, and_true]
    exact ⟨heach,
      .of_branches hinstr (hbase _ (by omega)) (hbase _ (by omega)) (hbase _ (by omega))⟩

theorem Framed.either (h : Framed code) (h' : Framed code') (hclosed : Closed code)
    (hclosed' : Closed code') :
    Framed (.fork 1 (code.length + 2) :: code ++ .jump (code'.length + 1) :: code') := by
  intro i base
  obtain ⟨frames, hbase, heach, heach'⟩ :=
    h.both h' hclosed hclosed' (i + 1) (i + 1 + code.length + 1) base (by omega)
  refine ⟨frames, fun k hk => hbase k ?_, ?_⟩
  · simp only [List.length_append, List.length_cons] at hk
    omega
  · simp only [List.cons_append, each_cons, each_append]
    exact ⟨.of_branches .enter (hbase _ (by omega)) (hbase _ (by omega)) (hbase _ (by omega)),
      heach, .of_jump (hbase _ (by omega)) (hbase _ (by omega)), heach'⟩

/-- Inside, the choice waits that the last instruction takes back. -/
theorem Framed.never (h : Framed code) (hclosed : Closed code) :
    Framed (.fork 1 (code.length + 2) :: code ++ [.reject]) := by
  intro i base
  have hexit : (i + (code.length + 2 : Int)).toNat = i + 1 + code.length + 1 := by omega
  obtain ⟨frames, hstart, hend, hother, heach⟩ :=
    h.within hclosed (fun _ => base) (i + 1) (.choice (i + 1 + code.length + 1) :: base)
  refine ⟨frames, fun k hk => hother k ?_, ?_⟩
  · simp only [List.length_append, List.length_cons, List.length_nil] at hk
    omega
  · have hstart : frames ((i : Int) + 1).toNat = _ := hstart
    simp only [List.cons_append, each_cons, each_append, each_nil, and_true]
    refine ⟨?_, heach, ?_⟩
    · rw [Instruction.Keeps, hexit, hstart, hother i (by omega), hother _ (by omega)]
      exact ⟨List.suffix_refl _, List.suffix_refl _⟩
    · rw [Instruction.Keeps, hend, hother _ (by omega)]

/-- Inside, the number waits that the first instruction remembers. -/
theorem Framed.atomic (h : Framed code) (hclosed : Closed code) :
    Framed (.beginAtomic :: code ++ [.endAtomic]) := by
  intro i base
  obtain ⟨frames, hstart, hend, hother, heach⟩ :=
    h.within hclosed (fun _ => base) (i + 1) (.atomic :: base)
  refine ⟨frames, fun k hk => hother k ?_, ?_⟩
  · simp only [List.length_append, List.length_cons, List.length_nil] at hk
    omega
  · simp only [List.cons_append, each_cons, each_append, each_nil, and_true]
    refine ⟨?_, heach, ?_⟩
    · rw [Instruction.Keeps, hstart, hother i (by omega)]
    · rw [Instruction.Keeps, hend, hother _ (by omega)]

/-- Inside of the condition, the number waits that the first instruction remembers. If the other
choice is made, it still waits, and nothing asks for it. -/
theorem Framed.conditional {condition accepted rejected : List Instruction}
    (h : Framed condition) (h' : Framed accepted) (h'' : Framed rejected)
    (hclosed : Closed condition) (hclosed' : Closed accepted) (hclosed'' : Closed rejected) :
    Framed (.beginAtomic :: .fork 1 (condition.length + accepted.length + 3) :: condition ++
      .endAtomic :: accepted ++ .jump (rejected.length + 1) :: rejected) := by
  intro i base
  let start : Nat := i + 1 + 1 + condition.length + 1
  obtain ⟨outer, hbase, haccepted, hrejected⟩ := h'.both h'' hclosed' hclosed'' start
    (start + accepted.length + 1) base (by omega)
  obtain ⟨frames, hstart, hend, hother, hcondition⟩ := h.within hclosed
    (fun k => if k = i + 1 then .atomic :: base else outer k) (i + 1 + 1) (.atomic :: base)
  have hfork : frames (i + 1) = .atomic :: base := (hother _ (by omega)).trans (if_pos rfl)
  have houter (k : Nat) (hk : k ≤ i ∨ start ≤ k) : frames k = outer k :=
    (hother k (by omega)).trans (if_neg (by omega))
  have hbase (k : Nat) (hk : k ≤ i ∨ k = start ∨ start + accepted.length ≤ k ∧
      k ≤ start + accepted.length + 1 ∨ start + accepted.length + 1 + rejected.length ≤ k) :
      frames k = base :=
    (houter k (by omega)).trans (hbase k (by omega))
  have hexit : (((i + 1 : Nat) : Int) + (condition.length + accepted.length + 3 : Int)).toNat =
      start + accepted.length + 1 := by omega
  refine ⟨frames, fun k hk => hbase k ?_, ?_⟩
  · simp only [List.length_append, List.length_cons] at hk
    omega
  · have hstart : frames (((i + 1 : Nat) : Int) + 1).toNat = _ := hstart
    simp only [List.cons_append, List.append_assoc, each_cons, each_append]
    refine ⟨?_, ⟨?_, ?_⟩, hcondition, ?_, hclosed'.keeps_congr haccepted fun k hk _ =>
      houter k (.inr hk), .of_jump (hbase _ (by omega)) (hbase _ (by omega)),
      hclosed''.keeps_congr hrejected fun k hk _ => houter k (by omega)⟩
    · rw [Instruction.Keeps, hfork, hbase i (by omega)]
    · rw [hstart, hfork]
      exact List.suffix_cons ..
    · rw [hexit, hfork, hbase _ (by omega)]
      exact List.suffix_cons ..
    · rw [Instruction.Keeps, hend, hbase _ (by omega)]

/-- **There are frames for the instructions of a pattern.** -/
theorem Composed.framed (h : Composed code) : Framed code := by
  induction h with
  | nil => exact framed_nil
  | plain h => exact framed_plain h
  | append h h' ih ih' => exact ih.append ih' h.closed h'.closed
  | optional _ hfirst ih => exact ih.optional hfirst
  | loop _ hfirst ih => exact ih.loop hfirst
  | again _ hlast ih => exact ih.again hlast
  | either h h' ih ih' => exact ih.either ih' h.closed h'.closed
  | never h ih => exact ih.never h.closed
  | atomic h ih => exact ih.atomic h.closed
  | conditional h h' h'' ih ih' ih'' =>
    exact ih.conditional ih' ih'' h.closed h'.closed h''.closed

end

/-- **There are frames for a program.** Nothing waits where it begins to try a match. -/
theorem Program.exists_frames {code : List Instruction} {program : Array Instruction}
    (hcode : Composed code)
    (hprogram : program = (trying ++ code ++ [Instruction.save 1, .accept]).toArray) :
    ∃ frames : Nat → List Frame, frames trying.length = [] ∧
      ∀ k, (program.getD k .accept).Keeps frames k := by
  have htrying := composed_trying
  obtain ⟨frames, hbase, heach, heach'⟩ := htrying.framed.both hcode.framed htrying.closed
    hcode.closed 0 trying.length [] (by simp)
  refine ⟨frames, hbase _ (by omega), fun k => ?_⟩
  have hall : Each (Instruction.Keeps frames)
      (trying ++ code ++ [Instruction.save 1, .accept]) 0 := by
    simp only [each_append, each_cons, each_nil, and_true, Nat.zero_add, List.length_append]
    exact ⟨⟨heach, heach'⟩, .of_isPlain rfl (hbase _ (by omega)) (hbase _ (by omega)), trivial⟩
  rw [hprogram, Array.getD_eq_getD_getElem?, List.getElem?_toArray]
  cases hinstr : (trying ++ code ++ [Instruction.save 1, .accept])[k]? with
  | none => trivial
  | some instr =>
    have hkeeps := hall k instr hinstr
    rwa [Nat.zero_add] at hkeeps

/-! ### Frames of machines -/

/-- What frames say: a choice is kept, and where a number of choices is remembered, what lies
outside is kept by those earliest choices. -/
def Fits : List Frame → List Choice → List Nat → Prop
  | [], _, _ => True
  | .choice pc :: frames, choices, remembered =>
    (∃ choice ∈ choices, choice.pc = pc) ∧ Fits frames choices remembered
  | .atomic :: _, _, [] => False
  | .atomic :: frames, choices, count :: remembered =>
    Fits frames (choices.rtake count) remembered

/-- For each kept choice, everything waits that should, if it is taken back. -/
def Held (frames : Nat → List Frame) : List Choice → Prop
  | [] => True
  | choice :: choices =>
    Fits (frames choice.pc) choices choice.notes.remembered ∧ Held frames choices

/-- The choices of the machine are counted. -/
def Machine.Counted (m : Machine) : Prop :=
  m.height = m.choices.length

/-- The machine without its latest `n` choices. -/
def Machine.dropChoices (m : Machine) (n : Nat) : Machine :=
  { m with choices := m.choices.drop n, height := m.height - n }

/-- Everything waits that should at the next instruction of the machine, and at its choices. -/
structure Machine.Safe (frames : Nat → List Frame) (m : Machine) : Prop where
  /-- The choices are counted. -/
  counted : m.Counted
  /-- Everything waits that should at the next instruction. -/
  fits : Fits (frames m.pc) m.choices m.notes.remembered
  /-- Everything waits that should at the choices. -/
  held : Held frames m.choices

/-- What holds of the outcome of a step. -/
def Outcome.Safe (frames : Nat → List Frame) : Outcome → Prop
  | .running m => m.Safe frames
  | .stuck m => m.Counted ∧ Held frames m.choices
  | .matched _ | .failed _ => True

section

variable {fs fs' : List Frame} {choices choices' : List Choice} {remembered : List Nat}
  {count : Nat} {frames : Nat → List Frame}

theorem rtake_length (choices : List Choice) : choices.rtake choices.length = choices := by
  simp [List.rtake]

theorem rtake_suffix_rtake (h : choices <:+ choices') :
    choices.rtake count <:+ choices'.rtake count := by
  rw [List.rtake_eq_reverse_take_reverse, List.rtake_eq_reverse_take_reverse, List.reverse_suffix]
  exact (List.reverse_prefix.mpr h).take count

/-- More choices may be kept. -/
theorem Fits.mono (h : Fits fs choices remembered) (hchoices : choices <:+ choices') :
    Fits fs choices' remembered := by
  fun_induction Fits fs choices remembered generalizing choices' with
  | case1 => trivial
  | case2 pc fs choices remembered ih =>
    obtain ⟨⟨choice, hchoice, hpc⟩, hrest⟩ := h
    exact ⟨⟨choice, hchoices.mem hchoice, hpc⟩, ih hrest hchoices⟩
  | case3 => exact h
  | case4 fs choices count remembered ih => exact ih h (rtake_suffix_rtake hchoices)

/-- One more number may be remembered, if so many choices keep what waits. -/
theorem Fits.remember (h : Fits fs (choices.rtake count) remembered) :
    Fits fs choices (count :: remembered) := by
  induction fs generalizing choices count remembered with
  | nil => trivial
  | cons frame fs ih =>
    cases frame with
    | choice pc =>
      obtain ⟨⟨choice, hchoice, hpc⟩, hrest⟩ := h
      exact ⟨⟨choice, List.mem_of_mem_drop hchoice, hpc⟩, ih hrest⟩
    | atomic =>
      cases remembered with
      | nil => exact absurd h id
      | cons count' remembered => exact ih h

/-- Fewer frames may be asked for. -/
theorem Fits.of_suffix (h : Fits fs choices remembered) (hfs : fs' <:+ fs) :
    Fits fs' choices remembered := by
  fun_induction Fits fs choices remembered with
  | case1 =>
    obtain rfl := List.suffix_nil.mp hfs
    trivial
  | case2 pc fs choices remembered ih =>
    obtain rfl | hfs := List.suffix_cons_iff.mp hfs
    · exact h
    · exact ih h.2 hfs
  | case3 => exact absurd h id
  | case4 fs choices count remembered ih =>
    obtain rfl | hfs := List.suffix_cons_iff.mp hfs
    · exact h
    · exact (ih h hfs).remember

theorem Held.of_suffix (h : Held frames choices) (hchoices : choices' <:+ choices) :
    Held frames choices' := by
  induction choices with
  | nil =>
    obtain rfl := List.suffix_nil.mp hchoices
    trivial
  | cons choice choices ih =>
    obtain rfl | hchoices := List.suffix_cons_iff.mp hchoices
    · exact h
    · exact ih h.2 hchoices

end

namespace Machine

variable {frames : Nat → List Frame} {m m' : Machine}

theorem Counted.dropChoices (h : m.Counted) (n : Nat) : (m.dropChoices n).Counted := by
  have hlength : m.height - n = (m.choices.drop n).length := by rw [List.length_drop, h]
  exact hlength

/-- Only where the machine goes on, its choices and what is remembered matter. -/
theorem Safe.congr (h : m.Safe frames) (hpc : frames m'.pc = frames m.pc)
    (hchoices : m'.choices = m.choices) (hheight : m'.height = m.height)
    (hremembered : m'.notes.remembered = m.notes.remembered) : m'.Safe frames := by
  refine ⟨?_, ?_, ?_⟩
  · rw [Counted, hheight, hchoices]
    exact h.counted
  · rw [hpc, hchoices, hremembered]
    exact h.fits
  · rw [hchoices]
    exact h.held

/-- The choice to which choices are taken back waits. -/
theorem Safe.exists_choice (h : m.Safe frames) (hkeeps : Instruction.reject.Keeps frames m.pc) :
    ∃ choice ∈ m.choices, choice.pc = m.pc + 1 := by
  have hfits := h.fits
  rw [hkeeps] at hfits
  exact hfits.1

/-- Everything waits that should when a choice is taken back. -/
theorem safe_of_held {choice : Choice} {choices : List Choice}
    (h : Held frames (choice :: choices)) (retries : Nat) :
    Safe frames ⟨choice.pc, choice.place, choice.notes, choices, choices.length, retries⟩ :=
  ⟨rfl, h.1, h.2⟩

theorem Safe.count (h : m.Safe frames) (marks : Array (Option Place)) (counters : Array Nat) :
    Safe frames { m with notes := { m.notes with marks, counters } } :=
  h.congr rfl rfl rfl rfl

theorem Safe.stuck (h : m.Safe frames) : (Outcome.stuck m).Safe frames :=
  ⟨h.counted, h.held⟩

theorem Safe.nextIf (h : m.Safe frames) (hnext : frames (m.pc + 1) = frames m.pc)
    (place : Option Place) : (m.nextIf place).Safe frames := by
  cases place with
  | none => exact h.stuck
  | some p => exact h.congr hnext rfl rfl rfl

theorem Safe.nextWhen (h : m.Safe frames) (hnext : frames (m.pc + 1) = frames m.pc)
    (condition : Bool) : (m.nextWhen condition).Safe frames := by
  cases condition with
  | false => exact h.stuck
  | true => exact h.congr hnext rfl rfl rfl

theorem Safe.fork (h : m.Safe frames) {first second : Int}
    (hkeeps : (Instruction.fork first second).Keeps frames m.pc) :
    (m.fork first second).Safe frames := by
  obtain ⟨hfirst, hsecond⟩ := hkeeps
  rw [Machine.fork]
  split
  · trivial
  · let other : Choice := ⟨(m.pc + second).toNat, m.place, m.notes⟩
    have hother : Fits (.choice other.pc :: frames m.pc) (other :: m.choices) m.notes.remembered :=
      ⟨⟨other, List.mem_cons_self, rfl⟩, h.fits.mono (List.suffix_cons ..)⟩
    exact ⟨congrArg (· + 1) h.counted, hother.of_suffix hfirst, h.fits.of_suffix hsecond, h.held⟩

theorem Safe.repeatOrLeave (h : m.Safe frames) {exit : Int}
    (hnext : frames (m.pc + 1) = frames m.pc)
    (hexit : frames (m.pc + exit).toNat = frames m.pc) (least : Nat) (greedy : Bool) (count : Nat) :
    (m.repeatOrLeave least greedy count exit).Safe frames := by
  rw [Machine.repeatOrLeave]
  split
  · exact h.congr hnext rfl rfl rfl
  · split
    · exact h.fork (.of_branches .enter rfl hnext hexit)
    · exact h.fork (.of_branches .leave rfl hnext hexit)

/-- **A step keeps to the frames.** -/
theorem safe_step (h : m.Safe frames) {instr : Instruction} (hkeeps : instr.Keeps frames m.pc)
    (groups : Nat) (origin : Option Nat) : (m.step groups origin instr).Safe frames := by
  cases instr with
  | test t =>
    have hnext : frames (m.pc + 1) = frames m.pc := hkeeps 1 (by simp [Instruction.distances])
    rw [step]
    split
    · split
      · exact h.congr hnext rfl rfl rfl
      · exact h.stuck
    · exact h.stuck
  | text t => exact h.nextIf (hkeeps 1 (by simp [Instruction.distances])) _
  | anchor a => exact h.nextWhen (hkeeps 1 (by simp [Instruction.distances])) _
  | regular a inside =>
    have hnext : frames (m.pc + 1) = frames m.pc := hkeeps 1 (by simp [Instruction.distances])
    rw [step]
    split
    · exact h.congr hnext rfl rfl rfl
    · exact h.stuck
  | fork first second => exact h.fork hkeeps
  | jump distance =>
    exact h.congr (hkeeps distance (by simp [Instruction.distances])) rfl rfl rfl
  | save slot => exact h.congr (hkeeps 1 (by simp [Instruction.distances])) rfl rfl rfl
  | mark i => exact h.congr (hkeeps 1 (by simp [Instruction.distances])) rfl rfl rfl
  | returnTo i => exact h.nextIf (hkeeps 1 (by simp [Instruction.distances])) _
  | reset counter => exact h.congr (hkeeps 1 (by simp [Instruction.distances])) rfl rfl rfl
  | repetition least most greedy counter exit =>
    have hnext : frames (m.pc + 1) = frames m.pc := hkeeps 1 (by simp [Instruction.distances])
    have hexit := hkeeps exit (by simp [Instruction.distances])
    rw [step]
    dsimp only
    split
    · exact h.congr hexit rfl rfl rfl
    · exact (h.count m.notes.marks (m.notes.counters.setIfInBounds counter
        (m.notes.counters.getD counter 0 + 1))).repeatOrLeave hnext hexit _ _ _
  | nonemptyRepetition least greedy counter mark exit =>
    have hnext : frames (m.pc + 1) = frames m.pc := hkeeps 1 (by simp [Instruction.distances])
    have hexit := hkeeps exit (by simp [Instruction.distances])
    rw [step]
    dsimp only
    split
    · exact h.stuck
    · exact (h.count _ (m.notes.counters.setIfInBounds counter
        (m.notes.counters.getD counter 0 + 1))).repeatOrLeave hnext hexit _ _ _
  | goBack count => exact h.nextIf (hkeeps 1 (by simp [Instruction.distances])) _
  | reject => exact ⟨h.counted.dropChoices _, h.held.of_suffix (List.drop_suffix ..)⟩
  | reference index =>
    rw [step]
    split
    · exact h.nextIf (hkeeps 1 (by simp [Instruction.distances])) _
    · exact h.stuck
  | hasMatched index => exact h.nextWhen (hkeeps 1 (by simp [Instruction.distances])) _
  | beginAtomic =>
    have hatomic : frames (m.pc + 1) = .atomic :: frames m.pc := hkeeps
    refine ⟨h.counted, ?_, h.held⟩
    show Fits (frames (m.pc + 1)) m.choices (m.height :: m.notes.remembered)
    rw [hatomic, h.counted, Fits, rtake_length]
    exact h.fits
  | endAtomic =>
    have hatomic : frames m.pc = .atomic :: frames (m.pc + 1) := hkeeps
    have hfits := h.fits
    rw [hatomic] at hfits
    rw [step]
    split
    · rename_i hremembered
      rw [hremembered] at hfits
      exact absurd hfits id
    · rename_i count remembered hremembered
      rw [hremembered] at hfits
      have hcounted : min m.height count = (m.choices.drop (m.height - count)).length := by
        rw [List.length_drop, h.counted]
        omega
      refine ⟨hcounted, ?_, h.held.of_suffix (List.drop_suffix ..)⟩
      rw [h.counted]
      exact hfits
  | searchStart => exact h.nextWhen (hkeeps 1 (by simp [Instruction.distances])) _
  | accept => trivial

end Machine

end TabFormat.Pattern
