import TabFormat.Proofs.Composition

/-!
# Where programs go

The instructions of a pattern hand on to each other and to what follows them, whatever the pattern
is. So a program accepts only after it has noted the end of the match.

## Main definitions

* `Each` : what holds of each of several instructions where it stands.
* `Instruction.distances` : where an instruction hands on to.
* `Closed` : instructions that hand on to each other and to what follows them.

## Main results

* `Composed.closed` : the instructions of a pattern are closed.
-/

namespace TabFormat.Pattern

/-! ### Instructions in their places -/

/-- Each of the instructions has a property where it stands, when they start at index `i`. -/
def Each (P : Nat → Instruction → Prop) (code : List Instruction) (i : Nat) : Prop :=
  ∀ (k : Nat) (instr : Instruction), code[k]? = some instr → P (i + k) instr

section

variable {P : Nat → Instruction → Prop} {code code' : List Instruction} {instr : Instruction}
  {i : Nat}

@[simp] theorem each_nil : Each P [] i := by
  intro k instr hk
  simp at hk

@[simp] theorem each_cons : Each P (instr :: code) i ↔ P i instr ∧ Each P code (i + 1) := by
  constructor
  · intro h
    refine ⟨h 0 instr rfl, fun k instr' hk => ?_⟩
    have hrest := h (k + 1) instr' hk
    rwa [Nat.add_assoc, Nat.add_comm 1]
  · rintro ⟨hhead, hrest⟩ k instr' hk
    cases k with
    | zero =>
      obtain rfl := Option.some.inj hk
      exact hhead
    | succ k =>
      have hnext := hrest k instr' hk
      rwa [Nat.add_assoc, Nat.add_comm 1] at hnext

@[simp] theorem each_append :
    Each P (code ++ code') i ↔ Each P code i ∧ Each P code' (i + code.length) := by
  induction code generalizing i with
  | nil => simp
  | cons instr code ih =>
    rw [List.cons_append, each_cons, each_cons, ih, List.length_cons, and_assoc,
      Nat.add_right_comm, Nat.add_assoc]

end

/-! ### Closed instructions -/

/-- The distances at which the instruction may hand on. -/
def Instruction.distances : Instruction → List Int
  | .fork first second => [first, second]
  | .jump distance => [distance]
  | .repetition _ _ _ _ exit | .nonemptyRepetition _ _ _ _ exit => [1, exit]
  | _ => [1]

/-- The instruction does not accept, and at index `i` of `n` instructions it hands on to one of them
or to what follows them. -/
structure Instruction.Stays (n i : Nat) (instr : Instruction) : Prop where
  /-- The instruction does not accept. -/
  ne_accept : instr ≠ .accept
  /-- The instruction does not lead elsewhere. -/
  bounds : ∀ d ∈ instr.distances, 0 ≤ (i : Int) + d ∧ (i : Int) + d ≤ n

/-- Instructions that hand on to each other and to what follows them. -/
def Closed (code : List Instruction) : Prop :=
  Each (Instruction.Stays code.length) code 0

section

variable {n i : Nat} {instr : Instruction} {code code' : List Instruction} {exit : Int}

/-- Closed instructions stay among others around them. -/
theorem Closed.stay (h : Closed code) (hn : i + code.length ≤ n) :
    Each (Instruction.Stays n) code i := by
  intro k instr hk
  obtain ⟨hne, hbounds⟩ := h k instr hk
  refine ⟨hne, fun d hd => ?_⟩
  obtain ⟨hlow, hhigh⟩ := hbounds d hd
  push_cast at hlow hhigh ⊢
  omega

/-- An instruction that hands on to the next one. -/
theorem Instruction.Stays.of_next (hne : instr ≠ .accept) (h : instr.distances = [1])
    (hi : i < n) : instr.Stays n i := by
  refine ⟨hne, fun d hd => ?_⟩
  rw [h] at hd
  obtain rfl := List.mem_singleton.mp hd
  omega

theorem Instruction.distances_of_isPlain (h : instr.isPlain) : instr.distances = [1] := by
  cases instr <;> simp_all [isPlain, distances]

theorem Instruction.Stays.of_isPlain (h : instr.isPlain) (hi : i < n) : instr.Stays n i := by
  refine .of_next ?_ (distances_of_isPlain h) hi
  rintro rfl
  simp [isPlain] at h

theorem Instruction.Branches.distances (h : instr.Branches exit) :
    ∀ d ∈ instr.distances, d = 1 ∨ d = exit := by
  cases h <;> simp [Instruction.distances, or_comm]

theorem Instruction.Stays.of_branches (h : instr.Branches exit) (hi : i < n)
    (hexit : 0 ≤ (i : Int) + exit ∧ (i : Int) + exit ≤ n) : instr.Stays n i := by
  refine ⟨by cases h <;> simp, fun d hd => ?_⟩
  obtain rfl | rfl := h.distances d hd
  · omega
  · exact hexit

theorem Instruction.Stays.of_jump {d : Int} (h : 0 ≤ (i : Int) + d ∧ (i : Int) + d ≤ n) :
    (Instruction.jump d).Stays n i :=
  ⟨by simp, by simpa [Instruction.distances] using h⟩

/-- **The instructions of a pattern are closed.** -/
theorem Composed.closed (h : Composed code) : Closed code := by
  induction h with
  | nil => exact each_nil
  | plain h => simp [Closed, Instruction.Stays.of_isPlain h]
  | append _ _ ih ih' =>
    rw [Closed, each_append]
    exact ⟨ih.stay (by simp), ih'.stay (by simp)⟩
  | optional _ hfirst ih =>
    rw [Closed, each_cons]
    exact ⟨.of_branches hfirst (by simp) (by simp; omega), ih.stay (by simp; omega)⟩
  | loop _ hfirst ih =>
    simp only [Closed, List.cons_append, each_cons, each_append, each_nil, and_true]
    exact ⟨.of_branches hfirst (by simp) (by simp; omega), ih.stay (by simp; omega),
      .of_jump (by simp; omega)⟩
  | again _ hlast ih =>
    simp only [Closed, each_append, each_cons, each_nil, and_true]
    exact ⟨ih.stay (by simp), .of_branches hlast (by simp) (by simp; omega)⟩
  | either _ _ ih ih' =>
    simp only [Closed, List.cons_append, each_cons, each_append]
    exact ⟨.of_branches .enter (by simp) (by simp; omega), ih.stay (by simp; omega),
      .of_jump (by simp; omega), ih'.stay (by simp; omega)⟩
  | never _ ih =>
    simp only [Closed, List.cons_append, each_cons, each_append, each_nil, and_true]
    exact ⟨.of_branches .enter (by simp) (by simp; omega), ih.stay (by simp; omega),
      .of_next (by simp) rfl (by simp; omega)⟩
  | atomic _ ih =>
    simp only [Closed, List.cons_append, each_cons, each_append, each_nil, and_true]
    exact ⟨.of_next (by simp) rfl (by simp), ih.stay (by simp; omega),
      .of_next (by simp) rfl (by simp; omega)⟩
  | conditional _ _ _ ih ih' ih'' =>
    simp only [Closed, List.cons_append, List.append_assoc, each_cons, each_append]
    exact ⟨.of_next (by simp) rfl (by simp), .of_branches .enter (by simp) (by simp; omega),
      ih.stay (by simp; omega), .of_next (by simp) rfl (by simp; omega), ih'.stay (by simp; omega),
      .of_jump (by simp; omega), ih''.stay (by simp; omega)⟩

end

end TabFormat.Pattern
