import Mathlib.Data.List.Basic
import TabFormat.Pattern.Automaton
import TabFormat.Proofs.Places

/-!
# Threads at a place

An automaton follows the ways of matching side by side, most preferred first. At each place they are
followed until each of them is about to read a character. Threads are dropped where they meet a more
preferred one in the same node. This makes no difference, since what can be matched from a node does
not depend on the way that led there.

## Main definitions

* `Automaton.Pursued` : how threads are followed at a place.
* `Automaton.Accepts` : whether a match can be completed from a node.

## Main results

* `Automaton.pursued_follow` : threads are followed to the end.
* `Automaton.Pursued.of_append` : the most preferred threads are followed as if they were alone.
* `Automaton.Pursued.exists_goesOn` : a thread that accepts is not missed.
* `Automaton.Pursued.alike` : threads that accept nothing make no difference.
-/

namespace TabFormat.Pattern

/-! ### Following threads -/

/-- The nodes to which a node hands on without reading a character, most preferred first. -/
def nextNodes (nodes : Array Node) (place : Place) (n : Nat) : List Nat :=
  match nodes.getD n .accept with
  | .anchor a => if place.satisfies a then [((n : Int) + 1).toNat] else []
  | .fork first second => [(n + first).toNat, (n + second).toNat]
  | .jump distance => [(n + distance).toNat]
  | .save _ => [n + 1]
  | .test _ | .accept => []

/-- The threads that go on from a thread without reading a character, most preferred first. -/
def Thread.successors (nodes : Array Node) (place : Place) (t : Thread) : List Thread :=
  match nodes.getD t.node .accept with
  | .anchor a => if place.satisfies a then [t.move 1] else []
  | .fork first second => [t.move first, t.move second]
  | .jump distance => [t.move distance]
  | .save slot => [⟨t.node + 1, t.slots.setIfInBounds slot (some place)⟩]
  | .test _ | .accept => []

theorem Thread.map_node_successors (nodes : Array Node) (place : Place) (t : Thread) :
    (t.successors nodes place).map Thread.node = nextNodes nodes place t.node := by
  unfold successors nextNodes
  split
  · split <;> rfl
  all_goals rfl

namespace Automaton

/-- How threads are followed at a place, given the nodes visited and the threads that have reached
a character: until there are no more threads, or one accepts. -/
inductive Pursued (nodes : Array Node) (place : Place) :
    List Thread → Array Bool → List Thread → List Thread × Option Slots → Prop where
  /-- There are no more threads. -/
  | done {visited reached} : Pursued nodes place [] visited reached (reached.reverse, none)
  /-- The node of the thread was visited before. -/
  | skip {t rest visited reached result} (hv : visited.getD t.node true = true)
      (h : Pursued nodes place rest visited reached result) :
      Pursued nodes place (t :: rest) visited reached result
  /-- The thread is about to read a character. -/
  | test {t rest visited reached result c} (hv : visited.getD t.node true = false)
      (hn : nodes.getD t.node .accept = .test c)
      (h : Pursued nodes place rest (visited.setIfInBounds t.node true) (t :: reached) result) :
      Pursued nodes place (t :: rest) visited reached result
  /-- The successors of the thread take its place. -/
  | pass {t rest visited reached result} (hv : visited.getD t.node true = false)
      (htest : ∀ c, nodes.getD t.node .accept ≠ .test c)
      (haccept : nodes.getD t.node .accept ≠ .accept)
      (h : Pursued nodes place (t.successors nodes place ++ rest)
        (visited.setIfInBounds t.node true) reached result) :
      Pursued nodes place (t :: rest) visited reached result
  /-- The thread accepts. -/
  | accept {t rest visited reached} (hv : visited.getD t.node true = false)
      (hn : nodes.getD t.node .accept = .accept) :
      Pursued nodes place (t :: rest) visited reached (reached.reverse, some t.slots)

variable {nodes : Array Node} {place : Place}

/-- Each visit of a node leaves one node less to be visited. -/
theorem count_visit {visited : Array Bool} {n : Nat} (h : visited.getD n true = false) :
    (visited.setIfInBounds n true).count false + 1 = visited.count false := by
  have hn : n < visited.size := by
    by_contra hn
    simp [Array.getD, hn] at h
  have hvalue : visited[n] = false := by simpa [Array.getD, hn] using h
  have hpos : 0 < visited.count false := Array.count_pos_iff.mpr (hvalue ▸ Array.getElem_mem hn)
  rw [Array.setIfInBounds, dif_pos hn, Array.count_set hn, hvalue]
  simp
  omega

theorem length_successors_le (nodes : Array Node) (place : Place) (t : Thread) :
    (t.successors nodes place).length ≤ 2 := by
  unfold Thread.successors
  split
  · split <;> simp
  all_goals simp

/-- A thread that neither waits for a character nor accepts is replaced by its successors. -/
theorem follow_pass {fuel : Nat} {t : Thread} {rest : List Thread} {visited : Array Bool}
    {reached : List Thread} (hv : visited.getD t.node true = false)
    (htest : ∀ c, nodes.getD t.node .accept ≠ .test c)
    (haccept : nodes.getD t.node .accept ≠ .accept) :
    follow nodes place (fuel + 1) (t :: rest) visited reached =
      follow nodes place fuel (t.successors nodes place ++ rest)
        (visited.setIfInBounds t.node true) reached := by
  rw [follow, hv, if_neg Bool.false_ne_true, Thread.successors]
  cases hn : nodes.getD t.node .accept with
  | test c => exact absurd hn (htest c)
  | anchor a =>
    dsimp only
    split <;> rfl
  | accept => exact absurd hn haccept
  | _ => rfl

/-- **Threads are followed to the end**: there is enough fuel to visit every node. -/
theorem pursued_follow {fuel : Nat} {threads : List Thread} {visited : Array Bool}
    {reached : List Thread} (hfuel : threads.length + 2 * visited.count false < fuel) :
    Pursued nodes place threads visited reached
      (follow nodes place fuel threads visited reached) := by
  induction fuel generalizing threads visited reached with
  | zero => omega
  | succ fuel ih =>
    cases threads with
    | nil => exact .done
    | cons t rest =>
      rw [List.length_cons] at hfuel
      cases hv : visited.getD t.node true with
      | true =>
        rw [follow, hv, if_pos rfl]
        exact .skip hv (ih (by omega))
      | false =>
        have hcount := count_visit hv
        by_cases htest : ∃ c, nodes.getD t.node .accept = .test c
        · obtain ⟨c, hn⟩ := htest
          rw [follow, hv, if_neg Bool.false_ne_true, hn]
          exact .test hv hn (ih (by omega))
        by_cases haccept : nodes.getD t.node .accept = .accept
        · rw [follow, hv, if_neg Bool.false_ne_true, haccept]
          exact .accept hv haccept
        have hlength := length_successors_le nodes place t
        rw [follow_pass hv (not_exists.mp htest) haccept]
        refine .pass hv (not_exists.mp htest) haccept (ih ?_)
        rw [List.length_append]
        omega

/-- The threads at a place and the best match so far, by how the threads are followed. -/
theorem pursued_settle (nodes : Array Node) (place : Place) (threads : List Thread)
    (best : Option Accepted) :
    ∃ slots, Pursued nodes place threads (Array.replicate nodes.size false) []
        ((settle nodes place threads best).1, slots) ∧
      (settle nodes place threads best).2 =
        ((slots.map fun slots => ⟨place, slots⟩) <|> best) := by
  have hfuel : threads.length + 2 * (Array.replicate nodes.size false).count false <
      threads.length + 2 * nodes.size + 2 := by
    rw [Array.count_replicate_self]
    omega
  exact ⟨_, pursued_follow hfuel, rfl⟩

namespace Pursued

section

variable {t : Thread} {threads rest : List Thread} {visited : Array Bool}
  {reached : List Thread} {result : List Thread × Option Slots}

theorem of_skip (h : Pursued nodes place (t :: rest) visited reached result)
    (hv : visited.getD t.node true = true) : Pursued nodes place rest visited reached result := by
  cases h with
  | skip _ h => exact h
  | test hv' _ _ => simp [hv] at hv'
  | pass hv' _ _ _ => simp [hv] at hv'
  | accept hv' _ => simp [hv] at hv'

theorem of_test (h : Pursued nodes place (t :: rest) visited reached result)
    (hv : visited.getD t.node true = false) {c : Test} (hn : nodes.getD t.node .accept = .test c) :
    Pursued nodes place rest (visited.setIfInBounds t.node true) (t :: reached) result := by
  cases h with
  | skip hv' _ => simp [hv] at hv'
  | test _ _ h => exact h
  | pass _ htest _ _ => exact absurd hn (htest c)
  | accept _ hn' => simp [hn] at hn'

theorem of_pass (h : Pursued nodes place (t :: rest) visited reached result)
    (hv : visited.getD t.node true = false) (htest : ∀ c, nodes.getD t.node .accept ≠ .test c)
    (haccept : nodes.getD t.node .accept ≠ .accept) :
    Pursued nodes place (t.successors nodes place ++ rest) (visited.setIfInBounds t.node true)
      reached result := by
  cases h with
  | skip hv' _ => simp [hv] at hv'
  | test _ hn _ => exact absurd hn (htest _)
  | pass _ _ _ h => exact h
  | accept _ hn => exact absurd hn haccept

theorem of_accept (h : Pursued nodes place (t :: rest) visited reached result)
    (hv : visited.getD t.node true = false) (hn : nodes.getD t.node .accept = .accept) :
    result = (reached.reverse, some t.slots) := by
  cases h with
  | skip hv' _ => simp [hv] at hv'
  | test _ hn' _ => simp [hn] at hn'
  | pass _ _ haccept _ => exact absurd hn haccept
  | accept _ _ => rfl

/-- The threads that have reached a character stay in front. -/
theorem exists_reached_append (h : Pursued nodes place threads visited reached result) :
    ∃ more, result.1 = reached.reverse ++ more := by
  induction h with
  | done => exact ⟨[], (List.append_nil _).symm⟩
  | skip _ _ ih => exact ih
  | @test t _ _ _ _ _ _ _ _ ih =>
    obtain ⟨more, hmore⟩ := ih
    exact ⟨t :: more, by rw [hmore, List.reverse_cons, List.append_assoc, List.singleton_append]⟩
  | pass _ _ _ _ ih => exact ih
  | accept _ _ => exact ⟨[], (List.append_nil _).symm⟩

/-- **The most preferred threads are followed as if they were alone.** If one of them accepts,
nothing comes of the others. -/
theorem of_append {first second : List Thread} {result' : List Thread × Option Slots}
    (h : Pursued nodes place first visited reached result)
    (h' : Pursued nodes place (first ++ second) visited reached result') :
    (∀ slots, result.2 = some slots → result' = result) ∧
      (result.2 = none → ∃ more, result'.1 = result.1 ++ more) := by
  induction h generalizing second result' with
  | done => exact ⟨fun slots hs => by simp at hs, fun _ => h'.exists_reached_append⟩
  | skip hv _ ih => exact ih (h'.of_skip hv)
  | test hv hn _ ih => exact ih (h'.of_test hv hn)
  | @pass t rest visited reached _ hv htest haccept _ ih =>
    have hnext : Pursued nodes place (t.successors nodes place ++ rest ++ second)
        (visited.setIfInBounds t.node true) reached result' := by
      rw [List.append_assoc]
      exact h'.of_pass hv htest haccept
    exact ih hnext
  | accept hv hn => exact ⟨fun _ _ => h'.of_accept hv hn, fun hnone => by simp at hnone⟩

/-- What the slots have in common while threads are followed. -/
theorem forall_slots {R : Slots → Prop}
    (hpass : ∀ t : Thread, R t.slots → ∀ u ∈ t.successors nodes place, R u.slots)
    (h : Pursued nodes place threads visited reached result)
    (hthreads : ∀ t ∈ threads, R t.slots) (hreached : ∀ t ∈ reached, R t.slots) :
    (∀ t ∈ result.1, R t.slots) ∧ ∀ slots ∈ result.2, R slots := by
  induction h with
  | done => exact ⟨fun t ht => hreached t (List.mem_reverse.mp ht), by simp⟩
  | skip _ _ ih => exact ih (List.forall_mem_cons.mp hthreads).2 hreached
  | test _ _ _ ih =>
    obtain ⟨ht, hrest⟩ := List.forall_mem_cons.mp hthreads
    exact ih hrest (List.forall_mem_cons.mpr ⟨ht, hreached⟩)
  | pass _ _ _ _ ih =>
    obtain ⟨ht, hrest⟩ := List.forall_mem_cons.mp hthreads
    exact ih (List.forall_mem_append.mpr ⟨hpass _ ht, hrest⟩) hreached
  | accept _ _ =>
    refine ⟨fun t ht => hreached t (List.mem_reverse.mp ht), fun slots hs => ?_⟩
    obtain rfl := Option.some.inj hs
    exact (List.forall_mem_cons.mp hthreads).1

end

end Pursued

/-! ### Nodes from which a match can be completed -/

/-- A match can be completed from a node at a place. -/
inductive Accepts (nodes : Array Node) : Nat → Place → Prop where
  /-- The node accepts. -/
  | accept {n place} (hn : nodes[n]? = some .accept) : Accepts nodes n place
  /-- The node reads the next character, and a match can be completed after it. -/
  | test {n place c t next} (hn : nodes[n]? = some (.test t))
      (hplace : place.forward = some (c, next)) (hc : t.holds c = true)
      (h : Accepts nodes (n + 1) next) : Accepts nodes n place
  /-- The node hands on to one from which a match can be completed. -/
  | pass {n place m} (hlt : n < nodes.size) (hm : m ∈ nextNodes nodes place n)
      (h : Accepts nodes m place) : Accepts nodes n place

/-- What follows a node from which no match can be completed. -/
theorem not_accepts_successors {t u : Thread} (hlt : t.node < nodes.size)
    (h : ¬Accepts nodes t.node place) (hu : u ∈ t.successors nodes place) :
    ¬Accepts nodes u.node place := by
  refine fun hu' => h (.pass hlt ?_ hu')
  rw [← Thread.map_node_successors]
  exact List.mem_map_of_mem hu

/-! ### A thread that accepts is not missed -/

/-- The node is visited or will be. -/
def Covered (threads : List Thread) (visited : Array Bool) (n : Nat) : Prop :=
  visited.getD n true = true ∨ ∃ t ∈ threads, t.node = n

/-- What is known of a node that was visited: it does not accept, a thread waits there if it reads a
character, and the nodes to which it hands on are covered. -/
structure Handled (nodes : Array Node) (place : Place) (threads : List Thread)
    (visited : Array Bool) (reached : List Thread) (n : Nat) : Prop where
  /-- No match is completed here. -/
  not_accept : nodes[n]? ≠ some .accept
  /-- A thread waits here. -/
  waiting : ∀ c, nodes[n]? = some (.test c) → ∃ u ∈ reached, u.node = n
  /-- The next nodes are covered. -/
  next : ∀ m ∈ nextNodes nodes place n, Covered threads visited m

/-- The thread reads the next character, and a match can be completed after it. -/
def GoesOn (nodes : Array Node) (place : Place) (u : Thread) : Prop :=
  ∃ c next test, place.forward = some (c, next) ∧ nodes[u.node]? = some (.test test) ∧
    test.holds c = true ∧ Accepts nodes (u.node + 1) next

theorem getD_visit (visited : Array Bool) (n m : Nat) :
    (visited.setIfInBounds n true).getD m true = (decide (n = m) || visited.getD m true) := by
  simp only [Array.getD_eq_getD_getElem?, Array.getElem?_setIfInBounds]
  by_cases hnm : n = m
  · subst hnm
    by_cases hlt : n < visited.size <;> simp [hlt]
  · simp [hnm]

theorem Covered.visit {t : Thread} {rest : List Thread} {visited : Array Bool} {n : Nat}
    (h : Covered (t :: rest) visited n) (more : List Thread) :
    Covered (more ++ rest) (visited.setIfInBounds t.node true) n := by
  rw [Covered, getD_visit, Bool.or_eq_true, decide_eq_true_iff]
  obtain hv | ⟨u, hu, rfl⟩ := h
  · exact .inl (.inr hv)
  · obtain rfl | hu := List.mem_cons.mp hu
    · exact .inl (.inl rfl)
    · exact .inr ⟨u, List.mem_append_right _ hu, rfl⟩

/-- When nothing is left to follow, a thread goes on for each node that was visited and from which a
match can be completed. -/
theorem exists_goesOn_of_handled {visited : Array Bool} {reached : List Thread}
    (hhandled : ∀ n < nodes.size, visited.getD n true = true →
      Handled nodes place [] visited reached n)
    {n : Nat} (hv : visited.getD n true = true) (h : Accepts nodes n place) :
    ∃ u ∈ reached, GoesOn nodes place u := by
  induction h with
  | accept hn =>
    have hlt := (Array.getElem?_eq_some_iff.mp hn).1
    exact absurd hn (hhandled _ hlt hv).not_accept
  | test hn hplace hc hnext _ =>
    have hlt := (Array.getElem?_eq_some_iff.mp hn).1
    obtain ⟨u, hu, rfl⟩ := (hhandled _ hlt hv).waiting _ hn
    exact ⟨u, hu, _, _, _, hplace, hn, hc, hnext⟩
  | pass hlt hm _ ih =>
    obtain hv' | ⟨u, hu, -⟩ := (hhandled _ hlt hv).next _ hm
    · exact ih hhandled hv'
    · simp at hu

theorem getElem?_of_getD {n : Nat} (hlt : n < nodes.size) :
    nodes[n]? = some (nodes.getD n .accept) := by
  rw [Array.getD_eq_getD_getElem?, Array.getElem?_eq_getElem hlt, Option.getD_some]

namespace Pursued

variable {threads : List Thread} {visited : Array Bool} {reached : List Thread}
  {result : List Thread × Option Slots}

/-- **A thread that accepts is not missed.** If none accepts here, then one goes on for each node
from which a match can be completed. -/
theorem exists_goesOn (h : Pursued nodes place threads visited reached result)
    (hhandled : ∀ n < nodes.size, visited.getD n true = true →
      Handled nodes place threads visited reached n)
    (hnone : result.2 = none) {n : Nat} (hcovered : Covered threads visited n)
    (haccepts : Accepts nodes n place) : ∃ u ∈ result.1, GoesOn nodes place u := by
  induction h with
  | done =>
    obtain hv | ⟨t, ht, -⟩ := hcovered
    · obtain ⟨u, hu, hgoes⟩ := exists_goesOn_of_handled hhandled hv haccepts
      exact ⟨u, List.mem_reverse.mpr hu, hgoes⟩
    · simp at ht
  | @skip t rest visited reached _ hv _ ih =>
    have hskip {m : Nat} (h : Covered (t :: rest) visited m) : Covered rest visited m := by
      obtain hv' | ⟨u, hu, rfl⟩ := h
      · exact .inl hv'
      · obtain rfl | hu := List.mem_cons.mp hu
        · exact .inl hv
        · exact .inr ⟨u, hu, rfl⟩
    refine ih (fun m hm hv' => ?_) hnone (hskip hcovered)
    obtain ⟨hnot, hwaiting, hnext⟩ := hhandled m hm hv'
    exact ⟨hnot, hwaiting, fun k hk => hskip (hnext k hk)⟩
  | @test t rest visited reached _ c hv hn _ ih =>
    refine ih (fun m hm hv' => ?_) hnone (hcovered.visit [])
    rw [getD_visit, Bool.or_eq_true, decide_eq_true_iff] at hv'
    obtain rfl | hv' := hv'
    · have hnode := getElem?_of_getD hm
      rw [hn] at hnode
      refine ⟨by simp [hnode], fun _ _ => ⟨t, List.mem_cons_self, rfl⟩, fun k hk => ?_⟩
      simp [nextNodes, hn] at hk
    · obtain ⟨hnot, hwaiting, hnext⟩ := hhandled m hm hv'
      refine ⟨hnot, fun c hc => ?_, fun k hk => (hnext k hk).visit []⟩
      obtain ⟨u, hu, hnode⟩ := hwaiting c hc
      exact ⟨u, List.mem_cons_of_mem _ hu, hnode⟩
  | @pass t rest visited reached _ hv htest haccept _ ih =>
    refine ih (fun m hm hv' => ?_) hnone (hcovered.visit _)
    rw [getD_visit, Bool.or_eq_true, decide_eq_true_iff] at hv'
    obtain rfl | hv' := hv'
    · have hnode := getElem?_of_getD hm
      refine ⟨fun hn => haccept (Option.some.inj (hnode.symm.trans hn)), fun c hc => ?_,
        fun k hk => ?_⟩
      · rw [hnode, Option.some.injEq] at hc
        exact absurd hc (htest c)
      · rw [← Thread.map_node_successors] at hk
        obtain ⟨u, hu, hnode⟩ := List.mem_map.mp hk
        exact .inr ⟨u, List.mem_append_left _ hu, hnode⟩
    · obtain ⟨hnot, hwaiting, hnext⟩ := hhandled m hm hv'
      exact ⟨hnot, hwaiting, fun k hk => (hnext k hk).visit _⟩
  | accept _ _ => simp at hnone

end Pursued

/-! ### Threads that accept nothing -/

open Classical in
/-- The threads from which a match can be completed. -/
noncomputable def accepting (nodes : Array Node) (place : Place) (threads : List Thread) :
    List Thread :=
  threads.filter fun t => Accepts nodes t.node place

theorem accepting_append (first second : List Thread) :
    accepting nodes place (first ++ second) =
      accepting nodes place first ++ accepting nodes place second :=
  List.filter_append ..

theorem accepting_cons_of_not {t : Thread} (h : ¬Accepts nodes t.node place)
    (threads : List Thread) :
    accepting nodes place (t :: threads) = accepting nodes place threads :=
  List.filter_cons_of_neg (by simpa using h)

theorem accepting_cons {t : Thread} (h : Accepts nodes t.node place) (threads : List Thread) :
    accepting nodes place (t :: threads) = t :: accepting nodes place threads :=
  List.filter_cons_of_pos (by simpa using h)

theorem accepting_eq_nil_iff {threads : List Thread} :
    accepting nodes place threads = [] ↔ ∀ t ∈ threads, ¬Accepts nodes t.node place := by
  simp [accepting, List.filter_eq_nil_iff]

theorem accepting_eq_cons_iff {t : Thread} {threads rest : List Thread} :
    accepting nodes place threads = t :: rest ↔
      ∃ dead rest', threads = dead ++ t :: rest' ∧ (∀ u ∈ dead, ¬Accepts nodes u.node place) ∧
        Accepts nodes t.node place ∧ accepting nodes place rest' = rest := by
  simp [accepting, List.filter_eq_cons_iff]

/-- Two states of the pursuit that differ only in nodes and threads that accept nothing. -/
structure Alike (nodes : Array Node) (place : Place) (visited : Array Bool) (reached : List Thread)
    (visited' : Array Bool) (reached' : List Thread) : Prop where
  /-- Every node can be visited. -/
  size : visited.size = nodes.size
  /-- Every node can be visited. -/
  size' : visited'.size = nodes.size
  /-- The same nodes were visited, of those that matter. -/
  visited_eq : ∀ n, Accepts nodes n place → visited.getD n true = visited'.getD n true
  /-- The same threads have reached a character, of those that matter. -/
  reached_eq : accepting nodes place reached = accepting nodes place reached'

namespace Alike

variable {visited visited' : Array Bool} {reached reached' : List Thread} {t : Thread}

theorem symm (h : Alike nodes place visited reached visited' reached') :
    Alike nodes place visited' reached' visited reached :=
  ⟨h.size', h.size, fun n hn => (h.visited_eq n hn).symm, h.reached_eq.symm⟩

/-- A visit of a node that does not matter. -/
theorem visit_dead (h : Alike nodes place visited reached visited' reached')
    (hdead : ¬Accepts nodes t.node place) :
    Alike nodes place (visited.setIfInBounds t.node true) reached visited' reached' := by
  refine ⟨by rw [Array.size_setIfInBounds, h.size], h.size', fun n hn => ?_, h.reached_eq⟩
  have hne : t.node ≠ n := by
    rintro rfl
    exact hdead hn
  rw [getD_visit, h.visited_eq n hn, decide_eq_false hne, Bool.false_or]

theorem reach_dead (h : Alike nodes place visited reached visited' reached')
    (hdead : ¬Accepts nodes t.node place) :
    Alike nodes place visited (t :: reached) visited' reached' :=
  { h with reached_eq := (accepting_cons_of_not hdead reached).trans h.reached_eq }

/-- A visit of a node in both states. -/
theorem visit (h : Alike nodes place visited reached visited' reached') (t : Thread) :
    Alike nodes place (visited.setIfInBounds t.node true) reached
      (visited'.setIfInBounds t.node true) reached' := by
  refine ⟨by rw [Array.size_setIfInBounds, h.size], by rw [Array.size_setIfInBounds, h.size'],
    fun n hn => ?_, h.reached_eq⟩
  rw [getD_visit, getD_visit, h.visited_eq n hn]

theorem reach (h : Alike nodes place visited reached visited' reached') (t : Thread) :
    Alike nodes place visited (t :: reached) visited' (t :: reached') := by
  refine { h with reached_eq := ?_ }
  rw [← List.singleton_append, accepting_append, h.reached_eq, ← accepting_append,
    List.singleton_append]

end Alike

namespace Pursued

variable {visited visited' : Array Bool} {reached reached' : List Thread}
  {result result' : List Thread × Option Slots}

theorem lt_size {t : Thread} (hsize : visited.size = nodes.size)
    (hv : visited.getD t.node true = false) : t.node < nodes.size := by
  by_contra hlt
  simp [Array.getD, hsize, hlt] at hv

theorem accepts_of_accept {t : Thread} (hsize : visited.size = nodes.size)
    (hv : visited.getD t.node true = false) (hn : nodes.getD t.node .accept = .accept) :
    Accepts nodes t.node place :=
  .accept (hn ▸ getElem?_of_getD (lt_size hsize hv))

/-- Threads that accept nothing come to nothing that matters. -/
theorem strip {dead rest : List Thread} (hdead : ∀ t ∈ dead, ¬Accepts nodes t.node place)
    (halike : Alike nodes place visited reached visited' reached')
    (h : Pursued nodes place (dead ++ rest) visited' reached' result) :
    ∃ visited'' reached'', Alike nodes place visited reached visited'' reached'' ∧
      Pursued nodes place rest visited'' reached'' result := by
  generalize hthreads : dead ++ rest = threads at h
  induction h generalizing dead with
  | done =>
    obtain ⟨-, rfl⟩ := List.append_eq_nil_iff.mp hthreads
    exact ⟨_, _, halike, .done⟩
  | skip hv h ih =>
    cases dead with
    | nil =>
      subst hthreads
      exact ⟨_, _, halike, .skip hv h⟩
    | cons u dead =>
      obtain ⟨rfl, rfl⟩ := List.cons.inj hthreads
      exact ih (List.forall_mem_cons.mp hdead).2 halike rfl
  | test hv hn h ih =>
    cases dead with
    | nil =>
      subst hthreads
      exact ⟨_, _, halike, .test hv hn h⟩
    | cons u dead =>
      obtain ⟨rfl, rfl⟩ := List.cons.inj hthreads
      obtain ⟨hu, hdead⟩ := List.forall_mem_cons.mp hdead
      exact ih hdead ((halike.symm.visit_dead hu).reach_dead hu).symm rfl
  | pass hv htest haccept h ih =>
    cases dead with
    | nil =>
      subst hthreads
      exact ⟨_, _, halike, .pass hv htest haccept h⟩
    | cons u dead =>
      obtain ⟨rfl, rfl⟩ := List.cons.inj hthreads
      obtain ⟨hu, hdead⟩ := List.forall_mem_cons.mp hdead
      have hsuccessors {v : Thread} (hv' : v ∈ u.successors nodes place) :=
        not_accepts_successors (lt_size halike.size' hv) hu hv'
      refine ih (List.forall_mem_append.mpr ⟨fun v => hsuccessors, hdead⟩)
        (halike.symm.visit_dead hu).symm ?_
      rw [List.append_assoc]
      rfl
  | accept hv hn =>
    cases dead with
    | nil =>
      subst hthreads
      exact ⟨_, _, halike, .accept hv hn⟩
    | cons u dead =>
      obtain ⟨rfl, -⟩ := List.cons.inj hthreads
      exact absurd (accepts_of_accept halike.size' hv hn) (List.forall_mem_cons.mp hdead).1

/-- The first thread that may accept something is followed next. -/
theorem strip_to {t : Thread} {rest second : List Thread} (hacc : Accepts nodes t.node place)
    (hthreads : accepting nodes place (t :: rest) = accepting nodes place second)
    (halike : Alike nodes place visited reached visited' reached')
    (h : Pursued nodes place second visited' reached' result) :
    ∃ rest' visited'' reached'', accepting nodes place rest = accepting nodes place rest' ∧
      Alike nodes place visited reached visited'' reached'' ∧
      Pursued nodes place (t :: rest') visited'' reached'' result := by
  rw [accepting_cons hacc] at hthreads
  obtain ⟨dead, rest', rfl, hdead, -, hrest⟩ := accepting_eq_cons_iff.mp hthreads.symm
  obtain ⟨visited'', reached'', halike', h'⟩ := strip hdead halike h
  exact ⟨rest', visited'', reached'', hrest.symm, halike', h'⟩

/-- **Threads that accept nothing make no difference.** -/
theorem alike {first second : List Thread}
    (h : Pursued nodes place first visited reached result)
    (hthreads : accepting nodes place first = accepting nodes place second)
    (halike : Alike nodes place visited reached visited' reached')
    (h' : Pursued nodes place second visited' reached' result') :
    accepting nodes place result.1 = accepting nodes place result'.1 ∧ result.2 = result'.2 := by
  have hreverse (threads : List Thread) :
      accepting nodes place threads.reverse = (accepting nodes place threads).reverse :=
    List.filter_reverse ..
  induction h generalizing second visited' reached' with
  | done =>
    rw [← List.append_nil second] at h'
    obtain ⟨visited'', reached'', halike', h'⟩ :=
      strip (accepting_eq_nil_iff.mp hthreads.symm) halike h'
    cases h' with
    | done => exact ⟨by rw [hreverse, hreverse, halike'.reached_eq], rfl⟩
  | @skip t rest visited reached result hv h ih =>
    by_cases hacc : Accepts nodes t.node place
    · obtain ⟨rest', visited'', reached'', hrest, halike', h'⟩ :=
        strip_to hacc hthreads halike h'
      exact ih hrest halike' (h'.of_skip ((halike'.visited_eq _ hacc).symm.trans hv))
    · rw [accepting_cons_of_not hacc] at hthreads
      exact ih hthreads halike h'
  | @test t rest visited reached result c hv hn h ih =>
    by_cases hacc : Accepts nodes t.node place
    · obtain ⟨rest', visited'', reached'', hrest, halike', h'⟩ :=
        strip_to hacc hthreads halike h'
      have hv' := (halike'.visited_eq _ hacc).symm.trans hv
      exact ih hrest ((halike'.visit t).reach t) (h'.of_test hv' hn)
    · rw [accepting_cons_of_not hacc] at hthreads
      exact ih hthreads ((halike.visit_dead hacc).reach_dead hacc) h'
  | @pass t rest visited reached result hv htest haccept h ih =>
    by_cases hacc : Accepts nodes t.node place
    · obtain ⟨rest', visited'', reached'', hrest, halike', h'⟩ :=
        strip_to hacc hthreads halike h'
      have hv' := (halike'.visited_eq _ hacc).symm.trans hv
      refine ih ?_ (halike'.visit t) (h'.of_pass hv' htest haccept)
      rw [accepting_append, accepting_append, hrest]
    · have hsuccessors : accepting nodes place (t.successors nodes place) = [] :=
        accepting_eq_nil_iff.mpr fun u => not_accepts_successors (lt_size halike.size hv) hacc
      refine ih ?_ (halike.visit_dead hacc) h'
      rw [accepting_append, hsuccessors, List.nil_append, ← hthreads, accepting_cons_of_not hacc]
  | @accept t rest visited reached hv hn =>
    have hacc : Accepts nodes t.node place := accepts_of_accept halike.size hv hn
    obtain ⟨rest', visited'', reached'', -, halike', h'⟩ := strip_to hacc hthreads halike h'
    have hv' := (halike'.visited_eq _ hacc).symm.trans hv
    rw [h'.of_accept hv' hn, hreverse, hreverse, halike'.reached_eq]
    exact ⟨rfl, rfl⟩

end Pursued

end Automaton

end TabFormat.Pattern
