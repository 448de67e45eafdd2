import TabFormat.Proofs.Threads

/-!
# The leftmost match of an automaton

An automaton that searches a text follows the ways of matching from all places side by side. It
finds what it would find by trying the places one after another: the match at the first place where
there is one.

## Main results

* `Automaton.run_append` : the most preferred threads decide, if one of them accepts.
* `Automaton.run_congr` : threads that accept nothing make no difference.
* `Automaton.matchFrom_eq` : the leftmost match.
* `Automaton.places_matchAt` : the places of a match.
-/

namespace TabFormat.Pattern.Automaton

/-! ### The run of an automaton -/

variable {nodes : Array Node} {place : Place} {empty : Slots} {tied : Bool}
  {threads threads' : List Thread} {best : Option Accepted} {index : Nat} {behind rest : Text}
  {c : Char}

theorem alike_start : Alike nodes place (Array.replicate nodes.size false) []
    (Array.replicate nodes.size false) [] :=
  ⟨Array.size_replicate, Array.size_replicate, fun _ _ => rfl, rfl⟩

/-- Threads that accept nothing make no difference at a place. -/
theorem settle_congr (h : accepting nodes place threads = accepting nodes place threads')
    (best : Option Accepted) :
    accepting nodes place (settle nodes place threads best).1 =
        accepting nodes place (settle nodes place threads' best).1 ∧
      (settle nodes place threads best).2 = (settle nodes place threads' best).2 := by
  obtain ⟨slots, hpursued, hbest⟩ := pursued_settle nodes place threads best
  obtain ⟨slots', hpursued', hbest'⟩ :=
    pursued_settle nodes place threads' best
  obtain ⟨hreached, hslots⟩ := hpursued.alike h alike_start hpursued'
  refine ⟨hreached, ?_⟩
  rw [hbest, hbest', show slots = slots' from hslots]

theorem settle_nil (nodes : Array Node) (place : Place) (best : Option Accepted) :
    settle nodes place [] best = ([], best) :=
  rfl

theorem advance_eq_some_iff {t u : Thread} :
    advance nodes c t = some u ↔
      ∃ test, nodes.getD t.node .accept = .test test ∧ test.holds c = true ∧ u = t.move 1 := by
  constructor
  · intro h
    unfold advance at h
    split at h
    · rename_i test hn
      split at h
      · rename_i hc
        exact ⟨test, hn, hc, (Option.some.inj h).symm⟩
      · simp at h
    · simp at h
  · rintro ⟨test, hn, hc, rfl⟩
    rw [advance, hn]
    exact if_pos hc

theorem node_move_one (t : Thread) : (t.move 1).node = t.node + 1 := by
  simp only [Thread.move]
  omega

/-- A thread that reads a character accepts what it accepts after the character. -/
theorem accepts_iff_of_advance {t u : Thread} (h : advance nodes c t = some u) :
    Accepts nodes t.node ⟨index, behind, c :: rest⟩ ↔
      Accepts nodes u.node ⟨index + 1, c :: behind, rest⟩ := by
  obtain ⟨test, hn, hc, rfl⟩ := advance_eq_some_iff.mp h
  have hlt : t.node < nodes.size := by
    by_contra hlt
    simp [Array.getD, hlt] at hn
  have hnode := getElem?_of_getD hlt
  rw [hn] at hnode
  rw [node_move_one]
  constructor
  · intro haccepts
    cases haccepts with
    | accept hn' => simp [hnode] at hn'
    | test hn' hplace _ hnext =>
      obtain ⟨-, rfl⟩ : _ ∧ _ := by simpa [Place.forward] using hplace
      exact hnext
    | pass _ hm _ => simp [nextNodes, hn] at hm
  · exact .test hnode rfl hc

theorem accepting_filterMap (threads : List Thread) :
    accepting nodes ⟨index + 1, c :: behind, rest⟩ (threads.filterMap (advance nodes c)) =
      (accepting nodes ⟨index, behind, c :: rest⟩ threads).filterMap (advance nodes c) := by
  rw [accepting, accepting, List.filter_filterMap, List.filterMap_filter]
  refine congrArg (List.filterMap · threads) (funext fun t => ?_)
  cases hadvance : advance nodes c t with
  | none => simp
  | some u =>
    have hiff : Accepts nodes t.node ⟨index, behind, c :: rest⟩ ↔
        Accepts nodes u.node ⟨index + 1, c :: behind, rest⟩ := accepts_iff_of_advance hadvance
    rw [Option.filter_some, decide_eq_decide.mpr hiff]

/-- The threads that are started at a place, unless no more are. -/
def fresh (empty : Slots) (closed : Bool) (place : Place) : List Thread :=
  if closed then [] else [⟨0, empty.setIfInBounds 0 (some place)⟩]

theorem run_nil :
    run nodes empty tied threads best index behind [] =
      (settle nodes ⟨index, behind, []⟩ threads best).2 := by
  rw [run]

theorem run_cons :
    run nodes empty tied threads best index behind (c :: rest) =
      let settled := settle nodes ⟨index, behind, c :: rest⟩ threads best
      let closed := tied || settled.2.isSome
      if settled.1.isEmpty && closed then settled.2
      else
        run nodes empty tied
          (settled.1.filterMap (advance nodes c) ++
            fresh empty closed ⟨index + 1, c :: behind, rest⟩)
          settled.2 (index + 1) (c :: behind) rest := by
  rw [run]
  rfl

theorem isSome_settle_of_best (nodes : Array Node) (place : Place) (threads : List Thread)
    (h : best.isSome) : (settle nodes place threads best).2.isSome := by
  obtain ⟨slots, -, hbest⟩ := pursued_settle nodes place threads best
  rw [hbest]
  cases slots with
  | none => exact h
  | some slots => rfl

/-- A match that was found is replaced by another one only. -/
theorem isSome_run_of_best (h : best.isSome) :
    (run nodes empty tied threads best index behind rest).isSome := by
  induction rest generalizing threads best index behind with
  | nil =>
    rw [run_nil]
    exact isSome_settle_of_best nodes _ _ h
  | cons c rest ih =>
    have hsettled := isSome_settle_of_best nodes ⟨index, behind, c :: rest⟩ threads h
    rw [run_cons]
    dsimp only
    split
    · exact hsettled
    · exact ih hsettled

theorem handled_start {threads : List Thread} {n : Nat} (hlt : n < nodes.size)
    (h : (Array.replicate nodes.size false).getD n true = true) :
    Handled nodes place threads (Array.replicate nodes.size false) [] n := by
  simp [Array.getD, hlt] at h

/-- **A thread that accepts is not missed.** -/
theorem isSome_run {t : Thread} (ht : t ∈ threads)
    (h : Accepts nodes t.node ⟨index, behind, rest⟩) :
    (run nodes empty tied threads best index behind rest).isSome := by
  induction rest generalizing threads best index behind t with
  | nil =>
    obtain ⟨slots, hpursued, hbest⟩ :=
      pursued_settle nodes ⟨index, behind, []⟩ threads best
    rw [run_nil, hbest]
    cases slots with
    | some slots => rfl
    | none =>
      obtain ⟨u, -, c, next, -, hplace, -⟩ :=
        hpursued.exists_goesOn (fun n => handled_start) rfl (.inr ⟨t, ht, rfl⟩) h
      simp [Place.forward] at hplace
  | cons c rest ih =>
    obtain ⟨slots, hpursued, hbest⟩ :=
      pursued_settle nodes ⟨index, behind, c :: rest⟩ threads best
    rw [run_cons]
    dsimp only
    cases slots with
    | some slots =>
      have hsome : (settle nodes ⟨index, behind, c :: rest⟩ threads best).2.isSome := by
        rw [hbest]
        rfl
      split
      · exact hsome
      · exact isSome_run_of_best hsome
    | none =>
      obtain ⟨u, hu, d, next, test, hplace, hn, hc, haccepts⟩ :=
        hpursued.exists_goesOn (fun n => handled_start) rfl (.inr ⟨t, ht, rfl⟩) h
      obtain ⟨rfl, rfl⟩ : c = d ∧ _ := by simpa [Place.forward] using hplace
      have hadvance : advance nodes c u = some (u.move 1) :=
        advance_eq_some_iff.mpr ⟨test, by rw [Array.getD_eq_getD_getElem?, hn]; rfl, hc, rfl⟩
      rw [if_neg (by simp [List.ne_nil_of_mem hu])]
      refine ih (List.mem_append_left _ (List.mem_filterMap.mpr ⟨u, hu, hadvance⟩)) ?_
      rwa [node_move_one]

/-- Once no more threads are started, nothing comes of threads that accept nothing. -/
theorem run_of_dead (hclosed : (tied || best.isSome) = true)
    (h : accepting nodes ⟨index, behind, rest⟩ threads = []) :
    run nodes empty tied threads best index behind rest = best := by
  induction rest generalizing threads index behind with
  | nil =>
    have hbest : _ = (settle nodes ⟨index, behind, []⟩ [] best).2 := (settle_congr h best).2
    rw [run_nil, hbest, settle_nil]
  | cons c rest ih =>
    have hnil : accepting nodes ⟨index, behind, c :: rest⟩ threads =
        accepting nodes ⟨index, behind, c :: rest⟩ [] := h
    obtain ⟨hreached, hbest⟩ := settle_congr hnil best
    rw [settle_nil] at hreached hbest
    rw [run_cons]
    simp only [hbest, hclosed, Bool.and_true]
    split
    · rfl
    · refine ih ?_
      rw [accepting_append, accepting_filterMap, hreached]
      rfl

/-- **Threads that accept nothing make no difference.** -/
theorem run_congr
    (h : accepting nodes ⟨index, behind, rest⟩ threads =
      accepting nodes ⟨index, behind, rest⟩ threads') :
    run nodes empty tied threads best index behind rest =
      run nodes empty tied threads' best index behind rest := by
  induction rest generalizing threads threads' best index behind with
  | nil => rw [run_nil, run_nil, (settle_congr h best).2]
  | cons c rest ih =>
    obtain ⟨hreached, hbest⟩ := settle_congr h best
    rw [run_cons, run_cons]
    dsimp only
    rw [← hbest]
    generalize settle nodes ⟨index, behind, c :: rest⟩ threads best = settled at hreached
    generalize settle nodes ⟨index, behind, c :: rest⟩ threads' best = settled' at hreached
    generalize hclosed : (tied || settled.2.isSome) = closed
    have hafter (more : List Thread) :
        accepting nodes ⟨index + 1, c :: behind, rest⟩
            (settled.1.filterMap (advance nodes c) ++ more) =
          accepting nodes ⟨index + 1, c :: behind, rest⟩
            (settled'.1.filterMap (advance nodes c) ++ more) := by
      rw [accepting_append, accepting_append, accepting_filterMap, accepting_filterMap, hreached]
    by_cases hdead : closed = true ∧ accepting nodes ⟨index, behind, c :: rest⟩ settled.1 = []
    · -- one of the runs may stop here, while the other one follows threads that accept nothing
      obtain ⟨rfl, hdead⟩ := hdead
      have hnone : accepting nodes ⟨index + 1, c :: behind, rest⟩
          (settled.1.filterMap (advance nodes c) ++
            fresh empty true ⟨index + 1, c :: behind, rest⟩) = [] := by
        rw [accepting_append, accepting_filterMap, hdead]
        rfl
      rw [run_of_dead hclosed hnone, run_of_dead hclosed ((hafter _).symm.trans hnone), ite_self,
        ite_self]
    · have hgoes {threads : List Thread}
          (h : accepting nodes ⟨index, behind, c :: rest⟩ threads =
            accepting nodes ⟨index, behind, c :: rest⟩ settled.1) :
          ¬(threads.isEmpty && closed) = true := by
        rw [Bool.and_eq_true, List.isEmpty_iff]
        rintro ⟨rfl, hclosed⟩
        exact hdead ⟨hclosed, h.symm⟩
      rw [if_neg (hgoes rfl), if_neg (hgoes hreached.symm), ih (hafter _)]

/-- Once there is a match, it does not matter whether more threads would be started without it. -/
theorem run_of_isSome (h : best.isSome) :
    run nodes empty true threads best index behind rest =
      run nodes empty false threads best index behind rest := by
  induction rest generalizing threads best index behind with
  | nil => rw [run_nil, run_nil]
  | cons c rest ih =>
    have hsettled := isSome_settle_of_best nodes ⟨index, behind, c :: rest⟩ threads h
    rw [run_cons, run_cons]
    simp only [hsettled, Bool.or_true]
    rw [ih hsettled]

/-- What the most preferred threads come to at a place. -/
theorem settle_append (nodes : Array Node) (place : Place) (first second : List Thread)
    (best : Option Accepted) :
    let settled := settle nodes place first none
    let settled' := settle nodes place (first ++ second) best
    (∀ accepted, settled.2 = some accepted → settled'.1 = settled.1 ∧ settled'.2 = some accepted) ∧
      (settled.2 = none → ∃ more, settled'.1 = settled.1 ++ more) := by
  intro settled settled'
  obtain ⟨slots, hpursued, hbest⟩ := pursued_settle nodes place first none
  obtain ⟨slots', hpursued', hbest'⟩ :=
    pursued_settle nodes place (first ++ second) best
  obtain ⟨hsome, hnone⟩ := hpursued.of_append hpursued'
  cases slots with
  | none => exact ⟨fun accepted h => by simp [settled, hbest] at h, fun _ => hnone rfl⟩
  | some slots =>
    refine ⟨fun accepted h => ?_, fun h => by simp [settled, hbest] at h⟩
    obtain ⟨hreached, rfl⟩ := Prod.mk.inj (hsome slots rfl)
    refine ⟨hreached, ?_⟩
    rw [← h, hbest, hbest']
    rfl

/-- **The most preferred threads decide**, if one of them accepts. -/
theorem run_append {first second : List Thread} {accepted : Accepted}
    (h : run nodes empty true first none index behind rest = some accepted)
    (best : Option Accepted) :
    run nodes empty false (first ++ second) best index behind rest = some accepted := by
  induction rest generalizing first second best index behind with
  | nil =>
    rw [run_nil] at h ⊢
    exact ((settle_append nodes _ first second best).1 accepted h).2
  | cons c rest ih =>
    obtain ⟨hsome, hnone⟩ :=
      settle_append nodes ⟨index, behind, c :: rest⟩ first second best
    rw [run_cons] at h ⊢
    dsimp only at h ⊢
    generalize settle nodes ⟨index, behind, c :: rest⟩ first none = settled at h hsome hnone
    generalize settle nodes ⟨index, behind, c :: rest⟩ (first ++ second) best = settled' at *
    cases hbest : settled.2 with
    | some found =>
      -- what is preferred less is dropped
      obtain ⟨hreached, hbest'⟩ := hsome found hbest
      rw [hbest, run_of_isSome rfl] at h
      rw [hreached, hbest']
      exact h
    | none =>
      obtain ⟨more, hreached⟩ := hnone hbest
      rw [hbest, Bool.true_or, Bool.and_true, fresh, if_pos rfl, List.append_nil] at h
      split at h
      · simp at h
      · rename_i hne
        have hne' : settled'.1 ≠ [] := by
          rw [hreached]
          exact List.append_ne_nil_of_left_ne_nil (by simpa using hne) more
        rw [if_neg (by simp [hne']), hreached, List.filterMap_append, List.append_assoc]
        exact ih h _

/-! ### The leftmost match -/

/-- The search goes on behind a place where there is no match. -/
theorem matchFrom_of_matchAt_eq_none {a : Automaton} {groups : Nat} {next : Place}
    (h : a.matchAt groups place = none) (hnext : place.forward = some (c, next)) :
    a.matchFrom groups place = a.matchFrom groups next := by
  obtain ⟨index, behind, ahead⟩ := place
  cases ahead with
  | nil => simp [Place.forward] at hnext
  | cons d rest =>
    obtain ⟨rfl, rfl⟩ : d = c ∧ _ := by simpa [Place.forward] using hnext
    let slots : Slots := Array.replicate (2 * groups + 2) none
    let start (place : Place) : Thread := ⟨0, slots.setIfInBounds 0 (some place)⟩
    have hdead : ¬Accepts a.nodes (start ⟨index, behind, d :: rest⟩).node
        ⟨index, behind, d :: rest⟩ := by
      intro haccepts
      have hsome : (a.matchAt groups ⟨index, behind, d :: rest⟩).isSome :=
        isSome_run (List.mem_singleton_self _) haccepts
      simp [h] at hsome
    have hcongr : accepting a.nodes ⟨index, behind, d :: rest⟩
        [start ⟨index, behind, d :: rest⟩] = accepting a.nodes ⟨index, behind, d :: rest⟩ [] :=
      accepting_cons_of_not hdead []
    calc
      a.matchFrom groups ⟨index, behind, d :: rest⟩
        = run a.nodes slots false [] none index behind (d :: rest) := run_congr hcongr
      _ = a.matchFrom groups ⟨index + 1, d :: behind, rest⟩ := rfl

/-- **The leftmost match.** A search finds what is found when the places are tried one after
another. -/
theorem matchFrom_eq (a : Automaton) (groups : Nat) (place : Place) :
    a.matchFrom groups place = place.onward.findSome? (a.matchAt groups) := by
  obtain ⟨index, behind, ahead⟩ := place
  induction ahead generalizing index behind with
  | nil =>
    rw [Place.onward_of_forward_eq_none rfl, List.findSome?_singleton]
    rw [matchFrom, matchAt, run_nil, run_nil]
  | cons c rest ih =>
    rw [Place.onward_of_forward rfl, List.findSome?_cons]
    cases hat : a.matchAt groups ⟨index, behind, c :: rest⟩ with
    | some accepted =>
      have hfrom : run a.nodes _ false ([_] ++ []) none index behind (c :: rest) = some accepted :=
        run_append hat none
      exact hfrom
    | none =>
      rw [matchFrom_of_matchAt_eq_none hat rfl]
      exact ih _ _

/-! ### The places of a match -/

/-- What a match has noted, given how it goes on from place to place. -/
theorem forall_run {R : Place → Slots → Prop} {s : Text} {least : Nat}
    (hpass : ∀ (p : Place) (t : Thread), p.In s → R p t.slots →
      ∀ u ∈ t.successors nodes p, R p u.slots)
    (hnext : ∀ (p q : Place) (c : Char) (slots : Slots), p.forward = some (c, q) →
      R p slots → R q slots)
    (hin : Place.In ⟨index, behind, rest⟩ s) (hleast : least ≤ index)
    (hthreads : ∀ t ∈ threads, R ⟨index, behind, rest⟩ t.slots)
    (hbest : ∀ b ∈ best, b.stop.In s ∧ least ≤ b.stop.index ∧ R b.stop b.slots) :
    ∀ b ∈ run nodes empty true threads best index behind rest,
      b.stop.In s ∧ least ≤ b.stop.index ∧ R b.stop b.slots := by
  have hsettle (place : Place) (hin : place.In s) (hleast : least ≤ place.index)
      {threads : List Thread} {best : Option Accepted} (hthreads : ∀ t ∈ threads, R place t.slots)
      (hbest : ∀ b ∈ best, b.stop.In s ∧ least ≤ b.stop.index ∧ R b.stop b.slots) :
      (∀ t ∈ (settle nodes place threads best).1, R place t.slots) ∧
        ∀ b ∈ (settle nodes place threads best).2,
          b.stop.In s ∧ least ≤ b.stop.index ∧ R b.stop b.slots := by
    obtain ⟨slots, hpursued, hsettled⟩ := pursued_settle nodes place threads best
    obtain ⟨hreached, haccepted⟩ :=
      hpursued.forall_slots (fun t ht => hpass place t hin ht) hthreads (by simp)
    refine ⟨hreached, ?_⟩
    rw [hsettled]
    cases slots with
    | none => exact hbest
    | some slots =>
      intro b hb
      obtain rfl : _ = b := Option.some.inj hb
      exact ⟨hin, hleast, haccepted slots rfl⟩
  induction rest generalizing threads best index behind with
  | nil =>
    rw [run_nil]
    exact (hsettle _ hin hleast hthreads hbest).2
  | cons c rest ih =>
    obtain ⟨hreached, hfound⟩ := hsettle _ hin hleast hthreads hbest
    rw [run_cons]
    dsimp only
    split
    · exact hfound
    · refine ih hin.next (Nat.le_succ_of_le hleast) ?_ hfound
      rw [fresh, Bool.true_or, if_pos rfl, List.append_nil]
      intro u hu
      obtain ⟨t, ht, hadvance⟩ := List.mem_filterMap.mp hu
      obtain ⟨-, -, -, rfl⟩ := advance_eq_some_iff.mp hadvance
      exact hnext _ _ c _ rfl (hreached t ht)

/-- **The places of a match.** It ends in the text, not before the place where it was tried, and
what it has noted are places up to its end. -/
theorem places_matchAt {a : Automaton} {groups : Nat} {s : Text} (hin : place.In s)
    {accepted : Accepted} (h : a.matchAt groups place = some accepted) :
    accepted.stop.In s ∧ place.index ≤ accepted.stop.index ∧
      Noted (fun p => p.In s ∧ p.index ≤ accepted.stop.index) accepted.slots := by
  have hpass (p : Place) (t : Thread) (hp : p.In s)
      (ht : Noted (fun q => q.In s ∧ q.index ≤ p.index) t.slots) :
      ∀ u ∈ t.successors a.nodes p, Noted (fun q => q.In s ∧ q.index ≤ p.index) u.slots := by
    unfold Thread.successors
    split
    · split <;> simp [Thread.move, ht]
    · simp [Thread.move, ht]
    · simp [Thread.move, ht]
    · refine List.forall_mem_singleton.mpr (ht.set _ fun q hq => ?_)
      obtain rfl := Option.some.inj hq
      exact ⟨hp, Nat.le_refl _⟩
    all_goals simp
  refine forall_run hpass (fun p q c slots hq hslots => hslots.mono fun r hr => ?_) hin
    (Nat.le_refl _) (List.forall_mem_singleton.mpr ?_) (by simp) accepted h
  · have hindex : q.index = p.index + 1 := by
      obtain ⟨index, behind, ahead⟩ := p
      cases ahead with
      | nil => simp [Place.forward] at hq
      | cons d rest =>
        obtain ⟨-, rfl⟩ : _ ∧ _ = q := by simpa [Place.forward] using hq
        rfl
    exact ⟨hr.1, by omega⟩
  · have hstart : Noted (fun q => q.In s ∧ q.index ≤ place.index)
        ((Array.replicate (2 * groups + 2) none).setIfInBounds 0 (some place)) := by
      refine (Noted.replicate _).set _ fun q hq => ?_
      obtain rfl := Option.some.inj hq
      exact ⟨hin, Nat.le_refl _⟩
    exact hstart

end TabFormat.Pattern.Automaton
