import StaticSemantics.Schedule

/-!
The order of phases. A run visits the units phase by phase: what it comes to is what the visits, one
after the other in the order of the phases and of the units, come to. Between runs the current phase
only moves on, so that the phases that are entered never go back.
-/

namespace StaticSemantics

namespace Phase

/-- How many phases come before. -/
def rank (p : Phase) : Nat := p.ctorIdx

theorem rank_lt_of_next? {p q : Phase} (h : p.next? = some q) : p.rank < q.rank := by
  cases p <;> cases h <;> decide

theorem onward_eq (p : Phase) : p.onward = p :: (p.next?.map onward).getD [] := by
  cases p <;> rfl

theorem onward_eq_filter (p : Phase) : p.onward = all.filter fun q => p.rank ≤ q.rank := by
  cases p <;> rfl

end Phase

namespace Schedule

variable {U σ : Type} {visit : Context → U → σ → U × σ} {s : Schedule} {p : Phase}

/-! ## Visits -/

/-- The visits of a run over so many units, each by its phase and the place of its unit: all phases
from the current one on, and in each phase all units. -/
def visits (s : Schedule) (n : Nat) : List (Phase × Nat) :=
  (Phase.all.filter fun p => s.current.any fun q => q.rank ≤ p.rank).flatMap fun p =>
    (List.range n).map (p, ·)

/-- The visits take place one after the other. Each is made in the context of its phase, to the unit
and with the state that the visits before have left. -/
inductive Visited (visit : Context → U → σ → U × σ) :
    List (Phase × Nat) → List U × σ → List U × σ → Prop where
  | nil (r : List U × σ) : Visited visit [] r r
  | cons {p : Phase} {i : Nat} {rest : List (Phase × Nat)} {units : List U} {unit : U} {state : σ}
      {r : List U × σ} (hu : units[i]? = some unit)
      (h : Visited visit rest (units.set i (visit { phase := some p } unit state).1,
        (visit { phase := some p } unit state).2) r) :
      Visited visit ((p, i) :: rest) (units, state) r

namespace Visited

variable {l l' : List (Phase × Nat)} {a b c : List U × σ}

theorem append (h : Visited visit l a b) (h' : Visited visit l' b c) :
    Visited visit (l ++ l') a c := by
  induction h with
  | nil => exact h'
  | cons hu _ ih => exact .cons hu (ih h')

theorem unique (h : Visited visit l a b) (h' : Visited visit l a c) : c = b := by
  induction h with
  | nil =>
      cases h'
      rfl
  | cons hu _ ih =>
      cases h' with
      | cons hu' h' =>
          obtain rfl := Option.some.inj (hu.symm.trans hu')
          exact ih h'

end Visited

theorem length_sweep (p : Phase) (units : List U) (state : σ) :
    (sweep visit p units state).1.length = units.length := by
  induction units generalizing state with
  | nil => rfl
  | cons unit rest ih => exact congrArg (· + 1) (ih _)

section

variable (visit)

/-- A phase visits the units from a place on, those before it having been visited. -/
theorem visited_sweep (p : Phase) (before units : List U) (state : σ) :
    Visited visit ((List.range' before.length units.length).map (p, ·)) (before ++ units, state)
      (before ++ (sweep visit p units state).1, (sweep visit p units state).2) := by
  induction units generalizing before state with
  | nil => exact .nil _
  | cons unit rest ih =>
      rw [List.length_cons, List.range'_succ, List.map_cons]
      have hunit : (before ++ unit :: rest)[before.length]? = some unit := by simp
      refine .cons hunit ?_
      have hrest := ih (before ++ [(visit { phase := some p } unit state).1])
        (visit { phase := some p } unit state).2
      simpa [sweep] using hrest

theorem visited_foldl (phases : List Phase) (units : List U) (state : σ) :
    Visited visit (phases.flatMap fun p => (List.range units.length).map (p, ·)) (units, state)
      (phases.foldl (fun r p => sweep visit p r.1 r.2) (units, state)) := by
  induction phases generalizing units state with
  | nil => exact .nil _
  | cons p phases ih =>
      have hsweep := visited_sweep visit p [] units state
      have hrest := ih (sweep visit p units state).1 (sweep visit p units state).2
      rw [length_sweep] at hrest
      rw [List.flatMap_cons, List.foldl_cons]
      rw [List.length_nil, ← List.range_eq_range'] at hsweep
      exact hsweep.append hrest

end

/-! ## Runs -/

theorem remaining_eq (s : Schedule) : s.remaining =
    Phase.all.filter fun p => s.current.any fun q => q.rank ≤ p.rank := by
  unfold remaining
  cases s.current with
  | none => simp
  | some p => exact p.onward_eq_filter

/-- The phases that remain are the current one and those that remain after it. -/
theorem remaining_of_current (h : s.current = some p) : s.remaining = p :: s.next.remaining := by
  simpa [remaining, next, h] using p.onward_eq

theorem visited_run (s : Schedule) (visit : Context → U → σ → U × σ) (units : List U)
    (state : σ) : Visited visit (s.visits units.length) (units, state)
      ((s.run visit units state).1, (s.run visit units state).2.1) := by
  unfold visits
  rw [← remaining_eq]
  exact visited_foldl visit s.remaining units state

/-- While a phase is left, a run visits all units in it and goes on with the next one. -/
theorem run_of_current (h : s.current = some p) (units : List U) (state : σ) :
    s.run visit units state =
      s.next.run visit (sweep visit p units state).1 (sweep visit p units state).2 := by
  simp only [run, remaining_of_current h, List.foldl_cons]

theorem run_of_done (h : s.current = none) (units : List U) (state : σ) :
    s.run visit units state = (units, state, s) := by
  obtain rfl : s = ⟨none⟩ := congrArg mk h
  rfl

/-- A visit that only notes its context and the number of its unit. -/
def record (ctx : Context) (i : Nat) (log : List (Context × Nat)) : Nat × List (Context × Nat) :=
  (i, log ++ [(ctx, i)])

theorem Visited.eq_of_record {l : List (Phase × Nat)} {n : Nat} {log : List (Context × Nat)}
    {r : List Nat × List (Context × Nat)} (h : Visited record l (List.range n, log) r) :
    r = (List.range n, log ++ l.map fun v => ({ phase := some v.1 }, v.2)) := by
  induction l generalizing log with
  | nil =>
      cases h
      simp
  | cons v l ih =>
      cases h with
      | @cons p i _ _ unit _ _ hu h =>
          obtain ⟨hi, rfl⟩ := List.getElem?_eq_some_iff.mp hu
          have hset := List.set_getElem_self hi
          rw [List.getElem_range] at h hset
          simp only [record, hset] at h
          simpa using ih h

/-! ## Requests -/

/-- What may be asked of a schedule between runs. -/
inductive Request where
  | enter (p : Phase)
  | next
  deriving DecidableEq, Repr

/-- The phases that requests enter, refusals left out, and the schedule after them. -/
def serve (s : Schedule) : List Request → List Phase × Schedule
  | [] => ([], s)
  | .enter p :: rest =>
    match s.enter p with
    | .ok _ => (p :: (s.serve rest).1, (s.serve rest).2)
    | .error _ => s.serve rest
  | .next :: rest => s.next.serve rest

/-- Only the current phase can be entered. -/
theorem enter_eq_ok_iff {ctx : Context} :
    s.enter p = .ok ctx ↔ s.current = some p ∧ ctx = { phase := some p } := by
  unfold enter
  split
  · rename_i h
    simp [h, eq_comm]
  · rename_i h
    simp [h]

theorem enter_eq_error_iff {e : PhaseError} :
    s.enter p = .error e ↔ s.current ≠ some p ∧ e = ⟨p, s.current⟩ := by
  unfold enter
  split
  · rename_i h
    simp [h]
  · rename_i h
    simp [h, eq_comm]

/-- No phase before the current one is entered any more. -/
theorem rank_le_of_mem_serve {requests : List Request} (hp : p ∈ (s.serve requests).1) :
    ∃ q, s.current = some q ∧ q.rank ≤ p.rank := by
  induction requests generalizing s with
  | nil => cases hp
  | cons request rest ih =>
      cases request with
      | enter q =>
          rw [serve] at hp
          split at hp
          · rename_i henter
            rcases List.mem_cons.mp hp with rfl | hp
            · exact ⟨p, (enter_eq_ok_iff.mp henter).1, Nat.le_refl _⟩
            · exact ih hp
          · exact ih hp
      | next =>
          obtain ⟨q', hq', hle⟩ := ih hp
          obtain ⟨q, hq, hnext⟩ := Option.bind_eq_some_iff.mp hq'
          exact ⟨q, hq, Nat.le_trans (Nat.le_of_lt (Phase.rank_lt_of_next? hnext)) hle⟩

theorem pairwise_serve (s : Schedule) (requests : List Request) :
    (s.serve requests).1.Pairwise fun p q => p.rank ≤ q.rank := by
  induction requests generalizing s with
  | nil => exact .nil
  | cons request rest ih =>
      cases request with
      | enter p =>
          rw [serve]
          split
          · rename_i henter
            refine .cons (fun q hq => ?_) (ih s)
            obtain ⟨p', hp', hle⟩ := rank_le_of_mem_serve hq
            rw [(enter_eq_ok_iff.mp henter).1] at hp'
            cases hp'
            exact hle
          · exact ih s
      | next => exact ih s.next

/-- From every schedule, a run is a loop that visits all units in the current phase and moves on to
the next, until none remains, and what it comes to is exactly what its visits come to, phase after
phase and unit after unit. However phases are entered and left between runs, only the current one
can be entered, and none is entered after a later one. -/
theorem phases_inOrder (s : Schedule) :
    (∀ {U σ : Type} (visit : Context → U → σ → U × σ) (units : List U) (state : σ),
      let r := s.run visit units state
      r.2.2.remaining = [] ∧ r.2.2.isRunning = false ∧
      (∀ r', Visited visit (s.visits units.length) (units, state) r' ↔ r' = (r.1, r.2.1)) ∧
      (s.current = none → r = (units, state, s)) ∧
      ∀ p, s.current = some p → s.next.remaining.length < s.remaining.length ∧
        r = s.next.run visit (sweep visit p units state).1 (sweep visit p units state).2) ∧
    (∀ n, s.run record (List.range n) [] =
      (List.range n, (s.visits n).map fun v => ({ phase := some v.1 }, v.2), ⟨none⟩)) ∧
    ∀ requests, let after := s.serve requests
      after.1.Pairwise (fun p q => p.rank ≤ q.rank) ∧
      ∀ p, (∀ ctx, after.2.enter p = .ok ctx ↔
          after.2.current = some p ∧ ctx = { phase := some p }) ∧
        ∀ e, after.2.enter p = .error e ↔
          after.2.current ≠ some p ∧ e = ⟨p, after.2.current⟩ := by
  refine ⟨fun visit units state => ⟨rfl, rfl, fun r' => ⟨fun h => ?_, ?_⟩,
      fun hs => run_of_done hs units state, fun p hp => ⟨?_, run_of_current hp units state⟩⟩,
    fun n => ?_, fun requests => ⟨s.pairwise_serve requests, fun p => ⟨fun ctx => enter_eq_ok_iff,
      fun e => enter_eq_error_iff⟩⟩⟩
  · exact (s.visited_run visit units state).unique h
  · rintro rfl
    exact s.visited_run visit units state
  · rw [remaining_of_current hp]
    exact Nat.lt_succ_self _
  · have h := s.visited_run record (List.range n) []
    rw [List.length_range] at h
    obtain ⟨hunits, hlog⟩ := Prod.mk.inj h.eq_of_record
    exact Prod.ext hunits (Prod.ext (by simpa using hlog) rfl)

end Schedule
end StaticSemantics
