import Mathlib.Data.List.Perm.Subperm
import Mathlib.Logic.Relation
import StaticSemantics.Reference

/-!
Where aliases lead, whatever they stand for. The search that nothing but a list of the aliases
passed keeps from going on comes to its end, and the bounded search gives its result: the symbol
that the aliases lead to or, if they lead nowhere, an error that names an alias of the circle in
which they end, and not one of those on the way into it.
-/

namespace StaticSemantics.SymbolTable

open Relation

/-- Following aliases from a symbol ends at the other one, which is no alias. -/
inductive LeadsTo (w : SymbolTable) : Symbol → Symbol → Prop where
  | here {s : Symbol} (hs : ∀ a, s ≠ .aliasDecl a) : LeadsTo w s s
  | through {a : AliasId} {s : Symbol} (h : LeadsTo w (w.aliasDecl a).target s) :
      LeadsTo w (.aliasDecl a) s

/-- The first symbol is an alias, and the second is its target. -/
def StandsFor (w : SymbolTable) (s t : Symbol) : Prop :=
  ∃ a, s = .aliasDecl a ∧ (w.aliasDecl a).target = t

/-- The search without a bound: it follows aliases and keeps a list of those that it has passed,
until it comes to a symbol that is no alias or to an alias on the list. -/
inductive Unwinds (w : SymbolTable) : List AliasId → Symbol → Except SymbolError Symbol → Prop where
  | done {seen : List AliasId} {s : Symbol} (hs : ∀ a, s ≠ .aliasDecl a) : Unwinds w seen s (.ok s)
  | again {seen : List AliasId} {a : AliasId} (ha : a ∈ seen) :
      Unwinds w seen (.aliasDecl a) (.error (.cyclicAlias (w.aliasDecl a).name))
  | next {seen : List AliasId} {a : AliasId} {r : Except SymbolError Symbol} (ha : a ∉ seen)
      (h : Unwinds w (a :: seen) (w.aliasDecl a).target r) : Unwinds w seen (.aliasDecl a) r

variable {w : SymbolTable} {a : AliasId} {s s' u : Symbol} {seen : List AliasId}
  {r r' : Except SymbolError Symbol}

theorem LeadsTo.of_aliases {w' : SymbolTable} (ha : w'.aliases = w.aliases) (h : w.LeadsTo s s') :
    w'.LeadsTo s s' := by
  induction h with
  | here hs => exact .here hs
  | @through a s _ ih =>
      refine .through ?_
      rwa [aliasDecl, ha]

theorem LeadsTo.not_alias (h : w.LeadsTo s s') (a : AliasId) : s' ≠ .aliasDecl a := by
  induction h with
  | here hs => exact hs a
  | through _ ih => exact ih

theorem unwindAt_of_not_alias (hs : ∀ a, s ≠ .aliasDecl a) (n : Nat) (seen : List AliasId) :
    w.unwindAt n seen s = .ok s := by
  cases s with
  | aliasDecl a => exact absurd rfl (hs a)
  | _ => cases n <;> rfl

theorem leadsTo_of_unwindAt {n : Nat} {seen : List AliasId} (h : w.unwindAt n seen s = .ok s') :
    w.LeadsTo s s' := by
  induction n generalizing seen s with
  | zero =>
      cases s with
      | aliasDecl a => cases h
      | _ => cases h; exact .here (by simp)
  | succ n ih =>
      cases s with
      | aliasDecl a =>
          simp only [unwindAt] at h
          split at h
          · cases h
          · exact .through (ih h)
      | _ => cases h; exact .here (by simp)

/-! ## The search comes to its end -/

theorem Unwinds.unique (h : w.Unwinds seen s r) (h' : w.Unwinds seen s r') : r = r' := by
  induction h with
  | done hs =>
      cases h' with
      | done _ => rfl
      | again _ | next _ _ => exact absurd rfl (hs _)
  | again ha =>
      cases h' with
      | done hs => exact absurd rfl (hs _)
      | again _ => rfl
      | next hn _ => exact absurd ha hn
  | next hn _ ih =>
      cases h' with
      | done hs => exact absurd rfl (hs _)
      | again ha => exact absurd ha hn
      | next _ h' => exact ih h'

theorem length_le_of_nodup (hn : seen.Nodup) (hs : ∀ a ∈ seen, w.aliases.Has a) :
    seen.length ≤ w.aliases.size := by
  have hsub : seen ⊆ w.aliases.ids := fun a ha => Arena.mem_ids.mpr (hs a ha)
  simpa [Arena.ids] using (hn.subperm hsub).length_le

/-- The bound leaves a step for every alias that has not been passed, and one to spare. -/
theorem unwinds_unwindAt {n : Nat} (hn : seen.Nodup) (hs : ∀ a ∈ seen, w.aliases.Has a)
    (hb : w.aliases.size < n + seen.length) : w.Unwinds seen s (w.unwindAt n seen s) := by
  induction n generalizing seen s with
  | zero =>
      have hle := length_le_of_nodup hn hs
      omega
  | succ n ih =>
      cases s with
      | aliasDecl a =>
          rw [unwindAt]
          by_cases ha : a ∈ seen
          · rw [if_pos (by simpa using ha)]
            exact .again ha
          · rw [if_neg (by simpa using ha)]
            refine .next ha ?_
            by_cases has : w.aliases.Has a
            · refine ih (List.nodup_cons.mpr ⟨ha, hn⟩) (by simpa using ⟨has, hs⟩) ?_
              rw [List.length_cons]
              omega
            · -- an alias that is not there reads as the default one, which stands for a type
              rw [aliasDecl, Arena.get_of_not_has has, unwindAt_of_not_alias (by rintro _ ⟨⟩)]
              exact .done (by rintro _ ⟨⟩)
      | type _ | module _ | slot _ | value _ | error _ => exact .done (by simp)

theorem unwinds_unwind (w : SymbolTable) (s : Symbol) : w.Unwinds [] s (w.unwind s) :=
  unwinds_unwindAt .nil (by simp) (by simp)

theorem unwinds_iff : w.Unwinds [] s r ↔ w.unwind s = r :=
  ⟨(w.unwinds_unwind s).unique, fun h => h ▸ w.unwinds_unwind s⟩

/-! ## Where the search ends -/

/-- What leads somewhere does not pass a circle. -/
theorem LeadsTo.not_circle (h : w.LeadsTo s s') (hu : ReflTransGen w.StandsFor s u) :
    ¬ TransGen w.StandsFor u u := by
  induction h with
  | here hs =>
      have stops : ∀ {v}, ¬ w.StandsFor _ v := fun ⟨a, ha, _⟩ => hs a ha
      rcases ReflTransGen.cases_head hu with rfl | ⟨v, hv, _⟩
      · intro hc
        obtain ⟨v, hv, _⟩ := TransGen.head'_iff.mp hc
        exact stops hv
      · exact absurd hv stops
  | through _ ih =>
      rcases ReflTransGen.cases_head hu with rfl | ⟨v, ⟨_, ha, rfl⟩, hv⟩
      · -- a circle through the alias itself leads back to it from its target
        intro hc
        obtain ⟨v, ⟨_, ha, rfl⟩, hv⟩ := TransGen.head'_iff.mp hc
        cases ha
        exact ih hv hc
      · cases ha
        exact ih hv

/-- The aliases on the list have led to where the search is. -/
theorem passed_cons (hseen : ∀ c ∈ seen, TransGen w.StandsFor (.aliasDecl c) (.aliasDecl a)) :
    ∀ c ∈ a :: seen, TransGen w.StandsFor (.aliasDecl c) (w.aliasDecl a).target := by
  have hstep : w.StandsFor (.aliasDecl a) (w.aliasDecl a).target := ⟨a, rfl, rfl⟩
  intro c hc
  cases hc with
  | head => exact .single hstep
  | tail _ hc => exact (hseen c hc).tail hstep

/-- On the way to the end no alias is met that has been passed. -/
theorem LeadsTo.unwinds (h : w.LeadsTo s s')
    (hseen : ∀ c ∈ seen, TransGen w.StandsFor (.aliasDecl c) s) : w.Unwinds seen s (.ok s') := by
  induction h generalizing seen with
  | here hs => exact .done hs
  | through h ih =>
      have hnew := fun ha => (LeadsTo.through h).not_circle .refl (hseen _ ha)
      exact .next hnew (ih (passed_cons hseen))

/-- The bounded search finds what the aliases lead to. -/
theorem unwind_eq_ok_iff : w.unwind s = .ok s' ↔ w.LeadsTo s s' :=
  ⟨leadsTo_of_unwindAt, fun h => unwinds_iff.mp (h.unwinds (by simp))⟩

/-- An alias that is met again has led to itself. -/
theorem Unwinds.exists_circle {e : SymbolError} (h : w.Unwinds seen s (.error e))
    (hseen : ∀ c ∈ seen, TransGen w.StandsFor (.aliasDecl c) s) :
    ∃ a, e = .cyclicAlias (w.aliasDecl a).name ∧ ReflTransGen w.StandsFor s (.aliasDecl a) ∧
      TransGen w.StandsFor (.aliasDecl a) (.aliasDecl a) := by
  generalize hr : (Except.error e : Except SymbolError Symbol) = r at h
  induction h with
  | done _ => cases hr
  | @again _ a ha =>
      cases hr
      exact ⟨a, rfl, .refl, hseen a ha⟩
  | @next _ a _ _ _ ih =>
      obtain ⟨b, he, hreach, hcircle⟩ := ih (passed_cons hseen) hr
      exact ⟨b, he, .head ⟨a, rfl, rfl⟩ hreach, hcircle⟩

/-- To unwind a symbol always comes to an end: at the symbol that it leads to, which unwinds to
itself, or else with an error that names an alias on the circle that it leads into. -/
structure ExactUnwinding (w : SymbolTable) (s : Symbol) : Prop where
  ends : ∀ r, w.Unwinds [] s r ↔ w.unwind s = r
  ok_iff : ∀ s', w.unwind s = .ok s' ↔ w.LeadsTo s s'
  ok : ∀ s', w.unwind s = .ok s' → (∀ a, s' ≠ .aliasDecl a) ∧ w.unwind s' = .ok s'
  error : (∀ s', ¬ w.LeadsTo s s') → ∃ a,
    w.unwind s = .error (.cyclicAlias (w.aliasDecl a).name) ∧
      ReflTransGen w.StandsFor s (.aliasDecl a) ∧
      TransGen w.StandsFor (.aliasDecl a) (.aliasDecl a)

/-- Unwinding is exact in every table, so whatever aliases have been declared and whatever targets
they have been given since. -/
theorem exactUnwinding (w : SymbolTable) (s : Symbol) : w.ExactUnwinding s := by
  refine ⟨fun _ => unwinds_iff, fun _ => unwind_eq_ok_iff, fun s' hs => ?_, fun hn => ?_⟩
  · have hne := (unwind_eq_ok_iff.mp hs).not_alias
    exact ⟨hne, unwindAt_of_not_alias hne _ _⟩
  · cases hr : w.unwind s with
    | ok s' => exact absurd (unwind_eq_ok_iff.mp hr) (hn s')
    | error e =>
        obtain ⟨a, rfl, hreach, hcircle⟩ := (unwinds_iff.mpr hr).exists_circle (by simp)
        exact ⟨a, rfl, hreach, hcircle⟩

example :
    let tail := (({} : SymbolTable).addAlias "A" (.aliasDecl ⟨1⟩)).2
    let circle := ((tail.addAlias "B" (.aliasDecl ⟨2⟩)).2.addAlias "C" (.aliasDecl ⟨1⟩)).2
    circle.unwind (.aliasDecl ⟨0⟩) = .error (.cyclicAlias "B") := by
  decide

end StaticSemantics.SymbolTable
