import StaticSemantics.Proofs.Closure.Answers
import StaticSemantics.Proofs.Found
import StaticSemantics.Proofs.Scope.Hits

/-!
The two modes of look-up. A look-up for types and modules passes over everything else, so it may go
further out and meet fewer conflicts than one for anything. Still both agree wherever the look-up
for anything finds a type or a module: nothing that the other one passes over came before it.
-/

namespace StaticSemantics

namespace SymbolTable

variable {w : SymbolTable} {o : Owner} {name : String} {s r : Symbol} {f : FrameId}

/-! ## Look-ups that find a type or module -/

section Agreement

variable (hr : r.isTypeOrModule)

include hr

theorem unwind_of_referTo {make : SlotId → TypeId → Value} (h : w.referTo make s = r) :
    w.unwind s = .ok r := by
  unfold referTo at h
  split at h
  · subst h
    cases hr
  · subst h
    assumption
  · subst h
    cases hr

/-- What is bound to the name is a type or module, or nothing is. -/
theorem resolveIn?_modes (h : ∀ s ∈ w.resolveIn? o name .anything, s = r) :
    w.resolveIn? o name .typeOrModule = w.resolveIn? o name .anything := by
  unfold resolveIn? find? at h ⊢
  cases hb : w.bound? o name with
  | none => rfl
  | some b =>
      rw [hb] at h
      have hu : w.unwind b = .ok r := unwind_of_referTo hr (h _ rfl)
      simp [suits, denotesTypeOrModule, hu, hr, Option.filter_some]

omit hr in
theorem findSome?_modes {α : Type} {p q : α → Option Symbol} {l : List α}
    (hpq : ∀ x, (∀ s ∈ p x, s = r) → q x = p x) (h : ∀ s ∈ l.findSome? p, s = r) :
    l.findSome? q = l.findSome? p := by
  induction l with
  | nil => rfl
  | cons x l ih =>
      rw [List.findSome?_cons] at h ⊢
      rw [List.findSome?_cons]
      cases hp : p x with
      | none =>
          rw [hp] at h
          rw [hpq x (by simp [hp]), hp]
          exact ih h
      | some s =>
          rw [hp] at h
          rw [hpq x (by simpa [hp] using h), hp]

theorem resolveInType?_modes {t : TypeId} (h : ∀ s ∈ w.resolveInType? t name .anything, s = r) :
    w.resolveInType? t name .typeOrModule = w.resolveInType? t name .anything :=
  findSome?_modes (fun _ => resolveIn?_modes hr) h

theorem resolveInMembers?_modes {d : MemberTableId}
    (h : ∀ s ∈ w.resolveInMembers? d name .anything, s = r) :
    w.resolveInMembers? d name .typeOrModule = w.resolveInMembers? d name .anything :=
  findSome?_modes (fun _ => resolveIn?_modes hr) h

theorem eq_of_rebase {v : Value} (h : w.rebase v s = r) : s = r := by
  unfold rebase at h
  split at h
  · rename_i i _
    have hu : w.unwind (.slot i) = .ok r := unwind_of_referTo hr h
    cases (unwindAt_of_not_alias (by simp) _ _).symm.trans hu
    cases hr
  · exact h

/-- Members of an `Any` are left to the running program in both modes. -/
theorem resolveInValue?_modes {v : Value} (h : ∀ s ∈ w.resolveInValue? v name .anything, s = r) :
    w.resolveInValue? v name .typeOrModule = w.resolveInValue? v name .anything := by
  have members : ∀ d : Option MemberTableId,
      (∀ s ∈ (d.bind fun d => w.resolveInMembers? d name .anything).map (w.rebase v), s = r) →
      (d.bind fun d => w.resolveInMembers? d name .typeOrModule).map (w.rebase v) =
        (d.bind fun d => w.resolveInMembers? d name .anything).map (w.rebase v) := by
    intro d hd
    cases d with
    | none => rfl
    | some d =>
        refine congrArg (Option.map (w.rebase v)) (resolveInMembers?_modes hr fun s hs => ?_)
        exact eq_of_rebase hr (hd _ (Option.mem_map_of_mem _ hs))
  cases v with
  | staticMe cls t => exact resolveInType?_modes hr h
  | _ =>
      simp only [resolveInValue?] at h ⊢
      split
      · rfl
      · rename_i hany
        rw [if_neg hany] at h
        exact members _ h

theorem resolveInSymbol?_modes (h : ∀ t ∈ w.resolveInSymbol? s name .anything, t = r) :
    w.resolveInSymbol? s name .typeOrModule = w.resolveInSymbol? s name .anything := by
  unfold resolveInSymbol? at h ⊢
  cases hu : w.unwind s with
  | error e => rfl
  | ok target =>
      rw [hu] at h
      cases target with
      | type t => exact resolveInType?_modes hr h
      | module m => exact resolveIn?_modes hr h
      | value v => exact resolveInValue?_modes hr h
      | slot _ | aliasDecl _ | error _ => rfl

/-! ## Frames -/

theorem eq_of_sameTarget (h : sameTarget r s = true) : s = r := by
  cases r with
  | type t | module m => cases s <;> simp_all [sameTarget, Symbol.same]
  | _ => cases hr

/-- Hits that come to a type or module are all the same. -/
theorem eq_of_settle {hits : Hits} (h : ∀ s ∈ settle name hits, s = r) :
    ∀ x ∈ hits, x.1 = r := by
  unfold settle at h
  split at h
  · simp
  · rename_i first m rest
    split at h
    · rename_i hall
      obtain rfl : first = r := h first rfl
      intro x hx
      rcases List.mem_cons.mp hx with rfl | hx
      · rfl
      · exact eq_of_sameTarget hr (List.all_eq_true.mp hall x hx)
    · cases h _ rfl
      cases hr

theorem bodyHits_modes (h : ∀ s ∈ w.bodyHits f name .anything, s = r) :
    w.bodyHits f name .typeOrModule = w.bodyHits f name .anything := by
  unfold bodyHits at h ⊢
  cases hk : (w.frame f).kind with
  | body t =>
      simp only [hk] at h ⊢
      refine List.filterMap_congr fun u hu => resolveIn?_modes hr fun s hs => ?_
      exact h s (List.mem_filterMap.mpr ⟨u, hu, hs⟩)
  | module m =>
      simp only [hk, Option.mem_toList] at h ⊢
      rw [resolveIn?_modes hr h]
  | activation | withBlock => rfl

theorem ownHits_modes (h : ∀ s ∈ w.ownHits f name .anything, s = r) :
    w.ownHits f name .typeOrModule = w.ownHits f name .anything := by
  unfold ownHits at h ⊢
  cases hk : (w.frame f).kind with
  | activation me captured =>
      simp only [hk, Option.mem_toList] at h ⊢
      cases hl : w.resolveIn? (.frame f) name .anything with
      | some s =>
          rw [hl] at h
          rw [resolveIn?_modes hr (by simpa [hl] using h), hl]
          rfl
      | none =>
          rw [hl] at h
          rw [resolveIn?_modes hr (by simp [hl]), hl]
          cases me with
          | none => rfl
          | some v => exact congrArg Option.toList (resolveInValue?_modes hr h)
  | module | body | withBlock =>
      simp only [hk, List.mem_append, Option.mem_toList] at h ⊢
      rw [bodyHits_modes hr fun s hs => h s (.inl hs),
        resolveIn?_modes hr fun s hs => h s (.inr hs)]

theorem hits_modes (h : ∀ x ∈ w.hits f name .anything, x.1 = r) :
    w.hits f name .typeOrModule = w.hits f name .anything := by
  have hown : w.ownHits f name .typeOrModule = w.ownHits f name .anything := by
    refine ownHits_modes hr fun s hs => h (s, none) ?_
    unfold hits
    dsimp only
    split <;> simp [hs]
  unfold hits at h ⊢
  rw [hown]
  dsimp only at h ⊢
  split
  · rfl
  · rename_i hall
    rw [if_neg hall] at h
    refine congrArg _ (List.filterMap_congr fun m hm => ?_)
    refine congrArg _ (resolveIn?_modes hr fun s hs => h (s, some m) ?_)
    exact List.mem_append_right _ (mem_importHits.mpr ⟨m, hm, hs, rfl⟩)

theorem resolveAtFrame?_modes (h : ∀ s ∈ w.resolveAtFrame? f name .anything, s = r) :
    w.resolveAtFrame? f name .typeOrModule = w.resolveAtFrame? f name .anything := by
  rw [resolveAtFrame?_eq_settle] at h ⊢
  rw [resolveAtFrame?_eq_settle, hits_modes hr (eq_of_settle hr h)]

theorem resolveInFrame?_modes (h : ∀ s ∈ w.resolveInFrame? f name .anything, s = r) :
    w.resolveInFrame? f name .typeOrModule = w.resolveInFrame? f name .anything :=
  findSome?_modes (fun _ => resolveAtFrame?_modes hr) h

end Agreement

/-! ## Look-ups for types and modules -/

/-- A type or module, or the error of an alias that leads back to itself. -/
def TypeLike (s : Symbol) : Prop := s.isTypeOrModule ∨ ∃ n, s = .error (.cyclicAlias n)

theorem TypeLike.value? (h : TypeLike s) : s.value? = none := by
  rcases h with h | ⟨_, rfl⟩
  · cases s with
    | value => cases h
    | _ => rfl
  · rfl

theorem typeLike_resolveIn? (h : w.resolveIn? o name .typeOrModule = some s) : TypeLike s := by
  obtain ⟨b, hb, rfl⟩ := Option.map_eq_some_iff.mp h
  have hsuits : w.denotesTypeOrModule b = true := (Option.filter_eq_some_iff.mp hb).2
  unfold denotesTypeOrModule at hsuits
  unfold reference referTo
  split
  · rename_i hu
    rw [hu] at hsuits
    cases hsuits
  · rename_i hu
    rw [hu] at hsuits
    exact .inl hsuits
  · rename_i hu
    obtain ⟨n, rfl⟩ := unwindAt_eq_error hu
    exact .inr ⟨n, rfl⟩

theorem typeLike_resolveInType? {t : TypeId}
    (h : w.resolveInType? t name .typeOrModule = some s) : TypeLike s := by
  obtain ⟨_, _, hs⟩ := List.exists_of_findSome?_eq_some h
  exact typeLike_resolveIn? hs

theorem typeLike_resolveInMembers? {d : MemberTableId}
    (h : w.resolveInMembers? d name .typeOrModule = some s) : TypeLike s := by
  obtain ⟨_, _, hs⟩ := List.exists_of_findSome?_eq_some h
  exact typeLike_resolveIn? hs

theorem typeLike_resolveInValue? {v : Value}
    (h : w.resolveInValue? v name .typeOrModule = some s) :
    TypeLike s ∨ (s = .value (.ofDynamic v) ∧ (w.type v.type).isAny) := by
  unfold resolveInValue? at h
  split at h
  · exact .inl (typeLike_resolveInType? h)
  · dsimp only at h
    split at h
    · rename_i hany
      cases h
      exact .inr ⟨rfl, hany⟩
    · obtain ⟨s', hs', rfl⟩ := Option.map_eq_some_iff.mp h
      obtain ⟨d, _, hs'⟩ := Option.bind_eq_some_iff.mp hs'
      have hlike := typeLike_resolveInMembers? hs'
      rw [rebase, hlike.value?]
      exact .inl hlike

end SymbolTable

namespace Workspace

variable {ws : Workspace} {name : String} {wanted : Wanted} {p : Place} {r : Symbol}

/-- The value is the object through which a look-up goes: the place itself, what a symbol leads to,
or the object of the function that decides and has no local of the name. -/
inductive Consults (ws : Workspace) (name : String) (wanted : Wanted) : Place → Value → Prop where
  | value (v : Value) : Consults ws name wanted (.value v) v
  | symbol {s : Symbol} {v : Value} (h : ws.table.LeadsTo s (.value v)) :
      Consults ws name wanted (.symbol s) v
  | me {f g : FrameId} {v : Value} (hd : ws.table.Decides name wanted f g)
      (hl : ws.table.resolveIn? (.frame g) name wanted = none)
      (hv : (ws.table.frame g).me? = some v) : Consults ws name wanted (.frame f) v

/-- What a look-up for types and modules may end at. -/
inductive TypeAnswer (ws : Workspace) (name : String) : Place → Symbol → Prop where
  | typeOrModule {p : Place} {r : Symbol} (h : r.isTypeOrModule) : TypeAnswer ws name p r
  | cyclic (p : Place) (n : String) : TypeAnswer ws name p (.error (.cyclicAlias n))
  | ambiguous (f : FrameId) (modules : List ModuleId) :
      TypeAnswer ws name (.frame f) (.error (.ambiguous name modules))
  | dynamic {p : Place} {v : Value} (h : ws.Consults name .typeOrModule p v)
      (ha : (ws.table.type v.type).isAny) : TypeAnswer ws name p (.value (.ofDynamic v))
  | scope {f : FrameId} {r : Symbol} (hf : ws.current? = some f)
      (h : TypeAnswer ws name (.frame f) r) : TypeAnswer ws name .scope r

theorem TypeAnswer.of_typeLike (h : SymbolTable.TypeLike r) : ws.TypeAnswer name p r := by
  rcases h with h | ⟨n, rfl⟩
  · exact .typeOrModule h
  · exact .cyclic p n

theorem found_lookup? (h : ws.lookup? p name wanted = some r) : ws.table.Found r := by
  cases p with
  | owner o => exact SymbolTable.found_resolveIn? h
  | type t => exact SymbolTable.found_resolveInType? h
  | members d => exact SymbolTable.found_resolveInMembers? h
  | value v => exact SymbolTable.found_resolveInValue? h
  | symbol s => exact SymbolTable.found_resolveInSymbol? h
  | frame f => exact SymbolTable.found_resolveInFrame? h
  | scope =>
      obtain ⟨f, _, h⟩ := Option.bind_eq_some_iff.mp h
      exact SymbolTable.found_resolveInFrame? h

theorem lookup?_modes (hr : r.isTypeOrModule) (h : ws.lookup? p name .anything = some r) :
    ws.lookup? p name .typeOrModule = some r := by
  have honly : ∀ s ∈ ws.lookup? p name .anything, s = r := fun s hs =>
    Option.some.inj (hs.symm.trans h)
  rw [← h]
  cases p with
  | owner o => exact SymbolTable.resolveIn?_modes hr honly
  | type t => exact SymbolTable.resolveInType?_modes hr honly
  | members d => exact SymbolTable.resolveInMembers?_modes hr honly
  | value v => exact SymbolTable.resolveInValue?_modes hr honly
  | symbol s => exact SymbolTable.resolveInSymbol?_modes hr honly
  | frame f => exact SymbolTable.resolveInFrame?_modes hr honly
  | scope =>
      simp only [lookup?, resolveInScope?] at honly ⊢
      cases hf : ws.current? with
      | none => rfl
      | some f =>
          rw [hf] at honly
          exact SymbolTable.resolveInFrame?_modes hr honly

theorem typeAnswer_symbol {s : Symbol}
    (h : ws.table.resolveInSymbol? s name .typeOrModule = some r) :
    ws.TypeAnswer name (.symbol s) r := by
  unfold SymbolTable.resolveInSymbol? at h
  cases hu : ws.table.unwind s with
  | error e =>
      obtain ⟨n, rfl⟩ := SymbolTable.unwindAt_eq_error hu
      rw [hu] at h
      cases h
      exact .cyclic _ n
  | ok target =>
      rw [hu] at h
      cases target with
      | type t => exact .of_typeLike (SymbolTable.typeLike_resolveInType? h)
      | module m => exact .of_typeLike (SymbolTable.typeLike_resolveIn? h)
      | value v =>
          rcases SymbolTable.typeLike_resolveInValue? h with hs | ⟨rfl, ha⟩
          · exact .of_typeLike hs
          · exact .dynamic (.symbol (SymbolTable.leadsTo_of_unwindAt hu)) ha
      | slot _ | aliasDecl _ | error _ => cases h

theorem typeAnswer_hit {f g : FrameId} {m : Option ModuleId}
    (hd : ws.table.Decides name .typeOrModule f g)
    (h : ws.table.Hit name .typeOrModule g r m) : ws.TypeAnswer name (.frame f) r := by
  cases h with
  | imported _ _ hs => exact .of_typeLike (SymbolTable.typeLike_resolveIn? hs)
  | own h =>
      cases h with
      | ownLocal hs => exact .of_typeLike (SymbolTable.typeLike_resolveIn? hs)
      | body _ _ hs => exact .of_typeLike (SymbolTable.typeLike_resolveIn? hs)
      | module _ hs => exact .of_typeLike (SymbolTable.typeLike_resolveIn? hs)
      | me hl hv hs =>
          rcases SymbolTable.typeLike_resolveInValue? hs with hs | ⟨rfl, ha⟩
          · exact .of_typeLike hs
          · exact .dynamic (.me hd hl hv) ha

theorem typeAnswer_frame (hc : ws.table.Closed) {f : FrameId}
    (h : ws.table.resolveInFrame? f name .typeOrModule = some r) :
    ws.TypeAnswer name (.frame f) r := by
  obtain ⟨g, hd, hg⟩ := hc.exists_decides h
  rw [SymbolTable.resolveAtFrame?_eq_settle] at hg
  rcases SymbolTable.mem_of_settle hg with ⟨m, hm⟩ | rfl
  · exact typeAnswer_hit hd (hc.mem_hits.mp hm)
  · exact .ambiguous f _

theorem typeAnswer_lookup? (hc : ws.table.Closed)
    (h : ws.lookup? p name .typeOrModule = some r) : ws.TypeAnswer name p r := by
  cases p with
  | owner o => exact .of_typeLike (SymbolTable.typeLike_resolveIn? h)
  | type t => exact .of_typeLike (SymbolTable.typeLike_resolveInType? h)
  | members d => exact .of_typeLike (SymbolTable.typeLike_resolveInMembers? h)
  | value v =>
      rcases SymbolTable.typeLike_resolveInValue? h with hs | ⟨rfl, ha⟩
      · exact .of_typeLike hs
      · exact .dynamic (.value v) ha
  | symbol s => exact typeAnswer_symbol h
  | frame f => exact typeAnswer_frame hc h
  | scope =>
      obtain ⟨f, hf, h⟩ := Option.bind_eq_some_iff.mp h
      exact .scope hf (typeAnswer_frame hc h)

end Workspace

namespace Session

variable {s : Session}

/-- In every session and place, a look-up ends neither at an alias nor at a bare slot. One for types
and modules ends at such a symbol, at an error or at what only the running program knows, and at the
same symbol as one for anything if that one ends at a type or module. -/
theorem lookupModes_agree (h : Reachable (fun _ => true) s) (p : Place) (name : String) :
    (∀ wanted r, s.workspace.lookup? p name wanted = some r →
      (∀ a, r ≠ .aliasDecl a) ∧ ∀ i, r ≠ .slot i) ∧
    (∀ r, s.workspace.lookup? p name .typeOrModule = some r → s.workspace.TypeAnswer name p r) ∧
    ∀ r, r.isTypeOrModule → s.workspace.lookup? p name .anything = some r →
      s.workspace.lookup? p name .typeOrModule = some r := by
  refine ⟨fun wanted r hr => ?_, fun r => Workspace.typeAnswer_lookup? h.closed.table,
    fun r => Workspace.lookup?_modes⟩
  exact ⟨(Workspace.found_lookup? hr).not_alias, (Workspace.found_lookup? hr).not_slot⟩

/-- Three functions, each within the one before. The outer one has a class under a name and the next
one a variable; the inner one runs on an object of which nothing is known. -/
def shadowedClass : List Operation :=
  [.edit (.addClass "Point" false), .edit (.addVariable "point" false none),
    .edit (.addFrame (.activation none [])), .edit (.addFrame (.activation none [])),
    .edit (.addFrame (.activation (some (.plain .any)) [])),
    .edit (.define (.frame ⟨0⟩) "Point" (.type ⟨20⟩)),
    .edit (.define (.frame ⟨1⟩) "point" (.slot ⟨0⟩)), .enter ⟨0⟩, .enter ⟨1⟩, .enter ⟨2⟩]

theorem lookupModes_shadowedClass :
    let ws := (performAll {} shadowedClass).workspace
    let ownLocal : Symbol := .value (.reference (.frame ⟨1⟩) ⟨0⟩ .callable)
    let member : Symbol := .value (.ofDynamic (.plain .any))
    Session.Admits (fun _ => true) {} shadowedClass ∧
      ws.lookup? (.frame ⟨0⟩) "point" .anything = some (.type ⟨20⟩) ∧
      ws.lookup? (.frame ⟨0⟩) "point" .typeOrModule = some (.type ⟨20⟩) ∧
      ws.lookup? (.frame ⟨1⟩) "point" .anything = some ownLocal ∧
      ws.lookup? (.frame ⟨1⟩) "point" .typeOrModule = some (.type ⟨20⟩) ∧
      ws.lookup? .scope "point" .typeOrModule = some member ∧
      ws.TypeAnswer "point" .scope member := by
  intro ws ownLocal member
  have facts : Session.Admits (fun _ => true) {} shadowedClass ∧
      ws.lookup? (.frame ⟨0⟩) "point" .anything = some (.type ⟨20⟩) ∧
      ws.lookup? (.frame ⟨1⟩) "point" .anything = some ownLocal ∧
      ws.lookup? (.frame ⟨1⟩) "point" .typeOrModule = some (.type ⟨20⟩) ∧
      ws.lookup? .scope "point" .typeOrModule = some member := by
    decide +kernel
  obtain ⟨ha, houter, hvariable, hclass, hmember⟩ := facts
  have hr := Reachable.new.performAll ha
  obtain ⟨_, _, agree⟩ := lookupModes_agree hr (.frame ⟨0⟩) "point"
  obtain ⟨_, typed, _⟩ := lookupModes_agree hr .scope "point"
  exact ⟨ha, houter, agree _ rfl houter, hvariable, hclass, hmember, typed _ hmember⟩

end Session
end StaticSemantics
