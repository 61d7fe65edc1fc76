import StaticSemantics.Proofs.Reporting.Recording

/-!
One failure, one problem. A name that has no answer yet is either found, and then nothing is wrong
with it, or fails with one problem, and then it has no answer but an error symbol. A chain of
members hands an error symbol on from link to link. So a call for a name or a type records one
problem at most, unless some link of a chain has an answer that overtakes the failure of its base.
-/

namespace StaticSemantics

/-- The symbol is an error that amounts to a problem of its own. -/
def Symbol.isReported : Symbol → Bool
  | .error err => err.isReported
  | _ => false

theorem Symbol.isError_of_isReported {a : Symbol} (h : a.isReported) : a.isError := by
  cases a with
  | error => rfl
  | _ => cases h

/-! ## One name -/

/-- What a single name comes to: it is found and nothing is wrong, or there is one problem at its
node, with or without an error symbol to go on with. -/
inductive Outcome.Single (node : Nat) (o : Outcome Symbol) : Prop where
  | found {a : Symbol} (result : o.result = some a) (ha : a.isReported = false)
      (findings : o.findings = [])
  | failed {p : Problem} (result : o.result = none) (findings : o.findings = [⟨node, p⟩])
  | erred {err : SymbolError} {p : Problem} (result : o.result = some (.error err))
      (he : err.isReported) (findings : o.findings = [⟨node, p⟩])

namespace Workspace

variable {ws : Workspace} {e : Expr} {wanted : Wanted} {name : String}

theorem isSome_errorProblem? (node : Node) (err : SymbolError) :
    (errorProblem? node err).isSome = err.isReported := by
  cases err <;> rfl

theorem conclude_single (ws : Workspace) (e : Expr) (wanted : Wanted) (s : Symbol)
    (through : Option TypeId) : (ws.conclude e wanted s through).Single e.node.id := by
  unfold conclude
  split
  · rename_i err
    have hp := isSome_errorProblem? e.node err
    cases h : errorProblem? e.node err with
    | none =>
        rw [h] at hp
        exact .found rfl hp.symm rfl
    | some p =>
        rw [h] at hp
        exact .erred rfl hp.symm rfl
  · rename_i hs
    split
    · refine .found rfl ?_ rfl
      cases s with
      | error err => exact absurd rfl (hs err)
      | _ => rfl
    · exact .failed rfl rfl

theorem resolveLexical_single (hn : e.name? = some name)
    (ha : ws.answer? e.node.id wanted = none) :
    (ws.resolveLexical e wanted).Single e.node.id := by
  simp only [resolveLexical, ha, hn]
  split
  · exact .failed rfl rfl
  · exact conclude_single _ e wanted _ _

/-- An error symbol without a problem of its own is handed on like any other answer. -/
theorem resolveReference_single {object : Symbol} (hn : e.name? = some name)
    (ha : ws.answer? e.node.id wanted = none) (ho : object.isReported = false) :
    (ws.resolveReference object e wanted).Single e.node.id := by
  cases he : object.isError with
  | true =>
      rw [ws.resolveReference_of_isError e wanted object ha he]
      exact .found rfl ho rfl
  | false =>
      simp only [resolveReference, ha, he, hn]
      rw [if_neg Bool.false_ne_true]
      split
      · exact .failed rfl rfl
      · split
        · exact .failed rfl rfl
        · exact conclude_single _ e wanted _ _

/-- Without a target a member of a `With` block fails, whether it has an answer or not. -/
theorem resolveWithMember_single_of_none (h : ws.withTarget? = none) :
    (ws.resolveWithMember e).Single e.node.id := by
  unfold resolveWithMember
  rw [h]
  exact .failed rfl rfl

end Workspace

/-! ## Calm outcomes -/

namespace Session

variable {s : Session} {ctx : Context} {findings more : List Finding}

theorem recordable_sublist (s : Session) (ctx : Context) (findings : List Finding) :
    (s.recordable ctx findings).Sublist findings := by
  unfold recordable
  split
  · exact unreported_sublist _ _
  · exact List.nil_sublist _

theorem recordable_append_of_nil (h : s.recordable ctx findings = []) :
    s.recordable ctx (findings ++ more) = s.recordable ctx more := by
  unfold recordable at h ⊢
  split
  · rename_i hr
    rw [if_pos hr] at h
    rw [unreported_append, h]
    rfl
  · rfl

theorem recordable_congr {s' : Session} (h : s'.reported = s.reported) (ctx : Context)
    (findings : List Finding) : s'.recordable ctx findings = s.recordable ctx findings := by
  unfold recordable
  rw [h]

/-- At most one finding is recorded, and none beside a result that is no failure itself. -/
structure Calm {α : Type} (s : Session) (ctx : Context) (failed : α → Bool) (o : Outcome α) :
    Prop where
  once : (s.recordable ctx o.findings).length ≤ 1
  clean : ∀ a, o.result = some a → failed a = false → s.recordable ctx o.findings = []

namespace Calm

variable {α β : Type} {failed : α → Bool} {failed' : β → Bool} {o : Outcome α}

theorem of_nil (h : o.findings = []) : s.Calm ctx failed o := by
  have hn : s.recordable ctx o.findings = [] := List.sublist_nil.mp (h ▸ s.recordable_sublist ctx _)
  exact ⟨by simp [hn], fun _ _ _ => hn⟩

/-- A problem without a result. -/
theorem of_none (h : o.findings.length ≤ 1) (hr : o.result = none) : s.Calm ctx failed o := by
  refine ⟨Nat.le_trans (s.recordable_sublist ctx _).length_le h, fun a ha => ?_⟩
  rw [hr] at ha
  cases ha

theorem of_single {o : Outcome Symbol} {node : Nat} (h : o.Single node) :
    s.Calm ctx Symbol.isError o := by
  cases h with
  | found _ _ hf => exact .of_nil hf
  | failed hr hf => exact .of_none (by simp [hf]) hr
  | erred hr _ hf =>
      have once : o.findings.length ≤ 1 := by simp [hf]
      refine ⟨Nat.le_trans (s.recordable_sublist ctx _).length_le once, fun a ha he => ?_⟩
      rw [hr] at ha
      cases ha
      cases he

/-- After a problem has been recorded, the next step finds nothing more and mends nothing. -/
theorem andThen {next : α → Workspace → Outcome β} (h : s.Calm ctx failed o)
    (hclean : ∀ a, o.result = some a → s.recordable ctx o.findings = [] →
      s.Calm ctx failed' (next a o.workspace))
    (hfailed : ∀ a, o.result = some a → s.recordable ctx o.findings ≠ [] →
      (next a o.workspace).findings = [] ∧
        ∀ b, (next a o.workspace).result = some b → failed' b) :
    s.Calm ctx failed' (o.andThen next) := by
  unfold Outcome.andThen Outcome.before
  cases hr : o.result with
  | none =>
      refine ⟨?_, fun b hb => by cases hb⟩
      simpa using h.once
  | some a =>
      dsimp only
      by_cases hn : s.recordable ctx o.findings = []
      · obtain ⟨once, clean⟩ := hclean a hr hn
        exact ⟨by rw [recordable_append_of_nil hn]; exact once,
          fun b hb he => by rw [recordable_append_of_nil hn]; exact clean b hb he⟩
      · obtain ⟨hf, hb⟩ := hfailed a hr hn
        refine ⟨?_, fun b hr' he => ?_⟩
        · rw [hf, List.append_nil]
          exact h.once
        · rw [hb b hr'] at he
          cases he

end Calm

/-! ## Chains of members -/

/-- The member at a node overtakes its base: a problem is recorded for the base, which comes out as
an error symbol, but the node has another answer. -/
def overtakes (s : Session) (ctx : Context) (wanted : Wanted) (node : Node) (base : Expr) : Bool :=
  let r := s.resolveMember ctx base .anything
  r.1.isSome && s.problems.length < r.2.problems.length &&
    (r.2.workspace.answer? node.id wanted).any (!·.isError)

/-- Some member in a chain overtakes its base. -/
def overtaken (s : Session) (ctx : Context) (wanted : Wanted) : Expr → Bool
  | .member node base _ => s.overtaken ctx .anything base || s.overtakes ctx wanted node base
  | .parens _ inner => s.overtaken ctx wanted inner
  | _ => false

theorem resolveMember_eq_record (s : Session) (ctx : Context) (e : Expr) (wanted : Wanted) :
    s.resolveMember ctx e wanted = ((s.workspace.resolveMember wanted e).result,
      { s with workspace := (s.workspace.resolveMember wanted e).workspace }.record
        (s.recordable ctx (s.workspace.resolveMember wanted e).findings)) :=
  run_eq_record (.member e wanted) s ctx

theorem resolveType_eq_record (s : Session) (ctx : Context) (e : Expr) :
    s.resolveType ctx e = ((s.workspace.resolveType e).result,
      { s with workspace := (s.workspace.resolveType e).workspace }.record
        (s.recordable ctx (s.workspace.resolveType e).findings)) :=
  run_eq_record (.type e) s ctx

theorem overtakes_iff (s : Session) (ctx : Context) (wanted : Wanted) (node : Node) (base : Expr) :
    s.overtakes ctx wanted node base ↔
      let o := s.workspace.resolveMember .anything base
      o.result.isSome ∧ s.recordable ctx o.findings ≠ [] ∧
        ∃ a, o.workspace.answer? node.id wanted = some a ∧ a.isError = false := by
  simp [overtakes, resolveMember_eq_record, record, List.length_pos_iff, Option.any_eq_true,
    and_assoc, Workspace.answer?]

theorem calm_resolveReference (s : Session) (ctx : Context) (ws : Workspace) (object : Symbol)
    {e : Expr} {name : String} (hn : e.name? = some name) (wanted : Wanted) :
    s.Calm ctx Symbol.isError (ws.resolveReference object e wanted) := by
  cases ha : ws.answer? e.node.id wanted with
  | some a =>
      rw [ws.resolveReference_of_answer e wanted object ha]
      exact .of_nil rfl
  | none =>
      cases ho : object.isReported with
      | true =>
          have he := Symbol.isError_of_isReported ho
          rw [ws.resolveReference_of_isError e wanted object ha he]
          exact .of_nil rfl
      | false => exact .of_single (Workspace.resolveReference_single hn ha ho)

theorem calm_resolveMember (ctx : Context) (wanted : Wanted) (e : Expr)
    (h : s.overtaken ctx wanted e = false) :
    s.Calm ctx Symbol.isError (s.workspace.resolveMember wanted e) := by
  induction e generalizing wanted with
  | ident node name =>
      cases ha : s.workspace.answer? node.id wanted with
      | some a =>
          have hr := s.workspace.resolveLexical_of_answer (.ident node name) wanted ha
          exact .of_nil (by rw [Workspace.resolveMember, hr]; rfl)
      | none => exact .of_single (Workspace.resolveLexical_single rfl ha)
  | member node base name ih =>
      obtain ⟨hb, ho⟩ := Bool.or_eq_false_iff.mp h
      have calm := ih .anything hb
      refine calm.andThen (fun object _ _ => ?_) fun object hr hp => ?_
      · exact s.calm_resolveReference ctx _ object rfl wanted
      · -- the base has failed, and its error is handed on
        have herror : object.isError := by
          by_contra hne
          exact hp (calm.clean object hr (by simpa using hne))
        cases ha : (s.workspace.resolveMember .anything base).workspace.answer? node.id wanted with
        | some a =>
            rw [Workspace.resolveReference_of_answer _ (.member node base name) wanted object ha]
            refine ⟨rfl, fun b hba => ?_⟩
            cases hba
            by_contra hne
            have hover := (s.overtakes_iff ctx wanted node base).mpr
              ⟨by simp [hr], hp, a, ha, by simpa using hne⟩
            rw [hover] at ho
            cases ho
        | none =>
            rw [Workspace.resolveReference_of_isError _ (.member node base name) wanted object ha
              herror]
            refine ⟨rfl, fun b hbo => ?_⟩
            cases hbo
            exact herror
  | withMember node name =>
      cases hv : s.workspace.withTarget? with
      | none => exact .of_single (Workspace.resolveWithMember_single_of_none hv)
      | some v =>
          have hr := s.workspace.resolveWithMember_of_target (.withMember node name) hv
          rw [Workspace.resolveMember, hr]
          exact s.calm_resolveReference ctx _ _ rfl .anything
  | parens node inner ih => exact ih wanted h
  | literal | unary | binary | nullable | tuple => exact .of_nil rfl

/-! ## Types -/

mutual

/-- Some member overtakes its base in one of the names of a type expression. -/
def overtakenType (s : Session) (ctx : Context) : Expr → Bool
  | .member node base name => s.overtaken ctx .typeOrModule (.member node base name)
  | .nullable _ inner | .parens _ inner => s.overtakenType ctx inner
  | .tuple _ elements => s.overtakenTypes ctx elements
  | _ => false

/-- The elements are resolved one after the other, up to the first that fails. -/
def overtakenTypes (s : Session) (ctx : Context) : List Expr → Bool
  | [] => false
  | e :: rest =>
    s.overtakenType ctx e ||
      ((s.resolveType ctx e).1.isSome && (s.resolveType ctx e).2.overtakenTypes ctx rest)

end

theorem calm_resolveTypeName (ctx : Context) (e : Expr)
    (h : s.overtaken ctx .typeOrModule e = false) :
    s.Calm ctx (fun _ => false) (s.workspace.resolveTypeName e) := by
  have calm := calm_resolveMember ctx .typeOrModule e h
  refine calm.andThen (fun a _ _ => ?_) fun a hr hp => ?_
  · cases a with
    | type t => exact .of_nil rfl
    | error err => exact .of_nil rfl
    | module _ | slot _ | aliasDecl _ | value _ => exact .of_none (Nat.le_refl 1) rfl
  · cases a with
    | error err => exact ⟨rfl, fun b hb => by cases hb⟩
    | _ => exact absurd (calm.clean _ hr rfl) hp

theorem calm_resolveTypes (ctx : Context) {l : List Expr}
    (hl : ∀ e ∈ l, ∀ s : Session, s.overtakenType ctx e = false →
      s.Calm ctx (fun _ => false) (s.workspace.resolveType e))
    (h : s.overtakenTypes ctx l = false) :
    s.Calm ctx (fun _ => false) (s.workspace.resolveTypes l) := by
  induction l generalizing s with
  | nil => exact .of_nil rfl
  | cons e rest ih =>
      obtain ⟨he, hrest⟩ := Bool.or_eq_false_iff.mp h
      have calm := hl e List.mem_cons_self s he
      refine calm.andThen (fun t ht hp => ?_) fun t ht hp => absurd (calm.clean t ht rfl) hp
      -- nothing has been recorded so far, so that the rest is recorded as in the session before
      have hs := s.resolveType_eq_record ctx e
      rw [hp] at hs
      have hover : (s.resolveType ctx e).2.overtakenTypes ctx rest = false := by
        simpa [hs, ht] using hrest
      have calm' := ih (fun e' he' => hl e' (List.mem_cons_of_mem _ he')) hover
      have hreported : (s.resolveType ctx e).2.reported = s.reported := by
        rw [hs]
        rfl
      have hworkspace : (s.resolveType ctx e).2.workspace =
          (s.workspace.resolveType e).workspace := by
        rw [hs]
        rfl
      rw [hworkspace] at calm'
      have calm'' : s.Calm ctx (fun _ => false)
          ((s.workspace.resolveType e).workspace.resolveTypes rest) :=
        ⟨recordable_congr hreported ctx _ ▸ calm'.once,
          fun a ha hf => recordable_congr hreported ctx _ ▸ calm'.clean a ha hf⟩
      exact calm''.andThen (fun ts _ _ => .of_nil rfl)
        fun ts hts hp => absurd (calm''.clean ts hts rfl) hp

theorem calm_resolveType (ctx : Context) (e : Expr) (h : s.overtakenType ctx e = false) :
    s.Calm ctx (fun _ => false) (s.workspace.resolveType e) := by
  induction e generalizing s with
  | ident node name => exact calm_resolveTypeName ctx _ rfl
  | member node base name => exact calm_resolveTypeName ctx _ h
  | nullable node inner ih =>
      have calm := ih h
      exact calm.andThen (fun t _ _ => .of_nil rfl) fun t ht hp => absurd (calm.clean t ht rfl) hp
  | tuple node elements ih =>
      have calm := calm_resolveTypes ctx (fun e he s => ih e he) h
      exact calm.andThen (fun ts _ _ => .of_nil rfl)
        fun ts hts hp => absurd (calm.clean ts hts rfl) hp
  | parens node inner ih => exact ih h
  | withMember | literal | unary | binary => exact .of_none (Nat.le_refl 1) rfl

/-! ## Calls -/

/-- A member that overtakes its base comes out as its own answer, beside the problem of the base. -/
theorem resolveMember_of_overtakes {ctx : Context} {wanted : Wanted} {node : Node} {base : Expr}
    (h : s.overtakes ctx wanted node base) (name : String) :
    ∃ a, (s.resolveMember ctx (.member node base name) wanted).1 = some a ∧ a.isError = false ∧
      (s.resolveMember ctx (.member node base name) wanted).2.problems ≠ s.problems := by
  obtain ⟨hr, hp, a, ha, he⟩ := (s.overtakes_iff ctx wanted node base).mp h
  obtain ⟨object, hr⟩ := Option.isSome_iff_exists.mp hr
  have hm : s.workspace.resolveMember wanted (.member node base name) =
      ⟨some a, (s.workspace.resolveMember .anything base).workspace,
        (s.workspace.resolveMember .anything base).findings⟩ := by
    simp [Workspace.resolveMember, Outcome.andThen, Outcome.before, hr,
      Workspace.resolveReference_of_answer _ (.member node base name) wanted object ha,
      Workspace.answer]
  rw [resolveMember_eq_record, hm]
  exact ⟨a, rfl, he, by simpa [record] using hp⟩

/-- A call for a name or a type, over nodes that may be the same, records one problem at most, and
none if it comes to a type or to a symbol that is no error. The one exception is a chain in which a
member overtakes its base; a call for that member does come to another symbol after a problem. -/
theorem resolution_recordsOnce (s : Session) (ctx : Context) :
    (∀ (e : Expr) (wanted : Wanted), s.overtaken ctx wanted e = false →
      ∃ recorded, (s.resolveMember ctx e wanted).2.problems = s.problems ++ recorded ∧
        recorded.length ≤ 1 ∧
        ∀ a, (s.resolveMember ctx e wanted).1 = some a → a.isError = false → recorded = []) ∧
    (∀ e : Expr, s.overtakenType ctx e = false →
      ∃ recorded, (s.resolveType ctx e).2.problems = s.problems ++ recorded ∧
        recorded.length ≤ 1 ∧ ((s.resolveType ctx e).1.isSome → recorded = [])) ∧
    ∀ (node : Node) (base : Expr) (name : String) (wanted : Wanted),
      s.overtakes ctx wanted node base →
        ∃ a, (s.resolveMember ctx (.member node base name) wanted).1 = some a ∧
          a.isError = false ∧
          (s.resolveMember ctx (.member node base name) wanted).2.problems ≠ s.problems := by
  refine ⟨fun e wanted h => ?_, fun e h => ?_, fun node base name wanted h =>
    resolveMember_of_overtakes h name⟩
  · have calm := calm_resolveMember ctx wanted e h
    rw [resolveMember_eq_record]
    refine ⟨_, rfl, by simpa using calm.once, fun a ha he => ?_⟩
    rw [calm.clean a ha he]
    rfl
  · have calm := calm_resolveType ctx e h
    rw [resolveType_eq_record]
    refine ⟨_, rfl, by simpa using calm.once, fun hs => ?_⟩
    obtain ⟨t, ht⟩ := Option.isSome_iff_exists.mp hs
    rw [calm.clean t ht rfl]
    rfl

/-- A module in which an alias refers to itself. -/
def aliasLoop : List Operation :=
  [.edit (.addModule "A"), .edit (.setRoot "A" ⟨3⟩), .edit (.addAlias "b" (.module ⟨3⟩)),
    .edit (.setAliasTarget ⟨0⟩ (.aliasDecl ⟨0⟩)),
    .edit (.define (.module ⟨3⟩) "b" (.aliasDecl ⟨0⟩))]

/-- A member of that alias. -/
def aliasMember (node : Nat) : Expr :=
  .member { id := node } (.member { id := 2 } (.ident { id := 1 } "A") "b") "c"

/-- The alias fails, and its failure is handed on. If the member has the node of the module name, it
comes to the module after all, and a further member then fails once more. -/
theorem overtaken_aliasMember :
    let s : Session := performAll {} aliasLoop
    let again : Expr := .member { id := 3 } (aliasMember 1) "d"
    Session.Admits (fun _ => true) {} aliasLoop ∧
      (s.resolveMember {} (aliasMember 1) .anything).1 = some (.module ⟨3⟩) ∧
      (s.resolveMember {} (aliasMember 1) .anything).2.problems.map Problem.id = [.cyclicAlias] ∧
      (s.resolveMember {} again .anything).2.problems.map Problem.id =
        [.cyclicAlias, .undefinedProperty] := by
  decide +kernel

theorem recordsOnce_aliasMember :
    let s : Session := performAll {} aliasLoop
    let e : Expr := .member { id := 2 } (aliasMember 4) "d"
    let t : Expr := .tuple { id := 5 } [.ident { id := 6 } "A", .ident { id := 7 } "A"]
    s.overtaken {} .anything e = false ∧ s.overtakenType {} t = false ∧
      s.overtakes {} .anything { id := 1 } (.member { id := 2 } (.ident { id := 1 } "A") "b") ∧
      (∃ recorded, (s.resolveMember {} e .anything).2.problems = s.problems ++ recorded ∧
        recorded.length ≤ 1) ∧
      (s.resolveMember {} e .anything).2.problems.map Problem.id = [.cyclicAlias] ∧
      (∃ recorded, (s.resolveType {} t).2.problems = s.problems ++ recorded ∧
        recorded.length ≤ 1) ∧
      (s.resolveType {} t).2.problems.map Problem.id = [.failedToResolveStaticType] ∧
      ∃ a, (s.resolveMember {} (aliasMember 1) .anything).1 = some a ∧ a.isError = false := by
  intro s e t
  obtain ⟨hm, ht, ho⟩ := resolution_recordsOnce s {}
  have hover : s.overtaken {} .anything e = false := by decide +kernel
  have htype : s.overtakenType {} t = false := by decide +kernel
  have hlink : s.overtakes {} .anything { id := 1 }
      (.member { id := 2 } (.ident { id := 1 } "A") "b") := by decide +kernel
  obtain ⟨recorded, hp, hone, -⟩ := hm e .anything hover
  obtain ⟨recorded', hp', hone', -⟩ := ht t htype
  obtain ⟨a, ha, he, -⟩ := ho { id := 1 } _ "c" .anything hlink
  exact ⟨hover, htype, hlink, ⟨recorded, hp, hone⟩, by decide +kernel, ⟨recorded', hp', hone'⟩,
    by decide +kernel, a, ha, he⟩

end Session
end StaticSemantics
