import StaticSemantics.Proofs.Members.Flattening
import StaticSemantics.Proofs.Rendering.TypeNames
import StaticSemantics.Proofs.Scope.Ambiguity

/-!
Extension of interfaces as a merge. An interface that extends another one keeps what its table
binds and takes the rest over from the base. What both bind to different symbols is reported, key by
key in the order of the base. Nothing else changes: neither the table of the base nor any other, nor
where a symbol is defined.
-/

namespace StaticSemantics

namespace SymbolTable

variable {w : SymbolTable} {t base : TypeId} {d e : MemberTableId} {source target : Bindings}

/-- Where a symbol is defined; values and errors are defined nowhere. -/
def definedIn? (w : SymbolTable) : Symbol → Option Owner
  | .type t => (w.type t).definedIn
  | .module m => (w.module m).definedIn
  | .slot s => (w.slot s).definedIn
  | .aliasDecl a => (w.aliasDecl a).definedIn
  | .value _ | .error _ => none

/-- The problem with a key that both tables bind, to symbols that differ in more than the sign of a
zero. -/
def clash? (w : SymbolTable) (source target : Bindings) (k : Key) : Option SymbolError :=
  match source.get? k, target.get? k with
  | some s, some existing =>
    if existing.unsignZero = s.unsignZero then none
    else some (.duplicate (w.memberName k s) existing)
  | _, _ => none

/-- Where there are no NaNs, a problem is reported for each key that clashes, in the order of the
source. -/
theorem conflicts_eq (hn : ∀ e ∈ target.entries, e.2.hasNaN = false) :
    w.conflicts source target = source.keys.filterMap (w.clash? source target) := by
  rw [Bindings.keys, List.filterMap_map]
  refine List.filterMap_congr fun e he => ?_
  obtain ⟨k, s⟩ := e
  have hk : source.get? k = some s := Bindings.get?_eq_some_iff.mpr he
  simp only [Function.comp_apply, clash?, hk]
  cases ht : target.get? k with
  | none => rfl
  | some existing =>
      have same : existing.same s = true ↔ existing.unsignZero = s.unsignZero :=
        Symbol.same_iff (hn _ (Bindings.get?_eq_some_iff.mp ht))
      simp only [same]

/-- The table `target` takes over from `source` what it does not have, and these problems are
reported. -/
structure MergedInto (w w' : SymbolTable) (source target : MemberTableId)
    (problems : List SymbolError) : Prop where
  distinct : source ≠ target
  names : ∀ k, (w'.memberTable target).names.get? k =
    ((w.memberTable target).names.get? k).or ((w.memberTable source).names.get? k)
  keys : (w'.memberTable target).names.keys =
    (w.memberTable source).names.keys.foldl addLast (w.memberTable target).names.keys
  operators : ∀ op, (w'.memberTable target).operator? op =
    ((w.memberTable target).operator? op).or ((w.memberTable source).operator? op)
  problems : problems = (w.memberTable source).names.keys.filterMap
    (w.clash? (w.memberTable source).names (w.memberTable target).names)
  others : ∀ d, d ≠ target → w'.memberTable d = w.memberTable d
  elsewhere : ∀ o, o ≠ .members target → w'.bindings o = w.bindings o
  nameTable : w'.nameTable = w.nameTable
  definedIn : ∀ s, w'.definedIn? s = w.definedIn? s

theorem isSubtype_self (w : SymbolTable) (t : TypeId) : w.isSubtype t t := by
  cases hn : w.types.size <;> simp [isSubtype, reaches, hn]

/-- Linking two interfaces changes only what is stored of interfaces. -/
theorem congr_type_linkInterfaces {α : Type} {f : TypeDecl → α}
    (hf : ∀ change x, f (TypeDecl.modifyInterface change x) = f x) (w : SymbolTable)
    (t base u : TypeId) : f ((w.linkInterfaces t base).type u) = f (w.type u) :=
  (Arena.congr_get_modify _ base (hf _) u).trans (Arena.congr_get_modify _ t (hf _) u)

theorem definedIn_linkInterfaces (w : SymbolTable) (t base u : TypeId) :
    ((w.linkInterfaces t base).type u).definedIn = (w.type u).definedIn := by
  refine congr_type_linkInterfaces (fun change x => ?_) w t base u
  unfold TypeDecl.modifyInterface
  split <;> rfl

theorem statics_linkInterfaces (w : SymbolTable) (t base u : TypeId) :
    ((w.linkInterfaces t base).type u).statics = (w.type u).statics := by
  refine congr_type_linkInterfaces (fun change x => ?_) w t base u
  unfold TypeDecl.modifyInterface
  split <;> rfl

/-- The first of the two types that is no interface is named. -/
theorem extendInterface_of_not_isInterface
    (h : ((w.type t).isInterface && (w.type base).isInterface) = false) :
    w.extendInterface t base = (.error (.notAnInterface
      (w.typeText (if (w.type t).isInterface then base else t))), w) := by
  unfold extendInterface
  cases ht : (w.type t).isInterface with
  | false => simp [ht]
  | true =>
      rw [ht, Bool.true_and] at h
      simp [ht, h]

theorem extendInterface_of_related (ht : (w.type t).isInterface) (hb : (w.type base).isInterface)
    (hr : w.isSubtype base t || w.isSubtype t base) :
    w.extendInterface t base = (.ok [], w) := by
  simp [extendInterface, ht, hb, hr]

/-- Of two interfaces that are not related, one takes over what the other has. -/
theorem Paired.mergedInto (h : w.Paired) (hn : w.NanFree)
    (hr : (w.isSubtype base t || w.isSubtype t base) = false)
    (hd : (w.type base).members = some d) (he : (w.type t).members = some e) :
    w.MergedInto (w.takeOver t base d e) d e
      (w.conflicts (w.memberTable d).names (w.memberTable e).names) := by
  have merged : (w.takeOver t base d e).memberTable e =
      mergeMembers (w.memberTable d) (w.memberTable e) :=
    (h.memberTable_takeOver he d e).trans (if_pos rfl)
  have others d' (hd' : d' ≠ e) : (w.takeOver t base d e).memberTable d' = w.memberTable d' :=
    (h.memberTable_takeOver he d d').trans (if_neg hd')
  have noNaN : ∀ x ∈ (w.memberTable e).names.entries, x.2.hasNaN = false :=
    fun x hx => hn x.2 (.name (.members e) x.1 hx)
  refine ⟨?_, fun k => ?_, ?_, fun op => ?_, ?_, others, fun o ho => ?_, rfl, fun s => ?_⟩
  · rintro rfl
    have hsame : t = base := ((h.owner t d).mp he).2.symm.trans ((h.owner base d).mp hd).2
    rw [hsame, isSubtype_self] at hr
    cases hr
  · rw [merged, names_mergeMembers, get?_mergeNames]
  · rw [merged, names_mergeMembers, keys_mergeNames]
  · rw [merged, operator?_mergeMembers]
  · exact conflicts_eq noNaN
  · cases o with
    | members d' =>
        have hne : d' ≠ e := fun hed => ho (hed ▸ rfl)
        exact congrArg MemberTable.names (others d' hne)
    | type u => exact statics_linkInterfaces w t base u
    | module _ | frame _ => rfl
  · cases s with
    | type u => exact definedIn_linkInterfaces w t base u
    | module _ | slot _ | aliasDecl _ | value _ | error _ => rfl

end SymbolTable

namespace Session

variable {s : Session}

/-- Two interfaces that share a method and have another one each under the same name. The first has
a third method and an operator. -/
def sampleStreams : List Operation :=
  [.edit (.addInterface "Reader"), .edit (.addInterface "Stream"),
    .edit (.addSignature { params := [⟨"other", .object⟩], returns := .object }),
    .edit (.addMethod "Close" ⟨0⟩), .edit (.addMethod "Read" ⟨0⟩), .edit (.addMethod "Seek" ⟨0⟩),
    .edit (.addMethod "Read" ⟨0⟩),
    .edit (.define (.members ⟨16⟩) "Close" (.slot ⟨0⟩)),
    .edit (.define (.members ⟨16⟩) "Read" (.slot ⟨1⟩)),
    .edit (.define (.members ⟨16⟩) "Seek" (.slot ⟨2⟩)),
    .edit (.addOperator ⟨20⟩ .add ⟨2⟩),
    .edit (.define (.members ⟨17⟩) "Read" (.slot ⟨3⟩)),
    .edit (.bind (.members ⟨17⟩) "Close" (.slot ⟨0⟩))]

end Session
end StaticSemantics
