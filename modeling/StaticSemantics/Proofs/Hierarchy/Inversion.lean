import StaticSemantics.Hierarchy

/-!
What the operations that relate types come to: nothing when they are refused, and else the changes
listed here. Later proofs about the hierarchy start from these statements and do not unfold the
operations again.
-/

namespace StaticSemantics.SymbolTable

variable {w : SymbolTable}

theorem mem_addLast {α : Type} [DecidableEq α] {l : List α} {x y : α} :
    y ∈ addLast l x ↔ y ∈ l ∨ y = x := by
  unfold addLast
  split
  · exact ⟨.inl, fun h => h.elim id fun e => by simpa [e] using ‹l.contains x = true›⟩
  · simp

theorem mem_foldl_addLast {α : Type} [DecidableEq α] {l m : List α} {y : α} :
    y ∈ m.foldl addLast l ↔ y ∈ l ∨ y ∈ m := by
  induction m generalizing l with
  | nil => simp
  | cons x m ih =>
      simp only [List.foldl_cons, ih, mem_addLast, List.mem_cons]
      exact or_assoc

theorem extendClass_refused {cls base : TypeId} {e : HierarchyError}
    (h : (w.extendClass cls base).1 = .error e) : (w.extendClass cls base).2 = w := by
  revert h
  unfold extendClass
  split
  · exact fun _ => rfl
  · split
    · exact fun _ => rfl
    · split
      · exact fun _ => rfl
      · split
        · exact fun _ => rfl
        · exact nofun

/-- What a successful extension of a class consists of. -/
theorem extendClass_eq_ok {cls base : TypeId} {w' : SymbolTable}
    (hw : w.extendClass cls base = (.ok (), w')) :
    (w.type cls).isClass ∧ (∃ info, (w.type base).class? = some info ∧ info.sealed = false) ∧
      w.isSubtype base cls = false ∧
      w' = ((w.detachSubclass cls).setSuperType cls base).modifyType base
        (TypeDecl.modifyClass fun info =>
          { info with subclasses := info.subclasses ++ [cls] }) := by
  unfold extendClass at hw
  split at hw
  · cases hw
  · rename_i hc
    split at hw
    · cases hw
    · rename_i info hb
      split at hw
      · cases hw
      · rename_i hs
        split at hw
        · cases hw
        · rename_i hsub
          cases hw
          exact ⟨by simpa using hc, ⟨info, hb, by simpa using hs⟩, by simpa using hsub, rfl⟩

theorem implement_refused {cls interface : TypeId} {e : HierarchyError}
    (h : (w.implement cls interface).1 = .error e) : (w.implement cls interface).2 = w := by
  revert h
  unfold implement
  split
  · exact fun _ => rfl
  · split
    · exact fun _ => rfl
    · split <;> exact nofun

/-- What a successful implementation of an interface consists of. -/
theorem implement_eq_ok {cls interface : TypeId} {w' : SymbolTable}
    (hw : w.implement cls interface = (.ok (), w')) :
    (w.type interface).isInterface ∧ ∃ info, (w.type cls).class? = some info ∧
      ((interface ∈ info.implements ∧ w' = w) ∨
        (interface ∉ info.implements ∧
          w' = (w.modifyType cls (TypeDecl.modifyClass fun info =>
              { info with implements := info.implements ++ [interface] })).modifyType interface
            (TypeDecl.modifyInterface fun info =>
              { info with implementors := addLast info.implementors cls }))) := by
  unfold implement at hw
  split at hw
  · cases hw
  · rename_i hi
    split at hw
    · cases hw
    · rename_i info hc
      refine ⟨by simpa using hi, info, hc, ?_⟩
      split at hw
      · rename_i hm
        cases hw
        exact .inl ⟨by simpa using hm, rfl⟩
      · rename_i hm
        cases hw
        exact .inr ⟨by simpa using hm, rfl⟩

theorem extendInterface_refused {interface base : TypeId} {e : HierarchyError}
    (h : (w.extendInterface interface base).1 = .error e) :
    (w.extendInterface interface base).2 = w := by
  revert h
  unfold extendInterface
  split
  · exact fun _ => rfl
  · split
    · exact nofun
    · dsimp only
      split <;> exact nofun

/-- What a successful extension of an interface consists of: nothing if the two are related, and
else the link between them together with the members that are copied. -/
theorem extendInterface_eq_ok {interface base : TypeId} {problems : List SymbolError}
    {w' : SymbolTable} (hw : w.extendInterface interface base = (.ok problems, w')) :
    (w.type interface).isInterface ∧ (w.type base).isInterface ∧
      (((w.isSubtype base interface || w.isSubtype interface base) = true ∧
          problems = [] ∧ w' = w) ∨
        ((w.isSubtype base interface || w.isSubtype interface base) = false ∧
          (w' = w.linkInterfaces interface base ∨
            ∃ d e, (w.type base).members = some d ∧ (w.type interface).members = some e ∧
              w' = (w.linkInterfaces interface base).modifyMemberTable e fun m =>
                mergeOperators (w.memberTable d)
                  { m with names := mergeNames (w.memberTable d).names m.names }))) := by
  unfold extendInterface at hw
  split at hw
  · cases hw
  · rename_i hf
    simp only [List.find?_eq_none, List.mem_cons, List.not_mem_nil, or_false, forall_eq_or_imp,
      forall_eq, Bool.not_eq_true', Bool.not_eq_false] at hf
    refine ⟨hf.1, hf.2, ?_⟩
    split at hw
    · rename_i hr
      cases hw
      exact .inl ⟨hr, rfl, rfl⟩
    · rename_i hr
      refine .inr ⟨by simpa using hr, ?_⟩
      split at hw
      · rename_i d e hd he
        cases hw
        exact .inr ⟨d, e, hd, he, rfl⟩
      · cases hw
        exact .inl rfl

/-- What holds of a table, and of the one that an operation leads to when it succeeds, holds after
the operation, if it leaves the table as it is when it is refused. -/
theorem settled_induction {ε α : Type} {P : SymbolTable → Prop} {r : Except ε α × SymbolTable}
    (refused : ∀ e, r.1 = .error e → r.2 = w) (hw : P w) (hr : ∀ a w', r = (.ok a, w') → P w') :
    P r.2 := by
  obtain ⟨r, w'⟩ := r
  cases r with
  | error e => exact refused e rfl ▸ hw
  | ok a => exact hr a w' rfl

end StaticSemantics.SymbolTable
