import Mathlib.Data.List.TakeWhile
import StaticSemantics.Proofs.Hierarchy.Edits
import StaticSemantics.Proofs.Members.Ownership
import StaticSemantics.Proofs.Search

/-!
Inheritance loses nothing. The member tables of a class and its super classes follow each other as
the classes do, so that whatever a look-up finds from a super class, the same look-up finds from the
class, there or nearer.
-/

namespace StaticSemantics

open Relation

/-- The elements that a walk passes before the test first fails follow each other and pass it. -/
theorem Walks.reach_of_mem_takeWhile {α : Type} {next : α → Option α} {walk : Nat → α → List α}
    (h : Walks next walk) {p : α → Bool} {n : Nat} {x y : α}
    (hy : y ∈ (walk n x).tail.takeWhile p) :
    ReflTransGen (fun a b => next a = some b ∧ p b) x y := by
  induction n generalizing x with
  | zero =>
      rw [h.zero] at hy
      cases hy
  | succ n ih =>
      rw [h.succ, List.tail_cons] at hy
      cases hn : next x with
      | none =>
          rw [hn] at hy
          cases hy
      | some x' =>
          have hhead : walk n x' = x' :: (walk n x').tail := by
            cases n with
            | zero => rw [h.zero]; rfl
            | succ n => rw [h.succ]; rfl
          rw [hn, Option.map_some, Option.getD_some, hhead, List.takeWhile_cons] at hy
          by_cases hp : p x'
          · rw [if_pos hp] at hy
            refine .head ⟨hn, hp⟩ ?_
            cases hy with
            | head => exact .refl
            | tail _ hy => exact ih hy
          · rw [if_neg hp] at hy
            cases hy

namespace SymbolTable

variable {w : SymbolTable} {cls base : TypeId}

theorem reach_of_mem_superClasses (hb : base ∈ w.superClasses cls) :
    ReflTransGen (fun a b => w.superType? a = some b ∧ (w.type b).isClass) cls base :=
  w.walks_superChainAt.reach_of_mem_takeWhile hb

theorem withoutNull_of_isClass (hc : (w.type cls).isClass) : w.withoutNull cls = cls := by
  obtain ⟨info, hk⟩ := exists_of_isClass hc
  simp [withoutNull, TypeDecl.wraps?, hk]

namespace Paired

theorem members_of_isClass (h : w.Paired) (hc : (w.type cls).isClass) :
    ∃ d, (w.type cls).members = some d := by
  obtain ⟨info, hk⟩ := exists_of_isClass hc
  exact h.members_of_holds (by rw [hk]; rfl)

/-- A class above another one is the super type given for it, since `Any` is no class. -/
theorem superType_of_isClass (h : w.Paired) (hc : (w.type cls).isClass)
    (hs : w.superType? cls = some base) (hb : (w.type base).isClass) :
    (w.type cls).superType = some base := by
  simp only [superType?, withoutNull_of_isClass hc] at hs
  split at hs
  · cases hs
  · cases hx : (w.type cls).superType with
    | some s =>
        rw [hx] at hs
        exact hs
    | none =>
        rw [hx] at hs
        cases hs
        obtain ⟨d, hd⟩ := h.members_of_isClass hb
        rw [Option.getD_none, h.any] at hd
        cases hd

/-- The tables of a class and of a class directly above it follow each other. -/
theorem inherited?_of_superType? (h : w.Paired) (hc : (w.type cls).isClass)
    (hs : w.superType? cls = some base) (hb : (w.type base).isClass) {d e : MemberTableId}
    (hd : (w.type cls).members = some d) (he : (w.type base).members = some e) :
    w.inherited? d = some e := by
  rw [inherited?, h.inherits cls d hd, superMembers?, h.superType_of_isClass hc hs hb]
  exact he

theorem reach_members (h : w.Paired) (hc : (w.type cls).isClass)
    (hr : ReflTransGen (fun a b => w.superType? a = some b ∧ (w.type b).isClass) cls base)
    {d e : MemberTableId} (hd : (w.type cls).members = some d)
    (he : (w.type base).members = some e) :
    ReflTransGen (fun a b => w.inherited? a = some b) d e := by
  induction hr using ReflTransGen.head_induction_on generalizing d with
  | refl =>
      rw [hd] at he
      cases he
      exact .refl
  | head hab _ ih =>
      obtain ⟨d', hd'⟩ := h.members_of_isClass hab.2
      exact .head (h.inherited?_of_superType? hc hab.1 hab.2 hd hd') (ih hab.2 hd')

end Paired

namespace Closed

/-- A search through member tables also succeeds from a table further down. -/
theorem isSome_findSome?_memberChain (h : w.Closed) {β : Type} {d e : MemberTableId}
    {test : MemberTableId → Option β} (hr : ReflTransGen (fun a b => w.inherited? a = some b) d e)
    (hs : ((w.memberChain e).findSome? test).isSome) :
    ((w.memberChain d).findSome? test).isSome := by
  obtain ⟨y, hy⟩ := Option.isSome_iff_exists.mp hs
  obtain ⟨z, hz⟩ := FirstFound.exists_of_reach hr (h.findSome?_memberChain.mp hy)
  exact Option.isSome_iff_exists.mpr ⟨z, h.findSome?_memberChain.mpr hz⟩

theorem isSome_findSome?_superChain (h : w.Closed) {β : Type} {t u : TypeId}
    {test : TypeId → Option β} (hr : ReflTransGen (fun a b => w.superType? a = some b) t u)
    (hs : ((w.superChain u).findSome? test).isSome) :
    ((w.superChain t).findSome? test).isSome := by
  obtain ⟨y, hy⟩ := Option.isSome_iff_exists.mp hs
  obtain ⟨z, hz⟩ := FirstFound.exists_of_reach hr (h.findSome?_superChain.mp hy)
  exact Option.isSome_iff_exists.mpr ⟨z, h.findSome?_superChain.mpr hz⟩

end Closed

/-- What look-ups find from `base` they find from `cls` too, each through its own member table. -/
structure InheritsFrom (w : SymbolTable) (cls base : TypeId) (d e : MemberTableId) : Prop where
  members : (w.type cls).members = some d
  baseMembers : (w.type base).members = some e
  instance? : ∀ name wanted, (w.resolveInMembers? e name wanted).isSome →
    (w.resolveInMembers? d name wanted).isSome
  static? : ∀ name wanted, (w.resolveInType? base name wanted).isSome →
    (w.resolveInType? cls name wanted).isSome
  operator? : ∀ op, (w.findOperator? e op).isSome → (w.findOperator? d op).isSome

end SymbolTable

namespace Session

/-- In every session, also one that forces super types, types and member tables are paired, and a
class inherits from each of its super classes. -/
theorem inheritance_of_reachable {s : Session} (h : Reachable (fun _ => true) s) :
    s.table.Paired ∧ ∀ cls base, (s.table.type cls).isClass → base ∈ s.table.superClasses cls →
      ∃ d e, s.table.InheritsFrom cls base d e := by
  have hp := h.paired
  have hclosed := h.closed.table
  refine ⟨hp, fun cls base hc hb => ?_⟩
  have hr := SymbolTable.reach_of_mem_superClasses hb
  have hbase := List.mem_takeWhile_imp (p := fun t => (s.table.type t).isClass) hb
  obtain ⟨d, hd⟩ := hp.members_of_isClass hc
  obtain ⟨e, he⟩ := hp.members_of_isClass hbase
  have hde := hp.reach_members hc hr hd he
  refine ⟨d, e, hd, he, fun name wanted => ?_, fun name wanted => ?_, fun op => ?_⟩
  · exact hclosed.isSome_findSome?_memberChain hde
  · exact hclosed.isSome_findSome?_superChain (ReflTransGen.mono (fun _ _ hab => hab.1) _ _ hr)
  · exact hclosed.isSome_findSome?_memberChain hde

/-- A class put below another one by force, and a class that extends it; the one on top has an
instance member, a static member and an operator. -/
def sampleInheritance : List Operation :=
  [.edit (.addClass "Vehicle" false), .edit (.addClass "Car" false), .edit (.addClass "Van" false),
    .edit (.setSuperType ⟨21⟩ ⟨20⟩), .edit (.extendClass ⟨22⟩ ⟨21⟩),
    .edit (.addSignature { params := [⟨"other", ⟨20⟩⟩], returns := ⟨20⟩ }),
    .edit (.addMethod "Join" ⟨0⟩), .edit (.define (.members ⟨16⟩) "Join" (.slot ⟨0⟩)),
    .edit (.define (.type ⟨20⟩) "Make" (.slot ⟨0⟩)), .edit (.addOperator ⟨20⟩ .add ⟨0⟩)]

theorem inheritance_sampleInheritance :
    let w := (performAll {} sampleInheritance).table
    Session.Admits (fun _ => true) {} sampleInheritance ∧ ⟨20⟩ ∈ w.superClasses ⟨22⟩ ∧
      (w.resolveInMembers? ⟨16⟩ "join" .anything).isSome ∧
      (w.resolveInType? ⟨20⟩ "make" .anything).isSome ∧ (w.findOperator? ⟨16⟩ .add).isSome ∧
      w.Paired ∧ ∃ d e, w.InheritsFrom ⟨22⟩ ⟨20⟩ d e := by
  have h : Session.Admits (fun _ => true) {} sampleInheritance := by decide +kernel
  have hb : ⟨20⟩ ∈ (performAll {} sampleInheritance).table.superClasses ⟨22⟩ := by decide +kernel
  obtain ⟨hp, hi⟩ := inheritance_of_reachable (Reachable.new.performAll h)
  exact ⟨h, hb, by decide +kernel, by decide +kernel, by decide +kernel, hp,
    hi _ _ (by decide +kernel) hb⟩

end Session
end StaticSemantics
