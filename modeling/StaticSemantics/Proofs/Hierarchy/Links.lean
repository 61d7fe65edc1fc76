import Mathlib.Data.List.Nodup
import StaticSemantics.Proofs.Hierarchy.Inversion

/-!
Relations that are stored on both sides. A move takes a class out of the list of its former base and
puts it at the end of that of the new one, so that each class stands in the list of the base that it
was last put below; relating interfaces adds what is missing to the lists of both.
-/

namespace StaticSemantics

/-- What a type stores about the class hierarchy. -/
structure ClassLinks where
  superType : Option TypeId := none
  subclasses : List TypeId := []
  deriving DecidableEq

/-- What a type stores about interfaces: those that it implements, if it is a class, and if it is an
interface, the classes that implement it and the interfaces above and below. -/
structure InterfaceLinks where
  implements : List TypeId := []
  implementors : List TypeId := []
  supers : List TypeId := []
  subs : List TypeId := []
  deriving DecidableEq

/-! ## Classes -/

namespace ClassLinks

/-- The subclasses of a type that stay when a class is moved away from the super type given for
it. -/
def kept (l : TypeId → ClassLinks) (cls t : TypeId) : List TypeId :=
  if (l cls).superType = some t then (l t).subclasses.filter (· ≠ cls) else (l t).subclasses

/-- A class is moved below a base. -/
def move (l : TypeId → ClassLinks) (cls base : TypeId) : TypeId → ClassLinks := fun t =>
  { superType := if t = cls then some base else (l t).superType
    subclasses := if t = base then kept l cls t ++ [cls] else kept l cls t }

/-- The subclasses of a type are the classes that were last put below it. -/
structure Follow (l : TypeId → ClassLinks) (last : TypeId → Option TypeId) : Prop where
  nodup : ∀ b, (l b).subclasses.Nodup
  mem : ∀ b c, c ∈ (l b).subclasses ↔ last c = some b
  superType : ∀ b c, last c = some b → (l c).superType = some b

namespace Follow

variable {l : TypeId → ClassLinks} {last : TypeId → Option TypeId}

/-- A type is added of which nothing was stored. -/
theorem add (h : Follow l last) {n : TypeId} (hn : (l n).superType = none)
    {l' : TypeId → ClassLinks} (hold : ∀ t, t ≠ n → (l' t).superType = (l t).superType)
    (hsub : ∀ t, (l' t).subclasses = (l t).subclasses) : Follow l' last := by
  refine ⟨fun b => hsub b ▸ h.nodup b, fun b c => hsub b ▸ h.mem b c, fun b c hc => ?_⟩
  have hb := h.superType b c hc
  rw [hold c]
  · exact hb
  · intro hcn
    rw [hcn, hn] at hb
    cases hb

/-- Only the super type given for a class lists it, and there it is taken out. -/
theorem not_mem_kept (h : Follow l last) (cls t : TypeId) : cls ∉ kept l cls t := by
  unfold kept
  split
  · simp
  · rename_i hne
    rw [h.mem]
    exact fun hlast => hne (h.superType t cls hlast)

theorem mem_kept (h : Follow l last) {c cls : TypeId} (hc : c ≠ cls) (t : TypeId) :
    c ∈ kept l cls t ↔ last c = some t := by
  rw [← h.mem]
  unfold kept
  split
  · simp [hc]
  · rfl

theorem nodup_kept (h : Follow l last) (cls t : TypeId) : (kept l cls t).Nodup := by
  unfold kept
  split
  · exact (h.nodup t).filter _
  · exact h.nodup t

theorem move (h : Follow l last) (cls base : TypeId) :
    Follow (ClassLinks.move l cls base) fun c => if c = cls then some base else last c := by
  refine ⟨fun b => ?_, fun b c => ?_, fun b c hc => ?_⟩
  · by_cases hb : b = base
    · subst hb
      simp only [ClassLinks.move, if_true]
      exact (h.nodup_kept cls b).append (List.nodup_singleton cls)
        (List.disjoint_singleton.mpr (h.not_mem_kept cls b))
    · simp only [ClassLinks.move, if_neg hb]
      exact h.nodup_kept cls b
  · by_cases hc : c = cls
    · subst hc
      simp only [ClassLinks.move, if_true, Option.some.injEq]
      by_cases hb : b = base
      · simp [hb]
      · rw [if_neg hb]
        exact iff_of_false (h.not_mem_kept c b) fun e => hb e.symm
    · simp only [ClassLinks.move, if_neg hc]
      by_cases hb : b = base
      · simp [hb, hc, h.mem_kept hc base]
      · rw [if_neg hb]
        exact h.mem_kept hc b
  · by_cases hcc : c = cls
    · simpa [ClassLinks.move, hcc] using hc
    · rw [if_neg hcc] at hc
      simpa [ClassLinks.move, hcc] using h.superType b c hc

end Follow
end ClassLinks

/-! ## Interfaces -/

namespace SymbolTable

theorem nodup_addLast {α : Type} [DecidableEq α] {l : List α} (h : l.Nodup) (x : α) :
    (addLast l x).Nodup := by
  unfold addLast
  split
  · exact h
  · rename_i hx
    refine h.append (List.nodup_singleton x) (List.disjoint_singleton.mpr ?_)
    simpa using hx

theorem nodup_foldl_addLast {α : Type} [DecidableEq α] {l : List α} (h : l.Nodup)
    (m : List α) : (m.foldl addLast l).Nodup := by
  induction m generalizing l with
  | nil => exact h
  | cons x m ih => exact ih (nodup_addLast h x)

end SymbolTable

open SymbolTable (addLast mem_addLast mem_foldl_addLast nodup_addLast nodup_foldl_addLast)

namespace InterfaceLinks

/-- A class comes to implement an interface. -/
def implement (l : TypeId → InterfaceLinks) (cls i : TypeId) : TypeId → InterfaceLinks := fun t =>
  { l t with
    implements := if t = cls then (l t).implements ++ [i] else (l t).implements
    implementors := if t = i then addLast (l t).implementors cls else (l t).implementors }

/-- An interface comes to extend another one and all that it extends. -/
def link (l : TypeId → InterfaceLinks) (j i : TypeId) : TypeId → InterfaceLinks := fun t =>
  { l t with
    supers := if t = j then (i :: (l i).supers).foldl addLast (l t).supers else (l t).supers
    subs := if t = i then addLast (l t).subs j else (l t).subs }

/-- The two sides of each relation agree. -/
structure Agree (l : TypeId → InterfaceLinks) : Prop where
  implementors : ∀ c i, c ∈ (l i).implementors ↔ i ∈ (l c).implements
  supers : ∀ i j, j ∈ (l i).subs → i ∈ (l j).supers
  nodup : ∀ t, (l t).implements.Nodup ∧ (l t).implementors.Nodup ∧ (l t).supers.Nodup ∧
    (l t).subs.Nodup

namespace Agree

variable {l : TypeId → InterfaceLinks}

theorem implement (h : Agree l) {cls i : TypeId} (hi : i ∉ (l cls).implements) :
    Agree (InterfaceLinks.implement l cls i) := by
  refine ⟨fun c k => ?_, h.supers, fun t => ?_⟩
  · have hold := h.implementors c k
    simp only [InterfaceLinks.implement]
    by_cases hk : k = i <;> by_cases hc : c = cls
    · simp [hk, hc, mem_addLast]
    · rw [if_pos hk, if_neg hc, mem_addLast, hold]
      simp [hc]
    · rw [if_neg hk, if_pos hc, hold, List.mem_append, List.mem_singleton]
      simp [hk]
    · rw [if_neg hk, if_neg hc]
      exact hold
  · obtain ⟨himpl, hors, hrest⟩ := h.nodup t
    refine ⟨?_, ?_, hrest⟩
    · by_cases ht : t = cls
      · subst ht
        simp only [InterfaceLinks.implement, if_true]
        exact himpl.append (List.nodup_singleton i) (List.disjoint_singleton.mpr hi)
      · simpa only [InterfaceLinks.implement, if_neg ht] using himpl
    · by_cases ht : t = i
      · simpa only [InterfaceLinks.implement, if_pos ht] using nodup_addLast hors cls
      · simpa only [InterfaceLinks.implement, if_neg ht] using hors

theorem link (h : Agree l) (j i : TypeId) : Agree (InterfaceLinks.link l j i) := by
  refine ⟨h.implementors, fun a b hb => ?_, fun t => ?_⟩
  · -- an entry is new only in the list of `i`, and then `i` is now above `j`
    have old : b ∈ (l a).subs → a ∈ (InterfaceLinks.link l j i b).supers := by
      intro hab
      have ha := h.supers a b hab
      simp only [InterfaceLinks.link]
      split
      · exact mem_foldl_addLast.mpr (.inl ha)
      · exact ha
    simp only [InterfaceLinks.link] at hb
    split at hb
    · rename_i hai
      rcases mem_addLast.mp hb with hb | hb
      · exact old hb
      · simp only [InterfaceLinks.link, if_pos hb, mem_foldl_addLast, List.mem_cons]
        exact .inr (.inl hai)
    · exact old hb
  · obtain ⟨himpl, hors, hsup, hsub⟩ := h.nodup t
    refine ⟨himpl, hors, ?_, ?_⟩
    · simp only [InterfaceLinks.link]
      split
      · exact nodup_foldl_addLast hsup _
      · exact hsup
    · simp only [InterfaceLinks.link]
      split
      · exact nodup_addLast hsub j
      · exact hsub

end Agree
end InterfaceLinks

end StaticSemantics
