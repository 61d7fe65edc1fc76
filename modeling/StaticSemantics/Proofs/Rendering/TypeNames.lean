import Mathlib.Data.Finset.Sum
import StaticSemantics.Proofs.Closure.Answers
import StaticSemantics.Proofs.Hierarchy.Acyclic
import StaticSemantics.Rendering.TypeText

/-!
Texts of types. The text of a type contains those of the types that it is made of, and of the types
and modules that it is defined in. Where this leads from no type or module back to itself, a text
comes to its end, and the bound on its depth cuts nothing off.
-/

namespace StaticSemantics.SymbolTable

open Relation

variable {w : SymbolTable}

/-- The type or module whose text stands before a name. -/
def textOwner? : Option Owner → Option (TypeId ⊕ ModuleId)
  | some (.module m) => some (.inr m)
  | some (.type t) => some (.inl t)
  | _ => none

/-- The types and modules whose texts the text of a type or module is made of. -/
def textParts (w : SymbolTable) : TypeId ⊕ ModuleId → List (TypeId ⊕ ModuleId)
  | .inl t =>
    match (w.type t).kind with
    | .any | .empty | .nothing | .null => []
    | .nullable u => [.inl u]
    | .tuple elements => elements.map .inl
    | .cls _ | .struct | .enum _ | .interface _ =>
      if (w.type t).definedIn = some (.module .globalModule) then []
      else (textOwner? (w.type t).definedIn).toList
  | .inr m => (textOwner? (w.module m).definedIn).toList

/-- The text of a type, given those of types and of what stands before a name. -/
def writeType (w : SymbolTable) (type : TypeId → String) (owner : Option Owner → String)
    (t : TypeId) : String :=
  match (w.type t).kind with
  | .any => "Any"
  | .empty => "Empty"
  | .nothing => "Nothing"
  | .null => "Null"
  | .nullable u => type u ++ "?"
  | .tuple elements => "(" ++ ", ".intercalate (elements.map fun e => type e) ++ ")"
  | .cls _ | .struct | .enum _ | .interface _ =>
    if (w.type t).definedIn = some (.module .globalModule) then (w.type t).name.getD ""
    else qualified (owner (w.type t).definedIn) ((w.type t).name.getD "")

/-- What stands before a name, given the texts of types and of what stands before a name. -/
def writeOwner (w : SymbolTable) (type : TypeId → String) (owner : Option Owner → String) :
    Option Owner → String
  | some (.module m) => qualified (owner (w.module m).definedIn) (w.module m).name
  | some (.type t) => type t
  | _ => ""

/-- What stands before a name, to the depth of the text of a type. -/
def ownerText (w : SymbolTable) (o : Option Owner) : String :=
  w.ownerTextAt (2 * (w.types.size + w.modules.size) + 2) o

/-- Texts make no call that leads back to itself, and are as they would be without a bound. -/
structure TextsEnd (w : SymbolTable) : Prop where
  wellFounded : WellFounded fun y x => y ∈ w.textParts x
  typeText : ∀ t, w.typeText t = w.writeType w.typeText w.ownerText t
  ownerText : ∀ o, w.ownerText o = w.writeOwner w.typeText w.ownerText o

theorem typeTextAt_succ (w : SymbolTable) (n : Nat) (t : TypeId) :
    w.typeTextAt (n + 1) t = w.writeType (w.typeTextAt n) (w.ownerTextAt n) t := by
  rw [typeTextAt]
  rfl

theorem ownerTextAt_succ (w : SymbolTable) (n : Nat) (o : Option Owner) :
    w.ownerTextAt (n + 1) o = w.writeOwner (w.typeTextAt n) (w.ownerTextAt n) o := by
  rcases o with _ | _ | _ | _ | _ <;> simp only [ownerTextAt, writeOwner]

section

variable {type type' : TypeId → String} {owner owner' : Option Owner → String}

/-- The text of a type depends on those of its parts only. -/
theorem writeType_congr {t : TypeId}
    (htype : ∀ u, .inl u ∈ w.textParts (.inl t) → type u = type' u)
    (howner : ∀ o, (∀ x, textOwner? o = some x → x ∈ w.textParts (.inl t)) → owner o = owner' o) :
    w.writeType type owner t = w.writeType type' owner' t := by
  simp only [textParts] at htype howner
  unfold writeType
  cases hk : (w.type t).kind <;> simp only [hk] at htype howner
  case any | empty | nothing | null => rfl
  case nullable u => simp only [htype u List.mem_cons_self]
  case tuple elements =>
    have hmap : ∀ u ∈ elements, type u = type' u := fun u hu => htype u (List.mem_map_of_mem hu)
    simp only [List.map_congr_left hmap]
  all_goals
    dsimp only
    split
    · rfl
    · rename_i hg
      rw [howner]
      exact fun x hx => by rwa [if_neg hg, Option.mem_toList]

theorem writeOwner_congr {o : Option Owner} (htype : ∀ t, o = some (.type t) → type t = type' t)
    (howner : ∀ m, o = some (.module m) →
      owner (w.module m).definedIn = owner' (w.module m).definedIn) :
    w.writeOwner type owner o = w.writeOwner type' owner' o := by
  rcases o with _ | m | t | d | f
  · rfl
  · exact congrArg (qualified · (w.module m).name) (howner m rfl)
  · exact htype t rfl
  · rfl
  · rfl

end

/-! ## The depth of a text -/

/-- All types and modules. -/
def texts (w : SymbolTable) : Finset (TypeId ⊕ ModuleId) :=
  w.types.ids.toFinset.disjSum w.modules.ids.toFinset

theorem card_texts_le (w : SymbolTable) : w.texts.card ≤ w.types.size + w.modules.size := by
  have ht := List.toFinset_card_le w.types.ids
  have hm := List.toFinset_card_le w.modules.ids
  simp only [Arena.ids, List.length_map, List.length_range] at ht hm
  rw [texts, Finset.card_disjSum]
  exact Nat.add_le_add ht hm

theorem inl_mem_texts {t : TypeId} : .inl t ∈ w.texts ↔ w.types.Has t := by
  simp [texts, Arena.mem_ids]

theorem inr_mem_texts {m : ModuleId} : .inr m ∈ w.texts ↔ w.modules.Has m := by
  simp [texts, Arena.mem_ids]

namespace Closed

theorem mem_texts_of_owner {o : Option Owner} {x : TypeId ⊕ ModuleId}
    (ho : w.Covers (o.toList.flatMap Owner.ids)) (hx : textOwner? o = some x) : x ∈ w.texts := by
  rcases o with _ | m | t | d | f
  · cases hx
  · cases hx
    exact inr_mem_texts.mpr (by simpa [Owner.ids] using ho)
  · cases hx
    exact inl_mem_texts.mpr (by simpa [Owner.ids] using ho)
  · cases hx
  · cases hx

theorem mem_texts (h : w.Closed) {x y : TypeId ⊕ ModuleId} (hy : y ∈ w.textParts x) :
    y ∈ w.texts := by
  cases x with
  | inl t =>
      have ht := h.types t
      simp only [TypeDecl.ids, covers_append] at ht
      have owner := fun hy => mem_texts_of_owner (x := y) ht.1.1.1.2 hy
      simp only [textParts] at hy
      cases hk : (w.type t).kind <;> simp only [hk] at hy ht
      case nullable u =>
        obtain rfl := List.mem_singleton.mp hy
        exact inl_mem_texts.mpr (by simpa [TypeKind.ids] using ht.1.1.1.1)
      case tuple elements =>
        obtain ⟨u, hu, rfl⟩ := List.mem_map.mp hy
        simp only [TypeKind.ids, covers_map] at ht
        exact inl_mem_texts.mpr (by simpa using ht.1.1.1.1 u hu)
      case any | empty | nothing | null => cases hy
      all_goals
        split at hy
        · cases hy
        · exact owner (Option.mem_toList.mp hy)
  | inr m =>
      have hm := h.modules m
      simp only [ModuleDecl.ids, covers_append] at hm
      exact mem_texts_of_owner hm.1 (Option.mem_toList.mp hy)

end Closed

/-- How many types and modules a text passes at most. -/
noncomputable def textDepth (w : SymbolTable) (x : TypeId ⊕ ModuleId) : Nat :=
  reachedIn (fun x y => y ∈ w.textParts x) w.texts x

theorem textDepth_le (w : SymbolTable) (x : TypeId ⊕ ModuleId) :
    w.textDepth x ≤ w.types.size + w.modules.size :=
  Nat.le_trans (reachedIn_le _ _ _) w.card_texts_le

section Depth

variable (h : w.Closed) (ha : Acyclic fun x y => y ∈ w.textParts x)

include h ha

theorem textDepth_lt {x y : TypeId ⊕ ModuleId} (hy : y ∈ w.textParts x) :
    w.textDepth y < w.textDepth x :=
  ha.reachedIn_lt hy (h.mem_texts hy)

/-- A text that is deep enough for what it passes does not change when it may go deeper. From a name
to the type before it there are two steps, so that what stands before a name needs one more. -/
theorem textAt_succ (n : Nat) :
    (∀ t, 2 * w.textDepth (.inl t) + 1 ≤ n → w.typeTextAt (n + 1) t = w.typeTextAt n t) ∧
    ∀ o, (∀ x, textOwner? o = some x → 2 * w.textDepth x + 2 ≤ n) →
      w.ownerTextAt (n + 1) o = w.ownerTextAt n o := by
  induction n with
  | zero =>
      refine ⟨fun t ht => by omega, fun o ho => ?_⟩
      rcases o with _ | m | t | d | f
      · rfl
      · exact absurd (ho _ rfl) (by omega)
      · exact absurd (ho _ rfl) (by omega)
      · rfl
      · rfl
  | succ n ih =>
      obtain ⟨types, owners⟩ := ih
      have part {x y} (hx : 2 * w.textDepth x ≤ n) (hy : y ∈ w.textParts x) :
          2 * w.textDepth y + 2 ≤ n := by
        have hlt := textDepth_lt h ha hy
        omega
      refine ⟨fun t ht => ?_, fun o ho => ?_⟩
      · have ht : 2 * w.textDepth (.inl t) ≤ n := by omega
        rw [typeTextAt_succ, typeTextAt_succ w n]
        exact writeType_congr (fun u hu => types u (Nat.le_of_succ_le (part ht hu)))
          fun o ho => owners o fun x hx => part ht (ho x hx)
      · rw [ownerTextAt_succ, ownerTextAt_succ w n]
        refine writeOwner_congr (fun t ht => types t ?_) fun m hm => owners _ fun x hx => ?_
        · have htext := ho (.inl t) (ht ▸ rfl)
          omega
        · have htext := ho (.inr m) (hm ▸ rfl)
          exact part (x := .inr m) (by omega) (Option.mem_toList.mpr hx)

/-- Where no type or module is part of its own text, texts come to their end. -/
theorem textsEnd_of_acyclic : w.TextsEnd := by
  have type t : w.typeTextAt (2 * (w.types.size + w.modules.size) + 1) t = w.typeText t := by
    refine ((textAt_succ h ha _).1 t ?_).symm
    have hle := w.textDepth_le (.inl t)
    omega
  have owner {x o} (hx : ∀ y, textOwner? o = some y → y ∈ w.textParts x) :
      w.ownerTextAt (2 * (w.types.size + w.modules.size) + 1) o = w.ownerText o := by
    refine ((textAt_succ h ha _).2 o fun y hy => ?_).symm
    have hlt := textDepth_lt h ha (hx y hy)
    have hle := w.textDepth_le x
    omega
  refine ⟨Subrelation.wf (fun {_ _} hy => textDepth_lt h ha hy)
    (InvImage.wf w.textDepth Nat.lt_wfRel.wf), fun t => ?_, fun o => ?_⟩
  · exact (w.typeTextAt_succ _ t).trans (writeType_congr (fun u _ => type u) fun o ho => owner ho)
  · refine (w.ownerTextAt_succ _ o).trans (writeOwner_congr (fun t _ => type t) fun m _ => ?_)
    exact owner (x := .inr m) fun y hy => Option.mem_toList.mpr hy

end Depth

/-- No text contains itself if there is an order in which parts come first. -/
theorem acyclic_textParts (rank : TypeId ⊕ ModuleId → Nat)
    (ht : ∀ i < w.types.size, ∀ x ∈ w.textParts (.inl ⟨i⟩), rank x < rank (.inl ⟨i⟩))
    (hm : ∀ i < w.modules.size, ∀ x ∈ w.textParts (.inr ⟨i⟩), rank x < rank (.inr ⟨i⟩)) :
    Acyclic fun x y => y ∈ w.textParts x := by
  refine acyclic_of_rank rank fun x y hy => ?_
  cases x with
  | inl t =>
      by_cases hhas : w.types.Has t
      · exact ht t.index hhas y hy
      · rw [textParts, type, Arena.get_of_not_has hhas] at hy
        cases hy
  | inr m =>
      by_cases hhas : w.modules.Has m
      · exact hm m.index hhas y hy
      · rw [textParts, module, Arena.get_of_not_has hhas] at hy
        cases hy

end StaticSemantics.SymbolTable
