import StaticSemantics.Proofs.InRange.Lookup

/-!
Values in range. Conversions and the folding of constants come to the same in every memory.
-/

namespace StaticSemantics

open SymbolTable (type_inRange withoutNull_inRange acceptsNull_inRange slot_inRange)
open SymbolTable.Closed (type_has)

variable {w : SymbolTable} {r : OutOfRange} {v u : Value} {t : TypeId}

/-! ## Folding -/

theorem Folding.bitwise?_inRange (op : Operator) (hv : w.Covers v.ids) (u : Value) :
    @Folding.bitwise? ⟨r⟩ w op v u = Folding.bitwise? w op v u := by
  simp only [Folding.bitwise?, type_inRange (type_has hv)]

theorem Folding.binary?_inRange (op : Operator) (hv : w.Covers v.ids) (u : Value) :
    @Folding.binary? ⟨r⟩ w op v u = Folding.binary? w op v u := by
  simp only [Folding.binary?, Folding.bitwise?_inRange _ hv]

namespace SymbolTable

theorem constantOf?_inRange {s : Symbol} (hs : w.Covers s.ids) :
    @constantOf? ⟨r⟩ w s = w.constantOf? s := by
  unfold constantOf?
  split
  · rfl
  · refine Option.bind_congr fun i hi => ?_
    rw [slot_inRange (Value.has_slot_of_covers hs hi)]
  · rfl

namespace Closed

/-! ## Constants -/

theorem adaptNullish?_inRange (c : Constant) (ht : w.types.Has t) :
    @adaptNullish? ⟨r⟩ w c t = w.adaptNullish? c t := by
  simp only [adaptNullish?, withoutNull_inRange ht, acceptsNull_inRange ht]

theorem adaptConstant?_inRange (h : w.Closed) (c : Constant) {source : TypeId}
    (hs : w.types.Has source) (ht : w.types.Has t) :
    @adaptConstant? ⟨r⟩ w c source t = w.adaptConstant? c source t := by
  simp only [adaptConstant?, withoutNull_inRange ht, withoutNull_inRange hs,
    acceptsNull_inRange ht, adaptNullish?_inRange _ ht, type_inRange (h.withoutNull_has ht)]

theorem convertConstant?_inRange (h : w.Closed) (hv : w.Covers v.ids) (ht : w.types.Has t) :
    @convertConstant? ⟨r⟩ w v t = w.convertConstant? v t := by
  simp only [convertConstant?, withoutNull_inRange ht, h.adaptConstant?_inRange _ (type_has hv) ht]

/-! ## Conversions -/

theorem widen?_inRange (h : w.Closed) (hv : w.Covers v.ids) (ht : w.types.Has t) :
    @widen? ⟨r⟩ w v t = w.widen? v t := by
  simp only [widen?, type_inRange (type_has hv), type_inRange ht, withoutNull_inRange ht,
    type_inRange (h.withoutNull_has ht), h.isSubtype_inRange (type_has hv) ht]

theorem narrow?_inRange (h : w.Closed) (hv : w.Covers v.ids) (ht : w.types.Has t) :
    @narrow? ⟨r⟩ w v t = w.narrow? v t := by
  simp only [narrow?, type_inRange (type_has hv), type_inRange ht,
    h.isSubtype_inRange ht (type_has hv)]

theorem settleFor?_inRange (h : w.Closed) (hv : w.Covers v.ids) (ht : w.types.Has t) :
    @settleFor? ⟨r⟩ w v t = w.settleFor? v t := by
  simp only [settleFor?, type_inRange (type_has hv), h.convertConstant?_inRange hv ht]

/-- Null is looked through by conversions of covered values to covered types. -/
theorem throughNull?_inRange (h : w.Closed) {convert convert' : Value → TypeId → Option Value}
    (hc : ∀ v t, w.Covers v.ids → w.types.Has t → convert v t = convert' v t)
    (hv : w.Covers v.ids) (ht : w.types.Has t) :
    @throughNull? ⟨r⟩ w convert v t = w.throughNull? convert' v t := by
  simp only [throughNull?, type_inRange (type_has hv), type_inRange ht, acceptsNull_inRange ht]
  cases hd : (w.type t).wraps? with
  | some inner => simp only [hc v inner hv (h.wraps?_has hd)]
  | none =>
      cases hs : (w.type v.type).wraps? with
      | none => rfl
      | some inner =>
          have hi : w.Covers (Value.plain inner).ids := by
            simpa [Value.ids] using h.wraps?_has hs
          simp only [hc _ t hi ht]

theorem convertImplicitAt?_inRange (h : w.Closed) (n : Nat) (hv : w.Covers v.ids)
    (ht : w.types.Has t) : @convertImplicitAt? ⟨r⟩ w n v t = w.convertImplicitAt? n v t := by
  induction n generalizing v t with
  | zero => rfl
  | succ n ih =>
      have through := h.throughNull?_inRange (r := r) (fun v t hv ht => ih (v := v) hv ht) hv ht
      simp only [convertImplicitAt?, h.widen?_inRange hv ht, through,
        h.settleFor?_inRange hv ht]

theorem convertImplicit?_inRange (h : w.Closed) (hv : w.Covers v.ids) (ht : w.types.Has t) :
    @convertImplicit? ⟨r⟩ w v t = w.convertImplicit? v t :=
  h.convertImplicitAt?_inRange 3 hv ht

theorem convertExplicitAt?_inRange (h : w.Closed) (n : Nat) (hv : w.Covers v.ids)
    (ht : w.types.Has t) : @convertExplicitAt? ⟨r⟩ w n v t = w.convertExplicitAt? n v t := by
  induction n generalizing v t with
  | zero => rfl
  | succ n ih =>
      have through := h.throughNull?_inRange (r := r) (fun v t hv ht => ih (v := v) hv ht) hv ht
      simp only [convertExplicitAt?, h.convertImplicit?_inRange hv ht, h.narrow?_inRange hv ht,
        through]

theorem convert?_inRange (h : w.Closed) (how : Casting) (hv : w.Covers v.ids)
    (ht : w.types.Has t) : @convert? ⟨r⟩ w how v t = w.convert? how v t := by
  have explicit : @convertExplicit? ⟨r⟩ w v t = w.convertExplicit? v t :=
    h.convertExplicitAt?_inRange 3 hv ht
  cases how with
  | implicit => exact h.convertImplicit?_inRange hv ht
  | explicit => exact explicit
  | cast => simp only [convert?, convertByCast?, explicit]
  | tryCast => simp only [convert?, convertByTryCast?, explicit]
  | constant => exact h.convertConstant?_inRange hv ht

end Closed
end SymbolTable
end StaticSemantics
