import StaticSemantics.Proofs.Closure.Answers
import StaticSemantics.Proofs.Hierarchy.Subtyping
import StaticSemantics.Proofs.NullSafety

/-!
Overriding as an order on signatures. A signature that can override another one takes every call
that the other one takes, hands each argument to a parameter of the same type, and returns a
subtype. This is a preorder, and signatures that can override each other differ in labels and
defaults only.
-/

namespace StaticSemantics

/-- What an argument is passed to: a parameter of some type, or the one that takes all further
arguments. -/
inductive Parameter where
  | typed (t : TypeId)
  | rest
  deriving DecidableEq

namespace Signature

variable {a b c : Signature} {n i : Nat}

/-- The types of the parameters that take one argument each. -/
def positional (s : Signature) : List TypeId := s.paramTypes ++ s.optParamTypes

/-- The parameter that the argument at a position is passed to. -/
def parameter? (s : Signature) (i : Nat) : Option Parameter :=
  match s.positional[i]? with
  | some t => some (.typed t)
  | none => if s.rest.isSome then some .rest else none

theorem length_positional (s : Signature) :
    s.positional.length = s.minArity + s.optParams.length := by
  simp [positional, paramTypes, optParamTypes, minArity]

theorem accepts_iff {s : Signature} :
    s.accepts n ↔ s.minArity ≤ n ∧ (s.rest.isSome ∨ n ≤ s.positional.length) := by
  rw [length_positional]
  cases hr : s.rest <;> simp [accepts, maxArity, hr]

theorem parameter?_of_lt {s : Signature} (hi : i < s.positional.length) :
    s.parameter? i = some (.typed s.positional[i]) := by
  simp [parameter?, List.getElem?_eq_getElem hi]

theorem parameter?_of_le {s : Signature} (hr : s.rest.isSome) (hi : s.positional.length ≤ i) :
    s.parameter? i = some .rest := by
  simp [parameter?, List.getElem?_eq_none hi, hr]

/-- `c` has the parameters of `b`, and may have further optional ones unless `b` takes any number of
arguments. -/
structure Keeps (b c : Signature) : Prop where
  params : b.paramTypes = c.paramTypes
  optParams : b.optParamTypes <+: c.optParamTypes
  rest : b.rest.isSome → c.rest.isSome ∧ b.optParamTypes = c.optParamTypes

namespace Keeps

theorem refl (b : Signature) : b.Keeps b := ⟨rfl, List.prefix_refl _, fun hr => ⟨hr, rfl⟩⟩

theorem trans (h : a.Keeps b) (h' : b.Keeps c) : a.Keeps c where
  params := h.params.trans h'.params
  optParams := h.optParams.trans h'.optParams
  rest hr := by
    obtain ⟨hb, hab⟩ := h.rest hr
    obtain ⟨hc, hbc⟩ := h'.rest hb
    exact ⟨hc, hab.trans hbc⟩

theorem of_sameShape (h : b.sameShape c) : b.Keeps c := by
  simp only [sameShape, Bool.and_eq_true, decide_eq_true_eq] at h
  obtain ⟨⟨⟨_, hrest⟩, hparams⟩, hopt⟩ := h
  exact ⟨hparams, hopt ▸ List.prefix_refl _, fun hr => ⟨hrest ▸ hr, hopt⟩⟩

theorem sameShape (h : b.Keeps c) (h' : c.Keeps b) (hr : b.returns = c.returns) :
    b.sameShape c := by
  have hopt : b.optParamTypes = c.optParamTypes :=
    h.optParams.eq_of_length_le h'.optParams.length_le
  have hrest : b.rest.isSome = c.rest.isSome :=
    Bool.eq_iff_iff.mpr ⟨fun hb => (h.rest hb).1, fun hc => (h'.rest hc).1⟩
  simp [Signature.sameShape, hr, hrest, h.params, hopt]

theorem minArity_eq (h : b.Keeps c) : b.minArity = c.minArity := by
  have hlen := congrArg List.length h.params
  simpa [paramTypes, minArity] using hlen

theorem positional_prefix (h : b.Keeps c) : b.positional <+: c.positional := by
  unfold positional
  rw [h.params]
  exact (List.prefix_append_right_inj _).mpr h.optParams

theorem accepts (h : b.Keeps c) (hn : b.accepts n) : c.accepts n := by
  rw [accepts_iff] at hn ⊢
  have hlen := h.positional_prefix.length_le
  refine ⟨h.minArity_eq ▸ hn.1, hn.2.imp (fun hr => (h.rest hr).1) fun hle => ?_⟩
  omega

/-- An argument of a call that `b` takes is passed to the same kind of parameter. -/
theorem parameter? (h : b.Keeps c) (hn : b.accepts n) (hi : i < n) :
    ∃ p, b.parameter? i = some p ∧ c.parameter? i = some p := by
  have hlen := h.positional_prefix.length_le
  by_cases hb : i < b.positional.length
  · refine ⟨_, parameter?_of_lt hb, ?_⟩
    rw [parameter?_of_lt (Nat.lt_of_lt_of_le hb hlen), h.positional_prefix.getElem hb]
  · -- beyond its positions only a rest parameter of `b` can have accepted the call
    have hr : b.rest.isSome := (accepts_iff.mp hn).2.resolve_right (by omega)
    obtain ⟨hc, hopt⟩ := h.rest hr
    have hpos : c.positional = b.positional := by rw [positional, positional, h.params, hopt]
    exact ⟨.rest, parameter?_of_le hr (by omega), parameter?_of_le hc (by rw [hpos]; omega)⟩

end Keeps

theorem sameShape_equivalence : Equivalence fun b c : Signature => b.sameShape c = true where
  refl b := by simp [sameShape]
  symm {b c} h := by
    simp only [sameShape, Bool.and_eq_true, decide_eq_true_eq] at h ⊢
    exact ⟨⟨⟨h.1.1.1.symm, h.1.1.2.symm⟩, h.1.2.symm⟩, h.2.symm⟩
  trans {a b c} h h' := by
    simp only [sameShape, Bool.and_eq_true, decide_eq_true_eq] at h h' ⊢
    exact ⟨⟨⟨h.1.1.1.trans h'.1.1.1, h.1.1.2.trans h'.1.1.2⟩, h.1.2.trans h'.1.2⟩, h.2.trans h'.2⟩

end Signature

namespace SymbolTable

variable {w : SymbolTable} {f g k : SignatureId}

theorem keepsParameters_iff {b c : Signature} : keepsParameters b c ↔ b.Keeps c := by
  have hlen : ∀ s : Signature, s.optParamTypes.length = s.optParams.length := by
    simp [Signature.optParamTypes]
  simp only [keepsParameters, Bool.and_eq_true, Bool.not_eq_true', Bool.and_eq_false_iff,
    decide_eq_true_eq, decide_eq_false_iff_not, List.isPrefixOf_iff_prefix]
  constructor
  · rintro ⟨⟨⟨hparams, hopt⟩, hmore⟩, hrest⟩
    refine ⟨hparams, hopt, fun hr => ⟨?_, ?_⟩⟩
    · simpa [hr] using hrest
    · have hle := hmore.resolve_right (by simp [hr])
      refine hopt.eq_of_length_le ?_
      rw [hlen, hlen]
      omega
  · intro h
    refine ⟨⟨⟨h.params, h.optParams⟩, ?_⟩, ?_⟩
    · cases hr : b.rest.isSome with
      | false => exact .inr rfl
      | true =>
          have heq := congrArg List.length (h.rest hr).2
          rw [hlen, hlen] at heq
          exact .inl (by omega)
    · cases hr : b.rest.isSome with
      | false => exact .inl rfl
      | true => exact .inr (by simpa using (h.rest hr).1)

/-- A call through a signature can be made through another one instead. -/
structure Substitutable (w : SymbolTable) (b c : Signature) : Prop where
  accepts : ∀ n, b.accepts n → c.accepts n
  parameter : ∀ n, b.accepts n → ∀ i < n,
    ∃ p, b.parameter? i = some p ∧ c.parameter? i = some p
  returns : w.isSubtype c.returns b.returns

/-- What makes overriding a preorder that is sound for calls. -/
structure OverridingOrder (w : SymbolTable) : Prop where
  refl : ∀ g, w.canOverride g g
  trans : ∀ f g k, w.canOverride f g → w.canOverride g k → w.canOverride f k
  shape : Equivalence fun g k => w.sameShape g k = true
  of_sameShape : ∀ g k, w.sameShape g k → w.canOverride g k
  antisymm : ∀ g k, w.canOverride g k → w.canOverride k g →
    (w.signature g).sameShape (w.signature k)
  substitutable : ∀ base candidate, w.canOverride base candidate →
    w.Substitutable (w.signature base) (w.signature candidate)

namespace Layered

theorem canOverride_iff (h : w.Layered) : w.canOverride g k ↔
    (w.signature g).Keeps (w.signature k) ∧
      w.isSubtype (w.signature k).returns (w.signature g).returns := by
  rw [canOverride_eq, Bool.and_eq_true, keepsParameters_iff, Bool.or_eq_true, decide_eq_true_eq]
  refine and_congr_right fun _ => ⟨fun hr => ?_, .inr⟩
  rcases hr with hr | hr
  · rw [hr]
    exact h.isSubtype_refl _
  · exact hr

theorem substitutable (h : w.Layered) (hg : w.canOverride g k) :
    w.Substitutable (w.signature g) (w.signature k) := by
  obtain ⟨hkeeps, hreturns⟩ := h.canOverride_iff.mp hg
  exact ⟨fun n => hkeeps.accepts, fun n hn i hi => hkeeps.parameter? hn hi, hreturns⟩

theorem overridingOrder (h : w.Layered) (hc : w.Closed) : w.OverridingOrder where
  refl g := h.canOverride_iff.mpr ⟨.refl _, h.isSubtype_refl _⟩
  trans f g k hfg hgk := by
    obtain ⟨hfg, hgf⟩ := h.canOverride_iff.mp hfg
    obtain ⟨hgk, hkg⟩ := h.canOverride_iff.mp hgk
    exact h.canOverride_iff.mpr ⟨hfg.trans hgk, h.isSubtype_trans hkg hgf⟩
  shape := by
    simp only [sameShape_eq]
    exact Signature.sameShape_equivalence.comap w.signature
  of_sameShape g k hs := by
    rw [sameShape_eq] at hs
    have hreturns : (w.signature g).returns = (w.signature k).returns := by
      simp only [Signature.sameShape, Bool.and_eq_true, decide_eq_true_eq] at hs
      exact hs.1.1.1
    exact h.canOverride_iff.mpr ⟨.of_sameShape hs, hreturns ▸ h.isSubtype_refl _⟩
  antisymm g k hgk hkg := by
    obtain ⟨hgk, hk⟩ := h.canOverride_iff.mp hgk
    obtain ⟨hkg, hg⟩ := h.canOverride_iff.mp hkg
    exact hgk.sameShape hkg (h.isSubtype_antisymm (hc.returns_has g) (hc.returns_has k) hg hk)
  substitutable _ _ := h.substitutable

end Layered
end SymbolTable

namespace Session

/-- In every session that never forces a super type, overriding is a preorder on signatures, and a
signature can stand in for every one that it can override. -/
theorem overridingOrder_of_reachable {s : Session}
    (h : Reachable (fun op => !op.setsSuperType) s) : s.table.OverridingOrder :=
  h.layered.overridingOrder h.closed.table

/-- A class below another one, and signatures that take a text and then an optional number: the
first returns the upper class; the second has other labels and returns the lower class; the third
takes another optional number and any further arguments besides. -/
def sampleSignatures : List Operation :=
  [.edit (.addClass "Body" false), .edit (.addClass "Cube" false),
    .edit (.extendClass ⟨21⟩ ⟨20⟩),
    .edit (.addSignature
      { params := [⟨"name", .string⟩], optParams := [⟨"size", .integer, none⟩], returns := ⟨20⟩ }),
    .edit (.addSignature
      { params := [⟨"title", .string⟩], optParams := [⟨"width", .integer, none⟩],
        returns := ⟨21⟩ }),
    .edit (.addSignature
      { params := [⟨"title", .string⟩],
        optParams := [⟨"width", .integer, none⟩, ⟨"depth", .long, none⟩], rest := some "more",
        returns := ⟨21⟩ })]

theorem overridingOrder_sampleSignatures :
    let w := (performAll {} sampleSignatures).table
    Session.Admits (fun op => !op.setsSuperType) {} sampleSignatures ∧
      w.canOverride ⟨0⟩ ⟨1⟩ ∧ w.canOverride ⟨1⟩ ⟨2⟩ ∧ w.canOverride ⟨0⟩ ⟨2⟩ ∧
      w.canOverride ⟨2⟩ ⟨1⟩ = false ∧
      w.Substitutable (w.signature ⟨0⟩) (w.signature ⟨2⟩) := by
  have facts : let w := (performAll {} sampleSignatures).table
      Session.Admits (fun op => !op.setsSuperType) {} sampleSignatures ∧
        w.canOverride ⟨0⟩ ⟨1⟩ ∧ w.canOverride ⟨1⟩ ⟨2⟩ ∧ w.canOverride ⟨2⟩ ⟨1⟩ = false := by
    decide +kernel
  obtain ⟨h, h01, h12, h21⟩ := facts
  have order := overridingOrder_of_reachable (Reachable.new.performAll h)
  have h02 := order.trans ⟨0⟩ ⟨1⟩ ⟨2⟩ h01 h12
  exact ⟨h, h01, h12, h02, h21, order.substitutable ⟨0⟩ ⟨2⟩ h02⟩

end Session
end StaticSemantics
