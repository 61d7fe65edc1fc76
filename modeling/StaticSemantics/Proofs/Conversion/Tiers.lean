import StaticSemantics.Proofs.NullSafety
import StaticSemantics.Proofs.Scope.Bounds

/-!
The tiers of conversion. What is converted as a constant is converted implicitly, and what is
converted implicitly is converted explicitly, to the same value; a cast only marks it. Every result
has the type that was asked for and is made of the value with at most one layer of null around it. A
nullable type wraps no other, so that the bound on the layers which a conversion looks through cuts
nothing off.
-/

namespace StaticSemantics

/-- What a value may become at a type without a layer of null being put around it. -/
inductive Value.ConvertedTo (v : Value) (dest : TypeId) : Value → Prop where
  | same (h : v.type = dest) : v.ConvertedTo dest v
  | constant (c : Constant) : v.ConvertedTo dest (.constant c dest)
  | used (r : Relationship) : v.ConvertedTo dest (v.convertedBy r dest)

theorem Value.ConvertedTo.type_eq {v u : Value} {dest : TypeId} (h : v.ConvertedTo dest u) :
    u.type = dest := by
  cases h with
  | same h => exact h
  | constant c | used r => rfl

namespace SymbolTable

variable {w : SymbolTable} {v u : Value} {dest : TypeId}

/-- What a value may become at a type. -/
inductive Converted (w : SymbolTable) (v : Value) (dest : TypeId) : Value → Prop where
  | directly {u : Value} (h : v.ConvertedTo dest u) : w.Converted v dest u
  | intoNull {inner : TypeId} {u : Value} (hk : (w.type dest).kind = .nullable inner)
      (h : v.ConvertedTo inner u) : w.Converted v dest (u.convertedBy .toNullable dest)

namespace Converted

theorem of_bare (hd : (w.type dest).wraps? = none) (h : w.Converted v dest u) :
    v.ConvertedTo dest u := by
  cases h with
  | directly h => exact h
  | intoNull hk h =>
      rw [TypeDecl.wraps?_eq_some.mpr hk] at hd
      cases hd

end Converted

/-! ## The rules one by one -/

theorem convertedTo_of_convertConstant? (hu : w.convertConstant? v dest = some u) :
    v.ConvertedTo dest u := by
  unfold convertConstant? at hu
  split at hu
  · rename_i hv
    cases hu
    exact .same hv
  · obtain ⟨c, _, hu⟩ := Option.bind_eq_some_iff.mp hu
    dsimp only at hu
    split at hu
    all_goals
      obtain ⟨c', _, hu⟩ := Option.bind_eq_some_iff.mp hu
      cases hu
      exact .constant c'

theorem convertedTo_of_widen? (hu : w.widen? v dest = some u) : v.ConvertedTo dest u := by
  unfold widen? at hu
  dsimp only at hu
  split_ifs at hu
  all_goals cases hu
  · exact .used _
  · exact .used _
  · exact .used _
  · exact .constant _
  · exact .used _
  · exact .used _

theorem convertedTo_of_settleFor? (hu : w.settleFor? v dest = some u) : v.ConvertedTo dest u := by
  unfold settleFor? at hu
  split_ifs at hu
  · cases hu
    exact .used _
  · cases hu
    exact .used _
  · exact convertedTo_of_convertConstant? hu

theorem convertedTo_of_narrow? (hu : w.narrow? v dest = some u) : v.ConvertedTo dest u := by
  unfold narrow? at hu
  dsimp only at hu
  split_ifs at hu
  all_goals
    cases hu
    exact .used _

/-- A conversion through null puts a layer around what the value becomes at the wrapped type, or
takes one off. -/
theorem throughNull?_eq_some {convert : Value → TypeId → Option Value}
    (hu : w.throughNull? convert v dest = some u) :
    (∃ inner u', (w.type dest).wraps? = some inner ∧ convert v inner = some u' ∧
      u = u'.convertedBy .toNullable dest) ∨ u = v.convertedBy .fromNullable dest := by
  unfold throughNull? at hu
  split at hu
  · rename_i inner hi
    obtain ⟨u', hu', rfl⟩ := Option.map_eq_some_iff.mp hu
    exact .inl ⟨inner, u', hi, hu', rfl⟩
  · split at hu
    · cases hu
      exact .inr rfl
    · cases hu
  · cases hu

/-- Since the wrapped type is bare, no second layer is put around the value. -/
theorem Canonical.converted_of_throughNull? (h : w.Canonical)
    {convert : Value → TypeId → Option Value}
    (hc : ∀ inner u, convert v inner = some u → w.Converted v inner u)
    (hu : w.throughNull? convert v dest = some u) : w.Converted v dest u := by
  rcases throughNull?_eq_some hu with ⟨inner, u', hi, hu', rfl⟩ | rfl
  · exact .intoNull (TypeDecl.wraps?_eq_some.mp hi) ((hc inner u' hu').of_bare (h.wraps?_inner hi))
  · exact .directly (.used _)

/-! ## Conversions without a bound -/

/-- One step of an implicit conversion, given how to convert where a layer of null is passed. -/
def implicitStep (w : SymbolTable) (convert : Value → TypeId → Option Value) (v : Value)
    (dest : TypeId) : Option Value :=
  if v.type = dest then some v
  else w.widen? v dest <|> w.throughNull? convert v dest <|> w.settleFor? v dest

/-- One step of an explicit conversion. -/
def explicitStep (w : SymbolTable) (convert : Value → TypeId → Option Value) (v : Value)
    (dest : TypeId) : Option Value :=
  if v.type = dest then some v
  else
    w.convertImplicit? v dest <|> w.narrow? v dest <|> w.throughNull? convert v dest <|>
      if dest = .string then some (v.convertedBy .toString dest) else none

/-- `convertAt n` takes `n` steps at most, and goes on from a step only through null. -/
structure StepsThroughNull (w : SymbolTable) (convertAt : Nat → Value → TypeId → Option Value)
    (step : (Value → TypeId → Option Value) → Value → TypeId → Option Value) : Prop where
  succ : ∀ n v dest, convertAt (n + 1) v dest = step (convertAt n) v dest
  congr : ∀ f g v dest, w.throughNull? f v dest = w.throughNull? g v dest →
    step f v dest = step g v dest

theorem implicit_stepsThroughNull (w : SymbolTable) :
    w.StepsThroughNull w.convertImplicitAt? w.implicitStep :=
  ⟨fun _ _ _ => rfl, fun f g v dest h => by rw [implicitStep, h, implicitStep]⟩

theorem explicit_stepsThroughNull (w : SymbolTable) :
    w.StepsThroughNull w.convertExplicitAt? w.explicitStep :=
  ⟨fun _ _ _ => rfl, fun f g v dest h => by rw [explicitStep, h, explicitStep]⟩

/-- A conversion through null asks how to reach a wrapped type, or how to leave one. -/
theorem throughNull?_congr {f g : Value → TypeId → Option Value}
    (into : ∀ inner, (w.type dest).wraps? = some inner → f v inner = g v inner)
    (out : ∀ inner, (w.type dest).wraps? = none → (w.type v.type).wraps? = some inner →
      f (.plain inner) dest = g (.plain inner) dest) :
    w.throughNull? f v dest = w.throughNull? g v dest := by
  unfold throughNull?
  split
  · rename_i inner hi
    rw [into inner hi]
  · rename_i inner hd hi
    rw [out inner hd hi]
  · rfl

namespace StepsThroughNull

variable {convertAt : Nat → Value → TypeId → Option Value}
  {step : (Value → TypeId → Option Value) → Value → TypeId → Option Value}
  (hs : w.StepsThroughNull convertAt step)

include hs

theorem of_bare (hv : (w.type v.type).wraps? = none) (hd : (w.type dest).wraps? = none)
    (n m : Nat) : convertAt (n + 1) v dest = convertAt (m + 1) v dest := by
  rw [hs.succ, hs.succ]
  apply hs.congr
  rw [throughNull?_of_bare hv hd, throughNull?_of_bare hv hd]

variable (h : w.Canonical)

include h

/-- To a bare type at most one layer is passed, that around the value. -/
theorem of_bareTarget (hd : (w.type dest).wraps? = none) (v : Value) (n m : Nat) :
    convertAt (n + 2) v dest = convertAt (m + 2) v dest := by
  rw [hs.succ, hs.succ (m + 1)]
  apply hs.congr
  refine throughNull?_congr (fun inner hi => ?_) fun inner _ hi => ?_
  · rw [hd] at hi
    cases hi
  · exact hs.of_bare (h.wraps?_inner hi) hd n m

/-- Three steps are enough: one layer is passed on either side. -/
theorem three_eq (v : Value) (dest : TypeId) : convertAt 3 v dest = step (convertAt 3) v dest := by
  rw [hs.succ 2]
  apply hs.congr
  refine throughNull?_congr (fun inner hi => ?_) fun inner hd _ => ?_
  · exact hs.of_bareTarget h (h.wraps?_inner hi) v 0 1
  · exact hs.of_bareTarget h hd (.plain inner) 0 1

end StepsThroughNull

/-! ## The tiers -/

/-- An implicit conversion takes the value as it stands, or goes through null. -/
theorem convertImplicitAt?_cases {n : Nat} (hu : w.convertImplicitAt? (n + 1) v dest = some u) :
    v.ConvertedTo dest u ∨ w.throughNull? (w.convertImplicitAt? n) v dest = some u := by
  rw [convertImplicitAt?] at hu
  split at hu
  · rename_i hv
    cases hu
    exact .inl (.same hv)
  · rcases (Option.orElse_eq_some _ _ _).mp hu with hu | ⟨_, hu⟩
    · exact .inl (convertedTo_of_widen? hu)
    rcases (Option.orElse_eq_some _ _ _).mp hu with hu | ⟨_, hu⟩
    · exact .inr hu
    · exact .inl (convertedTo_of_settleFor? hu)

/-- An explicit conversion is an implicit one, takes the value as it stands, or goes through
null. -/
theorem convertExplicitAt?_cases {n : Nat} (hu : w.convertExplicitAt? (n + 1) v dest = some u) :
    w.convertImplicit? v dest = some u ∨ v.ConvertedTo dest u ∨
      w.throughNull? (w.convertExplicitAt? n) v dest = some u := by
  rw [convertExplicitAt?] at hu
  split at hu
  · rename_i hv
    cases hu
    exact .inr (.inl (.same hv))
  · rcases (Option.orElse_eq_some _ _ _).mp hu with hu | ⟨_, hu⟩
    · exact .inl hu
    rcases (Option.orElse_eq_some _ _ _).mp hu with hu | ⟨_, hu⟩
    · exact .inr (.inl (convertedTo_of_narrow? hu))
    rcases (Option.orElse_eq_some _ _ _).mp hu with hu | ⟨_, hu⟩
    · exact .inr (.inr hu)
    · split at hu
      · cases hu
        exact .inr (.inl (.used _))
      · cases hu

theorem Canonical.converted_of_convertImplicitAt? (h : w.Canonical) {n : Nat}
    (hu : w.convertImplicitAt? n v dest = some u) : w.Converted v dest u := by
  induction n generalizing dest u with
  | zero => cases hu
  | succ n ih =>
      rcases convertImplicitAt?_cases hu with hu | hu
      · exact .directly hu
      · exact h.converted_of_throughNull? (fun inner u hu => ih hu) hu

theorem Canonical.converted_of_convertExplicitAt? (h : w.Canonical) {n : Nat}
    (hu : w.convertExplicitAt? n v dest = some u) : w.Converted v dest u := by
  induction n generalizing dest u with
  | zero => cases hu
  | succ n ih =>
      rcases convertExplicitAt?_cases hu with hu | hu | hu
      · exact h.converted_of_convertImplicitAt? hu
      · exact .directly hu
      · exact h.converted_of_throughNull? (fun inner u hu => ih hu) hu

theorem type_of_throughNull? {convert : Value → TypeId → Option Value}
    (hu : w.throughNull? convert v dest = some u) : u.type = dest := by
  rcases throughNull?_eq_some hu with ⟨inner, u', _, _, rfl⟩ | rfl
  · rfl
  · rfl

theorem type_of_convertImplicit? (hu : w.convertImplicit? v dest = some u) : u.type = dest := by
  rcases convertImplicitAt?_cases hu with hu | hu
  · exact hu.type_eq
  · exact type_of_throughNull? hu

theorem type_of_convertExplicit? (hu : w.convertExplicit? v dest = some u) : u.type = dest := by
  rcases convertExplicitAt?_cases hu with hu | hu | hu
  · exact type_of_convertImplicit? hu
  · exact hu.type_eq
  · exact type_of_throughNull? hu

theorem isSome_convertImplicit?_of_constant (h : (w.convertConstant? v dest).isSome) :
    (w.convertImplicit? v dest).isSome := by
  obtain ⟨u, hu⟩ := Option.isSome_iff_exists.mp h
  rw [convertImplicit?, convertImplicitAt?]
  split
  · rfl
  · -- constants come last, and every rule before them only adds a result
    have hsettle : (w.settleFor? v dest).isSome := by
      unfold settleFor?
      split_ifs
      · rfl
      · rfl
      · exact h
    simp [hsettle]

theorem convertExplicit?_of_implicit (h : w.convertImplicit? v dest = some u) :
    w.convertExplicit? v dest = some u := by
  rw [convertExplicit?, convertExplicitAt?, h]
  split
  · rename_i hv
    rw [convertImplicit?, convertImplicitAt?, if_pos hv] at h
    exact h
  · rfl

@[simp] theorem type_markCast (u : Value) : (markCast u).type = u.type := by cases u <;> rfl

@[simp] theorem type_markTryCast (u : Value) : (markTryCast u).type = u.type := by
  cases u <;> rfl

/-- The conversions of a value to a type, one tier above the other. -/
structure ConversionTiers (w : SymbolTable) (v : Value) (dest : TypeId) : Prop where
  /-- The conversions satisfy the equations of the recursion without a bound. -/
  implicit_eq : w.convertImplicit? v dest = w.implicitStep w.convertImplicit? v dest
  explicit_eq : w.convertExplicit? v dest = w.explicitStep w.convertExplicit? v dest
  type_eq : ∀ how u, w.convert? how v dest = some u → u.type = dest
  /-- Where no type lies above itself the tests for subtypes end, and what can be turned into a
  constant can be converted implicitly. -/
  implicit_of_constant : Acyclic w.DirectSuper → w.UpwardWalksEnd ∧
    ((w.convertConstant? v dest).isSome → (w.convertImplicit? v dest).isSome)
  explicit_of_implicit : ∀ u, w.convertImplicit? v dest = some u →
    w.convertExplicit? v dest = some u
  isSome_cast : (w.convertByCast? v dest).isSome = (w.convertExplicit? v dest).isSome
  isSome_tryCast : (w.convertByTryCast? v dest).isSome = (w.convertExplicit? v dest).isSome
  implicit_form : ∀ u, w.convertImplicit? v dest = some u → w.Converted v dest u
  explicit_form : ∀ u, w.convertExplicit? v dest = some u → w.Converted v dest u

theorem type_of_convert? {how : Casting} (hu : w.convert? how v dest = some u) :
    u.type = dest := by
  cases how with
  | implicit => exact type_of_convertImplicit? hu
  | explicit => exact type_of_convertExplicit? hu
  | cast =>
      obtain ⟨u', hu', rfl⟩ := Option.map_eq_some_iff.mp hu
      rw [type_markCast, type_of_convertExplicit? hu']
  | tryCast =>
      obtain ⟨u', hu', rfl⟩ := Option.map_eq_some_iff.mp hu
      rw [type_markTryCast, type_of_convertExplicit? hu']
  | constant => exact (convertedTo_of_convertConstant? hu).type_eq

theorem Canonical.tiers (h : w.Canonical) (hc : w.Closed) (hp : w.Paired) (v : Value)
    (dest : TypeId) : w.ConversionTiers v dest where
  implicit_eq := w.implicit_stepsThroughNull.three_eq h v dest
  explicit_eq := w.explicit_stepsThroughNull.three_eq h v dest
  type_eq _ _ := type_of_convert?
  implicit_of_constant hs :=
    ⟨upwardWalksEnd_of_acyclic hc hp hs, isSome_convertImplicit?_of_constant⟩
  explicit_of_implicit _ := convertExplicit?_of_implicit
  isSome_cast := Option.isSome_map
  isSome_tryCast := Option.isSome_map
  implicit_form _ := h.converted_of_convertImplicitAt?
  explicit_form _ := h.converted_of_convertExplicitAt?

end SymbolTable

namespace Session

variable {s : Session}

/-- A nullable type over the floating-point numbers. -/
def sampleTiers : List Operation := [.edit (.addNullable .double)]

end Session
end StaticSemantics
