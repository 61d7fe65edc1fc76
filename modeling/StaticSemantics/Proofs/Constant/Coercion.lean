import StaticSemantics.Proofs.Constant.Whole

/-!
Coercion between the integral kinds. A byte, an integer, a long or a character is coerced to another
of these kinds exactly if its number lies in the range of that kind, and it stays the same number.
Hence every coercion can be undone, and it makes no difference through which kinds it goes.
-/

namespace StaticSemantics

namespace NumericKind

variable {k : NumericKind} {i : Int}

/-- The number lies between the bounds of an integral kind. The characters are the Unicode scalar
values, which leave out the surrogates. -/
def InRange : NumericKind → Int → Prop
  | byte, i => 0 ≤ i ∧ i ≤ 0xFF
  | integer, i => -0x80000000 ≤ i ∧ i ≤ 0x7FFFFFFF
  | long, i => -0x8000000000000000 ≤ i ∧ i ≤ 0x7FFFFFFFFFFFFFFF
  | char, i => 0 ≤ i ∧ i ≤ 0x10FFFF ∧ ¬ (0xD800 ≤ i ∧ i ≤ 0xDFFF)
  | single, _ | double, _ | decimal, _ => False

instance (k : NumericKind) (i : Int) : Decidable (k.InRange i) := by
  cases k <;> unfold InRange <;> infer_instance

theorem holds_iff_inRange : k.Holds i ↔ k.InRange i := by
  cases k with
  | byte | integer | char =>
      simp only [Holds, InRange, Nat.isValidChar]
      omega
  | long => rfl
  | single | double | decimal => rfl

end NumericKind

/-- A byte, an integer, a long or a character. -/
inductive IntegralConstant where
  | whole (a : WholeConstant)
  | char (c : Char)
  deriving DecidableEq

namespace IntegralConstant

variable {a b : IntegralConstant}

def constant : IntegralConstant → Constant
  | whole a => a.constant
  | char c => .char c

def kind : IntegralConstant → NumericKind
  | whole a => a.kind
  | char _ => .char

/-- The number that the constant is; a character is its code. -/
def int : IntegralConstant → Int
  | whole a => a.int
  | char c => c.toNat

theorem number?_constant (a : IntegralConstant) : a.constant.number? = some (.int a.int) := by
  cases a with
  | whole a => exact a.number?_constant
  | char c => rfl

theorem isIntegral_kind (a : IntegralConstant) : a.kind.isIntegral := by
  cases a with
  | whole a => exact NumericKind.isIntegral_of_isWhole a.isWhole_kind
  | char c => rfl

theorem holds (a : IntegralConstant) : a.kind.Holds a.int := by
  cases a with
  | whole a => exact a.holds
  | char c => exact ⟨Int.natCast_nonneg _, c.valid⟩

/-- A constant is known by its kind and its number. -/
theorem eq_of_int (hk : a.kind = b.kind) (hi : a.int = b.int) : a = b := by
  cases a with
  | whole a =>
      cases b with
      | whole b => exact congrArg whole (WholeConstant.eq_of_int hk hi)
      | char d =>
          have hwhole : a.kind.isWhole := a.isWhole_kind
          rw [show a.kind = .char from hk] at hwhole
          cases hwhole
  | char c =>
      cases b with
      | whole b =>
          have hwhole : b.kind.isWhole := b.isWhole_kind
          rw [show b.kind = .char from hk.symm] at hwhole
          cases hwhole
      | char d => exact congrArg char (Char.toNat_inj.mp (Int.ofNat_inj.mp hi))

end IntegralConstant

/-- The constant is that of an integral kind for a number. -/
def Constant.IsIntegral (d : Constant) (k : NumericKind) (i : Int) : Prop :=
  ∃ a : IntegralConstant, d = a.constant ∧ a.kind = k ∧ a.int = i

namespace NumericKind

variable {k : NumericKind} {i : Int} {d : Constant}

theorem ofInt?_isIntegral (hk : k.isIntegral) (h : k.Holds i) :
    ∃ d, k.ofInt? i = some d ∧ d.IsIntegral k i := by
  cases k with
  | byte | integer | long =>
      obtain ⟨a, ha, hkind, hint⟩ := ofInt?_of_holds rfl h
      exact ⟨_, ha, .whole a, rfl, hkind, hint⟩
  | char =>
      refine ⟨_, if_pos h, .char (.ofNat i.toNat), rfl, rfl, ?_⟩
      have hcode : (Char.ofNat i.toNat).toNat = i.toNat := by
        rw [Char.ofNat, dif_pos h.2]
        rfl
      simp only [IntegralConstant.int, hcode, Int.toNat_of_nonneg h.1]
  | single | double | decimal => cases hk

/-- There is one constant of a kind for a number, if the kind holds it. -/
theorem ofInt?_eq_some_iff (hk : k.isIntegral) : k.ofInt? i = some d ↔ d.IsIntegral k i := by
  constructor
  · intro hd
    by_cases h : k.Holds i
    · obtain ⟨d', hd', hint⟩ := ofInt?_isIntegral hk h
      rwa [Option.some.inj (hd.symm.trans hd')]
    · unfold ofInt? at hd
      rw [if_neg h] at hd
      cases hd
  · rintro ⟨a, rfl, rfl, rfl⟩
    obtain ⟨_, hd, b, rfl, hkind, hint⟩ := ofInt?_isIntegral hk a.holds
    rw [hd, IntegralConstant.eq_of_int hkind hint]

end NumericKind

namespace IntegralConstant

variable (a : IntegralConstant) {k m : NumericKind} {d : Constant}

theorem coerce?_constant (hk : k.isIntegral) : a.constant.coerce? k = k.ofInt? a.int := by
  rw [Constant.coerce?, a.number?_constant, Option.bind_some]
  cases k with
  | byte | integer | long | char => rfl
  | single | double | decimal => cases hk

theorem coerce?_eq_some_iff (hk : k.isIntegral) :
    a.constant.coerce? k = some d ↔ d.IsIntegral k a.int := by
  rw [a.coerce?_constant hk, NumericKind.ofInt?_eq_some_iff hk]

theorem isSome_coerce?_iff (hk : k.isIntegral) :
    (a.constant.coerce? k).isSome ↔ k.InRange a.int := by
  rw [← NumericKind.holds_iff_inRange, a.coerce?_constant hk, Option.isSome_iff_exists]
  constructor
  · rintro ⟨d, hd⟩
    obtain ⟨b, -, rfl, hint⟩ := (NumericKind.ofInt?_eq_some_iff hk).mp hd
    exact hint ▸ b.holds
  · intro h
    obtain ⟨d, hd, -⟩ := NumericKind.ofInt?_isIntegral hk h
    exact ⟨d, hd⟩

/-- One coercion leaves all further coercions as they were. -/
theorem coerce?_coerce? (hm : m.isIntegral) (hk : k.isIntegral)
    (hd : a.constant.coerce? m = some d) : d.coerce? k = a.constant.coerce? k := by
  obtain ⟨b, rfl, -, hint⟩ := (a.coerce?_eq_some_iff hm).mp hd
  rw [b.coerce?_constant hk, a.coerce?_constant hk, hint]

/-- The constant that is reached through kinds that all hold the number. -/
theorem foldlM_coerce? (path : List NumericKind)
    (h : ∀ m ∈ path, m.isIntegral ∧ m.InRange a.int) :
    ∃ b : IntegralConstant, path.foldlM Constant.coerce? a.constant = some b.constant ∧
      b.int = a.int := by
  induction path generalizing a with
  | nil => exact ⟨a, rfl, rfl⟩
  | cons m path ih =>
      obtain ⟨hm, hrange⟩ := h m List.mem_cons_self
      obtain ⟨d, hd⟩ := Option.isSome_iff_exists.mp ((a.isSome_coerce?_iff hm).mpr hrange)
      obtain ⟨b, rfl, -, hint⟩ := (a.coerce?_eq_some_iff hm).mp hd
      obtain ⟨c, hc, hint'⟩ := ih b fun m' hm' => hint ▸ h m' (List.mem_cons_of_mem m hm')
      refine ⟨c, ?_, hint'.trans hint⟩
      rw [List.foldlM_cons, hd]
      exact hc

/-- A byte, an integer, a long or a character is coerced to one of these kinds exactly if its number
lies in the range. The result is the constant of that kind for the same number and is coerced back
to what it was; and a coercion through kinds that accept the number ends where the direct one
does. -/
theorem coercion_lossless (a : IntegralConstant) {k : NumericKind} (hk : k.isIntegral) :
    ((a.constant.coerce? k).isSome ↔ k.InRange a.int) ∧
    (∀ d, a.constant.coerce? k = some d →
      d.IsIntegral k a.int ∧ d.coerce? a.kind = some a.constant) ∧
    ∀ path : List NumericKind, (∀ m ∈ path, m.isIntegral ∧ m.InRange a.int) →
      (path.foldlM Constant.coerce? a.constant).bind (·.coerce? k) = a.constant.coerce? k := by
  refine ⟨a.isSome_coerce?_iff hk, fun d hd => ⟨(a.coerce?_eq_some_iff hk).mp hd, ?_⟩,
    fun path hpath => ?_⟩
  · rw [a.coerce?_coerce? hk a.isIntegral_kind hd, a.coerce?_eq_some_iff a.isIntegral_kind]
    exact ⟨a, rfl, rfl, rfl⟩
  · obtain ⟨b, hb, hint⟩ := a.foldlM_coerce? path hpath
    rw [hb, Option.bind_some, b.coerce?_constant hk, a.coerce?_constant hk, hint]

/-- A long that is the code of a letter, through an integer and the letter itself; no character has
the code of a surrogate. -/
theorem coercion_lossless_letter :
    let a := IntegralConstant.whole (.long 955)
    let path := [NumericKind.integer, .char, .long]
    NumericKind.char.isIntegral ∧ (∀ m ∈ path, m.isIntegral ∧ m.InRange a.int) ∧
      a.constant.coerce? .char = some (.char 'λ') ∧
      (Constant.char 'λ').coerce? .long = some (.long 955) ∧
      (path.foldlM Constant.coerce? a.constant).bind (·.coerce? .char) = some (.char 'λ') ∧
      (IntegralConstant.whole (.integer 0xD800)).constant.coerce? .char = none := by
  intro a path
  have hpath : ∀ m ∈ path, m.isIntegral ∧ m.InRange a.int := by decide
  have hletter : a.constant.coerce? .char = some (.char 'λ') := by decide +kernel
  obtain ⟨-, lossless, through⟩ := coercion_lossless a (k := .char) rfl
  obtain ⟨surrogate, -, -⟩ :=
    coercion_lossless (IntegralConstant.whole (.integer 0xD800)) (k := .char) rfl
  refine ⟨rfl, hpath, hletter, (lossless _ hletter).2, (through path hpath).trans hletter, ?_⟩
  exact Option.not_isSome_iff_eq_none.mp ((not_congr surrogate).mpr (by decide))

end IntegralConstant
end StaticSemantics
