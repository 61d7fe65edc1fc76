import StaticSemantics.Text.LowerCase

/-!
Keys of names. Names that differ only in case share a key. Where the keys come from is left open: an
interner answers by the texts that it has taken in so far, and nothing is relied on but the laws
stated with it.
-/

namespace StaticSemantics

structure Key where
  number : Nat
  deriving DecidableEq, Repr

/-- A source of keys for texts. Its answers may depend on all the texts that it has taken in and on
their order. -/
structure Interner where
  get? : List String → String → Option Key
  text? : List String → Key → Option String
  /-- No text has a key at first. -/
  get?_nil : ∀ t, get? [] t = none
  /-- A text has a key once it has been taken in. -/
  isSome_get?_concat : ∀ taken t, get? taken t = none → (get? (taken ++ [t]) t).isSome
  /-- This changes nothing for other texts. -/
  get?_concat_of_ne : ∀ taken t u, get? taken t = none → u ≠ t →
    get? (taken ++ [t]) u = get? taken u
  /-- A key leads back to its text. -/
  text?_eq : ∀ taken t k, get? taken t = some k → text? taken k = some t

/-- Numbers texts in the order in which they come. -/
def Interner.counting : Interner where
  get? taken t := (taken.findIdx? (· == t)).map Key.mk
  text? taken k := taken[k.number]?
  get?_nil _ := rfl
  isSome_get?_concat taken t h := by simp [List.findIdx?_append]
  get?_concat_of_ne taken t u _ hu := by simp [List.findIdx?_append, Ne.symm hu]
  text?_eq taken t k h := by
    obtain ⟨i, hi, rfl⟩ := Option.map_eq_some_iff.mp h
    obtain ⟨hlt, heq, _⟩ := List.findIdx?_eq_some_iff_getElem.mp hi
    rw [List.getElem?_eq_getElem hlt]
    simpa using heq

structure NameTable where
  interner : Interner := .counting
  /-- The texts that have a key, the earliest first. -/
  taken : List String := []

namespace NameTable

/-- The key of a name, if it has been given one. -/
def lookup? (n : NameTable) (name : String) : Option Key :=
  n.interner.get? n.taken (Text.lowerCase name)

/-- The key of a name, which is given one if it has none. -/
def intern (n : NameTable) (name : String) : Key × NameTable :=
  match h : n.lookup? name with
  | some k => (k, n)
  | none =>
    let n' := { n with taken := n.taken ++ [Text.lowerCase name] }
    ((n'.lookup? name).get (n.interner.isSome_get?_concat n.taken _ h), n')

/-- The text that a key was given to. -/
def text (n : NameTable) (k : Key) : String := (n.interner.text? n.taken k).getD ""

end NameTable
end StaticSemantics
