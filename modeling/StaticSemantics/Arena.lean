import StaticSemantics.Id

/-!
Arenas: growing tables of entities. Entries are added and changed in place but never removed, so an
id stays valid. What comes of an access with an id that the arena has not given out is left open.
-/

namespace StaticSemantics

structure Arena (e : Entity) (α : Type) where
  entries : Array α := #[]

/-- What comes of accesses with ids that have not been given out. -/
structure OutOfRange where
  read : {e : Entity} → {α : Type} → [Inhabited α] → Arena e α → EntityId e → α
  write : {e : Entity} → {α : Type} → Arena e α → EntityId e → (α → α) → Arena e α

/-- All code that accesses arenas is written for any memory. -/
class Memory where
  outOfRange : OutOfRange

/-- The memory in which code runs: a read out of range yields the default entry, and a write has no
effect. -/
instance : Memory where
  outOfRange := { read := fun _ _ => default, write := fun a _ _ => a }

namespace Arena

variable {e : Entity} {α : Type}

def size (a : Arena e α) : Nat := a.entries.size

/-- The id that the next entry will have. -/
def next (a : Arena e α) : EntityId e := ⟨a.size⟩

/-- The id has been given out. -/
def Has (a : Arena e α) (i : EntityId e) : Prop := i.index < a.size

instance (a : Arena e α) (i : EntityId e) : Decidable (a.Has i) :=
  inferInstanceAs (Decidable (i.index < a.size))

def get [Memory] [Inhabited α] (a : Arena e α) (i : EntityId e) : α :=
  a.entries[i.index]?.getD (Memory.outOfRange.read a i)

def push (a : Arena e α) (x : α) : Arena e α := ⟨a.entries.push x⟩

def modify [Memory] (a : Arena e α) (i : EntityId e) (change : α → α) : Arena e α :=
  if a.Has i then ⟨a.entries.modify i.index change⟩ else Memory.outOfRange.write a i change

/-- All ids given out, in order. -/
def ids (a : Arena e α) : List (EntityId e) := (List.range a.size).map EntityId.mk

@[simp] theorem size_push (a : Arena e α) (x : α) : (a.push x).size = a.size + 1 := by
  simp [size, push]

theorem modify_eq (a : Arena e α) (i : EntityId e) (change : α → α) :
    a.modify i change = ⟨a.entries.modify i.index change⟩ := by
  unfold modify
  split
  · rfl
  · rename_i hi
    have hn : a.entries.size ≤ i.index := Nat.le_of_not_lt hi
    refine congrArg Arena.mk (Array.ext (by simp) fun j hj _ => ?_)
    rw [Array.getElem_modify, if_neg (by omega)]

@[simp] theorem size_modify (a : Arena e α) (i : EntityId e) (change : α → α) :
    (a.modify i change).size = a.size := by
  simp [size, modify_eq]

theorem mem_ids {a : Arena e α} {i : EntityId e} : i ∈ a.ids ↔ a.Has i := by
  cases i
  simp [ids, Has]

theorem not_has_next (a : Arena e α) : ¬ a.Has a.next := Nat.lt_irrefl a.size

theorem has_push {a : Arena e α} {x : α} {i : EntityId e} :
    (a.push x).Has i ↔ i = a.next ∨ a.Has i := by
  cases i
  simp only [Has, size_push, next, EntityId.mk.injEq]
  omega

theorem modify_push_next (a : Arena e α) (x : α) (change : α → α) :
    (a.push x).modify a.next change = a.push (change x) := by
  simp only [modify_eq, push, next, size, mk.injEq]
  apply Array.ext
  · simp
  · intro i hi _
    simp only [Array.size_modify, Array.size_push] at hi
    rw [Array.getElem_modify, Array.getElem_push, Array.getElem_push]
    split <;> split <;> first | rfl | omega

theorem modify_modify (a : Arena e α) (i : EntityId e) (change change' : α → α) :
    (a.modify i change).modify i change' = a.modify i (change' ∘ change) := by
  simp only [modify_eq, mk.injEq]
  apply Array.ext
  · simp
  · intro j _ _
    simp only [Array.getElem_modify]
    split <;> rfl

variable [Inhabited α]

theorem get_eq (a : Arena e α) (i : EntityId e) : a.get i = a.entries[i.index]?.getD default := rfl

@[simp] theorem get_push_next (a : Arena e α) (x : α) : (a.push x).get a.next = x := by
  simp [get_eq, push, next, size]

theorem get_push_of_has {a : Arena e α} {i : EntityId e} (h : a.Has i) (x : α) :
    (a.push x).get i = a.get i := by
  have hi : i.index ≠ a.entries.size := Nat.ne_of_lt h
  simp [get_eq, push, Array.getElem?_push, hi]

theorem get_modify_self {a : Arena e α} {i : EntityId e} (h : a.Has i) (change : α → α) :
    (a.modify i change).get i = change (a.get i) := by
  have hi : i.index < a.entries.size := h
  simp [get_eq, modify_eq, hi, Array.getElem_modify]

theorem get_modify_of_ne {i j : EntityId e} (h : i ≠ j) (a : Arena e α) (change : α → α) :
    (a.modify i change).get j = a.get j := by
  have hij : i.index ≠ j.index := fun e => h (by cases i; cases j; simp_all)
  simp [get_eq, modify_eq, Array.getElem?_modify, hij]

theorem get_push (a : Arena e α) (x : α) (i : EntityId e) :
    (a.push x).get i = if i = a.next then x else a.get i := by
  cases i with
  | mk n =>
      simp only [get_eq, push, next, size, Array.getElem?_push, EntityId.mk.injEq]
      split <;> rfl

theorem get_modify (a : Arena e α) (i j : EntityId e) (change : α → α) :
    (a.modify i change).get j = if i = j ∧ a.Has i then change (a.get j) else a.get j := by
  by_cases hij : i = j
  · subst hij
    by_cases hi : a.Has i
    · simp [get_modify_self hi, hi]
    · have hn : a.entries[i.index]? = none := Array.getElem?_eq_none (Nat.le_of_not_lt hi)
      simp [get_eq, modify_eq, Array.getElem?_modify, hn, hi]
  · simp [get_modify_of_ne hij, hij]

/-- Only what a change makes of the entry matters. -/
theorem modify_congr {a : Arena e α} {i : EntityId e} {change change' : α → α}
    (h : change (a.get i) = change' (a.get i)) : a.modify i change = a.modify i change' := by
  obtain ⟨entries⟩ := a
  simp only [modify_eq, mk.injEq]
  apply Array.ext
  · simp
  · intro j hj _
    rw [Array.getElem_modify, Array.getElem_modify]
    split
    · rename_i hij
      subst hij
      simp only [Array.size_modify] at hj
      simpa [get_eq, hj] using h
    · rfl

theorem modify_eq_self {a : Arena e α} {i : EntityId e} {change : α → α}
    (h : change (a.get i) = a.get i) : a.modify i change = a := by
  obtain ⟨entries⟩ := a
  simp only [modify_eq, mk.injEq]
  apply Array.ext
  · simp
  · intro j _ hj
    rw [Array.getElem_modify]
    split
    · rename_i hij
      subst hij
      simpa [get_eq, hj] using h
    · rfl

theorem get_of_not_has {a : Arena e α} {i : EntityId e} (h : ¬ a.Has i) : a.get i = default := by
  have hn : a.entries[i.index]? = none := Array.getElem?_eq_none (Nat.le_of_not_lt h)
  simp [get_eq, hn]

/-- An access with an id that has been given out is the same in every memory. -/
theorem get_inRange {a : Arena e α} {i : EntityId e} (h : a.Has i) (r : OutOfRange) :
    @get e α ⟨r⟩ _ a i = a.get i := by
  have hi : i.index < a.entries.size := h
  simp [get, hi]

omit [Inhabited α] in
theorem modify_inRange {a : Arena e α} {i : EntityId e} (h : a.Has i) (r : OutOfRange)
    (change : α → α) : @modify e α ⟨r⟩ a i change = a.modify i change := by
  simp only [modify, if_pos h]

section
variable {β : Type} {f : α → β}

/-- What is read at an id that has just been given out, if it is what is read at others. -/
theorem congr_get_push (a : Arena e α) {x : α} (hx : f x = f default) (i : EntityId e) :
    f ((a.push x).get i) = f (a.get i) := by
  rw [get_push]
  split
  · rename_i hi
    rw [hi, get_of_not_has a.not_has_next, hx]
  · rfl

theorem congr_get_modify (a : Arena e α) (i : EntityId e) {change : α → α}
    (hc : ∀ x, f (change x) = f x) (j : EntityId e) :
    f ((a.modify i change).get j) = f (a.get j) := by
  rw [get_modify]
  split
  · exact hc _
  · rfl

end

end Arena
end StaticSemantics
