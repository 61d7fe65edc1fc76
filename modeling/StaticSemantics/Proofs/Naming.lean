import StaticSemantics.Lookup

/-!
Names and their keys. A name gets a key that no text had before, and the texts that have one keep
theirs. So as long as tables bind only keys that have been given out, interning a name changes
nothing that a name stands for.
-/

namespace StaticSemantics

namespace NameTable

variable {n : NameTable} {name name' : String} {k : Key}

/-- The key has been given to a text. -/
def Knows (n : NameTable) (k : Key) : Prop := ∃ t, n.interner.get? n.taken t = some k

theorem lookup?_respelled (n : NameTable) (h : Text.lowerCase name' = Text.lowerCase name) :
    n.lookup? name' = n.lookup? name := by
  rw [lookup?, lookup?, h]

/-- Names that share a key differ in case alone. -/
theorem lowerCase_eq_of_lookup? (h : n.lookup? name = some k) (h' : n.lookup? name' = some k) :
    Text.lowerCase name' = Text.lowerCase name :=
  Option.some.inj ((n.interner.text?_eq _ _ _ h').symm.trans (n.interner.text?_eq _ _ _ h))

theorem intern_of_lookup? (h : n.lookup? name = some k) : n.intern name = (k, n) := by
  unfold intern
  split
  · rename_i hk
    cases h.symm.trans hk
    rfl
  · rename_i hn
    cases h.symm.trans hn

/-- A name without a key is taken in. -/
theorem intern_of_not_lookup? (h : n.lookup? name = none) :
    (n.intern name).2 = { n with taken := n.taken ++ [Text.lowerCase name] } := by
  unfold intern
  split
  · rename_i hk
    cases h.symm.trans hk
  · rfl

theorem lookup?_intern_self (n : NameTable) (name : String) :
    (n.intern name).2.lookup? name = some (n.intern name).1 := by
  unfold intern
  split
  · assumption
  · exact (Option.some_get _).symm

theorem get?_intern_of_ne {t : String} (ht : t ≠ Text.lowerCase name) :
    (n.intern name).2.interner.get? (n.intern name).2.taken t = n.interner.get? n.taken t := by
  cases h : n.lookup? name with
  | some k => rw [intern_of_lookup? h]
  | none =>
      rw [intern_of_not_lookup? h]
      exact n.interner.get?_concat_of_ne _ _ _ h ht

theorem lookup?_intern_of_ne (h : Text.lowerCase name' ≠ Text.lowerCase name) :
    (n.intern name).2.lookup? name' = n.lookup? name' :=
  get?_intern_of_ne h

/-- A name that has a key keeps it. -/
theorem lookup?_intern_of_lookup? (h : n.lookup? name' = some k) (name : String) :
    (n.intern name).2.lookup? name' = some k := by
  by_cases hn : Text.lowerCase name' = Text.lowerCase name
  · rw [intern_of_lookup? ((n.lookup?_respelled hn).symm.trans h)]
    exact h
  · rw [lookup?_intern_of_ne hn, h]

/-- Keys that have been given out stay so. -/
theorem Knows.intern (h : n.Knows k) (name : String) : (n.intern name).2.Knows k := by
  obtain ⟨t, ht⟩ := h
  cases hn : n.lookup? name with
  | some k' =>
      rw [intern_of_lookup? hn]
      exact ⟨t, ht⟩
  | none =>
      have hne : t ≠ Text.lowerCase name := by
        rintro rfl
        cases hn.symm.trans ht
      exact ⟨t, (get?_intern_of_ne hne).trans ht⟩

/-- A new key is no text's. -/
theorem not_knows_intern (h : n.lookup? name = none) : ¬ n.Knows (n.intern name).1 := by
  rintro ⟨t, ht⟩
  have hne : t ≠ Text.lowerCase name := by
    rintro rfl
    cases h.symm.trans ht
  have htext := (n.intern name).2.interner.text?_eq _ _ _ ((get?_intern_of_ne hne).trans ht)
  have hname := (n.intern name).2.interner.text?_eq _ _ _ (n.lookup?_intern_self name)
  exact hne (Option.some.inj (htext.symm.trans hname))

end NameTable

namespace Bindings

variable {b : Bindings} {n : NameTable} {name name' : String} {k : Key} {s : Symbol}

/-- Every key that is bound has been given to a text. -/
def Known (b : Bindings) (n : NameTable) : Prop := ∀ k ∈ b.keys, n.Knows k

theorem known_empty (n : NameTable) : Bindings.empty.Known n := nofun

/-- No name stands for anything in an empty table. -/
theorem bind_get?_empty (k : Option Key) : k.bind Bindings.empty.get? = none := by
  cases k <;> rfl

namespace Known

theorem get?_eq_none (h : b.Known n) (hk : ¬ n.Knows k) : b.get? k = none :=
  get?_eq_none_iff.mpr fun hb => hk (h k hb)

theorem intern (h : b.Known n) (name : String) : b.Known (n.intern name).2 :=
  fun k hk => (h k hk).intern name

theorem insert (h : b.Known n) (hk : n.Knows k) (s : Symbol) : (b.insert k s).Known n := by
  intro k' hk'
  rcases mem_keys_insert.mp hk' with rfl | hk'
  · exact hk
  · exact h k' hk'

/-- The key that a name has once it is interned leads to what the name stood for before. -/
theorem get?_intern (h : b.Known n) (name : String) :
    b.get? (n.intern name).1 = (n.lookup? name).bind b.get? := by
  cases hk : n.lookup? name with
  | some k => rw [NameTable.intern_of_lookup? hk, Option.bind_some]
  | none => exact h.get?_eq_none (NameTable.not_knows_intern hk)

/-- Interning a name changes nothing that a name stands for. -/
theorem lookup?_intern (h : b.Known n) (name name' : String) :
    ((n.intern name).2.lookup? name').bind b.get? = (n.lookup? name').bind b.get? := by
  by_cases hn : Text.lowerCase name' = Text.lowerCase name
  · rw [NameTable.lookup?_respelled _ hn, n.lookup?_respelled hn, n.lookup?_intern_self name,
      Option.bind_some, h.get?_intern]
  · rw [NameTable.lookup?_intern_of_ne hn]

/-- Binding a name changes nothing that other names stand for. -/
theorem lookup?_insert (h : b.Known n) (name name' : String) (s : Symbol) :
    ((n.intern name).2.lookup? name').bind (b.insert (n.intern name).1 s).get? =
      if Text.lowerCase name' = Text.lowerCase name then some s
      else (n.lookup? name').bind b.get? := by
  split
  · rename_i hn
    rw [NameTable.lookup?_respelled _ hn, n.lookup?_intern_self name, Option.bind_some,
      get?_insert, if_pos rfl]
  · rename_i hn
    rw [← h.lookup?_intern name name']
    refine Option.bind_congr fun k' hk' => ?_
    have hne : (n.intern name).1 ≠ k' := by
      rintro rfl
      exact hn (NameTable.lowerCase_eq_of_lookup? (n.lookup?_intern_self name) hk')
    rw [get?_insert, if_neg hne]

end Known
end Bindings

namespace SymbolTable

variable {w : SymbolTable} {o o' : Owner} {name name' : String} {k : Key} {s : Symbol}

theorem bindings_intern (w : SymbolTable) (name : String) (o : Owner) :
    (w.intern name).2.bindings o = w.bindings o := by
  cases o <;> rfl

theorem bound?_respelled (w : SymbolTable) (o : Owner)
    (h : Text.lowerCase name' = Text.lowerCase name) : w.bound? o name' = w.bound? o name := by
  rw [bound?, bound?, w.nameTable.lookup?_respelled h]

/-- A name that stands for something has its key. -/
theorem intern_of_bound? (h : w.bound? o name = some s) : (w.intern name).2 = w := by
  obtain ⟨k, hk, _⟩ := Option.bind_eq_some_iff.mp h
  rw [intern, NameTable.intern_of_lookup? hk]

theorem nameTable_modifyBindings (w : SymbolTable) (o : Owner) (change : Bindings → Bindings) :
    (w.modifyBindings o change).nameTable = w.nameTable := by
  cases o <;> rfl

/-- A change to the names of one declaration leaves those of all others. -/
theorem bindings_modifyBindings (w : SymbolTable) (o o' : Owner) (change : Bindings → Bindings) :
    (w.modifyBindings o change).bindings o' = w.bindings o' ∨
      o = o' ∧ (w.modifyBindings o change).bindings o' = change (w.bindings o') := by
  cases o <;> cases o'
  case type.type =>
    simp only [bindings, type, modifyBindings, modifyType, Arena.get_modify]
    split <;> simp_all
  case members.members =>
    simp only [bindings, memberTable, modifyBindings, modifyMemberTable, Arena.get_modify]
    split <;> simp_all
  case module.module =>
    simp only [bindings, module, modifyBindings, modifyModule, Arena.get_modify]
    split <;> simp_all
  case frame.frame =>
    simp only [bindings, frame, modifyBindings, modifyFrame, Arena.get_modify]
    split <;> simp_all
  all_goals exact .inl rfl

/-- Where a symbol is defined is no matter of the keys. -/
theorem insert_setDefinedIn_intern (w : SymbolTable) (o : Owner) (name : String) (s : Symbol) :
    ((w.intern name).2.setDefinedIn s o).modifyBindings o (·.insert (w.intern name).1 s) =
      (w.setDefinedIn s o).bind o name s := by
  cases s <;> rfl

/-- Every key that is bound has been given to a name. -/
def Named (w : SymbolTable) : Prop := ∀ o, (w.bindings o).Known w.nameTable

/-- What the definition of a name comes to, by what the name stands for. -/
theorem define_eq (h : (w.bindings o).Known w.nameTable) (name : String) (s : Symbol) :
    w.define o name s =
      match w.bound? o name with
      | some existing =>
        if existing.same s then (.ok (), w) else (.error (.duplicate name existing), w)
      | none => (.ok (), (w.setDefinedIn s o).bind o name s) := by
  have hget : ((w.intern name).2.bindings o).get? (w.intern name).1 = w.bound? o name := by
    rw [bindings_intern]
    exact h.get?_intern name
  unfold define
  dsimp only
  rw [hget, insert_setDefinedIn_intern]
  cases he : w.bound? o name with
  | none => rfl
  | some existing =>
      dsimp only
      rw [intern_of_bound? he]

end SymbolTable
end StaticSemantics
