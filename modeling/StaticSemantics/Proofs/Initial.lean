import StaticSemantics.Proofs.Naming
import StaticSemantics.SymbolTable.Initial

/-!
The initial table without regard to keys. Which keys the names of the language have is up to the
interner. Nothing else that is declared from the start depends on it, and neither does what a name
stands for.
-/

namespace StaticSemantics

/-- The same modules up to the keys of their names: these are bound to the same symbols in the same
order. -/
structure Rekeyed (modules : Arena .module ModuleDecl) (n : NameTable)
    (modules' : Arena .module ModuleDecl) (n' : NameTable) : Prop where
  size : modules'.size = modules.size
  decl : ∀ m, modules'.get m = { modules.get m with names := (modules'.get m).names }
  symbols : ∀ m, (modules'.get m).names.entries.map Prod.snd =
    (modules.get m).names.entries.map Prod.snd
  entry : ∀ m name, (n'.lookup? name).bind (modules'.get m).names.get? =
    (n.lookup? name).bind (modules.get m).names.get?
  known : ∀ m, (modules.get m).names.Known n
  known' : ∀ m, (modules'.get m).names.Known n'

namespace Rekeyed

variable {modules modules' : Arena .module ModuleDecl} {n n' : NameTable}

theorem next_eq (h : Rekeyed modules n modules' n') : modules'.next = modules.next := by
  rw [Arena.next, Arena.next, h.size]

theorem has_iff (h : Rekeyed modules n modules' n') (m : ModuleId) :
    modules'.Has m ↔ modules.Has m := by
  rw [Arena.Has, Arena.Has, h.size]

theorem push (h : Rekeyed modules n modules' n') (name : String) :
    Rekeyed (modules.push { name }) n (modules'.push { name }) n' := by
  refine ⟨by simp [h.size], fun m => ?_, fun m => ?_, fun m name => ?_, fun m => ?_, fun m => ?_⟩
  all_goals simp only [Arena.get_push, h.next_eq]
  all_goals split
  · rfl
  · exact h.decl m
  · rfl
  · exact h.symbols m
  · exact (Bindings.bind_get?_empty _).trans (Bindings.bind_get?_empty _).symm
  · exact h.entry m name
  · exact Bindings.known_empty n
  · exact h.known m
  · exact Bindings.known_empty n'
  · exact h.known' m

theorem names_setDefinedIn (modules : Arena .module ModuleDecl) (m : ModuleId) (o : Option Owner)
    (j : ModuleId) :
    ((modules.modify m ({ · with definedIn := o })).get j).names = (modules.get j).names :=
  modules.congr_get_modify (f := ModuleDecl.names) m (fun x => by rfl) j

theorem setDefinedIn (h : Rekeyed modules n modules' n') (m : ModuleId) (o : Option Owner) :
    Rekeyed (modules.modify m ({ · with definedIn := o })) n
      (modules'.modify m ({ · with definedIn := o })) n' := by
  refine ⟨by simp [h.size], fun j => ?_, fun j => ?_, fun j name => ?_, fun j => ?_, fun j => ?_⟩
  · simp only [Arena.get_modify, h.has_iff]
    split
    · rw [h.decl j]
    · exact h.decl j
  · rw [names_setDefinedIn, names_setDefinedIn, h.symbols]
  · rw [names_setDefinedIn, names_setDefinedIn, h.entry]
  · rw [names_setDefinedIn]
    exact h.known j
  · rw [names_setDefinedIn]
    exact h.known' j

/-- A name that is not taken in a module is bound under the key that it gets. -/
theorem insert (h : Rekeyed modules n modules' n') (m : ModuleId) (name : String) (s : Symbol)
    (hn : (n.lookup? name).bind (modules.get m).names.get? = none) :
    Rekeyed
      (modules.modify m fun x => { x with names := x.names.insert (n.intern name).1 s })
      (n.intern name).2
      (modules'.modify m fun x => { x with names := x.names.insert (n'.intern name).1 s })
      (n'.intern name).2 := by
  have hn' := (h.entry m name).trans hn
  rw [← (h.known m).get?_intern] at hn
  rw [← (h.known' m).get?_intern] at hn'
  refine ⟨by simp [h.size], fun j => ?_, fun j => ?_, fun j name' => ?_, fun j => ?_, fun j => ?_⟩
  all_goals simp only [Arena.get_modify, h.has_iff]
  all_goals split
  · rw [h.decl j]
  · exact h.decl j
  · rename_i hj
    obtain ⟨rfl, _⟩ := hj
    simp only [Bindings.entries_insert hn, Bindings.entries_insert hn', List.map_append, h.symbols,
      List.map_cons, List.map_nil]
  · exact h.symbols j
  · rw [(h.known j).lookup?_insert, (h.known' j).lookup?_insert, h.entry]
  · rw [(h.known j).lookup?_intern, (h.known' j).lookup?_intern, h.entry]
  · exact ((h.known j).intern name).insert ⟨_, n.lookup?_intern_self name⟩ s
  · exact (h.known j).intern name
  · exact ((h.known' j).intern name).insert ⟨_, n'.lookup?_intern_self name⟩ s
  · exact (h.known' j).intern name

end Rekeyed

namespace SymbolTable

variable {w w' : SymbolTable}

/-- Both tables are the same up to the keys of the names in modules. -/
def Alike (w w' : SymbolTable) : Prop :=
  ∃ modules nameTable, w' = { w with modules, nameTable } ∧
    Rekeyed w.modules w.nameTable modules nameTable

namespace Alike

theorem start (i j : Interner) :
    Alike { nameTable := { interner := i } } { nameTable := { interner := j } } := by
  refine ⟨{}, { interner := j }, rfl, rfl, fun _ => rfl, fun _ => rfl, fun _ _ => ?_, fun _ => ?_,
    fun _ => ?_⟩
  · exact (Bindings.bind_get?_empty _).trans (Bindings.bind_get?_empty _).symm
  · exact Bindings.known_empty _
  · exact Bindings.known_empty _

theorem addModule (h : Alike w w') (name : String) :
    Alike (w.addModule name).2 (w'.addModule name).2 := by
  obtain ⟨modules, nameTable, rfl, h⟩ := h
  exact ⟨_, _, rfl, h.push name⟩

theorem addType (h : Alike w w') (d : TypeDecl) : Alike (w.addType d).2 (w'.addType d).2 := by
  obtain ⟨modules, nameTable, rfl, h⟩ := h
  exact ⟨_, _, rfl, h⟩

theorem setRoot (h : Alike w w') (name : String) (m : ModuleId) :
    Alike (w.setRoot name m) (w'.setRoot name m) := by
  obtain ⟨modules, nameTable, rfl, h⟩ := h
  exact ⟨_, _, rfl, h⟩

theorem addTypeWithMembers (h : Alike w w') (kind : TypeKind) (name : Option String)
    (superType : Option TypeId) :
    Alike (w.addTypeWithMembers kind name superType).2
      (w'.addTypeWithMembers kind name superType).2 := by
  obtain ⟨modules, nameTable, rfl, h⟩ := h
  exact ⟨_, _, rfl, h⟩

theorem supply (h : Alike w w') (m : ModuleId) (name : String) (s : Symbol) :
    Alike (w.supply (.module m) name s) (w'.supply (.module m) name s) := by
  obtain ⟨modules, nameTable, rfl, h⟩ := h
  have hentry : { w with modules, nameTable }.bound? (.module m) name = w.bound? (.module m) name :=
    h.entry m name
  have hknown : (w.bindings (.module m)).Known w.nameTable := h.known m
  have hknown' : ({ w with modules, nameTable }.bindings (.module m)).Known nameTable := h.known' m
  rw [SymbolTable.supply, SymbolTable.supply, define_eq hknown, define_eq hknown', hentry]
  cases he : w.bound? (.module m) name with
  | some existing =>
      dsimp only
      split <;> exact ⟨_, _, rfl, h⟩
  | none =>
      dsimp only
      cases s with
      | module u =>
          refine ⟨_, _, rfl, (h.setDefinedIn u (some (.module m))).insert m name (.module u) ?_⟩
          rw [Rekeyed.names_setDefinedIn]
          exact he
      | type _ | slot _ | aliasDecl _ | value _ | error _ =>
          exact ⟨_, _, rfl, h.insert m name _ he⟩

theorem nextType_eq (h : Alike w w') : w'.types.next = w.types.next := by
  obtain ⟨_, _, rfl, _⟩ := h
  rfl

theorem nextModule_eq (h : Alike w w') : w'.modules.next = w.modules.next := by
  obtain ⟨_, _, rfl, h⟩ := h
  exact h.next_eq

/-- A new type is supplied under a name. -/
theorem supplyType (h : Alike w w') (kind : TypeKind) (super : Option TypeId) (m : ModuleId)
    (name : String) :
    Alike
      ((w.addTypeWithMembers kind (some name) super).2.supply (.module m) name
        (.type w.types.next))
      ((w'.addTypeWithMembers kind (some name) super).2.supply (.module m) name
        (.type w'.types.next)) := by
  rw [h.nextType_eq]
  exact (h.addTypeWithMembers kind (some name) super).supply m name _

theorem supplyGlobalClass (h : Alike w w') (name : String) :
    Alike (w.supplyGlobalClass name) (w'.supplyGlobalClass name) :=
  h.supplyType _ _ .globalModule name

theorem supplyGlobalStruct (h : Alike w w') (name : String) :
    Alike (w.supplyGlobalStruct name) (w'.supplyGlobalStruct name) :=
  h.supplyType _ _ .globalModule name

theorem foldl {step : SymbolTable → String → SymbolTable}
    (hs : ∀ w w' name, Alike w w' → Alike (step w name) (step w' name)) (h : Alike w w')
    (names : List String) : Alike (names.foldl step w) (names.foldl step w') := by
  induction names generalizing w w' with
  | nil => exact h
  | cons name names ih => exact ih (hs w w' name h)

theorem foundation (i j : Interner) : Alike (foundation i) (foundation j) := by
  have modules := (((start i j).addModule "Sable").setRoot "Sable" .languageModule).addModule
    "Global"
  have types := ((((modules.supply .languageModule "Global" (.module .globalModule)).addType
    { kind := .any }).addType { kind := .empty }).addType { kind := .nothing }).addType
    { kind := .null }
  exact (types.addTypeWithMembers (.cls {}) (some "Object") none).supply .globalModule "Object"
    (.type .object)

end Alike

/-- Whatever the interner, the initial table is the same up to the keys. -/
theorem initial_alike (i : Interner) : Alike (initial .counting) (initial i) := by
  have classes := (Alike.foundation .counting i).foldl (fun _ _ name h => h.supplyGlobalClass name)
    ["Callable", "String"]
  have structs := classes.foldl (fun _ _ name h => h.supplyGlobalStruct name)
    ["Integer", "Long", "Byte", "Single", "Double", "Decimal", "Char", "Boolean"]
  have others := structs.foldl (fun _ _ name h => h.supplyGlobalClass name)
    ["Collection", "ByteCollection", "Generator", "Promise"]
  unfold initial
  dsimp only [SymbolTable.addModule]
  generalize List.foldl SymbolTable.supplyGlobalClass _ _ = w at others ⊢
  generalize List.foldl SymbolTable.supplyGlobalClass _ _ = w' at others ⊢
  rw [others.nextModule_eq]
  have reflect := (others.addModule "Reflect").supply .globalModule "Reflect"
    (.module w.modules.next)
  exact (reflect.supplyType _ _ w.modules.next "Class").supply .globalModule "Any" (.type .any)

/-- What depends on neither modules nor keys holds of the initial table whatever the interner, if it
does for one. -/
theorem initial_induction {P : SymbolTable → Prop}
    (hP : ∀ w modules nameTable, P w → P { w with modules, nameTable })
    (h : P (initial .counting)) (i : Interner) : P (initial i) := by
  obtain ⟨modules, nameTable, hi, _⟩ := initial_alike i
  rw [hi]
  exact hP _ modules nameTable h

end SymbolTable
end StaticSemantics
