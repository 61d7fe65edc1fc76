import StaticSemantics.Proofs.InRange.Edits

/-!
The table that every program starts from, in range. It is the same in every memory: each of its
types and names is added to what is there already.
-/

namespace StaticSemantics.SymbolTable

variable {w : SymbolTable} {r : OutOfRange}

/-! ## Names of the language -/

theorem within_supply (o : Owner) (name : String) (x : Symbol) : w.Within (w.supply o name x) :=
  .of_count_eq (count_define o name x)

theorem supplyType_inRange {m : ModuleId} (hm : w.modules.Has m) (name : String) {t : TypeId}
    (ht : w.types.Has t) :
    @supply ⟨r⟩ w (.module m) name (.type t) = w.supply (.module m) name (.type t) :=
  congrArg Prod.snd (define_inRange (by simpa [Owner.ids] using hm) name
    (by simpa [Symbol.ids] using ht))

theorem supplyModule_inRange {m m' : ModuleId} (hm : w.modules.Has m) (name : String)
    (hm' : w.modules.Has m') :
    @supply ⟨r⟩ w (.module m) name (.module m') = w.supply (.module m) name (.module m') :=
  congrArg Prod.snd (define_inRange (by simpa [Owner.ids] using hm) name
    (by simpa [Symbol.ids] using hm'))

/-- Adds a type and defines its name among the global ones. -/
def supplyNew [Memory] (w : SymbolTable) (kind : TypeKind) (superType : Option TypeId)
    (name : String) : SymbolTable :=
  (w.addTypeWithMembers kind (some name) superType).2.supply (.module .globalModule) name
    (.type w.types.next)

theorem supplyNew_inRange (hm : w.modules.Has .globalModule) (kind : TypeKind)
    {superType : Option TypeId} (hs : ∀ s ∈ superType, w.types.Has s) (name : String) :
    @supplyNew ⟨r⟩ w kind superType name = w.supplyNew kind superType name := by
  have hm' : (w.addTypeWithMembers kind (some name) superType).2.modules.Has .globalModule := hm
  have ht : (w.addTypeWithMembers kind (some name) superType).2.types.Has w.types.next :=
    Arena.has_push.mpr (.inl rfl)
  simp only [supplyNew, addTypeWithMembers_inRange kind (some name) hs,
    supplyType_inRange hm' name ht]

/-! ## The supplied types -/

/-- The table has what types are added below and what they are named in. -/
structure Founded (w : SymbolTable) : Prop where
  object : w.types.Has .object
  globalModule : w.modules.Has .globalModule

namespace Founded

theorem mono {w' : SymbolTable} (h : w.Founded) (hw : w.Within w') : w'.Founded :=
  ⟨(has_type.mpr h.object).mono hw, (has_module.mpr h.globalModule).mono hw⟩

theorem supplyNew (h : w.Founded) (kind : TypeKind) (name : String) :
    (w.supplyNew kind (some .object) name).Founded :=
  (h.mono (within_addTypeWithMembers kind _ _)).mono (within_supply _ name _)

theorem supplyNew_inRange (h : w.Founded) (kind : TypeKind) (name : String) :
    @SymbolTable.supplyNew ⟨r⟩ w kind (some .object) name = w.supplyNew kind (some .object) name :=
  SymbolTable.supplyNew_inRange h.globalModule kind (by simpa using h.object) name

theorem foldl_inRange (h : w.Founded) (kind : TypeKind) (names : List String) :
    names.foldl (@SymbolTable.supplyNew ⟨r⟩ · kind (some .object)) w =
        names.foldl (·.supplyNew kind (some .object)) w ∧
      (names.foldl (·.supplyNew kind (some .object)) w).Founded := by
  induction names generalizing w with
  | nil => exact ⟨rfl, h⟩
  | cons name names ih =>
      rw [List.foldl_cons, List.foldl_cons, h.supplyNew_inRange kind name]
      exact ih (h.supplyNew kind name)

theorem classes_inRange (h : w.Founded) (names : List String) :
    names.foldl (@supplyGlobalClass ⟨r⟩) w = names.foldl supplyGlobalClass w ∧
      (names.foldl supplyGlobalClass w).Founded :=
  h.foldl_inRange (.cls { sealed := true }) names

theorem structs_inRange (h : w.Founded) (names : List String) :
    names.foldl (@supplyGlobalStruct ⟨r⟩) w = names.foldl supplyGlobalStruct w ∧
      (names.foldl supplyGlobalStruct w).Founded :=
  h.foldl_inRange .struct names

end Founded

/-- The two modules that are there before any name is defined. -/
def languageModules (interner : Interner) : SymbolTable :=
  ((({ nameTable := { interner } } : SymbolTable).addModule "Sable").2.setRoot "Sable"
    .languageModule).addModule "Global" |>.2

/-- Adds the types that have no member table. -/
def addBareTypes (w : SymbolTable) : SymbolTable :=
  [TypeKind.any, .empty, .nothing, .null].foldl (fun w kind => (w.addType { kind }).2) w

theorem foundation_eq [Memory] (interner : Interner) :
    foundation interner =
      (addBareTypes ((languageModules interner).supply (.module .languageModule) "Global"
        (.module .globalModule))).supplyNew (.cls {}) none "Object" :=
  rfl

theorem foundation_inRange (interner : Interner) :
    @foundation ⟨r⟩ interner = foundation interner ∧ (foundation interner).Founded := by
  have hlanguage : (languageModules interner).modules.Has .languageModule := Nat.zero_lt_two
  have hglobal : (languageModules interner).modules.Has .globalModule := Nat.one_lt_two
  have hcount : ((languageModules interner).supply (.module .languageModule) "Global"
      (.module .globalModule)).count = (languageModules interner).count := count_define _ _ _
  rw [foundation_eq, @foundation_eq ⟨r⟩, supplyModule_inRange hlanguage "Global" hglobal]
  generalize (languageModules interner).supply _ _ _ = w at hcount
  have hm : (addBareTypes w).modules.Has .globalModule :=
    (has_congr hcount (EntityId.tagged .globalModule)).mpr hglobal
  have htypes : w.types.size = 0 := congrFun hcount .type
  have hf : ((addBareTypes w).addTypeWithMembers (.cls {}) (some "Object") none).2.Founded := by
    refine ⟨?_, hm⟩
    simp [addTypeWithMembers, addBareTypes, addType, Arena.Has, htypes, EntityId.object]
  exact ⟨supplyNew_inRange hm _ (by simp) _, hf.mono (within_supply _ _ _)⟩

/-- Adds the module for reflection and the class in it, and names `Any`. -/
def supplyReflect [Memory] (w : SymbolTable) : SymbolTable :=
  let reflect := w.modules.next
  let w := (w.addModule "Reflect").2.supply (.module .globalModule) "Reflect" (.module reflect)
  let cls := w.types.next
  let w := (w.addClass "Class" false).2.supply (.module reflect) "Class" (.type cls)
  w.supply (.module .globalModule) "Any" (.type .any)

theorem Founded.supplyReflect_inRange (h : w.Founded) :
    @supplyReflect ⟨r⟩ w = w.supplyReflect := by
  have hreflect : (w.addModule "Reflect").2.modules.Has w.modules.next :=
    Arena.has_push.mpr (.inl rfl)
  have hw := within_supply (w := (w.addModule "Reflect").2) (.module .globalModule) "Reflect"
    (.module w.modules.next)
  have h' := (h.mono (within_addModule "Reflect")).mono hw
  have hreflect' := (has_module.mpr hreflect).mono hw
  simp only [supplyReflect,
    supplyModule_inRange (h.mono (within_addModule "Reflect")).globalModule "Reflect" hreflect]
  generalize (w.addModule "Reflect").2.supply _ _ _ = w' at h' hreflect'
  have hclass : @addClass ⟨r⟩ w' "Class" false = w'.addClass "Class" false :=
    addBelowObject_inRange h'.object _ _
  have hmodule : (w'.addClass "Class" false).2.modules.Has w.modules.next := hreflect'
  have hcls : (w'.addClass "Class" false).2.types.Has w'.types.next :=
    Arena.has_push.mpr (.inl rfl)
  have h'' := (h'.mono (within_addTypeWithMembers _ _ _)).mono
    (within_supply (w := (w'.addClass "Class" false).2) (.module w.modules.next) "Class"
      (.type w'.types.next))
  simp only [hclass, supplyType_inRange hmodule "Class" hcls]
  exact supplyType_inRange h''.globalModule "Any" (Nat.lt_of_le_of_lt (Nat.zero_le _) h''.object)

theorem initial_eq [Memory] (interner : Interner) :
    initial interner =
      (["Collection", "ByteCollection", "Generator", "Promise"].foldl supplyGlobalClass
        (["Integer", "Long", "Byte", "Single", "Double", "Decimal", "Char", "Boolean"].foldl
          supplyGlobalStruct
          (["Callable", "String"].foldl supplyGlobalClass (foundation interner)))).supplyReflect :=
  rfl

theorem initial_inRange (interner : Interner) : @initial ⟨r⟩ interner = initial interner := by
  obtain ⟨hfoundation, h⟩ := foundation_inRange (r := r) interner
  obtain ⟨hfirst, h⟩ := h.classes_inRange (r := r) ["Callable", "String"]
  obtain ⟨hstructs, h⟩ := h.structs_inRange (r := r)
    ["Integer", "Long", "Byte", "Single", "Double", "Decimal", "Char", "Boolean"]
  obtain ⟨hlast, h⟩ := h.classes_inRange (r := r)
    ["Collection", "ByteCollection", "Generator", "Promise"]
  rw [initial_eq, @initial_eq ⟨r⟩, hfoundation, hfirst, hstructs, hlast,
    h.supplyReflect_inRange]

end StaticSemantics.SymbolTable
