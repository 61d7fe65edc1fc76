import StaticSemantics.Proofs.Members.EnumMethods
import StaticSemantics.Proofs.Members.Merging

/-!
Definition of names. A table of names is a map in the order in which its keys came, and the keys are
those of names without their case. A definition is refused if the name stands for another symbol and
has no effect if it stands for the same one; else it comes last, and nothing else is bound
differently. A look-up does not depend on how a name is spelled, nor on what other names have been
given keys.
-/

namespace StaticSemantics

/-- Position and symbol of a key are those of its entry. -/
theorem Bindings.getElem?_entries_iff {b : Bindings} {k : Key} {s : Symbol} {i : Nat} :
    b.entries[i]? = some (k, s) ↔ b.index.lookup k = some i ∧ b.get? k = some s := by
  constructor
  · intro he
    have hk : b.keys[i]? = some k := by rw [keys, List.getElem?_map, he]; rfl
    exact ⟨lookup_index_eq_some_iff.mpr hk, get?_eq_some_iff.mpr (List.mem_of_getElem? he)⟩
  · rintro ⟨hi, hs⟩
    rw [get?, hi, Option.bind_some, Option.map_eq_some_iff] at hs
    obtain ⟨e, he, rfl⟩ := hs
    have hk := lookup_index_eq_some_iff.mp hi
    rw [keys, List.getElem?_map, he] at hk
    cases hk
    exact he

/-- Values and errors are defined nowhere. -/
def Symbol.isDeclaration : Symbol → Bool
  | type _ | module _ | slot _ | aliasDecl _ => true
  | value _ | error _ => false

namespace SymbolTable

variable {w w' : SymbolTable} {o : Owner} {name name' : String} {s : Symbol}

/-- The tables of names are maps in the order of their entries, which the index has the places of.
Only keys that have been given out are bound, so that a name without a key stands for nothing, also
not under the key that it would get. -/
structure Tabulated (w : SymbolTable) : Prop where
  distinct : ∀ o, (w.bindings o).keys.Nodup
  known : ∀ o, ∀ k ∈ (w.bindings o).keys, w.nameTable.Knows k
  index : ∀ o k i, (w.bindings o).index.lookup k = some i ↔ (w.bindings o).keys[i]? = some k
  entries : ∀ o i k s, (w.bindings o).entries[i]? = some (k, s) ↔
    (w.bindings o).index.lookup k = some i ∧ (w.bindings o).get? k = some s
  unknown : ∀ o name, w.nameTable.lookup? name = none →
    (w.bindings o).contains (w.intern name).1 = false

theorem Named.tabulated (h : w.Named) : w.Tabulated where
  distinct o := (w.bindings o).nodup
  known := h
  index _ _ _ := Bindings.lookup_index_eq_some_iff
  entries _ _ _ _ := Bindings.getElem?_entries_iff
  unknown o name hn := by
    rw [Bool.eq_false_iff, ne_eq, Bindings.contains_iff]
    exact fun hk => NameTable.not_knows_intern hn (h o _ hk)

/-! ## Definitions -/

theorem bindings_modifyBindings_self (ho : w.Covers o.ids) (change : Bindings → Bindings) :
    (w.modifyBindings o change).bindings o = change (w.bindings o) := by
  cases o with
  | type t =>
      have ht : w.types.Has t := by simpa [Owner.ids] using ho
      simp [bindings, type, modifyBindings, modifyType, Arena.get_modify_self ht]
  | members d =>
      have hd : w.memberTables.Has d := by simpa [Owner.ids] using ho
      simp [bindings, memberTable, modifyBindings, modifyMemberTable, Arena.get_modify_self hd]
  | module m =>
      have hm : w.modules.Has m := by simpa [Owner.ids] using ho
      simp [bindings, module, modifyBindings, modifyModule, Arena.get_modify_self hm]
  | frame f =>
      have hf : w.frames.Has f := by simpa [Owner.ids] using ho
      simp [bindings, frame, modifyBindings, modifyFrame, Arena.get_modify_self hf]

theorem bindings_bind_self (ho : w.Covers o.ids) (name : String) (s : Symbol) :
    (w.bind o name s).bindings o = (w.bindings o).insert (w.nameTable.intern name).1 s := by
  have ho : (w.intern name).2.Covers o.ids := (covers_congr (count_intern (w := w) name)).mpr ho
  unfold bind
  dsimp only
  rw [bindings_modifyBindings_self ho, bindings_intern]
  rfl

theorem bindings_bind_of_ne {o' : Owner} (ho : o' ≠ o) (name : String) (s : Symbol) :
    (w.bind o name s).bindings o' = w.bindings o' := by
  unfold bind
  dsimp only
  rcases (w.intern name).2.bindings_modifyBindings o o' (·.insert (w.intern name).1 s) with
    hb | ⟨rfl, _⟩
  · rw [hb, bindings_intern]
  · exact absurd rfl ho

theorem nameTable_bind (w : SymbolTable) (o : Owner) (name : String) (s : Symbol) :
    (w.bind o name s).nameTable = (w.nameTable.intern name).2 :=
  (w.intern name).2.nameTable_modifyBindings o (·.insert (w.intern name).1 s)

theorem definedIn?_bind (w : SymbolTable) (o : Owner) (name : String) (s t : Symbol) :
    (w.bind o name s).definedIn? t = w.definedIn? t := by
  cases o with
  | type u =>
      cases t with
      | type v => exact Arena.congr_get_modify (f := TypeDecl.definedIn) _ u (fun x => by rfl) v
      | _ => rfl
  | module u =>
      cases t with
      | module v => exact Arena.congr_get_modify (f := ModuleDecl.definedIn) _ u (fun x => by rfl) v
      | _ => rfl
  | members _ | frame _ => cases t <;> rfl

theorem definedIn?_setDefinedIn (hs : w.Covers s.ids) (hd : s.isDeclaration) (o : Owner) :
    (w.setDefinedIn s o).definedIn? s = some o := by
  cases s with
  | type t =>
      have ht : w.types.Has t := by simpa [Symbol.ids] using hs
      simp [definedIn?, type, setDefinedIn, modifyType, Arena.get_modify_self ht]
  | module m =>
      have hm : w.modules.Has m := by simpa [Symbol.ids] using hs
      simp [definedIn?, module, setDefinedIn, modifyModule, Arena.get_modify_self hm]
  | slot i =>
      have hi : w.slots.Has i := by simpa [Symbol.ids] using hs
      simp [definedIn?, slot, setDefinedIn, modifySlot, Arena.get_modify_self hi]
  | aliasDecl a =>
      have ha : w.aliases.Has a := by simpa [Symbol.ids] using hs
      simp [definedIn?, aliasDecl, setDefinedIn, modifyAlias, Arena.get_modify_self ha]
  | value _ | error _ => cases hd

/-- The name has been bound to the symbol after all others of its table, under its key, and nothing
else is bound differently. -/
structure Gains (w w' : SymbolTable) (o : Owner) (name : String) (s : Symbol) : Prop where
  last : ∃ k, w'.nameTable.lookup? name = some k ∧
    (w'.bindings o).entries = (w.bindings o).entries ++ [(k, s)]
  bound : w'.bound? o name = some s
  kept : ∀ k, w'.nameTable.lookup? name ≠ some k → (w'.bindings o).get? k = (w.bindings o).get? k
  others : ∀ o' ≠ o, w'.bindings o' = w.bindings o'
  meanings : ∀ o' name', o' ≠ o ∨ Text.lowerCase name' ≠ Text.lowerCase name →
    w'.bound? o' name' = w.bound? o' name'
  nameTable : w'.nameTable = (w.nameTable.intern name).2
  definedIn : s.isDeclaration → w'.definedIn? s = some o

/-- What the definition of a name for a symbol comes to. Symbols that differ in the sign of a zero
count as the same. -/
structure Definition (w : SymbolTable) (o : Owner) (name : String) (s : Symbol) : Prop where
  refused_iff : (∃ e w', w.define o name s = (.error e, w')) ↔
    ∃ t, w.bound? o name = some t ∧ t.unsignZero ≠ s.unsignZero
  refused : ∀ e w', w.define o name s = (.error e, w') →
    (∃ t, w.bound? o name = some t ∧ e = .duplicate name t) ∧ w' = w
  again : ∀ t, w.bound? o name = some t → t.unsignZero = s.unsignZero →
    w.define o name s = (.ok (), w)
  added : w.bound? o name = none → ∃ w', w.define o name s = (.ok (), w') ∧ w.Gains w' o name s

/-- Binding a name that stands for nothing changes nothing else. -/
theorem Named.gains_bind (h : w.Named) (hf : w.bound? o name = none)
    (ho : w.Covers (o.ids ++ s.ids)) : w.Gains ((w.setDefinedIn s o).bind o name s) o name s := by
  obtain ⟨ho, hs⟩ := covers_append.mp ho
  have same : SameBindings w (w.setDefinedIn s o) := .setDefinedIn s o
  have hbound : ((w.setDefinedIn s o).bind o name s).bindings o =
      (w.bindings o).insert (w.nameTable.intern name).1 s := by
    rw [bindings_bind_self ((covers_congr (count_setDefinedIn s o)).mpr ho), same.bindings,
      same.nameTable]
  have hothers : ∀ o' ≠ o, ((w.setDefinedIn s o).bind o name s).bindings o' = w.bindings o' :=
    fun o' ho' => by rw [bindings_bind_of_ne ho', same.bindings]
  have hnames : ((w.setDefinedIn s o).bind o name s).nameTable = (w.nameTable.intern name).2 := by
    rw [nameTable_bind, same.nameTable]
  have hkey := w.nameTable.lookup?_intern_self name
  have hfree : (w.bindings o).get? (w.nameTable.intern name).1 = none :=
    ((h o).get?_intern name).trans hf
  refine ⟨⟨_, hnames ▸ hkey, ?_⟩, ?_, fun k hk => ?_, hothers, fun o' name' hne => ?_, hnames,
    fun hd => ?_⟩
  · rw [hbound, Bindings.entries_insert hfree]
  · rw [bound?, hnames, hbound, (h o).lookup?_insert, if_pos rfl]
  · rw [hnames, hkey] at hk
    rw [hbound, Bindings.get?_insert, if_neg fun hn => hk (congrArg some hn)]
  · by_cases ho' : o' = o
    · subst ho'
      rw [bound?, hnames, hbound, (h o').lookup?_insert, if_neg (hne.resolve_left (· rfl))]
      rfl
    · rw [bound?, hnames, hothers o' ho', (h o').lookup?_intern]
      rfl
  · rw [definedIn?_bind, definedIn?_setDefinedIn hs hd]

theorem Named.definition (h : w.Named) (hn : w.NanFree) (ho : w.Covers (o.ids ++ s.ids)) :
    w.Definition o name s := by
  have hdefine := define_eq (h o) name s
  cases hb : w.bound? o name with
  | none =>
      rw [hb] at hdefine
      refine ⟨?_, ?_, ?_, fun _ => ⟨_, hdefine, h.gains_bind hb ho⟩⟩ <;> simp [hdefine, hb]
  | some t =>
      obtain ⟨k, -, hk⟩ := Option.bind_eq_some_iff.mp hb
      have same : t.same s = true ↔ t.unsignZero = s.unsignZero :=
        Symbol.same_iff (hn t (.name o k (Bindings.get?_eq_some_iff.mp hk)))
      simp only [hb, same] at hdefine
      refine ⟨?_, ?_, ?_, by simp [hb]⟩
      · rw [hdefine, hb]
        split <;> simp_all
      · intro e w' he
        rw [hdefine] at he
        split at he
        · cases he
        · cases he
          exact ⟨⟨t, hb, rfl⟩, rfl⟩
      · intro t' ht' hs
        rw [hb] at ht'
        cases ht'
        rw [hdefine, if_pos hs]

/-! ## Look-ups -/

/-- Both look-ups come to the same, but that an ambiguous name is reported as it is spelled. So for
one spelling they are equal. -/
def Respelled (name name' : String) (r r' : Option Symbol) : Prop :=
  r' = r ∨ ∃ modules, r = some (.error (.ambiguous name modules)) ∧
    r' = some (.error (.ambiguous name' modules))

theorem respelled_settle (name name' : String) (hits : Hits) :
    Respelled name name' (settle name hits) (settle name' hits) := by
  cases hits with
  | nil => exact .inl rfl
  | cons x rest =>
      simp only [settle]
      by_cases h : rest.all fun y => sameTarget x.1 y.1
      · rw [if_pos h, if_pos h]
        exact .inl rfl
      · rw [if_neg h, if_neg h]
        exact .inr ⟨_, rfl, rfl⟩

theorem respelled_findSome? {α : Type} {l : List α} {f f' : α → Option Symbol}
    (h : ∀ x, Respelled name name' (f x) (f' x)) :
    Respelled name name' (l.findSome? f) (l.findSome? f') := by
  induction l with
  | nil => exact .inl rfl
  | cons x l ih =>
      rw [List.findSome?_cons, List.findSome?_cons]
      rcases h x with hx | ⟨modules, hx, hx'⟩
      · rw [hx]
        cases f x with
        | none => exact ih
        | some s => exact .inl rfl
      · rw [hx, hx']
        exact .inr ⟨modules, rfl, rfl⟩

section

variable (w) {nameTable : NameTable}
  (hentry : ∀ o, { w with nameTable }.bound? o name' = w.bound? o name)
include hentry

theorem resolveIn?_renamed (o : Owner) (wanted : Wanted) :
    { w with nameTable }.resolveIn? o name' wanted = w.resolveIn? o name wanted :=
  w.resolveIn?_frames w.frames wanted (hentry o)

theorem resolveInValue?_renamed (v : Value) (wanted : Wanted) :
    { w with nameTable }.resolveInValue? v name' wanted = w.resolveInValue? v name wanted :=
  w.resolveInValue?_frames w.frames v wanted (hentry <| .type ·) (hentry <| .members ·)

theorem hits_renamed (f : FrameId) (wanted : Wanted) :
    { w with nameTable }.hits f name' wanted = w.hits f name wanted := by
  have superChain (t : TypeId) : { w with nameTable }.superChain t = w.superChain t :=
    w.superChain_frames w.frames t
  have body : { w with nameTable }.bodyHits f name' wanted = w.bodyHits f name wanted := by
    simp only [bodyHits, w.resolveIn?_renamed hentry, superChain]
    rfl
  -- The name stands in the test for own hits as well, so that it is replaced before unfolding.
  have own : { w with nameTable }.ownHits f name' wanted = w.ownHits f name wanted := by
    simp only [ownHits, body, w.resolveIn?_renamed hentry, w.resolveInValue?_renamed hentry]
    rfl
  have imported : { w with nameTable }.importHits f name' wanted = w.importHits f name wanted := by
    simp only [importHits, w.resolveIn?_renamed hentry]
    rfl
  unfold hits
  rw [own, imported]
  rfl

theorem resolveInFrame?_renamed (f : FrameId) (wanted : Wanted) :
    Respelled name name' (w.resolveInFrame? f name wanted)
      ({ w with nameTable }.resolveInFrame? f name' wanted) := by
  have chain : { w with nameTable }.frameChain f = w.frameChain f := by
    refine frameChain_eq_of_uncaptured ?_ (fun _ => ?_) f <;> rfl
  unfold resolveInFrame?
  rw [chain]
  refine respelled_findSome? fun g => ?_
  rw [resolveAtFrame?_eq_settle, resolveAtFrame?_eq_settle, w.hits_renamed hentry]
  exact respelled_settle name name' _

end

/-- What is found for one name in one table is found for the other name in the other table. -/
structure SameAnswers (w w' : SymbolTable) (name name' : String) : Prop where
  entry : ∀ o wanted, w'.find? o name' wanted = w.find? o name wanted
  owner : ∀ o wanted, w'.resolveIn? o name' wanted = w.resolveIn? o name wanted
  type : ∀ t wanted, w'.resolveInType? t name' wanted = w.resolveInType? t name wanted
  members : ∀ d wanted, w'.resolveInMembers? d name' wanted = w.resolveInMembers? d name wanted
  value : ∀ v wanted, w'.resolveInValue? v name' wanted = w.resolveInValue? v name wanted
  frame : ∀ f wanted, Respelled name name' (w.resolveInFrame? f name wanted)
    (w'.resolveInFrame? f name' wanted)

/-- A look-up depends on keys only by what names stand for in the tables. -/
theorem sameAnswers_of_bound? {nameTable : NameTable}
    (h : ∀ o, { w with nameTable }.bound? o name' = w.bound? o name) :
    SameAnswers w { w with nameTable } name name' where
  entry o wanted := by
    unfold find?
    rw [h, w.suits_frames w.frames]
  owner := w.resolveIn?_renamed h
  type t wanted := w.resolveInType?_frames w.frames t wanted fun u => h (.type u)
  members d wanted := w.resolveInMembers?_frames w.frames d wanted fun e => h (.members e)
  value := w.resolveInValue?_renamed h
  frame := w.resolveInFrame?_renamed h

/-- Gives keys to names one after the other. -/
def internAll (w : SymbolTable) (names : List String) : SymbolTable :=
  names.foldl (fun w name => (w.intern name).2) w

theorem internAll_eq (w : SymbolTable) (names : List String) :
    ∃ nameTable, w.internAll names = { w with nameTable } := by
  induction names generalizing w with
  | nil => exact ⟨w.nameTable, rfl⟩
  | cons name names ih =>
      obtain ⟨nameTable, hnames⟩ := ih (w.intern name).2
      exact ⟨nameTable, hnames⟩

theorem Named.bound?_internAll (h : w.Named) (names : List String) (o : Owner) (name : String) :
    (w.internAll names).bound? o name = w.bound? o name := by
  induction names generalizing w with
  | nil => rfl
  | cons first names ih =>
      refine (ih (h.intern first)).trans ?_
      rw [bound?, bindings_intern]
      exact (h o).lookup?_intern first name

end SymbolTable

namespace Session

open SymbolTable

/-- In every workspace, whatever the interner, names are defined and found again without regard to
case. The tables of names are maps, a definition is refused exactly if the name stands for another
symbol, and a name that is new comes last and changes no other. -/
theorem naming_of_reachable {s : Session} (h : Reachable (fun _ => true) s)
    (hn : s.table.NanFree) :
    s.table.Tabulated ∧
    (∀ o name t, s.table.Covers (o.ids ++ t.ids) → s.table.Definition o name t) ∧
    ∀ name name' others, Text.lowerCase name' = Text.lowerCase name →
      SameAnswers s.table (s.table.internAll others) name name' := by
  refine ⟨h.named.tabulated, fun o name t ho => h.named.definition hn ho,
    fun name name' others hl => ?_⟩
  have hentry o : (s.table.internAll others).bound? o name' = s.table.bound? o name :=
    (h.named.bound?_internAll others o name').trans (s.table.bound?_respelled o hl)
  obtain ⟨nameTable, hnames⟩ := s.table.internAll_eq others
  rw [hnames] at hentry ⊢
  exact sameAnswers_of_bound? hentry

/-- Two modules that define the same name in two spellings, a function that imports both, and a
local that is zero. -/
def sampleCatalog : List Operation :=
  [.edit (.addModule "Stock"), .edit (.addModule "Store"), .edit (.addClass "Item" false),
    .edit (.addClass "Article" false), .edit (.define (.module ⟨3⟩) "Item" (.type ⟨20⟩)),
    .edit (.define (.module ⟨4⟩) "ITEM" (.type ⟨21⟩)), .edit (.addFrame (.activation none [])),
    .edit (.importModule ⟨0⟩ ⟨3⟩), .edit (.importModule ⟨0⟩ ⟨4⟩),
    .edit (.define (.frame ⟨0⟩) "Zero" (.value (.constant (.double (.zero false)) .double)))]

/-- The name that is taken is refused in every spelling, the negative zero is no other symbol, and a
new name comes after the one that is there. -/
theorem naming_sampleCatalog :
    let w := (performAll {} sampleCatalog).table
    let zero : Symbol := .value (.constant (.double (.zero true)) .double)
    Session.Admits (fun _ => true) {} sampleCatalog ∧ w.NanFree ∧
      w.Covers ((Owner.module ⟨3⟩).ids ++ (Symbol.type ⟨21⟩).ids) ∧
      w.define (.module ⟨3⟩) "iTEM" (.type ⟨21⟩) =
        (.error (.duplicate "iTEM" (.type ⟨20⟩)), w) ∧
      w.define (.frame ⟨0⟩) "ZERO" zero = (.ok (), w) ∧
      (∃ w', w.define (.module ⟨3⟩) "Lid" (.type ⟨21⟩) = (.ok (), w') ∧
        w'.bound? (.module ⟨3⟩) "Lid" = some (.type ⟨21⟩) ∧
        (w'.bindings (.module ⟨3⟩)).entries.map Prod.snd = [.type ⟨20⟩, .type ⟨21⟩]) ∧
      w.resolveInFrame? ⟨0⟩ "Item" .anything = some (.error (.ambiguous "Item" [⟨3⟩, ⟨4⟩])) ∧
      SameAnswers w (w.internAll ["Lid"]) "Item" "item" := by
  intro w zero
  have facts : Session.Admits (fun _ => true) {} sampleCatalog ∧ w.NanFree ∧
      w.Covers ((Owner.module ⟨3⟩).ids ++ (Symbol.type ⟨21⟩).ids) ∧
      w.Covers ((Owner.frame ⟨0⟩).ids ++ zero.ids) ∧
      w.bound? (.module ⟨3⟩) "iTEM" = some (.type ⟨20⟩) ∧
      w.bound? (.frame ⟨0⟩) "ZERO" =
        some (.value (.constant (.double (.zero false)) .double)) ∧
      w.bound? (.module ⟨3⟩) "Lid" = none ∧
      (w.bindings (.module ⟨3⟩)).entries.map Prod.snd = [.type ⟨20⟩] ∧
      w.resolveInFrame? ⟨0⟩ "Item" .anything = some (.error (.ambiguous "Item" [⟨3⟩, ⟨4⟩])) ∧
      Text.lowerCase "item" = Text.lowerCase "Item" := by
    decide +kernel
  obtain ⟨h, hn, hcovers, hzero, hitem, hbound, hlid, hlist, hframe, hlower⟩ := facts
  obtain ⟨_, defines, answers⟩ := naming_of_reachable (Reachable.new.performAll h) hn
  have item := defines (.module ⟨3⟩) "iTEM" (.type ⟨21⟩) hcovers
  obtain ⟨e, w'', he⟩ := item.refused_iff.mpr ⟨_, hitem, by decide +kernel⟩
  obtain ⟨⟨t, ht, rfl⟩, hsame⟩ := item.refused e w'' he
  rw [hsame] at he
  cases hitem.symm.trans ht
  obtain ⟨w', hw, gains⟩ := (defines (.module ⟨3⟩) "Lid" (.type ⟨21⟩) hcovers).added hlid
  refine ⟨h, hn, hcovers, he, (defines _ _ zero hzero).again _ hbound (by decide +kernel),
    ⟨w', hw, gains.bound, ?_⟩, hframe, answers "Item" "item" ["Lid"] hlower⟩
  obtain ⟨k, -, hlast⟩ := gains.last
  rw [hlast, List.map_append, hlist]
  rfl

end Session
end StaticSemantics
