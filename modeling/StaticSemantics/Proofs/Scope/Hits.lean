import Mathlib.Tactic.MkIffOfInductiveProp
import StaticSemantics.Proofs.Chain
import StaticSemantics.Proofs.Resolution.Captures
import StaticSemantics.Proofs.Search

/-!
Hits for a name in one frame, and the frame that decides. In a function a local hides the members of
its object, and either hides the imports; elsewhere the hits of all sorts stand side by side. What a
name means from a frame outward is what it means in the innermost frame that has a hit.
-/

namespace StaticSemantics.SymbolTable

open Relation

variable {w : SymbolTable} {name : String} {wanted : Wanted} {f f' g : FrameId} {s : Symbol}
  {m : Option ModuleId}

/-- The next super type leads, maybe through others, from the one type to the other. -/
def DerivesFrom (w : SymbolTable) : TypeId → TypeId → Prop :=
  ReflTransGen fun t u => w.superType? t = some u

/-- What a frame has under a name by itself. -/
@[mk_iff]
inductive OwnHit (w : SymbolTable) (name : String) (wanted : Wanted) (f : FrameId) :
    Symbol → Prop where
  | ownLocal {s : Symbol} (h : w.resolveIn? (.frame f) name wanted = some s) :
      OwnHit w name wanted f s
  | me {v : Value} {s : Symbol} (hl : w.resolveIn? (.frame f) name wanted = none)
      (hv : (w.frame f).me? = some v) (h : w.resolveInValue? v name wanted = some s) :
      OwnHit w name wanted f s
  | body {t u : TypeId} {s : Symbol} (ht : (w.frame f).type? = some t) (hu : w.DerivesFrom t u)
      (h : w.resolveIn? (.type u) name wanted = some s) : OwnHit w name wanted f s
  | module {m : ModuleId} {s : Symbol} (hm : (w.frame f).isModule m)
      (h : w.resolveIn? (.module m) name wanted = some s) : OwnHit w name wanted f s

/-- What a frame has under a name, with the import that brings it in. -/
inductive Hit (w : SymbolTable) (name : String) (wanted : Wanted) (f : FrameId) :
    Symbol → Option ModuleId → Prop where
  | own {s : Symbol} (h : w.OwnHit name wanted f s) : Hit w name wanted f s none
  | imported {m : ModuleId} {s : Symbol}
      (hidden : (w.frame f).isActivation → ∀ s, ¬ w.OwnHit name wanted f s)
      (hm : m ∈ (w.frame f).imports) (h : w.resolveIn? (.module m) name wanted = some s) :
      Hit w name wanted f s (some m)

/-- From the first frame outward, the second is the innermost one with a hit. -/
inductive Decides (w : SymbolTable) (name : String) (wanted : Wanted) :
    FrameId → FrameId → Prop where
  | here {g : FrameId} {s : Symbol} {m : Option ModuleId} (h : w.Hit name wanted g s m) :
      Decides w name wanted g g
  | outward {f f' g : FrameId} (hn : ∀ s m, ¬ w.Hit name wanted f s m)
      (hp : (w.frame f).parent = some f') (h : Decides w name wanted f' g) :
      Decides w name wanted f g

/-! ## Lists of hits -/

def ownHits (w : SymbolTable) (f : FrameId) (name : String) (wanted : Wanted) : List Symbol :=
  let locals := w.resolveIn? (.frame f) name wanted
  match (w.frame f).kind with
  | .activation me _ => (locals <|> me.bind fun v => w.resolveInValue? v name wanted).toList
  | _ => w.bodyHits f name wanted ++ locals.toList

/-- All hits in one frame. -/
def hits (w : SymbolTable) (f : FrameId) (name : String) (wanted : Wanted) : Hits :=
  let own := w.ownHits f name wanted
  if (w.frame f).isActivation ∧ own ≠ [] then own.map fun s => (s, none)
  else own.map (fun s => (s, none)) ++ w.importHits f name wanted

theorem resolveAtFrame?_eq_settle (w : SymbolTable) (f : FrameId) (name : String)
    (wanted : Wanted) : w.resolveAtFrame? f name wanted = settle name (w.hits f name wanted) := by
  unfold resolveAtFrame? hits ownHits
  cases hk : (w.frame f).kind with
  | activation me captured =>
      simp only [Frame.isActivation, hk]
      cases hl : w.resolveIn? (.frame f) name wanted with
      | some s => simp [settle]
      | none =>
          cases hv : me.bind fun v => w.resolveInValue? v name wanted with
          | some s => simp [settle]
          | none => simp
  | module | body | withBlock => simp [Frame.isActivation, hk]

/-- In a function there is a single hit, or there are only the imported ones. -/
theorem hits_of_isActivation (w : SymbolTable) (name : String) (wanted : Wanted)
    (ha : (w.frame f).isActivation) :
    (∃ s, w.hits f name wanted = [(s, none)]) ∨
      w.hits f name wanted = w.importHits f name wanted := by
  unfold hits ownHits
  cases hk : (w.frame f).kind with
  | activation me captured =>
      dsimp only
      cases w.resolveIn? (.frame f) name wanted <|>
          me.bind fun v => w.resolveInValue? v name wanted with
      | none => exact .inr (by simp)
      | some s => exact .inl ⟨s, by simp [ha]⟩
  | module | body | withBlock => simp [Frame.isActivation, hk] at ha

/-- The types above a type are listed with it, also where they run in a circle. -/
theorem Closed.mem_superChain (h : w.Closed) {t u : TypeId} :
    u ∈ w.superChain t ↔ w.DerivesFrom t u := by
  refine ⟨w.walks_superChainAt.reach_of_mem _, fun hu => ?_⟩
  have hfound : FirstFound w.superType? (fun v => if v = u then some v else none) u u :=
    .here (if_pos rfl)
  obtain ⟨v, hv⟩ := hfound.exists_of_reach hu
  obtain ⟨v', hmem, hv'⟩ := List.exists_of_findSome?_eq_some (h.findSome?_superChain.mpr hv)
  split at hv'
  · rename_i heq
    exact heq ▸ hmem
  · cases hv'

theorem Closed.mem_ownHits (h : w.Closed) : s ∈ w.ownHits f name wanted ↔
    w.OwnHit name wanted f s := by
  rw [ownHit_iff]
  unfold ownHits bodyHits Frame.me? Frame.type? Frame.isModule
  cases hk : (w.frame f).kind with
  | activation me captured => simp [Option.bind_eq_some_iff]
  | module m => simp [or_comm]
  | body t => simp [h.mem_superChain, or_comm]
  | withBlock v => simp

theorem Closed.ownHits_eq_nil_iff (h : w.Closed) :
    w.ownHits f name wanted = [] ↔ ∀ s, ¬ w.OwnHit name wanted f s := by
  simp only [List.eq_nil_iff_forall_not_mem, h.mem_ownHits]

theorem mem_importHits : (s, m) ∈ w.importHits f name wanted ↔
    ∃ n ∈ (w.frame f).imports, w.resolveIn? (.module n) name wanted = some s ∧ m = some n := by
  simp only [importHits, List.mem_filterMap, Option.map_eq_some_iff, Prod.mk.injEq]
  constructor
  · rintro ⟨n, hn, s, hs, rfl, rfl⟩
    exact ⟨n, hn, hs, rfl⟩
  · rintro ⟨n, hn, hs, rfl⟩
    exact ⟨n, hn, s, hs, rfl, rfl⟩

theorem Closed.mem_hits (h : w.Closed) : (s, m) ∈ w.hits f name wanted ↔
    w.Hit name wanted f s m := by
  have hown : (s, m) ∈ (w.ownHits f name wanted).map (fun s => (s, none)) ↔
      w.OwnHit name wanted f s ∧ m = none := by
    simp [← h.mem_ownHits, eq_comm]
  unfold hits
  dsimp only
  split
  · rename_i hall
    rw [hown]
    constructor
    · rintro ⟨hs, rfl⟩
      exact .own hs
    · rintro (hs | ⟨hidden, _, _⟩)
      · exact ⟨hs, rfl⟩
      · exact absurd (h.ownHits_eq_nil_iff.mpr (hidden hall.1)) hall.2
  · rename_i hall
    rw [List.mem_append, hown, mem_importHits]
    constructor
    · rintro (⟨hs, rfl⟩ | ⟨n, hn, hs, rfl⟩)
      · exact .own hs
      · refine .imported (fun ha => ?_) hn hs
        exact h.ownHits_eq_nil_iff.mp (not_not.mp fun hne => hall ⟨ha, hne⟩)
    · rintro (hs | ⟨_, hn, hs⟩)
      · exact .inl ⟨hs, rfl⟩
      · exact .inr ⟨_, hn, hs, rfl⟩

theorem Closed.hits_eq_nil_iff (h : w.Closed) :
    w.hits f name wanted = [] ↔ ∀ s m, ¬ w.Hit name wanted f s m := by
  simp only [List.eq_nil_iff_forall_not_mem, Prod.forall, h.mem_hits]

/-! ## The frame that decides -/

theorem settle_eq_none_iff {hits : Hits} : settle name hits = none ↔ hits = [] := by
  unfold settle
  split
  · simp
  · split <;> simp

theorem mem_of_settle {hits : Hits} (h : settle name hits = some s) :
    (∃ m, (s, m) ∈ hits) ∨ s = .error (.ambiguous name (hits.filterMap Prod.snd)) := by
  unfold settle at h
  split at h
  · cases h
  · rename_i first m rest
    split at h
    · cases h
      exact .inl ⟨m, List.mem_cons_self⟩
    · cases h
      exact .inr rfl

theorem Closed.resolveAtFrame?_eq_none_iff (h : w.Closed) :
    w.resolveAtFrame? f name wanted = none ↔ ∀ s m, ¬ w.Hit name wanted f s m := by
  rw [resolveAtFrame?_eq_settle, settle_eq_none_iff, h.hits_eq_nil_iff]

theorem Decides.exists_hit (h : w.Decides name wanted f g) : ∃ s m, w.Hit name wanted g s m := by
  induction h with
  | here h => exact ⟨_, _, h⟩
  | outward _ _ _ ih => exact ih

theorem Closed.resolveInFrame?_eq_some_iff (h : w.Closed) :
    w.resolveInFrame? f name wanted = some s ↔
      FirstFound (fun f => (w.frame f).parent) (w.resolveAtFrame? · name wanted) f s :=
  w.walks_frameChainAt.findSome?_eq_some_iff fun _ _ hb => h.parent_has hb

/-- What a name means is up to the frame that decides. -/
theorem Decides.resolveInFrame?_eq (h : w.Closed) (hd : w.Decides name wanted f g) :
    w.resolveInFrame? f name wanted = w.resolveAtFrame? g name wanted := by
  cases hs : w.resolveAtFrame? g name wanted with
  | none =>
      obtain ⟨s, m, hm⟩ := hd.exists_hit
      exact absurd hm (h.resolveAtFrame?_eq_none_iff.mp hs s m)
  | some s =>
      rw [h.resolveInFrame?_eq_some_iff]
      induction hd with
      | here _ => exact .here hs
      | outward hn hp _ ih => exact .later (h.resolveAtFrame?_eq_none_iff.mpr hn) hp (ih hs)

theorem Closed.exists_decides (h : w.Closed) (hs : w.resolveInFrame? f name wanted = some s) :
    ∃ g, w.Decides name wanted f g ∧ w.resolveAtFrame? g name wanted = some s := by
  have hf := h.resolveInFrame?_eq_some_iff.mp hs
  clear hs
  induction hf with
  | @here g s hg =>
      have hne : w.resolveAtFrame? g name wanted ≠ none := by simp [hg]
      simp only [ne_eq, h.resolveAtFrame?_eq_none_iff, not_forall, not_not] at hne
      obtain ⟨t, m, hm⟩ := hne
      exact ⟨g, .here hm, hg⟩
  | later hn hp _ ih =>
      obtain ⟨g, hd, hg⟩ := ih
      exact ⟨g, .outward (h.resolveAtFrame?_eq_none_iff.mp hn) hp hd, hg⟩

theorem Closed.resolveInFrame?_eq_none_iff (h : w.Closed) :
    w.resolveInFrame? f name wanted = none ↔ ∀ g, ¬ w.Decides name wanted f g := by
  constructor
  · intro hn g hd
    obtain ⟨s, m, hs⟩ := hd.exists_hit
    rw [hd.resolveInFrame?_eq h] at hn
    exact h.resolveAtFrame?_eq_none_iff.mp hn s m hs
  · intro hd
    cases hs : w.resolveInFrame? f name wanted with
    | none => rfl
    | some s =>
        obtain ⟨g, hg, _⟩ := h.exists_decides hs
        exact absurd hg (hd g)

end StaticSemantics.SymbolTable
