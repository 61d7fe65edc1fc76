import StaticSemantics.NameTable
import StaticSemantics.Symbol

/-!
Tables of names. A table lists its keys in the order in which they were first bound, and is read
through an index of their places.
-/

namespace StaticSemantics

/-- Symbols by key. No key is listed twice, and the index has the place of each. -/
structure Bindings where
  index : List (Key × Nat)
  entries : List (Key × Symbol)
  index_eq : index = (entries.map Prod.fst).zipIdx
  nodup : (entries.map Prod.fst).Nodup

namespace Bindings

variable {b b' : Bindings} {k : Key} {s : Symbol} {i : Nat}

def empty : Bindings := ⟨[], [], rfl, List.nodup_nil⟩

@[simp] theorem entries_empty : empty.entries = [] := rfl

def get? (b : Bindings) (k : Key) : Option Symbol :=
  (b.index.lookup k).bind fun i => b.entries[i]?.map Prod.snd

def contains (b : Bindings) (k : Key) : Bool := (b.index.lookup k).isSome

def keys (b : Bindings) : List Key := b.entries.map Prod.fst

theorem lookup_index_eq_none_iff : b.index.lookup k = none ↔ k ∉ b.keys := by
  rw [List.lookup_eq_none_iff, b.index_eq, keys]
  refine ⟨fun h hk => ?_, fun h e he => ?_⟩
  · obtain ⟨i, hi⟩ := List.mem_iff_getElem?.mp hk
    simpa using h (k, i) (List.mem_zipIdx_iff_getElem?.mpr hi)
  · have hmem : e.1 ∈ b.entries.map Prod.fst :=
      List.mem_iff_getElem?.mpr ⟨_, List.mem_zipIdx_iff_getElem?.mp he⟩
    have hne : k ≠ e.1 := fun hk => h (hk ▸ hmem)
    simpa using hne

/-- The index agrees with the entries. -/
theorem lookup_index_eq_some_iff : b.index.lookup k = some i ↔ b.keys[i]? = some k := by
  have listed {i : Nat} (h : b.index.lookup k = some i) : b.keys[i]? = some k := by
    obtain ⟨_, _, hsplit, _⟩ := List.lookup_eq_some_iff.mp h
    have hmem : (k, i) ∈ b.index := by simp [hsplit]
    rw [b.index_eq] at hmem
    exact List.mem_zipIdx_iff_getElem?.mp hmem
  refine ⟨listed, fun h => ?_⟩
  cases hj : b.index.lookup k with
  | none => exact absurd (List.mem_iff_getElem?.mpr ⟨i, h⟩) (lookup_index_eq_none_iff.mp hj)
  | some j =>
      obtain ⟨hlt, _⟩ := List.getElem?_eq_some_iff.mp h
      rw [(List.getElem?_inj hlt b.nodup).mp (h.trans (listed hj).symm)]

theorem get?_eq_some_iff : b.get? k = some s ↔ (k, s) ∈ b.entries := by
  simp only [get?, Option.bind_eq_some_iff, lookup_index_eq_some_iff, Option.map_eq_some_iff]
  refine ⟨fun ⟨i, hi, e, he, hs⟩ => ?_, fun h => ?_⟩
  · rw [keys, List.getElem?_map, he] at hi
    cases hi
    exact hs ▸ List.mem_of_getElem? he
  · obtain ⟨i, hi⟩ := List.mem_iff_getElem?.mp h
    exact ⟨i, by rw [keys, List.getElem?_map, hi]; rfl, _, hi, rfl⟩

theorem get?_eq_none_iff : b.get? k = none ↔ k ∉ b.keys := by
  rw [Option.eq_none_iff_forall_ne_some]
  simp only [ne_eq, get?_eq_some_iff, keys, List.mem_map]
  exact ⟨fun h ⟨e, he, hk⟩ => h e.2 (hk ▸ he), fun h s hs => h ⟨_, hs, rfl⟩⟩

theorem contains_eq_isSome (b : Bindings) (k : Key) : b.contains k = (b.get? k).isSome := by
  rw [Bool.eq_iff_iff, contains, Option.isSome_iff_ne_none, Option.isSome_iff_ne_none, ne_eq,
    ne_eq, lookup_index_eq_none_iff, get?_eq_none_iff]

theorem contains_iff : b.contains k ↔ k ∈ b.keys := by
  rw [contains_eq_isSome, Option.isSome_iff_ne_none, ne_eq, get?_eq_none_iff, Decidable.not_not]

/-- The entries say everything. -/
theorem eq_of_entries (h : b.entries = b'.entries) : b = b' := by
  obtain ⟨_, entries, rfl, _⟩ := b
  obtain ⟨_, _, rfl, _⟩ := b'
  cases h
  rfl

theorem map_fst_modify (entries : List (Key × Symbol)) (i : Nat) (s : Symbol) :
    (entries.modify i fun e => (e.1, s)).map Prod.fst = entries.map Prod.fst := by
  apply List.ext_getElem?
  intro j
  simp only [List.getElem?_map, List.getElem?_modify, Option.map_eq_map, Option.map_map]
  congr 1
  funext e
  simp only [Function.comp_apply]
  split <;> rfl

/-- Binds the key, in its old place if it has one and else at the end. -/
def insert (b : Bindings) (k : Key) (s : Symbol) : Bindings :=
  match h : b.index.lookup k with
  | some i =>
    { index := b.index
      entries := b.entries.modify i fun e => (e.1, s)
      index_eq := by rw [map_fst_modify, ← b.index_eq]
      nodup := by rw [map_fst_modify]; exact b.nodup }
  | none =>
    { index := b.index ++ [(k, b.entries.length)]
      entries := b.entries ++ [(k, s)]
      index_eq := by simp [b.index_eq, List.zipIdx_append]
      nodup := by
        have hk : k ∉ b.entries.map Prod.fst := lookup_index_eq_none_iff.mp h
        rw [List.map_append, List.nodup_append]
        refine ⟨b.nodup, by simp, fun a ha c hc => ?_⟩
        obtain rfl : c = k := List.mem_singleton.mp hc
        exact fun hac => hk (hac ▸ ha) }

/-- A key that is bound keeps its place. -/
theorem insert_of_lookup (h : b.index.lookup k = some i) (s : Symbol) :
    (b.insert k s).index = b.index ∧
      (b.insert k s).entries = b.entries.modify i fun e => (e.1, s) := by
  unfold insert
  split
  · rename_i hi
    cases h.symm.trans hi
    exact ⟨rfl, rfl⟩
  · rename_i hn
    rw [h] at hn
    cases hn

/-- A new key comes last. -/
theorem entries_insert (h : b.get? k = none) (s : Symbol) :
    (b.insert k s).entries = b.entries ++ [(k, s)] := by
  have hn : b.index.lookup k = none := lookup_index_eq_none_iff.mpr (get?_eq_none_iff.mp h)
  unfold insert
  split
  · rename_i hi
    rw [hn] at hi
    cases hi
  · rfl

theorem get?_insert (b : Bindings) (k k' : Key) (s : Symbol) :
    (b.insert k s).get? k' = if k = k' then some s else b.get? k' := by
  cases hi : b.index.lookup k with
  | some i =>
      obtain ⟨hindex, hentries⟩ := insert_of_lookup hi s
      have hkey := lookup_index_eq_some_iff.mp hi
      simp only [get?, hindex, hentries, List.getElem?_modify]
      by_cases hk : k = k'
      · subst hk
        obtain ⟨e, he, _⟩ := Option.map_eq_some_iff.mp ((List.getElem?_map ..).symm.trans hkey)
        simp [hi, he]
      · rw [if_neg hk]
        refine Option.bind_congr fun j hj => ?_
        have hij : i ≠ j := by
          rintro rfl
          exact hk (Option.some.inj (hkey.symm.trans (lookup_index_eq_some_iff.mp hj)))
        simp [hij]
  | none =>
      have hn : k ∉ b.keys := lookup_index_eq_none_iff.mp hi
      refine Option.ext fun s' => ?_
      rw [get?_eq_some_iff, entries_insert (get?_eq_none_iff.mpr hn)]
      by_cases hk : k = k'
      · subst hk
        have hmem : (k, s') ∉ b.entries := fun he => hn (List.mem_map.mpr ⟨_, he, rfl⟩)
        simp [hmem, eq_comm]
      · simp [hk, Ne.symm hk, get?_eq_some_iff]

theorem mem_keys_insert {k' : Key} : k' ∈ (b.insert k s).keys ↔ k' = k ∨ k' ∈ b.keys := by
  rw [← Decidable.not_iff_not, not_or, ← get?_eq_none_iff, ← get?_eq_none_iff, get?_insert]
  by_cases hk : k = k'
  · simp [hk]
  · simp [hk, Ne.symm hk]

end Bindings
end StaticSemantics
