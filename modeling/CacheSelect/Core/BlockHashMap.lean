import CacheSelect.Core.Request
import Mathlib.Data.List.Nodup
import Mathlib.Logic.Function.Basic

/-! # The prefix-cache map

`BlockHashToBlockMap` maps a hash to the cached blocks that carry it.  Most hashes have one block, so the value of a
key is a block, or a dictionary of blocks by their ids once there is a second one.  A hash is a block hash with its
cache group; nothing here takes the two apart.

`blocksOf` reads a key as the list of its blocks, oldest first.  On these lists the operations are those of a map to
lists without duplicates; a dictionary is never empty, so the first block of a key is always there.
-/

namespace CacheSelect.Core

/-- One block, or a dictionary from block ids. -/
inductive CachedBlocks
  | block (b : Nat)
  | dict (ids : List Nat)
deriving DecidableEq, Repr

structure BlockHashToBlockMap where
  cache : BlockHash → Option CachedBlocks

namespace BlockHashToBlockMap

def empty : BlockHashToBlockMap where
  cache := fun _ => none

variable (m : BlockHashToBlockMap)

def set (key : BlockHash) (blocks : Option CachedBlocks) : BlockHashToBlockMap where
  cache := Function.update m.cache key blocks

/-- Set a key of a dictionary; a key that is there stays in its place. -/
def dictInsert (ids : List Nat) (b : Nat) : List Nat :=
  if b ∈ ids then ids else ids ++ [b]

/-- `get_one_block`: any block of the key. -/
def getOneBlock (key : BlockHash) : Option Nat :=
  match m.cache key with
  | none => none
  | some (.block b) => some b
  | some (.dict ids) => ids.head?

def contain (key : BlockHash) (b : Nat) : Bool :=
  match m.cache key with
  | none => false
  | some (.block b') => b' == b
  | some (.dict ids) => ids.contains b

def insert (key : BlockHash) (b : Nat) : BlockHashToBlockMap :=
  match m.cache key with
  | none => m.set key (some (.block b))
  | some (.block b') => m.set key (some (.dict (dictInsert [b'] b)))
  | some (.dict ids) => m.set key (some (.dict (dictInsert ids b)))

/-- The popped block, if it was there, and the rest. -/
def pop (key : BlockHash) (b : Nat) : Option Nat × BlockHashToBlockMap :=
  match m.cache key with
  | none => (none, m)
  | some (.block b') => if b' = b then (some b', m.set key none) else (none, m)
  | some (.dict ids) =>
      let rest := ids.erase b
      (if b ∈ ids then some b else none, m.set key (if rest = [] then none else some (.dict rest)))

/-! ### Keys as lists -/

/-- The blocks of a key, oldest first. -/
def blocksOf (key : BlockHash) : List Nat :=
  match m.cache key with
  | none => []
  | some (.block b) => [b]
  | some (.dict ids) => ids

/-- No dictionary is empty or has a block twice. -/
structure WF : Prop where
  dict_ne_nil : ∀ key, m.cache key ≠ some (.dict [])
  nodup : ∀ key, (m.blocksOf key).Nodup

theorem empty_wf : empty.WF := by
  refine ⟨?_, ?_⟩
  · intro key h
    cases h
  · intro key
    exact List.nodup_nil

variable {m} {key k : BlockHash} {b : Nat}

theorem cache_set (blocks : Option CachedBlocks) :
    (m.set key blocks).cache k = if k = key then blocks else m.cache k :=
  Function.update_apply m.cache key blocks k

theorem blocksOf_set_of_ne (blocks : Option CachedBlocks) (h : k ≠ key) :
    (m.set key blocks).blocksOf k = m.blocksOf k := by
  rw [blocksOf, blocksOf, cache_set, if_neg h]

theorem contain_eq : m.contain key b = (m.blocksOf key).contains b := by
  rw [contain, blocksOf]
  cases m.cache key with
  | none => rfl
  | some blocks =>
      cases blocks with
      | block b' =>
          dsimp only
          rw [List.contains_cons, List.contains_nil, Bool.or_false]
          exact Bool.beq_comm
      | dict ids => rfl

theorem contain_iff : m.contain key b = true ↔ b ∈ m.blocksOf key := by
  rw [contain_eq, List.contains_iff_mem]

/-- The block that was inserted first. -/
theorem getOneBlock_eq : m.getOneBlock key = (m.blocksOf key).head? := by
  rw [getOneBlock, blocksOf]
  cases m.cache key with
  | none => rfl
  | some blocks => cases blocks <;> rfl

theorem nodup_dictInsert {ids : List Nat} (h : ids.Nodup) : (dictInsert ids b).Nodup := by
  rw [dictInsert]
  split
  · exact h
  · next hb => exact List.nodup_append.mpr ⟨h, List.nodup_singleton b, fun x hx y hy hxy =>
      hb (by rw [← List.mem_singleton.mp hy, ← hxy]; exact hx)⟩

theorem dictInsert_ne_nil (ids : List Nat) : dictInsert ids b ≠ [] := by
  rw [dictInsert]
  split
  · next hb => exact List.ne_nil_of_mem hb
  · simp

theorem blocksOf_insert :
    (m.insert key b).blocksOf k = if k = key then dictInsert (m.blocksOf key) b else m.blocksOf k := by
  by_cases hk : k = key
  · rw [if_pos hk, hk]
    have hset : ∀ blocks, (m.set key blocks).cache key = blocks := fun blocks => by
      rw [cache_set, if_pos rfl]
    rw [insert, blocksOf, blocksOf]
    cases h : m.cache key with
    | none => simp [hset, dictInsert]
    | some blocks => cases blocks <;> simp [hset]
  · rw [if_neg hk, insert]
    cases h : m.cache key with
    | none => exact blocksOf_set_of_ne _ hk
    | some blocks => cases blocks <;> exact blocksOf_set_of_ne _ hk

theorem WF.insert (hm : m.WF) : (m.insert key b).WF := by
  refine ⟨?_, ?_⟩
  · intro k
    by_cases hk : k = key
    · rw [BlockHashToBlockMap.insert]
      cases h : m.cache key with
      | none =>
          rw [cache_set, if_pos hk]
          simp
      | some blocks =>
          cases blocks <;> (rw [cache_set, if_pos hk]; simp [dictInsert_ne_nil])
    · have hother := hm.dict_ne_nil k
      rw [BlockHashToBlockMap.insert]
      cases h : m.cache key with
      | none =>
          rw [cache_set, if_neg hk]
          exact hother
      | some blocks =>
          cases blocks <;> (rw [cache_set, if_neg hk]; exact hother)
  · intro k
    rw [blocksOf_insert]
    split
    · exact nodup_dictInsert (hm.nodup key)
    · exact hm.nodup k

theorem pop_fst : (m.pop key b).1 = if b ∈ m.blocksOf key then some b else none := by
  rw [pop, blocksOf]
  cases m.cache key with
  | none => rfl
  | some blocks =>
      cases blocks with
      | block b' =>
          by_cases hb : b' = b
          · simp [hb]
          · simp [hb, Ne.symm hb]
      | dict ids => rfl

theorem blocksOf_pop :
    (m.pop key b).2.blocksOf k = if k = key then (m.blocksOf key).erase b else m.blocksOf k := by
  by_cases hk : k = key
  · rw [if_pos hk, hk]
    have hset : ∀ blocks, (m.set key blocks).cache key = blocks := fun blocks => by
      rw [cache_set, if_pos rfl]
    rw [pop]
    cases h : m.cache key with
    | none => simp [blocksOf, h]
    | some blocks =>
        cases blocks with
        | block b' =>
            by_cases hb : b' = b
            · simp [blocksOf, hset, h, hb]
            · simp [blocksOf, h, hb, beq_eq_false_iff_ne.mpr hb]
        | dict ids =>
            by_cases hrest : ids.erase b = []
            · simp [blocksOf, hset, h, hrest]
            · simp [blocksOf, hset, h, hrest]
  · rw [if_neg hk, pop]
    cases h : m.cache key with
    | none => rfl
    | some blocks =>
        cases blocks with
        | block b' =>
            dsimp only
            split
            · exact blocksOf_set_of_ne _ hk
            · rfl
        | dict ids => exact blocksOf_set_of_ne _ hk

theorem WF.pop (hm : m.WF) : (m.pop key b).2.WF := by
  refine ⟨?_, ?_⟩
  · intro k
    have hother := hm.dict_ne_nil k
    rw [BlockHashToBlockMap.pop]
    cases h : m.cache key with
    | none => exact hother
    | some blocks =>
        cases blocks with
        | block b' =>
            dsimp only
            split
            · rw [cache_set]
              split
              · simp
              · exact hother
            · exact hother
        | dict ids =>
            dsimp only
            rw [cache_set]
            split
            · by_cases hrest : ids.erase b = []
              · simp [hrest]
              · simp [hrest]
            · exact hother
  · intro k
    rw [blocksOf_pop]
    split
    · exact (hm.nodup key).erase b
    · exact hm.nodup k

/-! ### All keys of a block -/

/-- Pop a block from all its keys: those that had it, and the rest. -/
def popAll (b : Nat) : List BlockHash → BlockHashToBlockMap → List BlockHash × BlockHashToBlockMap
  | [], m => ([], m)
  | key :: keys, m =>
      let popped := m.pop key b
      let rest := popAll b keys popped.2
      (if popped.1 ≠ none then key :: rest.1 else rest.1, rest.2)

/-- **The block is gone** from the keys, and nothing else moves. -/
theorem blocksOf_popAll (b : Nat) : ∀ (keys : List BlockHash) (m : BlockHashToBlockMap), keys.Nodup →
    (∀ k, (popAll b keys m).2.blocksOf k = if k ∈ keys then (m.blocksOf k).erase b else m.blocksOf k) := by
  intro keys
  induction keys with
  | nil => exact fun m _ k => rfl
  | cons key keys ih =>
      intro m hnodup k
      obtain ⟨hkey, hnodup⟩ := List.nodup_cons.mp hnodup
      rw [popAll]
      dsimp only
      rw [ih _ hnodup k, blocksOf_pop]
      by_cases hk : k = key
      · rw [hk, if_neg hkey, if_pos rfl, if_pos List.mem_cons_self]
      · rw [if_neg hk]
        simp [hk]

theorem popAll_wf (b : Nat) : ∀ (keys : List BlockHash) {m : BlockHashToBlockMap}, m.WF → (popAll b keys m).2.WF := by
  intro keys
  induction keys with
  | nil => exact fun hm => hm
  | cons key keys ih => exact fun hm => ih hm.pop

/-- When every key has the block, all of them are returned. -/
theorem popAll_fst (b : Nat) : ∀ (keys : List BlockHash) (m : BlockHashToBlockMap), keys.Nodup →
    (∀ key ∈ keys, b ∈ m.blocksOf key) → (popAll b keys m).1 = keys := by
  intro keys
  induction keys with
  | nil => exact fun _ _ _ => rfl
  | cons key keys ih =>
      intro m hnodup hmem
      obtain ⟨hkey, hnodup⟩ := List.nodup_cons.mp hnodup
      have hrest : ∀ k ∈ keys, b ∈ (m.pop key b).2.blocksOf k := by
        intro k hk
        have hne : k ≠ key := fun h => hkey (h ▸ hk)
        rw [blocksOf_pop, if_neg hne]
        exact hmem k (List.mem_cons_of_mem _ hk)
      rw [popAll]
      dsimp only
      rw [pop_fst, if_pos (hmem key List.mem_cons_self), ih _ hnodup hrest]
      exact if_pos (by simp)

end BlockHashToBlockMap

end CacheSelect.Core
