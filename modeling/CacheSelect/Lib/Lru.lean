import CacheSelect.Lib.OrderedDict
import Mathlib.Data.Finset.Card
import Mathlib.Logic.Function.Basic

/-! # Least-recently-used caches

`Lru.Spec` says what an LRU cache is, without saying how the recency is kept: which keys are resident, the
value that each was last stored with, and the time of each key's last use on a clock that ticks with every use.
A store into a full cache evicts the resident key whose last use is the oldest.

`Lru.store` is the usual implementation by an ordered dictionary with the oldest use first, and
`Represents` relates the two: the dictionary holds the resident keys with their values, in the order of
their last uses.  Each operation has one lemma that it keeps the relation.
-/

namespace Lru

variable {κ ν : Type*} [DecidableEq κ]

/-! ### The specification -/

structure Spec (κ ν : Type*) where
  resident : Finset κ := ∅
  value : κ → Option ν := fun _ => none
  lastUse : κ → Nat := fun _ => 0
  clock : Nat := 0

namespace Spec

/-- A resident key that no other has gone longer without a use. -/
def IsLeastRecent (s : Spec κ ν) (k : κ) : Prop :=
  k ∈ s.resident ∧ ∀ x ∈ s.resident, s.lastUse k ≤ s.lastUse x

instance (s : Spec κ ν) (k : κ) : Decidable (s.IsLeastRecent k) := by
  unfold IsLeastRecent; infer_instance

/-- What a store of `k` evicts: nothing if `k` is resident or there is room, else the key that was
least recently used. -/
def evicted (capacity : Nat) (s : Spec κ ν) (k : κ) : Finset κ :=
  if k ∈ s.resident ∨ s.resident.card < capacity then ∅
  else s.resident.filter fun x => s.IsLeastRecent x

def store (capacity : Nat) (s : Spec κ ν) (k : κ) (v : ν) : Spec κ ν where
  resident := insert k (s.resident \ evicted capacity s k)
  value := fun x => if x = k then some v else if x ∈ evicted capacity s k then none else s.value x
  lastUse := Function.update s.lastUse k s.clock
  clock := s.clock + 1

/-- Use a key; a key that is not resident is not used. -/
def touch (s : Spec κ ν) (k : κ) : Spec κ ν :=
  if k ∈ s.resident then
    { s with lastUse := Function.update s.lastUse k s.clock, clock := s.clock + 1 }
  else s

/-- Use several keys one after the other, if all of them are resident. -/
def touchMany (s : Spec κ ν) (ks : List κ) : Spec κ ν :=
  if ∀ k ∈ ks, k ∈ s.resident then ks.foldl touch s else s

/-- Give up a key. -/
def drop (s : Spec κ ν) (k : κ) : Spec κ ν :=
  { s with resident := s.resident.erase k, value := Function.update s.value k none }

def clear (s : Spec κ ν) : Spec κ ν :=
  { s with resident := ∅, value := fun _ => none }

@[simp] theorem touch_value (s : Spec κ ν) (k : κ) : (s.touch k).value = s.value := by
  rw [touch]
  split
  · rfl
  · rfl

end Spec

/-! ### The implementation -/

open OrderedDict

/-- Store a value; a full cache gives up its first key. -/
def store (capacity : Nat) (d : List (κ × ν)) (k : κ) (v : ν) : List (κ × ν) :=
  if (get d k).isSome = true ∨ d.length < capacity then put d k v else d.tail ++ [(k, v)]

/-- **The representation.**  The dictionary has the resident keys with their values, the least
recently used first. -/
structure Represents (capacity : Nat) (d : List (κ × ν)) (s : Spec κ ν) : Prop where
  nodup_keys : (keys d).Nodup
  mem_keys : ∀ k, k ∈ keys d ↔ k ∈ s.resident
  get_eq : ∀ k, get d k = s.value k
  ordered : (keys d).Pairwise fun a b => s.lastUse a < s.lastUse b
  used : ∀ k ∈ keys d, s.lastUse k < s.clock
  length_le : d.length ≤ capacity

namespace Represents

variable {capacity : Nat} {d : List (κ × ν)} {s : Spec κ ν}

theorem empty (capacity : Nat) : Represents capacity ([] : List (κ × ν)) {} where
  nodup_keys := List.nodup_nil
  mem_keys := by intro k; simp [keys]
  get_eq := by intro k; rfl
  ordered := List.Pairwise.nil
  used := by intro k hk; exact absurd hk List.not_mem_nil
  length_le := Nat.zero_le _

theorem isSome_value (h : Represents capacity d s) (k : κ) :
    (s.value k).isSome = true ↔ k ∈ s.resident := by
  rw [← h.get_eq, ← mem_keys_iff_get, h.mem_keys]

theorem card_resident (h : Represents capacity d s) : s.resident.card = d.length := by
  have hs : s.resident = (keys d).toFinset := by
    ext k
    rw [List.mem_toFinset, h.mem_keys]
  rw [hs, List.toFinset_card_of_nodup h.nodup_keys, keys, List.length_map]

/-- Putting a key that counts as used now keeps the order. -/
theorem ordered_put (h : Represents capacity d s) (k : κ) (v : ν) :
    (keys (put d k v)).Pairwise fun a b =>
      Function.update s.lastUse k s.clock a < Function.update s.lastUse k s.clock b := by
  rw [keys_put]
  refine List.pairwise_append.mpr ⟨?_, List.pairwise_singleton _ _, ?_⟩
  · refine (h.ordered.filter _).imp_of_mem ?_
    intro a b ha hb hab
    rw [Function.update_of_ne (of_decide_eq_true (List.mem_filter.mp ha).2),
      Function.update_of_ne (of_decide_eq_true (List.mem_filter.mp hb).2)]
    exact hab
  · intro a ha b hb
    rw [List.mem_singleton] at hb
    subst hb
    rw [Function.update_self, Function.update_of_ne (of_decide_eq_true (List.mem_filter.mp ha).2)]
    exact h.used a (List.mem_filter.mp ha).1

theorem used_update {t : κ → Nat} {n : Nat} {k x : κ} (hx : t x < n) :
    Function.update t k n x < n + 1 := by
  by_cases hxk : x = k
  · subst hxk
    rw [Function.update_self]
    omega
  · rw [Function.update_of_ne hxk]
    omega

/-- A key that is put where another made room, or was put before, is the youngest. -/
theorem put_of_room (h : Represents capacity d s) {k : κ} (v : ν)
    (hroom : k ∈ s.resident ∨ d.length < capacity) :
    Represents capacity (put d k v) (s.store capacity k v) := by
  have hev : s.evicted capacity k = ∅ := by
    rw [Spec.evicted, if_pos (by rwa [h.card_resident])]
  refine { nodup_keys := nodup_keys_put h.nodup_keys k v, mem_keys := ?_, get_eq := ?_,
           ordered := h.ordered_put k v, used := ?_, length_le := ?_ }
  · intro x
    rw [keys_put, Spec.store, hev, Finset.sdiff_empty, Finset.mem_insert, List.mem_append,
      List.mem_filter, h.mem_keys, List.mem_singleton, decide_eq_true_eq]
    tauto
  · intro x
    rw [get_put, h.get_eq, Spec.store, hev]
    simp
  · intro x hx
    rw [keys_put] at hx
    rcases List.mem_append.mp hx with hx | hx
    · exact used_update (h.used x (List.mem_filter.mp hx).1)
    · rw [List.mem_singleton] at hx
      subst hx
      change Function.update s.lastUse x s.clock x < s.clock + 1
      rw [Function.update_self]
      omega
  · rw [put, List.length_append, List.length_singleton]
    rcases hroom with hk | hlen
    · have hlt : (erase d k).length < d.length := by
        refine List.length_filter_lt_length_iff_exists.mpr ?_
        obtain ⟨e, he, hek⟩ := List.mem_map.mp ((h.mem_keys k).mpr hk)
        exact ⟨e, he, by simp [hek]⟩
      have := h.length_le
      omega
    · have hle : (erase d k).length ≤ d.length := List.length_filter_le _ d
      omega

/-- The first key of a full cache is the one that is evicted. -/
theorem evicted_eq {e : κ × ν} {d : List (κ × ν)} (h : Represents capacity (e :: d) s) {k : κ}
    (hk : k ∉ s.resident) (hfull : capacity ≤ (e :: d).length) :
    s.evicted capacity k = {e.1} := by
  have hroom : ¬ (k ∈ s.resident ∨ s.resident.card < capacity) := by
    rw [h.card_resident]
    rintro (hin | hlt)
    · exact hk hin
    · omega
  have he : e.1 ∈ s.resident := (h.mem_keys e.1).mp (by simp [keys])
  have hord := h.ordered
  rw [keys, List.map_cons, List.pairwise_cons] at hord
  rw [Spec.evicted, if_neg hroom]
  ext x
  rw [Finset.mem_filter, Finset.mem_singleton, Spec.IsLeastRecent]
  constructor
  · rintro ⟨hx, -, hmin⟩
    have hx' := (h.mem_keys x).mpr hx
    rw [keys, List.map_cons, List.mem_cons] at hx'
    rcases hx' with rfl | hx'
    · rfl
    · have h₁ := hord.1 x hx'
      have h₂ := hmin e.1 he
      omega
  · rintro rfl
    refine ⟨he, he, ?_⟩
    intro x hx
    have hx' := (h.mem_keys x).mpr hx
    rw [keys, List.map_cons, List.mem_cons] at hx'
    rcases hx' with rfl | hx'
    · exact Nat.le_refl _
    · exact Nat.le_of_lt (hord.1 x hx')

/-- Without its first key the dictionary represents the specification without that key. -/
theorem tail {e : κ × ν} {d : List (κ × ν)} (h : Represents capacity (e :: d) s) :
    Represents capacity d (s.drop e.1) := by
  have hnd := h.nodup_keys
  have hord := h.ordered
  rw [keys, List.map_cons, List.nodup_cons] at hnd
  rw [keys, List.map_cons, List.pairwise_cons] at hord
  refine { nodup_keys := hnd.2, mem_keys := ?_, get_eq := ?_, ordered := hord.2, used := ?_,
           length_le := Nat.le_of_succ_le h.length_le }
  · intro x
    rw [Spec.drop, Finset.mem_erase, ← h.mem_keys, keys, keys, List.map_cons, List.mem_cons]
    constructor
    · intro hx
      exact ⟨fun he => hnd.1 (he ▸ hx), Or.inr hx⟩
    · rintro ⟨hne, rfl | hx⟩
      · exact absurd rfl hne
      · exact hx
  · intro x
    by_cases hx : x = e.1
    · subst hx
      change get d e.1 = Function.update s.value e.1 none e.1
      rw [Function.update_self]
      exact get_eq_none_iff.mpr hnd.1
    · change get d x = Function.update s.value e.1 none x
      rw [Function.update_of_ne hx, ← h.get_eq, OrderedDict.get, if_neg hx]
  · intro x hx
    exact h.used x (List.mem_cons_of_mem _ hx)

theorem put_evicting {e : κ × ν} {d : List (κ × ν)} (h : Represents capacity (e :: d) s) {k : κ}
    (v : ν) (hk : k ∉ s.resident) (hfull : capacity ≤ (e :: d).length) :
    Represents capacity (d ++ [(k, v)]) (s.store capacity k v) := by
  have hlen := h.length_le
  rw [List.length_cons] at hlen hfull
  have hkd : k ∉ keys d := by
    intro hin
    exact hk ((h.mem_keys k).mp (List.mem_cons_of_mem _ hin))
  have hev : (s.drop e.1).evicted capacity k = ∅ := by
    rw [Spec.evicted, if_pos (Or.inr (by rw [h.tail.card_resident]; omega))]
  have hstore : s.store capacity k v = (s.drop e.1).store capacity k v := by
    rw [Spec.store, Spec.store, h.evicted_eq hk hfull, hev]
    congr 1
    · rw [Spec.drop, Finset.sdiff_empty, Finset.sdiff_singleton_eq_erase]
    · funext x
      by_cases hx : x = e.1
      · simp [hx, Spec.drop]
      · simp [hx, Spec.drop]
  have hput : d ++ [(k, v)] = put d k v := by rw [put, erase_of_not_mem hkd]
  rw [hput, hstore]
  exact h.tail.put_of_room v (Or.inr (by omega))

/-- **A store is a store.** -/
theorem store (h : Represents capacity d s) (hcap : 0 < capacity) (k : κ) (v : ν) :
    Represents capacity (Lru.store capacity d k v) (s.store capacity k v) := by
  rw [Lru.store]
  split
  · next hroom =>
      refine h.put_of_room v ?_
      rwa [← mem_keys_iff_get, h.mem_keys] at hroom
  · next hfull =>
      rw [not_or, ← mem_keys_iff_get, h.mem_keys, Nat.not_lt] at hfull
      cases d with
      | nil => exact absurd hcap (Nat.not_lt.mpr hfull.2)
      | cons e d => exact h.put_evicting v hfull.1 hfull.2

theorem touch (h : Represents capacity d s) (k : κ) :
    Represents capacity (moveToEnd d k) (s.touch k) := by
  rw [moveToEnd]
  cases hv : get d k with
  | none =>
      have hk : k ∉ s.resident := by
        rw [← h.mem_keys]
        exact get_eq_none_iff.mp hv
      rw [Spec.touch, if_neg hk]
      exact h
  | some v =>
      have hk : k ∈ s.resident := by
        rw [← h.mem_keys, mem_keys_iff_get, hv]
        rfl
      have hp := h.put_of_room v (Or.inl hk)
      have hev : s.evicted capacity k = ∅ := by rw [Spec.evicted, if_pos (Or.inl hk)]
      rw [Spec.touch, if_pos hk]
      refine { nodup_keys := hp.nodup_keys, mem_keys := ?_, get_eq := ?_, ordered := hp.ordered,
               used := hp.used, length_le := hp.length_le }
      · intro x
        rw [hp.mem_keys, Spec.store, hev, Finset.sdiff_empty, Finset.insert_eq_of_mem hk]
      · intro x
        rw [get_put, h.get_eq]
        by_cases hx : x = k
        · subst hx
          rw [if_pos rfl, ← h.get_eq, hv]
        · rw [if_neg hx]

theorem foldl_touch : ∀ (ks : List κ) {d : List (κ × ν)} {s : Spec κ ν}, Represents capacity d s →
    Represents capacity (ks.foldl moveToEnd d) (ks.foldl Spec.touch s) := by
  intro ks
  induction ks with
  | nil => intro d s h; exact h
  | cons k ks ih => intro d s h; exact ih (h.touch k)

theorem clear (s : Spec κ ν) : Represents capacity ([] : List (κ × ν)) s.clear where
  nodup_keys := List.nodup_nil
  mem_keys := by intro k; simp [keys, Spec.clear]
  get_eq := by intro k; rfl
  ordered := List.Pairwise.nil
  used := by intro k hk; exact absurd hk List.not_mem_nil
  length_le := Nat.zero_le _

end Represents

end Lru
