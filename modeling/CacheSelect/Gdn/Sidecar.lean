import CacheSelect.Gdn.AffineOperator
import CacheSelect.Lib.Lru
import Mathlib.Data.List.ReduceOption

/-! # The operator sidecar

`GdnDeltaOperatorSidecar` keeps the tensors of a bounded number of block operators in preallocated
slots; an ordered dictionary maps the contextual hash of a block to its slot, the least recently used hash
first, and a full sidecar gives the slot of its first hash to a new one.

`sidecar_representation` says that after any calls the sidecar is an LRU cache of operators: no two
hashes share a slot, the used and the free slots are the slots there are, a lookup finds the operator of the latest
store unless it was evicted or cleared since, and `lookupMany` is all or nothing.

The head counts and widths are part of the types, so that of the shapes only the token dimension is left to
check.  The elements are kept as they are stored; `contents` is what uninitialised slots hold.
-/

namespace CacheSelect.Gdn

open CacheSelect.Core OrderedDict

/-- The bytes of a contextual block hash. -/
abbrev ContextualHash := List UInt8

section

variable (R : Type) (HV V K : Nat)

/-- The tensors of a resident block operator and their slot. -/
structure GdnDeltaCacheEntry extends GdnAffineOperator R HV V K where
  slot : Nat

structure GdnDeltaOperatorSidecar where
  capacity : Nat
  blockSize : Nat
  /-- The tensors at each slot. -/
  operators : Nat → GdnAffineOperator R HV V K
  keyToSlot : List (ContextualHash × Nat)
  freeSlots : List Nat

end

variable {R : Type} {HV V K : Nat}

/-- A shape as Python shows it. -/
def shapeRepr (dimensions : List Nat) : String :=
  "(" ++ ", ".intercalate (dimensions.map toString) ++ ")"

def shapeError (name : String) (expected received : List Nat) : PyError :=
  .valueError
    (name ++ " must have shape " ++ shapeRepr expected ++ ", received " ++ shapeRepr received)

namespace GdnDeltaOperatorSidecar

/-- `__init__`. -/
def init (contents : Nat → GdnAffineOperator R HV V K) (capacity blockSize : Nat)
    (isFloatingPoint : Bool := true) : Except PyError (GdnDeltaOperatorSidecar R HV V K) :=
  if [capacity, blockSize, HV, K, V].any fun dimension => dimension == 0 then
    .error (.valueError "all GDN sidecar dimensions must be positive")
  else if isFloatingPoint = false then
    .error (.valueError "GDN sidecar tensors require a floating-point dtype")
  else
    .ok { capacity := capacity, blockSize := blockSize, operators := contents, keyToSlot := [],
          freeSlots := List.range capacity }

/-- The resident keys, the least recently used first. -/
def residentKeys (s : GdnDeltaOperatorSidecar R HV V K) : List ContextualHash :=
  keys s.keyToSlot

/-- Check complete residency without changing the order. -/
def containsMany (s : GdnDeltaOperatorSidecar R HV V K) (blockHashes : List ContextualHash) :
    Bool :=
  blockHashes.all fun h => (get s.keyToSlot h).isSome

def entryAt (s : GdnDeltaOperatorSidecar R HV V K) (slot : Nat) : GdnDeltaCacheEntry R HV V K where
  toGdnAffineOperator := s.operators slot
  slot := slot

/-- The slot for a hash, with the dictionary and the free slots without it. -/
def takeSlot (s : GdnDeltaOperatorSidecar R HV V K) (blockHash : ContextualHash) :
    Except PyError (Nat × List (ContextualHash × Nat) × List Nat) :=
  match get s.keyToSlot blockHash with
  | some slot => .ok (slot, erase s.keyToSlot blockHash, s.freeSlots)
  | none =>
      match s.freeSlots, s.keyToSlot with
      | slot :: free, keyToSlot => .ok (slot, keyToSlot, free)
      | [], (_, slot) :: keyToSlot => .ok (slot, keyToSlot, [])
      | [], [] => .error .keyError

/-- Insert or refresh one operator, evicting the least recently used key if there is no free slot. -/
def store (s : GdnDeltaOperatorSidecar R HV V K) (blockHash : ContextualHash)
    (operator : GdnAffineOperator R HV V K) :
    Except PyError (Nat × GdnDeltaOperatorSidecar R HV V K) :=
  if blockHash = [] then .error (.valueError "block_hash must be non-empty")
  else if operator.outputResponses.length ≠ s.blockSize then
    .error (shapeError "output_responses" [s.blockSize, HV, K]
      [operator.outputResponses.length, HV, K])
  else if operator.outputBiases.length ≠ s.blockSize then
    .error (shapeError "output_biases" [s.blockSize, HV, V] [operator.outputBiases.length, HV, V])
  else do
    let (slot, keyToSlot, freeSlots) ← s.takeSlot blockHash
    .ok (slot, { s with
      operators := Function.update s.operators slot operator
      keyToSlot := keyToSlot ++ [(blockHash, slot)]
      freeSlots := freeSlots })

/-- Resolve one hash and refresh it. -/
def lookup (s : GdnDeltaOperatorSidecar R HV V K) (blockHash : ContextualHash) :
    Option (GdnDeltaCacheEntry R HV V K) × GdnDeltaOperatorSidecar R HV V K :=
  match get s.keyToSlot blockHash with
  | none => (none, s)
  | some slot => (some (s.entryAt slot), { s with keyToSlot := put s.keyToSlot blockHash slot })

/-- Resolve a complete set of operators, or leave everything as it is. -/
def lookupMany (s : GdnDeltaOperatorSidecar R HV V K) (blockHashes : List ContextualHash) :
    Option (List (GdnDeltaCacheEntry R HV V K)) × GdnDeltaOperatorSidecar R HV V K :=
  let slots := blockHashes.map fun h => get s.keyToSlot h
  if slots.any Option.isNone then (none, s)
  else
    (some (slots.reduceOption.map s.entryAt),
      { s with keyToSlot := blockHashes.foldl moveToEnd s.keyToSlot })

/-- Remove all entries and keep the buffers. -/
def clear (s : GdnDeltaOperatorSidecar R HV V K) : GdnDeltaOperatorSidecar R HV V K :=
  { s with keyToSlot := [], freeSlots := List.range s.capacity }

/-! ### Calls -/

variable (R HV V K) in
inductive Call
  | store (blockHash : ContextualHash) (operator : GdnAffineOperator R HV V K)
  | lookup (blockHash : ContextualHash)
  | lookupMany (blockHashes : List ContextualHash)
  | containsMany (blockHashes : List ContextualHash)
  | clear

/-- The sidecar after a call; one that raises changes nothing. -/
def after (s : GdnDeltaOperatorSidecar R HV V K) : Call R HV V K →
    GdnDeltaOperatorSidecar R HV V K
  | .store blockHash operator =>
      match s.store blockHash operator with
      | .ok (_, s') => s'
      | .error _ => s
  | .lookup blockHash => (s.lookup blockHash).2
  | .lookupMany blockHashes => (s.lookupMany blockHashes).2
  | .containsMany _ => s
  | .clear => s.clear

def run (s : GdnDeltaOperatorSidecar R HV V K) (calls : List (Call R HV V K)) :
    GdnDeltaOperatorSidecar R HV V K :=
  calls.foldl after s

/-- A store that passes its checks. -/
def Accepts (blockSize : Nat) (blockHash : ContextualHash) (operator : GdnAffineOperator R HV V K) :
    Prop :=
  blockHash ≠ [] ∧ operator.outputResponses.length = blockSize ∧
    operator.outputBiases.length = blockSize

instance (blockSize : Nat) (h : ContextualHash) (operator : GdnAffineOperator R HV V K) :
    Decidable (Accepts blockSize h operator) := by
  unfold Accepts; infer_instance

/-- What a call does to an LRU cache of operators. -/
def specAfter (capacity blockSize : Nat) (spec : Lru.Spec ContextualHash (GdnAffineOperator R HV V K)) :
    Call R HV V K → Lru.Spec ContextualHash (GdnAffineOperator R HV V K)
  | .store blockHash operator =>
      if Accepts blockSize blockHash operator then spec.store capacity blockHash operator else spec
  | .lookup blockHash => spec.touch blockHash
  | .lookupMany blockHashes => spec.touchMany blockHashes
  | .containsMany _ => spec
  | .clear => spec.clear

def specRun (capacity blockSize : Nat) (calls : List (Call R HV V K)) :
    Lru.Spec ContextualHash (GdnAffineOperator R HV V K) :=
  calls.foldl (specAfter capacity blockSize) {}

/-! ### The invariant -/

/-- The operators by their hashes. -/
def contents (s : GdnDeltaOperatorSidecar R HV V K) :
    List (ContextualHash × GdnAffineOperator R HV V K) :=
  mapValues s.operators s.keyToSlot

def usedSlots (s : GdnDeltaOperatorSidecar R HV V K) : List Nat :=
  s.keyToSlot.map Prod.snd

/-- Hashes are unique, and the used and the free slots are the slots there are. -/
structure WF (s : GdnDeltaOperatorSidecar R HV V K) : Prop where
  nodup_keys : (keys s.keyToSlot).Nodup
  slots : (s.usedSlots ++ s.freeSlots).Perm (List.range s.capacity)

variable {s : GdnDeltaOperatorSidecar R HV V K}

theorem WF.nodup_slots (hs : s.WF) : (s.usedSlots ++ s.freeSlots).Nodup :=
  hs.slots.nodup_iff.mpr List.nodup_range

/-- **No two hashes share a slot.** -/
theorem WF.slot_injective (hs : s.WF) {h h' : ContextualHash} {slot : Nat}
    (hh : get s.keyToSlot h = some slot) (hh' : get s.keyToSlot h' = some slot) : h = h' := by
  have hnd : (s.keyToSlot.map Prod.snd).Nodup := (List.nodup_append.mp hs.nodup_slots).1
  have := List.inj_on_of_nodup_map hnd (mem_of_get_eq_some hh) (mem_of_get_eq_some hh') rfl
  exact congrArg Prod.fst this

theorem WF.length_keyToSlot (hs : s.WF) : s.keyToSlot.length + s.freeSlots.length = s.capacity := by
  have := hs.slots.length_eq
  rwa [List.length_append, usedSlots, List.length_map, List.length_range] at this

/-- Overwriting a slot that the dictionary does not use leaves the operators of the dictionary. -/
theorem mapValues_update {d : List (ContextualHash × Nat)} {slot : Nat}
    (hslot : slot ∉ d.map Prod.snd) (operators : Nat → GdnAffineOperator R HV V K)
    (operator : GdnAffineOperator R HV V K) :
    mapValues (Function.update operators slot operator) d = mapValues operators d := by
  refine List.map_congr_left ?_
  intro e he
  have hne : e.2 ≠ slot := by
    rintro rfl
    exact hslot (List.mem_map.mpr ⟨e, he, rfl⟩)
  rw [Function.update_of_ne hne]

/-- What `takeSlot` returns: a slot that is not used any more, with all others where they were. -/
theorem takeSlot_spec (hs : s.WF) (hcap : 0 < s.capacity) (h : ContextualHash) :
    ∃ slot d free, s.takeSlot h = .ok (slot, d, free) ∧ h ∉ keys d ∧ (keys d).Nodup ∧
      (d.map Prod.snd ++ slot :: free).Perm (List.range s.capacity) ∧
      ∀ operator : GdnAffineOperator R HV V K,
        mapValues s.operators d ++ [(h, operator)] = Lru.store s.capacity s.contents h operator := by
  have hlen := hs.length_keyToSlot
  have hclen : s.contents.length = s.keyToSlot.length := by
    rw [contents, mapValues, List.length_map]
  cases hl : get s.keyToSlot h with
  | some slot =>
      refine ⟨slot, erase s.keyToSlot h, s.freeSlots, ?_, not_mem_keys_erase _ _,
        nodup_keys_erase hs.nodup_keys h, ?_, ?_⟩
      · rw [takeSlot, hl]
      · have hput := (put_perm hs.nodup_keys hl).map Prod.snd
        rw [put, List.map_append] at hput
        have := (hput.append_right s.freeSlots).trans hs.slots
        rwa [List.append_assoc] at this
      · intro operator
        have hin : (get s.contents h).isSome = true := by
          rw [contents, get_mapValues, hl]
          rfl
        rw [Lru.store, if_pos (Or.inl hin), put, contents, mapValues_erase]
  | none =>
      have hk : h ∉ keys s.keyToSlot := get_eq_none_iff.mp hl
      have hnone : get s.contents h = none := by
        rw [contents, get_mapValues, hl]
        rfl
      have hkc : h ∉ keys s.contents := get_eq_none_iff.mp hnone
      cases hf : s.freeSlots with
      | cons slot free =>
          rw [hf, List.length_cons] at hlen
          refine ⟨slot, s.keyToSlot, free, ?_, hk, hs.nodup_keys, ?_, ?_⟩
          · rw [takeSlot, hl, hf]
          · have := hs.slots
            rwa [hf] at this
          · intro operator
            rw [Lru.store, if_pos (Or.inr (by omega)), put, erase_of_not_mem hkc]
            rfl
      | nil =>
          rw [hf, List.length_nil] at hlen
          cases hd : s.keyToSlot with
          | nil =>
              rw [hd, List.length_nil] at hlen
              omega
          | cons e d =>
              have hnd := hs.nodup_keys
              rw [hd, keys, List.map_cons, List.nodup_cons] at hnd
              refine ⟨e.2, d, [], ?_, ?_, hnd.2, ?_, ?_⟩
              · rw [takeSlot, hl, hf, hd]
              · intro hin
                exact hk (by rw [hd]; exact List.mem_cons_of_mem _ hin)
              · have := hs.slots
                rw [usedSlots, hf, hd, List.append_nil, List.map_cons] at this
                exact (List.perm_append_singleton e.2 _).trans this
              · intro operator
                rw [Lru.store, if_neg]
                · rw [contents, hd]
                  rfl
                · rw [hnone, hclen]
                  rintro (h | h)
                  · cases h
                  · omega

/-- A store that passes its checks. -/
theorem store_spec (hs : s.WF) (hcap : 0 < s.capacity) {h : ContextualHash}
    {operator : GdnAffineOperator R HV V K} (hacc : Accepts s.blockSize h operator) :
    ∃ slot s', s.store h operator = .ok (slot, s') ∧ s'.WF ∧ s'.capacity = s.capacity ∧
      s'.blockSize = s.blockSize ∧ s'.contents = Lru.store s.capacity s.contents h operator := by
  obtain ⟨slot, d, free, htake, hk, hnd, hperm, hcontents⟩ := takeSlot_spec hs hcap h
  have hslots : (d.map Prod.snd ++ slot :: free).Nodup := hperm.nodup_iff.mpr List.nodup_range
  have hslot : slot ∉ d.map Prod.snd := by
    intro hin
    exact (List.nodup_append.mp hslots).2.2 slot hin slot (by simp) rfl
  refine ⟨slot, { s with
    operators := Function.update s.operators slot operator
    keyToSlot := d ++ [(h, slot)]
    freeSlots := free }, ?_, ⟨?_, ?_⟩, rfl, rfl, ?_⟩
  · rw [store, if_neg hacc.1, if_neg (not_not_intro hacc.2.1), if_neg (not_not_intro hacc.2.2),
      htake]
    rfl
  · rw [keys, List.map_append]
    refine List.nodup_append.mpr ⟨hnd, List.nodup_singleton _, ?_⟩
    intro x hx y hy
    rw [List.map_singleton, List.mem_singleton] at hy
    subst hy
    rintro rfl
    exact hk hx
  · change ((d ++ [(h, slot)]).map Prod.snd ++ free).Perm _
    rw [List.map_append, List.append_assoc]
    exact hperm
  · rw [← hcontents operator]
    change mapValues (Function.update s.operators slot operator) (d ++ [(h, slot)]) = _
    rw [mapValues, List.map_append, ← mapValues, mapValues_update hslot, List.map_singleton,
      Function.update_self]

theorem store_error {h : ContextualHash} {operator : GdnAffineOperator R HV V K}
    (hacc : ¬ Accepts s.blockSize h operator) : ∃ e, s.store h operator = .error e := by
  rw [store]
  by_cases hh : h = []
  · exact ⟨_, if_pos hh⟩
  · rw [if_neg hh]
    by_cases hr : operator.outputResponses.length = s.blockSize
    · rw [if_neg (not_not_intro hr)]
      by_cases hb : operator.outputBiases.length = s.blockSize
      · exact absurd ⟨hh, hr, hb⟩ hacc
      · exact ⟨_, if_pos hb⟩
    · exact ⟨_, if_pos hr⟩

/-- Reordering the dictionary keeps the invariant. -/
theorem WF.reorder (hs : s.WF) {d : List (ContextualHash × Nat)} (hd : d.Perm s.keyToSlot) :
    { s with keyToSlot := d }.WF where
  nodup_keys := (hd.map Prod.fst).nodup_iff.mpr hs.nodup_keys
  slots := ((hd.map Prod.snd).append_right s.freeSlots).trans hs.slots

theorem lookup_snd (h : ContextualHash) :
    (s.lookup h).2 = { s with keyToSlot := moveToEnd s.keyToSlot h } := by
  rw [lookup, moveToEnd]
  cases get s.keyToSlot h with
  | none => rfl
  | some slot => rfl

/-- `lookupMany` of resident hashes. -/
theorem lookupMany_of_resident {hs : List ContextualHash}
    (hres : ∀ h ∈ hs, (get s.keyToSlot h).isSome = true) :
    s.lookupMany hs = (some ((hs.map fun h => get s.keyToSlot h).reduceOption.map s.entryAt),
      { s with keyToSlot := hs.foldl moveToEnd s.keyToSlot }) := by
  rw [lookupMany, if_neg]
  rw [Bool.not_eq_true, List.any_eq_false]
  intro x hx
  obtain ⟨h, hh, rfl⟩ := List.mem_map.mp hx
  rw [Bool.not_eq_true, Option.isNone_eq_false_iff]
  exact hres h hh

/-- `lookupMany` with a hash that is not resident. -/
theorem lookupMany_of_missing {hs : List ContextualHash} {h : ContextualHash} (hh : h ∈ hs)
    (hmiss : get s.keyToSlot h = none) : s.lookupMany hs = (none, s) := by
  rw [lookupMany, if_pos]
  refine List.any_eq_true.mpr ⟨none, List.mem_map.mpr ⟨h, hh, hmiss⟩, rfl⟩

/-- What the sidecar of a capacity and a block size is after some calls. -/
structure Represents (capacity blockSize : Nat) (s : GdnDeltaOperatorSidecar R HV V K)
    (spec : Lru.Spec ContextualHash (GdnAffineOperator R HV V K)) : Prop where
  wf : s.WF
  capacity_eq : s.capacity = capacity
  blockSize_eq : s.blockSize = blockSize
  contents : Lru.Represents capacity s.contents spec

section

variable {capacity blockSize : Nat}
  {spec : Lru.Spec ContextualHash (GdnAffineOperator R HV V K)}

theorem Represents.lookup_eq (hr : Represents capacity blockSize s spec) (h : ContextualHash) :
    (get s.keyToSlot h).map s.operators = spec.value h := by
  rw [← hr.contents.get_eq, GdnDeltaOperatorSidecar.contents, get_mapValues]

theorem Represents.isSome_lookup (hr : Represents capacity blockSize s spec) (h : ContextualHash) :
    (get s.keyToSlot h).isSome = true ↔ h ∈ spec.resident := by
  rw [← hr.contents.isSome_value, ← hr.lookup_eq, Option.isSome_map]

/-- Using hashes. -/
theorem Represents.reorder (hr : Represents capacity blockSize s spec)
    {d : List (ContextualHash × Nat)} (hd : d.Perm s.keyToSlot)
    {spec' : Lru.Spec ContextualHash (GdnAffineOperator R HV V K)}
    (hspec : Lru.Represents capacity (mapValues s.operators d) spec') :
    Represents capacity blockSize { s with keyToSlot := d } spec' where
  wf := hr.wf.reorder hd
  capacity_eq := hr.capacity_eq
  blockSize_eq := hr.blockSize_eq
  contents := hspec

/-- **The step lemma.** -/
theorem Represents.after (hcap : 0 < capacity) (hr : Represents capacity blockSize s spec)
    (c : Call R HV V K) : Represents capacity blockSize (s.after c)
      (specAfter capacity blockSize spec c) := by
  cases c with
  | store h operator =>
      rw [specAfter, GdnDeltaOperatorSidecar.after]
      by_cases hacc : Accepts blockSize h operator
      · obtain ⟨slot, s', hstore, hwf, hcapacity, hblock, hcontents⟩ :=
          store_spec hr.wf (by rw [hr.capacity_eq]; exact hcap) (hr.blockSize_eq ▸ hacc)
        rw [if_pos hacc, hstore]
        refine ⟨hwf, hcapacity.trans hr.capacity_eq, hblock.trans hr.blockSize_eq, ?_⟩
        rw [hcontents, hr.capacity_eq]
        exact hr.contents.store hcap h operator
      · obtain ⟨e, he⟩ := store_error (s := s) (hr.blockSize_eq ▸ hacc)
        rw [if_neg hacc, he]
        exact hr
  | lookup h =>
      rw [specAfter, GdnDeltaOperatorSidecar.after, lookup_snd]
      refine hr.reorder (moveToEnd_perm hr.wf.nodup_keys h) ?_
      rw [mapValues_moveToEnd]
      exact hr.contents.touch h
  | lookupMany hs =>
      rw [specAfter, GdnDeltaOperatorSidecar.after, Lru.Spec.touchMany]
      by_cases hres : ∀ h ∈ hs, h ∈ spec.resident
      · rw [if_pos hres, lookupMany_of_resident fun h hh => (hr.isSome_lookup h).mpr (hres h hh)]
        refine hr.reorder (foldl_moveToEnd_perm hs hr.wf.nodup_keys) ?_
        rw [mapValues_foldl_moveToEnd]
        exact Lru.Represents.foldl_touch hs hr.contents
      · rw [if_neg hres]
        push Not at hres
        obtain ⟨h, hh, hmiss⟩ := hres
        rw [← hr.isSome_lookup, Bool.not_eq_true, Option.isSome_eq_false_iff,
          Option.isNone_iff_eq_none] at hmiss
        rw [lookupMany_of_missing hh hmiss]
        exact hr
  | containsMany hs => exact hr
  | clear =>
      rw [specAfter, GdnDeltaOperatorSidecar.after]
      refine ⟨⟨List.nodup_nil, ?_⟩, hr.capacity_eq, hr.blockSize_eq, Lru.Represents.clear spec⟩
      exact List.Perm.refl _

end

theorem init_ok {contents : Nat → GdnAffineOperator R HV V K} {capacity blockSize : Nat}
    {isFloatingPoint : Bool} (h : init contents capacity blockSize isFloatingPoint = .ok s) :
    0 < capacity ∧ Represents capacity blockSize s {} := by
  rw [init] at h
  split at h
  · cases h
  · next hdim =>
      split at h
      · cases h
      · rw [Except.ok.injEq] at h
        subst h
        simp only [List.any_cons, Bool.or_eq_true, beq_iff_eq, not_or] at hdim
        refine ⟨Nat.pos_of_ne_zero hdim.1, ⟨List.nodup_nil, List.Perm.refl _⟩, rfl, rfl, ?_⟩
        exact Lru.Represents.empty capacity

theorem init_blockSize_pos {contents : Nat → GdnAffineOperator R HV V K} {capacity blockSize : Nat}
    {isFloatingPoint : Bool} (h : init contents capacity blockSize isFloatingPoint = .ok s) :
    0 < blockSize := by
  rw [init] at h
  split at h
  · cases h
  · next hdim =>
      simp only [List.any_cons, Bool.or_eq_true, beq_iff_eq, not_or] at hdim
      exact Nat.pos_of_ne_zero hdim.2.1

/-- The run lemma. -/
theorem represents_run {contents : Nat → GdnAffineOperator R HV V K} {capacity blockSize : Nat}
    {isFloatingPoint : Bool} (h : init contents capacity blockSize isFloatingPoint = .ok s)
    (calls : List (Call R HV V K)) :
    Represents capacity blockSize (s.run calls) (specRun capacity blockSize calls) := by
  obtain ⟨hcap, hr⟩ := init_ok h
  have hrun : ∀ (calls : List (Call R HV V K)) (s : GdnDeltaOperatorSidecar R HV V K)
      (spec : Lru.Spec ContextualHash (GdnAffineOperator R HV V K)),
      Represents capacity blockSize s spec →
        Represents capacity blockSize (s.run calls)
          (calls.foldl (specAfter capacity blockSize) spec) := by
    intro calls
    induction calls with
    | nil => intro s spec hr; exact hr
    | cons c calls ih => intro s spec hr; exact ih _ _ (hr.after hcap c)
  exact hrun calls s {} hr

/-! ### What the calls return -/

section

variable {capacity blockSize : Nat}
  {spec : Lru.Spec ContextualHash (GdnAffineOperator R HV V K)}

theorem Represents.lookup_fst (hr : Represents capacity blockSize s spec) (h : ContextualHash) :
    (s.lookup h).1.map GdnDeltaCacheEntry.toGdnAffineOperator = spec.value h := by
  rw [← hr.lookup_eq, lookup]
  cases get s.keyToSlot h with
  | none => rfl
  | some slot => rfl

theorem Represents.containsMany_iff (hr : Represents capacity blockSize s spec)
    (hs : List ContextualHash) : s.containsMany hs = true ↔ ∀ h ∈ hs, h ∈ spec.resident := by
  rw [containsMany, List.all_eq_true]
  refine forall₂_congr ?_
  intro h _
  exact hr.isSome_lookup h

/-- The entries of resident hashes. -/
theorem Represents.entries_eq (hr : Represents capacity blockSize s spec) :
    ∀ {hs : List ContextualHash}, (∀ h ∈ hs, h ∈ spec.resident) →
      ((hs.map fun h => get s.keyToSlot h).reduceOption.map s.entryAt).map
        (fun e => some e.toGdnAffineOperator) = hs.map spec.value := by
  intro hs
  induction hs with
  | nil => intro _; rfl
  | cons h hs ih =>
      intro hres
      obtain ⟨slot, hslot⟩ :=
        Option.isSome_iff_exists.mp ((hr.isSome_lookup h).mpr (hres h (by simp)))
      have hvalue := hr.lookup_eq h
      rw [hslot, Option.map_some] at hvalue
      rw [List.map_cons, hslot, List.reduceOption_cons_of_some, List.map_cons, List.map_cons,
        List.map_cons, ih fun x hx => hres x (List.mem_cons_of_mem _ hx), ← hvalue]
      rfl

end

/-- **The sidecar is an LRU cache of operators.**  After any calls no two hashes share a slot and the
used and the free slots are the slots of the sidecar; a lookup finds the operator of the latest store of
the hash unless it was evicted as least recently used or cleared since; the dictionary is in the order
of the last uses; and `lookupMany` finds every operator and uses the hashes in their order, or finds none
and changes nothing. -/
theorem sidecar_representation {contents : Nat → GdnAffineOperator R HV V K}
    {capacity blockSize : Nat} {isFloatingPoint : Bool} {s₀ : GdnDeltaOperatorSidecar R HV V K}
    (hinit : init contents capacity blockSize isFloatingPoint = .ok s₀)
    (calls : List (Call R HV V K)) :
    let s := s₀.run calls
    let spec := specRun capacity blockSize calls
    (∀ h h' slot, get s.keyToSlot h = some slot → get s.keyToSlot h' = some slot → h = h') ∧
    (s.usedSlots ++ s.freeSlots).Perm (List.range capacity) ∧
    (∀ h, (s.lookup h).1.map GdnDeltaCacheEntry.toGdnAffineOperator = spec.value h) ∧
    (∀ hs, s.containsMany hs = true ↔ ∀ h ∈ hs, h ∈ spec.resident) ∧
    (s.residentKeys.Pairwise fun h h' => spec.lastUse h < spec.lastUse h') ∧
    ∀ hs, if ∀ h ∈ hs, h ∈ spec.resident then
        (∃ entries, (s.lookupMany hs).1 = some entries ∧
          entries.map (fun e => some e.toGdnAffineOperator) = hs.map spec.value) ∧
        (s.lookupMany hs).2.residentKeys.Pairwise fun h h' =>
          (hs.foldl Lru.Spec.touch spec).lastUse h < (hs.foldl Lru.Spec.touch spec).lastUse h'
      else s.lookupMany hs = (none, s) := by
  intro s spec
  have hr : Represents capacity blockSize s spec := represents_run hinit calls
  have hkeys : ∀ {s : GdnDeltaOperatorSidecar R HV V K}
      {spec : Lru.Spec ContextualHash (GdnAffineOperator R HV V K)},
      Represents capacity blockSize s spec →
        s.residentKeys.Pairwise fun h h' => spec.lastUse h < spec.lastUse h' := by
    intro s spec hr
    have := hr.contents.ordered
    rwa [GdnDeltaOperatorSidecar.contents, keys_mapValues] at this
  refine ⟨fun h h' slot => hr.wf.slot_injective, ?_, hr.lookup_fst, hr.containsMany_iff, hkeys hr,
    ?_⟩
  · rw [← hr.capacity_eq]
    exact hr.wf.slots
  · intro hs
    split
    · next hres =>
        have hlook := lookupMany_of_resident fun h hh => (hr.isSome_lookup h).mpr (hres h hh)
        have hafter := hr.after (init_ok hinit).1 (.lookupMany hs)
        rw [specAfter, Lru.Spec.touchMany, if_pos hres] at hafter
        exact ⟨⟨_, by rw [hlook], hr.entries_eq hres⟩, hkeys hafter⟩
    · next hres =>
        push Not at hres
        obtain ⟨h, hh, hmiss⟩ := hres
        rw [← hr.isSome_lookup, Bool.not_eq_true, Option.isSome_eq_false_iff,
          Option.isNone_iff_eq_none] at hmiss
        exact lookupMany_of_missing hh hmiss

/-- An operator of one token, one head and widths of one. -/
def sampleOperator (n : ℤ) : GdnAffineOperator ℤ 1 1 1 where
  transition := fun _ _ _ => n
  outputResponses := [fun _ _ => n]
  stateBias := fun _ _ _ => n
  outputBiases := [fun _ _ => n]

/-- In two slots the third operator takes the slot of the one that was not used again. -/
theorem sidecar_evicts_least_recent : ∃ s₀, init (fun _ => sampleOperator 0) 2 1 = .ok s₀ ∧
    let s := s₀.run [.store [1] (sampleOperator 1), .store [2] (sampleOperator 2), .lookup [1],
      .store [3] (sampleOperator 3)]
    (s.lookup [2]).1 = none ∧
      (s.lookup [1]).1.map GdnDeltaCacheEntry.toGdnAffineOperator = some (sampleOperator 1) ∧
      s.lookupMany [[1], [2]] = (none, s) := by
  obtain ⟨s₀, hinit⟩ : ∃ s₀, init (fun _ => sampleOperator 0) 2 1 = .ok s₀ := ⟨_, rfl⟩
  refine ⟨s₀, hinit, ?_⟩
  obtain ⟨-, -, hlookup, -, -, hmany⟩ := sidecar_representation hinit
    [.store [1] (sampleOperator 1), .store [2] (sampleOperator 2), .lookup [1],
      .store [3] (sampleOperator 3)]
  refine ⟨?_, ?_, ?_⟩
  · refine Option.map_eq_none_iff.mp ((hlookup [2]).trans ?_)
    rfl
  · rw [hlookup]
    rfl
  · have := hmany [[1], [2]]
    rwa [if_neg (by decide)] at this

end GdnDeltaOperatorSidecar

end CacheSelect.Gdn
