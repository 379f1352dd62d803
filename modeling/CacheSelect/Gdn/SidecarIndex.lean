import CacheSelect.Gdn.OperatorStore

/-! # The index of a sidecar

The sidecars of a model's layers hold different operators, but they are used together: every layer stores the
same hashes and looks the same ones up.  `SidecarIndex` is what a sidecar is without its operators, and
`index_after` says that a call changes it in a way that does not depend on them.

`mem_contents_run` says where the operators come from: each was there before or was stored by a call.
-/

namespace CacheSelect.Gdn

open CacheSelect.Core OrderedDict

/-- A sidecar without its operators. -/
structure SidecarIndex where
  capacity : Nat
  blockSize : Nat
  keyToSlot : List (ContextualHash × Nat)
  freeSlots : List Nat
deriving DecidableEq, Repr

/-- A call without its operator. -/
inductive SidecarUse
  | store (blockHash : ContextualHash)
  | lookup (blockHash : ContextualHash)
  | lookupMany (blockHashes : List ContextualHash)
  | containsMany (blockHashes : List ContextualHash)
  | clear
deriving DecidableEq, Repr

namespace SidecarIndex

/-- The index of a new sidecar. -/
def init (capacity blockSize : Nat) : SidecarIndex where
  capacity := capacity
  blockSize := blockSize
  keyToSlot := []
  freeSlots := List.range capacity

/-- Whether all hashes are resident. -/
def containsMany (x : SidecarIndex) (blockHashes : List ContextualHash) : Bool :=
  blockHashes.all fun h => (get x.keyToSlot h).isSome

/-- A hash takes its own slot, a free one, or that of the least recently used hash. -/
def store (x : SidecarIndex) (blockHash : ContextualHash) : SidecarIndex :=
  match get x.keyToSlot blockHash, x.freeSlots, x.keyToSlot with
  | some slot, _, _ => { x with keyToSlot := erase x.keyToSlot blockHash ++ [(blockHash, slot)] }
  | none, slot :: free, d => { x with keyToSlot := d ++ [(blockHash, slot)], freeSlots := free }
  | none, [], (_, slot) :: d => { x with keyToSlot := d ++ [(blockHash, slot)] }
  | none, [], [] => x

def after (x : SidecarIndex) : SidecarUse → SidecarIndex
  | .store blockHash => x.store blockHash
  | .lookup blockHash => { x with keyToSlot := moveToEnd x.keyToSlot blockHash }
  | .lookupMany blockHashes =>
      if x.containsMany blockHashes = true then
        { x with keyToSlot := blockHashes.foldl moveToEnd x.keyToSlot }
      else x
  | .containsMany _ => x
  | .clear => { x with keyToSlot := [], freeSlots := List.range x.capacity }

def run (x : SidecarIndex) (uses : List SidecarUse) : SidecarIndex :=
  uses.foldl after x

end SidecarIndex

namespace GdnDeltaOperatorSidecar

variable {R : Type} {HV V K : Nat} {s : GdnDeltaOperatorSidecar R HV V K}

def index (s : GdnDeltaOperatorSidecar R HV V K) : SidecarIndex where
  capacity := s.capacity
  blockSize := s.blockSize
  keyToSlot := s.keyToSlot
  freeSlots := s.freeSlots

def Call.use : Call R HV V K → SidecarUse
  | .store blockHash _ => .store blockHash
  | .lookup blockHash => .lookup blockHash
  | .lookupMany blockHashes => .lookupMany blockHashes
  | .containsMany blockHashes => .containsMany blockHashes
  | .clear => .clear

/-- A store that passes its checks; every other call does. -/
def Call.Accepted (blockSize : Nat) : Call R HV V K → Prop
  | .store blockHash operator => Accepts blockSize blockHash operator
  | _ => True

theorem index_containsMany (s : GdnDeltaOperatorSidecar R HV V K) (hs : List ContextualHash) :
    s.index.containsMany hs = s.containsMany hs := rfl

/-- The place of a store. -/
theorem index_store (hs : s.WF) (hcap : 0 < s.capacity) {h : ContextualHash}
    {operator : GdnAffineOperator R HV V K} (hacc : Accepts s.blockSize h operator) :
    (s.after (.store h operator)).index = s.index.store h := by
  have hlen := hs.length_keyToSlot
  have hget : get s.index.keyToSlot h = get s.keyToSlot h := rfl
  have hfree : s.index.freeSlots = s.freeSlots := rfl
  have hkeys : s.index.keyToSlot = s.keyToSlot := rfl
  rw [after, store, if_neg hacc.1, if_neg (not_not_intro hacc.2.1), if_neg (not_not_intro hacc.2.2), takeSlot,
    SidecarIndex.store, hget, hfree, hkeys]
  cases hl : get s.keyToSlot h with
  | some slot => rfl
  | none =>
      cases hf : s.freeSlots with
      | cons slot free => rfl
      | nil =>
          cases hd : s.keyToSlot with
          | cons e d =>
              obtain ⟨k, slot⟩ := e
              rfl
          | nil =>
              -- an empty sidecar has free slots
              rw [hf, hd] at hlen
              exact absurd hlen (Nat.ne_of_lt hcap)

theorem index_lookupMany (s : GdnDeltaOperatorSidecar R HV V K) (hs : List ContextualHash) :
    (s.lookupMany hs).2.index = s.index.after (.lookupMany hs) := by
  have hall : s.index.containsMany hs = true ↔ ∀ h ∈ hs, (get s.keyToSlot h).isSome = true :=
    List.all_eq_true
  rw [SidecarIndex.after]
  by_cases hres : ∀ h ∈ hs, (get s.keyToSlot h).isSome = true
  · rw [lookupMany_of_resident hres, if_pos (hall.mpr hres)]
    rfl
  · rw [if_neg fun hc => hres (hall.mp hc)]
    push Not at hres
    obtain ⟨h, hin, hnone⟩ := hres
    rw [lookupMany_of_missing hin (by simpa using hnone)]

/-- **A call changes the index** without looking at the operators. -/
theorem index_after (hs : s.WF) (hcap : 0 < s.capacity) {call : Call R HV V K}
    (hacc : call.Accepted s.blockSize) : (s.after call).index = s.index.after call.use := by
  cases call with
  | store h operator => exact index_store hs hcap hacc
  | lookup h =>
      rw [after, lookup_snd]
      rfl
  | lookupMany hs' => exact index_lookupMany s hs'
  | containsMany hs' => rfl
  | clear => rfl

/-! ### Where the operators come from -/

theorem mem_lru_store {capacity : Nat} {d : List (ContextualHash × GdnAffineOperator R HV V K)}
    {h : ContextualHash} {operator : GdnAffineOperator R HV V K}
    {e : ContextualHash × GdnAffineOperator R HV V K} (he : e ∈ Lru.store capacity d h operator) :
    e ∈ d ∨ e = (h, operator) := by
  rw [Lru.store] at he
  split at he
  · rcases List.mem_append.mp he with he | he
    · exact Or.inl (mem_erase.mp he).1
    · exact Or.inr (List.mem_singleton.mp he)
  · rcases List.mem_append.mp he with he | he
    · exact Or.inl (List.mem_of_mem_tail he)
    · exact Or.inr (List.mem_singleton.mp he)

theorem contents_reorder {d : List (ContextualHash × Nat)} (hd : d.Perm s.keyToSlot)
    {e : ContextualHash × GdnAffineOperator R HV V K}
    (he : e ∈ mapValues s.operators d) : e ∈ s.contents := by
  rw [contents, mapValues] at *
  exact (hd.map _).mem_iff.mp he

/-- **An operator after a call** was there before, or the call stored it. -/
theorem mem_contents_after (hs : s.WF) (hcap : 0 < s.capacity) {call : Call R HV V K}
    (hacc : call.Accepted s.blockSize) {e : ContextualHash × GdnAffineOperator R HV V K}
    (he : e ∈ (s.after call).contents) : e ∈ s.contents ∨ call = .store e.1 e.2 := by
  cases call with
  | store h operator =>
      obtain ⟨slot, s', hstore, -, -, -, hcontents⟩ := store_spec hs hcap hacc
      rw [after, hstore] at he
      dsimp only at he
      rw [hcontents] at he
      rcases mem_lru_store he with he | rfl
      · exact Or.inl he
      · exact Or.inr rfl
  | lookup h =>
      rw [after, lookup_snd] at he
      exact Or.inl (contents_reorder (moveToEnd_perm hs.nodup_keys h) he)
  | lookupMany hs' =>
      refine Or.inl ?_
      rw [after] at he
      by_cases hres : ∀ h ∈ hs', (get s.keyToSlot h).isSome = true
      · rw [lookupMany_of_resident hres] at he
        exact contents_reorder (foldl_moveToEnd_perm hs' hs.nodup_keys) he
      · push Not at hres
        obtain ⟨h, hin, hnone⟩ := hres
        rw [lookupMany_of_missing hin (by simpa using hnone)] at he
        exact he
  | containsMany hs' => exact Or.inl he
  | clear => cases he

/-- The operator that a slot of the dictionary holds. -/
theorem mem_contents_of_get {h : ContextualHash} {slot : Nat} (hslot : get s.keyToSlot h = some slot) :
    (h, s.operators slot) ∈ s.contents :=
  List.mem_map.mpr ⟨(h, slot), mem_of_get_eq_some hslot, rfl⟩

end GdnDeltaOperatorSidecar

/-! ### Runs -/

section

open GdnDeltaOperatorSidecar

variable {R : Type} {HV V K blockSize : Nat} {s : GdnDeltaOperatorSidecar R HV V K}

theorem Ready.wf (hs : Ready blockSize s) : s.WF := by
  obtain ⟨-, spec, hr⟩ := hs
  exact hr.wf

theorem Ready.accepted (hs : Ready blockSize s) {call : Call R HV V K}
    (hacc : call.Accepted blockSize) : call.Accepted s.blockSize := by
  rw [hs.blockSize_eq]
  exact hacc

/-- The run lemma of `index_after`. -/
theorem Ready.index_run : ∀ (calls : List (Call R HV V K)) {s : GdnDeltaOperatorSidecar R HV V K},
    Ready blockSize s → (∀ call ∈ calls, call.Accepted blockSize) →
      (s.run calls).index = s.index.run (calls.map Call.use) := by
  intro calls
  induction calls with
  | nil => intro s _ _; rfl
  | cons call calls ih =>
      intro s hs hacc
      have hstep := index_after hs.wf hs.capacity (hs.accepted (hacc call List.mem_cons_self))
      have hrun := ih (hs.after call) fun c hc => hacc c (List.mem_cons_of_mem _ hc)
      change ((s.after call).run calls).index = _
      rw [hrun, hstep]
      rfl

/-- The run lemma of `mem_contents_after`. -/
theorem Ready.mem_contents_run : ∀ (calls : List (Call R HV V K))
    {s : GdnDeltaOperatorSidecar R HV V K}, Ready blockSize s →
    (∀ call ∈ calls, call.Accepted blockSize) →
    ∀ {e : ContextualHash × GdnAffineOperator R HV V K}, e ∈ (s.run calls).contents →
      e ∈ s.contents ∨ Call.store e.1 e.2 ∈ calls := by
  intro calls
  induction calls with
  | nil => intro s _ _ e he; exact Or.inl he
  | cons call calls ih =>
      intro s hs hacc e he
      rcases ih (hs.after call) (fun c hc => hacc c (List.mem_cons_of_mem _ hc)) he with he | hin
      · rcases mem_contents_after hs.wf hs.capacity (hs.accepted (hacc call List.mem_cons_self)) he
          with he | rfl
        · exact Or.inl he
        · exact Or.inr List.mem_cons_self
      · exact Or.inr (List.mem_cons_of_mem _ hin)

end

end CacheSelect.Gdn
