import CacheSelect.Hybrid.CacheHit

/-! # What the prefix lookups find

`points` are the lengths at which a group has a hit, whatever length a lookup is given, and `hitBlocks` are the
blocks of a hit.  Each of the three lookups finds the greatest point at or below its bound (`Found`).
-/

namespace CacheSelect.Hybrid

open CacheSelect.Core (PyError cdiv)

/-- The first block that a hit of `hitLength` tokens needs. -/
def KVCacheSpec.firstNeeded (spec : KVCacheSpec) (hitLength : Nat) : Nat :=
  match spec.kind with
  | .fullAttention => 0
  | .slidingWindow slidingWindow =>
      cdiv hitLength spec.blockSize - max (contiguousBlocksForHit slidingWindow spec.blockSize) 1
  | .mamba _ => cdiv hitLength spec.blockSize - 1

namespace CacheLookup

variable {Hash : Type} (q : CacheLookup Hash)

/-- The block that a group has cached for the first `numTokens` tokens. -/
def entry (numTokens groupId : Nat) : Option Nat :=
  q.blockHashes[numTokens / q.hashBlockSize - 1]?.bind fun blockHash => q.getOneBlock blockHash groupId

/-- All groups have a block cached for the first `numTokens` tokens. -/
def Cached (kvCacheGroupIds : List Nat) (numTokens : Nat) : Prop :=
  ∀ groupId ∈ kvCacheGroupIds, (q.entry numTokens groupId).isSome = true

instance (kvCacheGroupIds : List Nat) (numTokens : Nat) : Decidable (q.Cached kvCacheGroupIds numTokens) :=
  inferInstanceAs (Decidable (∀ groupId ∈ kvCacheGroupIds, _))

def block (numTokens groupId : Nat) : Nat :=
  (q.entry numTokens groupId).getD nullBlock

/-- **The hits** of the groups of a spec: every block that is needed is cached, the last one up to the hit. -/
def points (spec : KVCacheSpec) (kvCacheGroupIds : List Nat) : Set Nat :=
  {hitLength | q.alignmentTokens ∣ hitLength ∧ ∀ j, spec.firstNeeded hitLength ≤ j →
    j < cdiv hitLength spec.blockSize → q.Cached kvCacheGroupIds (min ((j + 1) * spec.blockSize) hitLength)}

/-- The blocks of a hit in one group. -/
def hitBlocks (spec : KVCacheSpec) (hitLength groupId : Nat) : List Nat :=
  (List.range (cdiv hitLength spec.blockSize)).map fun j =>
    if j < spec.firstNeeded hitLength then nullBlock
    else q.block (min ((j + 1) * spec.blockSize) hitLength) groupId

/-- A lookup found the greatest hit and its blocks. -/
structure Found (spec : KVCacheSpec) (kvCacheGroupIds : List Nat) (maxLength : Nat)
    (found : List (List Nat) × Nat) : Prop where
  greatest : IsGreatest (q.points spec kvCacheGroupIds ∩ Set.Iic maxLength) found.2
  blocks : found.1 = kvCacheGroupIds.map (q.hitBlocks spec found.2)

/-- What the coordinator ensures for each spec. -/
structure Fits (blockSize : Nat) : Prop where
  hash_pos : 0 < q.hashBlockSize
  block_pos : 0 < blockSize
  align_pos : 0 < q.alignmentTokens
  hash_dvd : q.hashBlockSize ∣ blockSize
  aligned : blockSize ∣ q.alignmentTokens ∨ q.alignmentTokens = q.hashBlockSize

variable {q} {blockSize : Nat} {kvCacheGroupIds : List Nat}

theorem Fits.fineGrained_iff (h : q.Fits blockSize) : q.FineGrained blockSize ↔ ¬ blockSize ∣ q.alignmentTokens := by
  refine ⟨?_, ?_⟩
  · rintro ⟨hlt, -⟩ hdvd
    exact absurd (Nat.le_of_dvd h.align_pos hdvd) (Nat.not_le.mpr hlt)
  · intro hndvd
    have heq := h.aligned.resolve_left hndvd
    refine ⟨?_, by rw [heq]; exact Nat.mod_eq_zero_of_dvd h.hash_dvd⟩
    rw [heq]
    refine lt_of_le_of_ne (Nat.le_of_dvd h.block_pos h.hash_dvd) ?_
    intro hne
    rw [heq, hne] at hndvd
    exact hndvd (Nat.dvd_refl _)

theorem Fits.align_eq (h : q.Fits blockSize) (hfine : q.FineGrained blockSize) :
    q.alignmentTokens = q.hashBlockSize :=
  h.aligned.resolve_left (h.fineGrained_iff.mp hfine)

/-! ### The hashes of a prefix -/

theorem getCachedBlock_eq (blockHash : Hash) : ∀ (kvCacheGroupIds : List Nat),
    q.getCachedBlock blockHash kvCacheGroupIds
      = if ∀ groupId ∈ kvCacheGroupIds, (q.getOneBlock blockHash groupId).isSome = true
        then some (kvCacheGroupIds.map fun groupId => (q.getOneBlock blockHash groupId).getD nullBlock)
        else none := by
  intro ids
  induction ids with
  | nil => rfl
  | cons groupId ids ih =>
      rw [getCachedBlock] at ih ⊢
      rw [List.mapM_cons, ih]
      simp only [List.forall_mem_cons]
      cases hblock : q.getOneBlock blockHash groupId with
      | none => simp
      | some block =>
          by_cases hall : ∀ groupId ∈ ids, (q.getOneBlock blockHash groupId).isSome = true
          · rw [if_pos hall, if_pos ⟨rfl, hall⟩, List.map_cons, hblock]
            rfl
          · rw [if_neg hall, if_neg fun h => hall h.2]
            rfl

/-- Looking up the hash of a prefix. -/
theorem getCachedBlock_of_hash {numTokens : Nat} {blockHash : Hash}
    (hhash : q.blockHashes[numTokens / q.hashBlockSize - 1]? = some blockHash) :
    q.getCachedBlock blockHash kvCacheGroupIds = if q.Cached kvCacheGroupIds numTokens
      then some (kvCacheGroupIds.map (q.block numTokens)) else none := by
  have hentry : ∀ groupId, q.entry numTokens groupId = q.getOneBlock blockHash groupId := by
    intro groupId
    rw [entry, hhash]
    rfl
  have hblock : q.block numTokens = fun groupId => (q.getOneBlock blockHash groupId).getD nullBlock := by
    funext groupId
    rw [block, hentry]
  rw [getCachedBlock_eq, hblock]
  refine if_congr ?_ rfl rfl
  simp only [Cached, hentry]

theorem not_cached_of_length_le (hne : kvCacheGroupIds ≠ []) {numTokens : Nat}
    (h : q.blockHashes.length ≤ numTokens / q.hashBlockSize - 1) : ¬ q.Cached kvCacheGroupIds numTokens := by
  obtain ⟨groupId, ids, rfl⟩ := List.exists_cons_of_ne_nil hne
  intro hcached
  have hsome := hcached groupId List.mem_cons_self
  rw [entry, List.getElem?_eq_none h] at hsome
  cases hsome

/-- Probing the hash of a prefix. -/
theorem probe_eq (hne : kvCacheGroupIds ≠ []) (hhash : 0 < q.hashBlockSize) (fineIdx : Nat) :
    q.probe kvCacheGroupIds fineIdx = if q.Cached kvCacheGroupIds ((fineIdx + 1) * q.hashBlockSize)
      then some (fineIdx, kvCacheGroupIds.map (q.block ((fineIdx + 1) * q.hashBlockSize))) else none := by
  have hidx : (fineIdx + 1) * q.hashBlockSize / q.hashBlockSize - 1 = fineIdx := by
    rw [Nat.mul_div_cancel _ hhash, Nat.add_sub_cancel]
  rw [probe]
  cases hget : q.blockHashes[fineIdx]? with
  | none =>
      rw [if_neg (not_cached_of_length_le hne (by rw [hidx]; exact List.getElem?_eq_none_iff.mp hget))]
      rfl
  | some blockHash =>
      rw [← hidx] at hget
      change (q.getCachedBlock blockHash kvCacheGroupIds).bind (fun cached => some (fineIdx, cached)) = _
      rw [getCachedBlock_of_hash hget]
      split
      · rfl
      · rfl

/-! ### Searches from the right -/

/-- The last index from `a` to `n` at which `P` holds, if there is one. -/
def IsLast (P : Nat → Prop) (a n : Nat) : Option Nat → Prop
  | none => ∀ k, a ≤ k → k < n → ¬ P k
  | some i => a ≤ i ∧ i < n ∧ P i ∧ ∀ k, i < k → k < n → ¬ P k

theorem isLast_of_le (P : Nat → Prop) {a n : Nat} (h : n ≤ a) : IsLast P a n none :=
  fun k hk hk' => absurd hk (by omega)

theorem isLast_succ {P : Nat → Prop} {a n : Nat} (ha : a ≤ n) (h : P n) : IsLast P a (n + 1) (some n) :=
  ⟨ha, Nat.lt_succ_self n, h, fun k hk hk' => absurd hk (by omega)⟩

theorem isLast_succ_of_not {P : Nat → Prop} {a n : Nat} (h : ¬ P n) {last : Option Nat} (hlast : IsLast P a n last) :
    IsLast P a (n + 1) last := by
  have hstep : ∀ k, k < n + 1 → (k < n → ¬ P k) → ¬ P k := by
    intro k hk hbefore
    rcases Nat.lt_succ_iff_lt_or_eq.mp hk with hlt | rfl
    · exact hbefore hlt
    · exact h
  cases last with
  | none => exact fun k hak hk => hstep k hk (hlast k hak)
  | some i =>
      obtain ⟨hai, hi, hPi, hafter⟩ := hlast
      exact ⟨hai, Nat.lt_succ_of_lt hi, hPi, fun k hik hk => hstep k hk (hafter k hik)⟩

theorem findSome?_reverse {β : Type} (P : Nat → Prop) [DecidablePred P] (g : Nat → β) (a : Nat) : ∀ m,
    ∃ last, (List.range' a m).reverse.findSome? (fun i => if P i then some (g i) else none) = last.map g ∧
      IsLast P a (a + m) last := by
  intro m
  induction m with
  | zero => exact ⟨none, rfl, isLast_of_le P (le_refl a)⟩
  | succ m ih =>
      obtain ⟨last, hfind, hlast⟩ := ih
      rw [List.range'_concat, List.reverse_append, List.reverse_singleton, List.singleton_append,
        List.findSome?_cons, Nat.one_mul]
      by_cases hP : P (a + m)
      · rw [if_pos hP]
        exact ⟨some (a + m), rfl, isLast_succ (Nat.le_add_right a m) hP⟩
      · rw [if_neg hP]
        exact ⟨last, hfind, isLast_succ_of_not hP hlast⟩

/-! ### Hashes at the block size of a group -/

/-- `blockHashes` has the hash of every whole block of a group. -/
structure HasBlocks (q : CacheLookup Hash) (blockSize : Nat) (blockHashes : BlockHashList Hash) : Prop where
  getItem : ∀ i blockHash, q.blockHashes[(i + 1) * blockSize / q.hashBlockSize - 1]? = some blockHash →
    blockHashes.getItem i = .ok blockHash
  toList : ∀ i, blockHashes.toList[i]? = q.blockHashes[(i + 1) * blockSize / q.hashBlockSize - 1]?

theorem getElem?_filterMap_range {β : Type} (f : Nat → Option β) : ∀ n, (∀ i, (f i).isSome = true ↔ i < n) →
    ∀ i, ((List.range n).filterMap f)[i]? = f i := by
  intro n hf i
  have hmap : ∀ m ≤ n, ((List.range m).filterMap f).length = m ∧
      ∀ i < m, ((List.range m).filterMap f)[i]? = f i := by
    intro m
    induction m with
    | zero => exact fun _ => ⟨rfl, fun i hi => absurd hi (Nat.not_lt_zero i)⟩
    | succ m ih =>
        intro hm
        obtain ⟨hlen, hget⟩ := ih (by omega)
        obtain ⟨x, hx⟩ := Option.isSome_iff_exists.mp ((hf m).mpr (by omega))
        rw [List.range_succ, List.filterMap_append, List.filterMap_cons, hx]
        refine ⟨by simp [hlen], ?_⟩
        intro i hi
        rcases Nat.lt_or_ge i m with hlt | hge
        · rw [List.getElem?_append_left (by omega), hget i hlt]
        · rw [List.getElem?_append_right (by omega), hlen, show i = m by omega, hx]
          simp
  obtain ⟨hlen, hget⟩ := hmap n (le_refl n)
  rcases Nat.lt_or_ge i n with hlt | hge
  · exact hget i hlt
  · rw [List.getElem?_eq_none (by omega)]
    cases hfi : f i with
    | none => rfl
    | some x =>
        have := (hf i).mp (by rw [hfi]; rfl)
        omega

theorem hasBlocks_withBlockSize (hhash : 0 < q.hashBlockSize) (hblock : 0 < blockSize)
    (hdvd : q.hashBlockSize ∣ blockSize) :
    q.HasBlocks blockSize (.withBlockSize q.blockHashes (blockSize / q.hashBlockSize)) := by
  have hidx : ∀ i, (i + 1) * blockSize / q.hashBlockSize = (i + 1) * (blockSize / q.hashBlockSize) :=
    fun i => Nat.mul_div_assoc _ hdvd
  refine ⟨?_, ?_⟩
  · intro i blockHash hget
    rw [hidx] at hget
    rw [BlockHashList.getItem, hget]
    rfl
  · intro i
    rw [hidx, BlockHashList.toList]
    refine getElem?_filterMap_range (fun idx => q.blockHashes[(idx + 1) * (blockSize / q.hashBlockSize) - 1]?) _ ?_ i
    intro i
    have hscale : 0 < blockSize / q.hashBlockSize := Nat.div_pos (Nat.le_of_dvd hblock hdvd) hhash
    have hpos : 0 < (i + 1) * (blockSize / q.hashBlockSize) := Nat.mul_pos (Nat.succ_pos i) hscale
    have hdiv : i < q.blockHashes.length / (blockSize / q.hashBlockSize)
        ↔ (i + 1) * (blockSize / q.hashBlockSize) ≤ q.blockHashes.length := by
      rw [← Nat.succ_le_iff, Nat.le_div_iff_mul_le hscale]
    rw [isSome_getElem?, hdiv]
    omega

theorem hasBlocks_raw (hhash : 0 < q.hashBlockSize) : q.HasBlocks q.hashBlockSize (.raw q.blockHashes) := by
  have hidx : ∀ i, (i + 1) * q.hashBlockSize / q.hashBlockSize - 1 = i := by
    intro i
    rw [Nat.mul_div_cancel _ hhash, Nat.add_sub_cancel]
  refine ⟨?_, ?_⟩
  · intro i blockHash hget
    rw [hidx] at hget
    rw [BlockHashList.getItem, hget]
    rfl
  · intro i
    rw [hidx]
    rfl

theorem resolveBlockHashes_ok (h : q.Fits blockSize) (fineGrained : Bool) :
    ∃ blockHashes, q.resolveBlockHashes blockSize fineGrained = .ok blockHashes ∧
      (¬ (fineGrained = true ∧ q.FineGrained blockSize) → q.HasBlocks blockSize blockHashes) := by
  rw [resolveBlockHashes]
  by_cases heq : blockSize = q.hashBlockSize
  · rw [if_pos heq]
    refine ⟨_, rfl, fun _ => ?_⟩
    rw [heq]
    exact hasBlocks_raw h.hash_pos
  · rw [if_neg heq]
    by_cases hfine : fineGrained = true ∧ q.FineGrained blockSize
    · rw [if_pos hfine]
      exact ⟨_, rfl, fun hnot => absurd hfine hnot⟩
    · rw [if_neg hfine, if_neg (not_not_intro (Nat.mod_eq_zero_of_dvd h.hash_dvd))]
      exact ⟨_, rfl, fun _ => hasBlocks_withBlockSize h.hash_pos h.block_pos h.hash_dvd⟩

/-! ### Blocks of a length -/

theorem lt_cdiv_iff {blockSize : Nat} (h : 0 < blockSize) (j n : Nat) : j < cdiv n blockSize ↔ j * blockSize < n := by
  rw [cdiv, ← Nat.succ_le_iff, Nat.le_div_iff_mul_le h, Nat.succ_mul]
  omega

theorem cdiv_eq_succ {blockSize i n : Nat} (h : i * blockSize < n) (h' : n ≤ (i + 1) * blockSize) :
    cdiv n blockSize = i + 1 := by
  have hpos : 0 < blockSize := by
    rcases Nat.eq_zero_or_pos blockSize with hzero | hpos
    · rw [hzero] at h h'
      omega
    · exact hpos
  refine le_antisymm ?_ ((lt_cdiv_iff hpos i n).mpr h)
  refine Nat.not_lt.mp ?_
  rw [lt_cdiv_iff hpos]
  exact Nat.not_lt.mpr h'

theorem cdiv_mul {blockSize : Nat} (h : 0 < blockSize) (n : Nat) : cdiv (n * blockSize) blockSize = n := by
  cases n with
  | zero =>
      refine Nat.eq_zero_of_not_pos ?_
      rw [lt_cdiv_iff h]
      omega
  | succ n => exact cdiv_eq_succ (Nat.mul_lt_mul_of_pos_right (Nat.lt_succ_self n) h) (le_refl _)

/-! ### Mamba -/

section

variable {spec : KVCacheSpec} {mode : MambaCacheMode} {maxLength : Nat}

theorem mem_points_mamba (hkind : spec.kind = .mamba mode) (h : 0 < spec.blockSize) (hitLength : Nat) :
    hitLength ∈ q.points spec kvCacheGroupIds ↔
      q.alignmentTokens ∣ hitLength ∧ (hitLength = 0 ∨ q.Cached kvCacheGroupIds hitLength) := by
  have hneeded : spec.firstNeeded hitLength = cdiv hitLength spec.blockSize - 1 := by
    rw [KVCacheSpec.firstNeeded, hkind]
  refine and_congr_right fun _ => ?_
  rw [hneeded]
  rcases Nat.eq_zero_or_pos hitLength with rfl | hpos
  · refine ⟨fun _ => Or.inl rfl, fun _ j _ hj => ?_⟩
    rw [lt_cdiv_iff h] at hj
    omega
  · have hlast : 0 < cdiv hitLength spec.blockSize := (lt_cdiv_iff h 0 hitLength).mpr (by omega)
    have hend : hitLength ≤ cdiv hitLength spec.blockSize * spec.blockSize :=
      Nat.not_lt.mp fun hlt => absurd ((lt_cdiv_iff h _ _).mpr hlt) (Nat.lt_irrefl _)
    refine ⟨?_, ?_⟩
    · intro hall
      have hcached := hall (cdiv hitLength spec.blockSize - 1) (le_refl _) (by omega)
      rw [Nat.sub_add_cancel hlast, Nat.min_eq_right hend] at hcached
      exact Or.inr hcached
    · intro hor j hj hj'
      rw [show j + 1 = cdiv hitLength spec.blockSize by omega, Nat.min_eq_right hend]
      exact hor.resolve_left (Nat.ne_of_gt hpos)

theorem hitBlocks_mamba (hkind : spec.kind = .mamba mode) {i hitLength : Nat}
    (hlow : i * spec.blockSize < hitLength) (hhigh : hitLength ≤ (i + 1) * spec.blockSize) (groupId : Nat) :
    q.hitBlocks spec hitLength groupId = List.replicate i nullBlock ++ [q.block hitLength groupId] := by
  have hneeded : spec.firstNeeded hitLength = i := by
    rw [KVCacheSpec.firstNeeded, hkind]
    dsimp only
    rw [cdiv_eq_succ hlow hhigh, Nat.add_sub_cancel]
  rw [hitBlocks, cdiv_eq_succ hlow hhigh, List.range_succ, List.map_append, List.map_singleton, hneeded,
    if_neg (Nat.lt_irrefl i), Nat.min_eq_right hhigh]
  refine congrArg (· ++ _) (List.eq_replicate_iff.mpr ⟨by rw [List.length_map, List.length_range], ?_⟩)
  intro b hb
  obtain ⟨j, hj, rfl⟩ := List.mem_map.mp hb
  exact if_pos (List.mem_range.mp hj)

theorem hitBlocks_zero (h : 0 < spec.blockSize) (groupId : Nat) : q.hitBlocks spec 0 groupId = [] := by
  have hzero := cdiv_mul h 0
  rw [Nat.zero_mul] at hzero
  rw [hitBlocks, hzero]
  rfl

theorem stateBlocks_eq (hkind : spec.kind = .mamba mode) {i hitLength : Nat}
    (hlow : i * spec.blockSize < hitLength) (hhigh : hitLength ≤ (i + 1) * spec.blockSize) :
    stateBlocks i (kvCacheGroupIds.map (q.block hitLength)) = kvCacheGroupIds.map (q.hitBlocks spec hitLength) := by
  rw [stateBlocks, List.map_map]
  refine List.map_congr_left ?_
  intro groupId _
  exact (hitBlocks_mamba hkind hlow hhigh groupId).symm

theorem noBlocks_eq (h : 0 < spec.blockSize) :
    (kvCacheGroupIds.map fun _ => []) = kvCacheGroupIds.map (q.hitBlocks spec 0) := by
  refine List.map_congr_left ?_
  intro groupId _
  exact (hitBlocks_zero h groupId).symm

/-- All groups have the state after `k + 1` units, which is an aligned length. -/
def StateAt (q : CacheLookup Hash) (kvCacheGroupIds : List Nat) (unit k : Nat) : Prop :=
  q.alignmentTokens ∣ (k + 1) * unit ∧ q.Cached kvCacheGroupIds ((k + 1) * unit)

/-- **The last state** makes the greatest hit. -/
theorem greatest_mamba (hkind : spec.kind = .mamba mode) (h : 0 < spec.blockSize) {unit n : Nat}
    (hunit : 0 < unit) (hdvd : unit ∣ q.alignmentTokens) (hn : ∀ k < n, (k + 1) * unit ≤ maxLength)
    (hall : ∀ k, (k + 1) * unit ≤ maxLength → q.StateAt kvCacheGroupIds unit k → k < n) {last : Option Nat}
    (hlast : IsLast (q.StateAt kvCacheGroupIds unit) 0 n last) :
    IsGreatest (q.points spec kvCacheGroupIds ∩ Set.Iic maxLength) ((last.map (· + 1)).getD 0 * unit) := by
  -- a hit is empty or ends with a unit
  have hunits : ∀ p ∈ q.points spec kvCacheGroupIds, p = 0 ∨ ∃ k, p = (k + 1) * unit ∧
      q.StateAt kvCacheGroupIds unit k := by
    intro p hp
    obtain ⟨halign, hcached⟩ := (mem_points_mamba hkind h p).mp hp
    obtain ⟨k, rfl⟩ := Nat.dvd_trans hdvd halign
    rw [Nat.mul_comm unit] at halign hcached ⊢
    cases k with
    | zero => exact Or.inl (Nat.zero_mul unit)
    | succ k =>
        refine Or.inr ⟨k, rfl, halign, hcached.resolve_left ?_⟩
        exact Nat.ne_of_gt (Nat.mul_pos (Nat.succ_pos k) hunit)
  cases last with
  | none =>
      rw [Option.map_none, Option.getD_none, Nat.zero_mul]
      refine ⟨⟨(mem_points_mamba hkind h 0).mpr ⟨Nat.dvd_zero _, Or.inl rfl⟩, Nat.zero_le _⟩, ?_⟩
      intro p hp
      rcases hunits p hp.1 with rfl | ⟨k, rfl, hk⟩
      · exact le_refl _
      · exact absurd hk (hlast k (Nat.zero_le k) (hall k hp.2 hk))
  | some i =>
      obtain ⟨-, hi, ⟨halign, hcached⟩, hafter⟩ := hlast
      refine ⟨⟨(mem_points_mamba hkind h _).mpr ⟨halign, Or.inr hcached⟩, hn i hi⟩, ?_⟩
      intro p hp
      rcases hunits p hp.1 with rfl | ⟨k, rfl, hk⟩
      · exact Nat.zero_le _
      · refine Nat.mul_le_mul_right unit (Nat.succ_le_succ (Nat.not_lt.mp fun hlt => ?_))
        exact hafter k hlt (hall k hp.2 hk) hk

/-- The end of a block is aligned. -/
theorem not_misaligned_iff (blockSize i : Nat) : ¬ (blockSize ≠ q.alignmentTokens ∧
    (i + 1) * blockSize % q.alignmentTokens ≠ 0) ↔ q.alignmentTokens ∣ (i + 1) * blockSize := by
  rw [Nat.dvd_iff_mod_eq_zero]
  refine ⟨?_, fun h hnot => hnot.2 h⟩
  intro h
  by_contra hmod
  refine h ⟨?_, hmod⟩
  rintro rfl
  exact hmod (Nat.mul_mod_left _ _)

/-- The scan of whole blocks from the right. -/
theorem lastAlignedBlock_ok {blockHashes : BlockHashList Hash} {blockSize : Nat} (h : q.Fits blockSize)
    (hblocks : q.HasBlocks blockSize blockHashes) : ∀ n, n * blockSize / q.hashBlockSize ≤ q.blockHashes.length →
    ∃ last, q.lastAlignedBlock blockHashes blockSize kvCacheGroupIds n
        = .ok (last.map fun i => (i, kvCacheGroupIds.map (q.block ((i + 1) * blockSize)))) ∧
      IsLast (q.StateAt kvCacheGroupIds blockSize) 0 n last := by
  intro n
  induction n with
  | zero => exact fun _ => ⟨none, rfl, isLast_of_le _ (le_refl 0)⟩
  | succ n ih =>
      intro hlen
      obtain ⟨last, hrun, hlast⟩ := ih
        (Nat.le_trans (Nat.div_le_div_right (Nat.mul_le_mul_right _ (Nat.le_succ n))) hlen)
      have hpos : 0 < (n + 1) * blockSize / q.hashBlockSize :=
        Nat.div_pos (Nat.le_trans (Nat.le_of_dvd h.block_pos h.hash_dvd)
          (Nat.le_mul_of_pos_left _ (Nat.succ_pos n))) h.hash_pos
      obtain ⟨blockHash, hget⟩ : ∃ blockHash,
          q.blockHashes[(n + 1) * blockSize / q.hashBlockSize - 1]? = some blockHash :=
        ⟨_, List.getElem?_eq_getElem (by omega)⟩
      rw [lastAlignedBlock, hblocks.getItem n _ hget]
      dsimp only [bind, Except.bind]
      rw [getCachedBlock_of_hash hget]
      by_cases hcached : q.Cached kvCacheGroupIds ((n + 1) * blockSize)
      · rw [if_pos hcached]
        dsimp only
        by_cases halign : q.alignmentTokens ∣ (n + 1) * blockSize
        · rw [if_neg ((not_misaligned_iff blockSize n).mpr halign)]
          exact ⟨some n, rfl, isLast_succ (Nat.zero_le n) ⟨halign, hcached⟩⟩
        · rw [if_pos (not_not.mp (mt (not_misaligned_iff blockSize n).mp halign))]
          exact ⟨last, hrun, isLast_succ_of_not (fun hat => halign hat.1) hlast⟩
      · rw [if_neg hcached]
        exact ⟨last, hrun, isLast_succ_of_not (fun hat => hcached hat.2) hlast⟩

/-- **The lookup of a Mamba group.** -/
theorem mambaHit_found (hkind : spec.kind = .mamba mode) (h : q.Fits spec.blockSize) (hne : kvCacheGroupIds ≠ [])
    (hhashes : maxLength / q.hashBlockSize ≤ q.blockHashes.length) :
    ∃ found, q.mambaHit spec.blockSize kvCacheGroupIds maxLength = .ok found ∧
      q.Found spec kvCacheGroupIds maxLength found := by
  obtain ⟨blockHashes, hresolve, hblocks⟩ := resolveBlockHashes_ok h true
  rw [mambaHit, hresolve]
  dsimp only [bind, Except.bind]
  by_cases hfine : q.FineGrained spec.blockSize
  · have hunit := h.align_eq hfine
    obtain ⟨last, hfind, hlast⟩ := findSome?_reverse
      (fun i => q.Cached kvCacheGroupIds ((i + 1) * q.hashBlockSize))
      (fun i => (i, kvCacheGroupIds.map (q.block ((i + 1) * q.hashBlockSize)))) 0
      (min (maxLength / q.alignmentTokens) q.blockHashes.length)
    rw [if_pos hfine, funext (probe_eq hne h.hash_pos), hfind]
    have hstate : ∀ k, q.Cached kvCacheGroupIds ((k + 1) * q.hashBlockSize)
        ↔ q.StateAt kvCacheGroupIds q.hashBlockSize k := by
      intro k
      refine ⟨fun hcached => ⟨?_, hcached⟩, fun hat => hat.2⟩
      rw [hunit]
      exact Nat.dvd_mul_left _ _
    rw [funext fun k => propext (hstate k), Nat.zero_add] at hlast
    rw [hunit] at hlast
    have hn : ∀ k < min (maxLength / q.hashBlockSize) q.blockHashes.length,
        (k + 1) * q.hashBlockSize ≤ maxLength := by
      intro k hk
      exact (Nat.le_div_iff_mul_le h.hash_pos).mp (Nat.le_trans hk (Nat.min_le_left _ _))
    have hall : ∀ k, (k + 1) * q.hashBlockSize ≤ maxLength → q.StateAt kvCacheGroupIds q.hashBlockSize k →
        k < min (maxLength / q.hashBlockSize) q.blockHashes.length := by
      intro k hk hat
      refine Nat.lt_min.mpr ⟨(Nat.le_div_iff_mul_le h.hash_pos).mpr hk, ?_⟩
      by_contra hlen
      refine not_cached_of_length_le hne ?_ hat.2
      rw [Nat.mul_div_cancel _ h.hash_pos]
      omega
    have hgreatest := greatest_mamba hkind h.block_pos h.hash_pos ⟨1, by rw [Nat.mul_one, hunit]⟩ hn hall hlast
    cases last with
    | none =>
        rw [Option.map_none, Option.getD_none, Nat.zero_mul] at hgreatest
        exact ⟨_, rfl, hgreatest, noBlocks_eq h.block_pos⟩
    | some i =>
        rw [Option.map_some, Option.getD_some, ← hunit] at hgreatest
        refine ⟨_, rfl, hgreatest, ?_⟩
        dsimp only
        rw [hunit]
        -- the block that the hash at `i` lies in
        obtain ⟨scale, hscale⟩ := h.hash_dvd
        rw [Nat.mul_comm] at hscale
        have hdiv : spec.blockSize / q.hashBlockSize = scale := by
          rw [hscale, Nat.mul_div_cancel _ h.hash_pos]
        have hscalepos : 0 < scale := by
          rw [← hdiv]
          exact Nat.div_pos (Nat.le_of_dvd h.block_pos h.hash_dvd) h.hash_pos
        rw [hdiv]
        refine stateBlocks_eq hkind ?_ ?_
        · rw [hscale, ← Nat.mul_assoc]
          exact Nat.mul_lt_mul_of_pos_right (Nat.lt_succ_of_le (Nat.div_mul_le_self i scale)) h.hash_pos
        · rw [hscale, ← Nat.mul_assoc]
          exact Nat.mul_le_mul_right _ (Nat.lt_mul_of_div_lt (Nat.lt_succ_self _) hscalepos)
  · have hdvd : spec.blockSize ∣ q.alignmentTokens := not_not.mp fun hnot => hfine (h.fineGrained_iff.mpr hnot)
    obtain ⟨last, hrun, hlast⟩ := lastAlignedBlock_ok h (hblocks fun hnot => hfine hnot.2)
      (maxLength / spec.blockSize) (Nat.le_trans (Nat.div_le_div_right (Nat.div_mul_le_self _ _)) hhashes)
    rw [if_neg hfine, hrun]
    have hgreatest := greatest_mamba hkind h.block_pos h.block_pos hdvd
      (fun k hk => (Nat.le_div_iff_mul_le h.block_pos).mp hk)
      (fun k hk _ => (Nat.le_div_iff_mul_le h.block_pos).mpr hk) hlast
    cases last with
    | none =>
        rw [Option.map_none, Option.getD_none, Nat.zero_mul] at hgreatest
        exact ⟨_, rfl, hgreatest, noBlocks_eq h.block_pos⟩
    | some i =>
        exact ⟨_, rfl, hgreatest, stateBlocks_eq hkind
          (Nat.mul_lt_mul_of_pos_right (Nat.lt_succ_self i) h.block_pos) (le_refl _)⟩

end

/-! ### Sliding windows -/

section

variable {spec : KVCacheSpec} {slidingWindow need maxLength : Nat}

/-- `n` blocks end with a window of cached ones at an aligned length. -/
def WindowAt (q : CacheLookup Hash) (kvCacheGroupIds : List Nat) (blockSize need n : Nat) : Prop :=
  q.alignmentTokens ∣ n * blockSize ∧
    ∀ j, n - need ≤ j → j < n → q.Cached kvCacheGroupIds ((j + 1) * blockSize)

theorem mem_points_window (hkind : spec.kind = .slidingWindow slidingWindow) (h : 0 < spec.blockSize)
    (hneed : max (contiguousBlocksForHit slidingWindow spec.blockSize) 1 = need) (n : Nat) :
    n * spec.blockSize ∈ q.points spec kvCacheGroupIds ↔ q.WindowAt kvCacheGroupIds spec.blockSize need n := by
  have hneeded : spec.firstNeeded (n * spec.blockSize) = n - need := by
    rw [KVCacheSpec.firstNeeded, hkind]
    dsimp only
    rw [hneed, cdiv_mul h]
  refine and_congr_right fun _ => forall_congr' fun j => ?_
  rw [hneeded, cdiv_mul h]
  refine forall_congr' fun _ => forall_congr' fun hj => ?_
  rw [Nat.min_eq_left (Nat.mul_le_mul_right _ hj)]

theorem hitBlocks_window (hkind : spec.kind = .slidingWindow slidingWindow) (h : 0 < spec.blockSize)
    (hneed : max (contiguousBlocksForHit slidingWindow spec.blockSize) 1 = need) (n groupId : Nat) :
    q.hitBlocks spec (n * spec.blockSize) groupId = (List.range n).map fun j =>
      if j < n - need then nullBlock else q.block ((j + 1) * spec.blockSize) groupId := by
  have hneeded : spec.firstNeeded (n * spec.blockSize) = n - need := by
    rw [KVCacheSpec.firstNeeded, hkind]
    dsimp only
    rw [hneed, cdiv_mul h]
  rw [hitBlocks, hneeded, cdiv_mul h]
  refine List.map_congr_left ?_
  intro j hj
  rw [Nat.min_eq_left (Nat.mul_le_mul_right _ (List.mem_range.mp hj))]

/-- The scan has reached block `i` of `m`, with a run of `num` cached blocks from there. -/
structure WindowScan (q : CacheLookup Hash) (kvCacheGroupIds : List Nat) (blockSize need m i num : Nat)
    (blocks : Nat → Nat → Nat) : Prop where
  le : i + num ≤ m
  short : num < need
  before : ∀ groupId, ∀ k < i, blocks groupId k = nullBlock
  run : ∀ k, i ≤ k → k < i + num → q.Cached kvCacheGroupIds ((k + 1) * blockSize) ∧
    ∀ groupId, blocks groupId k = q.block ((k + 1) * blockSize) groupId
  aligned : 0 < num → q.alignmentTokens ∣ (i + num) * blockSize
  greatest : ∀ n ≤ m, q.WindowAt kvCacheGroupIds blockSize need n → n ≤ i + num

variable {m i num : Nat} {blocks : Nat → Nat → Nat}

/-- A block that is not cached ends the run. -/
theorem WindowScan.miss (h : WindowScan q kvCacheGroupIds blockSize need m (i + 1) num blocks)
    (hmiss : ¬ q.Cached kvCacheGroupIds ((i + 1) * blockSize)) :
    WindowScan q kvCacheGroupIds blockSize need m i 0 blocks := by
  refine ⟨Nat.le_trans (by omega) h.le, Nat.zero_lt_of_lt h.short, ?_, ?_, ?_, ?_⟩
  · intro groupId k hk
    exact h.before groupId k (by omega)
  · intro k hk hk'
    exact absurd hk (by omega)
  · intro hpos
    exact absurd hpos (Nat.lt_irrefl 0)
  · intro n hn hat
    have hle := h.greatest n hn hat
    have hshort := h.short
    by_contra hgt
    exact hmiss (hat.2 i (by omega) (by omega))

/-- A run does not start at the end of a block that is not aligned. -/
theorem WindowScan.skip (h : WindowScan q kvCacheGroupIds blockSize need m (i + 1) 0 blocks)
    (hskip : ¬ q.alignmentTokens ∣ (i + 1) * blockSize) :
    WindowScan q kvCacheGroupIds blockSize need m i 0 blocks := by
  refine ⟨Nat.le_trans (by omega) h.le, h.short, ?_, ?_, ?_, ?_⟩
  · intro groupId k hk
    exact h.before groupId k (by omega)
  · intro k hk hk'
    exact absurd hk (by omega)
  · intro hpos
    exact absurd hpos (Nat.lt_irrefl 0)
  · intro n hn hat
    have hle := h.greatest n hn hat
    by_contra hgt
    have heq : n = i + 1 := by omega
    rw [heq] at hat
    exact hskip hat.1

/-- The blocks after one more of them is set. -/
def setBlock (q : CacheLookup Hash) (blockSize i : Nat) (blocks : Nat → Nat → Nat) (groupId : Nat) : Nat → Nat :=
  Function.update (blocks groupId) i (q.block ((i + 1) * blockSize) groupId)

theorem WindowScan.hit_run (h : WindowScan q kvCacheGroupIds blockSize need m (i + 1) num blocks)
    (hhit : q.Cached kvCacheGroupIds ((i + 1) * blockSize)) : ∀ k, i ≤ k → k < i + (num + 1) →
    q.Cached kvCacheGroupIds ((k + 1) * blockSize) ∧
      ∀ groupId, q.setBlock blockSize i blocks groupId k = q.block ((k + 1) * blockSize) groupId := by
  intro k hk hk'
  rcases Nat.eq_or_lt_of_le hk with rfl | hlt
  · exact ⟨hhit, fun groupId => Function.update_self _ _ _⟩
  · obtain ⟨hcached, hblocks⟩ := h.run k hlt (by omega)
    refine ⟨hcached, fun groupId => ?_⟩
    rw [setBlock, Function.update_of_ne (Nat.ne_of_gt hlt)]
    exact hblocks groupId

theorem WindowScan.hit_before (h : WindowScan q kvCacheGroupIds blockSize need m (i + 1) num blocks)
    (groupId k : Nat) (hk : k < i) : q.setBlock blockSize i blocks groupId k = nullBlock := by
  rw [setBlock, Function.update_of_ne (Nat.ne_of_lt hk)]
  exact h.before groupId k (by omega)

/-- A cached block makes the run longer. -/
theorem WindowScan.hit (h : WindowScan q kvCacheGroupIds blockSize need m (i + 1) num blocks)
    (hhit : q.Cached kvCacheGroupIds ((i + 1) * blockSize)) (hshort : num + 1 < need)
    (halign : num = 0 → q.alignmentTokens ∣ (i + 1) * blockSize) :
    WindowScan q kvCacheGroupIds blockSize need m i (num + 1) (q.setBlock blockSize i blocks) := by
  have hend : i + (num + 1) = i + 1 + num := by omega
  refine ⟨by rw [hend]; exact h.le, hshort, h.hit_before, h.hit_run hhit, ?_, ?_⟩
  · intro _
    rw [hend]
    rcases Nat.eq_zero_or_pos num with rfl | hpos
    · exact halign rfl
    · exact h.aligned hpos
  · intro n hn hat
    rw [hend]
    exact h.greatest n hn hat

/-- A run that is long enough is a window. -/
theorem WindowScan.found (h : WindowScan q kvCacheGroupIds blockSize need m (i + 1) num blocks)
    (hhit : q.Cached kvCacheGroupIds ((i + 1) * blockSize)) (hlong : num + 1 = need)
    (halign : num = 0 → q.alignmentTokens ∣ (i + 1) * blockSize) :
    q.WindowAt kvCacheGroupIds blockSize need (i + (num + 1)) := by
  refine ⟨?_, ?_⟩
  · rw [show i + (num + 1) = i + 1 + num by omega]
    rcases Nat.eq_zero_or_pos num with rfl | hpos
    · exact halign rfl
    · exact h.aligned hpos
  · intro j hj hj'
    exact (h.hit_run hhit j (by omega) hj').1

/-- A scan of all blocks without a window leaves the run from the start. -/
theorem WindowScan.start (h : WindowScan q kvCacheGroupIds blockSize need m 0 num blocks) :
    q.WindowAt kvCacheGroupIds blockSize need num := by
  refine ⟨?_, ?_⟩
  · rcases Nat.eq_zero_or_pos num with rfl | hpos
    · rw [Nat.zero_mul]
      exact Nat.dvd_zero _
    · have halign := h.aligned hpos
      rw [Nat.zero_add] at halign
      exact halign
  · intro j _ hj
    exact (h.run j (Nat.zero_le j) (by omega)).1

/-- The blocks of a window that ends with block `n`. -/
def windowBlocks (q : CacheLookup Hash) (blockSize need n groupId : Nat) : List Nat :=
  (List.range n).map fun j => if j < n - need then nullBlock else q.block ((j + 1) * blockSize) groupId

/-- The blocks of a scan in one group. -/
def scanned (m : Nat) (blocks : Nat → Nat → Nat) (groupId : Nat) : List Nat :=
  (List.range m).map (blocks groupId)

theorem set_scanned {blockSize : Nat} (groupId : Nat) :
    (scanned m blocks groupId).set i (q.block ((i + 1) * blockSize) groupId)
      = scanned m (q.setBlock blockSize i blocks) groupId := by
  refine List.ext_getElem (by simp [scanned]) ?_
  intro k hk hk'
  rw [List.getElem_set]
  rcases Nat.decEq i k with hne | rfl
  · rw [if_neg hne]
    simp [scanned, setBlock, Function.update_of_ne (Ne.symm hne)]
  · rw [if_pos rfl]
    simp [scanned, setBlock]

theorem take_scanned {blockSize n : Nat} (hn : n ≤ m) (groupId : Nat)
    (hbefore : ∀ k < n - need, blocks groupId k = nullBlock)
    (hrun : ∀ k, n - need ≤ k → k < n → blocks groupId k = q.block ((k + 1) * blockSize) groupId) :
    (scanned m blocks groupId).take n = q.windowBlocks blockSize need n groupId := by
  rw [scanned, ← List.map_take, List.take_range, Nat.min_eq_left hn]
  refine List.map_congr_left ?_
  intro k hk
  have hk := List.mem_range.mp hk
  split
  · next hlt => exact hbefore k hlt
  · next hge => exact hrun k (Nat.not_lt.mp hge) hk

/-- **The scan** finds the last window. -/
theorem windowLoop_ok {blockHashes : BlockHashList Hash} {blockSize contiguousBlocks : Nat} (h : q.Fits blockSize)
    (hblocks : q.HasBlocks blockSize blockHashes) (hneed : max contiguousBlocks 1 = need) : ∀ i num blocks,
    q.WindowScan kvCacheGroupIds blockSize need m i num blocks →
    i * blockSize / q.hashBlockSize ≤ q.blockHashes.length →
    ∃ computed num' found, q.windowLoop blockHashes blockSize contiguousBlocks kvCacheGroupIds i
        (kvCacheGroupIds.map (scanned m blocks)) num = .ok (computed, num', found) ∧
      ∃ n ≤ m, q.WindowAt kvCacheGroupIds blockSize need n ∧
        (∀ n' ≤ m, q.WindowAt kvCacheGroupIds blockSize need n' → n' ≤ n) ∧
        (found = true → computed = kvCacheGroupIds.map (q.windowBlocks blockSize need n)) ∧
        (found = false → num' = n ∧
          computed.map (List.take n) = kvCacheGroupIds.map (q.windowBlocks blockSize need n)) := by
  intro i
  induction i with
  | zero =>
      intro num blocks hscan _
      refine ⟨_, num, false, rfl, num, ?_, hscan.start, ?_, fun hf => (by cases hf), fun _ => ⟨rfl, ?_⟩⟩
      · exact Nat.le_trans (Nat.le_add_left num 0) hscan.le
      · intro n' hn' hat
        exact Nat.le_trans (hscan.greatest n' hn' hat) (by omega)
      · rw [List.map_map]
        refine List.map_congr_left fun groupId _ => ?_
        have hshort := hscan.short
        refine take_scanned (Nat.le_trans (Nat.le_add_left num 0) hscan.le) groupId ?_ ?_
        · intro k hk
          omega
        · intro k _ hk
          exact (hscan.run k (Nat.zero_le k) (by omega)).2 groupId
  | succ i ih =>
      intro num blocks hscan hlen
      have hlen' : i * blockSize / q.hashBlockSize ≤ q.blockHashes.length :=
        Nat.le_trans (Nat.div_le_div_right (Nat.mul_le_mul_right _ (Nat.le_succ i))) hlen
      have hpos : 0 < (i + 1) * blockSize / q.hashBlockSize :=
        Nat.div_pos (Nat.le_trans (Nat.le_of_dvd h.block_pos h.hash_dvd)
          (Nat.le_mul_of_pos_left _ (Nat.succ_pos i))) h.hash_pos
      obtain ⟨blockHash, hget⟩ : ∃ blockHash,
          q.blockHashes[(i + 1) * blockSize / q.hashBlockSize - 1]? = some blockHash :=
        ⟨_, List.getElem?_eq_getElem (by omega)⟩
      rw [windowLoop, hblocks.getItem i _ hget]
      dsimp only [bind, Except.bind]
      rw [getCachedBlock_of_hash hget]
      by_cases hcached : q.Cached kvCacheGroupIds ((i + 1) * blockSize)
      · rw [if_pos hcached]
        dsimp only
        by_cases hskip : num = 0 ∧ ¬ q.alignmentTokens ∣ (i + 1) * blockSize
        · obtain ⟨rfl, halign⟩ := hskip
          rw [if_pos ⟨rfl, not_not.mp (mt (not_misaligned_iff blockSize i).mp halign)⟩]
          exact ih 0 blocks (hscan.skip halign) hlen'
        · have halign : num = 0 → q.alignmentTokens ∣ (i + 1) * blockSize := fun hzero =>
            not_not.mp fun hnot => hskip ⟨hzero, hnot⟩
          rw [if_neg fun hmis => (not_misaligned_iff blockSize i).mpr (halign hmis.1) hmis.2]
          have hle := hscan.le
          have hset : List.zipWith (fun blocks block => blocks.set i block) (kvCacheGroupIds.map (scanned m blocks))
              (kvCacheGroupIds.map (q.block ((i + 1) * blockSize)))
                = kvCacheGroupIds.map (scanned m (q.setBlock blockSize i blocks)) := by
            rw [List.zipWith_map, List.zipWith_self]
            exact List.map_congr_left fun groupId _ => set_scanned groupId
          have hshort := hscan.short
          rw [hset]
          by_cases hlong : contiguousBlocks ≤ num + 1
          · rw [if_pos hlong]
            refine ⟨_, _, true, rfl, i + (num + 1), by omega, hscan.found hcached (by omega) halign, ?_, fun _ => ?_,
              fun hf => (by cases hf)⟩
            · intro n' hn' hat
              exact Nat.le_trans (hscan.greatest n' hn' hat) (by omega)
            · rw [List.map_map]
              refine List.map_congr_left fun groupId _ => ?_
              refine take_scanned (by omega) groupId ?_ ?_
              · intro k hk
                exact hscan.hit_before groupId k (by omega)
              · intro k hk hk'
                exact (hscan.hit_run hcached k (by omega) hk').2 groupId
          · rw [if_neg hlong]
            exact ih (num + 1) _ (hscan.hit hcached (by omega) halign) hlen'
      · rw [if_neg hcached]
        exact ih 0 blocks (hscan.miss hcached) hlen'

theorem alignedBlocks_of_dvd {blockSize n : Nat} (h : q.alignmentTokens ∣ n * blockSize) :
    q.alignedBlocks blockSize n = n := by
  cases n with
  | zero => rfl
  | succ n =>
      rw [alignedBlocks, if_neg]
      exact (not_misaligned_iff blockSize n).mpr h

/-- **The lookup of a sliding-window group.** -/
theorem slidingWindowHit_found (hkind : spec.kind = .slidingWindow slidingWindow) (h : q.Fits spec.blockSize)
    (hne : kvCacheGroupIds ≠ []) (hdvd : spec.blockSize ∣ q.alignmentTokens)
    (hhashes : maxLength / q.hashBlockSize ≤ q.blockHashes.length) :
    ∃ found, q.slidingWindowHit spec.blockSize slidingWindow kvCacheGroupIds maxLength = .ok found ∧
      q.Found spec kvCacheGroupIds maxLength found := by
  obtain ⟨blockHashes, hresolve, hblocks⟩ := resolveBlockHashes_ok h false
  have hscan : q.WindowScan kvCacheGroupIds spec.blockSize
      (max (contiguousBlocksForHit slidingWindow spec.blockSize) 1) (maxLength / spec.blockSize)
      (maxLength / spec.blockSize) 0 (fun _ _ => nullBlock) := by
    refine ⟨le_refl _, by omega, fun _ _ _ => rfl, ?_, fun hpos => absurd hpos (Nat.lt_irrefl 0), fun n hn _ => hn⟩
    intro k hk hk'
    exact absurd hk (by omega)
  obtain ⟨computed, num, found, hrun, n, hnm, hat, hgreatest, hfound, hnot⟩ := windowLoop_ok h
    (hblocks fun hf => (by cases hf.1)) rfl _ _ _ hscan
    (Nat.le_trans (Nat.div_le_div_right (Nat.div_mul_le_self _ _)) hhashes)
  have hinit : (kvCacheGroupIds.map fun _ => List.replicate (maxLength / spec.blockSize) nullBlock)
      = kvCacheGroupIds.map (scanned (maxLength / spec.blockSize) fun _ _ => nullBlock) := by
    refine List.map_congr_left fun groupId _ => ?_
    rw [scanned, List.map_const', List.length_range]
  have hresult : (if found = true then computed else (computed.map (List.take num)).map
      (List.take (q.alignedBlocks spec.blockSize num)))
        = kvCacheGroupIds.map (q.hitBlocks spec (n * spec.blockSize)) := by
    have hwindow : q.hitBlocks spec (n * spec.blockSize) = q.windowBlocks spec.blockSize
        (max (contiguousBlocksForHit slidingWindow spec.blockSize) 1) n :=
      funext fun groupId => hitBlocks_window hkind h.block_pos rfl n groupId
    rw [hwindow]
    cases found with
    | true => exact hfound rfl
    | false =>
        obtain ⟨rfl, htake⟩ := hnot rfl
        rw [if_neg (by decide), alignedBlocks_of_dvd hat.1, List.map_map, ← htake]
        refine List.map_congr_left fun blocks _ => ?_
        rw [Function.comp_apply, List.take_take, Nat.min_self]
  have hlength : ((kvCacheGroupIds.map (q.hitBlocks spec (n * spec.blockSize))).headD []).length = n := by
    obtain ⟨groupId, ids, rfl⟩ := List.exists_cons_of_ne_nil hne
    rw [List.map_cons, List.headD_cons, hitBlocks, List.length_map, List.length_range, cdiv_mul h.block_pos]
  refine ⟨(kvCacheGroupIds.map (q.hitBlocks spec (n * spec.blockSize)), n * spec.blockSize), ?_, ?_, rfl⟩
  · rw [slidingWindowHit, if_neg (not_not_intro (Nat.mod_eq_zero_of_dvd hdvd)), hresolve]
    dsimp only [bind, Except.bind]
    rw [hinit, hrun]
    dsimp only
    rw [hresult, hlength]
  · refine ⟨⟨(mem_points_window hkind h.block_pos rfl n).mpr hat, (Nat.le_div_iff_mul_le h.block_pos).mp hnm⟩, ?_⟩
    intro p hp
    obtain ⟨hp, hle⟩ := hp
    obtain ⟨k, rfl⟩ := Nat.dvd_trans hdvd hp.1
    rw [Nat.mul_comm spec.blockSize] at *
    refine Nat.mul_le_mul_right _ (hgreatest k ?_ ((mem_points_window hkind h.block_pos rfl k).mp hp))
    exact (Nat.le_div_iff_mul_le h.block_pos).mpr hle

end

/-! ### Full attention -/

section

variable {spec : KVCacheSpec} {maxLength : Nat}

theorem mem_points_full (hkind : spec.kind = .fullAttention) (hitLength : Nat) :
    hitLength ∈ q.points spec kvCacheGroupIds ↔ q.alignmentTokens ∣ hitLength ∧
      ∀ j < cdiv hitLength spec.blockSize, q.Cached kvCacheGroupIds (min ((j + 1) * spec.blockSize) hitLength) := by
  have hneeded : spec.firstNeeded hitLength = 0 := by
    rw [KVCacheSpec.firstNeeded, hkind]
  refine and_congr_right fun _ => forall_congr' fun j => ?_
  rw [hneeded]
  exact ⟨fun h => h (Nat.zero_le j), fun h _ => h⟩

theorem hitBlocks_full (hkind : spec.kind = .fullAttention) (hitLength groupId : Nat) :
    q.hitBlocks spec hitLength groupId = (List.range (cdiv hitLength spec.blockSize)).map fun j =>
      q.block (min ((j + 1) * spec.blockSize) hitLength) groupId := by
  have hneeded : spec.firstNeeded hitLength = 0 := by
    rw [KVCacheSpec.firstNeeded, hkind]
  rw [hitBlocks, hneeded]
  exact List.map_congr_left fun j _ => if_neg (Nat.not_lt_zero j)

/-- The first `n` whole blocks of a group. -/
def wholeBlocks (q : CacheLookup Hash) (blockSize n groupId : Nat) : List Nat :=
  (List.range n).map fun j => q.block ((j + 1) * blockSize) groupId

theorem length_wholeBlocks (blockSize n groupId : Nat) : (q.wholeBlocks blockSize n groupId).length = n := by
  rw [wholeBlocks, List.length_map, List.length_range]

theorem take_wholeBlocks {blockSize k n : Nat} (h : k ≤ n) (groupId : Nat) :
    (q.wholeBlocks blockSize n groupId).take k = q.wholeBlocks blockSize k groupId := by
  rw [wholeBlocks, wholeBlocks, ← List.map_take, List.take_range, Nat.min_eq_left h]

theorem wholeBlocks_append (blockSize n numTokens : Nat) (hlow : n * blockSize < numTokens)
    (hhigh : numTokens ≤ (n + 1) * blockSize) (groupId : Nat) :
    q.wholeBlocks blockSize n groupId ++ [q.block numTokens groupId]
      = (List.range (n + 1)).map fun j => q.block (min ((j + 1) * blockSize) numTokens) groupId := by
  rw [List.range_succ, List.map_append, List.map_singleton, Nat.min_eq_right hhigh, wholeBlocks]
  refine congrArg (· ++ _) (List.map_congr_left fun j hj => ?_)
  rw [Nat.min_eq_left]
  exact Nat.le_trans (Nat.mul_le_mul_right _ (List.mem_range.mp hj)) (Nat.le_of_lt hlow)

theorem hitBlocks_whole (hkind : spec.kind = .fullAttention) (h : 0 < spec.blockSize) (n groupId : Nat) :
    q.hitBlocks spec (n * spec.blockSize) groupId = q.wholeBlocks spec.blockSize n groupId := by
  rw [hitBlocks_full hkind, cdiv_mul h]
  refine List.map_congr_left fun j hj => ?_
  rw [Nat.min_eq_left (Nat.mul_le_mul_right _ (List.mem_range.mp hj))]

theorem appendEach_map (f : Nat → List Nat) (g : Nat → Nat) :
    appendEach (kvCacheGroupIds.map f) (kvCacheGroupIds.map g)
      = kvCacheGroupIds.map fun groupId => f groupId ++ [g groupId] := by
  rw [appendEach, List.zipWith_map, List.zipWith_self]

/-- The scan from the left stops at the first block that is not cached. -/
theorem fullRun_ok (kvCacheGroupIds : List Nat) {blockSize : Nat} : ∀ (hashes : List Hash) (k : Nat),
    (∀ j < hashes.length, hashes[j]? = q.blockHashes[(k + j + 1) * blockSize / q.hashBlockSize - 1]?) →
    ∃ n ≤ hashes.length, q.fullRun kvCacheGroupIds hashes (kvCacheGroupIds.map (q.wholeBlocks blockSize k))
        = kvCacheGroupIds.map (q.wholeBlocks blockSize (k + n)) ∧
      (∀ j, k ≤ j → j < k + n → q.Cached kvCacheGroupIds ((j + 1) * blockSize)) ∧
      (n < hashes.length → ¬ q.Cached kvCacheGroupIds ((k + n + 1) * blockSize)) := by
  intro hashes
  induction hashes with
  | nil => exact fun k _ => ⟨0, le_refl 0, rfl, fun j hj hj' => absurd hj (by omega), fun h => absurd h (by simp)⟩
  | cons blockHash hashes ih =>
      intro k hget
      have hhash : q.blockHashes[(k + 1) * blockSize / q.hashBlockSize - 1]? = some blockHash :=
        (hget 0 (Nat.succ_pos _)).symm
      rw [fullRun, getCachedBlock_of_hash hhash]
      by_cases hcached : q.Cached kvCacheGroupIds ((k + 1) * blockSize)
      · have hrows : appendEach (kvCacheGroupIds.map (q.wholeBlocks blockSize k))
            (kvCacheGroupIds.map (q.block ((k + 1) * blockSize)))
              = kvCacheGroupIds.map (q.wholeBlocks blockSize (k + 1)) := by
          rw [appendEach_map]
          refine List.map_congr_left fun groupId _ => ?_
          rw [wholeBlocks, wholeBlocks, List.range_succ, List.map_append, List.map_singleton]
        obtain ⟨n, hn, hrun, hall, hstop⟩ := ih (k + 1) fun j hj => by
          rw [show k + 1 + j + 1 = k + (j + 1) + 1 by omega]
          exact hget (j + 1) (Nat.succ_lt_succ hj)
        rw [if_pos hcached]
        dsimp only
        rw [hrows, hrun]
        refine ⟨n + 1, Nat.succ_le_succ hn, by rw [show k + 1 + n = k + (n + 1) by omega], ?_, ?_⟩
        · intro j hj hj'
          rcases Nat.eq_or_lt_of_le hj with rfl | hlt
          · exact hcached
          · exact hall j hlt (by omega)
        · intro hlt
          rw [show k + (n + 1) + 1 = k + 1 + n + 1 by omega]
          exact hstop (Nat.lt_of_succ_lt_succ hlt)
      · rw [if_neg hcached]
        exact ⟨0, Nat.zero_le _, rfl, fun j hj hj' => absurd hj (by omega), fun _ => hcached⟩

/-- The run of whole blocks. -/
theorem run_ok {blockHashes : BlockHashList Hash} {blockSize : Nat} (hblocks : q.HasBlocks blockSize blockHashes)
    (hne : kvCacheGroupIds ≠ []) (bound : Nat) :
    ∃ n ≤ bound, q.fullRun kvCacheGroupIds (blockHashes.toList.take bound) (kvCacheGroupIds.map fun _ => [])
        = kvCacheGroupIds.map (q.wholeBlocks blockSize n) ∧
      (∀ j < n, q.Cached kvCacheGroupIds ((j + 1) * blockSize)) ∧
      (n < bound → ¬ q.Cached kvCacheGroupIds ((n + 1) * blockSize)) := by
  obtain ⟨n, hn, hrun, hall, hstop⟩ := fullRun_ok kvCacheGroupIds
    (blockHashes.toList.take bound) 0 fun j hj => by
      rw [List.length_take] at hj
      rw [List.getElem?_take_of_lt (by omega), hblocks.toList, Nat.zero_add]
  rw [List.length_take] at hn hstop
  rw [Nat.zero_add] at hrun
  refine ⟨n, by omega, hrun, fun j hj => hall j (Nat.zero_le j) (by omega), ?_⟩
  intro hlt
  rw [Nat.zero_add] at hstop
  by_cases hlen : n < blockHashes.toList.length
  · exact hstop (by omega)
  · -- the hashes end here
    refine not_cached_of_length_le hne ?_
    have hnone := hblocks.toList n
    rw [List.getElem?_eq_none (by omega)] at hnone
    exact List.getElem?_eq_none_iff.mp hnone.symm

/-- The blocks below the first one that is not cached bound every hit. -/
theorem div_le_run (hkind : spec.kind = .fullAttention) (h : 0 < spec.blockSize) {n p : Nat}
    (hstop : n < maxLength / spec.blockSize → ¬ q.Cached kvCacheGroupIds ((n + 1) * spec.blockSize))
    (hp : p ∈ q.points spec kvCacheGroupIds) (hle : p ≤ maxLength) : p / spec.blockSize ≤ n := by
  by_contra hlt
  have hblock : (n + 1) * spec.blockSize ≤ p :=
    Nat.le_trans (Nat.mul_le_mul_right _ (Nat.not_le.mp hlt)) (Nat.div_mul_le_self p _)
  have hcached := ((mem_points_full hkind p).mp hp).2 n ((lt_cdiv_iff h n p).mpr
    (Nat.lt_of_lt_of_le (Nat.mul_lt_mul_of_pos_right (Nat.lt_succ_self n) h) hblock))
  rw [Nat.min_eq_left hblock] at hcached
  exact hstop (Nat.lt_of_lt_of_le (Nat.not_le.mp hlt) (Nat.div_le_div_right hle)) hcached

/-- Whole blocks, cut to an aligned length. -/
theorem found_whole (hkind : spec.kind = .fullAttention) (h : q.Fits spec.blockSize)
    (hdvd : spec.blockSize ∣ q.alignmentTokens) {n : Nat} (hn : n ≤ maxLength / spec.blockSize)
    (hall : ∀ j < n, q.Cached kvCacheGroupIds ((j + 1) * spec.blockSize))
    (hstop : n < maxLength / spec.blockSize → ¬ q.Cached kvCacheGroupIds ((n + 1) * spec.blockSize)) :
    q.Found spec kvCacheGroupIds maxLength
      ((kvCacheGroupIds.map (q.wholeBlocks spec.blockSize n)).map (List.take
        (cdiv (n * spec.blockSize - n * spec.blockSize % q.alignmentTokens) spec.blockSize)),
        n * spec.blockSize - n * spec.blockSize % q.alignmentTokens) := by
  have hle : n * spec.blockSize - n * spec.blockSize % q.alignmentTokens ≤ n * spec.blockSize := Nat.sub_le _ _
  have halign : q.alignmentTokens ∣ n * spec.blockSize - n * spec.blockSize % q.alignmentTokens :=
    Nat.dvd_sub_mod _
  obtain ⟨k, hk⟩ := Nat.dvd_trans hdvd halign
  rw [Nat.mul_comm spec.blockSize] at hk
  have hkn : k ≤ n := Nat.le_of_mul_le_mul_right (by rw [← hk]; exact hle) h.block_pos
  refine ⟨⟨⟨(mem_points_full hkind _).mpr ⟨halign, ?_⟩, ?_⟩, ?_⟩, ?_⟩
  · dsimp only
    rw [hk, cdiv_mul h.block_pos]
    intro j hj
    rw [Nat.min_eq_left (Nat.mul_le_mul_right _ hj)]
    exact hall j (Nat.lt_of_lt_of_le hj hkn)
  · exact Nat.le_trans hle ((Nat.le_div_iff_mul_le h.block_pos).mp hn)
  · intro p hp
    obtain ⟨hp, hple⟩ := hp
    have hdiv := div_le_run hkind h.block_pos hstop hp hple
    obtain ⟨c, hc⟩ := hp.1
    have hmul : p ≤ n * spec.blockSize := by
      rw [← Nat.div_mul_cancel (Nat.dvd_trans hdvd hp.1)]
      exact Nat.mul_le_mul_right _ hdiv
    have hcle : c ≤ n * spec.blockSize / q.alignmentTokens :=
      (Nat.le_div_iff_mul_le h.align_pos).mpr (by rw [Nat.mul_comm, ← hc]; exact hmul)
    dsimp only
    rw [hc, ← Nat.div_mul_self_eq_mod_sub_self, Nat.mul_comm q.alignmentTokens]
    exact Nat.mul_le_mul_right _ hcle
  · dsimp only
    rw [hk, cdiv_mul h.block_pos, List.map_map]
    refine List.map_congr_left fun groupId _ => ?_
    rw [Function.comp_apply, take_wholeBlocks hkn, hitBlocks_whole hkind h.block_pos]

/-- A hit that ends inside the first block that is not wholly cached. -/
theorem found_inside (hkind : spec.kind = .fullAttention) {n hitLength : Nat}
    (hlow : n * spec.blockSize < hitLength) (hhigh : hitLength ≤ (n + 1) * spec.blockSize)
    (halign : q.alignmentTokens ∣ hitLength) (hle : hitLength ≤ maxLength)
    (hall : ∀ j < n, q.Cached kvCacheGroupIds ((j + 1) * spec.blockSize))
    (hcached : q.Cached kvCacheGroupIds hitLength)
    (hgreatest : ∀ p ∈ q.points spec kvCacheGroupIds, p ≤ maxLength → p ≤ hitLength) :
    q.Found spec kvCacheGroupIds maxLength
      (appendEach (kvCacheGroupIds.map (q.wholeBlocks spec.blockSize n))
        (kvCacheGroupIds.map (q.block hitLength)), hitLength) := by
  refine ⟨⟨⟨(mem_points_full hkind _).mpr ⟨halign, ?_⟩, hle⟩, fun p hp => hgreatest p hp.1 hp.2⟩, ?_⟩
  · dsimp only
    rw [cdiv_eq_succ hlow hhigh]
    intro j hj
    rcases Nat.lt_succ_iff_lt_or_eq.mp hj with hlt | rfl
    · rw [Nat.min_eq_left (Nat.le_trans (Nat.mul_le_mul_right _ hlt) (Nat.le_of_lt hlow))]
      exact hall j hlt
    · rw [Nat.min_eq_right hhigh]
      exact hcached
  · dsimp only
    rw [appendEach_map]
    refine List.map_congr_left fun groupId _ => ?_
    rw [hitBlocks_full hkind, cdiv_eq_succ hlow hhigh]
    exact wholeBlocks_append _ _ _ hlow hhigh groupId

/-- Whole blocks when no hash inside the next one is cached. -/
theorem found_run (hkind : spec.kind = .fullAttention) (h : 0 < spec.blockSize) {n : Nat}
    (halign : q.alignmentTokens ∣ n * spec.blockSize) (hle : n * spec.blockSize ≤ maxLength)
    (hall : ∀ j < n, q.Cached kvCacheGroupIds ((j + 1) * spec.blockSize))
    (hgreatest : ∀ p ∈ q.points spec kvCacheGroupIds, p ≤ maxLength → p ≤ n * spec.blockSize) :
    q.Found spec kvCacheGroupIds maxLength
      (kvCacheGroupIds.map (q.wholeBlocks spec.blockSize n), n * spec.blockSize) := by
  refine ⟨⟨⟨(mem_points_full hkind _).mpr ⟨halign, ?_⟩, hle⟩, fun p hp => hgreatest p hp.1 hp.2⟩, ?_⟩
  · dsimp only
    rw [cdiv_mul h]
    intro j hj
    rw [Nat.min_eq_left (Nat.mul_le_mul_right _ hj)]
    exact hall j hj
  · exact List.map_congr_left fun groupId _ => (hitBlocks_whole hkind h n groupId).symm

/-- **The search inside a block** finds the greatest hit behind the run. -/
theorem extendRun_found (hkind : spec.kind = .fullAttention) (h : q.Fits spec.blockSize)
    (hne : kvCacheGroupIds ≠ []) (hfine : q.FineGrained spec.blockSize) {n : Nat}
    (hn : n ≤ maxLength / spec.blockSize)
    (hall : ∀ j < n, q.Cached kvCacheGroupIds ((j + 1) * spec.blockSize))
    (hstop : n < maxLength / spec.blockSize → ¬ q.Cached kvCacheGroupIds ((n + 1) * spec.blockSize)) :
    q.Found spec kvCacheGroupIds maxLength (q.extendRun spec.blockSize kvCacheGroupIds maxLength
      (kvCacheGroupIds.map (q.wholeBlocks spec.blockSize n))) := by
  have hunit := h.align_eq hfine
  have hlength : ((kvCacheGroupIds.map (q.wholeBlocks spec.blockSize n)).headD []).length = n := by
    obtain ⟨groupId, ids, rfl⟩ := List.exists_cons_of_ne_nil hne
    rw [List.map_cons, List.headD_cons, length_wholeBlocks]
  obtain ⟨scale, hscale⟩ := h.hash_dvd
  rw [Nat.mul_comm] at hscale
  have hdiv : spec.blockSize / q.hashBlockSize = scale := by
    rw [hscale, Nat.mul_div_cancel _ h.hash_pos]
  have hend : ∀ k, k * spec.blockSize = k * scale * q.hashBlockSize := by
    intro k
    rw [hscale, Nat.mul_assoc]
  have hsucc : (n + 1) * scale = n * scale + scale := Nat.succ_mul n scale
  rw [extendRun, hlength, hunit, hdiv, funext (probe_eq hne h.hash_pos)]
  obtain ⟨last, hfind, hlast⟩ := findSome?_reverse
    (fun i => q.Cached kvCacheGroupIds ((i + 1) * q.hashBlockSize))
    (fun i => (i, kvCacheGroupIds.map (q.block ((i + 1) * q.hashBlockSize)))) (n * scale)
    (min (min (n * scale + scale - 1) (maxLength / q.hashBlockSize)) q.blockHashes.length - n * scale)
  rw [hfind]
  -- a hit behind the run ends with a hash of the search
  have hinside : ∀ p ∈ q.points spec kvCacheGroupIds, p ≤ maxLength → n * spec.blockSize < p →
      ∃ i, p = (i + 1) * q.hashBlockSize ∧ n * scale ≤ i ∧ i < n * scale + (min (min (n * scale + scale - 1)
        (maxLength / q.hashBlockSize)) q.blockHashes.length - n * scale) ∧
        q.Cached kvCacheGroupIds ((i + 1) * q.hashBlockSize) := by
    intro p hp hple hlow
    obtain ⟨halign, hcached⟩ := (mem_points_full hkind p).mp hp
    have hlt : p < (n + 1) * spec.blockSize :=
      Nat.lt_mul_of_div_lt (Nat.lt_succ_of_le (div_le_run hkind h.block_pos hstop hp hple)) h.block_pos
    have hlast := hcached n ((lt_cdiv_iff h.block_pos n p).mpr hlow)
    rw [Nat.min_eq_right (Nat.le_of_lt hlt)] at hlast
    rw [hunit] at halign
    obtain ⟨c, rfl⟩ := halign
    rw [Nat.mul_comm q.hashBlockSize] at *
    rw [hend] at hlow hlt
    have hlowc : n * scale < c := Nat.lt_of_mul_lt_mul_right hlow
    have hhighc : c < (n + 1) * scale := Nat.lt_of_mul_lt_mul_right hlt
    have hmaxc : c ≤ maxLength / q.hashBlockSize := (Nat.le_div_iff_mul_le h.hash_pos).mpr hple
    have hlenc : c ≤ q.blockHashes.length := by
      by_contra hgt
      refine not_cached_of_length_le hne ?_ hlast
      rw [Nat.mul_div_cancel _ h.hash_pos]
      omega
    refine ⟨c - 1, by rw [Nat.sub_add_cancel (by omega)], by omega, by omega, ?_⟩
    rw [Nat.sub_add_cancel (by omega)]
    exact hlast
  cases last with
  | none =>
      refine found_run hkind h.block_pos ?_ ((Nat.le_div_iff_mul_le h.block_pos).mp hn) hall ?_
      · rw [hunit, hend]
        exact Nat.dvd_mul_left _ _
      · intro p hp hple
        by_contra hgt
        obtain ⟨i, -, hlow, hhigh, hcached⟩ := hinside p hp hple (Nat.not_le.mp hgt)
        exact hlast i hlow hhigh hcached
  | some i =>
      obtain ⟨hlow, hhigh, hcached, hafter⟩ := hlast
      refine found_inside hkind ?_ ?_ ?_ ?_ hall hcached ?_
      · rw [hend]
        exact Nat.mul_lt_mul_of_pos_right (Nat.lt_succ_of_le hlow) h.hash_pos
      · rw [hend]
        exact Nat.mul_le_mul_right _ (by omega)
      · rw [hunit]
        exact Nat.dvd_mul_left _ _
      · exact (Nat.le_div_iff_mul_le h.hash_pos).mp (by omega)
      · intro p hp hple
        by_cases hplow : n * spec.blockSize < p
        · obtain ⟨k, rfl, -, hk, hkcached⟩ := hinside p hp hple hplow
          refine Nat.mul_le_mul_right _ (Nat.succ_le_succ (Nat.not_lt.mp fun hlt => ?_))
          exact hafter k hlt hk hkcached
        · refine Nat.le_trans (Nat.not_lt.mp hplow) ?_
          rw [hend]
          exact Nat.mul_le_mul_right _ (by omega)

/-- **The lookup of a full-attention group.** -/
theorem fullAttentionHit_found (hkind : spec.kind = .fullAttention) (h : q.Fits spec.blockSize)
    (hne : kvCacheGroupIds ≠ []) :
    ∃ found, q.fullAttentionHit spec.blockSize kvCacheGroupIds maxLength = .ok found ∧
      q.Found spec kvCacheGroupIds maxLength found := by
  obtain ⟨blockHashes, hresolve, hblocks⟩ := resolveBlockHashes_ok h true
  have hview : q.HasBlocks spec.blockSize (if q.FineGrained spec.blockSize
      then .withBlockSize q.blockHashes (spec.blockSize / q.alignmentTokens) else blockHashes) := by
    by_cases hfine : q.FineGrained spec.blockSize
    · rw [if_pos hfine, h.align_eq hfine]
      exact hasBlocks_withBlockSize h.hash_pos h.block_pos h.hash_dvd
    · rw [if_neg hfine]
      exact hblocks fun hnot => hfine hnot.2
  obtain ⟨n, hn, hrun, hall, hstop⟩ := run_ok hview hne (maxLength / spec.blockSize)
  rw [fullAttentionHit, hresolve]
  dsimp only [bind, Except.bind]
  rw [hrun]
  by_cases hfine : q.FineGrained spec.blockSize
  · have hfound := extendRun_found hkind h hne hfine hn hall hstop
    have halign := Nat.mod_eq_zero_of_dvd hfound.greatest.1.1.1
    rw [if_pos hfine]
    refine ⟨_, rfl, ?_⟩
    rw [halign, Nat.sub_zero]
    have htake : (q.extendRun spec.blockSize kvCacheGroupIds maxLength
        (kvCacheGroupIds.map (q.wholeBlocks spec.blockSize n))).1.map (List.take (cdiv
          (q.extendRun spec.blockSize kvCacheGroupIds maxLength
            (kvCacheGroupIds.map (q.wholeBlocks spec.blockSize n))).2 spec.blockSize))
        = (q.extendRun spec.blockSize kvCacheGroupIds maxLength
            (kvCacheGroupIds.map (q.wholeBlocks spec.blockSize n))).1 := by
      rw [hfound.blocks, List.map_map]
      refine List.map_congr_left fun groupId _ => ?_
      rw [Function.comp_apply, List.take_of_length_le]
      rw [hitBlocks, List.length_map, List.length_range]
    rw [htake]
    exact hfound
  · have hdvd : spec.blockSize ∣ q.alignmentTokens := not_not.mp fun hnot => hfine (h.fineGrained_iff.mpr hnot)
    have hlength : ((kvCacheGroupIds.map (q.wholeBlocks spec.blockSize n)).headD []).length = n := by
      obtain ⟨groupId, ids, rfl⟩ := List.exists_cons_of_ne_nil hne
      rw [List.map_cons, List.headD_cons, length_wholeBlocks]
    rw [if_neg hfine, hlength]
    exact ⟨_, rfl, found_whole hkind h hdvd hn hall hstop⟩

end

/-- **The lookup of a spec** finds the greatest hit of its groups. -/
theorem findLongestCacheHit_found {spec : KVCacheSpec} {maxLength : Nat} (h : q.Fits spec.blockSize)
    (hne : kvCacheGroupIds ≠ []) (hhashes : maxLength / q.hashBlockSize ≤ q.blockHashes.length)
    (hwindow : ∀ slidingWindow, spec.kind = .slidingWindow slidingWindow → spec.blockSize ∣ q.alignmentTokens) :
    ∃ found, q.findLongestCacheHit spec kvCacheGroupIds maxLength = .ok found ∧
      q.Found spec kvCacheGroupIds maxLength found := by
  rw [findLongestCacheHit]
  cases hkind : spec.kind with
  | fullAttention => exact fullAttentionHit_found hkind h hne
  | slidingWindow slidingWindow => exact slidingWindowHit_found hkind h hne (hwindow _ hkind) hhashes
  | mamba mode => exact mambaHit_found hkind h hne hhashes

/-- A sliding window cannot be searched inside a block. -/
theorem findLongestCacheHit_error {spec : KVCacheSpec} {slidingWindow : Nat}
    (hkind : spec.kind = .slidingWindow slidingWindow) (hndvd : ¬ spec.blockSize ∣ q.alignmentTokens)
    (maxLength : Nat) : q.findLongestCacheHit spec kvCacheGroupIds maxLength = .error .assertionError := by
  rw [findLongestCacheHit, hkind]
  dsimp only
  rw [slidingWindowHit, if_pos]
  rwa [Ne, ← Nat.dvd_iff_mod_eq_zero]

end CacheLookup

end CacheSelect.Hybrid
