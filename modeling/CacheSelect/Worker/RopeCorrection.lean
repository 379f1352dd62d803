import CacheSelect.Lib.PlaneRotation
import CacheSelect.Worker.Copies
import Mathlib.Analysis.SpecialFunctions.Pow.Real
import Mathlib.Analysis.SpecialFunctions.Trigonometric.Basic

/-! # Correcting the positions of copied keys

Keys are cached after the rotary embedding has turned them for their position.  A key that is copied to
another position is turned by the difference: `correctQwen3KvPositionsInplace` computes it from the block
indices and the repacking offset, separately from the gather that moved the rows.

A row has one component vector for each cache (one of every layer) and each head, keys first and values
behind them.  Arithmetic is exact: `RotaryReals` has the cosine, the sine and the power that the source
takes from `torch`, over any field, with the laws that are used of them.

`rope_positions_corrected` is about the correction itself and about the whole copy operation of a step.
-/

namespace CacheSelect.Worker

open CacheSelect.Core

/-- The components of a row by cache, head and dimension. -/
abbrev KvRow (R : Type) := Nat → Nat → Nat → R

/-- Cosine, sine and power of exact reals. -/
structure RotaryReals (R : Type) [Field R] [LinearOrder R] extends PlaneRotation R R where
  pow : R → R → R
  pow_neg : ∀ base x, 0 < base → pow base (-x) = 1 / pow base x

/-- What the correction checks of a cache. -/
structure KvCacheShape where
  numBlocks : Nat
  blockSize : Nat
  width : Nat
  isFloatingPoint : Bool
  device : Nat
deriving DecidableEq

/-- The position that row `j` of the target block was stored for. -/
def sourcePosition (blockSize : Nat) (i : PartialReuseCopyInstruction) (j : Nat) : Nat :=
  i.sourceBlockIndex * blockSize + i.sourceBlockOffset + j

/-- The position that row `j` of the target block has. -/
def targetPosition (blockSize : Nat) (i : PartialReuseCopyInstruction) (j : Nat) : Nat :=
  i.targetBlockIndex * blockSize + j

/-- The instruction moves its block to another position. -/
def Moved (blockSize : Nat) (i : PartialReuseCopyInstruction) : Prop :=
  i.targetBlockIndex * blockSize ≠ i.sourceBlockIndex * blockSize + i.sourceBlockOffset

instance (blockSize : Nat) (i : PartialReuseCopyInstruction) : Decidable (Moved blockSize i) :=
  inferInstanceAs (Decidable (_ ≠ _))

/-- The difference of positions of an instruction. -/
def positionDelta (blockSize : Nat) (i : PartialReuseCopyInstruction) : Int :=
  ((i.targetBlockIndex * blockSize : Nat) : Int) - (i.sourceBlockIndex * blockSize : Nat)
    - i.sourceBlockOffset

section

variable {R : Type} [Field R] [LinearOrder R] (x : RotaryReals R)

/-! ### The rotary embedding -/

/-- The key of a position: `RotaryEmbedding` in the half-split style over the whole head. -/
def rotaryKey (headSize : Nat) (base : R) (raw : Nat → R) (position : Nat) : Nat → R :=
  let invFreq := fun i : Nat => 1 / x.pow base (((2 * i : Nat) : R) / headSize)
  x.turnHalves (headSize / 2) (fun i => position * invFreq i) raw

/-! ### The correction -/

/-- The instructions whose target is at another position than their source, with the difference. -/
def movedInstructions (blockSize : Nat) (instructions : List PartialReuseCopyInstruction) :
    List (PartialReuseCopyInstruction × Int) :=
  (instructions.filter fun i => Moved blockSize i).map fun i => (i, positionDelta blockSize i)

/-- The frequency of a pair as the correction computes it. -/
def correctionFreq (headSize : Nat) (base : R) (i : Nat) : R :=
  x.pow base (-((2 * i : Nat) : R) / headSize)

/-- The check on a cache; `none` is a cache that is not a four-dimensional tensor. -/
def validRopeCache (blockSize headSize : Nat) (cache : Option KvCacheShape) : Bool :=
  cache.any fun c => c.blockSize == blockSize && c.width == 2 * headSize && c.isFloatingPoint

/-- `correct_qwen3_kv_positions_inplace`: turn the moved keys; values and all other rows stay. -/
def correctQwen3KvPositionsInplace (kv : KVMemory (KvRow R)) (caches : List (Option KvCacheShape))
    (instructions : List PartialReuseCopyInstruction) (blockSize headSize : Nat) (ropeTheta : R) :
    Except PyError (KVMemory (KvRow R)) :=
  let moved := movedInstructions blockSize instructions
  if moved = [] then .ok kv
  else if headSize < 2 ∨ headSize % 2 ≠ 0 ∨ ropeTheta ≤ 0 then
    .error (.valueError "invalid Qwen3 RoPE parameters")
  else if caches = [] ∨ caches.any fun cache => !validRopeCache blockSize headSize cache then
    .error (.valueError "RoPE correction requires a floating-point Qwen3 KV cache")
  else if caches.any fun cache =>
      cache.map KvCacheShape.device ≠ caches.head?.join.map KvCacheShape.device then
    .error (.valueError "RoPE correction requires colocated KV caches")
  else if caches.any fun cache => moved.any fun m => cache.any fun c =>
      c.numBlocks ≤ m.1.targetBlockId then
    .error .indexError
  else
    .ok fun b j cache head d =>
      match moved.reverse.find? fun m => m.1.targetBlockId == b with
      | none => kv b j cache head d
      | some m =>
          if cache < caches.length ∧ j < blockSize ∧ d < headSize then
            x.turnHalves (headSize / 2) (fun k => m.2 * correctionFreq x headSize ropeTheta k)
              (kv b j cache head) d
          else kv b j cache head d

/-! ### The copy operation of a step -/

variable (R) in
/-- What the operation reads of the configurations. -/
structure RopeSettings where
  correctKvPositions : Bool
  modelType : Option String
  ropeType : Option String
  ropeTheta : Option R
  headSize : Nat

/-- The copy operation of `_apply_cacheselect_block_copies`: repack, copy, and correct the positions. -/
def copyOperation (cfg : WorkerConfig) (settings : RopeSettings R)
    (caches : List (Option KvCacheShape)) (kv : KVMemory (KvRow R))
    (instructions : List PartialReuseCopyInstruction) : Except PyError (KVMemory (KvRow R)) :=
  if instructions = [] then .ok kv
  else do
    let kv ← copyBlocks cfg kv instructions
    if settings.correctKvPositions = false then .ok kv
    else if settings.modelType ≠ some "qwen3" ∨ settings.ropeType.getD "default" ≠ "default" then
      .error (.runtimeError "CacheSelect position correction supports only standard Qwen3 RoPE")
    else
      correctQwen3KvPositionsInplace x kv caches instructions cfg.blockSize settings.headSize
        (settings.ropeTheta.getD 1000000)

/-! ### What the correction does -/

/-- A Qwen3 model with its caches, in which all targets are blocks. -/
structure RopeReady (caches : List (Option KvCacheShape))
    (instructions : List PartialReuseCopyInstruction) (blockSize headSize : Nat) (base : R) : Prop where
  two_le : 2 ≤ headSize
  even : headSize % 2 = 0
  base_pos : 0 < base
  nonempty : caches ≠ []
  caches : ∃ device, ∀ cache ∈ caches, ∃ c, cache = some c ∧ c.blockSize = blockSize ∧
    c.width = 2 * headSize ∧ c.isFloatingPoint = true ∧ c.device = device ∧
    ∀ i ∈ instructions, i.targetBlockId < c.numBlocks

variable {caches : List (Option KvCacheShape)} {instructions : List PartialReuseCopyInstruction}
  {blockSize headSize : Nat} {base : R}

/-- The moved instruction with a target. -/
theorem find?_moved (hnd : (instructions.map PartialReuseCopyInstruction.targetBlockId).Nodup) (b : Nat) :
    (∀ i ∈ instructions, Moved blockSize i → i.targetBlockId = b →
      (movedInstructions blockSize instructions).reverse.find? (fun m => m.1.targetBlockId == b)
        = some (i, positionDelta blockSize i)) ∧
    ((∀ i ∈ instructions, Moved blockSize i → i.targetBlockId ≠ b) →
      (movedInstructions blockSize instructions).reverse.find? (fun m => m.1.targetBlockId == b)
        = none) := by
  have hfilter : ((instructions.filter fun i => Moved blockSize i).map
      PartialReuseCopyInstruction.targetBlockId).Nodup := hnd.sublist (List.filter_sublist.map _)
  have hfind : (movedInstructions blockSize instructions).reverse.find?
        (fun m => m.1.targetBlockId == b)
      = ((instructions.filter fun i => Moved blockSize i).reverse.find?
          fun i => i.targetBlockId == b).map fun i => (i, positionDelta blockSize i) := by
    rw [movedInstructions, ← List.map_reverse, List.find?_map]
    rfl
  obtain ⟨hsome, hnone⟩ := find?_target hfilter b
  refine ⟨?_, ?_⟩
  · intro i hi hm hb
    rw [hfind, hsome i (List.mem_filter.mpr ⟨hi, decide_eq_true hm⟩) hb, Option.map_some]
  · intro hno
    rw [hfind, hnone, Option.map_none]
    intro i hi
    obtain ⟨hin, hm⟩ := List.mem_filter.mp hi
    exact hno i hin (of_decide_eq_true hm)

/-- **The correction turns the keys of the moved blocks and nothing else.** -/
theorem correct_spec (kv : KVMemory (KvRow R))
    (hready : RopeReady caches instructions blockSize headSize base)
    (hnd : (instructions.map PartialReuseCopyInstruction.targetBlockId).Nodup) :
    ∃ kv', correctQwen3KvPositionsInplace x kv caches instructions blockSize headSize base = .ok kv' ∧
      (∀ i ∈ instructions, Moved blockSize i → ∀ j < blockSize, ∀ cache < caches.length,
        ∀ head, ∀ d < headSize, kv' i.targetBlockId j cache head d
          = x.turnHalves (headSize / 2)
              (fun k => positionDelta blockSize i * correctionFreq x headSize base k)
              (kv i.targetBlockId j cache head) d) ∧
      (∀ b j cache head d, headSize ≤ d → kv' b j cache head d = kv b j cache head d) ∧
      ∀ b, (∀ i ∈ instructions, Moved blockSize i → i.targetBlockId ≠ b) → kv' b = kv b := by
  by_cases hmoved : movedInstructions blockSize instructions = []
  · refine ⟨kv, if_pos hmoved, ?_, fun _ _ _ _ _ _ => rfl, fun _ _ => rfl⟩
    intro i hi hm
    have hfind := (find?_moved hnd i.targetBlockId).1 i hi hm rfl
    rw [hmoved] at hfind
    cases hfind
  · obtain ⟨device, hcaches⟩ := hready.caches
    have hhead : caches.head?.join.map KvCacheShape.device = some device := by
      obtain ⟨cache, rest, rfl⟩ := List.exists_cons_of_ne_nil hready.nonempty
      obtain ⟨c, rfl, -, -, -, hdevice, -⟩ := hcaches cache List.mem_cons_self
      rw [List.head?_cons, Option.join_some, Option.map_some, hdevice]
    have hparams : ¬ (headSize < 2 ∨ headSize % 2 ≠ 0 ∨ base ≤ 0) := by
      rintro (h | h | h)
      · exact absurd hready.two_le (Nat.not_le.mpr h)
      · exact h hready.even
      · exact absurd hready.base_pos (not_lt.mpr h)
    have hvalid : ¬ (caches = [] ∨
        (caches.any fun cache => !validRopeCache blockSize headSize cache) = true) := by
      rintro (h | h)
      · exact hready.nonempty h
      · obtain ⟨cache, hc, hbad⟩ := List.any_eq_true.mp h
        obtain ⟨c, rfl, hb, hw, hf, -⟩ := hcaches cache hc
        simp [validRopeCache, hb, hw, hf] at hbad
    have hcolocated : ¬ (caches.any fun cache =>
        cache.map KvCacheShape.device ≠ caches.head?.join.map KvCacheShape.device) = true := by
      intro h
      obtain ⟨cache, hc, hbad⟩ := List.any_eq_true.mp h
      obtain ⟨c, rfl, -, -, -, hdevice, -⟩ := hcaches cache hc
      rw [hhead, Option.map_some, hdevice] at hbad
      exact absurd rfl (of_decide_eq_true hbad)
    have hrange : ¬ (caches.any fun cache => (movedInstructions blockSize instructions).any fun m =>
        cache.any fun c => c.numBlocks ≤ m.1.targetBlockId) = true := by
      intro h
      obtain ⟨cache, hc, hbad⟩ := List.any_eq_true.mp h
      obtain ⟨m, hm, hbad⟩ := List.any_eq_true.mp hbad
      obtain ⟨c, rfl, -, -, -, -, hlt⟩ := hcaches cache hc
      obtain ⟨i, hi, rfl⟩ := List.mem_map.mp hm
      have hle : c.numBlocks ≤ i.targetBlockId := by simpa using hbad
      exact absurd (hlt i (List.mem_of_mem_filter hi)) (Nat.not_lt.mpr hle)
    refine ⟨_, (if_neg hmoved).trans ((if_neg hparams).trans ((if_neg hvalid).trans
      ((if_neg hcolocated).trans (if_neg hrange)))), ?_, ?_, ?_⟩
    · intro i hi hm j hj cache hc head d hd
      rw [(find?_moved hnd i.targetBlockId).1 i hi hm rfl]
      exact if_pos ⟨hc, hj, hd⟩
    · intro b j cache head d hd
      split
      · rfl
      · exact if_neg fun h => absurd h.2.2 (Nat.not_lt.mpr hd)
    · intro b hb
      funext j cache head d
      rw [(find?_moved hnd b).2 hb]

/-! ### Keys -/

/-- The two ways to compute a frequency agree. -/
theorem correctionFreq_eq (hbase : 0 < base) (i : Nat) :
    correctionFreq x headSize base i = 1 / x.pow base (((2 * i : Nat) : R) / headSize) := by
  rw [correctionFreq, neg_div, x.pow_neg base _ hbase]

/-- The difference of positions is the same for all rows of a block. -/
theorem positionDelta_eq (blockSize : Nat) (i : PartialReuseCopyInstruction) (j : Nat) :
    positionDelta blockSize i
      = (targetPosition blockSize i j : Int) - sourcePosition blockSize i j := by
  rw [positionDelta, targetPosition, sourcePosition]
  push_cast
  ring

/-- **Turning a key by the difference of two positions** gives the key of the other position. -/
theorem turn_rotaryKey (heven : headSize % 2 = 0) (hbase : 0 < base) (raw : Nat → R) {row : Nat → R}
    {s t : Nat} (hrow : ∀ d < headSize, row d = rotaryKey x headSize base raw s d) :
    ∀ d < headSize, x.turnHalves (headSize / 2)
        (fun k => (((t : Int) - s : Int) : R) * correctionFreq x headSize base k) row d
      = rotaryKey x headSize base raw t d := by
  intro d hd
  have hrow' : ∀ d < 2 * (headSize / 2), row d = rotaryKey x headSize base raw s d :=
    fun d hd => hrow d (by omega)
  have hd' : d < 2 * (headSize / 2) := by omega
  rw [x.turnHalves_congr hrow' d hd', rotaryKey, rotaryKey]
  dsimp only
  rw [x.turnHalves_turnHalves _ _ _ _ d hd']
  congr 1
  funext k
  rw [correctionFreq_eq x hbase]
  push_cast
  ring

/-- The row that an instruction copies, where it is at the moment of the copy: repacked blocks are
gathered before the other copies, which see them. -/
def copiedRow {K : Type} (cfg : WorkerConfig) (kv : KVMemory K)
    (instructions : List PartialReuseCopyInstruction) (i : PartialReuseCopyInstruction) (j : Nat) :
    Except PyError K :=
  if i.requiresRepacking = true then
    let s := repackSource cfg.blockSize i j
    .ok (kv s.1 s.2)
  else
    (repackKvCacheBlocksInplace kv cfg.numBlocks
      (instructions.filter PartialReuseCopyInstruction.requiresRepacking) cfg.blockSize).map
        fun kv => kv i.sourceBlockId j

end

/-- **What the copies of a step do**, for any distinct target blocks. -/
theorem copyBlocks_copiedRow {K : Type} {cfg : WorkerConfig} {kv kv' : KVMemory K}
    {instructions : List PartialReuseCopyInstruction} (h : copyBlocks cfg kv instructions = .ok kv')
    (hnd : (instructions.map PartialReuseCopyInstruction.targetBlockId).Nodup) :
    (∀ i ∈ instructions, ∀ j < cfg.blockSize,
      copiedRow cfg kv instructions i j = .ok (kv' i.targetBlockId j)) ∧
    ∀ b, (∀ i ∈ instructions, i.targetBlockId ≠ b) → kv' b = kv b := by
  obtain ⟨kv₁, h₁, rfl⟩ := copyBlocks_ok h
  have hr : ((instructions.filter PartialReuseCopyInstruction.requiresRepacking).map
      PartialReuseCopyInstruction.targetBlockId).Nodup := hnd.sublist (List.filter_sublist.map _)
  have ha : ((instructions.filter fun i => !i.requiresRepacking).map
      PartialReuseCopyInstruction.targetBlockId).Nodup := hnd.sublist (List.filter_sublist.map _)
  obtain ⟨hrep, hkeep⟩ := repack_spec h₁ hr
  obtain ⟨hcopy, hkeep'⟩ := copy_spec kv₁ ha
  refine ⟨?_, ?_⟩
  · intro i hi j hj
    rw [copiedRow]
    by_cases hrepack : i.requiresRepacking = true
    · rw [if_pos hrepack, hkeep' i.targetBlockId, hrep i (List.mem_filter.mpr ⟨hi, hrepack⟩) j hj]
      intro i₂ h₂ heq
      obtain ⟨hin₂, hal₂⟩ := List.mem_filter.mp h₂
      rw [List.inj_on_of_nodup_map hnd hin₂ hi heq, hrepack] at hal₂
      cases hal₂
    · rw [if_neg hrepack, h₁, hcopy i (List.mem_filter.mpr ⟨hi, by simpa using hrepack⟩) j]
      rfl
  · intro b hb
    rw [hkeep' b fun i hi => hb i (List.mem_of_mem_filter hi),
      hkeep b fun i hi => hb i (List.mem_of_mem_filter hi)]

section

variable {R : Type} [Field R] [LinearOrder R] (x : RotaryReals R) {blockSize headSize : Nat} {base : R}

/-- **The keys of copied blocks have their new positions.**  With distinct target blocks the correction returns,
and takes every key row of a target block that is the raw key turned for its source position to the raw
key turned for its target position; values and blocks that no moved instruction targets stay.  The same holds
of the whole copy operation of a step, for the rows that are copied. -/
theorem rope_positions_corrected {caches : List (Option KvCacheShape)}
    {instructions : List PartialReuseCopyInstruction}
    (hready : RopeReady caches instructions blockSize headSize base)
    (hnd : (instructions.map PartialReuseCopyInstruction.targetBlockId).Nodup) :
    (∀ kv : KVMemory (KvRow R), ∃ kv',
      correctQwen3KvPositionsInplace x kv caches instructions blockSize headSize base = .ok kv' ∧
      (∀ i ∈ instructions, ∀ j < blockSize, ∀ cache < caches.length, ∀ head, ∀ raw : Nat → R,
        (∀ d < headSize, kv i.targetBlockId j cache head d
          = rotaryKey x headSize base raw (sourcePosition blockSize i j) d) →
        ∀ d < headSize, kv' i.targetBlockId j cache head d
          = rotaryKey x headSize base raw (targetPosition blockSize i j) d) ∧
      (∀ b j cache head d, headSize ≤ d → kv' b j cache head d = kv b j cache head d) ∧
      ∀ b, (∀ i ∈ instructions, Moved blockSize i → i.targetBlockId ≠ b) → kv' b = kv b) ∧
    ∀ (cfg : WorkerConfig) (settings : RopeSettings R), cfg.blockSize = blockSize →
      settings.headSize = headSize → settings.ropeTheta.getD 1000000 = base →
      settings.correctKvPositions = true → settings.modelType = some "qwen3" →
      settings.ropeType.getD "default" = "default" →
      ∀ kv kv₁ : KVMemory (KvRow R), copyBlocks cfg kv instructions = .ok kv₁ →
        ∃ kv', copyOperation x cfg settings caches kv instructions = .ok kv' ∧
          (∀ i ∈ instructions, ∀ j < blockSize, ∃ row, copiedRow cfg kv instructions i j = .ok row ∧
            ∀ cache < caches.length, ∀ head,
              (∀ raw : Nat → R, (∀ d < headSize, row cache head d
                  = rotaryKey x headSize base raw (sourcePosition blockSize i j) d) →
                ∀ d < headSize, kv' i.targetBlockId j cache head d
                  = rotaryKey x headSize base raw (targetPosition blockSize i j) d) ∧
              ∀ d, headSize ≤ d → kv' i.targetBlockId j cache head d = row cache head d) ∧
          ∀ b, (∀ i ∈ instructions, i.targetBlockId ≠ b) → kv' b = kv b := by
  have hcorrect : ∀ kv : KVMemory (KvRow R), ∃ kv',
      correctQwen3KvPositionsInplace x kv caches instructions blockSize headSize base = .ok kv' ∧
      (∀ i ∈ instructions, ∀ j < blockSize, ∀ cache < caches.length, ∀ head, ∀ raw : Nat → R,
        (∀ d < headSize, kv i.targetBlockId j cache head d
          = rotaryKey x headSize base raw (sourcePosition blockSize i j) d) →
        ∀ d < headSize, kv' i.targetBlockId j cache head d
          = rotaryKey x headSize base raw (targetPosition blockSize i j) d) ∧
      (∀ b j cache head d, headSize ≤ d → kv' b j cache head d = kv b j cache head d) ∧
      ∀ b, (∀ i ∈ instructions, Moved blockSize i → i.targetBlockId ≠ b) → kv' b = kv b := by
    intro kv
    obtain ⟨kv', hrun, hturn, hvalues, hkeep⟩ := correct_spec x kv hready hnd
    refine ⟨kv', hrun, ?_, hvalues, hkeep⟩
    intro i hi j hj cache hcache head raw hrow d hd
    by_cases hm : Moved blockSize i
    · rw [hturn i hi hm j hj cache hcache head d hd, positionDelta_eq blockSize i j]
      exact turn_rotaryKey x hready.even hready.base_pos raw hrow d hd
    · -- an instruction that does not move its block has the same positions
      have hsame : sourcePosition blockSize i j = targetPosition blockSize i j := by
        rw [sourcePosition, targetPosition]
        exact congrArg (· + j) (not_not.mp hm).symm
      have hblock : kv' i.targetBlockId = kv i.targetBlockId := by
        refine hkeep _ ?_
        intro i' hi' hm' heq
        rw [List.inj_on_of_nodup_map hnd hi' hi heq] at hm'
        exact hm hm'
      rw [hblock, hrow d hd, hsame]
  refine ⟨hcorrect, ?_⟩
  intro cfg settings hbs hhead hbase hon hmodel htype kv kv₁ hcopy
  by_cases hnil : instructions = []
  · subst hnil
    refine ⟨kv, if_pos rfl, ?_, fun _ _ => rfl⟩
    intro i hi
    cases hi
  obtain ⟨kv', hrun, hkeys, hvalues, hkeep⟩ := hcorrect kv₁
  obtain ⟨hrows, hothers⟩ := copyBlocks_copiedRow hcopy hnd
  rw [hbs] at hrows
  refine ⟨kv', ?_, ?_, ?_⟩
  · have hqwen : ¬ (settings.modelType ≠ some "qwen3" ∨
        settings.ropeType.getD "default" ≠ "default") := by
      rintro (h | h)
      · exact h hmodel
      · exact h htype
    rw [copyOperation, if_neg hnil, hcopy]
    change (if settings.correctKvPositions = false then _ else _) = _
    rw [hon, if_neg (by decide), if_neg hqwen, hbs, hhead, hbase]
    exact hrun
  · intro i hi j hj
    refine ⟨_, hrows i hi j hj, ?_⟩
    intro cache hcache head
    refine ⟨?_, ?_⟩
    · intro raw hrow
      exact hkeys i hi j hj cache hcache head raw hrow
    · intro d hd
      exact hvalues _ _ _ _ _ hd
  · intro b hb
    rw [hkeep b fun i hi _ => hb i hi, hothers b hb]

end

/-- The real cosine, sine and power. -/
noncomputable def realRotary : RotaryReals ℝ where
  cos := Real.cos
  sin := Real.sin
  cos_add := Real.cos_add
  sin_add := Real.sin_add
  pow := fun base y => base ^ y
  pow_neg := by
    intro base y hbase
    rw [Real.rpow_neg hbase.le, one_div]

/-- A block that was stored from position 3 on and is copied to position 6. -/
def movedBlock : PartialReuseCopyInstruction where
  sourceBlockId := 1
  targetBlockId := 3
  targetBlockIndex := 3
  requiresRepair := false
  sourceBlockIndex := 1
  sourceBlockIds := [1, 2]
  sourceBlockOffset := 1

theorem movedBlock_ready : RopeReady [some ⟨4, 2, 8, true, 0⟩] [movedBlock] 2 4 (100 : ℝ) where
  two_le := by decide
  even := rfl
  base_pos := by norm_num
  nonempty := by simp
  caches := by
    refine ⟨0, ?_⟩
    intro cache hc
    obtain rfl := List.mem_singleton.mp hc
    refine ⟨_, rfl, rfl, rfl, rfl, rfl, ?_⟩
    intro i hi
    obtain rfl := List.mem_singleton.mp hi
    decide

/-- Its keys, stored for their old positions, are corrected to the new ones. -/
theorem movedBlock_corrected : ∃ kv', correctQwen3KvPositionsInplace realRotary
      (fun _ j _ _ d => rotaryKey realRotary 4 100 (fun d => (d : ℝ)) (3 + j) d)
      [some ⟨4, 2, 8, true, 0⟩] [movedBlock] 2 4 100 = .ok kv' ∧
    ∀ d < 4, kv' 3 1 0 0 d = rotaryKey realRotary 4 100 (fun d => (d : ℝ)) 7 d := by
  obtain ⟨hcorrect, -⟩ := rope_positions_corrected realRotary movedBlock_ready (by decide)
  obtain ⟨kv', hrun, hkeys, -⟩ :=
    hcorrect fun _ j _ _ d => rotaryKey realRotary 4 100 (fun d => (d : ℝ)) (3 + j) d
  refine ⟨kv', hrun, ?_⟩
  exact hkeys movedBlock (by simp) 1 (by decide) 0 (by decide) 0 (fun d => (d : ℝ)) fun _ _ => rfl

end CacheSelect.Worker
