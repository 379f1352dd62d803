import CacheSelect.Worker.ModelRunner

/-! # What the copies of a step do

`gatheredRow` is the physical row that an instruction copies to a row of its target block.  The
repacking comes before the aligned copies, so that for distinct target blocks `copyBlocks_rows` says of
an aligned copy whether its source block is repacked in the same step; where none is, every target row is
its gathered row (`copyBlocks_spec`).  `copyBlocks_own` compares the copies of one request with those of the
whole step.
-/

namespace CacheSelect.Worker

open CacheSelect.Core

/-- The physical row that row `j` of the target block is copied from. -/
def gatheredRow (blockSize : Nat) (i : PartialReuseCopyInstruction) (j : Nat) : Nat × Nat :=
  if i.requiresRepacking = true then repackSource blockSize i j else (i.sourceBlockId, j)

theorem sourceBlockId_mem {i : PartialReuseCopyInstruction}
    (hhead : i.sourceBlockIds.head? = some i.sourceBlockId) :
    i.sourceBlockId ∈ i.physicalSourceBlockIds := by
  rw [PartialReuseCopyInstruction.physicalSourceBlockIds]
  split
  · exact List.mem_singleton.mpr rfl
  · exact List.mem_of_mem_head? hhead

/-- A gathered row lies in a source block of its instruction. -/
theorem gatheredRow_mem (bs : Nat) {i : PartialReuseCopyInstruction} (j : Nat)
    (hhead : i.sourceBlockIds.head? = some i.sourceBlockId)
    (hlen : i.sourceBlockIds.length = if i.sourceBlockOffset = 0 then 1 else 2) :
    (gatheredRow bs i j).1 ∈ i.physicalSourceBlockIds := by
  have hne : i.sourceBlockIds ≠ [] := by
    intro hnil
    rw [hnil] at hhead
    cases hhead
  rw [gatheredRow]
  split
  · next hrep =>
      rw [PartialReuseCopyInstruction.requiresRepacking, bne_iff_ne] at hrep
      rw [if_neg hrep] at hlen
      rw [repackSource, PartialReuseCopyInstruction.physicalSourceBlockIds, if_neg hne]
      dsimp only
      split
      · rw [List.getD_eq_getElem _ _ (by omega)]
        exact List.getElem_mem _
      · rw [List.getD_eq_getElem _ _ (by omega)]
        exact List.getElem_mem _
  · exact sourceBlockId_mem hhead

/-- Of instructions with distinct target blocks, one is found by its target. -/
theorem find?_target {instructions : List PartialReuseCopyInstruction}
    (hnd : (instructions.map PartialReuseCopyInstruction.targetBlockId).Nodup) (b : Nat) :
    (∀ i ∈ instructions, i.targetBlockId = b →
      instructions.reverse.find? (fun i' => i'.targetBlockId == b) = some i) ∧
    ((∀ i ∈ instructions, i.targetBlockId ≠ b) →
      instructions.reverse.find? (fun i' => i'.targetBlockId == b) = none) := by
  refine ⟨?_, fun hno => ?_⟩
  · rintro i hi rfl
    cases hf : instructions.reverse.find? fun i' => i'.targetBlockId == i.targetBlockId with
    | none =>
        have := List.find?_eq_none.mp hf i (List.mem_reverse.mpr hi)
        rw [beq_self_eq_true] at this
        exact absurd rfl this
    | some i' =>
        have hi' := List.mem_reverse.mp (List.mem_of_find?_eq_some hf)
        have heq : i'.targetBlockId = i.targetBlockId := by simpa using List.find?_some hf
        rw [List.inj_on_of_nodup_map hnd hi' hi heq]
  · rw [List.find?_eq_none]
    intro i hi
    rw [beq_iff_eq]
    exact hno i (List.mem_reverse.mp hi)

section

variable {K : Type} {cfg : WorkerConfig} {kv kv' : KVMemory K}
  {instructions : List PartialReuseCopyInstruction}

/-- The two stages of `copyBlocks`. -/
theorem copyBlocks_ok (h : copyBlocks cfg kv instructions = .ok kv') :
    ∃ kv₁, repackKvCacheBlocksInplace kv cfg.numBlocks
        (instructions.filter PartialReuseCopyInstruction.requiresRepacking) cfg.blockSize = .ok kv₁ ∧
      kv' = copyKvCacheBlocksInplace kv₁
        ((instructions.filter fun i => !i.requiresRepacking).map
          fun i => (i.sourceBlockId, i.targetBlockId)) := by
  rw [copyBlocks] at h
  split at h
  · cases h
  · obtain ⟨copies, hc, h⟩ := Except.bind_eq_ok.mp h
    obtain ⟨kv₁, h₁, h⟩ := Except.bind_eq_ok.mp h
    cases h
    rw [buildKvCacheBlockCopies] at hc
    split at hc
    · cases hc
    · cases hc
      exact ⟨kv₁, h₁, rfl⟩

/-- A repacked block is gathered row by row; other blocks stay. -/
theorem repack_spec {kv₁ : KVMemory K} {numBlocks bs : Nat}
    (h : repackKvCacheBlocksInplace kv numBlocks instructions bs = .ok kv₁)
    (hnd : (instructions.map PartialReuseCopyInstruction.targetBlockId).Nodup) :
    (∀ i ∈ instructions, ∀ j < bs,
      kv₁ i.targetBlockId j = kv (repackSource bs i j).1 (repackSource bs i j).2) ∧
    ∀ b, (∀ i ∈ instructions, i.targetBlockId ≠ b) → kv₁ b = kv b := by
  rw [repackKvCacheBlocksInplace] at h
  split at h
  · next hnil =>
      cases h
      rw [hnil]
      exact ⟨nofun, fun _ _ => rfl⟩
  · split at h
    · cases h
    · split at h
      · cases h
      · cases h
        refine ⟨fun i hi j hj => ?_, fun b hb => ?_⟩
        · dsimp only
          rw [(find?_target hnd i.targetBlockId).1 i hi rfl]
          exact if_pos hj
        · funext j
          dsimp only
          rw [(find?_target hnd b).2 hb]

/-- Some of the instructions pass the checks that all of them pass. -/
theorem repack_sublist {kv₁ : KVMemory K} {numBlocks bs : Nat}
    (h : repackKvCacheBlocksInplace kv numBlocks instructions bs = .ok kv₁)
    {own : List PartialReuseCopyInstruction} (hsub : own.Sublist instructions) :
    ∃ kvₒ, repackKvCacheBlocksInplace kv numBlocks own bs = .ok kvₒ := by
  rw [repackKvCacheBlocksInplace]
  by_cases hnil : own = []
  · exact ⟨kv, if_pos hnil⟩
  · have hne : instructions ≠ [] := by
      rintro rfl
      exact hnil (List.sublist_nil.mp hsub)
    rw [repackKvCacheBlocksInplace, if_neg hne] at h
    rw [if_neg hnil]
    split at h
    · cases h
    · next hbs =>
        rw [if_neg hbs]
        split at h
        · cases h
        · next hvalid =>
            rw [if_neg fun hany => hvalid ?_]
            · exact ⟨_, rfl⟩
            · obtain ⟨i, hi, hv⟩ := List.any_eq_true.mp hany
              exact List.any_eq_true.mpr ⟨i, hsub.subset hi, hv⟩

/-- An aligned copy fills its target with its source; other blocks stay. -/
theorem copy_spec (kv₁ : KVMemory K)
    (hnd : (instructions.map PartialReuseCopyInstruction.targetBlockId).Nodup) :
    (∀ i ∈ instructions, ∀ j, copyKvCacheBlocksInplace kv₁
        (instructions.map fun i => (i.sourceBlockId, i.targetBlockId)) i.targetBlockId j
      = kv₁ i.sourceBlockId j) ∧
    ∀ b, (∀ i ∈ instructions, i.targetBlockId ≠ b) → copyKvCacheBlocksInplace kv₁
      (instructions.map fun i => (i.sourceBlockId, i.targetBlockId)) b = kv₁ b := by
  have hfind : ∀ b, (instructions.map fun i => (i.sourceBlockId, i.targetBlockId)).reverse.find?
        (fun c => c.2 == b)
      = (instructions.reverse.find? fun i => i.targetBlockId == b).map
          fun i => (i.sourceBlockId, i.targetBlockId) := by
    intro b
    rw [← List.map_reverse, List.find?_map]
    rfl
  refine ⟨fun i hi j => ?_, fun b hb => ?_⟩
  · rw [copyKvCacheBlocksInplace, hfind, (find?_target hnd i.targetBlockId).1 i hi rfl]
    rfl
  · funext j
    rw [copyKvCacheBlocksInplace, hfind, (find?_target hnd b).2 hb]
    rfl

/-- **What the copies of a step do**, for distinct target blocks: a repacked block is gathered from
the memory before the step, an aligned copy reads what the repacking has left, and all other blocks
stay. -/
theorem copyBlocks_rows (h : copyBlocks cfg kv instructions = .ok kv')
    (hnd : (instructions.map PartialReuseCopyInstruction.targetBlockId).Nodup) :
    (∀ i ∈ instructions, i.requiresRepacking = true → ∀ j < cfg.blockSize,
      kv' i.targetBlockId j
        = kv (repackSource cfg.blockSize i j).1 (repackSource cfg.blockSize i j).2) ∧
    (∀ i ∈ instructions, i.requiresRepacking = false →
      (∀ i' ∈ instructions, i'.requiresRepacking = true → i'.targetBlockId ≠ i.sourceBlockId) →
      ∀ j, kv' i.targetBlockId j = kv i.sourceBlockId j) ∧
    (∀ i ∈ instructions, i.requiresRepacking = false → ∀ i' ∈ instructions,
      i'.requiresRepacking = true → i'.targetBlockId = i.sourceBlockId →
      ∀ j, kv' i.targetBlockId j = kv' i'.targetBlockId j) ∧
    ∀ b, (∀ i ∈ instructions, i.targetBlockId ≠ b) → kv' b = kv b := by
  obtain ⟨kv₁, h₁, rfl⟩ := copyBlocks_ok h
  let repacked := instructions.filter PartialReuseCopyInstruction.requiresRepacking
  let aligned := instructions.filter fun i => !i.requiresRepacking
  have hr : (repacked.map PartialReuseCopyInstruction.targetBlockId).Nodup :=
    hnd.sublist (List.filter_sublist.map _)
  have ha : (aligned.map PartialReuseCopyInstruction.targetBlockId).Nodup :=
    hnd.sublist (List.filter_sublist.map _)
  have hmem : ∀ i ∈ aligned, i ∈ instructions ∧ i.requiresRepacking = false := by
    intro i hi
    obtain ⟨hin, hal⟩ := List.mem_filter.mp hi
    exact ⟨hin, by simpa using hal⟩
  have hin : ∀ i ∈ instructions, i.requiresRepacking = false → i ∈ aligned :=
    fun i hi hal => List.mem_filter.mpr ⟨hi, by simpa using hal⟩
  obtain ⟨hrep, hkeep⟩ := repack_spec h₁ hr
  obtain ⟨hcopy, hkeep'⟩ := copy_spec kv₁ ha
  -- the aligned copies leave a repacked block alone
  have hstay : ∀ i ∈ instructions, i.requiresRepacking = true →
      copyKvCacheBlocksInplace kv₁ (aligned.map fun i => (i.sourceBlockId, i.targetBlockId))
        i.targetBlockId = kv₁ i.targetBlockId := by
    intro i hi hi'
    refine hkeep' i.targetBlockId fun i₂ h₂ heq => ?_
    obtain ⟨hin₂, hal₂⟩ := hmem i₂ h₂
    rw [List.inj_on_of_nodup_map hnd hin₂ hi heq, hi'] at hal₂
    cases hal₂
  refine ⟨fun i hi hi' j hj => ?_, fun i hi hal hno j => ?_, fun i hi hal i' hi' hrep' heq j => ?_,
    fun b hb => ?_⟩
  · rw [hstay i hi hi', hrep i (List.mem_filter.mpr ⟨hi, hi'⟩) j hj]
  · rw [hcopy i (hin i hi hal) j, hkeep i.sourceBlockId]
    intro i₂ h₂
    obtain ⟨hin₂, hrep₂⟩ := List.mem_filter.mp h₂
    exact hno i₂ hin₂ hrep₂
  · rw [hcopy i (hin i hi hal) j, hstay i' hi' hrep', heq]
  · rw [hkeep' b fun i hi => hb i (hmem i hi).1, hkeep b fun i hi => hb i (List.mem_of_mem_filter hi)]

/-- With no repacked target among the sources of the aligned copies, every target row is its gathered
row of the memory before the step. -/
theorem copyBlocks_spec (h : copyBlocks cfg kv instructions = .ok kv')
    (hnd : (instructions.map PartialReuseCopyInstruction.targetBlockId).Nodup)
    (hsrc : ∀ i ∈ instructions, i.requiresRepacking = true → ∀ i' ∈ instructions,
      i'.requiresRepacking = false → i.targetBlockId ≠ i'.sourceBlockId) :
    (∀ i ∈ instructions, ∀ j < cfg.blockSize,
      kv' i.targetBlockId j
        = kv (gatheredRow cfg.blockSize i j).1 (gatheredRow cfg.blockSize i j).2) ∧
    ∀ b, (∀ i ∈ instructions, i.targetBlockId ≠ b) → kv' b = kv b := by
  obtain ⟨hrep, hal, -, hkeep⟩ := copyBlocks_rows h hnd
  refine ⟨fun i hi j hj => ?_, hkeep⟩
  rw [gatheredRow]
  by_cases hi' : i.requiresRepacking = true
  · rw [if_pos hi', hrep i hi hi' j hj]
  · have hi₀ : i.requiresRepacking = false := by simpa using hi'
    rw [if_neg hi', hal i hi hi₀ (fun i₂ h₂ hrep₂ => hsrc i₂ h₂ hrep₂ i hi hi₀) j]

/-! ### A part of the instructions -/

/-- Some of the instructions raise nothing that all of them do not. -/
theorem copyBlocks_sublist (h : copyBlocks cfg kv instructions = .ok kv')
    {own : List PartialReuseCopyInstruction} (hsub : own.Sublist instructions) :
    ∃ kvₒ, copyBlocks cfg kv own = .ok kvₒ := by
  have hrep := hsub.filter PartialReuseCopyInstruction.requiresRepacking
  obtain ⟨kv₁, h₁, -⟩ := copyBlocks_ok h
  have hcheck : ¬ (own.filter PartialReuseCopyInstruction.requiresRepacking ≠ [] ∧
      cfg.repackPartialReuse = false) := by
    rintro ⟨hne, hoff⟩
    rw [copyBlocks, if_pos ⟨fun hnil => hne (List.sublist_nil.mp (hnil ▸ hrep)), hoff⟩] at h
    cases h
  have hbuild : buildKvCacheBlockCopies (own.filter fun i => !i.requiresRepacking)
      = .ok ((own.filter fun i => !i.requiresRepacking).map
          fun i => (i.sourceBlockId, i.targetBlockId)) := by
    refine if_neg ?_
    rw [List.any_filter, List.any_eq_true]
    rintro ⟨i, -, hi⟩
    cases hx : i.requiresRepacking <;> simp [hx] at hi
  obtain ⟨kv₂, h₂⟩ := repack_sublist h₁ hrep
  rw [copyBlocks, if_neg hcheck, hbuild]
  exact ⟨_, by rw [h₂]; rfl⟩

/-- Of all instructions a part fills its target rows as it does alone, unless an aligned copy of it
reads a block that another part repacks. -/
theorem copyBlocks_own (h : copyBlocks cfg kv instructions = .ok kv')
    (hnd : (instructions.map PartialReuseCopyInstruction.targetBlockId).Nodup)
    {own : List PartialReuseCopyInstruction} (hsub : own.Sublist instructions) {kvₒ : KVMemory K}
    (hown : copyBlocks cfg kv own = .ok kvₒ) {i : PartialReuseCopyInstruction} (hi : i ∈ own)
    (hsrc : i.requiresRepacking = false → ∀ i' ∈ instructions, i'.requiresRepacking = true →
      i'.targetBlockId = i.sourceBlockId → i' ∈ own) :
    ∀ j < cfg.blockSize, kv' i.targetBlockId j = kvₒ i.targetBlockId j := by
  intro j hj
  have hin := hsub.subset hi
  obtain ⟨hrep, hal, hover, -⟩ := copyBlocks_rows h hnd
  obtain ⟨hrep', hal', hover', -⟩ := copyBlocks_rows hown (hnd.sublist (hsub.map _))
  cases hi' : i.requiresRepacking with
  | true => rw [hrep i hin hi' j hj, hrep' i hi hi' j hj]
  | false =>
      by_cases hex : ∃ i' ∈ instructions, i'.requiresRepacking = true ∧
          i'.targetBlockId = i.sourceBlockId
      · obtain ⟨i₂, h₂, hr₂, heq⟩ := hex
        have ho₂ := hsrc hi' i₂ h₂ hr₂ heq
        rw [hover i hin hi' i₂ h₂ hr₂ heq j, hover' i hi hi' i₂ ho₂ hr₂ heq j, hrep i₂ h₂ hr₂ j hj,
          hrep' i₂ ho₂ hr₂ j hj]
      · have hno : ∀ i₂ ∈ instructions, i₂.requiresRepacking = true →
            i₂.targetBlockId ≠ i.sourceBlockId :=
          fun i₂ h₂ hr₂ heq => hex ⟨i₂, h₂, hr₂, heq⟩
        rw [hal i hin hi' hno j, hal' i hi hi' (fun i₂ h₂ => hno i₂ (hsub.subset h₂)) j]

end

end CacheSelect.Worker
