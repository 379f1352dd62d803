import CacheSelect.Worker.CopyPlan
import Mathlib.Data.List.Induction
import Mathlib.Data.List.GetD

/-! # KV memory and block copies

The KV cache of the worker holds one row for every block and every position inside a block; a row
stands for the keys and values of all layers.  What the model computes is uninterpreted:
`compute context token` is the row of a token that attends to the rows `context` of the positions
before it.  `exactRow compute tokens p` is the row of position `p` when every row of the prefix was
computed this way.

`copyKvCacheBlocksInplace` and `repackKvCacheBlocksInplace` gather all sources before they write any
target, as the indexed assignments of the source do.
-/

namespace CacheSelect.Worker

open CacheSelect.Core

/-- Rows by block id and position inside the block. -/
abbrev KVMemory (K : Type) := Nat → Nat → K

/-! ### Exact rows -/

/-- The rows of a token sequence, each computed over the rows before it. -/
def exactRows {K : Type} (compute : List K → Nat → K) (tokens : List Nat) : List K :=
  tokens.foldl (fun rows t => rows ++ [compute rows t]) []

/-- The row of position `p`: its token over the exact rows before it. -/
def exactRow {K : Type} (compute : List K → Nat → K) (tokens : List Nat) (p : Nat) : K :=
  compute (exactRows compute (tokens.take p)) (tokens.getD p 0)

/-! ### Block copies -/

/-- `build_kv_cache_block_copies`: source and target block ids. -/
def buildKvCacheBlockCopies (instructions : List PartialReuseCopyInstruction) :
    Except PyError (List (Nat × Nat)) :=
  if instructions.any PartialReuseCopyInstruction.requiresRepacking then
    .error (.valueError "unaligned mappings require KV repacking")
  else .ok (instructions.map fun i => (i.sourceBlockId, i.targetBlockId))

/-- `copy_kv_cache_blocks_inplace`: of two copies to one block the later counts. -/
def copyKvCacheBlocksInplace {K : Type} (kv : KVMemory K) (copies : List (Nat × Nat)) :
    KVMemory K := fun b j =>
  match copies.reverse.find? fun c => c.2 == b with
  | some c => kv c.1 j
  | none => kv b j

/-- The check of `repack_kv_cache_blocks_inplace` on one instruction. -/
def validRepack (numBlocks blockSize : Nat) (i : PartialReuseCopyInstruction) : Bool :=
  i.physicalSourceBlockIds.length == 2 && 0 < i.sourceBlockOffset
    && i.sourceBlockOffset < blockSize && i.physicalSourceBlockIds.all (· < numBlocks)
    && i.targetBlockId < numBlocks

/-- The physical row that row `j` of the target block is gathered from. -/
def repackSource (blockSize : Nat) (i : PartialReuseCopyInstruction) (j : Nat) : Nat × Nat :=
  let s := i.sourceBlockOffset + j
  (if s < blockSize then i.physicalSourceBlockIds.getD 0 0 else i.physicalSourceBlockIds.getD 1 0,
    s % blockSize)

/-- `repack_kv_cache_blocks_inplace`: each target block from two adjacent source blocks. -/
def repackKvCacheBlocksInplace {K : Type} (kv : KVMemory K) (numBlocks : Nat)
    (instructions : List PartialReuseCopyInstruction) (blockSize : Nat) :
    Except PyError (KVMemory K) :=
  if instructions = [] then .ok kv
  else if blockSize < 1 then .error (.valueError "block_size must be positive")
  else if instructions.any fun i => !validRepack numBlocks blockSize i then
    .error (.valueError "invalid KV repacking instruction")
  else
    .ok fun b j =>
      match instructions.reverse.find? fun i => i.targetBlockId == b with
      | some i => if j < blockSize then
            let s := repackSource blockSize i j
            kv s.1 s.2
          else kv b j
      | none => kv b j

end CacheSelect.Worker
