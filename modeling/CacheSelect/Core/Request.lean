import Mathlib.Data.List.Basic
import Mathlib.Data.Rat.Init
import Mathlib.Tactic.Common

/-! # Requests, block hashes and reuse plans

The data the scheduler, the block pool and the partial-reuse locator share.

A block hash of the source is a digest of the parent block's hash, the block's token ids and its
extra keys.  Here it is the chain the digest is computed from, one `(token_ids, extra_keys)` link
for every block up to the block itself: equal hashes name equal chains, as a collision-free digest
does.  `BlockHash.tokens` is the exact token prefix a hash names.

`Request` keeps the fields that the modelled code reads.  `request.block_hashes` is extended by the
source each time tokens are appended; tokens are only appended, so it is always the list computed
from all tokens, which is how `Request.blockHashes` computes it.
-/

namespace CacheSelect.Core

/-! ### Sizes -/

/-- The default of `max_source_requests`. -/
theorem defaultSources_pos : 0 < 1024 := by decide

theorem noMinimum_pos : ∀ n ∈ (none : Option Nat), 0 < n := by decide

/-! ### Exceptions -/

/-- The exceptions the modelled code raises. -/
inductive PyError
  | valueError (message : String)
  | runtimeError (message : String)
  | assertionError
  | indexError
  | keyError
  | typeError
  | overflowError
  | zeroDivisionError
deriving DecidableEq, Repr

/-! ### Block hashes -/

/-- The chain of `(token_ids, extra_keys)` links a block's digest is computed from. -/
abbrev BlockHash := List (List Nat × List String)

/-- `hash_block_tokens`: no parent stands for `NONE_HASH`. -/
def hashBlockTokens (parentBlockHash : Option BlockHash) (currBlockTokenIds : List Nat)
    (extraKeys : List String) : BlockHash :=
  parentBlockHash.getD [] ++ [(currBlockTokenIds, extraKeys)]

/-- The token prefix that a chained hash names. -/
def BlockHash.tokens (h : BlockHash) : List Nat :=
  h.flatMap Prod.fst

/-- The token ids of the block itself. -/
def BlockHash.blockTokens (h : BlockHash) : List Nat :=
  (h.getLast?.map Prod.fst).getD []

/-! ### Reuse plans -/

structure SourceBlock where
  blockIndex : Nat
  tokenIds : List Nat
  blockId : Nat
  blockHash : BlockHash
  contextualHash : Option BlockHash
deriving DecidableEq, Repr

structure SourceRequestIndex where
  requestId : String
  cacheSalt : Option String
  loraAdapterId : Option Int
  blocks : List SourceBlock
  promptTokenIds : List Nat
  sessionId : Option String
  fingerprint : List Int
deriving DecidableEq, Repr

structure PartialReuseCandidate where
  sourceBlockIndex : Nat
  targetBlockIndex : Nat
  sourceBlockId : Nat
  sourceResident : Bool
  requiresRepair : Bool := true
  blockDisplacement : Int := 0
  nearestChangedBlockDistance : Option Nat := none
  sourceContextualHash : Option BlockHash := none
  sourceBlockOffset : Nat := 0
  sourceBlockIds : List Nat := []
  selectorFeatures : List (String × Rat) := []
deriving DecidableEq, Repr

namespace PartialReuseCandidate

def physicalSourceBlockIds (c : PartialReuseCandidate) : List Nat :=
  if c.sourceBlockIds = [] then [c.sourceBlockId] else c.sourceBlockIds

def requiresRepacking (c : PartialReuseCandidate) : Bool :=
  c.sourceBlockOffset != 0

end PartialReuseCandidate

/-- How a source sequence was chosen for a request. -/
inductive SourceSelection
  | explicit
  | session
  | fingerprint
deriving DecidableEq, Repr

structure PartialReusePlan where
  transitionId : Option String
  sourceRequestId : String
  targetRequestId : String
  blockSize : Nat
  nativeCachedTokens : Nat
  reason : String
  sourceSelection : SourceSelection := .explicit
  counterfactualReuseBlockIndex : Option Nat := none
  candidates : List PartialReuseCandidate := []
deriving DecidableEq, Repr

/-- Reduce a plan to the candidates whose source blocks are all pinned. -/
def PartialReusePlan.forRetainedSourceIds (plan : PartialReusePlan) (sourceBlockIds : List Nat) :
    Option PartialReusePlan :=
  let retained := plan.candidates.filter fun c =>
    c.physicalSourceBlockIds.all fun b => sourceBlockIds.contains b
  if retained = [] then none else some { plan with candidates := retained }

/-! ### Requests -/

structure LoRARequest where
  loraName : String
  adapterId : Int
deriving DecidableEq, Repr

inductive RequestStatus
  | waiting
  | waitingForRemoteKvs
  | running
  | preempted
deriving DecidableEq, Repr

structure Request where
  requestId : String
  promptTokenIds : Option (List Nat)
  numPromptEmbeds : Nat := 0
  outputTokenIds : List Nat := []
  loraRequest : Option LoRARequest := none
  cacheSalt : Option String := none
  skipReadingPrefixCache : Bool := false
  cacheselectRequestId : Option String := none
  cacheselectSourceRequestId : Option String := none
  cacheselectSessionId : Option String := none
  cacheselectAutoSource : Bool := false
  cacheselectSourceSelection : SourceSelection := .explicit
  cacheselectTransitionId : Option String := none
  cacheselectCounterfactualReuseBlockIndex : Option Nat := none
  status : RequestStatus := .waiting
  numComputedTokens : Nat := 0
  numPreemptions : Nat := 0
  partialReusePlan : Option PartialReusePlan := none
deriving DecidableEq, Repr

namespace Request

/-- The prompt (zeros for prompt embeddings) followed by the sampled tokens. -/
def allTokenIds (r : Request) : List Nat :=
  (match r.promptTokenIds with
    | some tokens => tokens
    | none => List.replicate r.numPromptEmbeds 0) ++ r.outputTokenIds

theorem allTokenIds_eq {r : Request} {promptTokenIds : List Nat}
    (hp : r.promptTokenIds = some promptTokenIds) :
    r.allTokenIds = promptTokenIds ++ r.outputTokenIds := by
  rw [allTokenIds, hp]

def numTokens (r : Request) : Nat :=
  r.allTokenIds.length

/-- `request.cacheselect_request_id or request.request_id`: an empty id counts as absent. -/
def sourceIndexId (r : Request) : String :=
  match r.cacheselectRequestId with
  | some i => if i = "" then r.requestId else i
  | none => r.requestId

/-- `generate_block_hash_extra_keys`: the LoRA name, and the salt on the first block. -/
def extraKeys (r : Request) (startTokenIdx : Nat) : List String :=
  (match r.loraRequest with
    | some l => [l.loraName]
    | none => []) ++
  (match r.cacheSalt with
    | some salt => if startTokenIdx = 0 ∧ salt ≠ "" then [salt] else []
    | none => [])

/-- The token ids of the block at an index. -/
def blockTokenIds (r : Request) (blockSize i : Nat) : List Nat :=
  (r.allTokenIds.drop (i * blockSize)).take blockSize

/-- The hash of the block at an index, chained on the block before it. -/
def blockHashAt (r : Request) (blockSize : Nat) : Nat → BlockHash
  | 0 => hashBlockTokens none (r.blockTokenIds blockSize 0) (r.extraKeys 0)
  | i + 1 => hashBlockTokens (some (r.blockHashAt blockSize i)) (r.blockTokenIds blockSize (i + 1))
      (r.extraKeys ((i + 1) * blockSize))

/-- The hashes of all full blocks. -/
def blockHashes (r : Request) (blockSize : Nat) : List BlockHash :=
  (List.range (r.numTokens / blockSize)).map (r.blockHashAt blockSize)

@[simp] theorem length_blockHashes (r : Request) (bs : Nat) :
    (r.blockHashes bs).length = r.numTokens / bs := by
  simp [blockHashes]

theorem getElem?_blockHashes (r : Request) (bs : Nat) {i : Nat} (h : i < r.numTokens / bs) :
    (r.blockHashes bs)[i]? = some (r.blockHashAt bs i) := by
  simp [blockHashes, h]

/-! ### What a request's hashes name -/

@[simp] theorem length_blockHashAt (r : Request) (bs : Nat) :
    ∀ i, (r.blockHashAt bs i).length = i + 1
  | 0 => rfl
  | i + 1 => by
      simp [blockHashAt, hashBlockTokens, length_blockHashAt r bs i]

theorem blockTokens_blockHashAt (r : Request) (bs i : Nat) :
    (r.blockHashAt bs i).blockTokens = r.blockTokenIds bs i := by
  cases i <;> simp [blockHashAt, hashBlockTokens, BlockHash.blockTokens]

/-- **A chained hash names the exact token prefix through its block.** -/
theorem tokens_blockHashAt (r : Request) (bs : Nat) :
    ∀ i, (r.blockHashAt bs i).tokens = r.allTokenIds.take ((i + 1) * bs)
  | 0 => by simp [blockHashAt, hashBlockTokens, BlockHash.tokens, blockTokenIds]
  | i + 1 => by
      have ih := tokens_blockHashAt r bs i
      rw [BlockHash.tokens] at ih
      rw [blockHashAt, hashBlockTokens, BlockHash.tokens, Option.getD_some, List.flatMap_append, ih,
        List.flatMap_cons, List.flatMap_nil, List.append_nil, blockTokenIds, ← List.take_add,
        Nat.succ_mul (i + 1)]

/-- Equal hashes of two requests sit at one index and name one prefix. -/
theorem blockHashAt_inj {r r' : Request} {bs i i' : Nat}
    (h : r.blockHashAt bs i = r'.blockHashAt bs i') :
    i = i' ∧ r.allTokenIds.take ((i + 1) * bs) = r'.allTokenIds.take ((i' + 1) * bs) := by
  have hl := congrArg List.length h
  rw [length_blockHashAt, length_blockHashAt] at hl
  refine ⟨by omega, ?_⟩
  rw [← tokens_blockHashAt, ← tokens_blockHashAt, h]

/-- Within a request, the hash determines the block index. -/
theorem blockHashAt_ne {r : Request} {bs i i' : Nat} (h : i ≠ i') :
    r.blockHashAt bs i ≠ r.blockHashAt bs i' :=
  fun he => h (blockHashAt_inj he).1

theorem blockTokenIds_eq_of_take_eq {r r' : Request} {bs i : Nat}
    (h : r.allTokenIds.take ((i + 1) * bs) = r'.allTokenIds.take ((i + 1) * bs)) :
    r.blockTokenIds bs i = r'.blockTokenIds bs i := by
  have hd : ∀ q : Request, q.blockTokenIds bs i
      = (q.allTokenIds.take ((i + 1) * bs)).drop (i * bs) := by
    intro q
    rw [blockTokenIds, List.drop_take, Nat.succ_mul, Nat.add_sub_cancel_left]
  rw [hd r, hd r', h]

/-- The hash of a block depends on the tokens through it, the adapter and the salt. -/
theorem blockHashAt_congr {r r' : Request} {bs : Nat} : ∀ {i : Nat},
    r'.allTokenIds.take ((i + 1) * bs) = r.allTokenIds.take ((i + 1) * bs) →
    r'.loraRequest = r.loraRequest → r'.cacheSalt = r.cacheSalt →
    r'.blockHashAt bs i = r.blockHashAt bs i := by
  intro i
  induction i with
  | zero =>
      intro h hl hs
      rw [blockHashAt, blockHashAt, blockTokenIds_eq_of_take_eq h, extraKeys, extraKeys, hl, hs]
  | succ i ih =>
      intro h hl hs
      have hprev : r'.allTokenIds.take ((i + 1) * bs) = r.allTokenIds.take ((i + 1) * bs) := by
        have := congrArg (List.take ((i + 1) * bs)) h
        rwa [List.take_take, List.take_take, Nat.min_eq_left
          (Nat.mul_le_mul_right _ (Nat.le_succ _))] at this
      rw [blockHashAt, blockHashAt, ih hprev hl hs, blockTokenIds_eq_of_take_eq h, extraKeys,
        extraKeys, hl, hs]

end Request

end CacheSelect.Core
