import CacheSelect.Gdn.ContextualHash
import Mathlib.Data.List.MinMax
import Mathlib.Data.Prod.Lex

/-! # The source index

`GdnDeltaSourceIndex` keeps, for a bounded number of requests, the full prompt blocks with their contextual
hashes.  A target request names a source, and `locate` looks for the target's full blocks among the
blocks of the source that the sidecars are expected to hold still, which are the last ones.

`Lru.Spec String Request` is the index in the abstract: which requests are indexed under which id, as they
were last indexed, with their last uses.  `source_index_exact` says that after any calls the index is this
cache, and that a plan has the candidates that the two prompts give.

A call of `index` that raises (a token id or an adapter id that does not fit in eight bytes, a negative
adapter id) leaves the index as it was.
-/

namespace CacheSelect.Gdn

open CacheSelect.Core OrderedDict

/-- One full source block and its identity under the original prefix. -/
structure GdnDeltaSourceBlock where
  blockIndex : Nat
  tokenIds : List Nat
  contextualHash : ContextualHash
deriving DecidableEq

/-- Prompt blocks retained independently of the caches. -/
structure GdnDeltaSourceRequest where
  requestId : String
  cacheSalt : Option String
  loraAdapterId : Option Int
  blocks : List GdnDeltaSourceBlock
deriving DecidableEq

/-- An unchanged target block and its operator's source context. -/
structure GdnDeltaReuseCandidate where
  sourceBlockIndex : Nat
  targetBlockIndex : Nat
  sourceContextualHash : ContextualHash
deriving DecidableEq

structure GdnDeltaReusePlan where
  sourceRequestId : String
  targetRequestId : String
  blockSize : Nat
  nativeCachedTokens : Nat
  reason : String
  candidates : List GdnDeltaReuseCandidate
deriving DecidableEq

structure GdnDeltaSourceIndex where
  blockSize : Nat
  maxSourceRequests : Nat
  maxCandidateBlocks : Option Nat
  sources : List (String × GdnDeltaSourceRequest)

/-- Drop the oldest entries until there are no more than `maxEntries`. -/
def popOldest {κ ν : Type} (maxEntries : Nat) : List (κ × ν) → List (κ × ν)
  | [] => []
  | e :: d => if maxEntries < (e :: d).length then popOldest maxEntries d else e :: d

/-- `_lora_adapter_id`. -/
def loraAdapterId (request : Request) : Option Int :=
  request.loraRequest.map LoRARequest.adapterId

namespace GdnDeltaSourceIndex

/-- `__init__`. -/
def init (blockSize maxSourceRequests : Nat) (maxCandidateBlocks : Option Nat) :
    Except PyError GdnDeltaSourceIndex :=
  if blockSize < 1 then .error (.valueError "block_size must be positive")
  else if maxSourceRequests < 1 then .error (.valueError "max_source_requests must be positive")
  else if maxCandidateBlocks.any fun n => n < 1 then
    .error (.valueError "max_candidate_blocks must be positive")
  else .ok ⟨blockSize, maxSourceRequests, maxCandidateBlocks, []⟩

/-- The source of a request with the hashes of its full prompt blocks. -/
def sourceRequest (blockSize : Nat) (request : Request) (promptTokenIds : List Nat)
    (hashes : List ContextualHash) : GdnDeltaSourceRequest where
  requestId := request.sourceIndexId
  cacheSalt := request.cacheSalt
  loraAdapterId := loraAdapterId request
  blocks := (List.range (min (promptTokenIds.length / blockSize) hashes.length)).map fun i =>
    { blockIndex := i
      tokenIds := (promptTokenIds.drop (i * blockSize)).take blockSize
      contextualHash := hashes.getD i [] }

/-- Index every complete prompt block under its chained context hash. -/
def index (sha256 : List UInt8 → ContextualHash) (x : GdnDeltaSourceIndex) (request : Request) :
    Except PyError GdnDeltaSourceIndex :=
  match request.promptTokenIds with
  | none => .ok x
  | some promptTokenIds => do
      let hashes ← buildGdnContextualBlockHashes sha256 (promptTokenIds.map fun (t : Nat) => (t : Int))
        x.blockSize request.cacheSalt (loraAdapterId request)
      let source := sourceRequest x.blockSize request promptTokenIds hashes
      .ok { x with
        sources := popOldest x.maxSourceRequests (put x.sources request.sourceIndexId source) }

/-- `get`: resolve and refresh one source. -/
def getSource (x : GdnDeltaSourceIndex) (requestId : String) :
    Option GdnDeltaSourceRequest × GdnDeltaSourceIndex :=
  match get x.sources requestId with
  | none => (none, x)
  | some source => (some source, { x with sources := moveToEnd x.sources requestId })

/-- `_plan`. -/
def plan (x : GdnDeltaSourceIndex) (request : Request) (sourceRequestId : String)
    (nativeCachedTokens : Nat) (reason : String) (candidates : List GdnDeltaReuseCandidate) :
    GdnDeltaReusePlan where
  sourceRequestId := sourceRequestId
  targetRequestId := request.sourceIndexId
  blockSize := x.blockSize
  nativeCachedTokens := nativeCachedTokens
  reason := reason
  candidates := candidates

/-- The blocks of a source that may be candidates: the last `maxCandidateBlocks`. -/
def candidateSourceBlocks (x : GdnDeltaSourceIndex) (source : GdnDeltaSourceRequest) :
    List GdnDeltaSourceBlock :=
  match x.maxCandidateBlocks with
  | none => source.blocks
  | some n => source.blocks.drop (source.blocks.length - n)

/-- The key by which the nearest of several equal source blocks is chosen. -/
def distanceKey (targetBlockIndex : Nat) (block : GdnDeltaSourceBlock) : Nat ×ₗ Nat :=
  toLex (((block.blockIndex : Int) - targetBlockIndex).natAbs, block.blockIndex)

/-- The candidate of one full target block. -/
def candidateAt (blockSize : Nat) (byContent : List (List Nat × List GdnDeltaSourceBlock))
    (promptTokenIds : List Nat) (targetBlockIndex : Nat) : Option GdnDeltaReuseCandidate :=
  let tokenIds := (promptTokenIds.drop (targetBlockIndex * blockSize)).take blockSize
  match get byContent tokenIds with
  | none => none
  | some sourceBlocks =>
      (sourceBlocks.argmin (distanceKey targetBlockIndex)).map fun block =>
        ⟨block.blockIndex, targetBlockIndex, block.contextualHash⟩

/-- The candidates of all full target blocks past the native prefix. -/
def locateCandidates (x : GdnDeltaSourceIndex) (source : GdnDeltaSourceRequest)
    (promptTokenIds : List Nat) (nativeCachedTokens : Nat) : List GdnDeltaReuseCandidate :=
  let byContent := grouped GdnDeltaSourceBlock.tokenIds id (x.candidateSourceBlocks source)
  let firstTargetBlock := (nativeCachedTokens + x.blockSize - 1) / x.blockSize
  let numTargetBlocks := promptTokenIds.length / x.blockSize
  (List.range' firstTargetBlock (numTargetBlocks - firstTargetBlock)).filterMap
    (candidateAt x.blockSize byContent promptTokenIds)

/-- Find the full target blocks whose tokens exist in the named source. -/
def locate (x : GdnDeltaSourceIndex) (request : Request) (nativeCachedTokens : Nat) :
    Option GdnDeltaReusePlan × GdnDeltaSourceIndex :=
  match request.cacheselectSourceRequestId with
  | none => (none, x)
  | some sourceRequestId =>
      let plan := x.plan request sourceRequestId nativeCachedTokens
      match x.getSource sourceRequestId with
      | (none, x) => (some (plan "source_not_indexed" []), x)
      | (some source, x) =>
          if source.cacheSalt ≠ request.cacheSalt then (some (plan "cache_salt_mismatch" []), x)
          else if source.loraAdapterId ≠ loraAdapterId request then (some (plan "lora_mismatch" []), x)
          else
            match request.promptTokenIds with
            | none => (some (plan "token_ids_unavailable" []), x)
            | some promptTokenIds =>
                let candidates := x.locateCandidates source promptTokenIds nativeCachedTokens
                let reason :=
                  if candidates = [] then "no_aligned_candidates" else "aligned_candidates"
                (some (plan reason candidates), x)

/-- Remove all indexed prompt metadata. -/
def clear (x : GdnDeltaSourceIndex) : GdnDeltaSourceIndex :=
  { x with sources := [] }

/-! ### Calls -/

inductive Call
  | index (request : Request)
  | get (requestId : String)
  | locate (request : Request) (nativeCachedTokens : Nat)
  | clear

/-- The index after a call; one that raises changes nothing. -/
def after (sha256 : List UInt8 → ContextualHash) (x : GdnDeltaSourceIndex) : Call →
    GdnDeltaSourceIndex
  | .index request =>
      match x.index sha256 request with
      | .ok x' => x'
      | .error _ => x
  | .get requestId => (x.getSource requestId).2
  | .locate request nativeCachedTokens => (x.locate request nativeCachedTokens).2
  | .clear => x.clear

def run (sha256 : List UInt8 → ContextualHash) (x : GdnDeltaSourceIndex) (calls : List Call) :
    GdnDeltaSourceIndex :=
  calls.foldl (after sha256) x

/-- The hashes of the prompt of a request. -/
def promptHashes (sha256 : List UInt8 → ContextualHash) (blockSize : Nat) (request : Request) :
    Except PyError (List ContextualHash) :=
  buildGdnContextualBlockHashes sha256
    ((request.promptTokenIds.getD []).map fun (t : Nat) => (t : Int)) blockSize request.cacheSalt
    (loraAdapterId request)

/-- A request with a prompt whose blocks can be hashed. -/
def Indexable (sha256 : List UInt8 → ContextualHash) (blockSize : Nat) (request : Request) : Prop :=
  request.promptTokenIds.isSome = true ∧ (promptHashes sha256 blockSize request).toOption.isSome = true

instance (sha256 : List UInt8 → ContextualHash) (blockSize : Nat) (request : Request) :
    Decidable (Indexable sha256 blockSize request) := by
  unfold Indexable; infer_instance

/-- What a call does to an LRU cache of requests. -/
def specAfter (sha256 : List UInt8 → ContextualHash) (blockSize maxSourceRequests : Nat)
    (spec : Lru.Spec String Request) : Call → Lru.Spec String Request
  | .index request =>
      if Indexable sha256 blockSize request then
        spec.store maxSourceRequests request.sourceIndexId request
      else spec
  | .get requestId => spec.touch requestId
  | .locate request _ =>
      match request.cacheselectSourceRequestId with
      | none => spec
      | some sourceRequestId => spec.touch sourceRequestId
  | .clear => spec.clear

def specRun (sha256 : List UInt8 → ContextualHash) (blockSize maxSourceRequests : Nat)
    (calls : List Call) : Lru.Spec String Request :=
  calls.foldl (specAfter sha256 blockSize maxSourceRequests) {}

/-! ### The cache -/

/-- The source that the index keeps of a request. -/
def sourceOf (sha256 : List UInt8 → ContextualHash) (blockSize : Nat) (request : Request) :
    GdnDeltaSourceRequest :=
  sourceRequest blockSize request (request.promptTokenIds.getD [])
    ((promptHashes sha256 blockSize request).toOption.getD [])

variable {sha256 : List UInt8 → ContextualHash} {blockSize maxSourceRequests : Nat}
  {maxCandidateBlocks : Option Nat} {x : GdnDeltaSourceIndex} {spec : Lru.Spec String Request}

theorem popOldest_of_le {κ ν : Type} {n : Nat} {d : List (κ × ν)} (h : d.length ≤ n) :
    popOldest n d = d := by
  cases d with
  | nil => rfl
  | cons e d => exact if_neg (Nat.not_lt.mpr h)

/-- **Putting and dropping the oldest is a store into an LRU cache.** -/
theorem popOldest_put {κ ν : Type} [DecidableEq κ] {n : Nat} {d : List (κ × ν)} (hn : 0 < n)
    (hlen : d.length ≤ n) (k : κ) (v : ν) : popOldest n (put d k v) = Lru.store n d k v := by
  have hle : (erase d k).length ≤ d.length := List.length_filter_le _ d
  have hput : (put d k v).length = (erase d k).length + 1 := by
    rw [put, List.length_append, List.length_singleton]
  rw [Lru.store]
  split
  · next hroom =>
      refine popOldest_of_le ?_
      rcases hroom with hin | hlt
      · obtain ⟨v', hv'⟩ := Option.isSome_iff_exists.mp hin
        have hlt : (erase d k).length < d.length := by
          refine List.length_filter_lt_length_iff_exists.mpr ⟨_, mem_of_get_eq_some hv', ?_⟩
          simp
        omega
      · omega
  · next hfull =>
      rw [not_or, Bool.not_eq_true, Option.isSome_eq_false_iff, Option.isNone_iff_eq_none] at hfull
      have hk : k ∉ keys d := get_eq_none_iff.mp hfull.1
      rw [put, erase_of_not_mem hk]
      cases d with
      | nil =>
          rw [List.length_nil] at hfull
          omega
      | cons e d =>
          rw [List.length_cons] at hlen hfull
          have hover : n < (e :: (d ++ [(k, v)])).length := by
            rw [List.length_cons, List.length_append, List.length_singleton]
            omega
          have hfits : (d ++ [(k, v)]).length ≤ n := by
            rw [List.length_append, List.length_singleton]
            omega
          rw [List.cons_append, popOldest, if_pos hover, popOldest_of_le hfits, List.tail_cons]

theorem mapValues_store {κ ν μ : Type} [DecidableEq κ] (f : ν → μ) (n : Nat) (d : List (κ × ν))
    (k : κ) (v : ν) : mapValues f (Lru.store n d k v) = Lru.store n (mapValues f d) k (f v) := by
  have hlen : (mapValues f d).length = d.length := List.length_map _
  rw [Lru.store, Lru.store, get_mapValues, Option.isSome_map, hlen]
  split
  · exact mapValues_put f d k v
  · rw [mapValues, List.map_append, List.map_tail]
    rfl

theorem index_of_indexable (hx : x.blockSize = blockSize) {request : Request}
    (hr : Indexable sha256 blockSize request) :
    x.index sha256 request = .ok { x with
      sources := popOldest x.maxSourceRequests
        (put x.sources request.sourceIndexId (sourceOf sha256 blockSize request)) } := by
  obtain ⟨hprompt, hhashes⟩ := hr
  obtain ⟨promptTokenIds, hp⟩ := Option.isSome_iff_exists.mp hprompt
  cases hh : promptHashes sha256 blockSize request with
  | error e =>
      rw [hh] at hhashes
      cases hhashes
  | ok hashes =>
      have hbuild := hh
      rw [promptHashes, hp] at hbuild
      rw [index, hp, sourceOf, hh, hp, hx]
      change (do let hashes ← buildGdnContextualBlockHashes _ _ _ _ _; _) = _
      rw [show buildGdnContextualBlockHashes sha256 (promptTokenIds.map fun (t : Nat) => (t : Int))
        blockSize request.cacheSalt (loraAdapterId request) = .ok hashes from hbuild]
      rfl

/-- A request that cannot be indexed changes nothing. -/
theorem after_index_of_not_indexable (hx : x.blockSize = blockSize) {request : Request}
    (hr : ¬ Indexable sha256 blockSize request) : x.after sha256 (.index request) = x := by
  rw [after]
  cases hp : request.promptTokenIds with
  | none => simp only [index, hp]
  | some promptTokenIds =>
      cases hh : promptHashes sha256 blockSize request with
      | ok hashes =>
          refine absurd ⟨?_, ?_⟩ hr
          · rw [hp]
            rfl
          · rw [hh]
            rfl
      | error e =>
          rw [promptHashes, hp] at hh
          simp only [index, hp, hx]
          rw [show buildGdnContextualBlockHashes sha256
            (promptTokenIds.map fun (t : Nat) => (t : Int)) blockSize request.cacheSalt
            (loraAdapterId request) = .error e from hh]
          rfl

theorem getSource_snd (x : GdnDeltaSourceIndex) (requestId : String) :
    (x.getSource requestId).2 = { x with sources := moveToEnd x.sources requestId } := by
  rw [getSource, moveToEnd]
  cases get x.sources requestId with
  | none => rfl
  | some source => rfl

theorem getSource_fst (x : GdnDeltaSourceIndex) (requestId : String) :
    (x.getSource requestId).1 = get x.sources requestId := by
  rw [getSource]
  cases get x.sources requestId with
  | none => rfl
  | some source => rfl

/-- What the index of some sizes is after some calls: a cache of the sources of its requests. -/
structure Represents (sha256 : List UInt8 → ContextualHash) (blockSize maxSourceRequests : Nat)
    (maxCandidateBlocks : Option Nat) (x : GdnDeltaSourceIndex) (spec : Lru.Spec String Request) :
    Prop where
  blockSize_eq : x.blockSize = blockSize
  max_eq : x.maxSourceRequests = maxSourceRequests
  maxCandidate_eq : x.maxCandidateBlocks = maxCandidateBlocks
  sources : ∃ d, x.sources = mapValues (sourceOf sha256 blockSize) d ∧
    Lru.Represents maxSourceRequests d spec
  indexable : ∀ id request, spec.value id = some request →
    Indexable sha256 blockSize request ∧ request.sourceIndexId = id

theorem Represents.get_eq (h : Represents sha256 blockSize maxSourceRequests maxCandidateBlocks x spec)
    (requestId : String) :
    get x.sources requestId = (spec.value requestId).map (sourceOf sha256 blockSize) := by
  obtain ⟨d, hd, hr⟩ := h.sources
  rw [hd, get_mapValues, hr.get_eq]

/-- Using an id. -/
theorem Represents.touch
    (h : Represents sha256 blockSize maxSourceRequests maxCandidateBlocks x spec) (requestId : String) :
    Represents sha256 blockSize maxSourceRequests maxCandidateBlocks (x.getSource requestId).2
      (spec.touch requestId) := by
  obtain ⟨d, hd, hr⟩ := h.sources
  rw [getSource_snd]
  refine ⟨h.blockSize_eq, h.max_eq, h.maxCandidate_eq, ⟨_, ?_, hr.touch requestId⟩, ?_⟩
  · rw [mapValues_moveToEnd, hd]
  · rw [Lru.Spec.touch_value]
    exact h.indexable

theorem locate_snd (x : GdnDeltaSourceIndex) (request : Request) (nativeCachedTokens : Nat) :
    (x.locate request nativeCachedTokens).2 = match request.cacheselectSourceRequestId with
      | none => x
      | some sourceRequestId => (x.getSource sourceRequestId).2 := by
  rw [locate]
  cases request.cacheselectSourceRequestId with
  | none => rfl
  | some sourceRequestId =>
      dsimp only
      generalize x.getSource sourceRequestId = resolved
      obtain ⟨_ | source, x'⟩ := resolved
      · rfl
      · dsimp only
        split
        · rfl
        · split
          · rfl
          · cases request.promptTokenIds with
            | none => rfl
            | some promptTokenIds => rfl

/-- **The step lemma.** -/
theorem Represents.after (hmax : 0 < maxSourceRequests)
    (h : Represents sha256 blockSize maxSourceRequests maxCandidateBlocks x spec) (c : Call) :
    Represents sha256 blockSize maxSourceRequests maxCandidateBlocks (x.after sha256 c)
      (specAfter sha256 blockSize maxSourceRequests spec c) := by
  cases c with
  | index request =>
      by_cases hr : Indexable sha256 blockSize request
      · obtain ⟨d, hd, hrep⟩ := h.sources
        have hlen : (mapValues (sourceOf sha256 blockSize) d).length ≤ maxSourceRequests := by
          rw [mapValues, List.length_map]
          exact hrep.length_le
        rw [specAfter, if_pos hr, GdnDeltaSourceIndex.after, index_of_indexable h.blockSize_eq hr]
        refine ⟨h.blockSize_eq, h.max_eq, h.maxCandidate_eq,
          ⟨_, ?_, hrep.store hmax request.sourceIndexId request⟩, ?_⟩
        · rw [hd, h.max_eq]
          change popOldest _ (put _ _ _) = _
          rw [popOldest_put hmax hlen, mapValues_store]
        · intro id request' hvalue
          change (if id = request.sourceIndexId then some request
            else if id ∈ spec.evicted maxSourceRequests request.sourceIndexId then none
            else spec.value id) = some request' at hvalue
          split at hvalue
          · next hid =>
              cases hvalue
              exact ⟨hr, hid.symm⟩
          · split at hvalue
            · cases hvalue
            · exact h.indexable id request' hvalue
      · rw [specAfter, if_neg hr, after_index_of_not_indexable h.blockSize_eq hr]
        exact h
  | get requestId => exact h.touch requestId
  | locate request nativeCachedTokens =>
      rw [specAfter, GdnDeltaSourceIndex.after, locate_snd]
      cases request.cacheselectSourceRequestId with
      | none => exact h
      | some sourceRequestId => exact h.touch sourceRequestId
  | clear =>
      refine ⟨h.blockSize_eq, h.max_eq, h.maxCandidate_eq, ⟨[], rfl, Lru.Represents.clear spec⟩, ?_⟩
      intro id request hvalue
      cases hvalue

theorem init_ok {x₀ : GdnDeltaSourceIndex}
    (hinit : init blockSize maxSourceRequests maxCandidateBlocks = .ok x₀) :
    0 < blockSize ∧ 0 < maxSourceRequests ∧
      Represents sha256 blockSize maxSourceRequests maxCandidateBlocks x₀ {} := by
  rw [init] at hinit
  split at hinit
  · cases hinit
  · split at hinit
    · cases hinit
    · split at hinit
      · cases hinit
      · cases hinit
        refine ⟨by omega, by omega, rfl, rfl, rfl, ⟨[], rfl, Lru.Represents.empty _⟩, ?_⟩
        intro id request hvalue
        cases hvalue

/-- The run lemma. -/
theorem represents_run {x₀ : GdnDeltaSourceIndex}
    (hinit : init blockSize maxSourceRequests maxCandidateBlocks = .ok x₀) (calls : List Call) :
    Represents sha256 blockSize maxSourceRequests maxCandidateBlocks (run sha256 x₀ calls)
      (specRun sha256 blockSize maxSourceRequests calls) := by
  obtain ⟨-, hmax, h₀⟩ := @init_ok sha256 _ _ _ _ hinit
  induction calls using List.reverseRecOn with
  | nil => exact h₀
  | append_singleton calls c ih =>
      rw [run, specRun, List.foldl_concat, List.foldl_concat]
      exact ih.after hmax c

/-! ### Candidates -/

/-- A block of the source that may be a candidate, with the tokens of a target block. -/
structure SourceMatch (blockSize : Nat) (maxCandidateBlocks : Option Nat) (source target : List Nat)
    (j i : Nat) : Prop where
  full : j < source.length / blockSize
  retained : ∀ n ∈ maxCandidateBlocks, source.length / blockSize ≤ j + n
  tokens : (source.drop (j * blockSize)).take blockSize = (target.drop (i * blockSize)).take blockSize

/-- The match that is nearest to the target block, the lower of two. -/
structure NearestMatch (blockSize : Nat) (maxCandidateBlocks : Option Nat) (source target : List Nat)
    (j i : Nat) : Prop extends SourceMatch blockSize maxCandidateBlocks source target j i where
  nearest : ∀ j', SourceMatch blockSize maxCandidateBlocks source target j' i →
    ((j : Int) - i).natAbs < ((j' : Int) - i).natAbs ∨
      ((j : Int) - i).natAbs = ((j' : Int) - i).natAbs ∧ j ≤ j'

/-- The candidates that the prompts of a source and a target give. -/
structure MatchedCandidates (sha256 : List UInt8 → ContextualHash) (blockSize : Nat)
    (maxCandidateBlocks : Option Nat) (request : Request) (source target : List Nat)
    (nativeCachedTokens : Nat) (candidates : List GdnDeltaReuseCandidate) : Prop where
  ordered : candidates.Pairwise fun c c' => c.targetBlockIndex < c'.targetBlockIndex
  target_iff : ∀ i, (∃ c ∈ candidates, c.targetBlockIndex = i) ↔
    nativeCachedTokens ≤ i * blockSize ∧ (i + 1) * blockSize ≤ target.length ∧
      ∃ j, SourceMatch blockSize maxCandidateBlocks source target j i
  nearest : ∀ c ∈ candidates, NearestMatch blockSize maxCandidateBlocks source target
    c.sourceBlockIndex c.targetBlockIndex
  hash : ∀ c ∈ candidates, ∃ hashes, buildGdnContextualBlockHashes sha256
      ((source.take ((c.sourceBlockIndex + 1) * blockSize)).map fun (t : Nat) => (t : Int)) blockSize
      request.cacheSalt (loraAdapterId request) = .ok hashes ∧
    hashes.getLast? = some c.sourceContextualHash

/-- The blocks of a source, with the hashes of its prompt. -/
theorem blocks_sourceOf {request : Request} {source : List Nat} {hashes : List ContextualHash}
    (hp : request.promptTokenIds = some source)
    (hh : promptHashes sha256 blockSize request = .ok hashes) :
    hashes.length = source.length / blockSize ∧
      (sourceOf sha256 blockSize request).blocks = (List.range (source.length / blockSize)).map fun i =>
        { blockIndex := i
          tokenIds := (source.drop (i * blockSize)).take blockSize
          contextualHash := hashes.getD i [] } := by
  have hlen : hashes.length = source.length / blockSize := by
    rw [promptHashes, hp] at hh
    obtain ⟨bytes, -, hblocks⟩ := buildGdnContextualBlockHashes_eq_ok hh
    rw [length_hashBlocks hblocks, fullBlocks, List.length_map, List.length_range, Option.getD_some,
      List.length_map]
  refine ⟨hlen, ?_⟩
  rw [sourceOf, hh, hp]
  change (List.range (min (source.length / blockSize) hashes.length)).map _ = _
  rw [hlen, Nat.min_self]
  rfl

/-- The blocks that may be candidates are the last ones. -/
theorem mem_candidateSourceBlocks (hx : x.maxCandidateBlocks = maxCandidateBlocks)
    {source : GdnDeltaSourceRequest} {n : Nat} {f : Nat → GdnDeltaSourceBlock}
    (hblocks : source.blocks = (List.range n).map f) {block : GdnDeltaSourceBlock} :
    block ∈ x.candidateSourceBlocks source ↔
      ∃ j, j < n ∧ (∀ k ∈ maxCandidateBlocks, n ≤ j + k) ∧ block = f j := by
  rw [candidateSourceBlocks, hx]
  cases maxCandidateBlocks with
  | none =>
      dsimp only
      rw [hblocks, List.mem_map]
      constructor
      · rintro ⟨j, hj, rfl⟩
        refine ⟨j, List.mem_range.mp hj, ?_, rfl⟩
        intro k hk
        cases hk
      · rintro ⟨j, hj, -, rfl⟩
        exact ⟨j, List.mem_range.mpr hj, rfl⟩
  | some k =>
      dsimp only
      rw [hblocks, List.length_map, List.length_range, ← List.map_drop, List.mem_map,
        List.range_eq_range', List.drop_range']
      constructor
      · rintro ⟨j, hj, rfl⟩
        rw [List.mem_range'_1] at hj
        refine ⟨j, by omega, ?_, rfl⟩
        intro k' hk
        cases hk
        omega
      · rintro ⟨j, hj, hk, rfl⟩
        have := hk k rfl
        refine ⟨j, ?_, rfl⟩
        rw [List.mem_range'_1]
        omega

theorem candidateAt_eq_some {blocks : List GdnDeltaSourceBlock} {target : List Nat} {i : Nat}
    {c : GdnDeltaReuseCandidate}
    (h : candidateAt blockSize (grouped GdnDeltaSourceBlock.tokenIds id blocks) target i = some c) :
    ∃ block ∈ blocks, block.tokenIds = (target.drop (i * blockSize)).take blockSize ∧
      c = ⟨block.blockIndex, i, block.contextualHash⟩ ∧
      ∀ b ∈ blocks, b.tokenIds = (target.drop (i * blockSize)).take blockSize →
        distanceKey i block ≤ distanceKey i b := by
  rw [candidateAt, get_grouped] at h
  split at h
  · cases h
  · next sourceBlocks hget =>
      split at hget
      · cases hget
        obtain ⟨block, hmin, rfl⟩ := Option.map_eq_some_iff.mp h
        rw [List.map_id] at hmin
        obtain ⟨hmem, htokens⟩ := List.mem_filter.mp (List.argmin_mem hmin)
        refine ⟨block, hmem, of_decide_eq_true htokens, rfl, ?_⟩
        intro b hb hbt
        exact List.le_of_mem_argmin (List.mem_filter.mpr ⟨hb, decide_eq_true hbt⟩) hmin
      · cases hget

theorem candidateAt_eq_none {blocks : List GdnDeltaSourceBlock} {target : List Nat} {i : Nat}
    (h : candidateAt blockSize (grouped GdnDeltaSourceBlock.tokenIds id blocks) target i = none) :
    ∀ b ∈ blocks, b.tokenIds ≠ (target.drop (i * blockSize)).take blockSize := by
  intro b hb hbt
  rw [candidateAt, get_grouped] at h
  rw [if_pos (List.mem_map.mpr ⟨b, hb, hbt⟩)] at h
  dsimp only at h
  rw [Option.map_eq_none_iff, List.argmin_eq_none, List.map_id] at h
  have : b ∈ ([] : List GdnDeltaSourceBlock) := by
    rw [← h]
    exact List.mem_filter.mpr ⟨hb, decide_eq_true hbt⟩
  cases this

/-- The order of the distance keys. -/
theorem distanceKey_le_iff {i : Nat} {block block' : GdnDeltaSourceBlock} :
    distanceKey i block ≤ distanceKey i block' ↔
      ((block.blockIndex : Int) - i).natAbs < ((block'.blockIndex : Int) - i).natAbs ∨
        ((block.blockIndex : Int) - i).natAbs = ((block'.blockIndex : Int) - i).natAbs ∧
          block.blockIndex ≤ block'.blockIndex := by
  rw [distanceKey, distanceKey, Prod.Lex.toLex_le_toLex]

/-- **The candidates of a source and a target.** -/
theorem matchedCandidates_locateCandidates (hbs : 0 < blockSize) (hx : x.blockSize = blockSize)
    (hmax : x.maxCandidateBlocks = maxCandidateBlocks) {request : Request} {source : List Nat}
    {hashes : List ContextualHash} (hp : request.promptTokenIds = some source)
    (hh : promptHashes sha256 blockSize request = .ok hashes) (target : List Nat)
    (nativeCachedTokens : Nat) :
    MatchedCandidates sha256 blockSize maxCandidateBlocks request source target nativeCachedTokens
      (x.locateCandidates (sourceOf sha256 blockSize request) target nativeCachedTokens) := by
  obtain ⟨hlen, hblocks⟩ := blocks_sourceOf hp hh
  have hmem := @mem_candidateSourceBlocks maxCandidateBlocks x hmax _ _ _ hblocks
  have hmatch : ∀ {i : Nat}, (∃ block ∈ x.candidateSourceBlocks (sourceOf sha256 blockSize request),
      block.tokenIds = (target.drop (i * blockSize)).take blockSize) ↔
        ∃ j, SourceMatch blockSize maxCandidateBlocks source target j i := by
    intro i
    constructor
    · rintro ⟨block, hblock, htokens⟩
      obtain ⟨j, hj, hret, rfl⟩ := hmem.mp hblock
      exact ⟨j, hj, hret, htokens⟩
    · rintro ⟨j, hj⟩
      exact ⟨_, hmem.mpr ⟨j, hj.full, hj.retained, rfl⟩, hj.tokens⟩
  have hrange : ∀ {i : Nat}, i ∈ List.range' ((nativeCachedTokens + blockSize - 1) / blockSize)
      (target.length / blockSize - (nativeCachedTokens + blockSize - 1) / blockSize) ↔
        nativeCachedTokens ≤ i * blockSize ∧ (i + 1) * blockSize ≤ target.length := by
    intro i
    have hfirst : (nativeCachedTokens + blockSize - 1) / blockSize ≤ i ↔
        nativeCachedTokens ≤ i * blockSize := by
      rw [← Nat.lt_succ_iff, Nat.div_lt_iff_lt_mul hbs, Nat.succ_eq_add_one, Nat.add_mul]
      omega
    have hlast : i + 1 ≤ target.length / blockSize ↔ (i + 1) * blockSize ≤ target.length :=
      Nat.le_div_iff_mul_le hbs
    rw [List.mem_range'_1, ← hfirst, ← hlast]
    omega
  have hcand : ∀ c, c ∈ x.locateCandidates (sourceOf sha256 blockSize request) target
      nativeCachedTokens → NearestMatch blockSize maxCandidateBlocks source target
        c.sourceBlockIndex c.targetBlockIndex ∧
      c.sourceContextualHash = hashes.getD c.sourceBlockIndex [] ∧
      nativeCachedTokens ≤ c.targetBlockIndex * blockSize ∧
      (c.targetBlockIndex + 1) * blockSize ≤ target.length := by
    intro c hc
    rw [locateCandidates, hx] at hc
    obtain ⟨i, hi, hat⟩ := List.mem_filterMap.mp hc
    obtain ⟨block, hblock, htokens, rfl, hbest⟩ := candidateAt_eq_some hat
    obtain ⟨j, hj, hret, rfl⟩ := hmem.mp hblock
    refine ⟨⟨⟨hj, hret, htokens⟩, ?_⟩, rfl, hrange.mp hi⟩
    intro j' hj'
    exact distanceKey_le_iff.mp (hbest _ (hmem.mpr ⟨j', hj'.full, hj'.retained, rfl⟩) hj'.tokens)
  refine ⟨?_, ?_, fun c hc => (hcand c hc).1, ?_⟩
  · rw [locateCandidates, hx]
    refine List.Pairwise.filterMap _ ?_ List.pairwise_lt_range'
    intro i i' hii c hc c' hc'
    obtain ⟨-, -, -, rfl, -⟩ := candidateAt_eq_some hc
    obtain ⟨-, -, -, rfl, -⟩ := candidateAt_eq_some hc'
    exact hii
  · intro i
    constructor
    · rintro ⟨c, hc, rfl⟩
      obtain ⟨hnear, -, hnative, hfull⟩ := hcand c hc
      exact ⟨hnative, hfull, _, hnear.toSourceMatch⟩
    · rintro ⟨hnative, hfull, hj⟩
      obtain ⟨block, hblock, htokens⟩ := hmatch.mpr hj
      rw [locateCandidates, hx]
      cases hat : candidateAt blockSize (grouped GdnDeltaSourceBlock.tokenIds id
          (x.candidateSourceBlocks (sourceOf sha256 blockSize request))) target i with
      | none => exact absurd htokens (candidateAt_eq_none hat block hblock)
      | some c =>
          refine ⟨c, List.mem_filterMap.mpr ⟨i, hrange.mpr ⟨hnative, hfull⟩, hat⟩, ?_⟩
          obtain ⟨-, -, -, rfl, -⟩ := candidateAt_eq_some hat
          rfl
  · intro c hc
    obtain ⟨hnear, hhash, -, -⟩ := hcand c hc
    have hj : c.sourceBlockIndex < hashes.length := by
      rw [hlen]
      exact hnear.full
    rw [promptHashes, hp] at hh
    have hprefix := buildGdnContextualBlockHashes_prefix hh hj
    rw [← List.map_take] at hprefix
    refine ⟨_, hprefix, ?_⟩
    have hlast : (hashes.take (c.sourceBlockIndex + 1)).length - 1 = c.sourceBlockIndex := by
      rw [List.length_take]
      omega
    rw [hhash, List.getLast?_eq_getElem?, hlast, List.getElem?_take_of_lt (Nat.lt_succ_self _),
      List.getElem?_eq_getElem hj, List.getD_eq_getElem?_getD, List.getElem?_eq_getElem hj,
      Option.getD_some]

/-! ### Plans -/

/-- The named source is indexed, in the namespace of the target, and both have prompts. -/
structure Usable (spec : Lru.Spec String Request) (request : Request) (sourceRequestId : String)
    (source : Request) (sourceTokens targetTokens : List Nat) : Prop where
  indexed : spec.value sourceRequestId = some source
  cacheSalt : source.cacheSalt = request.cacheSalt
  lora : loraAdapterId source = loraAdapterId request
  sourceTokens : source.promptTokenIds = some sourceTokens
  targetTokens : request.promptTokenIds = some targetTokens

/-- The plan for a request that names a source. -/
structure PlanOf (sha256 : List UInt8 → ContextualHash) (blockSize : Nat)
    (maxCandidateBlocks : Option Nat) (spec : Lru.Spec String Request) (request : Request)
    (sourceRequestId : String) (nativeCachedTokens : Nat) (plan : GdnDeltaReusePlan) : Prop where
  sourceRequestId_eq : plan.sourceRequestId = sourceRequestId
  targetRequestId_eq : plan.targetRequestId = request.sourceIndexId
  blockSize_eq : plan.blockSize = blockSize
  nativeCachedTokens_eq : plan.nativeCachedTokens = nativeCachedTokens
  matched : ∀ source sourceTokens targetTokens,
    Usable spec request sourceRequestId source sourceTokens targetTokens →
      MatchedCandidates sha256 blockSize maxCandidateBlocks source sourceTokens targetTokens
        nativeCachedTokens plan.candidates
  empty : (¬ ∃ source sourceTokens targetTokens,
    Usable spec request sourceRequestId source sourceTokens targetTokens) → plan.candidates = []

theorem Represents.planOf (hbs : 0 < blockSize)
    (h : Represents sha256 blockSize maxSourceRequests maxCandidateBlocks x spec) (request : Request)
    (nativeCachedTokens : Nat) {sourceRequestId : String}
    (hid : request.cacheselectSourceRequestId = some sourceRequestId) :
    ∃ plan, (x.locate request nativeCachedTokens).1 = some plan ∧
      PlanOf sha256 blockSize maxCandidateBlocks spec request sourceRequestId nativeCachedTokens
        plan := by
  have hget := h.get_eq sourceRequestId
  have hempty : ∀ reason, (∀ source sourceTokens targetTokens,
      ¬ Usable spec request sourceRequestId source sourceTokens targetTokens) →
      PlanOf sha256 blockSize maxCandidateBlocks spec request sourceRequestId nativeCachedTokens
        (x.plan request sourceRequestId nativeCachedTokens reason []) := by
    intro reason hno
    refine ⟨rfl, rfl, h.blockSize_eq, rfl, ?_, fun _ => rfl⟩
    intro source sourceTokens targetTokens hu
    exact absurd hu (hno source sourceTokens targetTokens)
  cases hvalue : spec.value sourceRequestId with
  | none =>
      rw [hvalue, Option.map_none] at hget
      refine ⟨x.plan request sourceRequestId nativeCachedTokens "source_not_indexed" [], ?_, ?_⟩
      · simp only [locate, hid, getSource, hget]
      · refine hempty _ ?_
        intro source sourceTokens targetTokens hu
        cases hvalue.symm.trans hu.indexed
  | some source =>
      rw [hvalue, Option.map_some] at hget
      obtain ⟨⟨hprompt, hhashes⟩, -⟩ := h.indexable _ _ hvalue
      have hsame : ∀ source' sourceTokens targetTokens,
          Usable spec request sourceRequestId source' sourceTokens targetTokens → source' = source := by
        intro source' sourceTokens targetTokens hu
        exact Option.some.inj (hu.indexed.symm.trans hvalue)
      by_cases hsalt : source.cacheSalt = request.cacheSalt
      · have hsalt' : ¬ (sourceOf sha256 blockSize source).cacheSalt ≠ request.cacheSalt :=
          not_not_intro hsalt
        by_cases hlora : loraAdapterId source = loraAdapterId request
        · have hlora' : ¬ (sourceOf sha256 blockSize source).loraAdapterId ≠ loraAdapterId request :=
            not_not_intro hlora
          cases hp : request.promptTokenIds with
          | none =>
              refine ⟨x.plan request sourceRequestId nativeCachedTokens "token_ids_unavailable" [],
                ?_, ?_⟩
              · simp only [locate, hid, getSource, hget]
                rw [if_neg hsalt', if_neg hlora', hp]
              · refine hempty _ ?_
                intro source' sourceTokens targetTokens hu
                cases hp.symm.trans hu.targetTokens
          | some targetTokens =>
              have hloc : (x.locate request nativeCachedTokens).1 = some (x.plan request
                  sourceRequestId nativeCachedTokens
                  (if x.locateCandidates (sourceOf sha256 blockSize source) targetTokens
                    nativeCachedTokens = [] then "no_aligned_candidates" else "aligned_candidates")
                  (x.locateCandidates (sourceOf sha256 blockSize source) targetTokens
                    nativeCachedTokens)) := by
                simp only [locate, hid, getSource, hget]
                rw [if_neg hsalt', if_neg hlora', hp]
                rfl
              refine ⟨_, hloc, rfl, rfl, h.blockSize_eq, rfl, ?_, ?_⟩
              · intro source' sourceTokens targetTokens' hu
                cases hsame _ _ _ hu
                cases hp.symm.trans hu.targetTokens
                obtain ⟨hashes, hh⟩ := Option.isSome_iff_exists.mp hhashes
                cases hph : promptHashes sha256 blockSize source with
                | error e =>
                    rw [hph] at hh
                    cases hh
                | ok hashes =>
                    exact matchedCandidates_locateCandidates hbs h.blockSize_eq h.maxCandidate_eq
                      hu.sourceTokens hph targetTokens nativeCachedTokens
              · intro hno
                obtain ⟨sourceTokens, hs⟩ := Option.isSome_iff_exists.mp hprompt
                exact absurd ⟨source, sourceTokens, targetTokens, hvalue, hsalt, hlora, hs, hp⟩ hno
        · refine ⟨x.plan request sourceRequestId nativeCachedTokens "lora_mismatch" [], ?_, ?_⟩
          · simp only [locate, hid, getSource, hget]
            rw [if_neg hsalt']
            exact congrArg Prod.fst (if_pos hlora)
          · refine hempty _ ?_
            intro source' sourceTokens targetTokens hu
            cases hsame _ _ _ hu
            exact hlora hu.lora
      · refine ⟨x.plan request sourceRequestId nativeCachedTokens "cache_salt_mismatch" [], ?_, ?_⟩
        · simp only [locate, hid, getSource, hget]
          exact congrArg Prod.fst (if_pos hsalt)
        · refine hempty _ ?_
          intro source' sourceTokens targetTokens hu
          cases hsame _ _ _ hu
          exact hsalt hu.cacheSalt

/-- **The index and its plans.**  After any calls the index holds at most its maximum of sources, in the order
of their last uses, where indexing a source and looking it up are the uses, and each id has what the latest
`index` call for it gives unless it was evicted or cleared since.  A request that names a source gets a plan
with one candidate for each full target block past the native prefix whose tokens some retained block of the
source has; the candidate names the nearest such block and the contextual hash of the source's prompt through
it.  The plan is empty when the source is not indexed or is in another namespace. -/
theorem source_index_exact {x₀ : GdnDeltaSourceIndex}
    (hinit : init blockSize maxSourceRequests maxCandidateBlocks = .ok x₀) (calls : List Call) :
    let x := run sha256 x₀ calls
    let spec := specRun sha256 blockSize maxSourceRequests calls
    x.sources.length ≤ maxSourceRequests ∧
    (∀ id, id ∈ keys x.sources ↔ id ∈ spec.resident) ∧
    ((keys x.sources).Pairwise fun id id' => spec.lastUse id < spec.lastUse id') ∧
    (∀ id, (x.getSource id).1 = (spec.value id).map (sourceOf sha256 blockSize)) ∧
    ∀ (request : Request) (nativeCachedTokens : Nat),
      (request.cacheselectSourceRequestId = none → (x.locate request nativeCachedTokens).1 = none) ∧
      ∀ sourceRequestId, request.cacheselectSourceRequestId = some sourceRequestId →
        ∃ plan, (x.locate request nativeCachedTokens).1 = some plan ∧
          PlanOf sha256 blockSize maxCandidateBlocks spec request sourceRequestId nativeCachedTokens
            plan := by
  intro x spec
  obtain ⟨hbs, -, -⟩ := @init_ok sha256 _ _ _ _ hinit
  have h : Represents sha256 blockSize maxSourceRequests maxCandidateBlocks x spec :=
    represents_run hinit calls
  obtain ⟨d, hd, hr⟩ := h.sources
  have hkeys : keys x.sources = keys d := by rw [hd, keys_mapValues]
  refine ⟨?_, ?_, ?_, ?_, ?_⟩
  · rw [hd, mapValues, List.length_map]
    exact hr.length_le
  · intro id
    rw [hkeys]
    exact hr.mem_keys id
  · rw [hkeys]
    exact hr.ordered
  · intro id
    rw [getSource_fst]
    exact h.get_eq id
  · intro request nativeCachedTokens
    refine ⟨?_, ?_⟩
    · intro hnone
      rw [locate, hnone]
    · intro sourceRequestId hid
      exact h.planOf hbs request nativeCachedTokens hid

/-- A request with four prompt tokens. -/
def sampleSource : Request where
  requestId := "source"
  promptTokenIds := some [1, 2, 1, 2]

def sampleTarget : Request where
  requestId := "target"
  promptTokenIds := some [1, 2]
  cacheselectSourceRequestId := some "source"

/-- Both blocks of the source are those of the target; only the last one is retained. -/
theorem retained_candidate : ∃ x₀, init 2 2 (some 1) = .ok x₀ ∧
    ∃ plan, ((run id x₀ [.index sampleSource]).locate sampleTarget 0).1 = some plan ∧
      ∃ c ∈ plan.candidates, c.targetBlockIndex = 0 ∧ c.sourceBlockIndex = 1 := by
  obtain ⟨x₀, hinit⟩ : ∃ x₀, init 2 2 (some 1) = .ok x₀ := ⟨_, rfl⟩
  obtain ⟨-, -, -, -, hlocate⟩ := @source_index_exact id _ _ _ _ hinit [.index sampleSource]
  obtain ⟨plan, hplan, hof⟩ := (hlocate sampleTarget 0).2 "source" rfl
  have hvalue : (specRun id 2 2 [.index sampleSource]).value "source" = some sampleSource := by
    have hindexable : Indexable id 2 sampleSource := by decide
    rw [specRun, List.foldl_cons, specAfter, if_pos hindexable]
    rfl
  have hmatched := hof.matched sampleSource [1, 2, 1, 2] [1, 2] ⟨hvalue, rfl, rfl, rfl, rfl⟩
  obtain ⟨c, hc, htarget⟩ := (hmatched.target_iff 0).mpr
    ⟨by decide, by decide, 1, by decide, by decide, rfl⟩
  have hretained := (hmatched.nearest c hc).retained 1 rfl
  have hfull := (hmatched.nearest c hc).full
  refine ⟨x₀, hinit, plan, hplan, c, hc, htarget, ?_⟩
  have h₁ : 1 ≤ c.sourceBlockIndex := by simpa using hretained
  have h₂ : c.sourceBlockIndex < 2 := by simpa using hfull
  omega

end GdnDeltaSourceIndex

end CacheSelect.Gdn
