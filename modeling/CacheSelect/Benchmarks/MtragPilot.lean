import CacheSelect.Benchmarks.CounterfactualWorkflow
import CacheSelect.Core.LocatorRuns
import CacheSelect.Features.OpportunityReport

/-! # Frozen block plans

Before a run the coverage analysis compares two rendered prompts (`analyzeTransition`), and the pilot freezes the
blocks of the later one that can be tested (`mtragTestableBlocks`).  During the run the locator of the server finds
the candidates itself, and the run stops where they are not the frozen ones.

The two searches are written independently.  Both amount to `reusableBlocks`: the full blocks behind the native hit
whose tokens are a window of the source's full blocks, an aligned one unless repacking is on (`executable`).  The
analysis goes over all windows of the source prompt and filters its findings (`offline_blocks`), the locator only
goes over the windows whose blocks are all indexed (`live_blocks`).
-/

namespace CacheSelect.Benchmarks

open CacheSelect.Core Features AlignedBlockReuseLocator

/-! ### Coverage -/

/-- A prompt as the tokenizer renders it; `_single_token_ids` rejects an empty one. -/
structure RenderedPrompt where
  tokenIds : List Nat
  tokenIds_ne : tokenIds ≠ []

/-- A candidate of a coverage row; a field is `none` where it is missing or of another type. -/
structure CoverageCandidate where
  currentBlockIndex : Option Int := none
  previousStarts : Option (List (Option Int)) := none
  hasWholeSourceBlock : Option Bool := none
deriving DecidableEq, Repr

structure CoverageOpportunity where
  previousTokenCount : Option Int := none
  currentTokenCount : Option Int := none
  candidateBlocks : Option (List (Option CoverageCandidate)) := none
deriving DecidableEq, Repr

structure CoverageRow where
  reuseOpportunity : Option CoverageOpportunity := none
deriving DecidableEq, Repr

def candidateDict (c : CandidateBlock) : CoverageCandidate where
  currentBlockIndex := some c.currentBlockIndex
  previousStarts := some (c.previousStarts.map fun (start : Nat) => some (start : Int))
  hasWholeSourceBlock := some c.hasWholeSourceBlock

/-- `to_dict`, as far as the pilot reads it. -/
def opportunityDict (o : ReuseOpportunity) : CoverageOpportunity where
  previousTokenCount := some o.previousTokenCount
  currentTokenCount := some o.currentTokenCount
  candidateBlocks := some (o.candidateBlocks.map fun c => some (candidateDict c))

def coverageRow (o : ReuseOpportunity) : CoverageRow where
  reuseOpportunity := some (opportunityDict o)

/-- The native hit that the coverage analysis assumes. -/
def estimatedNativeCachedTokens (previous current : RenderedPrompt) (blockSize : Nat) : Nat :=
  (locateChangedTokenRegion previous.tokenIds current.tokenIds).currentStart / blockSize * blockSize

/-- `_analyze_transition`, for the two rendered prompts. -/
def analyzeTransition (previous current : RenderedPrompt) (blockSize : Nat) : Except PyError CoverageRow :=
  (analyzeReuseOpportunity previous.tokenIds current.tokenIds
    (estimatedNativeCachedTokens previous current blockSize) blockSize).map coverageRow

/-! ### The pilot -/

structure TestableBlocks where
  candidateBlocks : List Int
  testable : List Int
  excluded : Option Int
deriving DecidableEq, Repr

def CoverageCandidate.hasSourcePositions (c : CoverageCandidate) : Bool :=
  c.previousStarts.any fun starts => starts.all fun start => start.any fun s => 0 ≤ s

/-- Whether a candidate can be copied; unless repacking is on, only `has_whole_source_block` counts. -/
def CoverageCandidate.isExecutable (c : CoverageCandidate) (blockSize fullSourceTokens : Int)
    (includeRepacking : Bool) : Bool :=
  c.hasWholeSourceBlock == some true ||
    includeRepacking && ((c.previousStarts.getD []).any fun start =>
      start.any fun s => s + blockSize ≤ fullSourceTokens)

/-- The loop body of `mtrag_testable_blocks`: the index of an executable candidate. -/
def executableCandidate (blockSize promptTokens fullSourceTokens : Int) (includeRepacking : Bool) :
    Option CoverageCandidate → Except Raised (Option Int)
  | none => .error (.valueError "coverage candidate must be an object")
  | some candidate =>
      match candidate.currentBlockIndex with
      | none => .error (.valueError "coverage candidate has an invalid block index")
      | some index =>
          if index < 0 then .error (.valueError "coverage candidate has an invalid block index")
          else if promptTokens < (index + 1) * blockSize then
            .error (.valueError "coverage candidate is outside the full prompt blocks")
          else if includeRepacking = true ∧ candidate.hasSourcePositions = false then
            .error (.valueError "coverage candidate has invalid source positions")
          else .ok
            (if candidate.isExecutable blockSize fullSourceTokens includeRepacking then some index else none)

/-- `mtrag_testable_blocks`; its callers pass a positive block size. -/
def mtragTestableBlocks (row : CoverageRow) (blockSize : Nat) (includeRepacking : Bool) :
    Except Raised TestableBlocks :=
  match row.reuseOpportunity with
  | none => .error (.valueError "coverage transition has no reuse opportunity")
  | some opportunity =>
      match opportunity.candidateBlocks, opportunity.currentTokenCount with
      | some candidates, some promptTokens =>
          if promptTokens < 1 then
            .error (.valueError "coverage transition has invalid candidate metadata")
          else if includeRepacking = true ∧ (opportunity.previousTokenCount.any fun n => 1 ≤ n) = false then
            .error (.valueError "coverage transition has invalid source-token metadata")
          else do
            let fullSourceTokens := opportunity.previousTokenCount.getD 0 / blockSize * blockSize
            let executable ← candidates.mapM
              (executableCandidate blockSize promptTokens fullSourceTokens includeRepacking)
            let candidateBlocks := sortedInts (executable.filterMap id)
            if ¬ candidateBlocks.Nodup then
              .error (.valueError "coverage transition has duplicate candidates")
            else
              let outputBlock := (promptTokens - 1) / blockSize
              .ok {
                candidateBlocks
                testable := candidateBlocks.filter fun index => index ≠ outputBlock
                excluded := if outputBlock ∈ candidateBlocks then some outputBlock else none }
      | _, _ => .error (.valueError "coverage transition has invalid candidate metadata")

/-! ### Reusable blocks -/

/-- A block's tokens are a window of the full blocks of the source. -/
def executable (sourceTokens block : List Nat) (blockSize : Nat) (repacking : Bool) : Bool :=
  (List.range (sourceTokens.length / blockSize * blockSize + 1 - blockSize)).any fun start =>
    (repacking || start % blockSize == 0) && (sourceTokens.drop start).take blockSize == block

/-- The full blocks of a prompt behind the native hit. -/
def recomputedBlocks (tokens : List Nat) (nativeCachedTokens blockSize : Nat) : List Nat :=
  let first := (nativeCachedTokens + blockSize - 1) / blockSize
  List.range' first (tokens.length / blockSize - first)

def reusableBlocks (sourceTokens tokens : List Nat) (nativeCachedTokens blockSize : Nat) (repacking : Bool) :
    List Nat :=
  (recomputedBlocks tokens nativeCachedTokens blockSize).filter fun t =>
    executable sourceTokens ((tokens.drop (t * blockSize)).take blockSize) blockSize repacking

/-- The block of the last prompt token. -/
def HoldsLastToken (tokens : List Nat) (blockSize : Nat) (t : Int) : Prop :=
  t * blockSize < tokens.length ∧ (tokens.length : Int) ≤ (t + 1) * blockSize

/-- What may be tested of a prompt's reusable blocks. -/
def testableOf (blocks : List Nat) (promptTokens blockSize : Nat) : TestableBlocks :=
  let candidateBlocks := blocks.map Int.ofNat
  let outputBlock := ((promptTokens : Int) - 1) / blockSize
  { candidateBlocks
    testable := candidateBlocks.filter fun index => index ≠ outputBlock
    excluded := if outputBlock ∈ candidateBlocks then some outputBlock else none }

theorem executable_iff {sourceTokens block : List Nat} {bs : Nat} {repacking : Bool} :
    executable sourceTokens block bs repacking = true ↔
      ∃ start, start + bs ≤ sourceTokens.length / bs * bs ∧ (repacking = true ∨ start % bs = 0) ∧
        (sourceTokens.drop start).take bs = block := by
  simp only [executable, List.any_eq_true, List.mem_range, Bool.and_eq_true, Bool.or_eq_true, beq_iff_eq]
  constructor
  · rintro ⟨start, hlt, h⟩
    exact ⟨start, by omega, h⟩
  · rintro ⟨start, hle, h⟩
    exact ⟨start, by omega, h⟩

theorem holdsLastToken_iff {tokens : List Nat} (hne : tokens ≠ []) {bs : Nat} (hbs : 0 < bs) (t : Int) :
    HoldsLastToken tokens bs t ↔ t = ((tokens.length : Int) - 1) / bs := by
  have hpos : 0 < tokens.length := List.length_pos_iff.mpr hne
  have hbs' : (0 : Int) < bs := by exact_mod_cast hbs
  rw [HoldsLastToken, eq_comm, Int.ediv_eq_iff_of_pos hbs', Int.add_mul, Int.one_mul]
  constructor
  · rintro ⟨h1, h2⟩
    exact ⟨by omega, by omega⟩
  · rintro ⟨h1, h2⟩
    exact ⟨by omega, by omega⟩

theorem mem_recomputedBlocks {tokens : List Nat} {native bs t : Nat}
    (h : t ∈ recomputedBlocks tokens native bs) :
    (native + bs - 1) / bs ≤ t ∧ t < tokens.length / bs := by
  rw [recomputedBlocks, List.mem_range'_1] at h
  omega

theorem pairwise_reusableBlocks (sourceTokens tokens : List Nat) (native bs : Nat) (repacking : Bool) :
    (reusableBlocks sourceTokens tokens native bs repacking).Pairwise (· < ·) :=
  (List.pairwise_lt_range' _).sublist List.filter_sublist

/-- Sorting finds the blocks in order. -/
theorem sortedInts_of_pairwise {blocks : List Nat} (h : blocks.Pairwise (· < ·)) :
    sortedInts (blocks.map Int.ofNat) = blocks.map Int.ofNat := by
  refine List.Pairwise.insertionSort_eq (List.pairwise_map.mpr (h.imp ?_))
  intro a b hab
  exact Int.ofNat_le.mpr hab.le

theorem nodup_of_pairwise {blocks : List Nat} (h : blocks.Pairwise (· < ·)) :
    (blocks.map Int.ofNat).Nodup :=
  List.Nodup.map (fun _ _ => Int.ofNat.inj) (h.imp Nat.ne_of_lt)

/-- A search that finds the tested blocks, each under its index. -/
theorem map_filterMap_eq_filter {α β : Type} {f : α → Option β} {g : β → α} {p : α → Bool} {l : List α}
    (h : ∀ a ∈ l, (f a).map g = if p a then some a else none) :
    (l.filterMap f).map g = l.filter p := by
  rw [List.map_filterMap, ← List.filterMap_eq_filter]
  refine List.filterMap_congr ?_
  intro a ha
  rw [h a ha, Option.guard_def]

/-! ### The analysis -/

/-- An aligned window of a prompt lies in its full blocks. -/
theorem aligned_window_le {start bs n : Nat} (hbs : 0 < bs) (hal : start % bs = 0) (hle : start + bs ≤ n) :
    start + bs ≤ n / bs * bs := by
  have hstart : start = start / bs * bs := by
    have := Nat.div_add_mod' start bs
    omega
  rw [hstart, ← Nat.succ_mul] at hle ⊢
  exact Nat.mul_le_mul_right _ ((Nat.le_div_iff_mul_le hbs).mpr hle)

/-- The pilot's test of a candidate is the test of the block's windows. -/
theorem isExecutable_candidateDict {previous current : List Nat} {bs t : Nat} {c : CandidateBlock}
    (hbs : 0 < bs) (h : candidateBlock? previous current bs (t * bs) = some c) (repacking : Bool) :
    (candidateDict c).isExecutable bs ((previous.length / bs * bs : Nat) : Int) repacking
      = executable previous ((current.drop (t * bs)).take bs) bs repacking := by
  obtain ⟨rfl, hdescribes⟩ := (candidateBlock?_eq_some hbs).mp h
  rw [Bool.eq_iff_iff, executable_iff]
  have hwhole : c.hasWholeSourceBlock = true ↔ ∃ s ∈ c.previousStarts, s % bs = 0 := by
    rw [CandidateBlock.hasWholeSourceBlock, hdescribes.aligned, Bool.not_eq_true', List.isEmpty_eq_false_iff_exists_mem]
    simp only [List.mem_filter, decide_eq_true_eq]
  have hwindow : (candidateDict c).isExecutable bs ((previous.length / bs * bs : Nat) : Int) repacking = true ↔
      (∃ s ∈ c.previousStarts, s % bs = 0) ∨
        repacking = true ∧ ∃ s ∈ c.previousStarts, s + bs ≤ previous.length / bs * bs := by
    rw [← hwhole]
    simp only [CoverageCandidate.isExecutable, candidateDict, Bool.or_eq_true, Bool.and_eq_true, beq_iff_eq,
      Option.some.injEq, Option.getD_some, List.any_map, List.any_eq_true, Function.comp_apply,
      Option.any_some, decide_eq_true_eq]
    norm_cast
  rw [hwindow, hdescribes.occurrences, fullBlock]
  simp only [mem_contentOccurrences]
  constructor
  · rintro (⟨s, ⟨hle, heq⟩, hal⟩ | ⟨hrep, s, ⟨-, heq⟩, hle⟩)
    · exact ⟨s, aligned_window_le hbs hal hle, Or.inr hal, heq⟩
    · exact ⟨s, hle, Or.inl hrep, heq⟩
  · rintro ⟨s, hle, hrep | hal, heq⟩
    · exact Or.inr ⟨hrep, s, ⟨hle.trans (Nat.div_mul_le_self _ _), heq⟩, hle⟩
    · exact Or.inl ⟨s, ⟨hle.trans (Nat.div_mul_le_self _ _), heq⟩, hal⟩

/-- A block without a candidate has no window. -/
theorem executable_of_eq_none {previous current : List Nat} {bs start : Nat}
    (h : candidateBlock? previous current bs start = none) (repacking : Bool) :
    executable previous ((current.drop start).take bs) bs repacking = false := by
  rw [candidateBlock?] at h
  split at h
  · next hnil =>
      rw [Bool.eq_false_iff, Ne, executable_iff]
      rintro ⟨s, hle, -, heq⟩
      have hmem := mem_contentOccurrences.mpr ⟨hle.trans (Nat.div_mul_le_self _ _), heq⟩
      rw [hnil] at hmem
      cases hmem
  · cases h

/-- The loop of the pilot over an analysed pair of prompts. -/
theorem executableCandidate_dict {previous current : List Nat} {native bs : Nat} (hbs : 0 < bs)
    (repacking : Bool) {c : CandidateBlock} (hc : c ∈ candidateBlocksAfter previous current native bs) :
    executableCandidate bs current.length ((previous.length / bs * bs : Nat) : Int) repacking
        (some (candidateDict c))
      = .ok (if (candidateDict c).isExecutable bs ((previous.length / bs * bs : Nat) : Int) repacking
          then some (Int.ofNat c.currentBlockIndex) else none) := by
  obtain ⟨i, hi, hc⟩ := List.mem_filterMap.mp hc
  obtain ⟨hindex, -⟩ := (candidateBlock?_eq_some hbs).mp hc
  have hlt := (mem_recomputedBlocks hi).2
  have hfull : (i + 1) * bs ≤ current.length :=
    (Nat.le_div_iff_mul_le hbs).mp hlt
  have hfull' : ((i : Int) + 1) * bs ≤ current.length := by exact_mod_cast hfull
  have hpositions : (candidateDict c).hasSourcePositions = true := by
    rw [CoverageCandidate.hasSourcePositions, candidateDict, Option.any_some, List.all_map, List.all_eq_true]
    intro s _
    simp
  rw [executableCandidate]
  simp only [candidateDict, hindex]
  rw [if_neg (by omega), if_neg (by omega), if_neg]
  · rfl
  · rintro ⟨-, h⟩
    exact absurd (hpositions.symm.trans h) (by decide)

theorem filter_isExecutable {previous current : List Nat} {native bs : Nat} (hbs : 0 < bs)
    (repacking : Bool) :
    ((candidateBlocksAfter previous current native bs).filter fun c =>
        (candidateDict c).isExecutable bs ((previous.length / bs * bs : Nat) : Int) repacking).map
        CandidateBlock.currentBlockIndex
      = reusableBlocks previous current native bs repacking := by
  rw [candidateBlocksAfter, List.filter_filterMap]
  refine map_filterMap_eq_filter ?_
  intro t _
  cases hc : candidateBlock? previous current bs (t * bs) with
  | none => rw [executable_of_eq_none hc, Option.filter_none, Option.map_none, if_neg (by decide)]
  | some c =>
      rw [Option.filter_some, isExecutable_candidateDict hbs hc]
      have hindex := ((candidateBlock?_eq_some hbs).mp hc).1
      split
      · rw [Option.map_some, hindex]
      · rfl

/-- **The offline plan** of an analysed pair of prompts. -/
theorem offline_blocks (previous current : RenderedPrompt) {bs : Nat} (hbs : 0 < bs) (native : Nat)
    (repacking : Bool) :
    mtragTestableBlocks (coverageRow (reuseOpportunity previous.tokenIds current.tokenIds native bs)) bs repacking
      = .ok (testableOf (reusableBlocks previous.tokenIds current.tokenIds native bs repacking)
          current.tokenIds.length bs) := by
  have hprevious : 0 < previous.tokenIds.length := List.length_pos_iff.mpr previous.tokenIds_ne
  have hcurrent : 0 < current.tokenIds.length := List.length_pos_iff.mpr current.tokenIds_ne
  obtain ⟨found, hfound, hblocks⟩ := Except.mapM_filter fun c
      (hc : c ∈ candidateBlocksAfter previous.tokenIds current.tokenIds native bs) =>
    executableCandidate_dict hbs repacking hc
  have hsorted := pairwise_reusableBlocks previous.tokenIds current.tokenIds native bs repacking
  have hindices : found.filterMap id
      = (reusableBlocks previous.tokenIds current.tokenIds native bs repacking).map Int.ofNat := by
    rw [hblocks, ← filter_isExecutable hbs repacking, List.map_map]
    rfl
  rw [mtragTestableBlocks]
  simp only [coverageRow, opportunityDict, reuseOpportunity]
  rw [if_neg (by omega), if_neg, List.mapM_map]
  · rw [Option.getD_some, ← Int.natCast_ediv, ← Int.natCast_mul, Function.comp_def, hfound]
    change (if _ then _ else _) = _
    rw [hindices, sortedInts_of_pairwise hsorted, if_neg (not_not.mpr (nodup_of_pairwise hsorted))]
    rfl
  · rintro ⟨-, h⟩
    rw [Option.any_some, decide_eq_false_iff_not] at h
    omega

/-! ### The locator -/

/-- Only full prompt blocks are indexed. -/
def FullBlocksOnly (bs : Nat) (source : SourceRequestIndex) : Prop :=
  ∀ b ∈ source.blocks, b.blockIndex < source.promptTokenIds.length / bs

theorem fullBlocksOnly_run (cfg : LocatorConfig) (calls : List LocatorCall) :
    ∀ s ∈ (run cfg calls).sources, FullBlocksOnly cfg.blockSize s := by
  induction calls using List.reverseRecOn with
  | nil => exact nofun
  | append_singleton calls c ih =>
      intro s hs
      rw [run, List.foldl_concat] at hs
      cases c with
      | index pool r blocks =>
          cases hp : r.promptTokenIds with
          | none =>
              rw [after, index_none hp] at hs
              exact ih s hs
          | some promptTokenIds =>
              rcases index_sources hp hs with rfl | ⟨hs, -⟩
              · exact fun b hb => (mem_indexedBlocks hb).1
              · exact ih s hs
      | locate pool r nativeCachedTokens => exact ih s hs
      | clear => cases hs

/-- All full prompt blocks of a source are indexed, and what is indexed is resident. -/
structure FullyResident (bs : Nat) (pool : BlockPool) (source : SourceRequestIndex) : Prop where
  indexed : ∀ i < source.promptTokenIds.length / bs, ∃ b ∈ source.blocks, b.blockIndex = i
  resident : ∀ b ∈ source.blocks, isResident pool b = true

theorem mapM_isSome_of_forall {α β : Type} {f : α → Option β} : ∀ {l : List α},
    (∀ a ∈ l, ∃ b, f a = some b) → ∃ bs, l.mapM f = some bs := by
  intro l
  induction l with
  | nil => exact fun _ => ⟨[], rfl⟩
  | cons a l ih =>
      intro h
      obtain ⟨b, hb⟩ := h a List.mem_cons_self
      obtain ⟨bs, hbs⟩ := ih fun a' ha' => h a' (List.mem_cons_of_mem a ha')
      exact ⟨b :: bs, by rw [List.mapM_cons, hb, hbs]; rfl⟩

section Locator

variable {cfg : LocatorConfig} {pool : BlockPool} {source : SourceRequestIndex}

theorem blockByIndex_isSome (hfull : FullBlocksOnly cfg.blockSize source)
    (hall : FullyResident cfg.blockSize pool source) (i : Nat) :
    (∃ b, blockByIndex source i = some b) ↔ i < source.promptTokenIds.length / cfg.blockSize := by
  constructor
  · rintro ⟨b, hb⟩
    obtain ⟨hmem, rfl⟩ := blockByIndex_eq_some hb
    exact hfull b hmem
  · intro hi
    obtain ⟨b, hb, rfl⟩ := hall.indexed i hi
    rw [← Option.isSome_iff_exists, blockByIndex, List.find?_isSome]
    exact ⟨b, List.mem_reverse.mpr hb, by simp⟩

/-- A window is covered when it lies in the full blocks of the source. -/
theorem windowBlocks_isSome (hfull : FullBlocksOnly cfg.blockSize source)
    (hall : FullyResident cfg.blockSize pool source) (start : Nat) :
    (∃ blocks, windowBlocks cfg source start = some blocks) ↔
      start + cfg.blockSize ≤ source.promptTokenIds.length / cfg.blockSize * cfg.blockSize := by
  have hbs := cfg.blockSize_pos
  have hle : start / cfg.blockSize ≤ (start + cfg.blockSize - 1) / cfg.blockSize :=
    Nat.div_le_div_right (by omega)
  have hlast : (start + cfg.blockSize - 1) / cfg.blockSize < source.promptTokenIds.length / cfg.blockSize ↔
      start + cfg.blockSize ≤ source.promptTokenIds.length / cfg.blockSize * cfg.blockSize := by
    rw [Nat.div_lt_iff_lt_mul hbs]
    omega
  rw [← hlast]
  constructor
  · rintro ⟨blocks, h⟩
    obtain ⟨b, hb, -⟩ := (mapM_getElem? h).2
      ((start + cfg.blockSize - 1) / cfg.blockSize - start / cfg.blockSize)
      ((start + cfg.blockSize - 1) / cfg.blockSize)
      (by rw [List.getElem?_range' (by omega)]; congr 1; omega)
    exact (blockByIndex_isSome hfull hall _).mp ⟨b, hb⟩
  · intro hlt
    refine mapM_isSome_of_forall fun i hi => ?_
    rw [List.mem_range'_1] at hi
    exact (blockByIndex_isSome hfull hall i).mpr (by omega)

theorem sourceWindows_ne_nil (hne : source.promptTokenIds ≠ []) (hfull : FullBlocksOnly cfg.blockSize source)
    (hall : FullyResident cfg.blockSize pool source) (tokenIds : List Nat) :
    sourceWindows cfg source tokenIds ≠ [] ↔
      executable source.promptTokenIds tokenIds cfg.blockSize cfg.allowRepacking = true := by
  rw [executable_iff, Ne, List.eq_nil_iff_forall_not_mem, not_forall]
  simp only [not_not, mem_sourceWindows_iff hne]
  constructor
  · rintro ⟨w, -, hal, heq, hblocks⟩
    exact ⟨w.1, (windowBlocks_isSome hfull hall w.1).mp ⟨w.2, hblocks⟩, hal, heq⟩
  · rintro ⟨start, hle, hal, heq⟩
    obtain ⟨blocks, hblocks⟩ := (windowBlocks_isSome hfull hall start).mpr hle
    exact ⟨(start, blocks), hle.trans (Nat.div_mul_le_self _ _), hal, heq, hblocks⟩

theorem resident_of_windowBlocks (hall : FullyResident cfg.blockSize pool source) {start : Nat}
    {blocks : List SourceBlock} (h : windowBlocks cfg source start = some blocks) :
    blocks.all (isResident pool) = true := by
  rw [List.all_eq_true]
  intro b hb
  obtain ⟨k, hk, rfl⟩ := List.getElem_of_mem hb
  obtain ⟨hlen, hget⟩ := mapM_getElem? h
  obtain ⟨b', hb', hk'⟩ := hget k _ (List.getElem?_eq_getElem (hlen ▸ hk))
  rw [List.getElem?_eq_getElem hk, Option.some.injEq] at hk'
  rw [hk']
  exact hall.resident b' (blockByIndex_eq_some hb').1

/-- The candidate of a block: there is one iff the block's tokens are a window, and it is resident. -/
theorem candidateAt_spec (hne : source.promptTokenIds ≠ []) (hfull : FullBlocksOnly cfg.blockSize source)
    (hall : FullyResident cfg.blockSize pool source) (tokens : List Nat) (t : Nat) :
    (∀ c, candidateAt cfg pool source tokens t = some c → c.targetBlockIndex = t ∧ c.sourceResident = true) ∧
      ((∃ c, candidateAt cfg pool source tokens t = some c) ↔
        executable source.promptTokenIds ((tokens.drop (t * cfg.blockSize)).take cfg.blockSize) cfg.blockSize
          cfg.allowRepacking = true) := by
  rw [← sourceWindows_ne_nil hne hfull hall, candidateAt]
  cases hsel : selectNearestSourceWindow cfg pool
      (sourceWindows cfg source ((tokens.drop (t * cfg.blockSize)).take cfg.blockSize)) t with
  | none =>
      rw [selectNearestSourceWindow, List.argmin_eq_none] at hsel
      simp [hsel]
  | some w =>
      have hmem := List.argmin_mem hsel
      obtain ⟨-, -, -, hblocks⟩ := (mem_sourceWindows_iff hne).mp hmem
      have hlen := length_windowBlocks hblocks
      obtain ⟨b, rest, hcons⟩ : ∃ b rest, w.2 = b :: rest := by
        rw [← List.ne_nil_iff_exists_cons, ← List.length_pos_iff, hlen]
        split <;> omega
      have hres := resident_of_windowBlocks hall hblocks
      dsimp only
      rw [hcons] at hres ⊢
      refine ⟨?_, fun _ => List.ne_nil_of_mem hmem, fun _ => ⟨_, rfl⟩⟩
      rintro c ⟨⟩
      exact ⟨rfl, hres⟩

/-- **The live candidates** of a fully resident source. -/
theorem live_blocks (hne : source.promptTokenIds ≠ []) (hfull : FullBlocksOnly cfg.blockSize source)
    (hall : FullyResident cfg.blockSize pool source) (tokens : List Nat) (native : Nat) :
    (rawCandidates cfg pool source tokens native).map PartialReuseCandidate.targetBlockIndex
        = reusableBlocks source.promptTokenIds tokens native cfg.blockSize cfg.allowRepacking ∧
      ∀ c ∈ rawCandidates cfg pool source tokens native, c.sourceResident = true := by
  constructor
  · refine map_filterMap_eq_filter ?_
    intro t _
    obtain ⟨hspec, hiff⟩ := candidateAt_spec hne hfull hall tokens t
    cases hc : candidateAt cfg pool source tokens t with
    | none =>
        rw [Option.map_none, if_neg]
        intro hex
        obtain ⟨c, hc'⟩ := hiff.mpr hex
        rw [hc] at hc'
        cases hc'
    | some c =>
        rw [Option.map_some, (hspec c hc).1, if_pos (hiff.mp ⟨c, hc⟩)]
  · intro c hc
    obtain ⟨t, -, ht⟩ := List.mem_filterMap.mp hc
    exact ((candidateAt_spec hne hfull hall tokens t).1 c ht).2

end Locator

/-! ### The reported plan -/

def reportedCandidate (c : PartialReuseCandidate) : ReportedCandidate where
  targetBlockIndex := some c.targetBlockIndex
  sourceResident := some c.sourceResident

/-- `PartialReusePlan.to_dict`, as far as the run reads it. -/
def planDict (plan : PartialReusePlan) : ServerPlan where
  transitionId := plan.transitionId
  blockSize := some plan.blockSize
  nativeCachedTokens := some plan.nativeCachedTokens
  counterfactualReuseBlockIndex := plan.counterfactualReuseBlockIndex.map Int.ofNat
  candidateBlockCount := some plan.candidates.length
  candidateTokenCount := some (plan.candidates.length * plan.blockSize : Nat)
  candidates := some (plan.candidates.map fun c => some (reportedCandidate c))

/-- The discovery accepts a plan with resident candidates in the recomputed blocks, and reads them off. -/
theorem planDiscovery_planDict (traceId transitionId : String) {tokens : List Nat} {plan : PartialReusePlan}
    {blocks : List Nat} {native bs : Nat} (hnative : plan.nativeCachedTokens = native) (hsize : plan.blockSize = bs)
    (hbs : 0 < bs) (hle : native ≤ tokens.length) (hid : plan.transitionId = some transitionId)
    (htargets : plan.candidates.map PartialReuseCandidate.targetBlockIndex = blocks)
    (hsorted : blocks.Pairwise (· < ·)) (hblocks : ∀ t ∈ blocks, t ∈ recomputedBlocks tokens native bs)
    (hresident : ∀ c ∈ plan.candidates, c.sourceResident = true) :
    planDiscovery traceId transitionId tokens.length (planDict plan)
      = .ok {
          traceId, transitionId
          blockSize := bs
          candidateBlockIndices := (testableOf blocks tokens.length bs).candidateBlocks
          testableBlockIndices := (testableOf blocks tokens.length bs).testable
          excludedOutputBlockIndex := (testableOf blocks tokens.length bs).excluded } := by
  subst hnative hsize
  have hfirst : ((plan.nativeCachedTokens : Int) + plan.blockSize - 1) / plan.blockSize
      = ((plan.nativeCachedTokens + plan.blockSize - 1) / plan.blockSize : Nat) := by
    rw [Int.natCast_ediv, Int.natCast_sub (by omega), Int.natCast_add, Int.natCast_one]
  have htarget : ∀ c ∈ plan.candidates, candidateTarget
      (((plan.nativeCachedTokens : Int) + plan.blockSize - 1) / plan.blockSize)
      ((tokens.length : Int) / plan.blockSize) (some (reportedCandidate c))
        = .ok (Int.ofNat c.targetBlockIndex) := by
    intro c hc
    have hmem := mem_recomputedBlocks (hblocks c.targetBlockIndex (htargets ▸ List.mem_map_of_mem hc))
    have hresident' : (reportedCandidate c).sourceResident = some true := congrArg some (hresident c hc)
    have hindex : (reportedCandidate c).targetBlockIndex = some (c.targetBlockIndex : Int) := rfl
    rw [hfirst, ← Int.natCast_ediv, candidateTarget, hindex]
    dsimp only
    rw [if_neg (by omega), if_neg (not_not.mpr hresident')]
    rfl
  have hmap : plan.candidates.map (fun c => Int.ofNat c.targetBlockIndex) = blocks.map Int.ofNat := by
    rw [← htargets, List.map_map]
    rfl
  rw [planDiscovery]
  simp only [planDict]
  rw [if_neg (not_not.mpr hid), if_neg (by omega), if_neg (by omega), if_neg (by simp),
    if_neg (by simp), List.mapM_map, Function.comp_def, Except.mapM_eq_ok_map htarget, hmap]
  change (if _ then _ else _) = _
  rw [if_neg (not_not.mpr (nodup_of_pairwise hsorted)), sortedInts_of_pairwise hsorted]
  rfl

/-! ### Offline and live -/

theorem mem_recomputedBlocks_of_reusable {sourceTokens tokens : List Nat} {native bs : Nat} {repacking : Bool}
    {t : Nat} (h : t ∈ reusableBlocks sourceTokens tokens native bs repacking) :
    t ∈ recomputedBlocks tokens native bs :=
  (List.mem_filter.mp h).1

/-- The parts of what may be tested, by the last token of the prompt. -/
theorem testableOf_spec {tokens : List Nat} (hne : tokens ≠ []) {bs : Nat} (hbs : 0 < bs) (blocks : List Nat) :
    (∀ t, t ∈ (testableOf blocks tokens.length bs).testable ↔
        t ∈ (testableOf blocks tokens.length bs).candidateBlocks ∧ ¬ HoldsLastToken tokens bs t) ∧
      ∀ t, (testableOf blocks tokens.length bs).excluded = some t ↔
        t ∈ (testableOf blocks tokens.length bs).candidateBlocks ∧ HoldsLastToken tokens bs t := by
  simp only [holdsLastToken_iff hne hbs]
  constructor
  · intro t
    rw [testableOf, List.mem_filter, decide_eq_true_eq]
  · intro t
    rw [testableOf, Option.ite_none_right_eq_some, Option.some.injEq]
    constructor
    · rintro ⟨hmem, rfl⟩
      exact ⟨hmem, rfl⟩
    · rintro ⟨hmem, rfl⟩
      exact ⟨hmem, rfl⟩

/-- **The offline plan is the live plan.**  For every source that is fully indexed and resident, after any calls
to the locator, and every native hit in the common prefix: the blocks that the pilot calls executable are the
targets that the locator finds, in this order, and the discovery of the run reads the frozen blocks off the plan. -/
theorem offline_plan_eq_live (cfg : LocatorConfig) (calls : List LocatorCall) (pool : BlockPool) (r : Request)
    (source : SourceRequestIndex) (previous current : RenderedPrompt) (nativeCachedTokens : Nat)
    (hsource : finalSource cfg pool (run cfg calls) r nativeCachedTokens = some (source, current.tokenIds))
    (hprompt : source.promptTokenIds = previous.tokenIds)
    (hall : FullyResident cfg.blockSize pool source)
    (hnative : nativeCachedTokens ≤ commonPrefixLength previous.tokenIds current.tokenIds) :
    ∃ opportunity blocks plan r',
      analyzeReuseOpportunity previous.tokenIds current.tokenIds nativeCachedTokens cfg.blockSize
          = .ok opportunity ∧
        mtragTestableBlocks (coverageRow opportunity) cfg.blockSize cfg.allowRepacking = .ok blocks ∧
        locate cfg pool (run cfg calls) r nativeCachedTokens = .ok (some plan, r') ∧
        blocks.candidateBlocks = plan.candidates.map (fun c => Int.ofNat c.targetBlockIndex) ∧
        (∀ t, t ∈ blocks.testable ↔
          t ∈ blocks.candidateBlocks ∧ ¬ HoldsLastToken current.tokenIds cfg.blockSize t) ∧
        (∀ t, blocks.excluded = some t ↔
          t ∈ blocks.candidateBlocks ∧ HoldsLastToken current.tokenIds cfg.blockSize t) ∧
        (nativeCachedTokens = estimatedNativeCachedTokens previous current cfg.blockSize →
          analyzeTransition previous current cfg.blockSize = .ok (coverageRow opportunity)) ∧
        ∀ traceId transitionId, plan.transitionId = some transitionId →
          planDiscovery traceId transitionId current.tokenIds.length (planDict plan)
            = .ok {
                traceId, transitionId
                blockSize := cfg.blockSize
                candidateBlockIndices := blocks.candidateBlocks
                testableBlockIndices := blocks.testable
                excludedOutputBlockIndex := blocks.excluded } := by
  have hne : source.promptTokenIds ≠ [] := by rw [hprompt]; exact previous.tokenIds_ne
  have hanalysis := analyzeReuseOpportunity_eq cfg.blockSize_pos hnative
  have hoffline := offline_blocks previous current cfg.blockSize_pos nativeCachedTokens cfg.allowRepacking
  rcases locate_cases cfg pool (run cfg calls) r nativeCachedTokens with
    ⟨hnone, -⟩ | ⟨source', tokens, r', id, selection, hfinal, hget, -, -, hid, hlocate⟩
  · rw [hnone] at hsource
    cases hsource
  · rw [hsource, Option.some.injEq, Prod.mk.injEq] at hfinal
    obtain ⟨rfl, rfl⟩ := hfinal
    obtain ⟨hlive, hresident⟩ := live_blocks hne (fullBlocksOnly_run cfg calls source (getSource_mem hget).1) hall
      current.tokenIds nativeCachedTokens
    have hprefix : cfg.collectSelectorFeatures = true →
        rawCandidates cfg pool source current.tokenIds nativeCachedTokens ≠ [] →
        nativeCachedTokens ≤ commonPrefixLength source.promptTokenIds current.tokenIds := by
      intro _ _
      rw [hprompt]
      exact hnative
    obtain ⟨plan, g, hplan, -, hsize, hnat, -, hcands, hsame⟩ := matchedPlan_ok selection hid hprefix
    rw [hprompt] at hlive
    have htargets : plan.candidates.map PartialReuseCandidate.targetBlockIndex
        = reusableBlocks previous.tokenIds current.tokenIds nativeCachedTokens cfg.blockSize
            cfg.allowRepacking := by
      rw [hcands, List.map_map, ← hlive]
      refine List.map_congr_left fun c _ => ?_
      rw [Function.comp_apply, hsame c]
    obtain ⟨htestable, hexcluded⟩ := testableOf_spec current.tokenIds_ne cfg.blockSize_pos
      (reusableBlocks previous.tokenIds current.tokenIds nativeCachedTokens cfg.blockSize cfg.allowRepacking)
    refine ⟨_, _, plan, r', hanalysis, hoffline, by rw [hlocate, hplan]; rfl, ?_, htestable, hexcluded, ?_, ?_⟩
    · rw [testableOf, ← htargets, List.map_map]
      rfl
    · intro hestimate
      rw [analyzeTransition, ← hestimate, hanalysis]
      rfl
    · intro traceId transitionId htransition
      have hle : nativeCachedTokens ≤ current.tokenIds.length := by
        have := commonPrefixLength_le_left current.tokenIds previous.tokenIds
        rw [commonPrefixLength_comm] at this
        omega
      refine planDiscovery_planDict traceId transitionId hnat hsize cfg.blockSize_pos hle htransition htargets
        (pairwise_reusableBlocks _ _ _ _ _) (fun t => mem_recomputedBlocks_of_reusable) ?_
      intro c hc
      rw [hcands] at hc
      obtain ⟨c₀, hc₀, rfl⟩ := List.mem_map.mp hc
      rw [hsame c₀]
      exact hresident c₀ hc₀

/-- Two full blocks and a short tail. -/
def pilotSource : RenderedPrompt where
  tokenIds := [1, 2, 3, 4, 5]
  tokenIds_ne := by decide

/-- Behind the first block: an unaligned window, one that reaches into the tail, and an aligned one. -/
def pilotTarget : RenderedPrompt where
  tokenIds := [1, 2, 2, 3, 4, 5, 3, 4]
  tokenIds_ne := by decide

def pilotConfig : LocatorConfig where
  blockSize := 2
  allowRepacking := true

def pilotRequest : Request where
  requestId := "source"
  promptTokenIds := some pilotSource.tokenIds

def pilotPool : BlockPool :=
  let first := hashBlockTokens none [1, 2] []
  ((BlockPool.init 4).insertBlockHash first 1 1).insertBlockHash (hashBlockTokens (some first) [3, 4] []) 2 2

/-- With repacking the blocks 1 and 3 are candidates, and the last one is the output block. -/
theorem pilot_plan_eq_live : ∃ plan r', locate pilotConfig pilotPool
      (run pilotConfig [.index pilotPool pilotRequest [1, 2, 3]])
      { requestId := "target"
        promptTokenIds := some pilotTarget.tokenIds
        cacheselectSourceRequestId := some "source" } 2 = .ok (some plan, r') ∧
    plan.candidates.map (fun c => Int.ofNat c.targetBlockIndex) = [1, 3] := by
  obtain ⟨opportunity, blocks, plan, r', hopportunity, hblocks, hlocate, hcands, -⟩ :=
    offline_plan_eq_live pilotConfig [.index pilotPool pilotRequest [1, 2, 3]] pilotPool
      { requestId := "target"
        promptTokenIds := some pilotTarget.tokenIds
        cacheselectSourceRequestId := some "source" }
      (sourceEntry pilotConfig pilotPool pilotRequest pilotSource.tokenIds [1, 2, 3]) pilotSource pilotTarget 2
      (by decide +kernel) rfl ⟨by decide +kernel, by decide +kernel⟩ (by decide)
  refine ⟨plan, r', hlocate, ?_⟩
  rw [← hcands]
  have hopportunity' : analyzeReuseOpportunity pilotSource.tokenIds pilotTarget.tokenIds 2 2
      = .ok (reuseOpportunity pilotSource.tokenIds pilotTarget.tokenIds 2 2) := rfl
  obtain rfl := Except.ok.inj (hopportunity'.symm.trans hopportunity)
  have hoffline := offline_blocks pilotSource pilotTarget (Nat.zero_lt_two) 2 true
  obtain rfl := Except.ok.inj (hoffline.symm.trans hblocks)
  decide +kernel

end CacheSelect.Benchmarks
