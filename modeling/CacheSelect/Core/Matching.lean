import CacheSelect.Core.Locator

/-! # What `locate` finds

`finalSource` names the source that a plan is matched against in the end.  `locate_ok` says what a plan consists of: every candidate is a
full block of the target prompt with a window of the final source that has the same tokens
(`IsCandidate`), in the order of the target blocks.  `locate_error_cases` says when `locate` raises.

`SourceRequestIndex.WF` is the invariant of a remembered sequence; with it a window's rows are the
rows in which the source stored the window's tokens (`windowBlocks_row`).
-/

namespace CacheSelect.Core

open CacheSelect.Features

/-! ### Remembered sequences -/

/-- The blocks of an entry hold the full blocks of its prompt, under hashes that name its prefixes. -/
structure SourceRequestIndex.WF (blockSize : Nat) (source : SourceRequestIndex) : Prop where
  full : ∀ b ∈ source.blocks, (b.blockIndex + 1) * blockSize ≤ source.promptTokenIds.length
  tokenIds_eq : ∀ b ∈ source.blocks,
    b.tokenIds = (source.promptTokenIds.drop (b.blockIndex * blockSize)).take blockSize
  hash_tokens : ∀ b ∈ source.blocks, b.blockHash.blockTokens = b.tokenIds
  nodup_index : (source.blocks.map SourceBlock.blockIndex).Nodup
  nodup_id : (source.blocks.map SourceBlock.blockId).Nodup

namespace AlignedBlockReuseLocator

/-- Every remembered sequence is well formed. -/
def WF (blockSize : Nat) (l : AlignedBlockReuseLocator) : Prop :=
  ∀ s ∈ l.sources, s.WF blockSize

theorem getSource_mem {l : AlignedBlockReuseLocator} {id : String} {s : SourceRequestIndex}
    (h : l.getSource id = some s) : s ∈ l.sources ∧ s.requestId = id := by
  refine ⟨List.mem_of_find?_eq_some h, ?_⟩
  simpa using List.find?_some h

theorem evictOldest_sources_sublist (n : Nat) : ∀ (ss : List SourceRequestIndex)
    (sessions : String → Option String), (evictOldest n ss sessions).sources.Sublist ss := by
  intro ss
  induction ss with
  | nil => exact fun _ => .slnil
  | cons s rest ih =>
      intro sessions
      rw [evictOldest]
      split
      · exact .refl _
      · exact (ih _).cons s

/-- An entry after `index` is the new one, or one that was there under another id. -/
theorem index_sources {cfg : LocatorConfig} {pool : BlockPool} {l : AlignedBlockReuseLocator}
    {r : Request} {blocks promptTokenIds : List Nat} (hp : r.promptTokenIds = some promptTokenIds)
    {s : SourceRequestIndex} (hs : s ∈ (index cfg pool l r blocks).sources) :
    s = sourceEntry cfg pool r promptTokenIds blocks ∨
      s ∈ l.sources ∧ s.requestId ≠ r.sourceIndexId := by
  rw [index, hp] at hs
  have hs' := (evictOldest_sources_sublist _ _ _).subset hs
  rcases List.mem_append.mp hs' with hs' | hs'
  · right
    obtain ⟨hin, hne⟩ := List.mem_filter.mp hs'
    exact ⟨hin, by simpa [sourceEntry] using hne⟩
  · left
    simpa using hs'

theorem index_none {cfg : LocatorConfig} {pool : BlockPool} {l : AlignedBlockReuseLocator}
    {r : Request} {blocks : List Nat} (hp : r.promptTokenIds = none) :
    index cfg pool l r blocks = l := by
  rw [index, hp]

/-- An id names one entry at most. -/
def NodupIds (l : AlignedBlockReuseLocator) : Prop :=
  (l.sources.map SourceRequestIndex.requestId).Nodup

theorem NodupIds.getSource_eq {l : AlignedBlockReuseLocator} (h : l.NodupIds)
    {s : SourceRequestIndex} (hs : s ∈ l.sources) : l.getSource s.requestId = some s := by
  cases hf : l.getSource s.requestId with
  | none =>
      have := List.find?_eq_none.mp hf s hs
      simp at this
  | some t =>
      obtain ⟨ht, hid⟩ := getSource_mem hf
      rw [List.inj_on_of_nodup_map h ht hs hid]

theorem nodupIds_index {cfg : LocatorConfig} {pool : BlockPool} {l : AlignedBlockReuseLocator}
    (h : l.NodupIds) (r : Request) (blocks : List Nat) : (index cfg pool l r blocks).NodupIds := by
  rw [index]
  split
  · exact h
  · refine List.Nodup.sublist ((evictOldest_sources_sublist _ _ _).map _) ?_
    rw [List.map_append, List.nodup_append]
    refine ⟨h.sublist (List.filter_sublist.map _), List.nodup_singleton _, ?_⟩
    rintro x hx y hy rfl
    obtain ⟨s, hs, rfl⟩ := List.mem_map.mp hx
    rw [List.map_singleton, List.mem_singleton] at hy
    have := (List.mem_filter.mp hs).2
    rw [bne_iff_ne] at this
    exact this hy

theorem mem_indexedBlocks {cfg : LocatorConfig} {pool : BlockPool} {r : Request}
    {promptTokenIds blocks : List Nat} {b : SourceBlock}
    (hb : b ∈ indexedBlocks cfg pool r promptTokenIds blocks) :
    b.blockIndex < promptTokenIds.length / cfg.blockSize ∧
      blocks[b.blockIndex]? = some b.blockId ∧
      (pool.blocks b.blockId).blockHash = some b.blockHash ∧
      b.tokenIds = (promptTokenIds.drop (b.blockIndex * cfg.blockSize)).take cfg.blockSize := by
  rw [indexedBlocks, List.mem_filterMap] at hb
  obtain ⟨⟨id, i⟩, hmem, hb⟩ := hb
  rw [List.mk_mem_zipIdx_iff_getElem?] at hmem
  have hlt := (List.getElem?_eq_some_iff.mp hmem).1
  rw [List.length_take] at hlt
  rw [List.getElem?_take_of_lt (by omega)] at hmem
  simp only at hb
  split at hb
  · cases hb
  · split at hb
    · cases hb
    · next h hh =>
        cases hb
        exact ⟨by change i < _; omega, hmem, hh, rfl⟩

theorem pairwise_indexedBlocks (cfg : LocatorConfig) (pool : BlockPool) (r : Request)
    (promptTokenIds : List Nat) {blocks : List Nat} (hnd : blocks.Nodup) :
    (indexedBlocks cfg pool r promptTokenIds blocks).Pairwise
      fun b b' => b.blockIndex ≠ b'.blockIndex ∧ b.blockId ≠ b'.blockId := by
  rw [indexedBlocks]
  refine List.Pairwise.filterMap _ ?_
    (R := fun (x y : Nat × Nat) => x.1 ≠ y.1 ∧ x.2 ≠ y.2) ?_
  · rintro ⟨id, i⟩ ⟨id', i'⟩ hne b hb b' hb'
    simp only at hb hb'
    split at hb
    · cases hb
    · split at hb
      · cases hb
      · split at hb'
        · cases hb'
        · split at hb'
          · cases hb'
          · cases hb
            cases hb'
            exact ⟨hne.2, hne.1⟩
  · rw [List.pairwise_iff_getElem]
    intro i j hi hj hij
    simp only [List.getElem_zipIdx, Nat.zero_add]
    refine ⟨fun he => ?_, by omega⟩
    simp only [List.length_zipIdx] at hi hj
    have := (hnd.sublist (List.take_sublist (promptTokenIds.length / cfg.blockSize) blocks))
    exact absurd (this.getElem_inj_iff.mp he) (by omega)

/-- **What `index` remembers is well formed**, for a table whose hashes are those of the request. -/
theorem sourceEntry_wf {cfg : LocatorConfig} {pool : BlockPool} {r : Request}
    {promptTokenIds blocks : List Nat} (hp : r.promptTokenIds = some promptTokenIds)
    (hnd : blocks.Nodup) (hreg : ∀ i b h, blocks[i]? = some b →
      (pool.blocks b).blockHash = some h → h = r.blockHashAt cfg.blockSize i) :
    (sourceEntry cfg pool r promptTokenIds blocks).WF cfg.blockSize := by
  have hpair := pairwise_indexedBlocks cfg pool r promptTokenIds hnd
  have hfull : ∀ i, i < promptTokenIds.length / cfg.blockSize →
      (i + 1) * cfg.blockSize ≤ promptTokenIds.length := fun i hi =>
    Nat.le_trans (Nat.mul_le_mul_right _ hi) (Nat.div_mul_le_self _ _)
  refine { full := ?_, tokenIds_eq := ?_, hash_tokens := ?_, nodup_index := ?_, nodup_id := ?_ }
  · intro b hb
    exact hfull _ (mem_indexedBlocks hb).1
  · intro b hb
    exact (mem_indexedBlocks hb).2.2.2
  · intro b hb
    obtain ⟨hlt, hget, hhash, htok⟩ := mem_indexedBlocks hb
    have hle := hfull _ hlt
    rw [hreg _ _ _ hget hhash, Request.blockTokens_blockHashAt, htok, Request.blockTokenIds,
      Request.allTokenIds_eq hp]
    rw [Nat.succ_mul] at hle
    rw [List.drop_append_of_le_length (by omega), List.take_append_of_le_length]
    rw [List.length_drop]
    omega
  · exact List.pairwise_map.mpr (hpair.imp fun h => h.1)
  · exact List.pairwise_map.mpr (hpair.imp fun h => h.2)

/-! ### Windows -/

theorem mapM_eq_some_iff {α β : Type} {f : α → Option β} : ∀ {l : List α} {bs : List β},
    l.mapM f = some bs ↔ List.Forall₂ (fun a b => f a = some b) l bs := by
  intro l
  induction l with
  | nil =>
      intro bs
      rw [List.mapM_nil, List.forall₂_nil_left_iff]
      exact ⟨fun h => (Option.some.inj h).symm, fun h => h ▸ rfl⟩
  | cons a l ih =>
      intro bs
      simp only [List.mapM_cons, Option.pure_def, Option.bind_eq_bind, Option.bind_eq_some_iff,
        Option.some.injEq, List.forall₂_cons_left_iff, ih]
      constructor
      · rintro ⟨b, hb, bs', hbs', rfl⟩
        exact ⟨b, bs', hb, hbs', rfl⟩
      · rintro ⟨b, bs', hb, hbs', rfl⟩
        exact ⟨b, hb, bs', hbs', rfl⟩

theorem mapM_getElem? {α β : Type} {f : α → Option β} {l : List α} {bs : List β} (h : l.mapM f = some bs) :
    bs.length = l.length ∧ ∀ (i : Nat) (a : α), l[i]? = some a → ∃ b, f a = some b ∧ bs[i]? = some b := by
  have hall := mapM_eq_some_iff.mp h
  refine ⟨hall.length_eq.symm, fun i a ha => ?_⟩
  obtain ⟨hi, rfl⟩ := List.getElem?_eq_some_iff.mp ha
  have hi' : i < bs.length := hall.length_eq ▸ hi
  exact ⟨bs[i], hall.get hi hi', List.getElem?_eq_getElem hi'⟩

theorem blockByIndex_eq_some {source : SourceRequestIndex} {i : Nat} {b : SourceBlock}
    (h : blockByIndex source i = some b) : b ∈ source.blocks ∧ b.blockIndex = i :=
  ⟨List.mem_reverse.mp (List.mem_of_find?_eq_some h), by simpa using List.find?_some h⟩

/-- The number of blocks a window touches. -/
theorem length_windowBlocks {cfg : LocatorConfig} {source : SourceRequestIndex} {start : Nat}
    {blocks : List SourceBlock} (h : windowBlocks cfg source start = some blocks) :
    blocks.length = if start % cfg.blockSize = 0 then 1 else 2 := by
  have hbs := cfg.blockSize_pos
  have hlen := (mapM_getElem? h).1
  rw [List.length_range'] at hlen
  have hdm := Nat.div_add_mod start cfg.blockSize
  have hmod := Nat.mod_lt start hbs
  rw [hlen]
  split
  · next h0 =>
      have : (start + cfg.blockSize - 1) / cfg.blockSize = start / cfg.blockSize := by
        have he : start + cfg.blockSize - 1
            = cfg.blockSize - 1 + cfg.blockSize * (start / cfg.blockSize) := by omega
        rw [he, Nat.add_mul_div_left _ _ hbs, Nat.div_eq_of_lt (by omega), Nat.zero_add]
      omega
  · next h0 =>
      have : (start + cfg.blockSize - 1) / cfg.blockSize = start / cfg.blockSize + 1 := by
        have he : start + cfg.blockSize - 1
            = (start % cfg.blockSize - 1) + cfg.blockSize * (start / cfg.blockSize + 1) := by
          rw [Nat.mul_succ]; omega
        rw [he, Nat.add_mul_div_left _ _ hbs, Nat.div_eq_of_lt (by omega), Nat.zero_add]
      omega

/-- **Row `j` of a window** lies in the block that holds position `start + j` of the source. -/
theorem windowBlocks_row {cfg : LocatorConfig} {source : SourceRequestIndex} {start : Nat}
    {blocks : List SourceBlock} (h : windowBlocks cfg source start = some blocks) {j : Nat}
    (hj : j < cfg.blockSize) :
    ∃ b ∈ source.blocks, b.blockIndex = (start + j) / cfg.blockSize ∧
      blocks[(start % cfg.blockSize + j) / cfg.blockSize]? = some b := by
  have hbs := cfg.blockSize_pos
  have hdm := Nat.div_add_mod start cfg.blockSize
  have hk : (start + j) / cfg.blockSize
      = start / cfg.blockSize + (start % cfg.blockSize + j) / cfg.blockSize := by
    have he : start + j = (start % cfg.blockSize + j) + cfg.blockSize * (start / cfg.blockSize) := by
      omega
    rw [he, Nat.add_mul_div_left _ _ hbs]
    have hs : ((start % cfg.blockSize + j) + cfg.blockSize * (start / cfg.blockSize)) - j = start := by
      omega
    omega
  have hle : (start + j) / cfg.blockSize ≤ (start + cfg.blockSize - 1) / cfg.blockSize :=
    Nat.div_le_div_right (by omega)
  obtain ⟨b, hb, hget⟩ := (mapM_getElem? h).2 ((start % cfg.blockSize + j) / cfg.blockSize)
    ((start + j) / cfg.blockSize) (by rw [List.getElem?_range' (by omega)]; congr 1; omega)
  obtain ⟨hmem, hidx⟩ := blockByIndex_eq_some hb
  exact ⟨b, hmem, hidx, hget⟩

/-! ### Candidates -/

/-- A candidate of a target prompt: a full block behind the native hit, and a window of the source
with the same tokens. -/
structure IsCandidate (cfg : LocatorConfig) (pool : BlockPool) (source : SourceRequestIndex)
    (promptTokenIds : List Nat) (nativeCachedTokens : Nat) (c : PartialReuseCandidate) : Prop where
  native_le : nativeCachedTokens ≤ c.targetBlockIndex * cfg.blockSize
  full : (c.targetBlockIndex + 1) * cfg.blockSize ≤ promptTokenIds.length
  requiresRepair : c.requiresRepair = true
  head_ids : c.sourceBlockIds.head? = some c.sourceBlockId
  window : ∃ start blocks, windowBlocks cfg source start = some blocks ∧
    start + cfg.blockSize ≤ source.promptTokenIds.length ∧
    (source.promptTokenIds.drop start).take cfg.blockSize
      = (promptTokenIds.drop (c.targetBlockIndex * cfg.blockSize)).take cfg.blockSize ∧
    c.sourceBlockOffset = start % cfg.blockSize ∧
    c.sourceBlockIds = blocks.map SourceBlock.blockId ∧
    c.sourceResident = blocks.all (isResident pool) ∧
    (cfg.allowRepacking = false → start % cfg.blockSize = 0)

/-- A plan's candidates, in the order of the target blocks. -/
structure Located (cfg : LocatorConfig) (pool : BlockPool) (source : SourceRequestIndex)
    (promptTokenIds : List Nat) (nativeCachedTokens : Nat)
    (candidates : List PartialReuseCandidate) : Prop where
  ordered : candidates.Pairwise fun c c' => c.targetBlockIndex < c'.targetBlockIndex
  candidate : ∀ c ∈ candidates,
    IsCandidate cfg pool source promptTokenIds nativeCachedTokens c

theorem le_firstTargetBlock_mul (cfg : LocatorConfig) (n : Nat) :
    n ≤ firstTargetBlock cfg n * cfg.blockSize := by
  have hbs := cfg.blockSize_pos
  have := Nat.lt_div_mul_add (a := n + cfg.blockSize - 1) hbs
  rw [firstTargetBlock]
  omega

/-- The locator goes over windows that are aligned unless repacking is on. -/
theorem mem_sourceWindows_iff {cfg : LocatorConfig} {source : SourceRequestIndex}
    (hne : source.promptTokenIds ≠ []) {tokenIds : List Nat} {w : Nat × List SourceBlock} :
    w ∈ sourceWindows cfg source tokenIds ↔
      w.1 + cfg.blockSize ≤ source.promptTokenIds.length ∧
        (cfg.allowRepacking = true ∨ w.1 % cfg.blockSize = 0) ∧
        (source.promptTokenIds.drop w.1).take cfg.blockSize = tokenIds ∧
        windowBlocks cfg source w.1 = some w.2 := by
  have hstep : ∀ start, start % (if cfg.allowRepacking then 1 else cfg.blockSize) = 0 ↔
      cfg.allowRepacking = true ∨ start % cfg.blockSize = 0 := by
    intro start
    cases cfg.allowRepacking with
    | false => simp
    | true => simp [Nat.mod_one]
  rw [sourceWindows, if_neg hne]
  simp only [List.mem_filterMap, List.mem_range, Option.ite_none_right_eq_some,
    Option.map_eq_some_iff, hstep]
  constructor
  · rintro ⟨start, hlt, ⟨hal, heq⟩, blocks, hblocks, rfl⟩
    exact ⟨by dsimp only; omega, hal, heq, hblocks⟩
  · rintro ⟨hle, hal, heq, hblocks⟩
    exact ⟨w.1, by omega, ⟨hal, heq⟩, w.2, hblocks, rfl⟩

/-- An entry whose prompt is empty holds no full block, and so has no window. -/
theorem prompt_ne_nil_of_mem {cfg : LocatorConfig} {source : SourceRequestIndex}
    (hfull : ∀ b ∈ source.blocks, (b.blockIndex + 1) * cfg.blockSize ≤ source.promptTokenIds.length)
    {tokenIds : List Nat} {w : Nat × List SourceBlock} (hw : w ∈ sourceWindows cfg source tokenIds) :
    source.promptTokenIds ≠ [] := by
  intro hnil
  have hbs := cfg.blockSize_pos
  rw [sourceWindows, if_pos hnil] at hw
  obtain ⟨b, hb, -⟩ := List.mem_filterMap.mp hw
  have hlength := hfull b hb
  rw [hnil, List.length_nil, Nat.succ_mul] at hlength
  omega

theorem isCandidate_candidateAt {cfg : LocatorConfig} {pool : BlockPool}
    {source : SourceRequestIndex} (hwf : source.WF cfg.blockSize) {promptTokenIds : List Nat}
    {native t : Nat} {c : PartialReuseCandidate} (hn : native ≤ t * cfg.blockSize)
    (ht : t < promptTokenIds.length / cfg.blockSize)
    (hc : candidateAt cfg pool source promptTokenIds t = some c) :
    c.targetBlockIndex = t ∧ IsCandidate cfg pool source promptTokenIds native c := by
  rw [candidateAt] at hc
  split at hc
  · cases hc
  · next start blocks hsel =>
      obtain ⟨b, hb, rfl⟩ := Option.map_eq_some_iff.mp hc
      have hmem := List.argmin_mem hsel
      obtain ⟨hle, hal, htok, hwin⟩ :=
        (mem_sourceWindows_iff (prompt_ne_nil_of_mem hwf.full hmem)).mp hmem
      have hal : cfg.allowRepacking = false → start % cfg.blockSize = 0 :=
        fun hr => hal.resolve_left (by rw [hr]; exact Bool.false_ne_true)
      refine ⟨rfl, hn, Nat.le_trans (Nat.mul_le_mul_right _ ht) (Nat.div_mul_le_self _ _), rfl, ?_,
        start, blocks, hwin, hle, htok, rfl, rfl, rfl, hal⟩
      change (blocks.map SourceBlock.blockId).head? = _
      rw [List.head?_map, hb]
      rfl

/-- **The candidates of a well-formed source.** -/
theorem located_rawCandidates {cfg : LocatorConfig} {pool : BlockPool}
    {source : SourceRequestIndex} (hwf : source.WF cfg.blockSize) (promptTokenIds : List Nat)
    (native : Nat) :
    Located cfg pool source promptTokenIds native
      (rawCandidates cfg pool source promptTokenIds native) := by
  have hle := le_firstTargetBlock_mul cfg native
  have hmem : ∀ t ∈ List.range' (firstTargetBlock cfg native)
      (promptTokenIds.length / cfg.blockSize - firstTargetBlock cfg native),
      native ≤ t * cfg.blockSize ∧ t < promptTokenIds.length / cfg.blockSize := by
    intro t ht
    rw [List.mem_range'_1] at ht
    exact ⟨Nat.le_trans hle (Nat.mul_le_mul_right _ ht.1), by omega⟩
  refine ⟨?_, ?_⟩
  · rw [rawCandidates]
    refine List.Pairwise.filterMap _ ?_ (R := fun (t t' : Nat) => t < t' ∧
      t ∈ List.range' (firstTargetBlock cfg native)
        (promptTokenIds.length / cfg.blockSize - firstTargetBlock cfg native) ∧
      t' ∈ List.range' (firstTargetBlock cfg native)
        (promptTokenIds.length / cfg.blockSize - firstTargetBlock cfg native)) ?_
    · rintro t t' ⟨hlt, ht, ht'⟩ c hc c' hc'
      have h1 := (isCandidate_candidateAt hwf (hmem t ht).1 (hmem t ht).2 hc).1
      have h2 := (isCandidate_candidateAt hwf (hmem t' ht').1 (hmem t' ht').2 hc').1
      omega
    · exact (List.pairwise_lt_range' _).imp_of_mem fun ht ht' hlt => ⟨hlt, ht, ht'⟩
  · intro c hc
    obtain ⟨t, ht, hc⟩ := List.mem_filterMap.mp hc
    exact (isCandidate_candidateAt hwf (hmem t ht).1 (hmem t ht).2 hc).2

/-! ### Annotations -/

/-- Two candidates that differ in what the annotations write. -/
def SameMatch (c c' : PartialReuseCandidate) : Prop :=
  c' = { c with
    blockDisplacement := c'.blockDisplacement
    nearestChangedBlockDistance := c'.nearestChangedBlockDistance
    selectorFeatures := c'.selectorFeatures }

theorem SameMatch.isCandidate {cfg : LocatorConfig} {pool : BlockPool}
    {source : SourceRequestIndex} {promptTokenIds : List Nat} {native : Nat}
    {c c' : PartialReuseCandidate} (h : SameMatch c c')
    (hc : IsCandidate cfg pool source promptTokenIds native c) :
    IsCandidate cfg pool source promptTokenIds native c' := by
  rw [h]
  exact ⟨hc.native_le, hc.full, hc.requiresRepair, hc.head_ids, hc.window⟩

theorem Located.map {cfg : LocatorConfig} {pool : BlockPool} {source : SourceRequestIndex}
    {promptTokenIds : List Nat} {native : Nat} {cs : List PartialReuseCandidate}
    (h : Located cfg pool source promptTokenIds native cs)
    {g : PartialReuseCandidate → PartialReuseCandidate} (hg : ∀ c, SameMatch c (g c)) :
    Located cfg pool source promptTokenIds native (cs.map g) := by
  refine ⟨List.pairwise_map.mpr (h.ordered.imp ?_), ?_⟩
  · intro c c' hlt
    rw [hg c, hg c']
    exact hlt
  · intro c' hc'
    obtain ⟨c, hc, rfl⟩ := List.mem_map.mp hc'
    exact (hg c).isCandidate (h.candidate c hc)

theorem annotateChangeGeometry_eq (cs : List PartialReuseCandidate) (first n : Nat) :
    ∃ g, annotateChangeGeometry cs first n = cs.map g ∧ ∀ c, SameMatch c (g c) :=
  ⟨_, rfl, fun _ => rfl⟩

theorem withFeatures_same
    (rows : List (CandidateBlock × CandidateBlockFeatures × CandidateContextFeatures))
    (c : PartialReuseCandidate) : SameMatch c (withFeatures rows c) := by
  rw [withFeatures]
  split <;> rfl

/-- The rows that the features are taken from: one for each block of the analysis. -/
theorem attachSelectorFeatures_eq (cfg : LocatorConfig) {previousTokens currentTokens : List Nat}
    {native : Nat} (cs : List PartialReuseCandidate)
    (hle : native ≤ commonPrefixLength previousTokens currentTokens) :
    ∃ block context,
      extractCandidateBlockFeatures previousTokens currentTokens
        (reuseOpportunity previousTokens currentTokens native cfg.blockSize) = .ok block ∧
      extractCandidateContextFeatures cfg.opcodes previousTokens currentTokens
        (reuseOpportunity previousTokens currentTokens native cfg.blockSize) = .ok context ∧
      block.length = (candidateBlocksAfter previousTokens currentTokens native
        cfg.blockSize).length ∧
      context.length = block.length ∧
      attachSelectorFeatures cfg previousTokens currentTokens native cs
        = .ok (cs.map (withFeatures ((candidateBlocksAfter previousTokens currentTokens native
          cfg.blockSize).zip (block.zip context)))) := by
  obtain ⟨⟨block, hblock, hlen⟩, context, hcontext, hlen'⟩ :=
    extract_ok cfg.opcodes previousTokens currentTokens native cfg.blockSize
  refine ⟨block, context, hblock, hcontext, hlen, hlen'.trans hlen.symm, ?_⟩
  rw [attachSelectorFeatures, analyzeReuseOpportunity_eq cfg.blockSize_pos hle]
  change (extractCandidateContextFeatures cfg.opcodes previousTokens currentTokens
    (reuseOpportunity previousTokens currentTokens native cfg.blockSize) >>= _) = _
  rw [hcontext]
  change (extractCandidateBlockFeatures previousTokens currentTokens
    (reuseOpportunity previousTokens currentTokens native cfg.blockSize) >>= _) = _
  rw [hblock]
  change (if _ then _ else _) = _
  rw [if_neg]
  · rfl
  · rintro (h | h)
    · exact h hlen.symm
    · exact h (hlen.trans hlen'.symm)

theorem attachSelectorFeatures_ok (cfg : LocatorConfig) {previousTokens currentTokens : List Nat}
    {native : Nat} (cs : List PartialReuseCandidate)
    (hle : native ≤ commonPrefixLength previousTokens currentTokens) :
    ∃ g, attachSelectorFeatures cfg previousTokens currentTokens native cs = .ok (cs.map g) ∧
      ∀ c, SameMatch c (g c) := by
  obtain ⟨block, context, -, -, -, -, h⟩ := attachSelectorFeatures_eq cfg cs hle
  exact ⟨_, h, withFeatures_same _⟩

theorem attachSelectorFeatures_error (cfg : LocatorConfig) {previousTokens currentTokens : List Nat}
    {native : Nat} (cs : List PartialReuseCandidate)
    (hlt : commonPrefixLength previousTokens currentTokens < native) :
    ∃ e, attachSelectorFeatures cfg previousTokens currentTokens native cs = .error e := by
  obtain ⟨e, he⟩ := analyzeReuseOpportunity_error cfg.blockSize hlt
  refine ⟨e, ?_⟩
  rw [attachSelectorFeatures, he]
  rfl

/-! ### The plan -/

/-- A plan that is matched against a source raises only where the analysis does. -/
theorem matchedPlan_ok {cfg : LocatorConfig} {pool : BlockPool} {source : SourceRequestIndex}
    {r : Request} {promptTokenIds : List Nat} {native : Nat} (selection : SourceSelection)
    {id : String} (hid : r.cacheselectSourceRequestId = some id)
    (hle : cfg.collectSelectorFeatures = true →
      rawCandidates cfg pool source promptTokenIds native ≠ [] →
      native ≤ commonPrefixLength source.promptTokenIds promptTokenIds) :
    ∃ plan g, matchedPlan cfg pool source r promptTokenIds native selection = .ok plan ∧
      plan.sourceRequestId = id ∧ plan.blockSize = cfg.blockSize ∧
      plan.nativeCachedTokens = native ∧
      plan.counterfactualReuseBlockIndex = r.cacheselectCounterfactualReuseBlockIndex ∧
      plan.candidates = (rawCandidates cfg pool source promptTokenIds native).map g ∧
      ∀ c, SameMatch c (g c) := by
  obtain ⟨g, hg, hsame⟩ := annotateChangeGeometry_eq
    (rawCandidates cfg pool source promptTokenIds native) (firstTargetBlock cfg native)
    (promptTokenIds.length / cfg.blockSize)
  have hattach : ∃ g', attachCollected cfg source.promptTokenIds promptTokenIds native
      ((rawCandidates cfg pool source promptTokenIds native).map g)
      = .ok ((rawCandidates cfg pool source promptTokenIds native).map g') ∧
      ∀ c, SameMatch c (g' c) := by
    rw [attachCollected]
    by_cases hc : cfg.collectSelectorFeatures = true ∧
        (rawCandidates cfg pool source promptTokenIds native).map g ≠ []
    · rw [if_pos hc]
      obtain ⟨g', hg', hsame'⟩ := attachSelectorFeatures_ok cfg
        ((rawCandidates cfg pool source promptTokenIds native).map g)
        (hle hc.1 fun hnil => hc.2 (by rw [hnil]; rfl))
      refine ⟨g' ∘ g, by rw [hg', List.map_map], ?_⟩
      intro c
      have h1 := hsame c
      have h2 := hsame' (g c)
      rw [Function.comp, SameMatch, h2, h1]
    · rw [if_neg hc]
      exact ⟨g, rfl, hsame⟩
  obtain ⟨g', hg', hsame'⟩ := hattach
  refine ⟨{
    transitionId := r.cacheselectTransitionId
    sourceRequestId := id
    targetRequestId := r.sourceIndexId
    blockSize := cfg.blockSize
    nativeCachedTokens := native
    reason := matchReason (rawCandidates cfg pool source promptTokenIds native)
    sourceSelection := selection
    counterfactualReuseBlockIndex := r.cacheselectCounterfactualReuseBlockIndex
    candidates := (rawCandidates cfg pool source promptTokenIds native).map g' }, g', ?_, rfl, rfl,
    rfl, rfl, rfl, hsame'⟩
  rw [matchedPlan, hg]
  rw [hg']
  change planOf cfg r native _ selection _ = _
  rw [planOf, hid]

theorem matchedPlan_error {cfg : LocatorConfig} {pool : BlockPool} {source : SourceRequestIndex}
    (r : Request) {promptTokenIds : List Nat} {native : Nat} (selection : SourceSelection)
    (hcollect : cfg.collectSelectorFeatures = true)
    (hne : rawCandidates cfg pool source promptTokenIds native ≠ [])
    (hlt : commonPrefixLength source.promptTokenIds promptTokenIds < native) :
    ∃ e, matchedPlan cfg pool source r promptTokenIds native selection = .error e := by
  obtain ⟨g, hg, -⟩ := annotateChangeGeometry_eq
    (rawCandidates cfg pool source promptTokenIds native) (firstTargetBlock cfg native)
    (promptTokenIds.length / cfg.blockSize)
  obtain ⟨e, he⟩ := attachSelectorFeatures_error cfg
    ((rawCandidates cfg pool source promptTokenIds native).map g) hlt
  refine ⟨e, ?_⟩
  rw [matchedPlan, hg]
  rw [attachCollected, if_pos ⟨hcollect, by simpa using hne⟩, he]
  rfl

/-! ### `locate` -/

theorem fallbackSource_withFallback (cfg : LocatorConfig) (pool : BlockPool)
    (l : AlignedBlockReuseLocator) (r : Request) (native : Nat) (id : String)
    (cs : List PartialReuseCandidate) :
    fallbackSource cfg pool l r native id .fingerprint cs = none := by
  rw [fallbackSource, if_neg]
  rintro ⟨-, h, -⟩
  cases h

theorem resolveSource_withFallback (cfg : LocatorConfig) (pool : BlockPool)
    (l : AlignedBlockReuseLocator) (r : Request) (native : Nat) (id : String) :
    resolveSource cfg pool l (withFallback r id) native
      = some (withFallback r id, id, .fingerprint) := rfl

/-- The source that a request is matched against in the end, with the request's prompt. -/
def finalSource (cfg : LocatorConfig) (pool : BlockPool) (l : AlignedBlockReuseLocator)
    (r : Request) (nativeCachedTokens : Nat) : Option (SourceRequestIndex × List Nat) :=
  match resolveSource cfg pool l r nativeCachedTokens with
  | none => none
  | some (r, sourceId, selection) =>
      match usableSource l r sourceId with
      | .error _ => none
      | .ok (source, promptTokenIds) =>
          match fallbackSource cfg pool l r nativeCachedTokens sourceId selection
              (rawCandidates cfg pool source promptTokenIds nativeCachedTokens) with
          | none => some (source, promptTokenIds)
          | some fallbackId => (usableSource l r fallbackId).toOption

/-- The request after `locate`: only the choice of a source may have been written. -/
def SameRequest (r r' : Request) : Prop :=
  r' = { r with
    cacheselectSourceRequestId := r'.cacheselectSourceRequestId
    cacheselectSourceSelection := r'.cacheselectSourceSelection }

theorem resolveSource_spec {cfg : LocatorConfig} {pool : BlockPool}
    {l : AlignedBlockReuseLocator} {r r' : Request} {native : Nat} {id : String}
    {selection : SourceSelection}
    (h : resolveSource cfg pool l r native = some (r', id, selection)) :
    SameRequest r r' ∧ r'.cacheselectSourceRequestId = some id := by
  rw [resolveSource] at h
  split at h
  · next hid =>
      cases h
      exact ⟨rfl, hid⟩
  · obtain ⟨x, -, hx⟩ := Option.map_eq_some_iff.mp h
    cases hx
    exact ⟨rfl, rfl⟩

theorem usableSource_ok {l : AlignedBlockReuseLocator} {r : Request} {id : String}
    {source : SourceRequestIndex} {promptTokenIds : List Nat}
    (h : usableSource l r id = .ok (source, promptTokenIds)) :
    l.getSource id = some source ∧ r.promptTokenIds = some promptTokenIds := by
  rw [usableSource] at h
  split at h
  · cases h
  · next s hs =>
      split at h
      · cases h
      · split at h
        · cases h
        · split at h
          · cases h
          · next p hp =>
              cases h
              exact ⟨hs, hp⟩

theorem SameRequest.usableSource {r r' : Request} (h : SameRequest r r')
    (l : AlignedBlockReuseLocator) (id : String) :
    AlignedBlockReuseLocator.usableSource l r' id = AlignedBlockReuseLocator.usableSource l r id := by
  rw [h]
  rfl

theorem SameRequest.withFallback {r r' : Request} (h : SameRequest r r') (id : String) :
    SameRequest r (AlignedBlockReuseLocator.withFallback r' id) := by
  rw [h]
  rfl

/-- Without a plan, or with an empty one, nothing was matched. -/
def IsEmptyPlan (plan : Option PartialReusePlan) : Prop :=
  ∀ p, plan = some p → p.candidates = []

/-- What comes of a request that names a source, when no fallback is tried. -/
theorem matchNamed (cfg : LocatorConfig) (l : AlignedBlockReuseLocator)
    {r r' : Request} (native : Nat) {id : String} (selection : SourceSelection)
    (hsame : SameRequest r r') (hid : r'.cacheselectSourceRequestId = some id) :
    (∃ reason plan, usableSource l r' id = .error reason ∧
      (planOf cfg r' native reason selection []).map (fun plan => (some plan, r'))
        = .ok (some plan, r') ∧ plan.candidates = []) ∨
    ∃ source promptTokenIds, usableSource l r' id = .ok (source, promptTokenIds) ∧
      l.getSource id = some source ∧ r.promptTokenIds = some promptTokenIds := by
  cases hu : usableSource l r' id with
  | error reason =>
      obtain ⟨plan, hplan, hnil⟩ : ∃ plan, planOf cfg r' native reason selection [] = .ok plan ∧
          plan.candidates = [] := by
        rw [planOf, hid]
        exact ⟨_, rfl, rfl⟩
      exact Or.inl ⟨reason, plan, rfl, by rw [hplan]; rfl, hnil⟩
  | ok x =>
      obtain ⟨hs, hp⟩ := usableSource_ok hu
      rw [hsame] at hp
      exact Or.inr ⟨x.1, x.2, rfl, hs, hp⟩

/-- **How `locate` ends**: with an empty plan, or by matching against the final source. -/
theorem locate_cases (cfg : LocatorConfig) (pool : BlockPool) (l : AlignedBlockReuseLocator)
    (r : Request) (native : Nat) :
    (finalSource cfg pool l r native = none ∧ ∃ plan r', locate cfg pool l r native = .ok (plan, r') ∧
      SameRequest r r' ∧ IsEmptyPlan plan) ∨
    ∃ source promptTokenIds r' id selection,
      finalSource cfg pool l r native = some (source, promptTokenIds) ∧
      l.getSource id = some source ∧ r.promptTokenIds = some promptTokenIds ∧
      SameRequest r r' ∧ r'.cacheselectSourceRequestId = some id ∧
      locate cfg pool l r native
        = (matchedPlan cfg pool source r' promptTokenIds native selection).map
          fun plan => (some plan, r') := by
  rw [locate, finalSource, locateStep]
  cases hres : resolveSource cfg pool l r native with
  | none => exact Or.inl ⟨rfl, none, r, rfl, rfl, nofun⟩
  | some x =>
      obtain ⟨r', id, selection⟩ := x
      obtain ⟨hsame, hid⟩ := resolveSource_spec hres
      rcases matchNamed cfg l native selection hsame hid with
        ⟨reason, plan, hu, hplan, hnil⟩ | ⟨source, p, hu, hs, hp⟩
      · simp only [hu]
        refine Or.inl ⟨trivial, some plan, r', hplan, hsame, ?_⟩
        rintro _ ⟨⟩
        exact hnil
      · simp only [hu]
        cases hf : fallbackSource cfg pool l r' native id selection
            (rawCandidates cfg pool source p native) with
        | none => exact Or.inr ⟨source, p, r', id, selection, rfl, hs, hp, hsame, hid, rfl⟩
        | some fid =>
            have hsame' := hsame.withFallback fid
            have hu' : usableSource l (withFallback r' fid) fid = usableSource l r' fid :=
              rfl
            dsimp only
            rw [locateStep, resolveSource_withFallback]
            simp only
            rcases matchNamed cfg l native .fingerprint hsame'
                (show (withFallback r' fid).cacheselectSourceRequestId = some fid from rfl) with
              ⟨reason, plan, hu₂, hplan, hnil⟩ | ⟨source₂, p₂, hu₂, hs₂, hp₂⟩
            · rw [hu'] at hu₂
              simp only [hu', hu₂]
              refine Or.inl ⟨rfl, some plan, _, hplan, hsame', ?_⟩
              rintro _ ⟨⟩
              exact hnil
            · rw [hu'] at hu₂
              simp only [hu', hu₂, fallbackSource_withFallback]
              exact Or.inr ⟨source₂, p₂, _, fid, .fingerprint, rfl, hs₂, hp₂, hsame', rfl, rfl⟩

/-- A plan of `locate`, for a well-formed index. -/
structure LocatedPlan (cfg : LocatorConfig) (pool : BlockPool) (l : AlignedBlockReuseLocator)
    (r : Request) (native : Nat) (source : SourceRequestIndex) (promptTokenIds : List Nat)
    (plan : PartialReusePlan) : Prop where
  source_eq : l.getSource plan.sourceRequestId = some source
  prompt_eq : r.promptTokenIds = some promptTokenIds
  blockSize_eq : plan.blockSize = cfg.blockSize
  native_eq : plan.nativeCachedTokens = native
  located : Located cfg pool source promptTokenIds native plan.candidates

/-- **What `locate` returns**: an empty plan, or one that is matched against the final source. -/
theorem locate_ok {cfg : LocatorConfig} {pool : BlockPool} {l : AlignedBlockReuseLocator}
    {r r' : Request} {native : Nat} {plan : Option PartialReusePlan} (hwf : l.WF cfg.blockSize)
    (h : locate cfg pool l r native = .ok (plan, r')) :
    SameRequest r r' ∧ (IsEmptyPlan plan ∨ ∃ p source promptTokenIds, plan = some p ∧
      LocatedPlan cfg pool l r native source promptTokenIds p) := by
  rcases locate_cases cfg pool l r native with
    ⟨-, plan₁, r₁, h₁, hsame, hempty⟩ | ⟨source, p, r₁, id, selection, -, hs, hp, hsame, hid, h₁⟩
  · rw [h, Except.ok.injEq, Prod.mk.injEq] at h₁
    obtain ⟨rfl, rfl⟩ := h₁
    exact ⟨hsame, Or.inl hempty⟩
  · rw [h₁, Except.map_eq_ok] at h
    obtain ⟨q, hq, he⟩ := h
    obtain ⟨rfl, rfl⟩ := Prod.mk.inj he
    refine ⟨hsame, Or.inr ⟨q, source, p, rfl, ?_⟩⟩
    have hle : cfg.collectSelectorFeatures = true →
        rawCandidates cfg pool source p native ≠ [] →
        native ≤ commonPrefixLength source.promptTokenIds p := by
      intro hc hne
      by_contra hlt
      obtain ⟨e, he⟩ := matchedPlan_error r₁ selection hc hne (by omega)
      rw [hq] at he
      cases he
    obtain ⟨q', g, hq', hid', hbs, hn, -, hcs, hg⟩ := matchedPlan_ok selection hid hle
    rw [hq, Except.ok.injEq] at hq'
    subst hq'
    exact ⟨by rw [hid']; exact hs, hp, hbs, hn, by
      rw [hcs]; exact (located_rawCandidates (hwf source (getSource_mem hs).1) p native).map hg⟩

/-- **When `locate` raises**: exactly when features are collected and the native hit goes beyond
the common prefix with the final source, for a request that has a candidate. -/
theorem locate_error_cases (cfg : LocatorConfig) (pool : BlockPool)
    (l : AlignedBlockReuseLocator) (r : Request) (native : Nat) :
    (∃ e, locate cfg pool l r native = .error e) ↔
      cfg.collectSelectorFeatures = true ∧ ∃ source promptTokenIds,
        finalSource cfg pool l r native = some (source, promptTokenIds) ∧
        rawCandidates cfg pool source promptTokenIds native ≠ [] ∧
        commonPrefixLength source.promptTokenIds promptTokenIds < native := by
  rcases locate_cases cfg pool l r native with
    ⟨hnone, plan₁, r₁, h₁, -⟩ | ⟨source, p, r₁, id, selection, hsome, hs, hp, hsame, hid, h₁⟩
  · rw [h₁, hnone]
    constructor
    · rintro ⟨e, he⟩
      cases he
    · rintro ⟨-, s, p, hsp, -⟩
      cases hsp
  · rw [h₁, hsome]
    constructor
    · rintro ⟨e, he⟩
      by_contra hcond
      have hle : cfg.collectSelectorFeatures = true →
          rawCandidates cfg pool source p native ≠ [] →
          native ≤ commonPrefixLength source.promptTokenIds p := by
        intro hc hne
        by_contra hlt
        exact hcond ⟨hc, source, p, rfl, hne, by omega⟩
      obtain ⟨q, g, hq, -⟩ := matchedPlan_ok selection hid hle
      rw [hq] at he
      cases he
    · rintro ⟨hc, s, p', hsp, hne, hlt⟩
      cases hsp
      obtain ⟨e, he⟩ := matchedPlan_error r₁ selection hc hne hlt
      exact ⟨e, by rw [he]; rfl⟩

end AlignedBlockReuseLocator

end CacheSelect.Core
