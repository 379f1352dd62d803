import CacheSelect.Core.LocatorRuns

/-! # Which windows a plan names

`IsWindow` says what a window of a source is, without going through the dictionary of the code, and `Better`
is the order in which the locator prefers one to another.  `locate_candidates` says that the candidates of
a plan are exactly the full target blocks behind the native hit that have a window, each with the best one.

The sources are those of any sequence of calls: whatever table a sequence was indexed with, its entry holds
full blocks, at most one for each index (`run_indexed`).
-/

namespace CacheSelect.Core

open CacheSelect.Features

/-- An entry holds full blocks of its prompt, at most one for each index. -/
structure SourceRequestIndex.Indexed (blockSize : Nat) (source : SourceRequestIndex) : Prop where
  full : ∀ b ∈ source.blocks, (b.blockIndex + 1) * blockSize ≤ source.promptTokenIds.length
  nodup_index : (source.blocks.map SourceBlock.blockIndex).Nodup

namespace AlignedBlockReuseLocator

/-! ### Remembered sequences -/

theorem nodup_index_indexedBlocks (cfg : LocatorConfig) (pool : BlockPool) (r : Request)
    (promptTokenIds blocks : List Nat) :
    ((indexedBlocks cfg pool r promptTokenIds blocks).map SourceBlock.blockIndex).Nodup := by
  rw [indexedBlocks, List.Nodup, List.pairwise_map]
  refine List.Pairwise.filterMap _ ?_ (R := fun (x y : Nat × Nat) => x.2 ≠ y.2) ?_
  · rintro ⟨id, i⟩ ⟨id', i'⟩ hne b hb b' hb'
    simp only at hb hb'
    split at hb
    · cases hb
    · split at hb
      · cases hb
      · split at hb'
        · cases hb'
        · split at hb'
          · cases hb'
          · cases hb
            cases hb'
            exact hne
  · rw [List.pairwise_iff_getElem]
    intro i j _ _ hij
    rw [List.getElem_zipIdx, List.getElem_zipIdx]
    dsimp only
    omega

theorem sourceEntry_indexed (cfg : LocatorConfig) (pool : BlockPool) (r : Request)
    (promptTokenIds blocks : List Nat) :
    (sourceEntry cfg pool r promptTokenIds blocks).Indexed cfg.blockSize where
  full := fun _ hb => Nat.le_trans (Nat.mul_le_mul_right _ (mem_indexedBlocks hb).1)
    (Nat.div_mul_le_self _ _)
  nodup_index := nodup_index_indexedBlocks cfg pool r promptTokenIds blocks

theorem after_indexed (cfg : LocatorConfig) {l : AlignedBlockReuseLocator}
    (h : ∀ s ∈ l.sources, s.Indexed cfg.blockSize) (call : LocatorCall) :
    ∀ s ∈ (after cfg l call).sources, s.Indexed cfg.blockSize := by
  intro s hs
  cases call with
  | index pool r blocks =>
      rw [after] at hs
      cases hp : r.promptTokenIds with
      | none =>
          rw [index_none hp] at hs
          exact h s hs
      | some promptTokenIds =>
          rcases index_sources hp hs with rfl | ⟨hs, -⟩
          · exact sourceEntry_indexed cfg pool r promptTokenIds blocks
          · exact h s hs
  | locate pool r native => exact h s hs
  | clear => cases hs

theorem run_indexed (cfg : LocatorConfig) (calls : List LocatorCall) :
    ∀ s ∈ (run cfg calls).sources, s.Indexed cfg.blockSize := by
  rw [run]
  induction calls using List.reverseRecOn with
  | nil =>
      intro s hs
      cases hs
  | append_singleton calls call ih =>
      rw [List.foldl_append]
      exact after_indexed cfg ih call

/-! ### Windows -/

/-- A window of a source with given tokens: the position it starts at, and the indexed blocks that hold it. -/
structure IsWindow (cfg : LocatorConfig) (source : SourceRequestIndex) (tokenIds : List Nat)
    (w : Nat × List SourceBlock) : Prop where
  le_length : w.1 + cfg.blockSize ≤ source.promptTokenIds.length
  tokens : (source.promptTokenIds.drop w.1).take cfg.blockSize = tokenIds
  step : cfg.allowRepacking = true ∨ cfg.blockSize ∣ w.1
  indexed : ∀ b ∈ w.2, b ∈ source.blocks
  covers : w.2.map SourceBlock.blockIndex = List.range' (w.1 / cfg.blockSize)
    ((w.1 + cfg.blockSize - 1) / cfg.blockSize + 1 - w.1 / cfg.blockSize)

theorem forall₂_mem_and_eq {α β : Type} {s : List β} {g : β → α} : ∀ {l : List α} {bs : List β},
    List.Forall₂ (fun a b => b ∈ s ∧ g b = a) l bs ↔ (∀ b ∈ bs, b ∈ s) ∧ bs.map g = l := by
  intro l bs
  constructor
  · intro h
    induction h with
    | nil => exact ⟨by simp, rfl⟩
    | cons hab _ ih => exact ⟨by simpa using ⟨hab.1, ih.1⟩, by rw [List.map_cons, hab.2, ih.2]⟩
  · rintro ⟨hmem, rfl⟩
    induction bs with
    | nil => exact .nil
    | cons b bs ih =>
        rw [List.forall_mem_cons] at hmem
        exact .cons ⟨hmem.1, rfl⟩ (ih hmem.2)

theorem blockByIndex_eq_some_iff {source : SourceRequestIndex}
    (hnd : (source.blocks.map SourceBlock.blockIndex).Nodup) {i : Nat} {b : SourceBlock} :
    blockByIndex source i = some b ↔ b ∈ source.blocks ∧ b.blockIndex = i := by
  constructor
  · exact blockByIndex_eq_some
  · rintro ⟨hb, rfl⟩
    cases hf : blockByIndex source b.blockIndex with
    | none =>
        have := List.find?_eq_none.mp hf b (List.mem_reverse.mpr hb)
        simp at this
    | some b' =>
        obtain ⟨hb', hidx⟩ := blockByIndex_eq_some hf
        rw [List.inj_on_of_nodup_map hnd hb' hb hidx]

theorem windowBlocks_eq_some_iff {cfg : LocatorConfig} {source : SourceRequestIndex}
    (hnd : (source.blocks.map SourceBlock.blockIndex).Nodup) {start : Nat}
    {blocks : List SourceBlock} : windowBlocks cfg source start = some blocks ↔
      (∀ b ∈ blocks, b ∈ source.blocks) ∧ blocks.map SourceBlock.blockIndex
        = List.range' (start / cfg.blockSize)
          ((start + cfg.blockSize - 1) / cfg.blockSize + 1 - start / cfg.blockSize) := by
  rw [windowBlocks, mapM_eq_some_iff, ← forall₂_mem_and_eq]
  simp only [blockByIndex_eq_some_iff hnd]

/-- **The dictionary of windows**, at one block of tokens. -/
theorem mem_sourceWindows_iff_isWindow {cfg : LocatorConfig} {source : SourceRequestIndex}
    (h : source.Indexed cfg.blockSize) {tokenIds : List Nat} {w : Nat × List SourceBlock} :
    w ∈ sourceWindows cfg source tokenIds ↔ IsWindow cfg source tokenIds w := by
  by_cases hnil : source.promptTokenIds = []
  · refine iff_of_false (fun hw => prompt_ne_nil_of_mem h.full hw hnil) fun hw => ?_
    have hbs := cfg.blockSize_pos
    have hle := hw.le_length
    rw [hnil, List.length_nil] at hle
    omega
  · rw [mem_sourceWindows_iff hnil, windowBlocks_eq_some_iff h.nodup_index,
      ← Nat.dvd_iff_mod_eq_zero]
    constructor
    · rintro ⟨h₁, h₂, h₃, h₄, h₅⟩
      exact ⟨h₁, h₃, h₂, h₄, h₅⟩
    · intro hw
      exact ⟨hw.le_length, hw.step, hw.tokens, hw.indexed, hw.covers⟩

/-! ### The preferred window -/

/-- A window is better than another for a target block: fully resident first, then aligned, then near, then
low. -/
def Better (cfg : LocatorConfig) (pool : BlockPool) (targetBlockIndex : Nat)
    (w w' : Nat × List SourceBlock) : Prop :=
  let resident (w : Nat × List SourceBlock) := ∀ b ∈ w.2, isResident pool b = true
  let aligned (w : Nat × List SourceBlock) := cfg.blockSize ∣ w.1
  let distance (w : Nat × List SourceBlock) :=
    ((w.1 : Int) - targetBlockIndex * cfg.blockSize).natAbs
  resident w ∧ ¬ resident w' ∨
    (resident w ↔ resident w') ∧ (aligned w ∧ ¬ aligned w' ∨
      (aligned w ↔ aligned w') ∧ (distance w < distance w' ∨
        distance w = distance w' ∧ w.1 < w'.1))

/-- The key by which `_select_nearest_source_window` compares. -/
def windowKey (cfg : LocatorConfig) (pool : BlockPool) (targetBlockIndex : Nat)
    (w : Nat × List SourceBlock) : Bool ×ₗ Bool ×ₗ Nat ×ₗ Nat :=
  toLex (!(w.2.all (isResident pool)), toLex (w.1 % cfg.blockSize != 0,
    toLex (((w.1 : Int) - targetBlockIndex * cfg.blockSize).natAbs, w.1)))

theorem windowKey_lt_iff (cfg : LocatorConfig) (pool : BlockPool) (t : Nat)
    (w w' : Nat × List SourceBlock) :
    windowKey cfg pool t w < windowKey cfg pool t w' ↔ Better cfg pool t w w' := by
  have hbool : ∀ a b : Bool, a < b ↔ a = false ∧ ¬ b = false := by decide
  have hnot : ∀ a b : Bool, (a = b) ↔ (a = false ↔ b = false) := by decide
  have hal : ∀ w : Nat × List SourceBlock, (w.1 % cfg.blockSize != 0) = false ↔
      cfg.blockSize ∣ w.1 := by
    intro w
    rw [bne_eq_false_iff_eq, Nat.dvd_iff_mod_eq_zero]
  have hres : ∀ w : Nat × List SourceBlock, (!(w.2.all (isResident pool))) = false ↔
      ∀ b ∈ w.2, isResident pool b = true := by
    intro w
    rw [Bool.not_eq_false', List.all_eq_true]
  rw [windowKey, windowKey, Prod.Lex.toLex_lt_toLex, Prod.Lex.toLex_lt_toLex,
    Prod.Lex.toLex_lt_toLex, hbool, hbool,
    hnot (!(w.2.all (isResident pool))) (!(w'.2.all (isResident pool))),
    hnot (w.1 % cfg.blockSize != 0) (w'.1 % cfg.blockSize != 0)]
  simp only [hal, hres, Better]

theorem windowKey_start {cfg : LocatorConfig} {pool : BlockPool} {t : Nat}
    {w w' : Nat × List SourceBlock} (h : windowKey cfg pool t w = windowKey cfg pool t w') :
    w.1 = w'.1 := by
  have h := congrArg ofLex h
  have h := congrArg (fun x => ofLex x.2) h
  have h := congrArg (fun x => ofLex x.2) h
  exact congrArg Prod.snd h

/-- Two windows of a source at one position are the same. -/
theorem IsWindow.eq_of_start {cfg : LocatorConfig} {source : SourceRequestIndex}
    (h : source.Indexed cfg.blockSize) {tokenIds : List Nat} {w w' : Nat × List SourceBlock}
    (hw : IsWindow cfg source tokenIds w) (hw' : IsWindow cfg source tokenIds w')
    (hstart : w.1 = w'.1) : w = w' := by
  have h₁ := (windowBlocks_eq_some_iff h.nodup_index).mpr ⟨hw.indexed, hw.covers⟩
  have h₂ := (windowBlocks_eq_some_iff h.nodup_index).mpr ⟨hw'.indexed, hw'.covers⟩
  rw [hstart, h₂] at h₁
  exact Prod.ext hstart (Option.some.inj h₁).symm

/-- The best of the windows with given tokens. -/
structure IsBestWindow (cfg : LocatorConfig) (pool : BlockPool) (source : SourceRequestIndex)
    (tokenIds : List Nat) (targetBlockIndex : Nat) (w : Nat × List SourceBlock) : Prop where
  window : IsWindow cfg source tokenIds w
  best : ∀ w', IsWindow cfg source tokenIds w' → w' ≠ w → Better cfg pool targetBlockIndex w w'

theorem selectNearestSourceWindow_eq_some {cfg : LocatorConfig} {pool : BlockPool}
    {source : SourceRequestIndex} (h : source.Indexed cfg.blockSize) {tokenIds : List Nat} {t : Nat}
    {w : Nat × List SourceBlock}
    (hw : selectNearestSourceWindow cfg pool (sourceWindows cfg source tokenIds) t = some w) :
    IsBestWindow cfg pool source tokenIds t w := by
  have hmem := (mem_sourceWindows_iff_isWindow h).mp (List.argmin_mem hw)
  refine ⟨hmem, ?_⟩
  intro w' hw' hne
  have hle : windowKey cfg pool t w ≤ windowKey cfg pool t w' :=
    List.le_of_mem_argmin ((mem_sourceWindows_iff_isWindow h).mpr hw') hw
  refine (windowKey_lt_iff cfg pool t w w').mp (lt_of_le_of_ne hle ?_)
  intro heq
  exact hne (hw'.eq_of_start h hmem (windowKey_start heq).symm)

/-! ### The candidates of a plan -/

/-- What a candidate says about its window. -/
structure Describes (cfg : LocatorConfig) (pool : BlockPool) (w : Nat × List SourceBlock)
    (c : PartialReuseCandidate) : Prop where
  sourceBlockIndex : c.sourceBlockIndex = w.1 / cfg.blockSize
  sourceBlockOffset : c.sourceBlockOffset = w.1 % cfg.blockSize
  sourceBlockIds : c.sourceBlockIds = w.2.map SourceBlock.blockId
  sourceBlock : ∃ b, w.2.head? = some b ∧ c.sourceBlockId = b.blockId ∧
    c.sourceContextualHash = b.contextualHash
  sourceResident : c.sourceResident = w.2.all (isResident pool)

/-- The position in the source at which a candidate's window starts. -/
def windowStart (blockSize : Nat) (c : PartialReuseCandidate) : Nat :=
  c.sourceBlockIndex * blockSize + c.sourceBlockOffset

theorem Describes.windowStart_eq {cfg : LocatorConfig} {pool : BlockPool}
    {w : Nat × List SourceBlock} {c : PartialReuseCandidate} (h : Describes cfg pool w c) :
    windowStart cfg.blockSize c = w.1 := by
  rw [windowStart, h.sourceBlockIndex, h.sourceBlockOffset, Nat.div_add_mod']

/-- The full blocks of a prompt behind the native hit, with the best windows of a source. -/
structure CandidatesOf (cfg : LocatorConfig) (pool : BlockPool) (source : SourceRequestIndex)
    (promptTokenIds : List Nat) (native : Nat) (candidates : List PartialReuseCandidate) :
    Prop where
  increasing : candidates.Pairwise fun c c' => c.targetBlockIndex < c'.targetBlockIndex
  exact : ∀ t, (∃ c ∈ candidates, c.targetBlockIndex = t) ↔
    native ≤ t * cfg.blockSize ∧ (t + 1) * cfg.blockSize ≤ promptTokenIds.length ∧
      ∃ w, IsWindow cfg source ((promptTokenIds.drop (t * cfg.blockSize)).take cfg.blockSize) w
  chosen : ∀ c ∈ candidates, ∃ w, IsBestWindow cfg pool source
      ((promptTokenIds.drop (c.targetBlockIndex * cfg.blockSize)).take cfg.blockSize)
      c.targetBlockIndex w ∧ Describes cfg pool w c

/-- A window has a first block, the one that its start lies in. -/
theorem IsWindow.head {cfg : LocatorConfig} {source : SourceRequestIndex} {tokenIds : List Nat}
    {w : Nat × List SourceBlock} (h : IsWindow cfg source tokenIds w) :
    ∃ b, w.2.head? = some b ∧ b.blockIndex = w.1 / cfg.blockSize := by
  have hbs := cfg.blockSize_pos
  have hle : w.1 / cfg.blockSize ≤ (w.1 + cfg.blockSize - 1) / cfg.blockSize :=
    Nat.div_le_div_right (by omega)
  have hcov := congrArg List.head? h.covers
  rw [List.head?_map, List.head?_range', if_neg (by omega), Option.map_eq_some_iff] at hcov
  exact hcov

theorem candidateAt_eq_some {cfg : LocatorConfig} {pool : BlockPool} {source : SourceRequestIndex}
    (h : source.Indexed cfg.blockSize) {promptTokenIds : List Nat} {t : Nat}
    {c : PartialReuseCandidate} (hc : candidateAt cfg pool source promptTokenIds t = some c) :
    c.targetBlockIndex = t ∧ ∃ w, IsBestWindow cfg pool source
      ((promptTokenIds.drop (t * cfg.blockSize)).take cfg.blockSize) t w ∧
      Describes cfg pool w c := by
  rw [candidateAt] at hc
  split at hc
  · cases hc
  · next start blocks hsel =>
      obtain ⟨b, hb, rfl⟩ := Option.map_eq_some_iff.mp hc
      have hbest := selectNearestSourceWindow_eq_some h hsel
      obtain ⟨b', hb', hidx⟩ := hbest.window.head
      obtain rfl := Option.some.inj (hb.symm.trans hb')
      exact ⟨rfl, _, hbest, hidx, rfl, rfl, ⟨b, hb, rfl, rfl⟩, rfl⟩

/-- A block without a candidate has no window. -/
theorem candidateAt_eq_none {cfg : LocatorConfig} {pool : BlockPool} {source : SourceRequestIndex}
    (h : source.Indexed cfg.blockSize) {promptTokenIds : List Nat} {t : Nat}
    (hc : candidateAt cfg pool source promptTokenIds t = none) (w : Nat × List SourceBlock) :
    ¬ IsWindow cfg source ((promptTokenIds.drop (t * cfg.blockSize)).take cfg.blockSize) w := by
  intro hw
  rw [candidateAt] at hc
  split at hc
  · next hsel =>
      rw [selectNearestSourceWindow, List.argmin_eq_none] at hsel
      have := (mem_sourceWindows_iff_isWindow h).mpr hw
      rw [hsel] at this
      cases this
  · next start blocks hsel =>
      obtain ⟨b, hb, -⟩ := (selectNearestSourceWindow_eq_some h hsel).window.head
      rw [hb] at hc
      cases hc

theorem candidatesOf_rawCandidates {cfg : LocatorConfig} {pool : BlockPool}
    {source : SourceRequestIndex} (h : source.Indexed cfg.blockSize) (promptTokenIds : List Nat)
    (native : Nat) : CandidatesOf cfg pool source promptTokenIds native
      (rawCandidates cfg pool source promptTokenIds native) := by
  have hbs := cfg.blockSize_pos
  have hrange : ∀ t, t ∈ List.range' (firstTargetBlock cfg native)
      (promptTokenIds.length / cfg.blockSize - firstTargetBlock cfg native) ↔
      native ≤ t * cfg.blockSize ∧ (t + 1) * cfg.blockSize ≤ promptTokenIds.length := by
    intro t
    rw [List.mem_range'_1, ← Nat.le_div_iff_mul_le hbs]
    have hfirst : firstTargetBlock cfg native ≤ t ↔ native ≤ t * cfg.blockSize := by
      rw [firstTargetBlock]
      constructor
      · intro hle
        exact Nat.le_trans (le_firstTargetBlock_mul cfg native) (Nat.mul_le_mul_right _ hle)
      · intro hle
        refine Nat.le_of_lt_succ ((Nat.div_lt_iff_lt_mul hbs).mpr ?_)
        rw [Nat.succ_mul]
        omega
    rw [← hfirst]
    omega
  have hindex : ∀ t c, candidateAt cfg pool source promptTokenIds t = some c →
      c.targetBlockIndex = t := fun t c hc => (candidateAt_eq_some h hc).1
  refine { increasing := ?_, exact := ?_, chosen := ?_ }
  · rw [rawCandidates]
    refine List.Pairwise.filterMap _ ?_ (List.pairwise_lt_range' _) (R := fun t t' : Nat => t < t')
    intro t t' hlt c hc c' hc'
    rw [hindex t c hc, hindex t' c' hc']
    exact hlt
  · intro t
    rw [← and_assoc, ← hrange t]
    constructor
    · rintro ⟨c, hc, rfl⟩
      obtain ⟨t, ht, hc⟩ := List.mem_filterMap.mp hc
      obtain ⟨hidx, w, hbest, -⟩ := candidateAt_eq_some h hc
      rw [hidx]
      exact ⟨ht, w, hbest.window⟩
    · rintro ⟨ht, w, hw⟩
      cases hc : candidateAt cfg pool source promptTokenIds t with
      | none => exact absurd hw (candidateAt_eq_none h hc w)
      | some c => exact ⟨c, List.mem_filterMap.mpr ⟨t, ht, hc⟩, hindex t c hc⟩
  · intro c hc
    obtain ⟨t, -, hc⟩ := List.mem_filterMap.mp hc
    obtain ⟨rfl, hw⟩ := candidateAt_eq_some h hc
    exact hw

/-- What the annotations write leaves the candidates of a source as they are. -/
theorem CandidatesOf.map {cfg : LocatorConfig} {pool : BlockPool} {source : SourceRequestIndex}
    {promptTokenIds : List Nat} {native : Nat} {cs : List PartialReuseCandidate}
    (h : CandidatesOf cfg pool source promptTokenIds native cs)
    {g : PartialReuseCandidate → PartialReuseCandidate} (hg : ∀ c, SameMatch c (g c)) :
    CandidatesOf cfg pool source promptTokenIds native (cs.map g) := by
  have hindex : ∀ c, (g c).targetBlockIndex = c.targetBlockIndex := by
    intro c
    rw [hg c]
  refine { increasing := ?_, exact := ?_, chosen := ?_ }
  · refine List.pairwise_map.mpr (h.increasing.imp ?_)
    intro c c' hlt
    rw [hindex, hindex]
    exact hlt
  · intro t
    rw [← h.exact t]
    constructor
    · rintro ⟨c', hc', rfl⟩
      obtain ⟨c, hc, rfl⟩ := List.mem_map.mp hc'
      exact ⟨c, hc, (hindex c).symm⟩
    · rintro ⟨c, hc, rfl⟩
      exact ⟨g c, List.mem_map_of_mem hc, hindex c⟩
  · intro c' hc'
    obtain ⟨c, hc, rfl⟩ := List.mem_map.mp hc'
    obtain ⟨w, hbest, hdesc⟩ := h.chosen c hc
    rw [hindex]
    refine ⟨w, hbest, ?_⟩
    rw [hg c]
    exact ⟨hdesc.sourceBlockIndex, hdesc.sourceBlockOffset, hdesc.sourceBlockIds,
      hdesc.sourceBlock, hdesc.sourceResident⟩

/-! ### `locate` -/

/-- What the source of a plan makes of it: an empty plan with the reason, or one matched against the source. -/
def PlanFrom (cfg : LocatorConfig) (pool : BlockPool) (l : AlignedBlockReuseLocator)
    (r : Request) (native : Nat) (plan : PartialReusePlan) : Prop :=
  match usableSource l r plan.sourceRequestId with
  | .error reason => plan.reason = reason ∧ plan.candidates = []
  | .ok (source, promptTokenIds) => ∃ r₁ selection,
      r₁.cacheselectSourceRequestId = some plan.sourceRequestId ∧
      matchedPlan cfg pool source r₁ promptTokenIds native selection = .ok plan

theorem planOf_eq_ok {cfg : LocatorConfig} {r : Request} {native : Nat} {reason id : String}
    {selection : SourceSelection} {cs : List PartialReuseCandidate} {plan : PartialReusePlan}
    (hid : r.cacheselectSourceRequestId = some id)
    (h : planOf cfg r native reason selection cs = .ok plan) :
    plan.sourceRequestId = id ∧ plan.reason = reason ∧ plan.candidates = cs := by
  rw [planOf, hid] at h
  cases h
  exact ⟨rfl, rfl, rfl⟩

theorem matchedPlan_sourceRequestId {cfg : LocatorConfig} {pool : BlockPool}
    {source : SourceRequestIndex} {r : Request} {promptTokenIds : List Nat} {native : Nat}
    {selection : SourceSelection} {id : String} {plan : PartialReusePlan}
    (hid : r.cacheselectSourceRequestId = some id)
    (h : matchedPlan cfg pool source r promptTokenIds native selection = .ok plan) :
    plan.sourceRequestId = id := by
  rw [matchedPlan] at h
  obtain ⟨cs, -, h⟩ := Except.bind_eq_ok.mp h
  exact (planOf_eq_ok hid h).1

/-- The body of `locate` for a request that names a source and tries no other. -/
theorem PlanFrom.of_named {cfg : LocatorConfig} {pool : BlockPool} {l : AlignedBlockReuseLocator}
    {r r₁ r' : Request} {native : Nat} {id : String} (selection : SourceSelection)
    {plan : PartialReusePlan} (hsame : SameRequest r r₁)
    (hid : r₁.cacheselectSourceRequestId = some id)
    (h : (match usableSource l r₁ id with
      | .error reason =>
          (planOf cfg r₁ native reason selection []).map fun plan => (some plan, r₁)
      | .ok (source, promptTokenIds) =>
          (matchedPlan cfg pool source r₁ promptTokenIds native selection).map
            fun plan => (some plan, r₁)) = .ok (some plan, r')) :
    PlanFrom cfg pool l r native plan := by
  rw [hsame.usableSource] at h
  cases hu : usableSource l r id with
  | error reason =>
      rw [hu] at h
      obtain ⟨p, hp, he⟩ := Except.map_eq_ok.mp h
      cases he
      obtain ⟨rfl, hreason, hcs⟩ := planOf_eq_ok hid hp
      rw [PlanFrom, hu]
      exact ⟨hreason, hcs⟩
  | ok x =>
      rw [hu] at h
      obtain ⟨p, hp, he⟩ := Except.map_eq_ok.mp h
      cases he
      obtain rfl := matchedPlan_sourceRequestId hid hp
      rw [PlanFrom, hu]
      exact ⟨r₁, selection, hid, hp⟩

theorem locate_planFrom {cfg : LocatorConfig} {pool : BlockPool} {l : AlignedBlockReuseLocator}
    {r r' : Request} {native : Nat} {plan : PartialReusePlan}
    (h : locate cfg pool l r native = .ok (some plan, r')) :
    PlanFrom cfg pool l r native plan := by
  rw [locate, locateStep] at h
  cases hres : resolveSource cfg pool l r native with
  | none =>
      rw [hres] at h
      cases h
  | some x =>
      obtain ⟨r₁, id, selection⟩ := x
      obtain ⟨hsame, hid⟩ := resolveSource_spec hres
      rw [hres] at h
      dsimp only at h
      cases hu : usableSource l r₁ id with
      | error reason =>
          rw [hu] at h
          exact .of_named selection hsame hid (by rw [hu]; exact h)
      | ok y =>
          rw [hu] at h
          dsimp only at h
          cases hf : fallbackSource cfg pool l r₁ native id selection
              (rawCandidates cfg pool y.1 y.2 native) with
          | none =>
              rw [hf] at h
              exact .of_named selection hsame hid (by rw [hu]; exact h)
          | some fid =>
              rw [hf] at h
              dsimp only at h
              rw [locateStep, resolveSource_withFallback] at h
              simp only [fallbackSource_withFallback] at h
              exact .of_named _ (hsame.withFallback fid) rfl h

/-- **The candidates of a plan.** In any locator, a plan for a source that the request may use has exactly
the full target blocks behind the native hit that have a window of indexed source blocks, in their
order, each with its best window; a plan for another source is empty.  No plan comes of a native hit
beyond the prefix that the source and the target share, when features are collected. -/
theorem locate_candidates : ∀ (cfg : LocatorConfig) (calls : List LocatorCall) (pool : BlockPool)
    (r : Request) (native : Nat),
    (∀ plan r', locate cfg pool (run cfg calls) r native = .ok (some plan, r') →
      match usableSource (run cfg calls) r plan.sourceRequestId with
      | .error reason => plan.reason = reason ∧ plan.candidates = []
      | .ok (source, promptTokenIds) =>
          CandidatesOf cfg pool source promptTokenIds native plan.candidates) ∧
    ∀ e, locate cfg pool (run cfg calls) r native = .error e →
      cfg.collectSelectorFeatures = true ∧ ∃ source promptTokenIds,
        finalSource cfg pool (run cfg calls) r native = some (source, promptTokenIds) ∧
        commonPrefixLength source.promptTokenIds promptTokenIds < native := by
  intro cfg calls pool r native
  constructor
  · intro plan r' h
    have hfrom := locate_planFrom h
    rw [PlanFrom] at hfrom
    cases hu : usableSource (run cfg calls) r plan.sourceRequestId with
    | error reason =>
        rw [hu] at hfrom
        exact hfrom
    | ok x =>
        rw [hu] at hfrom
        obtain ⟨r₁, selection, hid, hplan⟩ := hfrom
        have hindexed := run_indexed cfg calls x.1 (getSource_mem (usableSource_ok hu).1).1
        have hle : cfg.collectSelectorFeatures = true →
            rawCandidates cfg pool x.1 x.2 native ≠ [] →
            native ≤ commonPrefixLength x.1.promptTokenIds x.2 := by
          intro hc hne
          by_contra hlt
          obtain ⟨e, he⟩ := matchedPlan_error r₁ selection hc hne (by omega)
          rw [hplan] at he
          cases he
        obtain ⟨plan', g, hplan', -, -, -, -, hcs, hg⟩ := matchedPlan_ok selection hid hle
        rw [hplan, Except.ok.injEq] at hplan'
        subst hplan'
        dsimp only
        rw [hcs]
        exact (candidatesOf_rawCandidates hindexed x.2 native).map hg
  · intro e he
    obtain ⟨hc, source, p, hfinal, -, hlt⟩ := (locate_error_cases cfg pool _ r native).mp ⟨e, he⟩
    exact ⟨hc, source, p, hfinal, hlt⟩

def repackingConfig : LocatorConfig where
  blockSize := 2
  allowRepacking := true

/-- A pool in which the blocks 1 and 2 are cached with the tokens 1 to 4. -/
def repackingPool : BlockPool :=
  let first := hashBlockTokens none [1, 2] []
  ((BlockPool.init 4).insertBlockHash first 1 1).insertBlockHash
    (hashBlockTokens (some first) [3, 4] []) 2 2

def repackingSource : Request where
  requestId := "source"
  promptTokenIds := some [1, 2, 3, 4, 5]

def repackingTarget : Request where
  requestId := "target"
  promptTokenIds := some [9, 9, 2, 3]
  cacheselectSourceRequestId := some "source"

/-- The second target block has its tokens across the two source blocks. -/
theorem repacked_candidate : ∃ plan r', locate repackingConfig repackingPool
      (run repackingConfig [.index repackingPool repackingSource [1, 2, 3]]) repackingTarget 0
        = .ok (some plan, r') ∧
    CandidatesOf repackingConfig repackingPool
      (sourceEntry repackingConfig repackingPool repackingSource [1, 2, 3, 4, 5] [1, 2, 3])
      [9, 9, 2, 3] 0 plan.candidates ∧
    plan.candidates.map (fun c => (c.targetBlockIndex, c.sourceBlockIds, c.sourceBlockOffset))
      = [(1, [1, 2], 1)] := by
  refine ⟨_, _, rfl, ?_, by decide +kernel⟩
  exact (locate_candidates repackingConfig [.index repackingPool repackingSource [1, 2, 3]]
    repackingPool repackingTarget 0).1 _ _ rfl

end AlignedBlockReuseLocator

end CacheSelect.Core
