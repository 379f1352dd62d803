import CacheSelect.Core.Candidates
import CacheSelect.Features.OpportunityReport
import Mathlib.Data.Rat.Cast.Defs
import Mathlib.Algebra.Order.Field.Rat

/-! # The features of a candidate and the window it is copied from

The features of a candidate come from an analysis of the two prompts alone: all occurrences of the block in
the source prompt, whether some of them is aligned, and which one is nearest to the target.  The locator
chooses among the windows of indexed blocks, resident ones first.  `features_describe_window` says that each
candidate has exactly one feature row, what the row says, and when that is true of the window.
-/

namespace CacheSelect.Core.AlignedBlockReuseLocator

open CacheSelect.Features

/-! ### Occurrences -/

/-- The tokens occur in a prompt from a position on. -/
def Occurs (width : Nat) (promptTokenIds tokenIds : List Nat) (start : Nat) : Prop :=
  start + width ≤ promptTokenIds.length ∧ (promptTokenIds.drop start).take width = tokenIds

/-- The occurrence that is nearest to a target position, the lower one of two. -/
structure IsNearest (width : Nat) (promptTokenIds tokenIds : List Nat) (target start : Nat) :
    Prop where
  occurs : Occurs width promptTokenIds tokenIds start
  nearest : ∀ s, Occurs width promptTokenIds tokenIds s →
    ((start : Int) - target).natAbs < ((s : Int) - target).natAbs ∨
      ((start : Int) - target).natAbs = ((s : Int) - target).natAbs ∧ start ≤ s

theorem IsNearest.unique {width : Nat} {promptTokenIds tokenIds : List Nat} {target s s' : Nat}
    (h : IsNearest width promptTokenIds tokenIds target s)
    (h' : IsNearest width promptTokenIds tokenIds target s') : s = s' := by
  have h₁ := h.nearest s' h'.occurs
  have h₂ := h'.nearest s h.occurs
  omega

theorem IsWindow.occurs {cfg : LocatorConfig} {source : SourceRequestIndex} {tokenIds : List Nat}
    {w : Nat × List SourceBlock} (h : IsWindow cfg source tokenIds w) :
    Occurs cfg.blockSize source.promptTokenIds tokenIds w.1 :=
  ⟨h.le_length, h.tokens⟩

/-! ### The analysed block of a candidate -/

section Row

variable {previousTokens currentTokens : List Nat} {native blockSize : Nat}

/-- The analysis has a block for every recomputed full block that occurs in the previous prompt. -/
theorem exists_described (hbs : 0 < blockSize) {t start : Nat} (hnative : native ≤ t * blockSize)
    (hfull : (t + 1) * blockSize ≤ currentTokens.length)
    (hoccurs : Occurs blockSize previousTokens
      ((currentTokens.drop (t * blockSize)).take blockSize) start) :
    ∃ k ∈ candidateBlocksAfter previousTokens currentTokens native blockSize,
      k.currentBlockIndex = t ∧ Features.Describes previousTokens currentTokens blockSize k := by
  have hne := List.ne_nil_of_mem (mem_contentOccurrences.mpr hoccurs)
  obtain ⟨k, hk⟩ : ∃ k, candidateBlock? previousTokens currentTokens blockSize (t * blockSize)
      = some k := by
    rw [candidateBlock?]
    exact ⟨_, if_neg hne⟩
  obtain ⟨rfl, hdescribes⟩ := (candidateBlock?_eq_some hbs).mp hk
  exact ⟨k, (mem_candidateBlocksAfter_iff hbs).mpr ⟨⟨hnative, hfull⟩, hdescribes⟩, rfl, hdescribes⟩

theorem requiresRepacking_iff {t : Nat} {k : CandidateBlock}
    (h : Features.Describes previousTokens currentTokens blockSize k) (ht : k.currentBlockIndex = t) :
    k.requiresRepacking = true ↔ ∀ s, Occurs blockSize previousTokens
      ((currentTokens.drop (t * blockSize)).take blockSize) s → ¬ blockSize ∣ s := by
  subst ht
  rw [CandidateBlock.requiresRepacking, CandidateBlock.hasWholeSourceBlock, Bool.not_not,
    List.isEmpty_iff, h.aligned, List.filter_eq_nil_iff, h.occurrences]
  simp only [mem_contentOccurrences, decide_eq_true_eq, ← Nat.dvd_iff_mod_eq_zero]
  exact Iff.rfl

theorem isNearest_of_describes {t n : Nat} {k : CandidateBlock}
    (h : Features.Describes previousTokens currentTokens blockSize k) (ht : k.currentBlockIndex = t)
    (hn : nearestSourceStart k = some n) :
    IsNearest blockSize previousTokens ((currentTokens.drop (t * blockSize)).take blockSize)
      (t * blockSize) n := by
  subst ht
  rw [nearestSourceStart, h.start, h.occurrences] at hn
  refine ⟨mem_contentOccurrences.mp (List.argmin_mem hn), ?_⟩
  intro s hs
  have := List.le_of_mem_argmin (mem_contentOccurrences.mpr hs) hn
  rw [Prod.Lex.toLex_le_toLex] at this
  exact this

end Row

/-! ### The row of a candidate -/

theorem filter_eq_singleton {α κ : Type} [DecidableEq κ] {key : α → κ} {l : List α} {a : α}
    (hnd : (l.map key).Nodup) (ha : a ∈ l) : (l.filter fun b => key b == key a) = [a] := by
  induction l with
  | nil => cases ha
  | cons b l ih =>
      rw [List.map_cons, List.nodup_cons] at hnd
      rcases List.mem_cons.mp ha with rfl | ha
      · rw [List.filter_cons_of_pos (by exact beq_self_eq_true _), List.cons.injEq]
        refine ⟨rfl, List.filter_eq_nil_iff.mpr ?_⟩
        intro b hb heq
        exact hnd.1 (List.mem_map.mpr ⟨b, hb, beq_iff_eq.mp heq⟩)
      · rw [List.filter_cons_of_neg, ih hnd.2 ha]
        intro heq
        exact hnd.1 (List.mem_map.mpr ⟨a, ha, (beq_iff_eq.mp heq).symm⟩)

theorem find?_reverse_of_filter {α : Type} {p : α → Bool} {l : List α} {a : α}
    (h : l.filter p = [a]) : l.reverse.find? p = some a := by
  rw [← List.head?_filter, List.filter_reverse, h]
  rfl

/-- A row of the features: the analysed block, and its values. -/
abbrev FeatureRow := CandidateBlock × CandidateBlockFeatures × CandidateContextFeatures

/-- The rows that the extractors make of the analysis of two prompts. -/
def FeatureRowsOf (cfg : LocatorConfig) (previousTokens currentTokens : List Nat) (native : Nat)
    (rows : List FeatureRow) : Prop :=
  ∃ opportunity block context,
    analyzeReuseOpportunity previousTokens currentTokens native cfg.blockSize = .ok opportunity ∧
    extractCandidateBlockFeatures previousTokens currentTokens opportunity = .ok block ∧
    extractCandidateContextFeatures cfg.opcodes previousTokens currentTokens opportunity
      = .ok context ∧
    rows = opportunity.candidateBlocks.zip (block.zip context)

/-- The rows are those of the analysed blocks, in their order. -/
structure IsRows (cfg : LocatorConfig) (previousTokens currentTokens : List Nat) (native : Nat)
    (rows : List FeatureRow) : Prop where
  keys : rows.map Prod.fst = candidateBlocksAfter previousTokens currentTokens native cfg.blockSize
  features : ∀ row ∈ rows, candidateBlockFeatures previousTokens currentTokens
    (reuseOpportunity previousTokens currentTokens native cfg.blockSize) row.1 = .ok row.2.1

theorem isRows_zip {cfg : LocatorConfig} {previousTokens currentTokens : List Nat} {native : Nat}
    {block : List CandidateBlockFeatures} {context : List CandidateContextFeatures}
    (hblock : extractCandidateBlockFeatures previousTokens currentTokens
      (reuseOpportunity previousTokens currentTokens native cfg.blockSize) = .ok block)
    (hlen : block.length = (candidateBlocksAfter previousTokens currentTokens native
      cfg.blockSize).length) (hlen' : context.length = block.length) :
    IsRows cfg previousTokens currentTokens native ((candidateBlocksAfter previousTokens
      currentTokens native cfg.blockSize).zip (block.zip context)) := by
  have hp : ¬ (reuseOpportunity previousTokens currentTokens native
    cfg.blockSize).previousTokenCount ≠ previousTokens.length := not_not.mpr rfl
  have hc : ¬ (reuseOpportunity previousTokens currentTokens native
    cfg.blockSize).currentTokenCount ≠ currentTokens.length := not_not.mpr rfl
  rw [extractCandidateBlockFeatures, if_neg hp, if_neg hc] at hblock
  have hall := Except.mapM_eq_ok_iff.mp hblock
  refine ⟨List.map_fst_zip (by rw [List.length_zip]; omega), ?_⟩
  rintro ⟨k, f, x⟩ hrow
  obtain ⟨i, hi, hget⟩ := List.getElem_of_mem hrow
  rw [List.getElem_zip, List.getElem_zip, Prod.mk.injEq, Prod.mk.injEq] at hget
  rw [← hget.1, ← hget.2.1]
  exact (List.forall₂_iff_get.mp hall).2 i _ _

/-- Where the features of candidates are attached, they are taken from the rows. -/
theorem attachSelectorFeatures_rows {cfg : LocatorConfig} {previousTokens currentTokens : List Nat}
    {native : Nat} {cs cs' : List PartialReuseCandidate}
    (h : attachSelectorFeatures cfg previousTokens currentTokens native cs = .ok cs') :
    ∃ rows, FeatureRowsOf cfg previousTokens currentTokens native rows ∧
      IsRows cfg previousTokens currentTokens native rows ∧ cs' = cs.map (withFeatures rows) := by
  have hle : native ≤ commonPrefixLength previousTokens currentTokens := by
    by_contra hlt
    obtain ⟨e, he⟩ := attachSelectorFeatures_error cfg cs (Nat.lt_of_not_le hlt)
    rw [h] at he
    cases he
  obtain ⟨block, context, hblock, hcontext, hlen, hlen', hattach⟩ :=
    attachSelectorFeatures_eq cfg cs hle
  rw [h] at hattach
  exact ⟨_, ⟨_, block, context, analyzeReuseOpportunity_eq cfg.blockSize_pos hle, hblock, hcontext,
    rfl⟩, isRows_zip hblock hlen hlen', Except.ok.inj hattach⟩

/-- **One row for each block**, which is the one that a candidate gets. -/
theorem IsRows.unique {cfg : LocatorConfig} {previousTokens currentTokens : List Nat} {native : Nat}
    {rows : List FeatureRow} (h : IsRows cfg previousTokens currentTokens native rows) {t start : Nat}
    (hnative : native ≤ t * cfg.blockSize) (hfull : (t + 1) * cfg.blockSize ≤ currentTokens.length)
    (hoccurs : Occurs cfg.blockSize previousTokens
      ((currentTokens.drop (t * cfg.blockSize)).take cfg.blockSize) start) :
    ∃ row, (rows.filter fun row => row.1.currentBlockIndex == t) = [row] ∧
      row.1.currentBlockIndex = t ∧
      Features.Describes previousTokens currentTokens cfg.blockSize row.1 ∧
      candidateBlockFeatures previousTokens currentTokens
        (reuseOpportunity previousTokens currentTokens native cfg.blockSize) row.1
          = .ok row.2.1 := by
  obtain ⟨k, hk, hindex, hdescribes⟩ := exists_described cfg.blockSize_pos hnative hfull hoccurs
  rw [← h.keys] at hk
  obtain ⟨row, hrow, rfl⟩ := List.mem_map.mp hk
  have hnd : (rows.map fun row => row.1.currentBlockIndex).Nodup := by
    have hpairwise : ((candidateBlocksAfter previousTokens currentTokens native cfg.blockSize).map
      CandidateBlock.currentBlockIndex).Pairwise (· < ·) := pairwise_candidateBlocksAfter cfg.blockSize_pos native
    rw [← h.keys, List.map_map] at hpairwise
    exact hpairwise.imp Nat.ne_of_lt
  have hfilter := filter_eq_singleton hnd hrow
  rw [hindex] at hfilter
  exact ⟨row, hfilter, hindex, hdescribes, h.features row hrow⟩

/-- What a row says about the source of its block. -/
structure States (row : List (String × Rat)) (requiresRepacking : Bool) (displacement : Rat) :
    Prop where
  repacking : row.lookup "requires_repacking" = some (ratOfBool requiresRepacking)
  displacement : row.lookup "source_displacement_blocks" = some displacement

theorem selectorFeatureRow_states (b : CandidateBlockFeatures) (c : CandidateContextFeatures) :
    States (selectorFeatureRow b c) b.requiresRepacking b.sourceDisplacementBlocks := ⟨rfl, rfl⟩

/-- **What the row of an analysed block says**: whether no occurrence is aligned, and how far the nearest one
is away. -/
theorem candidateBlockFeatures_eq_ok {previousTokens currentTokens : List Nat} {native blockSize : Nat}
    {t : Nat} {k : CandidateBlock} {f : CandidateBlockFeatures}
    (hk : Features.Describes previousTokens currentTokens blockSize k) (ht : k.currentBlockIndex = t)
    (hf : candidateBlockFeatures previousTokens currentTokens
      (reuseOpportunity previousTokens currentTokens native blockSize) k = .ok f) :
    f.requiresRepacking = k.requiresRepacking ∧ ∃ n, IsNearest blockSize previousTokens
      ((currentTokens.drop (t * blockSize)).take blockSize) (t * blockSize) n ∧
      f.sourceDisplacementBlocks = (((t * blockSize : Nat) : Int) - n : Int) / (blockSize : Rat) := by
  rw [candidateBlockFeatures] at hf
  split at hf
  · cases hf
  · next n hn =>
      cases hf
      refine ⟨rfl, n, isNearest_of_describes hk ht hn, ?_⟩
      rw [hk.start, ht]
      rfl

/-! ### Agreement -/

/-- The occurrence nearest to a target block is a window that the locator may use, resident unless no such
window is, and aligned unless no occurrence is. -/
def NearestIsPreferred (cfg : LocatorConfig) (pool : BlockPool) (source : SourceRequestIndex)
    (tokenIds : List Nat) (t : Nat) : Prop :=
  ∃ w, IsWindow cfg source tokenIds w ∧
    IsNearest cfg.blockSize source.promptTokenIds tokenIds (t * cfg.blockSize) w.1 ∧
    ((∀ b ∈ w.2, isResident pool b = true) ∨
      ∀ w', IsWindow cfg source tokenIds w' → ¬ ∀ b ∈ w'.2, isResident pool b = true) ∧
    (cfg.blockSize ∣ w.1 ∨
      ∀ s, Occurs cfg.blockSize source.promptTokenIds tokenIds s → ¬ cfg.blockSize ∣ s)

/-- **When the best window is the nearest occurrence**, and is aligned if any occurrence is. -/
theorem IsBestWindow.nearest_iff {cfg : LocatorConfig} {pool : BlockPool}
    {source : SourceRequestIndex} {tokenIds : List Nat} {t n : Nat} {w : Nat × List SourceBlock}
    (hw : IsBestWindow cfg pool source tokenIds t w)
    (hn : IsNearest cfg.blockSize source.promptTokenIds tokenIds (t * cfg.blockSize) n) :
    (n = w.1 ∧ (¬ cfg.blockSize ∣ w.1 ↔
        ∀ s, Occurs cfg.blockSize source.promptTokenIds tokenIds s → ¬ cfg.blockSize ∣ s)) ↔
      NearestIsPreferred cfg pool source tokenIds t := by
  constructor
  · rintro ⟨rfl, hal⟩
    refine ⟨w, hw.window, hn, ?_, ?_⟩
    · by_cases hres : ∀ b ∈ w.2, isResident pool b = true
      · exact Or.inl hres
      · refine Or.inr fun w' hw' hres' => ?_
        have hne : w' ≠ w := by
          rintro rfl
          exact hres hres'
        -- a resident window would be better
        rcases hw.best w' hw' hne with h | ⟨h, -⟩
        · exact hres h.1
        · exact hres (h.mpr hres')
    · by_cases hdvd : cfg.blockSize ∣ w.1
      · exact Or.inl hdvd
      · exact Or.inr (hal.mp hdvd)
  · rintro ⟨w', hw', hnear, hres, hal⟩
    have heq : w' = w := by
      by_contra hne
      have hfar := hnear.nearest w.1 hw.window.occurs
      rw [Nat.cast_mul] at hfar
      have hbest := hw.best w' hw' hne
      dsimp only [Better] at hbest
      rcases hbest with ⟨hr, hnr⟩ | ⟨-, ⟨ha, hna⟩ | ⟨-, hlt | ⟨heq, hlt⟩⟩⟩
      · rcases hres with hr' | hnone
        · exact hnr hr'
        · exact hnone w hw.window hr
      · rcases hal with ha' | hnone
        · exact hna ha'
        · exact hnone w.1 hw.window.occurs ha
      · omega
      · omega
    subst heq
    refine ⟨hn.unique hnear, ?_⟩
    constructor
    · intro hdvd
      exact hal.resolve_left hdvd
    · exact fun hnone => hnone w'.1 hw'.occurs

theorem ratOfBool_inj {a b : Bool} : ratOfBool a = ratOfBool b ↔ a = b := by
  cases a <;> cases b <;> simp [ratOfBool]

/-- Two displacements to one target are equal for equal starts only. -/
theorem displacement_inj {bs : Nat} (hbs : 0 < bs) {x : Int} {n m : Nat} :
    ((x - n : Int) : Rat) / (bs : Rat) = ((x - m : Int) : Rat) / (bs : Rat) ↔ n = m := by
  have hne : (bs : Rat) ≠ 0 := by exact_mod_cast Nat.ne_of_gt hbs
  constructor
  · intro h
    have heq : x - n = x - m := Int.cast_injective ((div_left_inj' hne).mp h)
    omega
  · rintro rfl
    rfl

/-! ### The plan -/

theorem matchedPlan_rows {cfg : LocatorConfig} {pool : BlockPool} {source : SourceRequestIndex}
    {r : Request} {promptTokenIds : List Nat} {native : Nat} {selection : SourceSelection}
    {plan : PartialReusePlan} {id : String} (hcollect : cfg.collectSelectorFeatures = true)
    (hid : r.cacheselectSourceRequestId = some id)
    (h : matchedPlan cfg pool source r promptTokenIds native selection = .ok plan)
    (hne : plan.candidates ≠ []) :
    ∃ rows g, FeatureRowsOf cfg source.promptTokenIds promptTokenIds native rows ∧
      IsRows cfg source.promptTokenIds promptTokenIds native rows ∧ (∀ c, SameMatch c (g c)) ∧
      plan.candidates = ((rawCandidates cfg pool source promptTokenIds native).map g).map
        (withFeatures rows) := by
  rw [matchedPlan] at h
  obtain ⟨final, hattach, h⟩ := Except.bind_eq_ok.mp h
  obtain ⟨-, -, rfl⟩ := planOf_eq_ok hid h
  obtain ⟨g, hg, hsame⟩ := annotateChangeGeometry_eq
    (rawCandidates cfg pool source promptTokenIds native) (firstTargetBlock cfg native)
    (promptTokenIds.length / cfg.blockSize)
  rw [hg, attachCollected] at hattach
  by_cases hnil : (rawCandidates cfg pool source promptTokenIds native).map g = []
  · rw [if_neg (fun hcond => hcond.2 hnil), hnil] at hattach
    exact absurd (Except.ok.inj hattach).symm hne
  · rw [if_pos ⟨hcollect, hnil⟩] at hattach
    obtain ⟨rows, hof, hrows, heq⟩ := attachSelectorFeatures_rows hattach
    exact ⟨rows, g, hof, hrows, hsame, heq⟩

/-- A candidate's share of blocks that its window is moved by. -/
def windowDisplacement (blockSize : Nat) (c : PartialReuseCandidate) : Rat :=
  (((c.targetBlockIndex * blockSize : Nat) : Int) - (windowStart blockSize c : Nat) : Int)
    / (blockSize : Rat)

/-- **The features of a candidate.**  Where features are collected, each candidate of a plan has exactly one
row of the extractors, and carries it.  The row says whether no occurrence of the block in the source
prompt is aligned, and how far the nearest occurrence is away; that describes the window of the plan exactly if
the nearest occurrence is a window that the locator prefers. -/
theorem features_describe_window : ∀ (cfg : LocatorConfig) (calls : List LocatorCall)
    (pool : BlockPool) (r r' : Request) (native : Nat) (plan : PartialReusePlan)
    (source : SourceRequestIndex) (promptTokenIds : List Nat),
    cfg.collectSelectorFeatures = true →
    locate cfg pool (run cfg calls) r native = .ok (some plan, r') →
    usableSource (run cfg calls) r plan.sourceRequestId = .ok (source, promptTokenIds) →
    ∀ c ∈ plan.candidates,
      let t := c.targetBlockIndex
      let tokenIds := (promptTokenIds.drop (t * cfg.blockSize)).take cfg.blockSize
      (∃ rows row, FeatureRowsOf cfg source.promptTokenIds promptTokenIds native rows ∧
        (rows.filter fun row => row.1.currentBlockIndex == t) = [row] ∧
        c.selectorFeatures = selectorFeatureRow row.2.1 row.2.2) ∧
      (∃ repacking n, States c.selectorFeatures repacking
          ((((t * cfg.blockSize : Nat) : Int) - (n : Nat) : Int) / (cfg.blockSize : Rat)) ∧
        (repacking = true ↔ ∀ s, Occurs cfg.blockSize source.promptTokenIds tokenIds s →
          ¬ cfg.blockSize ∣ s) ∧
        IsNearest cfg.blockSize source.promptTokenIds tokenIds (t * cfg.blockSize) n) ∧
      (States c.selectorFeatures c.requiresRepacking (windowDisplacement cfg.blockSize c) ↔
        NearestIsPreferred cfg pool source tokenIds t) := by
  intro cfg calls pool r r' native plan source p hcollect hlocate husable c hc
  have hfrom := locate_planFrom hlocate
  rw [PlanFrom, husable] at hfrom
  obtain ⟨r₁, selection, hid, hplan⟩ := hfrom
  have hindexed := run_indexed cfg calls source (getSource_mem (usableSource_ok husable).1).1
  have hcands : CandidatesOf cfg pool source p native _ :=
    candidatesOf_rawCandidates hindexed p native
  obtain ⟨rows, g, hof, hrows, hsame, heq⟩ :=
    matchedPlan_rows hcollect hid hplan (List.ne_nil_of_mem hc)
  rw [heq, List.map_map] at hc
  obtain ⟨c₀, hc₀, rfl⟩ := List.mem_map.mp hc
  obtain ⟨w, hbest, hdesc⟩ := hcands.chosen c₀ hc₀
  obtain ⟨hnative, hfull, -⟩ := (hcands.exact c₀.targetBlockIndex).mp ⟨c₀, hc₀, rfl⟩
  obtain ⟨row, hfilter, hindex, hdescribes, hfeatures⟩ :=
    hrows.unique hnative hfull hbest.window.occurs
  obtain ⟨hrepacking, n, hnearest, hdisplacement⟩ := candidateBlockFeatures_eq_ok hdescribes hindex hfeatures
  -- the candidate with its features
  have hwith : withFeatures rows (g c₀)
      = { g c₀ with selectorFeatures := selectorFeatureRow row.2.1 row.2.2 } := by
    have hfind : rows.reverse.find? (fun row => row.1.currentBlockIndex == (g c₀).targetBlockIndex)
        = some row := by
      rw [show (g c₀).targetBlockIndex = c₀.targetBlockIndex by rw [hsame c₀]]
      exact find?_reverse_of_filter hfilter
    rw [withFeatures, hfind]
  have htarget : (withFeatures rows (g c₀)).targetBlockIndex = c₀.targetBlockIndex := by
    rw [hwith, hsame c₀]
  have hstated := selectorFeatureRow_states row.2.1 row.2.2
  rw [hrepacking, hdisplacement] at hstated
  have hrow : (withFeatures rows (g c₀)).selectorFeatures
      = selectorFeatureRow row.2.1 row.2.2 := by
    rw [hwith]
  dsimp only [Function.comp]
  rw [htarget, hrow]
  refine ⟨⟨rows, row, hof, hfilter, rfl⟩, ⟨row.1.requiresRepacking, n, hstated,
    requiresRepacking_iff hdescribes hindex, hnearest⟩, ?_⟩
  rw [← hbest.nearest_iff hnearest, ← requiresRepacking_iff hdescribes hindex]
  have hstart : windowStart cfg.blockSize (withFeatures rows (g c₀)) = w.1 := by
    rw [hwith, ← hdesc.windowStart_eq, hsame c₀]
    rfl
  have hflag : (withFeatures rows (g c₀)).requiresRepacking = true ↔ ¬ cfg.blockSize ∣ w.1 := by
    rw [hwith, hsame c₀, PartialReuseCandidate.requiresRepacking, bne_iff_ne,
      hdesc.sourceBlockOffset, Nat.dvd_iff_mod_eq_zero]
  rw [windowDisplacement, htarget, hstart, ← hflag]
  constructor
  · rintro ⟨hrep, hdis⟩
    have hflags := ratOfBool_inj.mp (Option.some.inj (hstated.repacking.symm.trans hrep))
    refine ⟨(displacement_inj cfg.blockSize_pos).mp
      (Option.some.inj (hstated.displacement.symm.trans hdis)), ?_⟩
    rw [hflags]
  · rintro ⟨rfl, hflags⟩
    rw [Bool.eq_iff_iff.mpr hflags]
    exact hstated

def featureConfig : LocatorConfig where
  blockSize := 2
  collectSelectorFeatures := true

/-- The tokens 1 and 2 stand at the start of the prompt, and across its second and third block. -/
def featureSource : Request where
  requestId := "source"
  promptTokenIds := some [1, 2, 3, 1, 2, 9]

def featurePool : BlockPool :=
  let hash := featureSource.blockHashAt 2
  (((BlockPool.init 4).insertBlockHash (hash 0) 1 1).insertBlockHash (hash 1) 2 1).insertBlockHash
    (hash 2) 3 1

def featureTarget : Request where
  requestId := "target"
  promptTokenIds := some [7, 7, 1, 2]
  cacheselectSourceRequestId := some "source"

def featureCalls : List LocatorCall :=
  [.index featurePool featureSource [1, 2, 3]]

theorem feature_row : ∃ plan r', locate featureConfig featurePool (run featureConfig featureCalls)
      featureTarget 0 = .ok (some plan, r') ∧ plan.candidates.length = 1 ∧
    ∀ c ∈ plan.candidates, ∃ rows row,
      FeatureRowsOf featureConfig [1, 2, 3, 1, 2, 9] [7, 7, 1, 2] 0 rows ∧
      (rows.filter fun row => row.1.currentBlockIndex == c.targetBlockIndex) = [row] ∧
      c.selectorFeatures = selectorFeatureRow row.2.1 row.2.2 := by
  refine ⟨_, _, rfl, by decide +kernel, ?_⟩
  intro c hc
  exact (features_describe_window featureConfig featureCalls featurePool featureTarget _ 0 _
    (sourceEntry featureConfig featurePool featureSource [1, 2, 3, 1, 2, 9] [1, 2, 3]) [7, 7, 1, 2]
    rfl rfl (by decide +kernel) c hc).1

/-- **The row describes an occurrence that is not copied from**: the nearer one is not aligned. -/
theorem other_occurrence_described : ¬ ∀ (cfg : LocatorConfig) (calls : List LocatorCall)
    (pool : BlockPool) (r r' : Request) (native : Nat) (plan : PartialReusePlan),
    cfg.collectSelectorFeatures = true →
    locate cfg pool (run cfg calls) r native = .ok (some plan, r') →
    ∀ c ∈ plan.candidates,
      States c.selectorFeatures c.requiresRepacking (windowDisplacement cfg.blockSize c) := by
  intro h
  have hrun : ∃ plan r', locate featureConfig featurePool (run featureConfig featureCalls)
      featureTarget 0 = .ok (some plan, r') ∧
      ∃ c ∈ plan.candidates, c.selectorFeatures.lookup "source_displacement_blocks"
        ≠ some (windowDisplacement 2 c) := by
    refine ⟨_, _, rfl, ?_⟩
    decide +kernel
  obtain ⟨plan, r', hlocate, c, hc, hne⟩ := hrun
  exact hne (h featureConfig featureCalls featurePool featureTarget r' 0 plan rfl hlocate c
    hc).displacement

end CacheSelect.Core.AlignedBlockReuseLocator
