import CacheSelect.Core.Candidates
import CacheSelect.Lib.OddRun
import CacheSelect.Worker.CopyPlan

/-! # What the change geometry notices

`_annotate_change_geometry` gives each candidate its distance to the nearest changed block, and the
edit-proximity selector repairs the candidates that are near one.  Changed are the unmatched blocks, and
the blocks where the source block index jumps (`Jump`), but of several jumps in a row only every other one
(`mem_changedBlocks`, `marked_iff_oddRun`).

A candidate may follow a discontinuity that is no jump: the offset inside the block changes, or the text
before the first candidate is another one under the same block index.  `near_iff` says when it is near a
changed block all the same, and `geometry_notices` when all of them are.
-/

namespace CacheSelect.Worker

open CacheSelect.Core CacheSelect.Core.AlignedBlockReuseLocator

/-! ### Changed blocks -/

/-- A list of candidates for the blocks of a target between two bounds, in their order. -/
structure InOrder (first num : Nat) (cs : List PartialReuseCandidate) : Prop where
  increasing : cs.Pairwise fun c c' => c.targetBlockIndex < c'.targetBlockIndex
  bounds : ∀ c ∈ cs, first ≤ c.targetBlockIndex ∧ c.targetBlockIndex < num

/-- A block without a candidate. -/
def Unmatched (first num : Nat) (cs : List PartialReuseCandidate) (t : Nat) : Prop :=
  first ≤ t ∧ t < num ∧ ∀ c ∈ cs, c.targetBlockIndex ≠ t

/-- The source block index jumps at a matched block: the block before it is matched with another source
block than the preceding one, or it is the first block and not matched with its own index. -/
def Jump (first : Nat) (cs : List PartialReuseCandidate) (t : Nat) : Prop :=
  ∃ c ∈ cs, c.targetBlockIndex = t ∧ (t = first ∧ c.sourceBlockIndex ≠ t ∨
    ∃ p ∈ cs, p.targetBlockIndex + 1 = t ∧ p.sourceBlockIndex + 1 ≠ c.sourceBlockIndex)

variable {first num : Nat} {cs : List PartialReuseCandidate}

theorem InOrder.eq_of_target (h : InOrder first num cs) {c c' : PartialReuseCandidate} (hc : c ∈ cs)
    (hc' : c' ∈ cs) (heq : c.targetBlockIndex = c'.targetBlockIndex) : c = c' := by
  have hnd : (cs.map PartialReuseCandidate.targetBlockIndex).Nodup :=
    List.pairwise_map.mpr (h.increasing.imp Nat.ne_of_lt)
  exact List.inj_on_of_nodup_map hnd hc hc' heq

/-- The unmatched blocks as the code computes them. -/
def unmatchedBlocks (first num : Nat) (cs : List PartialReuseCandidate) : List Nat :=
  (List.range' first (num - first)).filter fun t => !(cs.any fun c => c.targetBlockIndex == t)

theorem mem_unmatchedBlocks (t : Nat) :
    t ∈ unmatchedBlocks first num cs ↔ Unmatched first num cs t := by
  rw [unmatchedBlocks, List.mem_filter, List.mem_range'_1, Unmatched, Bool.not_eq_true',
    List.any_eq_false]
  simp only [beq_iff_eq, ne_eq]
  constructor
  · rintro ⟨⟨h₁, h₂⟩, h₃⟩
    exact ⟨h₁, by omega, h₃⟩
  · rintro ⟨h₁, h₂, h₃⟩
    exact ⟨⟨h₁, by omega⟩, h₃⟩

/-- What the loop has marked when it has gone over `pre`. -/
def MarkedSoFar (first num : Nat) (cs pre : List PartialReuseCandidate) (changed : List Nat) :
    Prop :=
  ∀ u, u ∈ changed ↔ Unmatched first num cs u ∨
    (∃ c ∈ pre, c.targetBlockIndex = u) ∧ Jump first cs u ∧ ∀ v, v + 1 = u → v ∉ changed

/-- The comparison that the loop makes at a candidate. -/
def isDiscontinuity (previous : Option PartialReuseCandidate) (c : PartialReuseCandidate) : Bool :=
  match previous with
  | none => c.sourceBlockIndex != c.targetBlockIndex
  | some p => p.targetBlockIndex + 1 == c.targetBlockIndex &&
      p.sourceBlockIndex + 1 != c.sourceBlockIndex

variable {pre post : List PartialReuseCandidate} {c : PartialReuseCandidate} {changed : List Nat}

theorem InOrder.lt_of_mem_pre (h : InOrder first num cs) (hcs : cs = pre ++ c :: post)
    {p : PartialReuseCandidate} (hp : p ∈ pre) : p.targetBlockIndex < c.targetBlockIndex := by
  have := h.increasing
  rw [hcs, List.pairwise_append] at this
  exact this.2.2 p hp c List.mem_cons_self

theorem InOrder.mem_pre_of_lt (h : InOrder first num cs) (hcs : cs = pre ++ c :: post)
    {p : PartialReuseCandidate} (hp : p ∈ cs) (hlt : p.targetBlockIndex < c.targetBlockIndex) :
    p ∈ pre := by
  rw [hcs] at hp
  rcases List.mem_append.mp hp with hp | hp
  · exact hp
  · have := h.increasing
    rw [hcs, List.pairwise_append, List.pairwise_cons] at this
    rcases List.mem_cons.mp hp with rfl | hp
    · exact absurd hlt (Nat.lt_irrefl _)
    · have := this.2.1.1 p hp
      omega

/-- Where the block before it is not marked, the comparison finds the jumps. -/
theorem isDiscontinuity_iff (h : InOrder first num cs) (hcs : cs = pre ++ c :: post)
    (hchanged : MarkedSoFar first num cs pre changed)
    (hbefore : ∀ v, v + 1 = c.targetBlockIndex → v ∉ changed) :
    isDiscontinuity pre.getLast? c = true ↔ Jump first cs c.targetBlockIndex := by
  have hc : c ∈ cs := by
    rw [hcs]
    exact List.mem_append_right _ List.mem_cons_self
  have hbounds := h.bounds c hc
  have hjump : Jump first cs c.targetBlockIndex ↔
      (c.targetBlockIndex = first ∧ c.sourceBlockIndex ≠ c.targetBlockIndex ∨
        ∃ p ∈ cs, p.targetBlockIndex + 1 = c.targetBlockIndex ∧
          p.sourceBlockIndex + 1 ≠ c.sourceBlockIndex) := by
    constructor
    · rintro ⟨c', hc', heq, hor⟩
      obtain rfl := h.eq_of_target hc' hc heq
      exact hor
    · exact fun hor => ⟨c, hc, rfl, hor⟩
  rw [hjump]
  cases hlast : pre.getLast? with
  | none =>
      obtain rfl := List.getLast?_eq_none_iff.mp hlast
      have hno : ∀ p ∈ cs, p.targetBlockIndex + 1 ≠ c.targetBlockIndex := by
        intro p hp heq
        have := h.mem_pre_of_lt hcs hp (by omega)
        cases this
      -- the first candidate is that of the first block, as the block before it is not changed
      have hfirst : c.targetBlockIndex = first := by
        by_contra hne
        refine hbefore (c.targetBlockIndex - 1) (by omega) ((hchanged _).mpr (Or.inl ?_))
        refine ⟨by omega, by omega, ?_⟩
        intro p hp heq
        exact hno p hp (by omega)
      change (c.sourceBlockIndex != c.targetBlockIndex) = true ↔ _
      rw [bne_iff_ne]
      constructor
      · exact fun hne => Or.inl ⟨hfirst, hne⟩
      · rintro (⟨-, hne⟩ | ⟨p, hp, heq, -⟩)
        · exact hne
        · exact absurd heq (hno p hp)
  | some p =>
      obtain ⟨before, rfl⟩ := List.getLast?_eq_some_iff.mp hlast
      have hp : p ∈ cs := by
        rw [hcs]
        simp
      have hlt := h.lt_of_mem_pre hcs (p := p) (by simp)
      have hpfirst := (h.bounds p hp).1
      change (p.targetBlockIndex + 1 == c.targetBlockIndex &&
        p.sourceBlockIndex + 1 != c.sourceBlockIndex) = true ↔ _
      rw [Bool.and_eq_true, beq_iff_eq, bne_iff_ne]
      constructor
      · exact fun ⟨heq, hne⟩ => Or.inr ⟨p, hp, heq, hne⟩
      · rintro (⟨heq, -⟩ | ⟨p', hp', heq, hne⟩)
        · omega
        · -- the candidate of the block before is the last one gone over
          have hle : p'.targetBlockIndex ≤ p.targetBlockIndex := by
            have hmem := h.mem_pre_of_lt hcs hp' (by omega)
            have hinc := h.increasing
            rw [hcs, List.pairwise_append, List.pairwise_append] at hinc
            rcases List.mem_append.mp hmem with hmem | hmem
            · exact Nat.le_of_lt (hinc.1.2.2 p' hmem p List.mem_cons_self)
            · rw [List.mem_singleton.mp hmem]
          obtain rfl := h.eq_of_target hp' hp (by omega)
          exact ⟨heq, hne⟩

/-- **One candidate of the loop.** -/
theorem MarkedSoFar.step (h : InOrder first num cs) (hcs : cs = pre ++ c :: post)
    (hchanged : MarkedSoFar first num cs pre changed) :
    MarkedSoFar first num cs (pre ++ [c])
      (if isDiscontinuity pre.getLast? c && !(changed.any fun t => t + 1 == c.targetBlockIndex)
        then c.targetBlockIndex :: changed else changed) := by
  have hc : c ∈ cs := by
    rw [hcs]
    exact List.mem_append_right _ List.mem_cons_self
  have hmark : (isDiscontinuity pre.getLast? c &&
        !(changed.any fun t => t + 1 == c.targetBlockIndex)) = true ↔
      Jump first cs c.targetBlockIndex ∧ ∀ v, v + 1 = c.targetBlockIndex → v ∉ changed := by
    have hany : (!(changed.any fun t => t + 1 == c.targetBlockIndex)) = true ↔
        ∀ v, v + 1 = c.targetBlockIndex → v ∉ changed := by
      rw [Bool.not_eq_true', List.any_eq_false]
      simp only [beq_iff_eq]
      exact ⟨fun h v hv hmem => h v hmem hv, fun h v hmem hv => h v hv hmem⟩
    rw [Bool.and_eq_true, hany]
    constructor
    · rintro ⟨hd, hb⟩
      exact ⟨(isDiscontinuity_iff h hcs hchanged hb).mp hd, hb⟩
    · rintro ⟨hj, hb⟩
      exact ⟨(isDiscontinuity_iff h hcs hchanged hb).mpr hj, hb⟩
  -- what is changed elsewhere stays as it is
  have hmem : ∀ u, u ∈ (if isDiscontinuity pre.getLast? c &&
        !(changed.any fun t => t + 1 == c.targetBlockIndex)
        then c.targetBlockIndex :: changed else changed) ↔
      u ∈ changed ∨ u = c.targetBlockIndex ∧ Jump first cs u ∧ ∀ v, v + 1 = u → v ∉ changed := by
    intro u
    split
    · next hif =>
        rw [List.mem_cons, or_comm]
        refine or_congr_right ⟨?_, And.left⟩
        rintro rfl
        exact ⟨rfl, hmark.mp hif⟩
    · next hif =>
        refine (or_iff_left ?_).symm
        rintro ⟨rfl, hj⟩
        exact hif (hmark.mpr hj)
  intro u
  rw [hmem]
  have hself : ∀ v, v + 1 = c.targetBlockIndex → (v ∉ changed ↔ ¬ (v ∈ changed ∨
      v = c.targetBlockIndex ∧ Jump first cs v ∧ ∀ w, w + 1 = v → w ∉ changed)) := by
    intro v hv
    refine not_congr (or_iff_left ?_).symm
    rintro ⟨heq, -⟩
    omega
  by_cases hu : u = c.targetBlockIndex
  · subst hu
    have hnot : c.targetBlockIndex ∉ changed := by
      rw [hchanged]
      rintro (hun | ⟨⟨p, hp, heq⟩, -⟩)
      · exact hun.2.2 c hc rfl
      · have := h.lt_of_mem_pre hcs hp
        omega
    have hun : ¬ Unmatched first num cs c.targetBlockIndex := fun hun => hun.2.2 c hc rfl
    simp only [hmem, hnot, hun, false_or, true_and, List.mem_append, List.mem_singleton]
    refine ⟨fun ⟨hj, hb⟩ => ⟨⟨c, Or.inr rfl, rfl⟩, hj, fun v hv => (hself v hv).mp (hb v hv)⟩, ?_⟩
    rintro ⟨-, hj, hb⟩
    exact ⟨hj, fun v hv => (hself v hv).mpr (hb v hv)⟩
  · simp only [hmem, hu, false_and, or_false]
    rw [hchanged]
    refine or_congr_right ?_
    constructor
    · rintro ⟨⟨p, hp, rfl⟩, hj, hb⟩
      refine ⟨⟨p, List.mem_append_left _ hp, rfl⟩, hj, ?_⟩
      rintro v hv (hmem' | ⟨heq, -⟩)
      · exact hb v hv hmem'
      · have := h.lt_of_mem_pre hcs hp
        omega
    · rintro ⟨⟨p, hp, rfl⟩, hj, hb⟩
      rcases List.mem_append.mp hp with hp | hp
      · exact ⟨⟨p, hp, rfl⟩, hj, fun v hv hmem' => hb v hv (Or.inl hmem')⟩
      · rw [List.mem_singleton.mp hp] at hu
        exact absurd rfl hu

/-- **The whole loop.** -/
theorem markChanges_marks (h : InOrder first num cs) : ∀ (post pre : List PartialReuseCandidate)
    (changed : List Nat), cs = pre ++ post → MarkedSoFar first num cs pre changed →
    MarkedSoFar first num cs cs (markChanges pre.getLast? post changed) := by
  intro post
  induction post with
  | nil =>
      intro pre changed hcs hchanged
      rw [List.append_nil] at hcs
      subst hcs
      exact hchanged
  | cons c post ih =>
      intro pre changed hcs hchanged
      have := ih (pre ++ [c]) _ (by rw [hcs, List.append_assoc]; rfl) (hchanged.step h hcs)
      rw [List.getLast?_append] at this
      exact this

/-- The changed blocks of a list of candidates. -/
def changedBlocks (first num : Nat) (cs : List PartialReuseCandidate) : List Nat :=
  markChanges none cs (unmatchedBlocks first num cs)

/-- **What is changed**: the unmatched blocks, and the jumps at the odd places of their rows. -/
theorem mem_changedBlocks (h : InOrder first num cs) (t : Nat) :
    t ∈ changedBlocks first num cs ↔ Unmatched first num cs t ∨ OddRun (Jump first cs) t := by
  have hloop := markChanges_marks h cs [] (unmatchedBlocks first num cs) rfl (by
    intro u
    rw [mem_unmatchedBlocks]
    exact (or_iff_left (fun ⟨⟨c, hc, _⟩, _⟩ => by cases hc)).symm)
  change MarkedSoFar first num cs cs (changedBlocks first num cs) at hloop
  have hmark := marked_iff_oddRun (Jump first cs)
    (fun u => u ∈ changedBlocks first num cs ∧ ¬ Unmatched first num cs u) ?_
  · by_cases hun : Unmatched first num cs t
    · exact ⟨fun _ => Or.inl hun, fun _ => (hloop t).mpr (Or.inl hun)⟩
    · rw [← hmark]
      simp [hun]
  · -- a jump has no unmatched block before it
    intro u
    constructor
    · rintro ⟨hu, hun⟩
      obtain ⟨-, hj, hb⟩ := ((hloop u).mp hu).resolve_left hun
      exact ⟨hj, fun v hv hmem => hb v hv hmem.1⟩
    · rintro ⟨hj, hb⟩
      obtain ⟨c, hc, rfl, hor⟩ := hj
      refine ⟨(hloop _).mpr (Or.inr ⟨⟨c, hc, rfl⟩, ⟨c, hc, rfl, hor⟩, ?_⟩), ?_⟩
      · intro v hv hmem
        refine hb v hv ⟨hmem, ?_⟩
        intro hun
        rcases hor with ⟨heq, -⟩ | ⟨p, hp, heq, -⟩
        · have := hun.1
          omega
        · exact hun.2.2 p hp (by omega)
      · exact fun hun => hun.2.2 c hc rfl

theorem changedBlocks_eq_nil (h : InOrder first num cs) : changedBlocks first num cs = [] ↔
    ∀ u, ¬ Unmatched first num cs u ∧ ¬ Jump first cs u := by
  rw [List.eq_nil_iff_forall_not_mem]
  simp only [mem_changedBlocks h, not_or]
  constructor
  · intro hno u
    refine ⟨(hno u).1, fun hj => ?_⟩
    rcases oddRun_of_jump hj with hodd | ⟨v, -, hodd⟩
    · exact (hno u).2 hodd
    · exact (hno v).2 hodd
  · exact fun hno u => ⟨(hno u).1, fun hodd => (hno u).2 hodd.last⟩

/-! ### Distances -/

/-- No distance, or at most one block. -/
def Near (c : PartialReuseCandidate) : Prop :=
  ∀ d, c.nearestChangedBlockDistance = some d → d ≤ 1

/-- The annotation of one candidate. -/
def annotated (first num : Nat) (cs : List PartialReuseCandidate) (c : PartialReuseCandidate) :
    PartialReuseCandidate :=
  { c with
    blockDisplacement := (c.targetBlockIndex : Int) - c.sourceBlockIndex
    nearestChangedBlockDistance := ((changedBlocks first num cs).map
      fun (t : Nat) => ((c.targetBlockIndex : Int) - t).natAbs).min? }

theorem annotateChangeGeometry_eq_map (first num : Nat) (cs : List PartialReuseCandidate) :
    annotateChangeGeometry cs first num = cs.map (annotated first num cs) := by
  have hcast : ∀ (ts : List Nat) (f : Int → Nat),
      ((do let a ← ts; pure (a : Int)) : List Int).map f = ts.map fun (t : Nat) => f t := by
    intro ts f
    induction ts with
    | nil => rfl
    | cons t ts ih => exact congrArg (f t :: ·) ih
  rw [annotateChangeGeometry]
  simp only [hcast]
  rfl

theorem min?_le_iff {f : Nat → Nat} {ts : List Nat} {n : Nat} :
    (∀ d, (ts.map f).min? = some d → d ≤ n) ↔ ts = [] ∨ ∃ t ∈ ts, f t ≤ n := by
  constructor
  · intro h
    cases hmin : (ts.map f).min? with
    | none => exact Or.inl (by simpa using hmin)
    | some d =>
        obtain ⟨t, ht, rfl⟩ := List.mem_map.mp (List.min?_mem hmin)
        exact Or.inr ⟨t, ht, h _ hmin⟩
  · rintro (rfl | ⟨t, ht, hle⟩) d hd
    · cases hd
    · exact Nat.le_trans ((List.min?_eq_some_iff.mp hd).2 _ (List.mem_map_of_mem ht)) hle

/-- What makes a matched block near a changed one: nothing is changed at all, the source block index jumps at
the block or behind it, a block beside it is unmatched, or an odd row of jumps ends before it. -/
def Noticed (first num : Nat) (cs : List PartialReuseCandidate) (t : Nat) : Prop :=
  (∀ u, ¬ Unmatched first num cs u ∧ ¬ Jump first cs u) ∨ Jump first cs t ∨ Jump first cs (t + 1) ∨
    (∃ u, (u + 1 = t ∨ u = t + 1) ∧ Unmatched first num cs u) ∨
    ∃ u, u + 1 = t ∧ OddRun (Jump first cs) u

theorem near_iff (h : InOrder first num cs) (hc : c ∈ cs) :
    Near (annotated first num cs c) ↔ Noticed first num cs c.targetBlockIndex := by
  change (∀ d, ((changedBlocks first num cs).map
    fun (t : Nat) => ((c.targetBlockIndex : Int) - t).natAbs).min? = some d → d ≤ 1) ↔ _
  rw [min?_le_iff, changedBlocks_eq_nil h, Noticed]
  refine or_congr_right ?_
  have hmem := fun t => mem_changedBlocks h t
  constructor
  · rintro ⟨t, ht, hle⟩
    rcases (hmem t).mp ht with hun | hodd
    · have hne := hun.2.2 c hc
      exact Or.inr (Or.inr (Or.inl ⟨t, by omega, hun⟩))
    · rcases (by omega : t + 1 = c.targetBlockIndex ∨ t = c.targetBlockIndex ∨
          t = c.targetBlockIndex + 1) with heq | heq | heq
      · exact Or.inr (Or.inr (Or.inr ⟨t, heq, hodd⟩))
      · exact Or.inl (heq ▸ hodd.last)
      · exact Or.inr (Or.inl (heq ▸ hodd.last))
  · rintro (hj | hj | ⟨t, ht, hun⟩ | ⟨t, ht, hodd⟩)
    · rcases oddRun_of_jump hj with hodd | ⟨t, ht, hodd⟩
      · exact ⟨_, (hmem _).mpr (Or.inr hodd), by omega⟩
      · exact ⟨t, (hmem _).mpr (Or.inr hodd), by omega⟩
    · rcases oddRun_of_jump hj with hodd | ⟨t, ht, hodd⟩
      · exact ⟨_, (hmem _).mpr (Or.inr hodd), by omega⟩
      · exact ⟨t, (hmem _).mpr (Or.inr hodd), by omega⟩
    · exact ⟨t, (hmem _).mpr (Or.inl hun), by omega⟩
    · exact ⟨t, (hmem _).mpr (Or.inr hodd), by omega⟩

/-! ### Discontinuities -/

/-- A candidate whose window does not continue the window before it, or the first candidate, if the text
before it is not the text before its window. -/
def Discontinuity (blockSize : Nat) (sourceTokenIds promptTokenIds : List Nat)
    (cs : List PartialReuseCandidate) (c : PartialReuseCandidate) : Prop :=
  (∃ pre p post, cs = pre ++ p :: c :: post ∧
    windowStart blockSize c ≠ windowStart blockSize p + blockSize) ∨
  cs.head? = some c ∧ promptTokenIds.take (c.targetBlockIndex * blockSize)
    ≠ sourceTokenIds.take (windowStart blockSize c)

/-- The edit-proximity selector keeps the candidate for repair, whichever block it is copied to. -/
def RepairedWithin (maxBlockDistance : Nat) (c : PartialReuseCandidate) : Prop :=
  ∀ (targetBlockId : Nat) (candidates : List ResolvedPartialReuseCandidate),
    resolveCandidate c targetBlockId ∈ candidates →
    resolveCandidate c targetBlockId ∈ editProximitySelected maxBlockDistance candidates

theorem repairedWithin_of_near (hrepair : c.requiresRepair = true) (hnear : Near c) {radius : Nat}
    (hradius : 1 ≤ radius) : RepairedWithin radius c := by
  intro b candidates hmem
  refine List.mem_filter.mpr ⟨hmem, ?_⟩
  rw [Bool.and_eq_true]
  refine ⟨hrepair, ?_⟩
  have hdistance : (resolveCandidate c b).nearestChangedBlockDistance = c.nearestChangedBlockDistance := rfl
  rw [hdistance]
  cases hd : c.nearestChangedBlockDistance with
  | none => rfl
  | some d => exact decide_eq_true (Nat.le_trans (hnear d hd) hradius)

theorem candidateAt_target {cfg : LocatorConfig} {pool : BlockPool} {source : SourceRequestIndex}
    {promptTokenIds : List Nat} {t : Nat} {c : PartialReuseCandidate}
    (hc : candidateAt cfg pool source promptTokenIds t = some c) :
    c.targetBlockIndex = t ∧ c.requiresRepair = true := by
  rw [candidateAt] at hc
  split at hc
  · cases hc
  · obtain ⟨b, -, rfl⟩ := Option.map_eq_some_iff.mp hc
    exact ⟨rfl, rfl⟩

theorem inOrder_rawCandidates (cfg : LocatorConfig) (pool : BlockPool) (source : SourceRequestIndex)
    (promptTokenIds : List Nat) (native : Nat) :
    InOrder (firstTargetBlock cfg native) (promptTokenIds.length / cfg.blockSize)
      (rawCandidates cfg pool source promptTokenIds native) := by
  refine ⟨?_, ?_⟩
  · rw [rawCandidates]
    refine List.Pairwise.filterMap _ ?_ (List.pairwise_lt_range' _) (R := fun t t' : Nat => t < t')
    intro t t' hlt c hc c' hc'
    rw [(candidateAt_target hc).1, (candidateAt_target hc').1]
    exact hlt
  · intro c hc
    obtain ⟨t, ht, hc⟩ := List.mem_filterMap.mp hc
    rw [List.mem_range'_1] at ht
    rw [(candidateAt_target hc).1]
    omega

/-- **Which discontinuities are repaired.**  The candidates behind a discontinuity are all within one block of a
change, and repaired at every radius from one on, exactly if each of them is noticed. -/
theorem geometry_notices : ∀ (cfg : LocatorConfig) (pool : BlockPool) (source : SourceRequestIndex)
    (promptTokenIds : List Nat) (native : Nat),
    let first := firstTargetBlock cfg native
    let num := promptTokenIds.length / cfg.blockSize
    let cs := rawCandidates cfg pool source promptTokenIds native
    let discontinuity := Discontinuity cfg.blockSize source.promptTokenIds promptTokenIds cs
    (∀ c ∈ cs, discontinuity c → ∀ c' ∈ annotateChangeGeometry cs first num,
      c'.targetBlockIndex = c.targetBlockIndex →
      Near c' ∧ ∀ radius, 1 ≤ radius → RepairedWithin radius c') ↔
    ∀ c ∈ cs, discontinuity c → Noticed first num cs c.targetBlockIndex := by
  intro cfg pool source promptTokenIds native first num cs discontinuity
  have h : InOrder first num cs := inOrder_rawCandidates cfg pool source promptTokenIds native
  rw [annotateChangeGeometry_eq_map]
  constructor
  · intro hall c hc hd
    exact (near_iff h hc).mp (hall c hc hd _ (List.mem_map_of_mem hc) rfl).1
  · intro hall c hc hd c' hc' heq
    obtain ⟨c₁, hc₁, rfl⟩ := List.mem_map.mp hc'
    obtain rfl := h.eq_of_target hc₁ hc heq
    have hnear := (near_iff h hc).mpr (hall c₁ hc hd)
    obtain ⟨t, -, hat⟩ := List.mem_filterMap.mp hc
    exact ⟨hnear, fun radius hradius =>
      repairedWithin_of_near (c := annotated first num cs c₁) (candidateAt_target hat).2 hnear
        hradius⟩

def proximityConfig : LocatorConfig where
  blockSize := 1

/-- A sequence of five blocks. -/
def proximitySource : SourceRequestIndex where
  requestId := "source"
  cacheSalt := none
  loraAdapterId := none
  blocks := (List.range 5).map fun i => ⟨i, [i + 1], i + 1, [([i + 1], [])], none⟩
  promptTokenIds := [1, 2, 3, 4, 5]
  sessionId := none
  fingerprint := []

/-- **An edit inside the native hit is not noticed**: the block behind it keeps its index, and the only
changed block is three blocks away. -/
theorem native_edit_missed : ¬ ∀ (cfg : LocatorConfig) (pool : BlockPool)
    (source : SourceRequestIndex) (promptTokenIds : List Nat) (native : Nat),
    let first := firstTargetBlock cfg native
    let num := promptTokenIds.length / cfg.blockSize
    let cs := rawCandidates cfg pool source promptTokenIds native
    ∀ c ∈ cs, Discontinuity cfg.blockSize source.promptTokenIds promptTokenIds cs c →
      ∀ c' ∈ annotateChangeGeometry cs first num, c'.targetBlockIndex = c.targetBlockIndex →
      Near c' ∧ ∀ radius, 1 ≤ radius → RepairedWithin radius c' := by
  intro h
  have hcs : ∃ c rest, rawCandidates proximityConfig (BlockPool.init 8) proximitySource
      [9, 2, 3, 4, 8] 1 = c :: rest ∧ c.targetBlockIndex = 1 ∧ windowStart 1 c = 1 :=
    ⟨_, _, rfl, rfl, rfl⟩
  obtain ⟨c, rest, hcs, htarget, hstart⟩ := hcs
  have hnear := h proximityConfig (BlockPool.init 8) proximitySource [9, 2, 3, 4, 8] 1 c
    (by rw [hcs]; exact List.mem_cons_self)
    (Or.inr ⟨by rw [hcs]; rfl, by
      change List.take (c.targetBlockIndex * 1) [9, 2, 3, 4, 8]
        ≠ List.take (windowStart 1 c) [1, 2, 3, 4, 5]
      rw [htarget, hstart]
      decide⟩)
  have hfar : ∃ c' ∈ annotateChangeGeometry (rawCandidates proximityConfig (BlockPool.init 8)
      proximitySource [9, 2, 3, 4, 8] 1) 1 5, c'.targetBlockIndex = 1 ∧
      c'.nearestChangedBlockDistance = some 3 := by decide +kernel
  obtain ⟨c', hc', htarget', hdist⟩ := hfar
  exact absurd ((hnear c' hc' (htarget'.trans htarget.symm)).1 3 hdist) (by decide)

end CacheSelect.Worker
