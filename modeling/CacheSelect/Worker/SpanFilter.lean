import CacheSelect.Lib.Spans
import CacheSelect.Worker.ReuseWork

/-! # Short spans of reused positions

`filterShortReuseSpans` keeps a maximal run of reused positions if it is as long as its minimum, which is another one
where the run touches a repacked block (`filterShortReuseSpans_exact`).  The loop closes a run at the first position
that does not continue it, and the last one behind the list.

With both minima one the filter returns its argument at once.  That is the same for positions that make up whole
blocks, since then no run is shorter than a block.
-/

namespace CacheSelect.Worker

open CacheSelect.Core

/-- The positions of an interval. -/
def positions (span : Nat × Nat) : List Nat :=
  List.range' span.1 (span.2 - span.1)

theorem mem_positions {span : Nat × Nat} {t : Nat} : t ∈ positions span ↔ span.1 ≤ t ∧ t < span.2 := by
  rw [positions, List.mem_range'_1]
  omega

/-- **The loop** keeps the intervals of the list that it is to keep. -/
theorem retainRuns_eq (keep : List Nat → Bool) : ∀ (rest : List Nat) (start prev : Nat), start ≤ prev →
    (prev :: rest).Pairwise (· < ·) →
      retainRuns keep (positions (start, prev + 1)) rest
        = (Spans.spansFrom start prev rest).flatMap fun span => if keep (positions span) then positions span else [] := by
  intro rest
  induction rest with
  | nil =>
      intro start prev _ _
      rw [retainRuns, Spans.spansFrom, List.flatMap_singleton]
  | cons x rest ih =>
      intro start prev hle hsorted
      have hlt : prev < x := (List.pairwise_cons.mp hsorted).1 x List.mem_cons_self
      have hrest := (List.pairwise_cons.mp hsorted).2
      have hsplit : prev + 1 - start = prev - start + 1 := by omega
      have hprev : start + (prev - start) = prev := by omega
      have hlast : (positions (start, prev + 1)).getLast? = some prev := by
        rw [positions, hsplit, List.range'_1_concat, List.getLast?_concat, hprev]
      rw [retainRuns, Spans.spansFrom, hlast]
      by_cases hnext : x = prev + 1
      · have hgrown : positions (start, prev + 1) ++ [x] = positions (start, x + 1) := by
          have hlength : x + 1 - start = prev + 1 - start + 1 := by omega
          have hx : start + (prev + 1 - start) = x := by omega
          rw [positions, positions, hlength, List.range'_1_concat, hx]
        have hcontinues : some prev = some (x - 1) ∧ 0 < x := ⟨congrArg some (by omega), by omega⟩
        rw [if_pos hcontinues, if_pos hnext, hgrown, ih start x (by omega) hrest]
      · have hstops : ¬ (some prev = some (x - 1) ∧ 0 < x) := by
          rintro ⟨heq, hpos⟩
          have heq := Option.some.inj heq
          omega
        have hsingle : [x] = positions (x, x + 1) := by
          rw [positions, Nat.add_sub_cancel_left]
          rfl
        rw [if_neg hstops, if_neg hnext, List.flatMap_cons, hsingle, ih x x (Nat.le_refl _) hrest]

/-- A run as long as its minimum: the repacked one if it touches a repacked block. -/
def LongEnough (blockSize minimumSpanBlocks repackedMinimum : Nat) (repackedBlocks : List Nat) (run : Nat × Nat) :
    Prop :=
  ((∃ t, (run.1 ≤ t ∧ t < run.2) ∧ t / blockSize ∈ repackedBlocks) → repackedMinimum * blockSize ≤ run.2 - run.1) ∧
    ((¬ ∃ t, (run.1 ≤ t ∧ t < run.2) ∧ t / blockSize ∈ repackedBlocks) →
      minimumSpanBlocks * blockSize ≤ run.2 - run.1)

/-- With a position its whole block. -/
def WholeBlocks (blockSize : Nat) (reusedTokenIndices : List Nat) : Prop :=
  ∀ t ∈ reusedTokenIndices, ∀ t', t' / blockSize = t / blockSize → t' ∈ reusedTokenIndices

theorem runMinimum_le_iff {blockSize minimumSpanBlocks repackedMinimum : Nat} {repackedBlocks : List Nat}
    {run : Nat × Nat} :
    runMinimum blockSize minimumSpanBlocks repackedMinimum repackedBlocks (positions run) ≤ (positions run).length ↔
      LongEnough blockSize minimumSpanBlocks repackedMinimum repackedBlocks run := by
  have htouches : ((positions run).any fun t => repackedBlocks.contains (t / blockSize)) = true ↔
      ∃ t, (run.1 ≤ t ∧ t < run.2) ∧ t / blockSize ∈ repackedBlocks := by
    rw [List.any_eq_true]
    refine exists_congr fun t => ?_
    rw [mem_positions, List.contains_iff_mem]
  have hlength : (positions run).length = run.2 - run.1 := List.length_range'
  rw [hlength, runMinimum, LongEnough]
  by_cases h : ((positions run).any fun t => repackedBlocks.contains (t / blockSize)) = true
  · rw [if_pos h]
    exact ⟨fun hle => ⟨fun _ => hle, fun hnone => absurd (htouches.mp h) hnone⟩, fun hle => hle.1 (htouches.mp h)⟩
  · rw [if_neg h]
    exact ⟨fun hle => ⟨fun hsome => absurd (htouches.mpr hsome) h, fun _ => hle⟩,
      fun hle => hle.2 fun hsome => h (htouches.mpr hsome)⟩

/-- No run of whole blocks is shorter than a block. -/
theorem blockSize_le_of_wholeBlocks {blockSize : Nat} (hsize : 0 < blockSize) {reused : List Nat}
    (hwhole : WholeBlocks blockSize reused) {run : Nat × Nat} (hrun : Spans.Maximal reused run) :
    blockSize ≤ run.2 - run.1 := by
  have hfirst := hrun.mem run.1 (Nat.le_refl _) hrun.nonempty
  have hdiv := Nat.div_add_mod run.1 blockSize
  have hmod := Nat.mod_lt run.1 hsize
  -- the run begins with its block
  have haligned : run.1 % blockSize = 0 := by
    refine Nat.eq_zero_of_not_pos fun hpos => ?_
    refine hrun.start (run.1 - 1) (by omega) (hwhole run.1 hfirst (run.1 - 1) ?_)
    refine Nat.div_eq_of_lt_le ?_ ?_
    · rw [Nat.mul_comm]
      omega
    · rw [Nat.succ_mul, Nat.mul_comm]
      omega
  refine Nat.le_of_not_lt fun hlt => hrun.stop (hwhole run.1 hfirst run.2 ?_)
  have hnonempty := hrun.nonempty
  refine Nat.div_eq_of_lt_le ?_ ?_
  · rw [Nat.mul_comm]
    omega
  · rw [Nat.succ_mul, Nat.mul_comm]
    omega

/-- What is kept: the positions of the maximal runs that are long enough. -/
structure KeepsLongRuns (blockSize minimumSpanBlocks repackedMinimum : Nat) (repackedBlocks reused kept : List Nat) :
    Prop where
  sorted : kept.Pairwise (· < ·)
  union : ∀ t, t ∈ kept ↔ ∃ run, Spans.Maximal reused run ∧
    LongEnough blockSize minimumSpanBlocks repackedMinimum repackedBlocks run ∧ run.1 ≤ t ∧ t < run.2
  runs : ∀ run, Spans.Maximal kept run ↔ Spans.Maximal reused run ∧
    LongEnough blockSize minimumSpanBlocks repackedMinimum repackedBlocks run

section Filter

variable {blockSize minimumSpanBlocks : Nat} {repackedBlocks reused : List Nat}

/-- The runs of a union of maximal runs are these runs. -/
theorem maximal_kept_iff {long : Nat × Nat → Prop} {kept : List Nat}
    (hunion : ∀ t, t ∈ kept ↔ ∃ run, Spans.Maximal reused run ∧ long run ∧ run.1 ≤ t ∧ t < run.2) (run : Nat × Nat) :
    Spans.Maximal kept run ↔ Spans.Maximal reused run ∧ long run := by
  have hsubset : ∀ t ∈ kept, t ∈ reused := by
    intro t ht
    obtain ⟨run', hrun', -, hle, hlt⟩ := (hunion t).mp ht
    exact hrun'.mem t hle hlt
  have hkept : ∀ run', Spans.Maximal reused run' → long run' → Spans.Maximal kept run' := by
    intro run' hrun' hlong
    exact ⟨hrun'.nonempty, fun t hle hlt => (hunion t).mpr ⟨run', hrun', hlong, hle, hlt⟩,
      fun h => hrun'.stop (hsubset _ h), fun x hx h => hrun'.start x hx (hsubset _ h)⟩
  constructor
  · intro hrun
    obtain ⟨run', hrun', hlong, hle, hlt⟩ := (hunion run.1).mp (hrun.mem _ (Nat.le_refl _) hrun.nonempty)
    rw [hrun.unique (hkept run' hrun' hlong) ⟨Nat.le_refl _, hrun.nonempty⟩ ⟨hle, hlt⟩]
    exact ⟨hrun', hlong⟩
  · exact fun h => hkept run h.1 h.2

variable {minimumRepackedSpanBlocks : Option Nat}

/-- The positions of the intervals of the list that are long enough. -/
def longRuns (blockSize minimumSpanBlocks repackedMinimum : Nat) (repackedBlocks reused : List Nat) : List Nat :=
  (Spans.spans reused).flatMap fun span =>
    if decide (runMinimum blockSize minimumSpanBlocks repackedMinimum repackedBlocks (positions span)
      ≤ (positions span).length) then positions span else []

/-- What the filter returns for sorted positions. -/
theorem filterShortReuseSpans_eq (hsize : 0 < blockSize) (hsorted : reused.Pairwise (· < ·))
    (hminimum : 0 < minimumSpanBlocks) (hrepacked : ∀ k ∈ minimumRepackedSpanBlocks, 0 < k) :
    filterShortReuseSpans reused blockSize minimumSpanBlocks repackedBlocks minimumRepackedSpanBlocks
      = .ok (if minimumSpanBlocks = 1 ∧ minimumRepackedSpanBlocks.getD minimumSpanBlocks = 1 then reused
          else longRuns blockSize minimumSpanBlocks (minimumRepackedSpanBlocks.getD minimumSpanBlocks) repackedBlocks
            reused) := by
  have hvalid : ¬ (blockSize < 1 ∨ min minimumSpanBlocks (minimumRepackedSpanBlocks.getD minimumSpanBlocks) < 1) := by
    cases minimumRepackedSpanBlocks with
    | none =>
        rw [Option.getD_none]
        omega
    | some k =>
        have hk := hrepacked k rfl
        rw [Option.getD_some]
        omega
  unfold filterShortReuseSpans
  dsimp only
  rw [if_neg hvalid, if_neg (not_not.mpr hsorted)]
  cases reused with
  | nil =>
      have hnone : longRuns blockSize minimumSpanBlocks (minimumRepackedSpanBlocks.getD minimumSpanBlocks)
          repackedBlocks [] = [] := rfl
      rw [hnone, ite_self]
  | cons x rest =>
      dsimp only
      by_cases hone : minimumSpanBlocks = 1 ∧ minimumRepackedSpanBlocks.getD minimumSpanBlocks = 1
      · rw [if_pos hone, if_pos hone]
      · have hsingle : [x] = positions (x, x + 1) := by
          rw [positions, Nat.add_sub_cancel_left]
          rfl
        rw [if_neg hone, if_neg hone, hsingle, retainRuns_eq _ _ _ _ (Nat.le_refl _) hsorted]
        rfl

theorem mem_longRuns (hsorted : reused.Pairwise (· < ·)) (repackedMinimum t : Nat) :
    t ∈ longRuns blockSize minimumSpanBlocks repackedMinimum repackedBlocks reused ↔
      ∃ run, Spans.Maximal reused run ∧
        LongEnough blockSize minimumSpanBlocks repackedMinimum repackedBlocks run ∧ run.1 ≤ t ∧ t < run.2 := by
  rw [longRuns, List.mem_flatMap]
  refine exists_congr fun run => ?_
  rw [Spans.mem_spans_iff hsorted, ← runMinimum_le_iff]
  refine and_congr_right fun _ => ?_
  split
  · next hlong =>
    rw [mem_positions]
    exact ⟨fun h => ⟨of_decide_eq_true hlong, h⟩, fun h => h.2⟩
  · next hshort =>
    exact ⟨fun h => absurd h List.not_mem_nil, fun h => absurd (decide_eq_true h.1) hshort⟩

/-- With both minima one, every run of whole blocks is long enough. -/
theorem mem_iff_of_one (hsize : 0 < blockSize) (hsorted : reused.Pairwise (· < ·))
    (hwhole : WholeBlocks blockSize reused) (t : Nat) :
    t ∈ reused ↔ ∃ run, Spans.Maximal reused run ∧ LongEnough blockSize 1 1 repackedBlocks run ∧
      run.1 ≤ t ∧ t < run.2 := by
  constructor
  · intro ht
    obtain ⟨run, hrun, hle, hlt⟩ := (Spans.spans_covers hsorted t).mpr ht
    have hmaximal := (Spans.mem_spans_iff hsorted).mp hrun
    have hlong := blockSize_le_of_wholeBlocks hsize hwhole hmaximal
    refine ⟨run, hmaximal, ?_, hle, hlt⟩
    rw [LongEnough, Nat.one_mul]
    exact ⟨fun _ => hlong, fun _ => hlong⟩
  · rintro ⟨run, hrun, -, hle, hlt⟩
    exact hrun.mem t hle hlt

/-- **Exactly the long runs stay**, none of them cut, and the filter changes nothing when it is applied again. -/
theorem filterShortReuseSpans_exact {blockSize minimumSpanBlocks : Nat} {reused : List Nat}
    {minimumRepackedSpanBlocks : Option Nat} (hsize : 0 < blockSize) (hsorted : reused.Pairwise (· < ·))
    (hwhole : WholeBlocks blockSize reused) (hminimum : 0 < minimumSpanBlocks) (hrepacked : ∀ k ∈ minimumRepackedSpanBlocks, 0 < k)
    (repackedBlocks : List Nat) :
    ∃ kept, filterShortReuseSpans reused blockSize minimumSpanBlocks repackedBlocks minimumRepackedSpanBlocks
        = .ok kept ∧
      KeepsLongRuns blockSize minimumSpanBlocks (minimumRepackedSpanBlocks.getD minimumSpanBlocks) repackedBlocks
        reused kept ∧
      filterShortReuseSpans kept blockSize minimumSpanBlocks repackedBlocks minimumRepackedSpanBlocks = .ok kept := by
  have hfilter := @filterShortReuseSpans_eq blockSize minimumSpanBlocks repackedBlocks reused
    minimumRepackedSpanBlocks hsize hsorted hminimum hrepacked
  obtain ⟨kept, hkept, hsub⟩ := filterShortReuseSpans_ok hsize hsorted hminimum repackedBlocks hrepacked
  have hkeeps : KeepsLongRuns blockSize minimumSpanBlocks (minimumRepackedSpanBlocks.getD minimumSpanBlocks)
      repackedBlocks reused kept := by
    have hunion : ∀ t, t ∈ kept ↔ ∃ run, Spans.Maximal reused run ∧ LongEnough blockSize minimumSpanBlocks
        (minimumRepackedSpanBlocks.getD minimumSpanBlocks) repackedBlocks run ∧ run.1 ≤ t ∧ t < run.2 := by
      intro t
      rw [hfilter] at hkept
      rw [← Except.ok.inj hkept]
      split
      · next hone =>
        rw [hone.2, hone.1]
        exact mem_iff_of_one hsize hsorted hwhole t
      · exact mem_longRuns hsorted _ t
    exact ⟨hsorted.sublist hsub, hunion, maximal_kept_iff hunion⟩
  refine ⟨kept, hkept, hkeeps, ?_⟩
  have hfilter' := @filterShortReuseSpans_eq blockSize minimumSpanBlocks repackedBlocks kept
    minimumRepackedSpanBlocks hsize hkeeps.sorted hminimum hrepacked
  by_cases hone : minimumSpanBlocks = 1 ∧ minimumRepackedSpanBlocks.getD minimumSpanBlocks = 1
  · rw [hfilter', if_pos hone]
  · -- what is kept has the long runs and no others, and these are long enough again
    obtain ⟨again, hagain, hsub'⟩ := filterShortReuseSpans_ok hsize hkeeps.sorted hminimum repackedBlocks hrepacked
    have hmem : ∀ t, t ∈ again ↔ t ∈ kept := by
      intro t
      rw [hfilter', if_neg hone] at hagain
      rw [← Except.ok.inj hagain, mem_longRuns hkeeps.sorted, hkeeps.union]
      refine exists_congr fun run => ?_
      rw [hkeeps.runs]
      exact ⟨fun h => ⟨h.1.1, h.1.2, h.2.2⟩, fun h => ⟨⟨h.1, h.2.1⟩, h.2.1, h.2.2⟩⟩
    have hnodup := (hkeeps.sorted.sublist hsub').imp Nat.ne_of_lt
    have hperm := (List.perm_ext_iff_of_nodup hnodup (hkeeps.sorted.imp Nat.ne_of_lt)).mpr hmem
    rw [hagain, hsub'.eq_of_length hperm.length_eq]

end Filter

/-- **The reused positions make up whole blocks** if the repaired ones do. -/
theorem wholeBlocks_reused {blockSize : Nat} {copies : List PartialReuseCopyInstruction}
    {repairs : List PartialReuseRepairInstruction} {reused : List Nat}
    (hrepairs : ∀ r ∈ repairs, r.targetTokenIndices = List.range' (r.targetBlockIndex * blockSize) blockSize)
    (h : buildReusedTokenIndices copies repairs blockSize = .ok reused) : WholeBlocks blockSize reused := by
  unfold buildReusedTokenIndices at h
  dsimp only at h
  split at h
  · cases h
  next hsize =>
  split at h
  · cases h
  obtain ⟨-, -, h⟩ := Except.bind_eq_ok.mp h
  cases h
  have hsize : 0 < blockSize := by omega
  have hrepaired : ∀ t, t ∈ repairs.flatMap PartialReuseRepairInstruction.targetTokenIndices ↔
      ∃ r ∈ repairs, t / blockSize = r.targetBlockIndex := by
    intro t
    rw [List.mem_flatMap]
    refine exists_congr fun r => and_congr_right fun hr => ?_
    rw [hrepairs r hr, List.mem_range'_1, Nat.div_eq_iff hsize]
    omega
  have hmem : ∀ t, t ∈ ((candidateTokens copies blockSize).filter fun t =>
      !(repairs.flatMap PartialReuseRepairInstruction.targetTokenIndices).contains t).insertionSort (· ≤ ·) ↔
      (∃ i ∈ copies, t / blockSize = i.targetBlockIndex) ∧ ¬ ∃ r ∈ repairs, t / blockSize = r.targetBlockIndex := by
    intro t
    rw [(List.perm_insertionSort _ _).mem_iff, List.mem_filter, mem_candidateTokens hsize, ← hrepaired, Bool.not_eq_true',
      ← Bool.not_eq_true, List.contains_iff_mem]
  intro t ht t' hsame
  rw [hmem] at ht ⊢
  rw [hsame]
  exact ht

/-- Of two runs the shorter one is dropped. -/
theorem filterShortReuseSpans_exact_twoRuns :
    ∃ kept, filterShortReuseSpans [0, 1, 4, 5, 6, 7] 2 2 [] none = .ok kept ∧
      KeepsLongRuns 2 2 2 [] [0, 1, 4, 5, 6, 7] kept ∧ filterShortReuseSpans kept 2 2 [] none = .ok kept := by
  have hwhole : WholeBlocks 2 [0, 1, 4, 5, 6, 7] := by
    intro t ht t' hsame
    have hblocks : ∀ t ∈ [0, 1, 4, 5, 6, 7], t < 8 ∧ ∀ t' < 8, t' / 2 = t / 2 → t' ∈ [0, 1, 4, 5, 6, 7] := by
      decide
    obtain ⟨hlt, hblock⟩ := hblocks t ht
    exact hblock t' (by omega) hsame
  exact filterShortReuseSpans_exact (by decide) (by decide) hwhole (by decide)
    (fun k hk => absurd hk (Option.not_mem_none k)) []

example : filterShortReuseSpans [0, 1, 4, 5, 6, 7] 2 2 [] none = .ok [4, 5, 6, 7] := by
  decide

end CacheSelect.Worker
