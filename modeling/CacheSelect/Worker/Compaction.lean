import CacheSelect.Lib.Spans
import CacheSelect.Lib.Except
import CacheSelect.Worker.Batch

/-! # The compacted batch

The rows that are still computed are packed together once for the whole batch and once more for every
span of consecutive rows.  `Compactable` is what the builder checks, `packedBatch` is what it then
returns (`Compactable.eq_packedBatch`), and `compactedBatch_aligned` says that both cuts
agree: row `i` of a packed tensor is row `computeRows[i]` of the tensor, the boundaries of the requests
count the computed rows of each, and the inputs of the spans, one after the other, are the packed
inputs.
-/

namespace CacheSelect.Worker

open CacheSelect.Core

/-! ### Rows of a tensor -/

/-- The rows of a tensor, packed in the order of the list. -/
def packRows {α : Type} (xs : List α) (rows : List Nat) : List α :=
  rows.filterMap fun row => xs[row]?

/-- Row `i` of the packed tensor is row `rows[i]` of the tensor. -/
def Packs {α : Type} (xs : List α) (rows : List Nat) (packed : List α) : Prop :=
  packed.length = rows.length ∧
    ∀ i row : Nat, rows[i]? = some row → row < xs.length ∧ packed[i]? = xs[row]?

section

variable {α : Type} {xs : List α}

theorem packRows_cons {row : Nat} (h : row < xs.length) (rows : List Nat) :
    packRows xs (row :: rows) = xs[row] :: packRows xs rows :=
  List.filterMap_cons_some (List.getElem?_eq_getElem h)

theorem packRows_flatMap {β : Type} (f : β → List Nat) (l : List β) :
    packRows xs (l.flatMap f) = l.flatMap fun b => packRows xs (f b) := by
  induction l with
  | nil => rfl
  | cons b l ih =>
      rw [List.flatMap_cons, List.flatMap_cons, ← ih]
      exact List.filterMap_append

theorem indexSelect_eq : ∀ {rows : List Nat}, (∀ row ∈ rows, row < xs.length) →
    indexSelect xs rows = .ok (packRows xs rows) := by
  intro rows
  induction rows with
  | nil => intro _; rfl
  | cons row rows ih =>
      intro h
      have hrow := h row List.mem_cons_self
      rw [indexSelect, List.getElem?_eq_getElem hrow, packRows_cons hrow]
      dsimp only
      rw [ih fun x hx => h x (List.mem_cons_of_mem _ hx)]
      rfl

theorem packs_packRows : ∀ {rows : List Nat}, (∀ row ∈ rows, row < xs.length) →
    Packs xs rows (packRows xs rows) := by
  intro rows
  induction rows with
  | nil =>
      intro _
      refine ⟨rfl, ?_⟩
      intro i row h
      cases h
  | cons x rows ih =>
      intro h
      have hx := h x List.mem_cons_self
      obtain ⟨hlen, hget⟩ := ih fun y hy => h y (List.mem_cons_of_mem _ hy)
      rw [packRows_cons hx]
      refine ⟨congrArg Nat.succ hlen, ?_⟩
      intro i row hi
      cases i with
      | zero =>
          obtain rfl := Option.some.inj hi
          exact ⟨hx, (List.getElem?_eq_getElem hx).symm⟩
      | succ i => exact hget i row hi

end

/-! ### The checked rows -/

theorem validateCompactionRows_ok_iff {rows rows' : List Nat} {n : Nat} :
    validateCompactionRows rows n = .ok rows' ↔
      rows ≠ [] ∧ rows.Pairwise (· < ·) ∧ (∀ row ∈ rows, row < n) ∧ rows' = rows := by
  have hany : (rows.any fun row => n ≤ row) = true ↔ ¬ ∀ row ∈ rows, row < n := by
    simp
  unfold validateCompactionRows
  by_cases hne : rows = []
  · rw [if_pos hne]
    refine ⟨fun h => (by cases h), ?_⟩
    intro h
    exact absurd hne h.1
  by_cases hsorted : rows.Pairwise (· < ·)
  · by_cases hlt : ∀ row ∈ rows, row < n
    · rw [if_neg hne, if_neg (not_not.mpr hsorted), if_neg (fun h => hany.mp h hlt)]
      refine ⟨fun h => ⟨hne, hsorted, hlt, (Except.ok.inj h).symm⟩, ?_⟩
      intro h
      rw [h.2.2.2]
    · rw [if_neg hne, if_neg (not_not.mpr hsorted), if_pos (hany.mpr hlt)]
      refine ⟨fun h => (by cases h), ?_⟩
      intro h
      exact absurd h.2.2.1 hlt
  · rw [if_neg hne, if_pos hsorted]
    refine ⟨fun h => (by cases h), ?_⟩
    intro h
    exact absurd h.2.1 hsorted

theorem validateCompactionRows_eq {rows : List Nat} {n : Nat} (hne : rows ≠ [])
    (hsorted : rows.Pairwise (· < ·)) (hlt : ∀ row ∈ rows, row < n) :
    validateCompactionRows rows n = .ok rows :=
  validateCompactionRows_ok_iff.mpr ⟨hne, hsorted, hlt, rfl⟩

/-! ### The compute spans -/

/-- The loop of the span builder is the pass over the list that finds its maximal runs. -/
theorem spanLoop_eq : ∀ (rows : List Nat) (start previous : Nat),
    spanLoop start previous rows
      = (Spans.spansFrom start previous rows).map fun s => ⟨s.1, s.2⟩ := by
  intro rows
  induction rows with
  | nil => intro start previous; rfl
  | cons row rows ih =>
      intro start previous
      rw [spanLoop, Spans.spansFrom]
      by_cases h : row = previous + 1
      · rw [if_neg (not_not.mpr h), if_pos h, ih]
      · rw [if_pos h, if_neg h, ih, List.map_cons]

/-- The compute spans of a list of rows. -/
def computeSpansOf (rows : List Nat) : List PartialReuseComputeSpan :=
  (Spans.spans rows).map fun s => ⟨s.1, s.2⟩

theorem buildPartialReuseComputeSpans_eq {rows : List Nat} {n : Nat} (hne : rows ≠ [])
    (hsorted : rows.Pairwise (· < ·)) (hlt : ∀ row ∈ rows, row < n) :
    buildPartialReuseComputeSpans rows n = .ok (computeSpansOf rows) := by
  rw [buildPartialReuseComputeSpans, validateCompactionRows_eq hne hsorted hlt]
  cases rows with
  | nil => exact absurd rfl hne
  | cons row rows =>
      change Except.ok (spanLoop row row rows) = _
      rw [spanLoop_eq]
      rfl

section

variable {rows : List Nat}

theorem mem_computeSpansOf {s : PartialReuseComputeSpan} :
    s ∈ computeSpansOf rows ↔ (s.startRow, s.endRow) ∈ Spans.spans rows := by
  rw [computeSpansOf, List.mem_map]
  constructor
  · rintro ⟨x, hx, rfl⟩
    exact hx
  · intro h
    exact ⟨_, h, rfl⟩

theorem startRow_lt_endRow (hsorted : rows.Pairwise (· < ·)) {s : PartialReuseComputeSpan}
    (hs : s ∈ computeSpansOf rows) : s.startRow < s.endRow :=
  Spans.spans_nonempty hsorted _ (mem_computeSpansOf.mp hs)

/-- The rows of a span are rows of the list. -/
theorem mem_of_span (hsorted : rows.Pairwise (· < ·)) {s : PartialReuseComputeSpan}
    (hs : s ∈ computeSpansOf rows) (row : Nat) (h1 : s.startRow ≤ row) (h2 : row < s.endRow) :
    row ∈ rows :=
  (Spans.spans_covers hsorted row).mp ⟨_, mem_computeSpansOf.mp hs, h1, h2⟩

theorem endRow_le (hsorted : rows.Pairwise (· < ·)) {n : Nat} (hlt : ∀ row ∈ rows, row < n)
    {s : PartialReuseComputeSpan} (hs : s ∈ computeSpansOf rows) : s.endRow ≤ n := by
  have h := startRow_lt_endRow hsorted hs
  have := hlt _ (mem_of_span hsorted hs (s.endRow - 1) (by omega) (by omega))
  omega

theorem computeSpansOf_ne_nil (hsorted : rows.Pairwise (· < ·)) (hne : rows ≠ []) :
    computeSpansOf rows ≠ [] := by
  obtain ⟨row, hrow⟩ := List.exists_mem_of_ne_nil rows hne
  obtain ⟨s, hs, -⟩ := (Spans.spans_covers hsorted row).mpr hrow
  exact List.ne_nil_of_mem (List.mem_map_of_mem hs)

theorem pairwise_computeSpansOf (hsorted : rows.Pairwise (· < ·)) :
    (computeSpansOf rows).Pairwise fun s t => s.endRow < t.startRow :=
  List.pairwise_map.mpr (Spans.spans_pairwise hsorted)

end

theorem spansOrdered_of_pairwise : ∀ (spans : List PartialReuseComputeSpan) (previousEnd : Nat),
    (∀ s ∈ spans, previousEnd ≤ s.startRow) →
    spans.Pairwise (fun s t => s.endRow < t.startRow) → spansOrdered previousEnd spans = true := by
  intro spans
  induction spans with
  | nil => intro _ _ _; rfl
  | cons s spans ih =>
      intro previousEnd hle hp
      obtain ⟨hs, hrest⟩ := List.pairwise_cons.mp hp
      rw [spansOrdered, Bool.and_eq_true, decide_eq_true_eq]
      exact ⟨hle s (by simp), ih s.endRow (fun t ht => Nat.le_of_lt (hs t ht)) hrest⟩


/-! ### What the builder returns -/

/-- What the builder checks: the boundaries cover the tensors, one slot mapping per block table, and
at least one computed row, in order. -/
structure Compactable (inputIds positions : List Nat) (slotMappings blockTables : List (List Nat))
    (queryStartLocations computeRows : List Nat) : Prop where
  requests : 2 ≤ queryStartLocations.length
  first : queryStartLocations.head? = some 0
  sorted : queryStartLocations.Pairwise (· ≤ ·)
  last : queryStartLocations.getLast? = some inputIds.length
  positions : inputIds.length = positions.length
  slots : ∀ group ∈ slotMappings, group.length = inputIds.length
  tables : blockTables ≠ []
  groups : slotMappings.length = blockTables.length
  nonempty : computeRows ≠ []
  ordered : computeRows.Pairwise (· < ·)
  inside : ∀ row ∈ computeRows, row < inputIds.length

/-- The rows of a span. -/
def spanRows (span : PartialReuseComputeSpan) : List Nat :=
  List.range' span.startRow (span.endRow - span.startRow)

def packedSpanInputs (inputIds positions : List Nat) (slotMappings : List (List Nat))
    (initialComputedTokens : Nat) (span : PartialReuseComputeSpan) : PartialReuseSpanInputs where
  span := span
  inputIds := packRows inputIds (spanRows span)
  positions := packRows positions (spanRows span)
  slotMappings := slotMappings.map fun group => packRows group (spanRows span)
  queryStartLocations := (0, span.endRow - span.startRow)
  sequenceLength := initialComputedTokens + span.endRow

def packedAttentionInputs (blockTables : List (List Nat)) (s : PartialReuseSpanInputs) :
    PartialReuseSpanAttentionInputs where
  span := s.span
  numTokens := s.inputIds.length
  queryStartLoc := s.queryStartLocations
  seqLens := [s.sequenceLength]
  maxQueryLen := s.inputIds.length
  maxSeqLen := s.sequenceLength
  blockTables := blockTables
  slotMappings := s.slotMappings
  positions := s.positions

def packedBatch (inputIds positions : List Nat) (slotMappings blockTables : List (List Nat))
    (queryStartLocations computeRows : List Nat) (initialComputedTokens : Nat) :
    PartialReuseCompactedBatch :=
  let spanInputs := (computeSpansOf computeRows).map
    (packedSpanInputs inputIds positions slotMappings initialComputedTokens)
  { computeRows := computeRows
    computeSpans := computeSpansOf computeRows
    spanInputs := spanInputs
    spanModelInputs := spanInputs.map fun s => (s.inputIds, s.positions)
    spanAttentionInputs := spanInputs.map (packedAttentionInputs blockTables)
    inputIds := packRows inputIds computeRows
    positions := packRows positions computeRows
    slotMappings := slotMappings.map fun group => packRows group computeRows
    queryStartLocations := queryStartLocations.map (bisectLeft computeRows) }

section

variable {inputIds positions : List Nat} {slotMappings blockTables : List (List Nat)}
variable {queryStartLocations rows : List Nat}

theorem compactPartialReuseModelInputs_ok (hlen : inputIds.length = positions.length)
    (hne : rows ≠ []) (hsorted : rows.Pairwise (· < ·)) (hlt : ∀ row ∈ rows, row < inputIds.length) :
    compactPartialReuseModelInputs inputIds positions rows
      = .ok (packRows inputIds rows, packRows positions rows) := by
  rw [compactPartialReuseModelInputs, if_neg (not_not.mpr hlen),
    validateCompactionRows_eq hne hsorted hlt]
  change (indexSelect inputIds rows >>= _) = _
  rw [indexSelect_eq hlt]
  change (indexSelect positions rows >>= _) = _
  rw [indexSelect_eq fun row hrow => hlen ▸ hlt row hrow]
  rfl

theorem compactPartialReuseSlotMappings_ok {n : Nat} (hslots : ∀ group ∈ slotMappings, group.length = n)
    (hne : rows ≠ []) (hsorted : rows.Pairwise (· < ·)) (hlt : ∀ row ∈ rows, row < n) :
    compactPartialReuseSlotMappings slotMappings n rows
      = .ok (slotMappings.map fun group => packRows group rows) := by
  rw [compactPartialReuseSlotMappings, validateCompactionRows_eq hne hsorted hlt]
  change slotMappings.mapM (fun group => indexSelect group rows) = _
  apply Except.mapM_eq_ok_map
  intro group hgroup
  exact indexSelect_eq fun row hrow => (hslots group hgroup).symm ▸ hlt row hrow

theorem length_packRows {α : Type} {xs : List α} (hlt : ∀ row ∈ rows, row < xs.length) :
    (packRows xs rows).length = rows.length :=
  (packs_packRows hlt).1

theorem mem_spanRows {span : PartialReuseComputeSpan} {row : Nat} :
    row ∈ spanRows span ↔ span.startRow ≤ row ∧ row < span.endRow := by
  rw [spanRows, List.mem_range'_1]
  omega

theorem length_spanRows (span : PartialReuseComputeSpan) :
    (spanRows span).length = span.endRow - span.startRow :=
  List.length_range'

theorem buildPartialReuseSpanInputs_ok (hlen : inputIds.length = positions.length)
    (hslots : ∀ group ∈ slotMappings, group.length = inputIds.length) (initial : Nat)
    {span : PartialReuseComputeSpan} (hlt : span.startRow < span.endRow)
    (hle : span.endRow ≤ inputIds.length) :
    buildPartialReuseSpanInputs inputIds positions slotMappings initial span
      = .ok (packedSpanInputs inputIds positions slotMappings initial span) := by
  have hne : spanRows span ≠ [] := by
    apply List.ne_nil_of_mem
    exact mem_spanRows.mpr ⟨Nat.le_refl _, hlt⟩
  have hsorted : (spanRows span).Pairwise (· < ·) := List.pairwise_lt_range'
  have hrows : ∀ row ∈ spanRows span, row < inputIds.length := by
    intro row hrow
    have := (mem_spanRows.mp hrow).2
    omega
  rw [buildPartialReuseSpanInputs, if_neg (by omega), if_neg (by omega)]
  change (compactPartialReuseModelInputs _ _ (spanRows span) >>= _) = _
  rw [compactPartialReuseModelInputs_ok hlen hne hsorted hrows]
  change (compactPartialReuseSlotMappings _ _ (spanRows span) >>= _) = _
  rw [compactPartialReuseSlotMappings_ok hslots hne hsorted hrows]
  rfl

theorem buildPartialReuseSpanInputSequence_ok (hlen : inputIds.length = positions.length)
    (hslots : ∀ group ∈ slotMappings, group.length = inputIds.length) {initial : Nat} (hne : rows ≠ [])
    (hsorted : rows.Pairwise (· < ·)) (hlt : ∀ row ∈ rows, row < inputIds.length) :
    buildPartialReuseSpanInputSequence inputIds positions slotMappings (computeSpansOf rows) initial
      = .ok ((computeSpansOf rows).map (packedSpanInputs inputIds positions slotMappings initial)) := by
  rw [buildPartialReuseSpanInputSequence, if_neg (computeSpansOf_ne_nil hsorted hne), if_neg]
  · apply Except.mapM_eq_ok_map
    intro s hs
    exact buildPartialReuseSpanInputs_ok hlen hslots initial (startRow_lt_endRow hsorted hs)
      (endRow_le hsorted hlt hs)
  · rw [Bool.not_eq_false]
    exact spansOrdered_of_pairwise _ 0 (fun s _ => Nat.zero_le _) (pairwise_computeSpansOf hsorted)

/-- The packed inputs of a span are as long as the span. -/
theorem length_packedSpanInputs (initial : Nat) {span : PartialReuseComputeSpan}
    (hle : span.endRow ≤ inputIds.length) :
    (packedSpanInputs inputIds positions slotMappings initial span).inputIds.length
      = span.endRow - span.startRow := by
  rw [← length_spanRows]
  apply length_packRows
  intro row hrow
  have := (mem_spanRows.mp hrow).2
  omega

theorem buildPartialReuseSpanModelInputs_ok (hlen : inputIds.length = positions.length) (initial : Nat)
    {span : PartialReuseComputeSpan} (hlt : span.startRow < span.endRow)
    (hle : span.endRow ≤ inputIds.length) :
    buildPartialReuseSpanModelInputs (packedSpanInputs inputIds positions slotMappings initial span)
      = .ok (packRows inputIds (spanRows span), packRows positions (spanRows span)) := by
  have hids := @length_packedSpanInputs inputIds positions slotMappings initial span hle
  have hpos : (packedSpanInputs inputIds positions slotMappings initial span).positions.length
      = span.endRow - span.startRow := by
    rw [← length_spanRows]
    apply length_packRows
    intro row hrow
    have := (mem_spanRows.mp hrow).2
    omega
  have hne : (packedSpanInputs inputIds positions slotMappings initial span).inputIds ≠ [] := by
    intro h
    rw [h, List.length_nil] at hids
    omega
  rw [buildPartialReuseSpanModelInputs, if_neg (not_not.mpr (hids.trans hpos.symm)), if_neg hne, if_neg]
  · rfl
  · exact not_not.mpr hids

theorem buildPartialReuseSpanAttentionInputs_ok (htables : blockTables ≠ [])
    (hgroups : slotMappings.length = blockTables.length) (initial : Nat)
    {span : PartialReuseComputeSpan} (hle : span.endRow ≤ inputIds.length) :
    buildPartialReuseSpanAttentionInputs blockTables
        (packedSpanInputs inputIds positions slotMappings initial span)
      = .ok (packedAttentionInputs blockTables
        (packedSpanInputs inputIds positions slotMappings initial span)) := by
  have hids := @length_packedSpanInputs inputIds positions slotMappings initial span hle
  have hslots : (packedSpanInputs inputIds positions slotMappings initial span).slotMappings.length
      = blockTables.length := by
    rw [← hgroups]
    exact List.length_map _
  rw [buildPartialReuseSpanAttentionInputs, if_neg htables, if_neg (not_not.mpr hslots), if_neg, if_neg]
  · rfl
  · rw [hids]
    change ¬ initial + span.endRow < span.endRow - span.startRow
    omega
  · rw [hids]
    exact not_not.mpr rfl

theorem compactPartialReuseQueryStartLocations_ok {n : Nat} (hrequests : 2 ≤ queryStartLocations.length)
    (hfirst : queryStartLocations.head? = some 0) (hbounds : queryStartLocations.Pairwise (· ≤ ·))
    (hlast : queryStartLocations.getLast? = some n) (hne : rows ≠ []) (hsorted : rows.Pairwise (· < ·))
    (hlt : ∀ row ∈ rows, row < n) :
    compactPartialReuseQueryStartLocations queryStartLocations rows
      = .ok (queryStartLocations.map (bisectLeft rows)) := by
  rw [compactPartialReuseQueryStartLocations, hfirst, hlast]
  dsimp only
  rw [if_neg (by omega), if_neg (not_not.mpr rfl), if_neg (not_not.mpr hbounds),
    validateCompactionRows_eq hne hsorted hlt]
  rfl

/-- **The checks suffice**: the builder returns the packed batch. -/
theorem Compactable.eq_packedBatch
    (h : Compactable inputIds positions slotMappings blockTables queryStartLocations rows)
    (initial : Nat) :
    buildPartialReuseCompactedBatch inputIds positions slotMappings blockTables queryStartLocations rows
        initial
      = .ok (packedBatch inputIds positions slotMappings blockTables queryStartLocations rows initial) := by
  have hspan : ∀ s ∈ computeSpansOf rows, s.startRow < s.endRow ∧ s.endRow ≤ inputIds.length :=
    fun s hs => ⟨startRow_lt_endRow h.ordered hs, endRow_le h.ordered h.inside hs⟩
  have hmodel : ((computeSpansOf rows).map (packedSpanInputs inputIds positions slotMappings initial)).mapM
      buildPartialReuseSpanModelInputs
      = .ok (((computeSpansOf rows).map (packedSpanInputs inputIds positions slotMappings initial)).map
        fun s => (s.inputIds, s.positions)) := by
    apply Except.mapM_eq_ok_map
    intro x hx
    obtain ⟨s, hs, rfl⟩ := List.mem_map.mp hx
    exact buildPartialReuseSpanModelInputs_ok h.positions initial (hspan s hs).1 (hspan s hs).2
  have hattention : ((computeSpansOf rows).map
      (packedSpanInputs inputIds positions slotMappings initial)).mapM
        (buildPartialReuseSpanAttentionInputs blockTables)
      = .ok (((computeSpansOf rows).map (packedSpanInputs inputIds positions slotMappings initial)).map
        (packedAttentionInputs blockTables)) := by
    apply Except.mapM_eq_ok_map
    intro x hx
    obtain ⟨s, hs, rfl⟩ := List.mem_map.mp hx
    exact buildPartialReuseSpanAttentionInputs_ok h.tables h.groups initial (hspan s hs).2
  have hslots : ¬ (slotMappings.any fun group => group.length != inputIds.length) = true := by
    rw [List.any_eq_true]
    rintro ⟨group, hgroup, hne⟩
    rw [bne_iff_ne] at hne
    exact hne (h.slots group hgroup)
  rw [buildPartialReuseCompactedBatch, if_neg (by have := h.requests; omega), if_neg (not_not.mpr h.last),
    if_neg hslots, validateCompactionRows_eq h.nonempty h.ordered h.inside]
  change (compactPartialReuseModelInputs _ _ rows >>= _) = _
  rw [compactPartialReuseModelInputs_ok h.positions h.nonempty h.ordered h.inside]
  change (buildPartialReuseComputeSpans rows _ >>= _) = _
  rw [buildPartialReuseComputeSpans_eq h.nonempty h.ordered h.inside]
  change (buildPartialReuseSpanInputSequence _ _ _ _ _ >>= _) = _
  rw [buildPartialReuseSpanInputSequence_ok h.positions h.slots h.nonempty h.ordered h.inside]
  change (List.mapM buildPartialReuseSpanModelInputs _ >>= _) = _
  rw [hmodel]
  change (List.mapM (buildPartialReuseSpanAttentionInputs _) _ >>= _) = _
  rw [hattention]
  change (compactPartialReuseSlotMappings _ _ rows >>= _) = _
  rw [compactPartialReuseSlotMappings_ok h.slots h.nonempty h.ordered h.inside]
  change (compactPartialReuseQueryStartLocations _ rows >>= _) = _
  rw [compactPartialReuseQueryStartLocations_ok h.requests h.first h.sorted h.last h.nonempty h.ordered
    h.inside]
  rfl

/-! ### What was checked -/

theorem length_of_model {a : List Nat × List Nat}
    (h : compactPartialReuseModelInputs inputIds positions rows = .ok a) :
    inputIds.length = positions.length := by
  rw [compactPartialReuseModelInputs] at h
  split at h
  · cases h
  · exact not_not.mp ‹_›

theorem bounds_of_ok {bounds : List Nat}
    (h : compactPartialReuseQueryStartLocations queryStartLocations rows = .ok bounds) :
    queryStartLocations.head? = some 0 ∧ queryStartLocations.Pairwise (· ≤ ·) := by
  unfold compactPartialReuseQueryStartLocations at h
  split at h
  case h_1 first last hfirst hlast =>
    split at h
    · cases h
    · split at h
      · cases h
      · split at h
        · cases h
        · exact ⟨hfirst.trans (congrArg some (not_not.mp ‹_›)), not_not.mp ‹_›⟩
  case h_2 => cases h

/-- One span's attention inputs were built. -/
theorem tables_of_attention {s : PartialReuseSpanInputs} {a : PartialReuseSpanAttentionInputs}
    (h : buildPartialReuseSpanAttentionInputs blockTables s = .ok a) :
    blockTables ≠ [] ∧ s.slotMappings.length = blockTables.length := by
  rw [buildPartialReuseSpanAttentionInputs] at h
  split at h
  · cases h
  · split at h
    · cases h
    · exact ⟨‹_›, not_not.mp ‹_›⟩

/-- **The checks are necessary**: a batch that was built passed them. -/
theorem compactable_of_ok {initial : Nat} {batch : PartialReuseCompactedBatch}
    (h : buildPartialReuseCompactedBatch inputIds positions slotMappings blockTables queryStartLocations
      rows initial = .ok batch) :
    Compactable inputIds positions slotMappings blockTables queryStartLocations rows := by
  rw [buildPartialReuseCompactedBatch] at h
  by_cases hrequests : queryStartLocations.length < 2
  · rw [if_pos hrequests] at h
    cases h
  by_cases hlast : queryStartLocations.getLast? = some inputIds.length
  case neg =>
    rw [if_neg hrequests, if_pos hlast] at h
    cases h
  by_cases hslots : (slotMappings.any fun group => group.length != inputIds.length) = true
  · rw [if_neg hrequests, if_neg (not_not.mpr hlast), if_pos hslots] at h
    cases h
  rw [if_neg hrequests, if_neg (not_not.mpr hlast), if_neg hslots] at h
  have hgroups : ∀ group ∈ slotMappings, group.length = inputIds.length := by
    intro group hgroup
    refine not_not.mp fun hne => hslots ?_
    exact List.any_eq_true.mpr ⟨group, hgroup, bne_iff_ne.mpr hne⟩
  obtain ⟨rows', hrows, h1⟩ := Except.bind_eq_ok.mp h
  obtain ⟨hne, hsorted, hlt, heq⟩ := validateCompactionRows_ok_iff.mp hrows
  subst heq
  obtain ⟨_, hmodel, h2⟩ := Except.bind_eq_ok.mp h1
  have hlen := length_of_model hmodel
  obtain ⟨spans, hspans, h3⟩ := Except.bind_eq_ok.mp h2
  rw [buildPartialReuseComputeSpans_eq hne hsorted hlt] at hspans
  obtain rfl := Except.ok.inj hspans
  obtain ⟨inputs, hinputs, h4⟩ := Except.bind_eq_ok.mp h3
  rw [buildPartialReuseSpanInputSequence_ok hlen hgroups hne hsorted hlt] at hinputs
  obtain rfl := Except.ok.inj hinputs
  obtain ⟨_, _, h5⟩ := Except.bind_eq_ok.mp h4
  obtain ⟨attention, hattention, h6⟩ := Except.bind_eq_ok.mp h5
  obtain ⟨_, _, h7⟩ := Except.bind_eq_ok.mp h6
  obtain ⟨bounds, hbounds, _⟩ := Except.bind_eq_ok.mp h7
  obtain ⟨hfirst, hnondecreasing⟩ := bounds_of_ok hbounds
  -- there is a span, so the tables were checked
  obtain ⟨span, hspan⟩ := List.exists_mem_of_ne_nil _ (computeSpansOf_ne_nil hsorted hne)
  obtain ⟨_, -, hbuilt⟩ := Except.exists_ok_of_mapM hattention (List.mem_map_of_mem hspan)
  obtain ⟨htables, hcount⟩ := tables_of_attention hbuilt
  exact ⟨Nat.le_of_not_lt hrequests, hfirst, hnondecreasing, hlast, hlen, hgroups, htables,
    (List.length_map _).symm.trans hcount, hne, hsorted, hlt⟩

end

/-! ### Alignment -/

/-- **The boundaries count the rows.**  Between two boundaries of the batch lie as many packed rows
as the request has computed rows, and these are the packed rows of that request. -/
structure CountsRows (queryStartLocations rows packed : List Nat) : Prop where
  length : packed.length = queryStartLocations.length
  first : packed.head? = some 0
  last : packed.getLast? = some rows.length
  request : ∀ k lo hi : Nat, queryStartLocations[k]? = some lo → queryStartLocations[k + 1]? = some hi →
    ∃ lo' hi', packed[k]? = some lo' ∧ packed[k + 1]? = some hi' ∧
      hi' = lo' + rows.countP (fun row => lo ≤ row ∧ row < hi) ∧
      ∀ i row : Nat, rows[i]? = some row → (lo' ≤ i ∧ i < hi' ↔ lo ≤ row ∧ row < hi)

/-- The compacted batch agrees with itself and with the batch it was cut from. -/
structure CompactionAligned (inputIds positions : List Nat) (slotMappings : List (List Nat))
    (queryStartLocations computeRows : List Nat) (batch : PartialReuseCompactedBatch) : Prop where
  rows : batch.computeRows = computeRows
  ids : Packs inputIds computeRows batch.inputIds
  positions : Packs positions computeRows batch.positions
  slots : List.Forall₂ (fun group packed => Packs group computeRows packed) slotMappings
    batch.slotMappings
  boundaries : CountsRows queryStartLocations computeRows batch.queryStartLocations
  spans : batch.spanInputs.map PartialReuseSpanInputs.span = batch.computeSpans
  spanRows : batch.computeSpans.flatMap spanRows = computeRows
  spanIds : batch.spanInputs.flatMap PartialReuseSpanInputs.inputIds = batch.inputIds
  spanPositions : batch.spanInputs.flatMap PartialReuseSpanInputs.positions = batch.positions
  spanGroups : ∀ s ∈ batch.spanInputs, s.slotMappings.length = batch.slotMappings.length
  spanSlots : ∀ (g : Nat) (packed : List Nat), batch.slotMappings[g]? = some packed →
    batch.spanInputs.flatMap (fun s => s.slotMappings.getD g []) = packed
  modelInputs : batch.spanModelInputs = batch.spanInputs.map fun s => (s.inputIds, s.positions)

section

variable {rows : List Nat}

/-- A row lies below a boundary when its place lies below the boundary's. -/
theorem lt_bisectLeft_iff : ∀ {rows : List Nat}, rows.Pairwise (· < ·) → ∀ {i row : Nat} (boundary : Nat),
    rows[i]? = some row → (i < bisectLeft rows boundary ↔ row < boundary) := by
  intro rows
  induction rows with
  | nil => intro _ i row boundary h; cases h
  | cons x rows ih =>
      intro hsorted i row boundary h
      obtain ⟨hx, hrest⟩ := List.pairwise_cons.mp hsorted
      by_cases hlt : x < boundary
      · have hcount : bisectLeft (x :: rows) boundary = bisectLeft rows boundary + 1 :=
          List.countP_cons_of_pos (decide_eq_true hlt)
        rw [hcount]
        cases i with
        | zero =>
            obtain rfl := Option.some.inj h
            exact ⟨fun _ => hlt, fun _ => Nat.succ_pos _⟩
        | succ i =>
            have h : rows[i]? = some row := h
            rw [Nat.succ_lt_succ_iff, ih hrest boundary h]
      · -- the later rows are larger still
        have hnone : bisectLeft (x :: rows) boundary = 0 := by
          apply List.countP_eq_zero.mpr
          intro y hy hyb
          have hyb := of_decide_eq_true hyb
          rcases List.mem_cons.mp hy with rfl | hy
          · exact hlt hyb
          · have := hx y hy
            omega
        have hrow : x ≤ row := by
          rcases List.mem_cons.mp (List.mem_of_getElem? h) with rfl | hmem
          · exact Nat.le_refl _
          · exact Nat.le_of_lt (hx row hmem)
        rw [hnone]
        omega

/-- The rows between two boundaries. -/
theorem bisectLeft_add {lo hi : Nat} (hle : lo ≤ hi) (rows : List Nat) :
    bisectLeft rows hi = bisectLeft rows lo + rows.countP fun row => lo ≤ row ∧ row < hi := by
  induction rows with
  | nil => rfl
  | cons x rows ih =>
      rw [bisectLeft, bisectLeft] at ih ⊢
      rw [List.countP_cons, List.countP_cons, List.countP_cons, ih]
      simp only [decide_eq_true_eq]
      by_cases hlo : x < lo
      · rw [if_pos (by omega), if_pos hlo, if_neg (by omega)]
        omega
      · by_cases hhi : x < hi
        · rw [if_pos hhi, if_neg hlo, if_pos (by omega)]
          omega
        · rw [if_neg hhi, if_neg hlo, if_neg (by omega)]
          omega

theorem countsRows_bisectLeft {bounds : List Nat} {n : Nat} (hfirst : bounds.head? = some 0)
    (hbounds : bounds.Pairwise (· ≤ ·)) (hlast : bounds.getLast? = some n)
    (hsorted : rows.Pairwise (· < ·)) (hlt : ∀ row ∈ rows, row < n) :
    CountsRows bounds rows (bounds.map (bisectLeft rows)) where
  length := List.length_map _
  first := by
    rw [List.head?_map, hfirst]
    exact congrArg some (List.countP_eq_zero.mpr fun row _ h => absurd (of_decide_eq_true h) (Nat.not_lt_zero _))
  last := by
    rw [List.getLast?_map, hlast]
    exact congrArg some (List.countP_eq_length.mpr fun row hrow => decide_eq_true (hlt row hrow))
  request := by
    intro k lo hi hlo hhi
    have hle : lo ≤ hi := by
      obtain ⟨hk, rfl⟩ := List.getElem?_eq_some_iff.mp hlo
      obtain ⟨hk', rfl⟩ := List.getElem?_eq_some_iff.mp hhi
      exact List.pairwise_iff_getElem.mp hbounds k (k + 1) hk hk' (Nat.lt_succ_self k)
    refine ⟨bisectLeft rows lo, bisectLeft rows hi, ?_, ?_, bisectLeft_add hle rows, ?_⟩
    · rw [List.getElem?_map, hlo]
      rfl
    · rw [List.getElem?_map, hhi]
      rfl
    · intro i row hrow
      have h1 := lt_bisectLeft_iff hsorted lo hrow
      have h2 := lt_bisectLeft_iff hsorted hi hrow
      omega

theorem flatMap_spanRows (rows : List Nat) : (computeSpansOf rows).flatMap spanRows = rows := by
  rw [computeSpansOf, List.flatMap_map]
  exact Spans.flatMap_spans rows

/-- The rows packed span by span. -/
theorem flatMap_packRows {α : Type} (xs : List α) (rows : List Nat) :
    (computeSpansOf rows).flatMap (fun s => packRows xs (spanRows s)) = packRows xs rows := by
  rw [← packRows_flatMap, flatMap_spanRows]

end

theorem Compactable.aligned {inputIds positions : List Nat} {slotMappings blockTables : List (List Nat)}
    {queryStartLocations rows : List Nat}
    (h : Compactable inputIds positions slotMappings blockTables queryStartLocations rows) (initial : Nat) :
    CompactionAligned inputIds positions slotMappings queryStartLocations rows
      (packedBatch inputIds positions slotMappings blockTables queryStartLocations rows initial) where
  rows := rfl
  ids := packs_packRows h.inside
  positions := packs_packRows fun row hrow => h.positions ▸ h.inside row hrow
  slots := by
    apply List.forall₂_map_right_iff.mpr
    apply List.forall₂_same.mpr
    intro group hgroup
    exact packs_packRows fun row hrow => (h.slots group hgroup).symm ▸ h.inside row hrow
  boundaries := countsRows_bisectLeft h.first h.sorted h.last h.ordered h.inside
  spans := by
    change ((computeSpansOf rows).map _).map _ = computeSpansOf rows
    rw [List.map_map]
    exact List.map_id _
  spanRows := flatMap_spanRows rows
  spanIds := by
    change ((computeSpansOf rows).map _).flatMap _ = packRows inputIds rows
    rw [List.flatMap_map]
    exact flatMap_packRows inputIds rows
  spanPositions := by
    change ((computeSpansOf rows).map _).flatMap _ = packRows positions rows
    rw [List.flatMap_map]
    exact flatMap_packRows positions rows
  spanGroups := by
    intro s hs
    obtain ⟨span, -, rfl⟩ := List.mem_map.mp hs
    exact (List.length_map _).trans (List.length_map _).symm
  spanSlots := by
    intro g packed hpacked
    change (slotMappings.map fun group => packRows group rows)[g]? = some packed at hpacked
    rw [List.getElem?_map] at hpacked
    obtain ⟨group, hgroup, rfl⟩ := Option.map_eq_some_iff.mp hpacked
    have hspan : ∀ span : PartialReuseComputeSpan,
        (slotMappings.map fun group => packRows group (spanRows span)).getD g []
          = packRows group (spanRows span) := by
      intro span
      rw [List.getD_eq_getElem?_getD, List.getElem?_map, hgroup]
      rfl
    change ((computeSpansOf rows).map _).flatMap _ = packRows group rows
    rw [List.flatMap_map, ← flatMap_packRows group rows]
    exact List.flatMap_congr fun span _ => hspan span
  modelInputs := rfl

/-- **Compaction keeps the rows aligned.**  The builder returns a batch exactly when its checks pass,
and every batch that it returns is aligned. -/
theorem compactedBatch_aligned (inputIds positions : List Nat) (slotMappings blockTables : List (List Nat))
    (queryStartLocations computeRows : List Nat) (initialComputedTokens : Nat) :
    ((∃ batch, buildPartialReuseCompactedBatch inputIds positions slotMappings blockTables
        queryStartLocations computeRows initialComputedTokens = .ok batch) ↔
      Compactable inputIds positions slotMappings blockTables queryStartLocations computeRows) ∧
    ∀ batch, buildPartialReuseCompactedBatch inputIds positions slotMappings blockTables
        queryStartLocations computeRows initialComputedTokens = .ok batch →
      CompactionAligned inputIds positions slotMappings queryStartLocations computeRows batch := by
  refine ⟨⟨?_, ?_⟩, ?_⟩
  · rintro ⟨batch, hbatch⟩
    exact compactable_of_ok hbatch
  · intro h
    exact ⟨_, h.eq_packedBatch initialComputedTokens⟩
  · intro batch hbatch
    have h := compactable_of_ok hbatch
    rw [h.eq_packedBatch initialComputedTokens] at hbatch
    obtain rfl := Except.ok.inj hbatch
    exact h.aligned initialComputedTokens

/-- A batch of two requests with a computed row of each left out. -/
theorem compactedBatch_aligned_twoRequests :
    ∃ batch, buildPartialReuseCompactedBatch [10, 11, 12, 13, 14, 15] [20, 21, 22, 23, 24, 25]
        [[100, 101, 102, 103, 104, 105]] [[7, 8, 9]] [0, 3, 6] [0, 2, 3, 5] 20 = .ok batch ∧
      batch.queryStartLocations = [0, 2, 4] ∧
      CompactionAligned [10, 11, 12, 13, 14, 15] [20, 21, 22, 23, 24, 25]
        [[100, 101, 102, 103, 104, 105]] [0, 3, 6] [0, 2, 3, 5] batch := by
  refine ⟨_, rfl, rfl, ?_⟩
  exact (compactedBatch_aligned _ _ _ [[7, 8, 9]] _ _ 20).2 _ rfl

end CacheSelect.Worker
