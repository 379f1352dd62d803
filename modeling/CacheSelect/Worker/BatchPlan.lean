import CacheSelect.Worker.Compaction
import CacheSelect.Worker.ReuseWork

/-! # What a batch is planned to do

One step's preparation, function by function.  For sorted reused positions the row mapping and the batch
decision do not raise, and the decision is one of two: the whole batch, or, for a request that is alone,
the rows that are not reused (`planBatch_spec`).  `compactedBatch` is what the
selective path then prepares, and `recordSelectivePath_ok_iff` says that only missing metrics can make
it raise.
-/

namespace CacheSelect.Worker

open CacheSelect.Core

/-! ### Rows of reused positions -/

/-- The cumulative sums of the scheduled tokens, from a first row. -/
def boundsFrom (start : Nat) (entries : List BatchEntry) : List Nat :=
  (entries.map BatchEntry.numScheduledTokens).scanl (· + ·) start

theorem boundsFrom_cons (start : Nat) (e : BatchEntry) (entries : List BatchEntry) :
    boundsFrom start (e :: entries)
      = start :: boundsFrom (start + e.numScheduledTokens) entries := by
  rw [boundsFrom, List.map_cons, List.scanl_cons]
  rfl

theorem boundsFrom_eq_cons (start : Nat) (entries : List BatchEntry) :
    ∃ bounds, boundsFrom start entries = start :: bounds := by
  cases entries with
  | nil => exact ⟨[], rfl⟩
  | cons e entries => exact ⟨_, boundsFrom_cons start e entries⟩

theorem length_boundsFrom (start : Nat) (entries : List BatchEntry) :
    (boundsFrom start entries).length = entries.length + 1 := by
  rw [boundsFrom, List.length_scanl, List.length_map]

/-- The reused rows of a batch, request by request. -/
def reusedRowsFrom (reused : String → List Nat) : Nat → List BatchEntry → List (String × List Nat)
  | _, [] => []
  | start, e :: entries =>
      let rest := reusedRowsFrom reused (start + e.numScheduledTokens) entries
      let rows := chunkRows start e.numComputedTokens e.numScheduledTokens (reused e.reqId)
      if rows = [] then rest else (e.reqId, rows) :: rest

theorem mapRowsLoop_eq {reused : String → List Nat} : ∀ (entries : List BatchEntry) (start : Nat),
    (∀ e ∈ entries, (reused e.reqId).Pairwise (· < ·)) →
    mapRowsLoop reused (entries.map BatchEntry.reqId) (boundsFrom start entries)
      (entries.map BatchEntry.numComputedTokens) (entries.map BatchEntry.numScheduledTokens)
      = .ok (reusedRowsFrom reused start entries) := by
  intro entries
  induction entries with
  | nil => intro start _; rfl
  | cons e entries ih =>
      intro start hsorted
      have hrest := ih (start + e.numScheduledTokens) fun x hx =>
        hsorted x (List.mem_cons_of_mem _ hx)
      obtain ⟨bounds, hb⟩ := boundsFrom_eq_cons (start + e.numScheduledTokens) entries
      rw [boundsFrom_cons, hb, List.map_cons, List.map_cons, List.map_cons, mapRowsLoop,
        if_neg (by omega), if_neg (not_not.mpr (hsorted e (by simp))), ← hb, hrest]
      rfl

/-- **The row mapping does not raise** when the reused positions are sorted. -/
theorem mapReusedTokensToBatchRows_eq {reused : String → List Nat} {entries : List BatchEntry}
    (hsorted : ∀ e ∈ entries, (reused e.reqId).Pairwise (· < ·)) :
    mapReusedTokensToBatchRows (entries.map BatchEntry.reqId) (queryStartLocations entries)
      (entries.map BatchEntry.numComputedTokens) (entries.map BatchEntry.numScheduledTokens) reused
      = .ok (reusedRowsFrom reused 0 entries) := by
  rw [mapReusedTokensToBatchRows, if_neg, if_neg, if_neg]
  · exact mapRowsLoop_eq entries 0 hsorted
  · rw [List.length_map, List.length_map]
    exact not_not.mpr rfl
  · rw [List.length_map, List.length_map]
    exact not_not.mpr rfl
  · change ¬ (boundsFrom 0 entries).length ≠ _
    rw [length_boundsFrom, List.length_map]
    exact not_not.mpr rfl

theorem mem_reusedRowsFrom {reused : String → List Nat} {x : String × List Nat} :
    ∀ {entries : List BatchEntry} {start : Nat}, x ∈ reusedRowsFrom reused start entries →
      x.1 ∈ entries.map BatchEntry.reqId := by
  intro entries
  induction entries with
  | nil => intro start h; cases h
  | cons e entries ih =>
      intro start h
      rw [reusedRowsFrom] at h
      rw [List.map_cons]
      split at h
      · exact List.mem_cons_of_mem _ (ih h)
      · rcases List.mem_cons.mp h with rfl | h
        · exact List.mem_cons_self
        · exact List.mem_cons_of_mem _ (ih h)

theorem mem_chunkRows {start first n row : Nat} {reused : List Nat} :
    row ∈ chunkRows start first n reused ↔
      ∃ t ∈ reused, first ≤ t ∧ t < first + n ∧ row = start + t - first := by
  rw [chunkRows, List.mem_map]
  constructor
  · rintro ⟨t, ht, rfl⟩
    obtain ⟨hin, h⟩ := List.mem_filter.mp ht
    rw [Bool.and_eq_true, decide_eq_true_eq, decide_eq_true_eq] at h
    exact ⟨t, hin, h.1, h.2, rfl⟩
  · rintro ⟨t, hin, h1, h2, rfl⟩
    refine ⟨t, List.mem_filter.mpr ⟨hin, ?_⟩, rfl⟩
    rw [Bool.and_eq_true, decide_eq_true_eq, decide_eq_true_eq]
    exact ⟨h1, h2⟩

theorem pairwise_chunkRows {first n : Nat} {reused : List Nat} (h : reused.Pairwise (· < ·))
    (start : Nat) : (chunkRows start first n reused).Pairwise (· < ·) := by
  rw [chunkRows, List.pairwise_map]
  refine List.Pairwise.imp_of_mem ?_ (h.sublist List.filter_sublist)
  intro a b ha hb hab
  have ha' := (List.mem_filter.mp ha).2
  rw [Bool.and_eq_true, decide_eq_true_eq, decide_eq_true_eq] at ha'
  omega

/-! ### The decision -/

/-- The reused rows of a request that is alone in its batch, without the row that is sampled from. -/
def protectedRows (reused : List Nat) (e : BatchEntry) : List Nat :=
  (chunkRows 0 e.numComputedTokens e.numScheduledTokens reused).filter
    fun row => !([e.numScheduledTokens - 1].contains row)

/-- A batch that runs the selective path: one prefilling request with a reused row besides the one
that is sampled from, in circumstances that are supported. -/
structure Selective (flags : BatchFlags) (w : WorkerRequests) (entries : List BatchEntry)
    (e : BatchEntry) : Prop where
  alone : entries = [e]
  prefilling : isPrefilling w e = true
  enabled : flags.executionEnabled = true
  supported : unsupportedReason flags = none
  reuses : protectedRows (reusedTokenIndicesOf w e.reqId) e ≠ []

theorem assess_spec (flags : BatchFlags) {reqIds : List String} {prefilling : List Bool}
    (rows : List (String × List Nat)) (required : List Nat) (hlen : prefilling.length = reqIds.length)
    (hmem : ∀ x ∈ rows, x.1 ∈ reqIds) :
    ∃ d, assessPartialReuseBatch flags reqIds prefilling rows required = .ok d ∧
      (d.eligible = true ↔ ∃ id rs, rows = [(id, rs)] ∧ required ≠ [] ∧
        (rs.filter fun row => !required.contains row) ≠ [] ∧ flags.executionEnabled = true ∧
        reqIds.length = 1 ∧ prefilling.head? = some true ∧ unsupportedReason flags = none) ∧
      (d.eligible = true → ∀ id rs, rows = [(id, rs)] →
        d = ⟨true, "eligible", some id, rs.filter fun row => !required.contains row⟩) := by
  unfold assessPartialReuseBatch
  rw [if_neg (not_not.mpr hlen)]
  match rows with
  | [] =>
      refine ⟨_, rfl, ⟨fun h => (nomatch h), ?_⟩, fun h => (nomatch h)⟩
      rintro ⟨id, rs, h, -⟩
      cases h
  | x :: y :: rest =>
      refine ⟨_, rfl, ⟨fun h => (nomatch h), ?_⟩, fun h => (nomatch h)⟩
      rintro ⟨id, rs, h, -⟩
      cases h
  | [(id, rs)] =>
      dsimp only
      rw [if_neg (not_not.mpr (hmem (id, rs) List.mem_cons_self))]
      by_cases h1 : required = []
      · rw [if_pos h1]
        refine ⟨_, rfl, ⟨fun h => (nomatch h), ?_⟩, fun h => (nomatch h)⟩
        rintro ⟨_, _, _, h, -⟩
        exact absurd h1 h
      rw [if_neg h1]
      by_cases h2 : (rs.filter fun row => !required.contains row) = []
      · rw [if_pos h2]
        refine ⟨_, rfl, ⟨fun h => (nomatch h), ?_⟩, fun h => (nomatch h)⟩
        rintro ⟨_, _, he, _, h, -⟩
        cases he
        exact absurd h2 h
      rw [if_neg h2]
      by_cases h3 : flags.executionEnabled = false
      · rw [if_pos h3]
        refine ⟨_, rfl, ⟨fun h => (nomatch h), ?_⟩, fun h => (nomatch h)⟩
        rintro ⟨_, _, _, _, _, h, -⟩
        rw [h3] at h
        cases h
      rw [if_neg h3]
      by_cases h4 : reqIds.length ≠ 1
      · rw [if_pos h4]
        refine ⟨_, rfl, ⟨fun h => (nomatch h), ?_⟩, fun h => (nomatch h)⟩
        rintro ⟨_, _, _, _, _, _, h, -⟩
        exact absurd h h4
      rw [if_neg h4]
      by_cases h5 : prefilling.head? ≠ some true
      · rw [if_pos h5]
        refine ⟨_, rfl, ⟨fun h => (nomatch h), ?_⟩, fun h => (nomatch h)⟩
        rintro ⟨_, _, _, _, _, _, _, h, -⟩
        exact absurd h h5
      rw [if_neg h5]
      cases h6 : unsupportedReason flags with
      | some reason =>
          refine ⟨_, rfl, ⟨fun h => (nomatch h), ?_⟩, fun h => (nomatch h)⟩
          rintro ⟨_, _, _, _, _, _, _, _, h⟩
          cases h
      | none =>
          refine ⟨_, rfl, ⟨fun _ => ⟨id, rs, rfl, h1, h2, by simpa using h3, not_not.mp h4,
            not_not.mp h5, rfl⟩, fun _ => rfl⟩, fun _ _ _ he => ?_⟩
          cases he
          rfl

theorem requiredOutputRows_singleton (e : BatchEntry) :
    requiredOutputRows [e] = [e.numScheduledTokens - 1] := by
  rw [requiredOutputRows]
  change (boundsFrom 0 [e]).tail.map _ = _
  rw [boundsFrom_cons, Nat.zero_add]
  rfl

theorem lt_of_mem_protectedRows {reused : List Nat} {e : BatchEntry} {row : Nat}
    (h : row ∈ protectedRows reused e) : row < e.numScheduledTokens := by
  obtain ⟨t, -, h1, h2, rfl⟩ := mem_chunkRows.mp (List.mem_filter.mp h).1
  omega

theorem pairwise_protectedRows {reused : List Nat} (h : reused.Pairwise (· < ·)) (e : BatchEntry) :
    (protectedRows reused e).Pairwise (· < ·) :=
  (pairwise_chunkRows h 0).sublist List.filter_sublist

/-- The reused rows of a request that is alone, as its reused positions. -/
theorem mem_protectedRows {reused : List Nat} {e : BatchEntry} {row : Nat} :
    row ∈ protectedRows reused e ↔
      e.numComputedTokens + row ∈ reused ∧ row + 1 < e.numScheduledTokens := by
  rw [protectedRows, List.mem_filter, mem_chunkRows]
  simp only [List.contains_cons, List.contains_nil, Bool.or_false, Bool.not_eq_true',
    beq_eq_false_iff_ne, ne_eq]
  constructor
  · rintro ⟨⟨t, ht, h1, h2, rfl⟩, hne⟩
    refine ⟨?_, by omega⟩
    have : e.numComputedTokens + (0 + t - e.numComputedTokens) = t := by omega
    rw [this]
    exact ht
  · rintro ⟨ht, hlt⟩
    exact ⟨⟨_, ht, Nat.le_add_right _ _, by omega, by omega⟩, by omega⟩

/-- The rows that the selective path computes. -/
def selectedRows (reused : List Nat) (e : BatchEntry) : List Nat :=
  (List.range e.numScheduledTokens).filter fun row => !(protectedRows reused e).contains row

theorem mem_selectedRows {reused : List Nat} {e : BatchEntry} {row : Nat} :
    row ∈ selectedRows reused e ↔ row < e.numScheduledTokens ∧ row ∉ protectedRows reused e := by
  rw [selectedRows, List.mem_filter, List.mem_range, Bool.not_eq_true', List.contains_eq_mem,
    decide_eq_false_iff_not]

theorem pairwise_selectedRows (reused : List Nat) (e : BatchEntry) :
    (selectedRows reused e).Pairwise (· < ·) :=
  List.pairwise_lt_range.sublist List.filter_sublist

/-- The row that is sampled from is computed. -/
theorem last_mem_selectedRows (reused : List Nat) {e : BatchEntry} (hpos : 0 < e.numScheduledTokens) :
    e.numScheduledTokens - 1 ∈ selectedRows reused e := by
  refine mem_selectedRows.mpr ⟨by omega, fun h => ?_⟩
  have := (mem_protectedRows.mp h).2
  omega

theorem selectedRows_ne_nil (reused : List Nat) {e : BatchEntry} (hpos : 0 < e.numScheduledTokens) :
    selectedRows reused e ≠ [] :=
  List.ne_nil_of_mem (last_mem_selectedRows reused hpos)

theorem buildPartialReuseComputeRows_eq {reused : List Nat} {e : BatchEntry}
    (hsorted : reused.Pairwise (· < ·)) (hpos : 0 < e.numScheduledTokens)
    (reason : String) (id : Option String) :
    buildPartialReuseComputeRows ⟨true, reason, id, protectedRows reused e⟩ e.numScheduledTokens
      = .ok (selectedRows reused e) := by
  have h1 : ¬ (protectedRows reused e).any (fun row => e.numScheduledTokens ≤ row) = true := by
    rw [List.any_eq_true]
    rintro ⟨row, hrow, hle⟩
    have := lt_of_mem_protectedRows hrow
    rw [decide_eq_true_eq] at hle
    omega
  rw [buildPartialReuseComputeRows]
  change (if _ then _ else if _ then _ else if _ then _ else if selectedRows reused e = [] then _
    else _) = _
  rw [if_neg (by exact Bool.noConfusion), if_neg (not_not.mpr (pairwise_protectedRows hsorted e)),
    if_neg h1, if_neg (selectedRows_ne_nil reused hpos)]
  rfl

/-- **What a batch is planned to do.**  With sorted reused positions the planning does not raise, and
the batch computes all its rows unless it is selective. -/
theorem planBatch_spec (flags : BatchFlags) {w : WorkerRequests} {entries : List BatchEntry}
    (hsorted : ∀ e ∈ entries, (reusedTokenIndicesOf w e.reqId).Pairwise (· < ·))
    (hpos : ∀ e ∈ entries, 0 < e.numScheduledTokens) :
    ∃ d rows, planBatch flags w entries = .ok (d, rows) ∧
      ((d.eligible = false ∧ rows = List.range (entries.map BatchEntry.numScheduledTokens).sum ∧
          ∀ e, ¬ Selective flags w entries e) ∨
        ∃ e, Selective flags w entries e ∧
          d = ⟨true, "eligible", some e.reqId, protectedRows (reusedTokenIndicesOf w e.reqId) e⟩ ∧
          rows = selectedRows (reusedTokenIndicesOf w e.reqId) e) := by
  let reused := reusedTokenIndicesOf w
  obtain ⟨d, hd, hiff, heq⟩ := assess_spec flags (reusedRowsFrom reused 0 entries)
    (requiredOutputRows entries)
    (show (entries.map (isPrefilling w)).length = (entries.map BatchEntry.reqId).length by
      rw [List.length_map, List.length_map]) fun x hx => mem_reusedRowsFrom hx
  have hplan : planBatch flags w entries
      = (buildPartialReuseComputeRows d (entries.map BatchEntry.numScheduledTokens).sum).map
        fun rows => (d, rows) := by
    rw [planBatch, mapReusedTokensToBatchRows_eq hsorted]
    change (assessPartialReuseBatch _ _ _ _ _ >>= _) = _
    rw [hd]
    change (buildPartialReuseComputeRows d _ >>= _) = _
    cases buildPartialReuseComputeRows d (entries.map BatchEntry.numScheduledTokens).sum <;> rfl
  -- the reused rows of a batch of one request
  have hone : ∀ e, entries = [e] → reusedRowsFrom reused 0 entries
      = if chunkRows 0 e.numComputedTokens e.numScheduledTokens (reused e.reqId) = [] then []
        else [(e.reqId, chunkRows 0 e.numComputedTokens e.numScheduledTokens (reused e.reqId))] := by
    rintro e rfl
    rfl
  by_cases hel : d.eligible = true
  · obtain ⟨id, rs, hrows, hreq, hrs, hen, hlen, hpre, hsup⟩ := hiff.mp hel
    rw [List.length_map] at hlen
    obtain ⟨e, he⟩ := List.length_eq_one_iff.mp hlen
    have hd' := heq hel id rs hrows
    rw [hone e he] at hrows
    split at hrows
    · cases hrows
    · cases hrows
      subst he
      rw [requiredOutputRows_singleton] at hd' hrs
      refine ⟨d, selectedRows (reused e.reqId) e, ?_, Or.inr ⟨e, ⟨rfl, ?_, hen, hsup, hrs⟩, hd', rfl⟩⟩
      · rw [hplan, hd']
        change (buildPartialReuseComputeRows ⟨true, _, _, protectedRows (reused e.reqId) e⟩
          (e.numScheduledTokens + 0)).map _ = _
        rw [Nat.add_zero, buildPartialReuseComputeRows_eq (hsorted e (by simp)) (hpos e (by simp))]
        rfl
      · exact Option.some.inj hpre
  · rw [Bool.not_eq_true] at hel
    refine ⟨d, _, ?_, Or.inl ⟨hel, rfl, ?_⟩⟩
    · rw [hplan, buildPartialReuseComputeRows, if_pos hel]
      rfl
    · rintro e ⟨rfl, hpre, hen, hsup, hreuse⟩
      have hne : chunkRows 0 e.numComputedTokens e.numScheduledTokens (reused e.reqId) ≠ [] := by
        intro hnil
        refine hreuse ?_
        change (List.filter _ (chunkRows 0 _ _ (reused e.reqId))) = []
        rw [hnil]
        rfl
      have : d.eligible = true := hiff.mpr ⟨e.reqId, _, by rw [hone e rfl, if_neg hne],
        by rw [requiredOutputRows_singleton]; exact List.cons_ne_nil _ _,
        by rw [requiredOutputRows_singleton]; exact hreuse, hen, rfl, congrArg some hpre, hsup⟩
      rw [hel] at this
      cases this

/-! ### The compacted batch -/

/-- The packed rows of one request's chunk. -/
theorem packRows_chunk {α : Type} (e : BatchEntry) (f : Nat → α) : ∀ {rows : List Nat},
    (∀ row ∈ rows, row < e.numScheduledTokens) →
    packRows ((chunkPositions e).map f) rows = rows.map fun row => f (e.numComputedTokens + row) := by
  intro rows
  induction rows with
  | nil => intro _; rfl
  | cons row rows ih =>
      intro h
      have hrow := h row List.mem_cons_self
      have hget : ((chunkPositions e).map f)[row]? = some (f (e.numComputedTokens + row)) := by
        rw [List.getElem?_map, chunkPositions, List.getElem?_range' hrow, Nat.one_mul]
        rfl
      rw [packRows, List.filterMap_cons_some hget, List.map_cons,
        ← ih fun x hx => h x (List.mem_cons_of_mem _ hx)]
      rfl

/-- The inputs of one span of a request that is alone. -/
def spanInputsOf (blockSize : Nat) (e : BatchEntry) (s : PartialReuseComputeSpan) :
    PartialReuseSpanInputs :=
  let positions := (List.range' s.startRow (s.endRow - s.startRow)).map (e.numComputedTokens + ·)
  { span := s
    inputIds := positions.map fun p => e.tokenIds.getD p 0
    positions := positions
    slotMappings := [positions.map (slotOf blockSize e.blockIds)]
    queryStartLocations := (0, s.endRow - s.startRow)
    sequenceLength := e.numComputedTokens + s.endRow }

def spanAttentionInputsOf (e : BatchEntry) (s : PartialReuseSpanInputs) :
    PartialReuseSpanAttentionInputs where
  span := s.span
  numTokens := s.inputIds.length
  queryStartLoc := s.queryStartLocations
  seqLens := [s.sequenceLength]
  maxQueryLen := s.inputIds.length
  maxSeqLen := s.sequenceLength
  blockTables := [e.blockIds]
  slotMappings := s.slotMappings
  positions := s.positions

/-- What the selective path prepares for a request that is alone. -/
def compactedBatch (blockSize : Nat) (e : BatchEntry) (rows : List Nat) :
    PartialReuseCompactedBatch :=
  let positions := rows.map (e.numComputedTokens + ·)
  let spans := computeSpansOf rows
  { computeRows := rows
    computeSpans := spans
    spanInputs := spans.map (spanInputsOf blockSize e)
    spanModelInputs := (spans.map (spanInputsOf blockSize e)).map fun s => (s.inputIds, s.positions)
    spanAttentionInputs := (spans.map (spanInputsOf blockSize e)).map (spanAttentionInputsOf e)
    inputIds := positions.map fun p => e.tokenIds.getD p 0
    positions := positions
    slotMappings := [positions.map (slotOf blockSize e.blockIds)]
    queryStartLocations := [0, e.numScheduledTokens].map (bisectLeft rows) }

section

variable {e : BatchEntry} {rows : List Nat}

theorem batchInputIds_singleton (e : BatchEntry) :
    batchInputIds [e] = (chunkPositions e).map fun p => e.tokenIds.getD p 0 := by
  rw [batchInputIds, List.flatMap_singleton]

theorem batchPositions_singleton (e : BatchEntry) :
    batchPositions [e] = (chunkPositions e).map id := by
  rw [batchPositions, List.flatMap_singleton, List.map_id]

theorem batchSlotMappings_singleton (bs : Nat) (e : BatchEntry) :
    batchSlotMappings bs [e] = [(chunkPositions e).map (slotOf bs e.blockIds)] := by
  rw [batchSlotMappings, List.flatMap_singleton]

theorem length_chunk {α : Type} (e : BatchEntry) (f : Nat → α) :
    ((chunkPositions e).map f).length = e.numScheduledTokens := by
  rw [List.length_map, chunkPositions, List.length_range']

theorem queryStartLocations_singleton (e : BatchEntry) :
    queryStartLocations [e] = [0, e.numScheduledTokens] := by
  change boundsFrom 0 [e] = _
  rw [boundsFrom_cons, Nat.zero_add]
  rfl

theorem length_batchInputIds_singleton (e : BatchEntry) :
    (batchInputIds [e]).length = e.numScheduledTokens := by
  rw [batchInputIds_singleton, length_chunk]

theorem compactable_singleton (bs : Nat) (hne : rows ≠ []) (hsorted : rows.Pairwise (· < ·))
    (hlt : ∀ row ∈ rows, row < e.numScheduledTokens) :
    Compactable (batchInputIds [e]) (batchPositions [e]) (batchSlotMappings bs [e]) [e.blockIds]
      (queryStartLocations [e]) rows where
  requests := by
    rw [queryStartLocations_singleton]
    exact Nat.le_refl 2
  first := by
    rw [queryStartLocations_singleton]
    rfl
  sorted := by
    rw [queryStartLocations_singleton]
    simp
  last := by
    rw [queryStartLocations_singleton, length_batchInputIds_singleton]
    rfl
  positions := by
    rw [length_batchInputIds_singleton, batchPositions_singleton, length_chunk]
  slots := by
    intro group hgroup
    rw [batchSlotMappings_singleton, List.mem_singleton] at hgroup
    rw [hgroup, length_chunk, length_batchInputIds_singleton]
  tables := List.cons_ne_nil _ _
  groups := by
    rw [batchSlotMappings_singleton]
    rfl
  nonempty := hne
  ordered := hsorted
  inside := by
    rw [length_batchInputIds_singleton]
    exact hlt

theorem packedSpanInputs_singleton (bs : Nat) {s : PartialReuseComputeSpan}
    (hle : s.endRow ≤ e.numScheduledTokens) :
    packedSpanInputs (batchInputIds [e]) (batchPositions [e]) (batchSlotMappings bs [e])
      e.numComputedTokens s = spanInputsOf bs e s := by
  have hrows : ∀ row ∈ spanRows s, row < e.numScheduledTokens := by
    intro row hrow
    have := (mem_spanRows.mp hrow).2
    omega
  rw [packedSpanInputs, batchInputIds_singleton, batchPositions_singleton, batchSlotMappings_singleton,
    List.map_singleton, packRows_chunk e _ hrows, packRows_chunk e _ hrows, packRows_chunk e _ hrows,
    spanInputsOf, List.map_map, List.map_map]
  rfl

/-- **The compacted batch of a request that is alone.** -/
theorem buildPartialReuseCompactedBatch_eq (bs : Nat) (hne : rows ≠ [])
    (hsorted : rows.Pairwise (· < ·)) (hlt : ∀ row ∈ rows, row < e.numScheduledTokens) :
    buildPartialReuseCompactedBatch (batchInputIds [e]) (batchPositions [e])
      (batchSlotMappings bs [e]) [e.blockIds] (queryStartLocations [e]) rows e.numComputedTokens
      = .ok (compactedBatch bs e rows) := by
  have hspans : (computeSpansOf rows).map (packedSpanInputs (batchInputIds [e]) (batchPositions [e])
      (batchSlotMappings bs [e]) e.numComputedTokens) = (computeSpansOf rows).map (spanInputsOf bs e) := by
    apply List.map_congr_left
    intro s hs
    exact packedSpanInputs_singleton bs (endRow_le hsorted hlt hs)
  rw [(compactable_singleton bs hne hsorted hlt).eq_packedBatch, packedBatch, hspans,
    batchInputIds_singleton, batchPositions_singleton, batchSlotMappings_singleton,
    queryStartLocations_singleton, List.map_singleton, packRows_chunk e _ hlt, packRows_chunk e _ hlt,
    packRows_chunk e _ hlt, compactedBatch]
  simp only [List.map_map]
  rfl

end

/-! ### The whole preparation -/

/-- Two states of the runner that keep the same work and metrics for the same requests. -/
structure SameWork (w w' : WorkerRequests) : Prop where
  work : ∀ id, (w' id).map (fun q => (q.prefillLen, q.reuse))
    = (w id).map fun q => (q.prefillLen, q.reuse)
  metrics : ∀ id, ((w' id).bind WorkerRequest.pendingMetrics).isSome
    = ((w id).bind WorkerRequest.pendingMetrics).isSome

theorem SameWork.refl (w : WorkerRequests) : SameWork w w := ⟨fun _ => rfl, fun _ => rfl⟩

theorem SameWork.trans {w w' w'' : WorkerRequests} (h : SameWork w w') (h' : SameWork w' w'') :
    SameWork w w'' :=
  ⟨fun id => (h'.work id).trans (h.work id), fun id => (h'.metrics id).trans (h.metrics id)⟩

theorem SameWork.reuseOf_eq {w w' : WorkerRequests} (h : SameWork w w') (id : String) :
    reuseOf w' id = reuseOf w id := by
  have := congrArg (fun x => x.bind Prod.snd) (h.work id)
  simp only [Option.bind_map] at this
  exact this

theorem SameWork.reusedTokenIndicesOf_eq {w w' : WorkerRequests} (h : SameWork w w') (id : String) :
    reusedTokenIndicesOf w' id = reusedTokenIndicesOf w id := by
  rw [reusedTokenIndicesOf, reusedTokenIndicesOf, h.reuseOf_eq]

/-- New metrics replace old ones. -/
theorem setMetrics_same {w : WorkerRequests} {id : String} {old : CacheSelectRepairMetrics}
    (h : (w id).bind WorkerRequest.pendingMetrics = some old) (metrics : CacheSelectRepairMetrics) :
    SameWork w (setMetrics w id metrics) := by
  obtain ⟨q, hq, hm⟩ := Option.bind_eq_some_iff.mp h
  constructor
  · intro id'
    by_cases hid : id' = id
    · subst hid
      rw [setMetrics, Function.update_self, hq]
      rfl
    · rw [setMetrics, Function.update_of_ne hid]
  · intro id'
    by_cases hid : id' = id
    · subst hid
      rw [setMetrics, Function.update_self, hq]
      change true = (q.pendingMetrics).isSome
      rw [hm]
      rfl
    · rw [setMetrics, Function.update_of_ne hid]

theorem pendingMetrics_setMetrics {w : WorkerRequests} {id : String} {old : CacheSelectRepairMetrics}
    (h : (w id).bind WorkerRequest.pendingMetrics = some old) (metrics : CacheSelectRepairMetrics) :
    (setMetrics w id metrics id).bind WorkerRequest.pendingMetrics = some metrics := by
  obtain ⟨q, hq, -⟩ := Option.bind_eq_some_iff.mp h
  rw [setMetrics, Function.update_self, hq]
  rfl

/-- Recording a decision does not raise. -/
theorem recordDecision_ok {d : PartialReuseBatchDecision} (rows : List Nat)
    (hd : d.eligible = true → d.reusedBatchRows ≠ [] ∧ rows ≠ []) (w : WorkerRequests)
    (e : BatchEntry) :
    ∃ w', recordDecision d rows w e = .ok w' ∧ SameWork w w' ∧
      (d.eligible = true → d.requestId = some e.reqId →
        ((w e.reqId).bind WorkerRequest.pendingMetrics).isSome = true →
          ∃ m, (w' e.reqId).bind WorkerRequest.pendingMetrics = some m ∧
            m.computeBatchRows = rows.length) := by
  rw [recordDecision]
  cases hm : (w e.reqId).bind WorkerRequest.pendingMetrics with
  | none => exact ⟨w, rfl, .refl w, fun _ _ h => nomatch h⟩
  | some metrics =>
      have hlen : ∀ {l : List Nat}, l ≠ [] → l.length ≠ 0 := fun h => by
        rw [ne_eq, List.length_eq_zero_iff]
        exact h
      by_cases hown : d.eligible = true ∧ d.requestId = some e.reqId
      · obtain ⟨hel, hid⟩ := hown
        obtain ⟨h1, h2⟩ := hd hel
        have hbeq : (d.requestId == some e.reqId) = true := beq_iff_eq.mpr hid
        dsimp only
        rw [hbeq, hel, recordBatchExecutionDecision, if_neg, if_neg]
        · refine ⟨_, rfl, setMetrics_same hm _, fun _ _ _ => ⟨_, pendingMetrics_setMetrics hm _, rfl⟩⟩
        · rintro ⟨-, h⟩
          exact hlen h2 h
        · rintro ⟨-, h⟩
          exact hlen h1 h
      · have hand : (d.eligible && d.requestId == some e.reqId) = false := by
          rw [Bool.and_eq_false_iff]
          by_cases hel : d.eligible = true
          · exact Or.inr (beq_eq_false_iff_ne.mpr fun hid => hown ⟨hel, hid⟩)
          · exact Or.inl (by simpa using hel)
        dsimp only
        rw [hand, recordBatchExecutionDecision, if_neg (fun h => nomatch h.1),
          if_neg (fun h => nomatch h.1)]
        exact ⟨_, rfl, setMetrics_same hm _, fun hel hid => absurd ⟨hel, hid⟩ hown⟩

theorem foldlM_recordDecision_ok {d : PartialReuseBatchDecision} (rows : List Nat)
    (hd : d.eligible = true → d.reusedBatchRows ≠ [] ∧ rows ≠ []) :
    ∀ (entries : List BatchEntry) (w : WorkerRequests),
      ∃ w', entries.foldlM (recordDecision d rows) w = .ok w' ∧ SameWork w w' := by
  intro entries
  induction entries with
  | nil => exact fun w => ⟨w, rfl, .refl w⟩
  | cons e entries ih =>
      intro w
      obtain ⟨w₁, h₁, hs₁, -⟩ := recordDecision_ok rows hd w e
      obtain ⟨w₂, h₂, hs₂⟩ := ih w₁
      refine ⟨w₂, ?_, hs₁.trans hs₂⟩
      rw [List.foldlM_cons, h₁]
      exact h₂

/-- Every compute span is executed by one step. -/
theorem span_of_steps (bs : Nat) (e : BatchEntry) (rows : List Nat) {μ : Type}
    {steps : List (PartialReuseSpanExecutionStep μ)} {metadata : List μ}
    (h : buildPartialReuseSpanExecutionSteps (compactedBatch bs e rows) metadata = .ok steps) :
    steps.map PartialReuseSpanExecutionStep.span = computeSpansOf rows := by
  rw [buildPartialReuseSpanExecutionSteps] at h
  split at h
  · cases h
  · split at h
    · cases h
    · split at h
      · cases h
      · next hmeta =>
          split at h
          · cases h
          · cases h
            have hlen : metadata.length = (computeSpansOf rows).length := not_not.mp hmeta
            rw [List.map_map]
            change List.map Prod.fst ((computeSpansOf rows).zip _) = _
            refine List.map_fst_zip (Nat.le_of_eq ?_)
            simp [compactedBatch, hlen]

theorem length_steps (bs : Nat) (e : BatchEntry) (rows : List Nat) {μ : Type}
    {steps : List (PartialReuseSpanExecutionStep μ)} {metadata : List μ}
    (h : buildPartialReuseSpanExecutionSteps (compactedBatch bs e rows) metadata = .ok steps) :
    steps.length = (computeSpansOf rows).length := by
  rw [← span_of_steps bs e rows h, List.length_map]

theorem buildPartialReuseSpanExecutionSteps_ok (bs : Nat) (e : BatchEntry) {rows : List Nat}
    (hne : computeSpansOf rows ≠ []) {μ : Type} {metadata : List μ}
    (hlen : metadata.length = (computeSpansOf rows).length) :
    ∃ steps, buildPartialReuseSpanExecutionSteps (compactedBatch bs e rows) metadata = .ok steps := by
  rw [buildPartialReuseSpanExecutionSteps, if_neg (by exact hne), if_neg, if_neg (by exact not_not.mpr hlen),
    if_neg]
  · exact ⟨_, rfl⟩
  · simp [compactedBatch]
  · simp [compactedBatch]

/-- **When the selective path's records raise**: when the request's metrics have been handed out. -/
theorem recordSelectivePath_ok_iff (cfg : WorkerConfig) {w : WorkerRequests} {e : BatchEntry}
    {rows : List Nat} {d : PartialReuseBatchDecision} (hid : d.requestId = some e.reqId)
    (hne : rows ≠ []) (hsorted : rows.Pairwise (· < ·)) (hlt : ∀ row ∈ rows, row < e.numScheduledTokens)
    (hm : ∀ m, (w e.reqId).bind WorkerRequest.pendingMetrics = some m →
      m.computeBatchRows = rows.length) :
    (((w e.reqId).bind WorkerRequest.pendingMetrics = none ∧
        recordSelectivePath cfg d rows w [e]
          = .error (.valueError "eligible compact batch requires request metrics")) ∨
      ∃ w', ((w e.reqId).bind WorkerRequest.pendingMetrics).isSome = true ∧
        recordSelectivePath cfg d rows w [e] = .ok (compactedBatch cfg.blockSize e rows, w') ∧
        SameWork w w') := by
  unfold recordSelectivePath
  rw [hid]
  dsimp only
  rw [if_neg (not_not.mpr rfl), buildPartialReuseCompactedBatch_eq cfg.blockSize hne hsorted hlt]
  cases hmet : (w e.reqId).bind WorkerRequest.pendingMetrics with
  | none => exact Or.inl ⟨rfl, rfl⟩
  | some m =>
      right
      let batch := compactedBatch cfg.blockSize e rows
      have hspans := computeSpansOf_ne_nil hsorted hne
      have hpos : 0 < (computeSpansOf rows).length := List.length_pos_iff.mpr hspans
      have hrows : 0 < rows.length := List.length_pos_iff.mpr hne
      have hatt : batch.spanAttentionInputs.length = (computeSpansOf rows).length := by
        simp [batch, compactedBatch]
      obtain ⟨steps, hsteps⟩ :=
        buildPartialReuseSpanExecutionSteps_ok cfg.blockSize e hspans hatt
      have hslen := length_steps cfg.blockSize e rows hsteps
      have h1 : recordCompactedBatchConstruction m rows.length (computeSpansOf rows).length
          = .ok { m with computeSpanCount := (computeSpansOf rows).length
                         compactedBatchBuilt := true } := by
        rw [recordCompactedBatchConstruction, if_neg (by omega), if_neg (by omega),
          if_neg (not_not.mpr (hm m hmet).symm)]
      let m' : CacheSelectRepairMetrics := { m with
        computeSpanCount := (computeSpansOf rows).length
        compactedBatchBuilt := true
        spanMetadataBuilt := true
        spanMetadataCount := (computeSpansOf rows).length
        compactedBatchExecuted := true }
      refine ⟨setMetrics w e.reqId m', rfl, ?_, setMetrics_same hmet m'⟩
      change (recordCompactedBatchConstruction m rows.length (computeSpansOf rows).length >>= _) = _
      rw [h1]
      change (buildPartialReuseSpanExecutionSteps batch batch.spanAttentionInputs >>= _) = _
      rw [hsteps]
      change (recordSpanAttentionMetadataConstruction _ batch.spanAttentionInputs.length >>= _) = _
      rw [hatt, recordSpanAttentionMetadataConstruction, if_neg (by omega),
        if_neg (not_not.mpr rfl)]
      change (recordCompactedBatchExecution _ steps.length >>= _) = _
      rw [hslen, recordCompactedBatchExecution, if_neg (by simp), if_neg (not_not.mpr rfl)]
      rfl

/-- **What the preparation of a step does.**  A batch that is not selective takes the full path; a
selective one takes the path of its computed spans, or raises when the metrics are missing. -/
theorem prepareBatch_spec (cfg : WorkerConfig) (flags : BatchFlags) {w : WorkerRequests}
    {entries : List BatchEntry}
    (hsorted : ∀ e ∈ entries, (reusedTokenIndicesOf w e.reqId).Pairwise (· < ·))
    (hpos : ∀ e ∈ entries, 0 < e.numScheduledTokens) :
    ((∀ e, ¬ Selective flags w entries e) ∧
      ∃ w', prepareBatch cfg flags w entries = .ok (.full, w') ∧ SameWork w w') ∨
    ∃ e, Selective flags w entries e ∧
      (((w e.reqId).bind WorkerRequest.pendingMetrics = none ∧ prepareBatch cfg flags w entries
          = .error (.valueError "eligible compact batch requires request metrics")) ∨
        (((w e.reqId).bind WorkerRequest.pendingMetrics).isSome = true ∧
          ∃ w', prepareBatch cfg flags w entries = .ok (.spans (compactedBatch cfg.blockSize e
            (selectedRows (reusedTokenIndicesOf w e.reqId) e)), w') ∧ SameWork w w')) := by
  obtain ⟨d, rows, hplan, ⟨hel, -, hnot⟩ | ⟨e, hsel, hd, hrows⟩⟩ :=
    planBatch_spec flags hsorted hpos
  · left
    obtain ⟨w', hw', hsame⟩ := foldlM_recordDecision_ok (d := d) rows
      (fun h => by rw [hel] at h; cases h) entries w
    refine ⟨hnot, w', ?_, hsame⟩
    rw [prepareBatch, hplan]
    change (entries.foldlM (recordDecision d rows) w >>= _) = _
    rw [hw']
    change (if d.eligible = true then _ else _) = _
    rw [hel, if_neg Bool.false_ne_true]
  · right
    obtain rfl := hsel.alone
    have hn := hpos e (by simp)
    have hne : rows ≠ [] := by
      rw [hrows]
      exact selectedRows_ne_nil _ hn
    have hel : d.eligible = true := by rw [hd]
    have hid : d.requestId = some e.reqId := by rw [hd]
    obtain ⟨w', hw', hsame, hmet⟩ := recordDecision_ok (d := d) rows
      (fun _ => ⟨by rw [hd]; exact hsel.reuses, hne⟩) w e
    have hprep : prepareBatch cfg flags w [e]
        = (recordSelectivePath cfg d rows w' [e]).map fun x => (.spans x.1, x.2) := by
      rw [prepareBatch, hplan]
      change ([e].foldlM (recordDecision d rows) w >>= _) = _
      rw [List.foldlM_cons, hw']
      change (if d.eligible = true then _ else _) = _
      rw [if_pos hel]
      cases recordSelectivePath cfg d rows w' [e] <;> rfl
    have hcomp : ∀ m, (w' e.reqId).bind WorkerRequest.pendingMetrics = some m →
        m.computeBatchRows = rows.length := by
      intro m hm
      have hsome : ((w e.reqId).bind WorkerRequest.pendingMetrics).isSome = true := by
        rw [← hsame.metrics, hm]
        rfl
      obtain ⟨m', hm', hlen⟩ := hmet hel hid hsome
      rw [hm, Option.some.injEq] at hm'
      rw [hm', hlen]
    refine ⟨e, hsel, ?_⟩
    rcases recordSelectivePath_ok_iff cfg hid hne (by rw [hrows]; exact pairwise_selectedRows _ e)
      (by rw [hrows]; exact fun row h => (mem_selectedRows.mp h).1) hcomp with
      ⟨hnone, herr⟩ | ⟨w'', hsome, hok, hsame'⟩
    · left
      refine ⟨?_, by rw [hprep, herr]; rfl⟩
      have := hsame.metrics e.reqId
      rw [hnone] at this
      exact Option.not_isSome_iff_eq_none.mp (by rw [← this]; exact Bool.false_ne_true)
    · right
      refine ⟨by rw [← hsame.metrics]; exact hsome, w'', ?_, hsame.trans hsame'⟩
      rw [hprep, hok, hrows]
      rfl

theorem prepareBatch_same {cfg : WorkerConfig} {flags : BatchFlags} {w w' : WorkerRequests}
    {entries : List BatchEntry} {path : ForwardPath}
    (hsorted : ∀ e ∈ entries, (reusedTokenIndicesOf w e.reqId).Pairwise (· < ·))
    (hpos : ∀ e ∈ entries, 0 < e.numScheduledTokens)
    (h : prepareBatch cfg flags w entries = .ok (path, w')) : SameWork w w' := by
  rcases prepareBatch_spec cfg flags hsorted hpos with
    ⟨-, w₁, h₁, hsame⟩ | ⟨e, -, ⟨-, h₁⟩ | ⟨-, w₁, h₁, hsame⟩⟩
  · rw [h, Except.ok.injEq, Prod.mk.injEq] at h₁
    rw [h₁.2]
    exact hsame
  · rw [h] at h₁
    cases h₁
  · rw [h, Except.ok.injEq, Prod.mk.injEq] at h₁
    rw [h₁.2]
    exact hsame

theorem mem_sortBatch {entries : List BatchEntry} {e : BatchEntry} :
    e ∈ sortBatch entries ↔ e ∈ entries :=
  (List.perm_insertionSort _ entries).mem_iff

theorem sortBatch_eq_singleton {entries : List BatchEntry} {e : BatchEntry} :
    sortBatch entries = [e] ↔ entries = [e] := by
  constructor
  · intro h
    have hp := List.perm_insertionSort (fun a b : BatchEntry =>
      toLex (a.numScheduledTokens != 1, a.numScheduledTokens)
        ≤ toLex (b.numScheduledTokens != 1, b.numScheduledTokens)) entries
    change (sortBatch entries).Perm entries at hp
    rw [h] at hp
    exact (List.singleton_perm.mp hp).symm
  · rintro rfl
    rfl

end CacheSelect.Worker
