import CacheSelect.Benchmarks.BlockDataset
import CacheSelect.Benchmarks.ObserveRequest
import CacheSelect.Lib.TextSpans

/-! # Labels from annotated dependencies

A synthetic request says which of its segments the answer depends on.  Each is searched in the rendered prompt, its
characters are turned into the tokens that overlap them, those of a query go on to the end of the prompt, and a block
that meets one of these intervals is labelled for repair.

The intervals are exact where the offsets of the tokens do not decrease (`dependentTokenSpan_ok`), and so are the
labels and the segments that their reasons name (`dependencyLabels`).
-/

namespace CacheSelect.Benchmarks

open CacheSelect.Core Features
open TextSpans (OccursAt Overlaps)

/-! ### The annotated segments of a prompt -/

structure TransitionGroundTruth where
  dependentSegmentIds : List String := []

/-- An edit of a request, as far as its labels read it. -/
structure RequestTransition where
  transitionId : String
  currentRequestId : String
  groundTruth : TransitionGroundTruth

/-- The tokens of a segment. -/
structure SegmentTokenSpan where
  segmentId : String
  tokenStart : Nat
  tokenEnd : Nat
deriving DecidableEq, Repr

def locateSegmentCharacters (renderedPrompt : List Nat) (segmentId : String) (content : List Nat) :
    Except PyError (Nat × Nat) :=
  match TextSpans.find renderedPrompt content 0 with
  | none => .error (.valueError ("segment '" ++ segmentId ++ "' is absent from rendered prompt"))
  | some start =>
      if (TextSpans.find renderedPrompt content (start + 1)).isSome then
        .error (.valueError ("segment '" ++ segmentId ++ "' is ambiguous in rendered prompt"))
      else .ok (start, start + content.length)

def characterSpanToTokens (tokenOffsets : List (Nat × Nat)) (segmentId : String) (characters : Nat × Nat) :
    Except PyError SegmentTokenSpan :=
  let overlapping := TextSpans.overlapping tokenOffsets characters
  match overlapping.head?, overlapping.getLast? with
  | some first, some last => .ok { segmentId, tokenStart := first, tokenEnd := last + 1 }
  | _, _ => .error (.valueError ("segment '" ++ segmentId ++ "' does not overlap any prompt token"))

/-- The loop body: the tokens of one annotated segment. -/
def dependentTokenSpan (request : RequestSpec) (renderedPrompt : List Nat) (tokenOffsets : List (Nat × Nat))
    (segmentId : String) : Except PyError SegmentTokenSpan :=
  match request.segments.find? fun segment => segment.segmentId = Json.text segmentId with
  | none => .error (.valueError ("dependent segment '" ++ segmentId ++ "' is absent from request"))
  | some segment => do
      let characters ← locateSegmentCharacters renderedPrompt segmentId segment.content
      let span ← characterSpanToTokens tokenOffsets segmentId characters
      -- the tokens behind the query also determine the first output
      if segment.kind = Json.text "query" then .ok { span with tokenEnd := tokenOffsets.length }
      else .ok span

def locateDependentTokenSpans (request : RequestSpec) (dependentSegmentIds : List String) (renderedPrompt : List Nat)
    (tokenOffsets : List (Nat × Nat)) : Except PyError (List SegmentTokenSpan) :=
  if dependentSegmentIds = [] then .error (.valueError "transition has no annotated dependent segments")
  else if ¬ (request.segments.map PromptSegment.segmentId).Nodup then
    .error (.valueError "request contains duplicate segment IDs")
  else dependentSegmentIds.mapM (dependentTokenSpan request renderedPrompt tokenOffsets)

/-! ### The labels -/

def overlappingDependencies (features : CandidateBlockFeatures) (dependentSpans : List SegmentTokenSpan) :
    List String :=
  let blockStart := features.candidateBlockIndex * features.blockSize
  let blockEnd := min (blockStart + features.blockSize) features.currentTokenCount
  (dependentSpans.filter fun span => blockStart < span.tokenEnd ∧ span.tokenStart < blockEnd).map
    SegmentTokenSpan.segmentId

/-- The label of a block with these dependencies. -/
def dependencyLabel (dependencies : List String) : BlockRepairLabel :=
  if dependencies = [] then ⟨.reuse, "Block does not overlap an annotated dependent segment."⟩
  else ⟨.repair, "Block overlaps annotated dependent segments: " ++ ", ".intercalate dependencies⟩

/-- The loop body: the example of one row. -/
def syntheticExample (traceId transitionId : String) (tokenCount : Nat) (dependentSpans : List SegmentTokenSpan)
    (contextFeatures : Option (List CandidateContextFeatures)) (entry : CandidateBlockFeatures × Nat) :
    Except PyError LabeledCandidateBlock :=
  if entry.1.currentTokenCount ≠ tokenCount then
    .error (.valueError "token offsets do not match feature token count")
  else
    let label := dependencyLabel (overlappingDependencies entry.1 dependentSpans)
    labelCandidateBlock traceId transitionId entry.1 label.decision .syntheticDependency label.reason
      (contextFeatures.bind fun rows => rows[entry.2]?)

def buildSyntheticDependencyExamples (traceId : String) (transition : RequestTransition) (currentRequest : RequestSpec)
    (renderedPrompt : List Nat) (tokenOffsets : List (Nat × Nat)) (features : List CandidateBlockFeatures)
    (contextFeatures : Option (List CandidateContextFeatures)) : Except PyError (List LabeledCandidateBlock) :=
  if Json.text transition.currentRequestId ≠ currentRequest.requestId then
    .error (.valueError "transition does not target the supplied current request")
  else do
    let dependentSpans ← locateDependentTokenSpans currentRequest transition.groundTruth.dependentSegmentIds
      renderedPrompt tokenOffsets
    if contextFeatures.any fun rows => rows.length ≠ features.length then
      .error (.valueError "context and baseline feature counts differ")
    else features.zipIdx.mapM fun entry =>
      syntheticExample traceId transition.transitionId tokenOffsets.length dependentSpans contextFeatures entry

/-! ### What a block depends on -/

/-- A token of a block of the prompt. -/
def InBlock (features : CandidateBlockFeatures) (token : Nat) : Prop :=
  features.candidateBlockIndex * features.blockSize ≤ token ∧
    token < features.candidateBlockIndex * features.blockSize + features.blockSize ∧
    token < features.currentTokenCount

/-- The token at an index overlaps a segment that starts at a character. -/
def TokenOverlaps (tokenOffsets : List (Nat × Nat)) (segment : PromptSegment) (start token : Nat) : Prop :=
  ∃ offsets, tokenOffsets[token]? = some offsets ∧ Overlaps offsets (start, start + segment.content.length)

/-- A token of the block overlaps the segment or, if that is a query, does not come before all tokens that do. -/
def DependsOn (request : RequestSpec) (renderedPrompt : List Nat) (tokenOffsets : List (Nat × Nat))
    (features : CandidateBlockFeatures) (segmentId : String) : Prop :=
  ∃ segment ∈ request.segments, segment.segmentId = Json.text segmentId ∧
    ∃ start, OccursAt renderedPrompt segment.content start ∧
      ∃ token, InBlock features token ∧ (TokenOverlaps tokenOffsets segment start token ∨
        segment.kind = Json.text "query" ∧ ∃ first ≤ token, TokenOverlaps tokenOffsets segment start first)

/-! ### The intervals are exact -/

theorem locateSegmentCharacters_ok {renderedPrompt content : List Nat} {segmentId : String} {characters : Nat × Nat} :
    locateSegmentCharacters renderedPrompt segmentId content = .ok characters ↔
      (OccursAt renderedPrompt content characters.1 ∧ ∀ q, OccursAt renderedPrompt content q → q = characters.1) ∧
        characters.2 = characters.1 + content.length := by
  obtain ⟨start, stop⟩ := characters
  rw [← TextSpans.find_once_iff, locateSegmentCharacters]
  cases hfind : TextSpans.find renderedPrompt content 0 with
  | none => exact ⟨fun h => (by cases h), fun h => (by cases h.1.1)⟩
  | some p =>
      dsimp only
      constructor
      · intro h
        split at h
        · cases h
        · next hnone =>
          cases h
          exact ⟨⟨rfl, Option.not_isSome_iff_eq_none.mp hnone⟩, rfl⟩
      · rintro ⟨⟨hstart, hnone⟩, rfl⟩
        cases hstart
        rw [hnone]
        rfl

theorem characterSpanToTokens_ok {tokenOffsets : List (Nat × Nat)} (h : TextSpans.Nondecreasing tokenOffsets)
    {segmentId : String} {characters : Nat × Nat} {span : SegmentTokenSpan}
    (hspan : characterSpanToTokens tokenOffsets segmentId characters = .ok span) :
    span.segmentId = segmentId ∧ span.tokenStart < span.tokenEnd ∧ ∀ i,
      (∃ offsets, tokenOffsets[i]? = some offsets ∧ Overlaps offsets characters) ↔
        span.tokenStart ≤ i ∧ i < span.tokenEnd := by
  unfold characterSpanToTokens at hspan
  dsimp only at hspan
  split at hspan
  · next first last hfirst hlast =>
    cases hspan
    have hbetween := fun i => @TextSpans.mem_iff_between _ h characters first last hfirst hlast i
    have hlast := (hbetween first).mp (List.mem_of_mem_head? hfirst)
    refine ⟨rfl, Nat.lt_succ_of_le hlast.2, fun i => ?_⟩
    rw [← TextSpans.mem_overlapping, hbetween i]
    exact and_congr_right fun _ => Nat.lt_succ_iff.symm
  · cases hspan

theorem le_length_of_between {tokenOffsets : List (Nat × Nat)} {characters : Nat × Nat} {first stop : Nat}
    (hne : first < stop) (h : ∀ i, (∃ offsets, tokenOffsets[i]? = some offsets ∧ Overlaps offsets characters) ↔
      first ≤ i ∧ i < stop) : stop ≤ tokenOffsets.length := by
  obtain ⟨offsets, hoffsets, -⟩ := (h (stop - 1)).mpr ⟨by omega, by omega⟩
  obtain ⟨hlt, -⟩ := List.getElem?_eq_some_iff.mp hoffsets
  omega

/-- The test of a block, clipped at the end of the prompt, against an interval in the prompt. -/
theorem meets_iff {features : CandidateBlockFeatures} {first stop : Nat} (hne : first < stop)
    (hstop : stop ≤ features.currentTokenCount) :
    (features.candidateBlockIndex * features.blockSize < stop ∧
      first < min (features.candidateBlockIndex * features.blockSize + features.blockSize)
        features.currentTokenCount) ↔
      ∃ token, InBlock features token ∧ first ≤ token ∧ token < stop := by
  constructor
  · rintro ⟨hlow, hhigh⟩
    have hsize : 0 < features.blockSize := by
      refine Nat.pos_of_ne_zero fun hzero => ?_
      rw [hzero, Nat.mul_zero] at hhigh
      omega
    refine ⟨max (features.candidateBlockIndex * features.blockSize) first, ⟨Nat.le_max_left .., ?_, ?_⟩,
      Nat.le_max_right .., ?_⟩
    · omega
    · omega
    · omega
  · rintro ⟨token, ⟨hlow, hhigh, hprompt⟩, hfirst, hlt⟩
    exact ⟨by omega, by omega⟩

/-- **The interval of a segment** meets the blocks that depend on the segment, and no others. -/
theorem dependentTokenSpan_ok {request : RequestSpec} {renderedPrompt : List Nat} {tokenOffsets : List (Nat × Nat)}
    (hids : (request.segments.map PromptSegment.segmentId).Nodup) (h : TextSpans.Nondecreasing tokenOffsets)
    {segmentId : String} {span : SegmentTokenSpan}
    (hspan : dependentTokenSpan request renderedPrompt tokenOffsets segmentId = .ok span) :
    span.segmentId = segmentId ∧ ∀ features : CandidateBlockFeatures,
      features.currentTokenCount = tokenOffsets.length →
      ((features.candidateBlockIndex * features.blockSize < span.tokenEnd ∧
        span.tokenStart < min (features.candidateBlockIndex * features.blockSize + features.blockSize)
          features.currentTokenCount) ↔
        DependsOn request renderedPrompt tokenOffsets features segmentId) := by
  unfold dependentTokenSpan at hspan
  split at hspan
  · cases hspan
  · next segment hfind =>
    obtain ⟨characters, hcharacters, hspan⟩ := Except.bind_eq_ok.mp hspan
    obtain ⟨tokens, htokens, hspan⟩ := Except.bind_eq_ok.mp hspan
    obtain ⟨⟨hoccurs, hunique⟩, hstop⟩ := locateSegmentCharacters_ok.mp hcharacters
    obtain ⟨hid, hne, hbetween⟩ := characterSpanToTokens_ok h htokens
    have hmem := List.mem_of_find?_eq_some hfind
    have hfound : segment.segmentId = Json.text segmentId := by
      have hdecide := List.find?_some hfind
      exact of_decide_eq_true hdecide
    have hcharacters : characters = (characters.1, characters.1 + segment.content.length) := by
      rw [← hstop]
    -- the segment and its occurrence are the only ones
    have hdepends : ∀ features : CandidateBlockFeatures,
        DependsOn request renderedPrompt tokenOffsets features segmentId ↔ ∃ token, InBlock features token ∧
          ((tokens.tokenStart ≤ token ∧ token < tokens.tokenEnd) ∨
            segment.kind = Json.text "query" ∧ tokens.tokenStart ≤ token) := by
      intro features
      have htoken : ∀ token, TokenOverlaps tokenOffsets segment characters.1 token ↔
          tokens.tokenStart ≤ token ∧ token < tokens.tokenEnd := by
        intro token
        rw [← hbetween token, hcharacters]
        rfl
      have hfirst : ∀ token, (∃ first ≤ token, TokenOverlaps tokenOffsets segment characters.1 first) ↔
          tokens.tokenStart ≤ token := by
        intro token
        constructor
        · rintro ⟨first, hle, hfirst⟩
          exact Nat.le_trans ((htoken first).mp hfirst).1 hle
        · intro hle
          exact ⟨tokens.tokenStart, hle, (htoken _).mpr ⟨Nat.le_refl _, hne⟩⟩
      constructor
      · rintro ⟨segment', hmem', hid', start, hstart, token, hblock, hoverlaps⟩
        have hsame : segment' = segment :=
          List.inj_on_of_nodup_map hids hmem' hmem (hid'.trans hfound.symm)
        subst hsame
        rw [hunique start hstart, htoken, hfirst] at hoverlaps
        exact ⟨token, hblock, hoverlaps⟩
      · rintro ⟨token, hblock, hoverlaps⟩
        rw [← htoken, ← hfirst] at hoverlaps
        exact ⟨segment, hmem, hfound, characters.1, hoccurs, token, hblock, hoverlaps⟩
    have hend := le_length_of_between hne hbetween
    split at hspan
    · next hquery =>
      cases hspan
      refine ⟨hid, fun features hcount => ?_⟩
      rw [hdepends]
      refine (meets_iff (Nat.lt_of_lt_of_le hne hend) (Nat.le_of_eq hcount.symm)).trans
        (exists_congr fun token => and_congr_right fun hblock => ?_)
      constructor
      · exact fun hbetween => Or.inr ⟨hquery, hbetween.1⟩
      · exact fun hbetween => ⟨hbetween.elim And.left And.right, hcount ▸ hblock.2.2⟩
    · next hquery =>
      cases hspan
      refine ⟨hid, fun features hcount => ?_⟩
      rw [hdepends]
      refine (meets_iff hne (hcount ▸ hend)).trans (exists_congr fun token => and_congr_right fun _ => ?_)
      exact ⟨Or.inl, fun hbetween => hbetween.resolve_right fun h => hquery h.1⟩

/-- The interval is found where the segment is there once and overlaps a token. -/
theorem exists_dependentTokenSpan {request : RequestSpec} {renderedPrompt : List Nat}
    {tokenOffsets : List (Nat × Nat)} (hids : (request.segments.map PromptSegment.segmentId).Nodup)
    {segmentId : String} {segment : PromptSegment} (hmem : segment ∈ request.segments)
    (hid : segment.segmentId = Json.text segmentId) {start token : Nat}
    (hoccurs : OccursAt renderedPrompt segment.content start)
    (hunique : ∀ q, OccursAt renderedPrompt segment.content q → q = start)
    (htoken : TokenOverlaps tokenOffsets segment start token) :
    ∃ span, dependentTokenSpan request renderedPrompt tokenOffsets segmentId = .ok span := by
  have hfind : request.segments.find? (fun segment => segment.segmentId = Json.text segmentId) = some segment := by
    cases hfind : request.segments.find? fun segment => segment.segmentId = Json.text segmentId with
    | none => exact absurd (decide_eq_true hid) (List.find?_eq_none.mp hfind segment hmem)
    | some segment' =>
        have hfound : segment'.segmentId = Json.text segmentId := by
          have hdecide := List.find?_some hfind
          exact of_decide_eq_true hdecide
        exact congrArg some (List.inj_on_of_nodup_map hids (List.mem_of_find?_eq_some hfind) hmem
          (hfound.trans hid.symm))
  have hcharacters : locateSegmentCharacters renderedPrompt segmentId segment.content
      = .ok (start, start + segment.content.length) :=
    locateSegmentCharacters_ok.mpr ⟨⟨hoccurs, hunique⟩, rfl⟩
  have hoverlapping := TextSpans.mem_overlapping.mpr htoken
  obtain ⟨first, hfirst⟩ : ∃ first, (TextSpans.overlapping tokenOffsets
      (start, start + segment.content.length)).head? = some first := by
    cases hlist : TextSpans.overlapping tokenOffsets (start, start + segment.content.length) with
    | nil => rw [hlist] at hoverlapping; cases hoverlapping
    | cons first rest => exact ⟨first, rfl⟩
  obtain ⟨last, hlast⟩ : ∃ last, (TextSpans.overlapping tokenOffsets
      (start, start + segment.content.length)).getLast? = some last :=
    ⟨_, List.getLast?_eq_some_getLast (List.ne_nil_of_mem hoverlapping)⟩
  have htokens : characterSpanToTokens tokenOffsets segmentId (start, start + segment.content.length)
      = .ok ⟨segmentId, first, last + 1⟩ := by
    unfold characterSpanToTokens
    dsimp only
    rw [hfirst, hlast]
  unfold dependentTokenSpan
  rw [hfind]
  dsimp only
  rw [hcharacters]
  change ∃ span, (characterSpanToTokens _ _ _ >>= _) = Except.ok span
  rw [htokens]
  change ∃ span, (if segment.kind = Json.text "query" then _ else _) = Except.ok span
  split
  · exact ⟨_, rfl⟩
  · exact ⟨_, rfl⟩

/-! ### The labels are exact -/

section Labels

variable {request : RequestSpec} {renderedPrompt : List Nat} {tokenOffsets : List (Nat × Nat)}

open Classical in
/-- The dependencies of a block are the annotated segments that it depends on, in the order of the annotation. -/
theorem overlappingDependencies_eq (hids : (request.segments.map PromptSegment.segmentId).Nodup)
    (h : TextSpans.Nondecreasing tokenOffsets) {features : CandidateBlockFeatures}
    (hcount : features.currentTokenCount = tokenOffsets.length) :
    ∀ {dependentSegmentIds : List String} {spans : List SegmentTokenSpan},
      dependentSegmentIds.mapM (dependentTokenSpan request renderedPrompt tokenOffsets) = .ok spans →
      overlappingDependencies features spans
        = dependentSegmentIds.filter (DependsOn request renderedPrompt tokenOffsets features) := by
  intro dependentSegmentIds spans hspans
  have hall := Except.mapM_eq_ok_iff.mp hspans
  clear hspans
  induction hall with
  | nil => rfl
  | @cons segmentId span dependentSegmentIds spans hspan _ ih =>
      obtain ⟨hid, hdepends⟩ := dependentTokenSpan_ok hids h hspan
      have hdepends := hdepends features hcount
      unfold overlappingDependencies at ih ⊢
      dsimp only at ih ⊢
      rw [List.filter_cons, List.filter_cons, decide_eq_decide.mpr hdepends]
      by_cases hmeets : DependsOn request renderedPrompt tokenOffsets features segmentId
      · rw [decide_eq_true hmeets, if_pos rfl, if_pos rfl, List.map_cons, hid, ih]
      · rw [decide_eq_false hmeets, if_neg Bool.false_ne_true, if_neg Bool.false_ne_true, ih]

/-- What is checked before a block is labelled. -/
structure Labelable (traceId : String) (transition : RequestTransition) (request : RequestSpec)
    (renderedPrompt : List Nat) (tokenOffsets : List (Nat × Nat)) (features : List CandidateBlockFeatures)
    (contextFeatures : Option (List CandidateContextFeatures)) : Prop where
  traceId : traceId ≠ ""
  transitionId : transition.transitionId ≠ ""
  target : Json.text transition.currentRequestId = request.requestId
  annotated : transition.groundTruth.dependentSegmentIds ≠ []
  segmentIds : (request.segments.map PromptSegment.segmentId).Nodup
  located : ∀ segmentId ∈ transition.groundTruth.dependentSegmentIds, ∃ segment ∈ request.segments,
    segment.segmentId = Json.text segmentId ∧ ∃ start, OccursAt renderedPrompt segment.content start ∧
      (∀ q, OccursAt renderedPrompt segment.content q → q = start) ∧
      ∃ token, TokenOverlaps tokenOffsets segment start token
  context : ∀ rows, contextFeatures = some rows → rows.length = features.length
  counts : ∀ row ∈ features, row.currentTokenCount = tokenOffsets.length

theorem dependencyLabel_reason_ne (dependencies : List String) : (dependencyLabel dependencies).reason ≠ "" := by
  unfold dependencyLabel
  split
  · decide
  · intro h
    have hlength := congrArg String.length h
    rw [String.length_append] at hlength
    have hpositive : 0 < ("Block overlaps annotated dependent segments: ").length := by decide
    have hempty : ("" : String).length = 0 := rfl
    omega

theorem dependencyLabel_decision (dependencies : List String) :
    (dependencyLabel dependencies).decision = .repair ↔ ∃ segmentId, segmentId ∈ dependencies := by
  cases dependencies with
  | nil =>
      constructor
      · intro h
        cases h
      · rintro ⟨segmentId, h⟩
        cases h
  | cons segmentId rest => exact ⟨fun _ => ⟨segmentId, List.mem_cons_self⟩, fun _ => rfl⟩

open Classical in
/-- The label of a block says whether it depends on an annotated segment, and on which ones. -/
structure LabelledByDependencies (request : RequestSpec) (renderedPrompt : List Nat)
    (tokenOffsets : List (Nat × Nat)) (dependentSegmentIds : List String) (row : CandidateBlockFeatures)
    (block : LabeledCandidateBlock) : Prop where
  features : block.features = row
  decision : block.label.decision = .repair ↔
    ∃ segmentId ∈ dependentSegmentIds, DependsOn request renderedPrompt tokenOffsets row segmentId
  label : block.label
    = dependencyLabel (dependentSegmentIds.filter (DependsOn request renderedPrompt tokenOffsets row))

theorem syntheticExample_ok {traceId transitionId : String} {tokenCount : Nat} {spans : List SegmentTokenSpan}
    {contextFeatures : Option (List CandidateContextFeatures)} {entry : CandidateBlockFeatures × Nat}
    {block : LabeledCandidateBlock}
    (h : syntheticExample traceId transitionId tokenCount spans contextFeatures entry = .ok block) :
    entry.1.currentTokenCount = tokenCount ∧ block.features = entry.1 ∧
      block.label = dependencyLabel (overlappingDependencies entry.1 spans) := by
  unfold syntheticExample at h
  split at h
  · cases h
  · next hcount =>
    dsimp only [labelCandidateBlock] at h
    split at h
    · cases h
    · split at h
      · cases h
      · split at h
        · cases h
        · cases h
          exact ⟨not_not.mp hcount, rfl, rfl⟩

open Classical in
/-- **The labels of a synthetic request** are sound and complete. -/
theorem dependencyLabels (traceId : String) (transition : RequestTransition) (request : RequestSpec)
    (renderedPrompt : List Nat) {tokenOffsets : List (Nat × Nat)} (h : TextSpans.Nondecreasing tokenOffsets)
    (features : List CandidateBlockFeatures) (contextFeatures : Option (List CandidateContextFeatures)) :
    (Labelable traceId transition request renderedPrompt tokenOffsets features contextFeatures →
      ∃ examples, buildSyntheticDependencyExamples traceId transition request renderedPrompt tokenOffsets features
        contextFeatures = .ok examples) ∧
    ∀ examples, buildSyntheticDependencyExamples traceId transition request renderedPrompt tokenOffsets features
        contextFeatures = .ok examples →
      List.Forall₂ (LabelledByDependencies request renderedPrompt tokenOffsets
        transition.groundTruth.dependentSegmentIds) features examples := by
  constructor
  · intro hok
    have hspans : ∀ segmentId ∈ transition.groundTruth.dependentSegmentIds,
        ∃ span, dependentTokenSpan request renderedPrompt tokenOffsets segmentId = .ok span := by
      intro segmentId hmem
      obtain ⟨segment, hsegment, hid, start, hoccurs, hunique, token, htoken⟩ := hok.located segmentId hmem
      exact exists_dependentTokenSpan hok.segmentIds hsegment hid hoccurs hunique htoken
    obtain ⟨spans, hspans, -⟩ := Except.mapM_eq_ok_of_forall hspans
    have hlocate : locateDependentTokenSpans request transition.groundTruth.dependentSegmentIds renderedPrompt
        tokenOffsets = .ok spans := by
      rw [locateDependentTokenSpans, if_neg hok.annotated, if_neg (not_not.mpr hok.segmentIds), hspans]
    have hexamples : ∀ entry ∈ features.zipIdx, ∃ block, syntheticExample traceId transition.transitionId
        tokenOffsets.length spans contextFeatures entry = .ok block := by
      intro entry hentry
      have hrow := hok.counts entry.1 (List.fst_mem_of_mem_zipIdx hentry)
      rw [syntheticExample, if_neg (not_not.mpr hrow)]
      dsimp only [labelCandidateBlock]
      rw [if_neg hok.traceId, if_neg hok.transitionId, if_neg (dependencyLabel_reason_ne _)]
      exact ⟨_, rfl⟩
    obtain ⟨examples, hexamples, -⟩ := Except.mapM_eq_ok_of_forall hexamples
    refine ⟨examples, ?_⟩
    have hcontext : ¬ (contextFeatures.any fun rows => rows.length ≠ features.length) = true := by
      cases contextFeatures with
      | none => exact Bool.false_ne_true
      | some rows => exact fun hany => of_decide_eq_true hany (hok.context rows rfl)
    rw [buildSyntheticDependencyExamples, if_neg (not_not.mpr hok.target)]
    refine Except.bind_eq_ok.mpr ⟨spans, hlocate, ?_⟩
    rw [if_neg hcontext]
    exact hexamples
  · intro examples hexamples
    unfold buildSyntheticDependencyExamples at hexamples
    split at hexamples
    · cases hexamples
    · obtain ⟨spans, hspans, hexamples⟩ := Except.bind_eq_ok.mp hexamples
      split at hexamples
      · cases hexamples
      · unfold locateDependentTokenSpans at hspans
        split at hspans
        · cases hspans
        · split at hspans
          · cases hspans
          · next hids =>
            have hall := Except.mapM_eq_ok_iff.mp hexamples
            have hrows : List.Forall₂ (fun (entry : CandidateBlockFeatures × Nat) block =>
                LabelledByDependencies request renderedPrompt tokenOffsets
                  transition.groundTruth.dependentSegmentIds entry.1 block) features.zipIdx examples := by
              refine hall.imp fun entry block hblock => ?_
              obtain ⟨hcount, hfeatures, hlabel⟩ := syntheticExample_ok hblock
              rw [overlappingDependencies_eq (not_not.mp hids) h hcount hspans] at hlabel
              refine ⟨hfeatures, ?_, hlabel⟩
              rw [hlabel, dependencyLabel_decision]
              refine exists_congr fun segmentId => ?_
              rw [List.mem_filter, decide_eq_true_eq]
            have hmap := List.forall₂_map_left_iff.mpr hrows
            rwa [List.zipIdx_map_fst] at hmap

end Labels

/-- A pointer, a fact and a question. -/
def pointerRequest : RequestSpec where
  requestId := Json.text "edited"
  workload := Json.text "quality_stress"
  sequenceIndex := 1
  messages := .null
  segments := [⟨Json.text "pointer", Json.text "user", Json.text "pointer", 2, Json.text "B"⟩,
    ⟨Json.text "fact", Json.text "user", Json.text "retrieved_fact", 1, Json.text "up"⟩,
    ⟨Json.text "query", Json.text "user", Json.text "query", 1, Json.text "so"⟩]
  groundTruth := { expectedAnswer := Json.text "up", requirements := [] }

def pointerTransition : RequestTransition :=
  ⟨"base-to-edit", "edited", ⟨["fact", "query"]⟩⟩

def pointerRow (candidateBlockIndex : Nat) : CandidateBlockFeatures where
  previousTokenCount := 5
  currentTokenCount := 5
  previousChangedTokenCount := 1
  currentChangedTokenCount := 1
  blockSize := 1
  candidateBlockIndex := candidateBlockIndex
  candidatePositionRatio := 0
  relativeBlockOffset := candidateBlockIndex
  nearestChangedBlockDistance := candidateBlockIndex
  sourceDisplacementBlocks := 0
  candidateShareOfNativeRecompute := 0
  samePositionMatch := true
  requiresRepacking := false
  changedCandidateTokenOverlapRatio := 0
  introducedCandidateTokenOverlapRatio := 0
  removedCandidateTokenOverlapRatio := 0
  changedCandidateTokenJaccard := 0

/-- The offsets of five tokens. -/
def pointerOffsets : List (Nat × Nat) :=
  [(0, 1), (2, 4), (5, 7), (8, 10), (10, 11)]

/-- The prompt ends behind the question, whose interval goes on to the last token. -/
theorem dependencyLabels_pointer :
    ∃ examples, buildSyntheticDependencyExamples "trace" pointerTransition pointerRequest (Json.text "B if up so?")
        pointerOffsets [pointerRow 1, pointerRow 2, pointerRow 4] none = .ok examples ∧
      List.Forall₂ (LabelledByDependencies pointerRequest (Json.text "B if up so?") pointerOffsets ["fact", "query"])
        [pointerRow 1, pointerRow 2, pointerRow 4] examples := by
  have hlabels := @dependencyLabels "trace" pointerTransition pointerRequest (Json.text "B if up so?")
    pointerOffsets ⟨by decide, by decide⟩ [pointerRow 1, pointerRow 2, pointerRow 4] none
  have honce : ∀ content p, TextSpans.find (Json.text "B if up so?") content 0 = some p →
      TextSpans.find (Json.text "B if up so?") content (p + 1) = none →
      OccursAt (Json.text "B if up so?") content p ∧ ∀ q, OccursAt (Json.text "B if up so?") content q → q = p :=
    fun content p h h' => TextSpans.find_once_iff.mp ⟨h, h'⟩
  obtain ⟨examples, hexamples⟩ := hlabels.1 {
    traceId := by decide
    transitionId := by decide
    target := rfl
    annotated := by decide
    segmentIds := by decide
    located := by
      refine List.forall_mem_cons.mpr ⟨?_, List.forall_mem_cons.mpr ⟨?_, List.forall_mem_nil _⟩⟩
      · obtain ⟨hoccurs, hunique⟩ := honce (Json.text "up") 5 (by decide) (by decide)
        exact ⟨_, List.mem_cons_of_mem _ List.mem_cons_self, rfl, 5, hoccurs, hunique, 2, (5, 7), rfl, by decide⟩
      · obtain ⟨hoccurs, hunique⟩ := honce (Json.text "so") 8 (by decide) (by decide)
        exact ⟨_, List.mem_cons_of_mem _ (List.mem_cons_of_mem _ List.mem_cons_self), rfl, 8, hoccurs, hunique, 3,
          (8, 10), rfl, by decide⟩
    context := fun rows h => by cases h
    counts := by decide }
  exact ⟨examples, hexamples, hlabels.2 examples hexamples⟩

/-- Between the two segments a block is reused, and the last token belongs to the question. -/
example : (buildSyntheticDependencyExamples "trace" pointerTransition pointerRequest (Json.text "B if up so?")
      pointerOffsets [pointerRow 1, pointerRow 2, pointerRow 4] none).toOption.map
    (fun examples => examples.map fun block => block.label)
    = some [⟨.reuse, "Block does not overlap an annotated dependent segment."⟩,
        ⟨.repair, "Block overlaps annotated dependent segments: fact"⟩,
        ⟨.repair, "Block overlaps annotated dependent segments: query"⟩] := by
  decide +kernel

end CacheSelect.Benchmarks
