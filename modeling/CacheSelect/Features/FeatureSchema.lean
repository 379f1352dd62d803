import CacheSelect.Features.SelectorFeatures
import CacheSelect.Lib.OrderedDict

/-! # Feature schemas

A schema lists the features a model reads, in order, and says which of them are booleans.  Training and serving take
them by name out of the fields of the two feature records (`featureFields`): the table of the training
prints the fields, and the server converts them to numbers.
-/

namespace CacheSelect.Features

/-! ### The schemas -/

structure SelectorFeatureSchema where
  name : String
  featureNames : List String
  booleanFeatures : List String
deriving DecidableEq, Repr

def baselineNumericFeatures : List String :=
  ["previous_token_count", "current_token_count", "previous_changed_token_count",
    "current_changed_token_count", "block_size", "candidate_block_index",
    "candidate_position_ratio", "relative_block_offset", "nearest_changed_block_distance",
    "source_displacement_blocks", "candidate_share_of_native_recompute",
    "changed_candidate_token_overlap_ratio", "introduced_candidate_token_overlap_ratio",
    "removed_candidate_token_overlap_ratio", "changed_candidate_token_jaccard"]

def baselineBooleanFeatures : List String :=
  ["same_position_match", "requires_repacking"]

/-- `fields(CandidateContextFeatures)`. -/
def CandidateContextFeatures.fields : List String :=
  ["edit_span_count", "edit_span_count_before_candidate",
    "previous_changed_tokens_before_candidate", "current_changed_tokens_before_candidate",
    "preceding_context_match_tokens", "preceding_matching_run_blocks",
    "following_matching_run_blocks", "matching_run_length_blocks", "source_occurrence_count",
    "aligned_source_occurrence_count"]

def contextNumericFeatures : List String :=
  CandidateContextFeatures.fields

def baselineFeatureSchema : SelectorFeatureSchema where
  name := "block-v1"
  featureNames := baselineNumericFeatures ++ baselineBooleanFeatures
  booleanFeatures := baselineBooleanFeatures

def contextFeatureSchema : SelectorFeatureSchema where
  name := "block-context-v2"
  featureNames := baselineFeatureSchema.featureNames ++ contextNumericFeatures
  booleanFeatures := baselineBooleanFeatures

/-- `FEATURE_SCHEMAS`. -/
def featureSchemas : List SelectorFeatureSchema :=
  [baselineFeatureSchema, contextFeatureSchema]

/-! ### The fields of the records -/

inductive FieldValue
  | bool (b : Bool)
  | int (n : Int)
  | float (q : Rat)
deriving DecidableEq, Repr

/-- `float(x)`. -/
def FieldValue.number : FieldValue → Rat
  | .bool b => ratOfBool b
  | .int n => n
  | .float q => q

/-- `asdict`. -/
def CandidateBlockFeatures.asdict (b : CandidateBlockFeatures) : List (String × FieldValue) :=
  [("previous_token_count", .int b.previousTokenCount),
   ("current_token_count", .int b.currentTokenCount),
   ("previous_changed_token_count", .int b.previousChangedTokenCount),
   ("current_changed_token_count", .int b.currentChangedTokenCount),
   ("block_size", .int b.blockSize),
   ("candidate_block_index", .int b.candidateBlockIndex),
   ("candidate_position_ratio", .float b.candidatePositionRatio),
   ("relative_block_offset", .int b.relativeBlockOffset),
   ("nearest_changed_block_distance", .int b.nearestChangedBlockDistance),
   ("source_displacement_blocks", .float b.sourceDisplacementBlocks),
   ("candidate_share_of_native_recompute", .float b.candidateShareOfNativeRecompute),
   ("same_position_match", .bool b.samePositionMatch),
   ("requires_repacking", .bool b.requiresRepacking),
   ("changed_candidate_token_overlap_ratio", .float b.changedCandidateTokenOverlapRatio),
   ("introduced_candidate_token_overlap_ratio", .float b.introducedCandidateTokenOverlapRatio),
   ("removed_candidate_token_overlap_ratio", .float b.removedCandidateTokenOverlapRatio),
   ("changed_candidate_token_jaccard", .float b.changedCandidateTokenJaccard)]

def CandidateContextFeatures.asdict (c : CandidateContextFeatures) : List (String × FieldValue) :=
  CandidateContextFeatures.fields.zip
    [.int c.editSpanCount, .int c.editSpanCountBeforeCandidate,
      .int c.previousChangedTokensBeforeCandidate, .int c.currentChangedTokensBeforeCandidate,
      .int c.precedingContextMatchTokens, .int c.precedingMatchingRunBlocks,
      .int c.followingMatchingRunBlocks, .int c.matchingRunLengthBlocks,
      .int c.sourceOccurrenceCount, .int c.alignedSourceOccurrenceCount]

/-- The fields of both records, `{**asdict(b), **asdict(c)}`. -/
def featureFields (b : CandidateBlockFeatures) (c : CandidateContextFeatures) :
    List (String × FieldValue) :=
  b.asdict ++ c.asdict

/-! ### The features of a schema by name -/

def FieldValue.isBool : FieldValue → Bool
  | .bool _ => true
  | _ => false

/-- Every feature of the schema is among the fields, and is a boolean if the schema says so. -/
def SelectorFeatureSchema.ReadsFrom (schema : SelectorFeatureSchema)
    (fields : List (String × FieldValue)) : Prop :=
  ∀ name ∈ schema.featureNames, ∃ v, OrderedDict.get fields name = some v ∧
    v.isBool = schema.booleanFeatures.contains name

theorem SelectorFeatureSchema.readsFrom_iff (schema : SelectorFeatureSchema)
    (fields : List (String × FieldValue)) :
    schema.ReadsFrom fields ↔
      schema.featureNames.map (fun name => (OrderedDict.get fields name).map FieldValue.isBool)
        = schema.featureNames.map fun name => some (schema.booleanFeatures.contains name) := by
  rw [List.map_inj_left]
  constructor
  · intro h name hname
    obtain ⟨v, hv, hbool⟩ := h name hname
    rw [hv, Option.map_some, hbool]
  · intro h name hname
    obtain ⟨v, hv, hbool⟩ := Option.map_eq_some_iff.mp (h name hname)
    exact ⟨v, hv, hbool⟩

/-- The records have the features of both schemas. -/
theorem readsFrom_featureFields {schema : SelectorFeatureSchema} (h : schema ∈ featureSchemas)
    (b : CandidateBlockFeatures) (c : CandidateContextFeatures) :
    schema.ReadsFrom (featureFields b c) := by
  rw [SelectorFeatureSchema.readsFrom_iff]
  rcases List.mem_pair.mp h with rfl | rfl
  · rfl
  · rfl

/-- The block features alone have those of the smaller schema. -/
theorem readsFrom_asdict (b : CandidateBlockFeatures) :
    baselineFeatureSchema.ReadsFrom b.asdict := by
  rw [SelectorFeatureSchema.readsFrom_iff]
  rfl

theorem keys_selectorFeatureRow (b : CandidateBlockFeatures) (c : CandidateContextFeatures) :
    OrderedDict.keys (selectorFeatureRow b c) = contextFeatureSchema.featureNames := rfl

/-- **The server has the fields as numbers**, under their names. -/
theorem get_selectorFeatureRow (b : CandidateBlockFeatures) (c : CandidateContextFeatures) :
    ∀ name ∈ contextFeatureSchema.featureNames, OrderedDict.get (selectorFeatureRow b c) name
      = (OrderedDict.get (featureFields b c) name).map FieldValue.number := by
  rw [← List.map_inj_left]
  rfl

/-- The larger schema has the features of both. -/
theorem mem_contextFeatureNames {schema : SelectorFeatureSchema} (h : schema ∈ featureSchemas)
    {name : String} (hname : name ∈ schema.featureNames) :
    name ∈ contextFeatureSchema.featureNames := by
  rcases List.mem_pair.mp h with rfl | rfl
  · exact List.mem_append_left _ hname
  · exact hname

end CacheSelect.Features
