import CacheSelect.Benchmarks.CounterfactualLabels
import CacheSelect.Features.FeatureSchema

/-! # Labelled blocks and their table

A labelled block is a row of features with a decision, its source and its reason.  The table prints
every field of a row as a text: the identity of the block, its split, its label and then the fields of the feature
records.
-/

namespace CacheSelect.Benchmarks

open CacheSelect.Core CacheSelect.Features

def RepairDecision.value : RepairDecision → String
  | .repair => "repair"
  | .reuse => "reuse"

inductive LabelSource
  | syntheticDependency
  | counterfactualExecution
deriving DecidableEq, Repr

def LabelSource.value : LabelSource → String
  | .syntheticDependency => "synthetic_dependency"
  | .counterfactualExecution => "counterfactual_execution"

inductive DatasetSplit
  | train
  | validation
  | test
deriving DecidableEq, Repr

def DatasetSplit.value : DatasetSplit → String
  | .train => "train"
  | .validation => "validation"
  | .test => "test"

/-- A digest as `hexdigest` prints it, digit by digit; the texts compare as the digits do. -/
abbrev HexDigest := List (Fin 16)

def mtragSplitSeed : String :=
  "cacheselect-mtrag-v1"

/-- The split of a digest, by the value of its first eight digits. -/
def digestSplit (digest : HexDigest) : DatasetSplit :=
  let bucket := (digest.take 8).foldl (fun (value : Nat) digit => 16 * value + digit.val) 0 % 100
  if bucket < 70 then .train
  else if bucket < 85 then .validation
  else .test

def mtragConversationSplit (sha256 : String → HexDigest) (conversationId seed : String) :
    Except Raised DatasetSplit :=
  if conversationId = "" ∨ seed = "" then
    .error (.valueError "conversation ID and split seed must not be empty")
  else .ok (digestSplit (sha256 (seed ++ ":" ++ conversationId)))

/-- A labelled block; the source of its label stands beside it. -/
structure LabeledCandidateBlock where
  traceId : String
  transitionId : String
  features : CandidateBlockFeatures
  label : BlockRepairLabel
  labelSource : LabelSource
  contextFeatures : Option CandidateContextFeatures := none
deriving DecidableEq, Repr

structure SplitCandidateBlock where
  example_ : LabeledCandidateBlock
  split : DatasetSplit
deriving DecidableEq, Repr

def labelCandidateBlock (traceId transitionId : String) (features : CandidateBlockFeatures)
    (decision : RepairDecision) (source : LabelSource) (reason : String)
    (contextFeatures : Option CandidateContextFeatures) : Except PyError LabeledCandidateBlock :=
  if traceId = "" then .error (.valueError "trace_id must not be empty")
  else if transitionId = "" then .error (.valueError "transition_id must not be empty")
  else if reason = "" then .error (.valueError "label reason must not be empty")
  else .ok ⟨traceId, transitionId, features, ⟨decision, reason⟩, source, contextFeatures⟩

/-! ### The table -/

/-- The text of a field in the table; `floatText` prints a float. -/
def fieldText (floatText : Rat → String) : FieldValue → String
  | .bool b => if b then "True" else "False"
  | .int n => toString n
  | .float q => floatText q

/-- The fields of the records of a row. -/
def LabeledCandidateBlock.fields (e : LabeledCandidateBlock) : List (String × FieldValue) :=
  match e.contextFeatures with
  | none => e.features.asdict
  | some c => featureFields e.features c

/-- `flatten_dataset_row`, as the table prints it. -/
def flattenDatasetRow (floatText : Rat → String) (row : SplitCandidateBlock) : List (String × String) :=
  [("trace_id", row.example_.traceId),
   ("transition_id", row.example_.transitionId),
   ("split", row.split.value),
   ("decision", row.example_.label.decision.value),
   ("label_source", row.example_.labelSource.value),
   ("label_reason", row.example_.label.reason)]
    ++ OrderedDict.mapValues (fieldText floatText) row.example_.fields

end CacheSelect.Benchmarks
