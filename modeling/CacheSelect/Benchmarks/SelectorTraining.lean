import CacheSelect.Benchmarks.BlockDataset
import CacheSelect.Worker.MlpRepairModel
import Mathlib.Data.Rat.Cast.Defs

/-! # Reading the training table

`readRow` is the loop body of `load_selector_dataset`: it reads the features of a schema, a split and a label from a
row of a table.  A row that is none of a split, has no decision or no number for a feature ends the reading.

A table that prints labelled blocks is read back: every row gives the numbers of its fields, in the order of the
schema (`readRow_flatten`).
-/

namespace CacheSelect.Benchmarks

open CacheSelect.Core CacheSelect.Features CacheSelect.Worker

section

variable {K : Type} [Field K] [LinearOrder K] (ops : FloatOps K)

/-! ### The loader -/

/-- `SPLITS`. -/
def splits : List DatasetSplit :=
  [.train, .validation, .test]

/-- `repr` of what `row.get` returns. -/
def cellRepr : Option String → String
  | none => ops.repr .none
  | some s => ops.repr (.str s)

def parseBoolean (value fieldName : String) : Except PyError (FloatValue K) :=
  if value = "True" then .ok (.fin 1)
  else if value = "False" then .ok (.fin 0)
  else .error (.valueError
    ("invalid boolean for " ++ fieldName ++ ": " ++ ops.repr (.str value)))

/-- The value of a feature in a row. -/
def rowFeature (schema : SelectorFeatureSchema) (row : List (String × String)) (name : String) :
    Except PyError (FloatValue K) :=
  match OrderedDict.get row name with
  | none => .error .keyError
  | some value =>
      if schema.booleanFeatures.contains name then parseBoolean ops value name
      else ops.toFloat (.str value)

/-- One example of a split: the features, and whether the block is to be repaired. -/
structure SelectorExample (K : Type) where
  split : DatasetSplit
  features : List (FloatValue K)
  label : Bool

/-- One round of the loop over the rows. -/
def readRow (schema : SelectorFeatureSchema) (lineNumber : Nat) (row : List (String × String)) :
    Except PyError (SelectorExample K) :=
  match splits.find? fun s => some s.value = OrderedDict.get row "split" with
  | none => .error (.valueError
      (line ++ "invalid split " ++ cellRepr ops (OrderedDict.get row "split")))
  | some split =>
      match OrderedDict.get row "decision" with
      | some "repair" => example_ split true
      | some "reuse" => example_ split false
      | decision => .error (.valueError (line ++ "invalid decision " ++ cellRepr ops decision))
where
  line := s!"line {lineNumber}: "
  example_ (split : DatasetSplit) (label : Bool) : Except PyError (SelectorExample K) :=
    match schema.featureNames.mapM (rowFeature ops schema row) with
    | .ok features => .ok ⟨split, features, label⟩
    | .error _ => .error (.valueError (line ++ "invalid selector feature"))

/-! ### Reading back a printed table -/

/-- The interpreter reads the text of a number as that number. -/
def ReadsBack (floatText : Rat → String) (v : FieldValue) : Prop :=
  v.isBool = false → ops.ofString (fieldText floatText v) = some (.fin v.number)

def fieldNumber (fields : List (String × FieldValue)) (name : String) : Rat :=
  ((OrderedDict.get fields name).map FieldValue.number).getD 0

/-- The features of a schema as numbers, in its order. -/
def featureVector (schema : SelectorFeatureSchema) (fields : List (String × FieldValue)) :
    Fin schema.featureNames.length → K :=
  fun i => (fieldNumber fields (schema.featureNames.get i) : K)

variable {ops} {floatText : Rat → String} {schema : SelectorFeatureSchema}

theorem get_flattenDatasetRow (floatText : Rat → String) (row : SplitCandidateBlock) {name : String}
    (hname : name ∈ contextFeatureSchema.featureNames) :
    OrderedDict.get (flattenDatasetRow floatText row) name
      = (OrderedDict.get row.example_.fields name).map (fieldText floatText) := by
  have hother : ∀ n ∈ contextFeatureSchema.featureNames, OrderedDict.get
      [("trace_id", row.example_.traceId), ("transition_id", row.example_.transitionId),
       ("split", row.split.value), ("decision", row.example_.label.decision.value),
       ("label_source", row.example_.labelSource.value),
       ("label_reason", row.example_.label.reason)] n = none := by
    rw [← List.map_inj_left]
    rfl
  rw [flattenDatasetRow, OrderedDict.get_append, hother name hname, Option.none_or,
    OrderedDict.get_mapValues]

theorem rowFeature_eq {row : List (String × String)} {name : String} {v : FieldValue}
    (hrow : OrderedDict.get row name = some (fieldText floatText v))
    (hbool : v.isBool = schema.booleanFeatures.contains name) (hv : ReadsBack ops floatText v) :
    rowFeature ops schema row name = .ok (.fin (v.number : K)) := by
  rw [rowFeature, hrow]
  show (if schema.booleanFeatures.contains name = true then _ else _) = _
  rw [← hbool]
  cases v with
  | bool b =>
      cases b with
      | true => simp [FieldValue.isBool, fieldText, parseBoolean, FieldValue.number, ratOfBool]
      | false => simp [FieldValue.isBool, fieldText, parseBoolean, FieldValue.number, ratOfBool]
  | int n =>
      show ops.toFloat (.str (fieldText floatText (.int n))) = _
      rw [FloatOps.toFloat, hv rfl]
  | float q =>
      show ops.toFloat (.str (fieldText floatText (.float q))) = _
      rw [FloatOps.toFloat, hv rfl]

theorem rowFeature_get (hschema : schema ∈ featureSchemas) (row : SplitCandidateBlock)
    (hfields : schema.ReadsFrom row.example_.fields)
    (hback : ∀ f ∈ row.example_.fields, ReadsBack ops floatText f.2)
    (i : Fin schema.featureNames.length) :
    rowFeature ops schema (flattenDatasetRow floatText row) (schema.featureNames.get i)
      = .ok (.fin (featureVector schema row.example_.fields i : K)) := by
  have hname := List.get_mem schema.featureNames i
  obtain ⟨v, hv, hbool⟩ := hfields _ hname
  have hrow := get_flattenDatasetRow floatText row
    (mem_contextFeatureNames hschema hname)
  rw [hv] at hrow
  rw [rowFeature_eq hrow hbool (hback _ (OrderedDict.mem_of_get_eq_some hv)), featureVector,
    fieldNumber, hv]
  rfl

/-- The example of a printed row: the numbers of its fields, in the order of the schema. -/
def exampleOf (schema : SelectorFeatureSchema) (row : SplitCandidateBlock) : SelectorExample K where
  split := row.split
  features := List.ofFn fun i => .fin (featureVector schema row.example_.fields i)
  label := row.example_.label.decision = .repair

/-- **A printed row is read as the numbers of its fields.** -/
theorem readRow_flatten (hschema : schema ∈ featureSchemas) (row : SplitCandidateBlock)
    (hfields : schema.ReadsFrom row.example_.fields)
    (hback : ∀ f ∈ row.example_.fields, ReadsBack ops floatText f.2) (lineNumber : Nat) :
    readRow ops schema lineNumber (flattenDatasetRow floatText row) = .ok (exampleOf schema row) := by
  have hfeatures : schema.featureNames.mapM (rowFeature ops schema (flattenDatasetRow floatText row))
      = .ok (exampleOf schema row).features := by
    have hofFn := Except.mapM_ofFn (rowFeature_get hschema row hfields hback)
    rwa [List.ofFn_get] at hofFn
  have hsplit : OrderedDict.get (flattenDatasetRow floatText row) "split"
      = some row.split.value := rfl
  have hdecision : OrderedDict.get (flattenDatasetRow floatText row) "decision"
      = some row.example_.label.decision.value := rfl
  have hfind : splits.find? (fun s => some s.value = some row.split.value) = some row.split := by
    cases row.split <;> rfl
  rw [readRow, hsplit, hfind, hdecision, exampleOf]
  cases row.example_.label.decision with
  | repair =>
      show readRow.example_ ops schema lineNumber _ _ true = _
      rw [readRow.example_, hfeatures]
      rfl
  | reuse =>
      show readRow.example_ ops schema lineNumber _ _ false = _
      rw [readRow.example_, hfeatures]
      rfl

end

end CacheSelect.Benchmarks
