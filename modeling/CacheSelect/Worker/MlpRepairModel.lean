import CacheSelect.Lib.Except
import CacheSelect.Lib.FloatValue
import CacheSelect.Lib.OrderedDict
import CacheSelect.Worker.CopyPlan

/-! # The exported repair model

`MLPRepairModel` reads a model file that may hold anything `json.loads` returns and evaluates it on the features of
a candidate.  The constructor checks the standardizer; weights, biases and activations are first looked at
when a candidate is evaluated.  `MLPRepairSelector.select` turns what the evaluation raises into a repair.

Floats are rounded numbers of an ordered field (`FloatValue`), of the rationals where no field is named.  The rounding,
the exponential, the sum of a list and the reading of a text as a number are parameters (`FloatOps`), so that nothing
below depends on the precision.

The evaluation reads numbers and computes with them.  `readNetwork` only reads: it gives the
layers as numbers or the first error, and `DenseLayer.eval` computes without ever raising (`runLayers_eq`).
-/

namespace CacheSelect.Worker

open CacheSelect.Core

/-- What `json.loads` returns. -/
inductive PyValue (K : Type := Rat)
  | none
  | bool (b : Bool)
  | int (n : Int)
  | float (x : FloatValue K)
  | str (s : String)
  | list (xs : List (PyValue K))
  | dict (fields : List (String × PyValue K))

/-- The arithmetic of floats, and the texts the interpreter reads and prints. -/
structure FloatOps (K : Type := Rat) [Field K] [LinearOrder K] extends Rounding K where
  exp : FloatValue K → FloatValue K
  sum : List (FloatValue K) → FloatValue K
  ofString : String → Option (FloatValue K)
  repr : PyValue K → String
  exp_nan : exp .nan = .nan
  exp_nonpos : ∀ v, v.le (.fin 0) = true → (exp v).InUnit

section

variable {K : Type}

namespace PyValue

/-- `x[key]` for a text. -/
def item (x : PyValue K) (key : String) : Except PyError (PyValue K) :=
  match x with
  | .dict fields =>
      match OrderedDict.get fields key with
      | some v => .ok v
      | Option.none => .error .keyError
  | _ => .error .typeError

/-- `x[column]` for a number. -/
def entry (x : PyValue K) (column : Nat) : Except PyError (PyValue K) :=
  match x with
  | .list xs =>
      match xs[column]? with
      | some v => .ok v
      | Option.none => .error .indexError
  | .str s =>
      match s.toList[column]? with
      | some c => .ok (.str (String.singleton c))
      | Option.none => .error .indexError
  | .dict _ => .error .keyError
  | _ => .error .typeError

/-- What a loop over `x` meets; `len(x)` is its length. -/
def elements : PyValue K → Except PyError (List (PyValue K))
  | .list xs => .ok xs
  | .str s => .ok (s.toList.map fun c => .str (String.singleton c))
  | .dict fields => .ok (fields.map fun f => .str f.1)
  | _ => .error .typeError

variable [Field K] [LinearOrder K]

/-- `x == 1`. -/
def isOne : PyValue K → Bool
  | .bool b => b
  | .int n => n == 1
  | .float x => x == .fin 1
  | _ => false

/-- The text of `x` in a formatted string. -/
def text (ops : FloatOps K) : PyValue K → String
  | .str s => s
  | x => ops.repr x

end PyValue

variable [Field K] [LinearOrder K]

namespace FloatOps

variable (ops : FloatOps K)

/-- `float(x)`. -/
def toFloat : PyValue K → Except PyError (FloatValue K)
  | .bool b => .ok (.fin (if b then 1 else 0))
  | .int n =>
      match ops.round n with
      | .fin q => .ok (.fin q)
      | _ => .error .overflowError
  | .float x => .ok x
  | .str s =>
      match ops.ofString s with
      | some x => .ok x
      | none => .error (.valueError ("could not convert string to float: " ++ ops.repr (.str s)))
  | _ => .error .typeError

/-- `x / y`. -/
def divide (x y : FloatValue K) : Except PyError (FloatValue K) :=
  if y = .fin 0 then .error .zeroDivisionError else .ok (ops.div x y)

/-- `math.exp(x)`. -/
def mathExp (x : FloatValue K) : Except PyError (FloatValue K) :=
  match x, ops.exp x with
  | .fin _, .posInf => .error .overflowError
  | _, y => .ok y

/-- The logistic function, written so that the exponent is never above zero. -/
def logistic (value : FloatValue K) : Except PyError (FloatValue K) :=
  if (FloatValue.fin 0).le value then do
    let e ← ops.mathExp value.neg
    ops.divide (.fin 1) (ops.add (.fin 1) e)
  else do
    let e ← ops.mathExp value
    let e' ← ops.mathExp value
    ops.divide e (ops.add (.fin 1) e')

end FloatOps

/-- `max(0.0, value)`: the first argument unless the second is above it. -/
def relu (value : FloatValue K) : FloatValue K :=
  if (FloatValue.fin 0).lt value then value else .fin 0

structure MLPRepairModel (K : Type := Rat) [Field K] where
  featureNames : List (PyValue K)
  mean : List (FloatValue K)
  scale : List (FloatValue K)
  layers : List (PyValue K)
  repairThreshold : FloatValue K
  featureNames_ne_nil : featureNames ≠ []
  length_mean : mean.length = featureNames.length
  length_scale : scale.length = featureNames.length
  scale_ne_zero : ∀ s ∈ scale, s ≠ .fin 0

namespace MLPRepairModel

variable (ops : FloatOps K)

/-- `payload.get("schema_version") != 1`. -/
def unsupportedSchema (payload : List (String × PyValue K)) : Bool :=
  match OrderedDict.get payload "schema_version" with
  | some v => !v.isOne
  | none => true

/-- `tuple(map(float, x))`. -/
def floats (x : PyValue K) : Except PyError (List (FloatValue K)) := do
  let xs ← x.elements
  xs.mapM ops.toFloat

/-- The constructor. -/
def init (payload : List (String × PyValue K)) : Except PyError (MLPRepairModel K) :=
  if unsupportedSchema payload then .error (.valueError "unsupported MLP repair model schema")
  else do
    let names ← (PyValue.dict payload).item "feature_names"
    let names ← names.elements
    let standardizer ← (PyValue.dict payload).item "standardizer"
    let mean ← standardizer.item "mean"
    let mean ← floats ops mean
    let scale ← standardizer.item "scale"
    let scale ← floats ops scale
    if hsize : names ≠ [] ∧ mean.length = names.length ∧ scale.length = names.length then
      if hscale : ∀ s ∈ scale, s ≠ .fin 0 then do
        let layers ← (PyValue.dict payload).item "layers"
        let layers ← layers.elements
        let threshold ← (PyValue.dict payload).item "selected_repair_threshold"
        let threshold ← ops.toFloat threshold
        .ok ⟨names, mean, scale, layers, threshold, hsize.1, hsize.2.1, hsize.2.2, hscale⟩
      else .error (.valueError "MLP standardizer scales must be non-zero")
    else .error (.valueError "MLP feature and standardizer sizes must match")

/-- `features[name]`: lists and dictionaries are not hashable, and no other key is a text. -/
def feature (features : List (String × PyValue K)) (name : PyValue K) : Except PyError (PyValue K) :=
  match name with
  | .str s =>
      match OrderedDict.get features s with
      | some v => .ok v
      | none => .error .keyError
  | .list _ => .error .typeError
  | .dict _ => .error .typeError
  | _ => .error .keyError

def standardizedValue (features : List (String × PyValue K)) (name : PyValue K)
    (mean scale : FloatValue K) : Except PyError (FloatValue K) := do
  let x ← feature features name
  let x ← ops.toFloat x
  ops.divide (ops.sub x mean) scale

/-- The standardized features, in the order of the names. -/
def standardize (m : MLPRepairModel K) (features : List (String × PyValue K)) :
    Except PyError (List (FloatValue K)) :=
  (m.featureNames.zip (m.mean.zip m.scale)).mapM fun p =>
    standardizedValue ops features p.1 p.2.1 p.2.2

/-- `float(row[column])`. -/
def weight (column : Nat) (row : PyValue K) : Except PyError (FloatValue K) := do
  let x ← row.entry column
  ops.toFloat x

/-- One value of a layer before its activation. -/
def columnValue (values : List (FloatValue K)) (weights : List (PyValue K)) (column : Nat) (offset : PyValue K) :
    Except PyError (FloatValue K) := do
  let terms ← (values.zip weights).mapM fun p => do
    let w ← weight ops column p.2
    .ok (ops.mul p.1 w)
  let b ← ops.toFloat offset
  .ok (ops.add (ops.sum terms) b)

def activate (activation : PyValue K) (values : List (FloatValue K)) : Except PyError (List (FloatValue K)) :=
  match activation with
  | .str "relu" => .ok (values.map relu)
  | .str "logistic" => values.mapM ops.logistic
  | x => .error (.valueError ("unsupported MLP activation: " ++ x.text ops))

/-- One round of the loop over the layers. -/
def applyLayer (layer : PyValue K) (values : List (FloatValue K)) : Except PyError (List (FloatValue K)) := do
  let weights ← layer.item "weights"
  let bias ← layer.item "bias"
  let rows ← weights.elements
  if rows.length ≠ values.length then
    .error (.valueError "MLP layer input size does not match")
  else do
    let offsets ← bias.elements
    let values ← offsets.zipIdx.mapM fun p => columnValue ops values rows p.2 p.1
    let activation ← layer.item "activation"
    activate ops activation values

def runLayers : List (PyValue K) → List (FloatValue K) → Except PyError (List (FloatValue K))
  | [], values => .ok values
  | layer :: layers, values => do
      let values ← applyLayer ops layer values
      runLayers layers values

/-- The checks at the end of the evaluation. -/
def outputValue (values : List (FloatValue K)) : Except PyError (FloatValue K) :=
  match values with
  | [p] =>
      if p.isFinite then .ok p
      else .error (.valueError "binary repair MLP produced a non-finite value")
  | _ => .error (.valueError "binary repair MLP must produce one value")

/-- `predict_repair_probability`. -/
def predictRepairProbability (m : MLPRepairModel K) (features : List (String × PyValue K)) :
    Except PyError (FloatValue K) := do
  let values ← m.standardize ops features
  if values.all FloatValue.isFinite then do
    let values ← runLayers ops m.layers values
    outputValue values
  else .error (.valueError "MLP features must be finite")

/-- `should_repair`. -/
def shouldRepair (m : MLPRepairModel K) (features : List (String × PyValue K)) :
    Except PyError Bool := do
  let p ← m.predictRepairProbability ops features
  .ok (m.repairThreshold.le p)

end MLPRepairModel

/-! ### The layers as numbers -/

inductive Activation
  | relu
  | logistic
deriving DecidableEq

/-- The numbers of a layer: for each of its values the weights by row and the bias. -/
structure DenseLayer (K : Type := Rat) where
  columns : List (List (FloatValue K) × FloatValue K)
  activation : Activation

namespace MLPRepairModel

variable (ops : FloatOps K)

def readColumn (rows : List (PyValue K)) (column : Nat) (offset : PyValue K) :
    Except PyError (List (FloatValue K) × FloatValue K) := do
  let ws ← rows.mapM (weight ops column)
  let b ← ops.toFloat offset
  .ok (ws, b)

def readActivation (activation : PyValue K) : Except PyError Activation :=
  match activation with
  | .str "relu" => .ok .relu
  | .str "logistic" => .ok .logistic
  | x => .error (.valueError ("unsupported MLP activation: " ++ x.text ops))

/-- What a layer for `n` values holds, read in the order of the evaluation. -/
def readLayer (layer : PyValue K) (n : Nat) : Except PyError (DenseLayer K) := do
  let weights ← layer.item "weights"
  let bias ← layer.item "bias"
  let rows ← weights.elements
  if rows.length ≠ n then
    .error (.valueError "MLP layer input size does not match")
  else do
    let offsets ← bias.elements
    let columns ← offsets.zipIdx.mapM fun p => readColumn ops rows p.2 p.1
    let activation ← layer.item "activation"
    let activation ← readActivation ops activation
    .ok ⟨columns, activation⟩

def readNetwork : List (PyValue K) → Nat → Except PyError (List (DenseLayer K))
  | [], _ => .ok []
  | layer :: layers, n => do
      let l ← readLayer ops layer n
      let ls ← readNetwork layers l.columns.length
      .ok (l :: ls)

end MLPRepairModel

namespace FloatOps

variable (ops : FloatOps K)

/-- The logistic function as a value. -/
def logisticValue (value : FloatValue K) : FloatValue K :=
  if (FloatValue.fin 0).le value then
    ops.div (.fin 1) (ops.add (.fin 1) (ops.exp value.neg))
  else ops.div (ops.exp value) (ops.add (.fin 1) (ops.exp value))

def activationValue : Activation → FloatValue K → FloatValue K
  | .relu => relu
  | .logistic => ops.logisticValue

/-- The exponential where the code takes it. -/
theorem exp_nan_or_inUnit {v : FloatValue K} (h : v = .nan ∨ v.le (.fin 0) = true) :
    ops.exp v = .nan ∨ (ops.exp v).InUnit := by
  rcases h with rfl | h
  · exact Or.inl ops.exp_nan
  · exact Or.inr (ops.exp_nonpos v h)

theorem mathExp_of_nonpos {v : FloatValue K} (h : v = .nan ∨ v.le (.fin 0) = true) :
    ops.mathExp v = .ok (ops.exp v) := by
  have hexp : ops.exp v ≠ .posInf := by
    intro hinf
    rcases ops.exp_nan_or_inUnit h with hn | ⟨e, he, -⟩
    · rw [hinf] at hn
      cases hn
    · rw [hinf] at he
      cases he
  unfold mathExp
  split
  · next hinf => exact absurd hinf hexp
  · rfl

variable [IsStrictOrderedRing K]

theorem divide_one_add {x e : FloatValue K} (he : e = .nan ∨ e.InUnit) :
    ops.divide x (ops.add (.fin 1) e) = .ok (ops.div x (ops.add (.fin 1) e)) :=
  if_neg (ops.one_add_ne_zero he)

/-- **The logistic function never raises.** -/
theorem logistic_eq (value : FloatValue K) : ops.logistic value = .ok (ops.logisticValue value) := by
  rw [logistic, logisticValue]
  by_cases h : (FloatValue.fin 0).le value = true
  · have hneg : value.neg = .nan ∨ value.neg.le (.fin 0) = true := Or.inr (FloatValue.neg_le_zero h)
    rw [if_pos h, if_pos h, ops.mathExp_of_nonpos hneg]
    exact ops.divide_one_add (ops.exp_nan_or_inUnit hneg)
  · have hle := FloatValue.le_zero_of_not h
    rw [if_neg h, if_neg h, ops.mathExp_of_nonpos hle]
    exact ops.divide_one_add (ops.exp_nan_or_inUnit hle)

/-- Its value is a probability, if it is a number. -/
theorem logisticValue_range (value : FloatValue K) :
    ops.logisticValue value = .nan ∨ (ops.logisticValue value).InUnit := by
  have hone : (FloatValue.fin (1 : K)).InUnit := ⟨1, rfl, zero_le_one, le_refl 1⟩
  rw [logisticValue]
  by_cases h : (FloatValue.fin 0).le value = true
  · rw [if_pos h]
    exact Or.inr (ops.div_one_add_inUnit hone (ops.exp_nonpos _ (FloatValue.neg_le_zero h)))
  · rw [if_neg h]
    rcases ops.exp_nan_or_inUnit (FloatValue.le_zero_of_not h) with he | he
    · rw [he]
      exact Or.inl rfl
    · exact Or.inr (ops.div_one_add_inUnit he he)

end FloatOps

/-- What `max(0.0, value)` gives is not below zero. -/
theorem zero_le_relu (value : FloatValue K) : (FloatValue.fin 0).le (relu value) = true := by
  rw [relu]
  split
  · next h =>
      cases value with
      | nan => cases h
      | posInf => rfl
      | negInf => cases h
      | fin q =>
          rw [FloatValue.lt_fin_fin, decide_eq_true_eq] at h
          rw [FloatValue.le_fin_fin, decide_eq_true_eq]
          exact le_of_lt h
  · exact decide_eq_true (le_refl (0 : K))

namespace DenseLayer

variable (ops : FloatOps K)

def columnResult (values : List (FloatValue K)) (c : List (FloatValue K) × FloatValue K) : FloatValue K :=
  ops.add (ops.sum (List.zipWith ops.mul values c.1)) c.2

/-- The values of a layer. -/
def eval (l : DenseLayer K) (values : List (FloatValue K)) : List (FloatValue K) :=
  (l.columns.map (columnResult ops values)).map (ops.activationValue l.activation)

/-- The values of the last layer. -/
def evalAll : List (DenseLayer K) → List (FloatValue K) → List (FloatValue K)
  | [], values => values
  | l :: ls, values => evalAll ls (l.eval ops values)

theorem length_eval (l : DenseLayer K) (values : List (FloatValue K)) :
    (l.eval ops values).length = l.columns.length := by
  rw [eval, List.length_map, List.length_map]

end DenseLayer

/-! ### Reading before computing -/

namespace MLPRepairModel

variable (ops : FloatOps K)

theorem terms_eq (column : Nat) : ∀ {values : List (FloatValue K)} {rows : List (PyValue K)},
    rows.length = values.length →
      (values.zip rows).mapM (fun p => do
        let w ← weight ops column p.2
        Except.ok (ops.mul p.1 w))
      = (rows.mapM (weight ops column)).map (List.zipWith ops.mul values) := by
  intro values
  induction values with
  | nil =>
      intro rows h
      rw [List.length_eq_zero_iff.mp h]
      rfl
  | cons v values ih =>
      intro rows h
      cases rows with
      | nil => cases h
      | cons row rows =>
          rw [List.zip_cons_cons, List.mapM_cons, List.mapM_cons, ih (Nat.succ.inj h)]
          cases weight ops column row with
          | error e => rfl
          | ok w => cases rows.mapM (weight ops column) <;> rfl

theorem columnValue_eq {values : List (FloatValue K)} {rows : List (PyValue K)}
    (h : rows.length = values.length) (column : Nat) (offset : PyValue K) :
    columnValue ops values rows column offset
      = (readColumn ops rows column offset).map (DenseLayer.columnResult ops values) := by
  rw [columnValue, readColumn, terms_eq ops column h]
  cases rows.mapM (weight ops column) with
  | error e => rfl
  | ok ws => cases ops.toFloat offset <;> rfl

variable [IsStrictOrderedRing K]

theorem activate_eq (activation : PyValue K) (values : List (FloatValue K)) :
    activate ops activation values
      = (readActivation ops activation).map fun a => values.map (ops.activationValue a) := by
  unfold activate readActivation
  split
  · rfl
  · exact Except.mapM_eq_ok_map fun v _ => ops.logistic_eq v
  · rfl

/-- **A layer is read, and then computed without an error.** -/
theorem applyLayer_eq (layer : PyValue K) (values : List (FloatValue K)) :
    applyLayer ops layer values
      = (readLayer ops layer values.length).map fun l => l.eval ops values := by
  rw [applyLayer, readLayer]
  cases layer.item "weights" with
  | error e => rfl
  | ok weights =>
  cases layer.item "bias" with
  | error e => rfl
  | ok bias =>
  cases hrows : weights.elements with
  | error e =>
      show (weights.elements >>= _) = Except.map _ (weights.elements >>= _)
      rw [hrows]
      rfl
  | ok rows =>
      show (weights.elements >>= _) = Except.map _ (weights.elements >>= _)
      rw [hrows]
      show (if rows.length ≠ values.length then _ else _) = Except.map _ (if _ then _ else _)
      by_cases hlen : rows.length = values.length
      · rw [if_neg (not_not.mpr hlen), if_neg (not_not.mpr hlen)]
        cases bias.elements with
        | error e => rfl
        | ok offsets =>
            have hcolumns : (offsets.zipIdx.mapM fun p => columnValue ops values rows p.2 p.1)
                = (offsets.zipIdx.mapM fun p => readColumn ops rows p.2 p.1).map
                  (List.map (DenseLayer.columnResult ops values)) := by
              rw [← Except.mapM_map]
              congr 1
              funext p
              exact columnValue_eq ops hlen p.2 p.1
            show ((offsets.zipIdx.mapM fun p => columnValue ops values rows p.2 p.1) >>= _) = _
            rw [hcolumns]
            show _ = Except.map _ ((offsets.zipIdx.mapM fun p => readColumn ops rows p.2 p.1) >>= _)
            cases offsets.zipIdx.mapM fun p => readColumn ops rows p.2 p.1 with
            | error e => rfl
            | ok columns =>
                show (layer.item "activation" >>= _) = Except.map _ (layer.item "activation" >>= _)
                cases layer.item "activation" with
                | error e => rfl
                | ok activation =>
                    show activate ops activation _ = Except.map _ (readActivation ops activation >>= _)
                    rw [activate_eq]
                    cases readActivation ops activation <;> rfl
      · rw [if_pos hlen, if_pos hlen]
        rfl

theorem runLayers_eq : ∀ (layers : List (PyValue K)) (values : List (FloatValue K)),
    runLayers ops layers values
      = (readNetwork ops layers values.length).map fun net => DenseLayer.evalAll ops net values := by
  intro layers
  induction layers with
  | nil => intro values; rfl
  | cons layer layers ih =>
      intro values
      rw [runLayers, readNetwork, applyLayer_eq]
      cases readLayer ops layer values.length with
      | error e => rfl
      | ok l =>
          show runLayers ops layers (l.eval ops values) = _
          rw [ih, DenseLayer.length_eval]
          show _ = Except.map _ (readNetwork ops layers l.columns.length >>= _)
          cases readNetwork ops layers l.columns.length <;> rfl

end MLPRepairModel

end

end CacheSelect.Worker
