import CacheSelect.Benchmarks.SelectorTraining
import CacheSelect.Lib.DenseNetwork
import Mathlib.Data.Real.Basic

/-! # The exported selector decides like the trained one

A trained selector is a pipeline: a standard scaler and behind it a logistic regression or a network of dense layers.
`exportSelector` writes its numbers, the names of the features and the selected threshold into a dictionary, and
`MLPRepairModel` loads it.

Over exact numbers with the real exponential the loaded model computes the probability of the pipeline, and the
features that the server hands to it are those the training table holds for the block.
-/

namespace CacheSelect.Benchmarks

open CacheSelect.Core CacheSelect.Features CacheSelect.Worker

/-! ### The trained pipelines -/

/-- A fitted `StandardScaler`: a feature without any spread has scale `1`. -/
structure StandardScaler (n : ℕ) where
  mean : Fin n → ℝ
  scale : Fin n → ℝ
  scale_ne_zero : ∀ i, scale i ≠ 0

noncomputable def StandardScaler.transform {n : ℕ} (s : StandardScaler n) (x : Fin n → ℝ) : Fin n → ℝ :=
  fun i => (x i - s.mean i) / s.scale i

/-- A fitted `LogisticRegression` of two classes; `coef_` has one row. -/
structure LogisticRegression (n : ℕ) where
  coef : Matrix (Fin 1) (Fin n) ℝ
  intercept : Fin 1 → ℝ

/-- The probability of the second class. -/
noncomputable def LogisticRegression.predictProba {n : ℕ} (c : LogisticRegression n) (x : Fin n → ℝ) : ℝ :=
  Real.sigmoid (c.coef.mulVec x (Fin.last 0) + c.intercept (Fin.last 0))

/-- A fitted `MLPClassifier` of two classes: every hidden layer has the same activation. -/
structure MLPClassifier (n : ℕ) where
  network : DenseNetwork ℝ n
  activation : Activation

noncomputable def activationFunction : Activation → ℝ → ℝ
  | .relu => fun x => max 0 x
  | .logistic => Real.sigmoid

noncomputable def MLPClassifier.predictProba {n : ℕ} (c : MLPClassifier n) (x : Fin n → ℝ) : ℝ :=
  c.network.forward (activationFunction c.activation) Real.sigmoid x

inductive Pipeline (n : ℕ)
  | logistic (scaler : StandardScaler n) (classifier : LogisticRegression n)
  | mlp (scaler : StandardScaler n) (classifier : MLPClassifier n)

/-- `predict_proba(x)[:, 1]` of a pipeline. -/
noncomputable def Pipeline.repairProbability {n : ℕ} : Pipeline n → (Fin n → ℝ) → ℝ
  | .logistic scaler classifier, x => classifier.predictProba (scaler.transform x)
  | .mlp scaler classifier, x => classifier.predictProba (scaler.transform x)

/-! ### The export -/

/-- What the exporters read of the report of a training. -/
structure SelectorReport where
  featureSchema : String
  featureNames : List String
  selectedThreshold : ℝ
  operatingPoints : List (String × ℝ)
  reuseBudgetPoints : List (String × ℝ)

/-- The report of a training with this schema. -/
def trainedReport (schema : SelectorFeatureSchema) (threshold : ℝ)
    (operatingPoints reuseBudgetPoints : List (String × ℝ)) : SelectorReport where
  featureSchema := schema.name
  featureNames := schema.featureNames
  selectedThreshold := threshold
  operatingPoints := operatingPoints
  reuseBudgetPoints := reuseBudgetPoints

/-- `tolist` of a vector. -/
def vectorValue (xs : List ℝ) : PyValue ℝ :=
  .list (xs.map fun x => .float (.fin x))

/-- `tolist` of a matrix. -/
def matrixValue (rows : List (List ℝ)) : PyValue ℝ :=
  .list (rows.map vectorValue)

def thresholdsValue (points : List (String × ℝ)) : PyValue ℝ :=
  .dict (points.map fun p => (p.1, .float (.fin p.2)))

def layerValue (weights : List (List ℝ)) (bias : List ℝ) (activation : String) : PyValue ℝ :=
  .dict [("weights", matrixValue weights), ("bias", vectorValue bias), ("activation", .str activation)]

def standardizerValue {n : ℕ} (scaler : StandardScaler n) : PyValue ℝ :=
  .dict [("mean", vectorValue (List.ofFn scaler.mean)), ("scale", vectorValue (List.ofFn scaler.scale))]

def activationName : Activation → String
  | .relu => "relu"
  | .logistic => "logistic"

/-- `zip(coefs, intercepts, activations, strict=True)`. -/
def zipLayers (coefs : List (List (List ℝ))) (intercepts : List (List ℝ)) (activations : List String) :
    Except PyError (List (PyValue ℝ)) :=
  match coefs, intercepts, activations with
  | [], [], [] => .ok []
  | w :: ws, b :: bs, a :: as => do
      let layers ← zipLayers ws bs as
      .ok (layerValue w b a :: layers)
  | [], _ :: _, _ => .error (.valueError "zip() argument 2 is longer than argument 1")
  | [], [], _ :: _ => .error (.valueError "zip() argument 3 is longer than arguments 1-2")
  | _ :: _, [], _ => .error (.valueError "zip() argument 2 is shorter than argument 1")
  | _ :: _, _ :: _, [] => .error (.valueError "zip() argument 3 is shorter than arguments 1-2")

/-- `export_logistic_selector`. -/
def exportLogisticSelector {n : ℕ} (scaler : StandardScaler n) (classifier : LogisticRegression n)
    (report : SelectorReport) : List (String × PyValue ℝ) :=
  [("schema_version", .int 1),
   ("model_type", .str "standard_scaler_mlp_binary_repair_selector"),
   ("feature_schema", .str report.featureSchema),
   ("feature_names", .list (report.featureNames.map .str)),
   ("selected_repair_threshold", .float (.fin report.selectedThreshold)),
   ("reuse_budget_thresholds", thresholdsValue report.reuseBudgetPoints),
   ("standardizer", standardizerValue scaler),
   ("layers", .list
      [layerValue classifier.coef.transpose.toLists (List.ofFn classifier.intercept) "logistic"])]

/-- `export_mlp_selector`. -/
def exportMlpSelector {n : ℕ} (scaler : StandardScaler n) (classifier : MLPClassifier n)
    (report : SelectorReport) : Except PyError (List (String × PyValue ℝ)) := do
  let coefs := classifier.network.coefs
  let activations := List.replicate (coefs.length - 1) (activationName classifier.activation) ++ ["logistic"]
  let layers ← zipLayers coefs classifier.network.intercepts activations
  .ok [("schema_version", .int 1),
    ("model_type", .str "standard_scaler_mlp_binary_repair_selector"),
    ("feature_schema", .str report.featureSchema),
    ("feature_names", .list (report.featureNames.map .str)),
    ("selected_repair_threshold", .float (.fin report.selectedThreshold)),
    ("operating_point_thresholds", thresholdsValue report.operatingPoints),
    ("reuse_budget_thresholds", thresholdsValue report.reuseBudgetPoints),
    ("standardizer", standardizerValue scaler),
    ("layers", .list layers)]

/-- The export of either pipeline. -/
def exportSelector {n : ℕ} (p : Pipeline n) (report : SelectorReport) :
    Except PyError (List (String × PyValue ℝ)) :=
  match p with
  | .logistic scaler classifier => .ok (exportLogisticSelector scaler classifier report)
  | .mlp scaler classifier => exportMlpSelector scaler classifier report

/-! ### Exact arithmetic -/

/-- The exponential of the reals, with its limits. -/
noncomputable def realExp : FloatValue ℝ → FloatValue ℝ
  | .nan => .nan
  | .posInf => .posInf
  | .negInf => .fin 0
  | .fin x => .fin (Real.exp x)

theorem realExp_nonpos (v : FloatValue ℝ) (h : v.le (.fin 0) = true) : (realExp v).InUnit := by
  cases v with
  | nan => cases h
  | posInf => cases h
  | negInf => exact ⟨0, rfl, le_refl 0, zero_le_one⟩
  | fin x =>
      rw [FloatValue.le_fin_fin, decide_eq_true_eq] at h
      exact ⟨Real.exp x, rfl, (Real.exp_pos x).le, Real.exp_le_one_iff.mpr h⟩

/-- Operations on reals without rounding; the texts are read and printed in any way. -/
noncomputable def realOps (ofString : String → Option (FloatValue ℝ)) (repr : PyValue ℝ → String) :
    FloatOps ℝ where
  toRounding := Rounding.exact
  exp := realExp
  sum := fun xs => xs.foldl Rounding.exact.add (.fin 0)
  ofString := ofString
  repr := repr
  exp_nan := rfl
  exp_nonpos := realExp_nonpos

section

variable (ofString : String → Option (FloatValue ℝ)) (repr : PyValue ℝ → String)

/-! ### Layers over exact numbers -/

theorem sum_realOps (xs : List ℝ) : (realOps ofString repr).sum (xs.map .fin) = .fin xs.sum := by
  have hfold : ∀ acc : ℝ, (xs.map FloatValue.fin).foldl Rounding.exact.add (.fin acc)
      = .fin (acc + xs.sum) := by
    induction xs with
    | nil => intro acc; simp
    | cons x xs ih =>
        intro acc
        rw [List.map_cons, List.foldl_cons, List.sum_cons, ← add_assoc]
        exact ih (acc + x)
  rw [← zero_add xs.sum]
  exact hfold 0

theorem columnResult_realOps (xs ws : List ℝ) (b : ℝ) :
    DenseLayer.columnResult (realOps ofString repr) (xs.map .fin) (ws.map .fin, .fin b)
      = .fin ((List.zipWith (fun x w => x * w) xs ws).sum + b) := by
  have hterms : List.zipWith (realOps ofString repr).mul (xs.map .fin) (ws.map .fin)
      = (List.zipWith (fun x w => x * w) xs ws).map .fin := by
    rw [List.zipWith_map, List.map_zipWith]
    rfl
  rw [DenseLayer.columnResult, hterms, sum_realOps]
  rfl

/-- **The logistic function of the server is the textbook's**, on both sides of zero. -/
theorem logisticValue_realOps (z : ℝ) :
    (realOps ofString repr).logisticValue (.fin z) = .fin (Real.sigmoid z) := by
  rw [FloatOps.logisticValue]
  by_cases h : (FloatValue.fin (0 : ℝ)).le (.fin z) = true
  · rw [if_pos h, Real.sigmoid_def, ← one_div]
    rfl
  · rw [if_neg h, ← DenseNetwork.exp_div_one_add_exp]
    rfl

theorem activationValue_realOps (a : Activation) (z : ℝ) :
    (realOps ofString repr).activationValue a (.fin z) = .fin (activationFunction a z) := by
  cases a with
  | relu =>
      show relu (.fin z) = .fin (max 0 z)
      rw [relu, FloatValue.lt_fin_fin]
      by_cases h : 0 < z
      · rw [if_pos (decide_eq_true h), max_eq_right h.le]
      · rw [if_neg (by simpa using h), max_eq_left (not_lt.mp h)]
  | logistic => exact logisticValue_realOps ofString repr z

/-- The numbers of a layer of a network. -/
def denseLayer {n h : ℕ} (weights : Matrix (Fin n) (Fin h) ℝ) (bias : Fin h → ℝ) (a : Activation) :
    DenseLayer ℝ where
  columns := List.ofFn fun j => ((List.ofFn fun i => weights i j).map .fin, .fin (bias j))
  activation := a

theorem eval_denseLayer {n h : ℕ} (weights : Matrix (Fin n) (Fin h) ℝ) (bias : Fin h → ℝ)
    (a : Activation) (x : Fin n → ℝ) :
    (denseLayer weights bias a).eval (realOps ofString repr) ((List.ofFn x).map .fin)
      = (List.ofFn fun j => activationFunction a (DenseNetwork.affine weights bias x j)).map .fin := by
  have hcolumn : ∀ j, (realOps ofString repr).activationValue a
      (DenseLayer.columnResult (realOps ofString repr) ((List.ofFn x).map .fin)
        ((List.ofFn fun i => weights i j).map .fin, .fin (bias j)))
        = .fin (activationFunction a (DenseNetwork.affine weights bias x j)) := by
    intro j
    rw [columnResult_realOps, activationValue_realOps, ← DenseNetwork.affine_apply]
  generalize (List.ofFn x).map FloatValue.fin = values at hcolumn ⊢
  rw [DenseLayer.eval, denseLayer, List.map_ofFn, List.map_ofFn, List.map_ofFn]
  exact congrArg List.ofFn (funext hcolumn)

/-! ### Reading an exported layer -/

theorem weight_vectorValue {h : ℕ} (row : Fin h → ℝ) (j : Fin h) :
    MLPRepairModel.weight (realOps ofString repr) j (vectorValue (List.ofFn row)) = .ok (.fin (row j)) := by
  have hentry : (vectorValue (List.ofFn row)).entry j = .ok (.float (.fin (row j))) := by
    simp [vectorValue, PyValue.entry]
  rw [MLPRepairModel.weight, hentry]
  rfl

theorem readColumn_exported {n h : ℕ} (weights : Matrix (Fin n) (Fin h) ℝ) (b : ℝ) (j : Fin h) :
    MLPRepairModel.readColumn (realOps ofString repr) (weights.toLists.map vectorValue) j (.float (.fin b))
      = .ok ((List.ofFn fun i => weights i j).map .fin, .fin b) := by
  have hrows : (weights.toLists.map vectorValue).mapM (MLPRepairModel.weight (realOps ofString repr) j)
      = .ok ((List.ofFn fun i => weights i j).map .fin) := by
    rw [Matrix.toLists, List.map_ofFn, List.map_ofFn]
    refine Except.mapM_ofFn ?_
    intro i
    exact weight_vectorValue ofString repr (weights i) j
  rw [MLPRepairModel.readColumn, hrows]
  rfl

/-- **The rows of an exported layer are its inputs**, and its columns the values it gives. -/
theorem readLayer_exported {n h : ℕ} (weights : Matrix (Fin n) (Fin h) ℝ) (bias : Fin h → ℝ)
    (a : Activation) :
    MLPRepairModel.readLayer (realOps ofString repr)
        (layerValue weights.toLists (List.ofFn bias) (activationName a)) n
      = .ok (denseLayer weights bias a) := by
  have hlength : (weights.toLists.map vectorValue).length = n := by
    simp [Matrix.toLists]
  have hcolumns : (((List.ofFn bias).map fun b => (PyValue.float (.fin b) : PyValue ℝ)).zipIdx.mapM
      fun p => MLPRepairModel.readColumn (realOps ofString repr) (weights.toLists.map vectorValue) p.2 p.1)
      = .ok (denseLayer weights bias a).columns := by
    have hzip : ((List.ofFn bias).map fun b => (PyValue.float (.fin b) : PyValue ℝ)).zipIdx
        = List.ofFn fun j => ((PyValue.float (.fin (bias j)) : PyValue ℝ), j.val) := by
      refine List.ext_getElem (by simp) ?_
      intro k h₁ h₂
      simp
    rw [hzip]
    refine Except.mapM_ofFn ?_
    intro j
    exact readColumn_exported ofString repr weights (bias j) j
  show (if (weights.toLists.map vectorValue).length ≠ n then _ else _) = _
  rw [if_neg (not_not.mpr hlength)]
  show ((((List.ofFn bias).map fun b => (PyValue.float (.fin b) : PyValue ℝ)).zipIdx.mapM
      fun p => MLPRepairModel.readColumn (realOps ofString repr) (weights.toLists.map vectorValue) p.2 p.1)
        >>= _) = _
  rw [hcolumns]
  cases a <;> rfl

/-! ### Networks of any depth -/

/-- The layers of a network as they are exported. -/
def exportedLayers (a : Activation) : {n : ℕ} → DenseNetwork ℝ n → List (PyValue ℝ)
  | _, .output weights bias => [layerValue weights.toLists (List.ofFn bias) "logistic"]
  | _, .hidden weights bias rest =>
      layerValue weights.toLists (List.ofFn bias) (activationName a) :: exportedLayers a rest

/-- The numbers of these layers. -/
def denseLayers (a : Activation) : {n : ℕ} → DenseNetwork ℝ n → List (DenseLayer ℝ)
  | _, .output weights bias => [denseLayer weights bias .logistic]
  | _, .hidden weights bias rest => denseLayer weights bias a :: denseLayers a rest

theorem zipLayers_eq (a : Activation) {n : ℕ} (net : DenseNetwork ℝ n) :
    zipLayers net.coefs net.intercepts
        (List.replicate (net.coefs.length - 1) (activationName a) ++ ["logistic"])
      = .ok (exportedLayers a net) := by
  rw [DenseNetwork.length_coefs, Nat.add_sub_cancel]
  induction net with
  | output weights bias => rfl
  | hidden weights bias rest ih =>
      show (zipLayers rest.coefs rest.intercepts
        (List.replicate rest.depth (activationName a) ++ ["logistic"]) >>= _) = _
      rw [ih]
      rfl

theorem readNetwork_exported (a : Activation) {n : ℕ} (net : DenseNetwork ℝ n) :
    MLPRepairModel.readNetwork (realOps ofString repr) (exportedLayers a net) n
      = .ok (denseLayers a net) := by
  induction net with
  | output weights bias =>
      have hlayer := readLayer_exported ofString repr weights bias .logistic
      show (MLPRepairModel.readLayer (realOps ofString repr)
        (layerValue weights.toLists (List.ofFn bias) (activationName .logistic)) _ >>= _) = _
      rw [hlayer]
      rfl
  | @hidden n h weights bias rest ih =>
      have hlayer := readLayer_exported ofString repr weights bias a
      have hlength : (denseLayer weights bias a).columns.length = h := by
        simp [denseLayer]
      show (MLPRepairModel.readLayer (realOps ofString repr)
        (layerValue weights.toLists (List.ofFn bias) (activationName a)) _ >>= _) = _
      rw [hlayer]
      show (MLPRepairModel.readNetwork (realOps ofString repr) (exportedLayers a rest)
        (denseLayer weights bias a).columns.length >>= _) = _
      rw [hlength, ih]
      rfl

/-- **The layers compute the forward pass.** -/
theorem evalAll_denseLayers (a : Activation) {n : ℕ} (net : DenseNetwork ℝ n) :
    ∀ x : Fin n → ℝ,
      DenseLayer.evalAll (realOps ofString repr) (denseLayers a net) ((List.ofFn x).map .fin)
        = [.fin (net.forward (activationFunction a) Real.sigmoid x)] := by
  induction net with
  | output weights bias =>
      intro x
      rw [denseLayers, DenseLayer.evalAll, eval_denseLayer]
      rfl
  | hidden weights bias rest ih =>
      intro x
      rw [denseLayers, DenseLayer.evalAll, eval_denseLayer, ih, DenseNetwork.forward]

theorem runLayers_exported (a : Activation) {n : ℕ} (net : DenseNetwork ℝ n) (x : Fin n → ℝ) :
    MLPRepairModel.runLayers (realOps ofString repr) (exportedLayers a net)
        ((List.ofFn x).map .fin)
      = .ok [.fin (net.forward (activationFunction a) Real.sigmoid x)] := by
  have hlength : ((List.ofFn x).map (FloatValue.fin)).length = n := by simp
  rw [MLPRepairModel.runLayers_eq, hlength, readNetwork_exported]
  exact congrArg Except.ok (evalAll_denseLayers ofString repr a net x)

/-- A logistic regression as a network without a hidden layer. -/
def LogisticRegression.network {n : ℕ} (c : LogisticRegression n) : DenseNetwork ℝ n :=
  .output c.coef.transpose c.intercept

theorem LogisticRegression.predictProba_eq {n : ℕ} (c : LogisticRegression n) (a : Activation)
    (x : Fin n → ℝ) :
    c.predictProba x = c.network.forward (activationFunction a) Real.sigmoid x := by
  rw [predictProba, network, DenseNetwork.forward, DenseNetwork.affine, Pi.add_apply,
    Matrix.vecMul_transpose]
  rfl

/-! ### The loaded model -/

/-- The network of a pipeline, with the activation of its hidden layers. -/
def Pipeline.network {n : ℕ} : Pipeline n → DenseNetwork ℝ n × Activation
  | .logistic _ classifier => (classifier.network, .relu)
  | .mlp _ classifier => (classifier.network, classifier.activation)

def Pipeline.scaler {n : ℕ} : Pipeline n → StandardScaler n
  | .logistic scaler _ => scaler
  | .mlp scaler _ => scaler

theorem Pipeline.repairProbability_eq {n : ℕ} (p : Pipeline n) (x : Fin n → ℝ) :
    p.repairProbability x
      = p.network.1.forward (activationFunction p.network.2) Real.sigmoid (p.scaler.transform x) := by
  cases p with
  | logistic scaler classifier => exact classifier.predictProba_eq .relu _
  | mlp scaler classifier => rfl

/-- The model of an exported pipeline. -/
noncomputable def loadedModel {names : List String} (p : Pipeline names.length) (threshold : ℝ)
    (hnames : names ≠ []) : MLPRepairModel ℝ where
  featureNames := names.map .str
  mean := (List.ofFn p.scaler.mean).map .fin
  scale := (List.ofFn p.scaler.scale).map .fin
  layers := exportedLayers p.network.2 p.network.1
  repairThreshold := .fin threshold
  featureNames_ne_nil := fun h => hnames (List.map_eq_nil_iff.mp h)
  length_mean := by simp
  length_scale := by simp
  scale_ne_zero := by
    intro s hs
    simp only [List.mem_map, List.mem_ofFn'] at hs
    obtain ⟨_, ⟨i, rfl⟩, rfl⟩ := hs
    intro h
    exact p.scaler.scale_ne_zero i (FloatValue.fin.inj h)

theorem floats_vectorValue (xs : List ℝ) :
    MLPRepairModel.floats (realOps ofString repr) (vectorValue xs) = .ok (xs.map .fin) := by
  have helements : (vectorValue xs).elements = .ok (xs.map fun x => .float (.fin x)) := rfl
  rw [MLPRepairModel.floats, helements]
  show (xs.map fun x => (PyValue.float (.fin x) : PyValue ℝ)).mapM (realOps ofString repr).toFloat = _
  induction xs with
  | nil => rfl
  | cons x xs ih =>
      rw [List.map_cons, List.mapM_cons, ih rfl]
      rfl

/-- The constructor reads five entries of a dictionary. -/
theorem init_of_entries {names : List String} (p : Pipeline names.length) (threshold : ℝ)
    (hnames : names ≠ []) {artifact : List (String × PyValue ℝ)}
    (hversion : OrderedDict.get artifact "schema_version" = some (.int 1))
    (hfeatures : OrderedDict.get artifact "feature_names" = some (.list (names.map .str)))
    (hstandardizer : OrderedDict.get artifact "standardizer" = some (standardizerValue p.scaler))
    (hlayers : OrderedDict.get artifact "layers"
      = some (.list (exportedLayers p.network.2 p.network.1)))
    (hthreshold : OrderedDict.get artifact "selected_repair_threshold"
      = some (.float (.fin threshold))) :
    MLPRepairModel.init (realOps ofString repr) artifact = .ok (loadedModel p threshold hnames) := by
  have hschema : MLPRepairModel.unsupportedSchema artifact = false := by
    rw [MLPRepairModel.unsupportedSchema, hversion]
    simp [PyValue.isOne]
  have hitem : ∀ {key : String} {v : PyValue ℝ}, OrderedDict.get artifact key = some v →
      (PyValue.dict artifact).item key = .ok v := by
    intro key v h
    rw [PyValue.item, h]
  let m := loadedModel p threshold hnames
  have hsize : m.featureNames ≠ [] ∧ m.mean.length = m.featureNames.length ∧
      m.scale.length = m.featureNames.length :=
    ⟨m.featureNames_ne_nil, m.length_mean, m.length_scale⟩
  unfold MLPRepairModel.init
  rw [hschema, hitem hfeatures, hitem hstandardizer, hitem hlayers, hitem hthreshold]
  show (MLPRepairModel.floats (realOps ofString repr) (vectorValue (List.ofFn p.scaler.mean)) >>= _) = _
  rw [floats_vectorValue]
  show (MLPRepairModel.floats (realOps ofString repr) (vectorValue (List.ofFn p.scaler.scale)) >>= _) = _
  rw [floats_vectorValue]
  show (if hsize : m.featureNames ≠ [] ∧ m.mean.length = m.featureNames.length ∧
      m.scale.length = m.featureNames.length then _ else _) = _
  rw [dif_pos hsize]
  show (if hscale : ∀ s ∈ m.scale, s ≠ .fin 0 then _ else _) = _
  rw [dif_pos m.scale_ne_zero]
  rfl

/-! ### Standardized features -/

/-- The features hold the numbers of a vector under the names. -/
def Serves (features : List (String × PyValue ℝ)) (names : List String) (x : Fin names.length → ℝ) : Prop :=
  ∀ i, OrderedDict.get features (names.get i) = some (.float (.fin (x i)))

theorem standardize_loadedModel {names : List String} (p : Pipeline names.length) (threshold : ℝ)
    (hnames : names ≠ []) {features : List (String × PyValue ℝ)} {x : Fin names.length → ℝ}
    (hx : Serves features names x) :
    (loadedModel p threshold hnames).standardize (realOps ofString repr) features
      = .ok ((List.ofFn (p.scaler.transform x)).map .fin) := by
  have hzip : (names.map (PyValue.str (K := ℝ))).zip (((List.ofFn p.scaler.mean).map FloatValue.fin).zip
      ((List.ofFn p.scaler.scale).map FloatValue.fin))
      = List.ofFn fun i => (PyValue.str (names.get i),
        FloatValue.fin (p.scaler.mean i), FloatValue.fin (p.scaler.scale i)) := by
    refine List.ext_getElem (by simp) ?_
    intro k h₁ h₂
    simp
  rw [MLPRepairModel.standardize, loadedModel, hzip, List.map_ofFn]
  refine Except.mapM_ofFn ?_
  intro i
  have hfeature : MLPRepairModel.feature features (.str (names.get i)) = .ok (.float (.fin (x i))) := by
    rw [MLPRepairModel.feature, hx i]
  have hne : FloatValue.fin (p.scaler.scale i) ≠ .fin 0 := by
    intro h
    exact p.scaler.scale_ne_zero i (FloatValue.fin.inj h)
  rw [MLPRepairModel.standardizedValue, hfeature]
  show (realOps ofString repr).divide _ _ = _
  rw [FloatOps.divide, if_neg hne]
  rfl

/-- **The loaded model computes the probability of the pipeline.** -/
theorem predict_loadedModel {names : List String} (p : Pipeline names.length) (threshold : ℝ)
    (hnames : names ≠ []) {features : List (String × PyValue ℝ)} {x : Fin names.length → ℝ}
    (hx : Serves features names x) :
    (loadedModel p threshold hnames).predictRepairProbability (realOps ofString repr) features
      = .ok (.fin (p.repairProbability x)) := by
  have hfinite : ((List.ofFn (p.scaler.transform x)).map FloatValue.fin).all FloatValue.isFinite
      = true := by
    simp [FloatValue.isFinite]
  have hrun := runLayers_exported ofString repr p.network.2 p.network.1 (p.scaler.transform x)
  rw [← p.repairProbability_eq] at hrun
  rw [MLPRepairModel.predictRepairProbability, standardize_loadedModel ofString repr p threshold hnames hx]
  show (if ((List.ofFn (p.scaler.transform x)).map FloatValue.fin).all FloatValue.isFinite = true
    then _ else _) = _
  rw [if_pos hfinite]
  show (MLPRepairModel.runLayers (realOps ofString repr) (exportedLayers p.network.2 p.network.1)
    ((List.ofFn (p.scaler.transform x)).map .fin) >>= _) = _
  rw [hrun]
  rfl

theorem shouldRepair_loadedModel {names : List String} (p : Pipeline names.length) (threshold : ℝ)
    (hnames : names ≠ []) {features : List (String × PyValue ℝ)} {x : Fin names.length → ℝ}
    (hx : Serves features names x) :
    (loadedModel p threshold hnames).shouldRepair (realOps ofString repr) features
      = .ok (decide (threshold ≤ p.repairProbability x)) := by
  rw [MLPRepairModel.shouldRepair, predict_loadedModel ofString repr p threshold hnames hx]
  rfl

theorem featureNames_ne_nil {schema : SelectorFeatureSchema} (h : schema ∈ featureSchemas) :
    schema.featureNames ≠ [] := by
  rcases List.mem_pair.mp h with rfl | rfl
  · decide
  · decide

/-- **Every export is loaded.** -/
theorem init_exportSelector {schema : SelectorFeatureSchema} (h : schema.featureNames ≠ [])
    (p : Pipeline schema.featureNames.length) (threshold : ℝ)
    (operatingPoints reuseBudgetPoints : List (String × ℝ)) :
    ∃ artifact, exportSelector p (trainedReport schema threshold operatingPoints reuseBudgetPoints)
        = .ok artifact ∧
      MLPRepairModel.init (realOps ofString repr) artifact = .ok (loadedModel p threshold h) := by
  cases p with
  | logistic scaler classifier =>
      refine ⟨_, rfl, ?_⟩
      exact init_of_entries ofString repr (.logistic scaler classifier) threshold h rfl rfl rfl rfl rfl
  | mlp scaler classifier =>
      rw [exportSelector, exportMlpSelector, zipLayers_eq]
      refine ⟨_, rfl, ?_⟩
      exact init_of_entries ofString repr (.mlp scaler classifier) threshold h rfl rfl rfl rfl rfl

/-! ### Training and serving -/

/-- The features that the server sends with a candidate. -/
def servedFeatures (b : CandidateBlockFeatures) (c : CandidateContextFeatures) :
    List (String × PyValue ℝ) :=
  OrderedDict.mapValues (fun q : Rat => .float (.fin (q : ℝ))) (selectorFeatureRow b c)

theorem serves_featureVector {schema : SelectorFeatureSchema} (h : schema ∈ featureSchemas)
    (b : CandidateBlockFeatures) (c : CandidateContextFeatures) :
    Serves (OrderedDict.ofPairs (servedFeatures b c)) schema.featureNames
      (featureVector schema (featureFields b c)) := by
  intro i
  have hname := List.get_mem schema.featureNames i
  have hkeys : (OrderedDict.keys (servedFeatures b c)).Nodup := by
    rw [servedFeatures, OrderedDict.keys_mapValues, keys_selectorFeatureRow]
    decide
  obtain ⟨v, hv, -⟩ := readsFrom_featureFields h b c _ hname
  rw [OrderedDict.ofPairs_of_nodup hkeys, servedFeatures, OrderedDict.get_mapValues,
    get_selectorFeatureRow b c _ (mem_contextFeatureNames h hname), featureVector, fieldNumber, hv]
  rfl

/-- Without the context features a row has the same numbers for the smaller schema. -/
theorem featureVector_asdict (b : CandidateBlockFeatures) (c : CandidateContextFeatures) :
    (featureVector baselineFeatureSchema b.asdict : _ → ℝ)
      = featureVector baselineFeatureSchema (featureFields b c) := by
  funext i
  obtain ⟨v, hv, -⟩ := readsFrom_asdict b _ (List.get_mem _ i)
  rw [featureVector, featureVector, fieldNumber, fieldNumber, featureFields, OrderedDict.get_append, hv]
  rfl

/-- The row has the features of the schema: those of the context are in its table or not needed. -/
def Tabulates (row : SplitCandidateBlock) (schema : SelectorFeatureSchema)
    (c : CandidateContextFeatures) : Prop :=
  row.example_.contextFeatures = some c ∨
    row.example_.contextFeatures = none ∧ schema = baselineFeatureSchema

theorem Tabulates.fields {row : SplitCandidateBlock} {schema : SelectorFeatureSchema}
    {c : CandidateContextFeatures} (h : Tabulates row schema c) (hschema : schema ∈ featureSchemas) :
    schema.ReadsFrom row.example_.fields ∧ (featureVector schema row.example_.fields : _ → ℝ)
      = featureVector schema (featureFields row.example_.features c) := by
  rcases h with h | ⟨h, rfl⟩
  · rw [LabeledCandidateBlock.fields, h]
    exact ⟨readsFrom_featureFields hschema _ c, rfl⟩
  · rw [LabeledCandidateBlock.fields, h]
    exact ⟨readsFrom_asdict _, featureVector_asdict _ c⟩

/-- **Training and serving agree.**  For both schemas, every pipeline and every block, the row of the table is read as
the vector that the server sends by name, the export is loaded, and the loaded model repairs the block
exactly if the probability of the pipeline reaches the threshold. -/
theorem exportedSelector_decides {schema : SelectorFeatureSchema} (hschema : schema ∈ featureSchemas)
    (p : Pipeline schema.featureNames.length) (threshold : ℝ)
    (operatingPoints reuseBudgetPoints : List (String × ℝ)) (floatText : Rat → String)
    (row : SplitCandidateBlock) (c : CandidateContextFeatures) (hrow : Tabulates row schema c)
    (hback : ∀ f ∈ row.example_.fields, ReadsBack (realOps ofString repr) floatText f.2)
    (lineNumber : Nat) :
    ∃ (x : Fin schema.featureNames.length → ℝ) (artifact : List (String × PyValue ℝ))
      (m : MLPRepairModel ℝ),
      readRow (realOps ofString repr) schema lineNumber (flattenDatasetRow floatText row)
          = .ok ⟨row.split, List.ofFn fun i => .fin (x i), row.example_.label.decision = .repair⟩ ∧
      Serves (OrderedDict.ofPairs (servedFeatures row.example_.features c)) schema.featureNames x ∧
      exportSelector p (trainedReport schema threshold operatingPoints reuseBudgetPoints)
          = .ok artifact ∧
      MLPRepairModel.init (realOps ofString repr) artifact = .ok m ∧
      m.shouldRepair (realOps ofString repr)
          (OrderedDict.ofPairs (servedFeatures row.example_.features c))
        = .ok (decide (threshold ≤ p.repairProbability x)) := by
  obtain ⟨hfields, hvector⟩ := hrow.fields hschema
  have hserves := serves_featureVector hschema row.example_.features c
  obtain ⟨artifact, hexport, hinit⟩ := init_exportSelector ofString repr (featureNames_ne_nil hschema) p
    threshold operatingPoints reuseBudgetPoints
  have hread := readRow_flatten hschema row hfields hback lineNumber
  rw [exampleOf, hvector] at hread
  exact ⟨_, artifact, _, hread, hserves, hexport, hinit,
    shouldRepair_loadedModel ofString repr p threshold _ hserves⟩

end

/-! ### A small pipeline -/

/-- A block behind an insertion, at an index and with a displacement. -/
def movedFeatures (index displacement : Nat) : CandidateBlockFeatures where
  previousTokenCount := 64
  currentTokenCount := 80
  previousChangedTokenCount := 0
  currentChangedTokenCount := 16
  blockSize := 16
  candidateBlockIndex := index
  candidatePositionRatio := 1 / 2
  relativeBlockOffset := 1
  nearestChangedBlockDistance := 1
  sourceDisplacementBlocks := displacement
  candidateShareOfNativeRecompute := 1 / 4
  samePositionMatch := false
  requiresRepacking := true
  changedCandidateTokenOverlapRatio := 0
  introducedCandidateTokenOverlapRatio := 0
  removedCandidateTokenOverlapRatio := 0
  changedCandidateTokenJaccard := 0

def movedContext : CandidateContextFeatures where
  editSpanCount := 1
  editSpanCountBeforeCandidate := 1
  previousChangedTokensBeforeCandidate := 0
  currentChangedTokensBeforeCandidate := 16
  precedingContextMatchTokens := 0
  precedingMatchingRunBlocks := 1
  followingMatchingRunBlocks := 2
  matchingRunLengthBlocks := 4
  sourceOccurrenceCount := 2
  alignedSourceOccurrenceCount := 1

def movedRow (index displacement : Nat) : SplitCandidateBlock where
  example_ :=
    { traceId := "trace"
      transitionId := "transition"
      features := movedFeatures index displacement
      label := ⟨.repair, "changed"⟩
      labelSource := .counterfactualExecution
      contextFeatures := some movedContext }
  split := .train

/-- The texts of the numbers in these rows. -/
def numberTexts : List (String × Rat) :=
  [("0", 0), ("1", 1), ("2", 2), ("3", 3), ("4", 4), ("16", 16), ("64", 64), ("80", 80), ("0.0", 0), ("0.25", 1 / 4),
    ("0.5", 1 / 2), ("1.0", 1), ("3.0", 3)]

/-- How a float is printed. -/
def sampleFloatText (q : Rat) : String :=
  ((numberTexts.drop 8).find? fun entry => entry.2 = q).elim "" Prod.fst

/-- How a text is read. -/
noncomputable def sampleNumber (text : String) : Option (FloatValue ℝ) :=
  (OrderedDict.get numberTexts text).map fun q : Rat => .fin (q : ℝ)

theorem readsBack_of_numberTexts {v : FieldValue}
    (h : v.isBool = true ∨ OrderedDict.get numberTexts (fieldText sampleFloatText v) = some v.number) :
    ReadsBack (realOps sampleNumber fun _ => "") sampleFloatText v := by
  intro hbool
  rcases h with h | h
  · rw [h] at hbool
    cases hbool
  · change sampleNumber (fieldText sampleFloatText v) = _
    rw [sampleNumber, h, Option.map_some]

/-- The hidden units read the index of the block and its displacement, each over a scale of its own; the first speaks
for a repair and the second against it. -/
noncomputable def samplePipeline : Pipeline contextFeatureSchema.featureNames.length :=
  .mlp ⟨fun _ => 0, fun i => i + 1, fun i => (Nat.cast_add_one_pos (i : ℕ)).ne'⟩
    ⟨.hidden (fun i (j : Fin 2) => if (i : ℕ) = ![5, 9] j then 1 else 0) (fun _ => 0)
      (.output (fun j _ => ![1, -2] j) fun _ => 0), .relu⟩

theorem sum_indicator {n k : ℕ} (hk : k < n) (x : Fin n → ℝ) :
    ∑ i, x i * (if (i : ℕ) = k then 1 else 0) = x ⟨k, hk⟩ := by
  have hindex : ∀ i : Fin n, ((i : ℕ) = k) = (i = ⟨k, hk⟩) := fun i => by rw [Fin.ext_iff]
  simp only [hindex, mul_ite, mul_one, mul_zero, Finset.sum_ite_eq', Finset.mem_univ, if_true]

theorem repairProbability_samplePipeline (x : Fin contextFeatureSchema.featureNames.length → ℝ) :
    samplePipeline.repairProbability x
      = Real.sigmoid (max 0 (x ⟨5, by decide⟩ / 6) - 2 * max 0 (x ⟨9, by decide⟩ / 10)) := by
  rw [samplePipeline, Pipeline.repairProbability, MLPClassifier.predictProba]
  simp only [DenseNetwork.forward, DenseNetwork.affine, Pi.add_apply, Matrix.vecMul, dotProduct, Fin.sum_univ_two, activationFunction]
  rw [Matrix.cons_val_zero, Matrix.cons_val_one, sum_indicator (by decide), sum_indicator (by decide)]
  simp only [StandardScaler.transform]
  norm_num
  ring

theorem eq_of_serves {features : List (String × PyValue ℝ)} {names : List String} {x y : Fin names.length → ℝ}
    (hx : Serves features names x) (hy : Serves features names y) : x = y := by
  funext i
  exact FloatValue.fin.inj (PyValue.float.inj (Option.some.inj ((hx i).symm.trans (hy i))))

/-- The pipeline on such a block. -/
theorem repairProbability_moved (index displacement : Nat) :
    samplePipeline.repairProbability
        (featureVector contextFeatureSchema (featureFields (movedFeatures index displacement) movedContext))
      = Real.sigmoid (index / 6 - displacement / 5) := by
  have hindex : (featureVector contextFeatureSchema (featureFields (movedFeatures index displacement) movedContext) :
      _ → ℝ) ⟨5, by decide⟩ = index :=
    (Rat.cast_intCast (index : ℤ)).trans (Int.cast_natCast index)
  have hdisplacement : (featureVector contextFeatureSchema
      (featureFields (movedFeatures index displacement) movedContext) : _ → ℝ) ⟨9, by decide⟩ = displacement :=
    Rat.cast_natCast displacement
  rw [repairProbability_samplePipeline, hindex, hdisplacement, max_eq_right (by positivity),
    max_eq_right (by positivity)]
  exact congrArg Real.sigmoid (by ring)

/-- The first block is repaired and the second, with the two numbers exchanged, is not. -/
theorem exportedSelector_decides_moved :
    ∃ (artifact : List (String × PyValue ℝ)) (m : MLPRepairModel ℝ),
      exportSelector samplePipeline (trainedReport contextFeatureSchema (1 / 2) [] []) = .ok artifact ∧
      MLPRepairModel.init (realOps sampleNumber fun _ => "") artifact = .ok m ∧
      m.shouldRepair (realOps sampleNumber fun _ => "")
          (OrderedDict.ofPairs (servedFeatures (movedFeatures 3 1) movedContext)) = .ok true ∧
      m.shouldRepair (realOps sampleNumber fun _ => "")
          (OrderedDict.ofPairs (servedFeatures (movedFeatures 1 3) movedContext)) = .ok false := by
  have hschema : contextFeatureSchema ∈ featureSchemas := List.mem_pair.mpr (Or.inr rfl)
  have hback : ∀ row ∈ [movedRow 3 1, movedRow 1 3], ∀ f ∈ row.example_.fields,
      ReadsBack (realOps sampleNumber fun _ => "") sampleFloatText f.2 := by
    have hall : ∀ row ∈ [movedRow 3 1, movedRow 1 3], ∀ f ∈ row.example_.fields, f.2.isBool = true ∨
        OrderedDict.get numberTexts (fieldText sampleFloatText f.2) = some f.2.number := by
      decide +kernel
    exact fun row hrow f hf => readsBack_of_numberTexts (hall row hrow f hf)
  obtain ⟨x, artifact, m, -, hx, hexport, hinit, hrepairs⟩ := exportedSelector_decides sampleNumber (fun _ => "")
    hschema samplePipeline (1 / 2) [] [] sampleFloatText (movedRow 3 1) movedContext (Or.inl rfl)
    (hback _ List.mem_cons_self) 2
  obtain ⟨y, artifact', m', -, hy, hexport', hinit', hkeeps⟩ := exportedSelector_decides sampleNumber (fun _ => "")
    hschema samplePipeline (1 / 2) [] [] sampleFloatText (movedRow 1 3) movedContext (Or.inl rfl)
    (hback _ (List.mem_cons_of_mem _ List.mem_cons_self)) 3
  obtain rfl := Except.ok.inj (hexport.symm.trans hexport')
  obtain rfl := Except.ok.inj (hinit.symm.trans hinit')
  refine ⟨artifact, m, hexport, hinit, hrepairs.trans (congrArg Except.ok ?_), hkeeps.trans (congrArg Except.ok ?_)⟩
  · rw [eq_of_serves hx (serves_featureVector hschema _ movedContext), movedRow, repairProbability_moved,
      decide_eq_true_iff, one_div, ← Real.sigmoid_zero, Real.sigmoid_le_iff]
    norm_num
  · rw [eq_of_serves hy (serves_featureVector hschema _ movedContext), movedRow, repairProbability_moved,
      decide_eq_false_iff_not, one_div, ← Real.sigmoid_zero, Real.sigmoid_le_iff]
    norm_num

end CacheSelect.Benchmarks
