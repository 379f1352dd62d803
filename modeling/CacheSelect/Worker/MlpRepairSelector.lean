import CacheSelect.Worker.MlpRepairModel
import CacheSelect.Worker.ReuseWork

/-! # The repair selector of an exported model

`MLPRepairSelector.select` repairs a candidate if the model says so or if its evaluation raises one of four
exceptions.  A row of weights that ends too early raises a fifth one, and a value that is no probability is compared
like any other.

`failClosed_of_safeFile` says which model files miss nothing, whatever the features are: no row is read beyond its
end (`BeyondRow`), and a file with one value ends in a logistic layer and has a real threshold, or has a layer
and a threshold not above one (`Guarded`).  A file outside of it may still miss nothing for some features, by the value that
its network happens to have there.
-/

namespace CacheSelect.Worker

open CacheSelect.Core

/-! ### The selector -/

/-- A candidate with its features as the program has them, numbers or not. -/
structure FeaturedCandidate where
  candidate : ResolvedPartialReuseCandidate
  features : List (String × PyValue) := []

namespace MLPRepairSelector

variable (ops : FloatOps) (m : MLPRepairModel)

/-- Whether a candidate is kept for repair. -/
def repairs (c : FeaturedCandidate) : Except PyError Bool :=
  match m.shouldRepair ops (OrderedDict.ofPairs c.features) with
  | .ok repair => .ok repair
  | .error e => if PyError.isCaughtByMlp e then .ok true else .error e

/-- The loop of `select`. -/
def selected : List FeaturedCandidate → Except PyError (List FeaturedCandidate)
  | [] => .ok []
  | c :: rest =>
      if c.candidate.requiresRepair = false then selected rest
      else do
        let repair ← repairs ops m c
        let cs ← selected rest
        .ok (if repair then c :: cs else cs)

def select (candidates : List FeaturedCandidate) (blockSize : Nat) :
    Except PyError (List PartialReuseRepairInstruction) := do
  let cs ← selected ops m candidates
  buildFullBlockRepairInstructions (cs.map FeaturedCandidate.candidate) blockSize

end MLPRepairSelector

/-! ### What the evaluation raises -/

/-- An exception that `select` turns into a repair. -/
def Caught (e : PyError) : Prop :=
  PyError.isCaughtByMlp e = true

theorem caught_keyError : Caught .keyError := rfl

theorem caught_typeError : Caught .typeError := rfl

theorem caught_valueError (message : String) : Caught (.valueError message) := rfl

theorem caught_overflowError : Caught .overflowError := rfl

theorem not_caught_indexError : ¬ Caught .indexError := by
  rw [Caught]
  decide

namespace PyValue

/-- Indexing at `column` meets the end of a list or of a text. -/
def EndsBefore (x : PyValue) (column : Nat) : Prop :=
  (∃ xs, x = .list xs ∧ xs.length ≤ column) ∨ ∃ s, x = .str s ∧ s.toList.length ≤ column

theorem item_caught (x : PyValue) (key : String) : (x.item key).ErrorsIn Caught := by
  unfold item
  split
  · split
    · exact Except.errorsIn_ok _
    · exact Except.errorsIn_error caught_keyError
  · exact Except.errorsIn_error caught_typeError

theorem elements_caught (x : PyValue) : x.elements.ErrorsIn Caught := by
  unfold elements
  split
  · exact Except.errorsIn_ok _
  · exact Except.errorsIn_ok _
  · exact Except.errorsIn_ok _
  · exact Except.errorsIn_error caught_typeError

theorem entry_eq_indexError_iff {x : PyValue} {column : Nat} :
    x.entry column = .error .indexError ↔ x.EndsBefore column := by
  cases x with
  | list xs =>
      rw [entry, EndsBefore]
      cases hx : xs[column]? with
      | none => simpa using List.getElem?_eq_none_iff.mp hx
      | some v => simpa using (List.getElem?_eq_some_iff.mp hx).1
  | str s =>
      rw [entry, EndsBefore]
      cases hx : s.toList[column]? with
      | none => simpa using List.getElem?_eq_none_iff.mp hx
      | some v => simpa using (List.getElem?_eq_some_iff.mp hx).1
  | none => simp [entry, EndsBefore]
  | bool b => simp [entry, EndsBefore]
  | int n => simp [entry, EndsBefore]
  | float x => simp [entry, EndsBefore]
  | dict fields => simp [entry, EndsBefore]

/-- Indexing by a number raises what `select` catches, or meets the end. -/
theorem entry_errors (x : PyValue) (column : Nat) :
    (x.entry column).ErrorsIn fun e => Caught e ∨ e = .indexError := by
  unfold entry
  split
  · split
    · exact Except.errorsIn_ok _
    · exact Except.errorsIn_error (Or.inr rfl)
  · split
    · exact Except.errorsIn_ok _
    · exact Except.errorsIn_error (Or.inr rfl)
  · exact Except.errorsIn_error (Or.inl caught_keyError)
  · exact Except.errorsIn_error (Or.inl caught_typeError)

end PyValue

theorem FloatOps.toFloat_caught (ops : FloatOps) (x : PyValue) : (ops.toFloat x).ErrorsIn Caught := by
  unfold FloatOps.toFloat
  split
  · exact Except.errorsIn_ok _
  · split
    · exact Except.errorsIn_ok _
    · exact Except.errorsIn_error caught_overflowError
  · exact Except.errorsIn_ok _
  · split
    · exact Except.errorsIn_ok _
    · exact Except.errorsIn_error (caught_valueError _)
  · exact Except.errorsIn_error caught_typeError

namespace MLPRepairModel

variable (ops : FloatOps)

theorem weight_errors (column : Nat) (row : PyValue) :
    (weight ops column row).ErrorsIn fun e => Caught e ∨ e = .indexError :=
  (row.entry_errors column).bind fun x _ e he => Or.inl (ops.toFloat_caught x e he)

theorem weight_eq_indexError_iff {column : Nat} {row : PyValue} :
    weight ops column row = .error .indexError ↔ row.EndsBefore column := by
  rw [← PyValue.entry_eq_indexError_iff, weight, Except.bind_eq_error]
  refine ⟨?_, Or.inl⟩
  rintro (h | ⟨x, -, h⟩)
  · exact h
  · exact absurd (ops.toFloat_caught x _ h) not_caught_indexError

theorem readColumn_errors (rows : List PyValue) (column : Nat) (offset : PyValue) :
    (readColumn ops rows column offset).ErrorsIn fun e => Caught e ∨ e = .indexError := by
  refine (Except.ErrorsIn.mapM fun row _ => weight_errors ops column row).bind fun ws _ => ?_
  refine Except.ErrorsIn.bind (fun e he => Or.inl (ops.toFloat_caught offset e he)) fun b _ => ?_
  exact Except.errorsIn_ok _

theorem readActivation_caught (activation : PyValue) :
    (readActivation ops activation).ErrorsIn Caught := by
  unfold readActivation
  split
  · exact Except.errorsIn_ok _
  · exact Except.errorsIn_ok _
  · exact Except.errorsIn_error (caught_valueError _)

theorem readLayer_errors (layer : PyValue) (n : Nat) :
    (readLayer ops layer n).ErrorsIn fun e => Caught e ∨ e = .indexError := by
  refine Except.ErrorsIn.bind (fun e he => Or.inl (layer.item_caught _ e he)) fun weights _ => ?_
  refine Except.ErrorsIn.bind (fun e he => Or.inl (layer.item_caught _ e he)) fun bias _ => ?_
  refine Except.ErrorsIn.bind (fun e he => Or.inl (weights.elements_caught e he)) fun rows _ => ?_
  split
  · exact Except.errorsIn_error (Or.inl (caught_valueError _))
  · refine Except.ErrorsIn.bind (fun e he => Or.inl (bias.elements_caught e he)) fun offsets _ => ?_
    refine (Except.ErrorsIn.mapM fun p _ => readColumn_errors ops rows p.2 p.1).bind fun cs _ => ?_
    refine Except.ErrorsIn.bind (fun e he => Or.inl (layer.item_caught _ e he)) fun a _ => ?_
    refine Except.ErrorsIn.bind (fun e he => Or.inl (readActivation_caught ops a e he)) fun a' _ => ?_
    exact Except.errorsIn_ok _

theorem readNetwork_errors : ∀ (layers : List PyValue) (n : Nat),
    (readNetwork ops layers n).ErrorsIn fun e => Caught e ∨ e = .indexError := by
  intro layers
  induction layers with
  | nil => intro n; exact Except.errorsIn_ok _
  | cons layer layers ih =>
      intro n
      refine (readLayer_errors ops layer n).bind fun l _ => ?_
      refine (ih _).bind fun ls _ => ?_
      exact Except.errorsIn_ok _

/-- The rows of weights and the biases of a layer for `n` values. -/
def HasParts (layer : PyValue) (n : Nat) (rows offsets : List PyValue) : Prop :=
  (∃ weights, layer.item "weights" = .ok weights ∧ weights.elements = .ok rows) ∧
    (∃ bias, layer.item "bias" = .ok bias ∧ bias.elements = .ok offsets) ∧ rows.length = n

/-- The entries of a column and its bias are numbers. -/
def Readable (rows : List PyValue) (p : PyValue × Nat) : Prop :=
  ∃ c, readColumn ops rows p.2 p.1 = .ok c

/-- A layer asks a row for an entry beyond its end: up to that entry, column by column and row by row, it
holds numbers. -/
def ShortRow (layer : PyValue) (n : Nat) : Prop :=
  ∃ rows offsets, HasParts layer n rows offsets ∧
    ∃ front offset column rest, offsets.zipIdx = front ++ (offset, column) :: rest ∧
      (∀ p ∈ front, Readable ops rows p) ∧
      ∃ above row below, rows = above ++ row :: below ∧
        (∀ r ∈ above, ∃ w, weight ops column r = .ok w) ∧ row.EndsBefore column

/-- One of the layers does so, and the layers before it can be evaluated. -/
inductive BeyondRow : List PyValue → Nat → Prop
  | here {layer : PyValue} {layers : List PyValue} {n : Nat} :
      ShortRow ops layer n → BeyondRow (layer :: layers) n
  | later {layer : PyValue} {layers : List PyValue} {n : Nat} {l : DenseLayer} :
      readLayer ops layer n = .ok l → BeyondRow layers l.columns.length →
        BeyondRow (layer :: layers) n

theorem readColumn_eq_indexError_iff {rows : List PyValue} {column : Nat} {offset : PyValue} :
    readColumn ops rows column offset = .error .indexError ↔
      ∃ above row below, rows = above ++ row :: below ∧
        (∀ r ∈ above, ∃ w, weight ops column r = .ok w) ∧ row.EndsBefore column := by
  rw [readColumn, Except.bind_eq_error, Except.mapM_eq_error_iff]
  constructor
  · rintro (⟨above, row, below, h, habove, hrow⟩ | ⟨ws, -, h⟩)
    · exact ⟨above, row, below, h, habove, (weight_eq_indexError_iff ops).mp hrow⟩
    · rcases Except.bind_eq_error.mp h with h | ⟨b, -, h⟩
      · exact absurd (ops.toFloat_caught offset _ h) not_caught_indexError
      · cases h
  · rintro ⟨above, row, below, h, habove, hrow⟩
    exact Or.inl ⟨above, row, below, h, habove, (weight_eq_indexError_iff ops).mpr hrow⟩

theorem readLayer_eq_indexError_iff {layer : PyValue} {n : Nat} :
    readLayer ops layer n = .error .indexError ↔ ShortRow ops layer n := by
  constructor
  · intro h
    rcases Except.bind_eq_error.mp h with h | ⟨weights, hweights, h⟩
    · exact absurd (layer.item_caught _ _ h) not_caught_indexError
    rcases Except.bind_eq_error.mp h with h | ⟨bias, hbias, h⟩
    · exact absurd (layer.item_caught _ _ h) not_caught_indexError
    rcases Except.bind_eq_error.mp h with h | ⟨rows, hrows, h⟩
    · exact absurd (weights.elements_caught _ h) not_caught_indexError
    split at h
    · cases h
    · next hlen =>
        rcases Except.bind_eq_error.mp h with h | ⟨offsets, hoffsets, h⟩
        · exact absurd (bias.elements_caught _ h) not_caught_indexError
        refine ⟨rows, offsets, ⟨⟨weights, hweights, hrows⟩, ⟨bias, hbias, hoffsets⟩,
          not_not.mp hlen⟩, ?_⟩
        rcases Except.bind_eq_error.mp h with h | ⟨columns, -, h⟩
        · obtain ⟨front, ⟨offset, column⟩, rest, hsplit, hfront, hcolumn⟩ :=
            Except.mapM_eq_error_iff.mp h
          exact ⟨front, offset, column, rest, hsplit, hfront,
            (readColumn_eq_indexError_iff ops).mp hcolumn⟩
        · rcases Except.bind_eq_error.mp h with h | ⟨activation, -, h⟩
          · exact absurd (layer.item_caught _ _ h) not_caught_indexError
          rcases Except.bind_eq_error.mp h with h | ⟨a, -, h⟩
          · exact absurd (readActivation_caught ops activation _ h) not_caught_indexError
          · cases h
  · rintro ⟨rows, offsets, ⟨⟨weights, hweights, hrows⟩, ⟨bias, hbias, hoffsets⟩, hlen⟩, front, offset,
      column, rest, hsplit, hfront, hcolumn⟩
    have hread : (offsets.zipIdx.mapM fun p => readColumn ops rows p.2 p.1) = .error .indexError :=
      Except.mapM_eq_error_iff.mpr ⟨front, (offset, column), rest, hsplit, hfront,
        (readColumn_eq_indexError_iff ops).mpr hcolumn⟩
    rw [readLayer, hweights]
    show (layer.item "bias" >>= _) = _
    rw [hbias]
    show (weights.elements >>= _) = _
    rw [hrows]
    show (if rows.length ≠ n then _ else _) = _
    rw [if_neg (not_not.mpr hlen), hoffsets]
    show ((offsets.zipIdx.mapM fun p => readColumn ops rows p.2 p.1) >>= _) = _
    rw [hread]
    rfl

/-- **When the evaluation reads beyond a row.** -/
theorem readNetwork_eq_indexError_iff : ∀ {layers : List PyValue} {n : Nat},
    readNetwork ops layers n = .error .indexError ↔ BeyondRow ops layers n := by
  intro layers
  induction layers with
  | nil =>
      intro n
      exact ⟨nofun, nofun⟩
  | cons layer layers ih =>
      intro n
      rw [readNetwork, Except.bind_eq_error]
      constructor
      · rintro (h | ⟨l, hl, h⟩)
        · exact .here ((readLayer_eq_indexError_iff ops).mp h)
        · rcases Except.bind_eq_error.mp h with h | ⟨ls, -, h⟩
          · exact .later hl (ih.mp h)
          · cases h
      · intro h
        cases h with
        | here h => exact Or.inl ((readLayer_eq_indexError_iff ops).mpr h)
        | later hl h => exact Or.inr ⟨_, hl, Except.bind_eq_error.mpr (Or.inl (ih.mpr h))⟩

/-! ### One candidate -/

/-- The features are there, and are finite once they are standardized. -/
def Standardized (m : MLPRepairModel) (features : List (String × PyValue)) (xs : List FloatValue) :
    Prop :=
  m.standardize ops features = .ok xs ∧ xs.all FloatValue.isFinite = true

theorem feature_caught (features : List (String × PyValue)) (name : PyValue) :
    (feature features name).ErrorsIn Caught := by
  unfold feature
  split
  · split
    · exact Except.errorsIn_ok _
    · exact Except.errorsIn_error caught_keyError
  · exact Except.errorsIn_error caught_typeError
  · exact Except.errorsIn_error caught_typeError
  · exact Except.errorsIn_error caught_keyError

/-- The constructor's check keeps the division from raising. -/
theorem standardize_caught (m : MLPRepairModel) (features : List (String × PyValue)) :
    (m.standardize ops features).ErrorsIn Caught := by
  refine Except.ErrorsIn.mapM ?_
  rintro ⟨name, mean, scale⟩ hp
  have hscale : scale ≠ .fin 0 := m.scale_ne_zero scale (List.of_mem_zip (List.of_mem_zip hp).2).2
  refine (feature_caught features name).bind fun x _ => ?_
  refine (ops.toFloat_caught x).bind fun v _ => ?_
  rw [FloatOps.divide, if_neg hscale]
  exact Except.errorsIn_ok _

theorem length_of_standardize {m : MLPRepairModel} {features : List (String × PyValue)}
    {xs : List FloatValue} (h : m.standardize ops features = .ok xs) :
    xs.length = m.featureNames.length := by
  have hlen := (Except.mapM_eq_ok_iff.mp h).length_eq
  rw [List.length_zip, List.length_zip, m.length_mean, m.length_scale, Nat.min_self,
    Nat.min_self] at hlen
  exact hlen.symm

theorem outputValue_eq_ok_iff {values : List FloatValue} {p : FloatValue} :
    outputValue values = .ok p ↔ ∃ q : Rat, p = .fin q ∧ values = [.fin q] := by
  unfold outputValue
  split
  · next v =>
      cases v with
      | fin q => simp [FloatValue.isFinite, eq_comm]
      | nan => simp [FloatValue.isFinite]
      | posInf => simp [FloatValue.isFinite]
      | negInf => simp [FloatValue.isFinite]
  · next hne =>
      refine ⟨fun h => ?_, ?_⟩
      · cases h
      · rintro ⟨q, -, h⟩
        exact absurd h (hne _)

theorem outputValue_caught (values : List FloatValue) : (outputValue values).ErrorsIn Caught := by
  unfold outputValue
  split
  · split
    · exact Except.errorsIn_ok _
    · exact Except.errorsIn_error (caught_valueError _)
  · exact Except.errorsIn_error (caught_valueError _)

/-- With features that are no numbers the evaluation raises what `select` catches. -/
theorem predict_of_not_standardized {m : MLPRepairModel} {features : List (String × PyValue)}
    (h : ∀ xs, ¬ m.Standardized ops features xs) :
    ∃ e, m.predictRepairProbability ops features = .error e ∧ Caught e := by
  rw [predictRepairProbability]
  cases hs : m.standardize ops features with
  | error e => exact ⟨e, rfl, m.standardize_caught ops features e hs⟩
  | ok xs =>
      have hfinite : ¬ xs.all FloatValue.isFinite = true := fun hall => h xs ⟨hs, hall⟩
      exact ⟨_, if_neg hfinite, caught_valueError _⟩

/-- With numbers it reads the network, and then computes. -/
theorem predict_of_standardized {m : MLPRepairModel} {features : List (String × PyValue)}
    {xs : List FloatValue} (h : m.Standardized ops features xs) :
    m.predictRepairProbability ops features
      = readNetwork ops m.layers m.featureNames.length >>= fun net =>
        outputValue (DenseLayer.evalAll ops net xs) := by
  rw [predictRepairProbability, h.1]
  show (if _ then _ else _) = _
  rw [if_pos h.2, runLayers_eq, length_of_standardize ops h.1]
  cases readNetwork ops m.layers m.featureNames.length <;> rfl

/-- **What the model returns.** -/
theorem predict_eq_ok_iff {m : MLPRepairModel} {features : List (String × PyValue)} {p : FloatValue} :
    m.predictRepairProbability ops features = .ok p ↔ ∃ xs net, ∃ q : Rat,
      m.Standardized ops features xs ∧ readNetwork ops m.layers m.featureNames.length = .ok net ∧
        DenseLayer.evalAll ops net xs = [.fin q] ∧ p = .fin q := by
  constructor
  · intro h
    by_cases hs : ∃ xs, m.Standardized ops features xs
    · obtain ⟨xs, hs⟩ := hs
      rw [predict_of_standardized ops hs] at h
      obtain ⟨net, hnet, h⟩ := Except.bind_eq_ok.mp h
      obtain ⟨q, hq, he⟩ := outputValue_eq_ok_iff.mp h
      exact ⟨xs, net, q, hs, hnet, he, hq⟩
    · obtain ⟨e, he, -⟩ := predict_of_not_standardized ops fun xs hx => hs ⟨xs, hx⟩
      rw [he] at h
      cases h
  · rintro ⟨xs, net, q, hs, hnet, he, rfl⟩
    rw [predict_of_standardized ops hs, hnet]
    exact outputValue_eq_ok_iff.mpr ⟨q, rfl, he⟩

/-- **What escapes.**  Only a row that ends too early raises what `select` does not catch. -/
theorem predict_error_iff {m : MLPRepairModel} {features : List (String × PyValue)} :
    (∃ e, m.predictRepairProbability ops features = .error e ∧ ¬ Caught e) ↔
      (∃ xs, m.Standardized ops features xs) ∧ BeyondRow ops m.layers m.featureNames.length := by
  constructor
  · rintro ⟨e, he, hc⟩
    by_cases hs : ∃ xs, m.Standardized ops features xs
    · refine ⟨hs, ?_⟩
      obtain ⟨xs, hs⟩ := hs
      rw [predict_of_standardized ops hs] at he
      rcases Except.bind_eq_error.mp he with he | ⟨net, -, he⟩
      · rcases readNetwork_errors ops m.layers _ e he with hcaught | rfl
        · exact absurd hcaught hc
        · exact (readNetwork_eq_indexError_iff ops).mp he
      · exact absurd (outputValue_caught _ e he) hc
    · obtain ⟨e', he', hc'⟩ := predict_of_not_standardized ops fun xs hx => hs ⟨xs, hx⟩
      rw [he] at he'
      cases he'
      exact absurd hc' hc
  · rintro ⟨⟨xs, hs⟩, hb⟩
    refine ⟨.indexError, ?_, not_caught_indexError⟩
    rw [predict_of_standardized ops hs, (readNetwork_eq_indexError_iff ops).mpr hb]
    rfl

/-! ### The value and the threshold -/

/-- The last layer is a logistic one. -/
def EndsLogistic (layers : List PyValue) : Prop :=
  ∃ last, layers.getLast? = some last ∧ last.item "activation" = .ok (.str "logistic")

/-- The model file alone makes sure of the comparison: its threshold is a number and its last layer logistic, or it has a
layer and its threshold is not above one, or every number reaches its threshold. -/
def Guarded (m : MLPRepairModel) : Prop :=
  (∃ t, m.repairThreshold = .fin t) ∧ EndsLogistic m.layers ∨
    m.layers ≠ [] ∧ m.repairThreshold.le (.fin 1) = true ∨ m.repairThreshold = .negInf

/-- How many values the layers give for `n` features. -/
def outputWidth (net : List DenseLayer) (n : Nat) : Nat :=
  match net.getLast? with
  | some l => l.columns.length
  | none => n

/-- The file gives one value for its features: its layers can be read, and the last of them has one column. -/
def OneValued (m : MLPRepairModel) : Prop :=
  ∃ net, readNetwork ops m.layers m.featureNames.length = .ok net ∧
    outputWidth net m.featureNames.length = 1

/-- What the file has to say for itself: no row of weights ends too early, and a file with one value guards the comparison. -/
def SafeFile (m : MLPRepairModel) : Prop :=
  ¬ BeyondRow ops m.layers m.featureNames.length ∧ (m.OneValued ops → m.Guarded)

/-- The network's values are those of its last layer. -/
theorem evalAll_last : ∀ {layers : List PyValue} {n : Nat} {net : List DenseLayer} {last : PyValue},
    readNetwork ops layers n = .ok net → layers.getLast? = some last → ∀ xs : List FloatValue,
      ∃ n' l values, readLayer ops last n' = .ok l ∧ DenseLayer.evalAll ops net xs = l.eval ops values := by
  intro layers
  induction layers with
  | nil =>
      intro n net last _ hlast
      cases hlast
  | cons layer layers ih =>
      intro n net last h hlast xs
      obtain ⟨l, hl, h⟩ := Except.bind_eq_ok.mp h
      obtain ⟨ls, hls, h⟩ := Except.bind_eq_ok.mp h
      cases h
      cases layers with
      | nil =>
          cases hlast
          cases hls
          exact ⟨n, l, xs, hl, rfl⟩
      | cons layer' layers =>
          rw [List.getLast?_cons_cons] at hlast
          exact ih hls hlast (l.eval ops xs)

theorem readLayer_activation {layer activation : PyValue} {n : Nat} {l : DenseLayer}
    (h : readLayer ops layer n = .ok l) (ha : layer.item "activation" = .ok activation) :
    readActivation ops activation = .ok l.activation := by
  obtain ⟨weights, -, h⟩ := Except.bind_eq_ok.mp h
  obtain ⟨bias, -, h⟩ := Except.bind_eq_ok.mp h
  obtain ⟨rows, -, h⟩ := Except.bind_eq_ok.mp h
  split at h
  · cases h
  · obtain ⟨offsets, -, h⟩ := Except.bind_eq_ok.mp h
    obtain ⟨columns, -, h⟩ := Except.bind_eq_ok.mp h
    obtain ⟨activation', ha', h⟩ := Except.bind_eq_ok.mp h
    obtain ⟨a, hread, h⟩ := Except.bind_eq_ok.mp h
    cases h
    cases ha.symm.trans ha'
    exact hread

/-- A number among the values of a layer is not below zero, and after a logistic activation not above one. -/
theorem fin_of_eval {l : DenseLayer} {values : List FloatValue} {q : Rat}
    (h : l.eval ops values = [.fin q]) : 0 ≤ q ∧ (l.activation = .logistic → q ≤ 1) := by
  have hmem : FloatValue.fin q ∈ l.eval ops values := h ▸ List.mem_singleton_self _
  obtain ⟨v, -, hv⟩ := List.mem_map.mp hmem
  cases ha : l.activation with
  | relu =>
      rw [ha] at hv
      have hzero := zero_le_relu v
      rw [show relu v = .fin q from hv, FloatValue.le_fin_fin, decide_eq_true_eq] at hzero
      exact ⟨hzero, nofun⟩
  | logistic =>
      rw [ha] at hv
      rcases ops.logisticValue_range v with hnan | hunit
      · cases hnan.symm.trans hv
      · rw [show ops.logisticValue v = .fin q from hv, FloatValue.inUnit_fin] at hunit
        exact ⟨hunit.1, fun _ => hunit.2⟩

/-- The model compares a probability with a threshold that is a number. -/
def Compares (m : MLPRepairModel) (features : List (String × PyValue)) : Prop :=
  ∃ p t : Rat, m.predictRepairProbability ops features = .ok (.fin p) ∧ 0 ≤ p ∧ p ≤ 1 ∧
    m.repairThreshold = .fin t

/-- The width that the file gives is that of its values. -/
theorem length_evalAll : ∀ (net : List DenseLayer) (xs : List FloatValue),
    (DenseLayer.evalAll ops net xs).length = outputWidth net xs.length := by
  intro net
  induction net with
  | nil => intro xs; rfl
  | cons l net ih =>
      intro xs
      rw [DenseLayer.evalAll, ih, l.length_eval ops xs]
      cases net with
      | nil => rfl
      | cons l' net => rfl

/-- A value comes from a file that gives one. -/
theorem oneValued_of_predict {m : MLPRepairModel} {features : List (String × PyValue)} {p : FloatValue}
    (h : m.predictRepairProbability ops features = .ok p) : m.OneValued ops := by
  obtain ⟨xs, net, q, hs, hnet, hq, -⟩ := (predict_eq_ok_iff ops).mp h
  have hlen := length_evalAll ops net xs
  rw [hq, length_of_standardize ops hs.1] at hlen
  exact ⟨net, hnet, hlen.symm⟩

/-- A logistic last layer gives a probability. -/
theorem compares_of_endsLogistic {m : MLPRepairModel} {features : List (String × PyValue)}
    {p : FloatValue} (hp : m.predictRepairProbability ops features = .ok p)
    (ht : ∃ t, m.repairThreshold = .fin t) (hend : EndsLogistic m.layers) : m.Compares ops features := by
  obtain ⟨xs, net, q, -, hnet, hq, rfl⟩ := (predict_eq_ok_iff ops).mp hp
  obtain ⟨last, hlast, hact⟩ := hend
  obtain ⟨n, l, values, hl, he⟩ := evalAll_last ops hnet hlast xs
  have hlogistic : l.activation = .logistic :=
    (Except.ok.inj (readLayer_activation ops hl hact)).symm
  have hrange := fin_of_eval ops (he ▸ hq)
  obtain ⟨t, ht⟩ := ht
  exact ⟨q, t, hp, hrange.1, hrange.2 hlogistic, ht⟩

/-- After a layer a value is not below zero; above one it reaches a threshold that is not. -/
theorem reaches_or_compares_of_le {m : MLPRepairModel} {features : List (String × PyValue)}
    {p : FloatValue} (hp : m.predictRepairProbability ops features = .ok p)
    (hne : m.layers ≠ []) (hle : m.repairThreshold.le (.fin 1) = true) :
    m.repairThreshold.le p = true ∨ m.Compares ops features := by
  obtain ⟨xs, net, q, -, hnet, hq, rfl⟩ := (predict_eq_ok_iff ops).mp hp
  obtain ⟨n, l, values, -, he⟩ := evalAll_last ops hnet (List.getLast?_eq_some_getLast hne) xs
  have hzero := (fin_of_eval ops (he ▸ hq)).1
  cases hm : m.repairThreshold with
  | nan => rw [hm] at hle; cases hle
  | posInf => rw [hm] at hle; cases hle
  | negInf => exact Or.inl rfl
  | fin t =>
      rw [hm, FloatValue.le_fin_fin, decide_eq_true_eq] at hle
      by_cases hone : q ≤ 1
      · exact Or.inr ⟨q, t, hp, hzero, hone, hm⟩
      · refine Or.inl ?_
        rw [FloatValue.le_fin_fin, decide_eq_true_eq]
        exact le_trans hle (le_of_lt (not_le.mp hone))

/-- **A guarded model passes nothing over.** -/
theorem Guarded.reaches_or_compares {m : MLPRepairModel} (h : m.Guarded)
    {features : List (String × PyValue)} {p : FloatValue}
    (hp : m.predictRepairProbability ops features = .ok p) :
    m.repairThreshold.le p = true ∨ m.Compares ops features := by
  rcases h with ⟨ht, hend⟩ | ⟨hne, hle⟩ | hneg
  · exact Or.inr (compares_of_endsLogistic ops hp ht hend)
  · exact reaches_or_compares_of_le ops hp hne hle
  · obtain ⟨-, -, q, -, -, -, rfl⟩ := (predict_eq_ok_iff ops).mp hp
    rw [hneg]
    exact Or.inl rfl

end MLPRepairModel

/-! ### The whole selection -/

namespace MLPRepairSelector

variable (ops : FloatOps) (m : MLPRepairModel)

/-- The selection raises nothing and marks every repairable candidate whose model value is no comparison of a probability with
a real threshold. -/
def FailClosed (candidates : List FeaturedCandidate) (blockSize : Nat) : Prop :=
  ∃ cs instructions, selected ops m candidates = .ok cs ∧
    select ops m candidates blockSize = .ok instructions ∧
    ∀ c ∈ candidates, c.candidate.requiresRepair = true →
      ¬ m.Compares ops (OrderedDict.ofPairs c.features) →
        c ∈ cs ∧ ∃ r ∈ instructions, r.targetBlockIndex = c.candidate.targetBlockIndex ∧
          r.targetTokenIndices = List.range' (c.candidate.targetBlockIndex * blockSize) blockSize

theorem repairs_of_ok {c : FeaturedCandidate} {p : FloatValue}
    (h : m.predictRepairProbability ops (OrderedDict.ofPairs c.features) = .ok p) :
    repairs ops m c = .ok (m.repairThreshold.le p) := by
  rw [repairs, MLPRepairModel.shouldRepair, h]
  rfl

theorem repairs_of_error {c : FeaturedCandidate} {e : PyError}
    (h : m.predictRepairProbability ops (OrderedDict.ofPairs c.features) = .error e) :
    repairs ops m c = if PyError.isCaughtByMlp e then .ok true else .error e := by
  rw [repairs, MLPRepairModel.shouldRepair, h]
  rfl

/-- What one candidate needs: the decision is made, and is a repair where there is no comparison. -/
def Decided (c : FeaturedCandidate) : Prop :=
  ∃ repair, repairs ops m c = .ok repair ∧
    (¬ m.Compares ops (OrderedDict.ofPairs c.features) → repair = true)

/-- **When a decision is made at all.** -/
theorem repairs_ok_iff (c : FeaturedCandidate) :
    (∃ repair, repairs ops m c = .ok repair) ↔
      ((∃ xs, m.Standardized ops (OrderedDict.ofPairs c.features) xs) →
        ¬ MLPRepairModel.BeyondRow ops m.layers m.featureNames.length) := by
  rw [← not_and, ← MLPRepairModel.predict_error_iff]
  cases hp : m.predictRepairProbability ops (OrderedDict.ofPairs c.features) with
  | ok p => simp [repairs_of_ok ops m hp]
  | error e =>
      rw [repairs_of_error ops m hp]
      by_cases hc : Caught e
      · rw [if_pos (show PyError.isCaughtByMlp e = true from hc)]
        simp [hc]
      · rw [if_neg (show ¬ PyError.isCaughtByMlp e = true from hc)]
        simp [hc]

/-- **One candidate.** -/
theorem decided_of_safeFile {c : FeaturedCandidate}
    (h : (∃ xs, m.Standardized ops (OrderedDict.ofPairs c.features) xs) → m.SafeFile ops) :
    Decided ops m c := by
  obtain ⟨repair, hrepair⟩ := (repairs_ok_iff ops m c).mpr fun hs => (h hs).1
  refine ⟨repair, hrepair, fun hcompares => ?_⟩
  cases hp : m.predictRepairProbability ops (OrderedDict.ofPairs c.features) with
  | error e =>
      rw [repairs_of_error ops m hp] at hrepair
      split at hrepair
      · exact (Except.ok.inj hrepair).symm
      · cases hrepair
  | ok p =>
      obtain ⟨xs, -, -, hs, -⟩ := (MLPRepairModel.predict_eq_ok_iff ops).mp hp
      have hguarded := (h ⟨xs, hs⟩).2 (MLPRepairModel.oneValued_of_predict ops hp)
      rw [repairs_of_ok ops m hp] at hrepair
      rcases hguarded.reaches_or_compares ops hp with hle | h'
      · exact (Except.ok.inj hrepair).symm.trans hle
      · exact absurd h' hcompares

/-- The candidates that the selection keeps. -/
def keeps (c : FeaturedCandidate) : Bool :=
  c.candidate.requiresRepair && match repairs ops m c with
    | .ok repair => repair
    | .error _ => false

/-- The selection raises at the first decision that does, and otherwise keeps what is decided to be repaired. -/
theorem selected_eq_ok_iff : ∀ {candidates cs : List FeaturedCandidate},
    selected ops m candidates = .ok cs ↔
      (∀ c ∈ candidates, c.candidate.requiresRepair = true → ∃ repair, repairs ops m c = .ok repair) ∧
        cs = candidates.filter (keeps ops m) := by
  intro candidates
  induction candidates with
  | nil =>
      intro cs
      refine ⟨fun h => ⟨nofun, (Except.ok.inj h).symm⟩, ?_⟩
      rintro ⟨-, rfl⟩
      rfl
  | cons c candidates ih =>
      intro cs
      rw [selected, List.forall_mem_cons]
      cases hr : c.candidate.requiresRepair with
      | false =>
          have hkeep : ¬ keeps ops m c = true := by simp [keeps, hr]
          rw [if_pos rfl, ih, List.filter_cons_of_neg hkeep]
          simp
      | true =>
          rw [if_neg (by decide)]
          cases hrepair : repairs ops m c with
          | error e =>
              refine ⟨nofun, ?_⟩
              rintro ⟨⟨hc, -⟩, -⟩
              obtain ⟨repair, h⟩ := hc rfl
              cases h
          | ok repair =>
              have hkeep : keeps ops m c = repair := by simp [keeps, hr, hrepair]
              rw [List.filter_cons, hkeep]
              constructor
              · intro h
                change (selected ops m candidates >>= _) = _ at h
                obtain ⟨cs', hcs, h⟩ := Except.bind_eq_ok.mp h
                cases h
                obtain ⟨hall, rfl⟩ := ih.mp hcs
                exact ⟨⟨fun _ => ⟨repair, rfl⟩, hall⟩, rfl⟩
              · rintro ⟨⟨-, hall⟩, rfl⟩
                show (selected ops m candidates >>= _) = _
                rw [ih.mpr ⟨hall, rfl⟩]
                rfl

/-- The instructions of the kept candidates. -/
theorem select_of_selected {candidates cs : List FeaturedCandidate} {blockSize : Nat}
    (hbs : 0 < blockSize) (h : selected ops m candidates = .ok cs) :
    ∃ instructions, select ops m candidates blockSize = .ok instructions ∧
      ∀ c ∈ cs, c.candidate.requiresRepair = true →
        ∃ r ∈ instructions, r.targetBlockIndex = c.candidate.targetBlockIndex ∧
          r.targetTokenIndices = List.range' (c.candidate.targetBlockIndex * blockSize) blockSize := by
  rw [select, h]
  refine ⟨_, if_neg (by omega), ?_⟩
  intro c hc hr
  refine ⟨_, List.mem_map.mpr ⟨c.candidate, ?_, rfl⟩, rfl, rfl⟩
  exact List.mem_filter.mpr ⟨List.mem_map_of_mem hc, hr⟩

theorem blockSize_pos_of_select {candidates : List FeaturedCandidate} {blockSize : Nat}
    {instructions : List PartialReuseRepairInstruction}
    (h : select ops m candidates blockSize = .ok instructions) : 0 < blockSize := by
  obtain ⟨cs, -, h⟩ := Except.bind_eq_ok.mp h
  rw [buildFullBlockRepairInstructions] at h
  split at h
  · cases h
  · omega

/-- The features of a candidate that are all numbers. -/
def rationalFeatures (features : List (String × Rat)) : List (String × PyValue) :=
  features.map fun f => (f.1, .float (.fin f.2))

def ofRational (c : ResolvedPartialReuseCandidate) : FeaturedCandidate :=
  ⟨c, rationalFeatures c.selectorFeatures⟩

theorem repairs_ofRational (c : ResolvedPartialReuseCandidate) :
    repairs ops m (ofRational c)
      = mlpRepairs (fun fs => m.shouldRepair ops (OrderedDict.ofPairs (rationalFeatures fs))) c :=
  rfl

theorem selected_ofRational : ∀ candidates : List ResolvedPartialReuseCandidate,
    selected ops m (candidates.map ofRational)
      = (mlpSelected (fun fs => m.shouldRepair ops (OrderedDict.ofPairs (rationalFeatures fs)))
          candidates).map (List.map ofRational) := by
  intro candidates
  induction candidates with
  | nil => rfl
  | cons c candidates ih =>
      rw [List.map_cons, selected, mlpSelected, repairs_ofRational, ih]
      by_cases hr : c.requiresRepair = false
      · rw [if_pos (show (ofRational c).candidate.requiresRepair = false from hr), if_pos hr]
      · rw [if_neg (show ¬ (ofRational c).candidate.requiresRepair = false from hr), if_neg hr]
        cases mlpRepairs _ c with
        | error e => rfl
        | ok repair =>
            cases mlpSelected _ candidates with
            | error e => rfl
            | ok cs => cases repair <;> rfl

/-- **Where all features are numbers this is the worker's `mlp` policy.** -/
theorem select_ofRational (candidates : List ResolvedPartialReuseCandidate) (blockSize : Nat) :
    select ops m (candidates.map ofRational) blockSize
      = (RepairSelector.mlp fun fs =>
          m.shouldRepair ops (OrderedDict.ofPairs (rationalFeatures fs))).select candidates blockSize := by
  rw [select, selected_ofRational, RepairSelector.select]
  cases mlpSelected (fun fs => m.shouldRepair ops (OrderedDict.ofPairs (rationalFeatures fs)))
      candidates with
  | error e => rfl
  | ok cs =>
      show buildFullBlockRepairInstructions ((cs.map ofRational).map FeaturedCandidate.candidate) blockSize
        = buildFullBlockRepairInstructions cs blockSize
      rw [List.map_map]
      congr 1
      exact List.map_id cs

/-- A model file with the feature `name` and one layer of the given rows and biases. -/
def oneFeaturePayload (name : String) (rows : List (List Rat)) (bias : List Rat) (threshold : FloatValue) :
    List (String × PyValue) :=
  [("schema_version", .int 1),
    ("feature_names", .list [.str name]),
    ("standardizer", .dict [("mean", .list [.float (.fin 0)]), ("scale", .list [.float (.fin 1)])]),
    ("layers", .list [.dict [
      ("weights", .list (rows.map fun row => .list (row.map fun w => .float (.fin w)))),
      ("bias", .list (bias.map fun b => .float (.fin b))), ("activation", .str "relu")]]),
    ("selected_repair_threshold", .float threshold)]

/-- A repairable candidate for target block `index`. -/
def oneCandidate (index : Nat) (features : List (String × PyValue)) : FeaturedCandidate where
  candidate :=
    { sourceBlockIndex := index
      targetBlockIndex := index
      sourceBlockId := 40 + index
      targetBlockId := 50 + index
      sourceResident := true
      requiresRepair := true }
  features := features

/-- A model file with two features, a layer of two columns and a logistic one of a single column. -/
def twoLayerPayload : List (String × PyValue) :=
  [("schema_version", .int 1),
    ("feature_names", .list [.str "distance", .str "overlap"]),
    ("standardizer", .dict [("mean", .list [.float (.fin 1), .int 0]),
      ("scale", .list [.float (.fin 2), .int 1])]),
    ("layers", .list [
      .dict [("weights", .list [.list [.int 1, .int (-1)], .list [.int 2, .float (.fin (1 / 2))]]),
        ("bias", .list [.int 0, .int 1]), ("activation", .str "relu")],
      .dict [("weights", .list [.list [.int 1], .list [.int (-3)]]), ("bias", .list [.int 0]),
        ("activation", .str "logistic")]]),
    ("selected_repair_threshold", .float (.fin (3 / 5)))]

/-- Three repairable blocks: all features, one of them missing, one that is no number. -/
def twoLayerCandidates : List FeaturedCandidate :=
  [oneCandidate 0 [("distance", .int 5), ("overlap", .float (.fin 1))],
    oneCandidate 1 [("distance", .int 5)],
    oneCandidate 2 [("distance", .float .nan), ("overlap", .float (.fin 1))]]

/-- Exact arithmetic with a coarse exponential. -/
def exactOps : FloatOps where
  toRounding := Rounding.exact
  exp := fun v => if v = .nan then .nan else if v.le (.fin 0) then .fin 1 else .posInf
  sum := fun xs => xs.foldl Rounding.exact.add (.fin 0)
  ofString := fun _ => none
  repr := fun _ => ""
  exp_nan := rfl
  exp_nonpos := by
    intro v hv
    refine ⟨1, ?_, zero_le_one, le_refl 1⟩
    rw [if_neg, if_pos hv]
    rintro rfl
    cases hv

/-- **When the selection returns**: no candidate with its features meets a row that ends too early. -/
theorem select_returns_iff (candidates : List FeaturedCandidate) (blockSize : Nat) :
    (∃ instructions, select ops m candidates blockSize = .ok instructions) ↔
      0 < blockSize ∧ ∀ c ∈ candidates, c.candidate.requiresRepair = true →
        (∃ xs, m.Standardized ops (OrderedDict.ofPairs c.features) xs) →
          ¬ MLPRepairModel.BeyondRow ops m.layers m.featureNames.length := by
  constructor
  · rintro ⟨instructions, hselect⟩
    obtain ⟨cs, hcs, -⟩ := Except.bind_eq_ok.mp hselect
    refine ⟨blockSize_pos_of_select ops m hselect, fun c hc hr => ?_⟩
    exact (repairs_ok_iff ops m c).mp (((selected_eq_ok_iff ops m).mp hcs).1 c hc hr)
  · rintro ⟨hbs, hall⟩
    have hcs := (selected_eq_ok_iff ops m).mpr
      ⟨fun c hc hr => (repairs_ok_iff ops m c).mpr (hall c hc hr), rfl⟩
    obtain ⟨instructions, hselect, -⟩ := select_of_selected ops m hbs hcs
    exact ⟨instructions, hselect⟩

/-- **The selector is fail-closed for a safe file.**  Whether it raises is decided by the rows of weights alone. -/
theorem failClosed_of_safeFile (payload : List (String × PyValue))
    (_hinit : MLPRepairModel.init ops payload = .ok m) (candidates : List FeaturedCandidate)
    (blockSize : Nat) :
    ((∃ instructions, select ops m candidates blockSize = .ok instructions) ↔
      0 < blockSize ∧ ∀ c ∈ candidates, c.candidate.requiresRepair = true →
        (∃ xs, m.Standardized ops (OrderedDict.ofPairs c.features) xs) →
          ¬ MLPRepairModel.BeyondRow ops m.layers m.featureNames.length) ∧
    (0 < blockSize → (∀ c ∈ candidates, c.candidate.requiresRepair = true →
        (∃ xs, m.Standardized ops (OrderedDict.ofPairs c.features) xs) → m.SafeFile ops) →
      FailClosed ops m candidates blockSize) := by
  refine ⟨select_returns_iff ops m candidates blockSize, fun hbs hall => ?_⟩
  have hdecided : ∀ c ∈ candidates, c.candidate.requiresRepair = true → Decided ops m c :=
    fun c hc hr => decided_of_safeFile ops m (hall c hc hr)
  have hcs : selected ops m candidates = .ok (candidates.filter (keeps ops m)) := by
    refine (selected_eq_ok_iff ops m).mpr ⟨fun c hc hr => ?_, rfl⟩
    obtain ⟨repair, hrepair, -⟩ := hdecided c hc hr
    exact ⟨repair, hrepair⟩
  obtain ⟨instructions, hselect, hblocks⟩ := select_of_selected ops m hbs hcs
  refine ⟨_, instructions, hcs, hselect, fun c hc hr hcompares => ?_⟩
  obtain ⟨repair, hrepair, htrue⟩ := hdecided c hc hr
  have hmem : c ∈ candidates.filter (keeps ops m) := by
    refine List.mem_filter.mpr ⟨hc, ?_⟩
    rw [keeps, hr, hrepair, htrue hcompares]
    rfl
  exact ⟨hmem, hblocks c hmem hr⟩

/-- **A model of two layers.**  The block with a probability below the threshold is reused; the blocks without a feature,
or with one that is no number, are repaired. -/
theorem twoLayer_failClosed :
    ∃ m, MLPRepairModel.init exactOps twoLayerPayload = .ok m ∧
      FailClosed exactOps m twoLayerCandidates 4 ∧
      (select exactOps m twoLayerCandidates 4).map (List.map fun r => r.targetBlockIndex)
        = .ok [1, 2] := by
  refine ⟨_, rfl, (failClosed_of_safeFile exactOps _ twoLayerPayload rfl twoLayerCandidates 4).2
    (by decide) ?_, by decide +kernel⟩
  intro c _ _ _
  refine ⟨?_, fun _ => Or.inl ⟨⟨_, rfl⟩, _, rfl, rfl⟩⟩
  rw [← MLPRepairModel.readNetwork_eq_indexError_iff]
  exact nofun

/-- **A row that ends too early makes the selection raise, and a threshold that is no number reuses the block.** -/
theorem selector_not_failClosed :
    (∃ m, MLPRepairModel.init exactOps (oneFeaturePayload "signal" [[1]] [0, 0] (.fin (1 / 2))) = .ok m ∧
      select exactOps m [oneCandidate 0 [("signal", .float (.fin 2))]] 4 = .error .indexError ∧
      ¬ FailClosed exactOps m [oneCandidate 0 [("signal", .float (.fin 2))]] 4) ∧
    ∃ m, MLPRepairModel.init exactOps (oneFeaturePayload "signal" [[1]] [0] .nan) = .ok m ∧
      select exactOps m [oneCandidate 0 [("signal", .float (.fin 2))]] 4 = .ok [] ∧
      ¬ FailClosed exactOps m [oneCandidate 0 [("signal", .float (.fin 2))]] 4 := by
  refine ⟨⟨_, rfl, rfl, ?_⟩, _, rfl, by decide +kernel, ?_⟩
  · rintro ⟨cs, instructions, hcs, -⟩
    cases hcs
  · rintro ⟨cs, instructions, -, hselect, h⟩
    have hnone : instructions = [] := Except.ok.inj (hselect.symm.trans (by decide +kernel))
    obtain ⟨-, r, hr, -⟩ := h _ List.mem_cons_self rfl (by rintro ⟨p, t, -, -, -, ht⟩; cases ht)
    rw [hnone] at hr
    cases hr

end MLPRepairSelector

/-! ### The configured selector -/

/-- `create_repair_selector`; `mlpModel` is what the model file holds, if the server names one. -/
def createRepairSelector (ops : FloatOps) (selectorName : String) (editRadius : Int)
    (mlpModel : Option (List (String × PyValue))) : Except PyError RepairSelector :=
  if selectorName = "full_block" then .ok .fullBlock
  else if selectorName = "edit_proximity" then
    if editRadius < 0 then .error (.valueError "max_block_distance must be non-negative")
    else .ok (.editProximity editRadius.toNat)
  else if selectorName = "mlp" then
    match mlpModel with
    | none => .error (.valueError "MLP repair selector requires an exported model path")
    | some payload => do
        let m ← MLPRepairModel.init ops payload
        .ok (.mlp fun features =>
          m.shouldRepair ops (OrderedDict.ofPairs (MLPRepairSelector.rationalFeatures features)))
  else .error (.valueError ("unknown CacheSelect repair selector: " ++ selectorName))

/-- The model that a selector was created with. -/
def LoadedModel (ops : FloatOps) (selectorName : String) (mlpModel : Option (List (String × PyValue)))
    (m : MLPRepairModel) : Prop :=
  selectorName = "mlp" ∧ ∃ payload, mlpModel = some payload ∧ MLPRepairModel.init ops payload = .ok m

/-- The `mlp` policy of a loaded model raises exactly where its selection does. -/
theorem raises_mlp_iff (ops : FloatOps) (m : MLPRepairModel)
    (candidates : List ResolvedPartialReuseCandidate) :
    (RepairSelector.mlp fun features => m.shouldRepair ops
        (OrderedDict.ofPairs (MLPRepairSelector.rationalFeatures features))).Raises candidates ↔
      MLPRepairModel.BeyondRow ops m.layers m.featureNames.length ∧
        ∃ c ∈ candidates, c.requiresRepair = true ∧ ∃ xs, m.Standardized ops
          (OrderedDict.ofPairs (MLPRepairSelector.rationalFeatures c.selectorFeatures)) xs := by
  rw [← not_iff_not, ← select_ok_iff _ candidates one_pos, ← MLPRepairSelector.select_ofRational,
    MLPRepairSelector.select_returns_iff]
  constructor
  · rintro ⟨-, h⟩ ⟨hb, c, hc, hr, hs⟩
    exact h _ (List.mem_map_of_mem hc) hr hs hb
  · intro h
    refine ⟨one_pos, fun c hc hr hs hb => ?_⟩
    obtain ⟨c', hc', rfl⟩ := List.mem_map.mp hc
    exact h ⟨hb, c', hc', hr, hs⟩

/-- **When a configured selector raises.**  Its model has a row of weights that ends too early, and one of the candidates
to be repaired has the features that it names. -/
theorem raises_of_createRepairSelector {ops : FloatOps} {selectorName : String} {editRadius : Int}
    {mlpModel : Option (List (String × PyValue))} {selector : RepairSelector}
    (h : createRepairSelector ops selectorName editRadius mlpModel = .ok selector)
    (candidates : List ResolvedPartialReuseCandidate) :
    selector.Raises candidates ↔ ∃ m, LoadedModel ops selectorName mlpModel m ∧
      MLPRepairModel.BeyondRow ops m.layers m.featureNames.length ∧
      ∃ c ∈ candidates, c.requiresRepair = true ∧ ∃ xs, m.Standardized ops
        (OrderedDict.ofPairs (MLPRepairSelector.rationalFeatures c.selectorFeatures)) xs := by
  have hother : selectorName ≠ "mlp" → ∀ {P : MLPRepairModel → Prop},
      ¬ ∃ m, LoadedModel ops selectorName mlpModel m ∧ P m := by
    rintro hne P ⟨m, ⟨hm, -⟩, -⟩
    exact hne hm
  unfold createRepairSelector at h
  split at h
  · next hname =>
      cases h
      exact iff_of_false not_false (hother (by rw [hname]; decide))
  split at h
  · next hname =>
      split at h
      · cases h
      · cases h
        exact iff_of_false not_false (hother (by rw [hname]; decide))
  split at h
  · next hname =>
      cases mlpModel with
      | none => cases h
      | some payload =>
          obtain ⟨m, hm, h⟩ := Except.bind_eq_ok.mp h
          cases h
          rw [raises_mlp_iff]
          refine ⟨fun h => ⟨m, ⟨hname, payload, rfl, hm⟩, h⟩, ?_⟩
          rintro ⟨m', ⟨-, payload', hp, hm'⟩, h⟩
          cases hp
          cases hm.symm.trans hm'
          exact h
  · cases h

end CacheSelect.Worker
