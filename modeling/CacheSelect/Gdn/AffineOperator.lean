import CacheSelect.Core.Request
import CacheSelect.Lib.Except
import CacheSelect.Lib.Scan
import Mathlib.LinearAlgebra.Matrix.Notation

/-! # Block operators of the gated delta recurrence

A GDN layer keeps one `V × K` matrix for each value head and updates it token by token: decay it, read
it at the key, and add the rank-one correction of the read towards the value (`gatedDeltaStep`).
`buildGdnAffineOperator` composes a block of tokens into one affine map of the incoming state, and
`applyGdnAffineOperator` applies that map.  `affineOperator_exact` says that this is the recurrence
itself, outputs included, and that concatenating blocks composes their operators.

Tensors are functions of their head and width indices and lists along the token dimension, so that
only the checks on token counts and on the head grouping are left.  Arithmetic is exact, over any commutative
ring: `exp` stands for the exponential of a log decay and `scale` for the output scale, both arbitrary.
-/

namespace CacheSelect.Gdn

open CacheSelect.Core Matrix

section

variable (R : Type) (HV V K : Nat)

/-- A recurrent state `[HV, V, K]`. -/
abbrev RecurrentState := Fin HV → Matrix (Fin V) (Fin K) R

/-- The outputs `[HV, V]` of one token. -/
abbrev TokenOutput := Fin HV → Fin V → R

/-- What a token contributes to the recurrence apart from its value, for each value head. -/
structure GdnGate where
  key : Fin HV → Fin K → R
  query : Fin HV → Fin K → R
  logDecay : Fin HV → R
  beta : Fin HV → R

/-- A token with its value vector. -/
abbrev GdnToken := GdnGate R HV K × (Fin HV → Fin V → R)

/-- The tensors of a cached block operator. -/
structure GdnAffineOperator where
  transition : Fin HV → Matrix (Fin K) (Fin K) R
  outputResponses : List (Fin HV → Fin K → R)
  stateBias : RecurrentState R HV V K
  outputBiases : List (TokenOutput R HV V)

/-- The coefficient tensors of a range of tokens; keys and queries have one row for each of the `H`
key heads. -/
structure GdnCoefficients (H : Nat) where
  keys : List (Fin H → Fin K → R)
  queries : List (Fin H → Fin K → R)
  values : List (Fin HV → Fin V → R)
  logDecays : List (Fin HV → R)
  betas : List (Fin HV → R)

end

variable {R : Type} {H HV V K : Nat}

/-! ### Rows and heads -/

/-- The key head that a value head consumes. -/
def keyHead (_hH : 0 < H) (hmod : HV % H = 0) (h : Fin HV) : Fin H :=
  ⟨h / (HV / H), by
    have hmul : HV / H * H = HV := Nat.div_mul_cancel (Nat.dvd_of_mod_eq_zero hmod)
    exact Nat.div_lt_of_lt_mul (by rw [hmul]; exact h.isLt)⟩

/-- Repeat grouped key and query heads across the value heads that consume them. -/
def expandGdnGroupedHeads {α : Type} (tensor : List (Fin H → α)) (HV : Nat) :
    Except PyError (List (Fin HV → α)) :=
  if hH : 0 < H then
    if hmod : HV % H = 0 then .ok (tensor.map fun row h => row (keyHead hH hmod h))
    else .error (.valueError "value-head count must be divisible by key-head count")
  else .error .zeroDivisionError

/-- The rows of the expanded tensors, token by token. -/
def gatesOf (keys queries : List (Fin HV → Fin K → R)) (logDecays betas : List (Fin HV → R)) :
    List (GdnGate R HV K) :=
  List.zipWith (fun kq gb => ⟨kq.1, kq.2, gb.1, gb.2⟩) (keys.zip queries) (logDecays.zip betas)

/-! ### Well-shaped coefficients -/

/-- The tensors have one row for each token and the value heads are whole groups of key heads. -/
structure GdnCoefficients.WellShaped (c : GdnCoefficients R HV V K H) : Prop where
  queries_length : c.queries.length = c.keys.length
  values_length : c.values.length = c.keys.length
  logDecays_length : c.logDecays.length = c.keys.length
  betas_length : c.betas.length = c.keys.length
  keyHeads_pos : 0 < H
  grouped : HV % H = 0

/-- The gates of well-shaped coefficients. -/
def GdnCoefficients.gates (c : GdnCoefficients R HV V K H) (hc : c.WellShaped) :
    List (GdnGate R HV K) :=
  let expand := fun (row : Fin H → Fin K → R) (h : Fin HV) =>
    row (keyHead hc.keyHeads_pos hc.grouped h)
  gatesOf (c.keys.map expand) (c.queries.map expand) c.logDecays c.betas

/-- The tokens of well-shaped coefficients. -/
def GdnCoefficients.tokens (c : GdnCoefficients R HV V K H) (hc : c.WellShaped) :
    List (GdnToken R HV V K) :=
  (c.gates hc).zip c.values

/-- One range of tokens after another. -/
def GdnCoefficients.append (c c' : GdnCoefficients R HV V K H) : GdnCoefficients R HV V K H where
  keys := c.keys ++ c'.keys
  queries := c.queries ++ c'.queries
  values := c.values ++ c'.values
  logDecays := c.logDecays ++ c'.logDecays
  betas := c.betas ++ c'.betas

theorem expandGdnGroupedHeads_ok {α : Type} (tensor : List (Fin H → α)) (hH : 0 < H)
    (hmod : HV % H = 0) :
    expandGdnGroupedHeads tensor HV
      = .ok (tensor.map fun row h => row (keyHead hH hmod h)) := by
  rw [expandGdnGroupedHeads, dif_pos hH, dif_pos hmod]

variable {c c' : GdnCoefficients R HV V K H}

theorem GdnCoefficients.length_gates (hc : c.WellShaped) :
    (c.gates hc).length = c.keys.length := by
  rw [gates, gatesOf, List.length_zipWith, List.length_zip, List.length_zip, List.length_map,
    List.length_map, hc.queries_length, hc.logDecays_length, hc.betas_length]
  omega

theorem GdnCoefficients.length_tokens (hc : c.WellShaped) :
    (c.tokens hc).length = c.keys.length := by
  rw [tokens, List.length_zip, length_gates, hc.values_length]
  omega

theorem GdnCoefficients.WellShaped.append (hc : c.WellShaped) (hc' : c'.WellShaped) :
    (c.append c').WellShaped where
  queries_length := by
    simp [GdnCoefficients.append, hc.queries_length, hc'.queries_length]
  values_length := by simp [GdnCoefficients.append, hc.values_length, hc'.values_length]
  logDecays_length := by
    simp [GdnCoefficients.append, hc.logDecays_length, hc'.logDecays_length]
  betas_length := by simp [GdnCoefficients.append, hc.betas_length, hc'.betas_length]
  keyHeads_pos := hc.keyHeads_pos
  grouped := hc.grouped

theorem GdnCoefficients.gates_append (hc : c.WellShaped) (hc' : c'.WellShaped) :
    (c.append c').gates (hc.append hc') = c.gates hc ++ c'.gates hc' := by
  simp only [gates, gatesOf, append, List.map_append]
  rw [List.zip_append (by simp [hc.queries_length]),
    List.zip_append (by rw [hc.logDecays_length, hc.betas_length]),
    List.zipWith_append (by
      simp [hc.queries_length, hc.logDecays_length, hc.betas_length])]

theorem GdnCoefficients.tokens_append (hc : c.WellShaped) (hc' : c'.WellShaped) :
    (c.append c').tokens (hc.append hc') = c.tokens hc ++ c'.tokens hc' := by
  rw [tokens, gates_append hc hc']
  exact List.zip_append (by rw [length_gates, hc.values_length])

theorem GdnCoefficients.map_fst_tokens (hc : c.WellShaped) :
    (c.tokens hc).map Prod.fst = c.gates hc :=
  List.map_fst_zip (by rw [length_gates, hc.values_length])

variable [CommRing R] (exp : R → R) (scale : R)

/-! ### The recurrence -/

/-- One token of the gated delta recurrence, as the recurrent kernel computes it. -/
def gatedDeltaStep (state : RecurrentState R HV V K) (t : GdnToken R HV V K) :
    RecurrentState R HV V K × TokenOutput R HV V :=
  let decayed := fun h => exp (t.1.logDecay h) • state h
  let innovation := fun h => t.1.beta h • (t.2 h - decayed h *ᵥ t.1.key h)
  let next := fun h => decayed h + vecMulVec (innovation h) (t.1.key h)
  (next, fun h => next h *ᵥ (scale • t.1.query h))

/-- The recurrence over a sequence of tokens. -/
abbrev gatedDelta (state : RecurrentState R HV V K) (tokens : List (GdnToken R HV V K)) :
    RecurrentState R HV V K × List (TokenOutput R HV V) :=
  Scan.run (gatedDeltaStep exp scale) state tokens

/-! ### Building an operator -/

/-- One iteration of the loop of `build_gdn_delta_operator`: the transition and the response. -/
def deltaStep (transition : Fin HV → Matrix (Fin K) (Fin K) R) (g : GdnGate R HV K) :
    (Fin HV → Matrix (Fin K) (Fin K) R) × (Fin HV → Fin K → R) :=
  let transitionRead := fun h => transition h *ᵥ g.key h
  let next := fun h =>
    exp (g.logDecay h) • (transition h - g.beta h • vecMulVec (transitionRead h) (g.key h))
  (next, fun h => scale • (next h *ᵥ g.query h))

/-- The linear response to a difference of the incoming state. -/
def buildGdnDeltaOperator (keys queries : List (Fin H → Fin K → R))
    (logDecays betas : List (Fin HV → R)) :
    Except PyError ((Fin HV → Matrix (Fin K) (Fin K) R) × List (Fin HV → Fin K → R)) :=
  if queries.length ≠ keys.length then
    .error (.valueError "keys and queries must have matching [T,H,K] shapes")
  else if betas.length ≠ logDecays.length then
    .error (.valueError "log_decays and betas must have matching [T,HV] shapes")
  else if logDecays.length ≠ keys.length then
    .error (.valueError "coefficient and token counts must agree")
  else do
    let expandedKeys ← expandGdnGroupedHeads keys HV
    let expandedQueries ← expandGdnGroupedHeads queries HV
    .ok (Scan.run (deltaStep exp scale) (fun _ => 1)
      (gatesOf expandedKeys expandedQueries logDecays betas))

/-- One iteration of the loop of `build_gdn_affine_operator`: the state bias and the output bias. -/
def biasStep (stateBias : RecurrentState R HV V K) (t : GdnToken R HV V K) :
    RecurrentState R HV V K × TokenOutput R HV V :=
  let decayed := fun h => exp (t.1.logDecay h) • stateBias h
  let priorRead := fun h => decayed h *ᵥ t.1.key h
  let innovation := fun h => t.1.beta h • (t.2 h - priorRead h)
  let next := fun h => decayed h + vecMulVec (innovation h) (t.1.key h)
  (next, fun h => scale • (next h *ᵥ t.1.query h))

/-- The affine transform of state and outputs of one block. -/
def buildGdnAffineOperator (c : GdnCoefficients R HV V K H) :
    Except PyError (GdnAffineOperator R HV V K) := do
  let (transition, responses) ←
    buildGdnDeltaOperator exp scale c.keys c.queries c.logDecays c.betas
  if c.values.length ≠ c.keys.length then
    .error (.valueError "values must have shape [T,HV,V]")
  else do
    let expandedKeys ← expandGdnGroupedHeads c.keys HV
    let expandedQueries ← expandGdnGroupedHeads c.queries HV
    let (stateBias, outputBiases) := Scan.run (biasStep exp scale) (fun _ => 0)
      ((gatesOf expandedKeys expandedQueries c.logDecays c.betas).zip c.values)
    .ok ⟨transition, responses, stateBias, outputBiases⟩

/-! ### Applying an operator -/

/-- Apply a cached block operator to a new incoming state. -/
def applyGdnAffineOperator (initialState : RecurrentState R HV V K)
    (entry : GdnAffineOperator R HV V K) :
    Except PyError (RecurrentState R HV V K × List (TokenOutput R HV V)) :=
  if entry.outputBiases.length ≠ entry.outputResponses.length then
    .error (.valueError "output response and bias dimensions do not agree")
  else
    .ok (fun h => initialState h * entry.transition h + entry.stateBias h,
      List.zipWith (fun response bias h => initialState h *ᵥ response h + bias h)
        entry.outputResponses entry.outputBiases)

/-- The operator of a block followed by another. -/
def GdnAffineOperator.comp (first second : GdnAffineOperator R HV V K) :
    GdnAffineOperator R HV V K where
  transition := fun h => first.transition h * second.transition h
  outputResponses := first.outputResponses ++
    second.outputResponses.map fun response h => first.transition h *ᵥ response h
  stateBias := fun h => first.stateBias h * second.transition h + second.stateBias h
  outputBiases := first.outputBiases ++
    List.zipWith (fun response bias h => first.stateBias h *ᵥ response h + bias h)
      second.outputResponses second.outputBiases

/-! ### Building succeeds exactly on well-shaped coefficients -/

/-- The operator of a sequence of tokens. -/
def operatorOf (tokens : List (GdnToken R HV V K)) : GdnAffineOperator R HV V K where
  transition := (Scan.run (deltaStep exp scale) (fun _ => 1) (tokens.map Prod.fst)).1
  outputResponses := (Scan.run (deltaStep exp scale) (fun _ => 1) (tokens.map Prod.fst)).2
  stateBias := (Scan.run (biasStep exp scale) (fun _ => 0) tokens).1
  outputBiases := (Scan.run (biasStep exp scale) (fun _ => 0) tokens).2

theorem buildGdnAffineOperator_ok {c : GdnCoefficients R HV V K H} (hc : c.WellShaped) :
    buildGdnAffineOperator exp scale c = .ok (operatorOf exp scale (c.tokens hc)) := by
  have hdelta : buildGdnDeltaOperator exp scale c.keys c.queries c.logDecays c.betas
      = .ok (Scan.run (deltaStep exp scale) (fun _ => 1) (c.gates hc)) := by
    rw [buildGdnDeltaOperator, if_neg (by simp [hc.queries_length]),
      if_neg (by simp [hc.betas_length, hc.logDecays_length]),
      if_neg (by simp [hc.logDecays_length]),
      expandGdnGroupedHeads_ok c.keys hc.keyHeads_pos hc.grouped,
      expandGdnGroupedHeads_ok c.queries hc.keyHeads_pos hc.grouped]
    rfl
  rw [buildGdnAffineOperator, hdelta]
  change (if c.values.length ≠ c.keys.length then _ else _) = _
  rw [if_neg (by simp [hc.values_length]),
    expandGdnGroupedHeads_ok c.keys hc.keyHeads_pos hc.grouped,
    expandGdnGroupedHeads_ok c.queries hc.keyHeads_pos hc.grouped, operatorOf,
    GdnCoefficients.map_fst_tokens]
  rfl

/-! ### One token -/

theorem biasStep_eq_gatedDeltaStep :
    (biasStep exp scale : RecurrentState R HV V K → _) = gatedDeltaStep exp scale := by
  funext state t
  refine Prod.ext rfl ?_
  funext h
  exact (mulVec_smul _ scale (t.1.query h)).symm

/-- The transition of one token, applied from the right of any transition so far. -/
theorem deltaStep_mul (A T : Fin HV → Matrix (Fin K) (Fin K) R) (g : GdnGate R HV K) :
    deltaStep exp scale (fun h => A h * T h) g
      = (fun h => A h * (deltaStep exp scale T g).1 h,
          fun h => A h *ᵥ (deltaStep exp scale T g).2 h) := by
  have hnext : (deltaStep exp scale (fun h => A h * T h) g).1
      = fun h => A h * (deltaStep exp scale T g).1 h := by
    funext h
    simp only [deltaStep]
    rw [Matrix.mul_smul, Matrix.mul_sub, Matrix.mul_smul, mul_vecMulVec, mulVec_mulVec]
  refine Prod.ext hnext ?_
  funext h
  change scale • ((deltaStep exp scale (fun h => A h * T h) g).1 h *ᵥ g.query h) = _
  rw [hnext, ← mulVec_mulVec, ← mulVec_smul]
  rfl

/-- **Superposition.**  A token takes the state `S * T + b` to the state and the output that its
transition and its bias give. -/
theorem gatedDeltaStep_superpose (S b : RecurrentState R HV V K)
    (T : Fin HV → Matrix (Fin K) (Fin K) R) (t : GdnToken R HV V K) :
    gatedDeltaStep exp scale (fun h => S h * T h + b h) t
      = (fun h => S h * (deltaStep exp scale T t.1).1 h + (biasStep exp scale b t).1 h,
          fun h => S h *ᵥ (deltaStep exp scale T t.1).2 h + (biasStep exp scale b t).2 h) := by
  have hnext : (gatedDeltaStep exp scale (fun h => S h * T h + b h) t).1
      = fun h => S h * (deltaStep exp scale T t.1).1 h + (biasStep exp scale b t).1 h := by
    funext h
    simp only [gatedDeltaStep, deltaStep, biasStep]
    have hS : S h * vecMulVec (T h *ᵥ t.1.key h) (t.1.key h)
        = vecMulVec ((S h * T h) *ᵥ t.1.key h) (t.1.key h) := by
      rw [mul_vecMulVec, mulVec_mulVec]
    rw [Matrix.mul_smul, Matrix.mul_sub, Matrix.mul_smul, hS]
    ext v k
    simp only [Matrix.add_apply, Matrix.smul_apply, Matrix.sub_apply, vecMulVec_apply,
      Pi.smul_apply, Pi.sub_apply, smul_eq_mul, smul_mulVec, add_mulVec, smul_add, Pi.add_apply]
    ring
  refine Prod.ext hnext ?_
  funext h
  change (gatedDeltaStep exp scale (fun h => S h * T h + b h) t).1 h *ᵥ (scale • t.1.query h)
    = S h *ᵥ (scale • ((deltaStep exp scale T t.1).1 h *ᵥ t.1.query h))
        + scale • ((biasStep exp scale b t).1 h *ᵥ t.1.query h)
  rw [hnext, mulVec_smul, mulVec_smul, add_mulVec, smul_add, mulVec_mulVec]

/-! ### Whole blocks -/

/-- The run lemma of `gatedDeltaStep_superpose`. -/
theorem gatedDelta_superpose (S : RecurrentState R HV V K) :
    ∀ (tokens : List (GdnToken R HV V K)) (T : Fin HV → Matrix (Fin K) (Fin K) R)
      (b : RecurrentState R HV V K),
      gatedDelta exp scale (fun h => S h * T h + b h) tokens
        = (fun h => S h * (Scan.run (deltaStep exp scale) T (tokens.map Prod.fst)).1 h
              + (Scan.run (biasStep exp scale) b tokens).1 h,
            List.zipWith (fun response bias h => S h *ᵥ response h + bias h)
              (Scan.run (deltaStep exp scale) T (tokens.map Prod.fst)).2
              (Scan.run (biasStep exp scale) b tokens).2) := by
  intro tokens
  induction tokens with
  | nil => intro T b; rfl
  | cons t tokens ih =>
      intro T b
      have hrest := ih (deltaStep exp scale T t.1).1 (biasStep exp scale b t).1
      simp only [gatedDelta] at hrest ⊢
      simp only [Scan.run, gatedDeltaStep_superpose, hrest, List.map_cons, List.zipWith_cons_cons]

/-- The run lemma of `deltaStep_mul`. -/
theorem run_deltaStep_mul (A : Fin HV → Matrix (Fin K) (Fin K) R) :
    ∀ (gates : List (GdnGate R HV K)) (T : Fin HV → Matrix (Fin K) (Fin K) R),
      Scan.run (deltaStep exp scale) (fun h => A h * T h) gates
        = (fun h => A h * (Scan.run (deltaStep exp scale) T gates).1 h,
            (Scan.run (deltaStep exp scale) T gates).2.map
              fun response h => A h *ᵥ response h) := by
  intro gates
  induction gates with
  | nil => intro T; rfl
  | cons g gates ih =>
      intro T
      rw [Scan.run, deltaStep_mul, ih]
      rfl

/-- Applying the operator of a sequence of tokens runs the recurrence over them. -/
theorem applyGdnAffineOperator_operatorOf (S : RecurrentState R HV V K)
    (tokens : List (GdnToken R HV V K)) :
    applyGdnAffineOperator S (operatorOf exp scale tokens) = .ok (gatedDelta exp scale S tokens) := by
  have hlen : (operatorOf exp scale tokens).outputBiases.length
      = (operatorOf exp scale tokens).outputResponses.length := by
    rw [operatorOf, Scan.length_run, Scan.length_run, List.length_map]
  rw [applyGdnAffineOperator, if_neg (not_not_intro hlen)]
  have h := gatedDelta_superpose exp scale S tokens (fun _ => 1) (fun _ => 0)
  have hS : (fun h => S h * (1 : Matrix (Fin K) (Fin K) R) + 0) = S := by
    funext h
    rw [Matrix.mul_one, add_zero]
  rw [hS] at h
  rw [h]
  rfl

/-- The operator of a concatenation is the composition of the operators. -/
theorem operatorOf_append (tokens tokens' : List (GdnToken R HV V K)) :
    operatorOf exp scale (tokens ++ tokens')
      = (operatorOf exp scale tokens).comp (operatorOf exp scale tokens') := by
  have hdelta := run_deltaStep_mul exp scale (operatorOf exp scale tokens).transition
    (tokens'.map Prod.fst) (fun _ => 1)
  have hbias := gatedDelta_superpose exp scale (operatorOf exp scale tokens).stateBias tokens'
    (fun _ => 1) (fun _ => 0)
  simp only [Matrix.mul_one, add_zero] at hdelta hbias
  simp only [operatorOf, gatedDelta, ← biasStep_eq_gatedDeltaStep] at hdelta hbias
  simp only [operatorOf, GdnAffineOperator.comp, List.map_append, Scan.run_append, Scan.state, hdelta,
    hbias]

/-- **A block operator is exact.**  For every block with well-shaped coefficients the operator that is
built from it takes every incoming state to the final state and the outputs of the recurrence, and the
operator of two blocks in a row is the composition of theirs. -/
theorem affineOperator_exact : ∀ (c : GdnCoefficients R HV V K H) (hc : c.WellShaped),
    (∃ operator, buildGdnAffineOperator exp scale c = .ok operator ∧
      ∀ initialState, applyGdnAffineOperator initialState operator
        = .ok (gatedDelta exp scale initialState (c.tokens hc))) ∧
    ∀ (c' : GdnCoefficients R HV V K H), c'.WellShaped → ∃ first second,
      buildGdnAffineOperator exp scale c = .ok first ∧
      buildGdnAffineOperator exp scale c' = .ok second ∧
      buildGdnAffineOperator exp scale (c.append c') = .ok (first.comp second) ∧
      ∀ initialState, applyGdnAffineOperator initialState (first.comp second)
        = (applyGdnAffineOperator initialState first).bind fun (state, outputs) =>
            (applyGdnAffineOperator state second).map fun (state, outputs') =>
              (state, outputs ++ outputs') := by
  intro c hc
  refine ⟨⟨_, buildGdnAffineOperator_ok exp scale hc, ?_⟩, ?_⟩
  · intro S
    exact applyGdnAffineOperator_operatorOf exp scale S (c.tokens hc)
  · intro c' hc'
    refine ⟨_, _, buildGdnAffineOperator_ok exp scale hc, buildGdnAffineOperator_ok exp scale hc',
      ?_, ?_⟩
    · rw [buildGdnAffineOperator_ok exp scale (hc.append hc'),
        GdnCoefficients.tokens_append hc hc', operatorOf_append]
    · intro S
      rw [← operatorOf_append, applyGdnAffineOperator_operatorOf,
        applyGdnAffineOperator_operatorOf, gatedDelta, Scan.run_append]
      change _ = (applyGdnAffineOperator _ _).map _
      rw [applyGdnAffineOperator_operatorOf]
      rfl

/-- Two tokens of two value heads that share a key head. -/
def sampleCoefficients : GdnCoefficients ℤ 2 1 1 1 where
  keys := [fun _ _ => 1, fun _ _ => 2]
  queries := [fun _ _ => 3, fun _ _ => 1]
  values := [fun h _ => h.val, fun _ _ => 1]
  logDecays := [fun _ => 2, fun _ => 1]
  betas := [fun _ => 1, fun _ => 1]

theorem sampleCoefficients_wellShaped : sampleCoefficients.WellShaped :=
  ⟨rfl, rfl, rfl, rfl, by decide, by decide⟩

/-- The sample's operator at the state `1`, also when it follows itself. -/
theorem sample_operator_exact :
    (∃ operator, buildGdnAffineOperator id 1 sampleCoefficients = .ok operator ∧
      (applyGdnAffineOperator (fun _ => !![1]) operator).map
        (fun result => (fun h => result.1 h 0 0, result.2.map fun o h => o h 0))
          = .ok (![2, -1], [![0, 3], ![2, -1]])) ∧
    ∃ first second, buildGdnAffineOperator id 1 sampleCoefficients = .ok first ∧
      buildGdnAffineOperator id 1 sampleCoefficients = .ok second ∧
      buildGdnAffineOperator id 1 (sampleCoefficients.append sampleCoefficients)
        = .ok (first.comp second) := by
  obtain ⟨⟨operator, hbuild, happly⟩, hcomp⟩ :=
    affineOperator_exact id 1 sampleCoefficients sampleCoefficients_wellShaped
  obtain ⟨first, second, hfirst, hsecond, happend, -⟩ :=
    hcomp sampleCoefficients sampleCoefficients_wellShaped
  refine ⟨⟨operator, hbuild, ?_⟩, first, second, hfirst, hsecond, happend⟩
  rw [happly]
  refine congrArg Except.ok (Prod.ext ?_ ?_)
  · decide +kernel
  · decide +kernel

end CacheSelect.Gdn
