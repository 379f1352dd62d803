import Mathlib.Algebra.BigOperators.Fin
import Mathlib.Analysis.SpecialFunctions.Sigmoid
import Mathlib.Data.Matrix.Mul

/-! # Dense networks with one output

A network of `DenseNetwork K n` takes `n` numbers through layers of any sizes to one number.  A layer multiplies the
row of its inputs with its weights (`Matrix.vecMul`), adds its bias and applies an activation to every
entry; the forward pass (`DenseNetwork.forward`) takes one activation for the hidden layers and one for the output.

`coefs` and `intercepts` are the arrays of a network as nested lists, one row of a weight matrix for each input.
-/

open scoped Matrix

/-- A matrix as a list of rows. -/
def Matrix.toLists {K : Type} {n h : ℕ} (weights : Matrix (Fin n) (Fin h) K) : List (List K) :=
  List.ofFn fun i => List.ofFn (weights i)

inductive DenseNetwork (K : Type) : ℕ → Type
  | output {n : ℕ} (weights : Matrix (Fin n) (Fin 1) K) (bias : Fin 1 → K) : DenseNetwork K n
  | hidden {n h : ℕ} (weights : Matrix (Fin n) (Fin h) K) (bias : Fin h → K)
      (rest : DenseNetwork K h) : DenseNetwork K n

namespace DenseNetwork

variable {K : Type}

/-- The values of a layer before its activation. -/
def affine [Semiring K] {n h : ℕ} (weights : Matrix (Fin n) (Fin h) K) (bias : Fin h → K)
    (x : Fin n → K) : Fin h → K :=
  x ᵥ* weights + bias

/-- The forward pass. -/
def forward [Semiring K] (activation outActivation : K → K) :
    {n : ℕ} → DenseNetwork K n → (Fin n → K) → K
  | _, .output weights bias, x => outActivation (affine weights bias x 0)
  | _, .hidden weights bias rest, x =>
      rest.forward activation outActivation fun j => activation (affine weights bias x j)

def coefs : {n : ℕ} → DenseNetwork K n → List (List (List K))
  | _, .output weights _ => [weights.toLists]
  | _, .hidden weights _ rest => weights.toLists :: rest.coefs

def intercepts : {n : ℕ} → DenseNetwork K n → List (List K)
  | _, .output _ bias => [List.ofFn bias]
  | _, .hidden _ bias rest => List.ofFn bias :: rest.intercepts

/-- How many layers are hidden. -/
def depth : {n : ℕ} → DenseNetwork K n → ℕ
  | _, .output _ _ => 0
  | _, .hidden _ _ rest => rest.depth + 1

theorem length_coefs {n : ℕ} (net : DenseNetwork K n) : net.coefs.length = net.depth + 1 := by
  induction net with
  | output weights bias => rfl
  | hidden weights bias rest ih => rw [coefs, List.length_cons, ih, depth]

/-! ### Lists of the entries -/

theorem zipWith_ofFn {α β γ : Type*} (f : α → β → γ) {n : ℕ} (x : Fin n → α) (y : Fin n → β) :
    List.zipWith f (List.ofFn x) (List.ofFn y) = List.ofFn fun i => f (x i) (y i) := by
  refine List.ext_getElem (by simp) ?_
  intro k h₁ h₂
  simp

/-- An entry of a layer as a sum over the inputs and the weights of its column. -/
theorem affine_apply [Semiring K] {n h : ℕ} (weights : Matrix (Fin n) (Fin h) K)
    (bias : Fin h → K) (x : Fin n → K) (j : Fin h) :
    affine weights bias x j
      = (List.zipWith (fun a w => a * w) (List.ofFn x) (List.ofFn fun i => weights i j)).sum
        + bias j := by
  rw [zipWith_ofFn, List.sum_ofFn]
  rfl

/-! ### The logistic function -/

/-- Both ways to write the logistic function have one value. -/
theorem exp_div_one_add_exp (z : ℝ) : Real.exp z / (1 + Real.exp z) = Real.sigmoid z := by
  have hpos : 0 < Real.exp z := Real.exp_pos z
  rw [Real.sigmoid_def, Real.exp_neg, eq_comm, inv_eq_one_div, div_eq_div_iff]
  · field_simp
    ring
  · positivity
  · positivity

end DenseNetwork
