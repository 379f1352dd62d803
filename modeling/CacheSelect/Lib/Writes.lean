import Mathlib.Data.List.Nodup
import Mathlib.Logic.Function.Basic

/-! # Writes to a memory

`writeAll m ws` applies writes of single cells one after the other.  Cells that no write names keep their
value, and with distinct cells every write is the last one to its cell.
-/

namespace Writes

variable {κ S : Type*} [DecidableEq κ]

/-- Apply writes in order. -/
def writeAll (m : κ → S) (ws : List (κ × S)) : κ → S :=
  ws.foldl (fun m w => Function.update m w.1 w.2) m

theorem writeAll_cons (m : κ → S) (w : κ × S) (ws : List (κ × S)) :
    writeAll m (w :: ws) = writeAll (Function.update m w.1 w.2) ws := rfl

theorem writeAll_append (m : κ → S) (ws ws' : List (κ × S)) :
    writeAll m (ws ++ ws') = writeAll (writeAll m ws) ws' :=
  List.foldl_append

/-- A cell that no write names keeps its value. -/
theorem writeAll_of_notMem : ∀ {ws : List (κ × S)} {m : κ → S} {x : κ}, (∀ w ∈ ws, w.1 ≠ x) →
    writeAll m ws x = m x := by
  intro ws
  induction ws with
  | nil => intro m x _; rfl
  | cons w ws ih =>
      intro m x h
      rw [writeAll_cons, ih fun w' hw' => h w' (List.mem_cons_of_mem _ hw'),
        Function.update_of_ne (h w List.mem_cons_self).symm]

/-- Of writes to distinct cells, each is seen. -/
theorem writeAll_of_mem : ∀ {ws : List (κ × S)} {m : κ → S} {x : κ} {v : S},
    (ws.map Prod.fst).Nodup → (x, v) ∈ ws → writeAll m ws x = v := by
  intro ws
  induction ws with
  | nil => intro m x v _ h; cases h
  | cons w ws ih =>
      intro m x v hnd h
      rw [List.map_cons, List.nodup_cons] at hnd
      rw [writeAll_cons]
      rcases List.mem_cons.mp h with rfl | h
      · rw [writeAll_of_notMem, Function.update_self]
        intro w' hw' hx
        exact hnd.1 (List.mem_map.mpr ⟨w', hw', hx⟩)
      · exact ih hnd.2 h

theorem writeAll_map_of_mem {α : Type*} {cell : α → κ} {value : α → S} {l : List α}
    (hnd : (l.map cell).Nodup) {a : α} (ha : a ∈ l) (m : κ → S) :
    writeAll m (l.map fun a => (cell a, value a)) (cell a) = value a := by
  refine writeAll_of_mem ?_ (List.mem_map.mpr ⟨a, ha, rfl⟩)
  rw [List.map_map]
  exact hnd

/-- Writing the same distinct cells again leaves only the second writes. -/
theorem writeAll_eq_of_same_cells {ws ws' : List (κ × S)} (hnd : (ws'.map Prod.fst).Nodup)
    (hcells : ws.map Prod.fst = ws'.map Prod.fst) (m : κ → S) :
    writeAll (writeAll m ws) ws' = writeAll m ws' := by
  funext x
  by_cases hx : x ∈ ws'.map Prod.fst
  · obtain ⟨⟨_, v⟩, hv, rfl⟩ := List.mem_map.mp hx
    rw [writeAll_of_mem hnd hv, writeAll_of_mem hnd hv]
  · have hx' : ∀ w ∈ ws', w.1 ≠ x := fun w hw h => hx (List.mem_map.mpr ⟨w, hw, h⟩)
    rw [writeAll_of_notMem hx', writeAll_of_notMem hx', writeAll_of_notMem]
    intro w hw h
    rw [← hcells] at hx
    exact hx (List.mem_map.mpr ⟨w, hw, h⟩)

/-- Updates in place of distinct cells write what the cells held before. -/
theorem foldl_update_eq_writeAll {α : Type*} {cell : α → κ} {f : α → S → S} : ∀ {l : List α}
    {m : κ → S}, (l.map cell).Nodup →
    l.foldl (fun m a => Function.update m (cell a) (f a (m (cell a)))) m
      = writeAll m (l.map fun a => (cell a, f a (m (cell a)))) := by
  intro l
  induction l with
  | nil => intro m _; rfl
  | cons a l ih =>
      intro m hnd
      rw [List.map_cons, List.nodup_cons] at hnd
      rw [List.foldl_cons, ih hnd.2, List.map_cons, writeAll_cons]
      refine congrArg (writeAll _) (List.map_congr_left ?_)
      intro b hb
      rw [Function.update_of_ne]
      intro h
      exact hnd.1 (List.mem_map.mpr ⟨b, hb, h⟩)

end Writes
