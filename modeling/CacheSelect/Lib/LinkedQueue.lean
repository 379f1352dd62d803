import Mathlib.Data.List.Chain
import Mathlib.Data.List.Nodup
import Mathlib.Logic.Function.Basic

/-! # Doubly linked lists

`Links` gives each node a pointer to the node before it and one to the node after it.  `s.Seg xs` says that the nodes
of `xs` are linked one after the other, in both directions.  Writing a link between two nodes keeps every segment
that has neither link in its middle (`Seg.link`); from this come the two operations of a linked list: putting nodes
between two neighbours (`Seg.splice`) and taking one out (`Seg.unlink`).  Following the pointers from the first node
gives the segment back (`walk_eq`).
-/

namespace CacheSelect.Lib

/-- The pointers of the nodes. -/
structure Links (N : Type*) where
  prev : N → Option N
  next : N → Option N

namespace Links

variable {N : Type*} [DecidableEq N] (s : Links N) {x y z : N} {xs ys : List N}

def empty (N : Type*) : Links N where
  prev := fun _ => none
  next := fun _ => none

def setPrev (x : N) (y : Option N) : Links N :=
  { s with prev := Function.update s.prev x y }

def setNext (x : N) (y : Option N) : Links N :=
  { s with next := Function.update s.next x y }

/-- Put `y` behind `x`. -/
def link (x y : N) : Links N :=
  (s.setPrev y (some x)).setNext x (some y)

/-- Reset both pointers of a node. -/
def clear (x : N) : Links N :=
  (s.setPrev x none).setNext x none

/-- Put the nodes behind `x`, one after the other. -/
def linkAll : N → List N → Links N → Links N
  | _, [], s => s
  | x, y :: ys, s => linkAll y ys (s.link x y)

/-- The nodes from `x` on that have a node behind them. -/
def walk (s : Links N) : Nat → N → Option (List N)
  | 0, _ => none
  | fuel + 1, x =>
      match s.next x with
      | none => some []
      | some y => (walk s fuel y).map (x :: ·)

def Linked (x y : N) : Prop :=
  s.next x = some y ∧ s.prev y = some x

/-- The nodes are linked one after the other. -/
def Seg (xs : List N) : Prop :=
  List.IsChain s.Linked xs

@[simp] theorem next_link : (s.link x y).next = Function.update s.next x (some y) := rfl

@[simp] theorem prev_link : (s.link x y).prev = Function.update s.prev y (some x) := rfl

@[simp] theorem next_clear : (s.clear x).next = Function.update s.next x none := rfl

@[simp] theorem prev_clear : (s.clear x).prev = Function.update s.prev x none := rfl

theorem linked_link (x y : N) : (s.link x y).Linked x y := by
  refine ⟨?_, ?_⟩
  · rw [next_link, Function.update_self]
  · rw [prev_link, Function.update_self]

theorem link_comm {u v : N} (hxu : x ≠ u) (hyv : y ≠ v) : (s.link x y).link u v = (s.link u v).link x y := by
  refine congrArg₂ Links.mk ?_ ?_
  · exact Function.update_comm hyv _ _ _
  · exact Function.update_comm hxu _ _ _

variable {s}

theorem Linked.link {u v : N} (h : s.Linked u v) (hu : u ≠ x) (hv : v ≠ y) : (s.link x y).Linked u v := by
  refine ⟨?_, ?_⟩
  · rw [next_link, Function.update_of_ne hu]
    exact h.1
  · rw [prev_link, Function.update_of_ne hv]
    exact h.2

theorem Linked.clear {u v : N} (h : s.Linked u v) (hu : u ≠ x) (hv : v ≠ x) : (s.clear x).Linked u v := by
  refine ⟨?_, ?_⟩
  · rw [next_clear, Function.update_of_ne hu]
    exact h.1
  · rw [prev_clear, Function.update_of_ne hv]
    exact h.2

/-! ### Segments -/

omit [DecidableEq N] in
theorem seg_singleton (s : Links N) (x : N) : s.Seg [x] := .singleton x

/-- **Frame**: a segment stays when a link is written that leaves none of its inner pointers. -/
theorem Seg.link (h : s.Seg xs) (hx : x ∉ xs.dropLast) (hy : y ∉ xs.tail) : (s.link x y).Seg xs := by
  induction xs with
  | nil => exact .nil
  | cons u xs ih =>
      cases xs with
      | nil => exact .singleton u
      | cons v xs =>
          obtain ⟨huv, hrest⟩ := List.isChain_cons_cons.mp h
          rw [List.dropLast_cons_cons, List.mem_cons, not_or] at hx
          rw [List.tail_cons, List.mem_cons, not_or] at hy
          exact List.isChain_cons_cons.mpr ⟨huv.link (Ne.symm hx.1) (Ne.symm hy.1), ih hrest hx.2 hy.2⟩

theorem Seg.clear (h : s.Seg xs) (hx : x ∉ xs) : (s.clear x).Seg xs := by
  induction xs with
  | nil => exact .nil
  | cons u xs ih =>
      cases xs with
      | nil => exact .singleton u
      | cons v xs =>
          obtain ⟨huv, hrest⟩ := List.isChain_cons_cons.mp h
          rw [List.mem_cons, not_or] at hx
          refine List.isChain_cons_cons.mpr ⟨huv.clear (Ne.symm hx.1) ?_, ih hrest hx.2⟩
          rintro rfl
          exact hx.2 List.mem_cons_self

/-- Two segments joined by a link. -/
theorem Seg.join (h : s.Seg (xs ++ [x])) (h' : s.Seg (y :: ys)) (hx : x ∉ xs) (hx' : x ∉ (y :: ys).dropLast)
    (hy : y ∉ ys) (hy' : y ∉ (xs ++ [x]).tail) : (s.link x y).Seg (xs ++ x :: y :: ys) := by
  refine List.isChain_append_cons_cons.mpr ⟨?_, s.linked_link x y, ?_⟩
  · refine Seg.link h ?_ hy'
    rw [List.dropLast_concat]
    exact hx
  · exact Seg.link h' hx' (by rw [List.tail_cons]; exact hy)

/-- **Putting nodes between two segments.** -/
theorem Seg.splice : ∀ (zs : List N) {s : Links N} {xs ys : List N} {x y : N}, s.Seg (xs ++ [x]) → s.Seg (y :: ys) →
    (xs ++ x :: (zs ++ y :: ys)).Nodup →
    ((linkAll x zs s).link ((x :: zs).getLast (List.cons_ne_nil x zs)) y).Seg (xs ++ x :: (zs ++ y :: ys)) := by
  intro zs
  induction zs with
  | nil =>
      intro s xs ys x y h h' hnodup
      rw [List.nil_append] at hnodup ⊢
      rw [List.nodup_append] at hnodup
      obtain ⟨-, hnodup, hdisjoint⟩ := hnodup
      obtain ⟨hx, hnodup⟩ := List.nodup_cons.mp hnodup
      refine Seg.join h h' (fun hmem => hdisjoint x hmem x List.mem_cons_self rfl)
        (fun hmem => hx (List.dropLast_subset _ hmem)) (List.nodup_cons.mp hnodup).1 ?_
      intro hmem
      rcases List.mem_append.mp (List.mem_of_mem_tail hmem) with hmem | hmem
      · exact hdisjoint y hmem y (List.mem_cons_of_mem _ List.mem_cons_self) rfl
      · rw [List.mem_singleton.mp hmem] at hx
        exact hx List.mem_cons_self
  | cons z zs ih =>
      intro s xs ys x y h h' hnodup
      have happend : xs ++ x :: (z :: zs ++ y :: ys) = (xs ++ [x]) ++ z :: (zs ++ y :: ys) := by
        rw [List.append_assoc, List.singleton_append, List.cons_append]
      rw [happend] at hnodup ⊢
      rw [List.nodup_append] at hnodup
      obtain ⟨hleft, hright, hdisjoint⟩ := hnodup
      have hz : z ∉ xs ++ [x] := fun hmem => hdisjoint z hmem z List.mem_cons_self rfl
      have hx : ∀ v ∈ z :: (zs ++ y :: ys), v ≠ x := fun v hv heq =>
        hdisjoint x (List.mem_append_right _ List.mem_cons_self) v hv heq.symm
      have hstart : (s.link x z).Seg ((xs ++ [x]) ++ [z]) := by
        rw [List.append_assoc, List.singleton_append]
        refine Seg.join h (seg_singleton s z) ?_ ?_ ?_ ?_
        · exact fun hmem => (List.nodup_append.mp hleft).2.2 x hmem x List.mem_cons_self rfl
        · rintro ⟨⟩
        · rintro ⟨⟩
        · exact fun hmem => hz (List.mem_of_mem_tail hmem)
      have hend : (s.link x z).Seg (y :: ys) := by
        refine Seg.link h' ?_ ?_
        · intro hmem
          exact hx x (List.mem_cons_of_mem _ (List.mem_append_right _ (List.dropLast_subset _ hmem))) rfl
        · intro hmem
          exact (List.nodup_cons.mp hright).1 (List.mem_append_right _ (List.mem_of_mem_tail hmem))
      rw [List.getLast_cons (List.cons_ne_nil z zs)]
      refine ih hstart hend ?_
      rw [List.nodup_append]
      exact ⟨hleft, hright, hdisjoint⟩

/-- **Taking a node out.** -/
theorem Seg.unlink (h : s.Seg (xs ++ x :: z :: y :: ys)) (hnodup : (xs ++ x :: z :: y :: ys).Nodup) :
    ((s.link x y).clear z).Seg (xs ++ x :: y :: ys) := by
  obtain ⟨hleft, -, hrest⟩ := List.isChain_append_cons_cons.mp h
  obtain ⟨-, hright⟩ := List.isChain_cons_cons.mp hrest
  rw [List.nodup_append] at hnodup
  obtain ⟨-, hnodup, hdisjoint⟩ := hnodup
  obtain ⟨hx, hnodup⟩ := List.nodup_cons.mp hnodup
  obtain ⟨hz, hnodup⟩ := List.nodup_cons.mp hnodup
  refine Seg.clear (Seg.join hleft hright ?_ ?_ (List.nodup_cons.mp hnodup).1 ?_) ?_
  · exact fun hmem => hdisjoint x hmem x List.mem_cons_self rfl
  · exact fun hmem => hx (List.mem_cons_of_mem _ (List.dropLast_subset _ hmem))
  · intro hmem
    rcases List.mem_append.mp (List.mem_of_mem_tail hmem) with hmem | hmem
    · exact hdisjoint y hmem y (List.mem_cons_of_mem _ (List.mem_cons_of_mem _ List.mem_cons_self)) rfl
    · rw [List.mem_singleton.mp hmem] at hx
      exact hx (List.mem_cons_of_mem _ List.mem_cons_self)
  · intro hmem
    rcases List.mem_append.mp hmem with hmem | hmem
    · exact hdisjoint z hmem z (List.mem_cons_of_mem _ List.mem_cons_self) rfl
    · rcases List.mem_cons.mp hmem with rfl | hmem
      · exact hx List.mem_cons_self
      · exact hz hmem

/-! ### Pointers outside -/

theorem next_linkAll_of_not_mem : ∀ (zs : List N) {s : Links N} {x u : N}, u ≠ x → u ∉ zs →
    (linkAll x zs s).next u = s.next u := by
  intro zs
  induction zs with
  | nil => exact fun _ _ => rfl
  | cons z zs ih =>
      intro s x u hu hmem
      rw [List.mem_cons, not_or] at hmem
      rw [linkAll, ih hmem.1 hmem.2, next_link, Function.update_of_ne hu]

theorem prev_linkAll_of_not_mem : ∀ (zs : List N) {s : Links N} {x u : N}, u ∉ zs →
    (linkAll x zs s).prev u = s.prev u := by
  intro zs
  induction zs with
  | nil => exact fun _ => rfl
  | cons z zs ih =>
      intro s x u hmem
      rw [List.mem_cons, not_or] at hmem
      rw [linkAll, ih hmem.2, prev_link, Function.update_of_ne hmem.1]

/-! ### Walking -/

omit [DecidableEq N] in
/-- **Following the pointers** gives the segment up to a node with none behind it. -/
theorem walk_eq : ∀ (xs : List N) {s : Links N} {x y : N} {fuel : Nat}, s.Seg (x :: xs ++ [y]) → s.next y = none →
    xs.length + 1 < fuel → s.walk fuel x = some (x :: xs) := by
  intro xs
  induction xs with
  | nil =>
      intro s x y fuel h hend hfuel
      obtain ⟨fuel, rfl⟩ : ∃ n, fuel = n + 2 := ⟨fuel - 2, by omega⟩
      have hlink := (List.isChain_cons_cons.mp h).1.1
      rw [walk, hlink]
      dsimp only
      rw [walk, hend]
      rfl
  | cons z xs ih =>
      intro s x y fuel h hend hfuel
      rw [List.length_cons] at hfuel
      obtain ⟨fuel, rfl⟩ : ∃ n, fuel = n + 1 := ⟨fuel - 1, by omega⟩
      obtain ⟨hlink, hrest⟩ := List.isChain_cons_cons.mp h
      rw [walk, hlink.1]
      dsimp only
      rw [ih hrest hend (by omega)]
      rfl

end Links

end CacheSelect.Lib
