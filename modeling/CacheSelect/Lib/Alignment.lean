import CacheSelect.Lib.Segments
import Mathlib.Data.List.Infix

/-! # Alignments of two lists

The operations of an alignment are items that follow one another through each of the two lists; they may be empty in
one of them (`Consecutive`).  The positions that the items of one kind cover are counted by the lengths of these items
(`sum_before`), also up to a position in the middle of an item.

Around two places that are put side by side, the numbers of equal blocks before and behind them are runs:
a number of blocks is within the run exactly if the two stretches of that length are equal (`slice_eq_iff_before`,
`slice_eq_iff_after`).
-/

namespace Alignment

open Segments (slice slice_append length_slice)

variable {α : Type*}

/-! ### Consecutive items -/

def Consecutive (start stop : α → Nat) : Nat → List α → Nat → Prop
  | a, [], b => a = b
  | a, x :: xs, b => start x = a ∧ a ≤ stop x ∧ Consecutive start stop (stop x) xs b

/-- The position is in an item of the kind. -/
def covered (start stop : α → Nat) (kind : α → Bool) (xs : List α) (position : Nat) : Bool :=
  xs.any fun x => kind x && (decide (start x ≤ position) && decide (position < stop x))

variable {start stop : α → Nat} {kind : α → Bool}

theorem covered_cons (x : α) (xs : List α) (position : Nat) :
    covered start stop kind (x :: xs) position
      = (kind x && (decide (start x ≤ position) && decide (position < stop x))
        || covered start stop kind xs position) :=
  List.any_cons

theorem Consecutive.le_of_covered : ∀ {xs : List α} {a b position : Nat}, Consecutive start stop a xs b →
    covered start stop kind xs position = true → a ≤ position := by
  intro xs
  induction xs with
  | nil => intro a b position _ h; cases h
  | cons x xs ih =>
      intro a b position hx h
      obtain ⟨hstart, hle, hrest⟩ := hx
      rw [covered_cons, Bool.or_eq_true] at h
      rcases h with h | h
      · obtain ⟨-, h⟩ := Bool.and_eq_true_iff.mp h
        obtain ⟨h, -⟩ := Bool.and_eq_true_iff.mp h
        rw [← hstart]
        exact of_decide_eq_true h
      · exact Nat.le_trans hle (ih hrest h)

/-- **Every position is in one item**, of the kind or not. -/
theorem Consecutive.covered_not : ∀ {xs : List α} {a b position : Nat}, Consecutive start stop a xs b →
    a ≤ position → position < b →
      covered start stop (fun x => !kind x) xs position = !covered start stop kind xs position := by
  intro xs
  induction xs with
  | nil =>
      intro a b position h hle hlt
      have hab : a = b := h
      omega
  | cons x xs ih =>
      intro a b position hx hle hlt
      obtain ⟨hstart, hstop, hrest⟩ := hx
      rw [covered_cons, covered_cons]
      by_cases hin : position < stop x
      · have hnone : ∀ kind' : α → Bool, covered start stop kind' xs position = false := by
          intro kind'
          refine Bool.eq_false_iff.mpr fun h => ?_
          exact absurd (hrest.le_of_covered h) (Nat.not_le_of_lt hin)
        rw [hnone, hnone, Bool.or_false, Bool.or_false, decide_eq_true hin, hstart, decide_eq_true hle,
          Bool.and_self, Bool.and_true, Bool.and_true]
      · rw [decide_eq_false hin, Bool.and_false, Bool.and_false, Bool.and_false, Bool.false_or, Bool.false_or]
        exact ih hrest (Nat.le_of_not_lt hin) hlt

theorem countP_range_between (a b t : Nat) :
    (List.range t).countP (fun position => decide (a ≤ position) && decide (position < b)) = min b t - a := by
  induction t with
  | zero => rw [Nat.min_zero, Nat.zero_sub]; rfl
  | succ t ih =>
      rw [List.range_succ, List.countP_append, ih, List.countP_singleton]
      by_cases hin : a ≤ t ∧ t < b
      · rw [decide_eq_true hin.1, decide_eq_true hin.2, Bool.and_self, if_pos rfl]
        omega
      · have hout : (decide (a ≤ t) && decide (t < b)) = false := by
          refine Bool.eq_false_iff.mpr fun h => hin ?_
          obtain ⟨h, h'⟩ := Bool.and_eq_true_iff.mp h
          exact ⟨of_decide_eq_true h, of_decide_eq_true h'⟩
        rw [hout, if_neg Bool.false_ne_true]
        omega

theorem countP_or_of_disjoint {p q : Nat → Bool} (h : ∀ i, p i = true → q i = false) (l : List Nat) :
    l.countP (fun i => p i || q i) = l.countP p + l.countP q := by
  induction l with
  | nil => rfl
  | cons i l ih =>
      rw [List.countP_cons, List.countP_cons, List.countP_cons, ih]
      by_cases hp : p i = true
      · rw [hp, h i hp, Bool.or_false, if_pos rfl, if_neg Bool.false_ne_true]
        omega
      · rw [Bool.eq_false_iff.mpr hp, Bool.false_or, if_neg Bool.false_ne_true]
        omega

/-- **The lengths of the items of a kind**, cut at a position, are the number of positions before it that these items
cover. -/
theorem sum_before (kind : α → Bool) (t : Nat) : ∀ {xs : List α} {a b : Nat}, Consecutive start stop a xs b →
    ((xs.filter kind).map fun x => min (stop x) t - start x).sum
      = (List.range t).countP (covered start stop kind xs) := by
  intro xs
  induction xs with
  | nil =>
      intro a b _
      exact (List.countP_eq_zero.mpr fun _ _ => Bool.false_ne_true).symm
  | cons x xs ih =>
      intro a b hx
      obtain ⟨hstart, hstop, hrest⟩ := hx
      have hcons : (List.range t).countP (covered start stop kind (x :: xs))
          = (List.range t).countP
              (fun position => kind x && (decide (start x ≤ position) && decide (position < stop x)))
            + (List.range t).countP (covered start stop kind xs) := by
        rw [← countP_or_of_disjoint]
        · exact List.countP_congr fun position _ => by rw [covered_cons]
        · intro position hposition
          obtain ⟨-, hposition⟩ := Bool.and_eq_true_iff.mp hposition
          obtain ⟨-, hlt⟩ := Bool.and_eq_true_iff.mp hposition
          refine Bool.eq_false_iff.mpr fun h => ?_
          exact absurd (hrest.le_of_covered h) (Nat.not_le_of_lt (of_decide_eq_true hlt))
      rw [hcons, ← ih hrest]
      cases hkind : kind x with
      | true =>
          rw [List.filter_cons_of_pos hkind, List.map_cons, List.sum_cons, ← countP_range_between]
          rfl
      | false =>
          rw [List.filter_cons_of_neg (Bool.eq_false_iff.mp hkind)]
          have hzero : (List.range t).countP
              (fun position => false && (decide (start x ≤ position) && decide (position < stop x))) = 0 :=
            List.countP_eq_zero.mpr fun _ _ => Bool.false_ne_true
          rw [hzero, Nat.zero_add]

/-! ### Runs of equal blocks -/

theorem le_length_takeWhile_range {p : Nat → Bool} : ∀ {n k : Nat},
    k ≤ ((List.range n).takeWhile p).length ↔ k ≤ n ∧ ∀ j < k, p j = true := by
  intro n
  induction n with
  | zero =>
      intro k
      constructor
      · intro h
        have hk : k = 0 := Nat.le_zero.mp h
        subst hk
        exact ⟨Nat.le_refl _, fun j hj => absurd hj (Nat.not_lt_zero j)⟩
      · exact fun h => h.1
  | succ n ih =>
      intro k
      rw [List.range_succ, List.takeWhile_append]
      by_cases hall : ((List.range n).takeWhile p).length = (List.range n).length
      · rw [if_pos hall, List.length_append, List.length_range, List.takeWhile_cons]
        have hbefore : ∀ j < n, p j = true := (ih.mp (by rw [hall, List.length_range])).2
        cases hn : p n with
        | true =>
            rw [if_pos rfl, List.takeWhile_nil, List.length_singleton]
            refine ⟨fun hk => ⟨hk, fun j hj => ?_⟩, fun h => h.1⟩
            rcases Nat.lt_or_ge j n with hjn | hjn
            · exact hbefore j hjn
            · rw [Nat.le_antisymm (by omega) hjn]
              exact hn
        | false =>
            rw [if_neg Bool.false_ne_true, List.length_nil, Nat.add_zero]
            refine ⟨fun hk => ⟨Nat.le_succ_of_le hk, fun j hj => hbefore j (by omega)⟩, fun h => ?_⟩
            refine Nat.le_of_lt_succ (Nat.lt_of_le_of_ne h.1 ?_)
            rintro rfl
            rw [h.2 n (Nat.lt_succ_self n)] at hn
            cases hn
      · rw [if_neg hall, ih]
        refine ⟨fun h => ⟨Nat.le_succ_of_le h.1, h.2⟩, fun h => ⟨?_, h.2⟩⟩
        refine Nat.le_of_lt_succ (Nat.lt_of_le_of_ne h.1 ?_)
        rintro rfl
        have hfull : n ≤ ((List.range n).takeWhile p).length := ih.mpr ⟨Nat.le_refl n, fun j hj => h.2 j (by omega)⟩
        have hle := (List.takeWhile_prefix (l := List.range n) p).length_le
        rw [List.length_range] at hle hall
        omega

theorem append_eq_append_iff_of_length {l l' m m' : List α} (h : l.length = l'.length) :
    l ++ m = l' ++ m' ↔ l = l' ∧ m = m' :=
  ⟨fun heq => List.append_inj heq h, fun heq => by rw [heq.1, heq.2]⟩

/-- Stretches are equal exactly if their blocks are. -/
theorem slice_eq_iff_after {l m : List α} {a b size : Nat} : ∀ {k : Nat}, a + k * size ≤ l.length →
    b + k * size ≤ m.length →
      (slice l a (a + k * size) = slice m b (b + k * size) ↔
        ∀ j < k, slice l (a + j * size) (a + j * size + size) = slice m (b + j * size) (b + j * size + size)) := by
  intro k
  induction k with
  | zero =>
      intro _ _
      rw [Nat.zero_mul, Nat.add_zero, Nat.add_zero, Segments.slice_self, Segments.slice_self]
      exact ⟨fun _ j hj => absurd hj (Nat.not_lt_zero j), fun _ => rfl⟩
  | succ k ih =>
      intro hl hm
      have hsize : (k + 1) * size = k * size + size := Nat.succ_mul k size
      rw [hsize, ← Nat.add_assoc] at hl hm
      rw [hsize, ← Nat.add_assoc, ← Nat.add_assoc,
        ← slice_append l (Nat.le_add_right a (k * size)) (Nat.le_add_right (a + k * size) size),
        ← slice_append m (Nat.le_add_right b (k * size)) (Nat.le_add_right (b + k * size) size)]
      have hlength : (slice l a (a + k * size)).length = (slice m b (b + k * size)).length := by
        rw [length_slice l (by omega), length_slice m (by omega)]
        omega
      rw [append_eq_append_iff_of_length hlength, ih (by omega) (by omega)]
      constructor
      · rintro ⟨hbefore, hlast⟩ j hj
        rcases Nat.lt_or_ge j k with hjk | hjk
        · exact hbefore j hjk
        · rw [Nat.le_antisymm (by omega) hjk]
          exact hlast
      · exact fun h => ⟨fun j hj => h j (by omega), h k (Nat.lt_succ_self k)⟩

theorem slice_eq_iff_before {l m : List α} {a b size : Nat} (ha : a ≤ l.length) (hb : b ≤ m.length) :
    ∀ {k : Nat}, k * size ≤ a → k * size ≤ b →
      (slice l (a - k * size) a = slice m (b - k * size) b ↔
        ∀ j < k, slice l (a - (j + 1) * size) (a - (j + 1) * size + size)
          = slice m (b - (j + 1) * size) (b - (j + 1) * size + size)) := by
  intro k
  induction k with
  | zero =>
      intro _ _
      rw [Nat.zero_mul, Nat.sub_zero, Nat.sub_zero, Segments.slice_self, Segments.slice_self]
      exact ⟨fun _ j hj => absurd hj (Nat.not_lt_zero j), fun _ => rfl⟩
  | succ k ih =>
      intro hka hkb
      have hsize : (k + 1) * size = k * size + size := Nat.succ_mul k size
      have hla : a - (k + 1) * size + size = a - k * size := by omega
      have hlb : b - (k + 1) * size + size = b - k * size := by omega
      rw [← slice_append l (Nat.le_add_right (a - (k + 1) * size) size) (by omega),
        ← slice_append m (Nat.le_add_right (b - (k + 1) * size) size) (by omega)]
      have hlength : (slice l (a - (k + 1) * size) (a - (k + 1) * size + size)).length
          = (slice m (b - (k + 1) * size) (b - (k + 1) * size + size)).length := by
        rw [length_slice l (by omega), length_slice m (by omega)]
        omega
      rw [append_eq_append_iff_of_length hlength, hla, hlb, ih (by omega) (by omega), ← hla, ← hlb]
      constructor
      · rintro ⟨hlast, hbefore⟩ j hj
        rcases Nat.lt_or_ge j k with hjk | hjk
        · exact hbefore j hjk
        · rw [Nat.le_antisymm (by omega) hjk]
          exact hlast
      · exact fun h => ⟨h k (Nat.lt_succ_self k), fun j hj => h j (by omega)⟩

end Alignment
