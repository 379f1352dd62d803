import Mathlib.Data.List.Basic
import Mathlib.Data.List.Infix
import Mathlib.Tactic.Common
import Mathlib.Algebra.Order.BigOperators.Group.List
import Mathlib.Algebra.Order.Group.Nat
import Mathlib.Algebra.Ring.Nat

/-! # Drawing in rounds

A draw goes over its keys again and again, takes one item from each key that still has one, and stops in the middle
of a pass (`pass`) as soon as enough is drawn.  What a pass does to the state it is given is left open; `pass_rec`
is the invariant rule, and `count_lt_pass` says that a pass which can take something does.

Where the items of a key stand in a list and round `i` takes the one at index `i`, the whole draw is the start of
one list, the draw order (`pass_append`).  Every start of it is balanced (`exists_level`): the keys have given their
items of the first `r` rounds, and some of them one more.
-/

namespace RoundRobin

section Pass

variable {κ σ : Type*} (take : κ → σ → Option σ) (count : σ → Nat) (n : Nat)

/-- One pass over the keys, which ends when `n` are drawn. -/
def pass : List κ → σ → σ
  | [], s => s
  | k :: ks, s =>
      match take k s with
      | none => pass ks s
      | some s' => if count s' = n then s' else pass ks s'

variable {take count n}

theorem pass_cons_none {k : κ} {s : σ} (h : take k s = none) (ks : List κ) :
    pass take count n (k :: ks) s = pass take count n ks s := by
  rw [pass, h]

theorem pass_cons_some {k : κ} {s s' : σ} (h : take k s = some s') (ks : List κ) :
    pass take count n (k :: ks) s = if count s' = n then s' else pass take count n ks s' := by
  rw [pass, h]

/-- **The invariant rule**: what every take keeps, a pass keeps. -/
theorem pass_rec {P : σ → Prop} (htake : ∀ k s s', P s → take k s = some s' → P s') :
    ∀ (ks : List κ) (s : σ), P s → P (pass take count n ks s) := by
  intro ks
  induction ks with
  | nil => exact fun s hs => hs
  | cons k ks ih =>
      intro s hs
      cases h : take k s with
      | none =>
          rw [pass_cons_none h]
          exact ih s hs
      | some s' =>
          have hs' := htake k s s' hs h
          rw [pass_cons_some h]
          split
          · exact hs'
          · exact ih s' hs'

section Counting

variable (hcount : ∀ k s s', take k s = some s' → count s' = count s + 1)
include hcount

theorem le_count_pass (ks : List κ) (s : σ) : count s ≤ count (pass take count n ks s) := by
  refine pass_rec (P := fun s' => count s ≤ count s') ?_ ks s (Nat.le_refl _)
  intro k s₁ s₂ h₁ h
  have := hcount k s₁ s₂ h
  omega

/-- A pass does not draw too much. -/
theorem count_pass_le : ∀ (ks : List κ) {s : σ}, count s < n → count (pass take count n ks s) ≤ n := by
  intro ks
  induction ks with
  | nil => exact fun h => Nat.le_of_lt h
  | cons k ks ih =>
      intro s hs
      cases h : take k s with
      | none =>
          rw [pass_cons_none h]
          exact ih hs
      | some s' =>
          have hs' := hcount k s s' h
          rw [pass_cons_some h]
          split
          · omega
          · exact ih (by omega)

/-- **Progress**: a pass takes something if any key of it has something to give. -/
theorem count_lt_pass : ∀ {ks : List κ} {s : σ}, (∃ k ∈ ks, (take k s).isSome = true) →
    count s < count (pass take count n ks s) := by
  intro ks
  induction ks with
  | nil => intro s ⟨k, hk, _⟩; cases hk
  | cons k ks ih =>
      intro s ⟨k', hk', hsome⟩
      cases h : take k s with
      | none =>
          rw [pass_cons_none h]
          rcases List.mem_cons.mp hk' with rfl | hk'
          · rw [h] at hsome
            cases hsome
          · exact ih ⟨k', hk', hsome⟩
      | some s' =>
          have hs' := hcount k s s' h
          rw [pass_cons_some h]
          split
          · omega
          · have := le_count_pass hcount (n := n) ks s'
            omega

end Counting

end Pass

/-! ### Items in lists -/

section Order

variable {κ α : Type*} (items : κ → List α) (keys : List κ)

/-- The items of one round. -/
def roundItems (i : Nat) : List α :=
  keys.filterMap fun k => (items k)[i]?

/-- The items of the first `r` rounds in the order in which they are drawn. -/
def drawOrder (r : Nat) : List α :=
  (List.range r).flatMap (roundItems items keys)

variable {items keys}

theorem drawOrder_succ (r : Nat) :
    drawOrder items keys (r + 1) = drawOrder items keys r ++ roundItems items keys r := by
  rw [drawOrder, List.range_succ, List.flatMap_append, List.flatMap_singleton]
  rfl

theorem roundItems_cons (k : κ) (ks : List κ) (i : Nat) :
    roundItems items (k :: ks) i = (items k)[i]?.toList ++ roundItems items ks i := by
  rw [roundItems, roundItems, List.filterMap_cons]
  cases (items k)[i]? with
  | none => rfl
  | some a => rfl

/-- A pass over item lists appends the items of its round, up to the number wanted. -/
theorem pass_append {i n : Nat} {take : κ → List α → Option (List α)}
    (htake : ∀ k s, take k s = (items k)[i]?.map fun a => s ++ [a]) :
    ∀ (ks : List κ) {s : List α}, s.length < n →
      pass take List.length n ks s = (s ++ roundItems items ks i).take n := by
  intro ks
  induction ks with
  | nil =>
      intro s hs
      rw [pass, roundItems, List.filterMap_nil, List.append_nil, List.take_of_length_le (Nat.le_of_lt hs)]
  | cons k ks ih =>
      intro s hs
      have hk := htake k s
      rw [roundItems_cons]
      cases h : (items k)[i]? with
      | none =>
          rw [h, Option.map_none] at hk
          rw [pass_cons_none hk, ih hs, Option.toList_none, List.nil_append]
      | some a =>
          have hlen : (s ++ [a]).length = s.length + 1 := List.length_append
          rw [h, Option.map_some] at hk
          rw [pass_cons_some hk, Option.toList_some, ← List.append_assoc]
          split
          · next hn => rw [List.take_append_of_le_length (by omega), List.take_of_length_le (by omega)]
          · exact ih (by omega)

/-- The number of items that a key has given in the first rounds. -/
theorem length_take_of_getElem? {l : List α} {r : Nat} :
    (l.take (r + 1)).length = (l.take r).length + l[r]?.toList.length := by
  rw [List.length_take, List.length_take]
  rcases Nat.lt_or_ge r l.length with h | h
  · rw [List.getElem?_eq_getElem h, Option.toList_some, List.length_singleton]
    omega
  · rw [List.getElem?_eq_none h, Option.toList_none, List.length_nil]
    omega

section Levels

variable [DecidableEq κ] {key : α → κ} (hkey : ∀ k, ∀ a ∈ items k, key a = k)
include hkey

/-- What a round has from one key. -/
theorem countP_roundItems (hn : keys.Nodup) (i : Nat) (k : κ) :
    (roundItems items keys i).countP (fun a => key a = k)
      = if k ∈ keys then ((items k)[i]?).toList.length else 0 := by
  induction keys with
  | nil => rfl
  | cons k' ks ih =>
      obtain ⟨hk', hn⟩ := List.nodup_cons.mp hn
      have hown : ∀ a, (items k')[i]? = some a → key a = k' :=
        fun a ha => hkey k' a (List.mem_of_getElem? ha)
      have hfirst : (items k')[i]?.toList.countP (fun a => key a = k)
          = if k = k' then (items k')[i]?.toList.length else 0 := by
        cases h : (items k')[i]? with
        | none =>
            split
            · rfl
            · rfl
        | some a =>
            rw [Option.toList_some, List.countP_singleton, hown a h, List.length_singleton]
            simp only [decide_eq_true_eq, @eq_comm _ k']
      rw [roundItems_cons, List.countP_append, hfirst, ih hn]
      by_cases hkk : k = k'
      · subst hkk
        rw [if_pos rfl, if_neg hk', if_pos List.mem_cons_self, Nat.add_zero]
      · have hmem : k ∈ k' :: ks ↔ k ∈ ks := by
          rw [List.mem_cons]
          exact or_iff_right hkk
        simp only [hmem, if_neg hkk, Nat.zero_add]

/-- After `r` rounds every key has given its first `r` items. -/
theorem countP_drawOrder (hn : keys.Nodup) {k : κ} (hk : k ∈ keys) (r : Nat) :
    (drawOrder items keys r).countP (fun a => key a = k) = ((items k).take r).length := by
  induction r with
  | zero => rfl
  | succ r ih =>
      rw [drawOrder_succ, List.countP_append, ih, countP_roundItems hkey hn, if_pos hk,
        length_take_of_getElem?]

/-- **Every start of a draw is balanced**: there is a round that every key has been through, and none has been
through more than the next one. -/
theorem exists_level (hn : keys.Nodup) {r : Nat} {s : List α} (hs : s <+: drawOrder items keys r) :
    ∃ level, ∀ k ∈ keys, ((items k).take level).length ≤ s.countP (fun a => key a = k) ∧
      s.countP (fun a => key a = k) ≤ ((items k).take (level + 1)).length := by
  induction r with
  | zero =>
      have hnil : s = [] := List.prefix_nil.mp hs
      subst hnil
      refine ⟨0, fun k _ => ⟨?_, Nat.zero_le _⟩⟩
      rw [List.take_zero]
      exact Nat.zero_le _
  | succ r ih =>
      rcases List.prefix_or_prefix_of_prefix hs ((drawOrder_succ r) ▸ List.prefix_append _ _) with h | h
      · exact ih h
      · refine ⟨r, fun k hk => ?_⟩
        rw [← countP_drawOrder hkey hn hk r, ← countP_drawOrder hkey hn hk (r + 1)]
        exact ⟨h.sublist.countP_le, hs.sublist.countP_le⟩

end Levels

/-! ### The whole draw -/

/-- After `r` rounds exactly the first `r` items of every key are drawn. -/
theorem drawOrder_perm (r : Nat) : (drawOrder items keys r).Perm (keys.flatMap fun k => (items k).take r) := by
  have hround : ∀ (r : Nat) (ks : List κ), ((ks.flatMap fun k => (items k).take r) ++ roundItems items ks r).Perm
      (ks.flatMap fun k => (items k).take (r + 1)) := by
    intro r ks
    induction ks with
    | nil => exact List.Perm.refl _
    | cons k ks ih =>
        rw [List.flatMap_cons, List.flatMap_cons, roundItems_cons, List.take_add_one, List.append_assoc,
          List.append_assoc]
        refine List.Perm.append_left _ ?_
        rw [← List.append_assoc]
        exact (List.perm_append_comm.append_right _).trans
          ((List.append_assoc ..).symm ▸ ih.append_left _)
  induction r with
  | zero =>
      have hnil : (keys.flatMap fun k => (items k).take 0) = [] :=
        List.flatMap_eq_nil_iff.mpr fun k _ => List.take_zero
      rw [hnil]
      exact List.Perm.refl _
  | succ r ih =>
      rw [drawOrder_succ]
      exact (ih.append_right _).trans (hround r keys)

theorem length_drawOrder (r : Nat) :
    (drawOrder items keys r).length = (keys.map fun k => min (items k).length r).sum := by
  rw [(drawOrder_perm r).length_eq, List.length_flatMap]
  refine congrArg List.sum (List.map_congr_left fun k _ => ?_)
  rw [List.length_take, Nat.min_comm]

theorem length_roundItems_add (ks : List κ) (i : Nat) :
    (ks.map fun k => min (items k).length i).sum + (roundItems items ks i).length
      = (ks.map fun k => min (items k).length (i + 1)).sum := by
  rw [← length_drawOrder, ← length_drawOrder, drawOrder_succ, List.length_append]

theorem isPrefix_drawOrder {i r : Nat} (h : i ≤ r) : drawOrder items keys i <+: drawOrder items keys r := by
  obtain ⟨d, rfl⟩ := Nat.exists_eq_add_of_le h
  rw [drawOrder, drawOrder, List.range_add, List.flatMap_append]
  exact List.prefix_append _ _

/-- The place of an item in its round. -/
theorem exists_of_lt_roundItems {i : Nat} : ∀ {ks : List κ} {j : Nat}, j < (roundItems items ks i).length →
    ∃ front c back, ks = front ++ c :: back ∧ i < (items c).length ∧ j = (roundItems items front i).length := by
  intro ks
  induction ks with
  | nil => intro j hj; cases hj
  | cons k ks ih =>
      intro j hj
      rw [roundItems_cons, List.length_append] at hj
      rcases Nat.lt_or_ge i (items k).length with hi | hi
      · cases j with
        | zero => exact ⟨[], k, ks, rfl, hi, rfl⟩
        | succ j =>
            rw [List.getElem?_eq_getElem hi, Option.toList_some, List.length_singleton] at hj
            obtain ⟨front, c, back, rfl, hc, hplace⟩ := ih (j := j) (by omega)
            refine ⟨k :: front, c, back, rfl, hc, ?_⟩
            rw [roundItems_cons, List.length_append, List.getElem?_eq_getElem hi, Option.toList_some,
              List.length_singleton, hplace, Nat.add_comm]
      · rw [List.getElem?_eq_none hi, Option.toList_none, List.length_nil, Nat.zero_add] at hj
        obtain ⟨front, c, back, rfl, hc, hplace⟩ := ih hj
        refine ⟨k :: front, c, back, rfl, hc, ?_⟩
        rw [roundItems_cons, List.length_append, List.getElem?_eq_none hi, Option.toList_none, List.length_nil,
          Nat.zero_add, hplace]

section Places

variable [LinearOrder κ]

/-- The number of items that are drawn before item `i` of a key, by the number of items of each key. -/
def place (size : κ → Nat) (keys : List κ) (c : κ) (i : Nat) : Nat :=
  (keys.map fun k => min (size k) (if k < c then i + 1 else i)).sum

theorem place_mono (size : κ → Nat) (keys : List κ) (c : κ) {i j : Nat} (h : i ≤ j) :
    place size keys c i ≤ place size keys c j := by
  refine List.sum_le_sum fun k _ => ?_
  split
  · omega
  · omega

/-- The items before those of a key: the earlier rounds, and this round's of the keys before it. -/
theorem place_eq {front back : List κ} {c : κ} (h : (front ++ c :: back).Pairwise (· < ·)) (i : Nat) :
    place (fun k => (items k).length) (front ++ c :: back) c i
      = (drawOrder items (front ++ c :: back) i).length + (roundItems items front i).length := by
  obtain ⟨-, hback, hcross⟩ := List.pairwise_append.mp h
  have hfront : (front.map fun k => min (items k).length (if k < c then i + 1 else i))
      = front.map fun k => min (items k).length (i + 1) :=
    List.map_congr_left fun k hk => by rw [if_pos (hcross k hk c List.mem_cons_self)]
  have hrest : ((c :: back).map fun k => min (items k).length (if k < c then i + 1 else i))
      = (c :: back).map fun k => min (items k).length i := by
    refine List.map_congr_left fun k hk => ?_
    rcases List.mem_cons.mp hk with rfl | hk
    · rw [if_neg (lt_irrefl k)]
    · rw [if_neg (not_lt_of_gt ((List.pairwise_cons.mp hback).1 k hk))]
  rw [place, List.map_append, hfront, hrest, List.sum_append, ← length_roundItems_add, length_drawOrder,
    List.map_append, List.sum_append]
  omega

/-- **Where an item stands in the draw.** -/
theorem getElem?_drawOrder (hn : keys.Pairwise (· < ·)) {c : κ} (hc : c ∈ keys) {i r : Nat}
    (hi : i < (items c).length) (hr : i < r) :
    (drawOrder items keys r)[place (fun k => (items k).length) keys c i]? = (items c)[i]? := by
  obtain ⟨front, back, rfl⟩ := List.append_of_mem hc
  obtain ⟨later, hlater⟩ := @isPrefix_drawOrder _ _ items (front ++ c :: back) _ _ hr
  have hround : roundItems items (front ++ c :: back) i
      = roundItems items front i ++ (items c)[i] :: roundItems items back i := by
    rw [roundItems, List.filterMap_append, ← roundItems, ← roundItems, roundItems_cons,
      List.getElem?_eq_getElem hi]
    rfl
  rw [place_eq hn, ← hlater, drawOrder_succ, hround, List.append_assoc, List.append_assoc,
    List.getElem?_append_right (Nat.le_add_right _ _), Nat.add_sub_cancel_left,
    List.getElem?_append_right (Nat.le_refl _), Nat.sub_self, List.getElem?_eq_getElem hi]
  rfl

/-- Every place of the draw belongs to an item. -/
theorem exists_place (hn : keys.Pairwise (· < ·)) {r : Nat} : ∀ {j : Nat}, j < (drawOrder items keys r).length →
    ∃ c ∈ keys, ∃ i, i < r ∧ i < (items c).length ∧ j = place (fun k => (items k).length) keys c i := by
  induction r with
  | zero => intro j hj; cases hj
  | succ r ih =>
      intro j hj
      rw [drawOrder_succ, List.length_append] at hj
      rcases Nat.lt_or_ge j (drawOrder items keys r).length with hlt | hge
      · obtain ⟨c, hc, i, hi, hlen, hj⟩ := ih hlt
        exact ⟨c, hc, i, Nat.lt_succ_of_lt hi, hlen, hj⟩
      · obtain ⟨front, c, back, hkeys, hc, hplace⟩ :=
          @exists_of_lt_roundItems _ _ items r keys (j - (drawOrder items keys r).length) (by omega)
        subst hkeys
        refine ⟨c, List.mem_append_right _ List.mem_cons_self, r, Nat.lt_succ_self r, hc, ?_⟩
        rw [place_eq hn, ← hplace]
        omega

end Places

end Order

end RoundRobin
