import CacheSelect.Lib.Cut
import CacheSelect.Lib.OrderedDict
import Mathlib.Data.List.Dedup
import Mathlib.Data.List.MinMax
import Mathlib.Data.List.Sort
import Mathlib.Tactic.Common

/-! # The lowest element of every key, in the order of their ranks

A loop goes over a list and keeps, in a dictionary, the element of the lowest rank under each key (`kept`); the first
of equal ones stays.  What it keeps is then sorted by rank (`ranked`), which leaves equal ones in their order.

The ranks that come out depend on the elements only and not on their order (`map_rank_ranked_perm`).  Which elements
come out does: an element that no other of its key is below can be put at the front of the list, and then it stands
before all others of its rank (`ranked_head`).
-/

namespace LeastPerKey

variable {κ α β : Type*} [DecidableEq κ] [LinearOrder β]

section Kept

variable (key : α → κ) (rank : α → β)

/-- The loop body. -/
def keep (d : List (κ × α)) (a : α) : List (κ × α) :=
  match OrderedDict.get d (key a) with
  | none => OrderedDict.assign d (key a) a
  | some b => if rank a < rank b then OrderedDict.assign d (key a) a else d

def kept (l : List α) : List (κ × α) :=
  l.foldl (keep key rank) []

/-- The elements that are kept. -/
def values (l : List α) : List α :=
  (kept key rank l).map Prod.snd

variable {key rank}

theorem kept_concat (l : List α) (a : α) : kept key rank (l ++ [a]) = keep key rank (kept key rank l) a :=
  List.foldl_concat ..

theorem keys_keep (d : List (κ × α)) (a : α) :
    OrderedDict.keys (keep key rank d a)
      = if key a ∈ OrderedDict.keys d then OrderedDict.keys d else OrderedDict.keys d ++ [key a] := by
  rw [keep]
  split
  · exact OrderedDict.keys_assign d (key a) a
  · next b hb =>
    have hmem : key a ∈ OrderedDict.keys d := OrderedDict.mem_keys_iff_get.mpr (by rw [hb]; rfl)
    rw [if_pos hmem]
    by_cases hlt : rank a < rank b
    · rw [if_pos hlt, OrderedDict.keys_assign, if_pos hmem]
    · rw [if_neg hlt]

/-- The entry of an element's key is the element, unless one that is not above it is there. -/
theorem get_keep_self (d : List (κ × α)) (a : α) :
    OrderedDict.get (keep key rank d a) (key a)
      = Option.casesOn (OrderedDict.get d (key a)) (some a) fun b => if rank a < rank b then some a else some b := by
  rw [keep]
  cases hget : OrderedDict.get d (key a) with
  | none => exact (OrderedDict.get_assign _ _ _ _).trans (if_pos rfl)
  | some b =>
      dsimp only
      split
      · exact (OrderedDict.get_assign _ _ _ _).trans (if_pos rfl)
      · exact hget

theorem get_keep_of_ne (d : List (κ × α)) {a : α} {k : κ} (hk : k ≠ key a) :
    OrderedDict.get (keep key rank d a) k = OrderedDict.get d k := by
  rw [keep]
  split
  · exact (OrderedDict.get_assign _ _ _ _).trans (if_neg hk)
  · split
    · exact (OrderedDict.get_assign _ _ _ _).trans (if_neg hk)
    · rfl

theorem nodup_keys_kept (l : List α) : (OrderedDict.keys (kept key rank l)).Nodup := by
  induction l using List.reverseRecOn with
  | nil => exact List.nodup_nil
  | append_singleton l a ih =>
      rw [kept_concat, keys_keep]
      split
      · exact ih
      · next hk =>
        refine List.nodup_append.mpr ⟨ih, List.nodup_singleton _, ?_⟩
        rintro y hy z hz rfl
        rw [List.mem_singleton.mp hz] at hy
        exact hk hy

theorem mem_keys_kept {l : List α} {k : κ} : k ∈ OrderedDict.keys (kept key rank l) ↔ k ∈ l.map key := by
  induction l using List.reverseRecOn with
  | nil => exact Iff.rfl
  | append_singleton l a ih =>
      rw [kept_concat, keys_keep, List.map_append, List.mem_append, List.map_singleton, List.mem_singleton, ← ih]
      split
      · next hk =>
        exact ⟨Or.inl, fun h => h.elim id fun h => h ▸ hk⟩
      · rw [List.mem_append, List.mem_singleton]

/-- **What is kept under a key** is the first of the lowest elements of the key. -/
theorem get_kept (l : List α) (k : κ) :
    OrderedDict.get (kept key rank l) k = (l.filter fun a => key a = k).argmin rank := by
  induction l using List.reverseRecOn with
  | nil => rfl
  | append_singleton l a ih =>
      rw [kept_concat, List.filter_append]
      by_cases hk : key a = k
      · subst hk
        have hone : [a].filter (fun b => key b = key a) = [a] := List.filter_cons_of_pos (decide_eq_true rfl)
        rw [hone, List.argmin_concat, ← ih, get_keep_self]
      · have hnone : [a].filter (fun b => key b = k) = [] :=
          List.filter_cons_of_neg fun h => hk (of_decide_eq_true h)
        rw [hnone, List.append_nil, ← ih, get_keep_of_ne _ fun h => hk h.symm]

/-- No element of its key is below it. -/
def Lowest (key : α → κ) (rank : α → β) (l : List α) (a : α) : Prop :=
  a ∈ l ∧ ∀ b ∈ l, key b = key a → rank a ≤ rank b

theorem lowest_of_mem_argmin {l : List α} {a : α} {k : κ} (h : (l.filter fun a => key a = k).argmin rank = some a) :
    key a = k ∧ Lowest key rank l a := by
  obtain ⟨hmem, hkey⟩ := List.mem_filter.mp (List.argmin_mem h)
  have hkey := of_decide_eq_true hkey
  refine ⟨hkey, hmem, fun b hb hbk => ?_⟩
  exact List.le_of_mem_argmin (List.mem_filter.mpr ⟨hb, decide_eq_true (hbk.trans hkey)⟩) h

theorem lowest_of_mem_values {l : List α} {a : α} (h : a ∈ values key rank l) : Lowest key rank l a := by
  obtain ⟨e, he, rfl⟩ := List.mem_map.mp h
  have hget := OrderedDict.get_of_mem (nodup_keys_kept l) (k := e.1) (v := e.2) he
  rw [get_kept] at hget
  exact (lowest_of_mem_argmin hget).2

/-- The keys of what is kept. -/
theorem map_key_values (l : List α) : (values key rank l).map key = OrderedDict.keys (kept key rank l) := by
  rw [values, List.map_map, OrderedDict.keys]
  refine List.map_congr_left fun e he => ?_
  have hget := OrderedDict.get_of_mem (nodup_keys_kept l) (k := e.1) (v := e.2) he
  rw [get_kept] at hget
  exact (lowest_of_mem_argmin hget).1

theorem length_values (l : List α) : (values key rank l).length = (l.map key).dedup.length := by
  have hperm : ((values key rank l).map key).Perm (l.map key).dedup := by
    rw [map_key_values]
    refine (List.perm_ext_iff_of_nodup (nodup_keys_kept l) (List.nodup_dedup _)).mpr fun k => ?_
    rw [mem_keys_kept, List.mem_dedup]
  rw [← hperm.length_eq, List.length_map]

/-- **An element at the front that no other of its key is below** is kept, before all others. -/
theorem values_cons {a : α} {l : List α} (h : Lowest key rank (a :: l) a) :
    ∃ rest, values key rank (a :: l) = a :: rest := by
  have hkeys : ∀ l', ∃ ks, OrderedDict.keys (kept key rank (a :: l')) = key a :: ks := by
    intro l'
    induction l' using List.reverseRecOn with
    | nil => exact ⟨[], rfl⟩
    | append_singleton l' b ih =>
        obtain ⟨ks, hks⟩ := ih
        rw [← List.cons_append, kept_concat, keys_keep, hks]
        split
        · exact ⟨ks, rfl⟩
        · exact ⟨ks ++ [key b], rfl⟩
  obtain ⟨ks, hks⟩ := hkeys l
  have hlow : (a :: l.filter fun b => key b = key a).argmin rank = some a := by
    rw [List.argmin_cons]
    cases hmin : (l.filter fun b => key b = key a).argmin rank with
    | none => rfl
    | some b =>
        have hmem := List.mem_filter.mp (List.argmin_mem hmin)
        have hle := h.2 b (List.mem_cons_of_mem _ hmem.1) (of_decide_eq_true hmem.2)
        exact if_neg (not_lt.mpr hle)
  have hget := @get_kept _ _ _ _ _ key rank (a :: l) (key a)
  have hfirst : (a :: l).filter (fun b => key b = key a) = a :: l.filter fun b => key b = key a :=
    List.filter_cons_of_pos (decide_eq_true rfl)
  rw [hfirst, hlow] at hget
  rw [values]
  cases hkept : kept key rank (a :: l) with
  | nil => rw [hkept] at hks; cases hks
  | cons e d =>
      rw [hkept] at hks hget
      have he : e.1 = key a := (List.cons.inj hks).1
      rw [OrderedDict.get, if_pos he.symm] at hget
      exact ⟨d.map Prod.snd, by rw [List.map_cons, Option.some.inj hget]⟩

/-- The lowest ranks of the keys do not depend on the order of the elements. -/
theorem map_rank_argmin_perm {l l' : List α} (h : l.Perm l') (k : κ) :
    ((l.filter fun a => key a = k).argmin rank).map rank = ((l'.filter fun a => key a = k).argmin rank).map rank := by
  have hperm := h.filter fun a => key a = k
  cases hl : (l.filter fun a => key a = k).argmin rank with
  | none =>
      have hnil : l'.filter (fun a => key a = k) = [] := by
        rw [List.argmin_eq_none.mp hl] at hperm
        exact List.nil_perm.mp hperm
      rw [hnil]
      rfl
  | some a =>
      cases hl' : (l'.filter fun a => key a = k).argmin rank with
      | none =>
          rw [List.argmin_eq_none.mp hl'] at hperm
          rw [List.perm_nil.mp hperm] at hl
          cases hl
      | some b =>
          have hab := List.le_of_mem_argmin (hperm.mem_iff.mpr (List.argmin_mem hl')) hl
          have hba := List.le_of_mem_argmin (hperm.mem_iff.mp (List.argmin_mem hl)) hl'
          rw [Option.map_some, Option.map_some, le_antisymm hab hba]

theorem map_rank_values (l : List α) :
    (values key rank l).map (fun a => some (rank a))
      = (OrderedDict.keys (kept key rank l)).map fun k => ((l.filter fun a => key a = k).argmin rank).map rank := by
  rw [values, OrderedDict.keys, List.map_map, List.map_map]
  refine List.map_congr_left fun e he => ?_
  have hget := OrderedDict.get_of_mem (nodup_keys_kept l) (k := e.1) (v := e.2) he
  rw [get_kept] at hget
  rw [Function.comp_apply, Function.comp_apply, hget]
  rfl

theorem map_rank_values_perm {l l' : List α} (h : l.Perm l') :
    ((values key rank l).map rank).Perm ((values key rank l').map rank) := by
  have hkeys : (OrderedDict.keys (kept key rank l)).Perm (OrderedDict.keys (kept key rank l')) := by
    refine (List.perm_ext_iff_of_nodup (nodup_keys_kept l) (nodup_keys_kept l')).mpr fun k => ?_
    rw [mem_keys_kept, mem_keys_kept]
    exact (h.map key).mem_iff
  have hsome : ((values key rank l).map fun a => some (rank a)).Perm
      ((values key rank l').map fun a => some (rank a)) := by
    rw [map_rank_values, map_rank_values]
    refine (hkeys.map _).trans (List.Perm.of_eq (List.map_congr_left fun k _ => ?_))
    exact map_rank_argmin_perm h k
  have hmap := hsome.filterMap id
  rw [List.filterMap_map, List.filterMap_map] at hmap
  have heq : ∀ vs : List α, vs.filterMap (id ∘ fun a => some (rank a)) = vs.map rank :=
    fun vs => congrFun List.filterMap_eq_map' vs
  rwa [heq, heq] at hmap

end Kept

/-! ### Sorted by rank -/

section Ranked

variable (key : α → κ) (rank : α → β)

/-- `sorted(…, key=rank)`. -/
def sortByRank (l : List α) : List α :=
  l.mergeSort fun a b => decide (rank a ≤ rank b)

/-- The lowest elements of the keys, in the order of their ranks. -/
def ranked (l : List α) : List α :=
  sortByRank rank (values key rank l)

/-- The number of keys that have an element below a rank. -/
def keysBelow (l : List α) (r : β) : Nat :=
  ((l.filter fun a => rank a < r).map key).dedup.length

variable {key rank}

theorem keysBelow_perm {l l' : List α} (h : l.Perm l') (r : β) :
    keysBelow key rank l r = keysBelow key rank l' r :=
  (((h.filter _).map key).dedup).length_eq

theorem sortByRank_perm (l : List α) : (sortByRank rank l).Perm l :=
  List.mergeSort_perm _ _

theorem rankLe_trans (a b c : α) (hab : decide (rank a ≤ rank b) = true) (hbc : decide (rank b ≤ rank c) = true) :
    decide (rank a ≤ rank c) = true :=
  decide_eq_true (le_trans (of_decide_eq_true hab) (of_decide_eq_true hbc))

theorem rankLe_total (a b : α) : (decide (rank a ≤ rank b) || decide (rank b ≤ rank a)) = true := by
  rw [Bool.or_eq_true, decide_eq_true_eq, decide_eq_true_eq]
  exact le_total _ _

theorem pairwise_sortByRank (l : List α) : (sortByRank rank l).Pairwise fun a b => rank a ≤ rank b := by
  have h : (sortByRank rank l).Pairwise fun a b => decide (rank a ≤ rank b) = true :=
    List.pairwise_mergeSort rankLe_trans rankLe_total l
  exact h.imp of_decide_eq_true

/-- Elements of one rank keep their order. -/
theorem filter_sortByRank (l : List α) (r : β) :
    (sortByRank rank l).filter (fun a => rank a = r) = l.filter fun a => rank a = r := by
  have hsorted : (l.filter fun a => rank a = r).Pairwise fun a b => decide (rank a ≤ rank b) = true := by
    refine List.pairwise_of_forall_mem_list fun a ha b hb => ?_
    have ha := of_decide_eq_true (List.mem_filter.mp ha).2
    have hb := of_decide_eq_true (List.mem_filter.mp hb).2
    rw [ha, hb]
    exact decide_eq_true le_rfl
  have hsub : (l.filter fun a => rank a = r).Sublist (sortByRank rank l) :=
    List.sublist_mergeSort rankLe_trans rankLe_total hsorted List.filter_sublist
  have hfilter := hsub.filter fun a => rank a = r
  rw [List.filter_filter] at hfilter
  simp only [Bool.and_self] at hfilter
  refine (hfilter.eq_of_length ?_).symm
  exact (((sortByRank_perm l).filter _).length_eq).symm

/-- A sorted list falls apart at a rank. -/
theorem filter_lt_append {l : List α} (h : l.Pairwise fun a b => rank a ≤ rank b) (r : β) :
    l.filter (fun a => rank a < r) ++ l.filter (fun a => r ≤ rank a) = l := by
  induction l with
  | nil => rfl
  | cons a l ih =>
      obtain ⟨ha, hl⟩ := List.pairwise_cons.mp h
      by_cases hr : rank a < r
      · have hpos : (a :: l).filter (fun a => rank a < r) = a :: l.filter fun a => rank a < r :=
          List.filter_cons_of_pos (decide_eq_true hr)
        have hneg : (a :: l).filter (fun a => r ≤ rank a) = l.filter fun a => r ≤ rank a :=
          List.filter_cons_of_neg fun h' => absurd hr (not_lt.mpr (of_decide_eq_true h'))
        rw [hpos, hneg, List.cons_append, ih hl]
      · have hall : ∀ b ∈ a :: l, r ≤ rank b := by
          intro b hb
          rcases List.mem_cons.mp hb with rfl | hb
          · exact not_lt.mp hr
          · exact (not_lt.mp hr).trans (ha b hb)
        have hnil : (a :: l).filter (fun a => rank a < r) = [] :=
          List.filter_eq_nil_iff.mpr fun b hb h' => absurd (of_decide_eq_true h') (not_lt.mpr (hall b hb))
        rw [hnil, List.nil_append]
        exact List.filter_eq_self.mpr fun b hb => decide_eq_true (hall b hb)

theorem below_values (l : List α) (r : β) : Cut.below ((values key rank l).map rank) r = keysBelow key rank l r := by
  have hnodup : (((values key rank l).filter fun a => rank a < r).map key).Nodup := by
    have hsub := (List.filter_sublist (l := values key rank l) (p := fun a => decide (rank a < r))).map key
    rw [map_key_values] at hsub
    exact (nodup_keys_kept l).sublist hsub
  have hperm : (((values key rank l).filter fun a => rank a < r).map key).Perm
      ((l.filter fun a => rank a < r).map key).dedup := by
    refine (List.perm_ext_iff_of_nodup hnodup (List.nodup_dedup _)).mpr fun k => ?_
    rw [List.mem_dedup, List.mem_map, List.mem_map]
    constructor
    · rintro ⟨a, ha, rfl⟩
      obtain ⟨hmem, hlt⟩ := List.mem_filter.mp ha
      exact ⟨a, List.mem_filter.mpr ⟨(lowest_of_mem_values hmem).1, hlt⟩, rfl⟩
    · rintro ⟨a, ha, rfl⟩
      obtain ⟨hmem, hlt⟩ := List.mem_filter.mp ha
      have hkey : key a ∈ (values key rank l).map key := by
        rw [map_key_values, mem_keys_kept]
        exact List.mem_map_of_mem hmem
      obtain ⟨b, hb, hba⟩ := List.mem_map.mp hkey
      have hle := (lowest_of_mem_values hb).2 a hmem hba.symm
      refine ⟨b, List.mem_filter.mpr ⟨hb, decide_eq_true ?_⟩, hba⟩
      exact lt_of_le_of_lt hle (of_decide_eq_true hlt)
  rw [keysBelow, Cut.below, List.countP_map, List.countP_eq_length_filter, ← hperm.length_eq, List.length_map]
  rfl

/-- **The first element of its rank** stands right behind the elements below it. -/
theorem sortByRank_head {a : α} (l : List α) :
    (sortByRank rank (a :: l))[Cut.below ((a :: l).map rank) (rank a)]? = some a := by
  have hsplit := filter_lt_append (@pairwise_sortByRank _ _ _ rank (a :: l)) (rank a)
  have hlow : Cut.below ((a :: l).map rank) (rank a)
      = ((sortByRank rank (a :: l)).filter fun b => rank b < rank a).length := by
    rw [← Cut.below_perm ((@sortByRank_perm _ _ _ rank (a :: l)).map rank), Cut.below, List.countP_map,
      List.countP_eq_length_filter]
    rfl
  obtain ⟨rest, hrest⟩ : ∃ rest, (sortByRank rank (a :: l)).filter (fun b => rank a ≤ rank b) = a :: rest := by
    -- the elements of the same rank come first, in their order
    have hfirst : (a :: l).filter (fun c => rank c = rank a) = a :: l.filter fun c => rank c = rank a :=
      List.filter_cons_of_pos (decide_eq_true rfl)
    have hequal : (sortByRank rank (a :: l)).filter (fun c => rank c = rank a)
        = a :: l.filter fun c => rank c = rank a :=
      (filter_sortByRank (a :: l) (rank a)).trans hfirst
    have hupper : ((sortByRank rank (a :: l)).filter fun b => rank a ≤ rank b).Pairwise
        fun b c => rank b ≤ rank c := (pairwise_sortByRank _).filter _
    cases hfilter : (sortByRank rank (a :: l)).filter (fun b => rank a ≤ rank b) with
    | nil =>
        have hmem : a ∈ (sortByRank rank (a :: l)).filter fun b => rank a ≤ rank b :=
          List.mem_filter.mpr ⟨(sortByRank_perm _).mem_iff.mpr List.mem_cons_self, decide_eq_true le_rfl⟩
        rw [hfilter] at hmem
        cases hmem
    | cons b rest =>
        have hb : b ∈ (sortByRank rank (a :: l)).filter fun b => rank a ≤ rank b := by
          rw [hfilter]
          exact List.mem_cons_self
        have hle : rank a ≤ rank b := of_decide_eq_true (List.mem_filter.mp hb).2
        have hsame : (b :: rest).filter (fun c => rank c = rank a)
            = a :: l.filter fun c => rank c = rank a := by
          rw [← hequal, ← hfilter, List.filter_filter]
          refine List.filter_congr fun c _ => ?_
          by_cases hc : rank c = rank a
          · rw [hc, decide_eq_true rfl, decide_eq_true le_rfl, Bool.and_self]
          · rw [decide_eq_false hc, Bool.false_and]
        have ha : a ∈ b :: rest := (List.mem_filter.mp (by rw [hsame]; exact List.mem_cons_self)).1
        have hge : rank b ≤ rank a := by
          rw [hfilter] at hupper
          rcases List.mem_cons.mp ha with rfl | ha
          · exact le_rfl
          · exact (List.pairwise_cons.mp hupper).1 a ha
        have hhead : (b :: rest).filter (fun c => rank c = rank a) = b :: rest.filter fun c => rank c = rank a :=
          List.filter_cons_of_pos (decide_eq_true (le_antisymm hge hle))
        exact ⟨rest, by rw [(List.cons.inj (hhead.symm.trans hsame)).1]⟩
  rw [hrest] at hsplit
  rw [hlow]
  generalize (sortByRank rank (a :: l)).filter (fun b => rank b < rank a) = front at hsplit
  rw [← hsplit, List.getElem?_append_right (Nat.le_refl _), Nat.sub_self]
  rfl

/-- **An element that no other of its key is below**, put at the front, is at the place of its rank. -/
theorem ranked_head {a : α} {l : List α} (h : Lowest key rank (a :: l) a) :
    (ranked key rank (a :: l))[Cut.below ((values key rank (a :: l)).map rank) (rank a)]? = some a := by
  obtain ⟨rest, hrest⟩ := values_cons h
  rw [ranked, hrest]
  exact sortByRank_head rest

/-- An element stands behind those below it. -/
theorem below_le_of_getElem? {l : List α} {i : Nat} {a : α} (h : (sortByRank rank l)[i]? = some a) :
    Cut.below (l.map rank) (rank a) ≤ i := by
  obtain ⟨hi, rfl⟩ := List.getElem?_eq_some_iff.mp h
  have hsorted : ((sortByRank rank l).map rank).Pairwise (· ≤ ·) := List.pairwise_map.mpr (pairwise_sortByRank l)
  have hle := Cut.below_getElem_le hsorted (k := i) (by rw [List.length_map]; exact hi)
  rw [List.getElem_map] at hle
  rwa [Cut.below_perm ((sortByRank_perm l).map rank)] at hle

/-- The ranks do not depend on the order of the elements. -/
theorem map_rank_ranked_perm {l l' : List α} (h : l.Perm l') :
    (ranked key rank l).map rank = (ranked key rank l').map rank := by
  have hperm : ((ranked key rank l).map rank).Perm ((ranked key rank l').map rank) :=
    ((sortByRank_perm _).map rank).trans
      ((map_rank_values_perm h).trans ((sortByRank_perm _).map rank).symm)
  refine hperm.eq_of_pairwise (fun a b _ _ hab hba => le_antisymm hab hba) ?_ ?_
  · exact List.pairwise_map.mpr (pairwise_sortByRank _)
  · exact List.pairwise_map.mpr (pairwise_sortByRank _)

end Ranked

end LeastPerKey
