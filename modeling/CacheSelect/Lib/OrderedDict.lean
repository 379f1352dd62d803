import Mathlib.Data.List.Induction
import Mathlib.Data.List.Nodup
import Mathlib.Data.List.Perm.Subperm
import Mathlib.Tactic.Common

/-! # Ordered dictionaries

A dictionary that remembers the order of insertion, as a list of `(key, value)` pairs with the oldest
pair first.  `get` reads it, `erase` is deletion, `put` inserts at the end, also a key that was
there before, and `moveToEnd` puts a key again with its value.  The lemmas say what each does to the keys and to
`get`.
-/

namespace OrderedDict

variable {κ ν : Type*} [DecidableEq κ]

def keys (d : List (κ × ν)) : List κ :=
  d.map Prod.fst

/-- The value of a key. -/
def get : List (κ × ν) → κ → Option ν
  | [], _ => none
  | e :: d, k => if k = e.1 then some e.2 else get d k

/-- Delete a key. -/
def erase (d : List (κ × ν)) (k : κ) : List (κ × ν) :=
  d.filter fun e => e.1 ≠ k

/-- Set a key that is moved to the end. -/
def put (d : List (κ × ν)) (k : κ) (v : ν) : List (κ × ν) :=
  erase d k ++ [(k, v)]

/-- Move a key to the end, if it is there. -/
def moveToEnd (d : List (κ × ν)) (k : κ) : List (κ × ν) :=
  match get d k with
  | none => d
  | some v => put d k v

theorem mem_keys_iff_get {k : κ} : ∀ {d : List (κ × ν)}, k ∈ keys d ↔ (get d k).isSome = true := by
  intro d
  induction d with
  | nil => simp [keys, get]
  | cons e d ih =>
      rw [keys, List.map_cons, List.mem_cons, ← keys, ih, get]
      by_cases hk : k = e.1
      · simp [hk]
      · simp [hk]

theorem get_eq_none_iff {d : List (κ × ν)} {k : κ} : get d k = none ↔ k ∉ keys d := by
  rw [mem_keys_iff_get, Bool.not_eq_true, Option.isSome_eq_false_iff, Option.isNone_iff_eq_none]

theorem mem_of_get_eq_some {k : κ} {v : ν} : ∀ {d : List (κ × ν)}, get d k = some v →
    (k, v) ∈ d := by
  intro d
  induction d with
  | nil => intro h; cases h
  | cons e d ih =>
      intro h
      rw [get] at h
      split at h
      · next hk =>
          rw [Option.some.injEq] at h
          exact List.mem_cons.mpr (Or.inl (Prod.ext hk h.symm))
      · exact List.mem_cons_of_mem _ (ih h)

/-- With unique keys a pair of the list is what its key has. -/
theorem get_of_mem {k : κ} {v : ν} : ∀ {d : List (κ × ν)}, (keys d).Nodup → (k, v) ∈ d →
    get d k = some v := by
  intro d
  induction d with
  | nil => intro _ h; cases h
  | cons e d ih =>
      intro hn h
      rw [keys, List.map_cons, List.nodup_cons] at hn
      rw [get]
      rcases List.mem_cons.mp h with rfl | h
      · rw [if_pos rfl]
      · have hne : k ≠ e.1 := by
          rintro rfl
          exact hn.1 (List.mem_map.mpr ⟨_, h, rfl⟩)
        rw [if_neg hne]
        exact ih hn.2 h

theorem get_append (d d' : List (κ × ν)) (x : κ) :
    get (d ++ d') x = (get d x).or (get d' x) := by
  induction d with
  | nil => rfl
  | cons e d ih =>
      rw [List.cons_append, get, get]
      by_cases hx : x = e.1
      · rw [if_pos hx, if_pos hx, Option.some_or]
      · rw [if_neg hx, if_neg hx, ih]

theorem get_append_singleton (d : List (κ × ν)) (k : κ) (v : ν) (x : κ) :
    get (d ++ [(k, v)]) x = (get d x).or (if x = k then some v else none) :=
  get_append d [(k, v)] x

/-! ### `erase` -/

theorem mem_erase {d : List (κ × ν)} {k : κ} {e : κ × ν} : e ∈ erase d k ↔ e ∈ d ∧ e.1 ≠ k := by
  simp [erase]

theorem keys_erase (d : List (κ × ν)) (k : κ) :
    keys (erase d k) = (keys d).filter fun x => x ≠ k := by
  rw [keys, keys, erase, List.filter_map]
  rfl

theorem not_mem_keys_erase (d : List (κ × ν)) (k : κ) : k ∉ keys (erase d k) := by
  rw [keys_erase]
  simp

theorem nodup_keys_erase {d : List (κ × ν)} (hn : (keys d).Nodup) (k : κ) :
    (keys (erase d k)).Nodup := by
  rw [keys_erase]
  exact hn.filter _

theorem erase_of_not_mem {d : List (κ × ν)} {k : κ} (hk : k ∉ keys d) : erase d k = d := by
  refine List.filter_eq_self.mpr ?_
  intro e he
  refine decide_eq_true ?_
  rintro rfl
  exact hk (List.mem_map.mpr ⟨e, he, rfl⟩)

theorem get_erase (d : List (κ × ν)) (k x : κ) :
    get (erase d k) x = if x = k then none else get d x := by
  by_cases hx : x = k
  · subst hx
    rw [if_pos rfl, get_eq_none_iff]
    exact not_mem_keys_erase d x
  · rw [if_neg hx]
    induction d with
    | nil => rfl
    | cons e d ih =>
        by_cases he : e.1 = k
        · have hne : x ≠ e.1 := fun h => hx (h.trans he)
          rw [erase, List.filter_cons_of_neg (by simp [he]), get, if_neg hne]
          exact ih
        · rw [erase, List.filter_cons_of_pos (by simp [he]), get, get]
          split
          · rfl
          · exact ih

/-! ### `put` -/

theorem keys_put (d : List (κ × ν)) (k : κ) (v : ν) :
    keys (put d k v) = (keys d).filter (fun x => x ≠ k) ++ [k] := by
  rw [put, keys, List.map_append, ← keys, keys_erase]
  rfl

theorem nodup_keys_put {d : List (κ × ν)} (hn : (keys d).Nodup) (k : κ) (v : ν) :
    (keys (put d k v)).Nodup := by
  rw [keys_put]
  refine List.nodup_append.mpr ⟨hn.filter _, List.nodup_singleton k, ?_⟩
  intro x hx y hy
  rw [List.mem_singleton] at hy
  subst hy
  exact of_decide_eq_true (List.mem_filter.mp hx).2

theorem get_put (d : List (κ × ν)) (k : κ) (v : ν) (x : κ) :
    get (put d k v) x = if x = k then some v else get d x := by
  rw [put, get_append_singleton, get_erase]
  by_cases hx : x = k
  · rw [if_pos hx, if_pos hx, if_pos hx, Option.none_or]
  · rw [if_neg hx, if_neg hx, if_neg hx, Option.or_none]

/-! ### `moveToEnd` -/

theorem get_moveToEnd (d : List (κ × ν)) (k x : κ) :
    get (moveToEnd d k) x = get d x := by
  rw [moveToEnd]
  cases h : get d k with
  | none => rfl
  | some v =>
      rw [get_put]
      by_cases hx : x = k
      · subst hx
        rw [if_pos rfl, h]
      · rw [if_neg hx]

theorem nodup_keys_moveToEnd {d : List (κ × ν)} (hn : (keys d).Nodup) (k : κ) :
    (keys (moveToEnd d k)).Nodup := by
  rw [moveToEnd]
  cases get d k with
  | none => exact hn
  | some v => exact nodup_keys_put hn k v

/-- Putting a key again with its value only reorders the pairs. -/
theorem put_perm {d : List (κ × ν)} (hn : (keys d).Nodup) {k : κ} {v : ν}
    (h : get d k = some v) : (put d k v).Perm d := by
  have hmem := mem_of_get_eq_some h
  have hrest : d.filter (fun e => e.1 = k) = [(k, v)] := by
    have hnd : d.Nodup := hn.of_map _
    refine List.perm_singleton.mp ((List.perm_ext_iff_of_nodup (hnd.filter _)
      (List.nodup_singleton _)).mpr ?_)
    intro e
    rw [List.mem_filter, List.mem_singleton, decide_eq_true_eq]
    constructor
    · rintro ⟨he, rfl⟩
      have := get_of_mem hn he
      rw [h, Option.some.injEq] at this
      exact Prod.ext rfl this.symm
    · rintro rfl
      exact ⟨hmem, rfl⟩
  have hsplit := List.filter_append_perm (fun e : κ × ν => decide (e.1 ≠ k)) d
  have hcompl : d.filter (fun e => !decide (e.1 ≠ k)) = [(k, v)] := by
    rw [← hrest]
    refine List.filter_congr ?_
    intro e _
    simp
  rw [hcompl] at hsplit
  exact hsplit

theorem get_filter (p : κ → Bool) (d : List (κ × ν)) (x : κ) :
    get (d.filter fun e => p e.1) x = if p x = true then get d x else none := by
  induction d with
  | nil => simp [get]
  | cons e d ih =>
      by_cases he : p e.1 = true
      · rw [List.filter_cons_of_pos (p := fun e : κ × ν => p e.1) he, get, get, ih]
        by_cases hx : x = e.1
        · rw [if_pos hx, if_pos hx, hx, if_pos he]
        · rw [if_neg hx, if_neg hx]
      · rw [List.filter_cons_of_neg (p := fun e : κ × ν => p e.1) he, ih, get]
        by_cases hx : x = e.1
        · rw [hx, if_neg he, if_neg he]
        · rw [if_neg hx]

/-! ### Mapping the values -/

section

variable {μ : Type*} (f : ν → μ)

def mapValues (d : List (κ × ν)) : List (κ × μ) :=
  d.map fun e => (e.1, f e.2)

omit [DecidableEq κ] in
theorem keys_mapValues (d : List (κ × ν)) : keys (mapValues f d) = keys d := by
  rw [keys, keys, mapValues, List.map_map]
  rfl

theorem get_mapValues (d : List (κ × ν)) (k : κ) :
    get (mapValues f d) k = (get d k).map f := by
  induction d with
  | nil => rfl
  | cons e d ih =>
      rw [mapValues, List.map_cons, get, get]
      split
      · rfl
      · exact ih

theorem get_map_snd (g : κ → ν → μ) (d : List (κ × ν)) (k : κ) :
    get (d.map fun e => (e.1, g e.1 e.2)) k = (get d k).map (g k) := by
  induction d with
  | nil => rfl
  | cons e d ih =>
      rw [List.map_cons, get, get, ih]
      split
      · next hk =>
        rw [hk]
        rfl
      · rfl

theorem mapValues_erase (d : List (κ × ν)) (k : κ) :
    mapValues f (erase d k) = erase (mapValues f d) k := by
  rw [erase, mapValues, erase, mapValues, List.filter_map]
  rfl

theorem mapValues_put (d : List (κ × ν)) (k : κ) (v : ν) :
    mapValues f (put d k v) = put (mapValues f d) k (f v) := by
  rw [put, put, ← mapValues_erase, mapValues, List.map_append]
  rfl

theorem mapValues_moveToEnd (d : List (κ × ν)) (k : κ) :
    mapValues f (moveToEnd d k) = moveToEnd (mapValues f d) k := by
  rw [moveToEnd, moveToEnd, get_mapValues]
  cases get d k with
  | none => rfl
  | some v => exact mapValues_put f d k v

theorem mapValues_foldl_moveToEnd (ks : List κ) : ∀ d : List (κ × ν),
    mapValues f (ks.foldl moveToEnd d) = ks.foldl moveToEnd (mapValues f d) := by
  induction ks with
  | nil => intro d; rfl
  | cons k ks ih =>
      intro d
      rw [List.foldl_cons, List.foldl_cons, ih, mapValues_moveToEnd]

end

theorem moveToEnd_perm {d : List (κ × ν)} (hn : (keys d).Nodup) (k : κ) :
    (moveToEnd d k).Perm d := by
  rw [moveToEnd]
  cases h : get d k with
  | none => exact List.Perm.refl d
  | some v => exact put_perm hn h

theorem foldl_moveToEnd_perm (ks : List κ) : ∀ {d : List (κ × ν)}, (keys d).Nodup →
    (ks.foldl moveToEnd d).Perm d := by
  induction ks with
  | nil => intro d _; exact List.Perm.refl d
  | cons k ks ih =>
      intro d hn
      exact (ih (nodup_keys_moveToEnd hn k)).trans (moveToEnd_perm hn k)

/-! ### Dictionaries from pairs -/

/-- `{k: v for k, v in pairs}`: of two pairs with one key the later counts. -/
def ofPairs (pairs : List (κ × ν)) : List (κ × ν) :=
  pairs.foldl (fun d p => put d p.1 p.2) []

theorem ofPairs_concat (pairs : List (κ × ν)) (p : κ × ν) :
    ofPairs (pairs ++ [p]) = put (ofPairs pairs) p.1 p.2 :=
  List.foldl_concat ..

theorem nodup_keys_ofPairs (pairs : List (κ × ν)) : (keys (ofPairs pairs)).Nodup := by
  induction pairs using List.reverseRecOn with
  | nil => exact List.nodup_nil
  | append_singleton pairs p ih =>
      rw [ofPairs_concat]
      exact nodup_keys_put ih p.1 p.2

theorem mem_keys_ofPairs {pairs : List (κ × ν)} {k : κ} :
    k ∈ keys (ofPairs pairs) ↔ k ∈ keys pairs := by
  induction pairs using List.reverseRecOn with
  | nil => exact Iff.rfl
  | append_singleton pairs p ih =>
      have hkeys : keys (pairs ++ [p]) = keys pairs ++ [p.1] := List.map_append
      rw [ofPairs_concat, keys_put, hkeys, List.mem_append, List.mem_append, List.mem_filter, ih,
        decide_eq_true_eq]
      by_cases h : k = p.1
      · simp [h]
      · simp [h]

/-- With unique keys nothing is overwritten. -/
theorem ofPairs_of_nodup {pairs : List (κ × ν)} (h : (keys pairs).Nodup) : ofPairs pairs = pairs := by
  induction pairs using List.reverseRecOn with
  | nil => rfl
  | append_singleton pairs p ih =>
      rw [keys, List.map_append, List.nodup_append] at h
      have hp : p.1 ∉ keys pairs := fun hin => h.2.2 p.1 hin p.1 List.mem_cons_self rfl
      rw [ofPairs_concat, ih h.1, put, erase_of_not_mem hp]

theorem length_ofPairs {pairs : List (κ × ν)} :
    (ofPairs pairs).length = pairs.length ↔ (keys pairs).Nodup := by
  refine ⟨fun h => ?_, fun h => by rw [ofPairs_of_nodup h]⟩
  have hsub : (keys (ofPairs pairs)) ⊆ keys pairs := fun k => mem_keys_ofPairs.mp
  have hperm := (nodup_keys_ofPairs pairs).subperm hsub
  have hlen : (keys pairs).length = (keys (ofPairs pairs)).length := by
    rw [keys, keys, List.length_map, List.length_map, h]
  exact (hperm.perm_of_length_le (Nat.le_of_eq hlen)).nodup_iff.mp (nodup_keys_ofPairs pairs)

/-! ### Assignment -/

/-- `d[k] = v`: a key that was there keeps its place. -/
def assign (d : List (κ × ν)) (k : κ) (v : ν) : List (κ × ν) :=
  if k ∈ keys d then d.map fun e => if e.1 = k then (k, v) else e else d ++ [(k, v)]

theorem assign_of_not_mem {d : List (κ × ν)} {k : κ} (hk : k ∉ keys d) (v : ν) :
    assign d k v = d ++ [(k, v)] :=
  if_neg hk

theorem keys_assign (d : List (κ × ν)) (k : κ) (v : ν) :
    keys (assign d k v) = if k ∈ keys d then keys d else keys d ++ [k] := by
  rw [assign]
  split
  · rw [keys, List.map_map, keys]
    refine List.map_congr_left ?_
    intro e _
    by_cases he : e.1 = k
    · simp [he]
    · simp [he]
  · rw [keys, List.map_append]
    rfl

theorem get_map_assign (d : List (κ × ν)) (k : κ) (v : ν) (x : κ) :
    get (d.map fun e => if e.1 = k then (k, v) else e) x
      = if x = k then (get d k).map (fun _ => v) else get d x := by
  induction d with
  | nil => simp [get]
  | cons e d ih =>
      rw [List.map_cons, get, get, get, ih]
      by_cases he : e.1 = k
      · subst he
        by_cases hx : x = e.1
        · simp [hx]
        · simp [hx]
      · have he' : ¬ k = e.1 := fun h => he h.symm
        by_cases hx : x = k
        · subst hx
          simp [he, he']
        · simp [he, hx]

theorem get_assign (d : List (κ × ν)) (k : κ) (v : ν) (x : κ) :
    get (assign d k v) x = if x = k then some v else get d x := by
  rw [assign]
  split
  · next hk =>
    obtain ⟨w, hw⟩ := Option.isSome_iff_exists.mp (mem_keys_iff_get.mp hk)
    rw [get_map_assign, hw]
    rfl
  · next hk =>
    rw [get_append_singleton]
    by_cases hx : x = k
    · subst hx
      rw [get_eq_none_iff.mpr hk, if_pos rfl, Option.none_or]
    · rw [if_neg hx, if_neg hx, Option.or_none]

/-! ### Dictionaries of lists -/

/-- `d.setdefault(k, []).append(v)`. -/
def push (d : List (κ × List ν)) (k : κ) (v : ν) : List (κ × List ν) :=
  if k ∈ keys d then d.map fun e => if e.1 = k then (k, e.2 ++ [v]) else e else d ++ [(k, [v])]

/-- The values of a list under their keys. -/
def grouped {α : Type*} (key : α → κ) (value : α → ν) (xs : List α) : List (κ × List ν) :=
  xs.foldl (fun d x => push d (key x) (value x)) []

theorem keys_push (d : List (κ × List ν)) (k : κ) (v : ν) :
    keys (push d k v) = if k ∈ keys d then keys d else keys d ++ [k] := by
  rw [push]
  split
  · rw [keys, List.map_map, keys]
    refine List.map_congr_left ?_
    intro e _
    by_cases he : e.1 = k
    · simp [he]
    · simp [he]
  · rw [keys, List.map_append]
    rfl

theorem get_map_append (d : List (κ × List ν)) (k : κ) (v : ν) (x : κ) :
    get (d.map fun e => if e.1 = k then (k, e.2 ++ [v]) else e) x
      = if x = k then (get d k).map (fun vs => vs ++ [v]) else get d x := by
  induction d with
  | nil => simp [get]
  | cons e d ih =>
      rw [List.map_cons, get, get, get, ih]
      by_cases he : e.1 = k
      · subst he
        by_cases hx : x = e.1
        · simp [hx]
        · simp [hx]
      · have he' : ¬ k = e.1 := fun h => he h.symm
        by_cases hx : x = k
        · subst hx
          simp [he, he']
        · simp [he, hx]

theorem get_push (d : List (κ × List ν)) (k : κ) (v : ν) (x : κ) :
    get (push d k v) x = if x = k then some ((get d k).getD [] ++ [v]) else get d x := by
  rw [push]
  split
  · next hk =>
    obtain ⟨vs, hvs⟩ := Option.isSome_iff_exists.mp (mem_keys_iff_get.mp hk)
    rw [get_map_append, hvs]
    rfl
  · next hk =>
    rw [get_append_singleton]
    by_cases hx : x = k
    · subst hx
      rw [get_eq_none_iff.mpr hk, if_pos rfl, if_pos rfl]
      rfl
    · rw [if_neg hx, if_neg hx, Option.or_none]

section Grouped

variable {α : Type*} (key : α → κ) (value : α → ν)

theorem grouped_concat (xs : List α) (x : α) :
    grouped key value (xs ++ [x]) = push (grouped key value xs) (key x) (value x) :=
  List.foldl_concat ..

theorem nodup_keys_grouped (xs : List α) : (keys (grouped key value xs)).Nodup := by
  induction xs using List.reverseRecOn with
  | nil => exact List.nodup_nil
  | append_singleton xs x ih =>
      rw [grouped_concat, keys_push]
      split
      · exact ih
      · next hk =>
        refine List.nodup_append.mpr ⟨ih, List.nodup_singleton _, ?_⟩
        rintro y hy z hz rfl
        rw [List.mem_singleton.mp hz] at hy
        exact hk hy

/-- **A key has the values of its elements**, in their order. -/
theorem get_grouped (xs : List α) (k : κ) : get (grouped key value xs) k
    = if k ∈ xs.map key then some ((xs.filter fun x => key x = k).map value) else none := by
  induction xs using List.reverseRecOn with
  | nil => rfl
  | append_singleton xs x ih =>
      rw [grouped_concat, get_push, List.map_append, List.filter_append, List.map_append]
      by_cases hk : k = key x
      · subst hk
        have hlast : key x ∈ xs.map key ++ [x].map key :=
          List.mem_append_right _ List.mem_cons_self
        have hself : [x].filter (fun y => key y = key x) = [x] := by simp
        rw [if_pos rfl, if_pos hlast, hself, ih]
        by_cases hin : key x ∈ xs.map key
        · rw [if_pos hin]
          rfl
        · rw [if_neg hin]
          have hnil : xs.filter (fun y => key y = key x) = [] := by
            refine List.filter_eq_nil_iff.mpr fun y hy hkey => ?_
            have heq : key y = key x := of_decide_eq_true hkey
            exact hin (heq ▸ List.mem_map_of_mem hy)
          rw [hnil]
          rfl
      · have hk' : ¬ key x = k := fun h => hk h.symm
        rw [if_neg hk, ih, List.filter_cons_of_neg (by simpa using hk')]
        simp [hk]

theorem mem_keys_grouped {xs : List α} {k : κ} :
    k ∈ keys (grouped key value xs) ↔ k ∈ xs.map key := by
  rw [mem_keys_iff_get, get_grouped]
  by_cases h : k ∈ xs.map key
  · rw [if_pos h]
    exact ⟨fun _ => h, fun _ => rfl⟩
  · rw [if_neg h]
    exact ⟨nofun, fun hin => absurd hin h⟩

end Grouped

end OrderedDict
