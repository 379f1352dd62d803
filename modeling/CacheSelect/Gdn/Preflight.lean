import CacheSelect.Gdn.SourceIndex

/-! # The preflight of a plan

Before a request is executed the worker resolves the operators of its plan on every GDN layer, or on
none: `preflightGdnDeltaReuse` first checks all layers without using an entry, and only then looks the
operators up, which refreshes them.

Layers refer to their sidecars, so that two layers may share one: `sidecars` are the sidecars by their
references.  `preflight_exact` says when a plan is eligible, for any sidecars, and that a plan that is not
leaves all of them as they are.
-/

namespace CacheSelect.Gdn

open CacheSelect.Core OrderedDict

/-- The operators resolved for one layer. -/
structure ResolvedGdnDeltaLayer (R : Type) (HV V K : Nat) where
  layerName : String
  entries : List (GdnDeltaCacheEntry R HV V K)

/-- The all-layer decision. -/
structure GdnDeltaPreflightResult (R : Type) (HV V K : Nat) where
  eligible : Bool
  reason : String
  candidateCount : Nat
  layers : List (ResolvedGdnDeltaLayer R HV V K)

variable {ι R : Type} {HV V K : Nat}

/-- The first reason against a plan on some layers. -/
def checkLayers (sidecars : ι → GdnDeltaOperatorSidecar R HV V K) (blockSize : Nat)
    (blockHashes : List ContextualHash) : List (String × Option ι) → Option String
  | [] => none
  | (_, none) :: _ => some "sidecar_unavailable"
  | (_, some i) :: layers =>
      if (sidecars i).blockSize ≠ blockSize then some "block_size_mismatch"
      else if (sidecars i).containsMany blockHashes = false then some "operator_not_resident"
      else checkLayers sidecars blockSize blockHashes layers

/-- The operators of every layer, or none when one is missing; the layers before a missing one have
been used. -/
def resolveLayers [DecidableEq ι] (blockHashes : List ContextualHash) : List (String × Option ι) →
    (ι → GdnDeltaOperatorSidecar R HV V K) →
      Except PyError (Option (List (ResolvedGdnDeltaLayer R HV V K)) ×
        (ι → GdnDeltaOperatorSidecar R HV V K))
  | [], sidecars => .ok (some [], sidecars)
  | (_, none) :: _, _ => .error .assertionError
  | (layerName, some i) :: layers, sidecars =>
      match (sidecars i).lookupMany blockHashes with
      | (none, sidecar) => .ok (none, Function.update sidecars i sidecar)
      | (some entries, sidecar) => do
          let (resolved, sidecars) ←
            resolveLayers blockHashes layers (Function.update sidecars i sidecar)
          .ok (resolved.map fun resolved => ⟨layerName, entries⟩ :: resolved, sidecars)

/-- Resolve every candidate on every layer, or return a recompute-only result. -/
def preflightGdnDeltaReuse [DecidableEq ι] (plan : GdnDeltaReusePlan)
    (layers : List (String × Option ι)) (sidecars : ι → GdnDeltaOperatorSidecar R HV V K) :
    Except PyError (GdnDeltaPreflightResult R HV V K × (ι → GdnDeltaOperatorSidecar R HV V K)) :=
  let blockHashes := plan.candidates.map GdnDeltaReuseCandidate.sourceContextualHash
  let candidateCount := blockHashes.length
  if candidateCount = 0 then .ok (⟨false, "no_candidates", 0, []⟩, sidecars)
  else if layers = [] then .ok (⟨false, "no_gdn_layers", candidateCount, []⟩, sidecars)
  else
    match checkLayers sidecars plan.blockSize blockHashes layers with
    | some reason => .ok (⟨false, reason, candidateCount, []⟩, sidecars)
    | none => do
        let (resolved, sidecars) ← resolveLayers blockHashes layers sidecars
        match resolved with
        | none => .ok (⟨false, "operator_evicted_during_preflight", candidateCount, []⟩, sidecars)
        | some resolved => .ok (⟨true, "eligible", candidateCount, resolved⟩, sidecars)

/-! ### The checks -/

/-- A layer with a sidecar of the block size in which all hashes are resident. -/
def LayerReady (sidecars : ι → GdnDeltaOperatorSidecar R HV V K) (blockSize : Nat)
    (blockHashes : List ContextualHash) (layer : String × Option ι) : Prop :=
  ∃ i, layer.2 = some i ∧ (sidecars i).blockSize = blockSize ∧
    ∀ h ∈ blockHashes, h ∈ (sidecars i).residentKeys

theorem containsMany_iff (s : GdnDeltaOperatorSidecar R HV V K) (blockHashes : List ContextualHash) :
    s.containsMany blockHashes = true ↔ ∀ h ∈ blockHashes, h ∈ s.residentKeys := by
  rw [GdnDeltaOperatorSidecar.containsMany, List.all_eq_true]
  refine forall₂_congr ?_
  intro h _
  exact mem_keys_iff_get.symm

/-- **The checks pass exactly when every layer is ready.** -/
theorem checkLayers_eq_none_iff {sidecars : ι → GdnDeltaOperatorSidecar R HV V K} {blockSize : Nat}
    {blockHashes : List ContextualHash} : ∀ {layers : List (String × Option ι)},
    checkLayers sidecars blockSize blockHashes layers = none ↔
      ∀ layer ∈ layers, LayerReady sidecars blockSize blockHashes layer := by
  intro layers
  induction layers with
  | nil => exact ⟨fun _ _ h => (by cases h), fun _ => rfl⟩
  | cons layer layers ih =>
      obtain ⟨layerName, sidecar⟩ := layer
      rw [List.forall_mem_cons]
      cases sidecar with
      | none =>
          refine ⟨fun h => (by cases h), ?_⟩
          rintro ⟨⟨i, hi, -⟩, -⟩
          cases hi
      | some i =>
          have hready : LayerReady sidecars blockSize blockHashes (layerName, some i) ↔
              (sidecars i).blockSize = blockSize ∧
                (sidecars i).containsMany blockHashes = true := by
            rw [containsMany_iff]
            constructor
            · rintro ⟨j, hj, h⟩
              cases hj
              exact h
            · intro h
              exact ⟨i, rfl, h⟩
          rw [hready, checkLayers]
          by_cases hb : (sidecars i).blockSize = blockSize
          · rw [if_neg (not_not_intro hb)]
            cases hc : (sidecars i).containsMany blockHashes with
            | false => simp
            | true =>
                rw [if_neg (by decide), ih]
                simp [hb]
          · simp [hb]

/-! ### The lookups -/

/-- Two sidecars with the same operators, perhaps used in another order. -/
structure SameOperators (s s' : GdnDeltaOperatorSidecar R HV V K) : Prop where
  operators : s'.operators = s.operators
  slot : ∀ h, get s'.keyToSlot h = get s.keyToSlot h

theorem SameOperators.refl (s : GdnDeltaOperatorSidecar R HV V K) : SameOperators s s :=
  ⟨rfl, fun _ => rfl⟩

theorem SameOperators.trans {s s' s'' : GdnDeltaOperatorSidecar R HV V K} (h : SameOperators s s')
    (h' : SameOperators s' s'') : SameOperators s s'' :=
  ⟨h'.operators.trans h.operators, fun k => (h'.slot k).trans (h.slot k)⟩

theorem get_foldl_moveToEnd (hs : List ContextualHash) : ∀ (d : List (ContextualHash × Nat))
    (h : ContextualHash), get (hs.foldl moveToEnd d) h = get d h := by
  induction hs with
  | nil => intro d h; rfl
  | cons k hs ih =>
      intro d h
      rw [List.foldl_cons, ih, get_moveToEnd]

/-- A lookup of resident hashes finds their operators and keeps all others. -/
theorem lookupMany_resident {s : GdnDeltaOperatorSidecar R HV V K} {blockHashes : List ContextualHash}
    (hres : ∀ h ∈ blockHashes, h ∈ s.residentKeys) : ∃ entries s',
      s.lookupMany blockHashes = (some entries, s') ∧ SameOperators s s' ∧
      entries.map (fun e => some e.slot) = blockHashes.map fun h => get s.keyToSlot h := by
  have hsome : ∀ h ∈ blockHashes, (get s.keyToSlot h).isSome = true :=
    fun h hh => mem_keys_iff_get.mp (hres h hh)
  refine ⟨_, _, GdnDeltaOperatorSidecar.lookupMany_of_resident hsome, ⟨rfl, ?_⟩, ?_⟩
  · exact get_foldl_moveToEnd blockHashes s.keyToSlot
  · clear hres
    induction blockHashes with
    | nil => rfl
    | cons h blockHashes ih =>
        obtain ⟨slot, hslot⟩ := Option.isSome_iff_exists.mp (hsome h List.mem_cons_self)
        rw [List.map_cons, hslot, List.reduceOption_cons_of_some, List.map_cons, List.map_cons,
          ih fun k hk => hsome k (List.mem_cons_of_mem _ hk)]
        rfl

/-- What the lookups of a layer return: the slots of the hashes in its sidecar. -/
def ResolvedFrom (sidecars : ι → GdnDeltaOperatorSidecar R HV V K)
    (blockHashes : List ContextualHash) (layer : String × Option ι)
    (resolved : ResolvedGdnDeltaLayer R HV V K) : Prop :=
  resolved.layerName = layer.1 ∧ ∃ i, layer.2 = some i ∧
    resolved.entries.map (fun e => some e.slot) = blockHashes.map fun h => get (sidecars i).keyToSlot h

theorem SameOperators.mem_residentKeys {s s' : GdnDeltaOperatorSidecar R HV V K}
    (hs : SameOperators s s') (h : ContextualHash) : h ∈ s'.residentKeys ↔ h ∈ s.residentKeys := by
  rw [GdnDeltaOperatorSidecar.residentKeys, GdnDeltaOperatorSidecar.residentKeys, mem_keys_iff_get,
    mem_keys_iff_get, hs.slot]

/-- **The lookups on ready layers find everything**, also where layers before them shared a sidecar. -/
theorem resolveLayers_ready [DecidableEq ι] {blockSize : Nat} {blockHashes : List ContextualHash}
    {sidecars₀ : ι → GdnDeltaOperatorSidecar R HV V K} : ∀ {layers : List (String × Option ι)},
    (∀ layer ∈ layers, LayerReady sidecars₀ blockSize blockHashes layer) →
      ∀ {sidecars : ι → GdnDeltaOperatorSidecar R HV V K},
        (∀ i, SameOperators (sidecars₀ i) (sidecars i)) →
          ∃ resolved sidecars',
            resolveLayers blockHashes layers sidecars = .ok (some resolved, sidecars') ∧
            List.Forall₂ (ResolvedFrom sidecars₀ blockHashes) layers resolved ∧
            ∀ i, SameOperators (sidecars₀ i) (sidecars' i) := by
  intro layers
  induction layers with
  | nil => intro _ sidecars hsame; exact ⟨[], sidecars, rfl, .nil, hsame⟩
  | cons layer layers ih =>
      intro hready sidecars hsame
      obtain ⟨layerName, sidecar⟩ := layer
      obtain ⟨i, hi, -, hres⟩ := hready _ List.mem_cons_self
      cases hi
      obtain ⟨entries, s', hlookup, hs', hentries⟩ := lookupMany_resident fun h hh =>
        ((hsame i).mem_residentKeys h).mpr (hres h hh)
      have hupdate : ∀ j, SameOperators (sidecars₀ j) (Function.update sidecars i s' j) := by
        intro j
        by_cases hj : j = i
        · subst hj
          rw [Function.update_self]
          exact (hsame j).trans hs'
        · rw [Function.update_of_ne hj]
          exact hsame j
      obtain ⟨resolved, sidecars', hrun, hall, hfinal⟩ :=
        ih (fun layer hl => hready layer (List.mem_cons_of_mem _ hl)) hupdate
      refine ⟨⟨layerName, entries⟩ :: resolved, sidecars', ?_, .cons ⟨rfl, i, rfl, ?_⟩ hall, hfinal⟩
      · rw [resolveLayers, hlookup]
        exact Except.bind_eq_ok.mpr ⟨_, hrun, rfl⟩
      · rw [hentries]
        refine List.map_congr_left ?_
        intro h _
        exact (hsame i).slot h

/-! ### The decision -/

variable [DecidableEq ι] {plan : GdnDeltaReusePlan} {layers : List (String × Option ι)}
  {sidecars : ι → GdnDeltaOperatorSidecar R HV V K}

theorem preflight_of_reason {reason : String} (hcand : plan.candidates ≠ []) (hlayers : layers ≠ [])
    (hcheck : checkLayers sidecars plan.blockSize
      (plan.candidates.map GdnDeltaReuseCandidate.sourceContextualHash) layers = some reason) :
    preflightGdnDeltaReuse plan layers sidecars
      = .ok (⟨false, reason, plan.candidates.length, []⟩, sidecars) := by
  rw [preflightGdnDeltaReuse, List.length_map]
  simp only [hcheck]
  rw [if_neg (by simpa using hcand), if_neg hlayers]

theorem preflight_of_ready {resolved : List (ResolvedGdnDeltaLayer R HV V K)}
    {sidecars' : ι → GdnDeltaOperatorSidecar R HV V K} (hcand : plan.candidates ≠ [])
    (hlayers : layers ≠ [])
    (hcheck : checkLayers sidecars plan.blockSize
      (plan.candidates.map GdnDeltaReuseCandidate.sourceContextualHash) layers = none)
    (hrun : resolveLayers (plan.candidates.map GdnDeltaReuseCandidate.sourceContextualHash) layers
      sidecars = .ok (some resolved, sidecars')) :
    preflightGdnDeltaReuse plan layers sidecars
      = .ok (⟨true, "eligible", plan.candidates.length, resolved⟩, sidecars') := by
  rw [preflightGdnDeltaReuse, List.length_map]
  simp only [hcheck, hrun]
  rw [if_neg (by simpa using hcand), if_neg hlayers]
  rfl

/-- **Preflight is exact and atomic.**  For any layers, sidecars and plan the preflight returns, and the plan is
eligible exactly when it has candidates, there are layers, and each of them has a sidecar of the plan's block
size in which every candidate hash is resident.  Then every layer resolves to the slots of the
candidates and only the recency orders change; else all sidecars are as they were. -/
theorem preflight_exact (plan : GdnDeltaReusePlan) (layers : List (String × Option ι))
    (sidecars : ι → GdnDeltaOperatorSidecar R HV V K) :
    let blockHashes := plan.candidates.map GdnDeltaReuseCandidate.sourceContextualHash
    ∃ result sidecars', preflightGdnDeltaReuse plan layers sidecars = .ok (result, sidecars') ∧
      (result.eligible = true ↔ plan.candidates ≠ [] ∧ layers ≠ [] ∧
        ∀ layer ∈ layers, LayerReady sidecars plan.blockSize blockHashes layer) ∧
      (result.eligible = false → sidecars' = sidecars) ∧
      (result.eligible = true → List.Forall₂ (ResolvedFrom sidecars blockHashes) layers result.layers ∧
        ∀ i, SameOperators (sidecars i) (sidecars' i)) := by
  intro blockHashes
  by_cases hcand : plan.candidates = []
  · refine ⟨⟨false, "no_candidates", 0, []⟩, sidecars, ?_, ?_, fun _ => rfl, fun h => (by cases h)⟩
    · rw [preflightGdnDeltaReuse, hcand]
      rfl
    · exact ⟨fun h => (by cases h), fun h => absurd hcand h.1⟩
  · by_cases hlayers : layers = []
    · refine ⟨⟨false, "no_gdn_layers", plan.candidates.length, []⟩, sidecars, ?_, ?_, fun _ => rfl,
        fun h => (by cases h)⟩
      · rw [preflightGdnDeltaReuse, List.length_map]
        exact (if_neg (by simpa using hcand)).trans (if_pos hlayers)
      · exact ⟨fun h => (by cases h), fun h => absurd hlayers h.2.1⟩
    · cases hcheck : checkLayers sidecars plan.blockSize blockHashes layers with
      | some reason =>
          refine ⟨_, sidecars, preflight_of_reason hcand hlayers hcheck, ?_, fun _ => rfl,
            fun h => (by cases h)⟩
          refine ⟨fun h => (by cases h), ?_⟩
          rintro ⟨-, -, hready⟩
          rw [checkLayers_eq_none_iff.mpr hready] at hcheck
          cases hcheck
      | none =>
          have hready := checkLayers_eq_none_iff.mp hcheck
          obtain ⟨resolved, sidecars', hrun, hall, hsame⟩ :=
            resolveLayers_ready hready fun i => SameOperators.refl (sidecars i)
          refine ⟨_, sidecars', preflight_of_ready hcand hlayers hcheck hrun,
            ⟨fun _ => ⟨hcand, hlayers, hready⟩, fun _ => rfl⟩, fun h => (by cases h),
            fun _ => ⟨hall, hsame⟩⟩

end CacheSelect.Gdn
