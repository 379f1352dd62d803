import CacheSelect.Core.Matching
import CacheSelect.Lib.FirstBest
import Mathlib.Data.Finset.Dedup
import Mathlib.Data.Finset.Card

/-! # How a source is chosen

`_fingerprint_source` goes over the most recently indexed sources once and keeps the best one so far;
`fingerprintSource_argmax` says what it returns.
-/

namespace CacheSelect.Core.AlignedBlockReuseLocator

open FirstBest

/-! ### `_fingerprint_source` -/

/-- The sources that the search looks at, the most recently indexed one first. -/
def scanned (l : AlignedBlockReuseLocator) : List SourceRequestIndex :=
  l.sources.reverse.take autoSourceSearchLimit

/-- The number of fingerprint items that a source shares with the uncached part of the target. -/
def sharedItems (cfg : LocatorConfig) (r : Request) (nativeCachedTokens : Nat)
    (source : SourceRequestIndex) : Nat :=
  ((fingerprintOf cfg ((r.promptTokenIds.getD []).drop nativeCachedTokens)).toFinset ∩
    source.fingerprint.toFinset).card

/-- A source that the search may return. -/
structure Eligible (pool : BlockPool) (r : Request) (exclude : Option String)
    (source : SourceRequestIndex) : Prop where
  notTarget : source.requestId ≠ r.sourceIndexId
  notExcluded : some source.requestId ≠ exclude
  cacheSalt : source.cacheSalt = r.cacheSalt
  loraAdapterId : source.loraAdapterId = AlignedBlockReuseLocator.loraAdapterId r
  resident : ∃ b ∈ source.blocks, isResident pool b = true

theorem isCompatibleResident_iff (pool : BlockPool) (r : Request) (source : SourceRequestIndex) :
    isCompatibleResident pool r source = true ↔ source.cacheSalt = r.cacheSalt ∧
      source.loraAdapterId = loraAdapterId r ∧ ∃ b ∈ source.blocks, isResident pool b = true := by
  rw [isCompatibleResident, Bool.and_eq_true, Bool.and_eq_true, beq_iff_eq, beq_iff_eq,
    List.any_eq_true, and_assoc]

theorem eligible_iff (pool : BlockPool) (r : Request) (exclude : Option String)
    (source : SourceRequestIndex) : Eligible pool r exclude source ↔
      ¬ (source.requestId = r.sourceIndexId ∨ some source.requestId = exclude ∨
        isCompatibleResident pool r source = false) := by
  rw [not_or, not_or, Bool.not_eq_false, isCompatibleResident_iff]
  constructor
  · intro h
    exact ⟨h.notTarget, h.notExcluded, h.cacheSalt, h.loraAdapterId, h.resident⟩
  · rintro ⟨h₁, h₂, h₃, h₄, h₅⟩
    exact ⟨h₁, h₂, h₃, h₄, h₅⟩

theorem nodup_fingerprintOf (cfg : LocatorConfig) (tokenIds : List Nat) :
    (fingerprintOf cfg tokenIds).Nodup := by
  rw [fingerprintOf]
  split
  · exact List.nodup_nil
  · exact ((List.perm_insertionSort _ _).nodup_iff.mpr (List.nodup_dedup _)).sublist
      (List.take_sublist _ _)

theorem card_inter_toFinset {xs ys : List Int} (h : xs.Nodup) :
    (xs.toFinset ∩ ys.toFinset).card = (xs.filter fun x => ys.contains x).length := by
  have heq : xs.toFinset ∩ ys.toFinset = (xs.filter fun x => ys.contains x).toFinset := by
    ext x
    rw [Finset.mem_inter, List.mem_toFinset, List.mem_toFinset, List.mem_toFinset,
      List.mem_filter, List.contains_iff_mem]
  rw [heq, List.toFinset_card_of_nodup (h.filter _)]

theorem sharedItems_le (cfg : LocatorConfig) (r : Request) (native : Nat)
    (source : SourceRequestIndex) : sharedItems cfg r native source
      ≤ (fingerprintOf cfg ((r.promptTokenIds.getD []).drop native)).length := by
  rw [sharedItems, card_inter_toFinset (nodup_fingerprintOf _ _)]
  exact List.length_filter_le _ _

/-- What the search has found at the end of its scan. -/
theorem fingerprintSource_found (cfg : LocatorConfig) (pool : BlockPool)
    (l : AlignedBlockReuseLocator) (r : Request) (native : Nat) (exclude : Option String) :
    ∃ n, Found (Eligible pool r exclude) (sharedItems cfg r native) SourceRequestIndex.requestId
      (autoSourceMinShared - 1) l.scanned (fingerprintSource cfg pool l r native exclude, n) := by
  have hfew : (fingerprintOf cfg ((r.promptTokenIds.getD []).drop native)).length
      < autoSourceMinShared →
      Found (Eligible pool r exclude) (sharedItems cfg r native) SourceRequestIndex.requestId
        (autoSourceMinShared - 1) l.scanned (none, autoSourceMinShared - 1) := by
    intro hlt
    refine Or.inl ⟨rfl, ?_⟩
    intro source _ _
    exact Nat.le_trans (sharedItems_le cfg r native source) (Nat.le_sub_one_of_lt hlt)
  rw [fingerprintSource]
  cases hp : r.promptTokenIds with
  | none =>
      refine ⟨_, hfew ?_⟩
      rw [hp, Option.getD_none, List.drop_nil, fingerprintOf, if_pos (by decide)]
      decide
  | some promptTokenIds =>
      rw [hp, Option.getD_some] at hfew
      dsimp only
      split
      · next hlt => exact ⟨_, hfew hlt⟩
      · refine ⟨_, keepBest_run (Eligible pool r exclude) (sharedItems cfg r native)
          SourceRequestIndex.requestId ?_ ?_ l.scanned⟩
        · intro best source hs hlt
          rw [if_neg ((eligible_iff pool r exclude source).mp hs)]
          rw [sharedItems, hp, Option.getD_some,
            card_inter_toFinset (nodup_fingerprintOf _ _)] at hlt ⊢
          exact if_pos hlt
        · intro best source hle
          split
          · rfl
          · next hs =>
              have hle := hle ((eligible_iff pool r exclude source).mpr hs)
              rw [sharedItems, hp, Option.getD_some,
                card_inter_toFinset (nodup_fingerprintOf _ _)] at hle
              exact if_neg (Nat.not_lt.mpr hle)

/-- A source that the search may return, with enough in common with the target. -/
def Qualifies (cfg : LocatorConfig) (pool : BlockPool) (r : Request) (nativeCachedTokens : Nat)
    (exclude : Option String) (source : SourceRequestIndex) : Prop :=
  Eligible pool r exclude source ∧
    autoSourceMinShared ≤ sharedItems cfg r nativeCachedTokens source

/-- The id of the qualifying source with the most shared items, the most recently indexed one of several. -/
def IsBestSource (cfg : LocatorConfig) (pool : BlockPool) (l : AlignedBlockReuseLocator) (r : Request)
    (nativeCachedTokens : Nat) (exclude : Option String) (id : String) : Prop :=
  ∃ i source, source.requestId = id ∧ Qualifies cfg pool r nativeCachedTokens exclude source ∧
    IsFirstBest (Eligible pool r exclude) (sharedItems cfg r nativeCachedTokens) l.scanned i source

theorem fingerprintSource_spec (cfg : LocatorConfig) (pool : BlockPool)
    (l : AlignedBlockReuseLocator) (r : Request) (native : Nat) (exclude : Option String) :
    (∀ id, fingerprintSource cfg pool l r native exclude = some id ↔
      IsBestSource cfg pool l r native exclude id) ∧
    (fingerprintSource cfg pool l r native exclude = none ↔
      ∀ source ∈ l.scanned, ¬ Qualifies cfg pool r native exclude source) := by
  obtain ⟨n, ⟨hnone, hall⟩ | ⟨i, source, hbest, hleast, hsome⟩⟩ :=
    fingerprintSource_found cfg pool l r native exclude
  · -- nothing scanned has more than the least that does not suffice
    have hno : ∀ source ∈ l.scanned, ¬ Qualifies cfg pool r native exclude source := by
      rintro source hs ⟨hel, hge⟩
      have := hall source hs hel
      have : 0 < autoSourceMinShared := by decide
      omega
    rw [(Prod.mk.inj hnone).1]
    refine ⟨?_, by simpa using hno⟩
    intro id
    refine iff_of_false (by simp) ?_
    rintro ⟨i, source, -, hq, hbest⟩
    exact hno source (List.mem_of_getElem? hbest.get) hq
  · have hq : Qualifies cfg pool r native exclude source :=
      ⟨hbest.takes, Nat.le_of_pred_lt hleast⟩
    rw [(Prod.mk.inj hsome).1]
    refine ⟨?_, ?_⟩
    · intro id
      constructor
      · intro h
        exact ⟨i, source, Option.some.inj h, hq, hbest⟩
      · rintro ⟨j, other, rfl, -, hother⟩
        rw [hbest.unique _ _ hother]
    · refine iff_of_false (by simp) ?_
      intro hno
      exact hno source (List.mem_of_getElem? hbest.get) hq

/-- **The fingerprint search is an argmax**: it returns the id of the qualifying source with the most shared
items among the eligible ones it scans, the most recently indexed one of several, and none exactly when no
scanned source qualifies. -/
theorem fingerprintSource_argmax : ∀ (cfg : LocatorConfig) (pool : BlockPool)
    (l : AlignedBlockReuseLocator) (r : Request) (native : Nat) (exclude : Option String),
    (∀ id, fingerprintSource cfg pool l r native exclude = some id ↔
      ∃ i source, source.requestId = id ∧ Qualifies cfg pool r native exclude source ∧
        IsFirstBest (Eligible pool r exclude) (sharedItems cfg r native) l.scanned i source) ∧
    (fingerprintSource cfg pool l r native exclude = none ↔
      ∀ source ∈ l.scanned, ¬ Qualifies cfg pool r native exclude source) :=
  fingerprintSource_spec

end CacheSelect.Core.AlignedBlockReuseLocator
