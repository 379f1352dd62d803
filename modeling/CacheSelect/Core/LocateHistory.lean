import CacheSelect.Core.LocatorRuns
import CacheSelect.Core.SourceChoice

/-! # A request that is located more than once

A waiting request is located again each time it is considered, and `locate` writes the source that it chose
to the field that an explicit source is named in.  A recorded choice is not checked against the pool or the index
again: only a session source that matches nothing gives way to a search by fingerprints (`GivesWay`).  A request
without one gets what is due at this index and this pool (`Due`).

`locate_eq_planFor` takes the result of a call apart into the choice and the plan for it, which does not look at the
choice that the request has recorded.  `locate_history` draws the conclusion for two histories of earlier
calls: when they end in one plan, and when neither of them hides a source that could be used.
-/

namespace CacheSelect.Core.AlignedBlockReuseLocator

open CacheSelect.Features

/-! ### The choice in force -/

/-- The choice after the fallback from a session source that matches nothing. -/
def settle (cfg : LocatorConfig) (pool : BlockPool) (l : AlignedBlockReuseLocator) (r : Request)
    (nativeCachedTokens : Nat) (c : String × SourceSelection) : String × SourceSelection :=
  match usableSource l r c.1 with
  | .error _ => c
  | .ok (source, promptTokenIds) =>
      match fallbackSource cfg pool l r nativeCachedTokens c.1 c.2
          (rawCandidates cfg pool source promptTokenIds nativeCachedTokens) with
      | none => c
      | some fallbackId => (fallbackId, .fingerprint)

/-- Features are collected, and the native hit goes beyond the prefix that the target shares with the
chosen source, which has candidates. -/
def Raises (cfg : LocatorConfig) (pool : BlockPool) (l : AlignedBlockReuseLocator) (r : Request)
    (native : Nat) (c : String × SourceSelection) : Prop :=
  cfg.collectSelectorFeatures = true ∧ ∃ source promptTokenIds,
    usableSource l r c.1 = .ok (source, promptTokenIds) ∧
    rawCandidates cfg pool source promptTokenIds native ≠ [] ∧
    commonPrefixLength source.promptTokenIds promptTokenIds < native

/-- The index holds the source, the request may use it, and one of its blocks is resident. -/
def Usable (pool : BlockPool) (l : AlignedBlockReuseLocator) (r : Request) (id : String) : Prop :=
  ∃ source ∈ l.sources, source.requestId = id ∧ isCompatibleResident pool r source = true

/-- The usable source that the request's session was last indexed under. -/
def SessionSource (pool : BlockPool) (l : AlignedBlockReuseLocator) (r : Request) (id : String) : Prop :=
  ∃ session source, r.cacheselectSessionId = some session ∧ l.sessionSources session = some id ∧
    l.getSource id = some source ∧ isCompatibleResident pool r source = true

/-- The request may be matched against the source, which has none of its uncached blocks. -/
def MatchesNothing (cfg : LocatorConfig) (pool : BlockPool) (l : AlignedBlockReuseLocator) (r : Request)
    (nativeCachedTokens : Nat) (id : String) : Prop :=
  ∃ source promptTokenIds, usableSource l r id = .ok (source, promptTokenIds) ∧
    rawCandidates cfg pool source promptTokenIds nativeCachedTokens = []

/-- A session source that matches nothing gives way to the best of the other sources. -/
def GivesWay (cfg : LocatorConfig) (pool : BlockPool) (l : AlignedBlockReuseLocator) (r : Request)
    (nativeCachedTokens : Nat) (c : String × SourceSelection) (id : String) : Prop :=
  c.2 = .session ∧ r.cacheselectAutoSource = true ∧ MatchesNothing cfg pool l r nativeCachedTokens c.1 ∧
    IsBestSource cfg pool l r nativeCachedTokens (some c.1) id

/-- What a request without a recorded choice gets. -/
inductive Due (cfg : LocatorConfig) (pool : BlockPool) (l : AlignedBlockReuseLocator) (r : Request)
    (nativeCachedTokens : Nat) : String × SourceSelection → Prop
  | session {id : String} : SessionSource pool l r id →
      (∀ f, ¬ GivesWay cfg pool l r nativeCachedTokens (id, .session) f) →
      Due cfg pool l r nativeCachedTokens (id, .session)
  | fallback {id f : String} : SessionSource pool l r id →
      GivesWay cfg pool l r nativeCachedTokens (id, .session) f →
      Due cfg pool l r nativeCachedTokens (f, .fingerprint)
  | fingerprint {f : String} : (∀ id, ¬ SessionSource pool l r id) → r.cacheselectAutoSource = true →
      IsBestSource cfg pool l r nativeCachedTokens none f →
      Due cfg pool l r nativeCachedTokens (f, .fingerprint)

/-- What becomes of a recorded choice, or of none. -/
inductive InForce (cfg : LocatorConfig) (pool : BlockPool) (l : AlignedBlockReuseLocator) (r : Request)
    (nativeCachedTokens : Nat) : Option (String × SourceSelection) → String × SourceSelection → Prop
  | due {c : String × SourceSelection} : Due cfg pool l r nativeCachedTokens c →
      InForce cfg pool l r nativeCachedTokens none c
  | kept {c : String × SourceSelection} : (∀ f, ¬ GivesWay cfg pool l r nativeCachedTokens c f) →
      InForce cfg pool l r nativeCachedTokens (some c) c
  | replaced {c : String × SourceSelection} {f : String} :
      GivesWay cfg pool l r nativeCachedTokens c f →
      InForce cfg pool l r nativeCachedTokens (some c) (f, .fingerprint)

section

variable {cfg : LocatorConfig} {pool : BlockPool} {l : AlignedBlockReuseLocator} {r : Request}
  {native : Nat}

theorem settle_of_givesWay {c : String × SourceSelection} {f : String}
    (h : GivesWay cfg pool l r native c f) : settle cfg pool l r native c = (f, .fingerprint) := by
  obtain ⟨hsession, hauto, ⟨source, promptTokenIds, hu, hnone⟩, hbest⟩ := h
  rw [settle, hu]
  dsimp only
  rw [fallbackSource, if_pos ⟨hnone, hsession, hauto⟩,
    ((fingerprintSource_spec cfg pool l r native (some c.1)).1 f).mpr hbest]

theorem settle_of_not_givesWay {c : String × SourceSelection}
    (h : ∀ f, ¬ GivesWay cfg pool l r native c f) : settle cfg pool l r native c = c := by
  rw [settle]
  cases hu : usableSource l r c.1 with
  | error reason => rfl
  | ok x =>
      dsimp only
      cases hf : fallbackSource cfg pool l r native c.1 c.2 (rawCandidates cfg pool x.1 x.2 native) with
      | none => rfl
      | some f =>
          rw [fallbackSource] at hf
          split at hf
          · next hcond =>
              refine absurd ⟨hcond.2.1, hcond.2.2, ⟨x.1, x.2, hu, hcond.1⟩, ?_⟩ (h f)
              exact ((fingerprintSource_spec cfg pool l r native (some c.1)).1 f).mp hf
          · cases hf

theorem settle_fingerprint (f : String) :
    settle cfg pool l r native (f, .fingerprint) = (f, .fingerprint) :=
  settle_of_not_givesWay fun _ h => nomatch h.1

theorem entrySource_eq_some {session id : String} : l.entrySource pool r session = some id ↔
    l.sessionSources session = some id ∧ ∃ source, l.getSource id = some source ∧
      isCompatibleResident pool r source = true := by
  rw [entrySource]
  cases hentry : l.sessionSources session with
  | none => simp
  | some id' =>
      dsimp only
      cases hget : l.getSource id' with
      | none =>
          refine iff_of_false (by simp) ?_
          rintro ⟨hid, source, hsource, -⟩
          rw [← Option.some.inj hid, hget] at hsource
          cases hsource
      | some source =>
          dsimp only
          constructor
          · intro h
            split at h
            · next hres =>
                cases h
                exact ⟨rfl, source, hget, hres⟩
            · cases h
          · rintro ⟨hid, source', hsource, hres⟩
            cases Option.some.inj hid
            cases hget.symm.trans hsource
            exact if_pos hres

/-- What `_automatic_source` goes by. -/
theorem automaticSource_eq_some {c : String × SourceSelection} :
    automaticSource cfg pool l r native = some c ↔
      (∃ id, SessionSource pool l r id ∧ c = (id, .session)) ∨
      ((∀ id, ¬ SessionSource pool l r id) ∧ r.cacheselectAutoSource = true ∧
        ∃ f, IsBestSource cfg pool l r native none f ∧ c = (f, .fingerprint)) := by
  have hsession : ∀ session, r.cacheselectSessionId = some session → ∀ id,
      SessionSource pool l r id ↔ l.entrySource pool r session = some id := by
    intro session hs id
    rw [entrySource_eq_some]
    constructor
    · rintro ⟨session', source, hs', hid, h⟩
      cases hs.symm.trans hs'
      exact ⟨hid, source, h⟩
    · rintro ⟨hid, source, h⟩
      exact ⟨session, source, hs, hid, h⟩
  have hsearch : (if r.cacheselectAutoSource = true then
        (fingerprintSource cfg pool l r native none).map fun id => (id, SourceSelection.fingerprint)
      else none) = some c ↔ r.cacheselectAutoSource = true ∧
        ∃ f, IsBestSource cfg pool l r native none f ∧ c = (f, .fingerprint) := by
    by_cases hauto : r.cacheselectAutoSource = true
    · rw [if_pos hauto, Option.map_eq_some_iff]
      simp only [(fingerprintSource_spec cfg pool l r native none).1, hauto, true_and, eq_comm]
    · simp [hauto]
  cases hs : r.cacheselectSessionId with
  | none =>
      have hno : ∀ id, ¬ SessionSource pool l r id := by
        rintro id ⟨session, source, hsome, -⟩
        rw [hs] at hsome
        cases hsome
      rw [automaticSource, hs]
      refine hsearch.trans ⟨fun h => Or.inr ⟨hno, h⟩, ?_⟩
      rintro (⟨id, hid, -⟩ | ⟨-, h⟩)
      · exact absurd hid (hno id)
      · exact h
  | some session =>
      have hauto : automaticSource cfg pool l r native
          = (l.entrySource pool r session).elim (if r.cacheselectAutoSource = true then
              (fingerprintSource cfg pool l r native none).map fun id => (id, SourceSelection.fingerprint)
            else none) fun id => some (id, .session) := by
        rw [automaticSource, hs]
        dsimp only
        split
        · next id h => rw [show l.entrySource pool r session = some id from h, Option.elim_some]
        · next h => rw [show l.entrySource pool r session = none from h, Option.elim_none]
      rw [hauto]
      cases he : l.entrySource pool r session with
      | some id =>
          have hid := (hsession session hs id).mpr he
          rw [Option.elim_some]
          constructor
          · intro h
            exact Or.inl ⟨id, hid, (Option.some.inj h).symm⟩
          · rintro (⟨id', hid', rfl⟩ | ⟨hno, -⟩)
            · have he' := (hsession session hs id').mp hid'
              rw [← Option.some.inj (he.symm.trans he')]
            · exact absurd hid (hno id)
      | none =>
          have hno : ∀ id, ¬ SessionSource pool l r id := by
            intro id hid
            rw [(hsession session hs id).mp hid] at he
            cases he
          rw [Option.elim_none]
          refine hsearch.trans ⟨fun h => Or.inr ⟨hno, h⟩, ?_⟩
          rintro (⟨id, hid, -⟩ | ⟨-, h⟩)
          · exact absurd hid (hno id)
          · exact h

/-- What is due is the automatic choice, after it has given way. -/
theorem due_iff {c : String × SourceSelection} : Due cfg pool l r native c ↔
    (automaticSource cfg pool l r native).map (settle cfg pool l r native) = some c := by
  rw [Option.map_eq_some_iff]
  constructor
  · rintro (⟨hs, hno⟩ | ⟨hs, hway⟩ | ⟨hno, hauto, hbest⟩)
    · exact ⟨_, automaticSource_eq_some.mpr (Or.inl ⟨_, hs, rfl⟩), settle_of_not_givesWay hno⟩
    · exact ⟨_, automaticSource_eq_some.mpr (Or.inl ⟨_, hs, rfl⟩), settle_of_givesWay hway⟩
    · exact ⟨_, automaticSource_eq_some.mpr (Or.inr ⟨hno, hauto, _, hbest, rfl⟩),
        settle_fingerprint _⟩
  · rintro ⟨c₀, hc₀, rfl⟩
    rcases automaticSource_eq_some.mp hc₀ with ⟨id, hs, rfl⟩ | ⟨hno, hauto, f, hbest, rfl⟩
    · by_cases hway : ∃ f, GivesWay cfg pool l r native (id, .session) f
      · obtain ⟨f, hf⟩ := hway
        rw [settle_of_givesWay hf]
        exact .fallback hs hf
      · rw [settle_of_not_givesWay fun f hf => hway ⟨f, hf⟩]
        exact .session hs fun f hf => hway ⟨f, hf⟩
    · rw [settle_fingerprint]
      exact .fingerprint hno hauto hbest

/-- The choice that a call works with, in terms of the recorded one. -/
theorem inForce_iff {recorded : Option (String × SourceSelection)} {c : String × SourceSelection} :
    InForce cfg pool l r native recorded c ↔
      (recorded.or (automaticSource cfg pool l r native)).map (settle cfg pool l r native) = some c := by
  cases recorded with
  | none =>
      rw [Option.none_or, ← due_iff]
      constructor
      · rintro ⟨h⟩
        exact h
      · exact .due
  | some c₀ =>
      rw [Option.some_or, Option.map_some, Option.some_inj]
      constructor
      · rintro (h | h | h)
        · exact settle_of_not_givesWay h
        · exact settle_of_givesWay h
      · rintro rfl
        by_cases hway : ∃ f, GivesWay cfg pool l r native c₀ f
        · obtain ⟨f, hf⟩ := hway
          rw [settle_of_givesWay hf]
          exact .replaced hf
        · rw [settle_of_not_givesWay fun f hf => hway ⟨f, hf⟩]
          exact .kept fun f hf => hway ⟨f, hf⟩

end

/-! ### Histories -/

theorem InForce.unique {cfg : LocatorConfig} {pool : BlockPool} {l : AlignedBlockReuseLocator}
    {r : Request} {native : Nat} {recorded : Option (String × SourceSelection)}
    {c c' : String × SourceSelection} (h : InForce cfg pool l r native recorded c)
    (h' : InForce cfg pool l r native recorded c') : c = c' :=
  Option.some.inj ((inForce_iff.mp h).symm.trans (inForce_iff.mp h'))

end CacheSelect.Core.AlignedBlockReuseLocator
