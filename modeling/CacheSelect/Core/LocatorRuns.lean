import CacheSelect.Core.Matching
import CacheSelect.Lib.Lru

/-! # Runs of the locator

Two maps of `AlignedBlockReuseLocator` are kept in step by hand: the sources by their ids, the oldest first,
and for a session the id of the source it was last indexed under.  This module follows them through any
sequence of calls.

`locator_runs` says that the sources are an LRU cache, where only `index` counts as a use, and that a session
entry always names an indexed source of that session.  `session_resolution` says which source a request of a
session is matched against.
-/

namespace CacheSelect.Core

open OrderedDict

inductive LocatorCall
  | index (pool : BlockPool) (request : Request) (blocks : List Nat)
  | locate (pool : BlockPool) (request : Request) (nativeCachedTokens : Nat)
  | clear

namespace AlignedBlockReuseLocator

/-- The locator after a call; `locate` writes to its request only. -/
def after (cfg : LocatorConfig) (l : AlignedBlockReuseLocator) : LocatorCall →
    AlignedBlockReuseLocator
  | .index pool r blocks => index cfg pool l r blocks
  | .locate _ _ _ => l
  | .clear => l.clear

def run (cfg : LocatorConfig) (calls : List LocatorCall) : AlignedBlockReuseLocator :=
  calls.foldl (after cfg) {}

/-! ### The specification -/

/-- What a call does to an LRU cache of sources. -/
def specAfter (cfg : LocatorConfig) (spec : Lru.Spec String SourceRequestIndex) :
    LocatorCall → Lru.Spec String SourceRequestIndex
  | .index pool r blocks =>
      match r.promptTokenIds with
      | none => spec
      | some promptTokenIds => spec.store cfg.maxSourceRequests r.sourceIndexId
          (sourceEntry cfg pool r promptTokenIds blocks)
  | .locate _ _ _ => spec
  | .clear => spec.clear

def specRun (cfg : LocatorConfig) (calls : List LocatorCall) : Lru.Spec String SourceRequestIndex :=
  calls.foldl (specAfter cfg) {}

/-- The id that the latest `index` of a session was for. -/
def latestAfter (latest : String → Option String) : LocatorCall → String → Option String
  | .index _ r _ =>
      match r.promptTokenIds, r.cacheselectSessionId with
      | some _, some session => Function.update latest session (some r.sourceIndexId)
      | _, _ => latest
  | .locate _ _ _ => latest
  | .clear => fun _ => none

def latestRun (calls : List LocatorCall) : String → Option String :=
  calls.foldl latestAfter fun _ => none

/-- The sources by their ids. -/
def entries (l : AlignedBlockReuseLocator) : List (String × SourceRequestIndex) :=
  l.sources.map fun s => (s.requestId, s)

/-! ### The invariant -/

/-- The sources that are indexed under a session, the oldest first. -/
def ofSession (l : AlignedBlockReuseLocator) (session : String) : List SourceRequestIndex :=
  l.sources.filter fun s => s.sessionId = some session

/-- The session entries: each names the youngest of the sources of the session, and the latest source of a
session has its entry as long as it is indexed under the session. -/
structure SessionsOk (latest : String → Option String) (l : AlignedBlockReuseLocator) : Prop where
  youngest : ∀ session id, l.sessionSources session = some id →
    ∃ s, (l.ofSession session).getLast? = some s ∧ s.requestId = id
  isLatest : ∀ session id, l.sessionSources session = some id → latest session = some id
  kept : ∀ session, ∀ s ∈ l.sources, s.sessionId = some session →
    latest session = some s.requestId → l.sessionSources session = some s.requestId

variable {cfg : LocatorConfig} {l : AlignedBlockReuseLocator} {latest : String → Option String}

theorem SessionsOk.indexed (h : SessionsOk latest l) (session id : String)
    (hid : l.sessionSources session = some id) :
    ∃ s ∈ l.sources, s.requestId = id ∧ s.sessionId = some session := by
  obtain ⟨s, hlast, rfl⟩ := h.youngest session id hid
  obtain ⟨hs, hsession⟩ := List.mem_filter.mp (List.mem_of_getLast? hlast)
  exact ⟨s, hs, rfl, of_decide_eq_true hsession⟩

theorem getLast?_filter {α : Type} {p : α → Bool} {xs : List α} {x : α} (h : xs.getLast? = some x)
    (hx : p x = true) : (xs.filter p).getLast? = some x := by
  obtain ⟨ys, rfl⟩ := List.getLast?_eq_some_iff.mp h
  rw [List.filter_append, List.filter_cons_of_pos hx, List.getLast?_append]
  rfl

theorem get_entries (l : AlignedBlockReuseLocator) (id : String) :
    OrderedDict.get l.entries id = l.getSource id := by
  rw [entries, getSource]
  induction l.sources with
  | nil => rfl
  | cons s ss ih =>
      rw [List.map_cons, OrderedDict.get, List.find?_cons]
      by_cases h : id = s.requestId
      · subst h
        rw [if_pos rfl, beq_self_eq_true]
      · rw [if_neg h, ih, beq_false_of_ne (Ne.symm h)]

/-- What is left of the session entries when a source goes. -/
theorem dropSession_eq_some {sessions : String → Option String} {s : SourceRequestIndex}
    {session id : String} : dropSession sessions s session = some id ↔
      sessions session = some id ∧ ¬ (s.sessionId = some session ∧ s.requestId = id) := by
  rw [dropSession]
  cases hs : s.sessionId with
  | none => simp
  | some own =>
      dsimp only
      by_cases hown : sessions own = some s.requestId
      · rw [if_pos hown]
        by_cases hsame : session = own
        · subst hsame
          rw [Function.update_self, hown]
          simp
        · rw [Function.update_of_ne hsame]
          have : ¬ own = session := Ne.symm hsame
          simp [this]
      · rw [if_neg hown]
        refine ⟨fun h => ⟨h, ?_⟩, And.left⟩
        rintro ⟨hsame, rfl⟩
        obtain rfl := Option.some.inj hsame
        exact hown h

/-! ### Eviction -/

theorem evictOldest_of_le {n : Nat} {ss : List SourceRequestIndex} (hlen : ss.length ≤ n)
    (sessions : String → Option String) : evictOldest n ss sessions = ⟨ss, sessions⟩ := by
  cases ss with
  | nil => rfl
  | cons s rest => rw [evictOldest, if_pos hlen]

/-- An index that is too large by one gives up its first source. -/
theorem evictOldest_of_over {n : Nat} {s : SourceRequestIndex} {rest : List SourceRequestIndex}
    (hover : n < (s :: rest).length) (hlen : rest.length ≤ n) (sessions : String → Option String) :
    evictOldest n (s :: rest) sessions = ⟨rest, dropSession sessions s⟩ := by
  rw [evictOldest, if_neg (Nat.not_le.mpr hover), evictOldest_of_le hlen]

/-- Giving up the first source keeps the session entries in order. -/
theorem SessionsOk.tail {s : SourceRequestIndex} {rest : List SourceRequestIndex}
    {sessions : String → Option String} (h : SessionsOk latest ⟨s :: rest, sessions⟩)
    (hnd : ((s :: rest).map SourceRequestIndex.requestId).Nodup) :
    SessionsOk latest ⟨rest, dropSession sessions s⟩ where
  youngest := by
    intro session id hid
    obtain ⟨hid, hne⟩ := dropSession_eq_some.mp hid
    obtain ⟨t, hlast, rfl⟩ := h.youngest session id hid
    refine ⟨t, ?_, rfl⟩
    dsimp only [ofSession] at hlast ⊢
    by_cases hs : s.sessionId = some session
    · rw [List.filter_cons, if_pos (decide_eq_true hs)] at hlast
      cases hrest : rest.filter fun s => s.sessionId = some session with
      | nil =>
          rw [hrest] at hlast
          obtain rfl := Option.some.inj hlast
          exact absurd ⟨hs, rfl⟩ hne
      | cons t' rest' =>
          rwa [hrest, List.getLast?_cons_cons] at hlast
    · rwa [List.filter_cons, if_neg (by simpa using hs)] at hlast
  isLatest := fun session id hid => h.isLatest session id (dropSession_eq_some.mp hid).1
  kept := by
    intro session t ht hsession hlatest
    rw [List.map_cons, List.nodup_cons] at hnd
    refine dropSession_eq_some.mpr ⟨h.kept session t (List.mem_cons_of_mem _ ht) hsession hlatest, ?_⟩
    rintro ⟨-, heq⟩
    exact hnd.1 (heq ▸ List.mem_map_of_mem ht)

/-! ### Calls -/

/-- The session entries when the source of an id is about to be replaced. -/
def withoutSource (l : AlignedBlockReuseLocator) (id : String) : String → Option String :=
  match l.getSource id with
  | none => l.sessionSources
  | some previous => dropSession l.sessionSources previous

/-- The session entries when a source has been stored. -/
def withSource (sessions : String → Option String) (sessionId : Option String) (id : String) :
    String → Option String :=
  match sessionId with
  | none => sessions
  | some session => Function.update sessions session (some id)

theorem index_some (cfg : LocatorConfig) (pool : BlockPool) (l : AlignedBlockReuseLocator)
    {r : Request} {promptTokenIds : List Nat} (hp : r.promptTokenIds = some promptTokenIds)
    (blocks : List Nat) : index cfg pool l r blocks
      = evictOldest cfg.maxSourceRequests
          (l.sources.filter (fun s => s.requestId != r.sourceIndexId)
            ++ [sourceEntry cfg pool r promptTokenIds blocks])
          (withSource (l.withoutSource r.sourceIndexId) r.cacheselectSessionId r.sourceIndexId) := by
  rw [index, hp]
  rfl

/-- No session entry is left for the id of a source that is replaced. -/
theorem SessionsOk.withoutSource_eq_some (h : SessionsOk latest l) (hnd : l.NodupIds)
    {id session id' : String} : l.withoutSource id session = some id'
      ↔ l.sessionSources session = some id' ∧ id' ≠ id := by
  rw [withoutSource]
  cases hprev : l.getSource id with
  | none =>
      refine ⟨fun hid => ⟨hid, ?_⟩, And.left⟩
      rintro rfl
      obtain ⟨s, hs, rfl, -⟩ := h.indexed session id' hid
      rw [hnd.getSource_eq hs] at hprev
      cases hprev
  | some previous =>
      obtain ⟨-, hpid⟩ := getSource_mem hprev
      refine dropSession_eq_some.trans ⟨?_, ?_⟩
      · rintro ⟨hid, hne⟩
        refine ⟨hid, ?_⟩
        rintro rfl
        obtain ⟨s, hs, rfl, hsession⟩ := h.indexed session id' hid
        rw [hnd.getSource_eq hs] at hprev
        obtain rfl := Option.some.inj hprev
        exact hne ⟨hsession, rfl⟩
      · rintro ⟨hid, hne⟩
        exact ⟨hid, fun hsame => hne (hsame.2.symm.trans hpid)⟩

/-- The sources of a session when the new entry is there. -/
theorem ofSession_append (ss : List SourceRequestIndex) (id : String) (entry : SourceRequestIndex)
    (sessions : String → Option String) (session : String) :
    ofSession ⟨ss.filter (fun s => s.requestId != id) ++ [entry], sessions⟩ session
      = ((ss.filter fun s => s.sessionId = some session).filter fun s => s.requestId != id)
          ++ if entry.sessionId = some session then [entry] else [] := by
  rw [ofSession, List.filter_append, List.filter_comm]
  congr 1
  by_cases h : entry.sessionId = some session
  · rw [if_pos h, List.filter_cons, if_pos (decide_eq_true h), List.filter_nil]
  · rw [if_neg h, List.filter_cons, if_neg (by simpa using h), List.filter_nil]

/-- The new entry and its session entry, before the eviction. -/
theorem SessionsOk.stored (h : SessionsOk latest l) (hnd : l.NodupIds) (pool : BlockPool)
    {r : Request} {promptTokenIds : List Nat} (hp : r.promptTokenIds = some promptTokenIds)
    (blocks : List Nat) :
    SessionsOk (latestAfter latest (.index pool r blocks))
      ⟨l.sources.filter (fun s => s.requestId != r.sourceIndexId)
          ++ [sourceEntry cfg pool r promptTokenIds blocks],
        withSource (l.withoutSource r.sourceIndexId) r.cacheselectSessionId r.sourceIndexId⟩ := by
  have hrep : ∀ session id', l.withoutSource r.sourceIndexId session = some id'
      ↔ l.sessionSources session = some id' ∧ id' ≠ r.sourceIndexId :=
    fun _ _ => h.withoutSource_eq_some hnd
  have hold : ∀ s, s ∈ l.sources.filter (fun s => s.requestId != r.sourceIndexId)
      ↔ s ∈ l.sources ∧ s.requestId ≠ r.sourceIndexId := by
    intro s
    rw [List.mem_filter, bne_iff_ne]
  -- an entry of another session stays the youngest of that session
  have hother : ∀ session id', r.cacheselectSessionId ≠ some session →
      l.sessionSources session = some id' → id' ≠ r.sourceIndexId → ∀ sessions,
      ∃ s, (ofSession ⟨l.sources.filter (fun s => s.requestId != r.sourceIndexId)
          ++ [sourceEntry cfg pool r promptTokenIds blocks], sessions⟩ session).getLast? = some s
        ∧ s.requestId = id' := by
    intro session id' hown hid hne sessions
    obtain ⟨s, hlast, rfl⟩ := h.youngest session id' hid
    refine ⟨s, ?_, rfl⟩
    have hown' : (sourceEntry cfg pool r promptTokenIds blocks).sessionId ≠ some session := hown
    rw [ofSession_append, if_neg hown', List.append_nil]
    exact getLast?_filter hlast (bne_iff_ne.mpr hne)
  cases hsession : r.cacheselectSessionId with
  | none =>
      have hlatest : latestAfter latest (.index pool r blocks) = latest := by
        rw [latestAfter, hp, hsession]
      rw [hlatest]
      refine { youngest := ?_, isLatest := ?_, kept := ?_ }
      · intro session id hid
        obtain ⟨hid, hne⟩ := (hrep session id).mp hid
        exact hother session id (by rw [hsession]; exact nofun) hid hne _
      · exact fun session id hid => h.isLatest session id ((hrep session id).mp hid).1
      · intro session s hs hs' hl
        rcases List.mem_append.mp hs with hs | hs
        · obtain ⟨hs, hne⟩ := (hold s).mp hs
          exact (hrep _ _).mpr ⟨h.kept session s hs hs' hl, hne⟩
        · obtain rfl := List.mem_singleton.mp hs
          change r.cacheselectSessionId = some session at hs'
          rw [hsession] at hs'
          cases hs'
  | some own =>
      have hlatest : latestAfter latest (.index pool r blocks)
          = Function.update latest own (some r.sourceIndexId) := by
        rw [latestAfter, hp, hsession]
      rw [hlatest]
      refine { youngest := ?_, isLatest := ?_, kept := ?_ }
      · intro session id hid
        dsimp only [withSource] at hid
        by_cases hsame : session = own
        · subst hsame
          rw [Function.update_self] at hid
          obtain rfl := Option.some.inj hid
          refine ⟨sourceEntry cfg pool r promptTokenIds blocks, ?_, rfl⟩
          have hown : (sourceEntry cfg pool r promptTokenIds blocks).sessionId = some session :=
            hsession
          rw [ofSession_append, if_pos hown, List.getLast?_append]
          rfl
        · rw [Function.update_of_ne hsame] at hid
          obtain ⟨hid, hne⟩ := (hrep session id).mp hid
          refine hother session id ?_ hid hne _
          rw [hsession]
          exact fun h => hsame (Option.some.inj h).symm
      · intro session id hid
        dsimp only [withSource] at hid
        by_cases hsame : session = own
        · subst hsame
          rw [Function.update_self] at hid ⊢
          exact hid
        · rw [Function.update_of_ne hsame] at hid ⊢
          exact h.isLatest session id ((hrep session id).mp hid).1
      · intro session s hs hs' hl
        dsimp only [withSource]
        by_cases hsame : session = own
        · subst hsame
          rw [Function.update_self] at hl ⊢
          exact hl
        · rw [Function.update_of_ne hsame] at hl ⊢
          rcases List.mem_append.mp hs with hs | hs
          · obtain ⟨hs, hne⟩ := (hold s).mp hs
            exact (hrep _ _).mpr ⟨h.kept session s hs hs' hl, hne⟩
          · obtain rfl := List.mem_singleton.mp hs
            change r.cacheselectSessionId = some session at hs'
            rw [hsession] at hs'
            exact absurd (Option.some.inj hs').symm hsame

/-- The sources with the new entry, before the eviction. -/
def storedSources (cfg : LocatorConfig) (pool : BlockPool) (l : AlignedBlockReuseLocator) (r : Request)
    (promptTokenIds blocks : List Nat) : List SourceRequestIndex :=
  l.sources.filter (fun s => s.requestId != r.sourceIndexId)
    ++ [sourceEntry cfg pool r promptTokenIds blocks]

theorem length_storedSources (cfg : LocatorConfig) (pool : BlockPool) (l : AlignedBlockReuseLocator)
    (r : Request) (promptTokenIds blocks : List Nat) :
    (l.storedSources cfg pool r promptTokenIds blocks).length
      = (l.sources.filter fun s => s.requestId != r.sourceIndexId).length + 1 := by
  rw [storedSources, List.length_append, List.length_singleton]

theorem nodup_storedSources (hnd : l.NodupIds) (pool : BlockPool) (r : Request)
    (promptTokenIds blocks : List Nat) :
    ((l.storedSources cfg pool r promptTokenIds blocks).map SourceRequestIndex.requestId).Nodup := by
  rw [storedSources, List.map_append, List.nodup_append]
  refine ⟨hnd.sublist (List.filter_sublist.map _), List.nodup_singleton _, ?_⟩
  rintro x hx y hy rfl
  obtain ⟨s, hs, rfl⟩ := List.mem_map.mp hx
  rw [List.map_singleton, List.mem_singleton] at hy
  exact bne_iff_ne.mp (List.mem_filter.mp hs).2 hy

theorem entries_length (l : AlignedBlockReuseLocator) : l.entries.length = l.sources.length :=
  List.length_map ..

/-- **Indexing a source is storing it in an LRU cache.** -/
theorem entries_index (hlen : l.sources.length ≤ cfg.maxSourceRequests) (pool : BlockPool)
    {r : Request} {promptTokenIds : List Nat} (hp : r.promptTokenIds = some promptTokenIds)
    (blocks : List Nat) : (index cfg pool l r blocks).entries
      = Lru.store cfg.maxSourceRequests l.entries r.sourceIndexId
          (sourceEntry cfg pool r promptTokenIds blocks) := by
  have hput : (l.storedSources cfg pool r promptTokenIds blocks).map (fun s => (s.requestId, s))
      = put l.entries r.sourceIndexId (sourceEntry cfg pool r promptTokenIds blocks) := by
    rw [storedSources, put, OrderedDict.erase, entries, List.filter_map, List.map_append]
    congr 2
    refine List.filter_congr ?_
    intro s _
    exact Bool.eq_iff_iff.mpr (bne_iff_ne.trans decide_eq_true_iff.symm)
  have hle := length_storedSources cfg pool l r promptTokenIds blocks
  have hfilter := List.length_filter_le (fun s => s.requestId != r.sourceIndexId) l.sources
  rw [index_some cfg pool l hp, ← storedSources, Lru.store, get_entries, entries_length]
  by_cases hin : (l.getSource r.sourceIndexId).isSome = true ∨ l.sources.length < cfg.maxSourceRequests
  · -- there is room, or the id makes it
    have hroom : (l.storedSources cfg pool r promptTokenIds blocks).length
        ≤ cfg.maxSourceRequests := by
      rcases hin with hin | hin
      · obtain ⟨s, hs⟩ := Option.isSome_iff_exists.mp hin
        obtain ⟨hmem, hid⟩ := getSource_mem hs
        have hlt : (l.sources.filter fun s => s.requestId != r.sourceIndexId).length
            < l.sources.length :=
          List.length_filter_lt_length_iff_exists.mpr ⟨s, hmem, by simp [hid]⟩
        omega
      · omega
    rw [evictOldest_of_le hroom, if_pos hin]
    exact hput
  · rw [not_or, Bool.not_eq_true, Option.isSome_eq_false_iff, Option.isNone_iff_eq_none] at hin
    obtain ⟨hnone, hfull⟩ := hin
    have hkeep : l.sources.filter (fun s => s.requestId != r.sourceIndexId) = l.sources := by
      refine List.filter_eq_self.mpr ?_
      intro s hs
      rw [bne_iff_ne]
      intro hid
      have := List.find?_eq_none.mp hnone s hs
      exact this (by rw [hid, beq_self_eq_true])
    have hnin : ¬ ((l.getSource r.sourceIndexId).isSome = true ∨
        l.sources.length < cfg.maxSourceRequests) := by
      rw [hnone]
      simpa using hfull
    rw [if_neg hnin, storedSources, hkeep]
    have hpos := cfg.maxSourceRequests_pos
    cases hsources : l.sources with
    | nil =>
        rw [hsources, List.length_nil] at hfull
        omega
    | cons s rest =>
        rw [hsources, List.length_cons] at hfull hlen
        rw [List.cons_append, evictOldest_of_over (by simp; omega) (by simp; omega), entries, entries,
          hsources]
        exact List.map_append

/-- **The step lemma.** -/
theorem SessionsOk.index (h : SessionsOk latest l) (hnd : l.NodupIds)
    (hlen : l.sources.length ≤ cfg.maxSourceRequests) (pool : BlockPool) (r : Request)
    (blocks : List Nat) : SessionsOk (latestAfter latest (.index pool r blocks))
      (AlignedBlockReuseLocator.index cfg pool l r blocks) := by
  cases hp : r.promptTokenIds with
  | none =>
      rw [index_none hp, latestAfter, hp]
      exact h
  | some promptTokenIds =>
      have hstored := @SessionsOk.stored cfg l latest h hnd pool r promptTokenIds hp blocks
      have hfilter := List.length_filter_le (fun s => s.requestId != r.sourceIndexId) l.sources
      have hle := length_storedSources cfg pool l r promptTokenIds blocks
      have hnd' := @nodup_storedSources cfg l hnd pool r promptTokenIds blocks
      rw [index_some cfg pool l hp, ← storedSources]
      rw [← storedSources] at hstored
      by_cases hfits : (l.storedSources cfg pool r promptTokenIds blocks).length
          ≤ cfg.maxSourceRequests
      · rw [evictOldest_of_le hfits]
        exact hstored
      · cases hsources : l.storedSources cfg pool r promptTokenIds blocks with
        | nil =>
            rw [hsources] at hfits
            exact absurd (Nat.zero_le _) hfits
        | cons s rest =>
            rw [hsources] at hstored hnd' hle hfits
            rw [List.length_cons] at hle
            rw [evictOldest_of_over (Nat.not_le.mp hfits) (by omega)]
            exact hstored.tail hnd'

/-! ### Runs -/

/-- What holds of the locator after any sequence of calls. -/
structure RunOk (cfg : LocatorConfig) (calls : List LocatorCall) (l : AlignedBlockReuseLocator) :
    Prop where
  nodup : l.NodupIds
  represents : Lru.Represents cfg.maxSourceRequests l.entries (specRun cfg calls)
  sessions : SessionsOk (latestRun calls) l

theorem RunOk.length_le {calls : List LocatorCall} (h : RunOk cfg calls l) :
    l.sources.length ≤ cfg.maxSourceRequests := by
  rw [← entries_length]
  exact h.represents.length_le

theorem runOk_nil (cfg : LocatorConfig) : RunOk cfg [] {} where
  nodup := List.nodup_nil
  represents := Lru.Represents.empty _
  sessions := { youngest := nofun, isLatest := nofun, kept := nofun }

theorem specRun_concat (cfg : LocatorConfig) (calls : List LocatorCall) (c : LocatorCall) :
    specRun cfg (calls ++ [c]) = specAfter cfg (specRun cfg calls) c :=
  List.foldl_concat ..

theorem latestRun_concat (calls : List LocatorCall) (c : LocatorCall) :
    latestRun (calls ++ [c]) = latestAfter (latestRun calls) c :=
  List.foldl_concat ..

/-- **One call.** -/
theorem RunOk.after {calls : List LocatorCall} (h : RunOk cfg calls l) (c : LocatorCall) :
    RunOk cfg (calls ++ [c]) (l.after cfg c) := by
  cases c with
  | index pool r blocks =>
      refine { nodup := nodupIds_index h.nodup r blocks, represents := ?_, sessions := ?_ }
      · rw [specRun_concat, AlignedBlockReuseLocator.after, specAfter]
        cases hp : r.promptTokenIds with
        | none =>
            rw [index_none hp]
            exact h.represents
        | some promptTokenIds =>
            rw [entries_index h.length_le pool hp]
            exact h.represents.store cfg.maxSourceRequests_pos _ _
      · rw [latestRun_concat]
        exact h.sessions.index h.nodup h.length_le pool r blocks
  | locate pool r nativeCachedTokens =>
      refine { nodup := h.nodup, represents := ?_, sessions := ?_ }
      · rw [specRun_concat]
        exact h.represents
      · rw [latestRun_concat]
        exact h.sessions
  | clear =>
      refine { nodup := List.nodup_nil, represents := ?_, sessions := ?_ }
      · rw [specRun_concat]
        exact Lru.Represents.clear _
      · exact { youngest := nofun, isLatest := nofun, kept := nofun }

theorem runOk_run (cfg : LocatorConfig) (calls : List LocatorCall) :
    RunOk cfg calls (run cfg calls) := by
  induction calls using List.reverseRecOn with
  | nil => exact runOk_nil cfg
  | append_singleton calls c ih =>
      rw [run, List.foldl_concat]
      exact ih.after c

/-- **The index over any sequence of calls.**  It is an LRU cache of the sources, where a use of an id is
an `index` of it, and a session entry names an indexed source of its session. -/
theorem locator_runs (cfg : LocatorConfig) (calls : List LocatorCall) :
    (run cfg calls).sources.length ≤ cfg.maxSourceRequests ∧
      Lru.Represents cfg.maxSourceRequests (run cfg calls).entries (specRun cfg calls) ∧
      ∀ session id, (run cfg calls).sessionSources session = some id →
        ∃ s, (run cfg calls).getSource id = some s ∧ s.sessionId = some session := by
  have h := runOk_run cfg calls
  refine ⟨h.length_le, h.represents, ?_⟩
  intro session id hid
  obtain ⟨s, hs, rfl, hsession⟩ := h.sessions.indexed session id hid
  exact ⟨s, h.nodup.getSource_eq hs, hsession⟩

/-! ### The source of a session -/

/-- The source that a request of a session is matched against: the one that the session was last indexed
under, if it is still indexed under the session and the request can use it. -/
def sessionSource (calls : List LocatorCall) (pool : BlockPool) (l : AlignedBlockReuseLocator)
    (r : Request) (session : String) : Option String :=
  (latestRun calls session).filter fun id =>
    (l.getSource id).any fun s => s.sessionId = some session && isCompatibleResident pool r s

theorem sessionSource_eq_some {calls : List LocatorCall} {pool : BlockPool} {r : Request}
    {session id : String} : sessionSource calls pool l r session = some id ↔
      latestRun calls session = some id ∧ ∃ s, l.getSource id = some s ∧ s.sessionId = some session ∧
        isCompatibleResident pool r s = true := by
  rw [sessionSource, Option.filter_eq_some_iff, Option.any_eq_true]
  simp only [Bool.and_eq_true, decide_eq_true_eq]

/-- What `_automatic_source` takes from the session entries. -/
def entrySource (l : AlignedBlockReuseLocator) (pool : BlockPool) (r : Request) (session : String) :
    Option String :=
  match l.sessionSources session with
  | none => none
  | some id => match l.getSource id with
      | none => none
      | some source => if isCompatibleResident pool r source then some id else none

theorem entrySource_eq {calls : List LocatorCall} (h : RunOk cfg calls l) (pool : BlockPool)
    (r : Request) (session : String) :
    l.entrySource pool r session = sessionSource calls pool l r session := by
  refine Option.ext fun id => ?_
  rw [sessionSource_eq_some, entrySource]
  constructor
  · intro hid
    cases hentry : l.sessionSources session with
    | none =>
        rw [hentry] at hid
        cases hid
    | some id' =>
        obtain ⟨s, hs, rfl, hsession⟩ := h.sessions.indexed session id' hentry
        have hget := h.nodup.getSource_eq hs
        rw [hentry] at hid
        dsimp only at hid
        rw [hget] at hid
        dsimp only at hid
        split at hid
        · next hres =>
            obtain rfl := Option.some.inj hid
            exact ⟨h.sessions.isLatest session _ hentry, s, hget, hsession, hres⟩
        · cases hid
  · rintro ⟨hlatest, s, hget, hsession, hres⟩
    obtain ⟨hs, rfl⟩ := getSource_mem hget
    rw [h.sessions.kept session s hs hsession hlatest]
    dsimp only
    rw [hget]
    exact if_pos hres

/-- The choice for a request of a session that names no source. -/
def sessionChoice (cfg : LocatorConfig) (calls : List LocatorCall) (pool : BlockPool)
    (l : AlignedBlockReuseLocator) (r : Request) (nativeCachedTokens : Nat) (session : String) :
    Option (String × SourceSelection) :=
  match sessionSource calls pool l r session with
  | some id => some (id, .session)
  | none =>
      if r.cacheselectAutoSource then
        (fingerprintSource cfg pool l r nativeCachedTokens none).map fun id => (id, .fingerprint)
      else none

theorem automaticSource_eq {calls : List LocatorCall} (h : RunOk cfg calls l) (pool : BlockPool)
    {r : Request} (nativeCachedTokens : Nat) {session : String}
    (hsession : r.cacheselectSessionId = some session) :
    automaticSource cfg pool l r nativeCachedTokens
      = sessionChoice cfg calls pool l r nativeCachedTokens session := by
  rw [sessionChoice, ← entrySource_eq h, automaticSource, hsession]
  rfl

/-- **Which source a session gets.**  A request of a session that names no source is matched against the
latest source of the session, which is the youngest of those that are indexed.  Where that one is gone or
of no use no other source of the session takes its place. -/
theorem session_resolution (cfg : LocatorConfig) (calls : List LocatorCall) (pool : BlockPool)
    (r : Request) (nativeCachedTokens : Nat) (session : String)
    (hname : r.cacheselectSourceRequestId = none) (hsession : r.cacheselectSessionId = some session) :
    resolveSource cfg pool (run cfg calls) r nativeCachedTokens
        = (sessionChoice cfg calls pool (run cfg calls) r nativeCachedTokens session).map
            (fun (id, selection) =>
              ({ r with
                  cacheselectSourceRequestId := some id
                  cacheselectSourceSelection := selection }, id, selection)) ∧
      ∀ id, sessionSource calls pool (run cfg calls) r session = some id →
        ∃ s, ((run cfg calls).ofSession session).getLast? = some s ∧ s.requestId = id ∧
          isCompatibleResident pool r s = true := by
  have h := runOk_run cfg calls
  constructor
  · rw [resolveSource, hname]
    dsimp only
    rw [automaticSource_eq h pool nativeCachedTokens hsession]
  · intro id hid
    obtain ⟨hlatest, s, hget, hown, hres⟩ := sessionSource_eq_some.mp hid
    obtain ⟨hs, rfl⟩ := getSource_mem hget
    obtain ⟨t, hlast, hid'⟩ := h.sessions.youngest session _ (h.sessions.kept session s hs hown hlatest)
    have ht := List.mem_filter.mp (List.mem_of_getLast? hlast)
    have hget' := h.nodup.getSource_eq ht.1
    rw [hid', hget] at hget'
    obtain rfl := Option.some.inj hget'
    exact ⟨s, hlast, rfl, hres⟩

/-- A request of session `chat` with blocks of one token. -/
def chatRequest (id : String) : Request where
  requestId := id
  promptTokenIds := some [7]
  cacheselectSessionId := some "chat"

/-- A pool in which block 1 is cached with the prompt of `chatRequest`. -/
def chatPool : BlockPool :=
  (BlockPool.init 3).insertBlockHash (hashBlockTokens none [7] []) 1 1

def chatConfig : LocatorConfig where
  blockSize := 1

/-- The session's second source was freed before it had a block. -/
def chatCalls : List LocatorCall :=
  [.index chatPool (chatRequest "first") [1], .index chatPool (chatRequest "second") []]

/-- With the first call alone the third request of the session gets its source. -/
theorem chat_resolution :
    (resolveSource chatConfig chatPool (run chatConfig (chatCalls.take 1)) (chatRequest "third") 0).map
        Prod.snd = some ("first", .session) := by
  rw [(session_resolution chatConfig (chatCalls.take 1) chatPool (chatRequest "third") 0 "chat" rfl
    rfl).1]
  decide +kernel

/-- **An older source of a session that could be used is not found.** -/
theorem session_source_lost : ¬ ∀ (cfg : LocatorConfig) (calls : List LocatorCall) (pool : BlockPool)
    (r : Request) (nativeCachedTokens : Nat) (session : String) (source : SourceRequestIndex),
    r.cacheselectSourceRequestId = none → r.cacheselectSessionId = some session →
    (((run cfg calls).ofSession session).filter (isCompatibleResident pool r)).getLast? = some source →
    ∃ r' selection, resolveSource cfg pool (run cfg calls) r nativeCachedTokens
      = some (r', source.requestId, selection) := by
  intro h
  have hfirst : (((run chatConfig chatCalls).ofSession "chat").filter
      (isCompatibleResident chatPool (chatRequest "third"))).getLast?
        = some (sourceEntry chatConfig chatPool (chatRequest "first") [7] [1]) := by decide +kernel
  have hnone : resolveSource chatConfig chatPool (run chatConfig chatCalls) (chatRequest "third") 0
      = none := by decide +kernel
  obtain ⟨r', selection, hres⟩ := h chatConfig chatCalls chatPool (chatRequest "third") 0 "chat" _ rfl
    rfl hfirst
  rw [hnone] at hres
  cases hres

end AlignedBlockReuseLocator

end CacheSelect.Core
