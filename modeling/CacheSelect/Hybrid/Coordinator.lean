import CacheSelect.Hybrid.GreatestHit

/-! # The lookup over all cache groups

`HybridKVCacheCoordinator` looks a request up in all groups of a hybrid model.  Groups with one spec form an
attention group; the full-attention ones come first.  The lookup lowers one length through all attention groups, and
starts again while it drops.  A full-attention group is searched once, since a prefix of its hit is a hit; in later
rounds it only caps the length.

When the full-attention groups have one spec, the result is the greatest length that all groups have cached
(`find_longest_cache_hit_greatest`), although each lookup sees one group and the search stops after one round when
there are two attention groups.  In any layout it is a length that all groups have.

As in the lookups of the single groups, there are no EAGLE groups, so no margin is added to a search and no block
dropped, and the context-parallel world size is one, so the block size of a group is that of its spec.
-/

namespace CacheSelect.Hybrid

open CacheSelect.Core (PyError cdiv)
open CacheSelect.Lib

def KVCacheSpec.isFullAttention (spec : KVCacheSpec) : Bool :=
  spec.kind == .fullAttention

/-- A Mamba spec in align mode whose block is larger than the hash block. -/
def KVCacheSpec.hasPartialHits (hashBlockSize : Nat) (spec : KVCacheSpec) : Bool :=
  spec.kind == .mamba .align && decide (hashBlockSize < spec.blockSize)

/-! ### Attention groups -/

/-- `SpecGroup`: the groups that share a spec. -/
structure SpecGroup where
  spec : KVCacheSpec
  groupIds : List Nat
deriving DecidableEq, Repr

/-- Add group `i` to the attention group of its spec. -/
def addGroup (spec : KVCacheSpec) (i : Nat) : List SpecGroup → List SpecGroup
  | [] => [⟨spec, [i]⟩]
  | group :: groups =>
      if group.spec = spec then { group with groupIds := group.groupIds ++ [i] } :: groups
      else group :: addGroup spec i groups

/-- The loop of `verify_and_split_kv_cache_groups`, from group `i` on. -/
def splitGroups : List KVCacheSpec → Nat → List SpecGroup → List SpecGroup
  | [], _, groups => groups
  | spec :: specs, i, groups => splitGroups specs (i + 1) (addGroup spec i groups)

/-- The stable sort that puts full attention first. -/
def fullAttentionFirst (groups : List SpecGroup) : List SpecGroup :=
  groups.filter (fun group => group.spec.isFullAttention) ++
    groups.filter fun group => !group.spec.isFullAttention

/-- The coordinator, with what its constructors check. -/
structure HybridKVCacheCoordinator where
  kvCacheGroups : List KVCacheSpec
  schedulerBlockSize : Nat
  hashBlockSize : Nat
  scheduler_pos : 0 < schedulerBlockSize
  hash_pos : 0 < hashBlockSize
  hash_dvd_scheduler : hashBlockSize ∣ schedulerBlockSize
  block_pos : ∀ spec ∈ kvCacheGroups, 0 < spec.blockSize
  hash_dvd : ∀ spec ∈ kvCacheGroups, hashBlockSize ∣ spec.blockSize
  block_dvd : ∀ spec ∈ kvCacheGroups, spec.blockSize ∣ schedulerBlockSize
  attention_groups : 1 < (splitGroups kvCacheGroups 0 []).length

/-! ### The lookup -/

/-- What the loop of `find_longest_cache_hit` changes. -/
structure LookupState where
  currHitLength : Nat
  longestHitLength : Nat
  hitBlocksByGroup : Nat → Option (List Nat)
  hitLengthByGroup : Nat → Nat

def LookupState.init (maxCacheHitLength : Nat) : LookupState where
  currHitLength := maxCacheHitLength
  longestHitLength := 0
  hitBlocksByGroup := fun _ => none
  hitLengthByGroup := fun _ => 0

namespace HybridKVCacheCoordinator

variable {Hash : Type} (c : HybridKVCacheCoordinator)

def attentionGroups : List SpecGroup :=
  fullAttentionFirst (splitGroups c.kvCacheGroups 0 [])

def enablePartialHashHits : Bool :=
  c.kvCacheGroups.any (KVCacheSpec.hasPartialHits c.hashBlockSize)

/-- `_cache_hit_alignment_tokens`. -/
def cacheHitAlignmentTokens : Nat :=
  if c.enablePartialHashHits = true then c.hashBlockSize else c.schedulerBlockSize

def lookup (getOneBlock : Hash → Nat → Option Nat) (blockHashes : List Hash) : CacheLookup Hash where
  getOneBlock := getOneBlock
  hashBlockSize := c.hashBlockSize
  blockHashes := blockHashes
  alignmentTokens := c.cacheHitAlignmentTokens

def isSimpleHybrid : Bool :=
  c.attentionGroups.length == 2 && (c.attentionGroups.head?.map fun group => group.spec.isFullAttention).getD false

end HybridKVCacheCoordinator

namespace SpecGroup

variable {Hash : Type} (group : SpecGroup)

def firstGroupId : Nat :=
  group.groupIds.headD 0

/-- Record the blocks and the length of a lookup for the groups. -/
def record (s : LookupState) (hitBlocks : List (List Nat)) (newHitLength : Nat) : LookupState where
  currHitLength := newHitLength
  longestHitLength := max s.longestHitLength newHitLength
  hitBlocksByGroup := (group.groupIds.zip hitBlocks).foldl
    (fun m e => Function.update m e.1 (some e.2)) s.hitBlocksByGroup
  hitLengthByGroup := (group.groupIds.zip hitBlocks).foldl
    (fun m e => Function.update m e.1 newHitLength) s.hitLengthByGroup

/-- The body of the inner loop. -/
def visit (q : CacheLookup Hash) (s : LookupState) : Except PyError LookupState :=
  if group.spec.isFullAttention = true ∧ (s.hitBlocksByGroup group.firstGroupId).isSome = true then
    .ok { s with currHitLength := min s.currHitLength (s.hitLengthByGroup group.firstGroupId) }
  else
    (q.findLongestCacheHit group.spec group.groupIds s.currHitLength).map fun (hitBlocks, newHitLength) =>
      group.record s hitBlocks newHitLength

end SpecGroup

/-- The inner loop. -/
def visitAll {Hash : Type} (q : CacheLookup Hash) : List SpecGroup → LookupState → Except PyError LookupState
  | [], s => .ok s
  | group :: groups, s => do
      let s ← group.visit q s
      visitAll q groups s

namespace HybridKVCacheCoordinator

variable {Hash : Type} (c : HybridKVCacheCoordinator)

/-- The outer loop. -/
def fixpoint (q : CacheLookup Hash) (hitLength : Nat) (s : LookupState) : Except PyError (Nat × LookupState) :=
  match visitAll q c.attentionGroups { s with currHitLength := hitLength } with
  | .error e => .error e
  | .ok s =>
      if hitLength ≤ s.currHitLength then .ok (hitLength, s)
      else if c.isSimpleHybrid = true then .ok (s.currHitLength, s)
      else fixpoint q s.currHitLength s
termination_by hitLength

/-- The blocks of the first attention group are cut when it is a full-attention one. -/
def truncate (hitLength : Nat) (s : LookupState) (groupId : Nat) : List Nat :=
  let blocks := (s.hitBlocksByGroup groupId).getD []
  if (c.attentionGroups.head?.map fun group =>
      group.spec.isFullAttention && group.groupIds.contains groupId).getD false = true then
    blocks.take (cdiv hitLength ((c.attentionGroups.head?.map fun group => group.spec.blockSize).getD 0))
  else blocks

/-- `find_longest_cache_hit`: the blocks of each group, the length of the hit, and the length of an uncached prefix
that other groups share. -/
def findLongestCacheHit (getOneBlock : Hash → Nat → Option Nat) (blockHashes : List Hash)
    (maxCacheHitLength : Nat) : Except PyError (List (List Nat) × Nat × Nat) :=
  (c.fixpoint (c.lookup getOneBlock blockHashes) maxCacheHitLength (.init maxCacheHitLength)).map
    fun (hitLength, s) =>
      ((List.range c.kvCacheGroups.length).map (c.truncate hitLength s), hitLength, s.longestHitLength - hitLength)

end HybridKVCacheCoordinator

/-! ### The attention groups -/

/-- The attention groups of the first `n` groups. -/
structure Splits (specs : List KVCacheSpec) (n : Nat) (groups : List SpecGroup) : Prop where
  nodup : (groups.map SpecGroup.spec).Nodup
  nonempty : ∀ group ∈ groups, group.groupIds ≠ []
  ids : ∀ group ∈ groups, ∀ i ∈ group.groupIds, i < n ∧ specs[i]? = some group.spec
  all : ∀ i < n, ∃ group ∈ groups, i ∈ group.groupIds

theorem map_spec_addGroup (spec : KVCacheSpec) (i : Nat) (groups : List SpecGroup) :
    (addGroup spec i groups).map SpecGroup.spec = if spec ∈ groups.map SpecGroup.spec
      then groups.map SpecGroup.spec else groups.map SpecGroup.spec ++ [spec] := by
  induction groups with
  | nil => rfl
  | cons group groups ih =>
      rw [addGroup]
      by_cases heq : group.spec = spec
      · rw [if_pos heq, if_pos (by simp [heq])]
        rfl
      · have hmem : spec ∈ (group :: groups).map SpecGroup.spec ↔ spec ∈ groups.map SpecGroup.spec := by
          rw [List.map_cons, List.mem_cons]
          exact or_iff_right fun h => heq h.symm
        rw [if_neg heq, List.map_cons, ih, if_congr hmem rfl rfl]
        split
        · rfl
        · rfl

theorem mem_addGroup {spec : KVCacheSpec} {i : Nat} {groups : List SpecGroup} {group : SpecGroup}
    (h : group ∈ addGroup spec i groups) : group ∈ groups ∨
      group.spec = spec ∧ ∃ ids, group.groupIds = ids ++ [i] ∧
        (ids = [] ∨ ∃ group' ∈ groups, group'.spec = spec ∧ group'.groupIds = ids) := by
  induction groups with
  | nil =>
      rw [addGroup, List.mem_singleton] at h
      subst h
      exact Or.inr ⟨rfl, [], rfl, Or.inl rfl⟩
  | cons head groups ih =>
      rw [addGroup] at h
      by_cases heq : head.spec = spec
      · rw [if_pos heq] at h
        rcases List.mem_cons.mp h with rfl | h
        · exact Or.inr ⟨heq, head.groupIds, rfl, Or.inr ⟨head, List.mem_cons_self, heq, rfl⟩⟩
        · exact Or.inl (List.mem_cons_of_mem _ h)
      · rw [if_neg heq] at h
        rcases List.mem_cons.mp h with rfl | h
        · exact Or.inl List.mem_cons_self
        · rcases ih h with hmem | ⟨hspec, ids, hids, hor⟩
          · exact Or.inl (List.mem_cons_of_mem _ hmem)
          · refine Or.inr ⟨hspec, ids, hids, hor.imp_right ?_⟩
            rintro ⟨group', hmem, hgroup⟩
            exact ⟨group', List.mem_cons_of_mem _ hmem, hgroup⟩

theorem subset_addGroup (spec : KVCacheSpec) (i : Nat) {groups : List SpecGroup} {group : SpecGroup}
    (h : group ∈ groups) : ∃ group' ∈ addGroup spec i groups, group.groupIds ⊆ group'.groupIds := by
  induction groups with
  | nil => cases h
  | cons head groups ih =>
      rw [addGroup]
      by_cases heq : head.spec = spec
      · rw [if_pos heq]
        rcases List.mem_cons.mp h with rfl | h
        · exact ⟨_, List.mem_cons_self, List.subset_append_left _ _⟩
        · exact ⟨group, List.mem_cons_of_mem _ h, List.Subset.refl _⟩
      · rw [if_neg heq]
        rcases List.mem_cons.mp h with rfl | h
        · exact ⟨group, List.mem_cons_self, List.Subset.refl _⟩
        · obtain ⟨group', hmem, hsub⟩ := ih h
          exact ⟨group', List.mem_cons_of_mem _ hmem, hsub⟩

theorem exists_addGroup (spec : KVCacheSpec) (i : Nat) (groups : List SpecGroup) :
    ∃ group ∈ addGroup spec i groups, i ∈ group.groupIds := by
  induction groups with
  | nil => exact ⟨_, List.mem_cons_self, List.mem_cons_self⟩
  | cons head groups ih =>
      rw [addGroup]
      by_cases heq : head.spec = spec
      · rw [if_pos heq]
        exact ⟨_, List.mem_cons_self, List.mem_append_right _ List.mem_cons_self⟩
      · rw [if_neg heq]
        obtain ⟨group, hmem, hi⟩ := ih
        exact ⟨group, List.mem_cons_of_mem _ hmem, hi⟩

theorem Splits.addGroup {specs : List KVCacheSpec} {n : Nat} {groups : List SpecGroup} (h : Splits specs n groups)
    {spec : KVCacheSpec} (hspec : specs[n]? = some spec) : Splits specs (n + 1) (addGroup spec n groups) := by
  refine ⟨?_, ?_, ?_, ?_⟩
  · rw [map_spec_addGroup]
    split
    · exact h.nodup
    · next hmem =>
        refine List.nodup_append.mpr ⟨h.nodup, List.nodup_singleton _, ?_⟩
        intro a ha b hb hab
        rw [List.mem_singleton.mp hb] at hab
        exact hmem (hab ▸ ha)
  · intro group hgroup
    rcases mem_addGroup hgroup with hmem | ⟨-, ids, hids, -⟩
    · exact h.nonempty group hmem
    · rw [hids]
      exact List.append_ne_nil_of_right_ne_nil _ (List.cons_ne_nil _ _)
  · intro group hgroup i hi
    rcases mem_addGroup hgroup with hmem | ⟨hg, ids, hids, hor⟩
    · obtain ⟨hlt, hget⟩ := h.ids group hmem i hi
      exact ⟨Nat.lt_succ_of_lt hlt, hget⟩
    · rw [hids] at hi
      rcases List.mem_append.mp hi with hi | hi
      · rcases hor with rfl | ⟨group', hmem, hspec', rfl⟩
        · cases hi
        · obtain ⟨hlt, hget⟩ := h.ids group' hmem i hi
          exact ⟨Nat.lt_succ_of_lt hlt, by rw [hget, hspec', hg]⟩
      · rw [List.mem_singleton.mp hi, hg]
        exact ⟨Nat.lt_succ_self n, hspec⟩
  · intro i hi
    rcases Nat.lt_succ_iff_lt_or_eq.mp hi with hlt | rfl
    · obtain ⟨group, hmem, hin⟩ := h.all i hlt
      obtain ⟨group', hmem', hsub⟩ := subset_addGroup spec n hmem
      exact ⟨group', hmem', hsub hin⟩
    · exact exists_addGroup spec i groups

theorem splits_splitGroups {specs : List KVCacheSpec} : ∀ (rest : List KVCacheSpec) (n : Nat) (groups : List SpecGroup),
    specs.drop n = rest → n ≤ specs.length → Splits specs n groups →
    Splits specs specs.length (splitGroups rest n groups) := by
  intro rest
  induction rest with
  | nil =>
      intro n groups hdrop hle h
      have hlen := congrArg List.length hdrop
      rw [List.length_drop, List.length_nil] at hlen
      rw [splitGroups, show specs.length = n by omega]
      exact h
  | cons spec rest ih =>
      intro n groups hdrop hle h
      have hget : specs[n]? = some spec := by
        have hhead := congrArg List.head? hdrop
        rwa [List.head?_drop, List.head?_cons] at hhead
      rw [splitGroups]
      refine ih (n + 1) (Hybrid.addGroup spec n groups) ?_ ?_ (h.addGroup hget)
      · rw [← List.drop_drop, hdrop]
        rfl
      · exact Nat.lt_of_le_of_ne hle fun heq => by
          rw [heq, List.getElem?_eq_none (le_refl _)] at hget
          cases hget

theorem fullAttentionFirst_perm (groups : List SpecGroup) : (fullAttentionFirst groups).Perm groups :=
  List.filter_append_perm _ groups

theorem Splits.perm {specs : List KVCacheSpec} {n : Nat} {groups groups' : List SpecGroup} (h : Splits specs n groups)
    (hperm : groups'.Perm groups) : Splits specs n groups' := by
  refine ⟨?_, ?_, ?_, ?_⟩
  · exact (hperm.map _).nodup_iff.mpr h.nodup
  · exact fun group hmem => h.nonempty group (hperm.mem_iff.mp hmem)
  · exact fun group hmem => h.ids group (hperm.mem_iff.mp hmem)
  · intro i hi
    obtain ⟨group, hmem, hin⟩ := h.all i hi
    exact ⟨group, hperm.mem_iff.mpr hmem, hin⟩

/-- No group is in two attention groups. -/
theorem Splits.disjoint {specs : List KVCacheSpec} {n : Nat} {groups : List SpecGroup} (h : Splits specs n groups) :
    groups.Pairwise fun group group' => ∀ i ∈ group.groupIds, i ∉ group'.groupIds := by
  have hpair := List.pairwise_map.mp h.nodup
  refine hpair.imp_of_mem ?_
  intro group group' hmem hmem' hne i hi hi'
  have heq := (h.ids group hmem i hi).2.symm.trans (h.ids group' hmem' i hi').2
  exact hne (Option.some.inj heq)

theorem HybridKVCacheCoordinator.splits (c : HybridKVCacheCoordinator) :
    Splits c.kvCacheGroups c.kvCacheGroups.length c.attentionGroups := by
  refine (splits_splitGroups c.kvCacheGroups 0 [] rfl (Nat.zero_le _) ?_).perm (fullAttentionFirst_perm _)
  refine ⟨List.nodup_nil, ?_, ?_, fun i hi => absurd hi (Nat.not_lt_zero i)⟩
  · intro group hmem
    cases hmem
  · intro group hmem
    cases hmem

/-! ### One round -/

section

variable {Hash : Type} {q : CacheLookup Hash} {group : SpecGroup} {s s' : LookupState}

/-- The hits of an attention group. -/
def SpecGroup.points (q : CacheLookup Hash) (group : SpecGroup) : Set Nat :=
  q.points group.spec group.groupIds

/-- The lengths that the search of a full-attention group left. -/
def SpecGroup.below (s : LookupState) (group : SpecGroup) : Set Nat :=
  Set.Iic (s.hitLengthByGroup group.firstGroupId)

/-- A lookup of the attention group finds its greatest hit. -/
def Searchable (q : CacheLookup Hash) (bound : Nat) (group : SpecGroup) : Prop :=
  group.groupIds ≠ [] ∧ ∀ maxLength ≤ bound, ∃ found,
    q.findLongestCacheHit group.spec group.groupIds maxLength = .ok found ∧
      q.Found group.spec group.groupIds maxLength found

/-- The state holds the blocks of a hit of the attention group. -/
def LookupState.Holds (q : CacheLookup Hash) (s : LookupState) (group : SpecGroup) (hitLength : Nat) : Prop :=
  ∀ i ∈ group.groupIds, s.hitBlocksByGroup i = some (q.hitBlocks group.spec hitLength i) ∧
    s.hitLengthByGroup i = hitLength

/-- Nothing changes for the other groups. -/
def LookupState.SameFor (s s' : LookupState) (i : Nat) : Prop :=
  s'.hitBlocksByGroup i = s.hitBlocksByGroup i ∧ s'.hitLengthByGroup i = s.hitLengthByGroup i

theorem LookupState.Holds.congr {hitLength : Nat} (h : s.Holds q group hitLength)
    (hsame : ∀ i ∈ group.groupIds, s.SameFor s' i) : s'.Holds q group hitLength := by
  intro i hi
  obtain ⟨hblocks, hlength⟩ := h i hi
  obtain ⟨hblocks', hlength'⟩ := hsame i hi
  exact ⟨hblocks'.trans hblocks, hlength'.trans hlength⟩

theorem firstGroupId_mem (h : group.groupIds ≠ []) : group.firstGroupId ∈ group.groupIds := by
  obtain ⟨i, ids, hids⟩ := List.exists_cons_of_ne_nil h
  rw [SpecGroup.firstGroupId, hids]
  exact List.mem_cons_self

theorem foldl_update_zip {β γ : Type} (f : Nat → β) (g : β → γ) (i : Nat) : ∀ (ids : List Nat) (m : Nat → γ),
    (ids.zip (ids.map f)).foldl (fun m e => Function.update m e.1 (g e.2)) m i
      = if i ∈ ids then g (f i) else m i := by
  intro ids
  induction ids with
  | nil => exact fun m => rfl
  | cons id ids ih =>
      intro m
      rw [List.map_cons, List.zip_cons_cons, List.foldl_cons, ih]
      by_cases hmem : i ∈ ids
      · rw [if_pos hmem, if_pos (List.mem_cons_of_mem _ hmem)]
      · rw [if_neg hmem]
        by_cases heq : i = id
        · subst heq
          rw [Function.update_self, if_pos List.mem_cons_self]
        · rw [Function.update_of_ne heq, if_neg (by simp [heq, hmem])]

/-- What a lookup of an attention group does to the state. -/
structure Looked (q : CacheLookup Hash) (group : SpecGroup) (s s' : LookupState) : Prop where
  greatest : IsGreatest (group.points q ∩ Set.Iic s.currHitLength) s'.currHitLength
  holds : s'.Holds q group s'.currHitLength
  longest : s'.longestHitLength = max s.longestHitLength s'.currHitLength
  others : ∀ i ∉ group.groupIds, s.SameFor s' i

theorem looked_record {found : List (List Nat) × Nat}
    (h : q.Found group.spec group.groupIds s.currHitLength found) :
    Looked q group s (group.record s found.1 found.2) := by
  refine ⟨h.greatest, ?_, rfl, ?_⟩
  · intro i hi
    rw [SpecGroup.record, h.blocks]
    dsimp only
    rw [foldl_update_zip _ some, foldl_update_zip _ (fun _ => found.2), if_pos hi, if_pos hi]
    exact ⟨rfl, rfl⟩
  · intro i hi
    rw [LookupState.SameFor, SpecGroup.record, h.blocks]
    dsimp only
    rw [foldl_update_zip _ some, foldl_update_zip _ (fun _ => found.2), if_neg hi, if_neg hi]
    exact ⟨rfl, rfl⟩

/-- The group is not a full-attention group that was searched before. -/
def Unsearched (s : LookupState) (group : SpecGroup) : Prop :=
  group.spec.isFullAttention = true → s.hitBlocksByGroup group.firstGroupId = none

theorem visit_lookup {bound : Nat} (hsearch : Searchable q bound group) (hcurr : s.currHitLength ≤ bound)
    (hnew : Unsearched s group) : ∃ s', group.visit q s = .ok s' ∧ Looked q group s s' := by
  obtain ⟨found, hrun, hfound⟩ := hsearch.2 _ hcurr
  rw [SpecGroup.visit, if_neg, hrun]
  · exact ⟨_, rfl, looked_record hfound⟩
  · rintro ⟨hfull, hsome⟩
    rw [hnew hfull] at hsome
    cases hsome

/-- A group whose lookups raise. -/
theorem visit_error {e : PyError} (hrun : q.findLongestCacheHit group.spec group.groupIds s.currHitLength = .error e)
    (hnew : Unsearched s group) : group.visit q s = .error e := by
  rw [SpecGroup.visit, if_neg, hrun]
  · rfl
  · rintro ⟨hfull, hsome⟩
    rw [hnew hfull] at hsome
    cases hsome

/-- What a round of lookups does to the state. -/
structure LookedAll (q : CacheLookup Hash) (groups : List SpecGroup) (s s' : LookupState) : Prop where
  round : Round (groups.map (SpecGroup.points q)) s.currHitLength s'.currHitLength
  below : Round (groups.map (SpecGroup.below s')) s.currHitLength s'.currHitLength
  holds : ∀ group ∈ groups, ∃ hitLength, s'.Holds q group hitLength ∧ s'.currHitLength ≤ hitLength ∧
    hitLength ≤ s.currHitLength ∧ hitLength ∈ group.points q
  last : ∀ group, groups.getLast? = some group → s'.Holds q group s'.currHitLength
  longest : s.currHitLength ≤ s.longestHitLength → s'.longestHitLength = s.longestHitLength
  first : ∀ group, groups.head? = some group → ∃ top, IsGreatest (group.points q ∩ Set.Iic s.currHitLength) top ∧
    s'.longestHitLength = max s.longestHitLength top
  others : ∀ i, (∀ group ∈ groups, i ∉ group.groupIds) → s.SameFor s' i

theorem visitAll_lookups {bound : Nat} : ∀ (groups : List SpecGroup) (s : LookupState),
    (∀ group ∈ groups, Searchable q bound group) → (∀ group ∈ groups, Unsearched s group) →
    (groups.Pairwise fun group group' => ∀ i ∈ group.groupIds, i ∉ group'.groupIds) →
    s.currHitLength ≤ bound → ∃ s', visitAll q groups s = .ok s' ∧ LookedAll q groups s s' := by
  intro groups
  induction groups with
  | nil =>
      intro s _ _ _ _
      exact ⟨s, rfl, .nil _, .nil _, fun group hmem => (by cases hmem), fun group hlast => (by cases hlast),
        fun _ => rfl, fun group hhead => (by cases hhead), fun i _ => ⟨rfl, rfl⟩⟩
  | cons group groups ih =>
      intro s hsearch hnew hdisjoint hcurr
      obtain ⟨hhead, htail⟩ := List.pairwise_cons.mp hdisjoint
      obtain ⟨s₁, hvisit, hlooked⟩ := visit_lookup (hsearch group List.mem_cons_self) hcurr
        (hnew group List.mem_cons_self)
      have hne := (hsearch group List.mem_cons_self).1
      have hle : s₁.currHitLength ≤ s.currHitLength := hlooked.greatest.1.2
      have hnew₁ : ∀ group' ∈ groups, Unsearched s₁ group' := by
        intro group' hmem hfull
        have hne' := (hsearch group' (List.mem_cons_of_mem _ hmem)).1
        have hnot : group'.firstGroupId ∉ group.groupIds := fun hin =>
          hhead group' hmem _ hin (firstGroupId_mem hne')
        rw [(hlooked.others _ hnot).1]
        exact hnew group' (List.mem_cons_of_mem _ hmem) hfull
      obtain ⟨s', hrun, hall⟩ := ih s₁ (fun group' hmem => hsearch group' (List.mem_cons_of_mem _ hmem)) hnew₁ htail
        (Nat.le_trans hle hcurr)
      have hkeep : ∀ i ∈ group.groupIds, s₁.SameFor s' i := fun i hi =>
        hall.others i fun group' hmem => hhead group' hmem i hi
      have hholds : s'.Holds q group s₁.currHitLength := hlooked.holds.congr hkeep
      have hlongest : s'.longestHitLength = max s.longestHitLength s₁.currHitLength := by
        rw [← hlooked.longest]
        exact hall.longest (by rw [hlooked.longest]; exact Nat.le_max_right _ _)
      refine ⟨s', ?_, ?_, ?_, ?_, ?_, ?_, ?_, ?_⟩
      · rw [visitAll, hvisit]
        exact hrun
      · exact .cons hlooked.greatest hall.round
      · refine .cons ?_ hall.below
        rw [SpecGroup.below, (hholds _ (firstGroupId_mem hne)).2]
        exact ⟨⟨Nat.le_refl _, hle⟩, fun p hp => hp.1⟩
      · intro group' hmem
        rcases List.mem_cons.mp hmem with rfl | hmem
        · exact ⟨_, hholds, hall.round.le, hle, hlooked.greatest.1.1⟩
        · obtain ⟨hitLength, hhold, hlow, hhigh, hpoint⟩ := hall.holds group' hmem
          exact ⟨hitLength, hhold, hlow, Nat.le_trans hhigh hle, hpoint⟩
      · intro group' hlast
        cases groups with
        | nil =>
            cases hlast
            cases hrun
            exact hlooked.holds
        | cons head groups =>
            rw [List.getLast?_cons_cons] at hlast
            exact hall.last group' hlast
      · intro hlow
        rw [hlongest]
        exact Nat.max_eq_left (Nat.le_trans hle hlow)
      · intro group' hfirst
        cases hfirst
        exact ⟨_, hlooked.greatest, hlongest⟩
      · intro i hi
        obtain ⟨hblocks, hlength⟩ := hall.others i fun group' hmem => hi group' (List.mem_cons_of_mem _ hmem)
        obtain ⟨hblocks', hlength'⟩ := hlooked.others i (hi group List.mem_cons_self)
        exact ⟨hblocks.trans hblocks', hlength.trans hlength'⟩

/-- A later round of full-attention groups only caps the length. -/
theorem visitAll_caps : ∀ (groups : List SpecGroup) (s : LookupState),
    (∀ group ∈ groups, group.spec.isFullAttention = true ∧
      (s.hitBlocksByGroup group.firstGroupId).isSome = true) →
    ∃ hitLength, visitAll q groups s = .ok { s with currHitLength := hitLength } ∧
      Round (groups.map (SpecGroup.below s)) s.currHitLength hitLength := by
  intro groups
  induction groups with
  | nil => exact fun s _ => ⟨s.currHitLength, rfl, .nil _⟩
  | cons group groups ih =>
      intro s hall
      rw [List.forall_mem_cons] at hall
      obtain ⟨hitLength, hrun, hround⟩ := ih
        { s with currHitLength := min s.currHitLength (s.hitLengthByGroup group.firstGroupId) } hall.2
      refine ⟨hitLength, ?_, .cons ?_ hround⟩
      · rw [visitAll, SpecGroup.visit, if_pos hall.1]
        exact hrun
      · refine ⟨⟨Nat.min_le_right _ _, Nat.min_le_left _ _⟩, ?_⟩
        intro p hp
        exact Nat.le_min.mpr ⟨hp.2, hp.1⟩

theorem visitAll_append (groups groups' : List SpecGroup) (s : LookupState) :
    visitAll q (groups ++ groups') s = visitAll q groups s >>= visitAll q groups' := by
  induction groups generalizing s with
  | nil => rfl
  | cons group groups ih =>
      rw [List.cons_append, visitAll, visitAll]
      cases hvisit : group.visit q s with
      | error e => rfl
      | ok s₁ => exact ih s₁

end

/-! ### All rounds -/

namespace HybridKVCacheCoordinator

variable {Hash : Type} (c : HybridKVCacheCoordinator) {q : CacheLookup Hash} {bound : Nat} {s₁ s : LookupState}

def fullGroups : List SpecGroup :=
  (splitGroups c.kvCacheGroups 0 []).filter fun group => group.spec.isFullAttention

def otherGroups : List SpecGroup :=
  (splitGroups c.kvCacheGroups 0 []).filter fun group => !group.spec.isFullAttention

theorem attentionGroups_eq : c.attentionGroups = c.fullGroups ++ c.otherGroups := rfl

theorem isFullAttention_of_mem {group : SpecGroup} (h : group ∈ c.fullGroups) :
    group.spec.isFullAttention = true :=
  (List.mem_filter.mp h).2

theorem not_isFullAttention_of_mem {group : SpecGroup} (h : group ∈ c.otherGroups) :
    group.spec.isFullAttention = false := by
  have hnot := (List.mem_filter.mp h).2
  rwa [Bool.not_eq_true'] at hnot

/-- What the attention groups accept once the full-attention groups were searched. -/
def accepted (q : CacheLookup Hash) (s : LookupState) : List (Set Nat) :=
  c.fullGroups.map (SpecGroup.below s) ++ c.otherGroups.map (SpecGroup.points q)

/-- The first round. -/
structure FirstRound (q : CacheLookup Hash) (bound : Nat) (s₁ : LookupState) : Prop where
  covered : ∃ b, Round (c.fullGroups.map (SpecGroup.points q)) bound b ∧
    Round (c.fullGroups.map (SpecGroup.below s₁)) bound b ∧
    Round (c.otherGroups.map (SpecGroup.points q)) b s₁.currHitLength
  full : ∀ group ∈ c.fullGroups, ∃ hitLength, s₁.Holds q group hitLength ∧ hitLength ∈ group.points q ∧
    hitLength ≤ bound
  other : ∀ group ∈ c.otherGroups, ∃ hitLength, s₁.Holds q group hitLength ∧
    s₁.currHitLength ≤ hitLength ∧ hitLength ≤ bound
  last : ∀ group, c.otherGroups.getLast? = some group → s₁.Holds q group s₁.currHitLength
  longest : ∀ group, c.attentionGroups.head? = some group →
    IsGreatest (group.points q ∩ Set.Iic bound) s₁.longestHitLength ∧ s₁.currHitLength ≤ s₁.longestHitLength

theorem disjoint_groups : (∀ group ∈ c.fullGroups, ∀ group' ∈ c.otherGroups, ∀ i ∈ group.groupIds,
      i ∉ group'.groupIds) ∧
    (c.fullGroups.Pairwise fun group group' => ∀ i ∈ group.groupIds, i ∉ group'.groupIds) ∧
    c.otherGroups.Pairwise fun group group' => ∀ i ∈ group.groupIds, i ∉ group'.groupIds := by
  have hdisjoint := c.splits.disjoint
  rw [attentionGroups_eq, List.pairwise_append] at hdisjoint
  exact ⟨hdisjoint.2.2, hdisjoint.1, hdisjoint.2.1⟩

theorem first_round (hsearch : ∀ group ∈ c.attentionGroups, Searchable q bound group)
    {s₀ : LookupState} (hcurr : s₀.currHitLength = bound) (hlongest : s₀.longestHitLength = 0)
    (hnone : ∀ i, s₀.hitBlocksByGroup i = none) :
    ∃ s₁, visitAll q c.attentionGroups s₀ = .ok s₁ ∧ c.FirstRound q bound s₁ := by
  obtain ⟨hcross, hfulls, hothers⟩ := c.disjoint_groups
  obtain ⟨s, hrun, hall⟩ := visitAll_lookups c.fullGroups s₀
    (fun group hmem => hsearch group (List.mem_append_left _ hmem)) (fun group _ _ => hnone _) hfulls (le_of_eq hcurr)
  have hle : s.currHitLength ≤ bound := Nat.le_trans hall.round.le (le_of_eq hcurr)
  have hunsearched : ∀ group ∈ c.otherGroups, Unsearched s group := by
    intro group hmem hfull
    rw [c.not_isFullAttention_of_mem hmem] at hfull
    cases hfull
  obtain ⟨s₁, hrun₁, hall₁⟩ := visitAll_lookups c.otherGroups s
    (fun group hmem => hsearch group (List.mem_append_right _ hmem)) hunsearched hothers hle
  have hkeep : ∀ group ∈ c.fullGroups, ∀ i ∈ group.groupIds, s.SameFor s₁ i := fun group hmem i hi =>
    hall₁.others i fun group' hmem' => hcross group hmem group' hmem' i hi
  have hbelow : c.fullGroups.map (SpecGroup.below s₁) = c.fullGroups.map (SpecGroup.below s) := by
    refine List.map_congr_left fun group hmem => ?_
    rw [SpecGroup.below, SpecGroup.below, (hkeep group hmem _
      (firstGroupId_mem (hsearch group (List.mem_append_left _ hmem)).1)).2]
  refine ⟨s₁, ?_, ⟨s.currHitLength, ?_, ?_, hall₁.round⟩, ?_, ?_, hall₁.last, ?_⟩
  · rw [attentionGroups_eq, visitAll_append, hrun]
    exact hrun₁
  · rw [← hcurr]
    exact hall.round
  · rw [hbelow, ← hcurr]
    exact hall.below
  · intro group hmem
    obtain ⟨hitLength, hholds, -, hhigh, hpoint⟩ := hall.holds group hmem
    exact ⟨hitLength, hholds.congr (hkeep group hmem), hpoint, Nat.le_trans hhigh (Nat.le_of_eq hcurr)⟩
  · intro group hmem
    obtain ⟨hitLength, hholds, hlow, hhigh, -⟩ := hall₁.holds group hmem
    exact ⟨hitLength, hholds, hlow, Nat.le_trans hhigh hle⟩
  · intro group hhead
    rw [attentionGroups_eq] at hhead
    cases hfull : c.fullGroups with
    | nil =>
        -- no full attention: the round starts with the other groups
        rw [hfull, List.nil_append] at hhead
        rw [hfull] at hrun
        cases hrun
        obtain ⟨top, hgreatest, htop⟩ := hall₁.first group hhead
        rw [hlongest, Nat.zero_max] at htop
        rw [hcurr] at hgreatest
        rw [htop]
        refine ⟨hgreatest, ?_⟩
        obtain ⟨groups, hgroups⟩ := List.head?_eq_some_iff.mp hhead
        have hround := hall₁.round
        rw [hgroups, hcurr] at hround
        cases hround with
        | cons hfirst hrest =>
            rw [hgreatest.unique hfirst]
            exact hrest.le
    | cons head groups =>
        rw [hfull] at hhead
        cases hhead
        obtain ⟨top, hgreatest, htop⟩ := hall.first group (by rw [hfull]; rfl)
        rw [hlongest, Nat.zero_max] at htop
        rw [hcurr] at hgreatest
        have hlow : s.currHitLength ≤ s.longestHitLength := by
          have hround := hall.round
          rw [hfull, hcurr] at hround
          cases hround with
          | cons hfirst hrest =>
              rw [htop, hgreatest.unique hfirst]
              exact hrest.le
        rw [hall₁.longest hlow, htop]
        exact ⟨hgreatest, Nat.le_trans hall₁.round.le (htop ▸ hlow)⟩

/-- A state after the first round: the full-attention groups are as they were found. -/
structure LaterState (q : CacheLookup Hash) (bound : Nat) (s₁ s : LookupState) : Prop where
  keep : ∀ group ∈ c.fullGroups, ∀ i ∈ group.groupIds, s₁.SameFor s i
  rounds : Relation.ReflTransGen (Round (c.accepted q s₁)) bound s.currHitLength
  longest : s.longestHitLength = s₁.longestHitLength
  low : s.currHitLength ≤ s.longestHitLength

/-- A later round. -/
theorem later_round (hsearch : ∀ group ∈ c.attentionGroups, Searchable q bound group)
    (hfirst : c.FirstRound q bound s₁) (h : c.LaterState q bound s₁ s) :
    ∃ s', visitAll q c.attentionGroups s = .ok s' ∧ c.LaterState q bound s₁ s' ∧
      Round (c.accepted q s₁) s.currHitLength s'.currHitLength ∧
      ∀ group ∈ c.otherGroups, ∃ hitLength, s'.Holds q group hitLength ∧
        s'.currHitLength ≤ hitLength ∧ hitLength ≤ s.currHitLength := by
  obtain ⟨hcross, hfulls, hothers⟩ := c.disjoint_groups
  have hmem : ∀ group ∈ c.fullGroups, group.firstGroupId ∈ group.groupIds := fun group hgroup =>
    firstGroupId_mem (hsearch group (List.mem_append_left _ hgroup)).1
  have hset : ∀ group ∈ c.fullGroups, group.spec.isFullAttention = true ∧
      (s.hitBlocksByGroup group.firstGroupId).isSome = true := by
    intro group hgroup
    obtain ⟨hitLength, hholds, -⟩ := hfirst.full group hgroup
    refine ⟨c.isFullAttention_of_mem hgroup, ?_⟩
    rw [(h.keep group hgroup _ (hmem group hgroup)).1, (hholds _ (hmem group hgroup)).1]
    rfl
  obtain ⟨b, hrun, hround⟩ := visitAll_caps c.fullGroups s hset
  have hle : b ≤ bound := Nat.le_trans hround.le (Round.le_of_rounds h.rounds)
  have hunsearched : ∀ group ∈ c.otherGroups, Unsearched { s with currHitLength := b } group := by
    intro group hgroup hfull
    rw [c.not_isFullAttention_of_mem hgroup] at hfull
    cases hfull
  obtain ⟨s', hrun', hall⟩ := visitAll_lookups c.otherGroups { s with currHitLength := b }
    (fun group hgroup => hsearch group (List.mem_append_right _ hgroup)) hunsearched hothers hle
  have hbelow : c.fullGroups.map (SpecGroup.below s) = c.fullGroups.map (SpecGroup.below s₁) := by
    refine List.map_congr_left fun group hgroup => ?_
    rw [SpecGroup.below, SpecGroup.below, (h.keep group hgroup _ (hmem group hgroup)).2]
  have hstep : Round (c.accepted q s₁) s.currHitLength s'.currHitLength := by
    rw [accepted, ← hbelow]
    exact hround.append hall.round
  have hlongest : s'.longestHitLength = s.longestHitLength := hall.longest (Nat.le_trans hround.le h.low)
  refine ⟨s', ?_, ⟨?_, h.rounds.tail hstep, hlongest.trans h.longest, ?_⟩, hstep, ?_⟩
  · rw [attentionGroups_eq, visitAll_append, hrun]
    exact hrun'
  · intro group hgroup i hi
    obtain ⟨hblocks, hlength⟩ := hall.others i fun group' hgroup' => hcross group hgroup group' hgroup' i hi
    obtain ⟨hblocks', hlength'⟩ := h.keep group hgroup i hi
    exact ⟨hblocks.trans hblocks', hlength.trans hlength'⟩
  · rw [hlongest]
    exact Nat.le_trans hstep.le h.low
  · intro group hgroup
    obtain ⟨hitLength, hholds, hlow, hhigh, -⟩ := hall.holds group hgroup
    exact ⟨hitLength, hholds, hlow, Nat.le_trans hhigh hround.le⟩

/-- The loop ends at a length that all groups accept. -/
structure Ends (q : CacheLookup Hash) (bound : Nat) (s₁ : LookupState) (hitLength : Nat) (s : LookupState) :
    Prop where
  greatest : IsGreatest (commonBelow (c.accepted q s₁) bound) hitLength
  keep : ∀ group ∈ c.fullGroups, ∀ i ∈ group.groupIds, s₁.SameFor s i
  other : ∀ group ∈ c.otherGroups, s.Holds q group hitLength
  longest : s.longestHitLength = s₁.longestHitLength

theorem fixpoint_later (hsearch : ∀ group ∈ c.attentionGroups, Searchable q bound group)
    (hfirst : c.FirstRound q bound s₁) (hsimple : ¬ c.isSimpleHybrid = true) : ∀ (hitLength : Nat) (s : LookupState),
    s.currHitLength = hitLength → c.LaterState q bound s₁ s →
    ∃ hitLength' s', c.fixpoint q hitLength s = .ok (hitLength', s') ∧ c.Ends q bound s₁ hitLength' s' := by
  intro hitLength
  induction hitLength using Nat.strong_induction_on with
  | _ hitLength ih =>
      intro s hcurr h
      have hsame : { s with currHitLength := hitLength } = s := by
        rw [← hcurr]
      obtain ⟨s', hrun, hlater, hround, hothers⟩ := c.later_round hsearch hfirst h
      rw [fixpoint, hsame, hrun]
      dsimp only
      by_cases hstable : hitLength ≤ s'.currHitLength
      · have heq : s'.currHitLength = hitLength :=
          Nat.le_antisymm (Nat.le_trans hround.le (Nat.le_of_eq hcurr)) hstable
        rw [if_pos hstable]
        refine ⟨hitLength, s', rfl, ?_, hlater.keep, ?_, hlater.longest⟩
        · rw [hcurr, heq] at hround
          have hrounds := hlater.rounds
          rw [heq] at hrounds
          exact Round.isGreatest_of_stable hrounds hround
        · intro group hgroup
          obtain ⟨hitLength', hholds, hlow, hhigh⟩ := hothers group hgroup
          rw [show hitLength = hitLength' by omega]
          exact hholds
      · rw [if_neg hstable, if_neg hsimple]
        exact ih s'.currHitLength (Nat.not_le.mp hstable) s' rfl hlater

/-- Two attention groups, the first of full attention. -/
theorem simpleHybrid_cases (h : c.isSimpleHybrid = true) : ∃ group group',
    (c.fullGroups = [group] ∧ c.otherGroups = [group']) ∨ (c.fullGroups = [group, group'] ∧ c.otherGroups = []) := by
  rw [isSimpleHybrid, Bool.and_eq_true, beq_iff_eq] at h
  obtain ⟨hlen, hhead⟩ := h
  rw [attentionGroups_eq] at hlen hhead
  rw [List.length_append] at hlen
  cases hfull : c.fullGroups with
  | nil =>
      rw [hfull, List.nil_append] at hhead
      cases hother : c.otherGroups with
      | nil =>
          rw [hother] at hhead
          cases hhead
      | cons group groups =>
          rw [hother] at hhead
          have hnot := c.not_isFullAttention_of_mem (hother ▸ List.mem_cons_self : group ∈ c.otherGroups)
          exact absurd (hnot.symm.trans hhead) (by decide)
  | cons group groups =>
      rw [hfull, List.length_cons] at hlen
      cases groups with
      | nil =>
          rw [List.length_nil] at hlen
          obtain ⟨group', hother⟩ := List.length_eq_one_iff.mp (show c.otherGroups.length = 1 by omega)
          exact ⟨group, group', Or.inl ⟨rfl, hother⟩⟩
      | cons group' groups =>
          rw [List.length_cons] at hlen
          refine ⟨group, group', Or.inr ⟨?_, List.eq_nil_of_length_eq_zero (by omega)⟩⟩
          rw [List.eq_nil_of_length_eq_zero (show groups.length = 0 by omega)]

theorem accepted_of_simpleHybrid (h : c.isSimpleHybrid = true) (q : CacheLookup Hash) (s : LookupState) :
    ∃ S T, c.accepted q s = [S, T] ∧ IsLowerSet S := by
  obtain ⟨group, group', ⟨hfull, hother⟩ | ⟨hfull, hother⟩⟩ := c.simpleHybrid_cases h
  · refine ⟨group.below s, group'.points q, ?_, isLowerSet_Iic _⟩
    rw [accepted, hfull, hother]
    rfl
  · refine ⟨group.below s, group'.below s, ?_, isLowerSet_Iic _⟩
    rw [accepted, hfull, hother]
    rfl

/-- **The loop** returns after any number of rounds. -/
theorem fixpoint_ok (hsearch : ∀ group ∈ c.attentionGroups, Searchable q bound group) :
    ∃ s₁ hitLength s, c.fixpoint q bound (.init bound) = .ok (hitLength, s) ∧ c.FirstRound q bound s₁ ∧
      c.Ends q bound s₁ hitLength s := by
  have hnone : ∀ i, (LookupState.init bound).hitBlocksByGroup i = none := fun _ => rfl
  obtain ⟨s₁, hrun, hfirst⟩ := c.first_round hsearch rfl rfl hnone
  obtain ⟨b, -, hbelow, hothers⟩ := hfirst.covered
  have hround : Round (c.accepted q s₁) bound s₁.currHitLength := hbelow.append hothers
  have hsame : { LookupState.init bound with currHitLength := bound } = LookupState.init bound := rfl
  rw [fixpoint, hsame, hrun]
  dsimp only
  by_cases hstable : bound ≤ s₁.currHitLength
  · have heq := Nat.le_antisymm hround.le hstable
    rw [if_pos hstable]
    refine ⟨s₁, bound, s₁, rfl, hfirst, ?_, fun _ _ _ _ => ⟨rfl, rfl⟩, ?_, rfl⟩
    · rw [heq] at hround
      exact Round.isGreatest_of_stable .refl hround
    · intro group hgroup
      obtain ⟨hitLength, hholds, hlow, hhigh⟩ := hfirst.other group hgroup
      rw [show bound = hitLength by omega]
      exact hholds
  · rw [if_neg hstable]
    by_cases hsimple : c.isSimpleHybrid = true
    · rw [if_pos hsimple]
      refine ⟨s₁, s₁.currHitLength, s₁, rfl, hfirst, ?_, fun _ _ _ _ => ⟨rfl, rfl⟩, ?_, rfl⟩
      · obtain ⟨S, T, haccepted, hlower⟩ := c.accepted_of_simpleHybrid hsimple q s₁
        rw [haccepted] at hround ⊢
        exact hround.isGreatest_of_isLowerSet hlower
      · intro group hgroup
        obtain ⟨group₁, group₂, ⟨-, hother⟩ | ⟨-, hother⟩⟩ := c.simpleHybrid_cases hsimple
        · rw [hother, List.mem_singleton] at hgroup
          refine hfirst.last group ?_
          rw [hother, hgroup]
          rfl
        · rw [hother] at hgroup
          cases hgroup
    · rw [if_neg hsimple]
      obtain ⟨group, groups, hgroups⟩ := List.exists_cons_of_ne_nil
        (List.ne_nil_of_length_pos (by
          have hlen := c.attention_groups
          rw [← (fullAttentionFirst_perm _).length_eq] at hlen
          exact Nat.lt_trans Nat.zero_lt_one hlen) : c.attentionGroups ≠ [])
      have hlater : c.LaterState q bound s₁ s₁ := by
        refine ⟨fun _ _ _ _ => ⟨rfl, rfl⟩, .single hround, rfl, ?_⟩
        exact (hfirst.longest group (by rw [hgroups]; rfl)).2
      obtain ⟨hitLength, s, hloop, hends⟩ := c.fixpoint_later hsearch hfirst hsimple _ s₁ rfl hlater
      exact ⟨s₁, hitLength, s, hloop, hfirst, hends⟩

/-! ### The result -/

theorem fits {Hash : Type} (getOneBlock : Hash → Nat → Option Nat) (blockHashes : List Hash) {spec : KVCacheSpec}
    (hmem : spec ∈ c.kvCacheGroups) : (c.lookup getOneBlock blockHashes).Fits spec.blockSize := by
  refine ⟨c.hash_pos, c.block_pos spec hmem, ?_, c.hash_dvd spec hmem, ?_⟩
  · rw [lookup, cacheHitAlignmentTokens]
    dsimp only
    split
    · exact c.hash_pos
    · exact c.scheduler_pos
  · rw [lookup, cacheHitAlignmentTokens]
    dsimp only
    split
    · exact Or.inr rfl
    · exact Or.inl (c.block_dvd spec hmem)

/-- The groups whose lookups cannot be made: a sliding window cannot be searched inside a block. -/
def WindowsAligned : Prop :=
  ∀ spec ∈ c.kvCacheGroups, ∀ slidingWindow, spec.kind = .slidingWindow slidingWindow →
    spec.blockSize ∣ c.cacheHitAlignmentTokens

theorem spec_mem {group : SpecGroup} (h : group ∈ c.attentionGroups) : group.spec ∈ c.kvCacheGroups := by
  obtain ⟨i, ids, hids⟩ := List.exists_cons_of_ne_nil (c.splits.nonempty group h)
  have hget := (c.splits.ids group h i (hids ▸ List.mem_cons_self)).2
  exact List.mem_of_getElem? hget

theorem searchable {getOneBlock : Hash → Nat → Option Nat} {blockHashes : List Hash}
    (hhashes : bound / c.hashBlockSize ≤ blockHashes.length) {group : SpecGroup} (hmem : group ∈ c.attentionGroups)
    (hwindow : ∀ slidingWindow, group.spec.kind = .slidingWindow slidingWindow →
      group.spec.blockSize ∣ c.cacheHitAlignmentTokens) :
    Searchable (c.lookup getOneBlock blockHashes) bound group := by
  refine ⟨c.splits.nonempty group hmem, ?_⟩
  intro maxLength hle
  exact CacheLookup.findLongestCacheHit_found (c.fits getOneBlock blockHashes (c.spec_mem hmem))
    (c.splits.nonempty group hmem) (Nat.le_trans (Nat.div_le_div_right hle) hhashes) hwindow

theorem visitAll_error {group : SpecGroup} {e : PyError} (hfull : group.spec.isFullAttention = false)
    (hrun : ∀ maxLength, q.findLongestCacheHit group.spec group.groupIds maxLength = .error e) :
    ∀ (groups : List SpecGroup) (s : LookupState), group ∈ groups → ∃ e, visitAll q groups s = .error e := by
  intro groups
  induction groups with
  | nil => exact fun s hmem => (by cases hmem)
  | cons head groups ih =>
      intro s hmem
      rw [visitAll]
      rcases List.mem_cons.mp hmem with rfl | hmem
      · rw [visit_error (hrun _) fun h => absurd (hfull.symm.trans h) (by decide)]
        exact ⟨e, rfl⟩
      · cases hvisit : head.visit q s with
        | error e => exact ⟨e, rfl⟩
        | ok s₁ => exact ih s₁ hmem

theorem fixpoint_error {blockHashes : List Hash} {getOneBlock : Hash → Nat → Option Nat}
    (h : ¬ c.WindowsAligned) (hitLength : Nat) (s : LookupState) :
    ∃ e, c.fixpoint (c.lookup getOneBlock blockHashes) hitLength s = .error e := by
  rw [WindowsAligned] at h
  push Not at h
  obtain ⟨spec, hspec, slidingWindow, hkind, hndvd⟩ := h
  obtain ⟨i, hi, hget⟩ := List.getElem_of_mem hspec
  obtain ⟨group, hgroup, hin⟩ := c.splits.all i hi
  have heq : group.spec = spec := by
    have hids := (c.splits.ids group hgroup i hin).2
    rw [List.getElem?_eq_getElem hi, hget] at hids
    exact (Option.some.inj hids).symm
  subst heq
  have hfull : group.spec.isFullAttention = false := by
    rw [KVCacheSpec.isFullAttention, hkind]
    rfl
  obtain ⟨e, he⟩ := visitAll_error (q := c.lookup getOneBlock blockHashes) hfull
    (fun maxLength => CacheLookup.findLongestCacheHit_error hkind hndvd maxLength) c.attentionGroups
    { s with currHitLength := hitLength } hgroup
  exact ⟨e, by rw [fixpoint, he]⟩

end HybridKVCacheCoordinator

/-- The blocks of a group hold what the next token reads behind a hit: each block that is needed is cached for the
tokens of the hit in it, and the ones before them are null blocks. -/
structure CacheLookup.Serves {Hash : Type} (q : CacheLookup Hash) (spec : KVCacheSpec) (groupId hitLength : Nat)
    (blocks : List Nat) : Prop where
  length : cdiv hitLength spec.blockSize ≤ blocks.length
  needed : ∀ j, spec.firstNeeded hitLength ≤ j → j < cdiv hitLength spec.blockSize → ∃ numTokens block,
    min ((j + 1) * spec.blockSize) hitLength ≤ numTokens ∧ numTokens ≤ (j + 1) * spec.blockSize ∧
    (spec.isFullAttention = false → numTokens = min ((j + 1) * spec.blockSize) hitLength) ∧
    q.entry numTokens groupId = some block ∧ blocks[j]? = some block
  skipped : ∀ j, j < spec.firstNeeded hitLength → blocks[j]? = some nullBlock

theorem CacheLookup.serves_of_point {Hash : Type} {q : CacheLookup Hash} {group : SpecGroup} {hitLength point i : Nat}
    (hpos : 0 < group.spec.blockSize) (hpoint : point ∈ group.points q) (hi : i ∈ group.groupIds)
    (hle : hitLength ≤ point) (hother : group.spec.isFullAttention = false → point = hitLength) {blocks : List Nat}
    (hblocks : ∀ j < cdiv hitLength group.spec.blockSize, blocks[j]? = (q.hitBlocks group.spec point i)[j]?)
    (hlength : cdiv hitLength group.spec.blockSize ≤ blocks.length) :
    q.Serves group.spec i hitLength blocks := by
  have hcdiv : ∀ j < cdiv hitLength group.spec.blockSize, j < cdiv point group.spec.blockSize := by
    intro j hj
    rw [lt_cdiv_iff hpos] at hj ⊢
    exact Nat.lt_of_lt_of_le hj hle
  have hneeded : group.spec.firstNeeded point = group.spec.firstNeeded hitLength := by
    by_cases hfull : group.spec.isFullAttention = true
    · have hkind : group.spec.kind = .fullAttention := by
        rw [KVCacheSpec.isFullAttention] at hfull
        exact beq_iff_eq.mp hfull
      rw [KVCacheSpec.firstNeeded, KVCacheSpec.firstNeeded, hkind]
    · rw [hother ((Bool.not_eq_true _).mp hfull)]
  have hget : ∀ j < cdiv hitLength group.spec.blockSize, blocks[j]? = some (if j < group.spec.firstNeeded hitLength
      then nullBlock else q.block (min ((j + 1) * group.spec.blockSize) point) i) := by
    intro j hj
    rw [hblocks j hj, hitBlocks, List.getElem?_map, List.getElem?_range (hcdiv j hj), hneeded]
    rfl
  refine ⟨hlength, ?_, ?_⟩
  · intro j hj hj'
    have hcached := hpoint.2 j (by rw [hneeded]; exact hj) (hcdiv j hj') i hi
    obtain ⟨block, hblock⟩ := Option.isSome_iff_exists.mp hcached
    refine ⟨_, block, ?_, Nat.min_le_left _ _, ?_, hblock, ?_⟩
    · exact Nat.le_min.mpr ⟨Nat.min_le_left _ _, Nat.le_trans (Nat.min_le_right _ _) hle⟩
    · intro hnot
      rw [hother hnot]
    · rw [hget j hj', if_neg (Nat.not_lt.mpr hj), CacheLookup.block, hblock]
      rfl
  · intro j hj
    have hlast : j < cdiv hitLength group.spec.blockSize := by
      refine Nat.lt_of_lt_of_le hj ?_
      rw [KVCacheSpec.firstNeeded]
      split
      · exact Nat.zero_le _
      · exact Nat.sub_le _ _
      · exact Nat.sub_le _ _
    rw [hget j hlast, if_pos hj]

namespace HybridKVCacheCoordinator

variable {Hash : Type} (c : HybridKVCacheCoordinator)

/-- The hits of the whole model at or below `maxCacheHitLength`: inside a hit of every full-attention group, and a hit
of every other group.  The order of the groups is not in it. -/
def commonHits (q : CacheLookup Hash) (maxCacheHitLength : Nat) : Set Nat :=
  {p | p ≤ maxCacheHitLength ∧ ∀ group ∈ c.attentionGroups, ∃ point ∈ group.points q,
    p ≤ point ∧ point ≤ maxCacheHitLength ∧ (group.spec.isFullAttention = false → point = p)}

/-- All full-attention groups have one spec. -/
def OneFullAttention : Prop :=
  ∀ spec ∈ c.kvCacheGroups, ∀ spec' ∈ c.kvCacheGroups, spec.isFullAttention = true →
    spec'.isFullAttention = true → spec = spec'

instance : Decidable c.OneFullAttention :=
  inferInstanceAs (Decidable (∀ spec ∈ c.kvCacheGroups, ∀ spec' ∈ c.kvCacheGroups, spec.isFullAttention = true →
    spec'.isFullAttention = true → spec = spec'))

/-- The full-attention groups are then one attention group, and it comes first. -/
theorem fullGroups_of_oneFullAttention (h : c.OneFullAttention) {group : SpecGroup}
    (hgroup : group ∈ c.fullGroups) : c.fullGroups = [group] ∧ c.attentionGroups.head? = some group := by
  have hmem : ∀ group' ∈ c.fullGroups, group' ∈ c.attentionGroups := fun group' h' => List.mem_append_left _ h'
  have hnodup : (c.fullGroups.map SpecGroup.spec).Nodup := by
    have hall := c.splits.nodup
    rw [attentionGroups_eq, List.map_append, List.nodup_append] at hall
    exact hall.1
  have hsame : ∀ group' ∈ c.fullGroups, group' = group := by
    intro group' hgroup'
    exact List.inj_on_of_nodup_map hnodup hgroup' hgroup (h _ (c.spec_mem (hmem _ hgroup')) _
      (c.spec_mem (hmem _ hgroup)) (c.isFullAttention_of_mem hgroup') (c.isFullAttention_of_mem hgroup))
  have hone : c.fullGroups = [group] := by
    cases hfull : c.fullGroups with
    | nil =>
        rw [hfull] at hgroup
        cases hgroup
    | cons head groups =>
        rw [hfull] at hsame hnodup
        obtain rfl := hsame head List.mem_cons_self
        cases groups with
        | nil => rfl
        | cons next groups =>
            obtain rfl := hsame next (List.mem_cons_of_mem _ List.mem_cons_self)
            rw [List.map_cons, List.map_cons, List.nodup_cons] at hnodup
            exact absurd List.mem_cons_self hnodup.1
  refine ⟨hone, ?_⟩
  rw [attentionGroups_eq, hone]
  rfl

/-- A full-attention group has the spec of the first attention group. -/
theorem head_of_oneFullAttention (h : c.OneFullAttention) {spec : KVCacheSpec} (hspec : spec ∈ c.kvCacheGroups)
    (hfull : spec.isFullAttention = true) : c.attentionGroups.head?.map SpecGroup.spec = some spec := by
  obtain ⟨i, hi, hget⟩ := List.getElem_of_mem hspec
  obtain ⟨group, hgroup, hin⟩ := c.splits.all i hi
  have heq : group.spec = spec := by
    have hids := (c.splits.ids group hgroup i hin).2
    rw [List.getElem?_eq_getElem hi, hget] at hids
    exact (Option.some.inj hids).symm
  subst heq
  have hmem : group ∈ c.fullGroups := by
    rcases List.mem_append.mp hgroup with hmem | hmem
    · exact hmem
    · exact absurd (hfull.symm.trans (c.not_isFullAttention_of_mem hmem)) (by decide)
  rw [(c.fullGroups_of_oneFullAttention h hmem).2]
  rfl

/-- What the groups accept together is a common hit. -/
theorem commonHits_of_accepted {q : CacheLookup Hash} {bound p : Nat} {s₁ : LookupState}
    (h : c.FirstRound q bound s₁) (hp : p ∈ commonBelow (c.accepted q s₁) bound) : p ∈ c.commonHits q bound := by
  refine ⟨hp.2, ?_⟩
  intro group hgroup
  rcases List.mem_append.mp hgroup with hfull | hother
  · obtain ⟨point, hholds, hpoint, hle⟩ := h.full group hfull
    have hbelow := hp.1 (group.below s₁) (List.mem_append_left _ (List.mem_map_of_mem hfull))
    rw [SpecGroup.below, (hholds _ (firstGroupId_mem (c.splits.nonempty group hgroup))).2] at hbelow
    exact ⟨point, hpoint, hbelow, hle, fun hnot => absurd (hnot.symm.trans (c.isFullAttention_of_mem hfull)) (by decide)⟩
  · exact ⟨p, hp.1 (group.points q) (List.mem_append_right _ (List.mem_map_of_mem hother)), Nat.le_refl p, hp.2,
      fun _ => rfl⟩

/-- With one full-attention spec the groups accept every common hit. -/
theorem accepted_of_commonHits (hone : c.OneFullAttention) {q : CacheLookup Hash} {bound p : Nat} {s₁ : LookupState}
    (h : c.FirstRound q bound s₁) (hp : p ∈ c.commonHits q bound) : p ∈ commonBelow (c.accepted q s₁) bound := by
  obtain ⟨hle, hall⟩ := hp
  refine ⟨?_, hle⟩
  intro S hS
  rcases List.mem_append.mp hS with hS | hS
  · obtain ⟨group, hgroup, rfl⟩ := List.mem_map.mp hS
    obtain ⟨hfull, -⟩ := c.fullGroups_of_oneFullAttention hone hgroup
    obtain ⟨point, hpoint, hlow, hhigh, -⟩ := hall group (List.mem_append_left _ hgroup)
    obtain ⟨b, hpoints, hbelow, -⟩ := h.covered
    rw [hfull] at hpoints hbelow
    -- the search of the only full-attention group found its greatest hit
    have hcap : b ∈ group.below s₁ := hbelow.mem_of_isLowerSet List.mem_cons_self (isLowerSet_Iic _)
    have htop : point ≤ b := by
      refine hpoints.le_of_common ⟨?_, hhigh⟩
      intro T hT
      rw [List.mem_singleton.mp hT]
      exact hpoint
    exact Nat.le_trans hlow (Nat.le_trans htop hcap)
  · obtain ⟨group, hgroup, rfl⟩ := List.mem_map.mp hS
    obtain ⟨point, hpoint, -, -, heq⟩ := hall group (List.mem_append_right _ hgroup)
    rwa [heq (c.not_isFullAttention_of_mem hgroup)] at hpoint

/-- Only the full-attention groups that come first are cut. -/
theorem truncate_eq {group : SpecGroup} (hgroup : group ∈ c.attentionGroups) {i : Nat} (hi : i ∈ group.groupIds)
    (hitLength : Nat) (s : LookupState) :
    c.truncate hitLength s i = if group.spec.isFullAttention = true ∧
        c.attentionGroups.head?.map SpecGroup.spec = some group.spec
      then ((s.hitBlocksByGroup i).getD []).take (cdiv hitLength group.spec.blockSize)
      else (s.hitBlocksByGroup i).getD [] := by
  obtain ⟨head, groups, hgroups⟩ := List.exists_cons_of_ne_nil (List.ne_nil_of_mem hgroup)
  have hhead : head ∈ c.attentionGroups := by
    rw [hgroups]
    exact List.mem_cons_self
  rw [truncate, hgroups]
  simp only [List.head?_cons, Option.map_some, Option.getD_some, Bool.and_eq_true, List.contains_iff_mem,
    Option.some.injEq]
  by_cases hin : i ∈ head.groupIds
  · have hspec : head.spec = group.spec := Option.some.inj
      ((c.splits.ids head hhead i hin).2.symm.trans (c.splits.ids group hgroup i hi).2)
    rw [hspec]
    simp only [hin, and_true]
  · rw [if_neg fun h => hin h.2, if_neg]
    rintro ⟨-, hspec⟩
    -- two attention groups with one spec are one
    have heq : head = group := List.inj_on_of_nodup_map c.splits.nodup hhead hgroup hspec
    rw [heq] at hin
    exact hin hi

/-- The blocks of a group at the end of the loop. -/
theorem serves_ends {q : CacheLookup Hash} {bound hitLength i : Nat} {s₁ s : LookupState}
    (hfirst : c.FirstRound q bound s₁) (hends : c.Ends q bound s₁ hitLength s) {group : SpecGroup}
    (hgroup : group ∈ c.attentionGroups) (hi : i ∈ group.groupIds) :
    let blocks := if group.spec.isFullAttention = true ∧
        c.attentionGroups.head?.map SpecGroup.spec = some group.spec
      then ((s.hitBlocksByGroup i).getD []).take (cdiv hitLength group.spec.blockSize)
      else (s.hitBlocksByGroup i).getD []
    q.Serves group.spec i hitLength blocks ∧
      (group.spec.isFullAttention = false ∨ c.attentionGroups.head?.map SpecGroup.spec = some group.spec →
        blocks.length = cdiv hitLength group.spec.blockSize) := by
  intro blocks
  have hpos := c.block_pos group.spec (c.spec_mem hgroup)
  rcases List.mem_append.mp hgroup with hfull | hother
  · have hisfull := c.isFullAttention_of_mem hfull
    obtain ⟨point, hholds, hpoint, -⟩ := hfirst.full group hfull
    have hle : hitLength ≤ point := by
      have hbelow := hends.greatest.1.1 (group.below s₁)
        (List.mem_append_left _ (List.mem_map.mpr ⟨group, hfull, rfl⟩))
      rw [SpecGroup.below, (hholds _ (firstGroupId_mem (c.splits.nonempty group hgroup))).2] at hbelow
      exact hbelow
    have hfound : (s.hitBlocksByGroup i).getD [] = q.hitBlocks group.spec point i := by
      rw [(hends.keep group hfull i hi).1, (hholds i hi).1]
      rfl
    have hlen : (q.hitBlocks group.spec point i).length = cdiv point group.spec.blockSize := by
      rw [CacheLookup.hitBlocks, List.length_map, List.length_range]
    have hcdiv : cdiv hitLength group.spec.blockSize ≤ cdiv point group.spec.blockSize :=
      Nat.div_le_div_right (by omega)
    have hnot : group.spec.isFullAttention = false → point = hitLength := fun h =>
      absurd (h.symm.trans hisfull) (by decide)
    by_cases hhead : c.attentionGroups.head?.map SpecGroup.spec = some group.spec
    · have hblocks : blocks = (q.hitBlocks group.spec point i).take (cdiv hitLength group.spec.blockSize) := by
        rw [← hfound]
        exact if_pos ⟨hisfull, hhead⟩
      have hlength : blocks.length = cdiv hitLength group.spec.blockSize := by
        rw [hblocks, List.length_take, hlen, Nat.min_eq_left hcdiv]
      refine ⟨CacheLookup.serves_of_point hpos hpoint hi hle hnot ?_ (Nat.le_of_eq hlength.symm), fun _ => hlength⟩
      intro j hj
      rw [hblocks, List.getElem?_take_of_lt hj]
    · have hblocks : blocks = q.hitBlocks group.spec point i := by
        rw [← hfound]
        exact if_neg fun h => hhead h.2
      refine ⟨CacheLookup.serves_of_point hpos hpoint hi hle hnot (fun j _ => by rw [hblocks]) ?_, ?_⟩
      · rw [hblocks, hlen]
        exact hcdiv
      · rintro (h | h)
        · exact absurd (h.symm.trans hisfull) (by decide)
        · exact absurd h hhead
  · have hnot := c.not_isFullAttention_of_mem hother
    have hblocks : blocks = q.hitBlocks group.spec hitLength i := by
      have hfound := (hends.other group hother i hi).1
      exact (if_neg fun h => absurd (hnot.symm.trans h.1) (by decide)).trans (by rw [hfound]; rfl)
    have hlength : blocks.length = cdiv hitLength group.spec.blockSize := by
      rw [hblocks, CacheLookup.hitBlocks, List.length_map, List.length_range]
    have hpoint : hitLength ∈ group.points q :=
      hends.greatest.1.1 (group.points q) (List.mem_append_right _ (List.mem_map_of_mem hother))
    exact ⟨CacheLookup.serves_of_point hpos hpoint hi (Nat.le_refl _) (fun _ => rfl) (fun j _ => by rw [hblocks])
      (Nat.le_of_eq hlength.symm), fun _ => hlength⟩

/-- **The lookup over all groups finds the greatest common hit.**  It returns unless a sliding window would have to be
searched inside a block.  Then the length is a common hit, the blocks of each group hold what the next token reads, and
the last count is what the first attention group has beyond the hit.  When the full-attention groups have one spec, the
length is the greatest common hit and no group has a block beyond it.

With several full-attention specs the length depends on their order: each is searched below what the ones before it
found, and only the blocks of the first are cut. -/
theorem find_longest_cache_hit_greatest (getOneBlock : Hash → Nat → Option Nat) (blockHashes : List Hash)
    {maxCacheHitLength : Nat} (hhashes : maxCacheHitLength / c.hashBlockSize ≤ blockHashes.length) :
    let q := c.lookup getOneBlock blockHashes
    let run := c.findLongestCacheHit getOneBlock blockHashes maxCacheHitLength
    ((∃ result, run = .ok result) ↔ c.WindowsAligned) ∧
    ∀ blocks hitLength uncached, run = .ok (blocks, hitLength, uncached) →
      hitLength ∈ c.commonHits q maxCacheHitLength ∧
      (∀ group, c.attentionGroups.head? = some group → ∃ top,
        IsGreatest (group.points q ∩ Set.Iic maxCacheHitLength) top ∧ uncached = top - hitLength) ∧
      (∀ i spec, c.kvCacheGroups[i]? = some spec → ∃ groupBlocks, blocks[i]? = some groupBlocks ∧
        q.Serves spec i hitLength groupBlocks ∧
        (spec.isFullAttention = false ∨ c.attentionGroups.head?.map SpecGroup.spec = some spec →
          groupBlocks.length = cdiv hitLength spec.blockSize)) ∧
      (c.OneFullAttention → IsGreatest (c.commonHits q maxCacheHitLength) hitLength ∧
        ∀ (i : Nat) (spec : KVCacheSpec), c.kvCacheGroups[i]? = some spec →
          blocks[i]?.map List.length = some (cdiv hitLength spec.blockSize)) := by
  intro q run
  have hrun : run = (c.fixpoint q maxCacheHitLength (.init maxCacheHitLength)).map
      fun r => ((List.range c.kvCacheGroups.length).map (c.truncate r.1 r.2), r.1,
        r.2.longestHitLength - r.1) := rfl
  by_cases hwindows : c.WindowsAligned
  · have hsearch : ∀ group ∈ c.attentionGroups, Searchable q maxCacheHitLength group := fun group hgroup =>
      c.searchable hhashes hgroup (hwindows group.spec (c.spec_mem hgroup))
    obtain ⟨s₁, hitLength, s, hloop, hfirst, hends⟩ := c.fixpoint_ok hsearch
    rw [hloop] at hrun
    refine ⟨⟨fun _ => hwindows, fun _ => ⟨_, hrun⟩⟩, ?_⟩
    intro blocks hitLength' uncached hresult
    cases hrun.symm.trans hresult
    have hcommon : hitLength ∈ c.commonHits q maxCacheHitLength :=
      c.commonHits_of_accepted hfirst hends.greatest.1
    have hblocks : ∀ i spec, c.kvCacheGroups[i]? = some spec → ∃ groupBlocks,
        ((List.range c.kvCacheGroups.length).map (c.truncate hitLength s))[i]? = some groupBlocks ∧
        q.Serves spec i hitLength groupBlocks ∧
        (spec.isFullAttention = false ∨ c.attentionGroups.head?.map SpecGroup.spec = some spec →
          groupBlocks.length = cdiv hitLength spec.blockSize) := by
      intro i spec hget
      have hi : i < c.kvCacheGroups.length := (List.getElem?_eq_some_iff.mp hget).1
      obtain ⟨group, hgroup, hin⟩ := c.splits.all i hi
      have heq : group.spec = spec := Option.some.inj ((c.splits.ids group hgroup i hin).2.symm.trans hget)
      subst heq
      refine ⟨c.truncate hitLength s i, by rw [List.getElem?_map, List.getElem?_range hi]; rfl, ?_⟩
      rw [c.truncate_eq hgroup hin]
      exact c.serves_ends hfirst hends hgroup hin
    refine ⟨hcommon, ?_, hblocks, ?_⟩
    · intro group hhead
      exact ⟨_, (hfirst.longest group hhead).1, by rw [hends.longest]⟩
    · intro hone
      refine ⟨⟨hcommon, fun p hp => hends.greatest.2 (c.accepted_of_commonHits hone hfirst hp)⟩, ?_⟩
      intro i spec hget
      obtain ⟨groupBlocks, hgroupBlocks, -, hlength⟩ := hblocks i spec hget
      rw [hgroupBlocks, Option.map_some, hlength]
      cases hspec : spec.isFullAttention with
      | false => exact Or.inl rfl
      | true => exact Or.inr (c.head_of_oneFullAttention hone (List.mem_of_getElem? hget) hspec)
  · obtain ⟨e, he⟩ := c.fixpoint_error hwindows maxCacheHitLength
      (.init maxCacheHitLength)
    rw [he] at hrun
    refine ⟨⟨?_, fun h => absurd h hwindows⟩, ?_⟩
    · rintro ⟨result, hresult⟩
      cases hrun.symm.trans hresult
    · intro blocks hitLength uncached hresult
      cases hrun.symm.trans hresult

end HybridKVCacheCoordinator

/-- Full attention, a sliding window and Mamba layers. -/
def threeGroups : HybridKVCacheCoordinator where
  kvCacheGroups := [⟨.fullAttention, 2, 0⟩, ⟨.slidingWindow 3, 2, 0⟩, ⟨.mamba .all, 2, 0⟩]
  schedulerBlockSize := 2
  hashBlockSize := 2
  scheduler_pos := Nat.two_pos
  hash_pos := Nat.two_pos
  hash_dvd_scheduler := Nat.dvd_refl 2
  block_pos := by simp
  hash_dvd := by simp
  block_dvd := by simp
  attention_groups := by decide

/-- Group `0` has every block cached, the other groups some. -/
def threeGroupsBlock (blockHash groupId : Nat) : Option Nat :=
  if groupId = 0 ∨ groupId = 1 ∧ blockHash ∈ [11, 13] ∨ groupId = 2 ∧ blockHash ∈ [10, 11, 12]
  then some (10 * blockHash + groupId) else none

theorem windowsAligned_threeGroups : threeGroups.WindowsAligned := by
  intro spec hspec _ _
  have halign : threeGroups.cacheHitAlignmentTokens = 2 := rfl
  rw [halign]
  exact threeGroups.block_dvd spec hspec

theorem oneFullAttention_threeGroups : threeGroups.OneFullAttention := by
  decide

/-- The window ends at `8` and at `4` tokens, the states at `2`, `4` and `6`. -/
theorem threeGroups_hit : ∃ blocks hitLength uncached,
    threeGroups.findLongestCacheHit threeGroupsBlock [10, 11, 12, 13] 8 = .ok (blocks, hitLength, uncached) ∧
    IsGreatest (threeGroups.commonHits (threeGroups.lookup threeGroupsBlock [10, 11, 12, 13]) 8) hitLength := by
  obtain ⟨hiff, hall⟩ := threeGroups.find_longest_cache_hit_greatest threeGroupsBlock [10, 11, 12, 13]
    (show 8 / 2 ≤ 4 by decide)
  obtain ⟨⟨blocks, hitLength, uncached⟩, hrun⟩ := hiff.mpr windowsAligned_threeGroups
  obtain ⟨-, -, -, hgreatest⟩ := hall blocks hitLength uncached hrun
  exact ⟨blocks, hitLength, uncached, hrun, (hgreatest oneFullAttention_threeGroups).1⟩

end CacheSelect.Hybrid
