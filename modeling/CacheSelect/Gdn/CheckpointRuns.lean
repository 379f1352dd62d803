import CacheSelect.Gdn.ActiveReturns
import CacheSelect.Lib.Transition

/-! # Checkpoints over whole runs

The requests of an engine with checkpointing on, as one GDN layer sees them: each has a row of slots that
grows with its tokens, the scheduler frees the slots of blocks it no longer needs, full blocks are found
again by later requests with the same tokens, and every step runs the layer on the requests that were
scheduled, for as many tokens as the scheduler picked.

The worker's rows are append-only, so a freed slot stays in the row and `released` counts the leading blocks
that the request does not hold any more.  A new request that hits the prefix cache starts with the slot of
its last cached block and null slots before it.  What the cache finds by hash are the tokens themselves.

The scheduler hashes the state blocks of a request when it allocates their slots, before the step writes them.
No request of the same call is admitted behind such a block (`cached_blocks_this_step`), so a block is found
from the next call on, and `cached` gets it with the step.  A request that is preempted in the call that gave
it slots leaves its blocks hashed without a step that writes them.  Between two calls every scheduled request
has been run: a step is not overlapped by the next one.
-/

namespace CacheSelect.Gdn

open CacheSelect.Core Segments Transition Writes

/-- A request as the layer sees it. -/
structure CheckpointRow (T : Type) where
  table : List Nat := []
  released : Nat := 0
  tokens : List T := []
  computed : Nat := 0
  scheduled : Nat := 0

/-- The slots of a layer, the requests, and the slots of cached blocks with the tokens they are found by. -/
structure CheckpointState (S T : Type) where
  stateCache : Nat → S
  rows : Nat → CheckpointRow T
  active : List Nat
  cached : List (List T × Nat)

inductive CheckpointAction (T : Type)
  | arrive (id : Nat) (hit : Option Nat) (tokens : List T)
  | sample (id : Nat) (token : T)
  | release (id processed : Nat)
  | allocate (id numTokens : Nat) (blocks : List Nat)
  | forward
  | preempt (id : Nat)
  | finish (id : Nat)

section

variable {S T O : Type}

/-- The slots that a request holds. -/
def CheckpointRow.held (row : CheckpointRow T) : List Nat :=
  row.table.drop row.released

/-- The slots of the blocks that are not full yet. -/
def CheckpointRow.unfilled (blockSize : Nat) (row : CheckpointRow T) : List Nat :=
  row.table.drop (row.computed / blockSize)

/-- The scheduled tokens of a request as a row of the batch. -/
def CheckpointRow.toBatchRow (row : CheckpointRow T) : BatchRow T where
  table := row.table
  computed := row.computed
  tokens := (row.tokens.drop row.computed).take row.scheduled

/-- A request after its step. -/
def CheckpointRow.advance (row : CheckpointRow T) : CheckpointRow T :=
  { row with computed := row.computed + row.scheduled, scheduled := 0 }

/-- The full blocks of a request, as the prefix cache finds them. -/
def CheckpointRow.fullBlocks (blockSize : Nat) (row : CheckpointRow T) : List (List T × Nat) :=
  (List.range' row.released (row.computed / blockSize - row.released)).map fun b =>
    (row.tokens.take ((b + 1) * blockSize), row.table.getD b NULL_BLOCK_ID)

/-- A request after it sampled a token. -/
def CheckpointRow.sample (token : T) (row : CheckpointRow T) : CheckpointRow T :=
  { row with tokens := row.tokens ++ [token] }

/-- `remove_skipped_blocks`: only the state of the last processed token is needed. -/
def CheckpointRow.release (blockSize processed : Nat) (row : CheckpointRow T) : CheckpointRow T :=
  { row with
    released := max row.released (min ((processed - 1) / blockSize) row.table.length) }

/-- A request that is scheduled with new slots. -/
def CheckpointRow.allocate (numTokens : Nat) (blocks : List Nat) (row : CheckpointRow T) :
    CheckpointRow T :=
  { row with table := row.table ++ blocks, scheduled := numTokens }

/-- A request that starts behind `hit`, the tokens and the slot of a cached block. -/
def CheckpointRow.arrived (blockSize : Nat) (hit : Option (List T × Nat)) (tokens : List T) :
    CheckpointRow T :=
  match hit with
  | none => { tokens := tokens }
  | some (found, slot) =>
      { table := List.replicate (found.length / blockSize - 1) NULL_BLOCK_ID ++ [slot]
        released := found.length / blockSize - 1
        tokens := found ++ tokens
        computed := found.length }

namespace CheckpointState

def init (stateCache : Nat → S) : CheckpointState S T where
  stateCache := stateCache
  rows := fun _ => {}
  active := []
  cached := []

/-- The requests of the next step. -/
def scheduledIds (s : CheckpointState S T) : List Nat :=
  s.active.filter fun id => 0 < (s.rows id).scheduled

/-- The batch of the next step. -/
def batch (s : CheckpointState S T) : List (BatchRow T) :=
  s.scheduledIds.map fun id => (s.rows id).toBatchRow

/-- The state after a step that left `stateCache`. -/
def advance (blockSize : Nat) (s : CheckpointState S T) (stateCache : Nat → S) :
    CheckpointState S T where
  stateCache := stateCache
  rows := fun id => if id ∈ s.scheduledIds then (s.rows id).advance else s.rows id
  active := s.active
  cached := s.cached ++
    s.scheduledIds.flatMap fun id => (s.rows id).advance.fullBlocks blockSize

def setRow (s : CheckpointState S T) (id : Nat) (row : CheckpointRow T) : CheckpointState S T :=
  { s with rows := Function.update s.rows id row }

end CheckpointState

/-- Whether the scheduler may give `blocks` to a request for its next tokens. -/
def CheckpointState.Allocatable (blockSize : Nat) (s : CheckpointState S T) (id numTokens : Nat)
    (blocks : List Nat) : Prop :=
  let row := s.rows id
  id ∈ s.active ∧ row.scheduled = 0 ∧ 0 < numTokens ∧
    row.computed + numTokens ≤ row.tokens.length ∧
    row.table.length + blocks.length
      = max row.table.length ((row.computed + numTokens + blockSize - 1) / blockSize) ∧
    blocks.Nodup ∧ NULL_BLOCK_ID ∉ blocks ∧
    ∀ id' ∈ s.active, ∀ slot ∈ blocks, slot ∉ (s.rows id').held

instance (blockSize : Nat) (s : CheckpointState S T) (id numTokens : Nat) (blocks : List Nat) :
    Decidable (s.Allocatable blockSize id numTokens blocks) :=
  inferInstanceAs (Decidable (_ ∧ _))

variable (step : S → T → S × O) (zero : S) (blockSize : Nat)

/-- One action of the engine; a step that raises has no next state. -/
def checkpointStep (s : CheckpointState S T) : CheckpointAction T → Option (CheckpointState S T)
  | .arrive id hit tokens =>
      if id ∈ s.active then none
      else
        match hit with
        | none => some { s.setRow id (.arrived blockSize none tokens) with active := id :: s.active }
        | some k => do
            let found ← s.cached[k]?
            some { s.setRow id (.arrived blockSize (some found) tokens) with
              active := id :: s.active }
  | .sample id token =>
      if id ∈ s.active ∧ (s.rows id).computed = (s.rows id).tokens.length then
        some (s.setRow id ((s.rows id).sample token))
      else none
  | .release id processed =>
      if processed ≤ (s.rows id).computed then
        some (s.setRow id ((s.rows id).release blockSize processed))
      else none
  | .allocate id numTokens blocks =>
      if s.Allocatable blockSize id numTokens blocks then
        some { s.setRow id ((s.rows id).allocate numTokens blocks) with
          -- a cached block that is allocated again is evicted
          cached := s.cached.filter fun block => block.2 ∉ blocks }
      else none
  | .forward =>
      match gdnForward step zero blockSize s.stateCache s.batch with
      | .error _ => none
      | .ok stateCache => some (s.advance blockSize stateCache)
  | .preempt id =>
      if id ∈ s.active then
        some { s.setRow id {} with
          active := s.active.erase id
          -- its blocks stay hashed, also those whose tokens were only scheduled
          cached := s.cached ++ (s.rows id).advance.fullBlocks blockSize }
      else none
  | .finish id =>
      if id ∈ s.active ∧ (s.rows id).scheduled = 0 then
        some { s.setRow id {} with active := s.active.erase id }
      else none

end

/-! ### The invariant -/

section

variable {S T O : Type}

/-- The state after some tokens of a request. -/
abbrev stateAfter (step : S → T → S × O) (zero : S) (tokens : List T) : S :=
  Scan.state step zero tokens

/-- What holds of one request. -/
structure CheckpointRow.Inv (blockSize : Nat) (row : CheckpointRow T) : Prop where
  tokens_le : row.computed + row.scheduled ≤ row.tokens.length
  covered : row.computed + row.scheduled ≤ row.table.length * blockSize
  released_le : row.released ≤ (row.computed - 1) / blockSize
  ne_null : ∀ slot ∈ row.held, slot ≠ NULL_BLOCK_ID
  nodup : row.held.Nodup

/-- The held slots of the computed blocks keep the states of the request. -/
def CheckpointRow.Kept (step : S → T → S × O) (zero : S) (blockSize : Nat) (stateCache : Nat → S)
    (row : CheckpointRow T) : Prop :=
  ∀ b slot, row.released ≤ b → b * blockSize < row.computed → row.table[b]? = some slot →
    stateCache slot
      = stateAfter step zero (row.tokens.take (min ((b + 1) * blockSize) row.computed))

/-- The invariant of the runs. -/
structure CheckpointState.Inv (step : S → T → S × O) (zero : S) (blockSize : Nat)
    (s : CheckpointState S T) : Prop where
  nodup_active : s.active.Nodup
  idle : ∀ id, id ∉ s.active → s.rows id = {}
  row : ∀ id, (s.rows id).Inv blockSize
  kept : ∀ id, (s.rows id).Kept step zero blockSize s.stateCache
  -- only the request itself uses a slot that is still written
  exclusive : ∀ id id', id ≠ id' → ∀ slot ∈ (s.rows id).unfilled blockSize, slot ∉ (s.rows id').held
  uncached : ∀ id, ∀ slot ∈ (s.rows id).unfilled blockSize, ∀ block ∈ s.cached, block.2 ≠ slot
  cached : ∀ block ∈ s.cached, block.2 ≠ NULL_BLOCK_ID ∧ 0 < block.1.length ∧
    blockSize ∣ block.1.length ∧ s.stateCache block.2 = stateAfter step zero block.1

variable {step : S → T → S × O} {zero : S} {blockSize : Nat}

/-! ### Requests -/

theorem CheckpointRow.Inv.released_le_length {row : CheckpointRow T}
    (h : row.Inv blockSize) : row.released ≤ row.table.length := by
  refine Nat.le_trans h.released_le ?_
  have hle : row.computed - 1 ≤ row.table.length * blockSize := by
    have := h.covered
    omega
  exact Nat.div_le_of_le_mul (by rw [Nat.mul_comm]; exact hle)

theorem mem_held {row : CheckpointRow T} {slot : Nat} :
    slot ∈ row.held ↔ ∃ b, row.released ≤ b ∧ row.table[b]? = some slot := by
  rw [CheckpointRow.held, List.mem_iff_getElem?]
  refine ⟨?_, ?_⟩
  · rintro ⟨i, hi⟩
    rw [List.getElem?_drop] at hi
    exact ⟨_, Nat.le_add_right _ _, hi⟩
  · rintro ⟨b, hb, hslot⟩
    refine ⟨b - row.released, ?_⟩
    rw [List.getElem?_drop, Nat.add_sub_cancel' hb, hslot]

theorem mem_unfilled {row : CheckpointRow T} {slot : Nat} :
    slot ∈ row.unfilled blockSize ↔ ∃ b, row.computed / blockSize ≤ b ∧
      row.table[b]? = some slot :=
  @mem_held T { row with released := row.computed / blockSize } slot

/-- Two held blocks with one slot are one block. -/
theorem CheckpointRow.Inv.inj {row : CheckpointRow T} (h : row.Inv blockSize) {b b' slot : Nat}
    (hb : row.released ≤ b) (hb' : row.released ≤ b') (hslot : row.table[b]? = some slot)
    (hslot' : row.table[b']? = some slot) : b = b' := by
  have hnd := h.nodup
  rw [CheckpointRow.held] at hnd
  have hlt := (List.getElem?_eq_some_iff.mp hslot).1
  have hinj := (List.nodup_iff_getElem?_ne_getElem?.mp hnd)
  by_contra hne
  rcases Nat.lt_or_gt_of_ne hne with hlt' | hlt'
  · have hlt := (List.getElem?_eq_some_iff.mp hslot').1
    refine hinj (b - row.released) (b' - row.released) (by omega) ?_ ?_
    · rw [List.length_drop]
      omega
    · rw [List.getElem?_drop, List.getElem?_drop, Nat.add_sub_cancel' hb, Nat.add_sub_cancel' hb',
        hslot, hslot']
  · refine hinj (b' - row.released) (b - row.released) (by omega) ?_ ?_
    · rw [List.length_drop]
      omega
    · rw [List.getElem?_drop, List.getElem?_drop, Nat.add_sub_cancel' hb, Nat.add_sub_cancel' hb',
        hslot, hslot']

theorem CheckpointRow.Inv.unfilled_subset {row : CheckpointRow T} (h : row.Inv blockSize) {slot : Nat}
    (hslot : slot ∈ row.unfilled blockSize) : slot ∈ row.held := by
  obtain ⟨b, hb, hslot⟩ := mem_unfilled.mp hslot
  refine mem_held.mpr ⟨b, ?_, hslot⟩
  exact Nat.le_trans h.released_le (Nat.le_trans (Nat.div_le_div_right (Nat.sub_le _ _)) hb)

theorem CheckpointRow.inv_empty : ({} : CheckpointRow T).Inv blockSize where
  tokens_le := Nat.le_refl _
  covered := Nat.zero_le _
  released_le := Nat.zero_le _
  ne_null := nofun
  nodup := List.nodup_nil

/-! ### Actions outside of a step -/

theorem CheckpointState.inv_init (stateCache : Nat → S) :
    (init stateCache : CheckpointState S T).Inv step zero blockSize where
  nodup_active := List.nodup_nil
  idle := fun _ _ => rfl
  row := fun _ => CheckpointRow.inv_empty
  kept := fun _ b _ _ hb => nomatch hb
  exclusive := fun _ _ _ _ h => by simp [init, CheckpointRow.unfilled] at h
  uncached := fun _ _ h => by simp [init, CheckpointRow.unfilled] at h
  cached := nofun

/-- Replacing one request by one that holds slots of its own or slots nobody writes. -/
theorem CheckpointState.Inv.replace {s : CheckpointState S T} (hi : s.Inv step zero blockSize)
    {id : Nat} {row : CheckpointRow T} {active : List Nat} {cached : List (List T × Nat)}
    (hnd : active.Nodup) (hidle : ∀ id' ∉ active, Function.update s.rows id row id' = {})
    (hrow : row.Inv blockSize) (hkept : row.Kept step zero blockSize s.stateCache)
    (hheld : ∀ slot ∈ row.held, slot ∈ (s.rows id).held ∨
      ∀ id', slot ∉ (s.rows id').unfilled blockSize)
    (hunfilled : ∀ slot ∈ row.unfilled blockSize, slot ∈ (s.rows id).unfilled blockSize ∨
      ∀ id', slot ∉ (s.rows id').held)
    (huncached : ∀ slot ∈ row.unfilled blockSize, ∀ block ∈ cached, block.2 ≠ slot)
    (hcached : cached ⊆ s.cached) :
    ({ s with rows := Function.update s.rows id row, active := active, cached := cached } :
      CheckpointState S T).Inv step zero blockSize where
  nodup_active := hnd
  idle := hidle
  row := by
    intro id'
    dsimp only
    rcases eq_or_ne id' id with rfl | hne
    · rwa [Function.update_self]
    · rw [Function.update_of_ne hne]
      exact hi.row id'
  kept := by
    intro id'
    dsimp only
    rcases eq_or_ne id' id with rfl | hne
    · rwa [Function.update_self]
    · rw [Function.update_of_ne hne]
      exact hi.kept id'
  exclusive := by
    intro id₁ id₂ hne slot hslot hslot'
    dsimp only at hslot hslot'
    rcases eq_or_ne id₁ id with rfl | h₁
    · rw [Function.update_self] at hslot
      rw [Function.update_of_ne hne.symm] at hslot'
      rcases hunfilled slot hslot with h | h
      · exact hi.exclusive _ _ hne slot h hslot'
      · exact h id₂ hslot'
    · rw [Function.update_of_ne h₁] at hslot
      rcases eq_or_ne id₂ id with rfl | h₂
      · rw [Function.update_self] at hslot'
        rcases hheld slot hslot' with h | h
        · exact hi.exclusive _ _ hne slot hslot h
        · exact h id₁ hslot
      · rw [Function.update_of_ne h₂] at hslot'
        exact hi.exclusive _ _ hne slot hslot hslot'
  uncached := by
    intro id' slot hslot block hblock
    dsimp only at hslot
    rcases eq_or_ne id' id with rfl | hne
    · rw [Function.update_self] at hslot
      exact huncached slot hslot block hblock
    · rw [Function.update_of_ne hne] at hslot
      exact hi.uncached id' slot hslot block (hcached hblock)
  cached := fun block hblock => hi.cached block (hcached hblock)

theorem idle_update {s : CheckpointState S T} (hi : s.Inv step zero blockSize) {id : Nat}
    {row : CheckpointRow T} {active : List Nat} (hid : id ∈ active) (hsub : s.active ⊆ active) :
    ∀ id' ∉ active, Function.update s.rows id row id' = {} := by
  intro id' hid'
  have hne : id' ≠ id := by
    rintro rfl
    exact hid' hid
  rw [Function.update_of_ne hne]
  exact hi.idle id' fun h => hid' (hsub h)

/-- A request arrives, perhaps behind a cached block. -/
theorem CheckpointState.Inv.arrive (hbs : 0 < blockSize) {s : CheckpointState S T}
    (hi : s.Inv step zero blockSize) {id : Nat} (hid : id ∉ s.active)
    {hit : Option (List T × Nat)} (hhit : ∀ found ∈ hit, found ∈ s.cached) (tokens : List T) :
    ({ s.setRow id (.arrived blockSize hit tokens) with active := id :: s.active } :
      CheckpointState S T).Inv step zero blockSize := by
  have hnd : (id :: s.active).Nodup := List.nodup_cons.mpr ⟨hid, hi.nodup_active⟩
  have hidle : ∀ id' ∉ id :: s.active,
      Function.update s.rows id (.arrived blockSize hit tokens) id' = {} :=
    idle_update hi List.mem_cons_self (List.subset_cons_self _ _)
  cases hit with
  | none =>
      have hheld : (CheckpointRow.arrived blockSize none tokens).held = [] := rfl
      have hunfilled : (CheckpointRow.arrived blockSize none tokens).unfilled blockSize = [] :=
        List.drop_nil
      refine hi.replace hnd hidle ?_ ?_ ?_ ?_ ?_ (List.Subset.refl _)
      · exact { tokens_le := Nat.zero_le _, covered := Nat.zero_le _, released_le := Nat.zero_le _,
                ne_null := nofun, nodup := List.nodup_nil }
      · intro b slot _ hlt _
        exact absurd hlt (Nat.not_lt_zero _)
      · rw [hheld]
        nofun
      · rw [hunfilled]
        nofun
      · rw [hunfilled]
        nofun
  | some found =>
      obtain ⟨found, slot⟩ := found
      have hmem := hhit _ rfl
      obtain ⟨hne, hpos, ⟨k, hk⟩, hstate⟩ := hi.cached _ hmem
      dsimp only at hne hpos hk hstate
      have hdiv : found.length / blockSize = k := by rw [hk, Nat.mul_div_cancel_left _ hbs]
      have hkpos : 0 < k := by
        rcases Nat.eq_zero_or_pos k with rfl | h
        · omega
        · exact h
      have hheld : (CheckpointRow.arrived blockSize (some (found, slot)) tokens).held = [slot] := by
        rw [CheckpointRow.held, CheckpointRow.arrived]
        exact List.drop_left' (List.length_replicate ..)
      have hunfilled : (CheckpointRow.arrived blockSize (some (found, slot)) tokens).unfilled
          blockSize = [] := by
        rw [CheckpointRow.unfilled, CheckpointRow.arrived]
        refine List.drop_eq_nil_of_le ?_
        rw [List.length_append, List.length_replicate, List.length_singleton, hdiv]
        omega
      have hlen : (List.replicate (found.length / blockSize - 1) NULL_BLOCK_ID ++ [slot]).length
          = k := by
        rw [List.length_append, List.length_replicate, List.length_singleton, hdiv]
        omega
      refine hi.replace hnd hidle ?_ ?_ ?_ ?_ ?_ (List.Subset.refl _)
      · refine { tokens_le := ?_, covered := ?_, released_le := ?_, ne_null := ?_, nodup := ?_ }
        · change found.length + 0 ≤ (found ++ tokens).length
          rw [List.length_append]
          omega
        · change found.length + 0 ≤ (List.replicate (found.length / blockSize - 1) NULL_BLOCK_ID
            ++ [slot]).length * blockSize
          rw [hlen, hk, Nat.mul_comm, Nat.add_zero]
        · change found.length / blockSize - 1 ≤ (found.length - 1) / blockSize
          rw [hdiv, Nat.le_div_iff_mul_le hbs, hk, Nat.mul_comm, Nat.mul_sub, Nat.mul_one]
          omega
        · rw [hheld]
          intro slot' hslot'
          rwa [List.mem_singleton.mp hslot']
        · rw [hheld]
          exact List.nodup_singleton slot
      · -- the one held block is the last of the found tokens
        intro b slot' hb hlt hslot'
        change found.length / blockSize - 1 ≤ b at hb
        change b * blockSize < found.length at hlt
        have hbk : b = k - 1 := by
          have hlt' : b * blockSize < k * blockSize := by
            rw [Nat.mul_comm k, ← hk]
            exact hlt
          have := Nat.lt_of_mul_lt_mul_right hlt'
          omega
        obtain rfl := hbk
        have hslot'' : slot' = slot := by
          have hget : (List.replicate (found.length / blockSize - 1) NULL_BLOCK_ID ++ [slot])[k - 1]?
              = some slot := by
            rw [hdiv, List.getElem?_append_right (by rw [List.length_replicate]),
              List.length_replicate, Nat.sub_self]
            rfl
          exact Option.some.inj (hslot'.symm.trans hget)
        subst hslot''
        change s.stateCache slot' = stateAfter step zero ((found ++ tokens).take
          (min ((k - 1 + 1) * blockSize) found.length))
        rw [Nat.sub_add_cancel hkpos, Nat.mul_comm, ← hk, Nat.min_self, List.take_left]
        exact hstate
      · intro slot' hslot'
        rw [hheld, List.mem_singleton] at hslot'
        subst hslot'
        exact Or.inr fun id' h => hi.uncached id' _ h _ hmem rfl
      · rw [hunfilled]
        nofun
      · rw [hunfilled]
        nofun

/-- A sampled token is appended to the tokens of a request. -/
theorem CheckpointState.Inv.sample {s : CheckpointState S T} (hi : s.Inv step zero blockSize)
    {id : Nat} (hid : id ∈ s.active) (token : T) :
    (s.setRow id ((s.rows id).sample token)).Inv step zero blockSize := by
  have hrow := hi.row id
  refine hi.replace hi.nodup_active (idle_update hi hid (List.Subset.refl _)) ?_ ?_
    (fun _ h => Or.inl h) (fun _ h => Or.inl h) (hi.uncached id) (List.Subset.refl _)
  · refine { tokens_le := ?_, covered := hrow.covered, released_le := hrow.released_le,
             ne_null := hrow.ne_null, nodup := hrow.nodup }
    change (s.rows id).computed + (s.rows id).scheduled ≤ ((s.rows id).tokens ++ [token]).length
    rw [List.length_append]
    exact Nat.le_trans hrow.tokens_le (Nat.le_add_right _ _)
  · intro b slot hb hlt hslot
    have hkept := hi.kept id b slot hb hlt hslot
    have hle := hrow.tokens_le
    change _ = stateAfter step zero (((s.rows id).tokens ++ [token]).take
      (min ((b + 1) * blockSize) (s.rows id).computed))
    rw [List.take_append_of_le_length (by omega)]
    exact hkept

/-- The scheduler frees leading blocks of a request. -/
theorem CheckpointState.Inv.release {s : CheckpointState S T}
    (hi : s.Inv step zero blockSize) {id processed : Nat} (hle : processed ≤ (s.rows id).computed) :
    (s.setRow id ((s.rows id).release blockSize processed)).Inv step zero blockSize := by
  have hrow := hi.row id
  have hidle : ∀ id' ∉ s.active,
      Function.update s.rows id ((s.rows id).release blockSize processed) id' = {} := by
    intro id' hid'
    rcases eq_or_ne id' id with rfl | hne
    · rw [Function.update_self, hi.idle id' hid', CheckpointRow.release]
      simp only [List.length_nil, Nat.min_zero, Nat.max_self]
    · rw [Function.update_of_ne hne]
      exact hi.idle id' hid'
  have hsub : ∀ slot ∈ ((s.rows id).release blockSize processed).held, slot ∈ (s.rows id).held := by
    intro slot hslot
    obtain ⟨b, hb, hslot⟩ := mem_held.mp hslot
    exact mem_held.mpr ⟨b, Nat.le_trans (Nat.le_max_left _ _) hb, hslot⟩
  refine hi.replace hi.nodup_active hidle ?_ ?_ (fun slot h => Or.inl (hsub slot h))
    (fun _ h => Or.inl h) (hi.uncached id) (List.Subset.refl _)
  · refine { tokens_le := hrow.tokens_le, covered := hrow.covered, released_le := ?_,
             ne_null := fun slot h => hrow.ne_null slot (hsub slot h), nodup := ?_ }
    · have hmono : (processed - 1) / blockSize ≤ ((s.rows id).computed - 1) / blockSize :=
        Nat.div_le_div_right (by omega)
      exact Nat.max_le.mpr ⟨hrow.released_le, Nat.le_trans (Nat.min_le_left _ _) hmono⟩
    · refine hrow.nodup.sublist ?_
      exact List.drop_sublist_drop_left _ (Nat.le_max_left _ _)
  · intro b slot hb
    exact hi.kept id b slot (Nat.le_trans (Nat.le_max_left _ _) hb)

/-- A request finishes. -/
theorem CheckpointState.Inv.finish {s : CheckpointState S T} (hi : s.Inv step zero blockSize)
    (id : Nat) : ({ s.setRow id {} with active := s.active.erase id } :
      CheckpointState S T).Inv step zero blockSize := by
  have hheld : ({} : CheckpointRow T).held = [] := rfl
  have hunfilled : ({} : CheckpointRow T).unfilled blockSize = [] := List.drop_nil
  refine hi.replace (hi.nodup_active.erase id) ?_ CheckpointRow.inv_empty ?_ ?_ ?_ ?_
    (List.Subset.refl _)
  · intro id' hid'
    rcases eq_or_ne id' id with rfl | hne
    · rw [Function.update_self]
    · rw [Function.update_of_ne hne]
      exact hi.idle id' fun h => hid' ((List.mem_erase_of_ne hne).mpr h)
  · intro b slot _ hlt _
    exact absurd hlt (Nat.not_lt_zero _)
  · rw [hheld]
    nofun
  · rw [hunfilled]
    nofun
  · rw [hunfilled]
    nofun

/-- The scheduler gives a request fresh slots for its next tokens. -/
theorem CheckpointState.Inv.allocate (hbs : 0 < blockSize) {s : CheckpointState S T}
    (hi : s.Inv step zero blockSize) {id numTokens : Nat} {blocks : List Nat}
    (h : s.Allocatable blockSize id numTokens blocks) :
    ({ s.setRow id ((s.rows id).allocate numTokens blocks) with
      cached := s.cached.filter fun block => block.2 ∉ blocks } :
      CheckpointState S T).Inv step zero blockSize := by
  obtain ⟨hid, hidle, hpos, hle, hlen, hnd, hnull, hfresh⟩ := h
  have hrow := hi.row id
  -- the fresh slots are held by nobody
  have hfree : ∀ slot ∈ blocks, ∀ id', slot ∉ (s.rows id').held := by
    intro slot hslot id'
    by_cases hid' : id' ∈ s.active
    · exact hfresh id' hid' slot hslot
    · rw [hi.idle id' hid']
      nofun
  have hheld : ((s.rows id).allocate numTokens blocks).held = (s.rows id).held ++ blocks :=
    List.drop_append_of_le_length hrow.released_le_length
  have hunfilled : ∀ slot ∈ ((s.rows id).allocate numTokens blocks).unfilled blockSize,
      slot ∈ (s.rows id).unfilled blockSize ∨ slot ∈ blocks := by
    intro slot hslot
    change slot ∈ List.drop _ (_ ++ _) at hslot
    rw [List.drop_append, List.mem_append] at hslot
    exact hslot.imp_right List.mem_of_mem_drop
  have hcovered : (s.rows id).computed + numTokens
      ≤ ((s.rows id).table ++ blocks).length * blockSize := by
    rw [List.length_append, hlen]
    have hceil : (s.rows id).computed + numTokens
        ≤ ((s.rows id).computed + numTokens + blockSize - 1) / blockSize * blockSize := by
      have := Nat.div_add_mod ((s.rows id).computed + numTokens + blockSize - 1) blockSize
      have hmod := Nat.mod_lt ((s.rows id).computed + numTokens + blockSize - 1) hbs
      rw [Nat.mul_comm] at this
      omega
    exact Nat.le_trans hceil (Nat.mul_le_mul_right _ (Nat.le_max_right _ _))
  refine hi.replace hi.nodup_active (idle_update hi hid (List.Subset.refl _)) ?_ ?_ ?_ ?_ ?_
    (fun block hblock => (List.mem_filter.mp hblock).1)
  · refine { tokens_le := hle, covered := hcovered, released_le := hrow.released_le,
             ne_null := ?_, nodup := ?_ }
    · rw [hheld]
      intro slot hslot
      rcases List.mem_append.mp hslot with h | h
      · exact hrow.ne_null slot h
      · exact fun h0 => hnull (h0 ▸ h)
    · rw [hheld]
      exact List.nodup_append.mpr ⟨hrow.nodup, hnd, fun a ha b hb hab =>
        hfree b hb id (hab ▸ ha)⟩
  · intro b slot hb hlt hslot
    refine hi.kept id b slot hb hlt ?_
    have hcov := hrow.covered
    have hb' : b < (s.rows id).table.length :=
      Nat.lt_of_mul_lt_mul_right (Nat.lt_of_lt_of_le hlt (Nat.le_trans (Nat.le_add_right _ _) hcov))
    change ((s.rows id).table ++ blocks)[b]? = _ at hslot
    rwa [List.getElem?_append_left hb'] at hslot
  · rw [hheld]
    intro slot hslot
    refine (List.mem_append.mp hslot).imp_right ?_
    exact fun h id' h' => hfree slot h id' ((hi.row id').unfilled_subset h')
  · intro slot hslot
    exact (hunfilled slot hslot).imp_right (hfree slot)
  · intro slot hslot block hblock heq
    obtain ⟨hblock, hout⟩ := List.mem_filter.mp hblock
    rcases hunfilled slot hslot with h | h
    · exact hi.uncached id slot h block hblock heq
    · exact of_decide_eq_true hout (heq ▸ h)

/-! ### A step -/

/-- A first token that is decoded finds the zero state in its slot. -/
def FreshSlotsZero (zero : S) (blockSize : Nat) (s : CheckpointState S T) : Prop :=
  ∀ row ∈ s.batch, row.isDecode = true → row.computed = 0 →
    s.stateCache (row.inputSlot blockSize) = zero

instance [DecidableEq S] (zero : S) (blockSize : Nat) (s : CheckpointState S T) :
    Decidable (FreshSlotsZero zero blockSize s) :=
  inferInstanceAs (Decidable (∀ row ∈ s.batch, _))

/-- No block of the request is completed by tokens that are only scheduled. -/
def NoneCompleted (blockSize : Nat) (row : CheckpointRow T) : Prop :=
  (row.computed + row.scheduled) / blockSize = row.computed / blockSize

/-- The guard on the steps: on the first slots of a batch and on what a preemption leaves hashed. -/
def CleanStep (zero : S) (blockSize : Nat) (s : CheckpointState S T) : CheckpointAction T → Prop
  | .forward => FreshSlotsZero zero blockSize s
  | .preempt id => NoneCompleted blockSize (s.rows id)
  | _ => True

instance [DecidableEq S] (zero : S) (blockSize : Nat) (s : CheckpointState S T)
    (a : CheckpointAction T) : Decidable (CleanStep zero blockSize s a) :=
  match a with
  | .forward => inferInstanceAs (Decidable (FreshSlotsZero zero blockSize s))
  | .preempt _ => inferInstanceAs (Decidable (_ = _))
  | .arrive .. | .sample .. | .release .. | .allocate .. | .finish .. => .isTrue trivial

theorem length_scheduledTokens {row : CheckpointRow T} (h : row.Inv blockSize) :
    row.toBatchRow.tokens.length = row.scheduled := by
  have := h.tokens_le
  change ((row.tokens.drop row.computed).take row.scheduled).length = _
  rw [List.length_take, List.length_drop]
  omega

theorem seqLen_toBatchRow {row : CheckpointRow T} (h : row.Inv blockSize) :
    row.toBatchRow.seqLen = row.computed + row.scheduled := by
  rw [BatchRow.seqLen, length_scheduledTokens h]
  rfl

theorem mem_writtenSlots {row : BatchRow T} {slot : Nat} (h : row.Ready blockSize) :
    slot ∈ row.writtenSlots blockSize ↔ ∃ b, row.computed / blockSize ≤ b ∧
      b ≤ (row.seqLen - 1) / blockSize ∧ row.table[b]? = some slot := by
  rw [BatchRow.writtenSlots, List.mem_map]
  refine ⟨?_, ?_⟩
  · rintro ⟨b, hb, rfl⟩
    obtain ⟨h₁, h₂⟩ := mem_writtenBlocks.mp hb
    exact ⟨b, h₁, h₂, h.slots.getElem?_eq h₂⟩
  · rintro ⟨b, h₁, h₂, hslot⟩
    refine ⟨b, mem_writtenBlocks.mpr ⟨h₁, h₂⟩, ?_⟩
    rw [List.getD_eq_getElem?_getD, hslot, Option.getD_some]

/-- A scheduled request can be run. -/
theorem CheckpointRow.Inv.ready (hbs : 0 < blockSize) {row : CheckpointRow T}
    (h : row.Inv blockSize) (hsched : 0 < row.scheduled) : row.toBatchRow.Ready blockSize := by
  have hcov := h.covered
  have hin : (row.computed - 1) / blockSize < row.table.length := by
    rw [Nat.div_lt_iff_lt_mul hbs]
    omega
  have hrel : row.released ≤ row.computed / blockSize :=
    Nat.le_trans h.released_le (Nat.div_le_div_right (Nat.sub_le _ _))
  refine { nonempty := ?_, input_lt := hin, input_ne := ?_, slots := ?_ }
  · rwa [length_scheduledTokens h]
  · refine h.ne_null _ (mem_held.mpr ⟨(row.computed - 1) / blockSize, h.released_le, ?_⟩)
    rw [BatchRow.inputSlot, List.getD_eq_getElem?_getD]
    change _ = some ((row.table[(row.computed - 1) / blockSize]?).getD _)
    rw [List.getElem?_eq_getElem hin, Option.getD_some]
  · refine { lt_length := ?_, ne_null := ?_, inj := ?_ }
    · rw [seqLen_toBatchRow h]
      change _ < row.table.length
      rw [Nat.div_lt_iff_lt_mul hbs]
      omega
    · intro b hb _ hslot
      exact h.ne_null _ (mem_held.mpr ⟨b, Nat.le_trans hrel hb, hslot⟩) rfl
    · intro b b' slot hb _ hb' _ hslot hslot'
      exact h.inj (Nat.le_trans hrel hb) (Nat.le_trans hrel hb') hslot hslot'

theorem mem_scheduledIds {s : CheckpointState S T} {id : Nat} :
    id ∈ s.scheduledIds ↔ id ∈ s.active ∧ 0 < (s.rows id).scheduled := by
  rw [CheckpointState.scheduledIds, List.mem_filter, decide_eq_true_iff]

/-- What a scheduled request writes are slots that only it uses. -/
theorem CheckpointState.Inv.written_unfilled (hbs : 0 < blockSize) {s : CheckpointState S T}
    (hi : s.Inv step zero blockSize) {id : Nat} (hid : id ∈ s.scheduledIds) {slot : Nat}
    (hslot : slot ∈ (s.rows id).toBatchRow.writtenSlots blockSize) :
    slot ∈ (s.rows id).unfilled blockSize := by
  obtain ⟨b, hb, _, hslot⟩ :=
    (mem_writtenSlots ((hi.row id).ready hbs (mem_scheduledIds.mp hid).2)).mp hslot
  exact mem_unfilled.mpr ⟨b, hb, hslot⟩

theorem CheckpointState.Inv.input_held (hbs : 0 < blockSize) {s : CheckpointState S T}
    (hi : s.Inv step zero blockSize) {id : Nat} (hid : id ∈ s.scheduledIds) :
    (s.rows id).toBatchRow.inputSlot blockSize ∈ (s.rows id).held := by
  have hready := (hi.row id).ready hbs (mem_scheduledIds.mp hid).2
  refine mem_held.mpr ⟨((s.rows id).computed - 1) / blockSize, (hi.row id).released_le, ?_⟩
  have hlt : ((s.rows id).computed - 1) / blockSize < (s.rows id).table.length := hready.input_lt
  rw [BatchRow.inputSlot, List.getD_eq_getElem?_getD]
  change _ = some (((s.rows id).table[((s.rows id).computed - 1) / blockSize]?).getD _)
  rw [List.getElem?_eq_getElem hlt, Option.getD_some]

/-- **The batch of a step** does not interfere with itself. -/
theorem CheckpointState.Inv.batchReady (hbs : 0 < blockSize) {s : CheckpointState S T}
    (hi : s.Inv step zero blockSize) : BatchReady blockSize s.batch where
  ready := by
    intro row hrow
    obtain ⟨id, hid, rfl⟩ := List.mem_map.mp hrow
    exact (hi.row id).ready hbs (mem_scheduledIds.mp hid).2
  apart := by
    rw [CheckpointState.batch, List.pairwise_map]
    refine List.Nodup.pairwise_of_forall_ne (hi.nodup_active.filter _) ?_
    intro id hid id' hid' hne
    refine { written := ?_, input := ?_, input' := ?_ }
    · intro slot hslot hslot'
      exact hi.exclusive id id' hne slot (hi.written_unfilled hbs hid hslot)
        ((hi.row id').unfilled_subset (hi.written_unfilled hbs hid' hslot'))
    · intro hslot
      exact hi.exclusive id' id hne.symm _ (hi.written_unfilled hbs hid' hslot)
        (hi.input_held hbs hid)
    · intro hslot
      exact hi.exclusive id id' hne _ (hi.written_unfilled hbs hid hslot) (hi.input_held hbs hid')

/-- A scheduled request starts from the state of its computed tokens. -/
theorem CheckpointState.Inv.initialState_eq (hbs : 0 < blockSize) {s : CheckpointState S T}
    (hi : s.Inv step zero blockSize) (hfresh : FreshSlotsZero zero blockSize s) {id : Nat}
    (hid : id ∈ s.scheduledIds) :
    (s.rows id).toBatchRow.initialState zero blockSize s.stateCache
      = stateAfter step zero ((s.rows id).tokens.take (s.rows id).computed) := by
  rcases Nat.eq_zero_or_pos (s.rows id).computed with hc | hc
  · rw [hc, List.take_zero]
    change _ = zero
    rw [BatchRow.initialState]
    split
    · next hread =>
        have hdec : (s.rows id).toBatchRow.isDecode = true := by
          rcases hread with h | h
          · exact h
          · change 0 < (s.rows id).computed at h
            omega
        exact hfresh _ (List.mem_map_of_mem hid) hdec hc
    · rfl
  · have hlt : ((s.rows id).computed - 1) / blockSize < (s.rows id).table.length :=
      ((hi.row id).ready hbs (mem_scheduledIds.mp hid).2).input_lt
    have hfloor := Nat.div_mul_le_self ((s.rows id).computed - 1) blockSize
    have hceil : (s.rows id).computed
        ≤ (((s.rows id).computed - 1) / blockSize + 1) * blockSize := by
      have := Nat.lt_mul_div_succ ((s.rows id).computed - 1) hbs
      rw [Nat.mul_comm] at this
      omega
    have hkept := hi.kept id _ _ (hi.row id).released_le (by omega) (List.getElem?_eq_getElem hlt)
    rw [Nat.min_eq_right hceil] at hkept
    have hread : (s.rows id).toBatchRow.isDecode = true ∨ 0 < (s.rows id).toBatchRow.computed :=
      Or.inr hc
    rw [BatchRow.initialState, if_pos hread, BatchRow.inputSlot]
    change s.stateCache ((s.rows id).table.getD (((s.rows id).computed - 1) / blockSize) _) = _
    rw [List.getD_eq_getElem _ _ hlt]
    exact hkept

/-- The states of a scheduled request are those of its tokens. -/
theorem CheckpointState.Inv.stateAt_eq (hbs : 0 < blockSize) {s : CheckpointState S T}
    (hi : s.Inv step zero blockSize) (hfresh : FreshSlotsZero zero blockSize s) {id n : Nat}
    (hid : id ∈ s.scheduledIds) (h₁ : (s.rows id).computed ≤ n)
    (h₂ : n ≤ (s.rows id).computed + (s.rows id).scheduled) :
    (s.rows id).toBatchRow.stateAt step zero blockSize s.stateCache n
      = stateAfter step zero ((s.rows id).tokens.take n) := by
  have hsplit : (s.rows id).tokens.take n = (s.rows id).tokens.take (s.rows id).computed
      ++ ((s.rows id).tokens.drop (s.rows id).computed).take (n - (s.rows id).computed) := by
    rw [← List.take_add, Nat.add_sub_cancel' h₁]
  rw [BatchRow.stateAt, hi.initialState_eq hbs hfresh hid, hsplit]
  change Scan.state step _ ((((s.rows id).tokens.drop (s.rows id).computed).take
    (s.rows id).scheduled).take (n - (s.rows id).computed)) = _
  rw [List.take_take, Nat.min_eq_left (by omega)]
  exact (Scan.state_append step _ _ zero).symm

/-- A held slot is written only by its request, and only for blocks that are not full. -/
theorem CheckpointState.Inv.notMem_written (hbs : 0 < blockSize) {s : CheckpointState S T}
    (hi : s.Inv step zero blockSize) {id slot : Nat} (hheld : slot ∈ (s.rows id).held)
    (hfull : id ∈ s.scheduledIds → slot ∉ (s.rows id).unfilled blockSize) :
    ∀ row ∈ s.batch, slot ∉ row.writtenSlots blockSize := by
  intro row hrow hslot
  obtain ⟨id', hid', rfl⟩ := List.mem_map.mp hrow
  have hunfilled := hi.written_unfilled hbs hid' hslot
  rcases eq_or_ne id' id with rfl | hne
  · exact hfull hid' hunfilled
  · exact hi.exclusive id' id hne slot hunfilled hheld

/-- A slot of a full block is no slot of a block that is not full. -/
theorem CheckpointRow.Inv.full_notMem_unfilled {row : CheckpointRow T} (h : row.Inv blockSize)
    {b slot : Nat} (hb : row.released ≤ b) (hfull : b < row.computed / blockSize)
    (hslot : row.table[b]? = some slot) : slot ∉ row.unfilled blockSize := by
  intro hin
  obtain ⟨b', hb', hslot'⟩ := mem_unfilled.mp hin
  have := h.inj hb (by omega) hslot hslot'
  omega

/-- The slots of a request that was run. -/
theorem CheckpointState.Inv.kept_advance (hbs : 0 < blockSize) {s : CheckpointState S T}
    (hi : s.Inv step zero blockSize) (hfresh : FreshSlotsZero zero blockSize s)
    {stateCache' : Nat → S} (hwritten : ∀ row ∈ s.batch, ∀ b slot, row.computed / blockSize ≤ b →
      b ≤ (row.seqLen - 1) / blockSize → row.table[b]? = some slot → stateCache' slot
        = row.stateAt step zero blockSize s.stateCache (min ((b + 1) * blockSize) row.seqLen))
    (hframe : ∀ slot, (∀ row ∈ s.batch, slot ∉ row.writtenSlots blockSize) →
      stateCache' slot = s.stateCache slot) {id : Nat} (hid : id ∈ s.scheduledIds) :
    (s.rows id).advance.Kept step zero blockSize stateCache' := by
  intro b slot hb hlt hslot
  change (s.rows id).released ≤ b at hb
  change b * blockSize < (s.rows id).computed + (s.rows id).scheduled at hlt
  change (s.rows id).table[b]? = some slot at hslot
  change _ = stateAfter step zero ((s.rows id).tokens.take
    (min ((b + 1) * blockSize) ((s.rows id).computed + (s.rows id).scheduled)))
  by_cases hfull : b < (s.rows id).computed / blockSize
  · -- the block was full before the step
    have hend : (b + 1) * blockSize ≤ (s.rows id).computed :=
      (Nat.le_div_iff_mul_le hbs).mp hfull
    have hin : b * blockSize < (s.rows id).computed := by
      rw [Nat.succ_mul] at hend
      omega
    have hkept := hi.kept id b slot hb hin hslot
    rw [Nat.min_eq_left hend] at hkept
    rw [hframe slot (hi.notMem_written hbs (mem_held.mpr ⟨b, hb, hslot⟩) fun _ =>
      (hi.row id).full_notMem_unfilled hb hfull hslot), hkept, Nat.min_eq_left (by omega)]
  · have hge : (s.rows id).computed ≤ (b + 1) * blockSize := by
      have := Nat.lt_mul_div_succ (s.rows id).computed hbs
      have hmono := Nat.mul_le_mul_left blockSize (show (s.rows id).computed / blockSize + 1 ≤ b + 1
        by omega)
      rw [Nat.mul_comm (b + 1)]
      omega
    have hseq := seqLen_toBatchRow (hi.row id)
    have hlast : b ≤ ((s.rows id).toBatchRow.seqLen - 1) / blockSize := by
      rw [Nat.le_div_iff_mul_le hbs, hseq]
      omega
    rw [hwritten _ (List.mem_map_of_mem hid) b slot (Nat.le_of_not_lt hfull) hlast hslot, hseq]
    refine hi.stateAt_eq hbs hfresh hid ?_ (Nat.min_le_right _ _)
    exact Nat.le_min.mpr ⟨hge, Nat.le_add_right _ _⟩

theorem CheckpointRow.Inv.advance {row : CheckpointRow T} (h : row.Inv blockSize) :
    row.advance.Inv blockSize where
  tokens_le := h.tokens_le
  covered := h.covered
  released_le := Nat.le_trans h.released_le (Nat.div_le_div_right (by
    change row.computed - 1 ≤ row.computed + row.scheduled - 1
    omega))
  ne_null := h.ne_null
  nodup := h.nodup

theorem unfilled_advance_subset {row : CheckpointRow T} {slot : Nat}
    (h : slot ∈ row.advance.unfilled blockSize) : slot ∈ row.unfilled blockSize := by
  obtain ⟨b, hb, hslot⟩ := mem_unfilled.mp h
  refine mem_unfilled.mpr ⟨b, Nat.le_trans (Nat.div_le_div_right ?_) hb, hslot⟩
  exact Nat.le_add_right _ _

/-- The full blocks of a request whose slots keep its states. -/
theorem mem_fullBlocks (hbs : 0 < blockSize) {row : CheckpointRow T} (h : row.Inv blockSize)
    {stateCache : Nat → S} (hkept : row.Kept step zero blockSize stateCache) {block : List T × Nat}
    (hblock : block ∈ row.fullBlocks blockSize) :
    block.2 ∈ row.held ∧ block.2 ∉ row.unfilled blockSize ∧ 0 < block.1.length ∧
      blockSize ∣ block.1.length ∧ stateCache block.2 = stateAfter step zero block.1 := by
  rw [CheckpointRow.fullBlocks] at hblock
  obtain ⟨b, hb, rfl⟩ := List.mem_map.mp hblock
  rw [List.mem_range'_1] at hb
  have hfull : b < row.computed / blockSize := by omega
  have hend : (b + 1) * blockSize ≤ row.computed := (Nat.le_div_iff_mul_le hbs).mp hfull
  have hin : b * blockSize < row.computed := by
    rw [Nat.succ_mul] at hend
    omega
  have hcov := h.covered
  have hlt : b < row.table.length :=
    Nat.lt_of_mul_lt_mul_right (Nat.lt_of_lt_of_le hin (Nat.le_trans (Nat.le_add_right _ _) hcov))
  have hslot : row.table[b]? = some (row.table.getD b NULL_BLOCK_ID) := by
    rw [List.getElem?_eq_getElem hlt, List.getD_eq_getElem _ _ hlt]
  have hlen : (row.tokens.take ((b + 1) * blockSize)).length = (b + 1) * blockSize := by
    have := h.tokens_le
    rw [List.length_take]
    omega
  refine ⟨mem_held.mpr ⟨b, hb.1, hslot⟩, h.full_notMem_unfilled hb.1 hfull hslot, ?_, ?_, ?_⟩
  · rw [hlen]
    exact Nat.mul_pos (Nat.succ_pos b) hbs
  · rw [hlen]
    exact Nat.dvd_mul_left _ _
  · have := hkept b _ hb.1 hin hslot
    rwa [Nat.min_eq_left hend] at this

/-- The full blocks of a request may be found by others. -/
theorem CheckpointState.Inv.cache (hbs : 0 < blockSize) {s : CheckpointState S T}
    (hi : s.Inv step zero blockSize) (id : Nat) :
    ({ s with cached := s.cached ++ (s.rows id).fullBlocks blockSize } :
      CheckpointState S T).Inv step zero blockSize where
  nodup_active := hi.nodup_active
  idle := hi.idle
  row := hi.row
  kept := hi.kept
  exclusive := hi.exclusive
  uncached := by
    intro id' slot hslot block hblock heq
    rcases List.mem_append.mp hblock with h | h
    · exact hi.uncached id' slot hslot block h heq
    · obtain ⟨hin, hnot, -⟩ := mem_fullBlocks hbs (hi.row id) (hi.kept id) h
      rw [heq] at hin hnot
      rcases eq_or_ne id' id with rfl | hne
      · exact hnot hslot
      · exact hi.exclusive id' id hne slot hslot hin
  cached := by
    intro block hblock
    rcases List.mem_append.mp hblock with h | h
    · exact hi.cached block h
    · obtain ⟨hin, -, hpos, hdvd, hstate⟩ := mem_fullBlocks hbs (hi.row id) (hi.kept id) h
      exact ⟨(hi.row id).ne_null _ hin, hpos, hdvd, hstate⟩

/-- **A step keeps the invariant.** -/
theorem CheckpointState.Inv.advance (hbs : 0 < blockSize) {s : CheckpointState S T}
    (hi : s.Inv step zero blockSize) (hfresh : FreshSlotsZero zero blockSize s)
    {stateCache' : Nat → S} (hwritten : ∀ row ∈ s.batch, ∀ b slot, row.computed / blockSize ≤ b →
      b ≤ (row.seqLen - 1) / blockSize → row.table[b]? = some slot → stateCache' slot
        = row.stateAt step zero blockSize s.stateCache (min ((b + 1) * blockSize) row.seqLen))
    (hframe : ∀ slot, (∀ row ∈ s.batch, slot ∉ row.writtenSlots blockSize) →
      stateCache' slot = s.stateCache slot) :
    (s.advance blockSize stateCache').Inv step zero blockSize := by
  have hrows : ∀ id, (s.advance blockSize stateCache').rows id
      = if id ∈ s.scheduledIds then (s.rows id).advance else s.rows id := fun _ => rfl
  have hheld : ∀ id, ((s.advance blockSize stateCache').rows id).held = (s.rows id).held := by
    intro id
    rw [hrows]
    split
    · rfl
    · rfl
  have hunfilled : ∀ id, ∀ slot ∈ ((s.advance blockSize stateCache').rows id).unfilled blockSize,
      slot ∈ (s.rows id).unfilled blockSize := by
    intro id slot hslot
    rw [hrows] at hslot
    split at hslot
    · exact unfilled_advance_subset hslot
    · exact hslot
  refine { nodup_active := hi.nodup_active, idle := ?_, row := ?_, kept := ?_, exclusive := ?_,
           uncached := ?_, cached := ?_ }
  · intro id hid
    have hout : id ∉ s.active := hid
    rw [hrows, if_neg fun h => hout (mem_scheduledIds.mp h).1]
    exact hi.idle id hout
  · intro id
    rw [hrows]
    split
    · exact (hi.row id).advance
    · exact hi.row id
  · intro id
    rw [hrows]
    split
    · next hid => exact hi.kept_advance hbs hfresh hwritten hframe hid
    · next hid =>
        intro b slot hb hlt hslot
        rw [← hi.kept id b slot hb hlt hslot]
        exact hframe slot (hi.notMem_written hbs (mem_held.mpr ⟨b, hb, hslot⟩) fun h =>
          absurd h hid)
  · intro id id' hne slot hslot
    rw [hheld]
    exact hi.exclusive id id' hne slot (hunfilled id slot hslot)
  · intro id slot hslot block hblock heq
    rcases List.mem_append.mp hblock with h | h
    · exact hi.uncached id slot (hunfilled id slot hslot) block h heq
    · -- a newly cached block is held by its request and full
      obtain ⟨id', hid', hblock⟩ := List.mem_flatMap.mp h
      obtain ⟨hin, hnot, -⟩ := mem_fullBlocks hbs (hi.row id').advance
        (hi.kept_advance hbs hfresh hwritten hframe hid') hblock
      rw [heq] at hin hnot
      rcases eq_or_ne id id' with rfl | hne
      · rw [hrows, if_pos hid'] at hslot
        exact hnot hslot
      · exact hi.exclusive id id' hne slot (hunfilled id slot hslot) hin
  · intro block hblock
    rcases List.mem_append.mp hblock with h | h
    · obtain ⟨hne, hpos, hdvd, hstate⟩ := hi.cached block h
      refine ⟨hne, hpos, hdvd, ?_⟩
      rw [← hstate]
      refine hframe _ ?_
      intro row hrow hslot
      obtain ⟨id, hid, rfl⟩ := List.mem_map.mp hrow
      exact hi.uncached id _ (hi.written_unfilled hbs hid hslot) block h rfl
    · obtain ⟨id, hid, hblock⟩ := List.mem_flatMap.mp h
      obtain ⟨hin, -, hpos, hdvd, hstate⟩ := mem_fullBlocks hbs (hi.row id).advance
        (hi.kept_advance hbs hfresh hwritten hframe hid) hblock
      exact ⟨(hi.row id).ne_null _ hin, hpos, hdvd, hstate⟩

/-- **The step lemma.** -/
theorem CheckpointState.Inv.preserved (hbs : 0 < blockSize) {s s' : CheckpointState S T}
    (hi : s.Inv step zero blockSize) {a : CheckpointAction T}
    (hfresh : CleanStep zero blockSize s a)
    (h : checkpointStep step zero blockSize s a = some s') : s'.Inv step zero blockSize := by
  cases a with
  | arrive id hit tokens =>
      cases hit with
      | none =>
          rw [checkpointStep, Option.ite_none_left_eq_some] at h
          obtain ⟨hid, h⟩ := h
          obtain rfl := Option.some.inj h
          exact hi.arrive hbs hid (fun _ hfound => absurd hfound (Option.not_mem_none _)) tokens
      | some k =>
          rw [checkpointStep, Option.ite_none_left_eq_some] at h
          obtain ⟨hid, h⟩ := h
          obtain ⟨found, hfound, h⟩ := Option.bind_eq_some_iff.mp h
          obtain rfl := Option.some.inj h
          refine hi.arrive hbs hid ?_ tokens
          intro found' hfound'
          obtain rfl := Option.some.inj hfound'
          exact List.mem_of_getElem? hfound
  | sample id token =>
      rw [checkpointStep, Option.ite_none_right_eq_some] at h
      obtain ⟨⟨hid, -⟩, h⟩ := h
      obtain rfl := Option.some.inj h
      exact hi.sample hid token
  | release id processed =>
      rw [checkpointStep, Option.ite_none_right_eq_some] at h
      obtain ⟨hle, h⟩ := h
      obtain rfl := Option.some.inj h
      exact hi.release hle
  | allocate id numTokens blocks =>
      rw [checkpointStep, Option.ite_none_right_eq_some] at h
      obtain ⟨hall, h⟩ := h
      obtain rfl := Option.some.inj h
      exact hi.allocate hbs hall
  | forward =>
      rw [checkpointStep] at h
      split at h
      · cases h
      next stateCache hok =>
      obtain rfl := Option.some.inj h
      have haligned : ∀ row ∈ s.batch, row.isDecode = false →
          BoundariesAligned blockSize FLA_CHUNK_SIZE row.computed row.seqLen := by
        intro row hrow hpre
        by_contra hun
        obtain ⟨e, he⟩ := gdnForward_error step zero hbs (hi.batchReady hbs) hrow hpre hun
          s.stateCache
        rw [hok] at he
        cases he
      obtain ⟨stateCache', hok', hwritten, hframe⟩ := gdnForward_ok hbs (hi.batchReady hbs)
        haligned s.stateCache
      obtain rfl := Except.ok.inj (hok.symm.trans hok')
      exact hi.advance hbs hfresh hwritten hframe
  | preempt id =>
      rw [checkpointStep, Option.ite_none_right_eq_some] at h
      obtain ⟨-, h⟩ := h
      obtain rfl := Option.some.inj h
      have hsame : (s.rows id).advance.fullBlocks blockSize = (s.rows id).fullBlocks blockSize := by
        have hcount : (s.rows id).advance.computed / blockSize = (s.rows id).computed / blockSize :=
          hfresh
        rw [CheckpointRow.fullBlocks, CheckpointRow.fullBlocks, hcount]
        rfl
      rw [hsame]
      exact (hi.cache hbs id).finish id
  | finish id =>
      rw [checkpointStep, Option.ite_none_right_eq_some] at h
      obtain ⟨-, h⟩ := h
      obtain rfl := Option.some.inj h
      exact hi.finish id

end

/-! ### Whole runs -/

section

variable {S T O : Type} {step : S → T → S × O} {zero : S} {blockSize : Nat}

/-- Every state that a run of clean steps reaches has the invariant. -/
theorem CheckpointState.inv_of_reachable (hbs : 0 < blockSize) {stateCache : Nat → S} :
    ∀ s : CheckpointState S T, ReachableWhen (checkpointStep step zero blockSize)
      (CleanStep zero blockSize) (init stateCache) s →
      s.Inv step zero blockSize :=
  ReachableWhen.invariant _ (inv_init stateCache) fun _ _ _ hi hfresh h =>
    hi.preserved hbs hfresh h

/-- The slot of a held block that has computed tokens. -/
theorem CheckpointState.Inv.slot {s : CheckpointState S T}
    (hi : s.Inv step zero blockSize) {id b : Nat} (hb : (s.rows id).released ≤ b)
    (hlt : b * blockSize < (s.rows id).computed) :
    ∃ slot, (s.rows id).table[b]? = some slot ∧ slot ≠ NULL_BLOCK_ID ∧ s.stateCache slot
      = stateAfter step zero
          ((s.rows id).tokens.take (min ((b + 1) * blockSize) (s.rows id).computed)) := by
  have hcov := (hi.row id).covered
  have hb' : b < (s.rows id).table.length := by
    refine Nat.lt_of_mul_lt_mul_right (Nat.lt_of_lt_of_le hlt ?_)
    exact Nat.le_trans (Nat.le_add_right _ _) hcov
  have hslot := List.getElem?_eq_getElem hb'
  exact ⟨_, hslot, (hi.row id).ne_null _ (mem_held.mpr ⟨b, hb, hslot⟩), hi.kept id b _ hb hlt hslot⟩

end

section

variable {R : Type} {HV V K : Nat} [CommRing R]

end

/-- A token of one head of width one. -/
def sampleToken (n : ℤ) : GdnToken ℤ 1 1 1 :=
  (⟨fun _ _ => n, fun _ _ => 1, fun _ => 1, fun _ => 1⟩, fun _ _ => n + 1)

/-- Two operators, both of the tokens `[64, 128)` of a prompt. -/
def sampleBlockSidecar (tokens : List (GdnToken ℤ 1 1 1)) : GdnDeltaOperatorSidecar ℤ 1 1 1 where
  capacity := 2
  blockSize := 64
  operators := fun _ => operatorOf id 1 (slice tokens 64 128)
  keyToSlot := [([9], 0), ([8], 1)]
  freeSlots := []

end CacheSelect.Gdn
