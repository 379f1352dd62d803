import CacheSelect.Core.Request
import CacheSelect.Lib.LinkedQueue

/-! # The free block queue

`FreeKVCacheBlockQueue` keeps the free blocks in eviction order as a doubly linked list between two fake nodes.  The
operations write the pointers of the blocks one by one, as the source does.

`q.Represents l` says that the queue is the list `l`: the nodes are linked in this order, the count is its length, and
a block outside has no pointers.  Every operation refines the one on lists; an operation that a block's pointers do not
allow raises.
-/

namespace CacheSelect.Core

open CacheSelect.Lib (Links)
open CacheSelect.Lib.Links (linkAll)

/-- The two fake nodes and the blocks. -/
inductive FreeListNode
  | fakeHead
  | fakeTail
  | block (blockId : Nat)
deriving DecidableEq, Repr

/-- The id of a block; a fake node has none. -/
def FreeListNode.blockId? : FreeListNode → Option Nat
  | block blockId => some blockId
  | _ => none

open FreeListNode

structure FreeKVCacheBlockQueue where
  links : Links FreeListNode
  numFreeBlocks : Nat

namespace FreeKVCacheBlockQueue

/-- The last of `x` and the blocks behind it. -/
def lastNode (x : FreeListNode) (blocks : List Nat) : FreeListNode :=
  (x :: blocks.map block).getLast (List.cons_ne_nil _ _)

/-- The pointers of a new queue: the blocks are connected, then the fake nodes. -/
def initLinks : List Nat → Links FreeListNode
  | [] => (Links.empty FreeListNode).link fakeHead fakeTail
  | first :: rest =>
      ((linkAll (block first) (rest.map block) (Links.empty FreeListNode)).link fakeHead (block first)).link
        (lastNode (block first) rest) fakeTail

def init (blocks : List Nat) : FreeKVCacheBlockQueue where
  links := initLinks blocks
  numFreeBlocks := blocks.length

variable (q : FreeKVCacheBlockQueue)

/-- Pop the first free block. -/
def popleft : Except PyError (FreeListNode × FreeKVCacheBlockQueue) :=
  match q.links.next fakeHead with
  | none | some fakeTail =>
      if q.numFreeBlocks = 0 then .error (.valueError "No free blocks available") else .error .assertionError
  | some first =>
      match q.links.next first with
      | none => .error (.runtimeError
          "Invalid block found in popleft() which doesn't have a valid next_free_block")
      | some second => .ok (first, ⟨(q.links.link fakeHead second).clear first, q.numFreeBlocks - 1⟩)

/-- The loop of `popleft_n`: the popped blocks, the node behind them and the pointers. -/
def popLoop : Nat → Option FreeListNode → Links FreeListNode →
    Except PyError (List Nat × Option FreeListNode × Links FreeListNode)
  | 0, curr, links => .ok ([], curr, links)
  | n + 1, some (block b), links => do
      let (ret, curr, links) ← popLoop n (links.next (block b)) (links.clear (block b))
      .ok (b :: ret, curr, links)
  -- the count says that a block is there
  | _ + 1, _, _ => .error .assertionError

def popleftN (n : Nat) : Except PyError (List Nat × FreeKVCacheBlockQueue) :=
  if n = 0 then .ok ([], q)
  else if q.numFreeBlocks < n then .error .assertionError
  else do
    let (ret, curr, links) ← popLoop n (q.links.next fakeHead) q.links
    let links := match curr with
      | none => links
      | some curr => links.link fakeHead curr
    .ok (ret, ⟨links, q.numFreeBlocks - n⟩)

/-- Remove a block in the middle of the queue; the text of the error goes on with the block. -/
def remove (b : Nat) : Except PyError FreeKVCacheBlockQueue :=
  match q.links.prev (block b), q.links.next (block b) with
  | some prev, some next => .ok ⟨(q.links.link prev next).clear (block b), q.numFreeBlocks - 1⟩
  | _, _ => .error (.runtimeError "remove() called on an invalid block")

def append (b : Nat) : Except PyError FreeKVCacheBlockQueue :=
  match q.links.prev fakeTail with
  | none => .error (.runtimeError "prev_free_block of fake_free_list_tail should always exist")
  | some last => .ok ⟨(q.links.link last (block b)).link (block b) fakeTail, q.numFreeBlocks + 1⟩

/-- Put blocks at the front of the queue. -/
def prependN (blocks : List Nat) : Except PyError FreeKVCacheBlockQueue :=
  if blocks = [] then .ok q
  else match q.links.next fakeHead with
    | none => .error .assertionError
    | some first => .ok ⟨(linkAll fakeHead (blocks.map block) q.links).link (lastNode fakeHead blocks) first,
        q.numFreeBlocks + blocks.length⟩

/-- Put blocks back at the end of the queue. -/
def appendN (blocks : List Nat) : Except PyError FreeKVCacheBlockQueue :=
  if blocks = [] then .ok q
  else match q.links.prev fakeTail with
    | none => .error .assertionError
    | some last => .ok ⟨(linkAll last (blocks.map block) q.links).link (lastNode last blocks) fakeTail,
        q.numFreeBlocks + blocks.length⟩

/-- The nodes from the first one on, as far as `fuel` reaches. -/
def getAllFreeBlocks (fuel : Nat) : Except PyError (Option (List FreeListNode)) :=
  match q.links.next fakeHead with
  | none => .error (.runtimeError "next_free_block of fake_free_list_head should always exist")
  | some first => .ok (q.links.walk fuel first)

/-! ### The list of a queue -/

def nodes (l : List Nat) : List FreeListNode :=
  fakeHead :: (l.map block ++ [fakeTail])

/-- **The queue is the list `l`.** -/
structure Represents (q : FreeKVCacheBlockQueue) (l : List Nat) : Prop where
  nodup : l.Nodup
  seg : q.links.Seg (nodes l)
  size : q.numFreeBlocks = l.length
  head_prev : q.links.prev fakeHead = none
  tail_next : q.links.next fakeTail = none
  outside : ∀ b ∉ l, q.links.prev (block b) = none ∧ q.links.next (block b) = none

variable {q} {l : List Nat} {b : Nat}

theorem block_injective : Function.Injective block := fun _ _ h => FreeListNode.block.inj h

theorem mem_map_block : block b ∈ l.map block ↔ b ∈ l :=
  List.mem_map_of_injective block_injective

theorem nodup_nodes (h : l.Nodup) : (nodes l).Nodup := by
  refine List.nodup_cons.mpr ⟨by simp, ?_⟩
  refine List.nodup_append.mpr ⟨h.map block_injective, List.nodup_singleton _, ?_⟩
  intro x hx y hy
  obtain ⟨b, -, rfl⟩ := List.mem_map.mp hx
  rw [List.mem_singleton.mp hy]
  rintro ⟨⟩

theorem Represents.next_head_cons (h : q.Represents (b :: l)) : q.links.next fakeHead = some (block b) :=
  (List.isChain_cons_cons.mp h.seg).1.1

theorem Represents.next_head_nil (h : q.Represents []) : q.links.next fakeHead = some fakeTail :=
  (List.isChain_cons_cons.mp h.seg).1.1

/-- The first node of the queue. -/
theorem Represents.next_head (h : q.Represents l) :
    q.links.next fakeHead = some ((l.map block).headD fakeTail) := by
  cases l with
  | nil => exact h.next_head_nil
  | cons b l => exact h.next_head_cons

theorem lastNode_concat (x : FreeListNode) (l : List Nat) (b : Nat) : lastNode x (l ++ [b]) = block b := by
  rw [lastNode]
  simp

/-- The last node of the queue. -/
theorem Represents.prev_tail (h : q.Represents l) : q.links.prev fakeTail = some (lastNode fakeHead l) := by
  rcases List.eq_nil_or_concat' l with rfl | ⟨l, b, rfl⟩
  · exact (List.isChain_cons_cons.mp h.seg).1.2
  · have hseg := h.seg
    have hnodes : nodes (l ++ [b]) = (fakeHead :: l.map block) ++ block b :: fakeTail :: [] := by
      simp [nodes]
    rw [hnodes] at hseg
    rw [lastNode_concat]
    exact (List.isChain_append_cons_cons.mp hseg).2.1.2

/-! ### The operations refine those on lists -/

/-- What a splice of blocks needs: they are new and different. -/
theorem nodup_splice {bs l l' : List Nat} (h : (l ++ l').Nodup) (hbs : bs.Nodup) (hnew : ∀ b ∈ bs, b ∉ l ++ l') :
    (l ++ bs ++ l').Nodup := by
  rw [List.append_assoc]
  refine (List.perm_append_comm_assoc l bs l').nodup_iff.mpr ?_
  refine List.nodup_append.mpr ⟨hbs, h, ?_⟩
  intro a ha b hb hab
  exact hnew a ha (hab ▸ hb)

theorem lastNode_mem (x : FreeListNode) (l : List Nat) : lastNode x l ∈ x :: l.map block :=
  List.getLast_mem _

/-- The nodes around a splice. -/
theorem nodes_split (l l' : List Nat) : ∃ xs ys, fakeHead :: l.map block = xs ++ [lastNode fakeHead l] ∧
    l'.map block ++ [fakeTail] = (l'.map block).headD fakeTail :: ys ∧
    ∀ bs : List Nat, nodes (l ++ bs ++ l')
      = xs ++ lastNode fakeHead l :: (bs.map block ++ (l'.map block).headD fakeTail :: ys) := by
  obtain ⟨xs, hleft⟩ : ∃ xs, fakeHead :: l.map block = xs ++ [lastNode fakeHead l] :=
    ⟨_, (List.dropLast_concat_getLast (List.cons_ne_nil fakeHead (l.map block))).symm⟩
  obtain ⟨ys, hys⟩ : ∃ ys, l'.map block ++ [fakeTail] = (l'.map block).headD fakeTail :: ys := by
    cases l' with
    | nil => exact ⟨[], rfl⟩
    | cons b l' => exact ⟨_, rfl⟩
  refine ⟨_, ys, hleft, hys, ?_⟩
  intro bs
  rw [nodes, List.map_append, List.map_append, List.append_assoc, List.append_assoc, hys, ← List.cons_append,
    hleft, List.append_assoc, List.singleton_append]

/-- **Blocks put between two nodes** of the queue. -/
theorem Represents.splice (l l' bs : List Nat) (h : q.Represents (l ++ l')) (hbs : bs.Nodup)
    (hnew : ∀ b ∈ bs, b ∉ l ++ l') {first : FreeListNode} (hfirst : first = (l'.map block).headD fakeTail) :
    Represents ⟨(linkAll (lastNode fakeHead l) (bs.map block) q.links).link (lastNode (lastNode fakeHead l) bs) first,
      q.numFreeBlocks + bs.length⟩ (l ++ bs ++ l') := by
  subst hfirst
  have hnodup := nodup_splice h.nodup hbs hnew
  obtain ⟨xs, ys, hxs, hys, hnodes⟩ := nodes_split l l'
  have hseg := h.seg
  rw [show l ++ l' = l ++ [] ++ l' by rw [List.append_nil], hnodes] at hseg
  obtain ⟨hleft, -, hright⟩ := List.isChain_append_cons_cons.mp hseg
  -- the nodes whose pointers are written
  have hx := lastNode_mem fakeHead l
  have hlast : lastNode (lastNode fakeHead l) bs ∈ fakeHead :: (l ++ bs).map block := by
    rcases List.mem_cons.mp (lastNode_mem (lastNode fakeHead l) bs) with heq | hmem
    · rw [heq, List.map_append]
      exact List.mem_append_left (bs.map block) hx
    · rw [List.map_append]
      exact List.mem_cons_of_mem _ (List.mem_append_right _ hmem)
  have hfirst : (l'.map block).headD fakeTail ∈ l'.map block ++ [fakeTail] := by
    rw [hys]
    exact List.mem_cons_self
  have hhead : ∀ m : List Nat, fakeHead ∉ m.map block ++ [fakeTail] := by simp
  have htail : ∀ m : List Nat, fakeTail ∉ fakeHead :: m.map block := by simp
  refine ⟨hnodup, ?_, ?_, ?_, ?_, ?_⟩
  · rw [hnodes]
    refine Links.Seg.splice (bs.map block) hleft hright ?_
    rw [← hnodes]
    exact nodup_nodes hnodup
  · dsimp only
    rw [h.size, List.length_append, List.length_append, List.length_append]
    omega
  · rw [Links.prev_link, Function.update_of_ne, Links.prev_linkAll_of_not_mem]
    · exact h.head_prev
    · simp
    · exact fun heq => hhead l' (heq ▸ hfirst)
  · rw [Links.next_link, Function.update_of_ne, Links.next_linkAll_of_not_mem]
    · exact h.tail_next
    · exact fun heq => htail l (heq ▸ hx)
    · simp
    · exact fun heq => htail (l ++ bs) (heq ▸ hlast)
  · intro b hb
    rw [List.append_assoc, List.mem_append, List.mem_append, not_or, not_or] at hb
    obtain ⟨hbl, hbbs, hbl'⟩ := hb
    have hblx : ∀ m : List Nat, b ∉ m → block b ∉ fakeHead :: m.map block := by
      intro m hm hmem
      rcases List.mem_cons.mp hmem with heq | hmem
      · cases heq
      · exact hm (mem_map_block.mp hmem)
    obtain ⟨hprev, hnext⟩ := h.outside b (by rw [List.mem_append, not_or]; exact ⟨hbl, hbl'⟩)
    refine ⟨?_, ?_⟩
    · rw [Links.prev_link, Function.update_of_ne, Links.prev_linkAll_of_not_mem]
      · exact hprev
      · exact fun hmem => hbbs (mem_map_block.mp hmem)
      · intro heq
        rw [← heq] at hfirst
        rcases List.mem_append.mp hfirst with hmem | hmem
        · exact hbl' (mem_map_block.mp hmem)
        · cases List.mem_singleton.mp hmem
    · rw [Links.next_link, Function.update_of_ne, Links.next_linkAll_of_not_mem]
      · exact hnext
      · exact fun heq => hblx l hbl (heq ▸ hx)
      · exact fun hmem => hbbs (mem_map_block.mp hmem)
      · intro heq
        refine hblx (l ++ bs) ?_ (heq ▸ hlast)
        rw [List.mem_append, not_or]
        exact ⟨hbl, hbbs⟩

theorem prependN_ok (h : q.Represents l) {bs : List Nat} (hbs : bs.Nodup) (hnew : ∀ b ∈ bs, b ∉ l) :
    ∃ q', q.prependN bs = .ok q' ∧ q'.Represents (bs ++ l) := by
  rw [prependN]
  split
  · next hnil => exact ⟨q, rfl, by rw [hnil]; exact h⟩
  · rw [h.next_head]
    have hsplice := Represents.splice [] l bs h hbs hnew rfl
    exact ⟨_, rfl, hsplice⟩

theorem appendN_ok (h : q.Represents l) {bs : List Nat} (hbs : bs.Nodup) (hnew : ∀ b ∈ bs, b ∉ l) :
    ∃ q', q.appendN bs = .ok q' ∧ q'.Represents (l ++ bs) := by
  rw [appendN]
  split
  · next hnil => exact ⟨q, rfl, by rw [hnil, List.append_nil]; exact h⟩
  · rw [h.prev_tail]
    have hsplice := Represents.splice l [] bs (by rw [List.append_nil]; exact h) hbs
      (by rw [List.append_nil]; exact hnew) rfl
    rw [List.append_nil] at hsplice
    exact ⟨_, rfl, hsplice⟩

theorem append_ok (h : q.Represents l) (hb : b ∉ l) : ∃ q', q.append b = .ok q' ∧ q'.Represents (l ++ [b]) := by
  rw [append, h.prev_tail]
  have hsplice := Represents.splice l [] [b] (by rw [List.append_nil]; exact h)
    (List.nodup_singleton b) (by simpa using hb) rfl
  rw [List.append_nil] at hsplice
  exact ⟨_, rfl, hsplice⟩

/-- **A block taken out** of the queue. -/
theorem Represents.unlink (l l' : List Nat) (h : q.Represents (l ++ b :: l')) :
    Represents ⟨(q.links.link (lastNode fakeHead l) ((l'.map block).headD fakeTail)).clear (block b),
      q.numFreeBlocks - 1⟩ (l ++ l') ∧
    q.links.prev (block b) = some (lastNode fakeHead l) ∧
    q.links.next (block b) = some ((l'.map block).headD fakeTail) := by
  have hnodup : (l ++ l').Nodup := h.nodup.sublist ((List.sublist_cons_self b l').append_left l)
  obtain ⟨xs, ys, hxs, hys, hnodes⟩ := nodes_split l l'
  have hwith := hnodes [b]
  have hwithout := hnodes []
  rw [List.append_assoc, List.singleton_append, List.map_singleton, List.singleton_append] at hwith
  rw [List.append_nil, List.map_nil, List.nil_append] at hwithout
  have hseg := h.seg
  rw [hwith] at hseg
  obtain ⟨-, hbefore, hrest⟩ := List.isChain_append_cons_cons.mp hseg
  have hafter := (List.isChain_cons_cons.mp hrest).1
  have hx := lastNode_mem fakeHead l
  have hfirst : (l'.map block).headD fakeTail ∈ l'.map block ++ [fakeTail] := by
    rw [hys]
    exact List.mem_cons_self
  refine ⟨⟨hnodup, ?_, ?_, ?_, ?_, ?_⟩, hbefore.2, hafter.1⟩
  · rw [hwithout]
    refine Links.Seg.unlink hseg ?_
    rw [← hwith]
    exact nodup_nodes h.nodup
  · dsimp only
    rw [h.size, List.length_append, List.length_append, List.length_cons]
    omega
  · rw [Links.prev_clear, Function.update_of_ne (by simp), Links.prev_link, Function.update_of_ne]
    · exact h.head_prev
    · intro heq
      rw [← heq] at hfirst
      simp at hfirst
  · rw [Links.next_clear, Function.update_of_ne (by simp), Links.next_link, Function.update_of_ne]
    · exact h.tail_next
    · intro heq
      rw [← heq] at hx
      simp at hx
  · intro c hc
    rw [List.mem_append, not_or] at hc
    rw [Links.prev_clear, Links.next_clear]
    by_cases heq : c = b
    · rw [heq, Function.update_self, Function.update_self]
      exact ⟨rfl, rfl⟩
    · have hne : block c ≠ block b := fun h => heq (block_injective h)
      obtain ⟨hprev, hnext⟩ := h.outside c (by
        rw [List.mem_append, List.mem_cons, not_or, not_or]
        exact ⟨hc.1, heq, hc.2⟩)
      rw [Function.update_of_ne hne, Function.update_of_ne hne, Links.prev_link, Links.next_link,
        Function.update_of_ne, Function.update_of_ne]
      · exact ⟨hprev, hnext⟩
      · intro h
        rw [← h] at hx
        rcases List.mem_cons.mp hx with h | hmem
        · cases h
        · exact hc.1 (mem_map_block.mp hmem)
      · intro h
        rw [← h] at hfirst
        rcases List.mem_append.mp hfirst with hmem | hmem
        · exact hc.2 (mem_map_block.mp hmem)
        · cases List.mem_singleton.mp hmem

theorem remove_ok (h : q.Represents l) (hb : b ∈ l) : ∃ q', q.remove b = .ok q' ∧ q'.Represents (l.erase b) := by
  obtain ⟨l₁, l₂, hnot, rfl, herase⟩ := List.exists_erase_eq hb
  obtain ⟨hunlink, hprev, hnext⟩ := Represents.unlink l₁ l₂ h
  rw [remove, hprev, hnext, herase]
  exact ⟨_, rfl, hunlink⟩

theorem remove_error (h : q.Represents l) (hb : b ∉ l) :
    q.remove b = .error (.runtimeError "remove() called on an invalid block") := by
  rw [remove, (h.outside b hb).1]

theorem popleft_ok (h : q.Represents (b :: l)) :
    ∃ q', q.popleft = .ok (block b, q') ∧ q'.Represents l := by
  obtain ⟨hunlink, -, hnext⟩ := Represents.unlink [] l h
  rw [popleft, h.next_head_cons]
  dsimp only
  rw [hnext]
  exact ⟨_, rfl, hunlink⟩

theorem popleft_error (h : q.Represents []) :
    q.popleft = .error (.valueError "No free blocks available") := by
  rw [popleft, h.next_head_nil]
  exact if_pos h.size

/-- The loop takes the blocks from the front and resets their pointers. -/
theorem popLoop_ok : ∀ (n : Nat) (l : List Nat) (links : Links FreeListNode), n ≤ l.length → l.Nodup →
    links.Seg (l.map block ++ [fakeTail]) → ∃ links',
      popLoop n (some ((l.map block).headD fakeTail)) links
        = .ok (l.take n, some (((l.drop n).map block).headD fakeTail), links') ∧
      links'.Seg ((l.drop n).map block ++ [fakeTail]) ∧
      (∀ b ∈ l.take n, links'.prev (block b) = none ∧ links'.next (block b) = none) ∧
      ∀ x, (∀ b ∈ l.take n, x ≠ block b) → links'.prev x = links.prev x ∧ links'.next x = links.next x := by
  intro n
  induction n with
  | zero =>
      intro l links _ _ hseg
      exact ⟨links, rfl, hseg, fun b hb => (by cases hb), fun x _ => ⟨rfl, rfl⟩⟩
  | succ n ih =>
      intro l links hn hnodup hseg
      cases l with
      | nil => exact absurd hn (Nat.not_succ_le_zero n)
      | cons b l =>
          obtain ⟨hb, hnodup⟩ := List.nodup_cons.mp hnodup
          have hnext : links.next (block b) = some ((l.map block).headD fakeTail) := by
            cases l with
            | nil => exact (List.isChain_cons_cons.mp hseg).1.1
            | cons c l => exact (List.isChain_cons_cons.mp hseg).1.1
          have hrest : (links.clear (block b)).Seg (l.map block ++ [fakeTail]) := by
            refine Links.Seg.clear hseg.tail ?_
            intro hmem
            rcases List.mem_append.mp hmem with hmem | hmem
            · exact hb (mem_map_block.mp hmem)
            · cases List.mem_singleton.mp hmem
          obtain ⟨links', hrun, hseg', hpopped, hother⟩ := ih l (links.clear (block b)) (Nat.le_of_succ_le_succ hn)
            hnodup hrest
          refine ⟨links', ?_, hseg', ?_, ?_⟩
          · change popLoop (n + 1) (some (block b)) links = _
            rw [popLoop, hnext, hrun]
            rfl
          · intro c hc
            rcases List.mem_cons.mp hc with rfl | hc
            · -- the block itself was reset first
              have hnot : ∀ d ∈ l.take n, block c ≠ block d := fun d hd heq =>
                hb (block_injective heq ▸ List.mem_of_mem_take hd)
              obtain ⟨hprev, hnext'⟩ := hother (block c) hnot
              rw [hprev, hnext', Links.prev_clear, Links.next_clear, Function.update_self, Function.update_self]
              exact ⟨rfl, rfl⟩
            · exact hpopped c hc
          · intro x hx
            obtain ⟨hprev, hnext'⟩ := hother x fun c hc => hx c (List.mem_cons_of_mem _ hc)
            have hne := hx b List.mem_cons_self
            rw [hprev, hnext', Links.prev_clear, Links.next_clear, Function.update_of_ne hne,
              Function.update_of_ne hne]
            exact ⟨rfl, rfl⟩

theorem popleftN_ok (h : q.Represents l) {n : Nat} (hn : n ≤ l.length) :
    ∃ q', q.popleftN n = .ok (l.take n, q') ∧ q'.Represents (l.drop n) := by
  rw [popleftN]
  by_cases hzero : n = 0
  · rw [if_pos hzero, hzero]
    exact ⟨q, rfl, h⟩
  · obtain ⟨links, hrun, hseg, hpopped, hother⟩ := popLoop_ok n l q.links hn h.nodup h.seg.tail
    rw [if_neg hzero, if_neg (by rw [h.size]; omega), h.next_head, hrun]
    obtain ⟨ys, hys⟩ : ∃ ys, (l.drop n).map block ++ [fakeTail]
        = ((l.drop n).map block).headD fakeTail :: ys := by
      cases l.drop n with
      | nil => exact ⟨[], rfl⟩
      | cons b m => exact ⟨_, rfl⟩
    have hcurr : ((l.drop n).map block).headD fakeTail ∈ (l.drop n).map block ++ [fakeTail] := by
      rw [hys]
      exact List.mem_cons_self
    refine ⟨_, rfl, h.nodup.drop, ?_, ?_, ?_, ?_, ?_⟩
    · -- the head is linked to the first node behind the popped blocks
      have hnodup := nodup_nodes (h.nodup.drop (i := n))
      rw [nodes, hys] at hnodup
      obtain ⟨hhead, hnodup⟩ := List.nodup_cons.mp hnodup
      have hstart : links.Seg ([] ++ [fakeHead]) := Links.seg_singleton links fakeHead
      rw [hys] at hseg
      dsimp only
      rw [nodes, hys]
      exact hstart.join hseg (by rintro ⟨⟩) (fun hmem => hhead (List.dropLast_subset _ hmem))
        (List.nodup_cons.mp hnodup).1 (by rintro ⟨⟩)
    · dsimp only
      rw [h.size, List.length_drop]
    · dsimp only
      rw [Links.prev_link, Function.update_of_ne, (hother fakeHead fun b _ => by rintro ⟨⟩).1]
      · exact h.head_prev
      · intro heq
        rw [← heq] at hcurr
        rcases List.mem_append.mp hcurr with hmem | hmem
        · obtain ⟨b, -, hb⟩ := List.mem_map.mp hmem
          cases hb
        · cases List.mem_singleton.mp hmem
    · dsimp only
      rw [Links.next_link, Function.update_of_ne (by rintro ⟨⟩), (hother fakeTail fun b _ => by rintro ⟨⟩).2]
      exact h.tail_next
    · intro b hb
      dsimp only
      have hne : block b ≠ ((l.drop n).map block).headD fakeTail := by
        intro heq
        rw [← heq] at hcurr
        rcases List.mem_append.mp hcurr with hmem | hmem
        · exact hb (mem_map_block.mp hmem)
        · cases List.mem_singleton.mp hmem
      rw [Links.prev_link, Links.next_link, Function.update_of_ne hne, Function.update_of_ne (by rintro ⟨⟩)]
      by_cases htake : b ∈ l.take n
      · exact hpopped b htake
      · have hnot : ∀ c ∈ l.take n, block b ≠ block c := fun c hc heq => htake (block_injective heq ▸ hc)
        obtain ⟨hprev, hnext⟩ := hother (block b) hnot
        rw [hprev, hnext]
        refine h.outside b ?_
        rw [← List.take_append_drop n l, List.mem_append, not_or]
        exact ⟨htake, hb⟩

theorem popleftN_error (h : q.Represents l) {n : Nat} (hn : l.length < n) :
    q.popleftN n = .error .assertionError := by
  rw [popleftN, if_neg (by omega), if_pos (by rw [h.size]; exact hn)]

/-- **Walking the queue** gives the list. -/
theorem getAllFreeBlocks_ok (h : q.Represents l) {fuel : Nat} (hfuel : l.length < fuel) :
    q.getAllFreeBlocks fuel = .ok (some (l.map block)) := by
  rw [getAllFreeBlocks, h.next_head]
  dsimp only
  cases l with
  | nil =>
      obtain ⟨fuel, rfl⟩ : ∃ n, fuel = n + 1 := ⟨fuel - 1, by omega⟩
      refine congrArg Except.ok ?_
      change Links.walk q.links (fuel + 1) fakeTail = _
      rw [Links.walk, h.tail_next]
      rfl
  | cons b l =>
      rw [List.length_cons] at hfuel
      exact congrArg Except.ok (Links.walk_eq (l.map block) h.seg.tail h.tail_next (by
        rw [List.length_map]
        exact hfuel))

/-! ### The new queue -/

/-- **A new queue** is the list of its blocks. -/
theorem init_represents {blocks : List Nat} (h : blocks.Nodup) : (init blocks).Represents blocks := by
  cases blocks with
  | nil =>
      refine ⟨List.nodup_nil, ?_, rfl, rfl, rfl, fun b _ => ⟨rfl, rfl⟩⟩
      exact List.isChain_cons_cons.mpr ⟨Links.linked_link _ _ _, .singleton _⟩
  | cons first rest =>
      have hnodup := nodup_nodes h
      rw [nodes, List.map_cons, List.cons_append] at hnodup
      obtain ⟨hhead, hnodup⟩ := List.nodup_cons.mp hnodup
      have hlast : lastNode (block first) rest ≠ fakeHead := by
        intro heq
        exact hhead (heq ▸ List.mem_append_left [fakeTail] (lastNode_mem (block first) rest))
      -- the order in which the fake nodes are connected does not matter
      have hlinks : (init (first :: rest)).links
          = ((linkAll (block first) (rest.map block) (Links.empty FreeListNode)).link
              (lastNode (block first) rest) fakeTail).link fakeHead (block first) :=
        Links.link_comm _ (Ne.symm hlast) (by simp)
      refine ⟨h, ?_, rfl, ?_, ?_, ?_⟩
      · rw [hlinks]
        have hstart : Links.Seg ((linkAll (block first) (rest.map block) (Links.empty FreeListNode)).link
            (lastNode (block first) rest) fakeTail) ([] ++ [fakeHead]) := Links.seg_singleton _ fakeHead
        refine hstart.join ?_ ?_ ?_ ?_ ?_
        · have hfirst : (Links.empty FreeListNode).Seg ([] ++ [block first]) := Links.seg_singleton _ (block first)
          exact Links.Seg.splice (rest.map block) hfirst (Links.seg_singleton _ fakeTail) hnodup
        · simp
        · exact fun hmem => hhead (List.dropLast_subset _ hmem)
        · exact (List.nodup_cons.mp hnodup).1
        · simp
      · rw [hlinks, Links.prev_link, Function.update_of_ne (by simp), Links.prev_link,
          Function.update_of_ne (by simp), Links.prev_linkAll_of_not_mem _ (by simp)]
        rfl
      · rw [hlinks, Links.next_link, Function.update_of_ne (by simp), Links.next_link, Function.update_of_ne,
          Links.next_linkAll_of_not_mem _ (by simp) (by simp)]
        · rfl
        · intro heq
          have hmem := lastNode_mem (block first) rest
          rw [← heq] at hmem
          simp at hmem
      · intro b hb
        rw [List.mem_cons, not_or] at hb
        have hmap : block b ∉ rest.map block := fun hmem => hb.2 (mem_map_block.mp hmem)
        have hfirst : block b ≠ block first := fun heq => hb.1 (block_injective heq)
        rw [hlinks]
        refine ⟨?_, ?_⟩
        · rw [Links.prev_link, Function.update_of_ne hfirst, Links.prev_link, Function.update_of_ne (by simp),
            Links.prev_linkAll_of_not_mem _ hmap]
          rfl
        · rw [Links.next_link, Function.update_of_ne (by simp), Links.next_link, Function.update_of_ne,
            Links.next_linkAll_of_not_mem _ hfirst hmap]
          · rfl
          · intro heq
            rcases List.mem_cons.mp (heq ▸ lastNode_mem (block first) rest) with h | hmem
            · exact hfirst h
            · exact hmap hmem

end FreeKVCacheBlockQueue

end CacheSelect.Core
