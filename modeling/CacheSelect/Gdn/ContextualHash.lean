import CacheSelect.Core.Request
import CacheSelect.Gdn.Sidecar
import CacheSelect.Lib.BigEndian
import CacheSelect.Lib.Except

/-! # Contextual hashes

A GDN operator is found by the contextual hash of its block: a digest of the namespace of the request
(cache salt and LoRA adapter) is the first parent, and the digest of each full block covers its parent
and the token ids of the block.

The digest is a parameter; that it is collision-free is the hypothesis `Function.Injective sha256`.
Under it `contextualHash_iff` says exactly when the hashes of two requests at one block index tell their
salts, their adapters and their tokens apart: always, but for two ways in which the bytes of a namespace
are ambiguous.

Cache salts are strings of Unicode scalar values, which UTF-8 encodes one to one.
-/

namespace CacheSelect.Gdn

open CacheSelect.Core BigEndian

/-! ### Bytes -/

/-- `str.encode("utf-8")`. -/
def utf8 (s : String) : List UInt8 :=
  s.toUTF8.data.toList

theorem utf8_inj {s s' : String} : utf8 s = utf8 s' ↔ s = s' := by
  rw [utf8, utf8, Array.toList_inj, String.toUTF8_eq_toByteArray, String.toUTF8_eq_toByteArray]
  constructor
  · intro h
    exact String.toByteArray_inj.mp (ByteArray.ext h)
  · rintro rfl
    rfl

/-- `int.to_bytes(length, "big", signed=False)`. -/
def toBytes (length : Nat) (n : Int) : Except PyError (List UInt8) :=
  if n < 0 ∨ 256 ^ length ≤ n.toNat then .error .overflowError else .ok (bigEndian length n.toNat)

theorem toBytes_eq_ok {length : Nat} {n : Int} {bytes : List UInt8}
    (h : toBytes length n = .ok bytes) :
    0 ≤ n ∧ n.toNat < 256 ^ length ∧ bytes = bigEndian length n.toNat := by
  rw [toBytes] at h
  split at h
  · cases h
  · rw [Except.ok.injEq] at h
    refine ⟨by omega, by omega, h.symm⟩

/-! ### The hashes -/

/-- `GDN_CONTEXT_HASH_DOMAIN`. -/
def gdnContextHashDomain : List UInt8 :=
  utf8 "vllm-cacheselect-gdn-v1"

/-- What the digest of the namespace covers. -/
def namespaceBytes (cacheSalt : Option String) (loraAdapterId : Option Int) :
    Except PyError (List UInt8) :=
  let salted := gdnContextHashDomain ++ utf8 (cacheSalt.getD "")
  match loraAdapterId with
  | none => .ok (salted ++ [0])
  | some id =>
      if id < 0 then .error (.valueError "LoRA adapter ID must be nonnegative")
      else (toBytes 8 id).map fun bytes => salted ++ 1 :: bytes

/-- The bytes of a block's token ids. -/
def tokenBytes : List Int → Except PyError (List UInt8)
  | [] => .ok []
  | t :: ts =>
      if t < 0 then .error (.valueError "token IDs must be nonnegative")
      else do
        let bytes ← toBytes 8 t
        let rest ← tokenBytes ts
        .ok (bytes ++ rest)

/-- The hashes of the blocks, each chained on the one before. -/
def hashBlocks (sha256 : List UInt8 → ContextualHash) (parent : ContextualHash) :
    List (List Int) → Except PyError (List ContextualHash)
  | [] => .ok []
  | block :: blocks => do
      let bytes ← tokenBytes block
      let hash := sha256 (parent ++ bytes)
      let rest ← hashBlocks sha256 hash blocks
      .ok (hash :: rest)

/-- The full blocks of a token sequence. -/
def fullBlocks (blockSize : Nat) (tokenIds : List Int) : List (List Int) :=
  (List.range (tokenIds.length / blockSize)).map fun i =>
    (tokenIds.drop (i * blockSize)).take blockSize

/-- Hash every full block into one chained context. -/
def buildGdnContextualBlockHashes (sha256 : List UInt8 → ContextualHash) (tokenIds : List Int)
    (blockSize : Nat) (cacheSalt : Option String) (loraAdapterId : Option Int) :
    Except PyError (List ContextualHash) :=
  if blockSize < 1 then .error (.valueError "block_size must be positive")
  else do
    let bytes ← namespaceBytes cacheSalt loraAdapterId
    hashBlocks sha256 (sha256 bytes) (fullBlocks blockSize tokenIds)

/-! ### Blocks -/

theorem tokenBytes_spec : ∀ {ts : List Int} {bytes : List UInt8}, tokenBytes ts = .ok bytes →
    bytes.length = 8 * ts.length := by
  intro ts
  induction ts with
  | nil => intro bytes h; cases h; rfl
  | cons t ts ih =>
      intro bytes h
      rw [tokenBytes] at h
      split at h
      · cases h
      · obtain ⟨b, hb, h⟩ := Except.bind_eq_ok.mp h
        obtain ⟨rest, hrest, h⟩ := Except.bind_eq_ok.mp h
        cases h
        rw [List.length_append, ih hrest, (toBytes_eq_ok hb).2.2, length_bigEndian, List.length_cons]
        omega

theorem tokenBytes_inj : ∀ {ts ts' : List Int} {bytes : List UInt8}, tokenBytes ts = .ok bytes →
    tokenBytes ts' = .ok bytes → ts = ts' := by
  intro ts
  induction ts with
  | nil =>
      intro ts' bytes h h'
      have hl := tokenBytes_spec h'
      rw [tokenBytes_spec h] at hl
      exact (List.length_eq_zero_iff.mp (by simpa using hl.symm)).symm
  | cons t ts ih =>
      intro ts' bytes h h'
      cases ts' with
      | nil =>
          have hl := tokenBytes_spec h
          rw [tokenBytes_spec h'] at hl
          simp at hl
      | cons t' ts' =>
          rw [tokenBytes] at h h'
          split at h
          · cases h
          · split at h'
            · cases h'
            · obtain ⟨b, hb, h⟩ := Except.bind_eq_ok.mp h
              obtain ⟨rest, hrest, h⟩ := Except.bind_eq_ok.mp h
              obtain ⟨b', hb', h'⟩ := Except.bind_eq_ok.mp h'
              obtain ⟨rest', hrest', h'⟩ := Except.bind_eq_ok.mp h'
              rw [Except.ok.injEq] at h h'
              obtain ⟨hnn, hlt, rfl⟩ := toBytes_eq_ok hb
              obtain ⟨hnn', hlt', rfl⟩ := toBytes_eq_ok hb'
              obtain ⟨hbytes, rfl⟩ := List.append_inj (h.trans h'.symm) (by simp)
              have hn := bigEndian_inj hlt hlt' hbytes
              rw [ih hrest hrest', show t = t' by omega]

theorem length_hashBlocks {sha256 : List UInt8 → ContextualHash} : ∀ {blocks : List (List Int)}
    {parent : ContextualHash} {hashes : List ContextualHash},
    hashBlocks sha256 parent blocks = .ok hashes → hashes.length = blocks.length := by
  intro blocks
  induction blocks with
  | nil => intro parent hashes h; cases h; rfl
  | cons block blocks ih =>
      intro parent hashes h
      obtain ⟨bytes, -, h⟩ := Except.bind_eq_ok.mp h
      obtain ⟨rest, hrest, h⟩ := Except.bind_eq_ok.mp h
      cases h
      rw [List.length_cons, ih hrest, List.length_cons]

/-- **A chained hash names its parent and all blocks through its own.** -/
theorem hashBlocks_inj {sha256 : List UInt8 → ContextualHash} (hsha : Function.Injective sha256)
    {n : Nat} : ∀ {i : Nat} {blocks blocks' : List (List Int)} {parent parent' : ContextualHash}
    {hashes hashes' : List ContextualHash} {hash : ContextualHash},
    (∀ b ∈ blocks, b.length = n) → (∀ b ∈ blocks', b.length = n) →
    hashBlocks sha256 parent blocks = .ok hashes →
    hashBlocks sha256 parent' blocks' = .ok hashes' →
    hashes[i]? = some hash → hashes'[i]? = some hash →
    parent = parent' ∧ blocks.take (i + 1) = blocks'.take (i + 1) := by
  intro i
  induction i with
  | zero =>
      intro blocks blocks' parent parent' hashes hashes' hash hn hn' h h' hi hi'
      cases blocks with
      | nil => cases h; cases hi
      | cons b blocks =>
          cases blocks' with
          | nil => cases h'; cases hi'
          | cons b' blocks' =>
              obtain ⟨bytes, hbytes, h⟩ := Except.bind_eq_ok.mp h
              obtain ⟨rest, -, h⟩ := Except.bind_eq_ok.mp h
              obtain ⟨bytes', hbytes', h'⟩ := Except.bind_eq_ok.mp h'
              obtain ⟨rest', -, h'⟩ := Except.bind_eq_ok.mp h'
              cases h
              cases h'
              rw [List.getElem?_cons_zero, Option.some.injEq] at hi hi'
              have hlen : bytes.length = bytes'.length := by
                rw [tokenBytes_spec hbytes, tokenBytes_spec hbytes', hn b (by simp),
                  hn' b' (by simp)]
              obtain ⟨hparent, rfl⟩ := List.append_inj' (hsha (hi.trans hi'.symm)) hlen
              rw [tokenBytes_inj hbytes hbytes']
              exact ⟨hparent, rfl⟩
  | succ i ih =>
      intro blocks blocks' parent parent' hashes hashes' hash hn hn' h h' hi hi'
      cases blocks with
      | nil => cases h; cases hi
      | cons b blocks =>
          cases blocks' with
          | nil => cases h'; cases hi'
          | cons b' blocks' =>
              obtain ⟨bytes, hbytes, h⟩ := Except.bind_eq_ok.mp h
              obtain ⟨rest, hrest, h⟩ := Except.bind_eq_ok.mp h
              obtain ⟨bytes', hbytes', h'⟩ := Except.bind_eq_ok.mp h'
              obtain ⟨rest', hrest', h'⟩ := Except.bind_eq_ok.mp h'
              cases h
              cases h'
              rw [List.getElem?_cons_succ] at hi hi'
              obtain ⟨hhash, htake⟩ := ih (fun x hx => hn x (List.mem_cons_of_mem _ hx))
                (fun x hx => hn' x (List.mem_cons_of_mem _ hx)) hrest hrest' hi hi'
              have hlen : bytes.length = bytes'.length := by
                rw [tokenBytes_spec hbytes, tokenBytes_spec hbytes', hn b (by simp),
                  hn' b' (by simp)]
              obtain ⟨hparent, rfl⟩ := List.append_inj' (hsha hhash) hlen
              rw [tokenBytes_inj hbytes hbytes', List.take_succ_cons, List.take_succ_cons, htake]
              exact ⟨hparent, rfl⟩

/-- The hash depends on the parent and the blocks through its own. -/
theorem hashBlocks_congr {sha256 : List UInt8 → ContextualHash} : ∀ {i : Nat}
    {blocks blocks' : List (List Int)} {parent : ContextualHash}
    {hashes hashes' : List ContextualHash}, blocks.take (i + 1) = blocks'.take (i + 1) →
    hashBlocks sha256 parent blocks = .ok hashes → hashBlocks sha256 parent blocks' = .ok hashes' →
    hashes[i]? = hashes'[i]? := by
  intro i
  induction i with
  | zero =>
      intro blocks blocks' parent hashes hashes' htake h h'
      cases blocks with
      | nil =>
          cases blocks' with
          | nil => rw [h, Except.ok.injEq] at h'; rw [h']
          | cons b' blocks' => cases htake
      | cons b blocks =>
          cases blocks' with
          | nil => cases htake
          | cons b' blocks' =>
              cases htake
              obtain ⟨bytes, hbytes, h⟩ := Except.bind_eq_ok.mp h
              obtain ⟨rest, -, h⟩ := Except.bind_eq_ok.mp h
              obtain ⟨bytes', hbytes', h'⟩ := Except.bind_eq_ok.mp h'
              obtain ⟨rest', -, h'⟩ := Except.bind_eq_ok.mp h'
              rw [hbytes, Except.ok.injEq] at hbytes'
              subst hbytes'
              cases h
              cases h'
              rfl
  | succ i ih =>
      intro blocks blocks' parent hashes hashes' htake h h'
      cases blocks with
      | nil =>
          cases blocks' with
          | nil => rw [h, Except.ok.injEq] at h'; rw [h']
          | cons b' blocks' => cases htake
      | cons b blocks =>
          cases blocks' with
          | nil => cases htake
          | cons b' blocks' =>
              rw [List.take_succ_cons, List.take_succ_cons, List.cons.injEq] at htake
              obtain ⟨rfl, htake⟩ := htake
              obtain ⟨bytes, hbytes, h⟩ := Except.bind_eq_ok.mp h
              obtain ⟨rest, hrest, h⟩ := Except.bind_eq_ok.mp h
              obtain ⟨bytes', hbytes', h'⟩ := Except.bind_eq_ok.mp h'
              obtain ⟨rest', hrest', h'⟩ := Except.bind_eq_ok.mp h'
              rw [hbytes, Except.ok.injEq] at hbytes'
              subst hbytes'
              cases h
              cases h'
              exact ih htake hrest hrest'

theorem length_of_mem_fullBlocks {blockSize : Nat} {tokenIds : List Int} {b : List Int}
    (hb : b ∈ fullBlocks blockSize tokenIds) : b.length = blockSize := by
  obtain ⟨i, hi, rfl⟩ := List.mem_map.mp hb
  rw [List.mem_range, Nat.lt_iff_add_one_le] at hi
  have hle : (i + 1) * blockSize ≤ tokenIds.length :=
    (Nat.mul_le_mul_right _ hi).trans (Nat.div_mul_le_self _ _)
  rw [Nat.succ_mul] at hle
  rw [List.length_take, List.length_drop]
  omega

/-- The first blocks are the first tokens. -/
theorem take_fullBlocks_eq_iff {blockSize i : Nat} {ts ts' : List Int}
    (hi : i < ts.length / blockSize) (hi' : i < ts'.length / blockSize) :
    (fullBlocks blockSize ts).take (i + 1) = (fullBlocks blockSize ts').take (i + 1) ↔
      ts.take ((i + 1) * blockSize) = ts'.take ((i + 1) * blockSize) := by
  have htake : ∀ (ts : List Int), i < ts.length / blockSize →
      (fullBlocks blockSize ts).take (i + 1)
        = (List.range (i + 1)).map fun j =>
            ((ts.take ((i + 1) * blockSize)).drop (j * blockSize)).take blockSize := by
    intro ts hi
    rw [fullBlocks, ← List.map_take, List.take_range, Nat.min_eq_left hi]
    refine List.map_congr_left ?_
    intro j hj
    have hle : (j + 1) * blockSize ≤ (i + 1) * blockSize :=
      Nat.mul_le_mul_right _ (List.mem_range.mp hj)
    rw [Nat.succ_mul] at hle
    rw [List.drop_take, List.take_take, Nat.min_eq_left (by omega)]
  have hflat : ∀ (k : Nat) (ts : List Int), k ≤ ts.length / blockSize →
      ((List.range k).map fun j => (ts.drop (j * blockSize)).take blockSize).flatten
        = ts.take (k * blockSize) := by
    intro k
    induction k with
    | zero => intro ts _; simp
    | succ k ih =>
        intro ts hk
        rw [List.range_succ, List.map_append, List.flatten_append, ih ts (by omega), List.map_cons,
          List.map_nil, List.flatten_singleton, ← List.take_add, Nat.succ_mul]
  constructor
  · intro h
    have hflatten := congrArg List.flatten h
    rwa [fullBlocks, fullBlocks, ← List.map_take, ← List.map_take, List.take_range, List.take_range,
      Nat.min_eq_left hi, Nat.min_eq_left hi', hflat (i + 1) ts hi, hflat (i + 1) ts' hi'] at hflatten
  · intro h
    rw [htake ts hi, htake ts' hi', h]

/-! ### Namespaces -/

/-- A salt without an adapter reads like another salt with this adapter. -/
def ReadsAsAdapter (cacheSalt cacheSalt' : Option String) (loraAdapterId : Int) : Prop :=
  loraAdapterId.toNat % 256 = 0 ∧
    utf8 (cacheSalt.getD "")
      = utf8 (cacheSalt'.getD "") ++ 1 :: bigEndian 7 (loraAdapterId.toNat / 256)

/-- Two different namespaces with the same bytes: an absent salt and an empty one, or a salt without
an adapter that reads like another with one. -/
def Ambiguous (cacheSalt : Option String) (loraAdapterId : Option Int) (cacheSalt' : Option String)
    (loraAdapterId' : Option Int) : Prop :=
  match loraAdapterId, loraAdapterId' with
  | none, some id => ReadsAsAdapter cacheSalt cacheSalt' id
  | some id, none => ReadsAsAdapter cacheSalt' cacheSalt id
  | _, _ => loraAdapterId = loraAdapterId' ∧ cacheSalt ≠ cacheSalt' ∧
      cacheSalt.getD "" = cacheSalt'.getD ""

theorem namespaceBytes_eq_ok {cacheSalt : Option String} {id : Int} {bytes : List UInt8}
    (h : namespaceBytes cacheSalt (some id) = .ok bytes) :
    0 ≤ id ∧ id.toNat < 256 ^ 8 ∧
      bytes = gdnContextHashDomain ++ utf8 (cacheSalt.getD "") ++ 1 :: bigEndian 8 id.toNat := by
  rw [namespaceBytes] at h
  split at h
  · cases h
  · obtain ⟨b, hb, rfl⟩ := Except.map_eq_ok.mp h
    obtain ⟨hnn, hlt, rfl⟩ := toBytes_eq_ok hb
    exact ⟨hnn, hlt, rfl⟩

/-- The bytes of a namespace without an adapter are those of one with an adapter. -/
theorem readsAsAdapter_iff (cacheSalt cacheSalt' : Option String) (id : Int) :
    gdnContextHashDomain ++ utf8 (cacheSalt.getD "") ++ [0]
        = gdnContextHashDomain ++ utf8 (cacheSalt'.getD "") ++ 1 :: bigEndian 8 id.toNat ↔
      ReadsAsAdapter cacheSalt cacheSalt' id := by
  have hcons : utf8 (cacheSalt'.getD "") ++ 1 :: bigEndian 8 id.toNat
      = (utf8 (cacheSalt'.getD "") ++ 1 :: bigEndian 7 (id.toNat / 256))
          ++ [UInt8.ofNat id.toNat] := by
    rw [List.append_assoc, List.cons_append]
    rfl
  rw [List.append_assoc, List.append_assoc, List.append_cancel_left_eq, hcons, ReadsAsAdapter,
    ← ofNat_eq_zero_iff]
  constructor
  · intro h
    obtain ⟨hsalt, hlast⟩ := List.append_inj' h rfl
    rw [List.singleton_inj] at hlast
    exact ⟨hlast.symm, hsalt⟩
  · rintro ⟨hlast, hsalt⟩
    rw [hlast, hsalt]

/-- Equal bytes are equal namespaces or ambiguous ones. -/
theorem namespaceBytes_inj {cacheSalt cacheSalt' : Option String}
    {loraAdapterId loraAdapterId' : Option Int} {bytes bytes' : List UInt8}
    (h : namespaceBytes cacheSalt loraAdapterId = .ok bytes)
    (h' : namespaceBytes cacheSalt' loraAdapterId' = .ok bytes') :
    bytes = bytes' ↔ (cacheSalt = cacheSalt' ∧ loraAdapterId = loraAdapterId') ∨
      Ambiguous cacheSalt loraAdapterId cacheSalt' loraAdapterId' := by
  have hsalt : ∀ {tail tail' : List UInt8}, tail.length = tail'.length →
      (gdnContextHashDomain ++ utf8 (cacheSalt.getD "") ++ tail
          = gdnContextHashDomain ++ utf8 (cacheSalt'.getD "") ++ tail' ↔
        cacheSalt.getD "" = cacheSalt'.getD "" ∧ tail = tail') := by
    intro tail tail' hlen
    rw [List.append_assoc, List.append_assoc, List.append_cancel_left_eq]
    constructor
    · intro he
      obtain ⟨hs, ht⟩ := List.append_inj' he hlen
      exact ⟨utf8_inj.mp hs, ht⟩
    · rintro ⟨hs, ht⟩
      rw [hs, ht]
  cases loraAdapterId with
  | none =>
      cases h
      cases loraAdapterId' with
      | none =>
          cases h'
          rw [hsalt rfl]
          by_cases hs : cacheSalt = cacheSalt'
          · simp [hs]
          · simp [Ambiguous, hs]
      | some id =>
          obtain ⟨-, -, rfl⟩ := namespaceBytes_eq_ok h'
          rw [readsAsAdapter_iff, Ambiguous]
          simp
  | some id =>
      obtain ⟨hnn, hlt, rfl⟩ := namespaceBytes_eq_ok h
      cases loraAdapterId' with
      | none =>
          cases h'
          rw [eq_comm, readsAsAdapter_iff, Ambiguous]
          simp
      | some id' =>
          obtain ⟨hnn', hlt', rfl⟩ := namespaceBytes_eq_ok h'
          have hid : (1 : UInt8) :: bigEndian 8 id.toNat = 1 :: bigEndian 8 id'.toNat ↔ id = id' := by
            rw [List.cons.injEq]
            constructor
            · rintro ⟨-, he⟩
              have := bigEndian_inj hlt hlt' he
              omega
            · rintro rfl
              exact ⟨rfl, rfl⟩
          rw [hsalt (by simp), hid]
          by_cases hs : cacheSalt = cacheSalt'
          · simp [hs, Ambiguous]
          · simp only [Ambiguous, hs, false_and, false_or, Option.some.injEq, ne_eq, not_false_eq_true,
              true_and]
            exact and_comm

theorem buildGdnContextualBlockHashes_eq_ok {sha256 : List UInt8 → ContextualHash}
    {tokenIds : List Int} {blockSize : Nat} {cacheSalt : Option String} {loraAdapterId : Option Int}
    {hashes : List ContextualHash}
    (h : buildGdnContextualBlockHashes sha256 tokenIds blockSize cacheSalt loraAdapterId
      = .ok hashes) :
    ∃ bytes, namespaceBytes cacheSalt loraAdapterId = .ok bytes ∧
      hashBlocks sha256 (sha256 bytes) (fullBlocks blockSize tokenIds) = .ok hashes := by
  rw [buildGdnContextualBlockHashes] at h
  split at h
  · cases h
  · exact Except.bind_eq_ok.mp h

/-- The hashes of the first blocks are the first hashes. -/
theorem hashBlocks_take {sha256 : List UInt8 → ContextualHash} : ∀ {blocks : List (List Int)}
    {parent : ContextualHash} {hashes : List ContextualHash} (n : Nat),
    hashBlocks sha256 parent blocks = .ok hashes →
      hashBlocks sha256 parent (blocks.take n) = .ok (hashes.take n) := by
  intro blocks
  induction blocks with
  | nil =>
      intro parent hashes n h
      cases h
      rw [List.take_nil, List.take_nil]
      rfl
  | cons block blocks ih =>
      intro parent hashes n h
      obtain ⟨bytes, hbytes, h⟩ := Except.bind_eq_ok.mp h
      obtain ⟨rest, hrest, h⟩ := Except.bind_eq_ok.mp h
      cases h
      cases n with
      | zero => rfl
      | succ n =>
          rw [List.take_succ_cons, List.take_succ_cons, hashBlocks, hbytes]
          change (do let rest ← hashBlocks _ _ _; _) = _
          rw [ih n hrest]
          rfl

/-- The hash of a block is the last hash of the prefix through it. -/
theorem buildGdnContextualBlockHashes_prefix {sha256 : List UInt8 → ContextualHash}
    {tokenIds : List Int} {blockSize i : Nat} {cacheSalt : Option String}
    {loraAdapterId : Option Int} {hashes : List ContextualHash}
    (h : buildGdnContextualBlockHashes sha256 tokenIds blockSize cacheSalt loraAdapterId
      = .ok hashes) (hi : i < hashes.length) :
    buildGdnContextualBlockHashes sha256 (tokenIds.take ((i + 1) * blockSize)) blockSize cacheSalt
      loraAdapterId = .ok (hashes.take (i + 1)) := by
  obtain ⟨bytes, hbytes, hblocks⟩ := buildGdnContextualBlockHashes_eq_ok h
  have hbs : ¬ blockSize < 1 := by
    intro hlt
    rw [buildGdnContextualBlockHashes, if_pos hlt] at h
    cases h
  have hlt : i < tokenIds.length / blockSize := by
    rwa [length_hashBlocks hblocks, fullBlocks, List.length_map, List.length_range] at hi
  have hle : (i + 1) * blockSize ≤ tokenIds.length :=
    (Nat.le_div_iff_mul_le (by omega)).mp hlt
  have hlen : (tokenIds.take ((i + 1) * blockSize)).length / blockSize = i + 1 := by
    rw [List.length_take, Nat.min_eq_left hle, Nat.mul_div_cancel _ (by omega)]
  have hfull : fullBlocks blockSize (tokenIds.take ((i + 1) * blockSize))
      = (fullBlocks blockSize tokenIds).take (i + 1) := by
    have htake := (@take_fullBlocks_eq_iff blockSize i tokenIds
      (tokenIds.take ((i + 1) * blockSize)) hlt (by omega)).mpr (by
        rw [List.take_take, Nat.min_self])
    have hall : (fullBlocks blockSize (tokenIds.take ((i + 1) * blockSize))).length ≤ i + 1 := by
      rw [fullBlocks, List.length_map, List.length_range, hlen]
    rw [htake, List.take_of_length_le hall]
  rw [buildGdnContextualBlockHashes, if_neg hbs, hbytes]
  change hashBlocks _ _ _ = _
  rw [hfull]
  exact hashBlocks_take (i + 1) hblocks

/-- **When a contextual hash is an identity.**  With a collision-free digest, the hashes of two
requests at a block index are equal exactly for equal salts, adapters and tokens, if and only if it is
not the case that the tokens are equal and the namespaces are ambiguous. -/
theorem contextualHash_iff {sha256 : List UInt8 → ContextualHash}
    (hsha : Function.Injective sha256) {tokenIds tokenIds' : List Int} {blockSize i : Nat}
    {cacheSalt cacheSalt' : Option String} {loraAdapterId loraAdapterId' : Option Int}
    {hashes hashes' : List ContextualHash} {hash hash' : ContextualHash}
    (h : buildGdnContextualBlockHashes sha256 tokenIds blockSize cacheSalt loraAdapterId
      = .ok hashes)
    (h' : buildGdnContextualBlockHashes sha256 tokenIds' blockSize cacheSalt' loraAdapterId'
      = .ok hashes')
    (hi : hashes[i]? = some hash) (hi' : hashes'[i]? = some hash') :
    (hash = hash' ↔ cacheSalt = cacheSalt' ∧ loraAdapterId = loraAdapterId' ∧
        tokenIds.take ((i + 1) * blockSize) = tokenIds'.take ((i + 1) * blockSize)) ↔
      ¬ (tokenIds.take ((i + 1) * blockSize) = tokenIds'.take ((i + 1) * blockSize) ∧
        Ambiguous cacheSalt loraAdapterId cacheSalt' loraAdapterId') := by
  obtain ⟨bytes, hbytes, hblocks⟩ := buildGdnContextualBlockHashes_eq_ok h
  obtain ⟨bytes', hbytes', hblocks'⟩ := buildGdnContextualBlockHashes_eq_ok h'
  have hlt : ∀ {ts : List Int} {parent : ContextualHash} {hs : List ContextualHash}
      {x : ContextualHash}, hashBlocks sha256 parent (fullBlocks blockSize ts) = .ok hs →
      hs[i]? = some x → i < ts.length / blockSize := by
    intro ts parent hs x hb hx
    have := (List.getElem?_eq_some_iff.mp hx).1
    rwa [length_hashBlocks hb, fullBlocks, List.length_map, List.length_range] at this
  have htake := take_fullBlocks_eq_iff (hlt hblocks hi) (hlt hblocks' hi')
  have hns := namespaceBytes_inj hbytes hbytes'
  have hhash : hash = hash' ↔ bytes = bytes' ∧
      tokenIds.take ((i + 1) * blockSize) = tokenIds'.take ((i + 1) * blockSize) := by
    rw [← htake]
    constructor
    · rintro rfl
      obtain ⟨hparent, hb⟩ := hashBlocks_inj hsha (fun b hb => length_of_mem_fullBlocks hb)
        (fun b hb => length_of_mem_fullBlocks hb) hblocks hblocks' hi hi'
      exact ⟨hsha hparent, hb⟩
    · rintro ⟨rfl, hb⟩
      have := hashBlocks_congr hb hblocks hblocks'
      rwa [hi, hi', Option.some.injEq] at this
  have hamb : Ambiguous cacheSalt loraAdapterId cacheSalt' loraAdapterId' →
      ¬ (cacheSalt = cacheSalt' ∧ loraAdapterId = loraAdapterId') := by
    rintro ha ⟨rfl, rfl⟩
    cases loraAdapterId with
    | none => exact ha.2.1 rfl
    | some id => exact ha.2.1 rfl
  rw [hhash, hns]
  constructor
  · rintro hiff ⟨ht, ha⟩
    obtain ⟨hs, hl, -⟩ := hiff.mp ⟨Or.inr ha, ht⟩
    exact hamb ha ⟨hs, hl⟩
  · intro hnot
    constructor
    · rintro ⟨⟨hs, hl⟩ | ha, ht⟩
      · exact ⟨hs, hl, ht⟩
      · exact absurd ⟨ht, ha⟩ hnot
    · rintro ⟨hs, hl, ht⟩
      exact ⟨Or.inl ⟨hs, hl⟩, ht⟩

/-- Two salts, with a digest that keeps its input. -/
theorem contextualHash_tells_salts_apart :
    ∃ hash hash', buildGdnContextualBlockHashes id [5, 6] 2 (some "first") none = .ok [hash] ∧
      buildGdnContextualBlockHashes id [5, 6] 2 (some "second") none = .ok [hash'] ∧
      hash ≠ hash' := by
  refine ⟨_, _, rfl, rfl, fun he => ?_⟩
  have hiff := contextualHash_iff Function.injective_id
    (show buildGdnContextualBlockHashes id [5, 6] 2 (some "first") none = .ok [_] from rfl)
    (show buildGdnContextualBlockHashes id [5, 6] 2 (some "second") none = .ok [_] from rfl)
    (i := 0) rfl rfl
  have := (hiff.mpr (by rintro ⟨-, -, -, ha⟩; exact absurd ha (by decide))).mp he
  exact absurd this.1 (by decide)

/-- **A salt that reads like an adapter.**  The salt `"\x01\0\0\0\0\0\0\x01"` without an adapter and no
salt with the adapter `256` have the same hashes, whatever the digest. -/
theorem salt_reads_as_adapter :
    ¬ ∀ (sha256 : List UInt8 → ContextualHash), Function.Injective sha256 →
      ∀ (tokenIds tokenIds' : List Int) (blockSize i : Nat) (cacheSalt cacheSalt' : Option String)
        (loraAdapterId loraAdapterId' : Option Int) (hashes hashes' : List ContextualHash)
        (hash hash' : ContextualHash),
        buildGdnContextualBlockHashes sha256 tokenIds blockSize cacheSalt loraAdapterId
          = .ok hashes →
        buildGdnContextualBlockHashes sha256 tokenIds' blockSize cacheSalt' loraAdapterId'
          = .ok hashes' →
        hashes[i]? = some hash → hashes'[i]? = some hash' →
        (hash = hash' ↔ cacheSalt = cacheSalt' ∧ loraAdapterId = loraAdapterId' ∧
          tokenIds.take ((i + 1) * blockSize) = tokenIds'.take ((i + 1) * blockSize)) := by
  intro hclaim
  obtain ⟨hash, h, h'⟩ : ∃ hash,
      buildGdnContextualBlockHashes id [5] 1 (some "\x01\x00\x00\x00\x00\x00\x00\x01") none
        = .ok [hash] ∧
      buildGdnContextualBlockHashes id [5] 1 none (some 256) = .ok [hash] :=
    ⟨_, rfl, rfl⟩
  have := (hclaim id Function.injective_id [5] [5] 1 0 _ _ _ _ _ _ hash hash h h' rfl rfl).mp rfl
  exact absurd this.1 (by decide)

end CacheSelect.Gdn
