import CacheSelect.Lib.Except
import CacheSelect.Lib.Json
import CacheSelect.Lib.OrderedDict
import Mathlib.Data.String.Basic

/-! # Blinded reviews

Trials without an automatic label are reviewed by hand.  `prepareReview` shows the two answers of a trial as A and
B in an order that a hash decides, and keeps in a key which of them is whose.  `prepareCompactReview`
groups the rows with one question and the same two answers, `applyCompactReview` gives the rows of a group its
verdict, turned around where the answers stand the other way, and `unblind` reads the verdicts by the key.

`compact_review_decisions` says which decision each trial gets from the verdict of its group.
-/

namespace CacheSelect.Benchmarks

open OrderedDict

/-! ### Reviews -/

/-- The allowed verdicts. -/
inductive Verdict
  | equivalent
  | answerABetter
  | answerBBetter
  | unclear
deriving DecidableEq, Repr

/-- The slot of the better answer: the verdict without its suffix. -/
def Verdict.betterSlot : Verdict → Option String
  | .answerABetter => some "answer_a"
  | .answerBBetter => some "answer_b"
  | _ => none

/-- A trial that awaits review; `stability` is the text of a reference that was not stable. -/
structure AbstainedTrial where
  trialId : String
  blockIndex : Int
  question : String
  expectedAnswer : String
  reference : String
  intervention : String
  stability : Option String
deriving DecidableEq, Repr

/-- A row of a review file; a verdict that is none of the allowed ones is no verdict. -/
structure ReviewRow where
  reviewId : Option String
  question : String
  expectedAnswer : String
  answerA : String
  answerB : String
  independentNormalAnswer : Option String
  verdict : Option Verdict := none
  reason : String := ""
deriving DecidableEq, Repr

/-- A row of the identity key. -/
structure KeyRow where
  reviewId : Option String
  trialId : Option String
  blockIndex : Option Int
  referenceSlot : Option String
  interventionSlot : Option String
deriving DecidableEq, Repr

/-- A number in a field of some width, with zeros before it. -/
def padded (width n : Nat) : String :=
  String.ofList (List.replicate (width - (Nat.toDigits 10 n).length) '0' ++ Nat.toDigits 10 n)

def reviewIdOf (index : Nat) : String :=
  "review-" ++ padded 3 index

/-- The row that reviewers see. -/
def reviewRow (referenceIsA : Bool) (t : AbstainedTrial) (index : Nat) : ReviewRow where
  reviewId := some (reviewIdOf index)
  question := t.question
  expectedAnswer := t.expectedAnswer
  answerA := if referenceIsA then t.reference else t.intervention
  answerB := if referenceIsA then t.intervention else t.reference
  independentNormalAnswer := t.stability

/-- The row that tells whose the answers are. -/
def keyRow (referenceIsA : Bool) (t : AbstainedTrial) (index : Nat) : KeyRow where
  reviewId := some (reviewIdOf index)
  trialId := some t.trialId
  blockIndex := some t.blockIndex
  referenceSlot := some (if referenceIsA then "answer_a" else "answer_b")
  interventionSlot := some (if referenceIsA then "answer_b" else "answer_a")

/-- The hashes: of a trial id, which orders the rows; of the ledger and a trial id, whose parity orders the
answers; and of the files. -/
structure Hashes where
  trial : String → Nat
  referenceIsA : String → Bool
  review : List ReviewRow → String

def orderedTrials (h : Hashes) (trials : List AbstainedTrial) : List AbstainedTrial :=
  trials.mergeSort fun a b => decide (h.trial a.trialId ≤ h.trial b.trialId)

/-- The last part of `prepare_mtrag_counterfactual_review`. -/
def prepareReview (h : Hashes) (trials : List AbstainedTrial) : List ReviewRow × List KeyRow :=
  let ordered := (orderedTrials h trials).zipIdx 1
  (ordered.map fun (t, index) => reviewRow (h.referenceIsA t.trialId) t index,
    ordered.map fun (t, index) => keyRow (h.referenceIsA t.trialId) t index)

/-! ### Compaction -/

/-- What the rows of a group have in common: the two answers are in order. -/
structure ReviewKey where
  question : String
  expectedAnswer : String
  answerA : String
  answerB : String
  independentNormalAnswer : Option String
  ordered : answerA ≤ answerB
deriving DecidableEq

/-- `_key`. -/
def reviewKey (question expectedAnswer answerA answerB : String)
    (independentNormalAnswer : Option String) : ReviewKey where
  question := question
  expectedAnswer := expectedAnswer
  answerA := min answerA answerB
  answerB := max answerA answerB
  independentNormalAnswer := independentNormalAnswer
  ordered := min_le_max

def ReviewRow.key (row : ReviewRow) : ReviewKey :=
  reviewKey row.question row.expectedAnswer row.answerA row.answerB row.independentNormalAnswer

structure CompactRow where
  groupId : String
  occurrences : Nat
  reviewIds : List (Option String)
  question : String
  expectedAnswer : String
  answerA : String
  answerB : String
  independentNormalAnswer : Option String
  verdict : Option Verdict := none
  reason : String := ""

def CompactRow.key (row : CompactRow) : ReviewKey :=
  reviewKey row.question row.expectedAnswer row.answerA row.answerB row.independentNormalAnswer

structure CompactReview where
  sourceReviewSha256 : String
  trialCount : Nat
  groupCount : Nat
  rows : List CompactRow

def compactRow (key : ReviewKey) (reviewIds : List (Option String)) (index : Nat) : CompactRow where
  groupId := "group-" ++ padded 4 index
  occurrences := reviewIds.length
  reviewIds := reviewIds
  question := key.question
  expectedAnswer := key.expectedAnswer
  answerA := key.answerA
  answerB := key.answerB
  independentNormalAnswer := key.independentNormalAnswer

def prepareCompactReview (h : Hashes) (source : List ReviewRow) : CompactReview :=
  let groups := grouped ReviewRow.key ReviewRow.reviewId source
  { sourceReviewSha256 := h.review source
    trialCount := source.length
    groupCount := groups.length
    rows := (groups.zipIdx 1).map fun (g, index) => compactRow g.1 g.2 index }

/-- The verdict and the reason of a group, if there are both. -/
def CompactRow.completed (row : CompactRow) : Except Raised (ReviewKey × Verdict × String) :=
  match row.verdict with
  | none => .error (.valueError (row.groupId ++ " is incomplete"))
  | some verdict =>
      if row.reason = "" then .error (.valueError (row.groupId ++ " is incomplete"))
      else .ok (row.key, verdict, row.reason)

/-- The verdict for the answers in the other order. -/
def Verdict.swap : Verdict → Verdict
  | .answerABetter => .answerBBetter
  | .answerBBetter => .answerABetter
  | verdict => verdict

/-- The row with the verdict of its group. -/
def applyVerdict (verdicts : List (ReviewKey × Verdict × String)) (row : ReviewRow) :
    Except Raised (ReviewRow × Verdict) :=
  match get verdicts row.key with
  | none => .error .keyError
  | some (verdict, reason) =>
      let verdict := if row.answerA ≠ row.key.answerA then verdict.swap else verdict
      .ok ({ row with verdict := some verdict, reason := reason }, verdict)

/-- The rows with their verdicts, and how often each verdict was given. -/
def applyCompactReview (h : Hashes) (source : List ReviewRow) (compact : CompactReview) :
    Except Raised (List ReviewRow × (Verdict → Nat)) :=
  if compact.sourceReviewSha256 ≠ h.review source then
    .error (.valueError "compact review does not match its source")
  else do
    let completed ← compact.rows.mapM CompactRow.completed
    let verdicts := ofPairs completed
    let applied ← source.mapM (applyVerdict verdicts)
    if verdicts.length ≠ compact.groupCount ∨ source.length ≠ compact.trialCount then
      .error (.valueError "compact review has incomplete coverage")
    else
      .ok (applied.map Prod.fst, fun verdict => applied.countP fun a => a.2 = verdict)

/-! ### Unblinding -/

inductive Decision
  | reuse
  | repair
  | abstain
deriving DecidableEq, Repr

/-- `_unblind_decision`. -/
def unblindDecision (verdict : Verdict) (key : KeyRow) : Decision :=
  match verdict with
  | .equivalent => .reuse
  | .unclear => .abstain
  | verdict => if key.interventionSlot = verdict.betterSlot then .reuse else .repair

structure DecisionRow where
  reviewId : Option String
  trialId : Option String
  blockIndex : Option Int
  blindVerdict : Verdict
  decision : Decision
  reason : String
deriving DecidableEq, Repr

structure ReviewAudit where
  reviewedTrials : Nat
  reuseDecisions : Nat
  repairDecisions : Nat
  abstentions : Nat
  rows : List DecisionRow
deriving DecidableEq, Repr

/-- The decision of one row; `repr` stands for the conversion `!r`. -/
def decideRow (repr : Option String → String) (keysById : List (Option String × KeyRow))
    (row : ReviewRow) : Except Raised DecisionRow :=
  match row.verdict with
  | none => .error (.valueError s!"review {repr row.reviewId} is incomplete")
  | some verdict =>
      if row.reason = "" then .error (.valueError s!"review {repr row.reviewId} is incomplete")
      else
        match get keysById row.reviewId with
        | none => .error (.valueError s!"review {repr row.reviewId} has no identity key")
        | some key =>
            .ok {
              reviewId := row.reviewId
              trialId := key.trialId
              blockIndex := key.blockIndex
              blindVerdict := verdict
              decision := unblindDecision verdict key
              reason := row.reason }

/-- `unblind_mtrag_counterfactual_review`, for a review and a key of one ledger. -/
def unblind (repr : Option String → String) (review : List ReviewRow) (key : List KeyRow) :
    Except Raised ReviewAudit :=
  let keysById := ofPairs (key.map fun row => (row.reviewId, row))
  if keysById.length ≠ key.length then
    .error (.valueError "identity key contains duplicate or invalid review IDs")
  else do
    let decisions ← review.mapM (decideRow repr keysById)
    if decisions.length ≠ key.length then
      .error (.valueError "review and identity key contain different trials")
    else
      .ok {
        reviewedTrials := decisions.length
        reuseDecisions := decisions.countP fun d => d.decision = .reuse
        repairDecisions := decisions.countP fun d => d.decision = .repair
        abstentions := decisions.countP fun d => d.decision = .abstain
        rows := decisions }

/-! ### Keys and ids -/

theorem ofDigitChars_padded (width n : Nat) :
    Nat.ofDigitChars 10 (padded width n).toList 0 = n := by
  rw [padded, String.toList_ofList, Nat.ofDigitChars_append, Nat.ofDigitChars_replicate_zero,
    Nat.mul_zero, Nat.ofDigitChars_toDigits (by decide) (by decide)]

theorem reviewIdOf_injective : Function.Injective reviewIdOf := by
  intro m n h
  have htoList := congrArg String.toList h
  rw [reviewIdOf, reviewIdOf, String.toList_append, String.toList_append] at htoList
  have hpad := List.append_cancel_left htoList
  rw [← ofDigitChars_padded 3 m, hpad, ofDigitChars_padded]

/-- The key of the rows of a trial, in whatever order they have the answers. -/
def AbstainedTrial.key (t : AbstainedTrial) : ReviewKey :=
  reviewKey t.question t.expectedAnswer t.reference t.intervention t.stability

theorem reviewKey_comm (question expectedAnswer a b : String) (independent : Option String) :
    reviewKey question expectedAnswer a b independent
      = reviewKey question expectedAnswer b a independent := by
  simp only [reviewKey, min_comm a b, max_comm a b]

theorem key_reviewRow (referenceIsA : Bool) (t : AbstainedTrial) (index : Nat) :
    (reviewRow referenceIsA t index).key = t.key := by
  cases referenceIsA with
  | true => rfl
  | false => exact reviewKey_comm ..

theorem key_compactRow (key : ReviewKey) (reviewIds : List (Option String)) (index : Nat) :
    (compactRow key reviewIds index).key = key := by
  obtain ⟨question, expectedAnswer, a, b, independent, hle⟩ := key
  simp only [CompactRow.key, compactRow, reviewKey, min_eq_left hle, max_eq_right hle]

theorem applyCompactReview_eq_ok {h : Hashes} {source : List ReviewRow} {compact : CompactReview}
    {completed : List (ReviewKey × Verdict × String)} {applied : List (ReviewRow × Verdict)}
    (hsha : compact.sourceReviewSha256 = h.review source)
    (hcompleted : compact.rows.mapM CompactRow.completed = .ok completed)
    (happlied : source.mapM (applyVerdict (ofPairs completed)) = .ok applied)
    (hgroups : (ofPairs completed).length = compact.groupCount)
    (htrials : source.length = compact.trialCount) :
    applyCompactReview h source compact
      = .ok (applied.map Prod.fst, fun verdict => applied.countP fun a => a.2 = verdict) := by
  have hcover : ¬ ((ofPairs completed).length ≠ compact.groupCount ∨
      source.length ≠ compact.trialCount) :=
    not_or.mpr ⟨not_not.mpr hgroups, not_not.mpr htrials⟩
  rw [applyCompactReview, if_neg (not_not.mpr hsha), hcompleted]
  change (source.mapM (applyVerdict (ofPairs completed)) >>= fun _ => _) = _
  rw [happlied]
  exact if_neg hcover

theorem decideRow_eq_ok {repr : Option String → String} {keysById : List (Option String × KeyRow)}
    {row : ReviewRow} {d : DecisionRow} : decideRow repr keysById row = .ok d ↔
      ∃ verdict key, row.verdict = some verdict ∧ row.reason ≠ "" ∧
        get keysById row.reviewId = some key ∧
        d = {
          reviewId := row.reviewId
          trialId := key.trialId
          blockIndex := key.blockIndex
          blindVerdict := verdict
          decision := unblindDecision verdict key
          reason := row.reason } := by
  rw [decideRow]
  cases row.verdict with
  | none => simp
  | some verdict =>
      by_cases hreason : row.reason = ""
      · simp [hreason]
      · cases get keysById row.reviewId with
        | none => simp [hreason]
        | some key => simp [hreason, eq_comm]

theorem unblind_eq_ok {repr : Option String → String} {review : List ReviewRow} {key : List KeyRow}
    {audit : ReviewAudit} : unblind repr review key = .ok audit ↔
      (key.map KeyRow.reviewId).Nodup ∧
      review.mapM (decideRow repr (key.map fun row => (row.reviewId, row))) = .ok audit.rows ∧
      review.length = key.length ∧
      audit = {
        reviewedTrials := audit.rows.length
        reuseDecisions := audit.rows.countP fun d => d.decision = .reuse
        repairDecisions := audit.rows.countP fun d => d.decision = .repair
        abstentions := audit.rows.countP fun d => d.decision = .abstain
        rows := audit.rows } := by
  have hkeys : keys (key.map fun row => (row.reviewId, row)) = key.map KeyRow.reviewId := by
    rw [keys, List.map_map]
    rfl
  have hlen : (ofPairs (key.map fun row => (row.reviewId, row))).length = key.length ↔
      (key.map KeyRow.reviewId).Nodup := by
    rw [← hkeys, ← length_ofPairs, List.length_map]
  rw [unblind]
  by_cases hnd : (key.map KeyRow.reviewId).Nodup
  · rw [if_neg (not_not.mpr (hlen.mpr hnd)), ofPairs_of_nodup (hkeys ▸ hnd), Except.bind_eq_ok,
      and_iff_right hnd]
    constructor
    · rintro ⟨decisions, hdecisions, h⟩
      split at h
      · cases h
      · next hsame =>
        cases h
        refine ⟨hdecisions, ?_, rfl⟩
        rw [(Except.mapM_eq_ok_iff.mp hdecisions).length_eq]
        exact not_not.mp hsame
    · rintro ⟨hdecisions, hsame, haudit⟩
      have hlen' := (Except.mapM_eq_ok_iff.mp hdecisions).length_eq
      exact ⟨audit.rows, hdecisions, (if_neg (not_not.mpr (hlen'.symm.trans hsame))).trans
        (congrArg Except.ok haudit.symm)⟩
  · rw [if_pos (mt hlen.mp hnd)]
    refine ⟨fun h => ?_, fun h => absurd h.1 hnd⟩
    cases h

/-! ### The groups of a review -/

/-- The compact review with a verdict and a reason for every group. -/
def CompactReview.fill (compact : CompactReview) (verdictOf : CompactRow → Verdict)
    (reasonOf : CompactRow → String) : CompactReview :=
  { compact with
    rows := compact.rows.map fun g => { g with verdict := some (verdictOf g), reason := reasonOf g } }

section Compaction

variable (h : Hashes) (source : List ReviewRow)

theorem keys_prepareCompactReview : (prepareCompactReview h source).rows.map CompactRow.key
    = keys (grouped ReviewRow.key ReviewRow.reviewId source) := by
  rw [prepareCompactReview, List.map_map]
  have hfun : (CompactRow.key ∘ fun (g, index) => compactRow g.1 g.2 index :
      (ReviewKey × List (Option String)) × Nat → ReviewKey) = fun p => p.1.1 := by
    funext ⟨g, index⟩
    exact key_compactRow g.1 g.2 index
  rw [hfun, keys, ← List.zipIdx_map_fst 1 (grouped ReviewRow.key ReviewRow.reviewId source), List.map_map,
    List.zipIdx_map_fst]
  rfl

/-- **The verdict of a group reaches its rows**, turned around where the answers stand the other way. -/
theorem applyCompactReview_fill (verdictOf : CompactRow → Verdict) (reasonOf : CompactRow → String)
    (hreason : ∀ g, reasonOf g ≠ "") :
    ∃ given : ReviewKey → Verdict × String,
      (∀ row ∈ source, ∃ g ∈ (prepareCompactReview h source).rows, g.key = row.key ∧
        given row.key = (verdictOf g, reasonOf g)) ∧
      ∃ counts, applyCompactReview h source ((prepareCompactReview h source).fill verdictOf reasonOf)
        = .ok (source.map fun row => { row with
            verdict := some (if row.answerA ≠ row.key.answerA then (given row.key).1.swap
              else (given row.key).1)
            reason := (given row.key).2 }, counts) := by
  have hkeys := keys_prepareCompactReview h source
  have hsha : (prepareCompactReview h source).sourceReviewSha256 = h.review source := rfl
  have hcount : (prepareCompactReview h source).trialCount = source.length := rfl
  have hgroups : (prepareCompactReview h source).rows.length
      = (prepareCompactReview h source).groupCount := by
    rw [prepareCompactReview, List.length_map, List.length_zipIdx]
  generalize prepareCompactReview h source = compact at hkeys hsha hcount hgroups ⊢
  let completed := compact.rows.map fun g => (g.key, verdictOf g, reasonOf g)
  have hck : keys completed = keys (grouped ReviewRow.key ReviewRow.reviewId source) := by
    rw [← hkeys, keys, List.map_map]
    rfl
  have hnd : (keys completed).Nodup := hck ▸ nodup_keys_grouped _ _ _
  have hgiven : ∀ row ∈ source, ∃ g ∈ compact.rows, g.key = row.key ∧
      get completed row.key = some (verdictOf g, reasonOf g) := by
    intro row hrow
    have hin : row.key ∈ compact.rows.map CompactRow.key := by
      rw [hkeys, mem_keys_grouped]
      exact List.mem_map_of_mem hrow
    obtain ⟨g, hg, hkey⟩ := List.mem_map.mp hin
    exact ⟨g, hg, hkey, get_of_mem hnd (hkey ▸ List.mem_map_of_mem hg)⟩
  have hcompleted : (compact.fill verdictOf reasonOf).rows.mapM CompactRow.completed
      = .ok completed := by
    have hrow : ∀ g ∈ (compact.fill verdictOf reasonOf).rows,
        g.completed = .ok (g.key, g.verdict.getD .unclear, g.reason) := by
      intro g hg
      obtain ⟨g', -, rfl⟩ := List.mem_map.mp hg
      exact if_neg (hreason g')
    rw [Except.mapM_eq_ok_map hrow, CompactReview.fill, List.map_map]
    rfl
  let given : ReviewKey → Verdict × String := fun key => (get completed key).getD (.unclear, "")
  have hrows : source.mapM (applyVerdict completed) = .ok (source.map fun row =>
      let verdict := if row.answerA ≠ row.key.answerA then (given row.key).1.swap else (given row.key).1
      ({ row with verdict := some verdict, reason := (given row.key).2 }, verdict)) := by
    refine Except.mapM_eq_ok_map ?_
    intro row hrow
    obtain ⟨g, -, -, hget⟩ := hgiven row hrow
    have hval : given row.key = (verdictOf g, reasonOf g) := by
      change (get completed row.key).getD _ = _
      rw [hget]
      rfl
    rw [applyVerdict, hget, hval]
  refine ⟨given, ?_, ?_⟩
  · intro row hrow
    obtain ⟨g, hg, hkey, hget⟩ := hgiven row hrow
    refine ⟨g, hg, hkey, ?_⟩
    change (get completed row.key).getD _ = _
    rw [hget]
    rfl
  · rw [← ofPairs_of_nodup hnd] at hrows
    have hlen : (ofPairs completed).length = compact.groupCount := by
      rw [ofPairs_of_nodup hnd]
      exact (List.length_map _).trans hgroups
    have hok := @applyCompactReview_eq_ok h source (compact.fill verdictOf reasonOf) completed _ hsha
      hcompleted hrows hlen hcount.symm
    rw [List.map_map] at hok
    exact ⟨_, hok⟩

end Compaction

/-! ### The decisions -/

/-- The text that wins under a verdict. -/
def CompactRow.winningText (g : CompactRow) : Verdict → Option String
  | .answerABetter => some g.answerA
  | .answerBBetter => some g.answerB
  | _ => none

/-- The slot of the trial's intervention. -/
def interventionSlot (referenceIsA : Bool) : String :=
  if referenceIsA then "answer_b" else "answer_a"

/-- What the verdict of a group means for one of its trials. -/
structure Follows (referenceIsA : Bool) (g : CompactRow) (v : Verdict) (t : AbstainedTrial)
    (d : Decision) : Prop where
  equivalent : v = .equivalent → d = .reuse
  unclear : v = .unclear → d = .abstain
  intervention : t.reference ≠ t.intervention → g.winningText v = some t.intervention → d = .reuse
  reference : t.reference ≠ t.intervention → g.winningText v = some t.reference → d = .repair
  equal : t.reference = t.intervention → (g.winningText v).isSome = true →
    d = if v.betterSlot = some (interventionSlot referenceIsA) then .reuse else .repair

/-- The verdict of a row whose group has a verdict. -/
def rowVerdict (v : Verdict) (row : ReviewRow) : Verdict :=
  if row.answerA ≠ row.key.answerA then v.swap else v

/-- **The row of a trial.**  Its verdict, read by its key, is what the verdict of its group means. -/
theorem follows_row {referenceIsA : Bool} {g : CompactRow} {t : AbstainedTrial} (index : Nat)
    (hg : g.key = t.key) (hA : g.answerA = g.key.answerA) (hB : g.answerB = g.key.answerB) (v : Verdict) :
    Follows referenceIsA g v t (unblindDecision (rowVerdict v (reviewRow referenceIsA t index))
      (keyRow referenceIsA t index)) := by
  have hrow : rowVerdict v (reviewRow referenceIsA t index)
      = if (reviewRow referenceIsA t index).answerA ≠ min t.reference t.intervention then v.swap
        else v := by
    rw [rowVerdict, key_reviewRow]
    rfl
  have ha : g.answerA = min t.reference t.intervention := hA.trans (congrArg ReviewKey.answerA hg)
  have hb : g.answerB = max t.reference t.intervention := hB.trans (congrArg ReviewKey.answerB hg)
  rw [hrow]
  -- the winning text is the smaller or the larger answer, and the slot of either is known
  rcases lt_trichotomy t.reference t.intervention with hlt | heq | hgt
  · rw [min_eq_left hlt.le] at ha ⊢
    rw [max_eq_right hlt.le] at hb
    have hne := hlt.ne
    have hne' := hlt.ne'
    cases referenceIsA <;> cases v <;>
      constructor <;> simp [CompactRow.winningText, reviewRow, keyRow, unblindDecision, Verdict.swap,
        Verdict.betterSlot, ha, hb, hne, hne']
  · rw [heq, min_self] at ha ⊢
    cases referenceIsA <;> cases v <;>
      constructor <;> simp [CompactRow.winningText, reviewRow, keyRow, unblindDecision,
        Verdict.betterSlot, interventionSlot, heq]
  · rw [min_eq_right hgt.le] at ha ⊢
    rw [max_eq_left hgt.le] at hb
    have hne := hgt.ne
    have hne' := hgt.ne'
    cases referenceIsA <;> cases v <;>
      constructor <;> simp [CompactRow.winningText, reviewRow, keyRow, unblindDecision, Verdict.swap,
        Verdict.betterSlot, ha, hb, hne, hne']

theorem answers_compactRow {h : Hashes} {source : List ReviewRow} {g : CompactRow}
    (hg : g ∈ (prepareCompactReview h source).rows) :
    g.answerA = g.key.answerA ∧ g.answerB = g.key.answerB := by
  obtain ⟨⟨⟨key, ids⟩, index⟩, -, rfl⟩ := List.mem_map.mp hg
  rw [key_compactRow]
  exact ⟨rfl, rfl⟩

theorem nodup_reviewIds (h : Hashes) (trials : List AbstainedTrial) :
    ((prepareReview h trials).2.map KeyRow.reviewId).Nodup := by
  rw [prepareReview, List.map_map]
  have hids : (KeyRow.reviewId ∘ fun (t, index) => keyRow (h.referenceIsA t.trialId) t index :
      AbstainedTrial × Nat → Option String) = (fun n => some (reviewIdOf n)) ∘ Prod.snd := by
    funext ⟨t, index⟩
    rfl
  rw [hids, ← List.map_map, List.zipIdx_map_snd]
  refine List.Nodup.map ?_ List.nodup_range'
  exact fun m n hmn => reviewIdOf_injective (Option.some.inj hmn)

theorem forall₂_zipIdx {α β : Type} {R : α → β → Prop} {f : α × Nat → β} (xs : List α) (n : Nat)
    (h : ∀ p ∈ xs.zipIdx n, R p.1 (f p)) : List.Forall₂ R xs ((xs.zipIdx n).map f) := by
  rw [← List.zipIdx_map_fst n xs, List.forall₂_map_left_iff, List.zipIdx_map_fst,
    List.forall₂_map_right_iff, List.forall₂_same]
  exact h

/-- **A compact review means for each trial what its groups' verdicts mean.**  The review of any trials can be
compacted, given any verdicts, applied and unblinded, and the decision of every trial follows from the verdict of
its group. -/
theorem compact_review_decisions (h : Hashes) (repr : Option String → String)
    (trials : List AbstainedTrial) (verdictOf : CompactRow → Verdict) (reasonOf : CompactRow → String)
    (hreason : ∀ g, reasonOf g ≠ "") :
    ∃ applied counts audit,
      applyCompactReview h (prepareReview h trials).1
          ((prepareCompactReview h (prepareReview h trials).1).fill verdictOf reasonOf)
        = .ok (applied, counts) ∧
      unblind repr applied (prepareReview h trials).2 = .ok audit ∧
      List.Forall₂ (fun (t : AbstainedTrial) (d : DecisionRow) =>
        d.trialId = some t.trialId ∧ d.blockIndex = some t.blockIndex ∧
          ∃ g ∈ (prepareCompactReview h (prepareReview h trials).1).rows, g.key = t.key ∧
            Follows (h.referenceIsA t.trialId) g (verdictOf g) t d.decision)
        (orderedTrials h trials) audit.rows := by
  obtain ⟨given, hgiven, counts, happly⟩ := applyCompactReview_fill h (prepareReview h trials).1 verdictOf
    reasonOf hreason
  have hnd := nodup_reviewIds h trials
  let trialRow : AbstainedTrial × Nat → ReviewRow := fun p =>
    reviewRow (h.referenceIsA p.1.trialId) p.1 p.2
  let trialKey : AbstainedTrial × Nat → KeyRow := fun p =>
    keyRow (h.referenceIsA p.1.trialId) p.1 p.2
  let decisionRow : AbstainedTrial × Nat → DecisionRow := fun p =>
    let verdict := rowVerdict (given (trialRow p).key).1 (trialRow p)
    { reviewId := some (reviewIdOf p.2)
      trialId := some p.1.trialId
      blockIndex := some p.1.blockIndex
      blindVerdict := verdict
      decision := unblindDecision verdict (trialKey p)
      reason := (given (trialRow p).key).2 }
  let ps := (orderedTrials h trials).zipIdx 1
  have hrows : (prepareReview h trials).1 = ps.map trialRow := rfl
  have hkeys : (prepareReview h trials).2 = ps.map trialKey := rfl
  have hgroup : ∀ p ∈ ps, ∃ g ∈ (prepareCompactReview h (prepareReview h trials).1).rows,
      g.key = p.1.key ∧ given (trialRow p).key = (verdictOf g, reasonOf g) := by
    intro p hp
    obtain ⟨g, hg, hkey, hval⟩ := hgiven (trialRow p) (hrows ▸ List.mem_map_of_mem hp)
    exact ⟨g, hg, hkey.trans (key_reviewRow ..), hval⟩
  have hids : (keys ((ps.map trialKey).map fun row => (row.reviewId, row))).Nodup := by
    rw [keys, List.map_map, ← hkeys]
    exact hnd
  have hdecide : ∀ p ∈ ps, decideRow repr ((ps.map trialKey).map fun row => (row.reviewId, row))
      { trialRow p with
        verdict := some (rowVerdict (given (trialRow p).key).1 (trialRow p))
        reason := (given (trialRow p).key).2 } = .ok (decisionRow p) := by
    intro p hp
    obtain ⟨g, -, -, hval⟩ := hgroup p hp
    have hne : (given (trialRow p).key).2 ≠ "" := by
      rw [hval]
      exact hreason g
    have hget : get ((ps.map trialKey).map fun row => (row.reviewId, row)) (some (reviewIdOf p.2))
        = some (trialKey p) :=
      get_of_mem hids (List.mem_map_of_mem (List.mem_map_of_mem hp))
    exact decideRow_eq_ok.mpr ⟨_, trialKey p, rfl, hne, hget, rfl⟩
  let audit : ReviewAudit := {
    reviewedTrials := (ps.map decisionRow).length
    reuseDecisions := (ps.map decisionRow).countP fun d => d.decision = .reuse
    repairDecisions := (ps.map decisionRow).countP fun d => d.decision = .repair
    abstentions := (ps.map decisionRow).countP fun d => d.decision = .abstain
    rows := ps.map decisionRow }
  refine ⟨_, counts, audit, happly, unblind_eq_ok.mpr ⟨hnd, ?_, ?_, rfl⟩, ?_⟩
  · rw [hkeys, hrows]
    refine Except.mapM_eq_ok_iff.mpr ?_
    rw [List.forall₂_map_left_iff, List.forall₂_map_left_iff, List.forall₂_map_right_iff,
      List.forall₂_same]
    exact hdecide
  · rw [hkeys, hrows, List.length_map, List.length_map, List.length_map]
  · refine forall₂_zipIdx _ _ ?_
    intro p hp
    obtain ⟨g, hg, hkey, hval⟩ := hgroup p hp
    obtain ⟨hA, hB⟩ := answers_compactRow hg
    refine ⟨rfl, rfl, g, hg, hkey, ?_⟩
    have hfollows := @follows_row (h.referenceIsA p.1.trialId) g p.1 p.2 hkey hA hB (verdictOf g)
    change Follows _ g _ p.1 (unblindDecision (rowVerdict (given (trialRow p).key).1 _) _)
    rw [hval]
    exact hfollows

/-- Hashes that keep the order of the trials and show the reference first, but in one trial. -/
def sampleHashes : Hashes where
  trial := fun _ => 0
  referenceIsA := fun trialId => trialId != "again"
  review := fun _ => "hash"

/-- A trial whose answers are the same; its reference was not stable. -/
def equalTrial : AbstainedTrial where
  trialId := "t"
  blockIndex := 3
  question := "q"
  expectedAnswer := "e"
  reference := "x"
  intervention := "x"
  stability := some "y"

/-- The same two answers in three trials: as they are, with the roles exchanged, and shown in the other order. -/
def pairTrials : List AbstainedTrial :=
  [{ equalTrial with trialId := "first", intervention := "y" },
    { equalTrial with trialId := "exchanged", reference := "y" },
    { equalTrial with trialId := "again", intervention := "y" },
    equalTrial]

/-- **A verdict for the larger answer** is for reuse where the intervention gave it, and for repair where the reference
did, whichever was shown first. -/
theorem pairTrials_decisions :
    ∃ applied counts audit,
      applyCompactReview sampleHashes (prepareReview sampleHashes pairTrials).1
          ((prepareCompactReview sampleHashes (prepareReview sampleHashes pairTrials).1).fill
            (fun _ => .answerBBetter) fun _ => "clearer") = .ok (applied, counts) ∧
      unblind (fun _ => "") applied (prepareReview sampleHashes pairTrials).2 = .ok audit ∧
      audit.rows.map DecisionRow.decision = [.reuse, .repair, .reuse, .reuse] := by
  obtain ⟨applied, counts, audit, happly, hunblind, hrows⟩ := compact_review_decisions sampleHashes
    (fun _ => "") pairTrials (fun _ => .answerBBetter) (fun _ => "clearer") (fun _ => by decide)
  refine ⟨applied, counts, audit, happly, hunblind, ?_⟩
  have hordered : orderedTrials sampleHashes pairTrials = pairTrials :=
    List.mergeSort_of_pairwise (by decide +kernel)
  have hwins : ∀ g ∈ (prepareCompactReview sampleHashes (prepareReview sampleHashes pairTrials).1).rows,
      ∀ t : AbstainedTrial, g.key = t.key → g.winningText .answerBBetter = some (max t.reference t.intervention) := by
    intro g hg t hkey
    rw [CompactRow.winningText, (answers_compactRow hg).2, hkey]
    rfl
  rw [hordered] at hrows
  obtain ⟨first, ds, ⟨-, -, g, hg, hkey, hfirst⟩, hds, heq⟩ := List.forall₂_cons_left_iff.mp hrows
  obtain ⟨exchanged, es, ⟨-, -, g', hg', hkey', hexchanged⟩, hes, rfl⟩ := List.forall₂_cons_left_iff.mp hds
  obtain ⟨again, fs, ⟨-, -, g'', hg'', hkey'', hagain⟩, hfs, rfl⟩ := List.forall₂_cons_left_iff.mp hes
  obtain ⟨equal, rest, ⟨-, -, _, -, -, hequal⟩, hnil, rfl⟩ := List.forall₂_cons_left_iff.mp hfs
  obtain rfl := List.forall₂_nil_left_iff.mp hnil
  have hne : "x" ≠ "y" := by decide
  rw [heq, List.map_cons, List.map_cons, List.map_cons, List.map_singleton,
    hfirst.intervention hne (hwins g hg _ hkey), hexchanged.reference hne.symm (hwins g' hg' _ hkey'),
    hagain.intervention hne (hwins g'' hg'' _ hkey''), hequal.equal rfl rfl]
  decide

/-- **Equal answers** cannot be both the winning text and the losing one. -/
theorem equal_answers_not_decided : ¬ ∀ (h : Hashes) (repr : Option String → String)
    (trials : List AbstainedTrial) (verdictOf : CompactRow → Verdict) (reasonOf : CompactRow → String),
    (∀ g, reasonOf g ≠ "") → ∀ applied counts audit,
      applyCompactReview h (prepareReview h trials).1
          ((prepareCompactReview h (prepareReview h trials).1).fill verdictOf reasonOf)
        = .ok (applied, counts) →
      unblind repr applied (prepareReview h trials).2 = .ok audit →
      List.Forall₂ (fun (t : AbstainedTrial) (d : DecisionRow) =>
        ∃ g ∈ (prepareCompactReview h (prepareReview h trials).1).rows, g.key = t.key ∧
          (verdictOf g = .equivalent ∨ g.winningText (verdictOf g) = some t.intervention →
            d.decision = .reuse) ∧
          (g.winningText (verdictOf g) = some t.reference → d.decision = .repair) ∧
          (verdictOf g = .unclear → d.decision = .abstain)) (orderedTrials h trials) audit.rows := by
  intro hall
  have hreview : prepareReview sampleHashes [equalTrial]
      = ([reviewRow true equalTrial 1], [keyRow true equalTrial 1]) := by
    rw [prepareReview, orderedTrials, List.mergeSort_singleton]
    rfl
  have h := hall sampleHashes (fun _ => "") [equalTrial] (fun _ => .answerABetter) (fun _ => "clearer")
    (fun _ => by decide)
  rw [hreview, orderedTrials, List.mergeSort_singleton] at h
  cases happly : applyCompactReview sampleHashes [reviewRow true equalTrial 1]
      ((prepareCompactReview sampleHashes [reviewRow true equalTrial 1]).fill
        (fun _ => .answerABetter) fun _ => "clearer") with
  | error e =>
      have hok : (applyCompactReview sampleHashes [reviewRow true equalTrial 1]
        ((prepareCompactReview sampleHashes [reviewRow true equalTrial 1]).fill
          (fun _ => .answerABetter) fun _ => "clearer")).isOk = true := by decide +kernel
      rw [happly] at hok
      cases hok
  | ok p =>
      have hp : (applyCompactReview sampleHashes [reviewRow true equalTrial 1]
          ((prepareCompactReview sampleHashes [reviewRow true equalTrial 1]).fill
            (fun _ => .answerABetter) fun _ => "clearer")).toOption.map Prod.fst
          = some [{ reviewRow true equalTrial 1 with
              verdict := some .answerABetter, reason := "clearer" }] := by decide +kernel
      rw [happly] at hp
      obtain ⟨applied, counts⟩ := p
      obtain rfl := Option.some.inj hp
      obtain ⟨d, ds, ⟨g, hg, hkey, hreuse, hrepair, -⟩, -, -⟩ := List.forall₂_cons_left_iff.mp
        (h _ counts _ happly rfl)
      have hwin : g.winningText .answerABetter = some "x" := by
        rw [CompactRow.winningText, (answers_compactRow hg).1, hkey]
        decide +kernel
      have := (hreuse (Or.inr hwin)).symm.trans (hrepair hwin)
      cases this

end CacheSelect.Benchmarks
