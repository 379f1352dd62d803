import CacheSelect.Lib.Json
import Mathlib.Data.Multiset.UnionInter
import Mathlib.Algebra.Order.Field.Rat

/-! # Scoring an answer against a reference

The normalized words of a text, the share of the reference's words that an answer recovers, and the word-level
ROUGE-L score over a longest common subsequence.  The tables of the Unicode standard behind `casefold`, `isspace`
and the word characters of a pattern are parameters.  The scores are exact fractions.
-/

namespace CacheSelect.Benchmarks

/-- The Unicode tables that the code relies on. -/
structure TextTables where
  casefold : List Nat → List Nat
  isSpace : Nat → Bool
  isWord : Nat → Bool

/-- `string.punctuation`. -/
def punctuation : List Nat :=
  List.range' 33 15 ++ List.range' 58 7 ++ List.range' 91 6 ++ List.range' 123 4

/-- The words of `_ARTICLES`. -/
def articles : List (List Nat) :=
  ["a", "an", "the"].map Json.text

/-- `text.split()`. -/
def splitWords (t : TextTables) (text : List Nat) : List (List Nat) :=
  (text.splitOnP t.isSpace).filter fun word => !word.isEmpty

/-- `_ARTICLES.sub(" ", text)`: a run of word characters that is an article becomes a blank. -/
def subArticles (t : TextTables) (text : List Nat) : List Nat :=
  (text.splitBy fun a b => t.isWord a == t.isWord b).flatMap fun run =>
    if articles.contains run then [32] else run

def normalizedAnswerTokens (t : TextTables) (text : List Nat) : List (List Nat) :=
  splitWords t (subArticles t ((t.casefold text).filter fun c => !punctuation.contains c))

/-- The size of the intersection of two counters. -/
def overlapCount (prediction reference : List (List Nat)) : Nat :=
  ((prediction : Multiset (List Nat)) ∩ reference).card

def referenceTokenRecall (t : TextTables) (prediction reference : List Nat) : Except Raised Rat :=
  let referenceTokens := normalizedAnswerTokens t reference
  if referenceTokens = [] then
    .error (.valueError "reference answer must contain normalized tokens")
  else
    .ok ((overlapCount (normalizedAnswerTokens t prediction) referenceTokens : Rat)
      / referenceTokens.length)

/-- A row of the table of `_longest_common_subsequence_length`: the entries after the first, from the row
before it. -/
def lcsRow (leftToken : List Nat) : List (List Nat) → List Nat → Nat → List Nat
  | rightToken :: right, diagonal :: above :: rest, last =>
      let entry := if leftToken = rightToken then diagonal + 1 else max above last
      entry :: lcsRow leftToken right (above :: rest) entry
  | _, _, _ => []

/-- `_longest_common_subsequence_length`. -/
def longestCommonSubsequenceLength (left right : List (List Nat)) : Nat :=
  let last := left.foldl (fun previous leftToken => 0 :: lcsRow leftToken right previous 0)
    (List.replicate (right.length + 1) 0)
  last.getLastD 0

def referenceRougeLF1 (t : TextTables) (prediction reference : List Nat) : Except Raised Rat :=
  let predictionTokens := normalizedAnswerTokens t prediction
  let referenceTokens := normalizedAnswerTokens t reference
  if referenceTokens = [] then
    .error (.valueError "reference answer must contain normalized tokens")
  else if predictionTokens = [] then .ok 0
  else
    let common := longestCommonSubsequenceLength predictionTokens referenceTokens
    let precision : Rat := common / predictionTokens.length
    let recalled : Rat := common / referenceTokens.length
    .ok (if common = 0 then 0 else 2 * precision * recalled / (precision + recalled))

structure ReferenceScore where
  tokenRecall : Rat
  rougeLF1 : Rat
deriving DecidableEq, Repr

/-- `prediction or ""`, which has to be a text. -/
def textOrEmpty (prediction : Json) : Except Raised (List Nat) :=
  match prediction.orElse (.str []) with
  | .str text => .ok text
  | _ => .error .attributeError

/-- `score_reference_answer`; the reference is read before the prediction. -/
def scoreReferenceAnswer (t : TextTables) (prediction : Json) (reference : List Nat) :
    Except Raised ReferenceScore :=
  if normalizedAnswerTokens t reference = [] then
    .error (.valueError "reference answer must contain normalized tokens")
  else do
    let text ← textOrEmpty prediction
    let tokenRecall ← referenceTokenRecall t text reference
    let rougeLF1 ← referenceRougeLF1 t text reference
    .ok { tokenRecall, rougeLF1 }

/-- An answer that is a text, or nothing. -/
def IsAnswer (prediction : Json) : Prop :=
  prediction.truthy = true → prediction.isStr = true

theorem textOrEmpty_ok {prediction : Json} :
    (∃ text, textOrEmpty prediction = .ok text) ↔ IsAnswer prediction := by
  rw [textOrEmpty, IsAnswer, Json.orElse]
  cases h : prediction.truthy with
  | false => simp
  | true => cases prediction <;> simp [Json.isStr]

theorem referenceTokenRecall_ok {t : TextTables} {reference : List Nat}
    (href : normalizedAnswerTokens t reference ≠ []) (prediction : List Nat) :
    ∃ q, referenceTokenRecall t prediction reference = .ok q :=
  ⟨_, if_neg href⟩

theorem referenceRougeLF1_ok {t : TextTables} {reference : List Nat}
    (href : normalizedAnswerTokens t reference ≠ []) (prediction : List Nat) :
    ∃ q, referenceRougeLF1 t prediction reference = .ok q := by
  by_cases hpred : normalizedAnswerTokens t prediction = []
  · exact ⟨0, (if_neg href).trans (if_pos hpred)⟩
  · exact ⟨_, (if_neg href).trans (if_neg hpred)⟩

/-- **When an answer has a score.** -/
theorem scoreReferenceAnswer_ok {t : TextTables} {prediction : Json} {reference : List Nat} :
    (∃ score, scoreReferenceAnswer t prediction reference = .ok score) ↔
      normalizedAnswerTokens t reference ≠ [] ∧ IsAnswer prediction := by
  rw [scoreReferenceAnswer, ← textOrEmpty_ok]
  by_cases href : normalizedAnswerTokens t reference = []
  · simp [href]
  · rw [if_neg href, and_iff_right href]
    cases htext : textOrEmpty prediction with
    | error e =>
        refine ⟨?_, nofun⟩
        rintro ⟨score, hscore⟩
        cases hscore
    | ok text =>
        obtain ⟨recalled, hrecall⟩ := referenceTokenRecall_ok href text
        obtain ⟨rouge, hrouge⟩ := referenceRougeLF1_ok href text
        refine ⟨fun _ => ⟨text, rfl⟩, fun _ => ⟨{ tokenRecall := recalled, rougeLF1 := rouge }, ?_⟩⟩
        change (referenceTokenRecall t text reference >>= fun _ => _) = _
        rw [hrecall]
        change (referenceRougeLF1 t text reference >>= fun _ => _) = _
        rw [hrouge]
        rfl

end CacheSelect.Benchmarks
