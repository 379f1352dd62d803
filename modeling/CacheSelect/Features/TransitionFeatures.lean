import CacheSelect.Features.ReuseOpportunity

/-! # Transition features

`tokenTransitionFeatures` describes how one prompt became the next: what they share at both ends, at
equal positions, as multisets and as sets of short runs.  Its two loops over the ends are a copy of
the ones of the reuse analysis; `commonPrefixLength_eq` and `commonSuffixLength_eq` say that they count
the same.
-/

namespace CacheSelect.Features

/-! ### The loops over the ends -/

/-- `for left_token, right_token in zip(left, right)`: the count goes up until two tokens differ. -/
def countEqual : List (Nat × Nat) → Nat → Nat
  | [], length => length
  | (leftToken, rightToken) :: rest, length =>
      if leftToken ≠ rightToken then length else countEqual rest (length + 1)

/-- `while length < available and left[-1 - length] == right[-1 - length]`, where `remaining` more
tokens are available. -/
def countEqualFromEnd (left right : List Nat) : Nat → Nat → Nat
  | 0, length => length
  | remaining + 1, length =>
      if left[left.length - 1 - length]? = right[right.length - 1 - length]? then
        countEqualFromEnd left right remaining (length + 1)
      else length

theorem countEqual_eq : ∀ (left right : List Nat) (length : Nat),
    countEqual (left.zip right) length = commonPrefixLength left right + length := by
  intro left
  induction left with
  | nil =>
      intro right length
      rw [List.zip_nil_left, countEqual, commonPrefixLength, Nat.zero_add]
      intro _ _ _ _ h
      cases h
  | cons l left ih =>
      intro right length
      cases right with
      | nil =>
          rw [List.zip_nil_right, countEqual, commonPrefixLength, Nat.zero_add]
          intro _ _ _ _ _ h
          cases h
      | cons r right =>
          rw [List.zip_cons_cons, countEqual, commonPrefixLength]
          by_cases h : l ≠ r
          · rw [if_pos h, if_pos h, Nat.zero_add]
          · rw [if_neg h, if_neg h, ih right (length + 1)]
            omega

/-- A token counted from the end. -/
theorem getElem?_fromEnd {l : List Nat} {i : Nat} (h : i < l.length) :
    l[l.length - 1 - i]? = l.reverse[i]? := by
  rw [List.getElem?_reverse h]

/-- The walk from the end counts the equal tokens of the reversed lists. -/
theorem countEqualFromEnd_eq {left right : List Nat} : ∀ (remaining length : Nat),
    length + remaining ≤ left.length → length + remaining ≤ right.length →
    countEqualFromEnd left right remaining length
      = commonPrefixLength ((left.reverse.drop length).take remaining)
          ((right.reverse.drop length).take remaining) + length := by
  intro remaining
  induction remaining with
  | zero =>
      intro length _ _
      rw [List.take_zero, List.take_zero, countEqualFromEnd, commonPrefixLength, Nat.zero_add]
      intro _ _ _ _ h
      cases h
  | succ remaining ih =>
      intro length hl hr
      have hl' : length < left.reverse.length := by
        rw [List.length_reverse]
        omega
      have hr' : length < right.reverse.length := by
        rw [List.length_reverse]
        omega
      rw [countEqualFromEnd, getElem?_fromEnd (by omega), getElem?_fromEnd (by omega),
        List.getElem?_eq_getElem hl', List.getElem?_eq_getElem hr', List.drop_eq_getElem_cons hl',
        List.drop_eq_getElem_cons hr', List.take_succ_cons, List.take_succ_cons, commonPrefixLength]
      by_cases h : left.reverse[length] = right.reverse[length]
      · rw [if_pos (congrArg some h), if_neg (not_not.mpr h), ih (length + 1) (by omega) (by omega)]
        omega
      · rw [if_neg fun hsome => h (Option.some.inj hsome), if_pos h, Nat.zero_add]

/-! ### The features -/

namespace TransitionFeatures

/-- `_common_prefix_length`. -/
def commonPrefixLength (left right : List Nat) : Nat :=
  countEqual (left.zip right) 0

/-- `_common_suffix_length`. -/
def commonSuffixLength (left right : List Nat) (prefixLength : Nat) : Nat :=
  countEqualFromEnd left right (min left.length right.length - prefixLength) 0

/-- `_multiset_overlap`. -/
def multisetOverlap (left right : List Nat) : Nat :=
  (left.bagInter right).length

/-- `_ngram_set`, with its elements listed once. -/
def ngramSet (tokens : List Nat) (width : Nat) : List (List Nat) :=
  if tokens.length < width then
    if tokens = [] then [] else [tokens]
  else
    ((List.range (tokens.length - width + 1)).map fun index => (tokens.drop index).take width).dedup

/-- **The loop forward** counts like the one of the reuse analysis. -/
theorem commonPrefixLength_eq (left right : List Nat) :
    commonPrefixLength left right = Features.commonPrefixLength left right :=
  countEqual_eq left right 0

/-- **The loop backward** counts like the one of the reuse analysis. -/
theorem commonSuffixLength_eq (left right : List Nat) (prefixLength : Nat) :
    commonSuffixLength left right prefixLength = Features.commonSuffixLength left right prefixLength := by
  rw [commonSuffixLength, countEqualFromEnd_eq _ _ (by omega) (by omega), List.drop_zero, List.drop_zero]
  rfl

end TransitionFeatures

structure TransitionFeatures where
  previousTokenCount : Nat
  currentTokenCount : Nat
  tokenCountDelta : Int
  exactMatch : Bool
  previousIsExactPrefix : Bool
  commonPrefixTokens : Nat
  commonPrefixRatio : Rat
  commonSuffixTokens : Nat
  commonSuffixRatio : Rat
  samePositionRatio : Rat
  tokenMultisetOverlapRatio : Rat
  fourGramJaccard : Rat
  firstChangedToken : Option Nat
deriving DecidableEq, Repr

def tokenTransitionFeatures (previousTokens currentTokens : List Nat) (ngramWidth : Nat := 4) :
    TransitionFeatures :=
  let minimumLength := min previousTokens.length currentTokens.length
  let maximumLength := max (max previousTokens.length currentTokens.length) 1
  let prefixLength := TransitionFeatures.commonPrefixLength previousTokens currentTokens
  let suffixLength := TransitionFeatures.commonSuffixLength previousTokens currentTokens prefixLength
  let samePosition := (previousTokens.zip currentTokens).countP fun (left, right) => left = right
  let overlap := TransitionFeatures.multisetOverlap previousTokens currentTokens
  let previousNgrams := TransitionFeatures.ngramSet previousTokens ngramWidth
  let currentNgrams := TransitionFeatures.ngramSet currentTokens ngramWidth
  let ngramUnion := (previousNgrams ++ currentNgrams).dedup
  let ngramIntersection := previousNgrams.filter fun ngram => currentNgrams.contains ngram
  { previousTokenCount := previousTokens.length
    currentTokenCount := currentTokens.length
    tokenCountDelta := (currentTokens.length : Int) - previousTokens.length
    exactMatch := previousTokens = currentTokens
    previousIsExactPrefix :=
      previousTokens.length ≤ currentTokens.length && prefixLength = previousTokens.length
    commonPrefixTokens := prefixLength
    commonPrefixRatio := (prefixLength : Rat) / (maximumLength : Rat)
    commonSuffixTokens := suffixLength
    commonSuffixRatio := (suffixLength : Rat) / (maximumLength : Rat)
    samePositionRatio := (samePosition : Rat) / (maximumLength : Rat)
    tokenMultisetOverlapRatio := (overlap : Rat) / (maximumLength : Rat)
    fourGramJaccard :=
      if ngramUnion = [] then 1 else (ngramIntersection.length : Rat) / (ngramUnion.length : Rat)
    firstChangedToken := if prefixLength < minimumLength then some prefixLength else none }

end CacheSelect.Features
