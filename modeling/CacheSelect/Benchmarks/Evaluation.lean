import CacheSelect.Benchmarks.ReferenceQuality
import CacheSelect.Lib.Except
import Mathlib.Data.List.Infix

/-! # Scoring a response

`scoreResponse` scores the text of a response by the quality policy of its request: the facts it has to contain,
or its likeness to a reference answer.  `scoreResponse_ok` says for which policies and texts there is a score.
-/

namespace CacheSelect.Benchmarks

/-! ### The policy -/

/-- One fact that must be present in a model response. -/
structure AnswerRequirement where
  requirementId : List Nat
  acceptedPhrases : List (List Nat)

/-- Calibrated limits; `__post_init__` lets no others in. -/
structure ReferenceSimilarityGate where
  minimumTokenRecall : Rat
  minimumRougeLF1 : Rat
  maximumMetricDrop : Rat
  calibrationId : List Nat
  inUnit : ∀ q ∈ [minimumTokenRecall, minimumRougeLF1, maximumMetricDrop], 0 ≤ q ∧ q ≤ 1
  calibrationId_ne : calibrationId ≠ []

/-- The answer key, which is not sent. -/
structure RequestGroundTruth where
  expectedAnswer : List Nat
  requirements : List AnswerRequirement
  notes : List Nat := []
  referenceSimilarityGate : Option ReferenceSimilarityGate := none

/-! ### `asdict` -/

def AnswerRequirement.asdict (r : AnswerRequirement) : Json :=
  Json.object [("requirement_id", .str r.requirementId),
    ("accepted_phrases", .arr (r.acceptedPhrases.map .str))]

def ReferenceSimilarityGate.asdict (g : ReferenceSimilarityGate) : Json :=
  Json.object [("minimum_token_recall", .num g.minimumTokenRecall),
    ("minimum_rouge_l_f1", .num g.minimumRougeLF1),
    ("maximum_metric_drop", .num g.maximumMetricDrop),
    ("calibration_id", .str g.calibrationId)]

def RequestGroundTruth.asdict (g : RequestGroundTruth) : Json :=
  Json.object [("expected_answer", .str g.expectedAnswer),
    ("requirements", .arr (g.requirements.map AnswerRequirement.asdict)),
    ("notes", .str g.notes),
    ("reference_similarity_gate", match g.referenceSimilarityGate with
      | none => .null
      | some gate => gate.asdict)]

/-! ### The score -/

/-- `_normalise`: the words of the text in lower case, with one blank between two. -/
def normalise (t : TextTables) (text : List Nat) : List Nat :=
  List.intercalate [32] (splitWords t (t.casefold text))

/-- The first accepted phrase that is in the text. -/
def matchedPhrase (t : TextTables) (normalised : List Nat) (r : AnswerRequirement) : Option (List Nat) :=
  r.acceptedPhrases.find? fun phrase => decide (normalise t phrase <:+: normalised)

def referenceResult (gate : ReferenceSimilarityGate) (metrics : ReferenceScore) : Json :=
  Json.object [("mode", .str (Json.text "reference_similarity")),
    ("passed", .bool (gate.minimumTokenRecall ≤ metrics.tokenRecall ∧
      gate.minimumRougeLF1 ≤ metrics.rougeLF1)),
    ("score", .num (min metrics.tokenRecall metrics.rougeLF1)),
    ("metrics", Json.object [("token_recall", .num metrics.tokenRecall),
      ("rouge_l_f1", .num metrics.rougeLF1)]),
    ("thresholds", Json.object [("minimum_token_recall", .num gate.minimumTokenRecall),
      ("minimum_rouge_l_f1", .num gate.minimumRougeLF1),
      ("maximum_metric_drop", .num gate.maximumMetricDrop)]),
    ("calibration_id", .str gate.calibrationId),
    ("requirements_passed", .num 0), ("requirements_total", .num 0), ("requirements", .arr [])]

def requirementResult (t : TextTables) (normalised : List Nat) (r : AnswerRequirement) : Json :=
  Json.object [("requirement_id", .str r.requirementId),
    ("passed", .bool (matchedPhrase t normalised r).isSome),
    ("matched_phrase", match matchedPhrase t normalised r with
      | none => .null
      | some phrase => .str phrase)]

def requirementsResult (t : TextTables) (normalised : List Nat) (requirements : List AnswerRequirement) :
    Json :=
  let passedCount := requirements.countP fun r => (matchedPhrase t normalised r).isSome
  let total := requirements.length
  Json.object [("mode", .str (Json.text "requirements")),
    ("passed", .bool (passedCount = total)),
    ("requirements_passed", .num passedCount), ("requirements_total", .num total),
    ("score", .num ((passedCount : Rat) / total)),
    ("requirements", .arr (requirements.map (requirementResult t normalised)))]

/-- Score a response with the quality policy of its request. -/
def scoreResponse (t : TextTables) (responseText : Json) (g : RequestGroundTruth) : Except Raised Json :=
  match g.referenceSimilarityGate with
  | some gate =>
      if g.requirements ≠ [] then
        .error (.valueError "ground truth cannot combine requirements and reference gate")
      else (scoreReferenceAnswer t responseText g.expectedAnswer).map (referenceResult gate)
  | none =>
      if g.requirements = [] then .error (.valueError "ground truth has no configured quality gate")
      else (textOrEmpty responseText).map fun text =>
        requirementsResult t (normalise t text) g.requirements

/-! ### When there is a score -/

/-- The policy can score something: it has facts, or a gate and a reference with words. -/
def RequestGroundTruth.HasScore (t : TextTables) (g : RequestGroundTruth) : Prop :=
  match g.referenceSimilarityGate with
  | some _ => g.requirements = [] ∧ normalizedAnswerTokens t g.expectedAnswer ≠ []
  | none => g.requirements ≠ []

theorem scoreResponse_ok {t : TextTables} {responseText : Json} {g : RequestGroundTruth} :
    (∃ quality, scoreResponse t responseText g = .ok quality) ↔ g.HasScore t ∧ IsAnswer responseText := by
  rw [scoreResponse, RequestGroundTruth.HasScore]
  cases g.referenceSimilarityGate with
  | some gate =>
      dsimp only
      by_cases hreq : g.requirements = []
      · rw [if_neg (not_not.mpr hreq), and_iff_right hreq, ← scoreReferenceAnswer_ok]
        simp only [Except.map_eq_ok]
        exact ⟨fun ⟨_, score, h, _⟩ => ⟨score, h⟩, fun ⟨score, h⟩ => ⟨_, score, h, rfl⟩⟩
      · rw [if_pos hreq]
        exact ⟨fun ⟨_, h⟩ => (nomatch h), fun h => absurd h.1.1 hreq⟩
  | none =>
      dsimp only
      by_cases hreq : g.requirements = []
      · rw [if_pos hreq]
        exact ⟨fun ⟨_, h⟩ => (nomatch h), fun h => absurd hreq h.1⟩
      · rw [if_neg hreq, and_iff_right hreq, ← textOrEmpty_ok]
        simp only [Except.map_eq_ok]
        exact ⟨fun ⟨_, text, h, _⟩ => ⟨text, h⟩, fun ⟨text, h⟩ => ⟨_, text, h, rfl⟩⟩

/-! ### The score can be written -/

theorem encodable_gate {g : RequestGroundTruth} (hg : g.asdict.encodable = true)
    {gate : ReferenceSimilarityGate} (hgate : g.referenceSimilarityGate = some gate) :
    (Json.str gate.calibrationId).encodable = true := by
  rw [RequestGroundTruth.asdict, Json.encodable_object, hgate] at hg
  have h := hg ("reference_similarity_gate", gate.asdict) (by simp)
  rw [ReferenceSimilarityGate.asdict, Json.encodable_object] at h
  exact h ("calibration_id", .str gate.calibrationId) (by simp)

theorem encodable_requirement {g : RequestGroundTruth} (hg : g.asdict.encodable = true)
    {r : AnswerRequirement} (hr : r ∈ g.requirements) :
    (Json.str r.requirementId).encodable = true ∧
      ∀ phrase ∈ r.acceptedPhrases, (Json.str phrase).encodable = true := by
  rw [RequestGroundTruth.asdict, Json.encodable_object] at hg
  have h := hg ("requirements", .arr (g.requirements.map AnswerRequirement.asdict)) (by simp)
  have hr' := Json.encodable_arr.mp h r.asdict (List.mem_map_of_mem hr)
  rw [AnswerRequirement.asdict, Json.encodable_object] at hr'
  refine ⟨hr' ("requirement_id", .str r.requirementId) (by simp), ?_⟩
  have hphrases := hr' ("accepted_phrases", .arr (r.acceptedPhrases.map .str)) (by simp)
  intro phrase hphrase
  exact Json.encodable_arr.mp hphrases (.str phrase) (List.mem_map_of_mem hphrase)

theorem encodable_referenceResult {gate : ReferenceSimilarityGate}
    (hgate : (Json.str gate.calibrationId).encodable = true) (metrics : ReferenceScore) :
    (referenceResult gate metrics).encodable = true := by
  rw [referenceResult, Json.encodable_object]
  simp [Json.encodable_object, hgate]

theorem encodable_requirementResult (t : TextTables) (normalised : List Nat) {r : AnswerRequirement}
    (hid : (Json.str r.requirementId).encodable = true)
    (hphrases : ∀ phrase ∈ r.acceptedPhrases, (Json.str phrase).encodable = true) :
    (requirementResult t normalised r).encodable = true := by
  have hmatch : (match matchedPhrase t normalised r with
      | none => Json.null
      | some phrase => .str phrase).encodable = true := by
    split
    · rfl
    · next phrase hfound => exact hphrases phrase (List.mem_of_find?_eq_some hfound)
  rw [requirementResult, Json.encodable_object]
  simp [hid, hmatch]

/-- **A score can be written if the answer key can.** -/
theorem encodable_scoreResponse {t : TextTables} {responseText quality : Json} {g : RequestGroundTruth}
    (hg : g.asdict.encodable = true) (h : scoreResponse t responseText g = .ok quality) :
    quality.encodable = true := by
  rw [scoreResponse] at h
  split at h
  · next gate hgate =>
    split at h
    · cases h
    · obtain ⟨metrics, -, rfl⟩ := Except.map_eq_ok.mp h
      exact encodable_referenceResult (encodable_gate hg hgate) metrics
  · split at h
    · cases h
    · obtain ⟨text, -, rfl⟩ := Except.map_eq_ok.mp h
      have hall : (Json.arr (g.requirements.map (requirementResult t (normalise t text)))).encodable
          = true := by
        refine Json.encodable_arr.mpr ?_
        intro x hx
        obtain ⟨r, hr, rfl⟩ := List.mem_map.mp hx
        obtain ⟨hid, hphrases⟩ := encodable_requirement hg hr
        exact encodable_requirementResult t _ hid hphrases
      rw [requirementsResult, Json.encodable_object]
      simp [hall]

end CacheSelect.Benchmarks
