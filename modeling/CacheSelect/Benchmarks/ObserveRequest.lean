import CacheSelect.Benchmarks.Evaluation
import CacheSelect.Observability.RequestRecorder
import Mathlib.Data.List.Lex

/-! # Sending a recorded request

`_observe_request` starts a request in the ledger, sends it, checks the response, builds an observation from it and
completes the request.  Only the sending and the checks are inside the `try` whose handler fails the request:
what raises after them leaves the request without an end.

`observeRequest_ends` says for which responses and requests the ledger gets its terminal event, and that a
completion that cannot be written uses the handle up.
-/

namespace CacheSelect.Benchmarks

open Observability

/-! ### Requests -/

/-- One logical part of a request. -/
structure PromptSegment where
  segmentId : List Nat
  role : List Nat
  kind : List Nat
  version : Int
  content : List Nat

def PromptSegment.asdict (s : PromptSegment) : Json :=
  Json.object [("segment_id", .str s.segmentId), ("role", .str s.role), ("kind", .str s.kind),
    ("version", .num s.version), ("content", .str s.content)]

structure RequestSpec where
  requestId : List Nat
  workload : List Nat
  sequenceIndex : Int
  messages : Json
  segments : List PromptSegment
  groundTruth : RequestGroundTruth
  extraBody : List (List Nat × Json) := []

/-- The payload of a request. -/
def RequestSpec.apiPayload (r : RequestSpec) (model : List Nat) (maxCompletionTokens : Int) :
    List (List Nat × Json) :=
  Json.merge ([("model", Json.str model), ("messages", r.messages), ("request_id", .str r.requestId),
    ("temperature", .num 0), ("seed", .num 0), ("max_completion_tokens", .num maxCompletionTokens),
    ("stream", .bool false), ("return_token_ids", .bool true), ("return_prompt_text", .bool true)].map
      fun f => (Json.text f.1, f.2)) r.extraBody

/-- The arguments of `_observe_request`, without the API key and the timeout. -/
structure ObserveArgs where
  request : RequestSpec
  url : List Nat
  model : List Nat
  maxCompletionTokens : Int
  recorded : Bool := true
  policyMetadata : List (List Nat × Json) := []
  expectedPromptTokenIds : Option (List Int) := none
  requireCacheselectMetrics : Bool := false
  vllmXargs : List (List Nat × Json) := []
  cacheSalt : Option (List Nat) := none

/-- What a call meets: the answer of the server, the file system, the id that the recorder makes up, the
measured time, and the tables and `str` of the language. -/
structure World where
  tables : TextTables
  toStr : Json → List Nat
  reply : Except Raised Json
  disk : Disk
  requestId : String
  wallSeconds : Rat

/-- The payload that is sent. -/
def payloadOf (a : ObserveArgs) : Except Raised (List (List Nat × Json)) :=
  let payload := a.request.apiPayload a.model a.maxCompletionTokens
  let payload := match a.cacheSalt with
    | none => payload
    | some salt => Json.insert payload (Json.text "cache_salt") (.str salt)
  if a.vllmXargs = [] then .ok payload
  else
    match (Json.lookup payload "vllm_xargs").orElse (.obj []) with
    | .obj xargs => .ok (Json.insert payload (Json.text "vllm_xargs") (.obj (Json.merge xargs a.vllmXargs)))
    | _ => .error .typeError

/-! ### Reading the response -/

/-- `_output_text`. -/
def outputText (response : List (List Nat × Json)) : Except Raised Json :=
  let choices := (Json.lookup response "choices").orElse (.arr [])
  if choices.truthy then do
    let choice ← choices.first
    let message ← choice.get "message"
    (message.orElse (.obj [])).get "content"
  else .ok .null

/-- The finish reason of the first choice. -/
def finishReason (response : List (List Nat × Json)) : Except Raised Json :=
  let choices := (Json.lookup response "choices").orElse (.arr [])
  if choices.truthy then do
    let choice ← choices.first
    choice.get "finish_reason"
  else .ok .null

/-- `_cached_tokens`. -/
def cachedTokens (response : List (List Nat × Json)) : Except Raised Json := do
  let details ← ((Json.lookup response "usage").orElse (.obj [])).get "prompt_tokens_details"
  (details.orElse (.obj [])).get "cached_tokens"

def isNull : Json → Bool
  | .null => true
  | _ => false

/-- The names of the fields that are missing, as a list is printed. -/
def missingNames (required : List (String × Json)) : List String :=
  (required.filter fun f => isNull f.2).map Prod.fst

def printed (names : List String) : String :=
  "[" ++ ", ".intercalate (names.map fun name => s!"'{name}'") ++ "]"

/-- `_validate_observability`. -/
def validateObservability (response : Json) (requireCacheselectMetrics : Bool) : Except Raised Unit := do
  let promptText ← response.get "prompt_text"
  let promptTokenIds ← response.get "prompt_token_ids"
  let metrics ← response.get "metrics"
  let usage ← response.get "usage"
  let details ← (usage.orElse (.obj [])).get "prompt_tokens_details"
  let missing := missingNames [("prompt_text", promptText), ("prompt_token_ids", promptTokenIds),
    ("metrics", metrics), ("usage.prompt_tokens_details", details)]
  if missing ≠ [] then
    .error (.runtimeError ("vLLM omitted required observation fields " ++ printed missing ++
      ". Use this repository's vLLM checkout and start it with " ++
      "--enable-prompt-tokens-details and --enable-per-request-metrics."))
  else if requireCacheselectMetrics then do
    let policy ← metrics.get "cacheselect_policy"
    let reason ← metrics.get "cacheselect_reason"
    let native ← metrics.get "cacheselect_native_cached_tokens"
    let missing := missingNames [("cacheselect_policy", policy), ("cacheselect_reason", reason),
      ("cacheselect_native_cached_tokens", native)]
    if missing ≠ [] then
      .error (.runtimeError ("vLLM omitted required CacheSelect metrics " ++ printed missing ++
        ". Start this repository's vLLM checkout with --enable-cacheselect."))
    else .ok ()
  else .ok ()

/-- The body of the `try`: the response, sent for and checked. -/
def checkedResponse (w : World) (a : ObserveArgs) : Except Raised (List (List Nat × Json)) := do
  let response ← w.reply
  validateObservability response a.requireCacheselectMetrics
  match response with
  | .obj fields =>
      match a.expectedPromptTokenIds with
      | none => .ok fields
      | some expected =>
          if (Json.lookup fields "prompt_token_ids").eqInts expected then .ok fields
          else .error (.runtimeError ("Planner tokenization does not match vLLM's rendered prompt. " ++
            "Use the same tokenizer and chat template as the serving model."))
  | _ => .error .attributeError

/-! ### The observation -/

/-- `len(x)`. -/
def len (x : Json) : Except Raised Nat :=
  x.elements.map List.length

/-- `_content_text`. -/
def contentText (w : World) (content : Json) : List Nat :=
  match content with
  | .str s => s
  | .null => []
  | content => match content.elements with
      | .ok parts => parts.flatMap w.toStr
      | .error _ => w.toStr content

structure RequestStructure where
  fieldNames : List (List Nat)
  messageCount : Nat
  messageRoles : List Json
  messageContentLengths : List Nat
  documentCount : Nat
  toolCount : Nat
  hasStructuredOutput : Bool
  hasChatTemplateKwargs : Bool
  priority : Json

/-- The value of a key, with a default. -/
def getWithDefault (fields : List (List Nat × Json)) (key : String) (default : Json) : Json :=
  match fields.find? fun f => f.1 == Json.text key with
  | none => default
  | some f => f.2

def sortedTexts (texts : List (List Nat)) : List (List Nat) :=
  texts.mergeSort fun x y => decide (x ≤ y)

def summarizeApiRequest (w : World) (payload : List (List Nat × Json)) :
    Except Raised RequestStructure := do
  let messages ← (getWithDefault payload "messages" (.arr [])).elements
  let messageRoles ← messages.mapM fun message => message.get "role"
  let contents ← messages.mapM fun message => message.get "content"
  let documentCount ← len ((Json.lookup payload "documents").orElse (.arr []))
  let toolCount ← len ((Json.lookup payload "tools").orElse (.arr []))
  .ok {
    fieldNames := sortedTexts (payload.map Prod.fst)
    messageCount := messages.length
    messageRoles := messageRoles
    messageContentLengths := contents.map fun content => (contentText w content).length
    documentCount := documentCount
    toolCount := toolCount
    hasStructuredOutput := ((Json.lookup payload "response_format").orElse
      (Json.lookup payload "structured_outputs")).truthy
    hasChatTemplateKwargs := (Json.lookup payload "chat_template_kwargs").truthy
    priority := getWithDefault payload "priority" (.num 0) }

structure Observation where
  requestId : List Nat
  sequenceIndex : Int
  requestPayload : List (List Nat × Json)
  requestStructure : RequestStructure
  renderedPrompt : Json
  promptTokenIds : Json
  promptTokenCount : Json
  cachedTokens : Json
  clientWallSeconds : Rat
  serverMetrics : Json
  usage : Json
  outputText : Json
  finishReason : Json
  quality : Json
  policyMetadata : List (List Nat × Json)
  runtimePolicy : Option Json
  responseFieldNames : List (List Nat)
  rawResponse : List (List Nat × Json)

/-- The policy that the server reports. -/
def runtimePolicy (serverMetrics : List (List Nat × Json)) : Option Json :=
  if isNull (Json.lookup serverMetrics "cacheselect_policy") then none
  else
    let policy := [("policy", Json.lookup serverMetrics "cacheselect_policy"),
      ("reason", Json.lookup serverMetrics "cacheselect_reason"),
      ("native_cached_tokens", Json.lookup serverMetrics "cacheselect_native_cached_tokens")]
    let plan := Json.lookup serverMetrics "cacheselect_partial_reuse_plan"
    some (Json.object (if isNull plan then policy else policy ++ [("partial_reuse_plan", plan)]))

/-- The fields of an object. -/
def fieldsOf : Json → Except Raised (List (List Nat × Json))
  | .obj fields => .ok fields
  | _ => .error .attributeError

/-- What is made of a checked response, outside the `try`. -/
def observationOf (w : World) (a : ObserveArgs) (payload response : List (List Nat × Json)) :
    Except Raised Observation := do
  let text ← outputText response
  let finishReason ← finishReason response
  let quality ← scoreResponse w.tables text a.request.groundTruth
  let serverMetrics ← fieldsOf ((Json.lookup response "metrics").orElse (.obj []))
  let requestStructure ← summarizeApiRequest w payload
  let promptTokenCount ← ((Json.lookup response "usage").orElse (.obj [])).get "prompt_tokens"
  let cachedTokens ← cachedTokens response
  .ok {
    requestId := a.request.requestId
    sequenceIndex := a.request.sequenceIndex
    requestPayload := payload
    requestStructure := requestStructure
    renderedPrompt := Json.lookup response "prompt_text"
    promptTokenIds := Json.lookup response "prompt_token_ids"
    promptTokenCount := promptTokenCount
    cachedTokens := cachedTokens
    clientWallSeconds := w.wallSeconds
    serverMetrics := Json.lookup response "metrics"
    usage := Json.lookup response "usage"
    outputText := text
    finishReason := finishReason
    quality := quality
    policyMetadata := a.policyMetadata
    runtimePolicy := runtimePolicy serverMetrics
    responseFieldNames := sortedTexts (response.map Prod.fst)
    rawResponse := response }

/-! ### `_observe_request` -/

def modelInputOf (a : ObserveArgs) (payload : List (List Nat × Json)) : Json :=
  Json.object [("api", .str (Json.text "OpenAI Chat Completions")), ("endpoint", .str a.url),
    ("payload", .obj payload)]

def samplingOf (payload : List (List Nat × Json)) : Json :=
  Json.object [("temperature", Json.lookup payload "temperature"), ("seed", Json.lookup payload "seed"),
    ("max_completion_tokens", Json.lookup payload "max_completion_tokens"),
    ("stream", Json.lookup payload "stream")]

def startMetadata (a : ObserveArgs) : Json :=
  .obj (Json.merge ([("benchmark_request_id", Json.str a.request.requestId),
    ("workload", .str a.request.workload), ("sequence_index", .num a.request.sequenceIndex)].map
      fun f => (Json.text f.1, f.2)) a.policyMetadata)

def evaluationOf (a : ObserveArgs) : Json :=
  Json.object [("prompt_segments", .arr (a.request.segments.map PromptSegment.asdict)),
    ("ground_truth", a.request.groundTruth.asdict)]

def failMetadata (w : World) (a : ObserveArgs) : Json :=
  Json.object [("benchmark_request_id", .str a.request.requestId),
    ("client_wall_seconds", .num w.wallSeconds)]

def outputOf (o : Observation) : Json :=
  Json.object [("text", o.outputText), ("raw_response", .obj o.rawResponse)]

def metricsOf (o : Observation) : Json :=
  Json.object [("client_wall_seconds", .num o.clientWallSeconds), ("cached_tokens", o.cachedTokens),
    ("prompt_token_count", o.promptTokenCount), ("server_metrics", o.serverMetrics),
    ("usage", o.usage), ("quality", o.quality)]

def completeMetadata (a : ObserveArgs) : Json :=
  Json.object [("benchmark_request_id", .str a.request.requestId)]

/-- The request after its start. -/
def observeStarted (w : World) (a : ObserveArgs) (payload : List (List Nat × Json))
    (pending : Option PendingRequest) (ledger : List LedgerEvent) :
    Except Raised Observation × List LedgerEvent :=
  match checkedResponse w a with
  | .error e =>
      match pending with
      | none => (.error e, ledger)
      | some p =>
          match p.fail w.disk ledger e (failMetadata w a) with
          | (.error e', _, ledger) => (.error e', ledger)
          | (.ok (), _, ledger) => (.error e, ledger)
  | .ok response =>
      match observationOf w a payload response with
      | .error e => (.error e, ledger)
      | .ok o =>
          match pending with
          | none => (.ok o, ledger)
          | some p =>
              match p.complete w.disk ledger (outputOf o) (metricsOf o) (completeMetadata a) with
              | (.error e, _, ledger) => (.error e, ledger)
              | (.ok (), _, ledger) => (.ok o, ledger)

def observeRequest (w : World) (a : ObserveArgs) (ledger : List LedgerEvent) :
    Except Raised Observation × List LedgerEvent :=
  match payloadOf a with
  | .error e => (.error e, ledger)
  | .ok payload =>
      if a.recorded then
        match start w.disk ledger w.requestId (modelInputOf a payload) (samplingOf payload)
          (startMetadata a) (evaluationOf a) with
        | (.error e, ledger) => (.error e, ledger)
        | (.ok pending, ledger) => observeStarted w a payload (some pending) ledger
      else observeStarted w a payload none ledger

/-! ### Responses that can be read -/

/-- There is no choice, or the first one has a message that is an object or nothing. -/
def HasChoice (response : List (List Nat × Json)) : Prop :=
  (Json.lookup response "choices").truthy = true →
    ∃ choice rest, Json.lookup response "choices" = .arr (.obj choice :: rest) ∧
      ((Json.lookup choice "message").orElse (.obj [])).isObj = true

/-- The content of the first choice. -/
def contentOf (response : List (List Nat × Json)) : Json :=
  match Json.lookup response "choices" with
  | .arr (.obj choice :: _) => match (Json.lookup choice "message").orElse (.obj []) with
      | .obj message => Json.lookup message "content"
      | _ => .null
  | _ => .null

theorem exists_bind_ok {α β : Type} {x : Except Raised α} {f : α → Except Raised β} :
    (∃ b, (x >>= f) = .ok b) ↔ ∃ a, x = .ok a ∧ ∃ b, f a = .ok b := by
  simp only [Except.bind_eq_ok]
  exact ⟨fun ⟨b, a, h, hf⟩ => ⟨a, h, b, hf⟩, fun ⟨a, h, b, hf⟩ => ⟨b, a, h, hf⟩⟩

theorem outputText_eq_ok {response : List (List Nat × Json)} {text : Json} :
    outputText response = .ok text ↔ HasChoice response ∧ text = contentOf response := by
  rw [outputText, HasChoice, Json.orElse]
  cases htruthy : (Json.lookup response "choices").truthy with
  | false =>
      have hcontent : contentOf response = .null := by
        rw [contentOf]
        split
        · next hchoices => rw [hchoices] at htruthy; cases htruthy
        · rfl
      rw [hcontent]
      refine ⟨fun h => ⟨fun hfalse => ?_, (Except.ok.inj h).symm⟩, fun h => congrArg Except.ok h.2.symm⟩
      cases hfalse
  | true =>
      rw [if_pos rfl, if_pos htruthy]
      simp only [Except.bind_eq_ok, Json.get_eq_ok]
      constructor
      · rintro ⟨_, hfirst, message, ⟨choice, rfl, rfl⟩, content, hmessage, rfl⟩
        obtain ⟨rest, hchoices⟩ := (Json.first_eq_ok rfl).mp hfirst
        refine ⟨fun _ => ⟨choice, rest, hchoices, by rw [hmessage]; rfl⟩, ?_⟩
        rw [contentOf, hchoices]
        dsimp only
        rw [hmessage]
      · rintro ⟨h, rfl⟩
        obtain ⟨choice, rest, hchoices, hmessage⟩ := h trivial
        obtain ⟨content, hcontent⟩ := Json.isObj_iff.mp hmessage
        refine ⟨.obj choice, (Json.first_eq_ok rfl).mpr ⟨rest, hchoices⟩, _, ⟨choice, rfl, rfl⟩, content,
          hcontent, ?_⟩
        rw [contentOf, hchoices]
        dsimp only
        rw [hcontent]

theorem finishReason_isOk {response : List (List Nat × Json)} (h : HasChoice response) :
    ∃ reason, finishReason response = .ok reason := by
  rw [finishReason, Json.orElse]
  cases htruthy : (Json.lookup response "choices").truthy with
  | false => exact ⟨.null, rfl⟩
  | true =>
      obtain ⟨choice, rest, hchoices, -⟩ := h htruthy
      rw [if_pos rfl, if_pos htruthy, hchoices]
      exact ⟨_, rfl⟩

/-- The payload's messages are objects, and its documents and tools can be counted. -/
structure Summarizable (payload : List (List Nat × Json)) : Prop where
  messages : ∃ messages, (getWithDefault payload "messages" (.arr [])).elements = .ok messages ∧
    ∀ m ∈ messages, m.isObj = true
  documents : ∃ xs, ((Json.lookup payload "documents").orElse (.arr [])).elements = .ok xs
  tools : ∃ xs, ((Json.lookup payload "tools").orElse (.arr [])).elements = .ok xs

theorem mapM_get_isOk (key : String) {messages : List Json} :
    (∃ vs, messages.mapM (fun m => m.get key) = .ok vs) ↔ ∀ m ∈ messages, m.isObj = true := by
  induction messages with
  | nil => simp [pure, Except.pure]
  | cons m messages ih =>
      rw [List.mapM_cons, exists_bind_ok, List.forall_mem_cons, ← ih]
      constructor
      · rintro ⟨v, hv, vs, hvs⟩
        obtain ⟨vs', hvs', -⟩ := Except.bind_eq_ok.mp hvs
        exact ⟨(Json.get_isOk key).mp ⟨v, hv⟩, vs', hvs'⟩
      · rintro ⟨hm, vs, hvs⟩
        obtain ⟨v, hv⟩ := (Json.get_isOk key).mpr hm
        exact ⟨v, hv, v :: vs, Except.bind_eq_ok.mpr ⟨vs, hvs, rfl⟩⟩

theorem len_isOk {x : Json} : (∃ n, len x = .ok n) ↔ ∃ xs, x.elements = .ok xs := by
  simp only [len, Except.map_eq_ok]
  exact ⟨fun ⟨_, xs, h, _⟩ => ⟨xs, h⟩, fun ⟨xs, h⟩ => ⟨_, xs, h, rfl⟩⟩

theorem summarizeApiRequest_isOk {w : World} {payload : List (List Nat × Json)} :
    (∃ summary, summarizeApiRequest w payload = .ok summary) ↔ Summarizable payload := by
  rw [summarizeApiRequest]
  simp only [exists_bind_ok]
  constructor
  · rintro ⟨messages, hmessages, roles, hroles, contents, hcontents, n, hn, m, hm, -⟩
    exact {
      messages := ⟨messages, hmessages, (mapM_get_isOk _).mp ⟨roles, hroles⟩⟩
      documents := len_isOk.mp ⟨n, hn⟩
      tools := len_isOk.mp ⟨m, hm⟩ }
  · intro h
    obtain ⟨messages, hmessages, hobj⟩ := h.messages
    obtain ⟨roles, hroles⟩ := (mapM_get_isOk "role").mpr hobj
    obtain ⟨contents, hcontents⟩ := (mapM_get_isOk "content").mpr hobj
    obtain ⟨n, hn⟩ := len_isOk.mpr h.documents
    obtain ⟨m, hm⟩ := len_isOk.mpr h.tools
    exact ⟨messages, hmessages, roles, hroles, contents, hcontents, n, hn, m, hm, _, rfl⟩

/-- The usage of a response is an object. -/
def HasUsage (response : List (List Nat × Json)) : Prop :=
  ((Json.lookup response "usage").orElse (.obj [])).isObj = true

/-- The details of the usage are an object or nothing. -/
def HasDetails (response : List (List Nat × Json)) : Prop :=
  ∀ usage, (Json.lookup response "usage").orElse (.obj []) = .obj usage →
    ((Json.lookup usage "prompt_tokens_details").orElse (.obj [])).isObj = true

theorem cachedTokens_isOk {response : List (List Nat × Json)} (h : HasUsage response) :
    (∃ n, cachedTokens response = .ok n) ↔ HasDetails response := by
  obtain ⟨usage, husage⟩ := Json.isObj_iff.mp h
  rw [cachedTokens, HasDetails, husage, exists_bind_ok]
  simp only [Json.get_isOk]
  constructor
  · rintro ⟨details, hdetails, hobj⟩ usage' heq
    cases heq
    cases hdetails
    exact hobj
  · exact fun hdetails => ⟨_, rfl, hdetails usage rfl⟩

theorem fieldsOf_isOk {x : Json} : (∃ fields, fieldsOf x = .ok fields) ↔ x.isObj = true := by
  cases x <;> simp [fieldsOf, Json.isObj]

/-- What the code after the `try` takes for granted of a response and a request. -/
structure Readable (w : World) (a : ObserveArgs) (payload response : List (List Nat × Json)) : Prop where
  choice : HasChoice response
  score : a.request.groundTruth.HasScore w.tables
  answer : IsAnswer (contentOf response)
  metrics : ((Json.lookup response "metrics").orElse (.obj [])).isObj = true
  summarizable : Summarizable payload
  details : HasDetails response

theorem observationOf_isOk {w : World} {a : ObserveArgs} {payload response : List (List Nat × Json)}
    (husage : HasUsage response) :
    (∃ o, observationOf w a payload response = .ok o) ↔ Readable w a payload response := by
  rw [observationOf]
  simp only [exists_bind_ok]
  constructor
  · rintro ⟨text, htext, reason, -, quality, hquality, metrics, hmetrics, summary, hsummary, count, -, n,
      hn, -⟩
    obtain ⟨hchoice, rfl⟩ := outputText_eq_ok.mp htext
    obtain ⟨hscore, hanswer⟩ := scoreResponse_ok.mp ⟨quality, hquality⟩
    exact {
      choice := hchoice
      score := hscore
      answer := hanswer
      metrics := fieldsOf_isOk.mp ⟨metrics, hmetrics⟩
      summarizable := summarizeApiRequest_isOk.mp ⟨summary, hsummary⟩
      details := (cachedTokens_isOk husage).mp ⟨n, hn⟩ }
  · intro h
    obtain ⟨reason, hreason⟩ := finishReason_isOk h.choice
    obtain ⟨quality, hquality⟩ := scoreResponse_ok.mpr ⟨h.score, h.answer⟩
    obtain ⟨metrics, hmetrics⟩ := fieldsOf_isOk.mpr h.metrics
    obtain ⟨summary, hsummary⟩ := summarizeApiRequest_isOk (w := w).mpr h.summarizable
    obtain ⟨count, hcount⟩ := (Json.get_isOk "prompt_tokens").mpr husage
    obtain ⟨n, hn⟩ := (cachedTokens_isOk husage).mpr h.details
    exact ⟨_, outputText_eq_ok.mpr ⟨h.choice, rfl⟩, reason, hreason, quality, hquality, metrics, hmetrics,
      summary, hsummary, count, hcount, n, hn, _, rfl⟩

/-! ### The completion can be written -/

theorem encodable_contentOf {response : List (List Nat × Json)}
    (h : (Json.obj response).encodable = true) : (contentOf response).encodable = true := by
  rw [contentOf]
  split
  · next choice rest hchoices =>
    have hall := Json.encodable_lookup h "choices"
    rw [hchoices] at hall
    have hchoice := Json.encodable_arr.mp hall _ List.mem_cons_self
    split
    · next message hmessage =>
      have := Json.encodable_orElse (Json.encodable_lookup hchoice "message")
        (y := .obj []) rfl
      rw [hmessage] at this
      exact Json.encodable_lookup this _
    · rfl
  · rfl

/-- What is written of an observation can be encoded if the response can. -/
theorem encodable_observation {w : World} {a : ObserveArgs} {payload response : List (List Nat × Json)}
    {o : Observation} (ho : observationOf w a payload response = .ok o)
    (hg : a.request.groundTruth.asdict.encodable = true) :
    o.rawResponse = response ∧ ((Json.obj response).encodable = true →
      (outputOf o).encodable = true ∧ (metricsOf o).encodable = true) := by
  rw [observationOf] at ho
  simp only [Except.bind_eq_ok] at ho
  obtain ⟨text, htext, reason, -, quality, hquality, metrics, -, summary, -, count, hcount, n, hn, ho⟩ := ho
  cases ho
  obtain ⟨-, rfl⟩ := outputText_eq_ok.mp htext
  refine ⟨rfl, fun hresponse => ?_⟩
  have husage := Json.encodable_orElse (Json.encodable_lookup hresponse "usage") (y := .obj []) rfl
  have hcached : n.encodable = true := by
    rw [cachedTokens] at hn
    obtain ⟨details, hdetails, hn⟩ := Except.bind_eq_ok.mp hn
    exact Json.encodable_get (Json.encodable_orElse (Json.encodable_get husage hdetails) rfl) hn
  rw [outputOf, metricsOf, Json.encodable_object, Json.encodable_object]
  simp [hresponse, encodable_contentOf hresponse, hcached, Json.encodable_get husage hcount,
    Json.encodable_lookup hresponse, encodable_scoreResponse hg hquality]

/-! ### The end of a request -/

/-- The event that starts the request. -/
def startEvent (w : World) (a : ObserveArgs) (payload : List (List Nat × Json)) : LedgerEvent :=
  .requestStarted w.requestId (modelInputOf a payload) ((samplingOf payload).orElse (.obj []))
    ((startMetadata a).orElse (.obj [])) ((evaluationOf a).orElse (.obj []))

theorem observeRequest_started {w : World} {a : ObserveArgs} {payload : List (List Nat × Json)}
    (hpayload : payloadOf a = .ok payload) (hrecorded : a.recorded = true)
    (hstart : Writable w.disk (startEvent w a payload)) (ledger : List LedgerEvent) :
    observeRequest w a ledger = observeStarted w a payload (some { requestId := w.requestId })
      (ledger ++ [startEvent w a payload]) := by
  rw [observeRequest, hpayload]
  dsimp only
  rw [if_pos hrecorded, start, ← startEvent, append_of_writable hstart]
  rfl

/-- One event ends the request. -/
def EndsOnce (requestId : String) (started ledger : List LedgerEvent) : Prop :=
  ∃ t : LedgerEvent, ledger = started ++ [t] ∧ t.isTerminal = true ∧ t.requestId = requestId

/-- The response does not pass the `try`, or the rest can read and write it. -/
structure Ends (w : World) (a : ObserveArgs) (payload : List (List Nat × Json)) : Prop where
  requestId : (Json.str a.request.requestId).encodable = true
  readable : ∀ response, checkedResponse w a = .ok response → Readable w a payload response
  encodable : ∀ response, checkedResponse w a = .ok response → (Json.obj response).encodable = true

theorem not_endsOnce_self {requestId : String} {ledger : List LedgerEvent} :
    ¬ EndsOnce requestId ledger ledger := by
  rintro ⟨t, h, -⟩
  have := congrArg List.length h
  rw [List.length_append, List.length_singleton] at this
  omega

/-- A handle ends its request iff its event can be written. -/
theorem endsOnce_finish {disk : Disk} {p : PendingRequest} {event : LedgerEvent} (hp : p.finished = false)
    (hid : event.requestId = p.requestId) (hterm : event.isTerminal = true) (ledger : List LedgerEvent) :
    EndsOnce p.requestId ledger (p.finish disk ledger event).2.2 ↔ Writable disk event := by
  by_cases h : Writable disk event
  · rw [PendingRequest.finish_of_writable hp h]
    exact ⟨fun _ => h, fun _ => ⟨event, rfl, hterm, hid⟩⟩
  · obtain ⟨e, he⟩ := @PendingRequest.finish_raises disk p ledger event hp h
    rw [he]
    exact ⟨fun hends => absurd hends not_endsOnce_self, fun hw => absurd hw h⟩

theorem hasUsage_of_checked {w : World} {a : ObserveArgs} {response : List (List Nat × Json)}
    (h : checkedResponse w a = .ok response) : HasUsage response := by
  rw [checkedResponse] at h
  obtain ⟨reply, -, h⟩ := Except.bind_eq_ok.mp h
  obtain ⟨u, hvalid, h⟩ := Except.bind_eq_ok.mp h
  cases reply with
  | obj fields =>
      have hsame : fields = response := by
        dsimp only at h
        split at h
        · exact Except.ok.inj h
        · split at h
          · exact Except.ok.inj h
          · cases h
      subst hsame
      rw [validateObservability] at hvalid
      simp only [Except.bind_eq_ok] at hvalid
      obtain ⟨text, -, ids, -, metrics, -, usage, husage, details, hdetails, -⟩ := hvalid
      cases husage
      exact (Json.get_isOk _).mp ⟨details, hdetails⟩
  | null => cases h
  | bool b => cases h
  | num q => cases h
  | nonfinite => cases h
  | str text => cases h
  | arr xs => cases h

theorem encodable_groundTruth {w : World} {a : ObserveArgs} {payload : List (List Nat × Json)}
    (h : (startEvent w a payload).encodable = true) :
    a.request.groundTruth.asdict.encodable = true := by
  rw [startEvent, LedgerEvent.encodable, Bool.and_eq_true] at h
  have heval : (evaluationOf a).encodable = true := h.2
  rw [evaluationOf, Json.encodable_object] at heval
  exact heval ("ground_truth", a.request.groundTruth.asdict) (by simp)

theorem writable_failed {w : World} {a : ObserveArgs} {e : Raised} (hdisk : ∀ e, w.disk e = .ok ()) :
    Writable w.disk (.requestFailed w.requestId e ((failMetadata w a).orElse (.obj []))) ↔
      (Json.str a.request.requestId).encodable = true := by
  rw [Writable, and_iff_left (hdisk _)]
  change (failMetadata w a).encodable = true ↔ _
  rw [failMetadata, Json.encodable_object]
  simp

theorem writable_completed {w : World} {a : ObserveArgs} {payload response : List (List Nat × Json)}
    {o : Observation} (hdisk : ∀ e, w.disk e = .ok ())
    (ho : observationOf w a payload response = .ok o)
    (hg : a.request.groundTruth.asdict.encodable = true) :
    Writable w.disk (.requestCompleted w.requestId (outputOf o) ((metricsOf o).orElse (.obj []))
        ((completeMetadata a).orElse (.obj []))) ↔
      (Json.obj response).encodable = true ∧ (Json.str a.request.requestId).encodable = true := by
  obtain ⟨hraw, henc⟩ := encodable_observation ho hg
  have hmeta : (completeMetadata a).encodable = true ↔
      (Json.str a.request.requestId).encodable = true := by
    rw [completeMetadata, Json.encodable_object]
    simp
  rw [Writable, and_iff_left (hdisk _), ← hmeta]
  change ((outputOf o).encodable && (metricsOf o).encodable && (completeMetadata a).encodable) = true ↔ _
  rw [Bool.and_eq_true, Bool.and_eq_true]
  constructor
  · rintro ⟨⟨hout, -⟩, hm⟩
    rw [outputOf, Json.encodable_object] at hout
    refine ⟨?_, hm⟩
    rw [← hraw]
    exact hout ("raw_response", .obj o.rawResponse) (by simp)
  · rintro ⟨hresponse, hm⟩
    exact ⟨henc hresponse, hm⟩

/-- The file after the handler of the `try`, and after the completion. -/
theorem observeStarted_snd (w : World) (a : ObserveArgs) (payload : List (List Nat × Json))
    (p : PendingRequest) (ledger : List LedgerEvent) :
    (observeStarted w a payload (some p) ledger).2 = match checkedResponse w a with
      | .error e => (p.fail w.disk ledger e (failMetadata w a)).2.2
      | .ok response => match observationOf w a payload response with
          | .error _ => ledger
          | .ok o => (p.complete w.disk ledger (outputOf o) (metricsOf o) (completeMetadata a)).2.2 := by
  rw [observeStarted]
  cases checkedResponse w a with
  | error e =>
      dsimp only
      rcases p.fail w.disk ledger e (failMetadata w a) with ⟨e' | u, p', ledger'⟩
      · rfl
      · rfl
  | ok response =>
      dsimp only
      cases observationOf w a payload response with
      | error e => rfl
      | ok o =>
          dsimp only
          rcases p.complete w.disk ledger (outputOf o) (metricsOf o) (completeMetadata a)
            with ⟨e | u, p', ledger'⟩
          · rfl
          · rfl

/-- **The end of a started request**, on a file system that takes every event. -/
theorem observeStarted_endsOnce {w : World} {a : ObserveArgs} {payload : List (List Nat × Json)}
    (hdisk : ∀ e, w.disk e = .ok ()) (hg : a.request.groundTruth.asdict.encodable = true)
    (ledger : List LedgerEvent) :
    EndsOnce w.requestId ledger
        (observeStarted w a payload (some { requestId := w.requestId }) ledger).2 ↔ Ends w a payload := by
  rw [observeStarted_snd]
  cases hchecked : checkedResponse w a with
  | error e =>
      have hends : Ends w a payload ↔ (Json.str a.request.requestId).encodable = true := by
        refine ⟨Ends.requestId, fun h => { requestId := h, readable := ?_, encodable := ?_ }⟩
        · intro response h
          rw [hchecked] at h
          cases h
        · intro response h
          rw [hchecked] at h
          cases h
      rw [hends, ← writable_failed hdisk]
      exact endsOnce_finish rfl rfl rfl ledger
  | ok response =>
      have hends : Ends w a payload ↔ Readable w a payload response ∧
          (Json.obj response).encodable = true ∧ (Json.str a.request.requestId).encodable = true := by
        constructor
        · exact fun h => ⟨h.readable response hchecked, h.encodable response hchecked, h.requestId⟩
        · rintro ⟨hread, henc, hid⟩
          refine { requestId := hid, readable := ?_, encodable := ?_ }
          · intro response' h
            rw [hchecked] at h
            cases h
            exact hread
          · intro response' h
            rw [hchecked] at h
            cases h
            exact henc
      rw [hends, ← observationOf_isOk (hasUsage_of_checked hchecked)]
      dsimp only
      cases ho : observationOf w a payload response with
      | error e =>
          refine ⟨fun h => absurd h not_endsOnce_self, ?_⟩
          rintro ⟨⟨o, h⟩, -⟩
          cases h
      | ok o =>
          rw [← writable_completed hdisk ho hg, and_iff_right ⟨o, rfl⟩]
          exact endsOnce_finish rfl rfl rfl ledger

/-- **When a started request is ended.**  On a file system that takes every event the request gets its one
terminal event iff the response does not pass the `try` or the rest of the code can read it and write it.  And a
handle whose event could not be written cannot fail the request any more. -/
theorem observeRequest_ends (w : World) (a : ObserveArgs) (payload : List (List Nat × Json))
    (ledger : List LedgerEvent) :
    (payloadOf a = .ok payload → a.recorded = true → (∀ e, w.disk e = .ok ()) →
      (startEvent w a payload).encodable = true →
      (EndsOnce w.requestId (ledger ++ [startEvent w a payload]) (observeRequest w a ledger).2 ↔
        Ends w a payload)) ∧
    ∀ (disk disk' : Disk) (p : PendingRequest) (ledger ledger' : List LedgerEvent) (event : LedgerEvent)
      (error : Raised) (metadata : Json), p.finished = false → ¬ Writable disk event →
      ∃ e, (p.finish disk ledger event).2.1.fail disk' ledger' error metadata
        = (.error e, { p with finished := true }, ledger') := by
  constructor
  · intro hpayload hrecorded hdisk hstart
    rw [observeRequest_started hpayload hrecorded ⟨hstart, hdisk _⟩]
    exact observeStarted_endsOnce hdisk (encodable_groundTruth hstart) _
  · intro disk disk' p ledger ledger' event error metadata hp hw
    obtain ⟨e, he⟩ := @PendingRequest.finish_raises disk p ledger event hp hw
    rw [he]
    exact PendingRequest.finish_of_finished rfl

/-! ### Examples -/

/-- A question whose answer has to contain `yes`. -/
def sampleArgs : ObserveArgs where
  request := {
    requestId := Json.text "q"
    workload := Json.text "chat"
    sequenceIndex := 0
    messages := .arr [Json.object [("role", .str (Json.text "user")), ("content", .str (Json.text "?"))]]
    segments := []
    groundTruth := {
      expectedAnswer := []
      requirements := [{ requirementId := Json.text "r", acceptedPhrases := [Json.text "yes"] }] } }
  url := Json.text "http://server"
  model := Json.text "m"
  maxCompletionTokens := 8

/-- A world in which the server gives an answer. -/
def sampleWorld (reply : Except Raised Json) : World where
  tables := { casefold := id, isSpace := fun c => c == 32, isWord := fun c => 97 ≤ c && c ≤ 122 }
  toStr := fun _ => []
  reply := reply
  disk := fun _ => .ok ()
  requestId := "u"
  wallSeconds := 1

/-- A response whose content is a number. -/
def numberResponse : Json :=
  Json.object [("prompt_text", .str (Json.text "?")), ("prompt_token_ids", .arr [.num 1]),
    ("metrics", Json.object []),
    ("usage", Json.object [("prompt_tokens_details", Json.object [("cached_tokens", .num 0)])]),
    ("choices", .arr [Json.object [("message", Json.object [("content", .num 5)])]])]

/-- A request that times out is failed. -/
theorem timeout_ends :
    EndsOnce "u" [startEvent (sampleWorld (.error (.other "timeout"))) sampleArgs
        (sampleArgs.request.apiPayload sampleArgs.model 8)]
      (observeRequest (sampleWorld (.error (.other "timeout"))) sampleArgs []).2 ∧
    ∃ e, ({ requestId := "u", finished := true } : PendingRequest).fail (fun _ => .ok ()) []
      (.other "disk full") .null = (.error e, { requestId := "u", finished := true }, []) := by
  constructor
  · refine ((observeRequest_ends (sampleWorld (.error (.other "timeout"))) sampleArgs _ []).1 rfl rfl
      (fun _ => rfl) (by decide +kernel)).mpr ?_
    exact { requestId := by decide +kernel, readable := nofun, encodable := nofun }
  · exact (observeRequest_ends (sampleWorld (.error (.other "timeout"))) sampleArgs [] []).2 (fun _ => .error (.other "disk full")) (fun _ => .ok ())
      { requestId := "u" } [] [] (.requestCompleted "u" .null .null .null) (.other "disk full") .null rfl
      nofun

/-- **A request without an end**: its response passes the `try` and cannot be scored. -/
theorem number_content_not_ended : ¬ ∀ (w : World) (a : ObserveArgs) (payload : List (List Nat × Json))
    (ledger : List LedgerEvent), payloadOf a = .ok payload → a.recorded = true →
    (∀ e, w.disk e = .ok ()) → (startEvent w a payload).encodable = true →
    EndsOnce w.requestId (ledger ++ [startEvent w a payload]) (observeRequest w a ledger).2 := by
  intro h
  obtain ⟨t, ht, -⟩ := h (sampleWorld (.ok numberResponse)) sampleArgs _ [] rfl rfl (fun _ => rfl)
    (by decide +kernel)
  have hone : (observeRequest (sampleWorld (.ok numberResponse)) sampleArgs []).2.length = 1 := by
    decide +kernel
  rw [ht] at hone
  cases hone

end CacheSelect.Benchmarks
