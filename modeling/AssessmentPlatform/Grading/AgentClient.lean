import AssessmentPlatform.Grading.Platform

/-!
# Calls of the agent

`agent_client` as far as an answer of the agent goes through it: the retries of
one request, the statuses that end a job, and what the platform reads in a body
that may be any JSON value or none.  An exception is a value here.
-/

namespace AssessmentPlatform

/-! ## Answers -/

/-- The failures of `httpx` that are not an answer. -/
inductive TransportFailure where
  | connectError
  | connectTimeout
  | readTimeout
  /-- Every other `httpx.HTTPError`. -/
  | other
  deriving DecidableEq, Repr

/-- How `json.loads` fails on a body: a `ValueError`, or the interpreter's
recursion limit. -/
inductive DecodeFailure where
  | valueError
  | recursionError
  deriving DecidableEq, Repr

/-- An answer of the agent: its status, its text, and the text as JSON. -/
structure AgentResponse where
  statusCode : Nat
  text : String
  json : Except DecodeFailure Json

/-- One request to the agent. -/
abbrev Exchange := Except TransportFailure AgentResponse

/-- The exceptions that an answer can cause. -/
inductive Raised where
  | transport (failure : TransportFailure)
  | httpStatus (response : AgentResponse)
  | undecodable (failure : DecodeFailure)
  | keyError
  | typeError
  | attributeError
  | valueError
  | overflowError
  /-- `pydantic.ValidationError` -/
  | validationError
  /-- What the database driver raises for a value that it cannot bind. -/
  | binding
  /-- What the ORM raises for a row that is no longer there. -/
  | rowGone
  /-- What the database raises for a row that it refuses. -/
  | integrityError
  /-- What the framework raises for a response that it cannot render. -/
  | unrenderable

/-! ## Requests with retries -/

/-- `Response.is_success` -/
def AgentResponse.isSuccess (response : AgentResponse) : Bool :=
  200 ≤ response.statusCode && response.statusCode ≤ 299

/-- `_signed_post` and `raise_for_status` -/
def raiseForStatus : Exchange → Except Raised AgentResponse
  | .error failure => .error (.transport failure)
  | .ok response =>
      if response.isSuccess then .ok response
      else .error (.httpStatus response)

/-- The loop of `_post_with_retry`, with a number of attempts left after this
one. -/
def postFrom (retryable : Raised → Bool) (exchanges : Nat → Exchange) :
    Nat → Nat → Except Raised AgentResponse
  | attempt, 0 => raiseForStatus (exchanges attempt)
  | attempt, left + 1 =>
      match raiseForStatus (exchanges attempt) with
      | .ok response => .ok response
      | .error raised =>
          if retryable raised then
            postFrom retryable exchanges (attempt + 1) left
          else .error raised

/-- `_post_with_retry`, where the n-th attempt is answered by `exchanges n`. -/
def postWithRetry (attempts : Int) (retryable : Raised → Bool)
    (exchanges : Nat → Exchange) : Except Raised AgentResponse :=
  postFrom retryable exchanges 1 ((max 1 attempts).toNat - 1)

/-- The transport failures that are worth another attempt. -/
def TransportFailure.retryable : TransportFailure → Bool
  | .connectError | .connectTimeout | .readTimeout => true
  | .other => false

/-- Whether a failure is retryable, with the statuses that are. -/
def isRetryable (statuses : List Nat) : Raised → Bool
  | .httpStatus response => statuses.contains response.statusCode
  | .transport failure => failure.retryable
  | _ => false

/-! ## The trigger call -/

/-- `_TRIGGER_RETRY_STATUSES` -/
def triggerRetryStatuses : List Nat := [429, 500, 502, 503, 504]

/-- `TRIGGER_TERMINAL_STATUSES` -/
def triggerTerminalStatuses : List Nat := [400]

/-- `response.json()` -/
def AgentResponse.decode (response : AgentResponse) : Except Raised Json :=
  response.json.mapError .undecodable

/-- `response.json()["job_id"]` -/
def jobIdOf (response : AgentResponse) : Except Raised Json := do
  match ← response.decode with
  | .obj fields =>
      match Payload.lookup fields "job_id" with
      | some jobId => return jobId
      | none => throw .keyError
  | _ => throw .typeError

/-- `trigger_assessment` -/
def triggerAssessment (attempts : Int) (exchanges : Nat → Exchange) :
    Except Raised Json := do
  let response ←
    postWithRetry attempts (isRetryable triggerRetryStatuses) exchanges
  jobIdOf response

/-- `trigger_refusal` -/
def triggerRefusal : Raised → Option AgentResponse
  | .httpStatus response =>
      if triggerTerminalStatuses.contains response.statusCode then
        some response
      else none
  | _ => none

/-! ## The draft calls -/

/-- `_DRAFT_RETRY_STATUSES` -/
def draftRetryStatuses : List Nat := [429, 500, 502, 504]

/-- `_draft_is_retryable` -/
def draftIsRetryable : Raised → Bool
  | .httpStatus response => draftRetryStatuses.contains response.statusCode
  | .transport .connectError | .transport .connectTimeout => true
  | _ => false

/-- `draft_question` and `draft_set` of the client: the payload of the answer to
the last attempt. -/
def draftCall (attempts : Int) (exchanges : Nat → Exchange) :
    Except Raised Json := do
  let response ← postWithRetry attempts draftIsRetryable exchanges
  response.decode

/-! ## The detail of a failure -/

/-- What Python's `for` goes through in a JSON value: `none` where it raises
TypeError. -/
def Json.iterate : Json → Option (List Json)
  | .arr items => some items
  | .obj fields => some (fields.map fun field => .str field.1)
  | .str text => some (text.codes.map fun code => .str (.ofCodes [code]))
  | .null | .bool _ | .int _ | .float _ => none

/-- `_agent_detail` -/
def agentDetail (platform : Platform) (response : AgentResponse) :
    Except Raised PyStr :=
  match response.json with
  | .error .valueError => .ok response.text
  | .error .recursionError => .error (.undecodable .recursionError)
  | .ok body =>
      let detail :=
        match body with
        | .obj fields =>
            (Payload.lookup fields "detail").getD (.str response.text)
        | other => other
      match detail with
      | .obj fields =>
          let warnings := Payload.get fields "warnings"
          if warnings.truthy then
            match warnings.iterate with
            | some items =>
                .ok (.join "; " (items.map platform.str))
            | none => .error .typeError
          else .ok (platform.str detail)
      | _ => .ok (platform.str detail)

/-- The body of a failure has a detail with warnings that are no list. -/
def AgentResponse.strayWarnings (response : AgentResponse) : Prop :=
  ∃ fields detail, response.json = .ok (.obj fields) ∧
    Payload.lookup fields "detail" = some (.obj detail) ∧
      (Payload.get detail "warnings").truthy = true ∧
        (Payload.get detail "warnings").iterate = none

/-- `_agent_detail` raises for a body that is nested too deeply, and for one
whose warnings cannot be gone through. -/
theorem agentDetail_raises (platform : Platform) (response : AgentResponse) :
    (∃ raised, agentDetail platform response = .error raised) ↔
      response.json = .error .recursionError ∨ response.strayWarnings := by
  unfold agentDetail AgentResponse.strayWarnings
  cases decoded : response.json with
  | error failure => cases failure <;> simp
  | ok body =>
      cases body with
      | obj fields =>
          cases found : Payload.lookup fields "detail" with
          | none => simp [found]
          | some detail =>
              cases detail with
              | obj inner =>
                  cases truthy : (Payload.get inner "warnings").truthy with
                  | false => simp [found, truthy]
                  | true =>
                      cases items : (Payload.get inner "warnings").iterate <;>
                        simp [found, truthy, items]
              | _ => simp [found]
      | _ => simp

end AssessmentPlatform
