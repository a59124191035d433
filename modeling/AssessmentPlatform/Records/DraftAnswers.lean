import AssessmentPlatform.Grading.AgentClient
import AssessmentPlatform.Records.ReleaseLaw

/-!
# Drafts that the allowance pays for

`draft_question` and `draft_variant_set`, where the agent may answer anything.
The allowance is claimed before the call of the agent, and every way in which
the answer can end hands back what it does.
-/

namespace AssessmentPlatform.Drafting

/-! ## Schemas -/

/-- What pydantic and the framework make of values that are not modelled
further. -/
structure Schemas where
  /-- The text of the `ValidationError` that `QuestionCreate` raises for keyword
  arguments, unless it takes them. -/
  questionError : Payload → Option String
  /-- A string in a field of type `float`. -/
  number : String → Option Double
  /-- Whether a response can carry a number: a renderer of strict JSON refuses
  NaN and the infinities, pydantic's writes null. -/
  sends : Double → Bool
  /-- Whether a response can carry a question. -/
  sendsQuestion : Payload → Bool

/-- A value for a field of type `str`. -/
def text : Json → Option PyStr
  | .str value => some value
  | _ => none

/-- A value for a field of type `str | None`. -/
def optionalText : Json → Option (Option PyStr)
  | .null => some none
  | .str value => some (some value)
  | _ => none

/-- A value for a field of type `list[str]`. -/
def texts : Json → Option (List PyStr)
  | .arr items => items.mapM text
  | _ => none

/-- A value for a field of type `float | None`. -/
def Schemas.optionalNumber (schemas : Schemas) : Json → Option (Option Double)
  | .null => some none
  | .bool value => some (some (.finite (if value then 1 else 0)))
  | .int value => some (some (.ofInt value))
  | .float value => some (some value)
  | .str (.text value) => (schemas.number value).map some
  | .str (.broken _) | .arr _ | .obj _ => none

/-- `QuestionDraftOut`; a `QuestionCreate` is the keyword arguments that it was
made of. -/
structure QuestionDraftOut where
  question : Payload
  warnings : List PyStr
  referenceSolution : Option PyStr
  referenceLanguage : Option PyStr
  engine : PyStr
  costUsd : Option Double

/-- `VariantDraftOut` -/
structure VariantDraftOut where
  label : Option String
  question : Payload
  referenceSolution : Option PyStr
  referenceLanguage : Option PyStr
  warnings : List PyStr

/-- `VariantSetDraftOut` -/
structure VariantSetDraftOut where
  variants : List VariantDraftOut
  warnings : List PyStr
  engine : PyStr
  costUsd : Option Double

/-- `VariantSetDraftIn`, as far as the platform reads it. -/
structure VariantSetDraftIn where
  count : Nat
  count_bounds : 2 ≤ count ∧ count ≤ 8

/-- The result of a validation, or the `ValidationError`. -/
def validated {Value : Type} : Option Value → Except Raised Value
  | some value => .ok value
  | none => .error .validationError

/-! ## Questions of the agent -/

/-- `value or {}` -/
def orEmpty (value : Json) : Json :=
  if value.truthy then value else .obj []

/-- `value if value is not None else default` -/
def unlessNull (value default : Json) : Json :=
  if value = .null then default else value

/-- The keyword arguments in `_question_create_from_agent`. -/
def createArguments (q exampleFields : Payload) : Payload :=
  [("id", Payload.getOr q "id" (.str "")),
    ("title", Payload.getOr q "title" (.str "")),
    ("prompt", Payload.getOr q "prompt" (.str "")),
    ("constraints", Payload.getOr q "constraints" (.str "")),
    ("time_limit_s",
      unlessNull (Payload.get q "time_limit_s") (.float (.finite 2))),
    ("pass_threshold",
      unlessNull (Payload.get q "pass_threshold")
        (.float (.nearest (9 / 10)))),
    ("required_complexity", Payload.get q "required_complexity"),
    ("example_input", Payload.get exampleFields "input"),
    ("example_output", Payload.get exampleFields "output"),
    ("test_cases", Payload.getOr q "test_cases" (.arr []))]

/-- `_question_create_from_agent`: the question, or the text of the
`ValidationError` that its callers catch, or what escapes them. -/
def questionCreateFromAgent (schemas : Schemas) :
    Json → Except Raised (Except String Payload)
  | .obj q =>
      match orEmpty (Payload.get q "example") with
      | .obj exampleFields =>
          match schemas.questionError (createArguments q exampleFields) with
          | none => .ok (.ok (createArguments q exampleFields))
          | some error => .ok (.error error)
      | _ => .error .attributeError
  | _ => .error .attributeError

/-- A question is an object, and its example one too or falsy. -/
def reshapes : Json → Bool
  | .obj q =>
      match orEmpty (Payload.get q "example") with
      | .obj _ => true
      | _ => false
  | _ => false

/-- A question that `QuestionCreate` takes. -/
def storable (schemas : Schemas) : Json → Bool
  | .obj q =>
      match orEmpty (Payload.get q "example") with
      | .obj exampleFields =>
          (schemas.questionError (createArguments q exampleFields)).isNone
      | _ => false
  | _ => false

/-- A question that a response can carry, once `QuestionCreate` takes it. -/
def renderable (schemas : Schemas) : Json → Bool
  | .obj q =>
      match orEmpty (Payload.get q "example") with
      | .obj exampleFields =>
          schemas.sendsQuestion (createArguments q exampleFields)
      | _ => false
  | _ => false

/-- The three ends of `_question_create_from_agent`. -/
theorem questionCreateFromAgent_cases (schemas : Schemas) (q : Json) :
    (reshapes q = false ∧ storable schemas q = false ∧
      questionCreateFromAgent schemas q = .error .attributeError) ∨
    (reshapes q = true ∧ storable schemas q = false ∧
      ∃ error, questionCreateFromAgent schemas q = .ok (.error error)) ∨
    (reshapes q = true ∧ storable schemas q = true ∧
      ∃ question, questionCreateFromAgent schemas q = .ok (.ok question) ∧
        schemas.sendsQuestion question = renderable schemas q) := by
  unfold reshapes storable renderable questionCreateFromAgent
  cases q with
  | obj fields =>
      cases shown : orEmpty (Payload.get fields "example") with
      | obj inner =>
          cases refused : schemas.questionError
            (createArguments fields inner) <;> simp [shown, refused]
      | _ => simp [shown]
  | _ => simp

/-! ## Costs -/

/-- What `float` raises for a value that it does not take. -/
def floatError : Json → Raised
  | .str _ => .valueError
  | .int _ => .overflowError
  | _ => .typeError

/-- `float(payload.get("cost_usd") or 0.0)` -/
def draftCost (platform : Platform) (payload : Payload) :
    Except Raised Double :=
  if (Payload.get payload "cost_usd").truthy then
    match platform.float (Payload.get payload "cost_usd") with
    | some cost => .ok cost
    | none => .error (floatError (Payload.get payload "cost_usd"))
  else .ok 0

/-- What `total_cost += cost` adds, unless the cost is `None`. -/
def variantCost : Json → Except Raised (Option Double)
  | .null => .ok none
  | .bool value => .ok (some (.finite (if value then 1 else 0)))
  | .int value =>
      if Platform.fitsDouble value then .ok (some (.ofInt value))
      else .error .overflowError
  | .float value => .ok (some value)
  | .str _ | .arr _ | .obj _ => .error .typeError

/-! ## Responses -/

/-- `QuestionDraftOut(question, …)` -/
def QuestionDraftOut.of (schemas : Schemas) (question payload : Payload) :
    Option QuestionDraftOut := do
  let warnings ← texts (Payload.getOr payload "warnings" (.arr []))
  let referenceSolution ←
    optionalText (Payload.get payload "reference_solution")
  let referenceLanguage ←
    optionalText (Payload.get payload "reference_language")
  let engine ← text (Payload.getOr payload "engine" (.str ""))
  let costUsd ← schemas.optionalNumber (Payload.get payload "cost_usd")
  return ⟨question, warnings, referenceSolution, referenceLanguage, engine,
    costUsd⟩

/-- `VariantDraftOut(label, question, …)` -/
def VariantDraftOut.of (label : Option String) (question variant : Payload) :
    Option VariantDraftOut := do
  let referenceSolution ←
    optionalText (Payload.get variant "reference_solution")
  let referenceLanguage ←
    optionalText (Payload.get variant "reference_language")
  let warnings ← texts (Payload.getOr variant "warnings" (.arr []))
  return ⟨label, question, referenceSolution, referenceLanguage, warnings⟩

/-- `VariantSetDraftOut(variants, …)` -/
def VariantSetDraftOut.of (variants : List VariantDraftOut)
    (costUsd : Option Double) (payload : Payload) :
    Option VariantSetDraftOut := do
  let warnings ← texts (Payload.getOr payload "warnings" (.arr []))
  let engine ← text (Payload.getOr payload "engine" (.str ""))
  return ⟨variants, warnings, engine, costUsd⟩

/-- Whether the framework can render a draft. -/
def QuestionDraftOut.rendered (schemas : Schemas) (out : QuestionDraftOut) :
    Bool :=
  schemas.sendsQuestion out.question && out.warnings.all PyStr.isText &&
    out.referenceSolution.all PyStr.isText &&
    out.referenceLanguage.all PyStr.isText && out.engine.isText &&
    out.costUsd.all schemas.sends

/-- Whether it can render a variant of a set. -/
def VariantDraftOut.rendered (schemas : Schemas) (out : VariantDraftOut) :
    Bool :=
  schemas.sendsQuestion out.question &&
    out.referenceSolution.all PyStr.isText &&
    out.referenceLanguage.all PyStr.isText && out.warnings.all PyStr.isText

/-- Whether it can render a set. -/
def VariantSetDraftOut.rendered (schemas : Schemas) (out : VariantSetDraftOut) :
    Bool :=
  out.variants.all (VariantDraftOut.rendered schemas) &&
    out.warnings.all PyStr.isText && out.engine.isText &&
    out.costUsd.all schemas.sends

/-- `_VARIANT_LABELS[n] if n < len(_VARIANT_LABELS) else None` -/
def variantLabel (n : Nat) : Option String :=
  ("ABCDEFGH".toList[n]?).map String.singleton

/-! ## The variants of a set -/

/-- The variables of the loop in `draft_variant_set`. -/
structure Collected where
  variants : List VariantDraftOut := []
  totalCost : Double := 0
  haveCost : Bool := false

/-- A cost is counted, if there is one. -/
def Collected.charge (collected : Collected) : Option Double → Collected
  | none => collected
  | some cost =>
      { collected with
        totalCost := collected.totalCost + cost
        haveCost := true }

/-- The body of the loop in `draft_variant_set`. -/
def collectVariant (schemas : Schemas) (collected : Collected) :
    Json → Except Raised Collected
  | .obj v => do
      let cost ← variantCost (Payload.get v "cost_usd")
      let charged := collected.charge cost
      -- A variant that the agent could not draft carries no question.
      if !(Payload.get v "question").truthy then return charged
      match ← questionCreateFromAgent schemas (Payload.get v "question") with
      | .error _ => return charged
      | .ok question =>
          let label := variantLabel charged.variants.length
          let variant ← validated (VariantDraftOut.of label question v)
          return { charged with variants := charged.variants ++ [variant] }
  | _ => throw .attributeError

/-! ## The routes -/

/-- How a request fails: with an `HTTPException`, or with another exception,
which ends it with 500. -/
inductive Failure where
  | http (refused : HTTPException)
  | internal (raised : Raised)

/-- What a route answers with a response model, once it is validated and
rendered. -/
def respond {Out : Type} (rendered : Out → Bool) :
    Option Out → Except Failure Out
  | none => .error (.internal .validationError)
  | some out =>
      if rendered out then .ok out else .error (.internal .unrenderable)

section Routes

-- `describe` is `str` of a transport failure.
variable (schemas : Schemas) (describe : TransportFailure → String)
variable (platform : Platform) (orgId : Nat)

/-- The `except` branches around a draft call that claimed some drafts. -/
def failDraft {Out : Type} (claimed : Nat) :
    Raised → Prog (Except Failure Out)
  | .httpStatus response => do
      release platform orgId .drafts claimed
      match agentDetail platform response with
      | .ok (.text detail) =>
          return .error (.http ⟨response.statusCode, detail⟩)
      | .ok (.broken _) => return .error (.internal .unrenderable)
      | .error escaped => return .error (.internal escaped)
  | .transport failure => do
      release platform orgId .drafts claimed
      return .error (.http ⟨502, s!"agent unreachable: {describe failure}"⟩)
  | escaped => return .error (.internal escaped)

/-- The month takes a cost, if there is any. -/
def billable (cost : Double) : Bool :=
  cost == 0 || platform.engine.takesCost orgId cost

/-- `billing.record` of what a draft call cost: `false` where it raises. -/
def recordDraft (cost : Double) : Prog Bool := do
  if !billable platform orgId cost then return false
  record platform orgId (costs 0 cost)
  return true

/-- `draft_question`, once the agent has answered with a payload. -/
def deliverQuestion : Json → Prog (Except Failure QuestionDraftOut)
  | .obj payload =>
      match draftCost platform payload with
      | .error raised => return .error (.internal raised)
      | .ok cost => do
          let recorded ← recordDraft platform orgId cost
          if !recorded then return .error (.internal .integrityError)
          match questionCreateFromAgent schemas
              (orEmpty (Payload.get payload "question")) with
          | .error raised => return .error (.internal raised)
          | .ok (.error error) =>
              release platform orgId .drafts 1
              return .error (.http ⟨502, s!"the agent drafted a question " ++
                s!"this platform cannot store: {error}"⟩)
          | .ok (.ok question) =>
              return respond (QuestionDraftOut.rendered schemas)
                (QuestionDraftOut.of schemas question payload)
  | _ => return .error (.internal .attributeError)

/-- `draft_variant_set`, once the agent has answered with a payload. -/
def deliverSet (count : Nat) : Json → Prog (Except Failure VariantSetDraftOut)
  | .obj payload =>
      match (Payload.getOr payload "variants" (.arr [])).iterate with
      | none => return .error (.internal .typeError)
      | some items =>
          match items.foldlM (collectVariant schemas) {} with
          | .error raised => return .error (.internal raised)
          | .ok collected => do
              let recorded ← recordDraft platform orgId collected.totalCost
              if !recorded then return .error (.internal .integrityError)
              let undelivered : Int := count - collected.variants.length
              if undelivered > 0 then
                release platform orgId .drafts undelivered
              let costUsd :=
                if collected.haveCost then some collected.totalCost else none
              return respond (VariantSetDraftOut.rendered schemas)
                (VariantSetDraftOut.of collected.variants costUsd payload)
  | _ => return .error (.internal .attributeError)

/-- What follows a draft call. -/
def afterCall {Out : Type} (claimed : Nat)
    (deliver : Json → Prog (Except Failure Out)) :
    Except Raised Json → Prog (Except Failure Out)
  | .ok payload => deliver payload
  | .error raised => failDraft describe platform orgId claimed raised

end Routes

section Endpoints

-- The request arrives in `around`, and is answered by the agent in `answered`;
-- `transportAttempts` is `AGENT_DRAFT_TRANSPORT_ATTEMPTS`.
variable (deployment : Deployment) (around answered : Surroundings)
variable (db : Database) (caller : Nat)
variable (schemas : Schemas) (describe : TransportFailure → String)
variable (transportAttempts : Int) (exchanges : Nat → Exchange)

/-- What a draft request reads before its claim. -/
def draftGuards : Except HTTPException (Membership × Organization) := do
  let org ← db.currentMembership caller
  Accounts.checkLimiter around.toSurroundings
  let organization ← db.organization org.orgId
  return (org, organization)

/-- A draft request that claims some drafts, calls the agent and goes on. -/
def draftRequest {Out : Type} (count : Nat)
    (goOn : Platform → Nat → Except Raised Json → Prog (Except Failure Out)) :
    Except Failure Out × Database :=
  match draftGuards around db caller with
  | .error refused => (.error (.http refused), db)
  | .ok (org, organization) =>
      let platform := db.platform deployment
      let (consumed, claimed) := runProgram deployment around
        (consume platform organization .drafts count) db
      match consumed with
      | .refused limit =>
          (.error (.http (quotaError organization
            (planFor organization).drafts limit "AI question drafts"
            " this month")), claimed)
      | .granted =>
          runProgram deployment answered
            (goOn platform org.orgId (draftCall transportAttempts exchanges))
            claimed

/-- `draft_question` -/
def draftQuestion : Except Failure QuestionDraftOut × Database :=
  draftRequest deployment around answered db caller transportAttempts exchanges
    1 fun platform orgId =>
      afterCall describe platform orgId 1
        (deliverQuestion schemas platform orgId)

/-- `draft_variant_set` -/
def draftVariantSet (body : VariantSetDraftIn) :
    Except Failure VariantSetDraftOut × Database :=
  draftRequest deployment around answered db caller transportAttempts exchanges
    body.count fun platform orgId =>
      afterCall describe platform orgId body.count
        (deliverSet schemas platform orgId body.count)

end Endpoints

/-! ## What the allowance should pay for -/

/-- A value for a text field that a response can carry. -/
def sendsText (value : Json) : Bool :=
  (text value).any PyStr.isText

/-- A value for an optional text field that a response can carry. -/
def sendsOptionalText (value : Json) : Bool :=
  (optionalText value).any (·.all PyStr.isText)

/-- A value for a list of texts that a response can carry. -/
def sendsTexts (value : Json) : Bool :=
  (texts value).any (·.all PyStr.isText)

/-- The fields that `QuestionDraftOut` takes from a payload can be read and
sent. -/
def QuestionFieldsSent (schemas : Schemas) (payload : Payload) : Prop :=
  sendsTexts (Payload.getOr payload "warnings" (.arr [])) ∧
    sendsOptionalText (Payload.get payload "reference_solution") ∧
    sendsOptionalText (Payload.get payload "reference_language") ∧
    sendsText (Payload.getOr payload "engine" (.str "")) ∧
    (schemas.optionalNumber (Payload.get payload "cost_usd")).any
      (·.all schemas.sends)

instance (schemas : Schemas) (payload : Payload) :
    Decidable (QuestionFieldsSent schemas payload) :=
  inferInstanceAs (Decidable (_ ∧ _))

/-- The fields that `VariantDraftOut` reads in a variant. -/
def VariantFieldsRead (variant : Payload) : Prop :=
  (optionalText (Payload.get variant "reference_solution")).isSome ∧
    (optionalText (Payload.get variant "reference_language")).isSome ∧
    (texts (Payload.getOr variant "warnings" (.arr []))).isSome

/-- What `VariantDraftOut` takes from a variant can be sent. -/
def sendsVariant (schemas : Schemas) : Json → Bool
  | .obj v =>
      renderable schemas (Payload.get v "question") &&
        sendsOptionalText (Payload.get v "reference_solution") &&
        sendsOptionalText (Payload.get v "reference_language") &&
        sendsTexts (Payload.getOr v "warnings" (.arr []))
  | _ => false

/-- The fields that `VariantSetDraftOut` takes from a payload can be read and
sent. -/
def SetFieldsSent (payload : Payload) : Prop :=
  sendsTexts (Payload.getOr payload "warnings" (.arr [])) ∧
    sendsText (Payload.getOr payload "engine" (.str ""))

/-- A payload that `draft_question` can go through: an object with a cost that
`float` and the month take, a question that can be reshaped, and, where the
platform can store the question, a question and other fields that can be sent. -/
def QuestionAnswer (schemas : Schemas) (platform : Platform) (orgId : Nat)
    (answer : Json) : Prop :=
  ∃ payload, answer = .obj payload ∧
    ((Payload.get payload "cost_usd").truthy →
      (platform.float (Payload.get payload "cost_usd")).any
        (billable platform orgId)) ∧
    reshapes (orEmpty (Payload.get payload "question")) ∧
    (storable schemas (orEmpty (Payload.get payload "question")) →
      renderable schemas (orEmpty (Payload.get payload "question")) ∧
        QuestionFieldsSent schemas payload)

/-- A cost that can be added to a `float`. -/
def addable : Json → Bool
  | .null | .bool _ | .float _ => true
  | .int value => Platform.fitsDouble value
  | .str _ | .arr _ | .obj _ => false

/-- A variant that the loop of `draft_variant_set` can go through. -/
def VariantAnswer (schemas : Schemas) (answer : Json) : Prop :=
  ∃ v, answer = .obj v ∧ addable (Payload.get v "cost_usd") ∧
    ((Payload.get v "question").truthy →
      reshapes (Payload.get v "question") ∧
        (storable schemas (Payload.get v "question") → VariantFieldsRead v))

/-- A variant with a question that the platform can store. -/
def delivered (schemas : Schemas) : Json → Bool
  | .obj v =>
      (Payload.get v "question").truthy &&
        storable schemas (Payload.get v "question")
  | _ => false

/-- The number that a variant's cost is, if it has one. -/
def costOf : Json → List Double
  | .obj v =>
      match variantCost (Payload.get v "cost_usd") with
      | .ok cost => cost.toList
      | .error _ => []
  | _ => []

/-- The costs of some variants, added up in their order. -/
def totalOf (start : Double) (items : List Json) : Double :=
  (items.flatMap costOf).foldl (· + ·) start

/-- A payload that `draft_variant_set` can go through: an object with variants
that the loop can go through, with costs that the month takes together, and,
where some of the variants can be stored, no more of those than were asked for,
which can be sent with the other fields of a set. -/
def SetAnswer (schemas : Schemas) (platform : Platform) (orgId count : Nat)
    (answer : Json) : Prop :=
  ∃ payload items, answer = .obj payload ∧
    (Payload.getOr payload "variants" (.arr [])).iterate = some items ∧
    (∀ item ∈ items, VariantAnswer schemas item) ∧
    billable platform orgId (totalOf 0 items) ∧
    (items.countP (delivered schemas) = 0 ∨
      items.countP (delivered schemas) ≤ count ∧
        (∀ item ∈ items, delivered schemas item → sendsVariant schemas item) ∧
        SetFieldsSent payload ∧
        (items.flatMap costOf ≠ [] → schemas.sends (totalOf 0 items)))

/-- The drafts that an organisation has used in a month. -/
def draftsUsed (db : Database) (orgId : Nat) (period : Period) : Int :=
  (db.ledger.row orgId period).used .drafts

/-- The counter pays for the drafts that a response delivers, no more of them
than were asked for, and a request that fails costs nothing. -/
def Pays (count : Nat) (used left : Int) : Except Failure Nat → Prop
  | .ok drafts => drafts ≤ count ∧ left = used + drafts
  | .error _ => left = used

instance (count : Nat) (used left : Int) :
    (ended : Except Failure Nat) → Decidable (Pays count used left ended)
  | .ok _ => inferInstanceAs (Decidable (_ ∧ _))
  | .error _ => inferInstanceAs (Decidable (_ = _))

/-! ## Single steps -/

/-- A read that is followed by others. -/
theorem isSome_bind_iff {First Next : Type} {read : Option First}
    {next : First → Option Next} {rest : Prop}
    (isRest : ∀ value, (next value).isSome ↔ rest) :
    (read >>= next).isSome ↔ read.isSome ∧ rest := by
  cases read <;> simp [isRest]

/-- A draft is sent where its question and what it reads can be sent. -/
theorem QuestionDraftOut.sent_iff (schemas : Schemas)
    (question payload : Payload) :
    (QuestionDraftOut.of schemas question payload).any
        (QuestionDraftOut.rendered schemas) ↔
      schemas.sendsQuestion question ∧ QuestionFieldsSent schemas payload := by
  unfold QuestionDraftOut.of QuestionFieldsSent sendsTexts sendsOptionalText
    sendsText
  cases texts (Payload.getOr payload "warnings" (.arr [])) with
  | none => simp
  | some warnings =>
  cases optionalText (Payload.get payload "reference_solution") with
  | none => simp
  | some referenceSolution =>
  cases optionalText (Payload.get payload "reference_language") with
  | none => simp
  | some referenceLanguage =>
  cases text (Payload.getOr payload "engine" (.str "")) with
  | none => simp
  | some engine =>
  cases schemas.optionalNumber (Payload.get payload "cost_usd") with
  | none => simp
  | some costUsd => simp [QuestionDraftOut.rendered, and_assoc]

theorem VariantDraftOut.of_isSome (label : Option String)
    (question variant : Payload) :
    (VariantDraftOut.of label question variant).isSome ↔
      VariantFieldsRead variant := by
  apply isSome_bind_iff
  intro referenceSolution
  apply isSome_bind_iff
  intro referenceLanguage
  cases texts (Payload.getOr variant "warnings" (.arr [])) <;> simp

/-- A variant that has been read can be sent where its fields can. -/
theorem VariantDraftOut.rendered_of {schemas : Schemas}
    {label : Option String} {question variant : Payload} {out : VariantDraftOut}
    (isOut : VariantDraftOut.of label question variant = some out)
    (sends : schemas.sendsQuestion question =
      renderable schemas (Payload.get variant "question")) :
    out.rendered schemas = sendsVariant schemas (.obj variant) := by
  simp only [VariantDraftOut.of, Option.bind_eq_bind,
    Option.bind_eq_some_iff] at isOut
  obtain ⟨solution, isSolution, language, isLanguage, warnings, areWarnings,
    rest⟩ := isOut
  obtain rfl := Option.some.inj rest
  simp [VariantDraftOut.rendered, sendsVariant, sendsOptionalText, sendsTexts,
    isSolution, isLanguage, areWarnings, sends]

/-- A set is sent where its variants, its cost and what it reads can be
sent. -/
theorem VariantSetDraftOut.sent_iff (schemas : Schemas)
    (variants : List VariantDraftOut) (costUsd : Option Double)
    (payload : Payload) :
    (VariantSetDraftOut.of variants costUsd payload).any
        (VariantSetDraftOut.rendered schemas) ↔
      variants.all (VariantDraftOut.rendered schemas) ∧
        SetFieldsSent payload ∧ costUsd.all schemas.sends := by
  unfold VariantSetDraftOut.of SetFieldsSent sendsTexts sendsText
  cases texts (Payload.getOr payload "warnings" (.arr [])) with
  | none => simp
  | some warnings =>
  cases text (Payload.getOr payload "engine" (.str "")) with
  | none => simp
  | some engine => simp [VariantSetDraftOut.rendered, and_assoc]

theorem variantCost_cases (value : Json) :
    (addable value = true ∧ ∃ cost, variantCost value = .ok cost) ∨
      (addable value = false ∧ ∃ raised, variantCost value = .error raised) := by
  cases value with
  | int value =>
      cases fits : Platform.fitsDouble value <;>
        simp [addable, variantCost, fits]
  | _ => simp [addable, variantCost]

/-- A response is sent, or raises. -/
theorem respond_cases {Out : Type} (rendered : Out → Bool)
    (out : Option Out) :
    (out.any rendered = true ∧
      ∃ value, out = some value ∧ respond rendered out = .ok value) ∨
    (¬out.any rendered = true ∧
      ∃ failure, respond rendered out = .error failure) := by
  cases out with
  | none => exact Or.inr ⟨nofun, _, rfl⟩
  | some value => cases sent : rendered value <;> simp [respond, sent]

theorem VariantSetDraftOut.variants_of {variants : List VariantDraftOut}
    {costUsd : Option Double} {payload : Payload} {out : VariantSetDraftOut}
    (isOut : VariantSetDraftOut.of variants costUsd payload = some out) :
    out.variants = variants := by
  simp only [VariantSetDraftOut.of, Option.bind_eq_bind,
    Option.bind_eq_some_iff] at isOut
  obtain ⟨warnings, -, engine, -, rest⟩ := isOut
  obtain rfl := Option.some.inj rest
  rfl

/-- The cost of a payload is recorded, or raises. -/
theorem draftCost_cases (platform : Platform) (orgId : Nat)
    (payload : Payload) :
    let charged := (Payload.get payload "cost_usd").truthy →
      (platform.float (Payload.get payload "cost_usd")).any
        (billable platform orgId)
    (∃ cost, draftCost platform payload = .ok cost ∧
      (billable platform orgId cost ↔ charged)) ∨
    (¬charged ∧ ∃ raised, draftCost platform payload = .error raised) := by
  unfold draftCost
  cases (Payload.get payload "cost_usd").truthy with
  | false => exact Or.inl ⟨0, rfl, iff_of_true rfl nofun⟩
  | true => cases platform.float (Payload.get payload "cost_usd") <;> simp

/-! ## The loop over the variants -/

/-- What the loop has made of some variants. -/
structure Collects (schemas : Schemas) (collected : Collected)
    (items : List Json) (last : Collected) : Prop where
  length : last.variants.length =
    collected.variants.length + items.countP (delivered schemas)
  rendered : last.variants.all (VariantDraftOut.rendered schemas) =
    (collected.variants.all (VariantDraftOut.rendered schemas) &&
      items.all fun item =>
        !delivered schemas item || sendsVariant schemas item)
  totalCost : last.totalCost = totalOf collected.totalCost items
  haveCost : last.haveCost =
    (collected.haveCost || !(items.flatMap costOf).isEmpty)

namespace Collects

variable {schemas : Schemas} {collected next last : Collected}
variable {fields : Payload} {cost : Option Double}

theorem refl : Collects schemas collected [] collected where
  length := rfl
  rendered := by simp
  totalCost := rfl
  haveCost := by simp

theorem cons {item : Json} {items : List Json}
    (first : Collects schemas collected [item] next)
    (rest : Collects schemas next items last) :
    Collects schemas collected (item :: items) last where
  length := by
    have one : [item].countP (delivered schemas) + items.countP
        (delivered schemas) = (item :: items).countP (delivered schemas) :=
      List.countP_append.symm
    rw [rest.length, first.length, ← one, Nat.add_assoc]
  rendered := by
    rw [rest.rendered, first.rendered]
    simp [Bool.and_assoc]
  totalCost := by
    rw [rest.totalCost, first.totalCost]
    simp [totalOf]
  haveCost := by
    rw [rest.haveCost, first.haveCost, List.flatMap_cons]
    cases has : costOf item <;> simp [has]

/-- A variant without a question that can be stored leaves its cost. -/
theorem charge (isCost : variantCost (Payload.get fields "cost_usd") = .ok cost)
    (skipped : delivered schemas (.obj fields) = false) :
    Collects schemas collected [.obj fields] (collected.charge cost) where
  length := by cases cost <;> simp [Collected.charge, skipped]
  rendered := by cases cost <;> simp [Collected.charge, skipped]
  totalCost := by
    cases cost <;> simp [Collected.charge, totalOf, costOf, isCost]
  haveCost := by cases cost <;> simp [Collected.charge, costOf, isCost]

/-- A variant that can be stored is appended. -/
theorem append {variant : VariantDraftOut}
    (isCost : variantCost (Payload.get fields "cost_usd") = .ok cost)
    (isDelivered : delivered schemas (.obj fields) = true)
    (sent : variant.rendered schemas = sendsVariant schemas (.obj fields)) :
    Collects schemas collected [.obj fields]
      { collected.charge cost with
        variants := collected.variants ++ [variant] } where
  length := by simp [isDelivered]
  rendered := by simp [isDelivered, sent]
  totalCost := by
    cases cost <;> simp [Collected.charge, totalOf, costOf, isCost]
  haveCost := by cases cost <;> simp [Collected.charge, costOf, isCost]

end Collects

@[simp] theorem Collected.variants_charge (collected : Collected)
    (cost : Option Double) :
    (collected.charge cost).variants = collected.variants := by
  cases cost <;> rfl

/-- The loop goes through a variant, or raises. -/
theorem collectVariant_cases (schemas : Schemas) (collected : Collected)
    (v : Json) :
    (VariantAnswer schemas v ∧ ∃ next,
      collectVariant schemas collected v = .ok next ∧
        Collects schemas collected [v] next) ∨
    (¬VariantAnswer schemas v ∧ ∃ raised,
      collectVariant schemas collected v = .error raised) := by
  cases v with
  | obj fields =>
      have answers : VariantAnswer schemas (.obj fields) ↔
          addable (Payload.get fields "cost_usd") ∧
            ((Payload.get fields "question").truthy →
              reshapes (Payload.get fields "question") ∧
                (storable schemas (Payload.get fields "question") →
                  VariantFieldsRead fields)) := by
        constructor
        · rintro ⟨_, isObject, rest⟩
          obtain rfl := Json.obj.inj isObject
          exact rest
        · exact fun rest => ⟨fields, rfl, rest⟩
      rw [answers]
      rcases variantCost_cases (Payload.get fields "cost_usd") with
        ⟨adds, cost, isCost⟩ | ⟨unfit, raised, raises⟩
      · cases asked : (Payload.get fields "question").truthy with
        | false =>
            have skipped : delivered schemas (.obj fields) = false := by
              simp [delivered, asked]
            left
            refine ⟨⟨adds, nofun⟩, collected.charge cost, ?_,
              .charge isCost skipped⟩
            simp [collectVariant, isCost, asked]
        | true =>
            rcases questionCreateFromAgent_cases schemas
                (Payload.get fields "question") with
              ⟨shapeless, unstored, raises⟩ |
                ⟨shaped, unstored, error, refuses⟩ |
                ⟨shaped, stored, question, creates, sends⟩
            · right
              refine ⟨by simp [shapeless], .attributeError, ?_⟩
              simp [collectVariant, isCost, asked, raises]
            · have skipped : delivered schemas (.obj fields) = false := by
                simp [delivered, unstored]
              left
              refine ⟨⟨adds, fun _ => ⟨shaped, by simp [unstored]⟩⟩,
                collected.charge cost, ?_, .charge isCost skipped⟩
              simp [collectVariant, isCost, asked, refuses]
            · have isDelivered : delivered schemas (.obj fields) = true := by
                simp [delivered, asked, stored]
              have read := VariantDraftOut.of_isSome
                (variantLabel collected.variants.length) question fields
              cases out : VariantDraftOut.of
                (variantLabel collected.variants.length) question fields with
              | some variant =>
                  rw [out] at read
                  left
                  refine ⟨⟨adds, fun _ => ⟨shaped, fun _ => read.mp rfl⟩⟩, _,
                    ?_, .append isCost isDelivered
                      (VariantDraftOut.rendered_of out sends)⟩
                  simp [collectVariant, isCost, asked, creates, out, validated]
              | none =>
                  rw [out] at read
                  right
                  refine ⟨?_, .validationError, ?_⟩
                  · intro rest
                    exact absurd (read.mpr ((rest.2 rfl).2 stored)) nofun
                  · simp [collectVariant, isCost, asked, creates, out, validated]
      · right
        refine ⟨by simp [unfit], raised, ?_⟩
        simp [collectVariant, raises]
  | _ =>
      right
      refine ⟨?_, .attributeError, rfl⟩
      rintro ⟨fields, isObject, -⟩
      cases isObject

/-- The loop goes through all variants, or raises. -/
theorem foldlM_collectVariant (schemas : Schemas) (items : List Json)
    (collected : Collected) :
    ((∀ item ∈ items, VariantAnswer schemas item) ∧ ∃ last,
      items.foldlM (collectVariant schemas) collected = .ok last ∧
        Collects schemas collected items last) ∨
    ((¬∀ item ∈ items, VariantAnswer schemas item) ∧ ∃ raised,
      items.foldlM (collectVariant schemas) collected = .error raised) := by
  induction items generalizing collected with
  | nil => exact Or.inl ⟨nofun, collected, rfl, .refl⟩
  | cons item rest inductionHypothesis =>
      rw [List.foldlM_cons, List.forall_mem_cons]
      rcases collectVariant_cases schemas collected item with
        ⟨answers, next, collects, first⟩ | ⟨unfit, raised, raises⟩
      · rw [collects, Refusals.ok_bind]
        rcases inductionHypothesis next with
          ⟨others, last, isLast, later⟩ | ⟨unfit, raised, raises⟩
        · exact Or.inl ⟨⟨answers, others⟩, last, isLast, first.cons later⟩
        · exact Or.inr ⟨fun both => unfit both.2, raised, raises⟩
      · rw [raises, Refusals.error_bind]
        exact Or.inr ⟨fun both => unfit both.1, raised, rfl⟩

/-- A call that fails was not answered, or not with success. -/
theorem postFrom_error {retryable : Raised → Bool} {exchanges : Nat → Exchange}
    {attempt left : Nat} {raised : Raised}
    (fails : postFrom retryable exchanges attempt left = .error raised) :
    (∃ failure, raised = .transport failure) ∨
      ∃ response, raised = .httpStatus response := by
  have single {attempt : Nat} {raised : Raised}
      (fails : raiseForStatus (exchanges attempt) = .error raised) :
      (∃ failure, raised = .transport failure) ∨
        ∃ response, raised = .httpStatus response := by
    unfold raiseForStatus at fails
    split at fails
    · exact Or.inl ⟨_, (Except.error.inj fails).symm⟩
    · split at fails
      · cases fails
      · exact Or.inr ⟨_, (Except.error.inj fails).symm⟩
  induction left generalizing attempt with
  | zero => exact single fails
  | succ left inductionHypothesis =>
      unfold postFrom at fails
      split at fails
      · cases fails
      · next other isOther =>
        split at fails
        · exact inductionHypothesis fails
        · obtain rfl := Except.error.inj fails
          exact single isOther

/-! ## The counter -/

section Counter

variable {deployment : Deployment} {around : Surroundings}
variable {platform : Platform} {db : Database} {orgId : Nat} {period : Period}
variable {Value Next Out : Type} {used middle left : Int}

/-- A month is stored with a counter of drafts. -/
structure Holds (db : Database) (orgId : Nat) (period : Period) (used : Int) :
    Prop where
  constraints : db.Constraints
  isOrg : db.HasOrganization orgId
  stored : ∃ row, db.ledger (orgId, period) = some row ∧
    row.used .drafts = used

theorem Holds.draftsUsed (holds : Holds db orgId period used) :
    draftsUsed db orgId period = used := by
  obtain ⟨row, stored, isUsed⟩ := holds.stored
  rw [Drafting.draftsUsed, Ledger.row_of_some stored]
  exact isUsed

/-- From every state that holds one counter, a program answers a value and
leaves another counter. -/
def Bills (deployment : Deployment) (around : Surroundings) (orgId : Nat)
    (period : Period) (program : Prog Value) (used : Int) (value : Value)
    (left : Int) : Prop :=
  ∀ db, Holds db orgId period used →
    (runProgram deployment around program db).1 = value ∧
      Holds (runProgram deployment around program db).2 orgId period left

namespace Bills

theorem pure (value : Value) :
    Bills deployment around orgId period (Pure.pure value) used value used :=
  fun _ holds => ⟨rfl, holds⟩

theorem bind {program : Prog Value} {next : Value → Prog Next}
    {value : Value} {result : Next}
    (first : Bills deployment around orgId period program used value middle)
    (rest : Bills deployment around orgId period (next value) middle result
      left) :
    Bills deployment around orgId period (program >>= next) used result
      left := by
  intro db holds
  obtain ⟨isValue, between⟩ := first db holds
  unfold runProgram at isValue between ⊢
  rw [Interleaving.Program.run_bind, isValue]
  exact rest _ between

/-- A program whose moves of the ledger are known. -/
theorem of_moves {program : Prog Value} {value : Value}
    {next : Ledger → Ledger}
    (moves : ∀ ledger : Ledger, ledger.Keyed →
      Moves deployment around orgId program ledger value (next ledger))
    (counts : ∀ (ledger : Ledger) row, ledger.Keyed →
      ledger (orgId, period) = some row → row.used .drafts = used →
        ∃ after, next ledger (orgId, period) = some after ∧
          after.used .drafts = left) :
    Bills deployment around orgId period program used value left := by
  intro db holds
  have keyed := db.ledger_keyed
  obtain ⟨row, stored, isUsed⟩ := holds.stored
  obtain ⟨isValue, meters⟩ :=
    moves db.ledger keyed db holds.constraints holds.isOrg rfl
  refine ⟨isValue, meters.constraints, meters.hasOrganization holds.isOrg, ?_⟩
  rw [meters.ledger]
  exact counts db.ledger row keyed stored isUsed

theorem record (judgeCostUsd draftCostUsd : Double)
    (month : platform.periodKey around.now = period) :
    Bills deployment around orgId period
      (AssessmentPlatform.record platform orgId
        (costs judgeCostUsd draftCostUsd)) used () used := by
  apply of_moves fun ledger keyed => Moves.record _ keyed month
  intro ledger row keyed stored isUsed
  unfold Ledger.record
  split
  · exact ⟨row, stored, isUsed⟩
  · refine ⟨_, Ledger.put_self (keyed.key_row orgId period), ?_⟩
    rw [Ledger.row_of_some stored, used_add, isUsed]
    exact Int.add_zero used

theorem recordDraft (cost : Double)
    (month : platform.periodKey around.now = period) :
    Bills deployment around orgId period
      (Drafting.recordDraft platform orgId cost) used
      (billable platform orgId cost) used := by
  unfold Drafting.recordDraft
  cases billable platform orgId cost with
  | false => exact .pure false
  | true => exact (record 0 cost month).bind (.pure true)

theorem release (amount : Int)
    (month : platform.periodKey around.now = period) :
    Bills deployment around orgId period
      (AssessmentPlatform.release platform orgId .drafts amount) used ()
      (max 0 (used - amount)) := by
  apply of_moves fun ledger _ => Moves.release .drafts amount month
  intro ledger row keyed stored isUsed
  unfold Ledger.release
  rw [stored]
  have isKey : row.key = (orgId, period) :=
    Prod.mk.injEq .. ▸ keyed orgId period row stored
  refine ⟨_, Ledger.put_self isKey, ?_⟩
  rw [OrgUsage.used_setUsed_self, isUsed]

end Bills

end Counter

/-! ## Requests that were granted -/

section Granted

variable {deployment : Deployment} {around : Surroundings}
variable {platform : Platform} {orgId : Nat} {period : Period}
variable {Out : Type} {used : Int} {drafts : Out → Nat} {claimed : Nat}

/-- A program that goes on after a claim pays for what it delivers exactly
when a condition holds. -/
def PaysIff (deployment : Deployment) (around : Surroundings) (orgId : Nat)
    (period : Period) (drafts : Out → Nat) (claimed : Nat) (used : Int)
    (program : Prog (Except Failure Out)) (condition : Prop) : Prop :=
  ∃ ended left,
    Bills deployment around orgId period program (used + claimed) ended left ∧
      (Pays claimed used left (ended.map drafts) ↔ condition)

theorem PaysIff.iff {program : Prog (Except Failure Out)}
    {condition other : Prop}
    (pays : PaysIff deployment around orgId period drafts claimed used program
      condition) (same : condition ↔ other) :
    PaysIff deployment around orgId period drafts claimed used program
      other := by
  obtain ⟨ended, left, bills, isPaid⟩ := pays
  exact ⟨ended, left, bills, isPaid.trans same⟩

/-- A part that leaves the counter as it is. -/
theorem PaysIff.after {First : Type} {first : Prog First} {value : First}
    {next : First → Prog (Except Failure Out)} {condition : Prop}
    (before : Bills deployment around orgId period first (used + claimed) value
      (used + claimed))
    (pays : PaysIff deployment around orgId period drafts claimed used
      (next value) condition) :
    PaysIff deployment around orgId period drafts claimed used (first >>= next)
      condition := by
  obtain ⟨ended, left, bills, isPaid⟩ := pays
  exact ⟨ended, left, before.bind bills, isPaid⟩

/-- A request that fails at once keeps its claim. -/
theorem PaysIff.fails (failure : Failure) (positive : 0 < claimed) :
    PaysIff deployment around orgId period drafts claimed used
      (pure (.error failure)) False := by
  refine ⟨_, _, .pure _, ?_⟩
  have kept : used + claimed ≠ used := by omega
  exact iff_false_intro kept

/-- A request that answers with all that it claimed, if that can be validated
and rendered. -/
theorem PaysIff.responds (rendered : Out → Bool) (out : Option Out)
    (positive : 0 < claimed) (all : ∀ value, drafts value = claimed) :
    PaysIff deployment around orgId period drafts claimed used
      (pure (respond rendered out)) (out.any rendered = true) := by
  rcases respond_cases rendered out with
    ⟨sent, value, -, answers⟩ | ⟨unsent, failure, fails⟩
  · rw [answers]
    refine ⟨_, _, .pure _, iff_of_true ?_ sent⟩
    exact ⟨(all value).le, by rw [all value]⟩
  · rw [fails]
    exact (PaysIff.fails _ positive).iff (iff_of_false not_false unsent)

/-- A request that fails after it has handed its claim back. -/
theorem PaysIff.handsBack {program : Prog (Except Failure Out)}
    {failure : Failure} (nonneg : 0 ≤ used)
    (released : Bills deployment around orgId period program (used + claimed)
      (.error failure) (max 0 (used + claimed - claimed))) :
    PaysIff deployment around orgId period drafts claimed used program
      True := by
  refine ⟨_, _, released, iff_true_intro ?_⟩
  change max 0 (used + claimed - claimed) = used
  omega

theorem failDraft_handsBack {describe : TransportFailure → String}
    {raised : Raised} (nonneg : 0 ≤ used)
    (month : platform.periodKey around.now = period)
    (failed : (∃ failure, raised = .transport failure) ∨
      ∃ response, raised = .httpStatus response) :
    PaysIff deployment around orgId period drafts claimed used
      (failDraft describe platform orgId claimed raised) True := by
  have released : Bills deployment around orgId period
      (release platform orgId .drafts claimed) (used + claimed) ()
      (max 0 (used + claimed - claimed)) :=
    .release _ month
  rcases failed with ⟨failure, rfl⟩ | ⟨response, rfl⟩
  · exact .handsBack nonneg (released.bind (.pure _))
  · unfold failDraft
    dsimp only
    cases agentDetail platform response with
    | ok detail =>
        cases detail <;> exact .handsBack nonneg (released.bind (.pure _))
    | error escaped => exact .handsBack nonneg (released.bind (.pure _))

/-- `draft_question` pays for a draft exactly when it can go through the
payload. -/
theorem deliverQuestion_pays {schemas : Schemas} {answer : Json}
    (nonneg : 0 ≤ used) (month : platform.periodKey around.now = period) :
    PaysIff deployment around orgId period (fun _ : QuestionDraftOut => 1) 1
      used (deliverQuestion schemas platform orgId answer)
      (QuestionAnswer schemas platform orgId answer) := by
  cases answer with
  | obj payload =>
      have answers : QuestionAnswer schemas platform orgId (.obj payload) ↔
          ((Payload.get payload "cost_usd").truthy →
            (platform.float (Payload.get payload "cost_usd")).any
              (billable platform orgId)) ∧
          reshapes (orEmpty (Payload.get payload "question")) ∧
          (storable schemas (orEmpty (Payload.get payload "question")) →
            renderable schemas (orEmpty (Payload.get payload "question")) ∧
              QuestionFieldsSent schemas payload) := by
        constructor
        · rintro ⟨_, isObject, rest⟩
          obtain rfl := Json.obj.inj isObject
          exact rest
        · exact fun rest => ⟨payload, rfl, rest⟩
      unfold deliverQuestion
      dsimp only
      rcases draftCost_cases platform orgId payload with
        ⟨cost, isCost, charged⟩ | ⟨refuses, raised, raises⟩
      · rw [isCost]
        dsimp only
        apply PaysIff.after (.recordDraft cost month)
        cases bills : billable platform orgId cost with
        | false =>
            apply (PaysIff.fails _ Nat.one_pos).iff
            refine iff_of_false not_false ?_
            rw [answers, ← charged, bills]
            exact fun rest => nomatch rest.1
        | true =>
        have takes := charged.mp bills
        rcases questionCreateFromAgent_cases schemas
            (orEmpty (Payload.get payload "question")) with
          ⟨shapeless, unstored, raises⟩ | ⟨shaped, unstored, error, refuses⟩ |
            ⟨shaped, stored, question, creates, sends⟩
        · rw [raises]
          apply (PaysIff.fails _ Nat.one_pos).iff
          rw [answers]
          simp [shapeless]
        · rw [refuses]
          have released : Bills deployment around orgId period
              (release platform orgId .drafts 1) (used + (1 : Nat)) ()
              (max 0 (used + (1 : Nat) - (1 : Nat))) :=
            .release _ month
          apply (PaysIff.handsBack nonneg (released.bind (.pure _))).iff
          rw [answers]
          rw [unstored]
          exact iff_of_true trivial ⟨takes, shaped, nofun⟩
        · rw [creates]
          apply (PaysIff.responds _ _ Nat.one_pos fun _ => rfl).iff
          rw [QuestionDraftOut.sent_iff, answers, sends]
          exact ⟨fun sent => ⟨takes, shaped, fun _ => sent⟩,
            fun rest => rest.2.2 stored⟩
      · rw [raises]
        apply (PaysIff.fails _ Nat.one_pos).iff
        rw [answers]
        exact iff_of_false not_false fun rest => refuses rest.1
  | _ =>
      apply (PaysIff.fails _ Nat.one_pos).iff
      simp [QuestionAnswer]

/-- What is left of a claim for a set once the undelivered part of it has been
handed back. -/
theorem handBack_undelivered {Value : Type} {result : Value} {delivered : Nat}
    (nonneg : 0 ≤ used) (month : platform.periodKey around.now = period) :
    Bills deployment around orgId period
      (if (claimed : Int) - delivered > 0 then do
        release platform orgId .drafts (claimed - delivered)
        pure result
      else pure result)
      (used + claimed) result
      (used + (min claimed delivered : Nat)) := by
  split
  · next short =>
    have left : used + (min claimed delivered : Nat) =
        max 0 (used + claimed - (claimed - delivered)) := by
      omega
    rw [left]
    exact (Bills.release _ month).bind (.pure result)
  · next full =>
    have left : used + (min claimed delivered : Nat) = used + claimed := by
      omega
    rw [left]
    exact .pure result

/-- The response to a set, where the loop has gone through its variants. -/
theorem sent_iff_of_collects {schemas : Schemas} {payload : Payload}
    {items : List Json} {collected : Collected}
    (collects : Collects schemas {} items collected) :
    (VariantSetDraftOut.of collected.variants
        (if collected.haveCost then some collected.totalCost else none)
        payload).any (VariantSetDraftOut.rendered schemas) ↔
      (∀ item ∈ items,
        delivered schemas item → sendsVariant schemas item) ∧
      SetFieldsSent payload ∧
      (items.flatMap costOf ≠ [] → schemas.sends (totalOf 0 items)) := by
  rw [VariantSetDraftOut.sent_iff, collects.rendered, collects.totalCost,
    collects.haveCost]
  have variants : (items.all fun item =>
      !delivered schemas item || sendsVariant schemas item) = true ↔
        ∀ item ∈ items,
          delivered schemas item → sendsVariant schemas item := by
    simp [List.all_eq_true, imp_iff_not_or]
  rw [List.all_nil, Bool.true_and, variants]
  cases items.flatMap costOf <;> simp

/-- What follows the loop pays for the variants that it delivers. -/
theorem collected_pays {schemas : Schemas} {payload : Payload}
    {items : List Json} {collected : Collected}
    (collects : Collects schemas {} items collected)
    (positive : 0 < claimed) (nonneg : 0 ≤ used)
    (month : platform.periodKey around.now = period) :
    PaysIff deployment around orgId period
      (fun out : VariantSetDraftOut => out.variants.length) claimed used
      (do
        let recorded ← recordDraft platform orgId collected.totalCost
        if !recorded then return .error (.internal .integrityError)
        let undelivered : Int := claimed - collected.variants.length
        if undelivered > 0 then
          release platform orgId .drafts undelivered
        let costUsd :=
          if collected.haveCost then some collected.totalCost else none
        return respond (VariantSetDraftOut.rendered schemas)
          (VariantSetDraftOut.of collected.variants costUsd payload))
      (billable platform orgId (totalOf 0 items) ∧
        (items.countP (delivered schemas) = 0 ∨
          items.countP (delivered schemas) ≤ claimed ∧
            (∀ item ∈ items,
              delivered schemas item → sendsVariant schemas item) ∧
            SetFieldsSent payload ∧
            (items.flatMap costOf ≠ [] →
              schemas.sends (totalOf 0 items)))) := by
  have total : collected.variants.length = items.countP (delivered schemas) := by
    rw [collects.length]
    exact Nat.zero_add _
  have isTotal : collected.totalCost = totalOf 0 items := collects.totalCost
  rw [← sent_iff_of_collects collects, ← total, ← isTotal]
  apply PaysIff.after (.recordDraft collected.totalCost month)
  cases bills : billable platform orgId collected.totalCost with
  | false => exact (PaysIff.fails _ positive).iff (by simp)
  | true =>
      refine ⟨_, _, handBack_undelivered nonneg month, ?_⟩
      rw [and_iff_right rfl]
      rcases respond_cases (VariantSetDraftOut.rendered schemas)
          (VariantSetDraftOut.of collected.variants
            (if collected.haveCost then some collected.totalCost else none)
            payload) with
        ⟨sent, set, isOut, answers⟩ | ⟨unsent, failure, fails⟩
      · have isSet : set.variants = collected.variants :=
          VariantSetDraftOut.variants_of isOut
        rw [answers, and_iff_left sent]
        change set.variants.length ≤ claimed ∧
          used + _ = used + set.variants.length ↔ _
        rw [isSet]
        omega
      · rw [fails]
        change used + _ = used ↔ _
        constructor
        · intro free
          omega
        · rintro (none | ⟨-, sent⟩)
          · omega
          · exact absurd sent unsent

/-- `draft_variant_set` pays for the variants that it delivers exactly when it
can go through the payload. -/
theorem deliverSet_pays {schemas : Schemas} {answer : Json}
    (positive : 0 < claimed) (nonneg : 0 ≤ used)
    (month : platform.periodKey around.now = period) :
    PaysIff deployment around orgId period
      (fun out : VariantSetDraftOut => out.variants.length) claimed used
      (deliverSet schemas platform orgId claimed answer)
      (SetAnswer schemas platform orgId claimed answer) := by
  cases answer with
  | obj payload =>
      unfold deliverSet
      dsimp only
      cases iterates :
          (Payload.getOr payload "variants" (.arr [])).iterate with
      | none =>
          apply (PaysIff.fails _ positive).iff
          refine iff_of_false not_false ?_
          rintro ⟨_, items, isObject, isItems, -⟩
          obtain rfl := Json.obj.inj isObject
          cases iterates.symm.trans isItems
      | some items =>
          have answers : SetAnswer schemas platform orgId claimed
              (.obj payload) ↔
              (∀ item ∈ items, VariantAnswer schemas item) ∧
              billable platform orgId (totalOf 0 items) ∧
              (items.countP (delivered schemas) = 0 ∨
                items.countP (delivered schemas) ≤ claimed ∧
                  (∀ item ∈ items,
                    delivered schemas item → sendsVariant schemas item) ∧
                  SetFieldsSent payload ∧
                  (items.flatMap costOf ≠ [] →
                    schemas.sends (totalOf 0 items))) := by
            constructor
            · rintro ⟨_, others, isObject, isItems, rest⟩
              obtain rfl := Json.obj.inj isObject
              obtain rfl := Option.some.inj (iterates.symm.trans isItems)
              exact rest
            · exact fun rest => ⟨payload, items, rfl, iterates, rest⟩
          rw [answers]
          dsimp only
          rcases foldlM_collectVariant schemas items {} with
            ⟨all, collected, isLast, collects⟩ | ⟨unfit, raised, raises⟩
          · rw [isLast]
            dsimp only
            exact (collected_pays collects positive nonneg month).iff
              (and_iff_right all).symm
          · rw [raises]
            apply (PaysIff.fails _ positive).iff
            exact iff_of_false not_false fun rest => unfit rest.1
  | _ =>
      apply (PaysIff.fails _ positive).iff
      simp [SetAnswer]

end Granted

/-! ## Requests -/

/-- The answer that a draft call ends with, if it is a success, has a body that
decodes to a payload of some kind. -/
def Answered (answers : Json → Prop) (transportAttempts : Int)
    (exchanges : Nat → Exchange) : Prop :=
  ∀ response,
    postWithRetry transportAttempts draftIsRetryable exchanges =
        .ok response →
      ∃ answer, response.json = .ok answer ∧ answers answer

/-- A claim of drafts is granted. -/
def Fits (deployment : Deployment) (db : Database)
    (organization : Organization) (count : Nat) (period : Period) : Prop :=
  deployment.billingEnforced = true →
    (db.ledger.row organization.id period).used .drafts + count ≤
      allowance organization .drafts (db.ledger.row organization.id period)

/-- If a draft request gets as far as the call, the call is answered by a
payload that suits the caller's organisation. -/
def CallAnswered (deployment : Deployment) (around : Surroundings)
    (db : Database) (caller count : Nat) (transportAttempts : Int)
    (exchanges : Nat → Exchange) (answers : Nat → Json → Prop) : Prop :=
  ∀ org organization, draftGuards around db caller = .ok (org, organization) →
    Fits deployment db organization count (deployment.periodKey around.now) →
      Answered (answers org.orgId) transportAttempts exchanges

/-- The counter of the caller's organisation grows by the drafts of the
response, and stays for an error. -/
def RequestPays {Out : Type} (db : Database) (caller : Nat) (period : Period)
    (count : Nat) (drafts : Out → Nat)
    (result : Except Failure Out × Database) : Prop :=
  ∀ org, db.currentMembership caller = .ok org →
    Pays count (draftsUsed db org.orgId period)
      (draftsUsed result.2 org.orgId period) (result.1.map drafts)

section Requests

variable {deployment : Deployment} {around answered : Surroundings}
variable {db : Database} {caller : Nat} {schemas : Schemas}
variable {describe : TransportFailure → String} {transportAttempts : Int}
variable {exchanges : Nat → Exchange} {platform : Platform} {orgId : Nat}
variable {period : Period} {Out : Type} {used : Int} {drafts : Out → Nat}
variable {claimed : Nat}

/-- What follows a call pays for what it delivers exactly when the call fails or
is answered by a payload that can be delivered. -/
theorem afterCall_pays {deliver : Json → Prog (Except Failure Out)}
    {answers : Json → Prop} (positive : 0 < claimed) (nonneg : 0 ≤ used)
    (month : platform.periodKey around.now = period)
    (delivers : ∀ answer, PaysIff deployment around orgId period drafts claimed
      used (deliver answer) (answers answer)) :
    PaysIff deployment around orgId period drafts claimed used
      (afterCall describe platform orgId claimed deliver
        (draftCall transportAttempts exchanges))
      (Answered answers transportAttempts exchanges) := by
  unfold Answered draftCall
  cases called :
      postWithRetry transportAttempts draftIsRetryable exchanges with
  | error raised =>
      have failed : PaysIff deployment around orgId period drafts claimed used
          (failDraft describe platform orgId claimed raised) True :=
        failDraft_handsBack nonneg month (postFrom_error called)
      exact failed.iff (by simp)
  | ok response =>
      cases decoded : response.json with
      | error failure =>
          rw [Refusals.ok_bind, AgentResponse.decode, decoded]
          apply (PaysIff.fails _ positive).iff
          simp [decoded]
      | ok answer =>
          rw [Refusals.ok_bind, AgentResponse.decode, decoded]
          apply (delivers answer).iff
          simp [decoded]

/-- The month of an organisation whose row has been stored. -/
theorem Holds.of_put {after : Database} {row : OrgUsage}
    (meters : Database.Meters db after (db.ledger.put row))
    (isOrg : db.HasOrganization orgId) (isKey : row.key = (orgId, period))
    (isUsed : row.used .drafts = used) : Holds after orgId period used where
  constraints := meters.constraints
  isOrg := meters.hasOrganization isOrg
  stored := ⟨row, meters.ledger ▸ Ledger.put_self isKey, isUsed⟩

/-- A claim of drafts is granted and counted, or refused and not. -/
theorem consume_cases {organization : Organization}
    (constraints : db.Constraints)
    (isOrg : db.HasOrganization organization.id) (positive : 0 < claimed)
    (month : deployment.periodKey around.now = period) :
    let ran := runProgram deployment around
      (consume (db.platform deployment) organization .drafts claimed) db
    (Fits deployment db organization claimed period ∧ ran.1 = .granted ∧
        Holds ran.2 organization.id period
          (draftsUsed db organization.id period + claimed)) ∨
      (¬Fits deployment db organization claimed period ∧
        ∃ limit, ran.1 = .refused limit ∧
          draftsUsed ran.2 organization.id period =
            draftsUsed db organization.id period) := by
  intro ran
  have keyed := db.ledger_keyed
  have isKey := keyed.key_row organization.id period
  have moves : Moves deployment around organization.id
      (consume (db.platform deployment) organization .drafts claimed)
      db.ledger _ _ :=
    .consume .drafts claimed keyed month
  obtain ⟨isValue, meters⟩ := moves db constraints isOrg rfl
  have idle : ¬(claimed : Int) ≤ 0 := by omega
  change ran.1 = _ at isValue
  change Database.Meters db ran.2 _ at meters
  unfold Ledger.consume at isValue meters
  rw [if_neg idle] at isValue meters
  dsimp only at isValue meters
  have enforces : (db.platform deployment).billingEnforced =
      deployment.billingEnforced := rfl
  rw [enforces] at isValue meters
  unfold Fits
  cases enforced : deployment.billingEnforced with
  | false =>
      rw [enforced] at isValue meters
      refine Or.inl ⟨nofun, isValue, .of_put meters isOrg isKey ?_⟩
      rw [used_add, used_ofMetric]
      rfl
  | true =>
      rw [enforced] at isValue meters
      by_cases fits :
          (db.ledger.row organization.id period).used .drafts + claimed ≤
            allowance organization .drafts
              (db.ledger.row organization.id period)
      · rw [if_pos fits] at isValue meters
        exact Or.inl ⟨fun _ => fits, isValue,
          .of_put meters isOrg isKey (OrgUsage.used_setUsed_self _ _ _)⟩
      · rw [if_neg fits] at isValue meters
        refine Or.inr ⟨fun admits => fits (admits rfl), _, isValue, ?_⟩
        have stays : Holds ran.2 organization.id period _ :=
          .of_put meters isOrg isKey rfl
        exact stays.draftsUsed

/-- What a draft request has read is the caller's own organisation. -/
theorem draftGuards_eq_ok {org : Membership} {organization : Organization}
    (guarded : draftGuards around db caller = .ok (org, organization)) :
    db.currentMembership caller = .ok org ∧
      organization ∈ db.organizations ∧ organization.id = org.orgId := by
  simp only [draftGuards, Refusals.bind_eq_ok] at guarded
  obtain ⟨membership, isMember, -, -, found, isFound, rest⟩ := guarded
  obtain ⟨rfl, rfl⟩ := Prod.mk.inj (Except.ok.inj rest)
  have isOrg := Database.organization_eq_ok.mp isFound
  exact ⟨isMember, Rows.mem_of_fetch isOrg, Rows.key_of_fetch isOrg⟩

theorem requestPays_iff {org : Membership} {orgId : Nat}
    {result : Except Failure Out × Database}
    (isMember : db.currentMembership caller = .ok org)
    (isOrg : orgId = org.orgId) :
    RequestPays db caller period claimed drafts result ↔
      Pays claimed (draftsUsed db orgId period)
        (draftsUsed result.2 orgId period) (result.1.map drafts) := by
  subst isOrg
  constructor
  · exact fun pays => pays org isMember
  · intro paid other isOther
    obtain rfl := Except.ok.inj (isMember.symm.trans isOther)
    exact paid

theorem callAnswered_iff {org : Membership} {organization : Organization}
    {answers : Nat → Json → Prop}
    (guarded : draftGuards around db caller = .ok (org, organization))
    (month : deployment.periodKey around.now = period) :
    CallAnswered deployment around db caller claimed transportAttempts exchanges
        answers ↔
      (Fits deployment db organization claimed period →
        Answered (answers org.orgId) transportAttempts exchanges) := by
  subst month
  constructor
  · exact fun isAnswered => isAnswered org organization guarded
  · intro isAnswered other row isRead
    obtain ⟨rfl, rfl⟩ :=
      Prod.mk.inj (Except.ok.inj (guarded.symm.trans isRead))
    exact isAnswered

/-- A draft request pays for what it delivers exactly when the call that it gets
to is answered by a payload that can be delivered. -/
theorem draftRequest_pays
    {goOn : Platform → Nat → Except Raised Json → Prog (Except Failure Out)}
    {answers : Nat → Json → Prop} (constraints : db.Constraints)
    (counts : db.ledger.Counts) (positive : 0 < claimed)
    (month : deployment.periodKey around.now = period)
    (delivers : ∀ orgId used, 0 ≤ used →
      PaysIff deployment answered orgId period drafts claimed used
        (goOn (db.platform deployment) orgId
          (draftCall transportAttempts exchanges))
        (Answered (answers orgId) transportAttempts exchanges)) :
    RequestPays db caller period claimed drafts
        (draftRequest deployment around answered db caller transportAttempts
          exchanges claimed goOn) ↔
      CallAnswered deployment around db caller claimed transportAttempts
        exchanges answers := by
  cases guarded : draftGuards around db caller with
  | error refused =>
      unfold RequestPays CallAnswered draftRequest
      rw [guarded]
      exact iff_of_true (fun _ _ => rfl) nofun
  | ok read =>
      obtain ⟨org, organization⟩ := read
      obtain ⟨isMember, isOrganization, sameOrg⟩ := draftGuards_eq_ok guarded
      have isOrg : db.HasOrganization organization.id :=
        ⟨organization, isOrganization, rfl⟩
      rw [requestPays_iff isMember sameOrg, callAnswered_iff guarded month]
      have claims := consume_cases constraints isOrg positive month
      unfold draftRequest
      rw [guarded]
      dsimp only at claims ⊢
      rw [← sameOrg]
      cases ran : runProgram deployment around
        (consume (db.platform deployment) organization .drafts claimed) db with
      | mk consumed middle =>
          rw [ran] at claims
          rcases claims with
            ⟨fits, rfl, holds⟩ | ⟨unfit, limit, rfl, stays⟩
          · obtain ⟨ended, left, bills, isPaid⟩ :=
              delivers organization.id _ (counts.row _ _ _)
            obtain ⟨isEnded, leaves⟩ := bills middle holds
            dsimp only
            rw [isEnded, leaves.draftsUsed, forall_prop_of_true fits]
            exact isPaid
          · exact iff_of_true stays fun fits => absurd fits unfit

end Requests

/-- The allowance pays for the drafts that are delivered, and for no others,
exactly when the call that a draft request gets to fails or is answered by a
payload that the request can go through. -/
theorem drafts_paid (deployment : Deployment) (around answered : Surroundings)
    (db : Database) (caller : Nat) (schemas : Schemas)
    (describe : TransportFailure → String) (transportAttempts : Int)
    (exchanges : Nat → Exchange) (constraints : db.Constraints)
    (counts : db.ledger.Counts)
    (sameMonth : deployment.periodKey answered.now =
      deployment.periodKey around.now) :
    (RequestPays db caller (deployment.periodKey around.now) 1 (fun _ => 1)
        (draftQuestion deployment around answered db caller schemas describe
          transportAttempts exchanges) ↔
      CallAnswered deployment around db caller 1 transportAttempts exchanges
        (QuestionAnswer schemas (db.platform deployment))) ∧
    ∀ body : VariantSetDraftIn,
      (RequestPays db caller (deployment.periodKey around.now) body.count
          (fun out => out.variants.length)
          (draftVariantSet deployment around answered db caller schemas
            describe transportAttempts exchanges body) ↔
        CallAnswered deployment around db caller body.count transportAttempts
          exchanges fun orgId =>
            SetAnswer schemas (db.platform deployment) orgId body.count) := by
  constructor
  · apply draftRequest_pays constraints counts Nat.one_pos rfl
    intro orgId used nonneg
    apply afterCall_pays Nat.one_pos nonneg sameMonth
    exact fun answer => deliverQuestion_pays nonneg sameMonth
  · intro body
    have positive : 0 < body.count :=
      Nat.lt_of_lt_of_le Nat.two_pos body.count_bounds.1
    apply draftRequest_pays constraints counts positive rfl
    intro orgId used nonneg
    apply afterCall_pays positive nonneg sameMonth
    exact fun answer => deliverSet_pays positive nonneg sameMonth

/-! ## Concrete requests -/

namespace Scenario

open AssessmentPlatform.Scenario

/-- The account 1 and its organisation 2. -/
def registered : Database := (play [registers]).2

/-- A `QuestionCreate` needs a title. -/
def schemas : Schemas where
  questionError arguments :=
    if (Payload.get arguments "title").truthy then none else some "title"
  number _ := none
  sends _ := true
  sendsQuestion _ := true

/-- An agent that answers every attempt with 200 and a body. -/
def answers (text : String) (json : Except DecodeFailure Json) :
    Nat → Exchange :=
  fun _ => .ok ⟨200, text, json⟩

/-- A draft as the agent should send it. -/
def payload : Json :=
  .obj [("question", .obj [("title", .str "Sum"), ("prompt", .str "Add.")]),
    ("cost_usd", .float (.finite (1 / 8))), ("engine", .str "llm")]

/-- A draft with one more field. -/
def draftWith (field : PyStr × Json) : Json :=
  .obj [("question", .obj [("title", .str "Sum")]), field]

/-- A variant whose cost is an infinity. -/
def unbounded (negative : Bool) : Json :=
  .obj [("question", .obj [("title", .str "Sum")]),
    ("cost_usd", .float (.infinite negative))]

/-- `draft_question` for the account 1. -/
def drafts (exchanges : Nat → Exchange) :
    Except Failure QuestionDraftOut × Database :=
  draftQuestion deployment (surroundings 1 'd') (surroundings 2 'e') registered
    1 schemas (fun _ => "failed") 3 exchanges

/-- `draft_variant_set` for the account 1, and two variants. -/
def draftsSet (exchanges : Nat → Exchange) :
    Except Failure VariantSetDraftOut × Database :=
  draftVariantSet deployment (surroundings 1 'd') (surroundings 2 'e')
    registered 1 schemas (fun _ => "failed") 3 exchanges ⟨2, by decide⟩

end Scenario

open AssessmentPlatform.Scenario Scenario in
theorem drafts_paid_answered :
    RequestPays registered 1 ⟨2026, 1⟩ 1 (fun _ => 1)
      (drafts (answers "{…}" (.ok payload))) := by
  have counts : registered.ledger.Counts := by
    intro orgId period row metric stored
    cases stored
  have law := drafts_paid Scenario.deployment (surroundings 1 'd')
    (surroundings 2 'e') registered 1 schemas (fun _ => "failed") 3
    (answers "{…}" (.ok payload)) (by decide +kernel) counts rfl
  apply law.1.mpr
  intro org organization guarded _ response isResponse
  have isMember : registered.currentMembership 1 =
      .ok ⟨3, 2, 1, .admin, none⟩ := rfl
  obtain rfl := Except.ok.inj
    (isMember.symm.trans (draftGuards_eq_ok guarded).1)
  obtain rfl := Except.ok.inj isResponse
  refine ⟨payload, rfl, _, rfl, ?_⟩
  decide +kernel

open AssessmentPlatform.Scenario Scenario in
/-- A body that is not JSON costs a draft, and so does a cost that is NaN or a
warning that is no Unicode text; a set costs all of it where a cost cannot be
added, or where the costs add up to NaN. -/
theorem broken_answers_cost :
    ¬RequestPays registered 1 ⟨2026, 1⟩ 1 (fun _ => 1)
        (drafts (answers "<html>" (.error .valueError))) ∧
      ¬RequestPays registered 1 ⟨2026, 1⟩ 1 (fun _ => 1)
        (drafts (answers "{…}" (.ok (draftWith ("cost_usd", .float .nan))))) ∧
      ¬RequestPays registered 1 ⟨2026, 1⟩ 1 (fun _ => 1)
        (drafts (answers "{…}"
          (.ok (draftWith ("warnings", .arr [.str (.ofCodes [0xD800])]))))) ∧
      ¬RequestPays registered 1 ⟨2026, 1⟩ 2 (fun out => out.variants.length)
        (draftsSet (answers "{…}" (.ok (.obj
          [("variants", .arr [.obj [("cost_usd", .str "free")]])])))) ∧
      ¬RequestPays registered 1 ⟨2026, 1⟩ 2 (fun out => out.variants.length)
        (draftsSet (answers "{…}" (.ok (.obj
          [("variants", .arr [unbounded false, unbounded true])])))) := by
  refine ⟨?_, ?_, ?_, ?_, ?_⟩
  all_goals
    intro pays
    have stays := pays ⟨3, 2, 1, .admin, none⟩ rfl
    revert stays
    decide +kernel

end AssessmentPlatform.Drafting
