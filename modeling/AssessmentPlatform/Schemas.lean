import AssessmentPlatform.JsonText
import AssessmentPlatform.Refusals
import AssessmentPlatform.Security.PythonText
import Mathlib.Data.List.Sort

/-!
# What a question may be

The fields of a question in `schemas.py` with their caps, the check of its test
cases, and the limit on the body that saves it.
-/

namespace AssessmentPlatform.Schemas

open JsonText PythonText

/-! ## Caps -/

/-- `MAX_CASE_STDIN_CHARS` -/
def maxCaseStdinChars : Nat := 512 * 1024

/-- `MAX_CASE_EXPECTED_CHARS` -/
def maxCaseExpectedChars : Nat := 64 * 1024

/-- `MAX_TEST_CASES` -/
def maxTestCases : Nat := 25

/-- `MAX_QUESTION_CASES_BYTES` -/
def maxQuestionCasesBytes : Nat := 12 * 1024 * 1024

/-- `MAX_TITLE_CHARS` -/
def maxTitleChars : Nat := 200

/-- `MAX_PROMPT_CHARS` -/
def maxPromptChars : Nat := 20000

/-- `MAX_CONSTRAINTS_CHARS` -/
def maxConstraintsChars : Nat := 5000

/-- `MAX_EXAMPLE_CHARS` -/
def maxExampleChars : Nat := 8000

/-- `MAX_COMPLEXITY_CHARS` -/
def maxComplexityChars : Nat := 120

/-- `MAX_LANGUAGE_CHARS` -/
def maxLanguageChars : Nat := 40

/-- `MAX_CASE_NAME_CHARS` -/
def maxCaseNameChars : Nat := 200

/-- `MAX_CASE_WEIGHT` -/
def maxCaseWeight : Rat := 1000

/-- `MAX_CODE_CHARS` -/
def maxCodeChars : Nat := 200000

/-- `MAX_TIME_LIMIT_S` -/
def maxTimeLimitS : Rat := 10

/-- `config.MAX_BODY_BYTES`, by default. -/
def maxBodyBytes : Nat := 16 * 1024 * 1024

/-! ## Test cases -/

/-- `Category` -/
inductive Category where
  | correctness
  | performance
  deriving DecidableEq, Repr

/-- The literal of a category. -/
def Category.text : Category → String
  | .correctness => "correctness"
  | .performance => "performance"

/-- `_not_blank` -/
def NotBlank (value : String) : Prop :=
  strip value.toList ≠ []

instance (value : String) : Decidable (NotBlank value) :=
  inferInstanceAs (Decidable (strip value.toList ≠ []))

/-- `TestCaseIn` -/
structure TestCaseIn where
  name : String
  stdin : String
  expected : String
  category : Category
  weight : PyFloat
  deriving DecidableEq, Repr

/-- The rules of the fields of `TestCaseIn`. -/
structure TestCaseIn.Accepted (case : TestCaseIn) : Prop where
  name_present : NotBlank case.name
  name : case.name.length ≤ maxCaseNameChars
  stdin : case.stdin.length ≤ maxCaseStdinChars
  expected_present : 1 ≤ case.expected.length
  expected : case.expected.length ≤ maxCaseExpectedChars
  weight_positive : 0 < case.weight.value
  weight : case.weight.value ≤ maxCaseWeight

/-- `model_dump` of a test case. -/
def TestCaseIn.modelDump (case : TestCaseIn) : Value :=
  .obj
    [("name", .str case.name),
      ("stdin", .str case.stdin),
      ("expected", .str case.expected),
      ("category", .str case.category.text),
      ("weight", .float case.weight)]

/-- `json.dumps([c.model_dump() for c in cases])` -/
def dumpsCases (cases : List TestCaseIn) : List Char :=
  dumps (.arr (cases.map TestCaseIn.modelDump))

/-- `'{:,}'.format` of a whole number. -/
def grouped (number : Nat) : String :=
  let groups := (Nat.toDigits 10 number).reverse.toChunks 3
  String.ofList (List.intercalate [','] groups).reverse

/-- `_cases_the_agent_will_grade` -/
def casesTheAgentWillGrade (cases : List TestCaseIn) :
    Except String (List TestCaseIn) :=
  let names := cases.map TestCaseIn.name
  let duplicates :=
    (names.filter fun name => 1 < names.count name).dedup.insertionSort
      fun first second => first ≤ second
  let size := byteLength (dumpsCases cases)
  if duplicates ≠ [] then
    .error ("test case names must be unique; repeated: " ++
      ", ".intercalate duplicates)
  else if maxQuestionCasesBytes < size then
    .error (s!"test cases serialize to {grouped size} bytes, over the " ++
      s!"{grouped maxQuestionCasesBytes}-byte budget — the question could " ++
      "be created but never edited, since a PUT re-sends every case.")
  else .ok cases

/-! ## Questions -/

/-- `Difficulty` -/
inductive Difficulty where
  | easy
  | medium
  | hard
  deriving DecidableEq, Repr

/-- The literal of a difficulty. -/
def Difficulty.text : Difficulty → String
  | .easy => "easy"
  | .medium => "medium"
  | .hard => "hard"

/-- `_QuestionFields` -/
structure QuestionFields where
  title : String
  prompt : String
  constraints : String
  timeLimitS : PyFloat
  passThreshold : PyFloat
  requiredComplexity : Option String
  exampleInput : Option String
  exampleOutput : Option String
  difficulty : Option Difficulty
  referenceSolution : Option String
  referenceLanguage : Option String
  durationMinutes : Option Int
  testCases : List TestCaseIn
  deriving DecidableEq, Repr

/-- The rules of the fields of `_QuestionFields`. -/
structure QuestionFields.Accepted (question : QuestionFields) : Prop where
  title_present : NotBlank question.title
  title : question.title.length ≤ maxTitleChars
  prompt_present : NotBlank question.prompt
  prompt : question.prompt.length ≤ maxPromptChars
  constraints_present : NotBlank question.constraints
  constraints : question.constraints.length ≤ maxConstraintsChars
  timeLimitS_positive : 0 < question.timeLimitS.value
  timeLimitS : question.timeLimitS.value ≤ maxTimeLimitS
  passThreshold_positive : 0 < question.passThreshold.value
  passThreshold : question.passThreshold.value ≤ 1
  requiredComplexity :
    ∀ text ∈ question.requiredComplexity, text.length ≤ maxComplexityChars
  exampleInput : ∀ text ∈ question.exampleInput, text.length ≤ maxExampleChars
  exampleOutput :
    ∀ text ∈ question.exampleOutput, text.length ≤ maxExampleChars
  referenceSolution :
    ∀ text ∈ question.referenceSolution, text.length ≤ maxCodeChars
  referenceLanguage :
    ∀ text ∈ question.referenceLanguage, text.length ≤ maxLanguageChars
  durationMinutes : ∀ minutes ∈ question.durationMinutes, 0 < minutes
  testCases_length : question.testCases.length ≤ maxTestCases
  testCases : ∀ case ∈ question.testCases, case.Accepted
  graded : casesTheAgentWillGrade question.testCases = .ok question.testCases

/-- An optional text as JSON. -/
def optional : Option String → Value
  | none => .null
  | some text => .str text

/-- The fields of a `QuestionUpdate`. -/
def QuestionFields.fields (question : QuestionFields) :
    List (String × Value) :=
  [("title", .str question.title),
    ("prompt", .str question.prompt),
    ("constraints", .str question.constraints),
    ("time_limit_s", .float question.timeLimitS),
    ("pass_threshold", .float question.passThreshold),
    ("required_complexity", optional question.requiredComplexity),
    ("example_input", optional question.exampleInput),
    ("example_output", optional question.exampleOutput),
    ("difficulty", optional (question.difficulty.map Difficulty.text)),
    ("reference_solution", optional question.referenceSolution),
    ("reference_language", optional question.referenceLanguage),
    ("duration_minutes",
      (question.durationMinutes.map Value.int).getD .null),
    ("test_cases", .arr (question.testCases.map TestCaseIn.modelDump))]

/-- `model_dump` of a `QuestionUpdate`. -/
def QuestionFields.modelDump (question : QuestionFields) : Value :=
  .obj question.fields

/-- `_limit_body_size`, by the length that a request declares. -/
def limitBodySize (maxBodyBytes declared : Nat) : Except HTTPException Unit :=
  if maxBodyBytes < declared then
    throw ⟨413, s!"request body exceeds {maxBodyBytes} bytes."⟩
  else return ()

/-! ## The size of the body -/

variable {question : QuestionFields}

/-- The length of a field of an object. -/
def fieldLength (field : String × Value) : Nat :=
  (dumpsString field.1).length + (dumps field.2).length + 4

theorem fieldLength_le {key : String} (short : key.length ≤ 20)
    (value : Value) :
    fieldLength (key, value) ≤ (dumps value).length + 246 := by
  have quoted := length_dumpsString_le key
  have length : fieldLength (key, value) =
      (dumpsString key).length + (dumps value).length + 4 := rfl
  omega

theorem fieldLength_str_le {key text : String} {cap : Nat}
    (short : key.length ≤ 20) (within : text.length ≤ cap) :
    fieldLength (key, .str text) ≤ 12 * cap + 248 := by
  have field := fieldLength_le short (.str text)
  have quoted := length_dumpsString_le text
  rw [dumps] at field
  omega

theorem fieldLength_optional_le {key : String} {text : Option String}
    {cap : Nat} (short : key.length ≤ 20)
    (within : ∀ given ∈ text, given.length ≤ cap) :
    fieldLength (key, optional text) ≤ 12 * cap + 250 := by
  cases text with
  | none => exact (fieldLength_le short .null).trans (Nat.le_add_left 250 _)
  | some text =>
      exact (fieldLength_str_le short (within text rfl)).trans (by omega)

theorem fieldLength_float_le {key : String} (short : key.length ≤ 20)
    (float : PyFloat) : fieldLength (key, .float float) ≤ 270 := by
  have field := fieldLength_le short (.float float)
  have shown := float.length_repr_le
  rw [dumps] at field
  omega

theorem fieldLength_duration_le {key : String} {minutes : Option Int}
    (short : key.length ≤ 20) (positive : ∀ given ∈ minutes, 0 < given)
    (small : ∀ given ∈ minutes, given < 2 ^ 31) :
    fieldLength (key, (minutes.map Value.int).getD .null) ≤ 256 := by
  cases minutes with
  | none => exact (fieldLength_le short .null).trans (by decide)
  | some minutes =>
      have below := small minutes rfl
      have digits : (dumps (.int minutes)).length ≤ 10 :=
        length_dumps_int_le (positive minutes rfl).le (by decide)
          (below.trans (by decide))
      exact (fieldLength_le short (.int minutes)).trans (by omega)

/-- The check of the test cases keeps their text within its budget. -/
theorem length_dumpsCases_le {cases : List TestCaseIn}
    (graded : casesTheAgentWillGrade cases = .ok cases) :
    (dumpsCases cases).length ≤ maxQuestionCasesBytes := by
  unfold casesTheAgentWillGrade at graded
  dsimp only at graded
  split at graded
  · cases graded
  · split at graded
    · cases graded
    · next within =>
      have bytes : byteLength (dumpsCases cases) = (dumpsCases cases).length :=
        (ascii_dumps _).byteLength_eq
      omega

theorem length_difficulty_le (difficulty : Option Difficulty) :
    ∀ given ∈ difficulty.map Difficulty.text, given.length ≤ 6 := by
  intro given isText
  obtain ⟨level, _, rfl⟩ := Option.map_eq_some_iff.mp isText
  cases level <;> decide

/-- The caps of the other fields, twelve bytes a character, fit between the
budget of the test cases and the limit on bodies. -/
theorem caps_fit :
    maxQuestionCasesBytes +
      12 * (maxTitleChars + maxPromptChars + maxConstraintsChars +
        maxComplexityChars + 2 * maxExampleChars + maxCodeChars +
        maxLanguageChars) + 4096 ≤ maxBodyBytes := by
  decide

/-- The body that re-sends an accepted question fits the limit on bodies. -/
theorem length_modelDump_le (accepted : question.Accepted)
    (small : ∀ minutes ∈ question.durationMinutes, minutes < 2 ^ 31) :
    (dumps question.modelDump).length ≤ maxBodyBytes := by
  have body : (dumps question.modelDump).length ≤
      (question.fields.map fieldLength).sum + 2 :=
    length_dumps_obj_le question.fields
  simp only [QuestionFields.fields, List.map_cons, List.map_nil, List.sum_cons,
    List.sum_nil] at body
  have title : fieldLength ("title", .str question.title) ≤ _ :=
    fieldLength_str_le (by decide) accepted.title
  have prompt : fieldLength ("prompt", .str question.prompt) ≤ _ :=
    fieldLength_str_le (by decide) accepted.prompt
  have constraints :
      fieldLength ("constraints", .str question.constraints) ≤ _ :=
    fieldLength_str_le (by decide) accepted.constraints
  have timeLimit :
      fieldLength ("time_limit_s", .float question.timeLimitS) ≤ _ :=
    fieldLength_float_le (by decide) _
  have threshold :
      fieldLength ("pass_threshold", .float question.passThreshold) ≤ _ :=
    fieldLength_float_le (by decide) _
  have complexity :
      fieldLength
        ("required_complexity", optional question.requiredComplexity) ≤ _ :=
    fieldLength_optional_le (by decide) accepted.requiredComplexity
  have input :
      fieldLength ("example_input", optional question.exampleInput) ≤ _ :=
    fieldLength_optional_le (by decide) accepted.exampleInput
  have output :
      fieldLength ("example_output", optional question.exampleOutput) ≤ _ :=
    fieldLength_optional_le (by decide) accepted.exampleOutput
  have difficulty :
      fieldLength
        ("difficulty", optional (question.difficulty.map Difficulty.text)) ≤
          _ :=
    fieldLength_optional_le (by decide)
      (length_difficulty_le question.difficulty)
  have solution :
      fieldLength
        ("reference_solution", optional question.referenceSolution) ≤ _ :=
    fieldLength_optional_le (by decide) accepted.referenceSolution
  have language :
      fieldLength
        ("reference_language", optional question.referenceLanguage) ≤ _ :=
    fieldLength_optional_le (by decide) accepted.referenceLanguage
  have duration :
      fieldLength
        ("duration_minutes",
          (question.durationMinutes.map Value.int).getD .null) ≤ _ :=
    fieldLength_duration_le (by decide) accepted.durationMinutes small
  have cases :
      fieldLength
        ("test_cases",
          .arr (question.testCases.map TestCaseIn.modelDump)) ≤ _ :=
    fieldLength_le (by decide) _
  have budget := length_dumpsCases_le accepted.graded
  have fit := caps_fit
  rw [dumpsCases] at budget
  omega

/-- Every question that the schema accepts stays editable: the body that
re-sends it is never larger than the default limit, so it is not refused for
its size. -/
theorem accepted_stays_editable (question : QuestionFields)
    (accepted : question.Accepted)
    (small : ∀ minutes ∈ question.durationMinutes, minutes < 2 ^ 31) :
    byteLength (dumps question.modelDump) ≤ maxBodyBytes ∧
      limitBodySize maxBodyBytes (byteLength (dumps question.modelDump)) =
        .ok () := by
  have within := length_modelDump_le accepted small
  rw [← (ascii_dumps question.modelDump).byteLength_eq] at within
  refine ⟨within, ?_⟩
  rw [limitBodySize, if_neg (Nat.not_lt.mpr within)]
  rfl

/-- A question with one test case, of an hour. -/
def echo : QuestionFields where
  title := "Echo"
  prompt := "Print the line."
  constraints := "One line."
  timeLimitS := ⟨false, [2], 1, by decide, by decide⟩
  passThreshold := ⟨false, [9], 0, by decide, by decide⟩
  requiredComplexity := none
  exampleInput := some "é"
  exampleOutput := some "é"
  difficulty := some .easy
  referenceSolution := none
  referenceLanguage := none
  durationMinutes := some 60
  testCases :=
    [⟨"line", "é", "é", .correctness, ⟨false, [1], 1, by decide, by decide⟩⟩]

theorem echo_accepted : echo.Accepted where
  title_present := by decide
  title := by decide
  prompt_present := by decide
  prompt := by decide
  constraints_present := by decide
  constraints := by decide
  timeLimitS_positive := by decide +kernel
  timeLimitS := by decide +kernel
  passThreshold_positive := by decide +kernel
  passThreshold := by decide +kernel
  requiredComplexity := by decide
  exampleInput := by decide
  exampleOutput := by decide
  referenceSolution := by decide
  referenceLanguage := by decide
  durationMinutes := by decide
  testCases_length := by decide
  testCases := by
    intro case member
    obtain rfl := List.mem_singleton.mp member
    exact ⟨by decide, by decide, by decide, by decide, by decide,
      by decide +kernel, by decide +kernel⟩
  graded := by decide +kernel

theorem accepted_stays_editable_echo :
    byteLength (dumps echo.modelDump) ≤ maxBodyBytes ∧
      limitBodySize maxBodyBytes (byteLength (dumps echo.modelDump)) =
        .ok () :=
  accepted_stays_editable echo echo_accepted (by decide)

end AssessmentPlatform.Schemas
