import AssessmentPlatform.Records.LibraryCommits
import AssessmentPlatform.Records.Sample

/-!
# Minted identifiers

`_generate_id` looks at six derived identifiers and hands out a seventh without
looking.  What it mints is unused exactly when one of the seven is, and the
identifiers of one variant set are unused and distinct exactly when that holds
at each of its variants.
-/

namespace AssessmentPlatform

open Rows Refusals

/-! ## Minting a batch -/

section Batch

variable {Id Item : Type} [BEq Id] [LawfulBEq Id]

/-- Mint one identifier after the other: each minting is told which ones are in
use or were taken by the batch. -/
def mintAll (mint : Item → (Id → Bool) → Id) (inUse : Id → Bool) :
    List Id → List Item → List Id
  | _, [] => []
  | taken, item :: rest =>
      let id := mint item fun id => taken.contains id || inUse id
      id :: mintAll mint inUse (taken ++ [id]) rest

variable {mint : Item → (Id → Bool) → Id} {inUse : Id → Bool}

theorem forall_split_cons {first : Item} {rest : List Item}
    {holds : List Item → Item → Prop} :
    (∀ before item after, first :: rest = before ++ item :: after →
        holds before item) ↔
      holds [] first ∧
        ∀ before item after, rest = before ++ item :: after →
          holds (first :: before) item := by
  constructor
  · intro all
    exact ⟨all [] first rest rfl, fun before item after split =>
      all (first :: before) item after (congrArg (first :: ·) split)⟩
  · rintro ⟨atFirst, atRest⟩ before item after split
    cases before with
    | nil =>
        cases split
        exact atFirst
    | cons head before =>
        cases split
        exact atRest before item after rfl

/-- A batch mints unused and distinct identifiers exactly when each minting
returns one that is neither in use nor taken. -/
theorem mintAll_fresh_iff {taken : List Id} {items : List Item} :
    ((∀ id ∈ mintAll mint inUse taken items, id ∉ taken ∧ inUse id = false) ∧
      (mintAll mint inUse taken items).Nodup) ↔
    ∀ before item after, items = before ++ item :: after →
      let used := fun id =>
        (taken ++ mintAll mint inUse taken before).contains id || inUse id
      used (mint item used) = false := by
  induction items generalizing taken with
  | nil => simp [mintAll]
  | cons item rest inductionHypothesis =>
      let minted := mint item fun id => taken.contains id || inUse id
      have later := @inductionHypothesis (taken ++ [minted])
      have unused :
          (taken.contains minted || inUse minted) = false ↔
            minted ∉ taken ∧ inUse minted = false := by
        simp
      rw [forall_split_cons]
      simp only [mintAll, List.append_nil]
      simp only [List.append_assoc, List.singleton_append] at later
      rw [← later, unused]
      constructor
      · rintro ⟨fresh, nodup⟩
        obtain ⟨apart, nodup⟩ := List.nodup_cons.mp nodup
        obtain ⟨head, tail⟩ := List.forall_mem_cons.mp fresh
        refine ⟨head, fun id member => ⟨?_, (tail id member).2⟩, nodup⟩
        rw [List.mem_append, List.mem_singleton, not_or]
        refine ⟨(tail id member).1, ?_⟩
        rintro rfl
        exact apart member
      · rintro ⟨head, fresh, nodup⟩
        have apart : ∀ id ∈ mintAll mint inUse (taken ++ [minted]) rest,
            id ∉ taken ∧ id ≠ minted := by
          intro id member
          have outside := (fresh id member).1
          rwa [List.mem_append, List.mem_singleton, not_or] at outside
        exact
          ⟨List.forall_mem_cons.mpr
            ⟨head, fun id member =>
              ⟨(apart id member).1, (fresh id member).2⟩⟩,
            List.nodup_cons.mpr
              ⟨fun member => (apart minted member).2 rfl, nodup⟩⟩

end Batch

/-! ## One identifier -/

section Generated

variable (settings : Accounts.AuthSettings) (around : Surroundings)

/-- The identifiers that `_generate_id` can return for a title: six with a
random suffix, and the one that it falls back to. -/
def derivedIds (title : String) (drawn : Nat) : List String :=
  ((List.range 6).map fun attempt =>
    slugify settings title ++ "-" ++ around.suffix drawn attempt) ++
  [slugify settings title ++ "-" ++
    String.ofList ((around.uuid drawn).toList.take 8)]

/-- One of the identifiers that a minting can return is unused. -/
def LeavesOne (title : String) (drawn : Nat) (exists' : String → Bool) :
    Prop :=
  ∃ id ∈ derivedIds settings around title drawn, exists' id = false

theorem generateId_mem_derivedIds {title : String} {drawn : Nat}
    {exists' : String → Bool} :
    generateId settings around title drawn exists' ∈
      derivedIds settings around title drawn := by
  unfold generateId derivedIds
  dsimp only
  rw [List.mem_append]
  cases found : ((List.range 6).map fun attempt =>
      slugify settings title ++ "-" ++ around.suffix drawn attempt).find?
        fun candidate => !exists' candidate with
  | none => exact .inr List.mem_cons_self
  | some candidate => exact .inl (List.mem_of_find?_eq_some found)

theorem generateId_unused_iff {title : String} {drawn : Nat}
    {exists' : String → Bool} :
    exists' (generateId settings around title drawn exists') = false ↔
      LeavesOne settings around title drawn exists' := by
  constructor
  · intro unused
    exact ⟨_, generateId_mem_derivedIds settings around, unused⟩
  · rintro ⟨id, isDerived, unused⟩
    unfold generateId
    dsimp only
    cases found : ((List.range 6).map fun attempt =>
        slugify settings title ++ "-" ++ around.suffix drawn attempt).find?
          fun candidate => !exists' candidate with
    | some candidate =>
        have isFree := List.find?_some found
        simpa using isFree
    | none =>
        -- none of the six was unused, so the one left is the seventh
        rcases List.mem_append.mp isDerived with isSuffixed | isFallback
        · have isTaken := List.find?_eq_none.mp found id isSuffixed
          simp [unused] at isTaken
        · rw [List.mem_singleton.mp isFallback] at unused
          exact unused

/-! ## The identifiers of a variant set -/

/-- The minting of `create_variant_set` for a variant. -/
def mintVariantId (numbered : VariantCreate × Nat)
    (exists' : String → Bool) : String :=
  let title :=
    if numbered.1.title = "" then "variant" else numbered.1.title
  generateId settings around title (numbered.2 + 1) exists'

/-- The identifiers that the loop of `create_variant_set` mints, with `taken`
those of the batch so far. -/
def mintVariantIds (exists' : String → Bool) (variants : List VariantCreate) :
    List String :=
  mintAll (mintVariantId settings around) exists' [] variants.zipIdx

/-- At each variant one of the derived identifiers is neither in use nor taken
by the variants before it. -/
def BatchLeavesOne (exists' : String → Bool)
    (variants : List VariantCreate) : Prop :=
  ∀ before variant index after,
    variants.zipIdx = before ++ (variant, index) :: after →
      LeavesOne settings around
        (if variant.title = "" then "variant" else variant.title) (index + 1)
        fun id =>
          (mintAll (mintVariantId settings around) exists' []
            before).contains id || exists' id

theorem mintVariantIds_unused_iff {exists' : String → Bool}
    {variants : List VariantCreate} :
    ((∀ id ∈ mintVariantIds settings around exists' variants,
        exists' id = false) ∧
      (mintVariantIds settings around exists' variants).Nodup) ↔
    BatchLeavesOne settings around exists' variants := by
  have fresh :=
    @mintAll_fresh_iff _ _ _ _ (mintVariantId settings around) exists' []
      variants.zipIdx
  simp only [List.not_mem_nil, not_false_iff, true_and, List.nil_append]
    at fresh
  rw [mintVariantIds, fresh]
  constructor
  · intro each before variant index after split
    exact (generateId_unused_iff settings around).mp
      (each before (variant, index) after split)
  · rintro each before ⟨variant, index⟩ after split
    exact (generateId_unused_iff settings around).mpr
      (each before variant index after split)

end Generated

/-! ## What the batch inserts -/

variable {deployment : Deployment} {around : Surroundings}
variable {set : VariantSet} {db after : Database}

theorem questionExists_addQuestion (question : Question) (count : Nat)
    (id : String) :
    questionExists (addQuestion db question count) id =
      (questionExists db id || question.id == id) := by
  unfold questionExists addQuestion fetch
  rw [List.find?_append]
  by_cases same : question.id = id
  · cases db.questions.find? fun row => row.id == id <;> simp [same]
  · cases db.questions.find? fun row => row.id == id <;> simp [same]

theorem sees_addQuestion {inUse : String → Bool} {taken : List String}
    (sees : ∀ id, questionExists db id = (taken.contains id || inUse id))
    (question : Question) (count : Nat) (id : String) :
    questionExists (addQuestion db question count) id =
      ((taken ++ [question.id]).contains id || inUse id) := by
  rw [questionExists_addQuestion, sees, List.contains_append]
  have single : [question.id].contains id = (question.id == id) := by
    rw [List.contains_cons, List.contains_nil, Bool.or_false, BEq.comm]
  rw [single, Bool.or_right_comm]

/-- The loop of `create_variant_set` inserts a question for each identifier that
it mints, whatever part of the batch was inserted before. -/
theorem addVariants_mints {inUse : String → Bool} {taken : List String}
    {variants : List VariantCreate} {index : Nat}
    (sees : ∀ id, questionExists db id = (taken.contains id || inUse id))
    (added : addVariants deployment around set index variants db = .ok after) :
    ∃ questions,
      after.questions = db.questions ++ questions ∧
      questions.map Question.id =
        mintAll (mintVariantId deployment.auth around) inUse taken
          (variants.zipIdx index) := by
  induction variants generalizing index db taken with
  | nil =>
      obtain rfl := pure_eq_ok.mp added
      exact ⟨[], by simp, rfl⟩
  | cons variant rest inductionHypothesis =>
      simp only [addVariants, bind_eq_ok] at added
      obtain ⟨_, _, others⟩ := added
      have seesAll : questionExists db =
          fun id => taken.contains id || inUse id := funext sees
      rw [seesAll] at others
      obtain ⟨questions, grown, ids⟩ :=
        inductionHypothesis (sees_addQuestion sees _ _) others
      rw [addQuestion, List.append_assoc] at grown
      refine ⟨_, grown, ?_⟩
      rw [List.singleton_append, List.map_cons, ids]
      rfl

/-- The questions of a variant set collide neither with stored ones nor with
each other exactly when an identifier is left at each of them. -/
theorem addVariants_keyed_iff {variants : List VariantCreate}
    (keyed : Keyed Question.id db.questions)
    (added : addVariants deployment around set 0 variants db = .ok after) :
    Keyed Question.id after.questions ↔
      BatchLeavesOne deployment.auth around (questionExists db) variants := by
  have sees : ∀ id, questionExists db id =
      (([] : List String).contains id || questionExists db id) := by
    intro id
    rw [List.contains_nil, Bool.false_or]
  obtain ⟨questions, grown, ids⟩ := addVariants_mints sees added
  have unused : ∀ id, questionExists db id = false ↔
      id ∉ db.questions.map Question.id := by
    intro id
    rw [questionExists, Option.isSome_eq_false_iff, Option.isNone_iff_eq_none,
      fetch_eq_none]
    simp
  rw [← mintVariantIds_unused_iff, mintVariantIds, ← ids, grown, Keyed,
    List.map_append, List.nodup_append]
  constructor
  · rintro ⟨_, nodup, apart⟩
    exact ⟨fun id member => (unused id).mpr fun isOld =>
      apart id isOld id member rfl, nodup⟩
  · rintro ⟨fresh, nodup⟩
    refine ⟨keyed, nodup, ?_⟩
    rintro id isOld _ member rfl
    exact (unused id).mp (fresh id member) isOld

/-! ## Minted identifiers -/

/-- A minted identifier is unused exactly when one of the seven derived ones is,
whatever identifiers exist and however the draws fall out; the identifiers of a
variant set are unused and distinct exactly when one is left at each variant,
and then its questions collide with no stored one and with no sibling. -/
theorem minted_unused_iff (deployment : Deployment) (around : Surroundings) :
    (∀ title drawn exists',
      exists' (generateId deployment.auth around title drawn exists') = false ↔
        LeavesOne deployment.auth around title drawn exists') ∧
    (∀ exists' variants,
      ((∀ id ∈ mintVariantIds deployment.auth around exists' variants,
          exists' id = false) ∧
        (mintVariantIds deployment.auth around exists' variants).Nodup) ↔
      BatchLeavesOne deployment.auth around exists' variants) ∧
    ∀ db set variants after,
      Keyed Question.id db.questions →
      addVariants deployment around set 0 variants db = .ok after →
        (Keyed Question.id after.questions ↔
          BatchLeavesOne deployment.auth around (questionExists db) variants) :=
  ⟨fun _ _ _ => generateId_unused_iff deployment.auth around,
    fun _ _ => mintVariantIds_unused_iff deployment.auth around,
    fun _ _ _ _ => addVariants_keyed_iff⟩

namespace Scenario

/-- Every draw of six hexadecimal digits comes out alike, and so does every
UUID. -/
def stuck : Surroundings where
  toSurroundings := (surroundings 0 'z').toSurroundings
  token := fun _ => "z"
  suffix := fun _ _ => "aaaaaa"
  uuid := fun _ => "bbbbbbbbbbbbbbbbbbbbbbbbbbbbbbbb"
  choice := fun _ => 0
  mail := fun _ => (true, none)
  logo := .ok "logo"
  customer := none
  agent := fun _ _ => .accepted "job"

/-- A variant under a title. -/
def variantOf (title : String) : VariantCreate :=
  ⟨⟨title, none, testCases⟩, none⟩

/-- Identifiers that exist. -/
def sumIds : List String := ["sum-aaaaaa", "sum-bbbbbbbb"]

/-- The set of the variants. -/
def sums : VariantSet := ⟨"sums", some 1, 2, "sums"⟩

/-- The database with a batch of two variants under one title. -/
def paired : Database :=
  (addVariants deployment stuck sums 0 [variantOf "sum", variantOf "sum"]
    .empty).toOption.getD .empty

end Scenario

open Scenario in
/-- A second variant under the title of the first takes the identifier that is
left. -/
theorem minted_unused_pair :
    BatchLeavesOne Scenario.deployment.auth stuck (questionExists .empty)
      [variantOf "sum", variantOf "sum"] :=
  ((minted_unused_iff Scenario.deployment stuck).2.2 .empty sums
    [variantOf "sum", variantOf "sum"] paired (by decide) rfl).mp (by decide)

open Scenario in
/-- Where all derived identifiers exist, the one that is minted exists too; and
the third variant under one title is minted the identifier of the second. -/
theorem minted_exists :
    sumIds.contains
        (generateId Scenario.deployment.auth stuck "sum" 0 sumIds.contains) =
      true ∧
    ¬(mintVariantIds Scenario.deployment.auth stuck (fun _ => false)
      [variantOf "sum", variantOf "sum", variantOf "sum"]).Nodup := by
  decide

end AssessmentPlatform
