import AssessmentPlatform.Records.Session
import AssessmentPlatform.Security.PythonText

/-!
# The support address of an organisation

`support.py`: the tag of an organisation, and the address that its candidates
are told to write to.
-/

namespace AssessmentPlatform.Support

open PythonText

/-! ## The address -/

/-- `_MAX_SLUG` -/
def maxSlug : Nat := 32

/-- `str.strip("-")` -/
def stripHyphens (text : List Char) : List Char :=
  trim (· == '-') text

/-- The readable half of a tag: the name in lower case, with a hyphen for each
run of other characters, cut and stripped again. -/
def nameSlug (lower : String → String) (name : String) : List Char :=
  stripHyphens ((hyphenate (lower name).toList).take maxSlug)

/-- `org_slug`, of an organisation that has an id or none yet. -/
def orgSlug (lower : String → String) (id : Option Nat) (name : String) :
    Option String :=
  match id with
  | none => none
  | some id =>
      let slug := nameSlug lower name
      if slug = [] then some ("org" ++ toString id)
      else some (String.ofList slug ++ "-" ++ toString id)

/-- `contact_email` -/
def contactEmail (lower : String → String) (supportEmail : String)
    (orgTag : Bool) (org : Option Organization) : Option String :=
  if supportEmail = "" then none
  else
    match org with
    | none => some supportEmail
    | some org =>
        if !orgTag then some supportEmail
        else
          match partition '@' supportEmail.toList with
          | none => some supportEmail
          | some (before, domain) =>
              if before = [] || '+' ∈ before then some supportEmail
              else
                match orgSlug lower (some org.id) org.name with
                | none => some supportEmail
                | some slug =>
                    some (String.ofList before ++ "+" ++ slug ++ "@" ++
                      String.ofList domain)

/-! ## Slugs -/

variable {lower : String → String} {name other : String} {id : Nat}
variable {char : Char} {text : List Char}

/-- A character of a tag: a letter, a digit or a hyphen. -/
def TagChar (char : Char) : Prop :=
  slugChar char = true ∨ char = '-'

theorem mem_intercalate_hyphen {parts : List (List Char)}
    (member : char ∈ List.intercalate ['-'] parts) :
    char = '-' ∨ ∃ part ∈ parts, char ∈ part := by
  induction parts with
  | nil => simp at member
  | cons part rest inductionHypothesis =>
      cases rest with
      | nil =>
          rw [List.intercalate_singleton] at member
          exact .inr ⟨part, List.mem_cons_self, member⟩
      | cons next rest =>
          rw [List.intercalate_cons_cons, List.mem_append, List.mem_append,
            List.mem_singleton] at member
          rcases member with (inPart | isHyphen) | later
          · exact .inr ⟨part, List.mem_cons_self, inPart⟩
          · exact .inl isHyphen
          · refine (inductionHypothesis later).imp id ?_
            rintro ⟨found, isPart, inFound⟩
            exact ⟨found, List.mem_cons_of_mem _ isPart, inFound⟩

theorem not_of_mem_splitOnP {splits : Char → Bool} {part : List Char}
    (isPart : part ∈ text.splitOnP splits) (member : char ∈ part) :
    splits char = false := by
  induction text generalizing part with
  | nil =>
      rw [List.splitOnP_nil, List.mem_singleton] at isPart
      subst isPart
      cases member
  | cons first rest inductionHypothesis =>
      rw [List.splitOnP_cons_eq_if_modifyHead] at isPart
      split at isPart
      · rcases List.mem_cons.mp isPart with rfl | later
        · cases member
        · exact inductionHypothesis later member
      · next stays =>
        cases parts : rest.splitOnP splits with
        | nil => exact absurd parts (List.splitOnP_ne_nil _ _)
        | cons head tail =>
            rw [parts, List.modifyHead_cons] at isPart
            rw [parts] at inductionHypothesis
            rcases List.mem_cons.mp isPart with rfl | later
            · rcases List.mem_cons.mp member with rfl | inHead
              · simpa using stays
              · exact inductionHypothesis List.mem_cons_self inHead
            · exact inductionHypothesis (List.mem_cons_of_mem _ later) member

/-- What is left of a text between hyphens are letters and digits. -/
theorem tagChar_hyphenate (member : char ∈ hyphenate text) : TagChar char := by
  rcases mem_intercalate_hyphen member with rfl | ⟨part, kept, inPart⟩
  · exact .inr rfl
  · have isPart := List.mem_of_mem_filter kept
    exact .inl (by simpa using not_of_mem_splitOnP isPart inPart)

theorem mem_of_mem_trim {drops : Char → Bool}
    (member : char ∈ trim drops text) : char ∈ text :=
  (List.dropWhile_sublist drops).mem
    ((List.rdropWhile_prefix drops _).sublist.mem member)

theorem tagChar_nameSlug (member : char ∈ nameSlug lower name) :
    TagChar char :=
  tagChar_hyphenate (List.mem_of_mem_take (mem_of_mem_trim member))

/-- A text without hyphens at its ends does not begin with one. -/
theorem head_stripHyphens {rest : List Char}
    (stripped : stripHyphens text = char :: rest) : char ≠ '-' := by
  obtain ⟨dropped, front⟩ :=
    List.rdropWhile_prefix (· == '-') (text.dropWhile (· == '-'))
  have isHead := List.head?_dropWhile_not (· == '-') text
  rw [stripHyphens, trim] at stripped
  rw [← front, stripped] at isHead
  simpa using isHead

/-! ## Tags -/

/-- The characters of a tag. -/
def tagChars (lower : String → String) (id : Nat) (name : String) :
    List Char :=
  if nameSlug lower name = [] then "org".toList ++ Nat.toDigits 10 id
  else nameSlug lower name ++ '-' :: Nat.toDigits 10 id

theorem orgSlug_some :
    orgSlug lower (some id) name =
      some (String.ofList (tagChars lower id name)) := by
  have shown : toString id = String.ofList (Nat.toDigits 10 id) :=
    Nat.repr_eq_ofList_toDigits
  unfold orgSlug tagChars
  dsimp only
  split
  · exact congrArg some (String.toList_inj.mp (by simp [shown]))
  · exact congrArg some (String.toList_inj.mp (by simp [shown]))

theorem tagChar_of_isDigit (isDigit : char.isDigit = true) :
    TagChar char := by
  refine .inl ?_
  unfold slugChar
  rw [Bool.or_eq_true]
  exact .inr isDigit

theorem hyphen_not_mem_toDigits : '-' ∉ Nat.toDigits 10 id := by
  intro member
  have isDigit := toDigits_isDigit member
  exact absurd isDigit (by decide)

/-- A tag holds letters, digits and hyphens, and begins with no hyphen. -/
theorem tagChars_shape :
    ∃ first rest, tagChars lower id name = first :: rest ∧ first ≠ '-' ∧
      ∀ char ∈ first :: rest, TagChar char := by
  unfold tagChars
  split
  · refine ⟨'o', 'r' :: 'g' :: Nat.toDigits 10 id, rfl, by decide, ?_⟩
    intro char member
    simp only [List.mem_cons] at member
    rcases member with rfl | rfl | rfl | isDigit
    · exact .inl (by decide)
    · exact .inl (by decide)
    · exact .inl (by decide)
    · exact tagChar_of_isDigit (toDigits_isDigit isDigit)
  · next named =>
    cases slug : nameSlug lower name with
    | nil => exact absurd slug named
    | cons first rest =>
        refine ⟨first, rest ++ '-' :: Nat.toDigits 10 id, rfl,
          head_stripHyphens slug, ?_⟩
        intro char member
        rw [← List.cons_append, ← slug, List.mem_append, List.mem_cons]
          at member
        rcases member with inSlug | rfl | isDigit
        · exact tagChar_nameSlug inSlug
        · exact .inr rfl
        · exact tagChar_of_isDigit (toDigits_isDigit isDigit)

/-- What is behind the last hyphen of a text. -/
theorem append_hyphen_inj {front back left right : List Char}
    (leftFree : '-' ∉ left) (rightFree : '-' ∉ right)
    (same : front ++ '-' :: left = back ++ '-' :: right) : left = right := by
  have reversed := congrArg (fun text => partition '-' text.reverse) same
  simp only [List.reverse_append, List.reverse_cons, List.append_assoc,
    List.singleton_append] at reversed
  rw [partition_append (by simpa using leftFree),
    partition_append (by simpa using rightFree)] at reversed
  simp only [Option.some.injEq, Prod.mk.injEq, List.reverse_inj] at reversed
  exact reversed.1

theorem toDigits_injective {first second : Nat}
    (same : Nat.toDigits 10 first = Nat.toDigits 10 second) :
    first = second := by
  have values := congrArg (Nat.ofDigitChars 10 · 0) same
  simpa using values

/-- The tag of an organisation without a slug has no hyphen. -/
theorem orgWord_ne {first second : Nat} (slug : List Char) :
    "org".toList ++ Nat.toDigits 10 first ≠
      slug ++ '-' :: Nat.toDigits 10 second := by
  intro same
  have member : '-' ∈ "org".toList ++ Nat.toDigits 10 first := by
    rw [same]
    simp
  rcases List.mem_append.mp member with inWord | inId
  · exact absurd inWord (by decide)
  · exact hyphen_not_mem_toDigits inId

/-- The tag says which organisation it is of, whatever the names are. -/
theorem tagChars_injective {first second : Nat}
    (same : tagChars lower first name = tagChars lower second other) :
    first = second := by
  unfold tagChars at same
  apply toDigits_injective
  split at same <;> split at same
  · exact List.append_cancel_left same
  · exact absurd same (orgWord_ne _)
  · exact absurd same.symm (orgWord_ne _)
  · exact append_hyphen_inj hyphen_not_mem_toDigits hyphen_not_mem_toDigits
      same

/-- The address for candidates can carry a tag. -/
def Taggable (supportEmail : String) : Prop :=
  ∃ before domain, partition '@' supportEmail.toList = some (before, domain) ∧
    before ≠ [] ∧ '+' ∉ before

/-- Mail to a tagged address is mail to one organisation. -/
theorem contactEmail_injective {supportEmail : String}
    {org otherOrg : Organization} (taggable : Taggable supportEmail)
    (same : contactEmail lower supportEmail true (some org) =
      contactEmail lower supportEmail true (some otherOrg)) :
    org.id = otherOrg.id := by
  obtain ⟨before, domain, parts, named, untagged⟩ := taggable
  have isGiven : supportEmail ≠ "" := by
    rintro rfl
    cases parts
  simp only [contactEmail, isGiven, parts, named, untagged, orgSlug_some,
    Bool.not_true, Bool.false_eq_true, if_false, decide_false, Bool.or_self,
    Option.some.injEq] at same
  have texts := congrArg String.toList same
  simp only [String.toList_append, String.toList_ofList,
    List.append_cancel_left_eq, List.append_cancel_right_eq] at texts
  exact tagChars_injective texts

/-- The tags of two organisations differ, whatever they are called; every tag is
a text of letters, digits and hyphens that does not begin with a hyphen. -/
theorem tags_injective (lower : String → String) :
    (∀ id other name otherName, id ≠ other →
      orgSlug lower (some id) name ≠ orgSlug lower (some other) otherName) ∧
    ∀ id name, ∃ tag, orgSlug lower (some id) name = some tag ∧
      tag ≠ "" ∧
      (∀ char ∈ tag.toList, slugChar char = true ∨ char = '-') ∧
      tag.toList.head? ≠ some '-' := by
  constructor
  · intro id other name otherName different same
    rw [orgSlug_some, orgSlug_some, Option.some.injEq] at same
    have texts := congrArg String.toList same
    rw [String.toList_ofList, String.toList_ofList] at texts
    exact different (tagChars_injective texts)
  · intro id name
    obtain ⟨first, rest, chars, isFirst, shape⟩ :=
      @tagChars_shape lower name id
    have text : (String.ofList (tagChars lower id name)).toList =
        first :: rest := by
      rw [String.toList_ofList, chars]
    refine ⟨_, orgSlug_some, ?_, ?_, ?_⟩
    · intro empty
      rw [empty] at text
      cases text
    · rw [text]
      exact shape
    · rw [text, List.head?_cons]
      exact fun same => isFirst (Option.some.inj same)

/-- A name that ends like another organisation's tag. -/
theorem tags_injective_lookalike :
    orgSlug (fun name => name) (some 12) "acme" ≠
      orgSlug (fun name => name) (some 2) "acme-1" :=
  (tags_injective fun name => name).1 12 2 "acme" "acme-1" (by decide)

end AssessmentPlatform.Support
