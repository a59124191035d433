import AssessmentPlatform.Double

/-!
# JSON values as the platform reads them

The values that `json.loads` produces, NaN, the infinities and lone surrogates
included, with the truth test and the dictionary lookup that the handlers apply
to them.
-/

namespace AssessmentPlatform

/-! ## Strings -/

/-- Whether a code point is a surrogate, which no Unicode text has. -/
def isSurrogate (code : Nat) : Bool :=
  0xD800 ≤ code && code ≤ 0xDFFF

/-- Code points with a surrogate among them. -/
structure Broken where
  codes : List Nat
  broken : codes.any isSurrogate = true
  deriving DecidableEq, Repr

/-- A Python `str`: a Unicode text, or one with a lone surrogate, which has no
UTF-8 form. -/
inductive PyStr where
  | text (value : String)
  | broken (value : Broken)
  deriving DecidableEq, Repr

instance : Coe String PyStr := ⟨.text⟩

namespace PyStr

/-- The code points of a string. -/
def codes : PyStr → List Nat
  | .text value => value.toList.map Char.toNat
  | .broken value => value.codes

/-- The string of some code points. -/
def ofCodes (codes : List Nat) : PyStr :=
  if broken : codes.any isSurrogate then .broken ⟨codes, broken⟩
  else .text (String.ofList (codes.map Char.ofNat))

/-- The text that a string is, if it has a UTF-8 form. -/
def toText : PyStr → Option String
  | .text value => some value
  | .broken _ => none

/-- Whether a string has a UTF-8 form. -/
def isText (value : PyStr) : Bool :=
  value.toText.isSome

/-- Whether a string is a given text. -/
def is (value : PyStr) (text : String) : Bool :=
  match value with
  | .text found => found == text
  | .broken _ => false

/-- `separator.join(items)` -/
def join (separator : String) (items : List PyStr) : PyStr :=
  match items.mapM toText with
  | some texts => .text (separator.intercalate texts)
  | none =>
      ofCodes ((codes separator).intercalate (items.map codes))

@[simp] theorem is_text (found text : String) :
    (PyStr.text found).is text = (found == text) :=
  rfl

@[simp] theorem toText_text (value : String) :
    (PyStr.text value).toText = some value :=
  rfl

end PyStr

/-! ## Values -/

/-- A parsed JSON value. -/
inductive Json where
  | null
  | bool (value : Bool)
  | int (value : Int)
  | float (value : Double)
  | str (value : PyStr)
  | arr (items : List Json)
  | obj (fields : List (PyStr × Json))
  deriving Repr

/-- The fields of a JSON object. -/
abbrev Payload := List (PyStr × Json)

namespace Json

mutual

/-- Structural equality of JSON values. -/
def decEq : (left right : Json) → Decidable (left = right)
  | .null, .null => isTrue rfl
  | .bool left, .bool right => decidable_of_iff (left = right) (by simp)
  | .int left, .int right => decidable_of_iff (left = right) (by simp)
  | .float left, .float right => decidable_of_iff (left = right) (by simp)
  | .str left, .str right => decidable_of_iff (left = right) (by simp)
  | .arr left, .arr right =>
      have := decEqItems left right
      decidable_of_iff (left = right) (by simp)
  | .obj left, .obj right =>
      have := decEqFields left right
      decidable_of_iff (left = right) (by simp)
  | .null, .bool _ | .null, .int _ | .null, .float _
  | .null, .str _ | .null, .arr _ | .null, .obj _
  | .bool _, .null | .bool _, .int _ | .bool _, .float _
  | .bool _, .str _ | .bool _, .arr _ | .bool _, .obj _
  | .int _, .null | .int _, .bool _ | .int _, .float _
  | .int _, .str _ | .int _, .arr _ | .int _, .obj _
  | .float _, .null | .float _, .bool _ | .float _, .int _
  | .float _, .str _ | .float _, .arr _ | .float _, .obj _
  | .str _, .null | .str _, .bool _ | .str _, .int _
  | .str _, .float _ | .str _, .arr _ | .str _, .obj _
  | .arr _, .null | .arr _, .bool _ | .arr _, .int _
  | .arr _, .float _ | .arr _, .str _ | .arr _, .obj _
  | .obj _, .null | .obj _, .bool _ | .obj _, .int _
  | .obj _, .float _ | .obj _, .str _ | .obj _, .arr _ =>
      isFalse fun equal => nomatch equal

/-- Structural equality of the items of two arrays. -/
def decEqItems : (left right : List Json) → Decidable (left = right)
  | [], [] => isTrue rfl
  | [], _ :: _ | _ :: _, [] => isFalse fun equal => nomatch equal
  | left :: lefts, right :: rights =>
      have := decEq left right
      have := decEqItems lefts rights
      decidable_of_iff (left = right ∧ lefts = rights) (by simp)

/-- Structural equality of the fields of two objects. -/
def decEqFields : (left right : Payload) → Decidable (left = right)
  | [], [] => isTrue rfl
  | [], _ :: _ | _ :: _, [] => isFalse fun equal => nomatch equal
  | (leftKey, left) :: lefts, (rightKey, right) :: rights =>
      have := decEq left right
      have := decEqFields lefts rights
      decidable_of_iff
        ((leftKey = rightKey ∧ left = right) ∧ lefts = rights) (by simp)

end

instance : DecidableEq Json := decEq

/-- Python's truth value of a parsed JSON value. -/
def truthy : Json → Bool
  | .null => false
  | .bool value => value
  | .int value => value != 0
  | .float value => value != 0
  | .str value => !value.is ""
  | .arr items => !items.isEmpty
  | .obj fields => !fields.isEmpty

end Json

namespace Payload

/-- `payload[key]`: `none` when the key is missing. -/
def lookup (payload : Payload) (key : String) : Option Json :=
  (payload.find? fun field => field.1.is key).map (·.2)

/-- `payload.get(key)`: `null` when the key is missing. -/
def get (payload : Payload) (key : String) : Json :=
  match payload.find? (fun field => field.1.is key) with
  | some field => field.2
  | none => .null

/-- `payload.get(key, default)` -/
def getOr (payload : Payload) (key : String) (default : Json) : Json :=
  match payload.find? (fun field => field.1.is key) with
  | some field => field.2
  | none => default

end Payload

end AssessmentPlatform
