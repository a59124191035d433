import Mathlib.Algebra.BigOperators.Group.List.Basic
import Mathlib.Data.Nat.Digits.Defs
import Mathlib.Data.Rat.Defs

/-!
# JSON text

`json.dumps` of Python with its default settings: what it writes is ASCII, a
character costs at most twelve bytes and a number at most twenty-four.
-/

namespace JsonText

/-! ## Texts -/

/-- `len(text.encode())` -/
def byteLength (text : List Char) : Nat :=
  (text.map Char.utf8Size).sum

/-- Whether a text is made of ASCII characters. -/
def Ascii (text : List Char) : Prop :=
  ∀ char ∈ text, char.toNat < 128

theorem Ascii.nil : Ascii [] := nofun

theorem Ascii.append {front back : List Char} (first : Ascii front)
    (second : Ascii back) : Ascii (front ++ back) := by
  intro char member
  exact (List.mem_append.mp member).elim (first char) (second char)

theorem Ascii.cons {char : Char} {text : List Char} (rest : Ascii text)
    (isAscii : char.toNat < 128) : Ascii (char :: text) :=
  List.forall_mem_cons.mpr ⟨isAscii, rest⟩

theorem Ascii.take {text : List Char} (ascii : Ascii text) (count : Nat) :
    Ascii (text.take count) :=
  fun char member => ascii char (List.mem_of_mem_take member)

theorem Ascii.drop {text : List Char} (ascii : Ascii text) (count : Nat) :
    Ascii (text.drop count) :=
  fun char member => ascii char (List.mem_of_mem_drop member)

instance (text : List Char) : Decidable (Ascii text) :=
  decidable_of_iff (text.all (·.toNat < 128) = true) (by simp [Ascii])

/-- An ASCII text has a byte for each character. -/
theorem Ascii.byteLength_eq {text : List Char} (ascii : Ascii text) :
    byteLength text = text.length := by
  induction text with
  | nil => rfl
  | cons char text inductionHypothesis =>
      obtain ⟨isAscii, rest⟩ := List.forall_mem_cons.mp ascii
      have size : char.utf8Size = 1 := by
        rw [Char.utf8Size_eq_one_iff]
        exact UInt32.le_iff_toNat_le.mpr (Nat.le_of_lt_succ isAscii)
      have later := inductionHypothesis rest
      unfold byteLength at later ⊢
      rw [List.map_cons, List.sum_cons, size, later, List.length_cons,
        Nat.add_comm]

/-! ## Numbers -/

/-- A finite float by what `repr` prints of it: the shortest digits that read
back as the same float, at most seventeen, and the place of the point. -/
structure PyFloat where
  negative : Bool
  digits : List (Fin 10)
  point : Int
  digits_length : 1 ≤ digits.length ∧ digits.length ≤ 17
  point_range : -323 ≤ point ∧ point ≤ 309
  deriving DecidableEq, Repr

namespace PyFloat

/-- The number. -/
def value (float : PyFloat) : Rat :=
  let whole : Int :=
    float.digits.foldl (fun read digit => 10 * read + digit.val) 0
  let signed := if float.negative then -whole else whole
  signed * (10 : Rat) ^ (float.point - float.digits.length)

/-- The digits as characters. -/
def digitChars (float : PyFloat) : List Char :=
  float.digits.map fun digit => Nat.digitChar digit.val

/-- An exponent has a sign and at least two digits. -/
def exponent (exponent : Int) : List Char :=
  (if exponent < 0 then '-' else '+') ::
    (if exponent.natAbs < 10 then ['0'] else []) ++
      Nat.toDigits 10 exponent.natAbs

/-- `float.__repr__` without the sign. -/
def magnitude (float : PyFloat) : List Char :=
  let digits := float.digitChars
  if float.point ≤ -4 ∨ 16 < float.point then
    digits.take 1 ++ (if digits.length = 1 then [] else '.' :: digits.drop 1) ++
      'e' :: exponent (float.point - 1)
  else if float.point ≤ 0 then
    '0' :: '.' :: List.replicate float.point.natAbs '0' ++ digits
  else
    let whole := float.point.toNat
    if digits.length ≤ whole then
      digits ++ List.replicate (whole - digits.length) '0' ++ ['.', '0']
    else digits.take whole ++ '.' :: digits.drop whole

/-- `float.__repr__` -/
def repr (float : PyFloat) : List Char :=
  if float.negative then '-' :: float.magnitude else float.magnitude

variable (float : PyFloat)

theorem length_digitChars : float.digitChars.length = float.digits.length :=
  List.length_map _

theorem ascii_digitChar {digit : Nat} (isDigit : digit < 16) :
    (Nat.digitChar digit).toNat < 128 := by
  have all : ∀ digit < 16, (Nat.digitChar digit).toNat < 128 := by decide
  exact all digit isDigit

theorem ascii_digitChars : Ascii float.digitChars := by
  intro char member
  obtain ⟨digit, _, rfl⟩ := List.mem_map.mp member
  exact ascii_digitChar (digit.isLt.trans (by decide))

theorem ascii_toDigits (number : Nat) : Ascii (Nat.toDigits 10 number) := by
  intro char member
  have isDigit := Nat.isDigit_of_mem_toDigits (by decide) (by decide) member
  rw [Char.isDigit, Bool.and_eq_true, decide_eq_true_eq, decide_eq_true_eq]
    at isDigit
  exact lt_of_le_of_lt (UInt32.le_iff_toNat_le.mp isDigit.2) (by decide)

theorem length_exponent_le {exponent : Int} (small : exponent.natAbs < 1000) :
    (PyFloat.exponent exponent).length ≤ 4 := by
  unfold PyFloat.exponent
  by_cases single : exponent.natAbs < 10
  · have one : (Nat.toDigits 10 exponent.natAbs).length ≤ 1 :=
      Nat.toDigits_length 10 _ _ (by decide) single
    simp only [single, if_true, List.length_cons, List.length_append,
      List.length_nil]
    omega
  · have three : (Nat.toDigits 10 exponent.natAbs).length ≤ 3 :=
      Nat.toDigits_length 10 _ _ (by decide) small
    simp only [single, if_false, List.length_cons, List.length_append,
      List.length_nil]
    omega

theorem length_magnitude_le : float.magnitude.length ≤ 23 := by
  obtain ⟨some, many⟩ := float.digits_length
  obtain ⟨low, high⟩ := float.point_range
  have digits := float.length_digitChars
  unfold magnitude
  dsimp only
  split
  · next scientific =>
    have power : (float.point - 1).natAbs < 1000 := by omega
    have exponent := length_exponent_le power
    split <;> simp <;> omega
  · next positional =>
    split
    · simp
      omega
    · split <;> simp <;> omega

theorem length_repr_le : float.repr.length ≤ 24 := by
  have magnitude := float.length_magnitude_le
  unfold repr
  split
  · exact Nat.succ_le_succ magnitude
  · exact magnitude.trans (Nat.le_succ 23)

theorem ascii_exponent (exponent : Int) :
    Ascii (PyFloat.exponent exponent) := by
  unfold PyFloat.exponent
  refine (Ascii.append ?_ (ascii_toDigits _)).cons ?_
  · split
    · exact Ascii.nil.cons (by decide)
    · exact .nil
  · split <;> decide

theorem ascii_zeros (count : Nat) : Ascii (List.replicate count '0') := by
  intro char member
  rw [List.eq_of_mem_replicate member]
  decide

theorem ascii_magnitude : Ascii float.magnitude := by
  have digits := float.ascii_digitChars
  unfold magnitude
  dsimp only
  split
  · refine (Ascii.append (digits.take 1) ?_).append
      ((ascii_exponent _).cons (by decide))
    split
    · exact nofun
    · exact (digits.drop 1).cons (by decide)
  · split
    · exact ((Ascii.append (ascii_zeros _) digits).cons (by decide)).cons
        (by decide)
    · split
      · exact (digits.append (ascii_zeros _)).append (by decide)
      · exact (digits.take _).append ((digits.drop _).cons (by decide))

theorem ascii_repr : Ascii float.repr := by
  unfold repr
  split
  · exact float.ascii_magnitude.cons (by decide)
  · exact float.ascii_magnitude

end PyFloat

/-! ## Strings -/

/-- `'{0:04x}'.format` of a number below 65536. -/
def hex4 (number : Nat) : List Char :=
  [number / 4096 % 16, number / 256 % 16, number / 16 % 16, number % 16].map
    Nat.digitChar

/-- A UTF-16 code unit as an escape. -/
def unicodeEscape (unit : Nat) : List Char :=
  '\\' :: 'u' :: hex4 unit

/-- The characters that have an escape of their own. -/
def shortEscape (char : Char) : Option Char :=
  match char.toNat with
  | 0x08 => some 'b'
  | 0x09 => some 't'
  | 0x0a => some 'n'
  | 0x0c => some 'f'
  | 0x0d => some 'r'
  | 0x22 => some char
  | 0x5c => some char
  | _ => none

/-- `py_encode_basestring_ascii` of one character: a character beyond the basic
plane is written as its two surrogates. -/
def escapeChar (char : Char) : List Char :=
  match shortEscape char with
  | some short => ['\\', short]
  | none =>
      if ' ' ≤ char ∧ char ≤ '~' then [char]
      else if char.toNat < 0x10000 then unicodeEscape char.toNat
      else
        let beyond := char.toNat - 0x10000
        unicodeEscape (0xd800 + beyond / 1024 % 1024) ++
          unicodeEscape (0xdc00 + beyond % 1024)

/-- A string between quotes. -/
def dumpsString (text : String) : List Char :=
  '"' :: text.toList.flatMap escapeChar ++ ['"']

theorem length_unicodeEscape (unit : Nat) :
    (unicodeEscape unit).length = 6 := rfl

theorem length_escapeChar_le (char : Char) : (escapeChar char).length ≤ 12 := by
  unfold escapeChar
  split
  · simp
  · split
    · simp
    · split
      · simp [length_unicodeEscape]
      · simp [length_unicodeEscape]

/-- A character costs at most two escapes of six bytes. -/
theorem length_dumpsString_le (text : String) :
    (dumpsString text).length ≤ 12 * text.length + 2 := by
  have inside : ∀ chars : List Char,
      (chars.flatMap escapeChar).length ≤ 12 * chars.length := by
    intro chars
    induction chars with
    | nil => rfl
    | cons char chars inductionHypothesis =>
        have one := length_escapeChar_le char
        rw [List.flatMap_cons, List.length_append, List.length_cons]
        omega
  have all := inside text.toList
  rw [String.length_toList] at all
  simp only [dumpsString, List.length_cons, List.length_append,
    List.length_nil]
  omega

theorem ascii_unicodeEscape (unit : Nat) : Ascii (unicodeEscape unit) := by
  refine (Ascii.cons ?_ (by decide)).cons (by decide)
  intro char member
  obtain ⟨digit, isDigit, rfl⟩ := List.mem_map.mp member
  apply PyFloat.ascii_digitChar
  simp only [List.mem_cons, List.not_mem_nil, or_false] at isDigit
  omega

theorem ascii_shortEscape {char short : Char}
    (isShort : shortEscape char = some short) : short.toNat < 128 := by
  unfold shortEscape at isShort
  split at isShort
  case h_8 => cases isShort
  all_goals obtain rfl := Option.some.inj isShort
  all_goals first | decide | omega

theorem ascii_escapeChar (char : Char) : Ascii (escapeChar char) := by
  unfold escapeChar
  split
  · next short isShort =>
    exact (Ascii.nil.cons (ascii_shortEscape isShort)).cons (by decide)
  · split
    · next printable =>
      have below := UInt32.le_iff_toNat_le.mp printable.2
      exact Ascii.nil.cons (lt_of_le_of_lt below (by decide))
    · split
      · exact ascii_unicodeEscape _
      · exact (ascii_unicodeEscape _).append (ascii_unicodeEscape _)

theorem ascii_dumpsString (text : String) : Ascii (dumpsString text) := by
  refine (Ascii.append ?_ (by decide)).cons (by decide)
  intro char member
  obtain ⟨source, _, inEscape⟩ := List.mem_flatMap.mp member
  exact ascii_escapeChar source char inEscape

/-! ## Values -/

/-- What `json.dumps` is given. -/
inductive Value where
  | null
  | bool (value : Bool)
  | int (value : Int)
  | float (value : PyFloat)
  | str (value : String)
  | arr (items : List Value)
  | obj (fields : List (String × Value))

mutual

/-- `json.dumps` -/
def dumps : Value → List Char
  | .null => "null".toList
  | .bool true => "true".toList
  | .bool false => "false".toList
  | .int value => (toString value).toList
  | .float value => value.repr
  | .str value => dumpsString value
  | .arr items => '[' :: dumpsItems items ++ [']']
  | .obj fields => '\x7b' :: dumpsFields fields ++ ['\x7d']

/-- The items of an array. -/
def dumpsItems : List Value → List Char
  | [] => []
  | [item] => dumps item
  | item :: rest => dumps item ++ ", ".toList ++ dumpsItems rest

/-- The fields of an object. -/
def dumpsFields : List (String × Value) → List Char
  | [] => []
  | [(key, value)] => dumpsString key ++ ": ".toList ++ dumps value
  | (key, value) :: rest =>
      dumpsString key ++ ": ".toList ++ dumps value ++ ", ".toList ++
        dumpsFields rest

end

theorem ascii_toString (number : Int) : Ascii (toString number).toList := by
  cases number with
  | ofNat number =>
      have text : (toString (Int.ofNat number)).toList =
          Nat.toDigits 10 number := Nat.toList_repr
      rw [text]
      exact PyFloat.ascii_toDigits number
  | negSucc number =>
      have text : (toString (Int.negSucc number)).toList =
          '-' :: Nat.toDigits 10 (number + 1) := by
        rw [Int.toString_eq_repr, Int.repr, String.toList_append,
          Nat.toList_repr]
        rfl
      rw [text]
      exact (PyFloat.ascii_toDigits _).cons (by decide)

mutual

/-- With the default settings everything that is written is ASCII. -/
theorem ascii_dumps : (value : Value) → Ascii (dumps value)
  | .null => by unfold dumps; decide
  | .bool true => by unfold dumps; decide
  | .bool false => by unfold dumps; decide
  | .int value => by unfold dumps; exact ascii_toString value
  | .float value => by unfold dumps; exact value.ascii_repr
  | .str value => by unfold dumps; exact ascii_dumpsString value
  | .arr items => by
      unfold dumps
      exact ((ascii_dumpsItems items).append (by decide)).cons (by decide)
  | .obj fields => by
      unfold dumps
      exact ((ascii_dumpsFields fields).append (by decide)).cons (by decide)

theorem ascii_dumpsItems : (items : List Value) → Ascii (dumpsItems items)
  | [] => .nil
  | [item] => ascii_dumps item
  | item :: next :: rest => by
      unfold dumpsItems
      exact ((ascii_dumps item).append (by decide)).append
        (ascii_dumpsItems (next :: rest))

theorem ascii_dumpsFields :
    (fields : List (String × Value)) → Ascii (dumpsFields fields)
  | [] => .nil
  | [(key, value)] => by
      unfold dumpsFields
      exact ((ascii_dumpsString key).append (by decide)).append
        (ascii_dumps value)
  | (key, value) :: next :: rest => by
      unfold dumpsFields
      exact ((((ascii_dumpsString key).append (by decide)).append
        (ascii_dumps value)).append (by decide)).append
        (ascii_dumpsFields (next :: rest))

end

/-- An object is as long as its keys and values, with four characters for the
separators of each field and two for the braces. -/
theorem length_dumps_obj_le (fields : List (String × Value)) :
    (dumps (.obj fields)).length ≤
      (fields.map fun field =>
        (dumpsString field.1).length + (dumps field.2).length + 4).sum + 2 := by
  have inside : ∀ fields : List (String × Value),
      (dumpsFields fields).length ≤
        (fields.map fun field =>
          (dumpsString field.1).length + (dumps field.2).length + 4).sum := by
    intro fields
    induction fields with
    | nil => simp [dumpsFields]
    | cons field rest inductionHypothesis =>
        obtain ⟨key, value⟩ := field
        rw [List.map_cons, List.sum_cons]
        have colon : (": ".toList).length = 2 := rfl
        have comma : (", ".toList).length = 2 := rfl
        cases rest with
        | nil =>
            simp only [dumpsFields, List.length_append, colon]
            omega
        | cons next rest =>
            rw [dumpsFields]
            · simp only [List.length_append, colon, comma]
              omega
            · exact nofun
  have all := inside fields
  simp only [dumps, List.length_cons, List.length_append, List.length_nil]
  omega

/-- A whole number below a power of ten has so many digits. -/
theorem length_dumps_int_le {value : Int} {digits : Nat}
    (nonneg : 0 ≤ value) (some : 0 < digits) (small : value < 10 ^ digits) :
    (dumps (.int value)).length ≤ digits := by
  obtain ⟨number, rfl⟩ := Int.eq_ofNat_of_zero_le nonneg
  have text : dumps (.int number) = Nat.toDigits 10 number :=
    Nat.toList_repr
  rw [text]
  exact Nat.toDigits_length 10 _ _ some (by exact_mod_cast small)

end JsonText
