import Mathlib.Data.List.DropRight
import Mathlib.Data.Nat.Digits.Defs
import Mathlib.Tactic.Ring

/-!
# Text and integers in Python

`str.strip`, `str.partition`, `int` of a text and `str` of an integer, over
lists of characters.
-/

namespace AssessmentPlatform.PythonText

/-! ## Text -/

/-- `str.isspace` of a character. -/
def isSpace (char : Char) : Bool :=
  let code := char.toNat
  (9 ≤ code && code ≤ 13) || (28 ≤ code && code ≤ 32) ||
    [0x85, 0xa0, 0x1680].contains code ||
    (0x2000 ≤ code && code ≤ 0x200a) ||
    [0x2028, 0x2029, 0x202f, 0x205f, 0x3000].contains code

/-- A text without what is dropped at its ends. -/
def trim (drops : Char → Bool) (text : List Char) : List Char :=
  (text.dropWhile drops).rdropWhile drops

/-- `str.strip` -/
def strip (text : List Char) : List Char :=
  trim isSpace text

/-- `str.partition`: what is before and behind the separator, if it is there. -/
def partition (separator : Char) (text : List Char) :
    Option (List Char × List Char) :=
  if separator ∈ text then
    some (text.takeWhile (· != separator),
      (text.dropWhile (· != separator)).tail)
  else none

/-- What has nothing to drop at its ends stays. -/
theorem trim_eq_self {drops : Char → Bool} {text : List Char}
    (kept : ∀ char ∈ text, drops char = false) : trim drops text = text := by
  have front : text.dropWhile drops = text := by
    cases text with
    | nil => rfl
    | cons char text =>
        have isKept := kept char List.mem_cons_self
        rw [List.dropWhile_cons_of_neg (by simp [isKept])]
  unfold trim
  rw [front]
  apply List.rdropWhile_eq_self_iff.mpr
  intro nonempty isDropped
  rw [kept _ (List.getLast_mem nonempty)] at isDropped
  cases isDropped

theorem partition_append {separator : Char} {key value : List Char}
    (absent : separator ∉ key) :
    partition separator (key ++ separator :: value) = some (key, value) := by
  have apart : ∀ char ∈ key, (char != separator) = true := by
    intro char member
    exact bne_iff_ne.mpr fun same => absent (same ▸ member)
  have present : separator ∈ key ++ separator :: value := by simp
  unfold partition
  rw [if_pos present, List.takeWhile_append_of_pos apart,
    List.dropWhile_append_of_pos apart]
  simp

/-! ## Integers -/

/-- The characters of the digit zero, each followed by those of one to nine
(Unicode 15). -/
def decimalZeros : List Nat :=
  0x30 :: [0x660, 0x6f0, 0x7c0, 0x966, 0x9e6, 0xa66, 0xae6, 0xb66, 0xbe6, 0xc66,
    0xce6, 0xd66, 0xde6, 0xe50, 0xed0, 0xf20, 0x1040, 0x1090, 0x17e0, 0x1810,
    0x1946, 0x19d0, 0x1a80, 0x1a90, 0x1b50, 0x1bb0, 0x1c40, 0x1c50, 0xa620,
    0xa8d0, 0xa900, 0xa9d0, 0xa9f0, 0xaa50, 0xabf0, 0xff10, 0x104a0, 0x10d30,
    0x11066, 0x110f0, 0x11136, 0x111d0, 0x112f0, 0x11450, 0x114d0, 0x11650,
    0x116c0, 0x11730, 0x118e0, 0x11950, 0x11c50, 0x11d50, 0x11da0, 0x11f50,
    0x16a60, 0x16ac0, 0x16b50, 0x1d7ce, 0x1d7d8, 0x1d7e2, 0x1d7ec, 0x1d7f6,
    0x1e140, 0x1e2f0, 0x1e4f0, 0x1e950, 0x1fbf0]

/-- The value of a decimal digit. -/
def decimal (char : Char) : Option Nat :=
  (decimalZeros.find? fun first =>
    first ≤ char.toNat && char.toNat < first + 10).map (char.toNat - ·)

/-- The space that `int` skips: the separators among the control characters are
none. -/
def isIntSpace (char : Char) : Bool :=
  isSpace char && !(28 ≤ char.toNat && char.toNat ≤ 31)

/-- `sys.get_int_max_str_digits()`, by default. -/
def maxStrDigits : Nat := 4300

/-- The value of some digits. -/
def digitsValue (digits : List Nat) : Nat :=
  digits.foldl (fun value digit => 10 * value + digit) 0

/-- Digits, in groups with an underscore between them; `none` is a
`ValueError`. -/
def readDigits (text : List Char) : Option Nat :=
  let groups := text.splitOn '_'
  if groups.any List.isEmpty then none
  else
    match groups.flatten.mapM decimal with
    | some digits =>
        if digits.length > maxStrDigits then none
        else some (digitsValue digits)
    | none => none

/-- `int(text)` -/
def readInt (text : List Char) : Option Int :=
  match trim isIntSpace text with
  | '+' :: digits => (readDigits digits).map Int.ofNat
  | '-' :: digits => (readDigits digits).map Int.negOfNat
  | digits => (readDigits digits).map Int.ofNat

/-- `str(number)`; `none` is a `ValueError`. -/
def showInt (number : Int) : Option (List Char) :=
  let digits := Nat.toDigits 10 number.natAbs
  if digits.length > maxStrDigits then none
  else some (if number < 0 then '-' :: digits else digits)

/-! ## Reading back -/

section Reading

variable {text shown : List Char} {number : Int} {value : Nat}

theorem decimal_lt {char : Char} {digit : Nat}
    (isDigit : decimal char = some digit) : digit < 10 := by
  obtain ⟨first, found, rfl⟩ := Option.map_eq_some_iff.mp isDigit
  have range := List.find?_some found
  simp only [Bool.and_eq_true, decide_eq_true_eq] at range
  omega

theorem decimal_of_isDigit {char : Char} (isDigit : char.isDigit = true) :
    decimal char = some (char.toNat - '0'.toNat) := by
  have range : 48 ≤ char.toNat ∧ char.toNat ≤ 57 := by
    simpa [Char.isDigit, UInt32.le_iff_toNat_le] using isDigit
  have found : (0x30 ≤ char.toNat && char.toNat < 0x30 + 10) = true := by
    simp only [Bool.and_eq_true, decide_eq_true_eq]
    omega
  unfold decimal decimalZeros
  simp only [List.find?_cons, found, Option.map_some]
  rfl

/-- Digits up to a number of places have a value below that power of ten. -/
theorem foldl_digits_lt {digits : List Nat}
    (below : ∀ digit ∈ digits, digit < 10) {start : Nat} (places : Nat)
    (isStart : start < 10 ^ places) :
    digits.foldl (fun value digit => 10 * value + digit) start <
      10 ^ (places + digits.length) := by
  induction digits generalizing start places with
  | nil => exact isStart
  | cons digit digits inductionHypothesis =>
      have isDigit := below digit List.mem_cons_self
      have next : 10 * start + digit < 10 ^ (places + 1) := by
        rw [pow_succ]
        omega
      have rest := inductionHypothesis
        (fun other member => below other (List.mem_cons_of_mem digit member))
        (places + 1) next
      rw [List.foldl_cons, List.length_cons]
      have together : places + 1 + digits.length =
          places + (digits.length + 1) := by
        omega
      rw [together] at rest
      exact rest

theorem decimals_lt {digits : List Nat}
    (isDigits : text.mapM decimal = some digits) :
    ∀ digit ∈ digits, digit < 10 := by
  induction text generalizing digits with
  | nil =>
      obtain rfl := Option.some.inj isDigits
      exact fun _ member => nomatch member
  | cons char text inductionHypothesis =>
      rw [List.mapM_cons] at isDigits
      obtain ⟨first, isFirst, others⟩ := Option.bind_eq_some_iff.mp isDigits
      obtain ⟨rest, isRest, both⟩ := Option.bind_eq_some_iff.mp others
      obtain rfl := Option.some.inj both
      intro digit member
      rcases List.mem_cons.mp member with rfl | isOther
      · exact decimal_lt isFirst
      · exact inductionHypothesis isRest digit isOther

theorem readDigits_lt (isValue : readDigits text = some value) :
    value < 10 ^ maxStrDigits := by
  unfold readDigits at isValue
  dsimp only at isValue
  split at isValue
  · cases isValue
  · split at isValue
    · next digits isDigits =>
      split at isValue
      · cases isValue
      · next fits =>
        obtain rfl := Option.some.inj isValue
        have bounded := foldl_digits_lt (decimals_lt isDigits) 0 one_pos
        have few : 0 + digits.length ≤ maxStrDigits := by omega
        exact bounded.trans_le (Nat.pow_le_pow_right (by omega) few)
    · cases isValue

/-- What `int` has read can be shown again. -/
theorem showInt_of_readInt (isNumber : readInt text = some number) :
    ∃ shown, showInt number = some shown := by
  have bounded : number.natAbs < 10 ^ maxStrDigits := by
    unfold readInt at isNumber
    split at isNumber <;>
      obtain ⟨value, isValue, rfl⟩ := Option.map_eq_some_iff.mp isNumber <;>
      simpa [Int.natAbs_negOfNat] using readDigits_lt isValue
  have fits : (Nat.toDigits 10 number.natAbs).length ≤ maxStrDigits :=
    Nat.toDigits_length 10 _ _ (by decide) bounded
  unfold showInt
  rw [if_neg (by omega)]
  exact ⟨_, rfl⟩

theorem toDigits_isDigit {char : Char}
    (member : char ∈ Nat.toDigits 10 value) : char.isDigit = true :=
  Nat.isDigit_of_mem_toDigits (by decide) (by decide) member

theorem mapM_decimal {digits : List Char}
    (areDigits : ∀ char ∈ digits, char.isDigit = true) :
    digits.mapM decimal =
      some (digits.map fun char => char.toNat - '0'.toNat) := by
  induction digits with
  | nil => rfl
  | cons char digits inductionHypothesis =>
      rw [List.mapM_cons,
        decimal_of_isDigit (areDigits char List.mem_cons_self),
        inductionHypothesis fun other member =>
          areDigits other (List.mem_cons_of_mem char member)]
      rfl

theorem digitsValue_toDigits :
    digitsValue ((Nat.toDigits 10 value).map fun char =>
      char.toNat - '0'.toNat) = value := by
  unfold digitsValue
  rw [List.foldl_map]
  exact Nat.ofDigitChars_eq_foldl.symm.trans Nat.ofDigitChars_ten_toDigits

theorem readDigits_toDigits
    (fits : (Nat.toDigits 10 value).length ≤ maxStrDigits) :
    readDigits (Nat.toDigits 10 value) = some value := by
  have one : (Nat.toDigits 10 value).splitOn '_' = [Nat.toDigits 10 value] :=
    List.splitOn_eq_singleton Nat.underscore_not_in_toDigits
  have nonempty : (Nat.toDigits 10 value).isEmpty = false :=
    List.isEmpty_eq_false_iff.mpr Nat.toDigits_ne_nil
  have areDigits : ∀ char ∈ Nat.toDigits 10 value, char.isDigit = true :=
    fun _ => toDigits_isDigit
  have digits := mapM_decimal areDigits
  unfold readDigits
  rw [one]
  simp only [List.any_cons, List.any_nil, nonempty, Bool.or_false,
    List.flatten_cons, List.flatten_nil, List.append_nil, digits]
  rw [if_neg (by decide), if_neg (by simpa using fits), digitsValue_toDigits]

/-- The characters of a number. -/
theorem mem_showInt (isShown : showInt number = some shown) :
    ∀ char ∈ shown, char.isDigit = true ∨ char = '-' := by
  unfold showInt at isShown
  dsimp only at isShown
  split at isShown
  · cases isShown
  · obtain rfl := Option.some.inj isShown
    intro char member
    split at member
    · rcases List.mem_cons.mp member with isSign | isDigit
      · exact .inr isSign
      · exact .inl (toDigits_isDigit isDigit)
    · exact .inl (toDigits_isDigit member)

theorem isSpace_eq_false {char : Char}
    (plain : char.isDigit = true ∨ char = '-') : isSpace char = false := by
  rcases plain with isDigit | rfl
  · have range : 48 ≤ char.toNat ∧ char.toNat ≤ 57 := by
      simpa [Char.isDigit, UInt32.le_iff_toNat_le] using isDigit
    simp only [isSpace, Bool.or_eq_false_iff, Bool.and_eq_false_iff,
      decide_eq_false_iff_not, List.contains_eq_mem, List.mem_cons,
      List.not_mem_nil, or_false]
    omega
  · decide

/-- `int` reads back what `str` has shown. -/
theorem readInt_showInt (isShown : showInt number = some shown) :
    readInt shown = some number := by
  have trimmed : trim isIntSpace shown = shown := by
    apply trim_eq_self
    intro char member
    unfold isIntSpace
    rw [isSpace_eq_false (mem_showInt isShown char member), Bool.false_and]
  unfold readInt
  rw [trimmed]
  unfold showInt at isShown
  dsimp only at isShown
  split at isShown
  · cases isShown
  · next fits =>
    obtain rfl := Option.some.inj isShown
    have read := readDigits_toDigits (Nat.le_of_not_gt fits)
    by_cases negative : number < 0
    · rw [if_pos negative]
      have isNumber : Int.negOfNat number.natAbs = number := by
        rw [Int.negOfNat_eq, Int.ofNat_eq_natCast]
        omega
      simp only [read, Option.map_some, isNumber]
    · rw [if_neg negative]
      have isNumber : Int.ofNat number.natAbs = number := by
        rw [Int.ofNat_eq_natCast]
        omega
      cases digits : Nat.toDigits 10 number.natAbs with
      | nil => exact absurd digits Nat.toDigits_ne_nil
      | cons char rest =>
          have isDigit : char.isDigit = true :=
            toDigits_isDigit (digits ▸ List.mem_cons_self)
          rw [digits] at read
          split
          · next equal =>
            obtain rfl := (List.cons.inj equal).1
            cases isDigit
          · next equal =>
            obtain rfl := (List.cons.inj equal).1
            cases isDigit
          · rw [read, Option.map_some, isNumber]

/-- Different numbers are shown differently. -/
theorem showInt_injective {other : Int} (isShown : showInt number = some shown)
    (isOther : showInt other = some shown) : number = other :=
  Option.some.inj
    ((readInt_showInt isShown).symm.trans (readInt_showInt isOther))

end Reading

end AssessmentPlatform.PythonText
