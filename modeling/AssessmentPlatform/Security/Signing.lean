import AssessmentPlatform.Security.PythonText

/-!
# Signed bodies

`signing.py`: what `sign` produces, how `verify` reads a header, and the message
that the digest is taken of.  HMAC-SHA256 is a parameter, ideal where that
matters.
-/

namespace AssessmentPlatform.Signing

open PythonText

/-! ## The module -/

section Module

variable (hexdigest : String → List UInt8 → String)

/-- What Python can raise here. -/
inductive Raised where
  | valueError
  | typeError
  deriving DecidableEq, Repr

/-- `DEFAULT_TOLERANCE_S` -/
def defaultToleranceS : Int := 300

/-- `encode()` of a text of ASCII characters. -/
def encodeAscii (text : List Char) : List UInt8 :=
  text.map fun char => UInt8.ofNat char.toNat

/-- `str` of a timestamp, as an f-string has it. -/
def formatInt (number : Int) : Except Raised (List Char) :=
  match showInt number with
  | some shown => pure shown
  | none => throw .valueError

/-- `_signed_message` -/
def signedMessage (ts : Int) (body : List UInt8) :
    Except Raised (List UInt8) := do
  let shown ← formatInt ts
  return encodeAscii (shown ++ ['.']) ++ body

/-- `sign`; `hexdigest` is that of `hmac.new` with SHA-256, for a secret and a
message. -/
def sign (secret : String) (body : List UInt8) (timestamp : Option Int)
    (now : Int) : Except Raised String := do
  let ts := timestamp.getD now
  let message ← signedMessage ts body
  let digest := hexdigest secret message
  let shown ← formatInt ts
  return String.ofList
    ("t=".toList ++ shown ++ ",v1=".toList ++ digest.toList)

/-- The loop of `_parse` over the parts of a header. -/
def parseParts :
    List (List Char) → Option Int → Option String → Option Int × Option String
  | [], ts, sig => (ts, sig)
  | part :: parts, ts, sig =>
      match partition '=' (strip part) with
      | none => parseParts parts ts sig
      | some (key, value) =>
          if key = "t".toList then
            match readInt value with
            | some number => parseParts parts (some number) sig
            | none => (none, none)
          else if key = "v1".toList then
            parseParts parts ts (some (String.ofList value))
          else parseParts parts ts sig

/-- `_parse` -/
def parse (header : String) : Option Int × Option String :=
  parseParts (header.toList.splitOn ',') none none

/-- Whether all characters are ASCII. -/
def isAscii (text : String) : Bool :=
  text.toList.all fun char => char.toNat < 128

/-- `hmac.compare_digest` of two texts. -/
def compareDigest (expected provided : String) : Except Raised Bool :=
  if isAscii expected && isAscii provided then pure (expected == provided)
  else throw .typeError

/-- `verify` -/
def verify (secret : String) (body : List UInt8) (header : Option String)
    (toleranceS now : Int) : Except Raised Bool :=
  match header with
  | none => pure false
  | some header =>
      if header = "" then pure false
      else
        match parse header with
        | (some ts, some provided) =>
            if |now - ts| > toleranceS then pure false
            else do
              let message ← signedMessage ts body
              compareDigest (hexdigest secret message) provided
        | _ => pure false

end Module

/-! ## What a header says -/

/-- The fields of a header: what is before and behind the first `=` of a part
that has one. -/
def fields (header : String) : List (List Char × List Char) :=
  (header.toList.splitOn ',').filterMap fun part => partition '=' (strip part)

/-- The values of the fields with a key. -/
def values (key : String) (fields : List (List Char × List Char)) :
    List (List Char) :=
  (fields.filter fun field => field.1 = key.toList).map Prod.snd

/-- A header carries a timestamp and a digest: all its timestamps are numbers,
and these are the last ones. -/
structure Carries (header : String) (ts : Int) (digest : String) : Prop where
  numbers : ∀ value ∈ values "t" (fields header), (readInt value).isSome = true
  timestamp : (values "t" (fields header)).getLast?.bind readInt = some ts
  digest : (values "v1" (fields header)).getLast? = some digest.toList

/-! ## The parser reads it -/

section Parser

variable {parts : List (List Char)} {ts : Option Int} {sig : Option String}

/-- The fields of some parts. -/
def fieldsOf (parts : List (List Char)) : List (List Char × List Char) :=
  parts.filterMap fun part => partition '=' (strip part)

theorem values_cons {key : String} {field : List Char × List Char}
    {rest : List (List Char × List Char)} :
    values key (field :: rest) =
      if field.1 = key.toList then field.2 :: values key rest
      else values key rest := by
  by_cases isKey : field.1 = key.toList <;> simp [values, isKey]

/-- Where every timestamp is a number, the last ones stay. -/
theorem parseParts_numbers
    (numbers : ∀ value ∈ values "t" (fieldsOf parts),
      (readInt value).isSome = true) :
    parseParts parts ts sig =
      (((values "t" (fieldsOf parts)).getLast?.bind readInt).or ts,
        ((values "v1" (fieldsOf parts)).getLast?.map String.ofList).or
          sig) := by
  induction parts generalizing ts sig with
  | nil => rfl
  | cons part parts inductionHypothesis =>
      unfold parseParts
      cases isField : partition '=' (strip part) with
      | none =>
          have same : fieldsOf (part :: parts) = fieldsOf parts := by
            simp [fieldsOf, isField]
          rw [same] at numbers ⊢
          exact inductionHypothesis numbers
      | some field =>
          obtain ⟨key, value⟩ := field
          have more : fieldsOf (part :: parts) =
              (key, value) :: fieldsOf parts := by
            simp [fieldsOf, isField]
          rw [more, values_cons] at numbers
          rw [more, values_cons, values_cons]
          dsimp only at numbers ⊢
          by_cases isTime : key = "t".toList
          · have apart : key ≠ "v1".toList := by
              rw [isTime]
              decide
            rw [if_pos isTime] at numbers ⊢
            rw [if_pos isTime, if_neg apart]
            obtain ⟨number, isNumber⟩ := Option.isSome_iff_exists.mp
              (numbers value List.mem_cons_self)
            have others : ∀ other ∈ values "t" (fieldsOf parts),
                (readInt other).isSome = true := fun other member =>
              numbers other (List.mem_cons_of_mem value member)
            rw [isNumber]
            dsimp only
            rw [inductionHypothesis others, List.getLast?_cons]
            -- the number is replaced by that of a later field, if any
            cases later : (values "t" (fieldsOf parts)).getLast? with
            | none => simp [isNumber]
            | some last =>
                obtain ⟨other, isOther⟩ := Option.isSome_iff_exists.mp
                  (others last (List.mem_of_getLast? later))
                simp [isOther]
          · rw [if_neg isTime] at numbers ⊢
            rw [if_neg isTime]
            by_cases isDigest : key = "v1".toList
            · rw [if_pos isDigest, if_pos isDigest, inductionHypothesis numbers,
                List.getLast?_cons]
              cases (values "v1" (fieldsOf parts)).getLast? <;> rfl
            · rw [if_neg isDigest, if_neg isDigest]
              exact inductionHypothesis numbers

/-- A timestamp that is no number spoils the header. -/
theorem parseParts_invalid {value : List Char}
    (member : value ∈ values "t" (fieldsOf parts))
    (invalid : readInt value = none) :
    parseParts parts ts sig = (none, none) := by
  induction parts generalizing ts sig with
  | nil => cases member
  | cons part parts inductionHypothesis =>
      unfold parseParts
      cases isField : partition '=' (strip part) with
      | none =>
          have same : fieldsOf (part :: parts) = fieldsOf parts := by
            simp [fieldsOf, isField]
          rw [same] at member
          exact inductionHypothesis member
      | some field =>
          obtain ⟨key, first⟩ := field
          have more : fieldsOf (part :: parts) =
              (key, first) :: fieldsOf parts := by
            simp [fieldsOf, isField]
          rw [more, values_cons] at member
          dsimp only at member ⊢
          by_cases isTime : key = "t".toList
          · rw [if_pos isTime] at member ⊢
            cases isNumber : readInt first with
            | none => rfl
            | some number =>
                rcases List.mem_cons.mp member with rfl | isLater
                · rw [invalid] at isNumber
                  cases isNumber
                · exact inductionHypothesis isLater
          · rw [if_neg isTime] at member ⊢
            by_cases isDigest : key = "v1".toList
            · rw [if_pos isDigest]
              exact inductionHypothesis member
            · rw [if_neg isDigest]
              exact inductionHypothesis member

/-- The parser reads exactly what the header carries. -/
theorem parse_eq_iff {header : String} {number : Int} {digest : String} :
    parse header = (some number, some digest) ↔
      Carries header number digest := by
  by_cases numbers : ∀ value ∈ values "t" (fields header),
      (readInt value).isSome = true
  · have parsed : parse header = _ := parseParts_numbers numbers
    rw [parsed, Option.or_none, Option.or_none, Prod.mk.injEq,
      Option.map_eq_some_iff]
    constructor
    · rintro ⟨timestamp, text, isText, rfl⟩
      exact ⟨numbers, timestamp, by rw [String.toList_ofList]; exact isText⟩
    · intro carries
      exact ⟨carries.timestamp, _, carries.digest, String.ofList_toList⟩
  · simp only [not_forall] at numbers
    obtain ⟨value, member, invalid⟩ := numbers
    have spoiled : parse header = (none, none) :=
      parseParts_invalid member (Option.not_isSome_iff_eq_none.mp invalid)
    rw [spoiled]
    apply iff_of_false
    · intro equal
      cases equal
    · intro carries
      exact invalid (carries.numbers value member)

theorem Carries.unique {header : String} {number other : Int}
    {digest more : String} (carries : Carries header number digest)
    (also : Carries header other more) : number = other ∧ digest = more := by
  have same := (parse_eq_iff.mpr carries).symm.trans (parse_eq_iff.mpr also)
  exact ⟨Option.some.inj (Prod.mk.inj same).1,
    Option.some.inj (Prod.mk.inj same).2⟩

end Parser

/-! ## The signed message -/

section Message

variable {ts other : Int} {body more message : List UInt8}

theorem formatInt_ok {number : Int} {shown : List Char} :
    formatInt number = .ok shown ↔ showInt number = some shown := by
  unfold formatInt
  cases showInt number with
  | none => simp [throw, throwThe, MonadExceptOf.throw]
  | some text => simp [pure, Except.pure]

theorem signedMessage_ok :
    signedMessage ts body = .ok message ↔
      ∃ shown, showInt ts = some shown ∧
        message = encodeAscii (shown ++ ['.']) ++ body := by
  unfold signedMessage
  cases isShown : formatInt ts with
  | error raised =>
      constructor
      · intro isOk
        cases isOk
      · rintro ⟨shown, isText, -⟩
        rw [formatInt_ok.mpr isText] at isShown
        cases isShown
  | ok shown =>
      have isText := formatInt_ok.mp isShown
      constructor
      · intro isOk
        obtain rfl := Except.ok.inj isOk
        exact ⟨shown, isText, rfl⟩
      · rintro ⟨text, isOther, rfl⟩
        obtain rfl := Option.some.inj (isText.symm.trans isOther)
        rfl

/-- The characters of a number. -/
theorem plain_range {char : Char}
    (plain : char.isDigit = true ∨ char = '-') :
    char.toNat = 45 ∨ 48 ≤ char.toNat ∧ char.toNat ≤ 57 := by
  rcases plain with isDigit | rfl
  · right
    simpa [Char.isDigit, UInt32.le_iff_toNat_le] using isDigit
  · left
    rfl

theorem toNat_encode {char : Char}
    (plain : char.isDigit = true ∨ char = '-') :
    (UInt8.ofNat char.toNat).toNat = char.toNat := by
  have range := plain_range plain
  rw [UInt8.toNat_ofNat']
  omega

/-- The bytes of a number give back its characters. -/
theorem encodeAscii_decode {shown : List Char}
    (plain : ∀ char ∈ shown, char.isDigit = true ∨ char = '-') :
    (encodeAscii shown).map (fun byte => Char.ofNat byte.toNat) = shown := by
  unfold encodeAscii
  have decoded : ∀ char ∈ shown,
      ((fun byte => Char.ofNat byte.toNat) ∘
        fun char : Char => UInt8.ofNat char.toNat) char = id char := by
    intro char member
    exact (congrArg Char.ofNat (toNat_encode (plain char member))).trans
      (Char.ofNat_toNat char)
  rw [List.map_map, List.map_congr_left decoded, List.map_id]

/-- The bytes of a number end at the first dot. -/
theorem takeWhile_message {shown : List Char}
    (plain : ∀ char ∈ shown, char.isDigit = true ∨ char = '-') :
    (encodeAscii (shown ++ ['.']) ++ body).takeWhile (· != 46) =
      encodeAscii shown := by
  have apart : ∀ byte ∈ encodeAscii shown, (byte != 46) = true := by
    intro byte member
    obtain ⟨char, isChar, rfl⟩ := List.mem_map.mp member
    apply bne_iff_ne.mpr
    intro same
    have numbers := congrArg UInt8.toNat same
    rw [toNat_encode (plain char isChar)] at numbers
    have range := plain_range (plain char isChar)
    have dot : (46 : UInt8).toNat = 46 := rfl
    omega
  have split : encodeAscii (shown ++ ['.']) ++ body =
      encodeAscii shown ++ 46 :: body := by
    simp [encodeAscii]
  rw [split, List.takeWhile_append_of_pos apart]
  simp

/-- The signed message determines the timestamp and the body. -/
theorem signedMessage_injective
    (isMessage : signedMessage ts body = .ok message)
    (isOther : signedMessage other more = .ok message) :
    ts = other ∧ body = more := by
  obtain ⟨shown, isShown, rfl⟩ := signedMessage_ok.mp isMessage
  obtain ⟨otherShown, isOtherShown, same⟩ := signedMessage_ok.mp isOther
  have plain := mem_showInt isShown
  have otherPlain := mem_showInt isOtherShown
  have bytes : encodeAscii shown = encodeAscii otherShown := by
    rw [← takeWhile_message plain, same, takeWhile_message otherPlain]
  have texts : shown = otherShown := by
    rw [← encodeAscii_decode plain, bytes, encodeAscii_decode otherPlain]
  subst texts
  exact ⟨showInt_injective isShown isOtherShown,
    List.append_cancel_left same⟩

end Message

/-! ## Verification -/

section Verification

variable {hexdigest : String → List UInt8 → String}
variable {secret text digest : String} {body message : List UInt8}
variable {ts toleranceS now : Int}

/-- HMAC-SHA256 as an ideal function: different messages have different digests,
which are hexadecimal. -/
structure Ideal (hexdigest : String → List UInt8 → String) : Prop where
  injective : ∀ secret, Function.Injective (hexdigest secret)
  hexadecimal : ∀ secret message, ∀ char ∈ (hexdigest secret message).toList,
    char.isDigit = true ∨ char ∈ ['a', 'b', 'c', 'd', 'e', 'f']

/-- A header carries a fresh timestamp and a digest. -/
def CarriesFresh (header : Option String) (toleranceS now ts : Int)
    (digest : String) : Prop :=
  ∃ text, header = some text ∧ Carries text ts digest ∧ |now - ts| ≤ toleranceS

theorem Carries.ne_empty (carries : Carries text ts digest) : text ≠ "" := by
  rintro rfl
  cases parse_eq_iff.mpr carries

/-- A timestamp that was read can be signed again. -/
theorem Carries.signedMessage (carries : Carries text ts digest)
    (body : List UInt8) : ∃ message, signedMessage ts body = .ok message := by
  obtain ⟨value, -, isNumber⟩ := Option.bind_eq_some_iff.mp carries.timestamp
  obtain ⟨shown, isShown⟩ := showInt_of_readInt isNumber
  exact ⟨_, signedMessage_ok.mpr ⟨shown, isShown, rfl⟩⟩

/-- Over a fresh timestamp the digests are compared. -/
theorem verify_fresh (carries : Carries text ts digest)
    (fresh : |now - ts| ≤ toleranceS)
    (isMessage : signedMessage ts body = .ok message) :
    verify hexdigest secret body (some text) toleranceS now =
      compareDigest (hexdigest secret message) digest := by
  unfold verify
  dsimp only
  rw [if_neg carries.ne_empty, parse_eq_iff.mpr carries]
  dsimp only
  rw [if_neg (not_lt.mpr fresh), isMessage]
  rfl

/-- Every other header is turned down. -/
theorem verify_stale {header : Option String}
    (stale : ¬∃ ts digest, CarriesFresh header toleranceS now ts digest) :
    verify hexdigest secret body header toleranceS now = .ok false := by
  unfold verify
  cases header with
  | none => rfl
  | some text =>
      dsimp only
      split
      · rfl
      · split
        · next ts digest parsed =>
          by_cases late : |now - ts| > toleranceS
          · rw [if_pos late]
            rfl
          · exact absurd ⟨ts, digest, text, rfl, parse_eq_iff.mp parsed,
              not_lt.mp late⟩ stale
        · rfl

theorem isAscii_digest (ideal : Ideal hexdigest) :
    isAscii (hexdigest secret message) = true := by
  apply List.all_eq_true.mpr
  intro char member
  rcases ideal.hexadecimal secret message char member with isDigit | isLetter
  · have range := plain_range (.inl isDigit)
    apply decide_eq_true
    omega
  · simp only [List.mem_cons, List.not_mem_nil, or_false] at isLetter
    rcases isLetter with rfl | rfl | rfl | rfl | rfl | rfl <;> decide

/-- A digest has no space, comma or equals sign in it. -/
theorem hexadecimal_plain (ideal : Ideal hexdigest) :
    ∀ char ∈ (hexdigest secret message).toList,
      isSpace char = false ∧ char ≠ ',' := by
  intro char member
  rcases ideal.hexadecimal secret message char member with isDigit | isLetter
  · constructor
    · exact isSpace_eq_false (.inl isDigit)
    · rintro rfl
      cases isDigit
  · simp only [List.mem_cons, List.not_mem_nil, or_false] at isLetter
    rcases isLetter with rfl | rfl | rfl | rfl | rfl | rfl <;> decide

theorem showInt_plain {number : Int} {shown : List Char}
    (isShown : showInt number = some shown) :
    ∀ char ∈ shown, isSpace char = false ∧ char ≠ ',' := by
  intro char member
  have plain := mem_showInt isShown char member
  constructor
  · exact isSpace_eq_false plain
  · rintro rfl
    rcases plain with isDigit | isSign
    · cases isDigit
    · cases isSign

/-- A key and a value without spaces and commas are one field. -/
theorem strip_field {key value : List Char}
    (plainKey : key.all (!isSpace ·) = true)
    (plain : ∀ char ∈ value, isSpace char = false ∧ char ≠ ',') :
    strip (key ++ '=' :: value) = key ++ '=' :: value := by
  apply trim_eq_self
  intro char member
  rcases List.mem_append.mp member with isKey | isRest
  · simpa using List.all_eq_true.mp plainKey char isKey
  · rcases List.mem_cons.mp isRest with rfl | isValue
    · decide
    · exact (plain char isValue).1

theorem comma_not_mem {key value : List Char} (plainKey : ',' ∉ key)
    (plain : ∀ char ∈ value, isSpace char = false ∧ char ≠ ',') :
    ',' ∉ key ++ '=' :: value := by
  intro member
  rcases List.mem_append.mp member with isKey | isRest
  · exact plainKey isKey
  · rcases List.mem_cons.mp isRest with isSign | isValue
    · cases isSign
    · exact (plain ',' isValue).2 rfl

/-- The header that `sign` returns. -/
def signatureText (shown : List Char) (digest : String) : String :=
  String.ofList ("t=".toList ++ shown ++ ",v1=".toList ++ digest.toList)

theorem fields_signature {shown : List Char}
    (plain : ∀ char ∈ shown, isSpace char = false ∧ char ≠ ',')
    (plainDigest : ∀ char ∈ digest.toList,
      isSpace char = false ∧ char ≠ ',') :
    fields (signatureText shown digest) =
      [("t".toList, shown), ("v1".toList, digest.toList)] := by
  have first : ',' ∉ "t".toList ++ '=' :: shown :=
    comma_not_mem (by decide) plain
  have second : ',' ∉ "v1".toList ++ '=' :: digest.toList :=
    comma_not_mem (by decide) plainDigest
  have split := List.splitOn_append_cons_self_of_not_mem first
    ("v1".toList ++ '=' :: digest.toList)
  rw [List.splitOn_eq_singleton second] at split
  have text : (signatureText shown digest).toList =
      ("t".toList ++ '=' :: shown) ++
        ',' :: ("v1".toList ++ '=' :: digest.toList) := by
    simp [signatureText]
  unfold fields
  rw [text, split]
  simp only [List.filterMap_cons, List.filterMap_nil]
  rw [strip_field (by decide) plain, strip_field (by decide) plainDigest,
    partition_append (by decide), partition_append (by decide)]

/-- What `sign` returns carries the timestamp and the digest. -/
theorem carries_signature {shown : List Char} (ideal : Ideal hexdigest)
    (isShown : showInt ts = some shown) :
    Carries (signatureText shown (hexdigest secret message)) ts
      (hexdigest secret message) := by
  have isNumber := readInt_showInt isShown
  have isFields : fields (signatureText shown (hexdigest secret message)) = _ :=
    fields_signature (showInt_plain isShown) (hexadecimal_plain ideal)
  constructor
  · rw [isFields]
    intro value member
    obtain rfl := List.mem_singleton.mp member
    rw [isNumber]
    rfl
  · rw [isFields]
    exact isNumber
  · rw [isFields]
    rfl

theorem sign_ok {timestamp : Option Int} {signature : String}
    (signed : sign hexdigest secret body timestamp now = .ok signature) :
    ∃ shown message, showInt (timestamp.getD now) = some shown ∧
      signedMessage (timestamp.getD now) body = .ok message ∧
      signature = signatureText shown (hexdigest secret message) := by
  unfold sign at signed
  dsimp only at signed
  cases isMessage : signedMessage (timestamp.getD now) body with
  | error raised =>
      rw [isMessage] at signed
      cases signed
  | ok message =>
      obtain ⟨shown, isShown, -⟩ := signedMessage_ok.mp isMessage
      rw [isMessage, formatInt_ok.mpr isShown] at signed
      exact ⟨shown, message, isShown, rfl, (Except.ok.inj signed).symm⟩

theorem compareDigest_ascii (ideal : Ideal hexdigest)
    (ascii : isAscii digest = true) :
    compareDigest (hexdigest secret message) digest =
      .ok (hexdigest secret message == digest) := by
  unfold compareDigest
  rw [isAscii_digest ideal, ascii]
  rfl

theorem compareDigest_unicode (unicode : isAscii digest = false) :
    compareDigest (hexdigest secret message) digest = .error .typeError := by
  unfold compareDigest
  rw [unicode, Bool.and_false]
  rfl

/-- `verify` accepts a header if and only if it carries a fresh timestamp and
the digest of the message. -/
theorem verify_true_iff {header : Option String} (ideal : Ideal hexdigest) :
    verify hexdigest secret body header toleranceS now = .ok true ↔
      ∃ ts message, signedMessage ts body = .ok message ∧
        CarriesFresh header toleranceS now ts (hexdigest secret message) := by
  constructor
  · intro accepted
    by_cases carried :
        ∃ ts digest, CarriesFresh header toleranceS now ts digest
    · obtain ⟨ts, digest, text, rfl, carries, fresh⟩ := carried
      obtain ⟨message, isMessage⟩ := carries.signedMessage body
      rw [verify_fresh carries fresh isMessage] at accepted
      cases ascii : isAscii digest with
      | false =>
          rw [compareDigest_unicode ascii] at accepted
          cases accepted
      | true =>
          rw [compareDigest_ascii ideal ascii] at accepted
          obtain rfl := beq_iff_eq.mp (Except.ok.inj accepted)
          exact ⟨ts, message, isMessage, text, rfl, carries, fresh⟩
    · rw [verify_stale carried] at accepted
      cases accepted
  · rintro ⟨ts, message, isMessage, text, rfl, carries, fresh⟩
    rw [verify_fresh carries fresh isMessage,
      compareDigest_ascii ideal (isAscii_digest ideal)]
    exact congrArg Except.ok (beq_self_eq_true _)

/-- `verify` returns, unless it comes to compare a digest that is not ASCII. -/
theorem verify_returns_iff {header : Option String} (ideal : Ideal hexdigest) :
    (∃ answer,
      verify hexdigest secret body header toleranceS now = .ok answer) ↔
      ¬∃ ts digest, CarriesFresh header toleranceS now ts digest ∧
        isAscii digest = false := by
  constructor
  · rintro ⟨answer, returned⟩ ⟨ts, digest, ⟨text, rfl, carries, fresh⟩, unicode⟩
    obtain ⟨message, isMessage⟩ := carries.signedMessage body
    rw [verify_fresh carries fresh isMessage,
      compareDigest_unicode unicode] at returned
    cases returned
  · intro ascii
    by_cases carried :
        ∃ ts digest, CarriesFresh header toleranceS now ts digest
    · obtain ⟨ts, digest, text, rfl, carries, fresh⟩ := carried
      obtain ⟨message, isMessage⟩ := carries.signedMessage body
      have isDigest : isAscii digest = true := by
        by_contra unicode
        exact ascii ⟨ts, digest, ⟨text, rfl, carries, fresh⟩,
          Bool.not_eq_true _ ▸ unicode⟩
      exact ⟨_, (verify_fresh carries fresh isMessage).trans
        (compareDigest_ascii ideal isDigest)⟩
    · exact ⟨false, verify_stale carried⟩

/-- With HMAC-SHA256 ideal: verification neither raises nor errs if and only if
it does not come to compare a digest that is not ASCII; the signed message
determines timestamp and body, so that a signature of one pair is accepted for
no other; and what `sign` returns is accepted within the tolerance. -/
theorem verify_exact (hexdigest : String → List UInt8 → String)
    (ideal : Ideal hexdigest) :
    (∀ secret body header toleranceS now,
      ((∃ answer,
          verify hexdigest secret body header toleranceS now = .ok answer) ∧
        (verify hexdigest secret body header toleranceS now = .ok true ↔
          ∃ ts message, signedMessage ts body = .ok message ∧
            CarriesFresh header toleranceS now ts
              (hexdigest secret message))) ↔
        ¬∃ ts digest, CarriesFresh header toleranceS now ts digest ∧
          isAscii digest = false) ∧
    (∀ ts body message other more,
      signedMessage ts body = .ok message →
        signedMessage other more = .ok message → ts = other ∧ body = more) ∧
    (∀ secret ts body message text other more toleranceS now,
      signedMessage ts body = .ok message →
        Carries text other (hexdigest secret message) →
          verify hexdigest secret more (some text) toleranceS now = .ok true →
            other = ts ∧ more = body) ∧
    ∀ secret body timestamp signedAt signature toleranceS now,
      sign hexdigest secret body timestamp signedAt = .ok signature →
        |now - timestamp.getD signedAt| ≤ toleranceS →
          verify hexdigest secret body (some signature) toleranceS now =
            .ok true := by
  refine ⟨?_, ?_, ?_, ?_⟩
  · intro secret body header toleranceS now
    rw [← verify_returns_iff ideal]
    exact and_iff_left (verify_true_iff ideal)
  · intro ts body message other more isMessage isOther
    exact signedMessage_injective isMessage isOther
  · intro secret ts body message text other more toleranceS now isMessage
      carries accepted
    obtain ⟨found, signed, isSigned, _, isText, also, -⟩ :=
      (verify_true_iff ideal).mp accepted
    obtain rfl := Option.some.inj isText
    obtain ⟨rfl, sameDigest⟩ := carries.unique also
    obtain rfl := ideal.injective secret sameDigest
    exact signedMessage_injective isSigned isMessage
  · intro secret body timestamp signedAt signature toleranceS now signed fresh
    obtain ⟨shown, message, isShown, isMessage, rfl⟩ := sign_ok signed
    exact (verify_true_iff ideal).mpr ⟨_, message, isMessage, _, rfl,
      carries_signature ideal isShown, fresh⟩

end Verification

/-! ## A sample -/

section Sample

/-- The digest of the sample's message under the secret `secret`. -/
def sampleDigest : String :=
  "b8569b78799ff9e3cbff0fc2d63a33a2b57f3282abd07c37ae5e8e7d79a5f163"

/-- The value of a hexadecimal character. -/
def hexValue (char : Char) : Nat :=
  if char.isDigit then char.toNat - 48 else char.toNat - 87

/-- The hexadecimal characters of a byte. -/
def hexByte (byte : UInt8) : List Char :=
  [Nat.digitChar (byte.toNat / 16), Nat.digitChar (byte.toNat % 16)]

/-- An ideal function that agrees with HMAC-SHA256 on the sample's message. -/
def sampleHexdigest (secret : String) (message : List UInt8) : String :=
  if secret = "secret" ∧ message = encodeAscii "1700000000.{}".toList then
    sampleDigest
  else String.ofList ('0' :: message.flatMap hexByte)

theorem hexValue_digitChar :
    ∀ value < 16, hexValue (Nat.digitChar value) = value := by
  decide

theorem hexByte_injective {first second : UInt8}
    (same : hexByte first = hexByte second) : first = second := by
  obtain ⟨high, rest⟩ := List.cons.inj same
  obtain ⟨low, -⟩ := List.cons.inj rest
  have highs := congrArg hexValue high
  have lows := congrArg hexValue low
  have firstLt := first.toNat_lt
  have secondLt := second.toNat_lt
  rw [hexValue_digitChar _ (by omega), hexValue_digitChar _ (by omega)]
    at highs lows
  apply UInt8.toNat_inj.mp
  omega

theorem flatMap_hexByte_injective {first second : List UInt8}
    (same : first.flatMap hexByte = second.flatMap hexByte) :
    first = second := by
  induction first generalizing second with
  | nil =>
      cases second with
      | nil => rfl
      | cons byte second => cases same
  | cons byte first inductionHypothesis =>
      cases second with
      | nil => cases same
      | cons other second =>
          rw [List.flatMap_cons, List.flatMap_cons] at same
          obtain ⟨bytes, rests⟩ := List.append_inj same rfl
          rw [hexByte_injective bytes, inductionHypothesis rests]

theorem digitChar_hexadecimal : ∀ value < 16,
    (Nat.digitChar value).isDigit = true ∨
      Nat.digitChar value ∈ ['a', 'b', 'c', 'd', 'e', 'f'] := by
  decide

/-- The digest of the sample has an even number of characters, and all others
have an odd one. -/
theorem sampleDigest_ne {message : List UInt8} :
    sampleDigest ≠ String.ofList ('0' :: message.flatMap hexByte) := by
  intro same
  have lengths := congrArg (fun text : String => text.toList.length) same
  have pairs : (message.flatMap hexByte).length = message.length * 2 := by
    simp [List.length_flatMap, hexByte]
  rw [String.toList_ofList, List.length_cons, pairs] at lengths
  have even : sampleDigest.toList.length = 64 := by decide
  omega

theorem sampleDigest_hexadecimal :
    sampleDigest.toList.all
      (fun char =>
        char.isDigit || ['a', 'b', 'c', 'd', 'e', 'f'].contains char) =
        true := by
  decide

theorem sample_ideal : Ideal sampleHexdigest := by
  constructor
  · intro secret first second same
    unfold sampleHexdigest at same
    split at same
    · next isSample =>
      split at same
      · next alsoSample => rw [isSample.2, alsoSample.2]
      · exact absurd same sampleDigest_ne
    · split at same
      · exact absurd same.symm sampleDigest_ne
      · have lists := congrArg String.toList same
        rw [String.toList_ofList, String.toList_ofList] at lists
        exact flatMap_hexByte_injective (List.cons.inj lists).2
  · intro secret message
    unfold sampleHexdigest
    split
    · intro char member
      exact
        (Bool.or_eq_true_iff.mp
          (List.all_eq_true.mp sampleDigest_hexadecimal char member)).imp
          id List.contains_iff_mem.mp
    · rw [String.toList_ofList]
      intro char member
      rcases List.mem_cons.mp member with rfl | isHex
      · exact .inl rfl
      · obtain ⟨byte, -, inByte⟩ := List.mem_flatMap.mp isHex
        have below := byte.toNat_lt
        simp only [hexByte, List.mem_cons, List.not_mem_nil,
          or_false] at inByte
        rcases inByte with rfl | rfl
        · exact digitChar_hexadecimal _ (by omega)
        · exact digitChar_hexadecimal _ (by omega)

theorem verify_exact_sample :
    verify sampleHexdigest "secret" (encodeAscii "{}".toList)
        (some ("t=1700000000,v1=" ++ sampleDigest)) defaultToleranceS
        1700000100 = .ok true := by
  obtain ⟨-, -, -, accepts⟩ := verify_exact sampleHexdigest sample_ideal
  apply accepts "secret" (encodeAscii "{}".toList) (some 1700000000) 0
  · decide +kernel
  · decide

/-- A digest that is not ASCII raises. -/
theorem unicode_digest_raises :
    Ideal sampleHexdigest ∧
      verify sampleHexdigest "secret" [] (some "t=0,v1=é") defaultToleranceS 0 =
        .error .typeError := by
  constructor
  · exact sample_ideal
  · decide +kernel

end Sample

end AssessmentPlatform.Signing
