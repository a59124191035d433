import AssessmentPlatform.Mail.Support
import Mathlib.Data.List.Dedup
import Mathlib.Data.List.DropRight

/-!
# What was copied on this page

`normalizeClipboard` of `integrity.ts` and the memory of copied texts.  Two
texts have the same key when they have the same words, and the memory holds the
last distinct keys.
-/

namespace AssessmentPlatform.Clipboard

/-! ## Keys -/

/-- `\s` of a regular expression, which is also what `trim` removes. -/
def isSpace (char : Char) : Bool :=
  [0x09, 0x0a, 0x0b, 0x0c, 0x0d, 0x20, 0xa0, 0x1680, 0x2028, 0x2029, 0x202f,
    0x205f, 0x3000, 0xfeff].contains char.toNat ||
    (0x2000 ≤ char.toNat && char.toNat ≤ 0x200a)

/-- `text.replace(/\s+/g, ' ')`, on what follows a space or does not. -/
def collapse (afterSpace : Bool) : List Char → List Char
  | [] => []
  | char :: rest =>
      if isSpace char then
        if afterSpace then collapse true rest else ' ' :: collapse true rest
      else char :: collapse false rest

/-- `normalizeClipboard` -/
def normalizeClipboard (text : String) : String :=
  .ofList (((collapse false text.toList).dropWhile isSpace).rdropWhile isSpace)

/-- The words of a text: what stands between its spaces. -/
def words (text : List Char) : List (List Char) :=
  (text.splitOnP isSpace).filter (· ≠ [])

variable {text other : List Char} {char : Char}

/-- Once its leading space is gone, a collapsed text does not begin with
one. -/
theorem dropWhile_collapse (afterSpace : Bool) (text : List Char) :
    (collapse afterSpace text).dropWhile isSpace = collapse true text := by
  have spaceIsSpace : isSpace ' ' = true := by decide
  induction text generalizing afterSpace with
  | nil => rfl
  | cons char rest inductionHypothesis =>
      have later := inductionHypothesis true
      by_cases space : isSpace char = true
      · cases afterSpace with
        | true => simpa [collapse, space] using later
        | false => simpa [collapse, space, spaceIsSpace] using later
      · simp [collapse, space]

@[simp] theorem words_nil : words [] = [] := by
  simp [words]

theorem words_cons_space (space : isSpace char = true) :
    words (char :: text) = words text := by
  simp [words, List.splitOnP_cons_eq_if_modifyHead, space]

theorem words_singleton (letter : isSpace char = false) :
    words [char] = [[char]] := by
  simp [words, List.splitOnP_cons_eq_if_modifyHead, letter]

/-- A letter before a space is a word, or the end of one. -/
theorem words_cons_letter_space {space : Char}
    (letter : isSpace char = false) (isSpace' : isSpace space = true) :
    words (char :: space :: text) = [char] :: words text := by
  simp [words, List.splitOnP_cons_eq_if_modifyHead, letter, isSpace']

/-- A letter before a letter belongs to the same word. -/
theorem words_cons_letter_letter {next : Char}
    (letter : isSpace char = false) (nextLetter : isSpace next = false) :
    ∃ first rest, words (next :: text) = first :: rest ∧
      words (char :: next :: text) = (char :: first) :: rest := by
  cases parts : text.splitOnP isSpace with
  | nil => exact absurd parts (List.splitOnP_ne_nil _ _)
  | cons head tail =>
      refine ⟨next :: head, tail.filter (· ≠ []), ?_, ?_⟩
      · simp [words, List.splitOnP_cons_eq_if_modifyHead, nextLetter, parts]
      · simp [words, List.splitOnP_cons_eq_if_modifyHead, letter, nextLetter,
          parts]

theorem rdropWhile_cons_letter (letter : isSpace char = false) :
    (char :: text).rdropWhile isSpace = char :: text.rdropWhile isSpace := by
  induction text using List.reverseRecOn with
  | nil => simp [List.rdropWhile_singleton, letter]
  | append_singleton earlier last inductionHypothesis =>
      rw [← List.cons_append, List.rdropWhile_concat, List.rdropWhile_concat]
      split
      · exact inductionHypothesis
      · rfl

/-- A space before nothing but spaces is one of those dropped. -/
theorem rdropWhile_cons_space (space : isSpace char = true) :
    (char :: text).rdropWhile isSpace =
      if text.rdropWhile isSpace = [] then []
      else char :: text.rdropWhile isSpace := by
  induction text using List.reverseRecOn with
  | nil => simp [List.rdropWhile_singleton, space]
  | append_singleton earlier last inductionHypothesis =>
      rw [← List.cons_append, List.rdropWhile_concat, List.rdropWhile_concat]
      by_cases lastSpace : isSpace last = true
      · simpa only [lastSpace, if_true] using inductionHypothesis
      · simp [lastSpace]

theorem ne_nil_of_mem_words {word : List Char} (member : word ∈ words text) :
    word ≠ [] := by
  simpa using List.of_mem_filter member

/-- The key of a text is its words with a space between any two. -/
theorem rdropWhile_collapse (text : List Char) :
    (collapse true text).rdropWhile isSpace =
      [' '].intercalate (words text) := by
  induction text with
  | nil => simp [collapse]
  | cons char rest inductionHypothesis =>
      by_cases space : isSpace char = true
      · simpa [collapse, space, words_cons_space space]
          using inductionHypothesis
      · have letter : isSpace char = false := by simpa using space
        simp only [collapse, letter, Bool.false_eq_true, if_false]
        rw [rdropWhile_cons_letter letter]
        cases rest with
        | nil => simp [collapse, words_singleton letter]
        | cons next rest =>
            by_cases nextSpace : isSpace next = true
            · have same : collapse false (next :: rest) =
                  ' ' :: collapse true rest := by
                simp [collapse, nextSpace]
              have later : (collapse true rest).rdropWhile isSpace =
                  [' '].intercalate (words rest) := by
                simpa [collapse, nextSpace, words_cons_space nextSpace]
                  using inductionHypothesis
              rw [same, rdropWhile_cons_space (by decide), later,
                words_cons_letter_space letter nextSpace]
              cases parts : words rest with
              | nil => simp
              | cons first others =>
                  have isFirst : first ∈ words rest := by
                    rw [parts]
                    exact List.mem_cons_self
                  have isWord := ne_nil_of_mem_words isFirst
                  have notEmpty :
                      [' '].intercalate (first :: others) ≠ [] := by
                    cases others <;> simp [isWord]
                  rw [if_neg notEmpty, List.intercalate_cons_cons]
                  rfl
            · have nextLetter : isSpace next = false := by simpa using nextSpace
              obtain ⟨first, others, isFirst, isLonger⟩ :=
                words_cons_letter_letter letter nextLetter
              have same : collapse false (next :: rest) =
                  collapse true (next :: rest) := by
                simp [collapse, nextLetter]
              rw [same, inductionHypothesis, isFirst, isLonger]
              cases others <;> simp

theorem normalizeClipboard_toList (text : String) :
    (normalizeClipboard text).toList =
      [' '].intercalate (words text.toList) := by
  rw [normalizeClipboard, String.toList_ofList, dropWhile_collapse,
    rdropWhile_collapse]

/-- The words of a key are the words of the text. -/
theorem words_intercalate {parts : List (List Char)}
    (areWords : ∀ part ∈ parts,
      part ≠ [] ∧ ∀ char ∈ part, isSpace char = false) :
    words ([' '].intercalate parts) = parts := by
  induction parts with
  | nil => simp
  | cons first rest inductionHypothesis =>
      obtain ⟨⟨isWord, letters⟩, others⟩ := List.forall_mem_cons.mp areWords
      cases rest with
      | nil =>
          simp [words, List.splitOnP_eq_singleton letters, isWord]
      | cons second rest =>
          have later := inductionHypothesis others
          rw [List.intercalate_cons_cons, List.append_assoc, words]
          rw [List.singleton_append,
            List.splitOnP_append_cons_of_forall_mem letters ' ' (by decide)]
          rw [List.filter_cons_of_pos (by simpa using isWord)]
          exact congrArg (first :: ·) later

/-- Two texts have one key exactly when they have the same words. -/
theorem normalizeClipboard_eq_iff (text other : String) :
    normalizeClipboard text = normalizeClipboard other ↔
      words text.toList = words other.toList := by
  have readBack (text : String) :
      words (normalizeClipboard text).toList = words text.toList := by
    rw [normalizeClipboard_toList]
    refine words_intercalate fun part isPart => ⟨ne_nil_of_mem_words isPart, ?_⟩
    intro char member
    exact Support.not_of_mem_splitOnP (List.mem_of_mem_filter isPart) member
  constructor
  · intro same
    rw [← readBack text, ← readBack other, same]
  · intro same
    apply String.toList_inj.mp
    rw [normalizeClipboard_toList, normalizeClipboard_toList, same]

/-- A text without words is the one that has no key. -/
theorem normalizeClipboard_eq_empty_iff (text : String) :
    normalizeClipboard text = "" ↔ words text.toList = [] := by
  have empty : normalizeClipboard "" = "" := by decide
  conv_lhs => rw [← empty]
  rw [normalizeClipboard_eq_iff]
  simp

/-! ## The memory -/

/-- `COPY_MEMORY` -/
def copyMemory : Nat := 40

/-- What a copy or a cut does to the memory: the key becomes the newest, and
the oldest ones fall off. -/
def remember (copied : List String) (text : String) : List String :=
  let key := normalizeClipboard text
  if key = "" then copied
  else (copied.filter (· ≠ key) ++ [key]).rtake copyMemory

/-- The keys of the texts that have one. -/
def keys (texts : List String) : List String :=
  (texts.map normalizeClipboard).filter (· ≠ "")

theorem dedup_concat {alpha : Type*} [DecidableEq alpha] (items : List alpha)
    (item : alpha) :
    (items ++ [item]).dedup = items.dedup.filter (· ≠ item) ++ [item] := by
  induction items with
  | nil => simp
  | cons head tail inductionHypothesis =>
      rw [List.cons_append, List.dedup_cons, List.dedup_cons,
        inductionHypothesis]
      by_cases inTail : head ∈ tail
      · simp [inTail]
      · by_cases same : head = item
        · subst same
          simp [inTail]
        · simp [same, inTail]

theorem rtake_append_of_le {alpha : Type*} {items : List alpha} {n : Nat}
    (le : n ≤ items.length) (earlier : List alpha) :
    (earlier ++ items).rtake n = items.rtake n := by
  have shift : (earlier ++ items).length - n =
      earlier.length + (items.length - n) := by
    rw [List.length_append]
    omega
  rw [List.rtake, List.rtake, shift, List.drop_length_add_append]

/-- Making an item the newest of the last ones is making it the newest of
all. -/
theorem rtake_filter_concat {alpha : Type*} [DecidableEq alpha]
    {items : List alpha} (nodup : items.Nodup) (n : Nat) (item : alpha) :
    ((items.rtake n).filter (· ≠ item) ++ [item]).rtake n =
      (items.filter (· ≠ item) ++ [item]).rtake n := by
  have split' : items = items.take (items.length - n) ++ items.rtake n :=
    (List.take_append_drop _ _).symm
  by_cases few : items.length ≤ n
  · have all : items.rtake n = items := by
      rw [List.rtake, Nat.sub_eq_zero_of_le few, List.drop_zero]
    rw [all]
  · have length : (items.rtake n).length = n := by
      rw [List.rtake, List.length_drop]
      omega
    have nodup' : (items.rtake n).Nodup := by
      rw [split'] at nodup
      exact nodup.of_append_right
    have enough : n ≤
        ((items.rtake n).filter (· ≠ item) ++ [item]).length := by
      have erased := List.le_length_erase (a := item) (l := items.rtake n)
      rw [nodup'.erase_eq_filter item] at erased
      have same : (items.rtake n).filter (· != item) =
          (items.rtake n).filter (· ≠ item) := by
        simp [bne, BEq.beq]
      rw [same] at erased
      rw [List.length_append, List.length_singleton]
      omega
    have parts : items.filter (· ≠ item) ++ [item] =
        (items.take (items.length - n)).filter (· ≠ item) ++
          ((items.rtake n).filter (· ≠ item) ++ [item]) := by
      conv_lhs => rw [split', List.filter_append, List.append_assoc]
    rw [parts, rtake_append_of_le enough]

/-- The memory holds the last distinct keys, in the order of their latest
copies. -/
theorem foldl_remember (texts : List String) :
    texts.foldl remember [] = (keys texts).dedup.rtake copyMemory := by
  induction texts using List.reverseRecOn with
  | nil => simp [keys]
  | append_singleton earlier text inductionHypothesis =>
      rw [List.foldl_append, inductionHypothesis]
      simp only [List.foldl_cons, List.foldl_nil, remember]
      by_cases noKey : normalizeClipboard text = ""
      · simp [keys, noKey]
      · have longer : keys (earlier ++ [text]) =
            keys earlier ++ [normalizeClipboard text] := by
          simp [keys, noKey]
        rw [if_neg noKey, longer, dedup_concat]
        exact rtake_filter_concat (List.nodup_dedup _) copyMemory _

end AssessmentPlatform.Clipboard
