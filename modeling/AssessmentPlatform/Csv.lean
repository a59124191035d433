import Mathlib.Data.List.Basic

/-!
# Comma-separated values

The default dialect of Python's `csv.writer`: commas between fields, CRLF after
rows, quotes only where a field needs them.  A reader that goes through the
text one character at a time gets back the rows that were written.
-/

namespace Csv

/-! ## Writing -/

/-- The characters that a field is quoted for. -/
def isSpecial (char : Char) : Bool :=
  char == ',' || char == '"' || char == '\n' || char == '\r'

/-- Inside quotes a quote is doubled. -/
def doubled (field : List Char) : List Char :=
  field.flatMap fun char => if char == '"' then ['"', '"'] else [char]

def writeField (field : List Char) : List Char :=
  if field.any isSpecial then '"' :: doubled field ++ ['"'] else field

/-- A row of one empty field is quoted, not to look like a blank line. -/
def writeRow (row : List (List Char)) : List Char :=
  (if row = [[]] then ['"', '"'] else [','].intercalate (row.map writeField))
    ++ ['\r', '\n']

def write (rows : List (List (List Char))) : List Char :=
  rows.flatMap writeRow

/-! ## Reading -/

/-- Where a reader stands. -/
inductive Phase where
  /-- between two rows -/
  | between
  /-- at the start of a field, behind a comma -/
  | opening
  | plain
  | quoted
  /-- behind a quote inside quotes: the last one, or one of two -/
  | closing
  deriving DecidableEq, Repr

structure Reader where
  rows : List (List (List Char))
  row : List (List Char)
  field : List Char
  phase : Phase
  deriving DecidableEq, Repr

namespace Reader

def start : Reader := ⟨[], [], [], .between⟩

variable (reader : Reader)

def push (char : Char) (phase : Phase) : Reader :=
  { reader with field := reader.field ++ [char], phase := phase }

def endField : Reader :=
  { reader with
    row := reader.row ++ [reader.field], field := [], phase := .opening }

def endRow : Reader :=
  ⟨reader.rows ++ [reader.row ++ [reader.field]], [], [], .between⟩

/-- A character outside quotes. -/
def stepOutside (char : Char) : Reader :=
  if char = ',' then reader.endField
  else if char = '\n' ∨ char = '\r' then
    -- the second half of a CRLF ends no row
    if reader.phase = .between then reader else reader.endRow
  else reader.push char .plain

def step (char : Char) : Reader :=
  match reader.phase with
  | .quoted =>
      if char = '"' then { reader with phase := .closing }
      else reader.push char .quoted
  | .closing =>
      if char = '"' then reader.push char .quoted else reader.stepOutside char
  | .between | .opening =>
      if char = '"' then { reader with phase := .quoted }
      else reader.stepOutside char
  | .plain => reader.stepOutside char

def run (text : List Char) : Reader := text.foldl step reader

/-- The rows, with the last one if no line break ended it. -/
def finish : List (List (List Char)) :=
  if reader.phase = .between then reader.rows else reader.endRow.rows

end Reader

def read (text : List Char) : List (List (List Char)) :=
  (Reader.start.run text).finish

/-! ## Round trip -/

variable {rows : List (List (List Char))} {row : List (List Char)}
variable {field text back : List Char} {char : Char} {phase : Phase}

namespace Reader

variable {reader : Reader}

theorem run_append (reader : Reader) (text back : List Char) :
    reader.run (text ++ back) = (reader.run text).run back :=
  List.foldl_append

theorem run_cons (reader : Reader) (char : Char) (text : List Char) :
    reader.run (char :: text) = (reader.step char).run text := rfl

theorem run_nil (reader : Reader) : reader.run [] = reader := rfl

/-- Inside quotes the reader takes in a field as it is. -/
theorem run_doubled (front : List Char) :
    (Reader.mk rows row front .quoted).run (doubled field) =
      ⟨rows, row, front ++ field, .quoted⟩ := by
  induction field generalizing front with
  | nil => simp [doubled, run_nil]
  | cons char field inductionHypothesis =>
      have rest : doubled (char :: field) =
          (if char == '"' then ['"', '"'] else [char]) ++ doubled field := rfl
      rw [rest, run_append]
      by_cases isQuote : char = '"'
      · have taken : (Reader.mk rows row front .quoted).run ['"', '"'] =
            ⟨rows, row, front ++ ['"'], .quoted⟩ := by
          simp [run, step, push]
        simp only [isQuote, beq_self_eq_true, if_true, taken,
          inductionHypothesis, List.append_assoc, List.singleton_append]
      · have taken : (Reader.mk rows row front .quoted).run [char] =
            ⟨rows, row, front ++ [char], .quoted⟩ := by
          simp [run, step, push, isQuote]
        simp only [beq_iff_eq, isQuote, if_false, taken, inductionHypothesis,
          List.append_assoc, List.singleton_append]

theorem isSpecial_eq_false (ordinary : isSpecial char = false) :
    char ≠ ',' ∧ char ≠ '"' ∧ ¬(char = '\n' ∨ char = '\r') := by
  simpa [isSpecial, and_assoc] using ordinary

/-- Outside quotes it takes in characters that are not special. -/
theorem run_plain (front : List Char) (ordinary : field.any isSpecial = false) :
    (Reader.mk rows row front .plain).run field =
      ⟨rows, row, front ++ field, .plain⟩ := by
  induction field generalizing front with
  | nil => simp [run_nil]
  | cons char field inductionHypothesis =>
      rw [List.any_cons, Bool.or_eq_false_iff] at ordinary
      obtain ⟨notComma, _, notBreak⟩ := isSpecial_eq_false ordinary.1
      have taken : (Reader.mk rows row front .plain).step char =
          ⟨rows, row, front ++ [char], .plain⟩ := by
        simp only [step, stepOutside, notComma, notBreak, if_false, push]
      rw [run_cons, taken, inductionHypothesis _ ordinary.2, List.append_assoc,
        List.singleton_append]

/-- Where the reader stands behind a field that it began to read in a phase. -/
def behind (phase : Phase) (field : List Char) : Phase :=
  if field.any isSpecial then .closing
  else if field = [] then phase else .plain

theorem run_writeField (opens : phase = .between ∨ phase = .opening) :
    (Reader.mk rows row [] phase).run (writeField field) =
      ⟨rows, row, field, behind phase field⟩ := by
  by_cases special : field.any isSpecial = true
  · have opened : (Reader.mk rows row [] phase).step '"' =
        ⟨rows, row, [], .quoted⟩ := by
      cases opens with
      | inl between => simp [step, between]
      | inr opening => simp [step, opening]
    have closed : (Reader.mk rows row field .quoted).run ['"'] =
        ⟨rows, row, field, .closing⟩ := by
      simp [run, step]
    rw [writeField, if_pos special, List.cons_append, run_cons, opened,
      run_append, run_doubled, List.nil_append, closed, behind, if_pos special]
  · have ordinary : field.any isSpecial = false := by simpa using special
    rw [writeField, if_neg special, behind, if_neg special]
    cases field with
    | nil => simp [run_nil]
    | cons char field =>
        rw [List.any_cons, Bool.or_eq_false_iff] at ordinary
        obtain ⟨notComma, notQuote, notBreak⟩ := isSpecial_eq_false ordinary.1
        have taken : (Reader.mk rows row [] phase).step char =
            ⟨rows, row, [char], .plain⟩ := by
          cases opens with
          | inl between =>
              simp [step, stepOutside, push, between, notComma, notQuote,
                notBreak]
          | inr opening =>
              simp [step, stepOutside, push, opening, notComma, notQuote,
                notBreak]
        rw [run_cons, taken, run_plain _ ordinary.2, List.singleton_append,
          if_neg (List.cons_ne_nil char field)]

theorem behind_ne_quoted (opens : phase = .between ∨ phase = .opening) :
    behind phase field ≠ .quoted := by
  unfold behind
  split
  · decide
  · split
    · cases opens with
      | inl between => simp [between]
      | inr opening => simp [opening]
    · decide

/-- A comma ends the field. -/
theorem step_comma (outside : reader.phase ≠ .quoted) :
    reader.step ',' = reader.endField := by
  obtain ⟨rows, row, field, phase⟩ := reader
  cases phase with
  | quoted => exact absurd rfl outside
  | between | opening | plain | closing => simp [step, stepOutside]

/-- A line break ends the row, if one was begun. -/
theorem step_break (outside : reader.phase ≠ .quoted)
    (begun : reader.phase ≠ .between) :
    (reader.step '\r').step '\n' = reader.endRow := by
  have ended : reader.step '\r' = reader.endRow := by
    obtain ⟨rows, row, field, phase⟩ := reader
    cases phase with
    | quoted => exact absurd rfl outside
    | between => exact absurd rfl begun
    | opening | plain | closing => simp [step, stepOutside]
  rw [ended]
  simp [step, stepOutside, endRow]

/-- The reader gets back the fields of a row, whatever row it began. -/
theorem run_fields (field : List Char) (fields : List (List Char))
    (opens : phase = .between ∨ phase = .opening)
    (begun : behind phase field ≠ .between ∨ fields ≠ []) :
    (Reader.mk rows row [] phase).run
        ([','].intercalate ((field :: fields).map writeField) ++
          ['\r', '\n']) =
      ⟨rows ++ [row ++ field :: fields], [], [], .between⟩ := by
  induction fields generalizing field row phase with
  | nil =>
      have starts : behind phase field ≠ .between := by simpa using begun
      rw [List.map_singleton, List.intercalate_singleton, run_append,
        run_writeField opens]
      exact step_break (behind_ne_quoted opens) starts
  | cons next fields inductionHypothesis =>
      have starts : behind .opening next ≠ .between := by
        unfold behind
        split
        · decide
        · split <;> decide
      rw [List.map_cons, List.map_cons, List.intercalate_cons_cons,
        List.append_assoc, List.append_assoc, run_append,
        run_writeField opens, List.singleton_append, run_cons,
        step_comma (behind_ne_quoted opens), ← List.map_cons]
      simp only [endField]
      rw [inductionHypothesis next (Or.inr rfl) (Or.inl starts),
        List.append_assoc, List.singleton_append]

theorem run_writeRow (nonempty : row ≠ []) :
    (Reader.mk rows [] [] .between).run (writeRow row) =
      ⟨rows ++ [row], [], [], .between⟩ := by
  by_cases blank : row = [[]]
  · simp [blank, writeRow, run, step, stepOutside, endRow]
  · obtain ⟨field, fields, rfl⟩ := List.exists_cons_of_ne_nil nonempty
    rw [writeRow, if_neg blank]
    refine run_fields field fields (Or.inl rfl) ?_
    by_cases alone : fields = []
    · left
      have isField : field ≠ [] := by
        rintro rfl
        exact blank (by rw [alone])
      rw [behind, if_neg isField]
      split <;> decide
    · exact Or.inr alone

theorem run_write (nonempty : ∀ row ∈ rows, row ≠ [])
    (earlier : List (List (List Char))) :
    (Reader.mk earlier [] [] .between).run (write rows) =
      ⟨earlier ++ rows, [], [], .between⟩ := by
  induction rows generalizing earlier with
  | nil => simp [write, run_nil]
  | cons row rows inductionHypothesis =>
      obtain ⟨isRow, isRows⟩ := List.forall_mem_cons.mp nonempty
      have rest : write (row :: rows) = writeRow row ++ write rows := rfl
      rw [rest, run_append, run_writeRow isRow, inductionHypothesis isRows,
        List.append_assoc, List.singleton_append]

end Reader

/-- What was written is read back, whatever characters the fields hold. -/
theorem read_write (nonempty : ∀ row ∈ rows, row ≠ []) :
    read (write rows) = rows := by
  rw [read, Reader.start, Reader.run_write nonempty]
  rfl

end Csv
