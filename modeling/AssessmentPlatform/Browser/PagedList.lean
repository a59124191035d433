import Mathlib.Data.List.Basic

/-!
# A list read page by page

The pages of the browser that show a `Page` over a `Pager`.  The rows are the
server's and can change between two requests; the browser keeps an offset, the
last answer, and one request whose answer it still waits for.
-/

namespace PagedList

/-! ## The server -/

/-- `Page` -/
structure Page (Row : Type) where
  items : List Row
  total : Nat
  limit : Nat
  offset : Nat
  deriving DecidableEq, Repr

section Server

variable {Row : Type}

/-- `LIMIT limit OFFSET offset`, with the count of all rows. -/
def page (rows : List Row) (limit offset : Nat) : Page Row where
  items := (rows.drop offset).take limit
  total := rows.length
  limit := limit
  offset := offset

end Server

/-! ## The browser -/

/-- The request for the offset that the browser is at; one for another offset
is cancelled. -/
inductive Request (Row : Type) where
  /-- on its way -/
  | asked
  /-- read by the server, the answer on its way -/
  | answered (page : Page Row)
  /-- the answer is on the screen -/
  | shown
  | failed
  deriving DecidableEq, Repr

/-- The state of a page component. -/
structure Screen (Row : Type) where
  offset : Nat
  items : Option (List Row)
  total : Nat
  request : Request Row
  deriving DecidableEq, Repr

/-- A screen, the rows of the server, and every row that was ever shown. -/
structure Visit (Row : Type) where
  screen : Screen Row
  rows : List Row
  seen : List Row
  deriving DecidableEq, Repr

/-- What can happen during a visit, except on the server. -/
inductive Event where
  /-- the server reads the page that is asked for -/
  | reads
  | arrives
  | fails
  | next
  | prev
  deriving DecidableEq, Repr

section Browser

variable {Row : Type} (limit : Nat)

namespace Screen

variable (screen : Screen Row)

/-- A mounted component asks for the first page. -/
def mounted : Screen Row := ⟨0, none, 0, .asked⟩

/-- Whether `Pager` is rendered with buttons. -/
def paged : Bool :=
  screen.items.any (!List.isEmpty ·) && limit < screen.total

/-- The Next button is not disabled. -/
def canNext : Bool :=
  screen.paged limit && screen.offset + limit < screen.total

/-- The Prev button is not disabled. -/
def canPrev : Bool :=
  screen.paged limit && screen.offset != 0

/-- `setOffset`: the effect asks for the page there. -/
def goTo (offset : Nat) : Screen Row :=
  { screen with offset := offset, request := .asked }

end Screen

namespace Visit

variable (visit : Visit Row)

/-- A visit that begins where the server has these rows. -/
def opened (rows : List Row) : Visit Row := ⟨.mounted, rows, []⟩

/-- The server has other rows. -/
def moved (rows : List Row) : Visit Row := { visit with rows := rows }

def step (event : Event) : Visit Row :=
  match event, visit.screen.request with
  | .reads, .asked =>
      { visit with
        screen.request :=
          .answered (page visit.rows limit visit.screen.offset) }
  | .arrives, .answered page =>
      { visit with
        screen :=
          { visit.screen with
            items := some page.items
            total := page.total
            request := .shown }
        seen := visit.seen ++ page.items }
  | .fails, .asked | .fails, .answered _ =>
      { visit with screen.request := .failed }
  | .next, _ =>
      if visit.screen.canNext limit then
        { visit with screen := visit.screen.goTo (visit.screen.offset + limit) }
      else visit
  | .prev, _ =>
      if visit.screen.canPrev limit then
        { visit with screen := visit.screen.goTo (visit.screen.offset - limit) }
      else visit
  | _, _ => visit

/-- Next is pressed only on a page that is shown. -/
def Patient (event : Event) : Prop :=
  event = .next → visit.screen.request = .shown

/-- The end of the list: the page is shown and Next is disabled. -/
def AtEnd : Prop :=
  visit.screen.request = .shown ∧ visit.screen.canNext limit = false

/-- The browser changes no rows. -/
theorem rows_step (event : Event) :
    (visit.step limit event).rows = visit.rows := by
  unfold step
  split
  · rfl
  · rfl
  · rfl
  · rfl
  · split <;> rfl
  · split <;> rfl
  · rfl

end Visit

end Browser

/-! ## What has been passed -/

variable {Row Key : Type} {key : Row → Key} {limit : Nat}
variable {visit : Visit Row} {start : List Key} {later : List Row}

/-- Rows from a place of the list on. -/
def beyond (key : Row → Key) (rows : List Row) (offset : Nat) : List Key :=
  (rows.map key).drop offset

theorem beyond_of_le {rows : List Row} {offset place : Nat}
    (isEarlier : offset ≤ place) {wanted : Key}
    (isBeyond : wanted ∈ beyond key rows place) :
    wanted ∈ beyond key rows offset := by
  obtain ⟨rest, rfl⟩ := Nat.exists_eq_add_of_le isEarlier
  rw [beyond, ← List.drop_drop] at isBeyond
  exact List.mem_of_mem_drop isBeyond

/-- Rows that come in push others down the list, never up. -/
theorem beyond_of_grown {rows : List Row}
    (grown : (rows.map key).Sublist (later.map key)) {offset : Nat}
    {wanted : Key} (isBeyond : wanted ∈ beyond key rows offset) :
    wanted ∈ beyond key later offset :=
  (grown.drop offset).subset isBeyond

/-- A row beyond the offset of a page is on the page, or beyond its end. -/
theorem mem_page {rows : List Row} {offset : Nat} {wanted : Key}
    (isBeyond : wanted ∈ beyond key rows offset) :
    wanted ∈ (page rows limit offset).items.map key ∨
      wanted ∈ beyond key rows (offset + limit) := by
  rw [beyond, ← List.take_append_drop limit ((rows.map key).drop offset),
    List.mem_append, List.drop_drop] at isBeyond
  simpa only [page, beyond, List.map_take, List.map_drop] using isBeyond

theorem length_of_beyond {rows : List Row} {offset : Nat} {wanted : Key}
    (isBeyond : wanted ∈ beyond key rows offset) : offset < rows.length := by
  by_contra isPast
  rw [beyond, List.drop_eq_nil_of_le (by simpa using isPast)] at isBeyond
  cases isBeyond

/-- What a page in an answer, or on the screen, leaves to be read. -/
structure Leaves (key : Row → Key) (limit : Nat) (start : List Key)
    (visit : Visit Row) (items : List Row) (total : Nat) : Prop where
  rest : ∀ wanted ∈ start, wanted ∈ visit.seen.map key ∨
    wanted ∈ items.map key ∨
      (wanted ∈ beyond key visit.rows (visit.screen.offset + limit) ∧
        visit.screen.offset + limit < total)
  read : ∃ old : List Row, (old.map key).Sublist (visit.rows.map key) ∧
    items = (page old limit visit.screen.offset).items ∧ total = old.length
  within : visit.screen.offset ≠ 0 → visit.screen.offset < total

/-- Every row of the start has been seen, or is still ahead. -/
structure Covers (key : Row → Key) (limit : Nat) (start : List Key)
    (visit : Visit Row) : Prop where
  ahead : ∀ wanted ∈ start, wanted ∈ visit.seen.map key ∨
    wanted ∈ beyond key visit.rows visit.screen.offset
  within : visit.screen.offset ≠ 0 → visit.screen.offset < visit.rows.length
  known : ∀ row ∈ visit.seen, key row ∈ visit.rows.map key
  answered : ∀ page, visit.screen.request = .answered page →
    Leaves key limit start visit page.items page.total
  shown : visit.screen.request = .shown →
    ∃ items, visit.screen.items = some items ∧
      (∀ row ∈ items, row ∈ visit.seen) ∧
        Leaves key limit start visit items visit.screen.total

theorem Leaves.moved {items : List Row} {total : Nat}
    (leaves : Leaves key limit start visit items total)
    (grown : (visit.rows.map key).Sublist (later.map key)) :
    Leaves key limit start (visit.moved later) items total where
  rest wanted isStart := by
    rcases leaves.rest wanted isStart with isSeen | isItem | ⟨ahead, inside⟩
    · exact Or.inl isSeen
    · exact Or.inr (Or.inl isItem)
    · exact Or.inr (Or.inr ⟨beyond_of_grown grown ahead, inside⟩)
  read := by
    obtain ⟨old, isOld, rest⟩ := leaves.read
    exact ⟨old, isOld.trans grown, rest⟩
  within := leaves.within

/-- A page that begins inside the list is not empty. -/
theorem Leaves.isEmpty {items : List Row} {total : Nat}
    (leaves : Leaves key limit start visit items total)
    (positive : 0 < limit) (inside : visit.screen.offset < total) :
    items.isEmpty = false := by
  obtain ⟨old, _, isPage, isTotal⟩ := leaves.read
  rw [isPage, page, List.isEmpty_eq_false_iff, Ne, List.take_eq_nil_iff,
    List.drop_eq_nil_iff]
  omega

theorem covers_opened (rows : List Row) :
    Covers key limit (rows.map key) (.opened rows) where
  ahead wanted isStart := Or.inr isStart
  within isMoved := absurd rfl isMoved
  known row isSeen := by cases isSeen
  answered page isAnswered := by cases isAnswered
  shown isShown := by cases isShown

/-- Rows that come in leave nothing behind. -/
theorem Covers.moved (covers : Covers key limit start visit)
    (grown : (visit.rows.map key).Sublist (later.map key)) :
    Covers key limit start (visit.moved later) where
  ahead wanted isStart :=
    (covers.ahead wanted isStart).imp_right (beyond_of_grown grown)
  within isMoved := by
    have inside := covers.within isMoved
    have longer := grown.length_le
    simp only [List.length_map] at longer
    exact Nat.lt_of_lt_of_le inside longer
  known row isSeen := grown.subset (covers.known row isSeen)
  answered page isAnswered := (covers.answered page isAnswered).moved grown
  shown isShown := by
    obtain ⟨items, isItems, areSeen, leaves⟩ := covers.shown isShown
    exact ⟨items, isItems, areSeen, leaves.moved grown⟩

theorem Covers.reads (covers : Covers key limit start visit) :
    Covers key limit start { visit with
      screen.request :=
        .answered (page visit.rows limit visit.screen.offset) } where
  ahead := covers.ahead
  within := covers.within
  known := covers.known
  answered page isAnswered := by
    obtain rfl := Request.answered.inj isAnswered
    refine ⟨?_, ⟨visit.rows, List.Sublist.refl _, rfl, rfl⟩, covers.within⟩
    intro wanted isStart
    rcases covers.ahead wanted isStart with isSeen | isAhead
    · exact Or.inl isSeen
    · rcases mem_page isAhead with onPage | isBeyond
      · exact Or.inr (Or.inl onPage)
      · exact Or.inr (Or.inr ⟨isBeyond, length_of_beyond isBeyond⟩)
  shown isShown := by cases isShown

theorem Covers.arrives {page : Page Row}
    (covers : Covers key limit start visit)
    (isAnswered : visit.screen.request = .answered page) :
    Covers key limit start { visit with
      screen :=
        { visit.screen with
          items := some page.items
          total := page.total
          request := .shown }
      seen := visit.seen ++ page.items } where
  ahead wanted isStart := by
    rw [List.map_append, List.mem_append]
    exact (covers.ahead wanted isStart).imp_left Or.inl
  within := covers.within
  known row isSeen := by
    rcases List.mem_append.mp isSeen with wasSeen | isItem
    · exact covers.known row wasSeen
    · obtain ⟨old, isOld, isPage, _⟩ :=
        (covers.answered page isAnswered).read
      rw [isPage] at isItem
      exact isOld.subset (List.mem_map_of_mem
        (List.mem_of_mem_drop (List.mem_of_mem_take isItem)))
  answered page isAnswered := by cases isAnswered
  shown _ := by
    have leaves := covers.answered page isAnswered
    refine ⟨page.items, rfl, fun row isItem =>
      List.mem_append_right _ isItem, ?_, leaves.read, leaves.within⟩
    intro wanted isStart
    rw [List.map_append, List.mem_append]
    exact (leaves.rest wanted isStart).imp_left Or.inl

/-- What is on its way, and the old offset, are left behind by going to a place
that is no further than the rows that have been passed. -/
theorem Covers.goTo {offset : Nat} (covers : Covers key limit start visit)
    (ahead : ∀ wanted ∈ start, wanted ∈ visit.seen.map key ∨
      wanted ∈ beyond key visit.rows offset)
    (within : offset ≠ 0 → offset < visit.rows.length) :
    Covers key limit start
      { visit with screen := visit.screen.goTo offset } where
  ahead := ahead
  within := within
  known := covers.known
  answered page isAnswered := by cases isAnswered
  shown isShown := by cases isShown

theorem Covers.next (covers : Covers key limit start visit)
    (isShown : visit.screen.request = .shown)
    (enabled : visit.screen.canNext limit = true) :
    Covers key limit start { visit with
      screen := visit.screen.goTo (visit.screen.offset + limit) } := by
  obtain ⟨items, _, areSeen, leaves⟩ := covers.shown isShown
  apply covers.goTo
  · intro wanted isStart
    rcases leaves.rest wanted isStart with isSeen | isItem | ⟨isAhead, _⟩
    · exact Or.inl isSeen
    · obtain ⟨row, isRow, rfl⟩ := List.mem_map.mp isItem
      exact Or.inl (List.mem_map_of_mem (areSeen row isRow))
    · exact Or.inr isAhead
  · intro _
    obtain ⟨old, isOld, _, isTotal⟩ := leaves.read
    have longer := isOld.length_le
    simp only [List.length_map] at longer
    simp only [Screen.canNext, Bool.and_eq_true, decide_eq_true_eq] at enabled
    omega

theorem Covers.prev (covers : Covers key limit start visit) :
    Covers key limit start { visit with
      screen := visit.screen.goTo (visit.screen.offset - limit) } := by
  apply covers.goTo
  · intro wanted isStart
    exact (covers.ahead wanted isStart).imp_right
      (beyond_of_le (Nat.sub_le _ _))
  · intro isMoved
    have inside := covers.within (by omega)
    omega

theorem Covers.fails (covers : Covers key limit start visit) :
    Covers key limit start
      { visit with screen.request := .failed } where
  ahead := covers.ahead
  within := covers.within
  known := covers.known
  answered page isAnswered := by cases isAnswered
  shown isShown := by cases isShown

/-- What the browser does leaves no row behind, if nobody presses Next on a
page that is not there yet. -/
theorem Covers.step (covers : Covers key limit start visit) {event : Event}
    (patient : visit.Patient event) :
    Covers key limit start (visit.step limit event) := by
  cases event with
  | reads =>
      cases isRequest : visit.screen.request with
      | asked => simpa only [Visit.step, isRequest] using covers.reads
      | answered | shown | failed =>
          simpa only [Visit.step, isRequest] using covers
  | arrives =>
      cases isRequest : visit.screen.request with
      | answered page =>
          simpa only [Visit.step, isRequest] using covers.arrives isRequest
      | asked | shown | failed =>
          simpa only [Visit.step, isRequest] using covers
  | fails =>
      cases isRequest : visit.screen.request with
      | asked | answered =>
          simpa only [Visit.step, isRequest] using covers.fails
      | shown | failed => simpa only [Visit.step, isRequest] using covers
  | next =>
      by_cases enabled : visit.screen.canNext limit = true
      · simpa only [Visit.step, enabled, if_true] using
          covers.next (patient rfl) enabled
      · simpa only [Visit.step, if_neg enabled] using covers
  | prev =>
      by_cases enabled : visit.screen.canPrev limit = true
      · simpa only [Visit.step, enabled, if_true] using covers.prev
      · simpa only [Visit.step, if_neg enabled] using covers

/-- Who has come to the end has seen every row of the start. -/
theorem Covers.atEnd (covers : Covers key limit start visit)
    (positive : 0 < limit) (isEnd : visit.AtEnd limit) :
    ∀ wanted ∈ start, wanted ∈ visit.seen.map key := by
  obtain ⟨isShown, disabled⟩ := isEnd
  obtain ⟨items, isItems, areSeen, leaves⟩ := covers.shown isShown
  intro wanted isStart
  rcases leaves.rest wanted isStart with isSeen | isItem | ⟨_, inside⟩
  · exact isSeen
  · obtain ⟨row, isRow, rfl⟩ := List.mem_map.mp isItem
    exact List.mem_map_of_mem (areSeen row isRow)
  · have notEmpty : items.isEmpty = false :=
      leaves.isEmpty positive (by omega)
    have enabled : visit.screen.canNext limit = true := by
      simp only [Screen.canNext, Screen.paged, isItems, Option.any_some,
        notEmpty, Bool.not_false, Bool.true_and, Bool.and_eq_true,
        decide_eq_true_eq]
      omega
    rw [disabled] at enabled
    cases enabled

/-- Only the first page that is shown can be empty. -/
theorem Covers.nonempty (covers : Covers key limit start visit)
    (positive : 0 < limit) (isShown : visit.screen.request = .shown)
    (isMoved : visit.screen.offset ≠ 0) :
    ∃ items, visit.screen.items = some items ∧ items.isEmpty = false := by
  obtain ⟨items, isItems, _, leaves⟩ := covers.shown isShown
  exact ⟨items, isItems, leaves.isEmpty positive (leaves.within isMoved)⟩

end PagedList
