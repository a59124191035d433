import AssessmentPlatform.Models
import AssessmentPlatform.Interleaving.RowTable
import AssessmentPlatform.Interleaving.RelyGuarantee
import Mathlib.Data.Fintype.EquivFin

/-!
# Concurrent autosaves of one question

`candidate_save_draft` after its gate, as a program over the table of drafts.
It looks the draft up and inserts or updates it without a lock in between, so
two saves can both find nothing, and an UPDATE, which writes only the columns
that differ from what the save has read, can meet a row that has changed since.
-/

namespace AssessmentPlatform.Autosave

open Interleaving RowTable

/-! ## The route -/

/-- The unique columns of a draft. -/
structure Place where
  inviteId : Nat
  candidateEmail : String
  questionId : String
  deriving DecidableEq, Repr

/-- What one request saves, with the wall clock that it reads. -/
structure Save where
  code : String
  language : String
  now : Time
  deriving DecidableEq, Repr

/-- Where a draft belongs. -/
def place (draft : CandidateDraft) : Place :=
  ⟨draft.inviteId, draft.candidateEmail, draft.questionId⟩

/-- The table `candidatedraft`. -/
abbrev Drafts : Type :=
  RowTable Nat Nat CandidateDraft

/-- The columns that an UPDATE writes. -/
structure Changes where
  code : Option String
  language : Option String
  updatedAt : Option Time
  deriving DecidableEq, Repr

/-- The row that an UPDATE leaves. -/
def Changes.apply (changes : Changes) (draft : CandidateDraft) :
    CandidateDraft :=
  { draft with
    code := changes.code.getD draft.code
    language := changes.language.getD draft.language
    updatedAt := changes.updatedAt.getD draft.updatedAt }

/-- The statements of a save. -/
inductive Op where
  | selectDraft (wanted : Place)
  | insertDraft (wanted : Place) (save : Save)
  | updateDraft (id : Nat) (changes : Changes)
  | commit
  | rollback
  deriving DecidableEq, Repr

/-- What each statement answers. -/
@[reducible]
def Resp : Op → Type
  | .selectDraft _ => Option CandidateDraft
  | .insertDraft .. | .updateDraft .. => Bool
  | .commit | .rollback => Unit

/-- The row that an INSERT writes. -/
def newDraft (wanted : Place) (save : Save) (id : Nat) : CandidateDraft where
  id := id
  inviteId := wanted.inviteId
  candidateEmail := wanted.candidateEmail
  questionId := wanted.questionId
  code := save.code
  language := save.language
  updatedAt := save.now

/-- Execute one statement of thread `tid`.  The sequence supplies the id of a
new row, and never one that it has supplied before. -/
def exec : (op : Op) → Nat → Nat → Drafts → Option (Resp op × Drafts)
  | .selectDraft wanted, _, _, table =>
      some
        ((table.select fun draft => place draft = wanted).head?.bind table.row,
          table)
  | .insertDraft wanted save, tid, id, table =>
      if id ∈ table.keys then none
      else
        table.tryInsert tid id (newDraft wanted save id) fun draft =>
          place draft = wanted
  | .updateDraft id changes, tid, _, table =>
      table.tryUpdate tid id (fun _ => true) changes.apply
  | .commit, tid, _, table => some ((), RowTable.commit table tid)
  | .rollback, tid, _, table => some ((), RowTable.rollback table tid)

/-- Programs over these statements. -/
abbrev Prog := Program Op Resp

/-- Issue one statement. -/
abbrev issue (op : Op) : Prog (Resp op) :=
  Program.statement op

/-- How a save ends: with 204, or with the 500 of an error that it does not
catch. -/
inductive Outcome where
  | saved
  | failed
  deriving DecidableEq, Repr

/-- The columns whose value differs from the one that was read. -/
def changed (draft : CandidateDraft) (save : Save) : Changes where
  code := if draft.code = save.code then none else some save.code
  language :=
    if draft.language = save.language then none else some save.language
  updatedAt := if draft.updatedAt = save.now then none else some save.now

/-- COMMIT after a flush that went through; otherwise the session is closed
with the error. -/
def finish : Bool → Prog Outcome
  | true => do
      issue .commit
      return .saved
  | false => do
      issue .rollback
      return .failed

/-- `candidate_save_draft` behind its gate. -/
def candidateSaveDraft (wanted : Place) (save : Save) : Prog Outcome := do
  match ← issue (.selectDraft wanted) with
  | none => finish (← issue (.insertDraft wanted save))
  | some draft =>
      if changed draft save = ⟨none, none, none⟩ then finish true
      else finish (← issue (.updateDraft draft.id (changed draft save)))

/-- Every thread that has something to save saves it at the same place. -/
def autosaving (wanted : Place) (saves : Nat → Option Save) :
    System Nat Op Resp Nat (Option Outcome) Drafts where
  exec := exec
  program := fun tid =>
    match saves tid with
    | none => pure none
    | some save => some <$> candidateSaveDraft wanted save

/-! ## What a statement writes -/

variable {wanted : Place} {saves : Nat → Option Save} {tid id : Nat}
variable {op : Op} {resp : Resp op} {before after table : Drafts}
variable {draft : CandidateDraft} {save : Save}

/-- The draft holds the code and the language of one save. -/
def Holds (save : Save) (draft : CandidateDraft) : Prop :=
  draft.code = save.code ∧ draft.language = save.language

instance : Decidable (Holds save draft) :=
  inferInstanceAs (Decidable (_ ∧ _))

/-- The steps in which no race goes wrong: an INSERT finds no committed draft,
and the columns that an UPDATE does not write hold what the save would write. -/
def unraced (wanted : Place) (saves : Nat → Option Save) :
    Nat → Op → Drafts → Prop
  | _, .insertDraft .., table =>
      (table.select fun draft => place draft = wanted) = []
  | tid, .updateDraft id changes, table =>
      ∀ draft ∈ table.row id, ∀ save ∈ saves tid,
        Holds save (changes.apply draft)
  | _, _, _ => True

instance decidableUnraced
    (wanted : Place) (saves : Nat → Option Save) (tid : Nat) (op : Op)
    (table : Drafts) :
    Decidable (unraced wanted saves tid op table) :=
  match op with
  | .insertDraft .. => inferInstanceAs (Decidable (_ = []))
  | .updateDraft .. => inferInstanceAs (Decidable (∀ draft ∈ _, _))
  | .selectDraft _ | .commit | .rollback => inferInstanceAs (Decidable True)

@[simp]
theorem place_apply (changes : Changes) :
    place (changes.apply draft) = place draft :=
  rfl

@[simp]
theorem id_apply (changes : Changes) : (changes.apply draft).id = draft.id :=
  rfl

@[simp]
theorem place_newDraft : place (newDraft wanted save id) = wanted :=
  rfl

theorem holds_newDraft : Holds save (newDraft wanted save id) :=
  ⟨rfl, rfl⟩

/-! ## The invariant -/

/-- A staged draft is at the place and holds what its thread saves. -/
def SaveWrite
    (wanted : Place) (saves : Nat → Option Save) (tid : Nat) (_ : Nat)
    (_ : Option CandidateDraft) (value : CandidateDraft) : Prop :=
  place value = wanted ∧ ∃ save, saves tid = some save ∧ Holds save value

/-- What holds of the table in a run without races. -/
structure DraftInv
    (wanted : Place) (saves : Nat → Option Save) (table : Drafts) : Prop where
  listed : table.Listed
  keyed : table.Keyed CandidateDraft.id
  unique : table.Unique fun draft => some (place draft)
  writes : table.Staged (SaveWrite wanted saves)

/-- The contract of every thread. -/
def draftContract (wanted : Place) (saves : Nat → Option Save) :
    Contract Nat Drafts where
  inv := DraftInv wanted saves
  guar := fun tid before after =>
    DraftInv wanted saves after ∧ RowTable.Moves tid before after
  guar_inv := fun _ guaranteed => guaranteed.1

/-- A draft of the place is committed under the id. -/
def At (wanted : Place) (id : Nat) (table : Drafts) : Prop :=
  ∃ draft, table.row id = some draft ∧ place draft = wanted

/-- The committed draft of the place comes from one of the requests. -/
def Written
    (wanted : Place) (saves : Nat → Option Save) (table : Drafts) : Prop :=
  ∃ id draft, table.row id = some draft ∧ place draft = wanted ∧
    ∃ tid save, saves tid = some save ∧ Holds save draft

/-- The thread is about to commit a draft. -/
def Holding (tid : Nat) (table : Drafts) : Prop :=
  ∃ id value, table.staged id = some (tid, value)

theorem at_stable : (draftContract wanted saves).Stable tid (At wanted id) := by
  intro before after other _ inv guaranteed found
  obtain ⟨draft, committed, isPlace⟩ := found
  rcases inv.writes.change guaranteed.2 id with same | ⟨value, -, is, write⟩
  · exact ⟨draft, same ▸ committed, isPlace⟩
  · exact ⟨value, is, write.1⟩

theorem written_stable :
    (draftContract wanted saves).Stable tid (Written wanted saves) := by
  intro before after other _ inv guaranteed found
  obtain ⟨id, draft, committed, isPlace, source⟩ := found
  rcases inv.writes.change guaranteed.2 id with same | ⟨value, -, is, write⟩
  · exact ⟨id, draft, same ▸ committed, isPlace, source⟩
  · exact ⟨id, value, is, write.1, other, write.2⟩

theorem holding_stable :
    (draftContract wanted saves).Stable tid (Holding tid) := by
  intro before after other different _ guaranteed holding
  obtain ⟨id, value, staged⟩ := holding
  exact ⟨id, value, (guaranteed.2.others (Ne.symm different)).mpr staged⟩

/-! ## One statement -/

/-- The writes that a statement may stage. -/
inductive DraftWrite (table : Drafts) : Op → Nat → CandidateDraft → Prop
  | insert {wanted : Place} {save : Save} {id : Nat}
      (insertable : table.Insertable id fun draft => place draft = wanted) :
      DraftWrite table (.insertDraft wanted save) id (newDraft wanted save id)
  | update {id : Nat} {changes : Changes} {draft : CandidateDraft}
      (found : table.row id = some draft) :
      DraftWrite table (.updateDraft id changes) id (changes.apply draft)

theorem exec_drafts
    {input : Nat} (listed : before.Listed)
    (executes : exec op tid input before = some (resp, after)) :
    Acts tid (DraftWrite before op) (op = .commit) (op = .rollback)
      before after := by
  cases op with
  | selectDraft place =>
      cases executes
      exact Acts.same
  | insertDraft place save =>
      simp only [exec] at executes
      split at executes
      · cases executes
      · rcases tryInsert_cases executes with
          ⟨-, rfl, insertable⟩ | ⟨-, rfl⟩
        · have free := (listed.free_of_insertable insertable).2
          exact Acts.stage input _ free (.insert insertable)
        · exact Acts.same
  | updateDraft id changes =>
      rcases tryUpdate_cases executes with
        ⟨-, free, draft, found, -, rfl⟩ | ⟨-, rfl, -⟩
      · exact Acts.stage id _ free (.update found)
      · exact Acts.same
  | commit =>
      cases executes
      exact Acts.commit rfl
  | rollback =>
      cases executes
      exact Acts.rollback rfl

/-- What a thread may issue: the INSERT of its own save, and an UPDATE of the
draft of the place that leaves its own save. -/
structure Saves
    (wanted : Place) (saves : Nat → Option Save) (tid : Nat) (op : Op)
    (table : Drafts) : Prop where
  inserts :
    ∀ target save, op = .insertDraft target save →
      target = wanted ∧ saves tid = some save
  updates :
    ∀ id changes draft, op = .updateDraft id changes →
      table.row id = some draft →
        place draft = wanted ∧
          ∃ save, saves tid = some save ∧ Holds save (changes.apply draft)

theorem DraftWrite.saveWrite
    {value : CandidateDraft} {row : Option CandidateDraft}
    (write : DraftWrite table op id value)
    (issues : Saves wanted saves tid op table) :
    SaveWrite wanted saves tid id row value := by
  cases write with
  | insert insertable =>
      obtain ⟨rfl, isSave⟩ := issues.inserts _ _ rfl
      exact ⟨place_newDraft, _, isSave, holds_newDraft⟩
  | update found =>
      obtain ⟨isPlace, save, isSave, holds⟩ := issues.updates _ _ _ rfl found
      exact ⟨isPlace, save, isSave, holds⟩

theorem DraftWrite.relabels
    {value : CandidateDraft} (write : DraftWrite table op id value)
    (listed : table.Listed) :
    table.Relabels (fun draft => some (place draft)) id value := by
  cases write with
  | insert insertable =>
      refine insertable.relabels listed fun draft shared here there => ?_
      have same : place draft = _ :=
        (Option.some.inj here).trans (Option.some.inj there).symm
      simpa using same
  | update found => exact Or.inl ⟨_, found, rfl⟩

/-- The guarantee of a statement. -/
theorem DraftInv.guar
    {input : Nat} (inv : DraftInv wanted saves before)
    (issues : Saves wanted saves tid op before)
    (executes :
      (autosaving wanted saves).exec op tid input before =
        some (resp, after)) :
    (draftContract wanted saves).guar tid before after := by
  have acts := exec_drafts inv.listed executes
  have isKeyed :
      ∀ id value, DraftWrite before op id value → value.id = id := by
    intro id value write
    cases write with
    | insert insertable => rfl
    | @update _ _ draft found =>
        have isId : draft.id = id := inv.keyed.row found
        exact isId
  refine ⟨⟨acts.listed inv.listed, ?_, ?_, ?_⟩, acts.moves⟩
  · exact inv.keyed.acts acts isKeyed
  · exact inv.unique.acts acts fun id value write => write.relabels inv.listed
  · exact inv.writes.acts acts fun id value write => write.saveWrite issues

/-! ## One save -/

/-- Triples over these statements. -/
abbrev DraftTriple
    (wanted : Place) (saves : Nat → Option Save) (tid : Nat) {α : Type}
    (pre : Drafts → Prop) (program : Prog α) (post : α → Drafts → Prop) :
    Prop :=
  Triple (autosaving wanted saves) (unraced wanted saves)
    (draftContract wanted saves) tid pre program post

/-- What a save has established when it ends. -/
def Ended
    (wanted : Place) (saves : Nat → Option Save) :
    Outcome → Drafts → Prop
  | .saved, table => Written wanted saves table
  | .failed, _ => False

theorem saves_commit : Saves wanted saves tid .commit table :=
  ⟨fun _ _ is => (nomatch is), fun _ _ _ is => (nomatch is)⟩

theorem saves_select {target : Place} :
    Saves wanted saves tid (.selectDraft target) table :=
  ⟨fun _ _ is => (nomatch is), fun _ _ _ is => (nomatch is)⟩

/-- COMMIT, where the draft is staged or already written. -/
theorem finish_true :
    DraftTriple wanted saves tid
      (fun table => Holding tid table ∨ Written wanted saves table)
      (finish true) (Ended wanted saves) := by
  refine Triple.statement (fun _ => Written wanted saves)
    (holding_stable.or written_stable) (fun _ _ _ => trivial) ?_ ?_
  · intro table input resp later inv holds _ executes
    have guaranteed := DraftInv.guar inv saves_commit executes
    refine ⟨guaranteed, ?_⟩
    rcases holds with ⟨id, value, staged⟩ | written
    · obtain ⟨isPlace, source⟩ := inv.writes id tid value staged
      cases executes
      exact ⟨id, value, row_commit_of_staged staged, isPlace, tid, source⟩
    · -- a COMMIT of this thread is as harmless as one of another thread
      obtain ⟨id, draft, committed, isPlace, source⟩ := written
      rcases inv.writes.change guaranteed.2 id with same | ⟨value, -, is, write⟩
      · exact ⟨id, draft, same ▸ committed, isPlace, source⟩
      · exact ⟨id, value, is, write.1, tid, write.2⟩
  · intro _
    exact Triple.ret written_stable fun _ _ written => written

/-- A flush that cannot fail here. -/
theorem finish_of_flushed {flushed : Bool} :
    DraftTriple wanted saves tid
      (fun table => flushed = true ∧ Holding tid table)
      (finish flushed) (Ended wanted saves) := by
  cases flushed with
  | true =>
      exact finish_true.strengthen fun _ _ holds => Or.inl holds.2
  | false =>
      exact
        Triple.of_fact (fun _ _ holds => holds.1) fun isFlushed =>
          nomatch isFlushed

/-- The INSERT of a save that has found no draft. -/
theorem insert_statement (isSave : saves tid = some save) :
    DraftTriple wanted saves tid (fun _ => True)
      (issue (.insertDraft wanted save) >>= finish) (Ended wanted saves) := by
  refine Triple.statement
    (fun inserted table => inserted = true ∧ Holding tid table)
    ((draftContract wanted saves).stable_const True) (fun _ _ _ => trivial) ?_
    fun inserted => finish_of_flushed
  intro table input inserted later inv _ allowed executes
  have issues : Saves wanted saves tid (.insertDraft wanted save) table := by
    refine ⟨fun _ _ is => ?_, fun _ _ _ is => (nomatch is)⟩
    cases is
    exact ⟨rfl, isSave⟩
  refine ⟨DraftInv.guar inv issues executes, ?_⟩
  simp only [autosaving, exec] at executes
  split at executes
  · cases executes
  · next fresh =>
      cases inserted with
      | true =>
          rcases tryInsert_cases executes with ⟨-, rfl, -⟩ | ⟨isFalse, -⟩
          · exact ⟨rfl, input, _, Function.update_self _ _ _⟩
          · cases isFalse
      | false =>
          obtain ⟨other, draft, found, isId | isPlace⟩ :=
            conflict_of_tryInsert executes
          · exact absurd (isId ▸ inv.listed.row found) fresh
          · have selected :
                other ∈ table.select fun draft => place draft = wanted :=
              mem_select_iff.mpr
                ⟨inv.listed.row found, draft, found, isPlace⟩
            rw [allowed] at selected
            cases selected

/-- The UPDATE of a save that has found the draft. -/
theorem update_statement
    {changes : Changes} (isSave : saves tid = some save) :
    DraftTriple wanted saves tid (At wanted id)
      (issue (.updateDraft id changes) >>= finish) (Ended wanted saves) := by
  refine Triple.statement
    (fun updated table => updated = true ∧ Holding tid table)
    at_stable (fun _ _ _ => trivial) ?_ fun updated => finish_of_flushed
  intro table input updated later inv found allowed executes
  obtain ⟨draft, committed, isPlace⟩ := found
  have issues : Saves wanted saves tid (.updateDraft id changes) table := by
    refine ⟨fun _ _ is => (nomatch is), fun _ _ row is isRow => ?_⟩
    cases is
    have same : draft = row := Option.some.inj (committed.symm.trans isRow)
    subst same
    exact ⟨isPlace, save, isSave, allowed draft committed save isSave⟩
  refine ⟨DraftInv.guar inv issues executes, ?_⟩
  rcases tryUpdate_cases executes with
    ⟨rfl, -, row, -, -, rfl⟩ | ⟨-, -, nobody⟩
  · exact ⟨rfl, id, _, Function.update_self _ _ _⟩
  · cases nobody draft committed

/-- What the SELECT shows. -/
def Shown
    (wanted : Place) (saves : Nat → Option Save) (save : Save) :
    Option CandidateDraft → Drafts → Prop
  | none, _ => True
  | some draft, table =>
      At wanted draft.id table ∧ (Holds save draft → Written wanted saves table)

theorem shown_of_select (isSave : saves tid = some save)
    (keyed : table.Keyed CandidateDraft.id) :
    Shown wanted saves save
      ((table.select fun draft => place draft = wanted).head?.bind table.row)
      table := by
  cases first : (table.select fun draft => place draft = wanted).head? with
  | none => trivial
  | some id =>
      have member := List.mem_of_head? first
      obtain ⟨-, draft, found, isWanted⟩ := mem_select_iff.mp member
      have isPlace : place draft = wanted := of_decide_eq_true isWanted
      have isId : draft.id = id := keyed.row found
      rw [Option.bind_some, found]
      subst isId
      exact
        ⟨⟨draft, found, isPlace⟩,
          fun holds => ⟨_, draft, found, isPlace, tid, save, isSave, holds⟩⟩

theorem holds_of_unchanged (same : changed draft save = ⟨none, none, none⟩) :
    Holds save draft := by
  have sameCode := congrArg Changes.code same
  have sameLanguage := congrArg Changes.language same
  simp only [changed, ite_eq_left_iff, reduceCtorEq, imp_false, not_not]
    at sameCode sameLanguage
  exact ⟨sameCode, sameLanguage⟩

/-- One save succeeds and leaves a draft that is a request's. -/
theorem candidateSaveDraft_triple (isSave : saves tid = some save) :
    DraftTriple wanted saves tid (fun _ => True)
      (candidateSaveDraft wanted save) (Ended wanted saves) := by
  refine Triple.statement (Shown wanted saves save)
    ((draftContract wanted saves).stable_const True) (fun _ _ _ => trivial)
    ?_ ?_
  · intro table input resp later inv _ _ executes
    have guaranteed := DraftInv.guar inv saves_select executes
    cases executes
    exact ⟨guaranteed, shown_of_select isSave inv.keyed⟩
  · intro found
    cases found with
    | none => exact insert_statement isSave
    | some draft =>
        dsimp only
        split
        · next same =>
            have holds := holds_of_unchanged same
            exact
              finish_true.strengthen fun _ _ shown => Or.inr (shown.2 holds)
        · exact
            (update_statement isSave).strengthen fun _ _ shown => shown.1

/-! ## No deadlock -/

/-- The program commits right after each write that goes through. -/
def CommitsWrites {α : Type} : Prog α → Prop
  | .ret _ => True
  | .perform op next =>
      (match op, next with
        | .insertDraft .., next | .updateDraft .., next =>
            ∃ rest, next true = .perform .commit rest
        | _, _ => True) ∧
        ∀ resp, CommitsWrites (next resp)

theorem commitsWrites_finish (flushed : Bool) :
    CommitsWrites (some <$> finish flushed) := by
  cases flushed with
  | true => exact ⟨trivial, fun _ => trivial⟩
  | false => exact ⟨trivial, fun _ => trivial⟩

theorem commitsWrites_candidateSaveDraft (wanted : Place) (save : Save) :
    CommitsWrites (some <$> candidateSaveDraft wanted save) := by
  refine ⟨trivial, fun found => ?_⟩
  cases found with
  | none => exact ⟨⟨_, rfl⟩, commitsWrites_finish⟩
  | some draft =>
      change
        CommitsWrites
          (some <$>
            if changed draft save = ⟨none, none, none⟩ then finish true
            else issue (.updateDraft draft.id (changed draft save)) >>= finish)
      split
      · exact commitsWrites_finish true
      · exact ⟨⟨_, rfl⟩, commitsWrites_finish⟩

/-- The configurations of one table of drafts. -/
abbrev DraftConfig : Type :=
  Config Nat Op Resp (Option Outcome) Drafts

/-- Who holds a lock is at its COMMIT. -/
structure Unlocking (config : DraftConfig) : Prop where
  listed : config.store.Listed
  code : ∀ tid, CommitsWrites (config.code tid)
  locks :
    ∀ {id owner value}, config.store.staged id = some (owner, value) →
      ∃ rest, config.code owner = .perform .commit rest

/-- What a thread has staged after a statement was staged before, or the thread
goes on to commit. -/
theorem staged_of_exec
    {input : Nat} {value : CandidateDraft}
    {next : Resp op → Prog (Option Outcome)}
    (commits : CommitsWrites (.perform op next))
    (executes : exec op tid input before = some (resp, after))
    (staged : after.staged id = some (tid, value)) :
    (op ≠ .commit ∧ before.staged id = some (tid, value)) ∨
      ∃ rest, next resp = .perform .commit rest := by
  cases op with
  | selectDraft target =>
      cases executes
      exact Or.inl ⟨nofun, staged⟩
  | insertDraft target save =>
      simp only [exec] at executes
      split at executes
      · cases executes
      · rcases tryInsert_cases executes with ⟨rfl, -, -⟩ | ⟨-, rfl⟩
        · exact Or.inr commits.1
        · exact Or.inl ⟨nofun, staged⟩
  | updateDraft target changes =>
      rcases tryUpdate_cases executes with ⟨rfl, -⟩ | ⟨-, rfl, -⟩
      · exact Or.inr commits.1
      · exact Or.inl ⟨nofun, staged⟩
  | commit =>
      cases executes
      exact absurd rfl (unlock_eq_some_iff.mp staged).2
  | rollback =>
      cases executes
      exact absurd rfl (unlock_eq_some_iff.mp staged).2

/-- A step keeps it so. -/
theorem Unlocking.step
    {config after : DraftConfig} (unlocking : Unlocking config)
    (step : (autosaving wanted saves).Step System.anyRun tid config after) :
    Unlocking after := by
  cases step with
  | @statement op next input resp store code _ executes =>
      have commits : CommitsWrites (.perform op next) :=
        code ▸ unlocking.code tid
      have acts := exec_drafts unlocking.listed executes
      refine ⟨acts.listed unlocking.listed, ?_, ?_⟩
      · intro other
        by_cases same : other = tid
        · subst same
          simpa using commits.2 resp
        · simpa [Function.update_of_ne same] using unlocking.code other
      · intro id owner value staged
        by_cases same : owner = tid
        · subst same
          dsimp only
          rw [Function.update_self]
          rcases staged_of_exec commits executes staged with
            ⟨notCommit, earlier⟩ | atCommit
          · obtain ⟨rest, isCommit⟩ := unlocking.locks earlier
            rw [code] at isCommit
            cases isCommit
            exact absurd rfl notCommit
          · exact atCommit
        · dsimp only
          rw [Function.update_of_ne same]
          exact unlocking.locks ((acts.moves.others same).mp staged)

theorem Unlocking.reaches
    {source target : DraftConfig} (unlocking : Unlocking source)
    (reached :
      (autosaving wanted saves).Reaches System.anyRun source target) :
    Unlocking target := by
  induction reached with
  | refl => exact unlocking
  | tail _ step inductionHypothesis =>
      obtain ⟨tid, step⟩ := step
      exact inductionHypothesis.step step

theorem unlocking_start
    (listed : table.Listed) (unlocked : ∀ id, table.staged id = none) :
    Unlocking ((autosaving wanted saves).start table) := by
  refine ⟨listed, fun tid => ?_, fun staged => ?_⟩
  · change CommitsWrites (match saves tid with | none => _ | some save => _)
    cases saves tid with
    | none => trivial
    | some save => exact commitsWrites_candidateSaveDraft wanted save
  · exact absurd ((unlocked _).symm.trans staged) nofun

/-- A statement that waits, waits for a staged draft. -/
theorem staged_of_waiting
    {input : Nat} (fresh : input ∉ table.keys)
    (waits : exec op tid input table = none) :
    ∃ id owner value, table.staged id = some (owner, value) := by
  cases op with
  | selectDraft target => cases waits
  | insertDraft target save =>
      simp only [exec, if_neg fresh, tryInsert] at waits
      split at waits
      · next clash =>
          obtain ⟨id, -, isStaged⟩ := List.any_eq_true.mp clash
          obtain ⟨⟨owner, value⟩, staged, -⟩ :=
            (Option.any_eq_true _ _).mp isStaged
          exact ⟨id, owner, value, staged⟩
      · split at waits <;> cases waits
  | updateDraft id changes =>
      simp only [exec, tryUpdate] at waits
      split at waits
      · cases waits
      · split at waits
        · split at waits
          · next locked =>
              obtain ⟨⟨owner, value⟩, staged⟩ :=
                Option.isSome_iff_exists.mp locked
              exact ⟨id, owner, value, staged⟩
          · cases waits
        · cases waits
  | commit => cases waits
  | rollback => cases waits

/-- As long as a thread has something to do, some thread can do it. -/
theorem Unlocking.progress
    {config : DraftConfig} (unlocking : Unlocking config)
    (unfinished : ¬config.Finished tid) :
    ∃ other after,
      (autosaving wanted saves).Step System.anyRun other config after := by
  cases code : config.code tid with
  | ret value => exact absurd ⟨value, code⟩ unfinished
  | perform op next =>
      obtain ⟨input, fresh⟩ :=
        Infinite.exists_notMem_finset config.store.keys.toFinset
      have isFresh : input ∉ config.store.keys := by
        simpa using fresh
      cases executes : exec op tid input config.store with
      | some answer =>
          exact ⟨tid, _, System.Step.statement code trivial executes⟩
      | none =>
          obtain ⟨id, owner, value, staged⟩ :=
            staged_of_waiting isFresh executes
          obtain ⟨rest, isCommit⟩ := unlocking.locks staged
          have commits :
              (autosaving wanted saves).exec .commit owner input
                  config.store =
                some ((), RowTable.commit config.store owner) :=
            rfl
          exact ⟨owner, _, System.Step.statement isCommit trivial commits⟩

/-! ## Runs -/

/-- A table of drafts between requests. -/
structure Ready (table : Drafts) : Prop where
  listed : table.Listed
  keyed : ∀ {id draft}, table.row id = some draft → draft.id = id
  unique :
    ∀ {first second draft other}, table.row first = some draft →
      table.row second = some other → place draft = place other →
        first = second
  unlocked : ∀ id, table.staged id = none

theorem Ready.inv (ready : Ready table) : DraftInv wanted saves table := by
  have unstaged :
      ∀ {id owner value}, table.staged id ≠ some (owner, value) := by
    intro id owner value staged
    exact absurd ((ready.unlocked id).symm.trans staged) nofun
  refine
    ⟨ready.listed, ⟨ready.keyed, fun staged => absurd staged unstaged⟩, ?_,
      fun _ _ _ staged => absurd staged unstaged⟩
  intro first second draft other shared here there isShared same
  rcases here with here | ⟨owner, staged⟩
  · rcases there with there | ⟨owner, staged⟩
    · have samePlace : place draft = place other :=
        Option.some.inj (isShared.trans same.symm)
      exact ready.unique here there samePlace
    · exact absurd staged unstaged
  · exact absurd staged unstaged

/-- The postcondition of a thread. -/
def EndedSave
    (wanted : Place) (saves : Nat → Option Save) (tid : Nat) :
    Option Outcome → Drafts → Prop
  | none, _ => saves tid = none
  | some outcome, table => Ended wanted saves outcome table

theorem program_triple :
    DraftTriple wanted saves tid (fun _ => True)
      ((autosaving wanted saves).program tid) (EndedSave wanted saves tid) := by
  cases isSave : saves tid with
  | none =>
      simp only [autosaving, isSave]
      exact
        Triple.ret ((draftContract wanted saves).stable_const True)
          fun _ _ _ => isSave
  | some save =>
      simp only [autosaving, isSave]
      refine (candidateSaveDraft_triple isSave).bind fun outcome => ?_
      refine Triple.ret ?_ fun _ _ ended => ended
      cases outcome with
      | saved => exact written_stable
      | failed => exact (draftContract wanted saves).stable_const False

/-- The committed draft of the place is one of the requests', whole, and there
is no other one. -/
def OneDraft
    (wanted : Place) (saves : Nat → Option Save) (table : Drafts) : Prop :=
  ∃ id draft, table.row id = some draft ∧ place draft = wanted ∧
    (∃ tid save, saves tid = some save ∧ Holds save draft) ∧
    ∀ other row, table.row other = some row → place row = wanted → other = id

theorem DraftInv.oneDraft
    (inv : DraftInv wanted saves table) (written : Written wanted saves table) :
    OneDraft wanted saves table := by
  obtain ⟨id, draft, committed, isPlace, source⟩ := written
  refine ⟨id, draft, committed, isPlace, source, ?_⟩
  intro other row found isOther
  exact
    inv.unique (Or.inl found) (Or.inl committed)
      (congrArg some isOther) (congrArg some isPlace)

/-- Concurrent autosaves of one question are exact in every run in which each
INSERT finds no committed draft and each UPDATE leaves what its save would
write: every save that has ended has succeeded, from then on exactly one draft
of the place is there, and it is one request's.  No run stops before all saves
have ended. -/
theorem autosave_exact
    {config : DraftConfig} (ready : Ready table)
    (reached :
      (autosaving wanted saves).Reaches (unraced wanted saves)
        ((autosaving wanted saves).start table) config) :
    (∀ tid, (saves tid).isSome → config.Finished tid →
      config.Returned tid (some .saved) ∧
        OneDraft wanted saves config.store) ∧
      (∀ tid, ¬config.Finished tid →
        ∃ other after,
          (autosaving wanted saves).Step System.anyRun other config after) := by
  have holdsStart :
      (draftContract wanted saves).Holds (autosaving wanted saves)
        (unraced wanted saves) (EndedSave wanted saves)
        ((autosaving wanted saves).start table) :=
    Contract.holds_start ready.inv (fun _ => trivial) fun _ => program_triple
  have holds := holdsStart.reaches reached
  have inv : DraftInv wanted saves config.store := holds.1
  constructor
  · intro tid isSave finished
    obtain ⟨value, returned⟩ := finished
    have ended := holds.post_of_returned returned
    cases value with
    | none =>
        have idle : saves tid = none := ended
        rw [idle] at isSave
        cases isSave
    | some outcome =>
        cases outcome with
        | saved => exact ⟨returned, inv.oneDraft ended⟩
        | failed => exact ended.elim
  · intro tid unfinished
    have anyReached := reached.mono fun _ _ _ _ => trivial
    have unlocking :=
      (unlocking_start ready.listed ready.unlocked).reaches anyReached
    exact unlocking.progress unfinished

/-! ## Two tabs -/

/-- The question that both tabs show. -/
def exampleQuestion : Place :=
  ⟨1, "ada@example.com", "two-sum"⟩

/-- Two tabs save for the first time. -/
def twoTabs : Nat → Option Save
  | 0 => some ⟨"def f(): pass", "python", 0⟩
  | 1 => some ⟨"def f(): return 1", "python", 1⟩
  | _ => none

/-- One tab changes the code of the saved draft, the other one its language. -/
def codeAndLanguage : Nat → Option Save
  | 0 => some ⟨"def f(): return 1", "python", 10⟩
  | 1 => some ⟨"def f(): pass", "javascript", 11⟩
  | _ => none

/-- The table with one saved draft. -/
def savedDraft : Drafts where
  keys := [1]
  row := fun id =>
    if id = 1 then
      some (newDraft exampleQuestion ⟨"def f(): pass", "python", 0⟩ 1)
    else none
  staged := fun _ => none

/-- It is a table that saves can leave. -/
theorem ready_savedDraft : Ready savedDraft := by
  have only :
      ∀ {id draft}, savedDraft.row id = some draft →
        id = 1 ∧ draft.id = id := by
    intro id draft found
    simp only [savedDraft, Option.ite_none_right_eq_some,
      Option.some.injEq] at found
    obtain ⟨rfl, rfl⟩ := found
    exact ⟨rfl, rfl⟩
  refine
    ⟨⟨fun found => ?_, nofun, List.nodup_singleton 1⟩,
      fun found => (only found).2, fun here there _ => ?_, fun _ => rfl⟩
  · exact List.mem_singleton.mpr (only found).1
  · exact (only here).1.trans (only there).1.symm

theorem ready_empty : Ready .empty :=
  ⟨Listed.empty, nofun, nofun, fun _ => rfl⟩

/-- One tab after the other: the second save updates the draft of the first. -/
theorem autosave_exact_one_by_one :
    ∃ config : DraftConfig,
      config.Returned 1 (some .saved) ∧
        OneDraft exampleQuestion twoTabs config.store := by
  have ran :
      ((autosaving exampleQuestion twoTabs).runSchedule
        (fun tid op table =>
          decide (unraced exampleQuestion twoTabs tid op table))
        ((autosaving exampleQuestion twoTabs).start .empty)
        [(0, 0), (0, 1), (0, 0), (1, 0), (1, 0), (1, 0)]).any
        fun config => config.returned 1 := by
    decide +kernel
  obtain ⟨config, reached, seen⟩ :=
    System.exists_of_runSchedule
      (fun _ _ _ permitted => of_decide_eq_true permitted) ran
  have exactness := autosave_exact ready_empty reached
  exact
    ⟨config, exactness.1 1 rfl (Config.finished_of_returned seen)⟩

/-- The codes and the languages of the drafts of a table. -/
def contents (table : Drafts) : List (Option (String × String)) :=
  table.keys.map fun id =>
    (table.row id).map fun draft => (draft.code, draft.language)

theorem finished_of_idle (isIdle : saves tid = none) :
    ((autosaving wanted saves).start table).Finished tid := by
  refine ⟨none, ?_⟩
  simp only [Config.Returned, System.start, autosaving, isIdle]
  rfl

/-- Two first saves race, and the second one fails; two later ones race, and
the draft has the code of the one and the language of the other. -/
theorem autosave_race_lost :
    (∃ config : DraftConfig,
      (autosaving exampleQuestion twoTabs).Reaches System.anyRun
          ((autosaving exampleQuestion twoTabs).start .empty) config ∧
        config.Quiescent ∧ config.Returned 1 (some .failed)) ∧
      ∃ config : DraftConfig,
        (autosaving exampleQuestion codeAndLanguage).Reaches System.anyRun
            ((autosaving exampleQuestion codeAndLanguage).start savedDraft)
            config ∧
          config.Quiescent ∧
          contents config.store =
            [some ("def f(): return 1", "javascript")] := by
  constructor
  · have ran :
        ((autosaving exampleQuestion twoTabs).runSchedule (fun _ _ _ => true)
          ((autosaving exampleQuestion twoTabs).start .empty)
          [(0, 0), (1, 0), (0, 1), (0, 0), (1, 2), (1, 0)]).any
          fun config =>
            config.result 1 = some (some .failed) &&
              (List.range 2).all config.returned := by
      decide +kernel
    obtain ⟨config, reached, seen⟩ :=
      System.exists_of_runSchedule (fun _ _ _ _ => trivial) ran
    simp only [Bool.and_eq_true, decide_eq_true_eq] at seen
    refine
      ⟨config, reached, ?_, Config.result_eq_some_iff.mp seen.1⟩
    refine System.Reaches.quiescent reached seen.2 fun tid large => ?_
    apply finished_of_idle
    unfold twoTabs
    split <;> first | omega | rfl
  · have ran :
        ((autosaving exampleQuestion codeAndLanguage).runSchedule
          (fun _ _ _ => true)
          ((autosaving exampleQuestion codeAndLanguage).start savedDraft)
          [(0, 0), (1, 0), (0, 0), (0, 0), (1, 0), (1, 0)]).any
          fun config =>
            contents config.store =
                [some ("def f(): return 1", "javascript")] &&
              (List.range 2).all config.returned := by
      decide +kernel
    obtain ⟨config, reached, seen⟩ :=
      System.exists_of_runSchedule (fun _ _ _ _ => trivial) ran
    simp only [Bool.and_eq_true, decide_eq_true_eq] at seen
    refine ⟨config, reached, ?_, seen.1⟩
    refine System.Reaches.quiescent reached seen.2 fun tid large => ?_
    apply finished_of_idle
    unfold codeAndLanguage
    split <;> first | omega | rfl

end AssessmentPlatform.Autosave
