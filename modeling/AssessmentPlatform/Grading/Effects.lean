import AssessmentPlatform.Grading.Requests
import AssessmentPlatform.Interleaving.RelyGuarantee

/-!
# What a statement does to each table

One lemma for each table says how a statement acts on it and which writes it
may stage there.  Every invariant of a run is derived from these, not from the
definition of `exec`.
-/

namespace AssessmentPlatform

open Interleaving RowTable

variable {platform : Platform} {tid other : Nat} {answer : AgentAnswer}
variable {op : Op} {before after : Store} {resp : Resp op}

/-! ## Writes -/

/-- The writes that a statement may stage on a submission. -/
inductive SubmissionWrite (store : Store) : Op → String → Submission → Prop
  | insert {row : Submission}
      (fresh : store.submissions.row row.id = none)
      (free :
        store.submissions.Insertable row.id (Store.sameSubmissionKey row)) :
      SubmissionWrite store (.insertSubmission row) row.id row
  | cas {id : String} {expectStatus : Status} {expectAttempts : Nat}
      {values : SubmissionChange} {row : Submission}
      (found : store.submissions.row id = some row)
      (status : row.status = expectStatus)
      (attempts : row.attempts = expectAttempts) :
      SubmissionWrite store
        (.casSubmission id expectStatus expectAttempts values) id
        (values.apply store.clock row)
  | save {loaded new row : Submission}
      (found : store.submissions.row loaded.id = some row) :
      SubmissionWrite store (.saveSubmission loaded new) loaded.id
        (loaded.flush new store.clock row)
  | erase {ids : List String} {tombstone : String} {row : Submission}
      {id : String} (found : store.submissions.row id = some row)
      (listed : row.id ∈ ids) :
      SubmissionWrite store (.eraseSubmissions ids tombstone) id
        (row.erase tombstone store.clock)

/-- The writes that a statement may stage on a result. -/
inductive ResultWrite (store : Store) : Op → String → AssessmentResult → Prop
  | insert {row : AssessmentResult}
      (fresh : store.results.row row.submissionId = none) :
      ResultWrite store (.insertResult row) row.submissionId row
  | save {loaded new row : AssessmentResult}
      (found : store.results.row loaded.submissionId = some row) :
      ResultWrite store (.saveResult loaded new) loaded.submissionId
        (loaded.flush new row)
  | erase {ids : List String} {row : AssessmentResult} {id : String}
      (found : store.results.row id = some row)
      (listed : row.submissionId ∈ ids) :
      ResultWrite store (.eraseResults ids) id row.erase

/-- The writes that a statement may stage on an attempt. -/
inductive AttemptWrite (platform : Platform) (store : Store) :
    Op → Nat → CandidateAttempt → Prop
  | insert {row : CandidateAttempt}
      (fresh : store.attempts.row row.id = none)
      (free : store.attempts.Insertable row.id (Store.sameAttemptKey row)) :
      AttemptWrite platform store (.insertAttempt row) row.id row
  | name {id : Nat} {name : String} {row : CandidateAttempt}
      (found : store.attempts.row id = some row) :
      AttemptWrite platform store (.saveAttemptName id name) id
        { row with candidateName := some name, updatedAt := store.clock }
  | stamp {id : Nat} {row : CandidateAttempt}
      (found : store.attempts.row id = some row)
      (unstamped : row.resultsNotifiedAt = none) :
      AttemptWrite platform store (.stampAttempt id) id
        { row with
          resultsNotifiedAt := some store.clock
          updatedAt := store.clock }
  | clear {inviteId : Nat} {email : String} {id : Nat}
      {row : CandidateAttempt}
      (found : store.attempts.row id = some row)
      (invite : row.inviteId = inviteId)
      (address : row.candidateEmail = email) :
      AttemptWrite platform store (.clearStamp inviteId email) id
        { row with resultsNotifiedAt := none, updatedAt := store.clock }
  | erase {scope : ErasureScope} {email tombstone : String} {id : Nat}
      {row : CandidateAttempt}
      (found : store.attempts.row id = some row)
      (covered : platform.coversInvite row.inviteId scope)
      (address : row.candidateEmail = email) :
      AttemptWrite platform store (.eraseAttempts scope email tombstone) id
        (row.erase tombstone store.clock)

/-- The writes that a statement may stage on a month's usage. -/
inductive UsageWrite (store : Store) : Op → Nat × Period → OrgUsage → Prop
  | insert {row : OrgUsage}
      (fresh : store.usage.row (row.orgId, row.period) = none) :
      UsageWrite store (.insertUsage row) (row.orgId, row.period) row
  | claim {orgId : Nat} {period : Period} {metric : Metric}
      {amount limit : Int} {row : OrgUsage}
      (found : store.usage.row (orgId, period) = some row)
      (fits : row.used metric + amount ≤ limit) :
      UsageWrite store (.claimUsage orgId period metric amount limit)
        (orgId, period) (row.setUsed (row.used metric + amount) metric)
  | bump {orgId : Nat} {period : Period} {delta : UsageDelta}
      {row : OrgUsage}
      (found : store.usage.row (orgId, period) = some row) :
      UsageWrite store (.bumpUsage orgId period delta) (orgId, period)
        (row.add delta)
  | save {orgId : Nat} {period : Period} {metric : Metric}
      {loaded new : Int} {row : OrgUsage}
      (found : store.usage.row (orgId, period) = some row) :
      UsageWrite store (.saveUsage orgId period metric loaded new)
        (orgId, period) (row.setUsed new metric)

namespace Op

/-- The statements that write submissions. -/
def writesSubmission : Op → Prop
  | .insertSubmission _ | .casSubmission .. | .saveSubmission ..
  | .eraseSubmissions .. => True
  | _ => False

/-- The statements that write results. -/
def writesResult : Op → Prop
  | .insertResult _ | .saveResult .. | .eraseResults _ => True
  | _ => False

/-- The statements that write attempts. -/
def writesAttempt : Op → Prop
  | .insertAttempt _ | .saveAttemptName .. | .stampAttempt _ | .clearStamp ..
  | .eraseAttempts .. => True
  | _ => False

/-- The statements that write usage. -/
def writesUsage : Op → Prop
  | .insertUsage _ | .claimUsage .. | .bumpUsage .. | .saveUsage .. => True
  | _ => False

end Op

theorem SubmissionWrite.writes
    {store : Store} {id : String} {value : Submission}
    (write : SubmissionWrite store op id value) :
    op.writesSubmission := by
  cases write <;> trivial

theorem ResultWrite.writes
    {store : Store} {id : String} {value : AssessmentResult}
    (write : ResultWrite store op id value) :
    op.writesResult := by
  cases write <;> trivial

theorem AttemptWrite.writes
    {store : Store} {id : Nat} {value : CandidateAttempt}
    (write : AttemptWrite platform store op id value) :
    op.writesAttempt := by
  cases write <;> trivial

theorem UsageWrite.writes
    {store : Store} {key : Nat × Period} {value : OrgUsage}
    (write : UsageWrite store op key value) :
    op.writesUsage := by
  cases write <;> trivial

theorem ResultWrite.key_of_insert
    {store : Store} {row value : AssessmentResult} {id : String}
    (write : ResultWrite store (.insertResult row) id value) :
    id = row.submissionId := by
  cases write
  rfl

theorem ResultWrite.key_of_save
    {store : Store} {loaded new value : AssessmentResult} {id : String}
    (write : ResultWrite store (.saveResult loaded new) id value) :
    id = loaded.submissionId := by
  cases write
  rfl

/-! ## Effects -/

attribute [local simp] exec

theorem exec_submissions
    (listed : before.submissions.Listed)
    (executes : exec platform op tid answer before = some (resp, after)) :
    Acts tid (SubmissionWrite before op) (op = .commit) (op = .rollback)
      before.submissions after.submissions := by
  cases op with
  | insertSubmission row =>
      simp only [exec, Option.map_eq_some_iff] at executes
      obtain ⟨⟨inserted, table⟩, tried, equal⟩ := executes
      cases equal
      rcases tryInsert_cases tried with ⟨-, rfl, insertable⟩ | ⟨-, rfl⟩
      · obtain ⟨fresh, free⟩ := listed.free_of_insertable insertable
        exact Acts.stage row.id row free (.insert fresh insertable)
      · exact Acts.same
  | casSubmission id expectStatus expectAttempts values =>
      simp only [exec, Option.map_eq_some_iff] at executes
      obtain ⟨⟨won, table⟩, tried, equal⟩ := executes
      cases equal
      rcases tryUpdate_cases tried with
        ⟨-, free, row, found, isMatch, rfl⟩ | ⟨-, rfl, -⟩
      · simp only [Bool.and_eq_true, beq_iff_eq] at isMatch
        exact
          Acts.stage id (values.apply before.clock row) free
            (.cas found isMatch.1 isMatch.2)
      · exact Acts.same
  | saveSubmission loaded new =>
      simp only [exec] at executes
      split at executes
      · cases executes
        exact Acts.same
      · simp only [Option.map_eq_some_iff] at executes
        obtain ⟨⟨won, table⟩, tried, equal⟩ := executes
        cases equal
        rcases tryUpdate_cases tried with
          ⟨-, free, row, found, -, rfl⟩ | ⟨-, rfl, -⟩
        · exact Acts.stage loaded.id _ free (.save found)
        · exact Acts.same
  | eraseSubmissions ids tombstone =>
      simp only [exec, Option.map_eq_some_iff] at executes
      obtain ⟨table, tried, equal⟩ := executes
      cases equal
      refine Acts.stageAll tried ?_
      intro id row found isMatch
      exact .erase found (by simpa using isMatch)
  | commit =>
      cases executes
      exact Acts.commit rfl
  | rollback =>
      cases executes
      exact Acts.rollback rfl
  | _ =>
      simp only [exec] at executes
      all_goals (repeat' split at executes)
      all_goals
        first
        | (cases executes; exact Acts.same)
        | (simp only [Option.map_eq_some_iff] at executes
           obtain ⟨_, -, equal⟩ := executes
           cases equal
           exact Acts.same)

theorem exec_results
    (listed : before.results.Listed)
    (executes : exec platform op tid answer before = some (resp, after)) :
    Acts tid (ResultWrite before op) (op = .commit) (op = .rollback)
      before.results after.results := by
  cases op with
  | insertResult row =>
      simp only [exec, Option.map_eq_some_iff] at executes
      obtain ⟨⟨inserted, table⟩, tried, equal⟩ := executes
      cases equal
      rcases tryInsert_cases tried with ⟨-, rfl, insertable⟩ | ⟨-, rfl⟩
      · obtain ⟨fresh, free⟩ := listed.free_of_insertable insertable
        exact Acts.stage row.submissionId row free (.insert fresh)
      · exact Acts.same
  | saveResult loaded new =>
      simp only [exec] at executes
      split at executes
      · cases executes
        exact Acts.same
      · simp only [Option.map_eq_some_iff] at executes
        obtain ⟨⟨won, table⟩, tried, equal⟩ := executes
        cases equal
        rcases tryUpdate_cases tried with
          ⟨-, free, row, found, -, rfl⟩ | ⟨-, rfl, -⟩
        · exact Acts.stage loaded.submissionId _ free (.save found)
        · exact Acts.same
  | eraseResults ids =>
      simp only [exec, Option.map_eq_some_iff] at executes
      obtain ⟨table, tried, equal⟩ := executes
      cases equal
      refine Acts.stageAll tried ?_
      intro id row found isMatch
      exact .erase found (by simpa using isMatch)
  | commit =>
      cases executes
      exact Acts.commit rfl
  | rollback =>
      cases executes
      exact Acts.rollback rfl
  | _ =>
      simp only [exec] at executes
      all_goals (repeat' split at executes)
      all_goals
        first
        | (cases executes; exact Acts.same)
        | (simp only [Option.map_eq_some_iff] at executes
           obtain ⟨_, -, equal⟩ := executes
           cases equal
           exact Acts.same)

theorem exec_attempts
    (listed : before.attempts.Listed)
    (executes : exec platform op tid answer before = some (resp, after)) :
    Acts tid (AttemptWrite platform before op) (op = .commit)
      (op = .rollback)       before.attempts after.attempts := by
  cases op with
  | insertAttempt row =>
      simp only [exec, Option.map_eq_some_iff] at executes
      obtain ⟨⟨inserted, table⟩, tried, equal⟩ := executes
      cases equal
      rcases tryInsert_cases tried with ⟨-, rfl, insertable⟩ | ⟨-, rfl⟩
      · obtain ⟨fresh, free⟩ := listed.free_of_insertable insertable
        exact Acts.stage row.id row free (.insert fresh insertable)
      · exact Acts.same
  | saveAttemptName id name =>
      simp only [exec, Option.map_eq_some_iff] at executes
      obtain ⟨⟨won, table⟩, tried, equal⟩ := executes
      cases equal
      rcases tryUpdate_cases tried with
        ⟨-, free, row, found, -, rfl⟩ | ⟨-, rfl, -⟩
      · exact Acts.stage id _ free (.name found)
      · exact Acts.same
  | stampAttempt id =>
      simp only [exec, Option.map_eq_some_iff] at executes
      obtain ⟨⟨won, table⟩, tried, equal⟩ := executes
      cases equal
      rcases tryUpdate_cases tried with
        ⟨-, free, row, found, unstamped, rfl⟩ | ⟨-, rfl, -⟩
      · exact Acts.stage id _ free (.stamp found (by simpa using unstamped))
      · exact Acts.same
  | clearStamp inviteId email =>
      simp only [exec, Option.map_eq_some_iff] at executes
      obtain ⟨table, tried, equal⟩ := executes
      cases equal
      refine Acts.stageAll tried ?_
      intro id row found isMatch
      simp only [Bool.and_eq_true, beq_iff_eq] at isMatch
      exact .clear found isMatch.1 isMatch.2
  | eraseAttempts scope email tombstone =>
      simp only [exec, Option.map_eq_some_iff] at executes
      obtain ⟨table, tried, equal⟩ := executes
      cases equal
      refine Acts.stageAll tried ?_
      intro id row found isMatch
      simp only [Bool.and_eq_true, beq_iff_eq] at isMatch
      exact .erase found isMatch.1 isMatch.2
  | commit =>
      cases executes
      exact Acts.commit rfl
  | rollback =>
      cases executes
      exact Acts.rollback rfl
  | _ =>
      simp only [exec] at executes
      all_goals (repeat' split at executes)
      all_goals
        first
        | (cases executes; exact Acts.same)
        | (simp only [Option.map_eq_some_iff] at executes
           obtain ⟨_, -, equal⟩ := executes
           cases equal
           exact Acts.same)

theorem exec_usage
    (listed : before.usage.Listed)
    (executes : exec platform op tid answer before = some (resp, after)) :
    Acts tid (UsageWrite before op) (op = .commit) (op = .rollback)
      before.usage after.usage := by
  cases op with
  | insertUsage row =>
      simp only [exec, Option.map_eq_some_iff] at executes
      obtain ⟨⟨inserted, table⟩, tried, equal⟩ := executes
      cases equal
      rcases tryInsert_cases tried with ⟨-, rfl, insertable⟩ | ⟨-, rfl⟩
      · obtain ⟨fresh, free⟩ := listed.free_of_insertable insertable
        exact Acts.stage _ row free (.insert fresh)
      · exact Acts.same
  | claimUsage orgId period metric amount limit =>
      simp only [exec, Option.map_eq_some_iff] at executes
      obtain ⟨⟨won, table⟩, tried, equal⟩ := executes
      cases equal
      rcases tryUpdate_cases tried with
        ⟨-, free, row, found, fits, rfl⟩ | ⟨-, rfl, -⟩
      · exact Acts.stage _ _ free (.claim found (by simpa using fits))
      · exact Acts.same
  | bumpUsage orgId period delta =>
      simp only [exec, Option.map_eq_some_iff] at executes
      obtain ⟨⟨won, table⟩, tried, equal⟩ := executes
      cases equal
      rcases tryUpdate_cases tried with
        ⟨-, free, row, found, -, rfl⟩ | ⟨-, rfl, -⟩
      · exact Acts.stage _ _ free (.bump found)
      · exact Acts.same
  | saveUsage orgId period metric loaded new =>
      simp only [exec] at executes
      split at executes
      · cases executes
        exact Acts.same
      · simp only [Option.map_eq_some_iff] at executes
        obtain ⟨⟨won, table⟩, tried, equal⟩ := executes
        cases equal
        rcases tryUpdate_cases tried with
          ⟨-, free, row, found, -, rfl⟩ | ⟨-, rfl, -⟩
        · exact Acts.stage _ _ free (.save found)
        · exact Acts.same
  | commit =>
      cases executes
      exact Acts.commit rfl
  | rollback =>
      cases executes
      exact Acts.rollback rfl
  | _ =>
      simp only [exec] at executes
      all_goals (repeat' split at executes)
      all_goals
        first
        | (cases executes; exact Acts.same)
        | (simp only [Option.map_eq_some_iff] at executes
           obtain ⟨_, -, equal⟩ := executes
           cases equal
           exact Acts.same)

/-- A statement touches no session but its own. -/
theorem exec_session
    (executes : exec platform op tid answer before = some (resp, after))
    (different : other ≠ tid) :
    after.session other = before.session other := by
  cases op
  all_goals
    simp only [exec] at executes
    (repeat' split at executes)
  all_goals
    first
    | (cases executes; rfl)
    | (cases executes
       simp [Store.remember, Store.rememberAll, Store.commit, Store.rollback,
         Store.expire, Function.update_of_ne different])
    | (simp only [Option.map_eq_some_iff] at executes
       obtain ⟨_, -, equal⟩ := executes
       cases equal
       rfl)

/-- The statements that call the agent. -/
def Op.callsAgent : Op → Prop
  | .trigger .. => True
  | _ => False

theorem exec_calls
    (executes : exec platform op tid answer before = some (resp, after))
    (quiet : ¬op.callsAgent) :
    after.calls = before.calls := by
  cases op
  all_goals
    simp only [exec] at executes
    (repeat' split at executes)
  all_goals
    first
    | exact absurd trivial quiet
    | (cases executes; rfl)
    | (simp only [Option.map_eq_some_iff] at executes
       obtain ⟨_, -, equal⟩ := executes
       cases equal
       rfl)

/-- The statements that let time pass. -/
def Op.passesTime : Op → Prop
  | .passTime _ => True
  | _ => False

theorem exec_clock
    (executes : exec platform op tid answer before = some (resp, after))
    (quiet : ¬op.passesTime) :
    after.clock = before.clock := by
  cases op
  all_goals
    simp only [exec] at executes
    (repeat' split at executes)
  all_goals
    first
    | exact absurd trivial quiet
    | (cases executes; rfl)
    | (simp only [Option.map_eq_some_iff] at executes
       obtain ⟨_, -, equal⟩ := executes
       cases equal
       rfl)

/-- The statements that fill or expire a session. -/
def Op.touchesSession : Op → Prop
  | .load _ | .refresh _ | .selectStranded | .selectByJob _ | .commit
  | .rollback => True
  | _ => False

theorem exec_session_same
    (executes : exec platform op tid answer before = some (resp, after))
    (quiet : ¬op.touchesSession) :
    after.session = before.session := by
  cases op
  all_goals
    simp only [exec] at executes
    (repeat' split at executes)
  all_goals
    first
    | exact absurd trivial quiet
    | (cases executes; rfl)
    | (simp only [Option.map_eq_some_iff] at executes
       obtain ⟨_, -, equal⟩ := executes
       cases equal
       rfl)

/-- A copy in a session was there before, or is the committed row. -/
theorem exec_copy
    {id : String} {copy : Submission}
    (executes : exec platform op tid answer before = some (resp, after))
    (found : after.session tid id = some copy) :
    before.session tid id = some copy ∨
      before.submissions.row id = some copy := by
  cases op
  all_goals
    simp only [exec] at executes
    (repeat' split at executes)
  all_goals
    first
    | (cases executes; exact Or.inl found)
    | (simp only [Option.map_eq_some_iff] at executes
       obtain ⟨_, -, equal⟩ := executes
       cases equal
       exact Or.inl found)
    | (cases executes
       simp only [Store.remember, Store.rememberAll, Store.commit,
         Store.rollback, Store.expire, Function.update_self,
         Function.update_apply] at found
       grind [Option.or_eq_some_iff])

/-- How a session attribute is read: from the identity map, or by a SELECT that
fills it. -/
theorem exec_load
    {id : String} {found : Option Submission}
    (executes :
      exec platform (.load id) tid answer before = some (found, after)) :
    (∃ copy, found = some copy ∧ before.session tid id = some copy ∧
      after = before) ∨
    (∃ row, found = some row ∧ before.session tid id = none ∧
      before.submissions.row id = some row ∧
      after = before.remember tid id row) ∨
    (found = none ∧ before.session tid id = none ∧
      before.submissions.row id = none ∧ after = before) := by
  simp only [exec] at executes
  split at executes
  · next copy copied =>
      cases executes
      exact Or.inl ⟨copy, rfl, copied, rfl⟩
  · next row notCopied committed =>
      cases executes
      exact Or.inr (Or.inl ⟨row, rfl, notCopied, committed, rfl⟩)
  · next notCopied absent =>
      cases executes
      exact Or.inr (Or.inr ⟨rfl, notCopied, absent, rfl⟩)

@[simp]
theorem Store.session_remember
    {store : Store} {id : String} {row : Submission} :
    (store.remember tid id row).session tid id = some row := by
  simp [Store.remember]

/-- A loaded submission is in the identity map. -/
theorem session_of_load
    {id : String} {copy : Submission}
    (executes :
      exec platform (.load id) tid answer before =
        some (some copy, after)) :
    after.session tid id = some copy := by
  rcases exec_load executes with
    ⟨_, ⟨⟩, copied, rfl⟩ | ⟨_, ⟨⟩, -, -, rfl⟩ | ⟨⟨⟩, -⟩
  · exact copied
  · exact Store.session_remember

/-! ## Well-formed databases -/

/-- The tables are listed; their rows, and the sessions' copies of submissions,
sit under their keys. -/
structure Store.WellFormed (store : Store) : Prop where
  submissions : store.submissions.Listed
  results : store.results.Listed
  attempts : store.attempts.Listed
  usage : store.usage.Listed
  submissionKeys : store.submissions.Keyed Submission.id
  resultKeys : store.results.Keyed AssessmentResult.submissionId
  attemptKeys : store.attempts.Keyed CandidateAttempt.id
  usageKeys : store.usage.Keyed fun row => (row.orgId, row.period)
  session :
    ∀ {tid id copy}, store.session tid id = some copy → copy.id = id

theorem Store.WellFormed.initial (clock : Time) :
    (Store.initial clock).WellFormed :=
  ⟨Listed.empty, Listed.empty, Listed.empty, Listed.empty, Keyed.empty,
    Keyed.empty, Keyed.empty, Keyed.empty, by simp [Store.initial]⟩

theorem Store.WellFormed.exec
    (wellFormed : before.WellFormed)
    (executes :
      AssessmentPlatform.exec platform op tid answer before =
        some (resp, after)) :
    after.WellFormed := by
  have submissions := exec_submissions wellFormed.submissions executes
  have results := exec_results wellFormed.results executes
  have attempts := exec_attempts wellFormed.attempts executes
  have usage := exec_usage wellFormed.usage executes
  refine
    ⟨submissions.listed wellFormed.submissions,
      results.listed wellFormed.results,
      attempts.listed wellFormed.attempts,
      usage.listed wellFormed.usage,
      wellFormed.submissionKeys.acts submissions ?_,
      wellFormed.resultKeys.acts results ?_,
      wellFormed.attemptKeys.acts attempts ?_,
      wellFormed.usageKeys.acts usage ?_, ?_⟩
  · intro key value write
    cases write with
    | insert => rfl
    | cas found =>
        have keyed := wellFormed.submissionKeys.row found
        exact keyed
    | save found =>
        have keyed := wellFormed.submissionKeys.row found
        exact keyed
    | erase found =>
        have keyed := wellFormed.submissionKeys.row found
        exact keyed
  · intro key value write
    cases write with
    | insert => rfl
    | save found =>
        have keyed := wellFormed.resultKeys.row found
        exact keyed
    | erase found =>
        have keyed := wellFormed.resultKeys.row found
        exact keyed
  · intro key value write
    cases write with
    | insert => rfl
    | name found =>
        have keyed := wellFormed.attemptKeys.row found
        exact keyed
    | stamp found =>
        have keyed := wellFormed.attemptKeys.row found
        exact keyed
    | clear found =>
        have keyed := wellFormed.attemptKeys.row found
        exact keyed
    | erase found =>
        have keyed := wellFormed.attemptKeys.row found
        exact keyed
  · intro key value write
    cases write with
    | insert => rfl
    | @claim _ _ metric _ _ _ found =>
        have keyed := wellFormed.usageKeys.row found
        cases metric <;> exact keyed
    | bump found =>
        have keyed := wellFormed.usageKeys.row found
        exact keyed
    | @save _ _ metric _ _ _ found =>
        have keyed := wellFormed.usageKeys.row found
        cases metric <;> exact keyed
  · intro owner id copy found
    by_cases same : owner = tid
    · subst same
      rcases exec_copy executes found with earlier | committed
      · exact wellFormed.session earlier
      · exact wellFormed.submissionKeys.row committed
    · rw [exec_session executes same] at found
      exact wellFormed.session found

/-- A statement of `tid`, as the other threads see it. -/
structure Store.Moves (tid : Nat) (before after : Store) : Prop where
  submissions : RowTable.Moves tid before.submissions after.submissions
  results : RowTable.Moves tid before.results after.results
  attempts : RowTable.Moves tid before.attempts after.attempts
  usage : RowTable.Moves tid before.usage after.usage
  session :
    ∀ {other}, other ≠ tid → after.session other = before.session other

theorem Store.WellFormed.moves
    (wellFormed : before.WellFormed)
    (executes :
      AssessmentPlatform.exec platform op tid answer before =
        some (resp, after)) :
    Store.Moves tid before after where
  submissions := (exec_submissions wellFormed.submissions executes).moves
  results := (exec_results wellFormed.results executes).moves
  attempts := (exec_attempts wellFormed.attempts executes).moves
  usage := (exec_usage wellFormed.usage executes).moves
  session := exec_session executes

theorem Store.moves_commit (store : Store) (tid : Nat) :
    Store.Moves tid store (store.commit tid) where
  submissions := .commit
  results := .commit
  attempts := .commit
  usage := .commit
  session := fun different => Function.update_of_ne different _ _

/-! ## Rules for the statements of a thread -/

section Rules

variable {requests : Nat → Request} {admissible : Nat → Op → Store → Prop}
variable {contract : Contract Nat Store} {pre : Store → Prop}

/-- What a statement must do for `contract`, where `pre` holds. -/
def Establishes
    (platform : Platform) (admissible : Nat → Op → Store → Prop)
    (contract : Contract Nat Store) (tid : Nat) (pre : Store → Prop)
    (op : Op) (middle : Resp op → Store → Prop) : Prop :=
  ∀ store answer resp after,
    contract.inv store → pre store → admissible tid op store →
      exec platform op tid answer store = some (resp, after) →
        contract.guar tid store after ∧ middle resp after

theorem issue_triple
    {α : Type} {op : Op} {next : Resp op → Prog α} {post : α → Store → Prop}
    (middle : Resp op → Store → Prop)
    (stable : contract.Stable tid pre)
    (running :
      ∀ store, contract.inv store → pre store → contract.running tid store)
    (step : Establishes platform admissible contract tid pre op middle)
    (rest :
      ∀ resp, Triple (serving platform requests) admissible contract tid
        (middle resp) (next resp) post) :
    Triple (serving platform requests) admissible contract tid pre
      (issue op >>= next) post :=
  Triple.statement middle stable running step rest

theorem last_triple
    {op : Op} {post : Resp op → Store → Prop}
    (stable : contract.Stable tid pre)
    (running :
      ∀ store, contract.inv store → pre store → contract.running tid store)
    (stablePost : ∀ resp, contract.Stable tid (post resp))
    (step : Establishes platform admissible contract tid pre op post) :
    Triple (serving platform requests) admissible contract tid pre
      (issue op) post :=
  Triple.last stable running stablePost step

variable {History : Type}
variable
  {record : (op : Op) → Nat → Resp op → Store → Store → History → History}
variable {admits : Nat → Op → Store × History → Prop}
variable {logged : Contract Nat (Store × History)}
variable {given : Store × History → Prop}

/-- `Establishes`, for a contract that also speaks of a history. -/
def EstablishesRecorded
    (platform : Platform)
    (record : (op : Op) → Nat → Resp op → Store → Store → History → History)
    (admits : Nat → Op → Store × History → Prop)
    (logged : Contract Nat (Store × History)) (tid : Nat)
    (given : Store × History → Prop) (op : Op)
    (middle : Resp op → Store × History → Prop) : Prop :=
  ∀ store history answer resp after,
    logged.inv (store, history) → given (store, history) →
      admits tid op (store, history) →
        exec platform op tid answer store = some (resp, after) →
          logged.guar tid (store, history)
              (after, record op tid resp store after history) ∧
            middle resp (after, record op tid resp store after history)

/-- `step` of a rule, from what the statement does to the store alone. -/
theorem EstablishesRecorded.step
    {op : Op} {middle : Resp op → Store × History → Prop}
    (establishes :
      EstablishesRecorded platform record admits logged tid given op middle)
    (recorded : Store × History) (answer : AgentAnswer) (resp : Resp op)
    (after : Store × History)
    (inv : logged.inv recorded) (holds : given recorded)
    (allowed : admits tid op recorded)
    (executes :
      ((serving platform requests).withHistory record).exec op tid answer
        recorded = some (resp, after)) :
    logged.guar tid recorded after ∧ middle resp after := by
  obtain ⟨store, history⟩ := recorded
  obtain ⟨⟨_, later⟩, executesStore, equal⟩ :=
    Option.map_eq_some_iff.mp executes
  cases equal
  exact establishes store history answer resp later inv holds allowed
    executesStore

theorem issue_recorded
    {α : Type} {op : Op} {next : Resp op → Prog α}
    {post : α → Store × History → Prop}
    (middle : Resp op → Store × History → Prop)
    (stable : logged.Stable tid given)
    (running :
      ∀ recorded, logged.inv recorded → given recorded →
        logged.running tid recorded)
    (step :
      EstablishesRecorded platform record admits logged tid given op middle)
    (rest :
      ∀ resp, Triple ((serving platform requests).withHistory record) admits
        logged tid (middle resp) (next resp) post) :
    Triple ((serving platform requests).withHistory record) admits logged tid
      given (issue op >>= next) post :=
  Triple.statement middle stable running step.step rest

theorem last_recorded
    {op : Op} {post : Resp op → Store × History → Prop}
    (stable : logged.Stable tid given)
    (running :
      ∀ recorded, logged.inv recorded → given recorded →
        logged.running tid recorded)
    (stablePost : ∀ resp, logged.Stable tid (post resp))
    (step :
      EstablishesRecorded platform record admits logged tid given op post) :
    Triple ((serving platform requests).withHistory record) admits logged tid
      given (issue op) post :=
  Triple.last stable running stablePost step.step

theorem all_recorded
    {α : Type} {allowed : Op → Prop} {program : Prog α}
    (stable : logged.Stable tid given)
    (running :
      ∀ recorded, logged.inv recorded → given recorded →
        logged.running tid recorded)
    (all : program.All allowed)
    (step :
      ∀ op, allowed op →
        EstablishesRecorded platform record admits logged tid given op
          fun _ => given) :
    Triple ((serving platform requests).withHistory record) admits logged tid
      given program (fun _ => given) :=
  Triple.of_all stable running all fun op permitted =>
    (step op permitted).step

end Rules

end AssessmentPlatform
