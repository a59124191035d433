import AssessmentPlatform.Accounts.Links
import AssessmentPlatform.Records.Ids
import AssessmentPlatform.Records.Sample
import Mathlib.Data.List.Induction

/-!
# Links and changes of address

A run keeps the history of the tokens that its requests minted and of the
passwords that they set.  A link that was mailed before its account moved to
another address stays dead after the move if, whenever an account moves, its
older links have expired or are bound to neither the password that it keeps nor
the address that it takes.
-/

namespace AssessmentPlatform

open Accounts Relation Rows Refusals

variable (deployment : Deployment)

/-! ## Histories of runs -/

/-- The tokens that a request minted and the passwords that it set. -/
def Served.entries (served : Served) : List Entry :=
  match served.request with
  | .account request =>
      match serveAccount deployment served.around served.before request,
        request.handle deployment.auth served.around.toSurroundings
          served.before.interviewers with
      | .ok _, .ok (_, entries) => entries
      | _, _ => []
  | .register body =>
      match register deployment served.around served.before body with
      | .ok _ =>
          let account := newInterviewer deployment served.around served.before
            body (deployment.auth.normalizeEmail body.email)
          -- the sign-up mails the link that verifies its address
          [passwordEntry deployment.auth account,
            .minted (createVerifyToken served.around.now account)]
      | .error _ => []
  | _ => []

/-- The history of a run. -/
def tokenHistory (trace : List Served) : List Entry :=
  trace.flatMap (Served.entries deployment)

/-- What signatures and hashes promise of every request of a run. -/
def Possible (trace : List Served) : Prop :=
  ∀ earlier served later request, trace = earlier ++ served :: later →
    served.request = .account request →
      World.Possible deployment.auth served.around.toSurroundings
        ⟨served.before.interviewers, tokenHistory deployment earlier⟩ request

/-- The link had expired by one of the requests. -/
def Expired (trace : List Served) (claims : Claims) : Prop :=
  ∃ asked ∈ trace, seconds claims.exp ≤ asked.around.now

/-- A change of address finds no link of the account that has not expired and
is bound to the password that it keeps, or to the address that it takes. -/
def Severs (earlier : List Served) (served : Served) : Prop :=
  ∀ token row newEmail,
    served.request = .account (.confirmEmailChange token) →
    Replaces deployment.auth served.around.toSurroundings
      served.before.interviewers token row newEmail →
    ∀ claims, .minted claims ∈ tokenHistory deployment earlier →
      claims.sub = row.id →
      claims.BoundTo deployment.auth newEmail row.passwordHash →
        Expired (earlier ++ [served]) claims

/-- So does every change of address of a run. -/
def Severing (trace : List Served) : Prop :=
  ∀ earlier served later, trace = earlier ++ served :: later →
    Severs deployment earlier served

/-- The links that were mailed for an account before one of its changes of
address are refused, at every instant from the last request on. -/
def LinksRefused (trace : List Served) (db : Database) : Prop :=
  ∀ earlier served later token, trace = earlier ++ served :: later →
    served.request = .account (.confirmEmailChange token) →
    ∀ row ∈ served.before.interviewers,
      ∀ saved ∈ (served.after deployment).interviewers,
        saved.id = row.id → saved.email ≠ row.email →
        ∀ claims, .minted claims ∈ tokenHistory deployment earlier →
          ¬claims.isSession → claims.sub = row.id →
          ∀ now, (∀ asked ∈ trace, asked.around.now ≤ now) →
            ∀ use, ¬AcceptedAs deployment.auth now db.interviewers use
              (.signed claims)

variable {deployment} {served last : Served} {scope : Option Nat}
variable {db after : Database} {trace earlier later : List Served}
variable {claims : Claims} {latest : Time}

theorem tokenHistory_append (first second : List Served) :
    tokenHistory deployment (first ++ second) =
      tokenHistory deployment first ++ tokenHistory deployment second :=
  List.flatMap_append

theorem tokenHistory_snoc :
    tokenHistory deployment (trace ++ [served]) =
      tokenHistory deployment trace ++ served.entries deployment := by
  simp [tokenHistory]

theorem Possible.front (possible : Possible deployment (trace ++ later)) :
    Possible deployment trace := by
  intro first served rest request split
  apply possible first served (rest ++ later) request
  simp [split]

theorem Severing.front (severing : Severing deployment (trace ++ later)) :
    Severing deployment trace := by
  intro first served rest split
  apply severing first served (rest ++ later)
  simp [split]

theorem Possible.snoc (possible : Possible deployment trace)
    (next : ∀ request, served.request = .account request →
      World.Possible deployment.auth served.around.toSurroundings
        ⟨served.before.interviewers, tokenHistory deployment trace⟩
        request) :
    Possible deployment (trace ++ [served]) := by
  intro earlier asked later request split isAccount
  rcases List.eq_nil_or_concat later with rfl | ⟨middle, other, rfl⟩
  · obtain ⟨rfl, isLast⟩ := List.append_inj' split rfl
    obtain rfl := List.singleton_inj.mp isLast
    exact next request isAccount
  · have regrouped : trace ++ [served] =
        (earlier ++ asked :: middle) ++ [other] := by
      simpa using split
    obtain ⟨rfl, _⟩ := List.append_inj' regrouped rfl
    exact possible earlier asked middle request rfl isAccount

theorem Severing.snoc (severing : Severing deployment trace)
    (next : Severs deployment trace served) :
    Severing deployment (trace ++ [served]) := by
  intro earlier asked later split
  rcases List.eq_nil_or_concat later with rfl | ⟨middle, other, rfl⟩
  · obtain ⟨rfl, isLast⟩ := List.append_inj' split rfl
    obtain rfl := List.singleton_inj.mp isLast
    exact next
  · have regrouped : trace ++ [served] =
        (earlier ++ asked :: middle) ++ [other] := by
      simpa using split
    obtain ⟨rfl, _⟩ := List.append_inj' regrouped rfl
    exact severing earlier asked middle rfl

theorem Severs.quiet
    (quiet : ∀ token, served.request ≠ .account (.confirmEmailChange token)) :
    Severs deployment earlier served :=
  fun token _ _ asked => absurd asked (quiet token)

theorem Expired.append (expired : Expired trace claims) (later : List Served) :
    Expired (trace ++ later) claims := by
  obtain ⟨asked, member, isLate⟩ := expired
  exact ⟨asked, List.mem_append_left _ member, isLate⟩

/-- A run, taken apart at its last request. -/
theorem Run.of_snoc (run : Run deployment (trace ++ [served]) db) :
    Run deployment trace served.before ∧ db = served.after deployment := by
  generalize isTrace : trace ++ [served] = whole at run
  cases run with
  | start => simp at isTrace
  | step around request run =>
      obtain ⟨rfl, isLast⟩ := List.append_inj' isTrace rfl
      obtain rfl : served = _ := List.singleton_inj.mp isLast
      exact ⟨run, rfl⟩

/-- A run, taken apart at any request. -/
theorem Run.of_split (run : Run deployment (earlier ++ served :: later) db) :
    Run deployment earlier served.before := by
  induction later using List.reverseRecOn generalizing db with
  | nil => exact run.of_snoc.1
  | append_singleton later last inductionHypothesis =>
      have regrouped : earlier ++ served :: (later ++ [last]) =
          (earlier ++ served :: later) ++ [last] := by simp
      exact inductionHypothesis (regrouped ▸ run).of_snoc.1

/-! ## What requests do to accounts -/

theorem Enters.interviewers_subset {account : Interviewer}
    {gaveUp : Option Nat} {base : Database}
    (enters : Enters db account gaveUp base)
    (isOld : account ∈ db.interviewers) :
    base.interviewers ⊆ db.interviewers := by
  cases enters with
  | newcomer =>
      intro row member
      rcases List.mem_append.mp member with old | isLast
      · exact old
      · exact List.mem_singleton.mp isLast ▸ isOld
  | seatless => exact fun _ member => member
  | leaving _ _ gaveUp =>
      obtain ⟨rfl, _⟩ := leaveEmptyOrg_eq_ok gaveUp
      exact fun _ member => member

/-- Only the requests of accounts and sign-ups write interviewers. -/
theorem Change.interviewers_subset
    (change : Change deployment served scope db after)
    (quiet : ¬served.request.writesAccounts) :
    after.interviewers ⊆ db.interviewers := by
  cases change with
  | accounts _ _ writes => exact absurd writes quiet
  | founded _ enters isOld =>
      exact enters.interviewers_subset (isOld.resolve_right quiet)
  | joined enters _ _ _ _ _ isOld =>
      exact enters.interviewers_subset (isOld.resolve_right quiet)
  | accountDeleted deleted =>
      obtain ⟨left, leaving, rfl⟩ := Database.purgeAccount_left deleted
      intro row member
      have isLeft := (mem_deleteWhere.mp member).1
      cases leaving <;> exact isLeft
  | _ => exact fun _ member => member

/-- How a request writes the table of interviewers and the history. -/
inductive Writes (deployment : Deployment) (served : Served)
    (history : List Entry) : Prop where
  | account {request : Accounts.Request} :
      served.request = .account request →
      ReflTransGen
        (Move deployment.auth served.around.toSurroundings
          (request.readdresses deployment.auth served.around.toSurroundings
            served.before.interviewers))
        ⟨served.before.interviewers, history⟩
        ⟨(served.after deployment).interviewers,
          history ++ served.entries deployment⟩ →
      Writes deployment served history
  | registered {account : Interviewer} :
      account.id = served.before.nextId →
      served.before.nextId < (served.after deployment).nextId →
      (served.after deployment).interviewers =
        served.before.interviewers ++ [account] →
      served.entries deployment =
        [passwordEntry deployment.auth account,
          .minted (createVerifyToken served.around.now account)] →
      Writes deployment served history
  | fewer :
      (served.after deployment).interviewers ⊆ served.before.interviewers →
      served.entries deployment = [] →
      Writes deployment served history

/-- An account request that went through, or was refused. -/
theorem account_served {request : Accounts.Request}
    (asked : served.request = .account request) :
    (served.after deployment = served.before ∧
        served.entries deployment = []) ∨
      ∃ interviewers,
        request.handle deployment.auth served.around.toSurroundings
            served.before.interviewers =
          .ok (interviewers, served.entries deployment) ∧
        served.after deployment =
          { served.before with interviewers := interviewers } := by
  cases answered :
      serveAccount deployment served.around served.before request with
  | error refused =>
      left
      simp [Served.after, Served.entries, asked, serve, serve.done, lastly,
        answered]
  | ok after =>
      right
      have finished := answered
      unfold serveAccount at finished
      obtain ⟨⟨interviewers, entries⟩, handled, executed⟩ :=
        bind_eq_ok.mp finished
      obtain ⟨_, rfl⟩ := Database.execute_eq_ok.mp executed
      refine ⟨interviewers, ?_, ?_⟩
      · simp [Served.entries, asked, answered, handled]
      · simp [Served.after, asked, serve, serve.done, lastly, answered]

theorem register_writes {body : RegisterIn} {history : List Entry}
    (asked : served.request = .register body) :
    Writes deployment served history := by
  cases answered : register deployment served.around served.before body with
  | error refused =>
      have same : served.after deployment = served.before := by
        simp [Served.after, asked, serve, serve.done, lastly, answered]
      apply Writes.fewer
      · rw [same]
        exact fun _ member => member
      · simp [Served.entries, asked, answered]
  | ok after =>
      have isAfter : served.after deployment = after := by
        simp [Served.after, asked, serve, serve.done, lastly, answered]
      let account := newInterviewer deployment served.around served.before
        body (deployment.auth.normalizeEmail body.email)
      have isEntries : served.entries deployment =
          [passwordEntry deployment.auth account,
            .minted (createVerifyToken served.around.now account)] := by
        simp [Served.entries, asked, answered, account]
      have finished := answered
      unfold register at finished
      simp only [throw_bind, bind_eq_ok, ite_throw_eq_ok] at finished
      obtain ⟨_, _, _, _, orgInvite, _, _, _, _, finished⟩ := finished
      cases orgInvite with
      | none =>
          obtain ⟨_, rfl⟩ := Database.execute_eq_ok.mp finished
          apply Writes.registered rfl _ (congrArg _ isAfter) isEntries
          rw [isAfter]
          simp only [foundOrg, addInterviewer]
          omega
      | some invite =>
          obtain ⟨_, rfl⟩ := Database.execute_eq_ok.mp finished
          apply Writes.registered rfl _ (congrArg _ isAfter) isEntries
          rw [isAfter]
          simp only [joinOrg, addInterviewer]
          omega

theorem served_writes {history : List Entry}
    (constraints : served.before.Constraints)
    (possible : ∀ request, served.request = .account request →
      World.Possible deployment.auth served.around.toSurroundings
        ⟨served.before.interviewers, history⟩ request) :
    Writes deployment served history := by
  have others (quiet : ¬served.request.writesAccounts)
      (silent : served.entries deployment = []) :
      Writes deployment served history := by
    apply Writes.fewer _ silent
    exact ((serve_transactions constraints).keeps
      (fun state => state.interviewers ⊆ served.before.interviewers)
      constraints
      (fun change _ _ fewer => List.Subset.trans
        (change.interviewers_subset quiet) fewer)
      (fun _ member => member)).2
  cases asked : served.request with
  | account request =>
      apply Writes.account asked
      rcases account_served asked with ⟨same, silent⟩ |
        ⟨interviewers, handled, isAfter⟩
      · rw [same, silent, List.append_nil]
      · rw [isAfter]
        exact handle_moves (possible request asked) interviewers _ handled
  | register body => exact register_writes asked
  | _ =>
      apply others
      · simp [asked, ApiRequest.writesAccounts]
      · simp [Served.entries, asked]

/-! ## What runs keep -/

theorem served_nextId_le (constraints : served.before.Constraints) :
    served.before.nextId ≤ (served.after deployment).nextId :=
  ((serve_transactions constraints).keeps
    (fun state => served.before.nextId ≤ state.nextId) constraints
    (fun change _ _ reached => reached.trans change.nextId_le)
    (Nat.le_refl _)).2

theorem Writes.recorded {history : List Entry}
    (writes : Writes deployment served history)
    (constraints : served.before.Constraints)
    (recorded : Recorded deployment.auth latest served.before.nextId
      ⟨served.before.interviewers, history⟩)
    (reached : served.around.now ≤ latest) :
    Recorded deployment.auth latest (served.after deployment).nextId
      ⟨(served.after deployment).interviewers,
        history ++ served.entries deployment⟩ := by
  have grows : served.before.nextId ≤ (served.after deployment).nextId :=
    served_nextId_le constraints
  cases writes with
  | account _ moved => exact (recorded.moves reached moved).mono grows
  | registered isNew grew isAfter isEntries =>
      rw [isAfter, isEntries]
      exact (recorded.register reached isNew).mono grew
  | fewer subset silent =>
      rw [silent, List.append_nil]
      exact (recorded.fewer subset).mono grows

/-- A link stays unbound, unless the request moves its account to its
address. -/
theorem Writes.unbound {history : List Entry}
    (writes : Writes deployment served history)
    (recorded : Recorded deployment.auth latest served.before.nextId
      ⟨served.before.interviewers, history⟩)
    (reached : served.around.now ≤ latest)
    (isMinted : .minted claims ∈ history)
    (unbound : Unbound deployment.auth claims served.before.interviewers)
    (severed : ∀ token row newEmail,
      served.request = .account (.confirmEmailChange token) →
      Replaces deployment.auth served.around.toSurroundings
        served.before.interviewers token row newEmail →
      row.id = claims.sub →
        ¬claims.BoundTo deployment.auth newEmail row.passwordHash) :
    Unbound deployment.auth claims
      (served.after deployment).interviewers := by
  cases writes with
  | @account request asked moved =>
      have stays := Unbound.moves unbound recorded reached isMinted moved
      apply stays
      intro row newEmail readdressed
      cases request with
      | confirmEmailChange token =>
          exact severed token row newEmail asked readdressed
      | _ => cases readdressed
  | registered isNew _ isAfter _ =>
      rw [isAfter]
      intro row member isSub
      rcases List.mem_append.mp member with old | isLast
      · exact unbound row old isSub
      · obtain rfl := List.mem_singleton.mp isLast
        have older := recorded.subject claims isMinted
        omega
  | fewer subset _ => exact fun row member => unbound row (subset member)

/-- The requests of a possible run write as they can. -/
theorem Possible.writes (possible : Possible deployment (trace ++ [served]))
    (constraints : served.before.Constraints) :
    Writes deployment served (tokenHistory deployment trace) :=
  served_writes constraints fun request asked =>
    possible trace served [] request rfl asked

theorem Run.recorded (run : Run deployment trace db)
    (possible : Possible deployment trace)
    (reached : ∀ asked ∈ trace, asked.around.now ≤ latest) :
    Recorded deployment.auth latest db.nextId
      ⟨db.interviewers, tokenHistory deployment trace⟩ := by
  induction run with
  | start =>
      exact .empty
  | @step trace db around request run inductionHypothesis =>
      have before := inductionHypothesis possible.front
        fun asked member => reached asked (List.mem_append_left _ member)
      have writes := possible.writes run.constraints
      rw [tokenHistory_snoc]
      exact writes.recorded run.constraints before
        (reached _ (List.mem_append_right _ List.mem_cons_self))

/-! ## Changes of address in a run -/

theorem confirmed_of_moved {token : Token} {row saved : Interviewer}
    (constraints : served.before.Constraints)
    (asked : served.request = .account (.confirmEmailChange token))
    (member : row ∈ served.before.interviewers)
    (isSaved : saved ∈ (served.after deployment).interviewers)
    (same : saved.id = row.id) (moved : saved.email ≠ row.email) :
    ∃ newEmail,
      Replaces deployment.auth served.around.toSurroundings
        served.before.interviewers token row newEmail ∧
      (served.after deployment).interviewers =
        confirmEmailChange.moved served.around.toSurroundings
          served.before.interviewers row newEmail := by
  have keyed := constraints.uniqueKeys.interviewer
  have outcome : (served.after deployment = served.before ∧ _) ∨ _ :=
    account_served asked
  rcases outcome with ⟨unchanged, _⟩ | ⟨interviewers, handled, isAfter⟩
  · rw [unchanged] at isSaved
    exact absurd (congrArg _ (keyed.eq isSaved member same)) moved
  · rw [isAfter] at isSaved ⊢
    exact replaces_of_moved keyed handled member isSaved same moved

/-- The database takes an address that the confirmation found free. -/
theorem Accounts.Replaces.constraints {token : Token} {row : Interviewer}
    {newEmail : String} {around : Accounts.Surroundings}
    (replaces : Replaces deployment.auth around db.interviewers token row
      newEmail)
    (constraints : db.Constraints) :
    Database.Constraints { db with
      interviewers :=
        confirmEmailChange.moved around db.interviewers row newEmail } where
  uniqueKeys := { constraints.uniqueKeys with
    interviewer := constraints.uniqueKeys.interviewer.save
    interviewerEmail := replaces.keyed constraints.uniqueKeys.interviewer
      constraints.uniqueKeys.interviewerEmail }
  foreignKeys :=
    have keys := constraints.foreignKeys
    { keys with
      membershipInterviewer :=
        keys.membershipInterviewer.of_map_eq map_key_save
      membershipInvitedBy := keys.membershipInvitedBy.of_map_eq map_key_save
      orgInviteInvitedBy := keys.orgInviteInvitedBy.of_map_eq map_key_save
      variantSetOwner := keys.variantSetOwner.of_map_eq map_key_save
      questionOwner := keys.questionOwner.of_map_eq map_key_save
      assessmentOwner := keys.assessmentOwner.of_map_eq map_key_save
      inviteCreatedBy := keys.inviteCreatedBy.of_map_eq map_key_save }

theorem confirmed_of_replaces {token : Token} {row : Interviewer}
    {newEmail : String} (constraints : served.before.Constraints)
    (asked : served.request = .account (.confirmEmailChange token))
    (replaces : Replaces deployment.auth served.around.toSurroundings
      served.before.interviewers token row newEmail) :
    (served.after deployment).interviewers =
      confirmEmailChange.moved served.around.toSurroundings
        served.before.interviewers row newEmail := by
  have handled : Accounts.Request.handle deployment.auth
      served.around.toSurroundings served.before.interviewers
      (.confirmEmailChange token) = _ := replaces.done
  have answered : serveAccount deployment served.around served.before
      (.confirmEmailChange token) = .ok { served.before with
        interviewers :=
          confirmEmailChange.moved served.around.toSurroundings
            served.before.interviewers row newEmail } := by
    unfold serveAccount
    rw [handled]
    exact Database.execute_eq_ok.mpr ⟨replaces.constraints constraints, rfl⟩
  simp [Served.after, asked, serve, serve.done, lastly, answered]

/-- The move leaves the older links of the account expired or unbound. -/
theorem Severs.dead {token : Token} {row : Interviewer} {newEmail : String}
    (severs : Severs deployment earlier served)
    (asked : served.request = .account (.confirmEmailChange token))
    (replaces : Replaces deployment.auth served.around.toSurroundings
      served.before.interviewers token row newEmail)
    (isAfter : (served.after deployment).interviewers =
      confirmEmailChange.moved served.around.toSurroundings
        served.before.interviewers row newEmail)
    (isMinted : .minted claims ∈ tokenHistory deployment earlier)
    (isSub : claims.sub = row.id) :
    Expired (earlier ++ [served]) claims ∨
      Unbound deployment.auth claims
        (served.after deployment).interviewers := by
  by_cases isBound :
      claims.BoundTo deployment.auth newEmail row.passwordHash
  · exact Or.inl
      (severs token row newEmail asked replaces claims isMinted isSub isBound)
  · right
    rw [isAfter]
    intro other isOther same
    rcases mem_save isOther with rfl | ⟨_, different⟩
    · exact isBound
    · exact absurd (same.trans isSub) different

/-- A link that is expired or unbound stays so, while changes of address sever
links. -/
theorem Run.stays_dead
    (run : Run deployment (earlier ++ served :: later) db)
    (possible : Possible deployment (earlier ++ served :: later))
    (severing : Severing deployment (earlier ++ served :: later))
    (reached : ∀ asked ∈ earlier ++ served :: later,
      asked.around.now ≤ latest)
    (isMinted : .minted claims ∈ tokenHistory deployment earlier)
    (dead : Expired (earlier ++ [served]) claims ∨
      Unbound deployment.auth claims
        (served.after deployment).interviewers) :
    Expired (earlier ++ served :: later) claims ∨
      Unbound deployment.auth claims db.interviewers := by
  induction later using List.reverseRecOn generalizing db with
  | nil =>
      rw [run.of_snoc.2]
      exact dead
  | append_singleton later last inductionHypothesis =>
      have regrouped : earlier ++ served :: (later ++ [last]) =
          (earlier ++ served :: later) ++ [last] := by simp
      rw [regrouped] at run possible severing reached ⊢
      obtain ⟨before, rfl⟩ := run.of_snoc
      have bounded : ∀ asked ∈ earlier ++ served :: later,
          asked.around.now ≤ latest := fun asked member =>
        reached asked (List.mem_append_left _ member)
      by_cases expired :
          Expired ((earlier ++ served :: later) ++ [last]) claims
      · exact Or.inl expired
      · right
        have unbound := (inductionHypothesis before possible.front
          severing.front bounded).resolve_left
            fun already => expired (already.append _)
        have known : .minted claims ∈
            tokenHistory deployment (earlier ++ served :: later) := by
          rw [tokenHistory_append]
          exact List.mem_append_left _ isMinted
        apply (possible.writes before.constraints).unbound
          (before.recorded possible.front bounded)
          (reached last (List.mem_append_right _ List.mem_cons_self)) known
          unbound
        intro token row newEmail asked replaces isSub isBound
        exact expired (severing _ last [] rfl token row newEmail asked
          replaces claims known isSub.symm isBound)

/-- What the later requests of a severing run find of the older links. -/
theorem linksRefused_of_severing (run : Run deployment trace db)
    (possible : Possible deployment trace)
    (severing : Severing deployment trace) :
    LinksRefused deployment trace db := by
  intro earlier served later token split asked row member saved isSaved same
    moved claims isMinted isLink isSub now reached use accepted
  subst split
  have before := run.of_split
  obtain ⟨newEmail, replaces, isAfter⟩ :=
    confirmed_of_moved before.constraints asked member isSaved same moved
  have severs : Severs deployment earlier served :=
    severing earlier served later rfl
  have dead := run.stays_dead possible severing reached isMinted
    (severs.dead asked replaces isAfter isMinted isSub)
  obtain ⟨running, account, isAccount, isFor, isBound⟩ :=
    boundTo_of_accepted isLink accepted
  rcases dead with ⟨late, isLate, expired⟩ | unbound
  · exact absurd (Int.le_trans expired (reached late isLate))
      (Int.not_le.mpr running)
  · exact unbound account isAccount isFor isBound

/-- A change of address that finds a live link of the account, bound to what
the account becomes, leaves it alive. -/
theorem severs_of_linksRefused (before : Run deployment earlier served.before)
    (possible : Possible deployment (earlier ++ [served]))
    (refused : LinksRefused deployment (earlier ++ [served])
      (served.after deployment)) :
    Severs deployment earlier served := by
  intro token row newEmail asked replaces claims isMinted isSub isBound
  by_contra unexpired
  -- the last instant at which the link is still running
  let now := seconds claims.exp - 1
  have reached : ∀ other ∈ earlier ++ [served], other.around.now ≤ now := by
    intro other member
    have running : ¬seconds claims.exp ≤ other.around.now :=
      fun late => unexpired ⟨other, member, late⟩
    exact Int.le_sub_one_of_lt (Int.not_le.mp running)
  have recorded := before.recorded possible.front
    fun other member => reached other (List.mem_append_left _ member)
  have isAfter :=
    confirmed_of_replaces before.constraints asked replaces
  let saved : Interviewer :=
    { row with
      email := newEmail, emailVerifiedAt := some served.around.now }
  have isSaved : saved ∈ (served.after deployment).interviewers := by
    rw [isAfter]
    apply mem_updateWhere.mpr
    exact Or.inl ⟨row, replaces.member, by simp, rfl⟩
  have keyed :
      Keyed Interviewer.id (served.after deployment).interviewers := by
    rw [isAfter]
    exact before.constraints.uniqueKeys.interviewer.save
  have isLink : ¬claims.isSession := by
    rintro (isUse | isUse) <;> simp [Claims.BoundTo, isUse] at isBound
  have accepted : AcceptedAs deployment.auth now
      (served.after deployment).interviewers claims.use (.signed claims) :=
    accepted_of_boundTo keyed isSaved isSub.symm
      (recorded.minted claims isMinted) (Int.sub_one_lt_of_le (Int.le_refl _))
      isBound
  exact refused earlier served [] token rfl asked row replaces.member saved
    isSaved rfl replaces.2.1 claims isMinted isLink isSub now reached _
    accepted

/-! ## The main result -/

/-- At every point of a run the links that were mailed for an account before
its address changed are refused, exactly if every change of address severs the
links of its account. -/
theorem links_refused_iff {trace : List Served} {db : Database}
    (run : Run deployment trace db) (possible : Possible deployment trace) :
    (∀ shorter reached, shorter <+: trace →
        Run deployment shorter reached →
          LinksRefused deployment shorter reached) ↔
      Severing deployment trace := by
  constructor
  · intro refused earlier served later split
    subst split
    have before := run.of_split
    have regrouped : earlier ++ served :: later =
        (earlier ++ [served]) ++ later := by simp
    rw [regrouped] at possible
    apply severs_of_linksRefused before possible.front
    apply refused (earlier ++ [served]) _ ⟨later, regrouped.symm⟩
    exact Run.step served.around served.request before
  · rintro severing shorter reached ⟨later, rfl⟩ runs
    exact linksRefused_of_severing runs possible.front severing.front

namespace Scenario

/-- Ann's account, as it was registered. -/
def ann : Interviewer :=
  ⟨1, "a@x", "long enough pw", "Ann", 0, none⟩

/-- A request of an account, at a given second. -/
def accountAsks (second : Int) (request : Accounts.Request) : Asked :=
  (surroundings (seconds second) 'b', .account request)

/-- The link that verifies the address that Ann registered. -/
def annVerify : Claims :=
  createVerifyToken 0 ann

/-- The token of Ann's first session. -/
def annAccess : Claims :=
  createAccessToken Scenario.deployment.auth (seconds 10) ann

/-- The link that resets Ann's password. -/
def annReset : Claims :=
  createResetToken Scenario.deployment.auth (seconds 20) ann

/-- The link that moves Ann to another address. -/
def annMove : Claims :=
  createChangeEmailToken (seconds 30) ann "b@x"

/-- Ann signs up and signs in. -/
def signedIn : List Asked :=
  [registers, accountAsks 10 (.login "a@x" "long enough pw")]

/-- Then she asks for a link that resets her password. -/
def forgot : List Asked :=
  signedIn ++ [accountAsks 20 (.forgotPassword "a@x")]

/-- Ann asks to move to another address. -/
def asksToMove : Asked :=
  accountAsks 30
    (.updateMe (some (.signed annAccess)) none (some "b@x")
      (some "long enough pw"))

/-- She opens the link that is mailed there. -/
def opensMove : Asked :=
  accountAsks 40 (.confirmEmailChange (.signed annMove))

/-- A request that presents tokens of the run and sets no password. -/
theorem possible_accountAsks {script : List Asked} {second : Int}
    {request : Accounts.Request}
    (possible : Possible Scenario.deployment (play script).1)
    (minted : ∀ claims, .signed claims ∈ request.presented →
      .minted claims ∈ tokenHistory Scenario.deployment (play script).1)
    (quiet : request.newPassword = none) :
    Possible Scenario.deployment
      (play (script ++ [accountAsks second request])).1 := by
  rw [play, List.foldl_append]
  apply possible.snoc
  intro other isAccount
  obtain rfl := ApiRequest.account.inj isAccount
  constructor
  · exact minted
  · rw [quiet]
    intro password isNew
    cases isNew

theorem possible_signedIn : Possible Scenario.deployment (play signedIn).1 := by
  have silent : Possible Scenario.deployment [] := by
    intro earlier served later request split
    simp at split
  have registered : Possible Scenario.deployment (play [registers]).1 := by
    apply silent.snoc
    intro request isAccount
    cases isAccount
  exact possible_accountAsks registered (by simp [Request.presented]) rfl

/-- What the history holds once Ann has signed in. -/
def signInEntries : List Entry :=
  [.passwordSet 1 "long enough pw", .minted annVerify,
    .minted (createRefreshToken Scenario.deployment.auth (seconds 10) ann),
    .minted annAccess]

/-- Ann moves, after a possible script that signed her in at first. -/
theorem possible_moves {script : List Asked} {entries : List Entry}
    (possible : Possible Scenario.deployment (play script).1)
    (before : tokenHistory Scenario.deployment (play script).1 =
      signInEntries ++ entries)
    (after : tokenHistory Scenario.deployment
      (play (script ++ [asksToMove])).1 =
        signInEntries ++ entries ++ [.minted annMove]) :
    Possible Scenario.deployment
      (play ((script ++ [asksToMove]) ++ [opensMove])).1 := by
  apply possible_accountAsks _ _ rfl
  · apply possible_accountAsks possible _ rfl
    intro claims isPresented
    obtain rfl := Token.signed.inj (List.mem_singleton.mp isPresented)
    rw [before]
    simp [signInEntries]
  · intro claims isPresented
    obtain rfl := Token.signed.inj (List.mem_singleton.mp isPresented)
    rw [after]
    simp

theorem history_asksToMove :
    tokenHistory Scenario.deployment (play (signedIn ++ [asksToMove])).1 =
      signInEntries ++ [] ++ [.minted annMove] := by
  decide +kernel

end Scenario

open Scenario in
/-- The link that resets the password, mailed to the old address, still opens
the account after it has moved. -/
theorem links_refused_reset_outlives :
    ∃ trace db, Run Scenario.deployment trace db ∧
      Possible Scenario.deployment trace ∧
      ¬LinksRefused Scenario.deployment trace db := by
  have asked : Possible Scenario.deployment (play forgot).1 :=
    possible_accountAsks possible_signedIn (by simp [Request.presented]) rfl
  have isLink : ¬annReset.isSession := by
    simp [Claims.isSession, annReset, createResetToken, encode]
  have history : tokenHistory Scenario.deployment
      (play (forgot ++ [asksToMove])).1 =
        signInEntries ++ [.minted annReset] ++ [.minted annMove] := by
    decide +kernel
  refine ⟨_, _, run_play ((forgot ++ [asksToMove]) ++ [opensMove]),
    possible_moves asked (by decide +kernel) history, ?_⟩
  intro refused
  have mailed : .minted annReset ∈ tokenHistory Scenario.deployment
      (play (forgot ++ [asksToMove])).1 := by
    rw [history]
    simp
  let moved : Interviewer :=
    { ann with email := "b@x", emailVerifiedAt := some (seconds 40) }
  have accepted : AcceptedAs Scenario.deployment.auth (seconds 50)
      (play ((forgot ++ [asksToMove]) ++ [opensMove])).2.interviewers .reset
      (.signed annReset) :=
    ⟨moved, by decide +kernel⟩
  exact refused (play (forgot ++ [asksToMove])).1
    (servedAfter (forgot ++ [asksToMove]) opensMove) [] (.signed annMove)
    rfl rfl ann (by decide +kernel) moved (by decide +kernel) rfl (by decide)
    annReset mailed isLink rfl (seconds 50)
    (by decide +kernel) .reset accepted

namespace Scenario

/-- Ann's move without a reset link severs the links that she has. -/
theorem severing_moves : Severing Scenario.deployment
    (play ((signedIn ++ [asksToMove]) ++ [opensMove])).1 := by
  have silent : Severing Scenario.deployment [] := by
    intro earlier served later split
    simp at split
  have before : Severing Scenario.deployment
      (play (signedIn ++ [asksToMove])).1 := by
    apply Severing.snoc _ (.quiet (by simp [asksToMove, accountAsks]))
    apply Severing.snoc _ (.quiet (by simp [accountAsks]))
    exact silent.snoc (.quiet (by simp [registers]))
  apply before.snoc
  intro token row newEmail asked replaces claims isMinted isSub isBound
  obtain rfl : Token.signed annMove = token := by
    simpa [opensMove, accountAsks] using asked
  have found : changeEmailFromToken Scenario.deployment.auth (seconds 40)
      (play (signedIn ++ [asksToMove])).2.interviewers (.signed annMove) =
        some (ann, "b@x") := by
    decide +kernel
  obtain ⟨rfl, rfl⟩ :=
    Prod.mk.inj (Option.some.inj (found.symm.trans replaces.1))
  have known : .minted claims ∈ tokenHistory Scenario.deployment
      (play (signedIn ++ [asksToMove])).1 := isMinted
  simp only [history_asksToMove, signInEntries, List.append_nil,
    List.cons_append, List.nil_append, List.mem_cons, Entry.minted.injEq,
    reduceCtorEq, List.not_mem_nil, or_false, false_or] at known
  have other : some "a@x" ≠ some "b@x" := by decide
  rcases known with rfl | rfl | rfl | rfl
  · exact absurd isBound other
  · exact isBound.elim
  · exact isBound.elim
  · exact absurd isBound.1 other

end Scenario

open Scenario in
/-- The link that verifies the old address is refused after the move. -/
theorem links_refused_iff_verify :
    ¬AcceptedAs Scenario.deployment.auth (seconds 50)
      (play ((signedIn ++ [asksToMove]) ++ [opensMove])).2.interviewers
      .verify (.signed annVerify) := by
  have possible := possible_moves possible_signedIn
    (by decide +kernel) history_asksToMove
  have mailed : .minted annVerify ∈ tokenHistory Scenario.deployment
      (play (signedIn ++ [asksToMove])).1 := by
    rw [history_asksToMove]
    simp [signInEntries]
  let moved : Interviewer :=
    { ann with email := "b@x", emailVerifiedAt := some (seconds 40) }
  have isLink : ¬annVerify.isSession := by
    simp [Claims.isSession, annVerify, createVerifyToken, encode]
  have refused := (links_refused_iff (run_play _) possible).mpr
    severing_moves _ _ (List.prefix_refl _) (run_play _)
  exact refused (play (signedIn ++ [asksToMove])).1
    (servedAfter (signedIn ++ [asksToMove]) opensMove) [] (.signed annMove)
    rfl rfl ann (by decide +kernel) moved (by decide +kernel) rfl (by decide)
    annVerify mailed isLink rfl (seconds 50)
    (by decide +kernel) .verify

end AssessmentPlatform
