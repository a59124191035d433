import AssessmentPlatform.Grading.Requests

/-!
# Beginning a sitting

`/start` may come without a name, which `/submit` never does; the program of
`_get_or_start_attempt` for either.
-/

namespace AssessmentPlatform

open Interleaving

/-- `_get_or_start_attempt`, with the optional name of `/start`. -/
def startAttempt
    (platform : Platform) (invite : Invite) (email : String)
    (candidateName : Option String) (consent : Bool) (attemptId : Nat) :
    Prog (Except Refusal CandidateAttempt) := do
  match ← issue (.selectAttempt invite.id email) with
  | some existing =>
      match existing.candidateName, candidateName with
      | none, some name =>
          issue (.saveAttemptName existing.id name)
          issue .commit
          return .ok { existing with candidateName := some name }
      | _, _ => return .ok existing
  | none =>
      if !consent then return .error .consentRequired
      let some orgId := platform.inviteOrg invite
        | return .error .noOrganisation
      match ← claimAllowance platform orgId with
      | .error refusal => return .error refusal
      | .ok () =>
          let now ← issue .now
          let attempt : CandidateAttempt :=
            { id := attemptId
              inviteId := invite.id
              candidateEmail := email
              candidateName := candidateName
              startedAt := now
              consentAt := some now
              consentVersion := some platform.privacyPolicyVersion
              resultsNotifiedAt := none
              erasedAt := none
              updatedAt := now }
          let inserted ← issue (.insertAttempt attempt)
          if inserted then
            issue .commit
            return .ok attempt
          else
            issue .rollback
            let some raced ← issue (.selectAttempt invite.id email)
              | return .error .noOrganisation
            release platform orgId .sittings 1
            return .ok raced

/-- `/submit` begins a sitting as `/start` does, with the name it carries. -/
theorem getOrStartAttempt_eq_startAttempt
    (platform : Platform) (invite : Invite) (email candidateName : String)
    (consent : Bool) (attemptId : Nat) :
    getOrStartAttempt platform invite email candidateName consent attemptId =
      startAttempt platform invite email (some candidateName) consent
        attemptId := by
  unfold getOrStartAttempt startAttempt
  congr 1
  funext found
  cases found with
  | none => rfl
  | some existing => cases named : existing.candidateName <;> simp [named]

end AssessmentPlatform
