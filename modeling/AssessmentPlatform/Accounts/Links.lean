import AssessmentPlatform.Accounts.Lifecycle

/-!
# What a mailed link is bound to

A link that verifies or changes an address is bound to the address that the
account has, a reset link to its password.  No request binds a link again that
its account has left behind, except by moving the account to an address.
-/

namespace AssessmentPlatform.Accounts

open Relation Refusals

variable {settings : AuthSettings} {around : Surroundings}
variable {world next : World} {interviewers : List Interviewer}
variable {claims : Claims} {row : Interviewer} {use : TokenUse}
variable {now latest : Time} {bound : Nat}
variable {readdresses : Interviewer → String → Prop}

/-! ## Bindings -/

/-- The link is good for an account with this address and password. -/
def Claims.BoundTo (settings : AuthSettings) (claims : Claims)
    (email passwordHash : String) : Prop :=
  match claims.use with
  | .verify => claims.email = some email
  | .changeEmail =>
      claims.email = some email ∧
        ∃ newEmail, claims.newEmail = some newEmail ∧ newEmail ≠ ""
  | .reset => claims.pwd = some (settings.hashFingerprint passwordHash)
  | .access | .refresh => False

/-- Only reset links are bound to the password. -/
theorem Claims.BoundTo.anyPassword {email passwordHash : String}
    (isBound : claims.BoundTo settings email passwordHash)
    (notReset : claims.use ≠ .reset) (other : String) :
    claims.BoundTo settings email other := by
  unfold Claims.BoundTo at isBound ⊢
  cases isUse : claims.use with
  | reset => exact absurd isUse notReset
  | access | refresh => simp only [isUse] at isBound
  | verify | changeEmail =>
      simp only [isUse] at isBound ⊢
      exact isBound

theorem decode_signed :
    decode now (.signed claims) use = some claims ↔
      seconds claims.iat ≤ now ∧ now < seconds claims.exp ∧
        claims.use = use := by
  simp only [decode]
  by_cases outside : now < seconds claims.iat ∨ seconds claims.exp ≤ now
  · rw [if_pos outside]
    constructor
    · intro isSome
      cases isSome
    · intro valid
      rcases outside with early | late
      · exact absurd early (Int.not_lt.mpr valid.1)
      · exact absurd late (Int.not_le.mpr valid.2.1)
  · rw [if_neg outside]
    obtain ⟨started, running⟩ := not_or.mp outside
    by_cases isUse : claims.use = use
    · simp [isUse, Int.not_lt.mp started, Int.not_le.mp running]
    · simp [isUse]

theorem interviewerFromActionToken_signed :
    interviewerFromActionToken settings now interviewers (.signed claims)
        use = some row ↔
      decode now (.signed claims) use = some claims ∧
        subject interviewers claims = some row ∧
        ((use = .verify ∨ use = .changeEmail) →
          claims.email = some row.email) ∧
        (use = .reset → claims.pwd =
          some (settings.hashFingerprint row.passwordHash)) := by
  cases decoded : decode now (.signed claims) use with
  | none => simp [interviewerFromActionToken, decoded]
  | some found =>
      obtain rfl : claims = found :=
        Token.signed.inj (decode_eq_some decoded).1
      cases isSubject : subject interviewers claims with
      | none => simp [interviewerFromActionToken, decoded, isSubject]
      | some account =>
          simp only [interviewerFromActionToken, decoded, isSubject,
            Option.bind_eq_bind, Option.bind_some, Option.some.injEq,
            true_and]
          by_cases moved : (use = .verify ∨ use = .changeEmail) ∧
              claims.email ≠ some account.email
          · rw [if_pos moved]
            constructor
            · intro isSome
              cases isSome
            · rintro ⟨rfl, same, _⟩
              exact absurd (same moved.1) moved.2
          · rw [if_neg moved]
            by_cases changed : use = .reset ∧ claims.pwd ≠
                some (settings.hashFingerprint account.passwordHash)
            · rw [if_pos changed]
              constructor
              · intro isSome
                cases isSome
              · rintro ⟨rfl, _, same⟩
                exact absurd (same changed.1) changed.2
            · rw [if_neg changed, Option.some.injEq]
              constructor
              · rintro rfl
                exact ⟨rfl,
                  fun is => not_not.mp fun different => moved ⟨is, different⟩,
                  fun is =>
                    not_not.mp fun different => changed ⟨is, different⟩⟩
              · exact And.left

theorem changeEmailFromToken_signed {newEmail : String} :
    changeEmailFromToken settings now interviewers (.signed claims) =
        some (row, newEmail) ↔
      interviewerFromActionToken settings now interviewers (.signed claims)
          .changeEmail = some row ∧
        claims.newEmail = some newEmail ∧ newEmail ≠ "" := by
  cases isAccount : interviewerFromActionToken settings now interviewers
      (.signed claims) .changeEmail with
  | none => simp [changeEmailFromToken, isAccount]
  | some account =>
      obtain ⟨decoded, _⟩ := interviewerFromActionToken_signed.mp isAccount
      cases isNew : claims.newEmail with
      | none => simp [changeEmailFromToken, isAccount, decoded, isNew]
      | some address =>
          simp only [changeEmailFromToken, isAccount, decoded, isNew,
            Option.bind_eq_bind, Option.bind_some, Option.some.injEq]
          by_cases empty : address = ""
          · rw [if_pos empty]
            constructor
            · intro isSome
              cases isSome
            · rintro ⟨_, rfl, nonempty⟩
              exact absurd empty nonempty
          · rw [if_neg empty, Option.some.injEq, Prod.mk.injEq]
            constructor
            · rintro ⟨isRow, rfl⟩
              exact ⟨isRow, rfl, empty⟩
            · rintro ⟨isRow, isAddress, _⟩
              exact ⟨isRow, isAddress⟩

/-- A link that is let through has not expired, and is bound to its account as
it is. -/
theorem boundTo_of_accepted (isLink : ¬claims.isSession)
    (accepted : AcceptedAs settings now interviewers use (.signed claims)) :
    now < seconds claims.exp ∧ ∃ row ∈ interviewers, row.id = claims.sub ∧
      claims.BoundTo settings row.email row.passwordHash := by
  obtain ⟨found, isToken, isUse⟩ := use_of_accepted accepted
  obtain rfl := Token.signed.inj isToken
  have opened (account : Interviewer)
      (isAccount : interviewerFromActionToken settings now interviewers
        (.signed claims) use = some account)
      (binds : (use = .verify ∨ use = .changeEmail →
          claims.email = some account.email) →
        (use = .reset → claims.pwd =
          some (settings.hashFingerprint account.passwordHash)) →
        claims.BoundTo settings account.email account.passwordHash) :
      now < seconds claims.exp ∧ ∃ row ∈ interviewers, row.id = claims.sub ∧
        claims.BoundTo settings row.email row.passwordHash := by
    obtain ⟨decoded, isSubject, address, password⟩ :=
      interviewerFromActionToken_signed.mp isAccount
    exact ⟨(decode_signed.mp decoded).2.1, account,
      Rows.mem_of_fetch isSubject, Rows.key_of_fetch isSubject,
      binds address password⟩
  cases use with
  | access => exact absurd (Or.inl isUse) isLink
  | refresh => exact absurd (Or.inr isUse) isLink
  | verify =>
      obtain ⟨account, isAccount⟩ := accepted
      apply opened account isAccount
      intro address _
      simpa [Claims.BoundTo, isUse] using address
  | reset =>
      obtain ⟨account, isAccount⟩ := accepted
      apply opened account isAccount
      intro _ password
      simpa [Claims.BoundTo, isUse] using password
  | changeEmail =>
      obtain ⟨⟨account, newEmail⟩, isBoth⟩ := accepted
      obtain ⟨isAccount, isNew, nonempty⟩ :=
        changeEmailFromToken_signed.mp isBoth
      apply opened account isAccount
      intro address _
      simpa [Claims.BoundTo, isUse, isNew, nonempty] using address

/-- A link that is bound to its account is let through until it expires. -/
theorem accepted_of_boundTo
    (keyed : Rows.Keyed Interviewer.id interviewers)
    (member : row ∈ interviewers) (isSub : row.id = claims.sub)
    (started : seconds claims.iat ≤ now) (running : now < seconds claims.exp)
    (isBound : claims.BoundTo settings row.email row.passwordHash) :
    AcceptedAs settings now interviewers claims.use (.signed claims) := by
  have isSubject : subject interviewers claims = some row :=
    keyed.fetch_eq member isSub
  have decoded : decode now (.signed claims) claims.use = some claims :=
    decode_signed.mpr ⟨started, running, rfl⟩
  unfold Claims.BoundTo at isBound
  cases isUse : claims.use with
  | access | refresh => simp only [isUse] at isBound
  | verify =>
      simp only [isUse] at isBound decoded
      exact ⟨row, interviewerFromActionToken_signed.mpr
        ⟨decoded, isSubject, fun _ => isBound, (nomatch ·)⟩⟩
  | reset =>
      simp only [isUse] at isBound decoded
      exact ⟨row, interviewerFromActionToken_signed.mpr
        ⟨decoded, isSubject, by simp, fun _ => isBound⟩⟩
  | changeEmail =>
      simp only [isUse] at isBound decoded
      obtain ⟨address, newEmail, isNew, nonempty⟩ := isBound
      exact ⟨(row, newEmail), changeEmailFromToken_signed.mpr
        ⟨interviewerFromActionToken_signed.mpr
          ⟨decoded, isSubject, fun _ => address, (nomatch ·)⟩,
        isNew, nonempty⟩⟩

/-! ## What requests do to bindings -/

/-- What the history knows of the accounts and the links, by an instant and
below a key. -/
structure Recorded (settings : AuthSettings) (latest : Time) (bound : Nat)
    (world : World) : Prop where
  password : ∀ row ∈ world.interviewers,
    passwordEntry settings row ∈ world.history
  account : ∀ row ∈ world.interviewers, row.id < bound
  subject : ∀ claims, .minted claims ∈ world.history → claims.sub < bound
  minted : ∀ claims, .minted claims ∈ world.history →
    seconds claims.iat ≤ latest
  reset : ∀ claims, .minted claims ∈ world.history → claims.use = .reset →
    ∃ interviewer fingerprint, claims.pwd = some fingerprint ∧
      .passwordSet interviewer fingerprint ∈ world.history

theorem Recorded.empty : Recorded settings latest bound ⟨[], []⟩ where
  password := by simp
  account := by simp
  subject := by simp
  minted := by simp
  reset := by simp

/-- A token is minted at a whole second, not after the request. -/
theorem seconds_floor_le (now : Time) : seconds (now / seconds 1) ≤ now := by
  unfold seconds
  exact Int.ediv_mul_le now (by decide)

theorem Recorded.move (recorded : Recorded settings latest bound world)
    (reached : around.now ≤ latest)
    (moved : Move settings around readdresses world next) :
    Recorded settings latest bound next := by
  cases moved with
  | @mint row claims member isSub _ isNow isReset =>
      have isNew : Entry.minted claims ∈
          world.history ++ [.minted claims] := by simp
      have cases' (found : Claims)
          (isMinted : Entry.minted found ∈
            world.history ++ [.minted claims]) :
          .minted found ∈ world.history ∨ found = claims := by
        simpa using isMinted
      exact {
        password := fun other isOther =>
          List.mem_append_left _ (recorded.password other isOther)
        account := recorded.account
        subject := by
          intro found isMinted
          rcases cases' found isMinted with earlier | rfl
          · exact recorded.subject found earlier
          · exact isSub ▸ recorded.account row member
        minted := by
          intro found isMinted
          rcases cases' found isMinted with earlier | rfl
          · exact recorded.minted found earlier
          · rw [isNow]
            exact Int.le_trans (seconds_floor_le around.now) reached
        reset := by
          intro found isMinted isUse
          rcases cases' found isMinted with earlier | rfl
          · obtain ⟨interviewer, fingerprint, isBound, isSet⟩ :=
              recorded.reset found earlier isUse
            exact ⟨interviewer, fingerprint, isBound,
              List.mem_append_left _ isSet⟩
          · exact ⟨row.id, _, isReset isUse,
              List.mem_append_left _ (recorded.password row member)⟩ }
  | @edit row saved member sameId sameHash _ _ =>
      exact { recorded with
        password := by
          intro other isOther
          rcases Rows.mem_save isOther with rfl | ⟨kept, _⟩
          · rw [passwordEntry, sameId, sameHash]
            exact recorded.password row member
          · exact recorded.password other kept
        account := by
          intro other isOther
          rcases Rows.mem_save isOther with rfl | ⟨kept, _⟩
          · exact sameId ▸ recorded.account row member
          · exact recorded.account other kept }
  | @setPassword row saved link member sameId _ _ _ _ =>
      have earlier (found : Claims)
          (isMinted : Entry.minted found ∈
            world.history ++
              link.toList.map (fun claims => .resetBy (.signed claims)) ++
              [passwordEntry settings saved]) :
          .minted found ∈ world.history := by
        simpa [passwordEntry] using isMinted
      exact {
        password := by
          intro other isOther
          rcases Rows.mem_save isOther with rfl | ⟨kept, _⟩
          · simp
          · simp [recorded.password other kept]
        account := by
          intro other isOther
          rcases Rows.mem_save isOther with rfl | ⟨kept, _⟩
          · exact sameId ▸ recorded.account row member
          · exact recorded.account other kept
        subject := fun found isMinted =>
          recorded.subject found (earlier found isMinted)
        minted := fun found isMinted =>
          recorded.minted found (earlier found isMinted)
        reset := by
          intro found isMinted isUse
          obtain ⟨interviewer, fingerprint, isBound, isSet⟩ :=
            recorded.reset found (earlier found isMinted) isUse
          exact ⟨interviewer, fingerprint, isBound, by simp [isSet]⟩ }

/-- The link is bound to no account. -/
def Unbound (settings : AuthSettings) (claims : Claims)
    (interviewers : List Interviewer) : Prop :=
  ∀ row ∈ interviewers, row.id = claims.sub →
    ¬claims.BoundTo settings row.email row.passwordHash

/-- A link stays unbound, unless its account moves to its address. -/
theorem Unbound.move (unbound : Unbound settings claims world.interviewers)
    (recorded : Recorded settings latest bound world)
    (isMinted : .minted claims ∈ world.history)
    (moved : Move settings around readdresses world next)
    (severed : ∀ row newEmail, readdresses row newEmail →
      row.id = claims.sub →
        ¬claims.BoundTo settings newEmail row.passwordHash) :
    Unbound settings claims next.interviewers := by
  cases moved with
  | mint => exact unbound
  | @edit row saved member sameId sameHash _ address =>
      intro other isOther isSub isBound
      rcases Rows.mem_save isOther with rfl | ⟨kept, _⟩
      · rw [sameHash] at isBound
        rw [sameId] at isSub
        rcases address with same | readdressed
        · rw [same] at isBound
          exact unbound row member isSub isBound
        · exact severed row _ readdressed isSub isBound
      · exact unbound other kept isSub isBound
  | @setPassword row saved link member sameId _ sameEmail fresh _ =>
      intro other isOther isSub isBound
      rcases Rows.mem_save isOther with rfl | ⟨kept, _⟩
      · rw [sameId] at isSub
        by_cases isReset : claims.use = .reset
        · obtain ⟨interviewer, fingerprint, isPwd, isSet⟩ :=
            recorded.reset claims isMinted isReset
          have isNew : claims.pwd =
              some (settings.hashFingerprint other.passwordHash) := by
            simpa only [Claims.BoundTo, isReset] using isBound
          exact fresh interviewer fingerprint isSet
            (Option.some.inj (isNew.symm.trans isPwd))
        · apply unbound row member isSub
          rw [← sameEmail]
          exact isBound.anyPassword isReset row.passwordHash
      · exact unbound other kept isSub isBound

theorem Recorded.moves (recorded : Recorded settings latest bound world)
    (reached : around.now ≤ latest)
    (moved : ReflTransGen (Move settings around readdresses) world next) :
    Recorded settings latest bound next := by
  induction moved with
  | refl => exact recorded
  | tail _ moved hypothesis => exact hypothesis.move reached moved

/-- The history only grows. -/
theorem Move.mem_history {entry : Entry}
    (moved : Move settings around readdresses world next)
    (member : entry ∈ world.history) : entry ∈ next.history := by
  cases moved with
  | mint => exact List.mem_append_left _ member
  | edit => exact member
  | setPassword => simp [member]

theorem Unbound.moves (unbound : Unbound settings claims world.interviewers)
    (recorded : Recorded settings latest bound world)
    (reached : around.now ≤ latest)
    (isMinted : .minted claims ∈ world.history)
    (moved : ReflTransGen (Move settings around readdresses) world next)
    (severed : ∀ row newEmail, readdresses row newEmail →
      row.id = claims.sub →
        ¬claims.BoundTo settings newEmail row.passwordHash) :
    Unbound settings claims next.interviewers := by
  suffices both : .minted claims ∈ next.history ∧
      Unbound settings claims next.interviewers from both.2
  induction moved with
  | refl => exact ⟨isMinted, unbound⟩
  | tail earlier moved hypothesis =>
      obtain ⟨known, stays⟩ := hypothesis
      exact ⟨moved.mem_history known,
        stays.move (recorded.moves reached earlier) known moved severed⟩

theorem Recorded.mono {later : Nat}
    (recorded : Recorded settings latest bound world) (le : bound ≤ later) :
    Recorded settings latest later world :=
  { recorded with
    account := fun row member =>
      Nat.lt_of_lt_of_le (recorded.account row member) le
    subject := fun found isMinted =>
      Nat.lt_of_lt_of_le (recorded.subject found isMinted) le }

/-- An account that is new, with the link that verifies its address. -/
theorem Recorded.register {history : List Entry}
    (recorded : Recorded settings latest bound ⟨interviewers, history⟩)
    (reached : now ≤ latest) (isNew : row.id = bound) :
    Recorded settings latest (bound + 1)
      ⟨interviewers ++ [row], history ++
        [passwordEntry settings row, .minted (createVerifyToken now row)]⟩ := by
  have older (found : Claims)
      (isMinted : Entry.minted found ∈ history ++
        [passwordEntry settings row, .minted (createVerifyToken now row)]) :
      .minted found ∈ history ∨ found = createVerifyToken now row := by
    simpa [passwordEntry] using isMinted
  exact {
    password := by
      intro other isOther
      rcases List.mem_append.mp isOther with old | isLast
      · exact List.mem_append_left _ (recorded.password other old)
      · obtain rfl := List.mem_singleton.mp isLast
        simp
    account := by
      intro other isOther
      rcases List.mem_append.mp isOther with old | isLast
      · exact Nat.lt_succ_of_lt (recorded.account other old)
      · obtain rfl := List.mem_singleton.mp isLast
        exact isNew ▸ Nat.lt_succ_self _
    subject := by
      intro found isMinted
      rcases older found isMinted with earlier | rfl
      · exact Nat.lt_succ_of_lt (recorded.subject found earlier)
      · exact isNew ▸ Nat.lt_succ_self _
    minted := by
      intro found isMinted
      rcases older found isMinted with earlier | rfl
      · exact recorded.minted found earlier
      · exact Int.le_trans (seconds_floor_le now) reached
    reset := by
      intro found isMinted isUse
      rcases older found isMinted with earlier | rfl
      · obtain ⟨interviewer, fingerprint, isBound, isSet⟩ :=
          recorded.reset found earlier isUse
        exact ⟨interviewer, fingerprint, isBound,
          List.mem_append_left _ isSet⟩
      · cases isUse }

/-- Accounts that go take nothing from the history. -/
theorem Recorded.fewer {history : List Entry} {kept : List Interviewer}
    (recorded : Recorded settings latest bound ⟨interviewers, history⟩)
    (subset : kept ⊆ interviewers) :
    Recorded settings latest bound ⟨kept, history⟩ :=
  { recorded with
    password := fun row member => recorded.password row (subset member)
    account := fun row member => recorded.account row (subset member) }

/-! ## Changes of address -/

theorem confirmEmailChange_eq_ok {token : Token} {after : List Interviewer}
    {entries : List Entry}
    (done : confirmEmailChange settings around interviewers token =
      .ok (after, entries)) :
    ∃ row newEmail,
      changeEmailFromToken settings around.now interviewers token =
          some (row, newEmail) ∧
        (∀ taken, byEmail interviewers newEmail = some taken →
          taken.id = row.id) ∧
        after = confirmEmailChange.moved around interviewers row newEmail := by
  unfold confirmEmailChange at done
  cases found : changeEmailFromToken settings around.now interviewers
      token with
  | none => simp [found] at done
  | some both =>
      obtain ⟨row, newEmail⟩ := both
      simp only [found] at done
      refine ⟨row, newEmail, rfl, ?_⟩
      cases isTaken : byEmail interviewers newEmail with
      | none =>
          simp only [isTaken, pure_eq_ok, Prod.mk.injEq] at done
          exact ⟨by simp, done.1.symm⟩
      | some taken =>
          simp only [isTaken, ite_throw_eq_ok, pure_eq_ok,
            Prod.mk.injEq] at done
          obtain ⟨free, isAfter, _⟩ := done
          constructor
          · intro other isOther
            obtain rfl := Option.some.inj isOther
            exact not_not.mp free
          · exact isAfter.symm

theorem Replaces.done {token : Token} {newEmail : String}
    (replaces : Replaces settings around interviewers token row newEmail) :
    confirmEmailChange settings around interviewers token =
      .ok (confirmEmailChange.moved around interviewers row newEmail, []) := by
  obtain ⟨found, _, free⟩ := replaces
  unfold confirmEmailChange
  simp only [found]
  cases isTaken : byEmail interviewers newEmail with
  | none => rfl
  | some taken =>
      simp only [free taken isTaken, ne_eq, not_true_eq_false, if_false]
      rfl

theorem Replaces.member {token : Token} {newEmail : String}
    (replaces : Replaces settings around interviewers token row newEmail) :
    row ∈ interviewers := by
  obtain ⟨_, _, _, member, _⟩ := interviewerFromActionToken_eq_some
    (changeEmailFromToken_eq_some replaces.1)
  exact member

/-- An account that has another address after the confirmation was moved by
it. -/
theorem replaces_of_moved {token : Token} {after : List Interviewer}
    {entries : List Entry} {saved : Interviewer}
    (keyed : Rows.Keyed Interviewer.id interviewers)
    (done : confirmEmailChange settings around interviewers token =
      .ok (after, entries))
    (member : row ∈ interviewers) (isSaved : saved ∈ after)
    (same : saved.id = row.id) (moved : saved.email ≠ row.email) :
    ∃ newEmail, Replaces settings around interviewers token row newEmail ∧
      after = confirmEmailChange.moved around interviewers row newEmail := by
  obtain ⟨account, newEmail, found, free, rfl⟩ :=
    confirmEmailChange_eq_ok done
  obtain ⟨_, _, _, isAccount, _⟩ := interviewerFromActionToken_eq_some
    (changeEmailFromToken_eq_some found)
  rcases Rows.mem_save isSaved with rfl | ⟨kept, _⟩
  · obtain rfl := keyed.eq isAccount member same
    exact ⟨newEmail, ⟨found, moved, free⟩, rfl⟩
  · exact absurd (congrArg _ (keyed.eq kept member same)) moved

/-- The addresses stay apart: the one that the account takes was free. -/
theorem Replaces.keyed {token : Token} {newEmail : String}
    (replaces : Replaces settings around interviewers token row newEmail)
    (ids : Rows.Keyed Interviewer.id interviewers)
    (emails : Rows.Keyed Interviewer.email interviewers) :
    Rows.Keyed Interviewer.email
      (confirmEmailChange.moved around interviewers row newEmail) := by
  apply ids.save_free emails
  intro other isOther sameEmail
  have isTaken : byEmail interviewers newEmail = some other :=
    emails.find_eq isOther (by simpa using sameEmail) (by
      intro found isFound
      exact (beq_iff_eq.mp isFound).trans sameEmail.symm)
  exact replaces.2.2 other isTaken

end AssessmentPlatform.Accounts
