import AssessmentPlatform.Accounts.Sessions
import Mathlib.Logic.Relation

/-!
# The life of sessions and links

A request mints tokens, edits an account or sets a password, and nothing else.
Only confirming a change of address moves an account's address.
A password that is set raises the version that every session token of the
account must carry, and changes the fingerprint that every reset link of the
account must carry.
-/

namespace AssessmentPlatform.Accounts

open Relation Refusals

variable {settings : AuthSettings} {around : Surroundings}
variable {world next : World} {interviewers : List Interviewer}

/-! ## What a request can do -/

/-- The token opens a session. -/
def Claims.isSession (claims : Claims) : Prop :=
  claims.use = .access ∨ claims.use = .refresh

/-- The account that an opened link moves, and the address it moves to. -/
def Replaces (settings : AuthSettings) (around : Surroundings)
    (interviewers : List Interviewer) (token : Token) (row : Interviewer)
    (newEmail : String) : Prop :=
  changeEmailFromToken settings around.now interviewers token =
      some (row, newEmail) ∧
    newEmail ≠ row.email ∧
    ∀ taken, byEmail interviewers newEmail = some taken → taken.id = row.id

/-- The accounts that a request moves to other addresses. -/
def Request.readdresses (settings : AuthSettings) (around : Surroundings)
    (interviewers : List Interviewer) :
    Request → Interviewer → String → Prop
  | .confirmEmailChange token => Replaces settings around interviewers token
  | _ => fun _ _ => False

/-- The changes that requests are made of. -/
inductive Move (settings : AuthSettings) (around : Surroundings)
    (readdresses : Interviewer → String → Prop) (world : World) :
    World → Prop where
  | mint {row : Interviewer} {claims : Claims} :
      row ∈ world.interviewers → claims.sub = row.id →
      (claims.isSession → claims.ver = some row.tokenVersion) →
      claims.iat = around.now / seconds 1 →
      (claims.use = .reset → claims.pwd =
        some (settings.hashFingerprint row.passwordHash)) →
      Move settings around readdresses world
        ⟨world.interviewers, world.history ++ [.minted claims]⟩
  | edit {row saved : Interviewer} :
      row ∈ world.interviewers → saved.id = row.id →
      saved.passwordHash = row.passwordHash →
      saved.tokenVersion = row.tokenVersion →
      (saved.email = row.email ∨ readdresses row saved.email) →
      Move settings around readdresses world
        ⟨Rows.save Interviewer.id saved world.interviewers, world.history⟩
  | setPassword {row saved : Interviewer} {link : Option Claims} :
      row ∈ world.interviewers → saved.id = row.id →
      saved.tokenVersion = row.tokenVersion + 1 →
      saved.email = row.email →
      (∀ interviewer fingerprint,
        .passwordSet interviewer fingerprint ∈ world.history →
          settings.hashFingerprint saved.passwordHash ≠ fingerprint) →
      (∀ claims ∈ link, claims.sub = row.id ∧
        claims.pwd = some (settings.hashFingerprint row.passwordHash)) →
      Move settings around readdresses world
        ⟨Rows.save Interviewer.id saved world.interviewers,
          world.history ++
            link.toList.map (fun claims => .resetBy (.signed claims)) ++
            [passwordEntry settings saved]⟩

variable {readdresses : Interviewer → String → Prop}

/-- Two tokens at once, for one account as it is. -/
theorem moves_issueSession {row : Interviewer}
    (member : row ∈ world.interviewers) :
    ReflTransGen (Move settings around readdresses) world
      ⟨world.interviewers,
        world.history ++ issueSession settings around row⟩ := by
  let refreshed : World :=
    ⟨world.interviewers, world.history ++
      [.minted (createRefreshToken settings around.now row)]⟩
  have first : Move settings around readdresses world refreshed :=
    Move.mint member rfl (fun _ => rfl) rfl (nomatch ·)
  have second : Move settings around readdresses refreshed
      ⟨world.interviewers, refreshed.history ++
        [.minted (createAccessToken settings around.now row)]⟩ :=
    Move.mint member rfl (fun _ => rfl) rfl (nomatch ·)
  simp only [refreshed, List.append_assoc, List.cons_append,
    List.nil_append] at second
  exact (ReflTransGen.single first).tail second

/-- A password set from within a session. -/
theorem Move.change {row saved : Interviewer}
    (member : row ∈ world.interviewers) (sameId : saved.id = row.id)
    (raised : saved.tokenVersion = row.tokenVersion + 1)
    (sameEmail : saved.email = row.email)
    (fresh : ∀ interviewer fingerprint,
      .passwordSet interviewer fingerprint ∈ world.history →
        settings.hashFingerprint saved.passwordHash ≠ fingerprint) :
    Move settings around readdresses world
      ⟨Rows.save Interviewer.id saved world.interviewers,
        world.history ++ [passwordEntry settings saved]⟩ := by
  have moved := @Move.setPassword settings around readdresses world row saved
    none member sameId raised sameEmail fresh (by simp)
  simpa using moved

/-- A password set through a link, which is bound to the one before. -/
theorem Move.reset {row saved : Interviewer} {claims : Claims}
    (member : row ∈ world.interviewers) (sameId : saved.id = row.id)
    (raised : saved.tokenVersion = row.tokenVersion + 1)
    (sameEmail : saved.email = row.email)
    (fresh : ∀ interviewer fingerprint,
      .passwordSet interviewer fingerprint ∈ world.history →
        settings.hashFingerprint saved.passwordHash ≠ fingerprint)
    (isSub : claims.sub = row.id)
    (bound : claims.pwd =
      some (settings.hashFingerprint row.passwordHash)) :
    Move settings around readdresses world
      ⟨Rows.save Interviewer.id saved world.interviewers,
        world.history ++
          [.resetBy (.signed claims), passwordEntry settings saved]⟩ := by
  have moved := @Move.setPassword settings around readdresses world row saved
    (some claims) member sameId raised sameEmail fresh
    (by simpa using ⟨isSub, bound⟩)
  simpa using moved

theorem mem_of_getCurrentInterviewer {token : Option Token} {now : Time}
    {row : Interviewer}
    (accepted : getCurrentInterviewer now interviewers token = .ok row) :
    row ∈ interviewers := by
  cases token with
  | none => simp [getCurrentInterviewer] at accepted
  | some presented =>
      simp only [getCurrentInterviewer] at accepted
      split at accepted
      · simp at accepted
      · next found isFound =>
          have same : found = row := by simpa using accepted
          obtain ⟨_, _, _, member, _⟩ := sessionInterviewer_eq_some isFound
          exact same ▸ member

theorem mem_of_byEmail {email : String} {row : Interviewer}
    (found : byEmail interviewers email = some row) : row ∈ interviewers :=
  List.mem_of_find?_eq_some found

/-- Where a handler succeeds, it makes such changes. -/
def Handled.Moves (settings : AuthSettings) (around : Surroundings)
    (readdresses : Interviewer → String → Prop) (world : World)
    (handled : Handled) : Prop :=
  ∀ interviewers entries, handled = .ok (interviewers, entries) →
    ReflTransGen (Move settings around readdresses) world
      ⟨interviewers, world.history ++ entries⟩

section Handlers

theorem moves_throw (refused : HTTPException) :
    Handled.Moves settings around readdresses world (throw refused) := by
  intro interviewers entries handled
  exact absurd handled throw_ne_ok

theorem moves_pure {interviewers : List Interviewer} {entries : List Entry}
    (moved : ReflTransGen (Move settings around readdresses) world
      ⟨interviewers, world.history ++ entries⟩) :
    Handled.Moves settings around readdresses world
      (pure (interviewers, entries)) := by
  intro others found handled
  obtain ⟨rfl, rfl⟩ := Prod.mk.inj (pure_eq_ok.mp handled)
  exact moved

theorem moves_quiet :
    Handled.Moves settings around readdresses world
      (pure (world.interviewers, [])) := by
  apply moves_pure
  rw [List.append_nil]

theorem moves_bind {Value : Type} {first : Except HTTPException Value}
    {next : Value → Handled}
    (moved : ∀ value, first = .ok value →
      (next value).Moves settings around readdresses world) :
    Handled.Moves settings around readdresses world (first >>= next) := by
  intro interviewers entries handled
  obtain ⟨value, isValue, rest⟩ := bind_eq_ok.mp handled
  exact moved value isValue interviewers entries rest

theorem moves_mint {row : Interviewer} {claims : Claims}
    (member : row ∈ world.interviewers) (isSub : claims.sub = row.id)
    (isCurrent : claims.isSession → claims.ver = some row.tokenVersion)
    (isNow : claims.iat = around.now / seconds 1)
    (bound : claims.use = .reset → claims.pwd =
      some (settings.hashFingerprint row.passwordHash)) :
    Handled.Moves settings around readdresses world
      (pure (world.interviewers, [.minted claims])) :=
  moves_pure (.single (.mint member isSub isCurrent isNow bound))

theorem moves_edit {row saved : Interviewer}
    (member : row ∈ world.interviewers) (sameId : saved.id = row.id)
    (sameHash : saved.passwordHash = row.passwordHash)
    (sameVersion : saved.tokenVersion = row.tokenVersion)
    (address : saved.email = row.email ∨ readdresses row saved.email) :
    Handled.Moves settings around readdresses world
      (pure (Rows.save Interviewer.id saved world.interviewers, [])) := by
  apply moves_pure
  rw [List.append_nil]
  exact .single (.edit member sameId sameHash sameVersion address)

/-- No fingerprint of the history is that of a password about to be set. -/
def FreshPassword (settings : AuthSettings) (around : Surroundings)
    (world : World) (password : String) : Prop :=
  ∀ interviewer fingerprint,
    .passwordSet interviewer fingerprint ∈ world.history →
      settings.hashFingerprint (settings.hashpw password around.salt) ≠
        fingerprint

theorem login_moves (email password : String) :
    (login settings around world.interviewers email password).Moves
      settings around readdresses world := by
  apply moves_bind
  intro _ _
  cases found : byEmail world.interviewers (settings.normalizeEmail email) with
  | none => exact moves_throw _
  | some row =>
      dsimp only
      by_cases matching : settings.checkpw password row.passwordHash
      · rw [if_pos matching]
        exact moves_pure (moves_issueSession (mem_of_byEmail found))
      · rw [if_neg matching]
        exact moves_throw _

theorem refreshSession_moves (cookie : Option Token) :
    (refreshSession settings around world.interviewers cookie).Moves
      settings around readdresses world := by
  unfold refreshSession
  cases found :
      interviewerFromRefresh around.now world.interviewers cookie with
  | none => exact moves_throw _
  | some row =>
      obtain ⟨token, _, accepted⟩ := Option.bind_eq_some_iff.mp found
      obtain ⟨_, _, _, member, _⟩ := sessionInterviewer_eq_some accepted
      exact moves_pure (moves_issueSession member)

theorem forgotPassword_moves (email : String) :
    (forgotPassword settings around world.interviewers email).Moves
      settings around readdresses world := by
  apply moves_bind
  intro _ _
  cases found : byEmail world.interviewers (settings.normalizeEmail email) with
  | none => exact moves_quiet
  | some row =>
      apply moves_mint (mem_of_byEmail found) rfl
      · simp [Claims.isSession, createResetToken, encode]
      · rfl
      · intro _
        rfl

theorem resetPassword_moves {token : Token} {password : String}
    (fresh : FreshPassword settings around world password) :
    (resetPassword settings around world.interviewers token password).Moves
      settings around readdresses world := by
  apply moves_bind
  intro _ _
  cases found : interviewerFromActionToken settings around.now
      world.interviewers token .reset with
  | none => exact moves_throw _
  | some row =>
      obtain ⟨claims, rfl, _, member, isSub, bound⟩ :=
        interviewerFromActionToken_eq_some found
      apply moves_bind
      intro _ _
      apply moves_pure
      exact .single (.reset member rfl rfl rfl fresh isSub.symm (bound rfl))

theorem changePassword_moves {bearer : Option Token}
    {currentPassword password : String}
    (fresh : FreshPassword settings around world password) :
    (changePassword settings around world.interviewers bearer currentPassword
      password).Moves settings around readdresses world := by
  apply moves_bind
  intro row accepted
  have member := mem_of_getCurrentInterviewer accepted
  apply moves_bind
  intro _ _
  by_cases wrong : !settings.checkpw currentPassword row.passwordHash
  · simp only [wrong, if_true]
    exact moves_throw _
  · simp only [wrong]
    apply moves_bind
    intro _ _
    apply moves_pure
    let saved := setPassword settings around row password
    let changed : World :=
      ⟨Rows.save Interviewer.id saved world.interviewers,
        world.history ++ [passwordEntry settings saved]⟩
    have moved : Move settings around readdresses world changed :=
      .change member rfl rfl rfl fresh
    have isSaved : saved ∈ changed.interviewers := by
      apply Rows.mem_updateWhere.mpr
      exact Or.inl ⟨row, member, by simp [saved, setPassword], rfl⟩
    have issued : ReflTransGen (Move settings around readdresses) changed
        ⟨changed.interviewers,
          changed.history ++ issueSession settings around saved⟩ :=
      moves_issueSession isSaved
    simpa [changed] using (ReflTransGen.single moved).trans issued

theorem verifyEmail_moves (token : Token) :
    (verifyEmail settings around world.interviewers token).Moves
      settings around readdresses world := by
  unfold verifyEmail
  cases found : interviewerFromActionToken settings around.now
      world.interviewers token .verify with
  | none => exact moves_throw _
  | some row =>
      obtain ⟨_, _, _, member, _⟩ := interviewerFromActionToken_eq_some found
      dsimp only
      by_cases unverified : row.emailVerifiedAt.isNone
      · rw [if_pos unverified]
        exact moves_edit member rfl rfl rfl (Or.inl rfl)
      · rw [if_neg unverified]
        exact moves_quiet

theorem resendVerification_moves (bearer : Option Token) :
    (resendVerification around world.interviewers bearer).Moves
      settings around readdresses world := by
  apply moves_bind
  intro row accepted
  apply moves_bind
  intro _ _
  by_cases verified : row.emailVerifiedAt.isSome
  · rw [if_pos verified]
    exact moves_quiet
  · rw [if_neg verified]
    apply moves_mint (mem_of_getCurrentInterviewer accepted) rfl
    · simp [Claims.isSession, createVerifyToken, encode]
    · rfl
    · exact (nomatch ·)

/-- A new name leaves the rest of the account as it is. -/
theorem rename_eq_ok {row renamed : Interviewer} {name : Option String}
    (done : rename settings row name = .ok renamed) :
    renamed.id = row.id ∧ renamed.passwordHash = row.passwordHash ∧
      renamed.tokenVersion = row.tokenVersion ∧
      renamed.email = row.email := by
  cases name with
  | none =>
      have same : row = renamed := by simpa [rename] using done
      simp [same]
  | some given =>
      simp only [rename] at done
      by_cases empty : settings.strip given = ""
      · simp [empty] at done
      · rw [if_neg empty] at done
        obtain rfl := pure_eq_ok.mp done
        exact ⟨rfl, rfl, rfl, rfl⟩

/-- Starting a change of address mints one link for the account, or nothing. -/
theorem startEmailChange_eq_ok {row : Interviewer}
    {email password : Option String} {entries : List Entry}
    (done : startEmailChange settings around world.interviewers row email
      password = .ok entries) :
    entries = [] ∨ ∃ newEmail,
      entries = [.minted (createChangeEmailToken around.now row newEmail)] := by
  unfold startEmailChange at done
  split at done
  · exact Or.inl (pure_eq_ok.mp done).symm
  · split at done
    · exact Or.inl (pure_eq_ok.mp done).symm
    · obtain ⟨_, done⟩ := ite_throw_eq_ok.mp done
      obtain ⟨_, _, done⟩ := bind_eq_ok.mp done
      obtain ⟨_, done⟩ := ite_throw_eq_ok.mp done
      exact Or.inr ⟨_, (pure_eq_ok.mp done).symm⟩

theorem updateMe_moves {bearer : Option Token}
    {name email password : Option String} :
    (updateMe settings around world.interviewers bearer name email
      password).Moves settings around readdresses world := by
  apply moves_bind
  intro row accepted
  apply moves_bind
  intro renamed isRenamed
  apply moves_bind
  intro entries isMailed
  have member := mem_of_getCurrentInterviewer accepted
  obtain ⟨sameId, sameHash, sameVersion, sameEmail⟩ :=
    rename_eq_ok isRenamed
  let edited : World :=
    ⟨Rows.save Interviewer.id renamed world.interviewers, world.history⟩
  have moved : Move settings around readdresses world edited :=
    .edit member sameId sameHash sameVersion (Or.inl sameEmail)
  apply moves_pure
  rcases startEmailChange_eq_ok isMailed with rfl | ⟨newEmail, rfl⟩
  · simpa [edited] using ReflTransGen.single moved
  · have isSaved : renamed ∈ edited.interviewers := by
      apply Rows.mem_updateWhere.mpr
      exact Or.inl ⟨row, member, by simp [sameId], rfl⟩
    apply (ReflTransGen.single moved).tail
    apply Move.mint isSaved rfl
    · simp [Claims.isSession, createChangeEmailToken, encode]
    · rfl
    · exact (nomatch ·)

/-- The account that a change of address finds. -/
theorem changeEmailFromToken_eq_some {now : Time} {token : Token}
    {row : Interviewer} {newEmail : String}
    (found : changeEmailFromToken settings now interviewers token =
      some (row, newEmail)) :
    interviewerFromActionToken settings now interviewers token
      .changeEmail = some row := by
  simp only [changeEmailFromToken, Option.bind_eq_bind,
    Option.bind_eq_some_iff] at found
  obtain ⟨account, isAccount, claims, _, address, _, applies⟩ := found
  by_cases empty : address = ""
  · simp [empty] at applies
  · rw [if_neg empty] at applies
    obtain rfl : account = row :=
      congrArg Prod.fst (Option.some.inj applies)
    exact isAccount

theorem confirmEmailChange_moves (token : Token) :
    (confirmEmailChange settings around world.interviewers token).Moves
      settings around
      (Replaces settings around world.interviewers token) world := by
  unfold confirmEmailChange
  cases found : changeEmailFromToken settings around.now world.interviewers
      token with
  | none => exact moves_throw _
  | some both =>
      obtain ⟨row, newEmail⟩ := both
      obtain ⟨_, _, _, member, _⟩ := interviewerFromActionToken_eq_some
        (changeEmailFromToken_eq_some found)
      have moved (free : ∀ taken,
          byEmail world.interviewers newEmail = some taken →
            taken.id = row.id) :
          Handled.Moves settings around
            (Replaces settings around world.interviewers token) world
            (pure (confirmEmailChange.moved around world.interviewers row
              newEmail, [])) := by
        have address : newEmail = row.email ∨
            Replaces settings around world.interviewers token row
              newEmail := by
          by_cases same : newEmail = row.email
          · exact Or.inl same
          · exact Or.inr ⟨found, same, free⟩
        exact moves_edit member rfl rfl rfl address
      dsimp only
      cases isTaken : byEmail world.interviewers newEmail with
      | none =>
          apply moved
          simp [isTaken]
      | some taken =>
          dsimp only
          by_cases other : taken.id ≠ row.id
          · rw [if_pos other]
            exact moves_throw _
          · rw [if_neg other]
            apply moved
            simpa [isTaken] using other

/-- Every request makes such changes. -/
theorem handle_moves {request : Request}
    (possible : world.Possible settings around request) :
    (request.handle settings around world.interviewers).Moves settings around
      (request.readdresses settings around world.interviewers) world := by
  cases request with
  | login email password => exact login_moves email password
  | refreshSession cookie => exact refreshSession_moves cookie
  | logout => exact moves_quiet
  | forgotPassword email => exact forgotPassword_moves email
  | resetPassword token password =>
      exact resetPassword_moves (possible.2 password rfl)
  | changePassword bearer currentPassword password =>
      exact changePassword_moves (possible.2 password rfl)
  | verifyEmail token => exact verifyEmail_moves token
  | resendVerification bearer => exact resendVerification_moves bearer
  | updateMe bearer name email password => exact updateMe_moves
  | confirmEmailChange token => exact confirmEmailChange_moves token
  | me bearer => exact moves_bind fun _ _ => moves_quiet

theorem serve_moves {request : Request}
    (possible : world.Possible settings around request) :
    ReflTransGen (Move settings around
        (request.readdresses settings around world.interviewers)) world
      (world.serve settings around request) := by
  unfold World.serve
  cases handled : request.handle settings around world.interviewers with
  | error refused => exact .refl
  | ok served => exact handle_moves possible served.1 served.2 handled

end Handlers

/-! ## What holds of every world -/

/-- After the token was minted, the password of its account was set. -/
def Superseded (history : List Entry) (claims : Claims) : Prop :=
  ∃ before fingerprint after,
    history = before ++ .passwordSet claims.sub fingerprint :: after ∧
      .minted claims ∈ before

theorem Superseded.of_snoc {history : List Entry} {entry : Entry}
    {claims : Claims}
    (superseded : Superseded (history ++ [entry]) claims) :
    Superseded history claims ∨
      (.minted claims ∈ history ∧
        ∃ fingerprint, entry = .passwordSet claims.sub fingerprint) := by
  obtain ⟨before, fingerprint, after, split, isMinted⟩ := superseded
  rcases List.eq_nil_or_concat after with rfl | ⟨middle, last, rfl⟩
  · obtain ⟨rfl, isLast⟩ := List.append_inj' split rfl
    exact Or.inr ⟨isMinted, fingerprint, by simpa using isLast⟩
  · left
    have regrouped : history ++ [entry] =
        (before ++ .passwordSet claims.sub fingerprint :: middle) ++
          [last] := by
      simpa using split
    obtain ⟨rfl, _⟩ := List.append_inj' regrouped rfl
    exact ⟨before, fingerprint, middle, rfl, isMinted⟩

/-- The invariant of every run. -/
structure Sound (settings : AuthSettings) (world : World) : Prop where
  keyed : Rows.Keyed Interviewer.id world.interviewers
  recorded : ∀ row ∈ world.interviewers,
    passwordEntry settings row ∈ world.history
  versions : ∀ claims, .minted claims ∈ world.history → claims.isSession →
    ∀ row ∈ world.interviewers, claims.sub = row.id →
      ∃ version, claims.ver = some version ∧ version ≤ row.tokenVersion
  outdated : ∀ claims, Superseded world.history claims → claims.isSession →
    ∀ row ∈ world.interviewers, claims.sub = row.id →
      ∃ version, claims.ver = some version ∧ version < row.tokenVersion
  spent : ∀ claims, .resetBy (.signed claims) ∈ world.history →
    ∃ fingerprint, claims.pwd = some fingerprint ∧
      (∃ interviewer, .passwordSet interviewer fingerprint ∈ world.history) ∧
      ∀ row ∈ world.interviewers, claims.sub = row.id →
        settings.hashFingerprint row.passwordHash ≠ fingerprint
  once : ∀ token, world.history.count (.resetBy token) ≤ 1

theorem sound_start
    (keyed : Rows.Keyed Interviewer.id interviewers) :
    Sound settings (World.start settings interviewers) where
  keyed := keyed
  recorded := fun _ member => List.mem_map_of_mem member
  versions := by
    intro claims isMinted
    obtain ⟨_, _, differs⟩ := List.mem_map.mp isMinted
    simp [passwordEntry] at differs
  outdated := by
    intro claims superseded
    obtain ⟨before, fingerprint, after, split, isMinted⟩ := superseded
    have member : Entry.minted claims ∈
        interviewers.map (passwordEntry settings) := by
      have isHistory :
          interviewers.map (passwordEntry settings) = _ := split
      rw [isHistory]
      exact List.mem_append_left _ isMinted
    obtain ⟨_, _, differs⟩ := List.mem_map.mp member
    simp [passwordEntry] at differs
  spent := by
    intro claims isSpent
    obtain ⟨_, _, differs⟩ := List.mem_map.mp isSpent
    simp [passwordEntry] at differs
  once := by
    intro token
    have absent : Entry.resetBy token ∉
        interviewers.map (passwordEntry settings) := by
      intro member
      obtain ⟨_, _, differs⟩ := List.mem_map.mp member
      simp [passwordEntry] at differs
    exact (List.count_eq_zero.mpr absent).trans_le (Nat.zero_le 1)

section Preservation

variable {row saved : Interviewer} {claims : Claims}

theorem Sound.mint (sound : Sound settings world)
    (member : row ∈ world.interviewers) (isSub : claims.sub = row.id)
    (isCurrent : claims.isSession → claims.ver = some row.tokenVersion) :
    Sound settings
      ⟨world.interviewers, world.history ++ [.minted claims]⟩ where
  keyed := sound.keyed
  recorded := fun other isOther =>
    List.mem_append_left _ (sound.recorded other isOther)
  versions := by
    intro found isMinted isSession other isOther isFor
    rcases List.mem_append.mp isMinted with earlier | last
    · exact sound.versions found earlier isSession other isOther isFor
    · obtain rfl : found = claims := by simpa using last
      obtain rfl := sound.keyed.eq member isOther (isSub.symm.trans isFor)
      exact ⟨_, isCurrent isSession, Nat.le_refl _⟩
  outdated := by
    intro found superseded
    rcases superseded.of_snoc with earlier | ⟨_, _, differs⟩
    · exact sound.outdated found earlier
    · simp at differs
  spent := by
    intro found isSpent
    have earlier : Entry.resetBy (.signed found) ∈ world.history := by
      simpa using isSpent
    obtain ⟨fingerprint, bound, ⟨setter, isSet⟩, moved⟩ :=
      sound.spent found earlier
    exact
      ⟨fingerprint, bound, ⟨setter, List.mem_append_left _ isSet⟩, moved⟩
  once := by
    intro token
    have earlier := sound.once token
    simpa [List.count_append] using earlier

theorem Sound.edit (sound : Sound settings world)
    (member : row ∈ world.interviewers) (sameId : saved.id = row.id)
    (sameHash : saved.passwordHash = row.passwordHash)
    (sameVersion : saved.tokenVersion = row.tokenVersion) :
    Sound settings
      ⟨Rows.save Interviewer.id saved world.interviewers,
        world.history⟩ where
  keyed := sound.keyed.save
  recorded := by
    intro other isOther
    rcases Rows.mem_save isOther with rfl | ⟨kept, _⟩
    · have known := sound.recorded row member
      rwa [passwordEntry, sameId, sameHash]
    · exact sound.recorded other kept
  versions := by
    intro found isMinted isSession other isOther isFor
    rcases Rows.mem_save isOther with rfl | ⟨kept, _⟩
    · rw [sameVersion]
      exact sound.versions found isMinted isSession row member
        (isFor.trans sameId)
    · exact sound.versions found isMinted isSession other kept isFor
  outdated := by
    intro found superseded isSession other isOther isFor
    rcases Rows.mem_save isOther with rfl | ⟨kept, _⟩
    · rw [sameVersion]
      exact sound.outdated found superseded isSession row member
        (isFor.trans sameId)
    · exact sound.outdated found superseded isSession other kept isFor
  spent := by
    intro found isSpent
    obtain ⟨fingerprint, bound, isSet, moved⟩ := sound.spent found isSpent
    refine ⟨fingerprint, bound, isSet, ?_⟩
    intro other isOther isFor
    rcases Rows.mem_save isOther with rfl | ⟨kept, _⟩
    · rw [sameHash]
      exact moved row member (isFor.trans sameId)
    · exact moved other kept isFor
  once := sound.once

variable {link : Option Claims}

/-- The entries of a link that was spent. -/
def spendEntries (link : Option Claims) : List Entry :=
  link.toList.map fun claims => .resetBy (.signed claims)

theorem Superseded.of_spend {history : List Entry}
    (superseded : Superseded (history ++ spendEntries link) claims) :
    Superseded history claims := by
  cases link with
  | none => simpa [spendEntries] using superseded
  | some spent =>
      rcases superseded.of_snoc with earlier | ⟨_, _, differs⟩
      · exact earlier
      · simp at differs

/-- A link that is still bound to the password has not been spent. -/
theorem Sound.not_spent (sound : Sound settings world)
    (member : row ∈ world.interviewers)
    (links : ∀ claims ∈ link, claims.sub = row.id ∧
      claims.pwd = some (settings.hashFingerprint row.passwordHash))
    (isLink : claims ∈ link) :
    .resetBy (.signed claims) ∉ world.history := by
  intro isSpent
  obtain ⟨isSub, isBound⟩ := links claims isLink
  obtain ⟨fingerprint, bound, _, moved⟩ := sound.spent claims isSpent
  have same : settings.hashFingerprint row.passwordHash = fingerprint :=
    Option.some.inj (isBound.symm.trans bound)
  exact moved row member isSub same

theorem Sound.setPassword (sound : Sound settings world)
    (member : row ∈ world.interviewers) (sameId : saved.id = row.id)
    (raised : saved.tokenVersion = row.tokenVersion + 1)
    (fresh : ∀ interviewer fingerprint,
      .passwordSet interviewer fingerprint ∈ world.history →
        settings.hashFingerprint saved.passwordHash ≠ fingerprint)
    (links : ∀ claims ∈ link, claims.sub = row.id ∧
      claims.pwd = some (settings.hashFingerprint row.passwordHash)) :
    Sound settings
      ⟨Rows.save Interviewer.id saved world.interviewers,
        world.history ++ spendEntries link ++
          [passwordEntry settings saved]⟩ where
  keyed := sound.keyed.save
  recorded := by
    intro other isOther
    rcases Rows.mem_save isOther with rfl | ⟨kept, _⟩
    · simp
    · simp [sound.recorded other kept]
  versions := by
    intro found isMinted isSession other isOther isFor
    have earlier : Entry.minted found ∈ world.history := by
      simpa [spendEntries, passwordEntry] using isMinted
    rcases Rows.mem_save isOther with rfl | ⟨kept, _⟩
    · obtain ⟨version, isVersion, bound⟩ :=
        sound.versions found earlier isSession row member
          (isFor.trans sameId)
      exact ⟨version, isVersion, by omega⟩
    · exact sound.versions found earlier isSession other kept isFor
  outdated := by
    intro found superseded isSession other isOther isFor
    rcases superseded.of_snoc with before | ⟨isMinted, fingerprint, isLast⟩
    · have earlier := before.of_spend
      rcases Rows.mem_save isOther with rfl | ⟨kept, _⟩
      · obtain ⟨version, isVersion, bound⟩ :=
          sound.outdated found earlier isSession row member
            (isFor.trans sameId)
        exact ⟨version, isVersion, by omega⟩
      · exact sound.outdated found earlier isSession other kept isFor
    · have earlier : Entry.minted found ∈ world.history := by
        simpa [spendEntries] using isMinted
      have isSub : saved.id = found.sub := by
        simp only [passwordEntry, Entry.passwordSet.injEq] at isLast
        exact isLast.1
      rcases Rows.mem_save isOther with rfl | ⟨_, different⟩
      · obtain ⟨version, isVersion, bound⟩ :=
          sound.versions found earlier isSession row member
            (isFor.trans sameId)
        exact ⟨version, isVersion, by omega⟩
      · exact absurd (isFor.symm.trans isSub.symm) different
  spent := by
    intro found isSpent
    have reached : .resetBy (.signed found) ∈ world.history ∨
        found ∈ link := by
      simpa [spendEntries, passwordEntry] using isSpent
    rcases reached with earlier | isLink
    · obtain ⟨fingerprint, bound, ⟨setter, isSet⟩, moved⟩ :=
        sound.spent found earlier
      refine ⟨fingerprint, bound, ⟨setter, by simp [isSet]⟩, ?_⟩
      intro other isOther isFor
      rcases Rows.mem_save isOther with rfl | ⟨kept, _⟩
      · exact fresh setter fingerprint isSet
      · exact moved other kept isFor
    · obtain ⟨isSub, isBound⟩ := links found isLink
      have isSet := sound.recorded row member
      refine ⟨_, isBound, ⟨row.id, by
        simp only [passwordEntry] at isSet
        simp [isSet]⟩, ?_⟩
      intro other isOther isFor
      rcases Rows.mem_save isOther with rfl | ⟨_, different⟩
      · exact fresh _ _ isSet
      · exact absurd (isFor.symm.trans (isSub.trans sameId.symm)) different
  once := by
    intro token
    have earlier := sound.once token
    cases link with
    | none =>
        simpa [spendEntries, List.count_append, passwordEntry] using earlier
    | some spent =>
        have unspent : world.history.count (.resetBy (.signed spent)) = 0 :=
          List.count_eq_zero.mpr (sound.not_spent member links rfl)
        by_cases same : token = .signed spent
        · subst same
          simp [spendEntries, List.count_append, passwordEntry, unspent]
        · have other : Entry.resetBy (.signed spent) ≠ .resetBy token := by
            simpa using fun equal => same equal.symm
          simpa [spendEntries, List.count_append, passwordEntry,
            List.count_cons, other] using earlier

end Preservation

theorem Sound.move (sound : Sound settings world)
    (moved : Move settings around readdresses world next) :
    Sound settings next := by
  cases moved with
  | mint member isSub isCurrent => exact sound.mint member isSub isCurrent
  | edit member sameId sameHash sameVersion =>
      exact sound.edit member sameId sameHash sameVersion
  | setPassword member sameId raised _ fresh links =>
      exact sound.setPassword member sameId raised fresh links

theorem Sound.moves (sound : Sound settings world)
    (moved : ReflTransGen (Move settings around readdresses) world next) :
    Sound settings next := by
  induction moved with
  | refl => exact sound
  | tail _ moved hypothesis => exact hypothesis.move moved

theorem sound_of_reaches {start : World} (sound : Sound settings start)
    (reached : start.Reaches settings world) : Sound settings world := by
  induction reached with
  | refl => exact sound
  | step around request _ possible hypothesis =>
      exact hypothesis.moves (serve_moves possible)

/-! ## The main result -/

/-- A token is let through where one of the given use is asked for. -/
def AcceptedAs (settings : AuthSettings) (now : Time)
    (interviewers : List Interviewer) (use : TokenUse) (token : Token) :
    Prop :=
  match use with
  | .access =>
      ∃ row, getCurrentInterviewer now interviewers (some token) = .ok row
  | .refresh =>
      ∃ row, interviewerFromRefresh now interviewers (some token) = some row
  | .verify | .reset =>
      ∃ row, interviewerFromActionToken settings now interviewers token use =
        some row
  | .changeEmail =>
      ∃ found, changeEmailFromToken settings now interviewers token =
        some found

theorem sessionInterviewer_of_access {now : Time} {token : Token}
    {row : Interviewer}
    (accepted : getCurrentInterviewer now interviewers (some token) =
      .ok row) :
    sessionInterviewer now interviewers token .access = some row := by
  simp only [getCurrentInterviewer] at accepted
  split at accepted
  · simp at accepted
  · next isFound =>
      rw [isFound, pure_eq_ok.mp accepted]

/-- A token serves the use that it was minted for, and no other. -/
theorem use_of_accepted {now : Time} {use : TokenUse} {token : Token}
    (accepted : AcceptedAs settings now interviewers use token) :
    ∃ claims, token = .signed claims ∧ claims.use = use := by
  cases use with
  | access =>
      obtain ⟨row, found⟩ := accepted
      obtain ⟨claims, isToken, isUse, _⟩ :=
        sessionInterviewer_eq_some (sessionInterviewer_of_access found)
      exact ⟨claims, isToken, isUse⟩
  | refresh =>
      obtain ⟨row, found⟩ := accepted
      obtain ⟨claims, isToken, isUse, _⟩ := sessionInterviewer_eq_some found
      exact ⟨claims, isToken, isUse⟩
  | verify | reset =>
      obtain ⟨row, found⟩ := accepted
      obtain ⟨claims, isToken, isUse, _⟩ :=
        interviewerFromActionToken_eq_some found
      exact ⟨claims, isToken, isUse⟩
  | changeEmail =>
      obtain ⟨both, found⟩ := accepted
      obtain ⟨claims, isToken, isUse, _⟩ :=
        interviewerFromActionToken_eq_some
          (changeEmailFromToken_eq_some found)
      exact ⟨claims, isToken, isUse⟩

/-- A superseded session token opens nothing. -/
theorem Sound.refuses (sound : Sound settings world) {claims : Claims}
    (superseded : Superseded world.history claims)
    (isSession : claims.isSession) (now : Time) (use : TokenUse) :
    sessionInterviewer now world.interviewers (.signed claims) use =
      none := by
  cases found :
      sessionInterviewer now world.interviewers (.signed claims) use with
  | none => rfl
  | some row =>
      obtain ⟨known, isToken, _, member, isSub, isCurrent⟩ :=
        sessionInterviewer_eq_some found
      obtain rfl := Token.signed.inj isToken
      obtain ⟨version, isVersion, behind⟩ :=
        sound.outdated claims superseded isSession row member isSub.symm
      have same : version = row.tokenVersion :=
        Option.some.inj (isVersion.symm.trans isCurrent)
      omega

/-- In every run: a session token minted before the account's password was set
opens no session and refreshes none, a reset link works at most once, and a
token only serves the use that it was minted for. -/
theorem tokens_lifecycle (settings : AuthSettings)
    (interviewers : List Interviewer) (world : World)
    (keyed : Rows.Keyed Interviewer.id interviewers)
    (reached :
      (World.start settings interviewers).Reaches settings world) :
    (∀ claims, Superseded world.history claims → claims.isSession →
      ∀ now,
        ¬AcceptedAs settings now world.interviewers .access
          (.signed claims) ∧
        ¬AcceptedAs settings now world.interviewers .refresh
          (.signed claims)) ∧
    (∀ link, world.history.count (.resetBy link) ≤ 1) ∧
    ∀ now use token,
      AcceptedAs settings now world.interviewers use token →
        ∃ claims, token = .signed claims ∧ claims.use = use := by
  have sound := sound_of_reaches (sound_start keyed) reached
  refine ⟨?_, sound.once, fun _ _ _ accepted => use_of_accepted accepted⟩
  intro claims superseded isSession now
  have refused := sound.refuses superseded isSession now
  constructor
  · rintro ⟨row, accepted⟩
    have opened := sessionInterviewer_of_access accepted
    simp [refused .access] at opened
  · rintro ⟨row, accepted⟩
    have opened : sessionInterviewer now world.interviewers
        (.signed claims) .refresh = some row := accepted
    simp [refused .refresh] at opened

/-- Settings whose hash puts a salt of four characters before the password. -/
def sampleSettings : AuthSettings where
  jwtExpireMin := 15
  refreshExpireDays := 30
  strip := id
  lower := id
  hashpw := fun password salt => salt ++ password
  checkpw := fun password hash => hash.toList.drop 4 == password.toList
  hashFingerprint := id

/-- One account. -/
def sampleInterviewer : Interviewer where
  id := 1
  email := "ada@acme.io"
  passwordHash := "saltcorrect horse"
  name := "Ada"
  tokenVersion := 0
  emailVerifiedAt := none

/-- The account after its password was changed. -/
def sampleChanged : Interviewer :=
  { sampleInterviewer with
    passwordHash := "new.battery staple", tokenVersion := 1 }

/-- A request at a given second. -/
def sampleAround (second : Int) : Surroundings :=
  ⟨seconds second, true, false, "new."⟩

/-- The access token of the sample account's first login. -/
def sampleAccess : Claims :=
  createAccessToken sampleSettings (seconds 100) sampleInterviewer

/-- Log in, then change the password from that session. -/
def sampleWorld : World :=
  ((World.start sampleSettings [sampleInterviewer]).serve sampleSettings
    (sampleAround 100) (.login "ada@acme.io" "correct horse")).serve
      sampleSettings (sampleAround 200)
      (.changePassword (some (.signed sampleAccess)) "correct horse"
        "battery staple")

/-- After the change the session that made it is over. -/
theorem tokens_lifecycle_after_change :
    ¬AcceptedAs sampleSettings (seconds 300) sampleWorld.interviewers .access
      (.signed sampleAccess) := by
  have before :
      (World.start sampleSettings [sampleInterviewer]).serve sampleSettings
          (sampleAround 100) (.login "ada@acme.io" "correct horse") =
        ⟨[sampleInterviewer],
          [.passwordSet 1 "saltcorrect horse",
            .minted (createRefreshToken sampleSettings (seconds 100)
              sampleInterviewer),
            .minted sampleAccess]⟩ := by
    decide +kernel
  have after : sampleWorld.history =
      [.passwordSet 1 "saltcorrect horse",
        .minted (createRefreshToken sampleSettings (seconds 100)
          sampleInterviewer),
        .minted sampleAccess] ++
      .passwordSet sampleAccess.sub "new.battery staple" ::
        issueSession sampleSettings (sampleAround 200) sampleChanged := by
    decide +kernel
  have reached : (World.start sampleSettings [sampleInterviewer]).Reaches
      sampleSettings sampleWorld := by
    apply World.Reaches.step
    · apply World.Reaches.step
      · exact .refl
      · exact ⟨by simp [Request.presented], by simp [Request.newPassword]⟩
    · rw [before]
      constructor
      · simp [Request.presented]
      · simp [Request.newPassword, sampleSettings, sampleAround]
  have superseded : Superseded sampleWorld.history sampleAccess :=
    ⟨_, _, _, after, by simp⟩
  have held := tokens_lifecycle sampleSettings [sampleInterviewer]
    sampleWorld (by simp [Rows.Keyed]) reached
  exact (held.1 sampleAccess superseded (Or.inl rfl) (seconds 300)).1

end AssessmentPlatform.Accounts
