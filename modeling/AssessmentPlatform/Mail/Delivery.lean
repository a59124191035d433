import Mathlib.Data.Rat.Defs
import Mathlib.Data.Rat.Init
import Mathlib.Tactic.Common

/-!
# Mail deliveries

`_deliver` over one connection to the SMTP server, and what it reports.  What
the server does is a session; an exception is its text.
-/

namespace AssessmentPlatform.Mail

/-! ## The server -/

/-- What comes of `send_message`: the server accepts the message, it accepts the
message and the answer is lost, or it does not accept it. -/
inductive SendReply where
  | accepted
  | unheard (error : String)
  | refused (error : String)
  deriving DecidableEq, Repr

/-- Whether the server has accepted the message. -/
def SendReply.isAccepted : SendReply → Bool
  | .accepted | .unheard _ => true
  | .refused _ => false

/-- What `send_message` does with it. -/
def SendReply.outcome : SendReply → Except String Unit
  | .accepted => .ok ()
  | .unheard error | .refused error => .error error

/-- What comes of QUIT: a reply (with the text of the exception that is raised
over one that is not 221), a closed connection, or another failure. -/
inductive QuitReply where
  | replied (code : Nat) (error : String)
  | disconnected
  | failed (error : String)
  deriving DecidableEq, Repr

/-- A session: what the server does at each step, and what the clock shows at
each reading. -/
structure Session where
  connect : Except String Unit
  starttls : Except String Unit
  login : Except String Unit
  clock : Nat → Rat
  send : Nat → SendReply
  quit : QuitReply

/-! ## The client -/

/-- The settings that are read. -/
structure Config where
  smtpHost : Option String
  smtpUseTls : Bool
  smtpUser : Option String
  smtpPassword : Option String
  smtpDeadlineS : Rat
  deriving DecidableEq, Repr

/-- `Delivery` -/
structure Delivery where
  recipient : String
  sent : Bool
  error : Option String := none
  deriving DecidableEq, Repr

/-- `_NOT_CONFIGURED` -/
def notConfigured : String :=
  "email is not configured on the server; the link was logged, not sent."

/-- `_DEADLINE_EXCEEDED` -/
def deadlineExceeded : String :=
  "the server's email time budget (SMTP_DEADLINE_S) ran out before " ++
    "this address was reached; the link was not sent."

/-- `smtplib.SMTP.__exit__`, which ends the `with` block. -/
def exit {Result : Type} (body : Except String Result) :
    QuitReply → Except String Result
  | .replied code error => if code = 221 then body else .error error
  | .disconnected => body
  | .failed error => .error error

/-- What was handed to the server: the index of a message, and the reply. -/
abbrev Wire := List (Nat × SendReply)

section Client

variable {Message : Type}

/-- `_send_one` -/
def sendOne (session : Session) (index : Nat) (recipient : String)
    (build : String → Except String Message) : Delivery × Wire :=
  match build recipient with
  | .error error => (⟨recipient, false, some error⟩, [])
  | .ok _ =>
      let reply := session.send index
      match reply.outcome with
      | .ok () => (⟨recipient, true, none⟩, [(index, reply)])
      | .error error => (⟨recipient, false, some error⟩, [(index, reply)])

/-- The loop of `_deliver`. -/
def sendAll (session : Session) (deadline : Rat)
    (build : String → Except String Message) :
    Nat → List String → List Delivery × Wire
  | _, [] => ([], [])
  | index, recipient :: recipients =>
      let first :=
        if session.clock (index + 1) ≥ deadline then
          (⟨recipient, false, some deadlineExceeded⟩, [])
        else sendOne session index recipient build
      let rest := sendAll session deadline build (index + 1) recipients
      (first.1 :: rest.1, first.2 ++ rest.2)

/-- STARTTLS and LOGIN, where they are configured. -/
def handshake (config : Config) (session : Session) : Except String Unit := do
  if config.smtpUseTls then session.starttls
  if config.smtpUser.any (· != "") && config.smtpPassword.any (· != "") then
    session.login

/-- The `try` block of `_deliver`. -/
def converse (config : Config) (session : Session)
    (build : String → Except String Message) (recipients : List String) :
    Except String (List Delivery) × Wire :=
  let deadline := session.clock 0 + config.smtpDeadlineS
  match session.connect with
  | .error error => (.error error, [])
  | .ok () =>
      match handshake config session with
      | .error error => (exit (.error error) session.quit, [])
      | .ok () =>
          let out := sendAll session deadline build 0 recipients
          (exit (.ok out.1) session.quit, out.2)

/-- `_deliver`, with what was handed to the server. -/
def deliver (config : Config) (session : Session)
    (build : String → Except String Message) (recipients : List String) :
    Except String (List Delivery) × Wire :=
  match config.smtpHost with
  | none =>
      (.ok (recipients.map fun recipient =>
        ⟨recipient, false, some notConfigured⟩), [])
  | some _ =>
      let tried := converse config session build recipients
      match tried.1 with
      | .ok out => (.ok out, tried.2)
      | .error error =>
          (.ok (recipients.map fun recipient =>
            ⟨recipient, false, some error⟩), tried.2)

end Client

/-! ## The report -/

section Report

variable {Message : Type} {config : Config} {session : Session}
variable {build : String → Except String Message} {deadline : Rat}
variable {recipient : String} {recipients : List String} {index : Nat}

/-- What the loop does for one recipient. -/
def entry (session : Session) (deadline : Rat)
    (build : String → Except String Message) (index : Nat)
    (recipient : String) : Delivery × Wire :=
  if session.clock (index + 1) ≥ deadline then
    (⟨recipient, false, some deadlineExceeded⟩, [])
  else sendOne session index recipient build

/-- The message is built and handed to the server, within the time budget. -/
def Handed (session : Session) (deadline : Rat)
    (build : String → Except String Message) (index : Nat)
    (recipient : String) : Prop :=
  session.clock (index + 1) < deadline ∧
    ∃ message, build recipient = .ok message

theorem sendAll_eq (recipients : List String) (index : Nat) :
    sendAll session deadline build index recipients =
      ((recipients.zipIdx index).map fun place =>
          (entry session deadline build place.2 place.1).1,
        (recipients.zipIdx index).flatMap fun place =>
          (entry session deadline build place.2 place.1).2) := by
  induction recipients generalizing index with
  | nil => rfl
  | cons recipient recipients inductionHypothesis =>
      rw [sendAll, inductionHypothesis, List.zipIdx_cons]
      rfl

/-- All that can come of a recipient: nothing is handed over, or the reply
decides. -/
theorem entry_cases (session : Session) (deadline : Rat)
    (build : String → Except String Message) (index : Nat)
    (recipient : String) :
    (¬Handed session deadline build index recipient ∧
      ∃ error, entry session deadline build index recipient =
        (⟨recipient, false, some error⟩, [])) ∨
    (Handed session deadline build index recipient ∧
      entry session deadline build index recipient =
        match (session.send index).outcome with
        | .ok () => (⟨recipient, true, none⟩, [(index, session.send index)])
        | .error error =>
            (⟨recipient, false, some error⟩,
              [(index, session.send index)])) := by
  unfold entry
  by_cases late : session.clock (index + 1) ≥ deadline
  · left
    rw [if_pos late]
    exact ⟨fun handed => absurd handed.1 (Rat.not_lt.mpr late), _, rfl⟩
  · rw [if_neg late]
    unfold sendOne
    cases built : build recipient with
    | error error =>
        left
        refine ⟨?_, error, rfl⟩
        rintro ⟨-, message, isMessage⟩
        rw [built] at isMessage
        cases isMessage
    | ok message =>
        right
        exact ⟨⟨Rat.not_le.mp late, message, built⟩, rfl⟩

theorem entry_recipient :
    (entry session deadline build index recipient).1.recipient =
      recipient := by
  rcases entry_cases session deadline build index recipient with
    ⟨-, error, isEntry⟩ | ⟨-, isEntry⟩
  · rw [isEntry]
  · rw [isEntry]
    cases (session.send index).outcome <;> rfl

theorem entry_error :
    (entry session deadline build index recipient).1.error = none ↔
      (entry session deadline build index recipient).1.sent = true := by
  rcases entry_cases session deadline build index recipient with
    ⟨-, error, isEntry⟩ | ⟨-, isEntry⟩
  · rw [isEntry]
    simp
  · rw [isEntry]
    cases (session.send index).outcome <;> simp

/-- A recipient is reported as sent when the acceptance was heard. -/
theorem entry_sent :
    (entry session deadline build index recipient).1.sent = true ↔
      Handed session deadline build index recipient ∧
        session.send index = .accepted := by
  rcases entry_cases session deadline build index recipient with
    ⟨kept, error, isEntry⟩ | ⟨handed, isEntry⟩
  · rw [isEntry]
    simp [kept]
  · rw [isEntry, and_iff_right handed]
    cases session.send index <;> simp [SendReply.outcome]

theorem mem_entry_wire {other : Nat} {reply : SendReply} :
    (other, reply) ∈ (entry session deadline build index recipient).2 ↔
      other = index ∧ Handed session deadline build index recipient ∧
        reply = session.send index := by
  rcases entry_cases session deadline build index recipient with
    ⟨kept, error, isEntry⟩ | ⟨handed, isEntry⟩
  · rw [isEntry]
    simp [kept]
  · rw [isEntry, and_iff_right handed]
    cases (session.send index).outcome <;> simp

/-- The server has accepted the message of a recipient. -/
def Accepted (wire : Wire) (index : Nat) : Prop :=
  ∃ reply, (index, reply) ∈ wire ∧ reply.isAccepted = true

/-- The loop hands over the messages in turn. -/
theorem accepted_sendAll :
    Accepted (sendAll session deadline build 0 recipients).2 index ↔
      ∃ recipient, recipients[index]? = some recipient ∧
        Handed session deadline build index recipient ∧
          (session.send index).isAccepted = true := by
  unfold Accepted
  rw [sendAll_eq]
  dsimp only
  constructor
  · rintro ⟨reply, member, accepted⟩
    obtain ⟨⟨recipient, place⟩, isPlace, inEntry⟩ :=
      List.mem_flatMap.mp member
    obtain ⟨rfl, handed, rfl⟩ := mem_entry_wire.mp inEntry
    exact ⟨recipient, List.mk_mem_zipIdx_iff_getElem?.mp isPlace, handed,
      accepted⟩
  · rintro ⟨recipient, isRecipient, handed, accepted⟩
    refine ⟨_, ?_, accepted⟩
    apply List.mem_flatMap.mpr
    exact ⟨(recipient, index),
      List.mk_mem_zipIdx_iff_getElem?.mpr isRecipient,
      mem_entry_wire.mpr ⟨rfl, handed, rfl⟩⟩

/-- The report over a failed connection. -/
def failedReport (recipients : List String) (error : String) : List Delivery :=
  recipients.map fun recipient => ⟨recipient, false, some error⟩

/-- The session gets to the messages. -/
def Opens (config : Config) (session : Session) : Prop :=
  config.smtpHost.isSome = true ∧ session.connect = .ok () ∧
    handshake config session = .ok ()

/-- QUIT lets the `with` block end as it is. -/
def QuitReply.closes : QuitReply → Bool
  | .replied code _ => code == 221
  | .disconnected => true
  | .failed _ => false

theorem exit_closes {Result : Type} {body : Except String Result}
    {quit : QuitReply} (closes : quit.closes = true) :
    exit body quit = body := by
  cases quit with
  | replied code error => exact if_pos (beq_iff_eq.mp closes)
  | disconnected => rfl
  | failed error => cases closes

theorem exit_fails {Result : Type} {quit : QuitReply}
    (fails : quit.closes = false) :
    ∃ error, ∀ body : Except String Result, exit body quit = .error error := by
  cases quit with
  | replied code error =>
      exact ⟨error, fun body => if_neg (beq_eq_false_iff_ne.mp fails)⟩
  | disconnected => cases fails
  | failed error => exact ⟨error, fun body => rfl⟩

/-- An exception leaves the `with` block as one. -/
theorem exit_error {Result : Type} {error : String} {quit : QuitReply} :
    ∃ other, exit (.error error : Except String Result) quit =
      .error other := by
  cases closes : quit.closes with
  | true => exact ⟨error, exit_closes closes⟩
  | false =>
      obtain ⟨other, fails⟩ : ∃ other, ∀ body : Except String Result,
          exit body quit = .error other :=
        exit_fails closes
      exact ⟨other, fails _⟩

/-- The messages that a session is asked to take. -/
def conversation (config : Config) (session : Session)
    (build : String → Except String Message) (recipients : List String) :
    List Delivery × Wire :=
  sendAll session (session.clock 0 + config.smtpDeadlineS) build 0 recipients

/-- All that `_deliver` does: it never gets to the messages, it fails over QUIT,
or it returns what the loop has reported. -/
theorem deliver_cases (config : Config) (session : Session)
    (build : String → Except String Message) (recipients : List String) :
    (¬Opens config session ∧ ∃ error,
      deliver config session build recipients =
        (.ok (failedReport recipients error), [])) ∨
    (Opens config session ∧ session.quit.closes = false ∧ ∃ error,
      deliver config session build recipients =
        (.ok (failedReport recipients error),
          (conversation config session build recipients).2)) ∨
    (Opens config session ∧ session.quit.closes = true ∧
      deliver config session build recipients =
        (.ok (conversation config session build recipients).1,
          (conversation config session build recipients).2)) := by
  unfold deliver converse
  cases host : config.smtpHost with
  | none =>
      left
      refine ⟨?_, _, rfl⟩
      rintro ⟨isHost, -⟩
      rw [host] at isHost
      cases isHost
  | some name =>
      dsimp only
      cases connected : session.connect with
      | error error =>
          left
          refine ⟨?_, error, rfl⟩
          rintro ⟨-, isConnected, -⟩
          rw [connected] at isConnected
          cases isConnected
      | ok _ =>
          cases greeted : handshake config session with
          | error error =>
              left
              obtain ⟨other, raised⟩ :
                  ∃ other, exit (.error error : Except String (List Delivery))
                    session.quit = .error other := exit_error
              dsimp only
              rw [raised]
              refine ⟨?_, other, rfl⟩
              rintro ⟨-, -, isGreeted⟩
              rw [greeted] at isGreeted
              cases isGreeted
          | ok _ =>
              right
              have opens : Opens config session :=
                ⟨by rw [host]; rfl, connected, greeted⟩
              dsimp only
              cases closes : session.quit.closes with
              | false =>
                  left
                  obtain ⟨error, fails⟩ :
                      ∃ error, ∀ body : Except String (List Delivery),
                        exit body session.quit = .error error :=
                    exit_fails closes
                  rw [fails]
                  exact ⟨opens, rfl, error, rfl⟩
              | true =>
                  right
                  rw [exit_closes closes]
                  exact ⟨opens, rfl, rfl⟩

/-- The report lists the recipients in order, each with an error unless it was
sent. -/
structure WellFormed (report : List Delivery) (recipients : List String) :
    Prop where
  recipients : report.map Delivery.recipient = recipients
  errors : ∀ delivery ∈ report, delivery.error = none ↔ delivery.sent = true

theorem wellFormed_failedReport {error : String} :
    WellFormed (failedReport recipients error) recipients := by
  constructor
  · rw [failedReport, List.map_map]
    exact List.map_id' recipients
  · intro delivery member
    obtain ⟨recipient, -, rfl⟩ := List.mem_map.mp member
    simp

theorem wellFormed_conversation :
    WellFormed (conversation config session build recipients).1
      recipients := by
  unfold conversation
  rw [sendAll_eq]
  constructor
  · rw [List.map_map]
    have fromEntry : ∀ place ∈ recipients.zipIdx,
        (Delivery.recipient ∘ fun place : String × Nat =>
          (entry session (session.clock 0 + config.smtpDeadlineS) build
            place.2 place.1).1) place = place.1 :=
      fun place _ => entry_recipient
    rw [List.map_congr_left fromEntry]
    exact List.zipIdx_map_fst 0 recipients
  · intro delivery member
    obtain ⟨place, -, rfl⟩ := List.mem_map.mp member
    exact entry_error

/-- The entry of a recipient. -/
theorem getElem?_conversation {delivery : Delivery} :
    (conversation config session build recipients).1[index]? =
        some delivery ↔
      ∃ recipient, recipients[index]? = some recipient ∧
        (entry session (session.clock 0 + config.smtpDeadlineS) build index
          recipient).1 = delivery := by
  unfold conversation
  rw [sendAll_eq]
  dsimp only
  rw [List.getElem?_map, List.getElem?_zipIdx]
  cases recipients[index]? <;> simp

/-- The report marks as sent what the server has accepted. -/
def Truthful (report : List Delivery) (wire : Wire) : Prop :=
  ∀ index delivery, report[index]? = some delivery →
    (delivery.sent = true ↔ Accepted wire index)

/-- A report of failure is truthful if and only if nothing was accepted. -/
theorem truthful_failedReport {wire : Wire} {error : String} :
    Truthful (failedReport recipients error) wire ↔
      ∀ index recipient, recipients[index]? = some recipient →
        ¬Accepted wire index := by
  constructor
  · intro truthful index recipient isRecipient accepted
    have isEntry : (failedReport recipients error)[index]? =
        some ⟨recipient, false, some error⟩ := by
      rw [failedReport, List.getElem?_map, isRecipient]
      rfl
    cases (truthful index _ isEntry).mpr accepted
  · intro nothing index delivery isEntry
    rw [failedReport, List.getElem?_map] at isEntry
    obtain ⟨recipient, isRecipient, rfl⟩ := Option.map_eq_some_iff.mp isEntry
    exact iff_of_false Bool.false_ne_true (nothing index recipient isRecipient)

theorem not_accepted_nil : ¬Accepted [] index := by
  rintro ⟨reply, member, -⟩
  cases member

/-- What the loop has reported is truthful if and only if every acceptance was
heard. -/
theorem truthful_conversation :
    Truthful (conversation config session build recipients).1
        (conversation config session build recipients).2 ↔
      ∀ index recipient, recipients[index]? = some recipient →
        Handed session (session.clock 0 + config.smtpDeadlineS) build index
          recipient →
          (session.send index).isAccepted = true →
            session.send index = .accepted := by
  constructor
  · intro truthful index recipient isRecipient handed accepted
    have isEntry : (conversation config session build recipients).1[index]? =
        some _ :=
      getElem?_conversation.mpr ⟨recipient, isRecipient, rfl⟩
    have sent := (truthful index _ isEntry).mpr
      (accepted_sendAll.mpr ⟨recipient, isRecipient, handed, accepted⟩)
    exact (entry_sent.mp sent).2
  · intro heard index delivery isEntry
    obtain ⟨recipient, isRecipient, rfl⟩ := getElem?_conversation.mp isEntry
    rw [entry_sent, conversation, accepted_sendAll]
    constructor
    · rintro ⟨handed, accepted⟩
      exact ⟨recipient, isRecipient, handed, by rw [accepted]; rfl⟩
    · rintro ⟨other, isOther, handed, accepted⟩
      obtain rfl := Option.some.inj (isRecipient.symm.trans isOther)
      exact ⟨handed, heard index recipient isRecipient handed accepted⟩

/-- `_deliver` never raises and reports on every recipient in order; its report
is truthful if and only if every acceptance was heard and QUIT did not fail
after one. -/
theorem report_truthful (config : Config) (session : Session)
    (build : String → Except String Message) (recipients : List String) :
    ∃ report, (deliver config session build recipients).1 = .ok report ∧
      WellFormed report recipients ∧
      (Truthful report (deliver config session build recipients).2 ↔
        (Opens config session →
          ∀ index recipient, recipients[index]? = some recipient →
            Handed session (session.clock 0 + config.smtpDeadlineS) build
              index recipient →
              (session.send index).isAccepted = true →
                session.send index = .accepted ∧
                  session.quit.closes = true)) := by
  rcases deliver_cases config session build recipients with
    ⟨shut, error, run⟩ | ⟨opens, fails, error, run⟩ | ⟨opens, closes, run⟩
  · rw [run]
    refine ⟨_, rfl, wellFormed_failedReport, iff_of_true ?_ ?_⟩
    · exact truthful_failedReport.mpr fun _ _ _ => not_accepted_nil
    · intro opens
      exact absurd opens shut
  · rw [run]
    refine ⟨_, rfl, wellFormed_failedReport, ?_⟩
    rw [truthful_failedReport]
    constructor
    · intro nothing _ index recipient isRecipient handed accepted
      exact absurd
        (accepted_sendAll.mpr ⟨recipient, isRecipient, handed, accepted⟩)
        (nothing index recipient isRecipient)
    · intro heard index _ _ accepted
      obtain ⟨recipient, isRecipient, handed, isAccepted⟩ :=
        accepted_sendAll.mp accepted
      have closes :=
        (heard opens index recipient isRecipient handed isAccepted).2
      rw [fails] at closes
      cases closes
  · rw [run]
    refine ⟨_, rfl, wellFormed_conversation, ?_⟩
    rw [truthful_conversation]
    constructor
    · intro heard _ index recipient isRecipient handed accepted
      exact ⟨heard index recipient isRecipient handed accepted, closes⟩
    · intro heard index recipient isRecipient handed accepted
      exact (heard opens index recipient isRecipient handed accepted).1

/-- A session that takes every message and answers QUIT with a 421. -/
def sampleSession : Session where
  connect := .ok ()
  starttls := .ok ()
  login := .ok ()
  clock := fun _ => 0
  send := fun _ => .accepted
  quit := .replied 421 "(421, b'shutting down')"

/-- Both messages are accepted, and both recipients are reported as unsent. -/
theorem accepted_reported_unsent :
    let run := deliver ⟨some "mail", true, none, none, 30⟩ sampleSession
      (fun recipient => .ok recipient) ["ada@acme.io", "bob@acme.io"]
    run.1 = .ok (failedReport ["ada@acme.io", "bob@acme.io"]
        "(421, b'shutting down')") ∧
      ¬Truthful (failedReport ["ada@acme.io", "bob@acme.io"]
        "(421, b'shutting down')") run.2 := by
  refine ⟨rfl, ?_⟩
  intro truthful
  have accepted := (truthful 0 ⟨"ada@acme.io", false,
    some "(421, b'shutting down')"⟩ rfl).mpr
    ⟨.accepted, by decide +kernel, rfl⟩
  cases accepted

end Report

end AssessmentPlatform.Mail
