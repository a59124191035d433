import AssessmentPlatform.RateLimit.SlidingWindow
import AssessmentPlatform.Security.PythonText

/-!
# Clients behind a proxy

`client_ip` names the client that a check counts for.  Behind one trusted proxy
it is the peer that the proxy saw, whatever the request says of itself, so that
nobody gets a fresh bucket by a forged header, and nobody spends the bucket of
somebody else.
-/

namespace AssessmentPlatform.RateLimit

/-! ## Who is counted -/

/-- `forwarded.split(",")[-1]` -/
def lastHop (forwarded : List Char) : List Char :=
  forwarded.rtakeWhile (· != ',')

/-- What `client_ip` reads of a request: the `X-Forwarded-For` header, and the
peer of the socket. -/
structure Connection where
  forwarded : Option String
  peer : Option String
  deriving DecidableEq, Repr

/-- `client_ip` -/
def clientIp (trustProxyHeaders : Bool) (connection : Connection) : String :=
  let direct := connection.peer.getD "unknown"
  if trustProxyHeaders then
    match connection.forwarded with
    | none => direct
    | some forwarded =>
        if forwarded = "" then direct
        else String.ofList (PythonText.strip (lastHop forwarded.toList))
  else direct

/-- An address as a proxy writes it. -/
structure Address where
  text : String
  nonempty : text ≠ ""
  plain : ∀ char ∈ text.toList, char ≠ ',' ∧ PythonText.isSpace char = false

/-- A request that a proxy passes on: it appends the peer that it saw to what
the client had sent. -/
def passedOn (proxy : String) (sent : Option String) (seen : Address) :
    Connection where
  forwarded :=
    match sent with
    | none => some seen.text
    | some said => some (said ++ ", " ++ seen.text)
  peer := some proxy

theorem lastHop_append {said hop : List Char}
    (plain : ∀ char ∈ hop, char ≠ ',') :
    lastHop (said ++ ',' :: hop) = hop := by
  induction hop using List.reverseRecOn with
  | nil => exact List.rtakeWhile_concat_neg _ _ _ (by simp)
  | append_singleton hop char inductionHypothesis =>
      have isPlain : (char != ',') = true := by
        simpa using plain char (by simp)
      have earlier := inductionHypothesis fun other member =>
        plain other (List.mem_append_left _ member)
      have whole : said ++ ',' :: (hop ++ [char]) =
          (said ++ ',' :: hop) ++ [char] := by simp
      unfold lastHop at earlier ⊢
      rw [whole, List.rtakeWhile_concat, if_pos isPlain, earlier]

/-- The only hop is the last one. -/
theorem lastHop_eq_self {hop : List Char} (plain : ∀ char ∈ hop, char ≠ ',') :
    lastHop hop = hop := by
  apply List.rtakeWhile_eq_self_iff.mpr
  intro char member
  exact bne_iff_ne.mpr (plain char member)

theorem strip_cons_space {char : Char} {text : List Char}
    (space : PythonText.isSpace char = true) :
    PythonText.strip (char :: text) = PythonText.strip text := by
  unfold PythonText.strip PythonText.trim
  rw [List.dropWhile_cons_of_pos space]

/-- Behind the proxy a client is the peer that the proxy saw. -/
theorem clientIp_passedOn (proxy : String) (sent : Option String)
    (seen : Address) :
    clientIp true (passedOn proxy sent seen) = seen.text := by
  have noComma : ∀ char ∈ seen.text.toList, char ≠ ',' :=
    fun char member => (seen.plain char member).1
  have stripped : PythonText.strip seen.text.toList = seen.text.toList :=
    PythonText.trim_eq_self fun char member => (seen.plain char member).2
  cases sent with
  | none =>
      simp [clientIp, passedOn, seen.nonempty, lastHop_eq_self noComma,
        stripped]
  | some said =>
      have appended : (said ++ ", " ++ seen.text).toList =
          said.toList ++ ',' :: ' ' :: seen.text.toList := by
        simp
      have nonempty : said ++ ", " ++ seen.text ≠ "" := by
        intro isEmpty
        rw [isEmpty] at appended
        simp at appended
      have hop : lastHop (said.toList ++ ',' :: ' ' :: seen.text.toList) =
          ' ' :: seen.text.toList := by
        apply lastHop_append
        intro char member
        rcases List.mem_cons.mp member with rfl | isText
        · decide
        · exact noComma char isText
      have space : PythonText.isSpace ' ' = true := by decide
      simp only [clientIp, passedOn, if_true]
      rw [if_neg nonempty, appended, hop, strip_cons_space space, stripped,
        String.ofList_toList]

/-! ## Buckets do not meet -/

section Buckets

variable {Key Instant : Type} [DecidableEq Key]

theorem admittedTimes_filter {history : List (Checked Key Instant)}
    {counted : Key → Bool} {key : Key} (isCounted : counted key) :
    admittedTimes (history.filter fun check => counted check.key) key =
      admittedTimes history key := by
  unfold admittedTimes
  rw [List.filter_filter]
  congr 1
  apply List.filter_congr
  intro check _
  by_cases same : check.key = key
  · simp [same, isCounted]
  · simp [same]

variable [AddCommGroup Instant] [LinearOrder Instant]
variable {window : Instant} {limit : Nat}

/-- The checks of some keys are decided as if there were no others. -/
theorem Remembering.filter {history : List (Checked Key Instant)}
    (remembers : Remembering window limit history) (counted : Key → Bool) :
    Remembering window limit
      (history.filter fun check => counted check.key) := by
  induction remembers with
  | nil => exact .nil
  | @check history key now _ inductionHypothesis =>
      rw [List.filter_append]
      by_cases isCounted : counted key
      · have same :
            recent window (history.filter fun check => counted check.key) key
                now = recent window history key now := by
          unfold recent
          rw [admittedTimes_filter isCounted]
        simp only [List.filter_cons, isCounted, if_true, List.filter_nil,
          ← same]
        exact .check key now inductionHypothesis
      · simpa [isCounted] using inductionHypothesis

end Buckets

/-! ## Runs behind the proxy -/

section Arrivals

variable {Instant : Type}

/-- A request that comes to the proxy: the header that the client wrote, the
peer, and the instant of the check. -/
structure Arrival (Instant : Type) where
  sent : Option String
  seen : Address
  now : Instant

/-- The check of a request. -/
def Arrival.check (bucket proxy : String) (arrival : Arrival Instant) :
    LimiterEvent Instant :=
  .check bucket (clientIp true (passedOn proxy arrival.sent arrival.seen))
    arrival.now

/-- The same request, with nothing forged. -/
def Arrival.honest (arrival : Arrival Instant) : Arrival Instant :=
  { arrival with sent := none }

variable [AddCommGroup Instant] [LinearOrder Instant]

/-- How the requests of a run are decided. -/
def decisions (tracked : Nat) (maxRequests : Int) (window : Instant)
    (bucket proxy : String) (arrivals : List (Arrival Instant)) :
    List (Checked HitKey Instant) :=
  (runLimiter tracked maxRequests window
    (arrivals.map (Arrival.check bucket proxy))).history

variable {tracked : Nat} {maxRequests : Int} {window : Instant}
variable {bucket proxy : String} {arrivals : List (Arrival Instant)}

theorem calls_decisions :
    (decisions tracked maxRequests window bucket proxy arrivals).map
        (fun check => (check.key, check.now)) =
      arrivals.map fun arrival =>
        ((bucket, arrival.seen.text), arrival.now) := by
  unfold decisions
  rw [calls_runLimiter, List.filterMap_map, ← List.filterMap_eq_map]
  apply List.filterMap_congr
  intro arrival _
  simp [Arrival.check, LimiterEvent.call?, clientIp_passedOn]

variable [IsOrderedAddMonoid Instant]

theorem remembering_decisions (positive : 0 < maxRequests)
    (inOrder : arrivals.Pairwise fun earlier later =>
      earlier.now ≤ later.now) :
    Remembering window maxRequests.toNat
      (decisions tracked maxRequests window bucket proxy arrivals) := by
  apply remembering_runLimiter positive
  rw [InOrder, List.pairwise_map]
  exact inOrder

/-- Under a positive limit, the requests of a client are decided as if the
client were alone and had forged nothing, whatever it and all the others write
into the header, and no span shorter than the window admits more of them than
the limit. -/
theorem forged_headers_inert (tracked : Nat) (positive : 0 < maxRequests)
    (window : Instant) (bucket proxy : String)
    (arrivals : List (Arrival Instant))
    (inOrder : arrivals.Pairwise fun earlier later =>
      earlier.now ≤ later.now)
    (client : Address) :
    (decisions tracked maxRequests window bucket proxy arrivals).filter
        (fun check => check.key.2 == client.text) =
      decisions tracked maxRequests window bucket proxy
        ((arrivals.filter fun arrival =>
          arrival.seen.text == client.text).map Arrival.honest) ∧
    ∀ inside : Instant → Bool,
      (∀ earlier later, inside earlier → inside later →
        later - earlier < window) →
      ((admittedTimes
        (decisions tracked maxRequests window bucket proxy arrivals)
          (bucket, client.text)).countP inside : Int) ≤ maxRequests := by
  have remembers : Remembering window maxRequests.toNat
      (decisions tracked maxRequests window bucket proxy arrivals) :=
    remembering_decisions positive inOrder
  constructor
  · have alone : Remembering window maxRequests.toNat
        (decisions tracked maxRequests window bucket proxy
          ((arrivals.filter fun arrival =>
            arrival.seen.text == client.text).map Arrival.honest)) := by
      apply remembering_decisions positive
      rw [List.pairwise_map]
      exact inOrder.filter _
    have own := remembers.filter fun key : HitKey => key.2 == client.text
    apply own.unique alone
    rw [calls_decisions, List.map_map]
    have filtered := congrArg
      (List.filter fun call : HitKey × Instant => call.1.2 == client.text)
      (@calls_decisions Instant _ _ tracked maxRequests window bucket proxy
        arrivals)
    rw [List.filter_map, List.filter_map] at filtered
    exact filtered
  · intro inside close
    have counted := remembers.countP_le (bucket, client.text) inside close
    have isLimit : (maxRequests.toNat : Int) = maxRequests :=
      Int.toNat_of_nonneg positive.le
    have bounded := Int.ofNat_le.mpr counted
    exact bounded.trans isLimit.le

end Arrivals

/-- Neither a comma nor a blank is in the text. -/
def plainText (text : String) : Bool :=
  text.toList.all fun char => char != ',' && !PythonText.isSpace char

theorem plain_of_plainText {text : String} (plain : plainText text = true) :
    ∀ char ∈ text.toList,
      char ≠ ',' ∧ PythonText.isSpace char = false := by
  intro char member
  have checked := List.all_eq_true.mp plain char member
  simpa using checked

theorem peer_nonempty : "1.2.3.4" ≠ "" := by simp

theorem peer_plain : ∀ char ∈ "1.2.3.4".toList,
    char ≠ ',' ∧ PythonText.isSpace char = false :=
  plain_of_plainText (by decide +kernel)

theorem other_nonempty : "5.6.7.8" ≠ "" := by simp

theorem other_plain : ∀ char ∈ "5.6.7.8".toList,
    char ≠ ',' ∧ PythonText.isSpace char = false :=
  plain_of_plainText (by decide +kernel)

/-- A client that asks twice, each time from a forged address. -/
def samplePeer : Address :=
  ⟨"1.2.3.4", peer_nonempty, peer_plain⟩

/-- Between its requests somebody else forges the client's address. -/
def sampleArrivals : List (Arrival Int) :=
  [⟨some "9.9.9.9", samplePeer, 0⟩,
    ⟨some "1.2.3.4", ⟨"5.6.7.8", other_nonempty, other_plain⟩, 10⟩,
    ⟨some "8.8.8.8, 7.7.7.7", samplePeer, 20⟩]

theorem forged_headers_inert_sample :
    (decisions maxTrackedKeys 1 60 "login" "10.0.0.1" sampleArrivals).filter
        (fun check => check.key.2 == samplePeer.text) =
      [⟨("login", "1.2.3.4"), 0, true⟩, ⟨("login", "1.2.3.4"), 20, false⟩] := by
  obtain ⟨alone, -⟩ := forged_headers_inert maxTrackedKeys
    (show (0 : Int) < 1 by decide) (60 : Int) "login" "10.0.0.1"
    sampleArrivals (by simp [sampleArrivals]) samplePeer
  exact alone.trans (by decide +kernel)

end AssessmentPlatform.RateLimit
