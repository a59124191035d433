import AssessmentPlatform.Json
import Mathlib.Data.List.TakeDrop
import Mathlib.Data.List.Infix
import Mathlib.Tactic.Common

/-!
# Redacted URLs

`redact_url` with the log filter and the error reports that go through it, and
the routes whose paths carry the token of an invitation.
-/

namespace AssessmentPlatform.Redaction

/-! ## The redactor -/

/-- `[^/?]` -/
def inSegment (char : Char) : Bool :=
  char != '/' && char != '?'

/-- Whether a text starts with a match of `_TOKEN_IN_PATH`. -/
def startsWithToken (text : List Char) : Bool :=
  "/invite/".toList.isPrefixOf text && (text.drop 8).head?.any inSegment

/-- `_TOKEN_IN_PATH.sub(r"\1<redacted>", text)`: a match is as long as it can
be, and the scan goes on behind it. -/
def maskTokens (text : List Char) : List Char :=
  match text with
  | [] => []
  | char :: rest =>
      if startsWithToken (char :: rest) then
        "/invite/<redacted>".toList ++
          maskTokens ((rest.drop 7).dropWhile inSegment)
      else char :: maskTokens rest
termination_by text.length
decreasing_by
  · have skipped : ((rest.drop 7).dropWhile inSegment).length ≤ rest.length :=
      ((List.dropWhile_sublist _).trans (List.drop_sublist _ _)).length_le
    simp only [List.length_cons]
    omega
  · simp only [List.length_cons]
    omega

/-- `redact_url` -/
def redactUrl (url : String) : String :=
  let path := url.toList.takeWhile (· != '?')
  String.ofList (maskTokens path) ++
    (if url.toList.contains '?' then "?<redacted>" else "")

/-! ## The log filter -/

/-- An argument of a log call. -/
inductive LogArg where
  | str (text : String)
  | int (value : Int)
  deriving DecidableEq, Repr

/-- The arguments of a record: a tuple, or anything else. -/
inductive LogArgs where
  | tuple (args : List LogArg)
  | other
  deriving DecidableEq, Repr

/-- `_PATH_ARG` -/
def pathArg : Nat := 2

/-- `QueryStringFilter.filter`, which returns true and leaves these arguments in
the record. -/
def filterArgs (logPii : Bool) (args : LogArgs) : LogArgs :=
  if logPii then args
  else
    match args with
    | .other => .other
    | .tuple items =>
        match items[pathArg]? with
        | some (.str path) => .tuple (items.set pathArg (.str (redactUrl path)))
        | _ => .tuple items

/-- The arguments of uvicorn's access lines; uvicorn percent-encodes the path, so
that in a real one no question mark stands before the query string. -/
def accessArgs (clientAddr method fullPath httpVersion : String)
    (statusCode : Int) : LogArgs :=
  .tuple [.str clientAddr, .str method, .str fullPath, .str httpVersion,
    .int statusCode]

/-! ## Error reports -/

/-- `_SAFE_HEADERS` -/
def safeHeaders : List String :=
  ["host", "user-agent", "content-type", "content-length"]

/-- `dict.pop(key, None)` -/
def pop (payload : Payload) (key : String) : Payload :=
  payload.filter fun field => !field.1.is key

/-- An assignment to a key that is there. -/
def assign (payload : Payload) (key : String) (value : Json) : Payload :=
  payload.map fun field =>
    if field.1.is key then (.text key, value) else field

/-- `name.lower() in _SAFE_HEADERS`, where only ASCII letters have lower-case
forms. -/
def isSafe (name : PyStr) : Bool :=
  name.toText.any fun text => safeHeaders.contains text.toLower

/-- The headers that stay. -/
def scrubHeaders (request : Payload) : Payload :=
  match Payload.get request "headers" with
  | .obj headers =>
      assign request "headers"
        (.obj (headers.filter fun header => isSafe header.1))
  | _ => request

/-- The URL that stays: a Unicode text, since servers decode a path that way. -/
def scrubUrl (request : Payload) : Payload :=
  match Payload.get request "url" with
  | .str (.text url) => assign request "url" (.str (redactUrl url))
  | _ => request

/-- What `_scrub_event` does to a request. -/
def scrubRequest (request : Payload) : Payload :=
  scrubUrl
    (scrubHeaders (pop (pop (pop request "data") "cookies") "query_string"))

/-- `_scrub_event` -/
def scrubEvent (event : Payload) : Payload :=
  let event :=
    match Payload.get event "request" with
    | .obj request => assign event "request" (.obj (scrubRequest request))
    | _ => event
  pop event "user"

/-! ## Paths that carry a token -/

/-- A character of `secrets.token_urlsafe`. -/
def isUrlsafe (char : Char) : Bool :=
  char.isAlphanum || char == '-' || char == '_'

/-- What `secrets.token_urlsafe(32)` mints for an invite or an invitation to an
organisation. -/
structure Token where
  text : String
  length : text.toList.length = 43
  urlsafe : text.toList.all isUrlsafe = true

/-- A path parameter: Starlette lets it be any text without a slash. -/
structure Segment where
  text : String
  nonempty : text.toList ≠ []
  noSlash : '/' ∉ text.toList

/-- The routes whose path holds the token of an invite or of an invitation to
an organisation. -/
inductive Route where
  | getInvite
  | startInvite
  | candidateRun
  | candidateRunTests
  | candidateSubmit
  | candidateIntegrityEvents
  | candidateFeedback
  | candidateDraft
  | getOrgInvite
  | acceptOrgInvite
  | revokeAnyInvite
  | revokeInvite (questionId : Segment)

/-- The path of a request on a route. -/
def Route.path (token : Token) : Route → String
  | .getInvite => "/invite/" ++ token.text
  | .startInvite => "/invite/" ++ token.text ++ "/start"
  | .candidateRun => "/invite/" ++ token.text ++ "/run"
  | .candidateRunTests => "/invite/" ++ token.text ++ "/run-tests"
  | .candidateSubmit => "/invite/" ++ token.text ++ "/submit"
  | .candidateIntegrityEvents => "/invite/" ++ token.text ++ "/events"
  | .candidateFeedback => "/invite/" ++ token.text ++ "/feedback"
  | .candidateDraft => "/invite/" ++ token.text ++ "/draft"
  | .getOrgInvite => "/org-invites/" ++ token.text
  | .acceptOrgInvite => "/org-invites/" ++ token.text ++ "/accept"
  | .revokeAnyInvite => "/invites/" ++ token.text ++ "/revoke"
  | .revokeInvite questionId =>
      "/questions/" ++ questionId.text ++ "/invites/" ++ token.text ++ "/revoke"

/-- A path with its query string, if any. -/
def withQuery (path : String) : Option String → String
  | none => path
  | some query => path ++ "?" ++ query

/-! ## Masking a path -/

section Masking

variable {chars rest : List Char} {segments : List (List Char)}

/-- The text of a path. -/
def pathText (segments : List (List Char)) : List Char :=
  segments.flatMap fun segment => '/' :: segment

/-- What redaction does to a path: it masks what stands after an `invite`. -/
def maskSegments : List (List Char) → List (List Char)
  | [] => []
  | [segment] => [segment]
  | segment :: next :: rest =>
      if segment = "invite".toList ∧ next ≠ [] then
        segment :: "<redacted>".toList :: maskSegments rest
      else segment :: maskSegments (next :: rest)

theorem maskTokens_nil : maskTokens [] = [] := by
  rw [maskTokens]

/-- Only a slash starts a match. -/
theorem maskTokens_append (noSlash : '/' ∉ chars) :
    maskTokens (chars ++ rest) = chars ++ maskTokens rest := by
  induction chars with
  | nil => rfl
  | cons char chars inductionHypothesis =>
      have isChar : '/' ≠ char := List.ne_of_not_mem_cons noSlash
      have others : '/' ∉ chars := List.not_mem_of_not_mem_cons noSlash
      have copied : startsWithToken (char :: (chars ++ rest)) = false := by
        have differs : ('/' == char) = false := beq_eq_false_iff_ne.mpr isChar
        simp [startsWithToken, List.isPrefixOf, differs]
      rw [List.cons_append, maskTokens, copied, inductionHypothesis others]
      rfl

/-- A slash that starts no match. -/
theorem maskTokens_slash (copied : startsWithToken ('/' :: rest) = false) :
    maskTokens ('/' :: rest) = '/' :: maskTokens rest := by
  rw [maskTokens, copied]
  rfl

/-- A match is replaced up to the end of its segment. -/
theorem maskTokens_invite (nonempty : chars ≠ [])
    (inside : ∀ char ∈ chars, inSegment char = true)
    (ends : ∀ char ∈ rest.head?, inSegment char = false) :
    maskTokens ("/invite/".toList ++ chars ++ rest) =
      "/invite/<redacted>".toList ++ maskTokens rest := by
  cases chars with
  | nil => exact absurd rfl nonempty
  | cons first chars =>
      have dropped : (first :: chars ++ rest).dropWhile inSegment = rest := by
        rw [List.dropWhile_append_of_pos inside]
        cases rest with
        | nil => rfl
        | cons char rest => simp [ends char rfl]
      have starts : startsWithToken
          ("/invite/".toList ++ (first :: chars) ++ rest) = true := by
        simp [startsWithToken, List.isPrefixOf, inside first List.mem_cons_self]
      have unfolded :
          maskTokens ("/invite/".toList ++ (first :: chars) ++ rest) =
            "/invite/<redacted>".toList ++
              maskTokens ((first :: chars ++ rest).dropWhile inSegment) := by
        have opened : "/invite/".toList ++ (first :: chars) ++ rest =
            '/' :: ("invite/".toList ++ (first :: chars) ++ rest) :=
          rfl
        rw [opened] at starts ⊢
        rw [maskTokens, if_pos starts]
        rfl
      rw [unfolded, dropped]

theorem head?_pathText :
    ∀ char ∈ (pathText segments).head?, char = '/' := by
  intro char isHead
  cases segments with
  | nil => cases isHead
  | cons segment segments => exact (Option.some.inj isHead).symm

/-- The first segment of a text that goes on as a path. -/
theorem takeWhile_segment (noSlash : '/' ∉ chars)
    (ends : ∀ char ∈ rest.head?, char = '/') :
    (chars ++ rest).takeWhile (· != '/') = chars := by
  have inside : ∀ char ∈ chars, (char != '/') = true := by
    intro char member
    exact bne_iff_ne.mpr fun isSlash => noSlash (isSlash ▸ member)
  rw [List.takeWhile_append_of_pos inside]
  cases rest with
  | nil => simp
  | cons char rest => simp [ends char rfl]

/-- In a path, a match starts at a segment `invite` with another behind it. -/
theorem startsWithToken_path (noSlash : '/' ∉ chars)
    (starts : startsWithToken ('/' :: (chars ++ pathText segments)) = true) :
    chars = "invite".toList ∧ ∃ next tail,
      segments = next :: tail ∧ next ≠ [] := by
  obtain ⟨isPrefix, follows⟩ := Bool.and_eq_true_iff.mp starts
  obtain ⟨tail, whole⟩ := List.isPrefixOf_iff_prefix.mp isPrefix
  have split : chars ++ pathText segments = "invite".toList ++ '/' :: tail :=
    (List.cons.inj whole).2.symm
  have isInvite : chars = "invite".toList := by
    rw [← takeWhile_segment noSlash head?_pathText, split]
    exact takeWhile_segment (by decide) fun char isHead =>
      (Option.some.inj isHead).symm
  rw [isInvite] at split
  have path : pathText segments = '/' :: tail := List.append_cancel_left split
  rw [← whole] at follows
  cases segments with
  | nil => cases path
  | cons next segments =>
      have isTail : next ++ pathText segments = tail := (List.cons.inj path).2
      refine ⟨isInvite, next, segments, rfl, ?_⟩
      rintro rfl
      have isHead : (pathText segments).head?.any inSegment = true := by
        rw [← isTail] at follows
        exact follows
      cases found : (pathText segments).head? with
      | none =>
          rw [found] at isHead
          cases isHead
      | some char =>
          rw [found, head?_pathText char found] at isHead
          cases isHead

/-- Redaction masks a path segment by segment. -/
theorem maskTokens_pathText
    (plain : ∀ segment ∈ segments, '/' ∉ segment ∧ '?' ∉ segment) :
    maskTokens (pathText segments) = pathText (maskSegments segments) := by
  fun_induction maskSegments segments with
  | case1 => exact maskTokens_nil
  | case2 segment =>
      have noSlash := (plain segment List.mem_cons_self).1
      have copied :
          startsWithToken ('/' :: (segment ++ pathText [])) = false := by
        apply Bool.eq_false_iff.mpr
        intro starts
        obtain ⟨-, next, tail, isNext, -⟩ := startsWithToken_path noSlash starts
        cases isNext
      have path : pathText [segment] = '/' :: (segment ++ pathText []) := rfl
      have ended : maskTokens (pathText []) = pathText [] := maskTokens_nil
      rw [path, maskTokens_slash copied, maskTokens_append noSlash, ended]
  | case3 segment next rest masked inductionHypothesis =>
      obtain ⟨rfl, nonempty⟩ := masked
      have inside : ∀ char ∈ next, inSegment char = true := by
        intro char member
        obtain ⟨noSlash, noMark⟩ := plain next (by simp)
        have isSlash : char ≠ '/' := fun equal => noSlash (equal ▸ member)
        have isMark : char ≠ '?' := fun equal => noMark (equal ▸ member)
        simp [inSegment, isSlash, isMark]
      have ends : ∀ char ∈ (pathText rest).head?, inSegment char = false := by
        intro char isHead
        rw [head?_pathText char isHead]
        rfl
      have path : pathText ("invite".toList :: next :: rest) =
          "/invite/".toList ++ next ++ pathText rest := by
        simp [pathText]
      rw [path, maskTokens_invite nonempty inside ends, inductionHypothesis]
      · simp [pathText]
      · intro segment member
        exact plain segment (by simp [member])
  | case4 segment next rest kept inductionHypothesis =>
      have noSlash := (plain segment List.mem_cons_self).1
      have copied :
          startsWithToken ('/' :: (segment ++ pathText (next :: rest))) =
            false := by
        apply Bool.eq_false_iff.mpr
        intro starts
        obtain ⟨isInvite, _, _, isNext, nonempty⟩ :=
          startsWithToken_path noSlash starts
        obtain ⟨rfl, -⟩ := List.cons.inj isNext
        exact kept ⟨isInvite, nonempty⟩
      have path : pathText (segment :: next :: rest) =
          '/' :: (segment ++ pathText (next :: rest)) := rfl
      rw [path, maskTokens_slash copied, maskTokens_append noSlash,
        inductionHypothesis]
      · rfl
      · intro other member
        exact plain other (List.mem_cons_of_mem segment member)

end Masking

/-! ## Paths with a token -/

section Paths

variable {token other : Token} {route : Route} {query : Option String}

/-- The segments of the path of a request. -/
def Route.segments (token : Token) : Route → List (List Char)
  | .getInvite => ["invite".toList, token.text.toList]
  | .startInvite => ["invite".toList, token.text.toList, "start".toList]
  | .candidateRun => ["invite".toList, token.text.toList, "run".toList]
  | .candidateRunTests =>
      ["invite".toList, token.text.toList, "run-tests".toList]
  | .candidateSubmit => ["invite".toList, token.text.toList, "submit".toList]
  | .candidateIntegrityEvents =>
      ["invite".toList, token.text.toList, "events".toList]
  | .candidateFeedback =>
      ["invite".toList, token.text.toList, "feedback".toList]
  | .candidateDraft => ["invite".toList, token.text.toList, "draft".toList]
  | .getOrgInvite => ["org-invites".toList, token.text.toList]
  | .acceptOrgInvite =>
      ["org-invites".toList, token.text.toList, "accept".toList]
  | .revokeAnyInvite => ["invites".toList, token.text.toList, "revoke".toList]
  | .revokeInvite questionId =>
      ["questions".toList, questionId.text.toList, "invites".toList,
        token.text.toList, "revoke".toList]

theorem Route.path_toList (token : Token) (route : Route) :
    (route.path token).toList = pathText (route.segments token) := by
  cases route <;>
    simp [Route.path, Route.segments, pathText, String.toList_append]

/-- The routes that the redactor has a pattern for. -/
def Route.isCandidate : Route → Bool
  | .getInvite | .startInvite | .candidateRun | .candidateRunTests
  | .candidateSubmit | .candidateIntegrityEvents | .candidateFeedback
  | .candidateDraft => true
  | .getOrgInvite | .acceptOrgInvite | .revokeAnyInvite | .revokeInvite _ =>
      false

/-- A question mark before the token: the redactor takes what follows for a
query string. -/
def Route.isCut : Route → Bool
  | .revokeInvite questionId => questionId.text.toList.contains '?'
  | _ => false

theorem Token.plain (token : Token) :
    '/' ∉ token.text.toList ∧ '?' ∉ token.text.toList := by
  have urlsafe := List.all_eq_true.mp token.urlsafe
  constructor
  · intro member
    exact absurd (urlsafe '/' member) (by decide)
  · intro member
    exact absurd (urlsafe '?' member) (by decide)

theorem Route.plain (uncut : route.isCut = false) :
    ∀ segment ∈ route.segments token, '/' ∉ segment ∧ '?' ∉ segment := by
  obtain ⟨noSlash, noMark⟩ := token.plain
  cases route with
  | revokeInvite questionId =>
      have isPlain : '?' ∉ questionId.text.toList := by
        simpa [Route.isCut] using uncut
      simp [Route.segments, noSlash, noMark, questionId.noSlash, isPlain]
  | _ => simp [Route.segments, noSlash, noMark]

theorem Token.ne_nil (token : Token) : token.text.toList ≠ [] := by
  intro isEmpty
  have length := token.length
  rw [isEmpty] at length
  cases length

/-- A URL without a question mark of its own, and any query string. -/
theorem redactUrl_plain {url : String} {before : List Char}
    {segments : List (List Char)}
    (isUrl : url.toList = before ++ pathText segments)
    (noSlash : '/' ∉ before) (noMark : '?' ∉ before)
    (plain : ∀ segment ∈ segments, '/' ∉ segment ∧ '?' ∉ segment) :
    redactUrl (withQuery url query) =
      String.ofList (before ++ pathText (maskSegments segments)) ++
        (if query.isSome then "?<redacted>" else "") := by
  have noMarks : '?' ∉ url.toList := by
    rw [isUrl]
    intro member
    rcases List.mem_append.mp member with isBefore | isPath
    · exact noMark isBefore
    · obtain ⟨segment, isSegment, inPath⟩ := List.mem_flatMap.mp isPath
      rcases List.mem_cons.mp inPath with isSlash | inSegment
      · cases isSlash
      · exact (plain segment isSegment).2 inSegment
  have masked : maskTokens url.toList =
      before ++ pathText (maskSegments segments) := by
    rw [isUrl, maskTokens_append noSlash, maskTokens_pathText plain]
  have all : ∀ char ∈ url.toList, (char != '?') = true := by
    intro char member
    exact bne_iff_ne.mpr fun isMark => noMarks (isMark ▸ member)
  cases query with
  | none =>
      have whole : url.toList.takeWhile (· != '?') = url.toList := by
        have appended : (url.toList ++ []).takeWhile (· != '?') =
            url.toList ++ [] :=
          List.takeWhile_append_of_pos all
        simpa using appended
      have absent : url.toList.contains '?' = false := by
        simpa using noMarks
      simp only [withQuery, redactUrl, whole, absent, masked]
      rfl
  | some text =>
      have path : (url ++ "?" ++ text).toList.takeWhile (· != '?') =
          url.toList := by
        rw [String.toList_append, String.toList_append, List.append_assoc,
          List.takeWhile_append_of_pos all]
        simp
      have present : (url ++ "?" ++ text).toList.contains '?' = true := by
        simp [String.toList_append]
      simp only [withQuery, redactUrl, path, present, masked]
      rfl

/-- What stands behind a question mark is dropped. -/
theorem redactUrl_cut {url : String} {start rest : List Char}
    (isUrl : url.toList = start ++ rest) (marked : '?' ∈ start) :
    redactUrl (withQuery url query) =
      String.ofList (maskTokens (start.takeWhile (· != '?'))) ++
        "?<redacted>" := by
  obtain ⟨more, whole⟩ : ∃ more,
      (withQuery url query).toList = start ++ more := by
    cases query with
    | none => exact ⟨rest, isUrl⟩
    | some text =>
        refine ⟨rest ++ ("?" ++ text).toList, ?_⟩
        simp [withQuery, isUrl, String.toList_append]
  have path : (start ++ more).takeWhile (· != '?') =
      start.takeWhile (· != '?') := by
    obtain ⟨first, last, rfl, unmarked⟩ := List.eq_append_cons_of_mem marked
    have all : ∀ char ∈ first, (char != '?') = true := by
      intro char member
      exact bne_iff_ne.mpr fun isMark => unmarked (isMark ▸ member)
    rw [List.append_assoc, List.takeWhile_append_of_pos all,
      List.takeWhile_append_of_pos all]
    simp
  have present : (start ++ more).contains '?' = true := by
    simp [marked]
  rw [redactUrl, whole, path, present]
  rfl

/-- Where a URL of the API starts: at its path, or with scheme and host. -/
inductive Base where
  | none
  | origin (scheme host : String)
      (plain : (scheme ++ host).toList.all inSegment = true)

/-- A URL on a base. -/
def Base.url (path : String) : Base → String
  | .none => path
  | .origin scheme host _ => scheme ++ "://" ++ host ++ path

/-- The characters of a base before its first slash. -/
def Base.before : Base → List Char
  | .none => []
  | .origin scheme _ _ => scheme.toList ++ [':']

/-- The segments of a base. -/
def Base.segments : Base → List (List Char)
  | .none => []
  | .origin _ host _ => ["".toList, host.toList]

/-- A host that is taken for the first segment of a candidate's path. -/
def Base.isInvite : Base → Bool
  | .none => false
  | .origin _ host _ => host == "invite"

theorem Base.url_toList {base : Base} {path : String}
    {segments : List (List Char)} (isPath : path.toList = pathText segments) :
    (base.url path).toList =
      base.before ++ pathText (base.segments ++ segments) := by
  cases base with
  | none => exact isPath
  | origin scheme host plain =>
      simp [Base.url, Base.before, Base.segments, pathText, isPath,
        String.toList_append]

theorem Base.plain (base : Base) :
    ('/' ∉ base.before ∧ '?' ∉ base.before) ∧
      ∀ segment ∈ base.segments, '/' ∉ segment ∧ '?' ∉ segment := by
  cases base with
  | none => simp [Base.before, Base.segments]
  | origin scheme host plain =>
      have noSlash : '/' ∉ (scheme ++ host).toList := fun member =>
        absurd (List.all_eq_true.mp plain '/' member) (by decide)
      have noMark : '?' ∉ (scheme ++ host).toList := fun member =>
        absurd (List.all_eq_true.mp plain '?' member) (by decide)
      rw [String.toList_append, List.mem_append, not_or] at noSlash noMark
      simp [Base.before, Base.segments, noSlash, noMark]

/-- The redacted URL of a request whose path has no question mark. -/
theorem redactUrl_uncut (base : Base) (uncut : route.isCut = false) :
    redactUrl (withQuery (base.url (route.path token)) query) =
      String.ofList (base.before ++
        pathText (maskSegments (base.segments ++ route.segments token))) ++
        (if query.isSome then "?<redacted>" else "") := by
  obtain ⟨⟨noSlash, noMark⟩, isPlain⟩ := base.plain
  apply redactUrl_plain (base.url_toList (route.path_toList token)) noSlash
    noMark
  intro segment member
  rcases List.mem_append.mp member with isBase | isRoute
  · exact isPlain segment isBase
  · exact Route.plain uncut segment isRoute

theorem maskSegments_other {segment : List Char} {rest : List (List Char)}
    (differs : segment ≠ "invite".toList) :
    maskSegments (segment :: rest) = segment :: maskSegments rest := by
  cases rest with
  | nil => rfl
  | cons next rest => exact if_neg fun masked => differs masked.1

theorem maskSegments_invite {next : List Char} {rest : List (List Char)}
    (nonempty : next ≠ []) :
    maskSegments ("invite".toList :: next :: rest) =
      "invite".toList :: "<redacted>".toList :: maskSegments rest :=
  if_pos ⟨rfl, nonempty⟩

theorem Token.ne_invite (token : Token) :
    token.text.toList ≠ "invite".toList := by
  intro same
  have length := token.length
  rw [same] at length
  cases length

/-- The segments of a route: one that is the same for all tokens, and others. -/
theorem Route.segments_cons (route : Route) :
    ∃ first, first ≠ [] ∧ ∀ token,
      route.segments token = first :: (route.segments token).tail := by
  cases route with
  | getOrgInvite | acceptOrgInvite =>
      exact ⟨"org-invites".toList, by simp, fun _ => rfl⟩
  | revokeAnyInvite => exact ⟨"invites".toList, by simp, fun _ => rfl⟩
  | revokeInvite questionId =>
      exact ⟨"questions".toList, by simp, fun _ => rfl⟩
  | _ => exact ⟨"invite".toList, by simp, fun _ => rfl⟩

/-- The pattern masks the token of a candidate's path. -/
theorem maskSegments_candidate (candidate : route.isCandidate = true)
    (first second : Token) :
    maskSegments (route.segments first) =
      maskSegments (route.segments second) := by
  have hidden (rest : List (List Char)) :
      maskSegments ("invite".toList :: first.text.toList :: rest) =
        maskSegments ("invite".toList :: second.text.toList :: rest) := by
    rw [maskSegments_invite first.ne_nil, maskSegments_invite second.ne_nil]
  cases route with
  | getOrgInvite | acceptOrgInvite | revokeAnyInvite => cases candidate
  | revokeInvite questionId => cases candidate
  | _ => exact hidden _

/-- A path after its first segments keeps a token that it starts with. -/
theorem pathText_token {first second : Token} {rest : List (List Char)}
    (same : pathText (maskSegments (first.text.toList :: rest)) =
      pathText (maskSegments (second.text.toList :: rest))) :
    first.text = second.text := by
  rw [maskSegments_other first.ne_invite,
    maskSegments_other second.ne_invite] at same
  have texts := List.append_cancel_right (List.cons.inj same).2
  exact String.toList_inj.mp texts

/-- Two redacted paths that are the same go on alike behind a segment. -/
theorem pathText_peel {segment : List Char} {left right : List (List Char)}
    (differs : segment ≠ "invite".toList)
    (same : pathText (maskSegments (segment :: left)) =
      pathText (maskSegments (segment :: right))) :
    pathText (maskSegments left) = pathText (maskSegments right) := by
  rw [maskSegments_other differs, maskSegments_other differs] at same
  exact List.append_cancel_left same

theorem pathText_peel_invite {next : List Char} {left right : List (List Char)}
    (nonempty : next ≠ [])
    (same : pathText (maskSegments ("invite".toList :: next :: left)) =
      pathText (maskSegments ("invite".toList :: next :: right))) :
    pathText (maskSegments left) = pathText (maskSegments right) := by
  rw [maskSegments_invite nonempty, maskSegments_invite nonempty] at same
  exact List.append_cancel_left (List.append_cancel_left same)

/-- The path of a question's invite keeps its token, whether the question is
called `invite` or not. -/
theorem pathText_revokeInvite {first second : Token} {questionId : List Char}
    (same : pathText (maskSegments
        [questionId, "invites".toList, first.text.toList, "revoke".toList]) =
      pathText (maskSegments
        [questionId, "invites".toList, second.text.toList,
          "revoke".toList])) :
    first.text = second.text := by
  by_cases isInvite : questionId = "invite".toList
  · subst isInvite
    exact pathText_token (pathText_peel_invite (by simp) same)
  · exact pathText_token (pathText_peel (by simp) (pathText_peel isInvite same))

/-- The redacted path on any other route determines the token. -/
theorem pathText_leaks {first second : Token}
    (other : route.isCandidate = false)
    (same : pathText (maskSegments (route.segments first)) =
      pathText (maskSegments (route.segments second))) :
    first.text = second.text := by
  cases route with
  | getOrgInvite | acceptOrgInvite =>
      have differs : "org-invites".toList ≠ "invite".toList := by simp
      exact pathText_token (pathText_peel differs same)
  | revokeAnyInvite =>
      have differs : "invites".toList ≠ "invite".toList := by simp
      exact pathText_token (pathText_peel differs same)
  | revokeInvite questionId =>
      have differs : "questions".toList ≠ "invite".toList := by simp
      exact pathText_revokeInvite (pathText_peel differs same)
  | _ => cases other

/-- So does that of every route without its first segment. -/
theorem pathText_tail_leaks {first second : Token} (route : Route)
    (same : pathText (maskSegments (route.segments first).tail) =
      pathText (maskSegments (route.segments second).tail)) :
    first.text = second.text := by
  cases route with
  | revokeInvite questionId => exact pathText_revokeInvite same
  | _ => exact pathText_token same

/-- The redacted path behind scheme and host hides the token on the candidates'
routes, except where the host is called `invite`; otherwise it determines the
token. -/
theorem pathText_base {base : Base} {first second : Token} :
    (pathText (maskSegments (base.segments ++ route.segments first)) =
      pathText (maskSegments (base.segments ++ route.segments second))) ↔
      (route.isCandidate = true ∧ base.isInvite = false) ∨
        first.text = second.text := by
  constructor
  · intro same
    cases base with
    | none =>
        cases candidate : route.isCandidate with
        | true => exact .inl ⟨rfl, rfl⟩
        | false => exact .inr (pathText_leaks candidate same)
    | origin scheme host plain =>
        have empty : "".toList ≠ "invite".toList := by simp
        have behind : pathText (maskSegments
              (host.toList :: route.segments first)) =
            pathText (maskSegments (host.toList :: route.segments second)) :=
          pathText_peel empty same
        by_cases named : host = "invite"
        · right
          subst named
          obtain ⟨head, nonempty, isHead⟩ := route.segments_cons
          rw [isHead first, isHead second] at behind
          exact pathText_tail_leaks route
            (pathText_peel_invite nonempty behind)
        · have apart : host.toList ≠ "invite".toList :=
            fun equal => named (String.toList_inj.mp equal)
          cases candidate : route.isCandidate with
          | true => exact .inl ⟨rfl, beq_eq_false_iff_ne.mpr named⟩
          | false =>
              exact .inr (pathText_leaks candidate (pathText_peel apart behind))
  · rintro (⟨candidate, apart⟩ | same)
    · have hidden := maskSegments_candidate candidate first second
      cases base with
      | none => exact congrArg pathText hidden
      | origin scheme host plain =>
          have other : host.toList ≠ "invite".toList := fun equal =>
            beq_eq_false_iff_ne.mp apart (String.toList_inj.mp equal)
          have empty : "".toList ≠ "invite".toList := by simp
          simp only [Base.segments, List.cons_append, List.nil_append]
          rw [maskSegments_other empty, maskSegments_other empty,
            maskSegments_other other, maskSegments_other other, hidden]
    · have equal : first = second := by
        cases first
        cases second
        cases same
        rfl
      rw [equal]

end Paths

/-! ## What is reported of a request -/

section Reports

variable {route : Route} {query : Option String}

/-- The token does not get through: what a question mark cuts off is dropped,
and the pattern masks the candidates' routes. -/
def Base.hides (base : Base) (route : Route) : Bool :=
  route.isCut || (route.isCandidate && !base.isInvite)

/-- The text of a URL before the token of a route with a question id. -/
theorem Base.url_revokeInvite (base : Base) (questionId : Segment) :
    ∃ rest : Token → List Char, ∀ token,
      (base.url ((Route.revokeInvite questionId).path token)).toList =
        (base.url ("/questions/" ++ questionId.text)).toList ++ rest token := by
  refine ⟨fun token => ("/invites/" ++ token.text ++ "/revoke").toList, ?_⟩
  intro token
  cases base <;> simp [Base.url, Route.path, String.toList_append]

theorem redactUrl_same (base : Base) (route : Route) (query : Option String)
    (first second : Token) :
    redactUrl (withQuery (base.url (route.path first)) query) =
        redactUrl (withQuery (base.url (route.path second)) query) ↔
      base.hides route = true ∨ first.text = second.text := by
  cases cut : route.isCut with
  | true =>
      have hides : base.hides route = true := by simp [Base.hides, cut]
      refine iff_of_true ?_ (.inl hides)
      cases route with
      | revokeInvite questionId =>
          obtain ⟨rest, isUrl⟩ := base.url_revokeInvite questionId
          have marked :
              '?' ∈ (base.url ("/questions/" ++ questionId.text)).toList := by
            have member : '?' ∈ questionId.text.toList := by
              simpa [Route.isCut] using cut
            cases base <;> simp [Base.url, String.toList_append, member]
          rw [redactUrl_cut (isUrl first) marked,
            redactUrl_cut (isUrl second) marked]
      | _ => cases cut
  | false =>
      have hides : base.hides route = true ↔
          route.isCandidate = true ∧ base.isInvite = false := by
        simp [Base.hides, cut]
      rw [redactUrl_uncut base cut, redactUrl_uncut base cut, hides,
        ← pathText_base]
      constructor
      · intro same
        have texts := congrArg String.toList same
        rw [String.toList_append, String.toList_append,
          String.toList_ofList, String.toList_ofList] at texts
        exact List.append_cancel_left (List.append_cancel_right texts)
      · intro same
        rw [same]

/-- Two tokens to compare. -/
def repeated (char : Char) (urlsafe : isUrlsafe char = true) : Token where
  text := String.ofList (List.replicate 43 char)
  length := by simp
  urlsafe := by simpa using urlsafe

theorem repeated_ne :
    (repeated 'A' (by decide)).text ≠ (repeated 'B' (by decide)).text := by
  intro same
  have lists := congrArg String.toList same
  simp [repeated] at lists

theorem redactUrl_hides (base : Base) (route : Route)
    (query : Option String) :
    (∀ first second,
      redactUrl (withQuery (base.url (route.path first)) query) =
        redactUrl (withQuery (base.url (route.path second)) query)) ↔
      base.hides route = true := by
  constructor
  · intro same
    exact ((redactUrl_same base route query _ _).mp (same _ _)).resolve_right
      repeated_ne
  · intro hides first second
    exact (redactUrl_same base route query first second).mpr (.inl hides)

theorem path_injective {first second : Token}
    (same : withQuery (route.path first) query =
      withQuery (route.path second) query) :
    first.text = second.text := by
  have paths : route.path first = route.path second := by
    cases query with
    | none => exact same
    | some text =>
        have lists := congrArg String.toList same
        simpa [withQuery, String.toList_append, String.toList_inj] using lists
  have lists := congrArg String.toList paths
  cases route <;>
    simpa [Route.path, String.toList_append, String.toList_inj] using lists

/-- What may come with a request into an error report, beside its URL. -/
structure Secrets where
  data : Json
  cookies : Json
  queryString : Json
  user : Json
  headers : Payload
  unsafeNames : ∀ header ∈ headers, isSafe header.1 = false

/-- An error report. -/
def errorEvent (url : String) (headers request event : Payload)
    (secrets : Secrets) : Payload :=
  ("request", .obj
    (("url", .str url) :: ("data", secrets.data) ::
      ("cookies", secrets.cookies) :: ("query_string", secrets.queryString) ::
      ("headers", .obj (headers ++ secrets.headers)) :: request)) ::
    ("user", secrets.user) :: event

/-- The request of a scrubbed report. -/
def scrubbedRequest (url : String) (headers request : Payload) : Payload :=
  let kept : Json := .obj (headers.filter fun header => isSafe header.1)
  ("url", .str (redactUrl url)) :: ("headers", kept) ::
    assign (assign (pop (pop (pop request "data") "cookies") "query_string")
      "headers" kept) "url" (.str (redactUrl url))

/-- Every header that is not safe is dropped. -/
theorem filter_headers (headers : Payload) (secrets : Secrets) :
    ((headers ++ secrets.headers).filter fun header => isSafe header.1) =
      headers.filter fun header => isSafe header.1 := by
  have dropped :
      (secrets.headers.filter fun header => isSafe header.1) = [] := by
    apply List.filter_eq_nil_iff.mpr
    intro header member safe
    rw [secrets.unsafeNames header member] at safe
    cases safe
  rw [List.filter_append, dropped, List.append_nil]

theorem scrubHeaders_cons (url : String) (headers rest : Payload) :
    scrubHeaders (("url", .str url) :: ("headers", .obj headers) :: rest) =
      let kept : Json := .obj (headers.filter fun header => isSafe header.1)
      (("url", .str url) :: ("headers", kept) :: assign rest "headers" kept :
        Payload) :=
  rfl

theorem scrubUrl_cons (url : String) (headers : Json) (rest : Payload) :
    scrubUrl (("url", .str url) :: ("headers", headers) :: rest) =
      (("url", .str (redactUrl url)) :: ("headers", headers) ::
        assign rest "url" (.str (redactUrl url)) : Payload) :=
  rfl

theorem scrubRequest_eq (url : String) (headers request : Payload)
    (secrets : Secrets) :
    scrubRequest
      (("url", .str url) :: ("data", secrets.data) ::
        ("cookies", secrets.cookies) ::
        ("query_string", secrets.queryString) ::
        ("headers", .obj (headers ++ secrets.headers)) :: request) =
      scrubbedRequest url headers request := by
  unfold scrubRequest
  have popped :
      pop (pop (pop
        (("url", .str url) :: ("data", secrets.data) ::
          ("cookies", secrets.cookies) ::
          ("query_string", secrets.queryString) ::
          ("headers", .obj (headers ++ secrets.headers)) :: request)
        "data") "cookies") "query_string" =
        (("url", .str url) ::
          ("headers", .obj (headers ++ secrets.headers)) ::
          pop (pop (pop request "data") "cookies") "query_string" : Payload) :=
    rfl
  rw [popped, scrubHeaders_cons, filter_headers]
  exact scrubUrl_cons ..

/-- A scrubbed report depends on the redacted URL and on nothing secret. -/
theorem scrubEvent_errorEvent (url : String) (headers request event : Payload)
    (secrets : Secrets) :
    scrubEvent (errorEvent url headers request event secrets) =
      (("request", .obj (scrubbedRequest url headers request)) ::
        pop (assign event "request"
          (.obj (scrubbedRequest url headers request))) "user" :
            Payload) := by
  have scrubbed := scrubRequest_eq url headers request secrets
  simp [scrubEvent, errorEvent, pop, assign, Payload.get, scrubbed]

/-- Redaction, access lines and error reports hide the token of a request if and
only if its path has a question mark before the token, or is a candidate's (and
is not read as another one because the host of the URL is called `invite`) — and
for access lines also only with `LOG_PII` off.  In the access lines that uvicorn
writes no question mark stands before the token. -/
theorem redaction_exact (route : Route) (query : Option String) :
    (∀ base : Base,
      (∀ first second,
        redactUrl (withQuery (base.url (route.path first)) query) =
          redactUrl (withQuery (base.url (route.path second)) query)) ↔
        base.hides route = true) ∧
    (∀ logPii clientAddr method httpVersion statusCode,
      (∀ first second,
        filterArgs logPii (accessArgs clientAddr method
            (withQuery (route.path first) query) httpVersion statusCode) =
          filterArgs logPii (accessArgs clientAddr method
            (withQuery (route.path second) query) httpVersion statusCode)) ↔
        logPii = false ∧ Base.none.hides route = true) ∧
    ∀ (base : Base) (headers request event : Payload)
      (secrets : Token → Secrets),
      (∀ first second,
        scrubEvent (errorEvent
            (withQuery (base.url (route.path first)) query) headers request
            event (secrets first)) =
          scrubEvent (errorEvent
            (withQuery (base.url (route.path second)) query) headers request
            event (secrets second))) ↔
        base.hides route = true := by
  refine ⟨fun base => redactUrl_hides base route query, ?_, ?_⟩
  · intro logPii clientAddr method httpVersion statusCode
    cases logPii with
    | true =>
        apply iff_of_false
        · intro same
          apply repeated_ne
          have lines :=
            same (repeated 'A' (by decide)) (repeated 'B' (by decide))
          exact path_injective (by simpa [filterArgs, accessArgs] using lines)
        · rintro ⟨⟨⟩, -⟩
    | false =>
        rw [← redactUrl_hides Base.none route query]
        simp [filterArgs, accessArgs, pathArg, Base.url]
  · intro base headers request event secrets
    rw [← redactUrl_hides base route query]
    constructor
    · intro same first second
      have events := same first second
      rw [scrubEvent_errorEvent, scrubEvent_errorEvent] at events
      obtain ⟨requests, -⟩ := List.cons.inj events
      have urls := (List.cons.inj (Json.obj.inj (Prod.mk.inj requests).2)).1
      exact PyStr.text.inj (Json.str.inj (Prod.mk.inj urls).2)
    · intro same first second
      rw [scrubEvent_errorEvent, scrubEvent_errorEvent, scrubbedRequest,
        scrubbedRequest, same first second]

/-- The token of an organisation's invitation stays in its redacted path. -/
theorem org_invite_unredacted :
    ¬∀ (route : Route) (query : Option String) (first second : Token),
      redactUrl (withQuery (route.path first) query) =
        redactUrl (withQuery (route.path second) query) := by
  intro hides
  have same := hides .acceptOrgInvite none (repeated 'A' (by decide))
    (repeated 'B' (by decide))
  exact repeated_ne
    (((redactUrl_same .none .acceptOrgInvite none _ _).mp same).resolve_left
      (by decide))

end Reports

end AssessmentPlatform.Redaction
