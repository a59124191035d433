import AssessmentPlatform.Payments.Webhook
import Mathlib.Data.List.Induction
import Mathlib.Data.List.Nodup
import Mathlib.Data.List.ReduceOption

/-!
# Deliveries out of order

Stripe delivers an event at least once and in any order.  The order matters in
each column that some event says something else of than the history says in the
end, and only among the events that the webhook heeds: every event that it can
read, except the deletion of a subscription while another one is linked.
-/

namespace AssessmentPlatform.Payments

/-! ## Places -/

section Places

variable {Value : Type} {value other : Value} {places : List (Option Value)}

/-- A value is the last one that the places of a sequence say. -/
def SaidLast (value : Value) (places : List (Option Value)) : Prop :=
  ∃ before after, places = before ++ some value :: after ∧
    ∀ said ∈ after, said = none

/-- Every place that says something else than a value is followed by a place
that says the value. -/
def Overruled (value : Value) (places : List (Option Value)) : Prop :=
  ∀ before other after, places = before ++ some other :: after →
    other ≠ value → some value ∈ after

theorem saidLast_iff :
    SaidLast value places ↔ places.reduceOption.getLast? = some value := by
  constructor
  · rintro ⟨before, after, rfl, silent⟩
    have nothing : after.reduceOption = [] :=
      List.filterMap_eq_nil_iff.mpr silent
    simp [List.reduceOption_append, List.reduceOption_cons_of_some, nothing]
  · induction places using List.reverseRecOn with
    | nil => exact nofun
    | append_singleton places said hypothesis =>
        intro isLast
        rw [List.reduceOption_append] at isLast
        cases said with
        | none =>
            obtain ⟨before, after, rfl, silent⟩ :=
              hypothesis (by simpa using isLast)
            refine ⟨before, after ++ [none], by simp, ?_⟩
            intro said member
            rcases List.mem_append.mp member with old | new
            · exact silent said old
            · exact List.mem_singleton.mp new
        | some last =>
            obtain rfl : last = value := by simpa using isLast
            exact ⟨places, [], rfl, nofun⟩

theorem SaidLast.eq (first : SaidLast value places)
    (second : SaidLast other places) : value = other := by
  have same := (saidLast_iff.mp first).symm.trans (saidLast_iff.mp second)
  exact Option.some.inj same

/-- What is said last overrules whatever else is said, and nothing else
does. -/
theorem SaidLast.overruled_iff (isLast : SaidLast other places) :
    Overruled value places ↔ other = value := by
  constructor
  · obtain ⟨before, after, rfl, silent⟩ := isLast
    intro overruled
    by_contra different
    cases silent _ (overruled before other after rfl different)
  · rintro rfl before wrong after rfl different
    have last := saidLast_iff.mp isLast
    rw [List.reduceOption_append, List.reduceOption_cons_of_some,
      List.getLast?_append, List.getLast?_cons, Option.some_or] at last
    cases rest : after.reduceOption.getLast? with
    | none =>
        rw [rest] at last
        exact absurd (Option.some.inj last) different
    | some final =>
        rw [rest] at last
        obtain rfl : final = other := Option.some.inj last
        exact List.reduceOption_mem_iff.mp (List.mem_of_getLast? rest)

end Places

variable {settings : Settings} {row : Organization} {event : ReadEvent}
variable {before events : List ReadEvent}

/-! ## What an event says -/

/-- The columns that mirror Stripe. -/
inductive Column where
  | plan
  | planStatus
  | stripeSubscriptionId
  deriving DecidableEq, Repr

/-- What an organisation holds in a column. -/
def Column.held (row : Organization) : Column → Option String
  | .plan => some row.plan
  | .planStatus => some row.planStatus
  | .stripeSubscriptionId => row.stripeSubscriptionId

/-- The part of a row that mirrors Stripe. -/
structure Standing where
  plan : String
  planStatus : String
  stripeSubscriptionId : Option String
  deriving DecidableEq, Repr

/-- The billing state of an organisation. -/
def standing (row : Organization) : Standing :=
  ⟨row.plan, row.planStatus, row.stripeSubscriptionId⟩

theorem standing_eq_iff {other : Organization} :
    standing row = standing other ↔
      ∀ column : Column, column.held row = column.held other := by
  constructor
  · intro same column
    have plan : row.plan = other.plan := congrArg Standing.plan same
    have status : row.planStatus = other.planStatus :=
      congrArg Standing.planStatus same
    have linked : row.stripeSubscriptionId = other.stripeSubscriptionId :=
      congrArg Standing.stripeSubscriptionId same
    cases column <;> simp [Column.held, plan, status, linked]
  · intro same
    have plan := Option.some.inj (same .plan)
    have status := Option.some.inj (same .planStatus)
    have linked : row.stripeSubscriptionId = other.stripeSubscriptionId :=
      same .stripeSubscriptionId
    rw [standing, standing, plan, status, linked]

/-- What an event says of each column; `none` where it says nothing. -/
structure Word where
  plan : Option String := none
  planStatus : Option String := none
  stripeSubscriptionId : Option (Option String) := none

/-- What a word says of one column. -/
def Column.said (word : Word) : Column → Option (Option String)
  | .plan => word.plan.map some
  | .planStatus => word.planStatus.map some
  | .stripeSubscriptionId => word.stripeSubscriptionId

/-- The word of an event, whatever the state that it arrives in. -/
def wordOf (settings : Settings) (event : ReadEvent) : Word :=
  match event.type with
  | .checkoutSessionCompleted =>
      { stripeSubscriptionId :=
          (asStr (event.object.get "subscription")).map some }
  | .customerSubscriptionCreated | .customerSubscriptionUpdated =>
      match subscriptionFrom settings event.object with
      | some (some subscription) =>
          { plan := subscription.plan
            planStatus := some subscription.status
            stripeSubscriptionId := some (some subscription.id) }
      | _ => {}
  | .customerSubscriptionDeleted =>
      { plan := some "free"
        planStatus := some "canceled"
        stripeSubscriptionId := some none }
  | .other _ => {}

/-- The subscription that an event links to the organisation. -/
def links (settings : Settings) (event : ReadEvent) : Option String :=
  (wordOf settings event).stripeSubscriptionId.join

/-- An event deletes the subscription `current`. -/
def cancels (current : String) (event : ReadEvent) : Bool :=
  event.type == .customerSubscriptionDeleted &&
    event.object.get "id" == .str current

/-! ## The events that are heeded -/

/-- The subscription linked last, and the events since. -/
def sinceLink (settings : Settings) (start : Option String)
    (events : List ReadEvent) : Option String × List ReadEvent :=
  events.foldl
    (fun (linked, later) event =>
      match links settings event with
      | some subscription => (some subscription, [])
      | none => (linked, later ++ [event]))
    (start, [])

/-- The subscription linked last, unless an event since has deleted it. -/
def stillLinked (linked : Option String × List ReadEvent) : Option String :=
  linked.1.filter fun subscription =>
    subscription != "" && !linked.2.any (cancels subscription)

/-- After the events `before`, another subscription than that of `event` is
linked. -/
def supersededBy (settings : Settings) (start : Option String)
    (before : List ReadEvent) (event : ReadEvent) : Bool :=
  (stillLinked (sinceLink settings start before)).any
    fun subscription : String => event.object.get "id" != .str subscription

/-- An event counts, unless it deletes a subscription that is superseded. -/
def heeds (settings : Settings) (start : Option String)
    (before : List ReadEvent) (event : ReadEvent) : Bool :=
  event.type != .customerSubscriptionDeleted ||
    !supersededBy settings start before event

/-- The events of a sequence that count, after the events `before`. -/
def heeded (settings : Settings) (start : Option String)
    (before : List ReadEvent) : List ReadEvent → List ReadEvent
  | [] => []
  | event :: events =>
      if heeds settings start before event then
        event :: heeded settings start (before ++ [event]) events
      else heeded settings start (before ++ [event]) events

/-- The places of a column: what an organisation held, and what each event of a
sequence says that counts. -/
def Column.places (settings : Settings) (row : Organization)
    (events : List ReadEvent) (column : Column) :
    List (Option (Option String)) :=
  some (column.held row) ::
    (heeded settings row.stripeSubscriptionId [] events).map fun event =>
      column.said (wordOf settings event)

/-- In every column, each event of the deliveries that counts there and says
something else than the history says last, and what the organisation held at
first, is followed by an event that counts there and says the same as the
history does. -/
def InOrder (settings : Settings) (row : Organization)
    (history deliveries : List ReadEvent) : Prop :=
  ∀ (column : Column) value,
    SaidLast value (column.places settings row history) →
      Overruled value (column.places settings row deliveries)

/-! ## One organisation -/

/-- What a sequence of events makes of an organisation. -/
def rowAfter (settings : Settings) (row : Organization)
    (events : List ReadEvent) : Organization :=
  events.foldl (fun row event => (handleEvent settings row event).1) row

theorem rowAfter_snoc :
    rowAfter settings row (events ++ [event]) =
      (handleEvent settings (rowAfter settings row events) event).1 := by
  simp [rowAfter]

theorem sinceLink_snoc (start : Option String) :
    sinceLink settings start (events ++ [event]) =
      match links settings event with
      | some subscription => (some subscription, [])
      | none =>
          ((sinceLink settings start events).1,
            (sinceLink settings start events).2 ++ [event]) := by
  simp only [sinceLink, List.foldl_append, List.foldl_cons, List.foldl_nil]

theorem heeded_snoc (start : Option String) :
    heeded settings start before (events ++ [event]) =
      heeded settings start before events ++
        if heeds settings start (before ++ events) event then [event]
        else [] := by
  induction events generalizing before with
  | nil =>
      simp only [List.nil_append, heeded, List.append_nil]
  | cons first events hypothesis =>
      have next := @hypothesis (before ++ [first])
      rw [List.append_assoc, List.singleton_append] at next
      simp only [List.cons_append, heeded, next]
      split <;> rfl

/-- The subscription that the webhook takes for the current one: an empty id
counts as none. -/
def current (row : Organization) : Option String :=
  row.stripeSubscriptionId.filter (· != "")

theorem staleCancellation_eq (row : Organization) (event : ReadEvent) :
    staleCancellation row event.object =
      (current row).any fun subscription : String =>
        event.object.get "id" != .str subscription := by
  cases linked : row.stripeSubscriptionId with
  | none => simp [staleCancellation, current, linked]
  | some subscription =>
      by_cases empty : subscription = ""
      · simp [staleCancellation, current, linked, empty]
      · simp [staleCancellation, current, linked, Option.filter, empty]

/-- An event that is heeded writes its word, any other one nothing. -/
theorem held_handleEvent (settings : Settings) (row : Organization)
    (event : ReadEvent) (column : Column) :
    column.held (handleEvent settings row event).1 =
      if event.type = .customerSubscriptionDeleted ∧
          staleCancellation row event.object then column.held row
      else (column.said (wordOf settings event)).getD (column.held row) := by
  cases isType : event.type with
  | checkoutSessionCompleted =>
      cases named : asStr (event.object.get "subscription") <;>
        cases column <;>
          simp [handleEvent, wordOf, isType, checkoutCompleted, Column.held,
            Column.said, named]
  | customerSubscriptionCreated | customerSubscriptionUpdated =>
      cases read : subscriptionFrom settings event.object with
      | none =>
          cases column <;>
            simp [handleEvent, wordOf, isType, read, Column.said]
      | some found =>
          cases found with
          | none =>
              cases column <;>
                simp [handleEvent, wordOf, isType, read, Column.said]
          | some subscription =>
              cases plan : subscription.plan <;> cases column <;>
                simp [handleEvent, wordOf, isType, read, Column.held,
                  Column.said, subscriptionUpdated, plan]
  | customerSubscriptionDeleted =>
      by_cases isStale : staleCancellation row event.object
      · simp [handleEvent, isType, isStale]
      · cases column <;>
          simp [handleEvent, wordOf, isType, isStale, Column.held,
            Column.said, subscriptionDeleted]
  | other name =>
      cases column <;> simp [handleEvent, wordOf, isType, Column.said]

/-- The word of a deletion. -/
theorem wordOf_deletion
    (isDeletion : event.type = .customerSubscriptionDeleted) :
    wordOf settings event =
      { plan := some "free"
        planStatus := some "canceled"
        stripeSubscriptionId := some none } := by
  simp [wordOf, isDeletion]

theorem links_deletion
    (isDeletion : event.type = .customerSubscriptionDeleted) :
    links settings event = none := by
  simp [links, wordOf_deletion isDeletion]

/-- Only a deletion clears the column without linking another subscription. -/
theorem word_of_links
    (notDeletion : event.type ≠ .customerSubscriptionDeleted) :
    (wordOf settings event).stripeSubscriptionId =
      (links settings event).map some := by
  cases isType : event.type with
  | customerSubscriptionDeleted => exact absurd isType notDeletion
  | checkoutSessionCompleted =>
      cases named : asStr (event.object.get "subscription") <;>
        simp [links, wordOf, isType, named]
  | customerSubscriptionCreated | customerSubscriptionUpdated =>
      cases read : subscriptionFrom settings event.object with
      | none => simp [links, wordOf, isType, read]
      | some found => cases found <;> simp [links, wordOf, isType, read]
  | other name => simp [links, wordOf, isType]

theorem subscription_handleEvent
    (notDeletion : event.type ≠ .customerSubscriptionDeleted) :
    (handleEvent settings row event).1.stripeSubscriptionId =
      (links settings event).or row.stripeSubscriptionId := by
  have written := held_handleEvent settings row event .stripeSubscriptionId
  rw [if_neg fun both => notDeletion both.1] at written
  simp only [Column.held, Column.said, word_of_links notDeletion] at written
  rw [written]
  cases links settings event <;> rfl

theorem stillLinked_snoc (subscription : Option String) (later : List ReadEvent) :
    stillLinked (subscription, later ++ [event]) =
      (stillLinked (subscription, later)).filter fun subscription =>
        !cancels subscription event := by
  rw [stillLinked, stillLinked, Option.filter_filter]
  congr 1
  funext linked
  simp [Bool.and_assoc]

theorem current_deletion
    (isDeletion : event.type = .customerSubscriptionDeleted) :
    current (handleEvent settings row event).1 =
      (current row).filter fun subscription =>
        !cancels subscription event := by
  have stale := staleCancellation_eq row event
  simp only [handleEvent, isDeletion]
  cases linked : current row with
  | none =>
      simp only [linked, Option.any_none] at stale
      simp [stale, current, subscriptionDeleted]
  | some subscription =>
      simp only [linked, Option.any_some] at stale
      by_cases own : event.object.get "id" = .str subscription
      · simp [stale, own, current, subscriptionDeleted, cancels, isDeletion,
          Option.filter]
      · simp [stale, own, linked, cancels, Option.filter]

/-- After any events, the current subscription is the one linked last, unless
it was deleted since. -/
theorem current_rowAfter :
    current (rowAfter settings row before) =
      stillLinked (sinceLink settings row.stripeSubscriptionId before) := by
  induction before using List.reverseRecOn with
  | nil => simp [rowAfter, sinceLink, current, stillLinked]
  | append_singleton before event hypothesis =>
      rw [rowAfter_snoc, sinceLink_snoc]
      generalize rowAfter settings row before = latest at hypothesis
      generalize sinceLink settings row.stripeSubscriptionId before = linked
        at hypothesis
      obtain ⟨subscription, later⟩ := linked
      by_cases isDeletion : event.type = .customerSubscriptionDeleted
      · rw [links_deletion isDeletion, current_deletion isDeletion,
          stillLinked_snoc, hypothesis]
      · rw [current, subscription_handleEvent isDeletion]
        cases links settings event with
        | some linked => simp [stillLinked]
        | none =>
            have silent : ∀ subscription, cancels subscription event = false := by
              simp [cancels, isDeletion]
            rw [current] at hypothesis
            simpa [stillLinked, silent] using hypothesis

/-- The webhook ignores exactly the deletions that are not heeded. -/
theorem heeds_iff :
    heeds settings row.stripeSubscriptionId before event ↔
      ¬(event.type = .customerSubscriptionDeleted ∧
        staleCancellation (rowAfter settings row before) event.object) := by
  rw [staleCancellation_eq, current_rowAfter]
  by_cases isDeletion : event.type = .customerSubscriptionDeleted
  · simp [heeds, supersededBy, isDeletion]
  · simp [heeds, isDeletion]

/-- After any events, a column holds what its places say last. -/
theorem saidLast_rowAfter (column : Column) :
    SaidLast (column.held (rowAfter settings row events))
      (column.places settings row events) := by
  rw [saidLast_iff]
  induction events using List.reverseRecOn with
  | nil => simp [Column.places, heeded, rowAfter]
  | append_singleton events event hypothesis =>
      have written := held_handleEvent settings
        (rowAfter settings row events) event column
      unfold Column.places at hypothesis ⊢
      rw [rowAfter_snoc, heeded_snoc, List.nil_append]
      by_cases counts : heeds settings row.stripeSubscriptionId events event
      · rw [if_neg (heeds_iff.mp counts)] at written
        rw [if_pos counts, List.map_append, ← List.cons_append,
          List.reduceOption_append, List.getLast?_append, hypothesis, written]
        cases said : column.said (wordOf settings event) <;>
          simp [said, List.reduceOption]
      · have stale := not_not.mp fun kept => counts (heeds_iff.mpr kept)
        rw [if_pos stale] at written
        rw [if_neg counts, List.append_nil, hypothesis, written]

/-- Two sequences of events leave an organisation with the same exactly if one
is in order with respect to the other. -/
theorem standing_eq_iff_inOrder {history deliveries : List ReadEvent} :
    standing (rowAfter settings row deliveries) =
        standing (rowAfter settings row history) ↔
      InOrder settings row history deliveries := by
  rw [standing_eq_iff]
  apply forall_congr'
  intro column
  have closes : SaidLast (column.held (rowAfter settings row history))
      (column.places settings row history) :=
    saidLast_rowAfter column
  rw [← (saidLast_rowAfter column).overruled_iff]
  constructor
  · intro overruled value isLast
    rw [isLast.eq closes]
    exact overruled
  · exact fun inOrder => inOrder _ closes

/-! ## The table -/

/-- The table after a sequence of deliveries. -/
def deliver (settings : Settings) (organizations : List Organization)
    (events : List Event) : List Organization :=
  events.foldl
    (fun organizations event =>
      (stripeWebhook settings organizations (some event)).1)
    organizations

/-- The events of a sequence whose objects become dictionaries. -/
def readable (settings : Settings) (events : List Event) : List ReadEvent :=
  events.filterMap (Event.read settings)

/-- The table after a sequence of events that were read. -/
def applyAll (settings : Settings) (organizations : List Organization)
    (events : List ReadEvent) : List Organization :=
  events.foldl
    (fun organizations event => (applyEvent settings organizations event).1)
    organizations

/-- An event that cannot be read is a server error, and changes nothing. -/
theorem deliver_eq_applyAll {organizations : List Organization}
    (configured : ¬settings.webhookSecret.all (· == ""))
    (events : List Event) :
    deliver settings organizations events =
      applyAll settings organizations (readable settings events) := by
  induction events generalizing organizations with
  | nil => rfl
  | cons event events hypothesis =>
      unfold deliver applyAll readable at hypothesis ⊢
      rw [List.foldl_cons, hypothesis]
      cases isRead : event.read settings with
      | none => simp [stripeWebhook, configured, isRead]
      | some found => simp [stripeWebhook, configured, isRead]

/-- The billing state of the organisation `id`. -/
def standingOf (organizations : List Organization) (id : Nat) :
    Option Standing :=
  (organizations.find? fun row => row.id == id).map standing

/-- The events are about the organisation: they carry its one Stripe customer,
which the organisation holds or which they place by its id. -/
def AboutOrganization (settings : Settings)
    (organizations : List Organization) (row : Organization)
    (events : List ReadEvent) : Prop :=
  ∃ customer : String,
    (∀ event ∈ events, event.object.get "customer" = .str customer) ∧
    (∀ other ∈ organizations,
      other.stripeCustomerId = some customer → other = row) ∧
    (row.stripeCustomerId = some customer ∨
      ∀ event ∈ events, reference settings event.object = some (some row.id))

theorem find?_eq_of_unique {Row : Type} {holds : Row → Bool} {found : Row}
    {rows : List Row} (member : found ∈ rows) (matching : holds found)
    (unique : ∀ other ∈ rows, holds other → other = found) :
    rows.find? holds = some found := by
  cases result : rows.find? holds with
  | none =>
      rw [List.find?_eq_none] at result
      exact absurd matching (result found member)
  | some other =>
      rw [unique other (List.mem_of_find?_eq_some result)
        (List.find?_some result)]

section Table

variable {organizations : List Organization} {latest : Organization}

/-- The other rows of a table in which one organisation was saved. -/
theorem mem_saveOrganization {saved other : Organization}
    (member : other ∈ saveOrganization organizations saved) :
    other = saved ∨ (other ∈ organizations ∧ other.id ≠ saved.id) := by
  obtain ⟨kept, isKept, rfl⟩ := List.mem_map.mp member
  by_cases same : kept.id = saved.id
  · simp [same]
  · simp [same, isKept]

theorem saved_mem (known : row ∈ organizations) (same : latest.id = row.id) :
    latest ∈ saveOrganization organizations latest := by
  apply List.mem_map.mpr
  exact ⟨row, known, by simp [same]⟩

theorem saveOrganization_twice {saved : Organization}
    (same : saved.id = latest.id) :
    saveOrganization (saveOrganization organizations latest) saved =
      saveOrganization organizations saved := by
  simp only [saveOrganization, List.map_map]
  apply List.map_congr_left
  intro other _
  by_cases matching : other.id = latest.id
  · simp [Function.comp, matching, same]
  · simp [Function.comp, matching, same]

theorem handleEvent_id :
    (handleEvent settings row event).1.id = row.id := by
  unfold handleEvent
  split
  · rfl
  · split <;> rfl
  · split <;> rfl
  · split <;> rfl
  · rfl

/-- Only a completed checkout moves the customer, to its own. -/
theorem handleEvent_customer (settings : Settings) (row : Organization)
    {customer : String}
    (carried : event.object.get "customer" = .str customer) :
    (handleEvent settings row event).1.stripeCustomerId =
        row.stripeCustomerId ∨
      (handleEvent settings row event).1.stripeCustomerId = some customer := by
  unfold handleEvent
  split
  · simp [checkoutCompleted, carried, asStr]
  · split <;> simp [subscriptionUpdated]
  · split <;> simp [subscriptionUpdated]
  · split <;> simp [subscriptionDeleted]
  · simp

/-- An event about the organisation is placed with it. -/
theorem orgForStripe_saved {customer : String}
    (known : row ∈ organizations)
    (sole : ∀ other ∈ organizations,
      other.stripeCustomerId = some customer → other = row)
    (same : latest.id = row.id)
    (carried : event.object.get "customer" = .str customer)
    (placed : latest.stripeCustomerId = some customer ∨
      reference settings event.object = some (some row.id)) :
    orgForStripe settings (saveOrganization organizations latest) event.object =
      some (some latest) := by
  have others : ∀ other ∈ saveOrganization organizations latest,
      other.stripeCustomerId = some customer → other = latest := by
    intro other member holds
    rcases mem_saveOrganization member with isLatest | ⟨kept, different⟩
    · exact isLatest
    · exact absurd (same ▸ congrArg Organization.id (sole other kept holds))
        different
  have saved : latest ∈ saveOrganization organizations latest :=
    saved_mem known same
  by_cases held : latest.stripeCustomerId = some customer
  · have found : byCustomer (saveOrganization organizations latest)
        event.object = some latest := by
      rw [byCustomer, carried]
      exact find?_eq_of_unique saved (by simp [held])
        fun other member holds => others other member (by simpa using holds)
    rw [orgForStripe, found]
  · have missed : byCustomer (saveOrganization organizations latest)
        event.object = none := by
      rw [byCustomer, carried]
      apply List.find?_eq_none.mpr
      intro other member holds
      have isHeld : other.stripeCustomerId = some customer := by
        simpa using holds
      exact held (others other member isHeld ▸ isHeld)
    have named := placed.resolve_left held
    rw [orgForStripe, missed, named]
    refine congrArg some (find?_eq_of_unique saved (by simp [same]) ?_)
    intro other member holds
    rcases mem_saveOrganization member with isLatest | ⟨_, different⟩
    · exact isLatest
    · exact absurd (by simpa [same] using holds) different

theorem applyEvent_saved {found : Organization}
    (placed : orgForStripe settings organizations event.object =
      some (some found)) :
    (applyEvent settings organizations event).1 =
      saveOrganization organizations (handleEvent settings found event).1 := by
  rw [applyEvent, placed]

/-- Events about an organisation change its row, one by one. -/
theorem applyAll_saved {customer : String}
    (known : row ∈ organizations)
    (sole : ∀ other ∈ organizations,
      other.stripeCustomerId = some customer → other = row)
    (same : latest.id = row.id)
    (carried : ∀ event ∈ events, event.object.get "customer" = .str customer)
    (placed : latest.stripeCustomerId = some customer ∨
      ∀ event ∈ events,
        reference settings event.object = some (some row.id)) :
    applyAll settings (saveOrganization organizations latest) events =
      saveOrganization organizations (rowAfter settings latest events) := by
  induction events generalizing latest with
  | nil => rfl
  | cons event events hypothesis =>
      have first := carried event List.mem_cons_self
      have isPlaced := orgForStripe_saved known sole same first
        (placed.imp_right fun named => named event List.mem_cons_self)
      have written := applyEvent_saved isPlaced
      rw [saveOrganization_twice handleEvent_id] at written
      change applyAll settings
          (applyEvent settings (saveOrganization organizations latest)
            event).1 events =
        saveOrganization organizations
          (rowAfter settings (handleEvent settings latest event).1 events)
      rw [written]
      apply hypothesis (handleEvent_id.trans same)
      · intro later member
        exact carried later (List.mem_cons_of_mem event member)
      · have moved := handleEvent_customer settings latest first
        rcases placed with held | named
        · left
          rcases moved with kept | now
          · rw [kept, held]
          · exact now
        · right
          intro later member
          exact named later (List.mem_cons_of_mem event member)

theorem saveOrganization_self
    (keyed : (organizations.map Organization.id).Nodup)
    (known : row ∈ organizations) :
    saveOrganization organizations row = organizations := by
  have unchanged : ∀ other ∈ organizations,
      (if other.id = row.id then row else other) = other := by
    intro other member
    by_cases same : other.id = row.id
    · rw [if_pos same, List.inj_on_of_nodup_map keyed member known same]
    · rw [if_neg same]
  exact (List.map_congr_left unchanged).trans (List.map_id' _)

theorem standingOf_saved (known : row ∈ organizations)
    (same : latest.id = row.id) :
    standingOf (saveOrganization organizations latest) row.id =
      some (standing latest) := by
  have found : (saveOrganization organizations latest).find?
      (fun other => other.id == row.id) = some latest := by
    apply find?_eq_of_unique (saved_mem known same) (by simp [same])
    intro other member holds
    rcases mem_saveOrganization member with isLatest | ⟨_, different⟩
    · exact isLatest
    · exact absurd (by simpa [same] using holds) different
  rw [standingOf, found]
  rfl

theorem rowAfter_id : (rowAfter settings row events).id = row.id := by
  induction events generalizing row with
  | nil => rfl
  | cons event events hypothesis =>
      exact hypothesis.trans handleEvent_id

/-- What a sequence of events leaves the organisation with. -/
theorem standingOf_applyAll
    (keyed : (organizations.map Organization.id).Nodup)
    (known : row ∈ organizations)
    (about : AboutOrganization settings organizations row events) :
    standingOf (applyAll settings organizations events) row.id =
      some (standing (rowAfter settings row events)) := by
  obtain ⟨customer, carried, sole, placed⟩ := about
  have applied := applyAll_saved known sole (rfl : row.id = row.id) carried
    placed
  rw [saveOrganization_self keyed known] at applied
  rw [applied, standingOf_saved known rowAfter_id]

/-- Without a secret the webhook processes nothing. -/
theorem deliver_unconfigured
    (unconfigured : settings.webhookSecret.all (· == ""))
    (events : List Event) :
    deliver settings organizations events = organizations := by
  induction events with
  | nil => rfl
  | cons event events hypothesis =>
      change deliver settings
        (stripeWebhook settings organizations (some event)).1 events = _
      rw [stripeWebhook, if_pos unconfigured]
      exact hypothesis

theorem AboutOrganization.of_mem {others : List ReadEvent}
    (about : AboutOrganization settings organizations row events)
    (delivered : ∀ event ∈ others, event ∈ events) :
    AboutOrganization settings organizations row others := by
  obtain ⟨customer, carried, sole, placed⟩ := about
  refine ⟨customer, ?_, sole, placed.imp_right ?_⟩
  · exact fun event member => carried event (delivered event member)
  · exact fun named event member => named event (delivered event member)

end Table

/-! ## The main result -/

/-- Deliveries of a history in any order, each event at least once, leave the
organisation as the history in its own order does, exactly when in every column
whatever is said otherwise than the history says last is followed by an event
that says it. -/
theorem delivery_order_immaterial (settings : Settings)
    (organizations : List Organization) (row : Organization)
    (history deliveries : List Event)
    (keyed : (organizations.map Organization.id).Nodup)
    (known : row ∈ organizations)
    (about : AboutOrganization settings organizations row
      (readable settings history))
    (delivered : ∀ event, event ∈ deliveries ↔ event ∈ history) :
    standingOf (deliver settings organizations deliveries) row.id =
        standingOf (deliver settings organizations history) row.id ↔
      settings.webhookSecret.all (· == "") ∨
        InOrder settings row (readable settings history)
          (readable settings deliveries) := by
  by_cases unconfigured : settings.webhookSecret.all (· == "")
  · simp only [deliver_unconfigured unconfigured, unconfigured, true_or]
  · have aboutToo : AboutOrganization settings organizations row
        (readable settings deliveries) := by
      apply about.of_mem
      intro event member
      obtain ⟨raw, isRaw, isRead⟩ := List.mem_filterMap.mp member
      exact List.mem_filterMap.mpr ⟨raw, (delivered raw).mp isRaw, isRead⟩
    rw [deliver_eq_applyAll unconfigured, deliver_eq_applyAll unconfigured,
      standingOf_applyAll keyed known about,
      standingOf_applyAll keyed known aboutToo, Option.some_inj,
      standing_eq_iff_inOrder, or_iff_right unconfigured]

/-- A sample deployment, whose events carry dictionaries. -/
def sampleSettings : Settings where
  webhookSecret := some "whsec"
  priceIds :=
    [("starter", some "price_starter"), ("growth", some "price_growth")]
  asDict := some
  str := fun _ => ""
  isDigit := fun text => text.toList.all Char.isDigit
  int := String.toNat?

/-- An organisation that has never paid. -/
def sampleRow : Organization where
  id := 1
  name := "Acme"
  logoSha := none
  plan := "free"
  planStatus := "active"
  stripeCustomerId := some "cus_1"
  stripeSubscriptionId := none
  currentPeriodEnd := none
  retentionDays := none

/-- The checkout of a subscription. -/
def sampleCheckout : Event :=
  ⟨"evt_1", .checkoutSessionCompleted,
    [("customer", .str "cus_1"), ("subscription", .str "sub_1")]⟩

/-- A subscription as Stripe reports it. -/
def sampleSubscription : Payload :=
  [("id", .str "sub_1"), ("customer", .str "cus_1"),
    ("status", .str "active"),
    ("items", .obj
      [("data", .arr [.obj [("price", .obj [("id", .str "price_growth")])]])])]

/-- The subscription becomes active. -/
def sampleUpdate : Event :=
  ⟨"evt_2", .customerSubscriptionUpdated, sampleSubscription⟩

/-- The subscription ends. -/
def sampleDeletion : Event :=
  ⟨"evt_3", .customerSubscriptionDeleted, sampleSubscription⟩

theorem about_sample {events : List Event}
    (carried : ∀ event ∈ readable sampleSettings events,
      event.object.get "customer" = .str "cus_1") :
    AboutOrganization sampleSettings [sampleRow] sampleRow
      (readable sampleSettings events) :=
  ⟨"cus_1", carried, by simp, Or.inl rfl⟩

/-- A completed checkout that arrives last, and twice, changes nothing. -/
theorem delivery_order_immaterial_for_late_checkout :
    standingOf
        (deliver sampleSettings [sampleRow]
          [sampleUpdate, sampleCheckout, sampleCheckout]) 1 =
      standingOf
        (deliver sampleSettings [sampleRow] [sampleCheckout, sampleUpdate])
        1 := by
  have inOrder : InOrder sampleSettings sampleRow
      (readable sampleSettings [sampleCheckout, sampleUpdate])
      (readable sampleSettings
        [sampleUpdate, sampleCheckout, sampleCheckout]) :=
    standing_eq_iff_inOrder.mp (by decide +kernel)
  exact (delivery_order_immaterial sampleSettings [sampleRow] sampleRow
    [sampleCheckout, sampleUpdate]
    [sampleUpdate, sampleCheckout, sampleCheckout] (by simp) (by simp)
    (about_sample (by decide)) (by simp [or_comm])).mpr (Or.inr inOrder)

/-- An update that arrives after the deletion of its subscription brings the
subscription back. -/
theorem deleted_subscription_revived :
    ∃ (settings : Settings) (organizations : List Organization)
      (row : Organization) (history deliveries : List Event),
      (organizations.map Organization.id).Nodup ∧ row ∈ organizations ∧
      AboutOrganization settings organizations row
        (readable settings history) ∧
      (∀ event, event ∈ deliveries ↔ event ∈ history) ∧
      standingOf (deliver settings organizations history) row.id =
        some ⟨"free", "canceled", none⟩ ∧
      standingOf (deliver settings organizations deliveries) row.id =
        some ⟨"growth", "active", some "sub_1"⟩ := by
  refine
    ⟨sampleSettings, [sampleRow], sampleRow,
      [sampleCheckout, sampleUpdate, sampleDeletion],
      [sampleCheckout, sampleDeletion, sampleUpdate], by simp, by simp,
      about_sample (by decide), ?_, ?_, ?_⟩
  · intro event
    simp [or_comm]
  · decide +kernel
  · decide +kernel

end AssessmentPlatform.Payments
