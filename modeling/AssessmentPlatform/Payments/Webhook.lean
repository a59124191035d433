import AssessmentPlatform.Models

/-!
# The Stripe webhook

`stripe_webhook` as a function of the table of organisations.  Verifying the
signature is Stripe's; what it answers is the argument `delivery`.  What the
installed library makes of `dict(event.data.object)` is a setting: since its
objects are no dictionaries any more, that may raise.
-/

namespace AssessmentPlatform.Payments

/-! ## What Stripe sends -/

/-- `event.type` -/
inductive EventType where
  | checkoutSessionCompleted
  | customerSubscriptionCreated
  | customerSubscriptionUpdated
  | customerSubscriptionDeleted
  | other (name : String)
  deriving DecidableEq, Repr

/-- A verified event: Stripe's id of it, its type, and the fields of
`event.data.object`. -/
structure Event where
  id : String
  type : EventType
  object : Payload
  deriving DecidableEq, Repr

/-- The settings that the webhook reads, and the library functions it uses. -/
structure Settings where
  /-- `config.STRIPE_WEBHOOK_SECRET` -/
  webhookSecret : Option String
  /-- `config.STRIPE_PRICE_IDS` -/
  priceIds : List (String × Option String)
  /-- `dict(event.data.object)`: `none` where the installed library raises. -/
  asDict : Payload → Option Payload
  /-- Python's `str` of a value that is not a string. -/
  str : Json → String
  /-- `str.isdigit` -/
  isDigit : String → Bool
  /-- Python's `int` of digits: `none` where it raises, or no column can be
  compared with the number. -/
  int : String → Option Nat

/-- `isinstance(value, str)`, with the string; Stripe sends Unicode texts. -/
def asStr : Json → Option String
  | .str text => text.toText
  | _ => none

/-- `value.get(key)`: `none` stands for the `AttributeError` of a value that is
no dictionary. -/
def dictGet (value : Json) (key : String) : Option Json :=
  match value with
  | .obj fields => some (Payload.get fields key)
  | _ => none

/-- `(value or {}).get(key)` -/
def lookup (value : Json) (key : String) : Option Json :=
  dictGet (if value.truthy then value else .obj []) key

/-! ## `stripe_client` -/

/-- `plan_for_price` -/
def planForPrice (settings : Settings) (price : Option String) :
    Option String :=
  price.bind fun known =>
    (settings.priceIds.find? fun (_, configured) =>
      configured.any fun id => id != "" && id == known).map (·.1)

/-- `datetime.fromtimestamp(epoch, tz=timezone.utc)`, which raises outside the
years 1 to 9999. -/
def fromTimestamp (epoch : Int) : Option Time :=
  if -62135596800 ≤ epoch ∧ epoch < 253402300800 then some (epoch * 1000000)
  else none

/-- `_as_datetime`; a Python `bool` is an `int`, and the outer `none` stands for
an exception. -/
def asDatetime : Json → Option (Option Time)
  | .int epoch => (fromTimestamp epoch).map some
  | .bool value => (fromTimestamp (if value then 1 else 0)).map some
  | _ => some none

/-- A row of the dataclass `Subscription`. -/
structure Subscription where
  id : String
  customerId : String
  status : String
  plan : Option String
  currentPeriodEnd : Option Time
  deriving DecidableEq, Repr

/-- `items[0]`, if the subscription has items. -/
def firstItem (object : Payload) : Option (Option Json) :=
  (lookup (object.get "items") "data").bind fun data =>
    match if data.truthy then data else .arr [] with
    | .arr items => some items.head?
    | _ => none

/-- The price id on the first item. -/
def priceOf : Option Json → Option (Option String)
  | none => some none
  | some item =>
      (dictGet item "price").bind fun price =>
        (lookup price "id").map asStr

/-- `current_period_end`, on the subscription or on its first item. -/
def periodEndOf (object : Payload) (item : Option Json) : Option Json :=
  match object.get "current_period_end", item with
  | .null, some first => dictGet first "current_period_end"
  | found, _ => some found

/-- `str(obj.get("status") or "active")` -/
def statusOf (settings : Settings) (object : Payload) : String :=
  let status := object.get "status"
  if status.truthy then (asStr status).getD (settings.str status)
  else "active"

/-- `subscription_from`: the outer `none` stands for an exception, the inner one
for a payload without an id or a customer. -/
def subscriptionFrom (settings : Settings) (object : Payload) :
    Option (Option Subscription) :=
  match asStr (object.get "id"), asStr (object.get "customer") with
  | some id, some customerId => do
      let item ← firstItem object
      let price ← priceOf item
      let periodEnd ← periodEndOf object item
      let currentPeriodEnd ← asDatetime periodEnd
      return some
        { id := id
          customerId := customerId
          status := statusOf settings object
          plan := planForPrice settings price
          currentPeriodEnd := currentPeriodEnd }
  | _, _ => some none

/-! ## The handler -/

/-- The organisation id that an object carries: in its metadata, or as the
reference of a checkout session.  The outer `none` stands for an exception. -/
def reference (settings : Settings) (object : Payload) :
    Option (Option Nat) :=
  (lookup (object.get "metadata") "org_id").bind fun found =>
    let raw := if found.truthy then found else
      object.get "client_reference_id"
    match (asStr raw).filter settings.isDigit with
    | some digits => (settings.int digits).map some
    | none => some none

/-- The organisation that holds the customer of an object. -/
def byCustomer (organizations : List Organization) (object : Payload) :
    Option Organization :=
  (asStr (object.get "customer")).bind fun customer =>
    organizations.find? fun row => row.stripeCustomerId == some customer

/-- `_org_for_stripe` -/
def orgForStripe (settings : Settings) (organizations : List Organization)
    (object : Payload) : Option (Option Organization) :=
  match byCustomer organizations object with
  | some found => some (some found)
  | none =>
      (reference settings object).map fun orgId =>
        orgId.bind fun id => organizations.find? fun row => row.id == id

/-- How the webhook answers. -/
inductive Reply where
  | notConfigured
  | invalid
  | serverError
  | ok
  | ignored
  deriving DecidableEq, Repr

/-- The row after `checkout.session.completed`. -/
def checkoutCompleted (row : Organization) (object : Payload) :
    Organization :=
  { row with
    stripeCustomerId :=
      (asStr (object.get "customer")).or row.stripeCustomerId
    stripeSubscriptionId :=
      (asStr (object.get "subscription")).or row.stripeSubscriptionId }

/-- The row after a subscription was created or updated. -/
def subscriptionUpdated (row : Organization) (subscription : Subscription) :
    Organization :=
  { row with
    stripeSubscriptionId := some subscription.id
    planStatus := subscription.status
    currentPeriodEnd := subscription.currentPeriodEnd
    plan := subscription.plan.getD row.plan }

/-- The deletion of a subscription that is not the current one. -/
def staleCancellation (row : Organization) (object : Payload) : Bool :=
  row.stripeSubscriptionId.any fun current : String =>
    current != "" && object.get "id" != .str current

/-- The row after the deletion of its subscription. -/
def subscriptionDeleted (row : Organization) : Organization :=
  { row with
    plan := "free"
    planStatus := "canceled"
    stripeSubscriptionId := none
    currentPeriodEnd := none }

/-- An event whose object has become a dictionary. -/
structure ReadEvent where
  type : EventType
  object : Payload
  deriving DecidableEq, Repr

/-- `obj = dict(event.data.object)` -/
def Event.read (settings : Settings) (event : Event) : Option ReadEvent :=
  (settings.asDict event.object).map fun object => ⟨event.type, object⟩

/-- What an event makes of the organisation that it is about. -/
def handleEvent (settings : Settings) (row : Organization)
    (event : ReadEvent) : Organization × Reply :=
  match event.type with
  | .checkoutSessionCompleted => (checkoutCompleted row event.object, .ok)
  | .customerSubscriptionCreated | .customerSubscriptionUpdated =>
      match subscriptionFrom settings event.object with
      | none => (row, .serverError)
      | some none => (row, .ignored)
      | some (some subscription) => (subscriptionUpdated row subscription, .ok)
  | .customerSubscriptionDeleted =>
      if staleCancellation row event.object then (row, .ignored)
      else (subscriptionDeleted row, .ok)
  | .other _ => (row, .ignored)

/-- Write one organisation back. -/
def saveOrganization (organizations : List Organization)
    (saved : Organization) : List Organization :=
  organizations.map fun row => if row.id = saved.id then saved else row

/-- The part of `stripe_webhook` that follows once the object is a dictionary. -/
def applyEvent (settings : Settings) (organizations : List Organization)
    (event : ReadEvent) : List Organization × Reply :=
  match orgForStripe settings organizations event.object with
  | none => (organizations, .serverError)
  | some none => (organizations, .ignored)
  | some (some row) =>
      let (saved, reply) := handleEvent settings row event
      (saveOrganization organizations saved, reply)

/-- `stripe_webhook` -/
def stripeWebhook (settings : Settings) (organizations : List Organization)
    (delivery : Option Event) : List Organization × Reply :=
  if settings.webhookSecret.all (· == "") then (organizations, .notConfigured)
  else
    match delivery with
    | none => (organizations, .invalid)
    | some event =>
        match event.read settings with
        | none => (organizations, .serverError)
        | some event => applyEvent settings organizations event

end AssessmentPlatform.Payments
