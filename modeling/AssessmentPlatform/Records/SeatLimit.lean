import AssessmentPlatform.Records.Administration

/-!
# The seats of a plan

A seat is reserved when an invitation is sent and taken when it is accepted.
Accepting as an account that exists looks at the plan again; registering by the
link does not.
-/

namespace AssessmentPlatform

open Rows Refusals

variable {deployment : Deployment} {served : Served} {scope : Option Nat}
variable {db after base : Database} {orgId : Nat} {organization : Organization}

theorem one_le_seats (organization : Organization) :
    1 ≤ (planFor organization).seats := by
  have listed : ∀ plan ∈ plans, 1 ≤ plan.seats := by decide
  unfold planFor
  split
  · cases found : plans.find? fun plan => plan.key == organization.plan with
    | none => decide
    | some plan => exact listed plan (List.mem_of_find?_eq_some found)
  · decide

/-! ## Counting members -/

/-- Seats that all come from earlier ones are no more than these. -/
theorem memberCount_le_of_derived
    (keyed : Keyed Membership.id after.memberships)
    (derived : Derived (fun row => (row.id, row.orgId)) db.memberships
      after.memberships) :
    after.memberCount orgId ≤ db.memberCount orgId := by
  have nodup : ((after.memberships.filter fun row => row.orgId == orgId).map
      Membership.id).Nodup :=
    keyed.sublist (List.filter_sublist.map _)
  have within : (after.memberships.filter fun row => row.orgId == orgId).map
      Membership.id ⊆
        (db.memberships.filter fun row => row.orgId == orgId).map
          Membership.id := by
    intro id isId
    obtain ⟨row, isRow, rfl⟩ := List.mem_map.mp isId
    obtain ⟨member, inOrg⟩ := List.mem_filter.mp isRow
    obtain ⟨was, isWas, same⟩ := derived row member
    obtain ⟨sameId, sameOrg⟩ := Prod.mk.inj same
    refine List.mem_map.mpr ⟨was, List.mem_filter.mpr ⟨isWas, ?_⟩, sameId⟩
    rw [sameOrg]
    exact inOrg
  have counted := (List.subperm_of_subset nodup within).length_le
  simpa [Database.memberCount] using counted

/-- An organisation that is not there has no members. -/
theorem memberCount_unborn (constraints : db.Constraints)
    (below : IdsBelow db db.nextId) (unborn : db.nextId ≤ orgId) :
    db.memberCount orgId = 0 := by
  unfold Database.memberCount
  rw [List.length_eq_zero_iff, List.filter_eq_nil_iff]
  intro row member inOrg
  obtain ⟨org, isOrg, isId⟩ :=
    constraints.foreignKeys.membershipOrg row member row.orgId rfl
  have isBelow := below.organization org isOrg
  have isOrgId := beq_iff_eq.mp inOrg
  omega

theorem Enters.memberCount_le {account : Interviewer} {gaveUp : Option Nat}
    (enters : Enters db account gaveUp base) (orgId : Nat) :
    base.memberCount orgId ≤ db.memberCount orgId := by
  cases enters with
  | newcomer => exact Nat.le_refl _
  | seatless => exact Nat.le_refl _
  | leaving _ _ gaveUp =>
      obtain ⟨rfl, _⟩ := leaveEmptyOrg_eq_ok gaveUp
      exact (List.filter_sublist.filter _).length_le

theorem Enters.organizations_subset {account : Interviewer}
    {gaveUp : Option Nat} (enters : Enters db account gaveUp base) :
    base.organizations ⊆ db.organizations := by
  cases enters with
  | newcomer => exact List.Subset.refl _
  | seatless => exact List.Subset.refl _
  | leaving _ _ gaveUp =>
      obtain ⟨rfl, _⟩ := leaveEmptyOrg_eq_ok gaveUp
      exact List.filter_subset_self _

/-! ## What a transaction does to the members -/

theorem Enters.memberCount_foundOrg {account : Interviewer}
    {gaveUp name : Option _} (enters : Enters db account gaveUp base)
    (constraints : db.Constraints) (below : IdsBelow db db.nextId)
    (orgId : Nat) :
    (foundOrg deployment base account name).memberCount orgId ≤
        db.memberCount orgId ∨
      (db.nextId ≤ orgId ∧
        (foundOrg deployment base account name).memberCount orgId ≤ 1) := by
  have shrunk := enters.memberCount_le orgId
  have grown : (foundOrg deployment base account name).memberCount orgId =
      base.memberCount orgId + if base.nextId = orgId then 1 else 0 := by
    by_cases founded : base.nextId = orgId <;>
      simp [foundOrg, Database.memberCount, List.filter_append, founded]
  by_cases founded : base.nextId = orgId
  · have unborn : db.nextId ≤ orgId := founded ▸ enters.nextId_le
    have none := memberCount_unborn constraints below unborn
    rw [if_pos founded] at grown
    exact Or.inr ⟨unborn, by omega⟩
  · rw [if_neg founded] at grown
    exact Or.inl (by omega)

/-- A transaction that turns no invitation into a seat adds no member, or
the first one of a new organisation. -/
theorem Change.memberCount_le
    (change : Change deployment served scope db after)
    (constraints : db.Constraints) (later : after.Constraints)
    (below : IdsBelow db db.nextId)
    (apart : ¬∃ account, served.request.joinsAs account) (orgId : Nat) :
    after.memberCount orgId ≤ db.memberCount orgId ∨
      (db.nextId ≤ orgId ∧ after.memberCount orgId ≤ 1) := by
  have keyed := later.uniqueKeys.membership
  cases change with
  | joined _ _ _ _ _ joins => exact absurd ⟨_, joins⟩ apart
  | founded _ enters =>
      exact enters.memberCount_foundOrg constraints below orgId
  | roleSet _ target =>
      exact Or.inl (memberCount_le_of_derived keyed
        (derived_save (Database.memberOf_eq_some target).1 rfl))
  | memberRemoved =>
      exact Or.inl (memberCount_le_of_derived keyed (derived_deleteWhere _))
  | accountDeleted deleted =>
      left
      obtain ⟨left, leaving, rfl⟩ := Database.purgeAccount_left deleted
      apply memberCount_le_of_derived keyed
      have seats : Derived (fun row : Membership => (row.id, row.orgId))
          db.memberships left.memberships := by
        cases leaving with
        | seatless => exact .refl _
        | shared => exact derived_deleteWhere _
        | last => exact derived_deleteWhere _
      exact seats.trans (derived_updateWhere fun _ => rfl)
  | _ => exact Or.inl (Nat.le_refl _)

/-! ## What a request does to the members -/

/-- Organisations grow only where their plans have a seat for it. -/
def GrowsWithin (db after : Database) : Prop :=
  ∀ organization ∈ after.organizations,
    db.memberCount organization.id < after.memberCount organization.id →
      (db.memberCount organization.id : Int) < (planFor organization).seats ∧
        (after.memberCount organization.id : Int) ≤
          (planFor organization).seats

/-- The plan of an organisation has a free seat. -/
def Database.FreeSeat (db : Database) (orgId : Nat) : Prop :=
  ∀ organization ∈ db.organizations, organization.id = orgId →
    (db.memberCount orgId : Int) < (planFor organization).seats

theorem growsWithin_of_steady
    (steady : ∀ orgId, after.memberCount orgId ≤ db.memberCount orgId ∨
      after.memberCount orgId ≤ 1) :
    GrowsWithin db after := by
  intro organization _ grown
  have positive := one_le_seats organization
  have counted := steady organization.id
  omega

theorem Enters.growsWithin_joinOrg {around : Surroundings}
    {account : Interviewer} {invite : OrgInvite} {gaveUp : Option Nat}
    (enters : Enters db account gaveUp base)
    (free : db.FreeSeat invite.orgId) :
    GrowsWithin db (joinOrg around base account.id invite) := by
  intro organization isOrg grown
  have shrunk := enters.memberCount_le organization.id
  have counted :
      (joinOrg around base account.id invite).memberCount organization.id =
        base.memberCount organization.id +
          if invite.orgId = organization.id then 1 else 0 := by
    by_cases joined : invite.orgId = organization.id <;>
      simp [joinOrg, Database.memberCount, List.filter_append, joined]
  by_cases joined : invite.orgId = organization.id
  · have within := free organization (enters.organizations_subset isOrg)
      joined.symm
    rw [joined] at within
    rw [if_pos joined] at counted
    exact ⟨within, by omega⟩
  · rw [if_neg joined] at counted
    omega

/-- `register` founds an organisation, or joins the one that admits it. -/
theorem register_growsWithin {around : Surroundings} {body : RegisterIn}
    (constraints : db.Constraints) (below : IdsBelow db db.nextId)
    (free : ∀ invite, admission deployment around db body
      (deployment.auth.normalizeEmail body.email) = .ok (some invite) →
        db.FreeSeat invite.orgId)
    (registered : register deployment around db body = .ok after) :
    GrowsWithin db after := by
  unfold register at registered
  simp only [throw_bind, bind_eq_ok, ite_throw_eq_ok] at registered
  obtain ⟨_, _, _, _, orgInvite, admitted, _, _, _, finished⟩ := registered
  have enters : Enters db
      (newInterviewer deployment around db body
        (deployment.auth.normalizeEmail body.email)) none _ :=
    .newcomer rfl
  cases orgInvite with
  | none =>
      obtain ⟨_, rfl⟩ := Database.execute_eq_ok.mp finished
      apply growsWithin_of_steady
      intro orgId
      exact (enters.memberCount_foundOrg constraints below orgId).imp_right
        And.right
  | some invite =>
      obtain ⟨_, rfl⟩ := Database.execute_eq_ok.mp finished
      exact enters.growsWithin_joinOrg (free invite admitted)

/-- `accept_org_invite` looks at the plan. -/
theorem acceptOrgInvite_growsWithin {around : Surroundings} {caller : Nat}
    {token : String} (constraints : db.Constraints)
    (enforced : deployment.billingEnforced)
    (accepted : acceptOrgInvite deployment around db caller token =
      .ok after) :
    GrowsWithin db after := by
  unfold acceptOrgInvite at accepted
  simp only [throw_bind, bind_eq_ok, ite_throw_eq_ok,
    Database.currentInterviewer_eq_ok, not_not] at accepted
  obtain ⟨current, found, invite, _, _, _, organization, isOrg, room,
    finished⟩ := accepted
  have free : db.FreeSeat invite.orgId := by
    intro other isOther sameId
    have isOrganization := Database.organization_eq_ok.mp isOrg
    obtain rfl : other = organization :=
      constraints.uniqueKeys.organization.eq isOther
        (mem_of_fetch isOrganization)
        (sameId.trans (key_of_fetch isOrganization).symm)
    simp only [enforced, true_and] at room
    omega
  cases seat : db.membershipFor current.id with
  | none =>
      rw [seat] at finished
      obtain ⟨_, rfl⟩ := Database.execute_eq_ok.mp finished
      exact Enters.growsWithin_joinOrg
        (.seatless (mem_of_fetch found) seat) free
  | some membership =>
      rw [seat] at finished
      obtain ⟨left, gaveUp, joined⟩ := bind_eq_ok.mp finished
      obtain ⟨_, rfl⟩ := Database.execute_eq_ok.mp joined
      exact Enters.growsWithin_joinOrg
        (.leaving (mem_of_fetch found) seat gaveUp) free

/-- A registration that an invitation admits finds a free seat. -/
def Served.FindsSeat (deployment : Deployment) (served : Served) : Prop :=
  ∀ body invite, served.request = .register body →
    admission deployment served.around served.before body
      (deployment.auth.normalizeEmail body.email) = .ok (some invite) →
    served.before.FreeSeat invite.orgId

/-- Every other request leaves the members, or founds organisations. -/
theorem Transactions.growsWithin
    (transactions : Transactions deployment served db after)
    (constraints : db.Constraints) (below : IdsBelow db db.nextId)
    (apart : ¬∃ account, served.request.joinsAs account) :
    GrowsWithin db after := by
  apply growsWithin_of_steady
  have reached := transactions.keeps
    (fun state => IdsBelow state state.nextId ∧ ∀ orgId,
      state.memberCount orgId ≤ db.memberCount orgId ∨
        state.memberCount orgId ≤ 1) constraints
    (fun {_ state next} change here later kept => by
      refine ⟨change.idsBelow kept.1, ?_⟩
      intro orgId
      have counted := change.memberCount_le here later kept.1 apart orgId
      have before := kept.2 orgId
      omega)
    ⟨below, fun _ => Or.inl (Nat.le_refl _)⟩
  exact reached.2.2

/-- With enforcement on, in every run whose registrations by an invitation find
a free seat, an organisation gets a member only while it has fewer than its plan
has seats, and never more than these. -/
theorem seats_enforced {trace : List Served} (run : Run deployment trace db)
    (enforced : deployment.billingEnforced)
    (findsSeat : ∀ served ∈ trace, served.FindsSeat deployment) :
    ∀ served ∈ trace, GrowsWithin served.before (served.after deployment) := by
  intro served member
  have sound := run.sound_before member
  have constraints := sound.constraints
  by_cases joins : ∃ account, served.request.joinsAs account
  · -- The two requests that join are one transaction each.
    obtain ⟨account, joins⟩ := joins
    have unchanged : GrowsWithin served.before served.before :=
      growsWithin_of_steady fun _ => Or.inl (Nat.le_refl _)
    unfold Served.after
    cases asked : served.request with
    | register body =>
        exact lastly_keeps unchanged fun _ =>
          register_growsWithin constraints sound.ids
            fun invite => findsSeat served member body invite asked
    | member caller request =>
        rw [asked] at joins
        cases request with
        | acceptOrgInvite token =>
            exact lastly_keeps unchanged fun _ =>
              acceptOrgInvite_growsWithin constraints enforced
        | _ => cases joins
    | _ =>
        rw [asked] at joins
        cases joins
  · exact (run.transactions member).2.growsWithin constraints sound.ids
      joins

/-! ## Concrete runs -/

namespace Scenario

/-- The deployment with enforcement on, and a price for the starter plan. -/
def enforcing : Deployment :=
  { Scenario.deployment with
    payments :=
      { Scenario.deployment.payments with
        webhookSecret := some "whsec"
        priceIds := [("starter", some "price")] }
    billingEnforced := true }

/-- Serve one more request, with enforcement on. -/
def enforcedRecord (played : List Served × Database) (asked : Asked) :
    List Served × Database :=
  (played.1 ++ [⟨asked.1, asked.2, played.2⟩],
    (serve enforcing asked.1 played.2 asked.2).1)

/-- The run that serves a script with enforcement on. -/
def enforcedPlay (script : List Asked) : List Served × Database :=
  script.foldl enforcedRecord ([], .empty)

theorem run_enforcedFoldl {trace : List Served}
    (run : Run enforcing trace db) (script : List Asked) :
    Run enforcing (script.foldl enforcedRecord (trace, db)).1
      (script.foldl enforcedRecord (trace, db)).2 := by
  induction script generalizing trace db with
  | nil => exact run
  | cons asked rest inductionHypothesis =>
      exact inductionHypothesis (.step asked.1 asked.2 run)

theorem run_enforcedPlay (script : List Asked) :
    Run enforcing (enforcedPlay script).1 (enforcedPlay script).2 :=
  run_enforcedFoldl .start script

/-- A subscription of the organisation 2, as Stripe sends it. -/
def subscription (now : Time) (tag : Char) (type : Payments.EventType) :
    Asked :=
  (surroundings now tag, .stripeWebhook (some
    { id := "evt"
      type := type
      object :=
        [("id", .str "sub"), ("customer", .str "cus"),
          ("status", .str "active"),
          ("items", .obj [("data", .arr [.obj [("price",
            .obj [("id", .str "price")])]])]),
          ("metadata", .obj [("org_id", .str "2")])] }))

/-- An account registers by an invitation. -/
def joinsBy (now : Time) (tag : Char) (email token : String) : Asked :=
  (surroundings now tag,
    .register ⟨email, "long enough pw", "Bob", none, some token⟩)

/-- The organisation invites a colleague, who registers by the link. -/
def welcomed : List Asked :=
  [registers, asks 2 'b' (.createOrgInvite "b@x" .member),
    joinsBy 5 'd' "b@x" "b"]

/-- The organisation takes the starter plan, invites two colleagues and cancels
the plan; one of the two registers. -/
def downgraded : List Asked :=
  [registers,
    subscription 1 's' .customerSubscriptionCreated,
    asks 2 'b' (.createOrgInvite "b@x" .member),
    asks 3 'c' (.createOrgInvite "c@x" .member),
    subscription 4 't' .customerSubscriptionDeleted,
    joinsBy 5 'd' "b@x" "b"]

/-- The other one registers as well. -/
def overflows : Served :=
  ⟨(joinsBy 6 'e' "c@x" "c").1, (joinsBy 6 'e' "c@x" "c").2,
    (enforcedPlay downgraded).2⟩

end Scenario

open Scenario in
theorem seats_enforced_welcomed :
    (enforcedPlay welcomed).2.memberCount 2 = 2 ∧
      ∀ served ∈ (enforcedPlay welcomed).1,
        GrowsWithin served.before (served.after enforcing) := by
  have free : ∀ served ∈ (enforcedPlay welcomed).1,
      ∀ organization ∈ served.before.organizations,
        (served.before.memberCount organization.id : Int) <
          (planFor organization).seats := by
    decide +kernel
  refine ⟨by decide +kernel, seats_enforced (run_enforcedPlay welcomed) rfl ?_⟩
  intro served member _ _ _ _ organization isOrg same
  rw [← same]
  exact free served member organization isOrg

open Scenario in
/-- A registration by an invitation is served while the free plan, with its two
seats, has none left. -/
theorem registration_exceeds_seats :
    Run enforcing (enforcedPlay (downgraded ++ [joinsBy 6 'e' "c@x" "c"])).1
        (overflows.after enforcing) ∧
      overflows ∈ (enforcedPlay (downgraded ++ [joinsBy 6 'e' "c@x" "c"])).1 ∧
      (∃ organization ∈ (overflows.after enforcing).organizations,
        organization.id = 2 ∧ (planFor organization).seats = 2) ∧
      overflows.before.memberCount 2 = 2 ∧
      (overflows.after enforcing).memberCount 2 = 3 ∧
      ¬GrowsWithin overflows.before (overflows.after enforcing) := by
  refine ⟨run_enforcedPlay _, List.mem_append_right _ List.mem_cons_self,
    by decide +kernel, by decide +kernel, by decide +kernel, ?_⟩
  unfold GrowsWithin
  decide +kernel

end AssessmentPlatform
