import LifeEngine.Records.Routes
import LifeEngine.Support.Machine

/-!
# Household routes

The routes of `/api/household`.  A route that only admins may use asks for the role of
the requester in the requester's own household.  The store then looks up the member
whose role changes on its own, wherever that member is, so the two households need not
be the same.  This file proves which requests keep the rules: every household has an
admin, and only its admins change roles in it.
-/

namespace LifeEngine.Households

open Support
open HouseholdStore (memberRole)
open LifeEngine.Records (AuthIdentity)
open LifeEngine.Records.Rest (ApiError)

/-! ## The routes -/

namespace Routes

/-- The status and data of a response. -/
structure Reply (α : Type) where
  status : Nat
  data : α

def requireUser (identity : AuthIdentity) (message : String) : Except ApiError String :=
  okOr identity.userId ⟨400, "HOUSEHOLD_NO_USER_ID", message⟩

def requireAdmin (store : HouseholdStore) (userId message : String) : Except ApiError Unit :=
  ensure (store.getUserRole userId = some .admin) ⟨403, "HOUSEHOLD_FORBIDDEN", message⟩

def createHousehold (uuid : Uuid) (now : Timestamp) (store : HouseholdStore)
    (identity : AuthIdentity) (name displayName : String) :
    Except ApiError (Reply Household) × HouseholdStore :=
  match requireUser identity "user identity required for household creation" with
  | .error e => (.error e, store)
  | .ok userId =>
    let (household, store) := store.createHousehold uuid now name userId displayName
    (.ok ⟨201, household⟩, store)

/-- The user and household of an admin. -/
def adminHousehold (store : HouseholdStore) (identity : AuthIdentity)
    (forbidden noHousehold : String) : Except ApiError (String × Household) := do
  let userId ← requireUser identity "user identity required"
  requireAdmin store userId forbidden
  let household ← okOr (store.getUserHousehold userId)
    ⟨404, "HOUSEHOLD_NOT_FOUND", noHousehold⟩
  return (userId, household)

def inviteMember (uuid : Uuid) (now : Timestamp) (store : HouseholdStore)
    (identity : AuthIdentity) (email : String) (role : HouseholdRole) :
    Except ApiError (Reply HouseholdInvite) × HouseholdStore :=
  match adminHousehold store identity "only admins can invite members"
      "user has no household" with
  | .error e => (.error e, store)
  | .ok (userId, household) =>
    match store.createInvite uuid now household.id email role userId with
    | (some invite, store) => (.ok ⟨201, invite⟩, store)
    | (none, store) =>
      (.error ⟨500, "HOUSEHOLD_INVITE_FAILED", "failed to create invite"⟩, store)

def acceptInvite (now : Timestamp) (store : HouseholdStore) (identity : AuthIdentity)
    (inviteId displayName : String) :
    Except ApiError (Reply HouseholdMember) × HouseholdStore :=
  match requireUser identity "user identity required" with
  | .error e => (.error e, store)
  | .ok userId =>
    match store.acceptInvite now inviteId userId displayName with
    | (.ok member, store) => (.ok ⟨200, member⟩, store)
    | (.error e, store) => (.error ⟨400, "HOUSEHOLD_INVITE_ERROR", e⟩, store)

def adminCount (household : Household) : Nat :=
  household.members.countP fun m => m.role = .admin

/-- The checks before a role changes. The last admin may only be demoted by another. -/
def roleChecks (store : HouseholdStore) (identity : AuthIdentity) (userId : String)
    (role : HouseholdRole) : Except ApiError Unit := do
  let requestingUser ← requireUser identity "user identity required"
  requireAdmin store requestingUser "only admins can change roles"
  if userId = requestingUser ∧ role ≠ .admin then
    match store.getUserHousehold requestingUser with
    | some household =>
      ensure (¬ adminCount household ≤ 1)
        ⟨400, "HOUSEHOLD_LAST_ADMIN", "cannot demote the last admin"⟩
    | none => pure ()
  else pure ()

def updateMemberRole (now : Timestamp) (store : HouseholdStore) (identity : AuthIdentity)
    (userId : String) (role : HouseholdRole) :
    Except ApiError (Reply (String × HouseholdRole)) × HouseholdStore :=
  match roleChecks store identity userId role with
  | .error e => (.error e, store)
  | .ok () =>
    match store.updateMemberRole now userId role with
    | (true, store) => (.ok ⟨200, (userId, role)⟩, store)
    | (false, store) =>
      (.error ⟨404, "HOUSEHOLD_MEMBER_NOT_FOUND", "member not found in any household"⟩,
        store)

/-- The reply names the collection, and says that it is shared. -/
def addSharedCollection (now : Timestamp) (store : HouseholdStore) (identity : AuthIdentity)
    (collection : String) : Except ApiError (Reply (String × Bool)) × HouseholdStore :=
  match adminHousehold store identity "only admins can manage shared collections"
      "no household found" with
  | .error e => (.error e, store)
  | .ok (_, household) =>
    match store.addSharedCollection now household.id collection with
    | (.ok (), store) => (.ok ⟨200, (collection, true)⟩, store)
    | (.error e, store) => (.error ⟨500, "HOUSEHOLD_ERROR", e⟩, store)

end Routes

open Routes

inductive RouteCall where
  | createHousehold (name displayName : String)
  | getHousehold
  | inviteMember (email : String) (role : HouseholdRole)
  | acceptInvite (inviteId displayName : String)
  | updateMemberRole (userId : String) (role : HouseholdRole)
  | addSharedCollection (collection : String)
  | listSharedCollections

/-- A request, with the UUID and the time that its route draws. -/
structure RouteRequest where
  identity : AuthIdentity
  uuid : Uuid
  now : Timestamp
  call : RouteCall

def routeStep (store : HouseholdStore) (request : RouteRequest) : HouseholdStore :=
  match request.call with
  | .createHousehold name displayName =>
    (createHousehold request.uuid request.now store request.identity name
      displayName).2
  | .inviteMember email role =>
    (inviteMember request.uuid request.now store request.identity email role).2
  | .acceptInvite inviteId displayName =>
    (acceptInvite request.now store request.identity inviteId displayName).2
  | .updateMemberRole userId role =>
    (updateMemberRole request.now store request.identity userId role).2
  | .addSharedCollection collection =>
    (addSharedCollection request.now store request.identity collection).2
  | .getHousehold | .listSharedCollections => store

/-! ## The rules -/

def HasAdmin (household : Household) : Prop :=
  ∃ m ∈ household.members, m.role = .admin

/-- The role of the user in the household. -/
def HouseholdStore.roleIn (store : HouseholdStore) (householdId userId : String) :
    Option HouseholdRole :=
  (store.households householdId).bind fun household => memberRole household userId

/-- Every household has an admin after the request. -/
def KeepsAdmin (store : HouseholdStore) (request : RouteRequest) : Prop :=
  ∀ householdId, (store.households householdId).isSome ∨
    ((routeStep store request).households householdId).isSome →
      ∃ household, (routeStep store request).households householdId = some household ∧
        HasAdmin household

/-- Whoever changes a role is an admin of the household. -/
def Authorised (store : HouseholdStore) (request : RouteRequest) : Prop :=
  ∀ householdId userId old new, store.roleIn householdId userId = some old →
    (routeStep store request).roleIn householdId userId = some new → old ≠ new →
      ∃ requester, request.identity.userId = some requester ∧
        store.roleIn householdId requester = some .admin

/-- Nobody changes a role in a household without being its admin, or creates one under the
identifier of another in which they have a lower rank. -/
def InOwnHousehold (store : HouseholdStore) (request : RouteRequest) : Prop :=
  match request.call with
  | .createHousehold _ _ =>
    ∀ requester role, request.identity.userId = some requester →
      store.roleIn (uuidText request.uuid) requester = some role → role = .admin
  | .updateMemberRole userId role =>
    ∀ requester householdId old, request.identity.userId = some requester →
      store.getUserRole requester = some .admin →
      store.userHouseholdMap userId = some householdId →
      store.roleIn householdId userId = some old → old ≠ role →
        store.roleIn householdId requester = some .admin
  | _ => True

/-! ## Roles in the store -/

def Administered (store : HouseholdStore) : Prop :=
  ∀ householdId household, store.households householdId = some household → HasAdmin household

/-- No household goes away, loses its admin or changes a role. -/
structure Harmless (store store' : HouseholdStore) : Prop where
  kept : ∀ householdId, (store.households householdId).isSome →
    (store'.households householdId).isSome
  administered : Administered store → Administered store'
  roleIn : ∀ householdId userId role, store.roleIn householdId userId = some role →
    store'.roleIn householdId userId = some role

namespace HouseholdStore

variable {store : HouseholdStore} {householdId : String}

theorem roleIn_of_household {household : Household}
    (h : store.households householdId = some household) (userId : String) :
    store.roleIn householdId userId = memberRole household userId := by
  rw [roleIn, h]
  rfl

theorem getUserRole_of_map {userId : String}
    (h : store.userHouseholdMap userId = some householdId) :
    store.getUserRole userId = store.roleIn householdId userId := by
  rw [getUserRole, getUserHousehold, h]
  rfl

theorem find_setRole (userId : String) (role : HouseholdRole) (other : String)
    (members : List HouseholdMember) :
    ((setRole userId role members).find? fun m => m.userId = other).map HouseholdMember.role =
      if other = userId then
        (members.find? fun m => m.userId = other).map fun _ => role
      else (members.find? fun m => m.userId = other).map HouseholdMember.role := by
  induction members with
  | nil => simp [setRole]
  | cons m rest ih =>
    unfold setRole
    by_cases huser : m.userId = userId
    · by_cases hother : other = userId
      · simp [hother, huser]
      · have hne : ¬ userId = other := fun h => hother h.symm
        simp [hother, huser, hne]
    · rw [if_neg huser]
      by_cases hother : m.userId = other
      · have hne : ¬ other = userId := fun h => huser (hother.trans h)
        simp [hother, hne]
      · simpa [hother] using ih

theorem setRole_eq_self {userId : String} {role : HouseholdRole}
    {members : List HouseholdMember}
    (h : (members.find? fun m => m.userId = userId).map HouseholdMember.role = some role) :
    setRole userId role members = members := by
  induction members with
  | nil => rfl
  | cons m rest ih =>
    unfold setRole
    by_cases huser : m.userId = userId
    · have hrole : m.role = role := by simpa [huser] using h
      rw [if_pos huser, ← hrole]
    · rw [if_neg huser, ih (by simpa [huser] using h)]

/-- At most one admin less. -/
theorem countP_admin_setRole (userId : String) (role : HouseholdRole)
    (members : List HouseholdMember) :
    members.countP (fun m => m.role = .admin) ≤
      (setRole userId role members).countP (fun m => m.role = .admin) + 1 := by
  induction members with
  | nil => simp
  | cons m rest ih =>
    unfold setRole
    split
    · simp only [List.countP_cons]
      split <;> omega
    · simp only [List.countP_cons]
      omega

end HouseholdStore

theorem hasAdmin_iff_adminCount (household : Household) :
    HasAdmin household ↔ 0 < adminCount household := by
  rw [adminCount]
  simp [HasAdmin]

theorem hasAdmin_of_memberRole {household : Household} {userId : String}
    (h : memberRole household userId = some .admin) : HasAdmin household := by
  obtain ⟨m, hfound, hrole⟩ := Option.map_eq_some_iff.mp h
  exact ⟨m, List.mem_of_find?_eq_some hfound, hrole⟩

namespace Harmless

variable {store store' : HouseholdStore}

theorem of_households_eq (h : store'.households = store.households) : Harmless store store' where
  kept householdId hfound := by rwa [h]
  administered hall householdId household hfound := hall householdId household (by rwa [← h])
  roleIn householdId userId role hrole := by rwa [HouseholdStore.roleIn, h]

theorem of_append {householdId : String} {household household' : Household}
    (extra : List HouseholdMember) (hfound : store.households householdId = some household)
    (hmembers : household'.members = household.members ++ extra)
    (hstore : store'.households = Function.update store.households householdId (some household')) :
    Harmless store store' where
  kept other hother := by
    rw [hstore]
    by_cases hid : other = householdId
    · simp [hid]
    · simpa [hid] using hother
  administered hall other found hother := by
    rw [hstore] at hother
    by_cases hid : other = householdId
    · subst hid
      rw [Function.update_self] at hother
      obtain rfl := Option.some.inj hother
      obtain ⟨m, hmem, hadmin⟩ := hall other household hfound
      exact ⟨m, by rw [hmembers]; exact List.mem_append_left _ hmem, hadmin⟩
    · rw [Function.update_of_ne hid] at hother
      exact hall other found hother
  roleIn other userId role hrole := by
    by_cases hid : other = householdId
    · subst hid
      rw [HouseholdStore.roleIn_of_household hfound] at hrole
      obtain ⟨m, hm, hadmin⟩ := Option.map_eq_some_iff.mp hrole
      rw [HouseholdStore.roleIn, hstore, Function.update_self, Option.bind_some,
        memberRole, hmembers, List.find?_append, hm]
      exact congrArg some hadmin
    · rw [HouseholdStore.roleIn, hstore, Function.update_of_ne hid]
      exact hrole

variable (store : HouseholdStore)

theorem createInvite (uuid : Uuid) (now : Timestamp)
    (householdId email : String) (role : HouseholdRole) (invitedBy : String) :
    Harmless store (store.createInvite uuid now householdId email role invitedBy).2 := by
  apply of_households_eq
  unfold HouseholdStore.createInvite
  split <;> rfl

theorem acceptInvite (now : Timestamp)
    (inviteId userId displayName : String) :
    Harmless store (store.acceptInvite now inviteId userId displayName).2 := by
  unfold HouseholdStore.acceptInvite
  cases hinvite : store.invites inviteId with
  | none => exact of_households_eq rfl
  | some invite =>
    dsimp only
    split
    · exact of_households_eq rfl
    · split
      · exact of_households_eq rfl
      · cases hfound : store.households invite.householdId with
        | none =>
          apply of_households_eq
          change Function.update store.households invite.householdId none = store.households
          rw [← hfound, Function.update_eq_self]
        | some household => exact of_append _ hfound rfl rfl

theorem addSharedCollection (now : Timestamp)
    (householdId collection : String) :
    Harmless store (store.addSharedCollection now householdId collection).2 := by
  unfold HouseholdStore.addSharedCollection
  cases hfound : store.households householdId with
  | none => exact of_households_eq rfl
  | some household =>
    dsimp only
    split
    · exact of_households_eq rfl
    · refine of_append [] hfound ?_ rfl
      exact (List.append_nil household.members).symm

end Harmless

theorem households_createHousehold (store : HouseholdStore) (uuid : Uuid) (now : Timestamp)
    (name adminUserId adminDisplayName : String) :
    (store.createHousehold uuid now name adminUserId adminDisplayName).2.households =
      Function.update store.households (uuidText uuid)
        (some ⟨uuidText uuid, name, [⟨adminUserId, adminDisplayName, none, .admin, now⟩], [],
          now, now⟩) := by
  simp only [HouseholdStore.createHousehold, HouseholdStore.mapUser, HouseholdStore.putHousehold]

variable {store : HouseholdStore} {request : RouteRequest}

theorem administered_createHousehold (h : Administered store) (uuid : Uuid) (now : Timestamp)
    (name adminUserId adminDisplayName : String) :
    Administered (store.createHousehold uuid now name adminUserId adminDisplayName).2 := by
  intro householdId household hfound
  rw [households_createHousehold] at hfound
  by_cases hid : householdId = uuidText uuid
  · rw [hid, Function.update_self] at hfound
    obtain rfl := Option.some.inj hfound
    exact ⟨_, List.mem_singleton_self _, rfl⟩
  · rw [Function.update_of_ne hid] at hfound
    exact h householdId household hfound

theorem roleIn_createHousehold (store : HouseholdStore) (uuid : Uuid) (now : Timestamp)
    (name adminUserId adminDisplayName householdId userId : String) :
    (store.createHousehold uuid now name adminUserId adminDisplayName).2.roleIn
        householdId userId =
      if householdId = uuidText uuid then
        if adminUserId = userId then some .admin else none
      else store.roleIn householdId userId := by
  rw [HouseholdStore.roleIn, households_createHousehold]
  by_cases hid : householdId = uuidText uuid
  · by_cases huser : adminUserId = userId <;> simp [hid, memberRole]
  · simp [hid, HouseholdStore.roleIn]

/-- `update_member_role` does nothing, or gives the member of the user's household the role. -/
theorem updateMemberRole_cases (store : HouseholdStore) (now : Timestamp) (userId : String)
    (role : HouseholdRole) :
    (store.updateMemberRole now userId role = (false, store) ∧
      ∀ householdId, store.userHouseholdMap userId = some householdId →
        store.roleIn householdId userId = none) ∨
    ∃ householdId household old, store.userHouseholdMap userId = some householdId ∧
      store.households householdId = some household ∧
      memberRole household userId = some old ∧
      store.updateMemberRole now userId role = (true, { store with
        households := Function.update store.households householdId (some { household with
          members := HouseholdStore.setRole userId role household.members
          updatedAt := now }) }) := by
  unfold HouseholdStore.updateMemberRole
  cases hmap : store.userHouseholdMap userId with
  | none => exact Or.inl ⟨rfl, fun _ hsome => by cases hsome⟩
  | some householdId =>
    cases hfound : store.households householdId with
    | none =>
      refine Or.inl ⟨by simp [hfound], ?_⟩
      intro other hsome
      obtain rfl := Option.some.inj hsome
      rw [HouseholdStore.roleIn, hfound]
      rfl
    | some household =>
      simp only [Option.bind_some, hfound, Option.map_some]
      split
      · next hlisted =>
        have hsome : (memberRole household userId).isSome := by
          simpa [memberRole] using hlisted
        obtain ⟨old, hold⟩ := Option.isSome_iff_exists.mp hsome
        exact Or.inr ⟨householdId, household, old, rfl, hfound, hold, rfl⟩
      · next hnone =>
        refine Or.inl ⟨rfl, ?_⟩
        intro other hsome
        obtain rfl := Option.some.inj hsome
        rw [HouseholdStore.roleIn_of_household hfound, memberRole]
        simpa using hnone

theorem roleIn_updateMemberRole (store : HouseholdStore) (now : Timestamp) (userId : String)
    (role : HouseholdRole) (householdId other : String) :
    (store.updateMemberRole now userId role).2.roleIn householdId other =
      if other = userId ∧ store.userHouseholdMap userId = some householdId then
        (store.roleIn householdId other).map fun _ => role
      else store.roleIn householdId other := by
  rcases updateMemberRole_cases store now userId role with
    ⟨hsame, hnone⟩ | ⟨hid, household, old, hmap, hfound, -, hset⟩
  · rw [hsame]
    split
    · next h =>
      rw [h.1, hnone householdId h.2]
      rfl
    · rfl
  · rw [hset]
    by_cases hhousehold : householdId = hid
    · subst hhousehold
      rw [HouseholdStore.roleIn_of_household hfound, HouseholdStore.roleIn]
      simp only [Function.update_self, Option.bind_some, memberRole,
        HouseholdStore.find_setRole, hmap, and_true, Option.map_map]
      rfl
    · have hne : ¬ hid = householdId := fun h => hhousehold h.symm
      simp [HouseholdStore.roleIn, Function.update_of_ne hhousehold, hmap, hne]

/-- The household has an admin besides the entry that changes. -/
theorem administered_updateMemberRole (h : Administered store) (now : Timestamp) {userId : String}
    {role : HouseholdRole}
    (hother : ∀ householdId household old, store.userHouseholdMap userId = some householdId →
      store.households householdId = some household →
      memberRole household userId = some old → old ≠ role →
        1 < adminCount household ∨ ∃ requester, requester ≠ userId ∧
          memberRole household requester = some .admin) :
    Administered (store.updateMemberRole now userId role).2 := by
  rcases updateMemberRole_cases store now userId role with
    ⟨hsame, -⟩ | ⟨hid, household, old, hmap, hfound, hold, hset⟩
  · rwa [hsame]
  · rw [hset]
    intro householdId found hfound'
    dsimp only at hfound'
    by_cases hhousehold : householdId = hid
    · rw [hhousehold, Function.update_self] at hfound'
      obtain rfl := Option.some.inj hfound'
      by_cases hrole : old = role
      · rw [HouseholdStore.setRole_eq_self (hrole ▸ hold)]
        exact h hid household hfound
      · rcases hother hid household old hmap hfound hold hrole with
          hcount | ⟨requester, hne, hadmin⟩
        · rw [hasAdmin_iff_adminCount]
          have hless := HouseholdStore.countP_admin_setRole userId role household.members
          unfold adminCount at hcount ⊢
          dsimp only
          omega
        · apply hasAdmin_of_memberRole
          rw [memberRole, HouseholdStore.find_setRole, if_neg hne]
          exact hadmin
    · rw [Function.update_of_ne hhousehold] at hfound'
      exact h householdId found hfound'

/-! ## What a request does -/

namespace Routes

variable {store : HouseholdStore} {identity : AuthIdentity} {userId : String}
  {role : HouseholdRole}

theorem roleChecks_eq_ok_iff :
    roleChecks store identity userId role = .ok () ↔
      ∃ requester, identity.userId = some requester ∧
        store.getUserRole requester = some .admin ∧
        (userId = requester → role ≠ .admin → ∀ household,
          store.getUserHousehold requester = some household → 1 < adminCount household) := by
  unfold roleChecks requireUser requireAdmin
  simp only [bind_eq_ok_iff, ensure_eq_ok_iff]
  cases identity.userId with
  | none => simp [okOr]
  | some requester =>
    simp only [okOr_some, Except.ok.injEq, exists_eq_left', Option.some.injEq, exists_const]
    by_cases hself : userId = requester ∧ role ≠ .admin
    · cases store.getUserHousehold requester with
      | none => simp [pure, Except.pure]
      | some household => simp [ensure_eq_ok_iff, hself]
    · rw [if_neg hself]
      simp only [pure, Except.pure, and_true]
      constructor
      · intro hadmin
        exact ⟨hadmin, fun huser hrole => absurd ⟨huser, hrole⟩ hself⟩
      · exact fun h => h.1

theorem snd_updateMemberRole (now : Timestamp) (store : HouseholdStore)
    (identity : AuthIdentity) (userId : String) (role : HouseholdRole) :
    (updateMemberRole now store identity userId role).2 =
      if roleChecks store identity userId role = .ok () then
        (store.updateMemberRole now userId role).2
      else store := by
  unfold updateMemberRole
  split
  · next hfailed =>
    rw [hfailed, if_neg]
    intro hok
    cases hok
  · next hok =>
    rw [if_pos hok]
    split <;> next heq => rw [heq]

end Routes

theorem routeStep_cases (store : HouseholdStore) (request : RouteRequest) :
    Harmless store (routeStep store request) ∨
    (∃ name displayName requester, request.call = .createHousehold name displayName ∧
      request.identity.userId = some requester ∧
      routeStep store request =
        (store.createHousehold request.uuid request.now name requester displayName).2) ∨
    (∃ userId role, request.call = .updateMemberRole userId role ∧
      roleChecks store request.identity userId role = .ok () ∧
      routeStep store request = (store.updateMemberRole request.now userId role).2) := by
  obtain ⟨identity, uuid, now, call⟩ := request
  cases call with
  | createHousehold name displayName =>
    cases huser : identity.userId with
    | none =>
      left
      apply Harmless.of_households_eq
      simp [routeStep, createHousehold, requireUser, huser, okOr]
    | some requester =>
      simp [routeStep, createHousehold, requireUser, huser]
  | inviteMember email role =>
    left
    simp only [routeStep, inviteMember]
    split
    · exact .of_households_eq rfl
    · next userId household _ =>
      have hharmless := Harmless.createInvite store uuid now household.id email role userId
      split <;> next heq => rwa [heq] at hharmless
  | acceptInvite inviteId displayName =>
    left
    simp only [routeStep, acceptInvite]
    split
    · exact .of_households_eq rfl
    · next userId _ =>
      have hharmless := Harmless.acceptInvite store now inviteId userId displayName
      split <;> next heq => rwa [heq] at hharmless
  | addSharedCollection collection =>
    left
    simp only [routeStep, addSharedCollection]
    split
    · exact .of_households_eq rfl
    · next household _ =>
      have hharmless := Harmless.addSharedCollection store now household.id collection
      split <;> next heq => rwa [heq] at hharmless
  | getHousehold => exact Or.inl (.of_households_eq rfl)
  | listSharedCollections => exact Or.inl (.of_households_eq rfl)
  | updateMemberRole userId role =>
    have hstep := snd_updateMemberRole now store identity userId role
    by_cases hok : roleChecks store identity userId role = .ok ()
    · rw [if_pos hok] at hstep
      exact Or.inr (Or.inr ⟨userId, role, rfl, hok, hstep⟩)
    · rw [if_neg hok] at hstep
      exact Or.inl (.of_households_eq (congrArg HouseholdStore.households hstep))

theorem authorised_of_inOwnHousehold (h : InOwnHousehold store request) :
    Authorised store request := by
  intro householdId userId old new hold hnew hne
  rcases routeStep_cases store request with
    hharmless | ⟨name, displayName, requester, hcall, huser, hstep⟩ |
    ⟨target, role, hcall, hok, hstep⟩
  · rw [hharmless.roleIn householdId userId old hold] at hnew
    exact absurd (Option.some.inj hnew) hne
  · -- Only the creator is listed, and would have been an admin before.
    rw [InOwnHousehold, hcall] at h
    rw [hstep, roleIn_createHousehold] at hnew
    split at hnew
    · next hid =>
      split at hnew
      · next hsame =>
        subst hid hsame
        have hadmin := h requester old huser hold
        exact absurd (hadmin.trans (Option.some.inj hnew)) hne
      · cases hnew
    · rw [hold] at hnew
      exact absurd (Option.some.inj hnew) hne
  · rw [InOwnHousehold, hcall] at h
    obtain ⟨requester, huser, hadmin, -⟩ := roleChecks_eq_ok_iff.mp hok
    rw [hstep, roleIn_updateMemberRole, hold] at hnew
    split at hnew
    · next hboth =>
      obtain ⟨rfl, hmap⟩ := hboth
      obtain rfl : role = new := Option.some.inj hnew
      exact ⟨requester, huser, h requester householdId old huser hadmin hmap hold hne⟩
    · exact absurd (Option.some.inj hnew) hne

theorem inOwnHousehold_of_authorised (h : Authorised store request) :
    InOwnHousehold store request := by
  obtain ⟨identity, uuid, now, call⟩ := request
  cases call with
  | createHousehold name displayName =>
    intro requester role huser hrole
    by_contra hne
    have hstep : routeStep store ⟨identity, uuid, now, .createHousehold name displayName⟩ =
        (store.createHousehold uuid now name requester displayName).2 := by
      simp only [routeStep, createHousehold, requireUser]
      rw [show identity.userId = some requester from huser]
      rfl
    have hnew := roleIn_createHousehold store uuid now name requester displayName
      (uuidText uuid) requester
    rw [if_pos rfl, if_pos rfl] at hnew
    obtain ⟨other, hother, hadmin⟩ := h (uuidText uuid) requester role .admin hrole
      (by rw [hstep]; exact hnew) hne
    obtain rfl : requester = other := Option.some.inj (huser.symm.trans hother)
    exact hne (Option.some.inj (hrole.symm.trans hadmin))
  | updateMemberRole userId role =>
    intro requester householdId old huser hadmin hmap hold hne
    by_cases hself : userId = requester
    · subst hself
      rwa [← HouseholdStore.getUserRole_of_map hmap]
    · have hok : roleChecks store identity userId role = .ok () :=
        roleChecks_eq_ok_iff.mpr ⟨requester, huser, hadmin, fun hsame => absurd hsame hself⟩
      have hnew := roleIn_updateMemberRole store now userId role householdId userId
      rw [if_pos ⟨rfl, hmap⟩, hold] at hnew
      have hstep := snd_updateMemberRole now store identity userId role
      rw [if_pos hok] at hstep
      obtain ⟨other, hother, hrole⟩ := h householdId userId old role hold
        ((congrArg (fun s => s.roleIn householdId userId) hstep).trans hnew) hne
      obtain rfl : requester = other := Option.some.inj (huser.symm.trans hother)
      exact hrole
  | getHousehold => trivial
  | inviteMember email role => trivial
  | acceptInvite inviteId displayName => trivial
  | addSharedCollection collection => trivial
  | listSharedCollections => trivial

theorem administered_routeStep (h : Administered store) (hown : InOwnHousehold store request) :
    Administered (routeStep store request) := by
  rcases routeStep_cases store request with
    hharmless | ⟨name, displayName, requester, -, -, hstep⟩ | ⟨userId, role, hcall, hok, hstep⟩
  · exact hharmless.administered h
  · rw [hstep]
    exact administered_createHousehold h _ _ _ _ _
  · rw [hstep]
    apply administered_updateMemberRole h
    intro householdId household old hmap hfound hold hne
    obtain ⟨requester, huser, hadmin, hlast⟩ := roleChecks_eq_ok_iff.mp hok
    rw [InOwnHousehold, hcall] at hown
    have hrole := hown requester householdId old huser hadmin hmap
      (by rw [HouseholdStore.roleIn_of_household hfound, hold]) hne
    rw [HouseholdStore.roleIn_of_household hfound] at hrole
    by_cases hself : userId = requester
    · -- An admin who steps down was asked for another one.
      left
      subst hself
      rw [hold] at hrole
      obtain rfl := Option.some.inj hrole
      apply hlast rfl (fun hadmin => hne hadmin.symm)
      rw [HouseholdStore.getUserHousehold, hmap]
      exact hfound
    · exact Or.inr ⟨requester, fun hsame => hself hsame.symm, hrole⟩

theorem kept_routeStep (store : HouseholdStore) (request : RouteRequest) (householdId : String)
    (h : (store.households householdId).isSome) :
    ((routeStep store request).households householdId).isSome := by
  rcases routeStep_cases store request with
    hharmless | ⟨name, displayName, requester, -, -, hstep⟩ | ⟨userId, role, -, -, hstep⟩
  · exact hharmless.kept householdId h
  · rw [hstep, households_createHousehold]
    by_cases hid : householdId = uuidText request.uuid
    · simp [hid]
    · simpa [hid] using h
  · rw [hstep]
    rcases updateMemberRole_cases store request.now userId role with
      ⟨hsame, -⟩ | ⟨hid, household, old, -, -, -, hset⟩
    · rwa [hsame]
    · rw [hset]
      by_cases hhousehold : householdId = hid
      · simp [hhousehold]
      · simpa [hhousehold] using h

theorem keepsAdmin_of_administered (h : Administered (routeStep store request)) :
    KeepsAdmin store request := by
  intro householdId hsome
  have hfound : ((routeStep store request).households householdId).isSome := by
    rcases hsome with hbefore | hafter
    · exact kept_routeStep store request householdId hbefore
    · exact hafter
  obtain ⟨household, hhousehold⟩ := Option.isSome_iff_exists.mp hfound
  exact ⟨household, hhousehold, h householdId household hhousehold⟩

/-- Every household keeps an admin, and only its admins change roles, exactly if all requests stay
in the household of the requester. -/
theorem rules_kept_iff (requests : List RouteRequest) :
    EveryStep routeStep (fun store request => KeepsAdmin store request ∧
        Authorised store request) .new requests ↔
      EveryStep routeStep InOwnHousehold .new requests := by
  have hnew : Administered .new := by
    intro householdId household hfound
    cases hfound
  refine everyStep_congr_of_invariant (fun _ _ => administered_routeStep) ?_ hnew requests
  intro store request h
  constructor
  · intro hkept
    exact inOwnHousehold_of_authorised hkept.2
  · intro hown
    exact ⟨keepsAdmin_of_administered (administered_routeStep h hown),
      authorised_of_inOwnHousehold hown⟩

/-- The admin of one household demotes the only one of another. -/
def strangerDemotes : List RouteRequest :=
  [⟨⟨some "ada", none⟩, 0, 0, .createHousehold "North" "Ada"⟩,
    ⟨⟨some "bob", none⟩, 1, 1, .createHousehold "South" "Bob"⟩,
    ⟨⟨some "ada", none⟩, 2, 2, .updateMemberRole "bob" .guest⟩]

theorem not_rules_kept_strangerDemotes :
    ¬ EveryStep routeStep (fun store request => KeepsAdmin store request ∧
      Authorised store request) .new strangerDemotes := by
  intro h
  obtain ⟨hadmin, -⟩ := h (strangerDemotes.take 2) _ [] rfl
  obtain ⟨household, hfound, m, hmem, hrole⟩ := hadmin (uuidText 1) (Or.inl rfl)
  obtain rfl := Option.some.inj hfound
  obtain rfl := List.mem_singleton.mp hmem
  cases hrole

end LifeEngine.Households
