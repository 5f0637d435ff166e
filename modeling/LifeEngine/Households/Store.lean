import LifeEngine.Types.Pipeline

/-!
# Households

`HouseholdStore` keeps the households, the open invites and the household of each
user.  `check_record_access` is the rule by which users may read and write records;
`can_access_record` applies it in the current state of the store.
-/

namespace LifeEngine.Households

inductive HouseholdRole where
  | admin
  | member
  | guest
  deriving DecidableEq, Repr

structure HouseholdMember where
  userId : String
  displayName : String
  email : Option String
  role : HouseholdRole
  joinedAt : Timestamp

structure Household where
  id : String
  name : String
  members : List HouseholdMember
  sharedCollections : List String
  createdAt : Timestamp
  updatedAt : Timestamp

structure HouseholdInvite where
  id : String
  householdId : String
  email : String
  role : HouseholdRole
  invitedBy : String
  createdAt : Timestamp
  expiresAt : Timestamp
  accepted : Bool

/-- The three maps of the store, by household, invite and user. -/
structure HouseholdStore where
  households : String → Option Household
  invites : String → Option HouseholdInvite
  userHouseholdMap : String → Option String

/-- Seven days, in milliseconds. -/
def inviteLifetime : Timestamp := 7 * 24 * 60 * 60 * 1000

namespace HouseholdStore

def new : HouseholdStore :=
  ⟨fun _ => none, fun _ => none, fun _ => none⟩

/-- The user joins the household, from whichever one before. -/
def mapUser (store : HouseholdStore) (userId householdId : String) : HouseholdStore :=
  { store with
    userHouseholdMap := Function.update store.userHouseholdMap userId (some householdId) }

def putHousehold (store : HouseholdStore) (household : Household) : HouseholdStore :=
  { store with
    households := Function.update store.households household.id (some household) }

def putInvite (store : HouseholdStore) (invite : HouseholdInvite) : HouseholdStore :=
  { store with invites := Function.update store.invites invite.id (some invite) }

/-- `create_household`, with what it draws. -/
def createHousehold (store : HouseholdStore) (uuid : Uuid) (now : Timestamp)
    (name adminUserId adminDisplayName : String) : Household × HouseholdStore :=
  let admin : HouseholdMember := ⟨adminUserId, adminDisplayName, none, .admin, now⟩
  let household : Household := ⟨uuidText uuid, name, [admin], [], now, now⟩
  (household, (store.putHousehold household).mapUser adminUserId household.id)

def getUserHousehold (store : HouseholdStore) (userId : String) : Option Household :=
  (store.userHouseholdMap userId).bind store.households

def memberRole (household : Household) (userId : String) : Option HouseholdRole :=
  (household.members.find? fun m => m.userId = userId).map HouseholdMember.role

def getUserRole (store : HouseholdStore) (userId : String) : Option HouseholdRole :=
  (store.getUserHousehold userId).bind fun household => memberRole household userId

/-- Give the first entry of the user the role. -/
def setRole (userId : String) (role : HouseholdRole) :
    List HouseholdMember → List HouseholdMember
  | [] => []
  | m :: rest =>
    if m.userId = userId then { m with role := role } :: rest
    else m :: setRole userId role rest

/-- `update_member_role`, and whether the member was found. -/
def updateMemberRole (store : HouseholdStore) (now : Timestamp) (userId : String)
    (newRole : HouseholdRole) : Bool × HouseholdStore :=
  match (store.userHouseholdMap userId).bind fun hid =>
      (store.households hid).map fun household => (hid, household) with
  | some (hid, household) =>
    if household.members.any fun m => m.userId = userId then
      let household := { household with
        members := setRole userId newRole household.members, updatedAt := now }
      (true, { store with
        households := Function.update store.households hid (some household) })
    else (false, store)
  | none => (false, store)

def createInvite (store : HouseholdStore) (uuid : Uuid) (now : Timestamp)
    (householdId email : String) (role : HouseholdRole) (invitedBy : String) :
    Option HouseholdInvite × HouseholdStore :=
  if (store.households householdId).isSome then
    let invite : HouseholdInvite := ⟨uuidText uuid, householdId, email, role, invitedBy,
      now, now + inviteLifetime, false⟩
    (some invite, store.putInvite invite)
  else (none, store)

/-- `accept_invite`: the user is mapped even if there is no such household. -/
def acceptInvite (store : HouseholdStore) (now : Timestamp)
    (inviteId userId displayName : String) :
    Except String HouseholdMember × HouseholdStore :=
  match store.invites inviteId with
  | none => (.error "invite not found", store)
  | some invite =>
    if invite.accepted then (.error "invite already accepted", store)
    else if invite.expiresAt < now then (.error "invite expired", store)
    else
      let member : HouseholdMember := ⟨userId, displayName, none, invite.role, now⟩
      let invites := Function.update store.invites inviteId
        (some { invite with accepted := true })
      let households := Function.update store.households invite.householdId
        ((store.households invite.householdId).map fun household =>
          { household with members := household.members ++ [member], updatedAt := now })
      (.ok member,
        ({ store with invites := invites, households := households }).mapUser userId
          invite.householdId)

def addSharedCollection (store : HouseholdStore) (now : Timestamp)
    (householdId collection : String) : Except String Unit × HouseholdStore :=
  match store.households householdId with
  | none => (.error "household not found", store)
  | some household =>
    if collection ∈ household.sharedCollections then (.ok (), store)
    else
      let household := { household with
        sharedCollections := household.sharedCollections ++ [collection], updatedAt := now }
      (.ok (), { store with
        households := Function.update store.households householdId (some household) })

end HouseholdStore

/-! ## The access rule -/

def checkRecordAccess (requestingUserId : String)
    (requestingUserRole : Option HouseholdRole)
    (requestingUserHouseholdId recordUserId recordHouseholdId : Option String)
    (collection : String) (sharedCollections : List String) (write : Bool) : Bool :=
  match recordUserId with
  -- Legacy data without an owner is open to all.
  | none => true
  | some recordOwner =>
    if recordOwner = requestingUserId then true
    else
      match recordHouseholdId with
      | none => false
      | some recordHid =>
        if requestingUserHouseholdId ≠ some recordHid then false
        else if write ∧ requestingUserRole = some .guest then false
        else if collection ∈ sharedCollections then true
        else requestingUserRole = some .admin

def HouseholdStore.canAccessRecord (store : HouseholdStore) (requestingUserId : String)
    (recordUserId recordHouseholdId : Option String) (collection : String)
    (write : Bool) : Bool :=
  match store.getUserHousehold requestingUserId with
  | some household =>
    checkRecordAccess requestingUserId (memberRole household requestingUserId)
      (some household.id) recordUserId recordHouseholdId collection
      household.sharedCollections write
  | none =>
    checkRecordAccess requestingUserId none none recordUserId recordHouseholdId collection
      [] write

theorem checkRecordAccess_eq_true_iff {user : String} {role : Option HouseholdRole}
    {userHid owner hid : Option String} {collection : String} {shared : List String}
    {write : Bool} :
    checkRecordAccess user role userHid owner hid collection shared write = true ↔
      ∀ o, owner = some o → o ≠ user →
        (∃ h, hid = some h ∧ userHid = some h) ∧ ¬ (write = true ∧ role = some .guest) ∧
          (collection ∈ shared ∨ role = some .admin) := by
  unfold checkRecordAccess
  cases owner with
  | none => simp
  | some o =>
    by_cases howner : o = user
    · simp [howner]
    cases hid with
    | none => simp
    | some h =>
      by_cases hsame : userHid = some h
      · by_cases hguest : write = true ∧ role = some .guest
        · simp [hguest]
        · by_cases hshared : collection ∈ shared <;> simp [howner, hguest]
      · simp [hsame]

theorem HouseholdStore.canAccessRecord_eq_true_iff {store : HouseholdStore} {user owner : String}
    {hid : Option String} {collection : String} {write : Bool} :
    store.canAccessRecord user (some owner) hid collection write = true ↔
      (owner ≠ user → ∃ household, store.getUserHousehold user = some household ∧
        hid = some household.id ∧ ¬ (write = true ∧ memberRole household user = some .guest) ∧
          (collection ∈ household.sharedCollections ∨
            memberRole household user = some .admin)) := by
  unfold canAccessRecord
  rcases store.getUserHousehold user with _ | household
  · simp [checkRecordAccess_eq_true_iff]
  · simp [checkRecordAccess_eq_true_iff]

/-- Whatever the maps hold, a record is closed to users of other households, a guest writes only
their own, and who may write may read. -/
theorem HouseholdStore.canAccessRecord_guarded (store : HouseholdStore) (user owner : String)
    (hid : Option String) (collection : String) :
    (owner ≠ user → (∀ household, store.getUserHousehold user = some household →
        hid ≠ some household.id) →
      ∀ write, store.canAccessRecord user (some owner) hid collection write = false) ∧
    (owner ≠ user → store.getUserRole user = some .guest →
      store.canAccessRecord user (some owner) hid collection true = false) ∧
    (store.canAccessRecord user (some owner) hid collection true = true →
      store.canAccessRecord user (some owner) hid collection false = true) := by
  simp only [← Bool.not_eq_true, canAccessRecord_eq_true_iff]
  refine ⟨?_, ?_, ?_⟩
  · intro hother hapart write hallowed
    obtain ⟨household, hfound, hsame, -⟩ := hallowed hother
    exact hapart household hfound hsame
  · intro hother hguest hallowed
    obtain ⟨household, hfound, -, hwriter, -⟩ := hallowed hother
    rw [getUserRole, hfound] at hguest
    exact hwriter ⟨trivial, hguest⟩
  · intro hallowed hother
    obtain ⟨household, hfound, hsame, -, hreads⟩ := hallowed hother
    exact ⟨household, hfound, hsame, nofun, hreads⟩

end LifeEngine.Households
