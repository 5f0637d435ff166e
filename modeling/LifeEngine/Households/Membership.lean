import LifeEngine.Households.Store
import LifeEngine.Support.Machine

/-!
# Membership under concurrent calls

The store keeps its three maps behind three locks.  A call takes one lock after the
other and lets go of each before it takes the next, so the calls of several clients
interleave section by section.  Whether the maps agree when all calls are done depends
on one thing only: that nobody joins a household who is in one, or about to be.

For the proof every user has a standing: outside of all households, let in by an
invite, listed among the members, or settled, that is also in the map of users.
-/

namespace LifeEngine.Households

open Support Function

/-! ## Calls in sections -/

inductive StoreCall where
  | createHousehold (name adminUserId adminDisplayName : String)
  | createInvite (householdId email : String) (role : HouseholdRole) (invitedBy : String)
  | acceptInvite (inviteId userId displayName : String)
  | updateMemberRole (userId : String) (newRole : HouseholdRole)

/-- What is left to do of a call that has released a lock. -/
inductive Pending where
  | mapUser (userId householdId : String)
  | putInvite (householdId email : String) (role : HouseholdRole) (invitedBy : String)
  | addMember (householdId userId displayName : String) (role : HouseholdRole)
  | setMemberRole (householdId userId : String) (newRole : HouseholdRole)

namespace HouseholdStore

/-- `members.push`, if the household is there. -/
def addMember (store : HouseholdStore) (now : Timestamp) (householdId : String)
    (member : HouseholdMember) : HouseholdStore :=
  { store with
    households := update store.households householdId
      ((store.households householdId).map fun household =>
        { household with members := household.members ++ [member], updatedAt := now }) }

def setMemberRole (store : HouseholdStore) (now : Timestamp) (householdId userId : String)
    (newRole : HouseholdRole) : HouseholdStore :=
  match store.households householdId with
  | some household =>
    if household.members.any fun m => m.userId = userId then
      { store with
        households := update store.households householdId (some
          { household with
            members := setRole userId newRole household.members, updatedAt := now }) }
    else store
  | none => store

/-- The invite is there, not yet accepted, and has not expired. -/
def InviteOpen (store : HouseholdStore) (now : Timestamp) (inviteId : String) : Prop :=
  ∃ invite, store.invites inviteId = some invite ∧ invite.accepted = false ∧
    ¬ invite.expiresAt < now

/-- A call up to the release of its first lock. -/
def startCall (store : HouseholdStore) (uuid : Uuid) (now : Timestamp) :
    StoreCall → HouseholdStore × Option Pending
  | .createHousehold name adminUserId adminDisplayName =>
    let admin : HouseholdMember := ⟨adminUserId, adminDisplayName, none, .admin, now⟩
    let household : Household := ⟨uuidText uuid, name, [admin], [], now, now⟩
    (store.putHousehold household, some (.mapUser adminUserId household.id))
  | .createInvite householdId email role invitedBy =>
    (store, if (store.households householdId).isSome then
      some (.putInvite householdId email role invitedBy) else none)
  | .acceptInvite inviteId userId displayName =>
    match store.invites inviteId with
    | none => (store, none)
    | some invite =>
      if invite.accepted then (store, none)
      else if invite.expiresAt < now then (store, none)
      else
        ({ store with
            invites := update store.invites inviteId
              (some { invite with accepted := true }) },
          some (.addMember invite.householdId userId displayName invite.role))
  | .updateMemberRole userId newRole =>
    (store, (store.userHouseholdMap userId).map fun householdId =>
      .setMemberRole householdId userId newRole)

/-- A call from one lock to the next. -/
def resumeCall (store : HouseholdStore) (uuid : Uuid) (now : Timestamp) :
    Pending → HouseholdStore × Option Pending
  | .mapUser userId householdId => (store.mapUser userId householdId, none)
  | .putInvite householdId email role invitedBy =>
    (store.putInvite ⟨uuidText uuid, householdId, email, role, invitedBy, now,
      now + inviteLifetime, false⟩, none)
  | .addMember householdId userId displayName role =>
    (store.addMember now householdId ⟨userId, displayName, none, role, now⟩,
      some (.mapUser userId householdId))
  | .setMemberRole householdId userId newRole =>
    (store.setMemberRole now householdId userId newRole, none)

/-- The rest of a call that nothing interrupts. -/
def finishCall (uuid : Uuid) (now : Timestamp) : HouseholdStore × Option Pending → HouseholdStore
  | (store, none) => store
  | (store, some p) =>
    match store.resumeCall uuid now p with
    | (store, none) => store
    | (store, some p) => (store.resumeCall uuid now p).1

/-- The call as one step. -/
def callAlone (store : HouseholdStore) (uuid : Uuid) (now : Timestamp) :
    StoreCall → HouseholdStore
  | .createHousehold name adminUserId adminDisplayName =>
    (store.createHousehold uuid now name adminUserId adminDisplayName).2
  | .createInvite householdId email role invitedBy =>
    (store.createInvite uuid now householdId email role invitedBy).2
  | .acceptInvite inviteId userId displayName =>
    (store.acceptInvite now inviteId userId displayName).2
  | .updateMemberRole userId newRole => (store.updateMemberRole now userId newRole).2

variable (store : HouseholdStore) (now : Timestamp) (householdId userId : String)
  (newRole : HouseholdRole)

/-- The sections of a call that nothing interrupts are the call. -/
theorem finishCall_startCall (uuid : Uuid) (now : Timestamp) (call : StoreCall) :
    finishCall uuid now (store.startCall uuid now call) = store.callAlone uuid now call := by
  cases call with
  | createHousehold name adminUserId adminDisplayName => rfl
  | createInvite householdId email role invitedBy =>
    simp only [startCall, callAlone, createInvite]
    split <;> rfl
  | acceptInvite inviteId userId displayName =>
    simp only [startCall, callAlone, acceptInvite]
    cases store.invites inviteId with
    | none => rfl
    | some invite =>
      dsimp only
      split
      · rfl
      · split <;> rfl
  | updateMemberRole userId newRole =>
    simp only [startCall, callAlone, updateMemberRole]
    cases store.userHouseholdMap userId with
    | none => rfl
    | some householdId =>
      simp only [Option.map_some, Option.bind_some, finishCall, resumeCall, setMemberRole]
      cases store.households householdId with
      | none => rfl
      | some household =>
        simp only [Option.map_some]
        split <;> rfl

/-! ## What the maps say of a user -/

/-- How often the household, if it is there, lists the user. -/
def listing (store : HouseholdStore) (householdId userId : String) : Option Nat :=
  (store.households householdId).map fun household =>
    household.members.countP fun m => m.userId = userId

theorem isSome_listing :
    (store.listing householdId userId).isSome = (store.households householdId).isSome := by
  simp [listing]

theorem listing_of_household {store : HouseholdStore} {householdId : String}
    {household : Household} (h : store.households householdId = some household)
    (userId : String) :
    store.listing householdId userId =
      some (household.members.countP fun m => m.userId = userId) := by
  rw [listing, h]
  rfl

theorem listing_addMember (member : HouseholdMember) (other userId : String) :
    (store.addMember now householdId member).listing other userId =
      if other = householdId ∧ userId = member.userId then
        (store.listing other userId).map (· + 1)
      else store.listing other userId := by
  unfold listing addMember
  by_cases hother : other = householdId
  · subst hother
    by_cases huser : userId = member.userId
    · simp [huser, comp_def]
    · have hmember : ¬ member.userId = userId := fun h => huser h.symm
      simp [huser, hmember, comp_def]
  · simp [hother]

theorem countP_setRole (role : HouseholdRole) (other : String) (members : List HouseholdMember) :
    (setRole userId role members).countP (fun m => m.userId = other) =
      members.countP fun m => m.userId = other := by
  induction members with
  | nil => rfl
  | cons m rest ih =>
    unfold setRole
    split
    · simp [List.countP_cons]
    · simp [List.countP_cons, ih]

theorem listing_setMemberRole :
    (store.setMemberRole now householdId userId newRole).listing = store.listing := by
  funext other user
  unfold setMemberRole
  cases hhousehold : store.households householdId with
  | none => rfl
  | some household =>
    dsimp only
    split
    · unfold listing
      by_cases hother : other = householdId
      · subst hother
        simp [hhousehold, countP_setRole]
      · simp [hother]
    · rfl

theorem isSome_putHousehold (household : Household) (householdId : String) :
    ((store.putHousehold household).households householdId).isSome ↔
      householdId = household.id ∨ (store.households householdId).isSome := by
  unfold putHousehold
  by_cases h : householdId = household.id <;> simp [h]

theorem isSome_addMember (member : HouseholdMember) (other : String) :
    ((store.addMember now householdId member).households other).isSome =
      (store.households other).isSome := by
  unfold addMember
  by_cases h : other = householdId
  · subst h
    simp
  · simp [h]

theorem setMemberRole_keeps :
    (store.setMemberRole now householdId userId newRole).userHouseholdMap =
        store.userHouseholdMap ∧
      (store.setMemberRole now householdId userId newRole).invites = store.invites := by
  unfold setMemberRole
  split
  · split <;> exact ⟨rfl, rfl⟩
  · exact ⟨rfl, rfl⟩

end HouseholdStore

open HouseholdStore

/-! ## Interleavings -/

/-- The store, and what each client is in the middle of. -/
structure Shared (Client : Type) where
  store : HouseholdStore
  pending : Client → Option Pending

inductive Event (Client : Type) where
  | start (client : Client) (uuid : Uuid) (now : Timestamp) (call : StoreCall)
  | resume (client : Client) (uuid : Uuid) (now : Timestamp)

namespace Shared

variable {Client : Type} [DecidableEq Client]

def initial : Shared Client :=
  ⟨.new, fun _ => none⟩

/-- A client comes to the end of a section. -/
def put (s : Shared Client) (client : Client) (next : HouseholdStore × Option Pending) :
    Shared Client :=
  ⟨next.1, update s.pending client next.2⟩

/-- A client runs one call at a time. -/
def step (s : Shared Client) : Event Client → Shared Client
  | .start client uuid now call =>
    match s.pending client with
    | some _ => s
    | none => s.put client (s.store.startCall uuid now call)
  | .resume client uuid now =>
    match s.pending client with
    | none => s
    | some p => s.put client (s.store.resumeCall uuid now p)

/-- No call is in progress. -/
def Idle (s : Shared Client) : Prop :=
  ∀ client, s.pending client = none

end Shared

open Shared

/-! ## The agreement of the maps -/

/-- The map of users and the lists agree, and nobody is in two households. -/
structure Coherent (store : HouseholdStore) : Prop where
  mapped_iff : ∀ userId householdId,
    store.userHouseholdMap userId = some householdId ↔
      ∃ household, store.households householdId = some household ∧
        household.members.countP (fun m => m.userId = userId) = 1
  one_household : ∀ userId first second firstHousehold secondHousehold,
    store.households first = some firstHousehold →
    store.households second = some secondHousehold →
    (∃ m ∈ firstHousehold.members, m.userId = userId) →
    (∃ m ∈ secondHousehold.members, m.userId = userId) → first = second

/-- Where a user stands between the households. -/
inductive Standing where
  | outside
  | entering (householdId : String)
  | listed (householdId : String)
  | settled (householdId : String)
  deriving DecidableEq

namespace Standing

/-- The household lists a user of this standing. -/
def lists (standing : Standing) (householdId : String) : Bool :=
  standing = listed householdId ∨ standing = settled householdId

def household : Standing → Option String
  | outside => none
  | entering householdId | listed householdId | settled householdId => some householdId

/-- A call is about to change the standing. -/
def moving : Standing → Bool
  | entering _ | listed _ => true
  | outside | settled _ => false

theorem lists_iff {standing : Standing} {householdId : String} :
    standing.lists householdId = true ↔
      standing = listed householdId ∨ standing = settled householdId := by
  rw [lists, decide_eq_true_eq]

end Standing

open Standing

/-- The user who is to join, and their standing until then. -/
def Pending.join : Pending → Option (String × Standing)
  | .mapUser userId householdId => some (userId, .listed householdId)
  | .addMember householdId userId _ _ => some (userId, .entering householdId)
  | .putInvite .. | .setMemberRole .. => none

section Invariant

variable {Client : Type}

def Shared.join (s : Shared Client) (client : Client) : Option (String × Standing) :=
  (s.pending client).bind Pending.join

theorem Shared.join_eq_none {s : Shared Client} {client : Client} (h : s.pending client = none) :
    s.join client = none := by
  rw [join, h]
  rfl

/-- The user is in no household, nor about to join one. -/
def Free (s : Shared Client) (userId : String) : Prop :=
  s.store.userHouseholdMap userId = none ∧ ∀ client standing,
    s.join client ≠ some (userId, standing)

/-- Whoever joins a household is free, and a new household has a new identifier. -/
def JoinsWhenFree (s : Shared Client) : Event Client → Prop
  | .start client uuid now call =>
    s.pending client = none →
      match call with
      | .createHousehold _ adminUserId _ =>
        s.store.households (uuidText uuid) = none ∧ Free s adminUserId
      | .acceptInvite inviteId userId _ => s.store.InviteOpen now inviteId → Free s userId
      | .createInvite .. | .updateMemberRole .. => True
  | .resume .. => True

/-- The maps and the calls in progress fit the standings. -/
structure Tracked (standing : String → Standing) (s : Shared Client) : Prop where
  count : ∀ householdId userId n, s.store.listing householdId userId = some n →
    n = if (standing userId).lists householdId then 1 else 0
  found : ∀ householdId userId, (standing userId).household = some householdId →
    (s.store.households householdId).isSome
  mapped : ∀ userId householdId, s.store.userHouseholdMap userId = some householdId ↔
    standing userId = .settled householdId
  joining : ∀ client userId st, s.join client = some (userId, st) → standing userId = st
  once : ∀ client client' userId st st', s.join client = some (userId, st) →
    s.join client' = some (userId, st') → client = client'
  awaited : ∀ userId, (standing userId).moving → ∃ client,
    s.join client = some (userId, standing userId)

/-- Invites are for households that are there. -/
structure Invited (s : Shared Client) : Prop where
  stored : ∀ inviteId invite, s.store.invites inviteId = some invite →
    (s.store.households invite.householdId).isSome
  pending : ∀ client householdId email role invitedBy,
    s.pending client = some (.putInvite householdId email role invitedBy) →
      (s.store.households householdId).isSome

namespace Tracked

variable {standing : String → Standing} {s s' : Shared Client}

variable {householdId : String}

variable {userId : String}

theorem settled_of_member (h : Tracked standing s) (hidle : s.Idle) {household : Household}
    (hhousehold : s.store.households householdId = some household)
    (hmember : household.members.countP (fun m => m.userId = userId) ≠ 0) :
    standing userId = .settled householdId := by
  have hcount := h.count householdId userId _ (listing_of_household hhousehold userId)
  have hlists : (standing userId).lists householdId = true := by
    by_contra hnot
    rw [if_neg hnot] at hcount
    exact hmember hcount
  rcases lists_iff.mp hlists with hlisted | hsettled
  · obtain ⟨client, hjoin⟩ := h.awaited userId (by rw [hlisted]; rfl)
    rw [join_eq_none (hidle client)] at hjoin
    cases hjoin
  · exact hsettled

theorem coherent (h : Tracked standing s) (hidle : s.Idle) : Coherent s.store := by
  constructor
  · intro userId householdId
    rw [h.mapped]
    constructor
    · intro hsettled
      obtain ⟨household, hhousehold⟩ := Option.isSome_iff_exists.mp
        (h.found householdId userId (by rw [hsettled]; rfl))
      refine ⟨household, hhousehold, ?_⟩
      rw [h.count householdId userId _ (listing_of_household hhousehold userId),
        if_pos (lists_iff.mpr (Or.inr hsettled))]
    · rintro ⟨household, hhousehold, hone⟩
      exact h.settled_of_member hidle hhousehold (by omega)
  · intro userId first second firstHousehold secondHousehold hfirst hsecond hm hm'
    have hin : ∀ householdId household, s.store.households householdId = some household →
        (∃ m ∈ household.members, m.userId = userId) →
        standing userId = .settled householdId := by
      rintro householdId household hhousehold ⟨m, hmem, huser⟩
      apply h.settled_of_member hidle hhousehold
      rw [← Nat.pos_iff_ne_zero, List.countP_pos_iff]
      exact ⟨m, hmem, by simpa using huser⟩
    have hsame := (hin first firstHousehold hfirst hm).symm.trans
      (hin second secondHousehold hsecond hm')
    exact settled.inj hsame

/-- Nothing of what the standings are about changes. -/
theorem congr (h : Tracked standing s) (hlisting : s'.store.listing = s.store.listing)
    (hmap : s'.store.userHouseholdMap = s.store.userHouseholdMap) (hjoin : s'.join = s.join) :
    Tracked standing s' where
  count := hlisting ▸ h.count
  found householdId userId hat := by
    rw [← isSome_listing s'.store householdId userId, hlisting, isSome_listing]
    exact h.found householdId userId hat
  mapped := hmap ▸ h.mapped
  joining := hjoin ▸ h.joining
  once := hjoin ▸ h.once
  awaited := hjoin ▸ h.awaited

theorem standing_of_free (h : Tracked standing s) (hfree : Free s userId) :
    standing userId = .outside := by
  cases hst : standing userId with
  | outside => rfl
  | entering householdId | listed householdId =>
    obtain ⟨other, hsome⟩ := h.awaited userId (by rw [hst]; rfl)
    exact absurd hsome (hfree.2 other _)
  | settled householdId =>
    have hmap := (h.mapped userId householdId).mpr hst
    rw [hfree.1] at hmap
    cases hmap

theorem lists_of_not_found (h : Tracked standing s) (hnew : s.store.households householdId = none)
    (userId : String) :
    (standing userId).lists householdId = false := by
  rw [← Bool.not_eq_true]
  intro hlists
  have hhousehold : (standing userId).household = some householdId := by
    rcases lists_iff.mp hlists with hst | hst <;> rw [hst] <;> rfl
  have hfound := h.found householdId userId hhousehold
  rw [hnew] at hfound
  cases hfound

section OneUser

variable {userId : String} {st : Standing}

theorem count_of_lists_eq (h : Tracked standing s) (hlists : st.lists = (standing userId).lists)
    (householdId user : String) (n : Nat) (hn : s.store.listing householdId user = some n) :
    n = if (update standing userId st user).lists householdId then 1 else 0 := by
  have hcount := h.count householdId user n hn
  by_cases hsame : user = userId
  · subst hsame
    rwa [update_self, hlists]
  · rwa [update_of_ne hsame]

theorem mapped_of_not_settled (h : Tracked standing s)
    (hold : ∀ householdId, standing userId ≠ .settled householdId)
    (hnew : ∀ householdId, st ≠ .settled householdId) (user householdId : String) :
    s.store.userHouseholdMap user = some householdId ↔
      update standing userId st user = .settled householdId := by
  rw [h.mapped]
  by_cases hsame : user = userId
  · subst hsame
    rw [update_self]
    exact iff_of_false (hold householdId) (hnew householdId)
  · rw [update_of_ne hsame]

end OneUser

end Tracked

/-! ## One step -/

variable [DecidableEq Client] {standing : String → Standing} {s s' : Shared Client}
  {client : Client} {uuid : Uuid} {now : Timestamp}

theorem join_put (s : Shared Client) (client : Client) (next : HouseholdStore × Option Pending) :
    (s.put client next).join = update s.join client (next.2.bind Pending.join) := by
  funext other
  by_cases h : other = client
  · subst h
    simp [join, put]
  · simp [join, put, h]

variable {next : HouseholdStore × Option Pending} {householdId : String}

theorem join_put_self (hrest : next.2.bind Pending.join = s.join client) :
    (s.put client next).join = s.join := by
  rw [join_put, hrest, update_eq_self]

/-- A call changes the standing of one user, whom no other call is about. -/
structure Turn (s s' : Shared Client) (client : Client) (userId : String) (st : Standing) :
    Prop where
  only : ∀ other st', s.join other = some (userId, st') → other = client
  own : ∀ user st', s.join client = some (user, st') → user = userId
  join : s'.join = update s.join client (if st.moving then some (userId, st) else none)

namespace Turn

variable {userId : String} {st : Standing}

/-- A call of a client without one is about a user who is free. -/
theorem of_free (hidle : s.join client = none) (hfree : Free s userId)
    (hrest : next.2.bind Pending.join = if st.moving then some (userId, st) else none) :
    Turn s (s.put client next) client userId st where
  only other st' hsome := absurd hsome (hfree.2 other st')
  own user st' hsome := by
    rw [hidle] at hsome
    cases hsome
  join := by rw [join_put, hrest]

/-- A call goes on. -/
theorem of_join (h : Tracked standing s) {old : Standing}
    (hjoin : s.join client = some (userId, old))
    (hrest : next.2.bind Pending.join = if st.moving then some (userId, st) else none) :
    Turn s (s.put client next) client userId st where
  only other st' hother := h.once other client userId st' old hother hjoin
  own user st' hsame := by
    rw [hjoin] at hsame
    cases hsame
    rfl
  join := by rw [join_put, hrest]

variable (t : Turn s s' client userId st)

include t

theorem join_client : s'.join client = if st.moving then some (userId, st) else none := by
  rw [t.join, update_self]

theorem join_of_ne {other : Client} (hne : other ≠ client) : s'.join other = s.join other := by
  rw [t.join, update_of_ne hne]

theorem eq_of_join_client {user : String} {st' : Standing}
    (h : s'.join client = some (user, st')) : user = userId ∧ st' = st := by
  rw [t.join_client] at h
  split at h
  · cases h
    exact ⟨rfl, rfl⟩
  · cases h

theorem client_of_join {other : Client} {st' : Standing}
    (h : s'.join other = some (userId, st')) : other = client := by
  by_contra hne
  rw [t.join_of_ne hne] at h
  exact hne (t.only other st' h)

/-- Other users are about to join as before. -/
theorem join_iff_of_ne {user : String} (huser : user ≠ userId) {other : Client}
    {st' : Standing} : s'.join other = some (user, st') ↔ s.join other = some (user, st') := by
  by_cases hne : other = client
  · subst hne
    exact iff_of_false (fun h => huser (t.eq_of_join_client h).1)
      (fun h => huser (t.own user st' h))
  · rw [t.join_of_ne hne]

/-- The calls in progress and the standings stay in step. -/
theorem advance (h : Tracked standing s)
    (hcount : ∀ householdId user n, s'.store.listing householdId user = some n →
      n = if (update standing userId st user).lists householdId then 1 else 0)
    (hfound : ∀ householdId, (s.store.households householdId).isSome ∨
      st.household = some householdId → (s'.store.households householdId).isSome)
    (hmapped : ∀ user householdId, s'.store.userHouseholdMap user = some householdId ↔
      update standing userId st user = .settled householdId) :
    Tracked (update standing userId st) s' := by
  refine ⟨hcount, ?_, hmapped, ?_, ?_, ?_⟩
  · intro householdId user hat
    by_cases hsame : user = userId
    · rw [hsame, update_self] at hat
      exact hfound householdId (Or.inr hat)
    · rw [update_of_ne hsame] at hat
      exact hfound householdId (Or.inl (h.found householdId user hat))
  · intro other user st' hsome
    by_cases hsame : user = userId
    · subst hsame
      obtain rfl := t.client_of_join hsome
      rw [update_self, (t.eq_of_join_client hsome).2]
    · rw [update_of_ne hsame]
      exact h.joining other user st' ((t.join_iff_of_ne hsame).mp hsome)
  · intro first second user st₁ st₂ hfirst hsecond
    by_cases hsame : user = userId
    · subst hsame
      rw [t.client_of_join hfirst, t.client_of_join hsecond]
    · exact h.once first second user st₁ st₂ ((t.join_iff_of_ne hsame).mp hfirst)
        ((t.join_iff_of_ne hsame).mp hsecond)
  · intro user hmoving
    by_cases hsame : user = userId
    · subst hsame
      rw [update_self] at hmoving ⊢
      exact ⟨client, by rw [t.join_client, if_pos hmoving]⟩
    · rw [update_of_ne hsame] at hmoving ⊢
      obtain ⟨other, hsome⟩ := h.awaited user hmoving
      exact ⟨other, (t.join_iff_of_ne hsame).mpr hsome⟩

end Turn

omit [DecidableEq Client] in
theorem Tracked.count_putHousehold (h : Tracked standing s) {admin : HouseholdMember}
    {household : Household} (hmembers : household.members = [admin])
    (hnew : s.store.households household.id = none)
    (houtside : standing admin.userId = .outside) (householdId user : String) (n : Nat)
    (hn : (s.store.putHousehold household).listing householdId user = some n) :
    n = if (update standing admin.userId (.listed household.id) user).lists
      householdId then 1 else 0 := by
  simp only [listing, putHousehold] at hn
  by_cases hid : householdId = household.id
  · subst hid
    rw [update_self, Option.map_some, hmembers] at hn
    obtain rfl := Option.some.inj hn
    by_cases hsame : user = admin.userId
    · simp [hsame, lists]
    · have hne : ¬ admin.userId = user := fun heq => hsame heq.symm
      simp [hsame, hne, h.lists_of_not_found hnew user]
  · rw [update_of_ne hid] at hn
    have hcount := h.count householdId user n hn
    by_cases hsame : user = admin.userId
    · subst hsame
      have hne : household.id ≠ householdId := fun heq => hid heq.symm
      rw [houtside] at hcount
      simpa [lists, hne] using hcount
    · rwa [update_of_ne hsame]

theorem Tracked.createHousehold (h : Tracked standing s) (hidle : s.join client = none)
    (admin : HouseholdMember) (household : Household)
    (hmembers : household.members = [admin]) (hnew : s.store.households household.id = none)
    (hfree : Free s admin.userId) :
    Tracked (update standing admin.userId (.listed household.id))
      (s.put client (s.store.putHousehold household,
        some (.mapUser admin.userId household.id))) := by
  have houtside := h.standing_of_free hfree
  apply (Turn.of_free hidle hfree rfl).advance h
  · exact h.count_putHousehold hmembers hnew houtside
  · intro householdId hsome
    refine (isSome_putHousehold ..).mpr (hsome.symm.imp_left fun hsome => ?_)
    exact (Option.some.inj hsome).symm
  · exact h.mapped_of_not_settled (by simp [houtside]) nofun

variable {userId : String}

theorem Tracked.enter (h : Tracked standing s) (hidle : s.join client = none)
    {invites : String → Option HouseholdInvite} {displayName : String} {role : HouseholdRole}
    (hfound : (s.store.households householdId).isSome) (hfree : Free s userId) :
    Tracked (update standing userId (.entering householdId))
      (s.put client ({ s.store with invites := invites },
        some (.addMember householdId userId displayName role))) := by
  have houtside := h.standing_of_free hfree
  apply (Turn.of_free hidle hfree rfl).advance h
  · apply h.count_of_lists_eq
    funext other
    simp [houtside, lists]
  · rintro other (hsome | hsome)
    · exact hsome
    · obtain rfl := Option.some.inj hsome
      exact hfound
  · exact h.mapped_of_not_settled (by simp [houtside]) nofun

omit [DecidableEq Client] in
theorem Tracked.count_addMember (h : Tracked standing s) {member : HouseholdMember}
    (hentering : standing member.userId = .entering householdId) (other user : String) (n : Nat)
    (hn : (s.store.addMember now householdId member).listing other user = some n) :
    n = if (update standing member.userId (.listed householdId) user).lists other
      then 1 else 0 := by
  rw [listing_addMember] at hn
  by_cases hsame : user = member.userId
  · subst hsame
    rw [update_self]
    have hbefore : ∀ n, s.store.listing other member.userId = some n → n = 0 := by
      intro n hn
      have hcount := h.count other _ n hn
      rw [hentering] at hcount
      simpa [lists] using hcount
    by_cases hother : other = householdId
    · rw [if_pos ⟨hother, rfl⟩] at hn
      obtain ⟨old, hold, rfl⟩ := Option.map_eq_some_iff.mp hn
      rw [hbefore old hold]
      simp [lists, hother]
    · rw [if_neg (fun hboth => hother hboth.1)] at hn
      have hne : householdId ≠ other := fun heq => hother heq.symm
      simp [hbefore n hn, lists, hne]
  · rw [update_of_ne hsame]
    rw [if_neg (fun hboth => hsame hboth.2)] at hn
    exact h.count other user n hn

theorem Tracked.addMember (h : Tracked standing s) {member : HouseholdMember}
    (hjoin : s.join client = some (member.userId, .entering householdId)) :
    Tracked (update standing member.userId (.listed householdId))
      (s.put client (s.store.addMember now householdId member,
        some (.mapUser member.userId householdId))) := by
  have hentering := h.joining client _ _ hjoin
  apply (Turn.of_join h hjoin rfl).advance h
  · exact h.count_addMember hentering
  · intro other hsome
    simp only [put, isSome_addMember]
    rcases hsome with hsome | hsome
    · exact hsome
    · obtain rfl := Option.some.inj hsome
      exact h.found householdId member.userId (by rw [hentering]; rfl)
  · exact h.mapped_of_not_settled (by simp [hentering]) nofun

theorem Tracked.settle (h : Tracked standing s)
    (hjoin : s.join client = some (userId, .listed householdId)) :
    Tracked (update standing userId (.settled householdId))
      (s.put client (s.store.mapUser userId householdId, none)) := by
  have hlisted := h.joining client _ _ hjoin
  apply (Turn.of_join h hjoin rfl).advance h
  · apply h.count_of_lists_eq
    funext other
    simp [hlisted, lists]
  · rintro other (hsome | hsome)
    · exact hsome
    · obtain rfl := Option.some.inj hsome
      exact h.found householdId userId (by rw [hlisted]; rfl)
  · intro user other
    by_cases hsame : user = userId
    · subst hsame
      simp [put, mapUser]
    · simp only [put, mapUser, update_of_ne hsame]
      exact h.mapped user other

theorem Tracked.acceptInvite (h : Tracked standing s) (hinvited : Invited s)
    (hidle : s.pending client = none) {inviteId displayName : String}
    (hfree : s.store.InviteOpen now inviteId → Free s userId) :
    ∃ standing', Tracked standing' (s.put client
      (s.store.startCall uuid now (.acceptInvite inviteId userId displayName))) := by
  have hjoin := join_eq_none hidle
  simp only [startCall]
  cases hinvite : s.store.invites inviteId with
  | none => exact ⟨standing, h.congr rfl rfl (join_put_self hjoin.symm)⟩
  | some invite =>
    dsimp only
    split
    · exact ⟨standing, h.congr rfl rfl (join_put_self hjoin.symm)⟩
    · next haccepted =>
      split
      · exact ⟨standing, h.congr rfl rfl (join_put_self hjoin.symm)⟩
      · next hexpired =>
        have hopen : s.store.InviteOpen now inviteId :=
          ⟨invite, hinvite, by simpa using haccepted, hexpired⟩
        exact ⟨_, h.enter hjoin (hinvited.stored inviteId invite hinvite) (hfree hopen)⟩

theorem Tracked.start (h : Tracked standing s) (hinvited : Invited s)
    (hidle : s.pending client = none) {call : StoreCall}
    (hfree : JoinsWhenFree s (.start client uuid now call)) :
    ∃ standing', Tracked standing' (s.put client (s.store.startCall uuid now call)) := by
  have hjoin := join_eq_none hidle
  cases call with
  | createHousehold name adminUserId adminDisplayName =>
    obtain ⟨hnew, hfree⟩ := hfree hidle
    exact ⟨_, h.createHousehold hjoin ⟨adminUserId, adminDisplayName, none, .admin, now⟩
      ⟨uuidText uuid, name, [⟨adminUserId, adminDisplayName, none, .admin, now⟩], [], now, now⟩
      rfl hnew hfree⟩
  | createInvite householdId email role invitedBy =>
    refine ⟨standing, h.congr rfl rfl (join_put_self ?_)⟩
    rw [hjoin]
    dsimp only [startCall]
    split <;> rfl
  | acceptInvite inviteId userId displayName =>
    exact h.acceptInvite hinvited hidle (hfree hidle)
  | updateMemberRole userId newRole =>
    refine ⟨standing, h.congr rfl rfl (join_put_self ?_)⟩
    rw [hjoin]
    dsimp only [startCall]
    cases s.store.userHouseholdMap userId <;> rfl

theorem Tracked.resume (h : Tracked standing s) {p : Pending}
    (hpending : s.pending client = some p) :
    ∃ standing', Tracked standing' (s.put client (s.store.resumeCall uuid now p)) := by
  have hjoin : s.join client = p.join := by
    rw [join, hpending]
    rfl
  cases p with
  | mapUser userId householdId => exact ⟨_, h.settle hjoin⟩
  | putInvite householdId email role invitedBy =>
    exact ⟨standing, h.congr rfl rfl (join_put_self hjoin.symm)⟩
  | addMember householdId userId displayName role => exact ⟨_, h.addMember hjoin⟩
  | setMemberRole householdId userId newRole =>
    exact ⟨standing, h.congr (listing_setMemberRole ..)
      (setMemberRole_keeps ..).1 (join_put_self hjoin.symm)⟩

/-- Households stay, and new invites are for those that are there. -/
theorem Invited.extend (h : Invited s)
    (hkept : ∀ householdId, (s.store.households householdId).isSome →
      (next.1.households householdId).isSome)
    (hinvites : ∀ inviteId invite, next.1.invites inviteId = some invite →
      (∃ old, s.store.invites inviteId = some old ∧ old.householdId = invite.householdId) ∨
        (s.store.households invite.householdId).isSome)
    (hrest : ∀ householdId email role invitedBy,
      next.2 = some (.putInvite householdId email role invitedBy) →
        (s.store.households householdId).isSome) :
    Invited (s.put client next) where
  stored inviteId invite hinvite := by
    rcases hinvites inviteId invite hinvite with ⟨old, hold, hsame⟩ | hfound
    · rw [← hsame]
      exact hkept _ (h.stored inviteId old hold)
    · exact hkept _ hfound
  pending other householdId email role invitedBy hpending := by
    dsimp only [put] at hpending
    by_cases hother : other = client
    · subst hother
      rw [update_self] at hpending
      exact hkept _ (hrest householdId email role invitedBy hpending)
    · rw [update_of_ne hother] at hpending
      exact hkept _ (h.pending other householdId email role invitedBy hpending)

/-- The invites are as they were. -/
theorem Invited.extend_of_invites_eq (h : Invited s) (hinvites : next.1.invites = s.store.invites)
    (hkept : ∀ householdId, (s.store.households householdId).isSome →
      (next.1.households householdId).isSome)
    (hrest : ∀ householdId email role invitedBy,
      next.2 = some (.putInvite householdId email role invitedBy) →
        (s.store.households householdId).isSome) :
    Invited (s.put client next) := by
  apply h.extend hkept _ hrest
  intro inviteId invite hinvite
  rw [hinvites] at hinvite
  exact Or.inl ⟨invite, hinvite, rfl⟩

theorem Invited.acceptInvite (h : Invited s) (inviteId userId displayName : String) :
    Invited (s.put client
      (s.store.startCall uuid now (.acceptInvite inviteId userId displayName))) := by
  have hrefused : Invited (s.put client (s.store, none)) :=
    h.extend_of_invites_eq rfl (fun _ => id) nofun
  simp only [startCall]
  cases hinvite : s.store.invites inviteId with
  | none => exact hrefused
  | some invite =>
    dsimp only
    split
    · exact hrefused
    · split
      · exact hrefused
      · refine h.extend (fun _ => id) ?_ nofun
        intro other invite' hinvite'
        dsimp only at hinvite'
        by_cases hother : other = inviteId
        · subst hother
          rw [update_self] at hinvite'
          obtain rfl := Option.some.inj hinvite'
          exact Or.inl ⟨invite, hinvite, rfl⟩
        · rw [update_of_ne hother] at hinvite'
          exact Or.inl ⟨invite', hinvite', rfl⟩

theorem Invited.start (h : Invited s) (call : StoreCall) :
    Invited (s.put client (s.store.startCall uuid now call)) := by
  cases call with
  | createHousehold name adminUserId adminDisplayName =>
    refine h.extend_of_invites_eq rfl ?_ nofun
    intro householdId hfound
    exact (isSome_putHousehold ..).mpr (Or.inr hfound)
  | createInvite householdId email role invitedBy =>
    refine h.extend_of_invites_eq rfl (fun _ => id) ?_
    intro other _ _ _ hrest
    dsimp only [startCall] at hrest
    split at hrest
    · next hfound =>
      cases hrest
      exact hfound
    · cases hrest
  | acceptInvite inviteId userId displayName =>
    exact h.acceptInvite inviteId userId displayName
  | updateMemberRole userId newRole =>
    refine h.extend_of_invites_eq rfl (fun _ => id) ?_
    intro _ _ _ _ hrest
    obtain ⟨_, -, hrest⟩ := Option.map_eq_some_iff.mp hrest
    cases hrest

theorem Invited.resume (h : Invited s) {p : Pending} (hpending : s.pending client = some p) :
    Invited (s.put client (s.store.resumeCall uuid now p)) := by
  cases p with
  | mapUser userId householdId =>
    exact h.extend_of_invites_eq rfl (fun _ => id) nofun
  | putInvite householdId email role invitedBy =>
    refine h.extend (fun _ => id) ?_ nofun
    intro inviteId invite hinvite
    simp only [resumeCall, putInvite] at hinvite
    by_cases hid : inviteId = uuidText uuid
    · subst hid
      rw [update_self] at hinvite
      obtain rfl := Option.some.inj hinvite
      exact Or.inr (h.pending client householdId email role invitedBy hpending)
    · rw [update_of_ne hid] at hinvite
      exact Or.inl ⟨invite, hinvite, rfl⟩
  | addMember householdId userId displayName role =>
    refine h.extend_of_invites_eq rfl ?_ nofun
    intro other hfound
    rwa [resumeCall, isSome_addMember]
  | setMemberRole householdId userId newRole =>
    refine h.extend_of_invites_eq (setMemberRole_keeps ..).2 ?_ nofun
    intro other hfound
    rwa [resumeCall, ← isSome_listing _ other userId, listing_setMemberRole, isSome_listing]

theorem Invited.step (h : Invited s) (event : Event Client) : Invited (s.step event) := by
  cases event with
  | start client uuid now call =>
    cases hpending : s.pending client with
    | some p => simpa only [Shared.step, hpending] using h
    | none => simpa only [Shared.step, hpending] using h.start call
  | resume client uuid now =>
    cases hpending : s.pending client with
    | none => simpa only [Shared.step, hpending] using h
    | some p => simpa only [Shared.step, hpending] using h.resume hpending

theorem Tracked.step (h : Tracked standing s) (hinvited : Invited s) {event : Event Client}
    (hfree : JoinsWhenFree s event) : ∃ standing', Tracked standing' (s.step event) := by
  cases event with
  | start client uuid now call =>
    cases hpending : s.pending client with
    | some p => exact ⟨standing, by simpa only [Shared.step, hpending] using h⟩
    | none => simpa only [Shared.step, hpending] using h.start hinvited hpending hfree
  | resume client uuid now =>
    cases hpending : s.pending client with
    | none => exact ⟨standing, by simpa only [Shared.step, hpending] using h⟩
    | some p => simpa only [Shared.step, hpending] using h.resume hpending

omit [DecidableEq Client] in
theorem tracked_initial :
    Invited (initial : Shared Client) ∧ ∃ standing, Tracked standing (initial : Shared Client) := by
  refine ⟨⟨nofun, nofun⟩, fun _ => .outside, nofun, nofun, ?_, nofun, nofun, nofun⟩
  intro userId householdId
  simp [initial, new]

end Invariant

variable {Client : Type} [DecidableEq Client]

/-- The maps agree whenever no call is in progress, if all who joined were free when their call
started. -/
theorem coherent_run (events : List (Event Client))
    (hfree : EveryStep step JoinsWhenFree initial events)
    (hidle : (run step initial events).Idle) :
    Coherent (run step initial events).store := by
  obtain ⟨-, standing, htracked⟩ := run_invariant_of_everyStep
    (fun s event (h : Invited s ∧ ∃ standing, Tracked standing s) hstep =>
      ⟨h.1.step event, h.2.elim fun _ htracked => htracked.step h.1 hstep⟩)
    tracked_initial hfree
  exact htracked.coherent hidle

/-- In every interleaving, invites are for households that are there. -/
theorem invited_run (events : List (Event Client)) : Invited (run step initial events) :=
  run_invariant (fun _ event h => h.step event) tracked_initial.1 events

/-- The calls of one client, one after the other. -/
def alone (client : Client) (calls : List (Uuid × Timestamp × StoreCall)) : List (Event Client) :=
  calls.flatMap fun (uuid, now, call) =>
    [.start client uuid now call, .resume client uuid now, .resume client uuid now]

theorem run_call (client : Client) (store : HouseholdStore) (uuid : Uuid) (now : Timestamp)
    (call : StoreCall) :
    run step ⟨store, fun _ => none⟩ [.start client uuid now call, .resume client uuid now,
      .resume client uuid now] = ⟨store.callAlone uuid now call, fun _ => none⟩ := by
  rw [← finishCall_startCall]
  simp only [run_cons, step, put]
  rcases store.startCall uuid now call with ⟨store', _ | p⟩
  · simp [finishCall]
  · cases p <;> simp [finishCall, resumeCall]

/-- Without interleaving, the sections are the operations of the store. -/
theorem store_run_alone (client : Client) (calls : List (Uuid × Timestamp × StoreCall)) :
    (run step initial (alone client calls)).store =
      run (fun store (uuid, now, call) => store.callAlone uuid now call) .new calls := by
  suffices h : ∀ store, run step ⟨store, fun _ => none⟩ (alone client calls) =
      ⟨run (fun store (uuid, now, call) => store.callAlone uuid now call) store calls,
        fun _ => none⟩ by
    rw [initial, h]
  induction calls with
  | nil => exact fun _ => rfl
  | cons call rest ih =>
    intro store
    rw [alone, List.flatMap_cons, run_append, run_call, ← alone, ih, run_cons]

/-- Two clients create a household each, one during the call of the other. -/
def twoFounders : List (Event Bool) :=
  [.start true 0 0 (.createHousehold "North" "ada" "Ada"),
    .start false 1 0 (.createHousehold "South" "bob" "Bob"),
    .resume true 0 1, .resume false 0 1]

theorem coherent_run_twoFounders :
    EveryStep step JoinsWhenFree initial twoFounders ∧
      (run step initial twoFounders).Idle ∧
      Coherent (run step initial twoFounders).store := by
  have hfree : EveryStep step JoinsWhenFree initial twoFounders := by
    refine everyStep_cons.mpr ⟨fun _ => ⟨rfl, rfl, ?_⟩, everyStep_cons.mpr
      ⟨fun _ => ⟨by decide, rfl, ?_⟩, everyStep_cons.mpr ⟨trivial, everyStep_cons.mpr
        ⟨trivial, everyStep_nil _ _⟩⟩⟩⟩
    · intro client standing hjoin
      cases hjoin
    · intro client standing hjoin
      cases client
      · cases hjoin
      · simp [join, step, put, initial, startCall, Pending.join] at hjoin
  have hidle : (run step initial twoFounders).Idle := by
    intro client
    cases client <;> rfl
  exact ⟨hfree, hidle, coherent_run twoFounders hfree hidle⟩

/-- A user creates one household, and then another. -/
def secondHousehold : List (Event Unit) :=
  [.start () 0 0 (.createHousehold "North" "ada" "Ada"), .resume () 0 0,
    .start () 1 1 (.createHousehold "South" "ada" "Ada"), .resume () 0 1]

theorem not_coherent_secondHousehold :
    (run step initial secondHousehold).Idle ∧
      ¬ Coherent (run step initial secondHousehold).store := by
  refine ⟨fun _ => rfl, fun hcoherent => ?_⟩
  have hsame := hcoherent.one_household "ada" (uuidText 0) (uuidText 1) _ _ rfl rfl
  revert hsame
  decide

end LifeEngine.Households
