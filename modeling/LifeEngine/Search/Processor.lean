import LifeEngine.Records.Storage
import LifeEngine.Support.Machine

/-!
# The search processor

A task follows the events of the message bus and keeps a full-text index.  Documents are buffered
and committed in batches.  The bus keeps a bounded number of events; a receiver that falls behind
is told so, and goes on with the oldest event that is left.
-/

namespace LifeEngine.Search

open Support
open Records (Record)

structure SearchDoc where
  id : String
  collection : String
  pluginId : String
  userId : String
  householdId : String
  title : String
  content : String

inductive BusEvent where
  | recordChanged (record : Record)
  | recordDeleted (recordId collection : String)
  | other

/-- The visible documents, and those that the next commit makes visible. -/
structure SearchEngine where
  committed : List SearchDoc
  buffered : List SearchDoc
  pendingCount : Nat
  commitThreshold : Nat

/-! ## Texts -/

mutual

/-- The texts in a value, down to a depth. -/
def flattenStrings : Nat → Json → List String
  | 0, _ => []
  | _ + 1, .str s => [s]
  | depth + 1, .obj fields => flattenFields depth fields
  | depth + 1, .arr items => flattenItems depth items
  | _ + 1, _ => []

def flattenItems (depth : Nat) : List Json → List String
  | [] => []
  | item :: items => flattenStrings depth item ++ flattenItems depth items

def flattenFields (depth : Nat) : List (String × Json) → List String
  | [] => []
  | (_, value) :: fields => flattenStrings depth value ++ flattenFields depth fields

end

def textField (data : Json) (key : String) : String :=
  ((data.get key).bind Json.asStr).getD ""

/-- The texts of a field, if it is an array. -/
def textItems (data : Json) (key : String) : List String :=
  match data.get key with
  | some (.arr items) => items.filterMap Json.asStr
  | _ => []

/-- The first field is the title, and all are the content. -/
def titled (data : Json) (title : String) (others : List String) : String × String :=
  (textField data title, " ".intercalate ((title :: others).map (textField data)))

/-- The title and the content of a record, by its collection. -/
def extractText (collection : String) (data : Json) : String × String :=
  if collection = "emails" then titled data "subject" ["body_text"]
  else if collection = "contacts" then
    (textField data "name", " ".intercalate (["name", "first_name", "last_name"].filterMap
      (fun key => (data.get key).bind Json.asStr) ++ textItems data "emails" ++
        textItems data "phones"))
  else if collection = "events" then titled data "title" ["description", "location"]
  else if collection = "tasks" then titled data "title" ["description"]
  else if collection = "notes" then titled data "title" ["body"]
  else if collection = "files" then titled data "name" ["path"]
  else
    let strings := flattenStrings 10 data
    (strings.head?.getD "", " ".intercalate strings)

/-! ## The engine -/

def docOf (record : Record) : SearchDoc :=
  let (title, content) := extractText record.collection record.data
  ⟨record.id, record.collection, record.pluginId, record.userId.getD "",
    record.householdId.getD "", title, content⟩

namespace SearchEngine

def new (commitThreshold : Nat) : SearchEngine :=
  ⟨[], [], 0, commitThreshold⟩

def indexRecord (s : SearchEngine) (record : Record) : SearchEngine :=
  let buffered := s.buffered ++ [docOf record]
  let pending := s.pendingCount + 1
  if s.commitThreshold ≤ pending then
    { s with committed := buffered, buffered := buffered, pendingCount := 0 }
  else { s with buffered := buffered, pendingCount := pending }

def flush (s : SearchEngine) : SearchEngine :=
  if 0 < s.pendingCount then { s with committed := s.buffered, pendingCount := 0 } else s

def remove (s : SearchEngine) (recordId : String) : SearchEngine :=
  let buffered := s.buffered.filter (·.id ≠ recordId)
  { s with committed := buffered, buffered := buffered }

/-- What the processor does with an event. Others may flush between the two operations. -/
def handle (s : SearchEngine) (flushes : Bool) : BusEvent → SearchEngine
  | .recordChanged record =>
    let s := s.remove record.id
    (if flushes then s.flush else s).indexRecord record
  | .recordDeleted recordId _ => s.remove recordId
  | .other => s

end SearchEngine

open SearchEngine

/-! ## The index -/

inductive SearchCall where
  | handle (event : BusEvent) (flushes : Bool)
  | flush

def searchStep (s : SearchEngine) : SearchCall → SearchEngine
  | .handle event flushes => s.handle flushes event
  | .flush => s.flush

/-- The record, as of its last change, if it was not deleted since. -/
def lastChange (id : String) (latest : Option Record) : SearchCall → Option Record
  | .handle (.recordChanged record) _ => if record.id = id then some record else latest
  | .handle (.recordDeleted recordId _) _ => if recordId = id then none else latest
  | .handle .other _ | .flush => latest

variable {s : SearchEngine} {id : String}

@[simp] theorem buffered_flush : s.flush.buffered = s.buffered := by
  unfold flush
  split <;> rfl

theorem buffered_indexRecord (record : Record) :
    (s.indexRecord record).buffered = s.buffered ++ [docOf record] := by
  simp only [indexRecord]
  split <;> rfl

theorem buffered_searchStep {latest : Option Record} (call : SearchCall)
    (h : s.buffered.filter (·.id = id) = (latest.map docOf).toList) :
    (searchStep s call).buffered.filter (·.id = id) =
      ((lastChange id latest call).map docOf).toList := by
  have hremove : ∀ recordId, (s.remove recordId).buffered.filter (·.id = id) =
      if recordId = id then [] else s.buffered.filter (·.id = id) := by
    intro recordId
    simp only [remove, List.filter_filter]
    by_cases hsame : recordId = id
    · subst hsame
      simp
    · rw [if_neg hsame]
      apply List.filter_congr
      intro doc _
      by_cases hdoc : doc.id = id <;> simp [hdoc, Ne.symm hsame]
  rcases call with ⟨record | ⟨recordId, collection⟩ | _, flushes⟩ | _
  · have hbuffered : (searchStep s (.handle (.recordChanged record) flushes)).buffered =
        (s.remove record.id).buffered ++ [docOf record] := by
      simp only [searchStep, SearchEngine.handle, buffered_indexRecord]
      cases flushes <;> simp
    rw [hbuffered, List.filter_append, hremove, h, lastChange]
    by_cases hsame : record.id = id <;> simp [hsame, docOf]
  · rw [lastChange, searchStep, SearchEngine.handle, hremove, h]
    split <;> rfl
  · exact h
  · rw [searchStep, buffered_flush, h]
    rfl

/-- Nothing is pending only if all is committed. -/
def Synced (s : SearchEngine) : Prop :=
  s.pendingCount = 0 → s.committed = s.buffered

theorem synced_searchStep (call : SearchCall) (h : Synced s) :
    Synced (searchStep s call) := by
  have hindex : ∀ s record, Synced (indexRecord s record) := by
    intro s record
    simp only [indexRecord]
    split
    · exact fun _ => rfl
    · exact nofun
  rcases call with ⟨record | ⟨recordId, collection⟩ | _, flushes⟩ | _
  · exact hindex _ record
  · exact fun _ => rfl
  · exact h
  · rw [searchStep, flush]
    split
    · exact fun _ => rfl
    · exact h

/-- After a flush, the index has the last change of each record, once, and nothing else. -/
theorem committed_flush_run (commitThreshold : Nat)
    (calls : List SearchCall) (id : String) :
    (run searchStep (.new commitThreshold) calls).flush.committed.filter (·.id = id) =
      ((calls.foldl (lastChange id) none).map docOf).toList := by
  have hrun : ∀ s latest, Synced s →
      s.buffered.filter (·.id = id) = (latest.map docOf).toList →
      Synced (run searchStep s calls) ∧
        (run searchStep s calls).buffered.filter (·.id = id) =
          ((calls.foldl (lastChange id) latest).map docOf).toList := by
    induction calls with
    | nil => exact fun s latest hsynced h => ⟨hsynced, h⟩
    | cons call calls ih =>
      exact fun s latest hsynced h =>
        ih _ _ (synced_searchStep call hsynced) (buffered_searchStep call h)
  obtain ⟨hsynced, hbuffered⟩ := hrun (.new commitThreshold) none (fun _ => rfl) rfl
  rw [← hbuffered]
  unfold flush
  split
  · rfl
  · next hnone => rw [hsynced (Nat.eq_zero_of_not_pos hnone)]

/-! ## The event loop -/

inductive Phase where
  | receiving
  /-- There was no event; the shutdown signal is looked at next. -/
  | polled
  | draining
  /-- With the number of events that had been sent, and of those left unread. -/
  | done (total unread : Nat)
deriving DecidableEq

/-- The bus and the processor, with the positions of the events that were applied. -/
structure SearchLoop where
  engine : SearchEngine
  sent : List BusEvent
  closed : Bool
  shutdown : Bool
  next : Nat
  phase : Phase
  applied : List Nat

inductive LoopEvent where
  | publish (event : BusEvent)
  | signal
  | close
  | tick

inductive Received where
  | event (e : BusEvent)
  | lagged
  | empty
  | closed

namespace SearchLoop

def start (engine : SearchEngine) : SearchLoop :=
  ⟨engine, [], false, false, 0, .receiving, []⟩

/-- The next event on a channel that keeps `capacity` events. -/
def receive (capacity : Nat) (s : SearchLoop) : Received × Nat :=
  if s.next + capacity < s.sent.length then (.lagged, s.sent.length - capacity)
  else
    match s.sent[s.next]? with
    | some e => (.event e, s.next + 1)
    | none => (if s.closed then .closed else .empty, s.next)

def apply (s : SearchLoop) (e : BusEvent) : SearchLoop :=
  { s with
    engine := s.engine.handle false e, applied := s.applied ++ [s.next - 1] }

/-- One step of the processor. -/
def tick (capacity : Nat) (s : SearchLoop) : SearchLoop :=
  let (received, next) := s.receive capacity
  match s.phase, received with
  | .receiving, .event e | .draining, .event e => { s with next := next }.apply e
  | .receiving, .lagged => { s with next := next }
  | .receiving, .empty => { s with phase := .polled }
  | .receiving, .closed => { s with phase := .draining }
  | .polled, _ => { s with phase := if s.shutdown then .draining else .receiving }
  | .draining, _ =>
    { s with
      next := next
      engine := s.engine.flush
      phase := .done s.sent.length (s.sent.length - next) }
  | .done .., _ => s

def step (capacity : Nat) (s : SearchLoop) : LoopEvent → SearchLoop
  | .publish event => if s.closed then s else { s with sent := s.sent ++ [event] }
  | .signal => { s with shutdown := true }
  | .close => { s with closed := true }
  | .tick => s.tick capacity

/-- At its end the processor has left nothing unread, and applied all that is still there. -/
def Drains (capacity : Nat) (s : SearchLoop) : Prop :=
  ∀ total unread, s.phase = .done total unread →
    unread = 0 ∧ ∀ i < total, s.sent.length ≤ i + capacity → i ∈ s.applied

/-- The processor does not lag behind while it drains the bus. -/
def KeepsUp (capacity : Nat) (s : SearchLoop) (event : LoopEvent) : Prop :=
  event = .tick → s.phase = .draining → s.sent.length ≤ s.next + capacity

def AllRead (s : SearchLoop) : Prop :=
  ∀ total unread, s.phase = .done total unread → unread = 0

/-- Every position is applied or gone, up to the cursor; the end is at the cursor. -/
structure Kept (capacity : Nat) (s : SearchLoop) : Prop where
  applied : ∀ i < s.next, i ∈ s.applied ∨ i + capacity < s.sent.length
  left : ∀ total, s.phase = .done total 0 → total ≤ s.next

variable {capacity : Nat} {s : SearchLoop}

/-- The receiver lags behind, or gets an event, or there is none. -/
theorem receive_cases (capacity : Nat) (s : SearchLoop) :
    (s.next + capacity < s.sent.length ∧
        s.receive capacity = (.lagged, s.sent.length - capacity)) ∨
      (s.sent.length ≤ s.next + capacity ∧ ∃ e, s.receive capacity = (.event e, s.next + 1)) ∨
      (s.sent.length ≤ s.next ∧
        s.receive capacity = (if s.closed then .closed else .empty, s.next)) := by
  unfold receive
  split
  · next hlag => exact Or.inl ⟨hlag, rfl⟩
  · next hnear =>
    right
    rcases hevent : s.sent[s.next]? with _ | e
    · exact Or.inr ⟨List.getElem?_eq_none_iff.mp hevent, rfl⟩
    · exact Or.inl ⟨Nat.le_of_not_lt hnear, e, rfl⟩

/-- The last step of the processor. -/
def ended (s : SearchLoop) (next : Nat) : SearchLoop :=
  { s with
    next := next
    engine := s.engine.flush
    phase := .done s.sent.length (s.sent.length - next) }

/-- What a step of the processor can do. -/
inductive Ticks (capacity : Nat) (s : SearchLoop) : SearchLoop → Prop where
  | applied (e : BusEvent) (hphase : s.phase = .receiving ∨ s.phase = .draining)
      (hnear : s.sent.length ≤ s.next + capacity) :
      Ticks capacity s ({ s with next := s.next + 1 }.apply e)
  | skipped (hphase : s.phase = .receiving) :
      Ticks capacity s { s with next := s.sent.length - capacity }
  | turned (phase : Phase) (hphase : s.phase = .receiving ∨ s.phase = .polled)
      (hruns : ∀ total unread, phase ≠ .done total unread) :
      Ticks capacity s { s with phase := phase }
  | drained (hphase : s.phase = .draining) (hnone : s.sent.length ≤ s.next) :
      Ticks capacity s (s.ended s.next)
  | gaveUp (hphase : s.phase = .draining) (hlag : s.next + capacity < s.sent.length) :
      Ticks capacity s (s.ended (s.sent.length - capacity))
  | stopped (total unread : Nat) (hphase : s.phase = .done total unread) : Ticks capacity s s

theorem ticks_receiving (hphase : s.phase = .receiving) : Ticks capacity s (s.tick capacity) := by
  rcases receive_cases capacity s with ⟨_, hreceive⟩ | ⟨hnear, e, hreceive⟩ | ⟨_, hreceive⟩
  · have htick : s.tick capacity = { s with next := s.sent.length - capacity } := by
      simp [tick, hreceive, hphase]
    exact htick ▸ .skipped hphase
  · have htick : s.tick capacity = { s with next := s.next + 1 }.apply e := by
      simp [tick, hreceive, hphase]
    exact htick ▸ .applied e (.inl hphase) hnear
  · have htick : s.tick capacity =
        { s with phase := if s.closed then .draining else .polled } := by
      cases hclosed : s.closed <;> simp [tick, hreceive, hphase, hclosed]
    rw [htick]
    refine .turned _ (.inl hphase) fun total unread => ?_
    split <;> exact nofun

theorem ticks_polled (hphase : s.phase = .polled) : Ticks capacity s (s.tick capacity) := by
  have htick : s.tick capacity =
      { s with phase := if s.shutdown then .draining else .receiving } := by
    simp only [tick, hphase]
  rw [htick]
  refine .turned _ (.inr hphase) fun total unread => ?_
  split <;> exact nofun

theorem ticks_draining (hphase : s.phase = .draining) : Ticks capacity s (s.tick capacity) := by
  rcases receive_cases capacity s with ⟨hlag, hreceive⟩ | ⟨hnear, e, hreceive⟩ | ⟨hnone, hreceive⟩
  · have htick : s.tick capacity = s.ended (s.sent.length - capacity) := by
      simp [tick, hreceive, hphase, ended]
    exact htick ▸ .gaveUp hphase hlag
  · have htick : s.tick capacity = { s with next := s.next + 1 }.apply e := by
      simp [tick, hreceive, hphase]
    exact htick ▸ .applied e (.inr hphase) hnear
  · have htick : s.tick capacity = s.ended s.next := by
      cases hclosed : s.closed <;> simp [tick, hreceive, hphase, hclosed, ended]
    exact htick ▸ .drained hphase hnone

theorem ticks_tick (capacity : Nat) (s : SearchLoop) : Ticks capacity s (s.tick capacity) := by
  rcases hphase : s.phase with _ | _ | _ | ⟨total, unread⟩
  · exact ticks_receiving hphase
  · exact ticks_polled hphase
  · exact ticks_draining hphase
  · have htick : s.tick capacity = s := by
      simp only [tick, hphase]
    rw [htick]
    exact .stopped total unread hphase

theorem allRead_of_phase {phase : Phase} (hphase : s.phase = phase)
    (hruns : ∀ total unread, phase ≠ .done total unread) : s.AllRead :=
  fun total unread hdone => absurd (hphase.symm.trans hdone) (hruns total unread)

/-- A step of the processor leaves events unread exactly if it lags while it drains. -/
theorem allRead_tick (hcapacity : 0 < capacity) {s' : SearchLoop} (h : Ticks capacity s s') :
    s'.AllRead ↔ s.AllRead ∧ (s.phase = .draining → s.sent.length ≤ s.next + capacity) := by
  cases h with
  | applied e hphase hnear => exact (and_iff_left fun _ => hnear).symm
  | skipped hphase => exact (and_iff_left fun hdraining => nomatch hphase.symm.trans hdraining).symm
  | turned phase hphase hruns =>
    refine iff_of_true (allRead_of_phase rfl hruns) ?_
    rcases hphase with hphase | hphase
    · exact ⟨allRead_of_phase hphase nofun, fun hdraining => nomatch hphase.symm.trans hdraining⟩
    · exact ⟨allRead_of_phase hphase nofun, fun hdraining => nomatch hphase.symm.trans hdraining⟩
  | drained hphase hnone =>
    refine iff_of_true ?_ ⟨allRead_of_phase hphase nofun, fun _ => by omega⟩
    rintro _ _ ⟨⟩
    omega
  | gaveUp hphase hlag =>
    refine iff_of_false (fun hread => ?_) fun hnear => by have := hnear.2 hphase; omega
    have hunread := hread _ _ rfl
    omega
  | stopped total unread hphase =>
    exact (and_iff_left fun hdraining => nomatch hphase.symm.trans hdraining).symm

/-- The processor leaves events unread exactly if it lags while it drains. -/
theorem allRead_step (hcapacity : 0 < capacity) (s : SearchLoop) (event : LoopEvent) :
    (s.step capacity event).AllRead ↔ s.AllRead ∧ KeepsUp capacity s event := by
  rcases event with e | _ | _ | _
  · have hphase : (s.step capacity (.publish e)).phase = s.phase := by
      simp only [step]
      split <;> rfl
    rw [AllRead, AllRead, hphase]
    exact (and_iff_left nofun).symm
  · exact (and_iff_left nofun).symm
  · exact (and_iff_left nofun).symm
  · rw [KeepsUp, step, allRead_tick hcapacity (ticks_tick capacity s)]
    exact and_congr_right fun _ => ⟨fun hnear _ => hnear, fun hnear => hnear rfl⟩

/-- The cursor moves past an event when it is applied, or to the oldest one that is left. -/
theorem Kept.of_ticks (h : Kept capacity s) {s' : SearchLoop} (hticks : Ticks capacity s s') :
    Kept capacity s' := by
  have hleft : ∀ {phase : Phase} (next : Nat), s.phase = phase →
      (∀ total unread, phase ≠ .done total unread) → ∀ total, s.phase = .done total 0 →
        total ≤ next :=
    fun _ hphase hruns total hdone => absurd (hphase.symm.trans hdone) (hruns total 0)
  have hgone : ∀ i < s.sent.length - capacity, i ∈ s.applied ∨ i + capacity < s.sent.length :=
    fun i hi => .inr (by omega)
  cases hticks with
  | applied e hphase hnear =>
    refine ⟨fun i hi => ?_, hphase.elim (hleft _ · nofun) (hleft _ · nofun)⟩
    rcases Nat.lt_succ_iff_lt_or_eq.mp hi with hlt | rfl
    · exact (h.applied i hlt).imp_left (List.mem_append_left _)
    · exact .inl List.mem_concat_self
  | skipped hphase => exact ⟨hgone, hleft _ hphase nofun⟩
  | turned phase hphase hruns =>
    exact ⟨h.applied, fun total hdone => absurd hdone (hruns total 0)⟩
  | drained hphase hnone =>
    refine ⟨h.applied, fun total hdone => ?_⟩
    obtain ⟨rfl, -⟩ := Phase.done.inj hdone
    exact hnone
  | gaveUp hphase hlag =>
    refine ⟨hgone, fun total hdone => ?_⟩
    obtain ⟨rfl, hunread⟩ := Phase.done.inj hdone
    exact Nat.le_of_sub_eq_zero hunread
  | stopped total unread hphase => exact h

theorem Kept.step (h : Kept capacity s) (event : LoopEvent) :
    Kept capacity (s.step capacity event) := by
  rcases event with e | _ | _ | _
  · simp only [SearchLoop.step]
    split
    · exact h
    · refine ⟨fun i hi => (h.applied i hi).imp_right fun hgone => ?_, h.left⟩
      exact Nat.lt_of_lt_of_le hgone (by simp)
  · exact ⟨h.applied, h.left⟩
  · exact ⟨h.applied, h.left⟩
  · exact h.of_ticks (ticks_tick capacity s)

/-- The processor applies all that the bus keeps, up to its end, exactly if it does not lag behind
while it drains the bus. -/
theorem drains_iff (hcapacity : 0 < capacity) (engine : SearchEngine)
    (events : List LoopEvent) :
    Drains capacity (run (SearchLoop.step capacity) (start engine) events) ↔
      EveryStep (SearchLoop.step capacity) (KeepsUp capacity) (start engine) events := by
  have hread := run_iff_everyStep (allRead_step hcapacity) (start engine) events
  have hkept : Kept capacity (run (SearchLoop.step capacity) (start engine) events) :=
    run_invariant (fun s event h => h.step event) ⟨nofun, nofun⟩ events
  constructor
  · intro h
    exact (hread.mp fun total unread hdone => (h total unread hdone).1).2
  · intro h total unread hdone
    obtain rfl := hread.mpr ⟨nofun, h⟩ total unread hdone
    refine ⟨rfl, fun i hi hthere => ?_⟩
    exact (hkept.applied i (by have := hkept.left total hdone; omega)).resolve_right (by omega)

/-- A change of the note with the id. -/
def noteChanged (id : String) : BusEvent :=
  .recordChanged ⟨id, "notes", "notes", .obj [("title", .str id)], 1, none, none, 0, 0⟩

/-- A change before the shutdown and one after it. -/
def twoChanges : List LoopEvent :=
  [.publish (noteChanged "a"), .signal, .tick, .tick, .publish (noteChanged "b"), .tick, .tick,
    .tick]

theorem drains_twoChanges :
    (run (SearchLoop.step 1) (start (.new 1)) twoChanges).phase = .done 2 0 ∧
      Drains 1 (run (SearchLoop.step 1) (start (.new 1)) twoChanges) :=
  ⟨rfl, (drains_iff (by decide) _ _).mpr (by
    simp [twoChanges, everyStep_cons, everyStep_nil, KeepsUp]; decide)⟩

/-- A processor that lags behind during its last drain gives up, with a change left to read. -/
theorem not_drains_two :
    ¬ Drains 1 (run (SearchLoop.step 1) (start (.new 1)) [.signal, .tick, .tick,
      .publish (noteChanged "a"), .publish (noteChanged "b"), .tick]) :=
  fun h => nomatch (h 2 1 rfl).1

end SearchLoop

end LifeEngine.Search
