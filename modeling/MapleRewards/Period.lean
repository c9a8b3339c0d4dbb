import MapleRewards.Payout

/-!
# When rewards can be claimed

The validator that makes a new event start in the future also guards every claim, so a
claim passes only up to the start of the event.
-/
namespace MapleRewards

open SnapshotStore LabelledRuns Collection

def EventCheckPasses (db : Db) (eventId : String) (checkedAt : Int) : Prop :=
  ∃ event, findEventById db eventId checkedAt = .ok event

def RequestStored (db : Db) (eventId : String) (dto : RewardRequestCreateDto) (newId : ObjectId)
    (checkedAt requestedAt : Int) : Prop :=
  ∃ response db', RewardRequestService.createRewardRequest db db eventId dto newId checkedAt
    requestedAt = .ok (response, db')

/-- Claims pass, and store a request, throughout the event period and never outside it. -/
def ClaimableInPeriod (db : Db) (event : EventDocument) (eventId : String)
    (dto : RewardRequestCreateDto) (newId : ObjectId) (checkedAt requestedAt : Int) : Prop :=
  (EventCheckPasses db eventId checkedAt ↔
      event.status = .ACTIVE ∧ event.startedAt ≤ checkedAt ∧ checkedAt ≤ event.endedAt) ∧
    (RequestStored db eventId dto newId checkedAt requestedAt ↔
      event.status = .ACTIVE ∧ event.startedAt ≤ checkedAt ∧ checkedAt ≤ event.endedAt)

/-! ## The event check -/

theorem findEventById_of_mem {db : Db} (h : EventsWellFormed db.events) {event : EventDocument}
    (he : event ∈ db.events) {eventId : String} (hid : ObjectId.ofString eventId = some event._id)
    (now : Int) :
    findEventById db eventId now = (do
      EventValidator.validateEventPeriod (some event.startedAt) (some event.endedAt) now
      EventValidator.checkActiveEvent event.status
      .ok event) := by
  have hfind : EventRepository.findById db eventId = .ok (some event) := by
    simp only [EventRepository.findById, parseId_eq_ok.mpr hid, bind, Except.bind]
    rw [find?_key_of_mem EventDocument._id h.ids he]
  unfold findEventById
  rw [hfind]
  rfl

/-- The check accepts exactly the readings up to the start of an active event. -/
theorem eventCheckPasses_iff {db : Db} (h : EventsWellFormed db.events) {event : EventDocument}
    (he : event ∈ db.events) {eventId : String} (hid : ObjectId.ofString eventId = some event._id)
    (now : Int) :
    EventCheckPasses db eventId now ↔
      event.startedAt < event.endedAt ∧ now ≤ event.startedAt ∧ event.status = .ACTIVE := by
  constructor
  · rintro ⟨found, hfound⟩
    obtain ⟨hfid, hfmem, hends, hstarts, hactive⟩ := findEventById_eq_ok hfound
    have hsame : found = event :=
      List.inj_on_of_nodup_map h.ids hfmem he (Option.some.inj (hfid.symm.trans hid))
    subst hsame
    exact ⟨hends, hstarts, hactive⟩
  · rintro ⟨hends, hstarts, hactive⟩
    have hperiod : EventValidator.validateEventPeriod (some event.startedAt) (some event.endedAt)
        now = .ok () :=
      validateEventPeriod_eq_ok.mpr (by simp [dateLessEq, dateLess, hends, hstarts])
    have hcheck : EventValidator.checkActiveEvent event.status = .ok () :=
      checkActiveEvent_eq_ok.mpr hactive
    refine ⟨event, ?_⟩
    rw [findEventById_of_mem h he hid, hperiod, hcheck]
    rfl

/-! ## Storing the request -/

theorem eventCheckPasses_of_stored {db : Db} {eventId : String} {dto : RewardRequestCreateDto}
    {newId : ObjectId} {checkedAt requestedAt : Int}
    (h : RequestStored db eventId dto newId checkedAt requestedAt) :
    EventCheckPasses db eventId checkedAt := by
  obtain ⟨response, db', h⟩ := h
  obtain ⟨r, hr, -⟩ := createRewardRequest_eq_ok.mp h
  obtain ⟨event, hevent, -⟩ := bind_eq_ok hr
  exact ⟨event, hevent⟩

theorem findUserActivityByUserId_of_mem {db : Db} {activity : UserActivityDocument}
    (ha : activity ∈ db.activities) {userId : String}
    (hid : ObjectId.ofString userId = some activity.userId) :
    ∃ found, findUserActivityByUserId db userId = .ok found := by
  have hsome : ∃ found, db.activities.find? (fun a => a.userId == activity.userId) =
      some found := by
    rw [← Option.isSome_iff_exists, List.find?_isSome]
    exact ⟨activity, ha, by simp⟩
  obtain ⟨found, hfound⟩ := hsome
  refine ⟨found, ?_⟩
  simp only [findUserActivityByUserId, UserActivityRepository.findByUserId,
    parseId_eq_ok.mpr hid, bind, Except.bind]
  rw [hfound]

/-- An event that has no rules yet answers every claim that passes its check with a
FAILED request, which nothing keeps from being stored. -/
theorem stored_of_eventCheckPasses {db : Db} (h : EventsWellFormed db.events)
    {event : EventDocument} (he : event ∈ db.events) (hrules : event.rewardRules = [])
    {eventId : String} (hid : ObjectId.ofString eventId = some event._id)
    {activity : UserActivityDocument} (ha : activity ∈ db.activities)
    {dto : RewardRequestCreateDto} (huid : ObjectId.ofString dto.userId = some activity.userId)
    {newId : ObjectId} (hfresh : ∀ r ∈ db.requests, r._id ≠ newId) {checkedAt requestedAt : Int}
    (hpass : EventCheckPasses db eventId checkedAt) :
    RequestStored db eventId dto newId checkedAt requestedAt := by
  obtain ⟨found, hfound⟩ := hpass
  obtain ⟨hfid, hfmem, -⟩ := findEventById_eq_ok hfound
  have hsame : found = event :=
    List.inj_on_of_nodup_map h.ids hfmem he (Option.some.inj (hfid.symm.trans hid))
  subst hsame
  obtain ⟨userActivity, hactivity⟩ := findUserActivityByUserId_of_mem ha huid
  have hbuilt : createRulesFromDocs found.rewardRules = .ok [] := by
    rw [hrules]
    rfl
  obtain ⟨r, hr, rfl, hissued⟩ := requestFor_of_found hfound hactivity hbuilt newId requestedAt
  have hnothing : grantedDocs [] userActivity.counters found.rewardRules [] = [] := by
    rw [hrules]
    rfl
  have hrewards := hissued.rewards
  have hstatus := hissued.status
  rw [hnothing] at hrewards hstatus
  rw [hrewards, Prod.mk.injEq] at hstatus
  have hfree : ∀ r' ∈ db.requests, r'._id ≠ r._id ∧ clashes r' r = false := by
    intro r' hr'
    exact ⟨hfresh r' hr', by simp [clashes, hstatus.1, decideStatus]⟩
  have hcreate : RewardRequestRepository.create db r =
      .ok (r, { db with requests := db.requests ++ [r] }) :=
    RewardRequestRepository.create_eq_ok.mpr ⟨by simp [hrewards], hfree, rfl, rfl⟩
  exact ⟨_, _, createRewardRequest_eq_ok.mpr ⟨r, hr, hcreate, rfl⟩⟩

/-! ## Between creation and claim -/

/-- The status updates of an event, one after another. -/
def updateStatusStep (db : Db) (dto : EventUpdateRequestDto) : Option Db :=
  serialStep perform db (.updateStatus dto)

/-- Status updates keep the event itself and the activities. -/
structure SameEvent (event : EventDocument) (activities : List UserActivityDocument) (db : Db) :
    Prop where
  wellFormed : WellFormed db
  event : ∃ e ∈ db.events, e._id = event._id ∧ e.startedAt = event.startedAt ∧
    e.endedAt = event.endedAt ∧ e.rewardRules = event.rewardRules
  activities : db.activities = activities

theorem SameEvent.setStatus {event : EventDocument} {activities : List UserActivityDocument}
    {db : Db} (h : SameEvent event activities db) {_id : ObjectId} {status : EventStatus}
    (hwf : WellFormed (db.setStatus _id status)) :
    SameEvent event activities (db.setStatus _id status) := by
  refine ⟨hwf, ?_, h.activities⟩
  obtain ⟨e, he, hid, hs, hen, hrules⟩ := h.event
  cases mem_or_mem_updateFirst (fun e => e._id == _id) (fun e => { e with status := status }) he with
  | inl hmem => exact ⟨e, hmem, hid, hs, hen, hrules⟩
  | inr hmem => exact ⟨_, hmem.2, hid, hs, hen, hrules⟩

theorem SameEvent.step {event : EventDocument} {activities : List UserActivityDocument}
    {db db' : Db} {dto : EventUpdateRequestDto} (h : SameEvent event activities db)
    (hstep : updateStatusStep db dto = some db') : SameEvent event activities db' := by
  have hwf := (serialStep_preserves perform_preserves h.wellFormed hstep).1
  cases serialStep_cases hstep with
  | inl hperform =>
    obtain ⟨response, hok⟩ := committed_eq_some hperform
    rcases EventService.updateStatus_writes hok with rfl | ⟨_id, status, -, rfl⟩
    · exact h
    · exact h.setStatus hwf
  | inr hfailed => exact hfailed.2 ▸ h

/-- For an event made by `create` in any reachable store and any later status updates, a
user with an activity can claim throughout the period and never outside it exactly when
the event is inactive, the clock shows its very start or the event is over. -/
theorem claimable_in_period_iff {κ : Type} [DecidableEq κ] {s : ServiceState κ}
    (h : ReachableService s) {snap db db' : Db} {createDto : EventCreateRequestDto}
    {newEventId : ObjectId} {validatedAt createdAt : Int} {response : EventDto}
    (hcreate : EventService.create snap s.db createDto newEventId validatedAt createdAt =
      .ok (response, db))
    {updates : List EventUpdateRequestDto} (hupdates : run updateStatusStep updates db = some db')
    {event : EventDocument} (he : event ∈ db'.events) (hid : event._id = newEventId)
    {eventId : String} (heid : ObjectId.ofString eventId = some newEventId)
    {activity : UserActivityDocument} (ha : activity ∈ db'.activities)
    {dto : RewardRequestCreateDto} (huid : ObjectId.ofString dto.userId = some activity.userId)
    {newId : ObjectId} (hfresh : ∀ r ∈ db'.requests, r._id ≠ newId) (checkedAt requestedAt : Int) :
    ClaimableInPeriod db' event eventId dto newId checkedAt requestedAt ↔
      event.status ≠ .ACTIVE ∨ checkedAt = event.startedAt ∨ event.endedAt < checkedAt := by
  obtain ⟨created, hcid, hrules, hperiod, -, hnew, -, hdb⟩ := EventService.create_writes hcreate
  subst hdb
  have hwf := (h.coherent.db.insertEvent hrules (hcid ▸ hnew)).1
  have hstart : SameEvent created s.db.activities
      { s.db with events := s.db.events ++ [created] } :=
    ⟨hwf, ⟨created, by simp, rfl, rfl, rfl, rfl⟩, rfl⟩
  have hsame : SameEvent created s.db.activities db' :=
    run_invariant (SameEvent created s.db.activities) (fun _ _ _ hI hstep => hI.step hstep) hstart
      hupdates
  obtain ⟨e, hemem, heid', hs, hen, herules⟩ := hsame.event
  have heq : e = event := hsame.wellFormed.event_unique hemem he (by rw [heid', hcid, hid])
  subst heq
  rw [← hid] at heid
  have hpass := eventCheckPasses_iff hsame.wellFormed.events he heid checkedAt
  have hstored : RequestStored db' eventId dto newId checkedAt requestedAt ↔
      EventCheckPasses db' eventId checkedAt :=
    ⟨eventCheckPasses_of_stored, stored_of_eventCheckPasses hsame.wellFormed.events he
      (herules.trans hrules) heid ha huid hfresh⟩
  rw [← hs, ← hen] at hperiod
  unfold ClaimableInPeriod
  rw [hstored, and_self, hpass]
  constructor
  · intro hiff
    by_cases hactive : e.status = .ACTIVE
    · right
      by_contra hout
      by_cases hbefore : checkedAt ≤ e.startedAt
      · have := (hiff.mp ⟨hperiod, hbefore, hactive⟩).2
        omega
      · have := (hiff.mpr ⟨hactive, by omega, by omega⟩).2.1
        omega
    · exact Or.inl hactive
  · intro hcond
    constructor
    · rintro ⟨-, hbefore, hactive⟩
      refine ⟨hactive, ?_⟩
      cases hcond with
      | inl hinactive => exact absurd hactive hinactive
      | inr hclock => omega
    · rintro ⟨hactive, hafter, hend⟩
      refine ⟨hperiod, ?_, hactive⟩
      cases hcond with
      | inl hinactive => exact absurd hactive hinactive
      | inr hclock => omega

namespace Sample

/-- A store that holds one user's activity. -/
def userState : ServiceState Nat :=
  (run (step perform) (alone (.createUserActivity ⟨userId.toString, some 5, some 4, none⟩
    activityId 0)) (initial Db.empty)).getD (initial Db.empty)

def activity : UserActivityDocument := ⟨activityId, userId, 5, 4, 0, 0⟩

theorem userState_run : (run (step perform) (alone (.createUserActivity
    ⟨userId.toString, some 5, some 4, none⟩ activityId 0)) (initial Db.empty)).map State.db =
      some ⟨[], [], [activity]⟩ := by
  decide +kernel

theorem userState_reachable : ReachableService userState := ⟨_, (run_of_view userState_run).1⟩

def created : EventDocument := ⟨eventId, "Launch", 100, 200, .INACTIVE, false, []⟩

def opened : EventDocument := { created with status := .ACTIVE }

def createdDb : Db := ⟨[created], [], [activity]⟩

def openedDb : Db := ⟨[opened], [], [activity]⟩

theorem create_event : EventService.create userState.db userState.db
    ⟨"Launch", some 100, some 200, some false⟩ eventId 0 0 =
      .ok (EventMapper.toEventDto created, createdDb) := by
  decide +kernel

theorem open_event :
    run updateStatusStep [⟨eventId.toString, "ACTIVE"⟩] createdDb = some openedDb := by
  decide +kernel

end Sample

theorem claimable_in_period_iff_sample :
    ClaimableInPeriod Sample.openedDb Sample.opened Sample.eventId.toString
        ⟨Sample.userId.toString⟩ Sample.firstRequestId 100 100 ↔
      Sample.opened.status ≠ .ACTIVE ∨ (100 : Int) = Sample.opened.startedAt ∨
        Sample.opened.endedAt < 100 :=
  claimable_in_period_iff Sample.userState_reachable Sample.create_event Sample.open_event
    List.mem_cons_self rfl (ObjectId.ofString_toString Sample.eventId) List.mem_cons_self
    (ObjectId.ofString_toString Sample.userId) (by simp [Sample.openedDb]) 100 100

/-- In the middle of the period of an active event the claim is refused. -/
theorem claim_refused_in_period :
    EventService.create Sample.userState.db Sample.userState.db
        ⟨"Launch", some 100, some 200, some false⟩ Sample.eventId 0 0 =
      .ok (EventMapper.toEventDto Sample.created, Sample.createdDb) ∧
    run updateStatusStep [⟨Sample.eventId.toString, "ACTIVE"⟩] Sample.createdDb =
      some Sample.openedDb ∧
    ¬ClaimableInPeriod Sample.openedDb Sample.opened Sample.eventId.toString
      ⟨Sample.userId.toString⟩ Sample.firstRequestId 150 150 := by
  refine ⟨Sample.create_event, Sample.open_event, ?_⟩
  rintro ⟨hpass, -⟩
  obtain ⟨event, hevent⟩ := hpass.mpr (by decide)
  have hthrows : findEventById Sample.openedDb Sample.eventId.toString 150 =
      throwEvent .INVALID_EVENT_PERIOD := by decide +kernel
  rw [hthrows] at hevent
  cases hevent

end MapleRewards
