import MapleRewards.Payout
import MapleRewards.Lib.Projection

/-!
# Users do not interfere

A user's operations read the events and, of the requests and activities, the user's own.
Whatever the others do in the meantime, the user's documents and the events come out as
if the others' operations had not been there.
-/
namespace MapleRewards

open SnapshotStore LabelledRuns Collection

variable {κ : Type} [DecidableEq κ]

/-- What the operations of one user read: the events and the user's own documents. -/
def Db.only (userId : ObjectId) (db : Db) : Db where
  events := db.events
  requests := db.requests.filter fun r => r.userId == userId
  activities := db.activities.filter fun activity => activity.userId == userId

/-- Operations on events concern everyone, claims and activity updates the user that they
are for. An approval never commits. -/
def Command.concerns (userId : ObjectId) : Command → Db → Bool
  | .createEvent _ _ _ _, _ => true
  | .updateStatus _, _ => true
  | .addReward _ _, _ => true
  | .createUserActivity dto _ _, _ => ObjectId.ofString dto.userId == some userId
  | .createRewardRequest _ dto _ _ _, _ => ObjectId.ofString dto.userId == some userId
  | .approveRewardRequest _ _ _, _ => false

/-- An operation gives the same response on the part of the store, and the part of the
store that it leaves. -/
def onPart {α : Type} (userId : ObjectId) : Except Thrown (α × Db) → Except Thrown (α × Db) :=
  Except.map fun p => (p.1, p.2.only userId)

theorem committed_onPart {α : Type} (userId : ObjectId) (x : Except Thrown (α × Db)) :
    committed (onPart userId x) = (committed x).map (Db.only userId) := by
  cases x <;> rfl

section Events

variable (userId : ObjectId) (snap db : Db)

theorem EventRepository.create_only (eventData : EventData) :
    EventRepository.create (db.only userId) eventData =
      onPart userId (EventRepository.create db eventData) := by
  unfold EventRepository.create
  cases EventSchema eventData with
  | none => rfl
  | some event =>
    by_cases hused : (db.events.any fun e => e._id == event._id) = true
    · simp [Db.only, onPart, Except.map, hused]
    · simp only [Db.only, hused]
      rfl

theorem EventService.create_only (dto : EventCreateRequestDto) (newId : ObjectId)
    (validatedAt createdAt : Int) :
    EventService.create (snap.only userId) (db.only userId) dto newId validatedAt createdAt =
      onPart userId (EventService.create snap db dto newId validatedAt createdAt) := by
  unfold EventService.create
  simp only [Bind.bind, Except.bind, EventRepository.create_only]
  cases EventValidator.validateEventPeriod dto.startedAt dto.endedAt validatedAt with
  | error err => rfl
  | ok u =>
    simp only [EventRepository.findByName, Db.only]
    split
    · rfl
    · cases EventRepository.create db _ with
      | error err => rfl
      | ok p => rfl

theorem EventService.updateStatus_only (dto : EventUpdateRequestDto) :
    EventService.updateStatus (snap.only userId) (db.only userId) dto =
      onPart userId (EventService.updateStatus snap db dto) := by
  have hread : EventService.findById (snap.only userId) dto.eventId =
      EventService.findById snap dto.eventId := rfl
  have hwrite : ∀ status, EventRepository.updateStatus (db.only userId) dto.eventId status =
      onPart userId (EventRepository.updateStatus db dto.eventId status) := by
    intro status
    unfold EventRepository.updateStatus
    cases parseId dto.eventId with
    | error err => rfl
    | ok _id => rfl
  unfold EventService.updateStatus
  simp only [Bind.bind, Except.bind, hread, hwrite]
  cases EventValidator.validateEventStatus dto.status with
  | error err => rfl
  | ok status =>
    cases EventService.findById snap dto.eventId with
    | error err => rfl
    | ok event =>
      simp only
      split
      · rfl
      · rcases EventRepository.updateStatus db dto.eventId status with err | ⟨found, db'⟩
        · rfl
        · cases found <;> rfl

theorem addRewardToExistingRule_only (eventId ruleId : String) (rewardItem : SubmittedItem) :
    addRewardToExistingRule (db.only userId) eventId ruleId rewardItem =
      onPart userId (addRewardToExistingRule db eventId ruleId rewardItem) := by
  have hwrite : EventRepository.findByIdAndUpdate (db.only userId) eventId ruleId rewardItem =
      onPart userId (EventRepository.findByIdAndUpdate db eventId ruleId rewardItem) := by
    unfold EventRepository.findByIdAndUpdate
    cases parseId eventId with
    | error err => rfl
    | ok _id =>
      cases parseId ruleId with
      | error err => rfl
      | ok rid => cases rewardItem.cast <;> rfl
  unfold addRewardToExistingRule
  simp only [Bind.bind, Except.bind, hwrite]
  rcases EventRepository.findByIdAndUpdate db eventId ruleId rewardItem with err | ⟨found, db'⟩
  · rfl
  · cases found with
    | none => rfl
    | some event =>
      simp only [onPart, Except.map]
      split
      · rfl
      · rfl

theorem EventRepository.upsert_only (event : EventDocument) (newRule : RewardRuleDocument) :
    EventRepository.upsert (db.only userId) event newRule =
      (EventRepository.upsert db event newRule).map (Db.only userId) := by
  by_cases hvalid : (event.rewardRules ++ [newRule]).all RewardRuleDocument.valid = true
  · by_cases hstored : (db.events.any fun e => e._id == event._id) = true
    · simp only [EventRepository.upsert, Db.only, hvalid, hstored]
      rfl
    · simp only [EventRepository.upsert, Db.only, hvalid, hstored]
      rfl
  · simp only [EventRepository.upsert, hvalid]
    rfl

theorem addRewardToNewRule_only (event : EventDocument) (rewardItem : SubmittedItem)
    (newRule : NewRuleDto) (newRuleId : ObjectId) :
    addRewardToNewRule (db.only userId) event rewardItem newRule newRuleId =
      onPart userId (addRewardToNewRule db event rewardItem newRule newRuleId) := by
  unfold addRewardToNewRule
  simp only [Bind.bind, Except.bind, EventRepository.upsert_only]
  cases validateRuleConfig newRule.ruleType newRule.config with
  | error err => rfl
  | ok config =>
    cases rewardItem.cast with
    | none => rfl
    | some item =>
      simp only
      cases EventRepository.upsert db event
        ⟨newRuleId, config, newRule.config.further, [item]⟩ <;> rfl

theorem RewardService.addReward_only (dto : RewardAddRequestDto) (newRuleId : ObjectId) :
    RewardService.addReward (snap.only userId) (db.only userId) dto newRuleId =
      onPart userId (RewardService.addReward snap db dto newRuleId) := by
  have htransact : ∀ x : Except Thrown (RewardRuleDto × Db),
      transact (onPart userId x) = onPart userId (transact x) := by
    intro x
    cases x <;> rfl
  have hread : EventRepository.findById (snap.only userId) dto.eventId =
      EventRepository.findById snap dto.eventId := rfl
  unfold RewardService.addReward
  rw [← htransact, hread]
  congr 1
  rcases EventRepository.findById snap dto.eventId with err | found
  · rfl
  · cases found with
    | none => rfl
    | some event =>
      simp only [Bind.bind, Except.bind, addRewardToExistingRule_only, addRewardToNewRule_only]
      split
      · rfl
      · split
        · rfl
        · rfl

end Events

section OwnDocuments

variable {userId : ObjectId} {snap db db' : Db}

theorem UserActivityService.create_only {dto : UserActivityCreateRequestDto} {newId : ObjectId}
    {now : Int} {response : UserActivityDto} (hu : ObjectId.ofString dto.userId = some userId)
    (h : UserActivityService.create db dto newId now = .ok (response, db')) :
    UserActivityService.create (db.only userId) dto newId now =
      .ok (response, db'.only userId) := by
  have hparse : parseId dto.userId = .ok userId := parseId_eq_ok.mpr hu
  have hfind : (db.only userId).activities.find? (fun activity => activity.userId == userId) =
      db.activities.find? fun activity => activity.userId == userId :=
    find?_filter_of_select fun _ _ hquery => hquery
  unfold UserActivityService.create UserActivityRepository.createOrUpdate at h ⊢
  simp only [hparse, hfind, Bind.bind, Except.bind] at h ⊢
  cases hstored : db.activities.find? fun activity => activity.userId == userId with
  | some stored =>
    simp only [hstored] at h ⊢
    cases h
    simp only [Db.only]
    rw [filter_updateFirst]
    exact fun _ _ hquery => ⟨hquery, hquery⟩
  | none =>
    simp only [hstored] at h ⊢
    by_cases hused : (db.activities.any fun activity => activity._id == newId) = true
    · simp [hused] at h
    · have hfree : ((db.only userId).activities.any fun activity => activity._id == newId) =
          false := by
        simp only [Bool.not_eq_true, List.any_eq_false] at hused ⊢
        exact fun activity hmem => hused activity (List.mem_of_mem_filter hmem)
      simp only [hused] at h
      cases h
      simp only [hfree]
      simp [Db.only]

theorem findUserActivityByUserId_only {id : String} (hu : ObjectId.ofString id = some userId) :
    findUserActivityByUserId (snap.only userId) id = findUserActivityByUserId snap id := by
  have hparse : parseId id = .ok userId := parseId_eq_ok.mpr hu
  have hfind : (snap.only userId).activities.find? (fun activity => activity.userId == userId) =
      snap.activities.find? fun activity => activity.userId == userId :=
    find?_filter_of_select fun _ _ hquery => hquery
  simp only [findUserActivityByUserId, UserActivityRepository.findByUserId, hparse, Bind.bind,
    Except.bind, hfind]

theorem requestFor_only {eventId : String} {dto : RewardRequestCreateDto} (newId : ObjectId)
    (checkedAt requestedAt : Int) (hu : ObjectId.ofString dto.userId = some userId) :
    requestFor (snap.only userId) eventId dto newId checkedAt requestedAt =
      requestFor snap eventId dto newId checkedAt requestedAt := by
  have hevent : findEventById (snap.only userId) eventId checkedAt =
      findEventById snap eventId checkedAt := rfl
  unfold requestFor
  rw [hevent, findUserActivityByUserId_only hu, getPastRuleIds_eq_nil, getPastRuleIds_eq_nil]

theorem RewardRequestRepository.create_only {r doc : RewardRequestDocument}
    (hr : r.userId = userId) (h : RewardRequestRepository.create db r = .ok (doc, db')) :
    RewardRequestRepository.create (db.only userId) r = .ok (doc, db'.only userId) := by
  obtain ⟨hvalid, hfree, hdoc, rfl⟩ := RewardRequestRepository.create_eq_ok.mp h
  rw [RewardRequestRepository.create_eq_ok]
  refine ⟨hvalid, ?_, hdoc, ?_⟩
  · exact fun r' hr' => hfree r' (List.mem_of_mem_filter hr')
  · simp [Db.only, hr]

theorem RewardRequestService.createRewardRequest_only {eventId : String}
    {dto : RewardRequestCreateDto} {newId : ObjectId} {checkedAt requestedAt : Int}
    {response : RewardRequestDto} (hu : ObjectId.ofString dto.userId = some userId)
    (h : RewardRequestService.createRewardRequest snap db eventId dto newId checkedAt requestedAt =
      .ok (response, db')) :
    RewardRequestService.createRewardRequest (snap.only userId) (db.only userId) eventId dto newId
      checkedAt requestedAt = .ok (response, db'.only userId) := by
  obtain ⟨r, hr, hcreate, hresponse⟩ := createRewardRequest_eq_ok.mp h
  have huser : r.userId = userId :=
    Option.some.inj ((requestFor_eq_ok hr).2.2.1.symm.trans hu)
  rw [← requestFor_only newId checkedAt requestedAt hu] at hr
  exact createRewardRequest_eq_ok.mpr
    ⟨r, hr, RewardRequestRepository.create_only huser hcreate, hresponse⟩

end OwnDocuments

section OthersDocuments

variable {userId : ObjectId} {snap db db' : Db}

theorem UserActivityService.create_only_of_ne {dto : UserActivityCreateRequestDto}
    {newId : ObjectId} {now : Int} {response : UserActivityDto}
    (hu : ObjectId.ofString dto.userId ≠ some userId)
    (h : UserActivityService.create db dto newId now = .ok (response, db')) :
    db'.only userId = db.only userId := by
  obtain ⟨⟨activity, db₁⟩, hupdate, h⟩ := bind_eq_ok h
  cases h
  obtain ⟨uid, huid, hupdate⟩ := bind_eq_ok hupdate
  have hne : ¬uid = userId := by
    rintro rfl
    exact hu (parseId_eq_ok.mp huid)
  simp only at hupdate
  split at hupdate
  · cases hupdate
    simp only [Db.only]
    rw [filter_updateFirst_of_not]
    intro x _ hquery
    have hsame : x.userId = uid := by simpa using hquery
    simp [hsame, hne]
  · split at hupdate
    · cases hupdate
    · cases hupdate
      simp [Db.only, hne]

end OthersDocuments

/-- Every operation keeps to the part of the store that it is for. -/
theorem perform_separates (userId : ObjectId) :
    Separates perform perform WellFormed Evolves (Command.concerns userId) (Db.only userId) where
  own := by
    intro command snap db db' hsnap hwf hev hconcerns h
    cases command with
    | createEvent dto newId validatedAt createdAt =>
      simp only [perform, EventService.create_only, committed_onPart] at h ⊢
      rw [h]
      rfl
    | updateStatus dto =>
      simp only [perform, EventService.updateStatus_only, committed_onPart] at h ⊢
      rw [h]
      rfl
    | addReward dto newRuleId =>
      have hrule : (db.only userId).hasRule newRuleId = db.hasRule newRuleId := rfl
      by_cases hused : db.hasRule newRuleId = true
      · simp [perform, hused] at h
      · simp only [perform, hrule, hused, RewardService.addReward_only, committed_onPart] at h ⊢
        simp only [Bool.false_eq_true, if_false] at h ⊢
        rw [h]
        rfl
    | createUserActivity dto newId now =>
      have hu : ObjectId.ofString dto.userId = some userId := by
        simpa [Command.concerns] using hconcerns
      obtain ⟨response, h⟩ := committed_eq_some h
      simp only [perform, UserActivityService.create_only hu h]
      rfl
    | createRewardRequest eventId dto newId checkedAt requestedAt =>
      have hu : ObjectId.ofString dto.userId = some userId := by
        simpa [Command.concerns] using hconcerns
      obtain ⟨response, h⟩ := committed_eq_some h
      simp only [perform, RewardRequestService.createRewardRequest_only hu h]
      rfl
    | approveRewardRequest dto now savedAt => simp [Command.concerns] at hconcerns
  other := by
    intro command snap db db' hsnap hwf hev hconcerns h
    cases command with
    | createEvent dto newId validatedAt createdAt => simp [Command.concerns] at hconcerns
    | updateStatus dto => simp [Command.concerns] at hconcerns
    | addReward dto newRuleId => simp [Command.concerns] at hconcerns
    | createUserActivity dto newId now =>
      have hu : ObjectId.ofString dto.userId ≠ some userId := by
        simpa [Command.concerns] using hconcerns
      obtain ⟨response, h⟩ := committed_eq_some h
      exact UserActivityService.create_only_of_ne hu h
    | createRewardRequest eventId dto newId checkedAt requestedAt =>
      obtain ⟨response, h⟩ := committed_eq_some h
      obtain ⟨r, hr, hcreate, -⟩ := createRewardRequest_eq_ok.mp h
      obtain ⟨-, -, -, rfl⟩ := RewardRequestRepository.create_eq_ok.mp hcreate
      have hne : r.userId ≠ userId := by
        intro hu
        simp [Command.concerns, (requestFor_eq_ok hr).2.2.1, hu] at hconcerns
      simp [Db.only, hne]
    | approveRewardRequest dto now savedAt =>
      obtain ⟨response, h⟩ := committed_eq_some h
      rw [RewardRequestService.approveRewardRequest_eq_error] at h
      cases h

/-- The run that is left of a run when only what concerns one user is kept. -/
def ownEvents (userId : ObjectId) : List (SnapshotStore.Event κ Command) → ServiceState κ →
    List (SnapshotStore.Event κ Command) :=
  trace (step perform) (concerned (Command.concerns userId))

/-- What a user sees of a state. -/
def ownState (userId : ObjectId) : ServiceState κ → ServiceState κ :=
  State.project (Command.concerns userId) (Db.only userId)

theorem own_simulation (userId : ObjectId) :
    Simulation (ε := SnapshotStore.Event κ Command) (step perform) (step perform)
      (concerned (Command.concerns userId)) (ownState userId) (Coherent WellFormed Evolves) :=
  (perform_separates userId).simulation perform_preserves

/-- Without the other users' operations every run is still a run: everything that
committed commits, and the events and the user's own documents come out the same. -/
theorem users_do_not_interfere (userId : ObjectId) {s t : ServiceState κ}
    (hs : ReachableService s) {es : List (SnapshotStore.Event κ Command)}
    (h : run (step perform) es s = some t) :
    ReachableService (ownState userId s) ∧
      run (step perform) (ownEvents userId es s) (ownState userId s) = some (ownState userId t) :=
  ⟨(own_simulation userId).reachable (coherent_initial WellFormed.empty) hs,
    (own_simulation userId).run hs.coherent h⟩

namespace Sample

def otherUserId : ObjectId := ObjectId.ofDigit 5

def otherClaim : Command :=
  .createRewardRequest eventId.toString ⟨otherUserId.toString⟩ (ObjectId.ofDigit 7) 50 50

/-- Two users claim at the same time. -/
def crowded : List (SnapshotStore.Event Nat Command) :=
  (setup true).flatMap alone ++
    alone (.createUserActivity ⟨otherUserId.toString, some 9, some 9, none⟩
      (ObjectId.ofDigit 6) 45) ++
    [.start 1 (claim firstRequestId), .start 2 otherClaim, .commit 2, .commit 1]

def crowdedState : ServiceState Nat :=
  (run (step perform) crowded (initial Db.empty)).getD (initial Db.empty)

theorem crowded_run : run (step perform) crowded (initial Db.empty) = some crowdedState := by
  have hview : (run (step perform) crowded (initial Db.empty)).map
      (fun s : ServiceState Nat => s.db.requests.length) = some 2 := by decide +kernel
  exact (run_of_view hview).1

end Sample

theorem users_do_not_interfere_sample :
    (ownEvents Sample.userId Sample.crowded (initial Db.empty)).length + 4 =
        Sample.crowded.length ∧
      run (step perform) (ownEvents Sample.userId Sample.crowded (initial Db.empty))
        (ownState Sample.userId (initial Db.empty)) =
          some (ownState Sample.userId Sample.crowdedState) :=
  ⟨by decide +kernel,
    (users_do_not_interfere Sample.userId (Reachable.refl _ _) Sample.crowded_run).2⟩

end MapleRewards
