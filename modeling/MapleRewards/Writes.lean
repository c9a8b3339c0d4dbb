import MapleRewards.Services
import MapleRewards.Granting

/-!
# What a committed operation writes

One lemma for each operation: from the fact that it succeeded, what the store after
it is and what the operation knew when it wrote.
-/
namespace MapleRewards

open Collection

/-! ## Events -/

theorem validateEventPeriod_eq_ok {startedAt endedAt : Option Int} {now : Int} {u : Unit} :
    EventValidator.validateEventPeriod startedAt endedAt now = .ok u ↔
      dateLessEq endedAt startedAt = false ∧ dateLess startedAt (some now) = false := by
  unfold EventValidator.validateEventPeriod
  cases dateLessEq endedAt startedAt <;> cases dateLess startedAt (some now) <;> simp [throwEvent]

theorem checkActiveEvent_eq_ok {status : EventStatus} {u : Unit} :
    EventValidator.checkActiveEvent status = .ok u ↔ status = .ACTIVE := by
  cases status <;> simp [EventValidator.checkActiveEvent, throwEvent]

theorem EventRepository.findById_eq_some {db : Db} {id : String} {event : EventDocument}
    (h : EventRepository.findById db id = .ok (some event)) :
    ObjectId.ofString id = some event._id ∧ event ∈ db.events := by
  obtain ⟨_id, hid, h⟩ := bind_eq_ok h
  have hfind : db.events.find? (fun event => event._id == _id) = some event := by
    simpa using h
  obtain ⟨hmem, hkey⟩ := find?_key_eq_some EventDocument._id hfind
  have hparse := parseId_eq_ok.mp hid
  rw [hkey]
  exact ⟨hparse, hmem⟩

theorem EventSchema_eq_some {data : EventData} {event : EventDocument}
    (h : EventSchema data = some event) :
    event._id = data._id ∧ data.startedAt = some event.startedAt ∧
      data.endedAt = some event.endedAt ∧ event.rewardRules = data.rewardRules := by
  unfold EventSchema at h
  split at h
  · next startedAt endedAt hs he =>
    split at h
    · cases h
    · cases h
      exact ⟨rfl, hs, he, rfl⟩
  · cases h

theorem EventRepository.create_eq_ok {db db' : Db} {data : EventData} {event : EventDocument}
    (h : EventRepository.create db data = .ok (event, db')) :
    EventSchema data = some event ∧ (∀ e ∈ db.events, e._id ≠ event._id) ∧
      db' = { db with events := db.events ++ [event] } := by
  unfold EventRepository.create at h
  split at h
  · cases h
  · next event' hschema =>
    split at h
    · cases h
    · next hfresh =>
      cases h
      exact ⟨hschema, by simpa using hfresh, rfl⟩

/-- A stored event starts after the clock reading that validated it. -/
theorem EventService.create_writes {snap db db' : Db} {dto : EventCreateRequestDto}
    {newId : ObjectId} {validatedAt createdAt : Int} {response : EventDto}
    (h : EventService.create snap db dto newId validatedAt createdAt = .ok (response, db')) :
    ∃ event : EventDocument, event._id = newId ∧ event.rewardRules = [] ∧
      event.startedAt < event.endedAt ∧ validatedAt ≤ event.startedAt ∧
      (∀ e ∈ db.events, e._id ≠ newId) ∧ response = EventMapper.toEventDto event ∧
      db' = { db with events := db.events ++ [event] } := by
  obtain ⟨u, hperiod, h⟩ := bind_eq_ok h
  obtain ⟨hends, hstarts⟩ := validateEventPeriod_eq_ok.mp hperiod
  simp only at h
  split at h
  · cases h
  · obtain ⟨⟨event, db''⟩, hcreate, h⟩ := bind_eq_ok h
    cases h
    obtain ⟨hschema, hfresh, hdb⟩ := EventRepository.create_eq_ok hcreate
    obtain ⟨hid, hs, he, hrules⟩ := EventSchema_eq_some hschema
    simp only at hid hs he hrules
    rw [hs, he] at hends
    rw [hs] at hstarts
    simp only [dateLessEq, dateLess, decide_eq_false_iff_not, not_le, not_lt] at hends hstarts
    exact ⟨event, hid, hrules, hends, hstarts, hid ▸ hfresh, rfl, hdb⟩

/-- Setting the status of the event with one id. -/
def Db.setStatus (db : Db) (_id : ObjectId) (status : EventStatus) : Db :=
  { db with
    events := updateFirst (fun event => event._id == _id)
      (fun event => { event with status := status }) db.events }

theorem EventService.updateStatus_writes {snap db db' : Db} {dto : EventUpdateRequestDto}
    {response : EventDetailsDto ⊕ EventDto}
    (h : EventService.updateStatus snap db dto = .ok (response, db')) :
    db' = db ∨ ∃ _id status, ObjectId.ofString dto.eventId = some _id ∧
      db' = db.setStatus _id status := by
  obtain ⟨status, -, h⟩ := bind_eq_ok h
  obtain ⟨event, -, h⟩ := bind_eq_ok h
  split at h
  · cases h
    exact Or.inl rfl
  · obtain ⟨⟨found, db''⟩, hupdate, h⟩ := bind_eq_ok h
    obtain ⟨_id, hid, hupdate⟩ := bind_eq_ok hupdate
    cases hupdate
    right
    refine ⟨_id, status, parseId_eq_ok.mp hid, ?_⟩
    split at h
    · cases h
    · next heq =>
      cases h
      exact (congrArg Prod.snd heq).symm

/-! ## Rules of an event -/

/-- Pushing an item onto one rule of the first event that has it. -/
def Db.pushItem (db : Db) (_id ruleId : ObjectId) (rewardItem : RewardItem) : Db :=
  { db with
    events := updateFirst
      (fun event => event._id == _id && event.rewardRules.any fun rule => rule._id == ruleId)
      (EventDocument.pushItem ruleId rewardItem) db.events }

/-- Pushing a rule onto the event with one id. -/
def Db.pushRule (db : Db) (_id : ObjectId) (rule : RewardRuleDocument) : Db :=
  { db with
    events := updateFirst (fun event => event._id == _id)
      (fun event => { event with rewardRules := event.rewardRules ++ [rule] }) db.events }

theorem any_id_pushItem (event : EventDocument) (ruleId : ObjectId) (rewardItem : RewardItem)
    (id : ObjectId) : ((event.pushItem ruleId rewardItem).rewardRules.any fun r => r._id == id) =
      event.rewardRules.any fun r => r._id == id := by
  have hids := map_updateFirst (fun r => r._id == ruleId) (RewardRuleDocument.pushItem rewardItem)
    RewardRuleDocument._id (fun _ => rfl) event.rewardRules
  calc ((event.pushItem ruleId rewardItem).rewardRules.any fun r => r._id == id)
      = ((event.pushItem ruleId rewardItem).rewardRules.map RewardRuleDocument._id).any
          fun x => x == id := by rw [List.any_map]; rfl
    _ = (event.rewardRules.map RewardRuleDocument._id).any fun x => x == id := by
        simp only [EventDocument.pushItem, hids]
    _ = event.rewardRules.any fun r => r._id == id := by rw [List.any_map]; rfl

/-- The update gives back the event that its query has found, with the item pushed. -/
theorem findByIdAndUpdate_eq (db : Db) {id ruleId : String} {_id rid : ObjectId}
    (hid : ObjectId.ofString id = some _id) (hrid : ObjectId.ofString ruleId = some rid)
    {rewardItem : SubmittedItem} {item : RewardItem} (hcast : rewardItem.cast = some item) :
    EventRepository.findByIdAndUpdate db id ruleId rewardItem =
      .ok ((db.events.find? fun event =>
        event._id == _id && event.rewardRules.any fun rule => rule._id == rid).map
          (EventDocument.pushItem rid item), db.pushItem _id rid item) := by
  have hkeep : ∀ event : EventDocument,
      (event._id == _id && event.rewardRules.any fun rule => rule._id == rid) = true →
      ((event.pushItem rid item)._id == _id &&
        (event.pushItem rid item).rewardRules.any fun rule => rule._id == rid) = true := by
    intro event hquery
    rw [any_id_pushItem]
    exact hquery
  unfold EventRepository.findByIdAndUpdate
  rw [parseId_eq_ok.mpr hid, parseId_eq_ok.mpr hrid]
  simp only [Bind.bind, Except.bind, hcast, find?_updateFirst hkeep]
  rfl

/-- The update returns the event that it has changed. -/
theorem findByIdAndUpdate_eq_ok {db db' : Db} {id ruleId : String} {rewardItem : SubmittedItem}
    {updatedEvent : EventDocument}
    (h : EventRepository.findByIdAndUpdate db id ruleId rewardItem =
      .ok (some updatedEvent, db')) :
    ∃ event ∈ db.events, ∃ rid item, ObjectId.ofString id = some event._id ∧
      ObjectId.ofString ruleId = some rid ∧ rewardItem.cast = some item ∧
      updatedEvent = event.pushItem rid item ∧ db' = db.pushItem event._id rid item := by
  obtain ⟨_id, hid, hrest⟩ := bind_eq_ok h
  obtain ⟨rid, hrid, hupdate⟩ := bind_eq_ok hrest
  rw [parseId_eq_ok] at hid hrid
  cases hcast : rewardItem.cast with
  | none =>
    rw [hcast] at hupdate
    cases hupdate
  | some item =>
    rw [findByIdAndUpdate_eq db hid hrid hcast] at h
    simp only [Except.ok.injEq, Prod.mk.injEq] at h
    obtain ⟨hfound, rfl⟩ := h
    obtain ⟨event, hevent, hpush⟩ := Option.map_eq_some_iff.mp hfound
    have hquery := List.find?_some hevent
    simp only [Bool.and_eq_true, beq_iff_eq] at hquery
    obtain ⟨rfl, -⟩ := hquery
    exact ⟨event, List.mem_of_find?_eq_some hevent, rid, item, hid, hrid, rfl, hpush.symm, rfl⟩

/-- A save goes through when every rule of the event is valid and the event still stored. -/
theorem upsert_eq_ok {db db' : Db} {event : EventDocument} {newRule : RewardRuleDocument} :
    EventRepository.upsert db event newRule = .ok db' ↔
      (∀ rule ∈ event.rewardRules ++ [newRule], rule.valid = true) ∧
        (∃ e ∈ db.events, e._id = event._id) ∧ db' = db.pushRule event._id newRule := by
  unfold EventRepository.upsert
  by_cases hvalid : (event.rewardRules ++ [newRule]).all RewardRuleDocument.valid = true
  · have hrules := List.all_eq_true.mp hvalid
    by_cases hstored : (db.events.any fun e => e._id == event._id) = true
    · have hmem : ∃ e ∈ db.events, e._id = event._id := by simpa using hstored
      simp only [hvalid, hstored, Bool.not_true, Bool.false_eq_true, if_false, if_true,
        Except.ok.injEq]
      exact ⟨fun h => ⟨hrules, hmem, h.symm⟩, fun h => h.2.2.symm⟩
    · have hnone : ¬∃ e ∈ db.events, e._id = event._id := by simpa using hstored
      simp [hvalid, hstored, hnone]
  · have hinvalid : ¬∀ rule ∈ event.rewardRules ++ [newRule], rule.valid = true :=
      fun h => hvalid (List.all_eq_true.mpr h)
    exact iff_of_false (by simp [hvalid]) fun h => hinvalid h.1

/-- `ruleOptions?.ruleId`; an empty one names no rule. -/
def RewardAddRequestDto.ruleId (requestDto : RewardAddRequestDto) : String :=
  (requestDto.ruleOptions.bind RewardRuleOptionDto.ruleId).getD ""

def RewardAddRequestDto.newRule (requestDto : RewardAddRequestDto) : Option NewRuleDto :=
  requestDto.ruleOptions.bind RewardRuleOptionDto.newRule

/-- The entry of a rule in the listing. -/
def RewardRuleDocument.entry (rule : RewardRuleDocument) : RewardRuleDto :=
  ⟨rule._id.toString, rule.config, [], rule.rewardItems.map RewardItem.toDto⟩

/-- What a successful `addReward` has done: an item for a rule of the event that it
names, or a new rule whose config was accepted, on an event whose rules are valid. -/
inductive Added (snap : Db) (dto : RewardAddRequestDto) (newRuleId : ObjectId)
    (response : RewardRuleDto) (db : Db) : Db → Prop where
  | item (event : EventDocument) (rule : RewardRuleDocument) (item : RewardItem)
      (hevent : event ∈ db.events) (hrule : rule ∈ event.rewardRules)
      (hid : ObjectId.ofString dto.eventId = some event._id)
      (hname : dto.ruleId = rule._id.toString) (hcast : dto.rewardItem.cast = some item)
      (hresponse : response =
        { (rule.pushItem item).entry with furtherConfig := rule.furtherConfig }) :
      Added snap dto newRuleId response db (db.pushItem event._id rule._id item)
  | rule (event : EventDocument) (newRule : NewRuleDto) (config : RuleConfig) (item : RewardItem)
      (hevent : event ∈ snap.events) (hid : ObjectId.ofString dto.eventId = some event._id)
      (hname : dto.ruleId = "") (hnew : dto.newRule = some newRule)
      (hcast : dto.rewardItem.cast = some item)
      (hconfig : validateRuleConfig newRule.ruleType newRule.config = .ok config)
      (hvalid : ∀ rule ∈ event.rewardRules, rule.valid = true) (hitem : item.valid = true)
      (hresponse : response =
        ⟨newRuleId.toString, config, newRule.config.further, [dto.rewardItem.json]⟩) :
      Added snap dto newRuleId response db
        (db.pushRule event._id ⟨newRuleId, config, newRule.config.further, [item]⟩)

/-- A spelling that equals a canonical one is read back as its id. -/
theorem ofString_eq_of_toString {id : ObjectId} {spelling : String} (h : id.toString = spelling) :
    ObjectId.ofString spelling = some id := by
  rw [← h]
  simp

/-- Comparing canonical spellings compares ids. -/
theorem canonical_query (id : ObjectId) :
    (fun r : RewardRuleDocument => r._id.toString == id.toString) = fun r => r._id == id := by
  funext r
  rw [Bool.eq_iff_iff]
  simp

/-- What the second lookup finds is the rule of the id with the item pushed. -/
theorem find?_pushItem {event : EventDocument} {rid : ObjectId} {ruleId : String}
    {rewardItem : RewardItem} {updated : RewardRuleDocument}
    (hrid : ObjectId.ofString ruleId = some rid)
    (h : (event.pushItem rid rewardItem).rewardRules.find?
      (fun r => r._id.toString == ruleId) = some updated) :
    ∃ rule ∈ event.rewardRules, rule._id = rid ∧ ruleId = rule._id.toString ∧
      updated = rule.pushItem rewardItem := by
  have hspell : updated._id.toString = ruleId := by
    simpa using List.find?_some h
  have hupdated : updated._id = rid := by
    rw [ofString_eq_of_toString hspell] at hrid
    exact Option.some.inj hrid
  rw [← hspell, hupdated, canonical_query, EventDocument.pushItem,
    find?_updateFirst (by simp [RewardRuleDocument.pushItem])] at h
  obtain ⟨rule, hrule, rfl⟩ := Option.map_eq_some_iff.mp h
  obtain ⟨hmem, hruleId⟩ := find?_key_eq_some RewardRuleDocument._id hrule
  exact ⟨rule, hmem, hruleId, hspell.symm, rfl⟩

theorem addRewardToExistingRule_added {snap db db' : Db} {dto : RewardAddRequestDto}
    {newRuleId : ObjectId} {response : RewardRuleDto}
    (h : addRewardToExistingRule db dto.eventId dto.ruleId dto.rewardItem = .ok (response, db')) :
    Added snap dto newRuleId response db db' := by
  obtain ⟨⟨found, db''⟩, hupdate, h⟩ := bind_eq_ok h
  cases found with
  | none => cases h
  | some updatedEvent =>
    obtain ⟨event, hevent, rid, item, hid, hrid, hcast, rfl, rfl⟩ :=
      findByIdAndUpdate_eq_ok hupdate
    simp only at h
    split at h
    · cases h
    · next updated hupdated =>
      cases h
      obtain ⟨rule, hrule, rfl, hname, rfl⟩ := find?_pushItem hrid hupdated
      exact .item event rule item hevent hrule hid hname hcast rfl

theorem addRewardToNewRule_added {snap db db' : Db} {event : EventDocument}
    {dto : RewardAddRequestDto} {newRule : NewRuleDto} {newRuleId : ObjectId}
    {response : RewardRuleDto}
    (h : addRewardToNewRule db event dto.rewardItem newRule newRuleId = .ok (response, db'))
    (hevent : event ∈ snap.events) (hid : ObjectId.ofString dto.eventId = some event._id)
    (hname : dto.ruleId = "") (hnew : dto.newRule = some newRule) :
    Added snap dto newRuleId response db db' := by
  obtain ⟨config, hconfig, h⟩ := bind_eq_ok h
  split at h
  · cases h
  · next item hcast =>
    obtain ⟨db'', hsave, h⟩ := bind_eq_ok h
    cases h
    obtain ⟨hvalid, -, rfl⟩ := upsert_eq_ok.mp hsave
    have hitem : item.valid = true := by
      simpa [RewardRuleDocument.valid] using
        hvalid ⟨newRuleId, config, newRule.config.further, [item]⟩ (by simp)
    exact .rule event newRule config item hevent hid hname hnew hcast hconfig
      (fun rule hrule => hvalid rule (List.mem_append_left _ hrule)) hitem rfl

/-- Everything a successful `addReward` can do. -/
theorem RewardService.addReward_added {snap db db' : Db} {dto : RewardAddRequestDto}
    {newRuleId : ObjectId} {response : RewardRuleDto}
    (h : RewardService.addReward snap db dto newRuleId = .ok (response, db')) :
    Added snap dto newRuleId response db db' := by
  unfold RewardService.addReward at h
  rw [transact_eq_ok] at h
  obtain ⟨found, hfound, h⟩ := bind_eq_ok h
  split at h
  · cases h
  · next event =>
    obtain ⟨hid, hevent⟩ := EventRepository.findById_eq_some hfound
    simp only at h
    split at h
    · exact addRewardToExistingRule_added h
    · next hname =>
      split at h
      · next newRule hnew =>
        exact addRewardToNewRule_added h hevent hid (not_not.mp hname) hnew
      · cases h

/-! ## User activities -/

theorem UserActivityService.create_writes {db db' : Db} {dto : UserActivityCreateRequestDto}
    {newId : ObjectId} {now : Int} {response : UserActivityDto}
    (h : UserActivityService.create db dto newId now = .ok (response, db')) :
    ∃ activities, db' = { db with activities := activities } := by
  obtain ⟨⟨activity, db''⟩, hupdate, h⟩ := bind_eq_ok h
  cases h
  obtain ⟨uid, -, hupdate⟩ := bind_eq_ok hupdate
  simp only at hupdate
  split at hupdate
  · cases hupdate
    exact ⟨_, rfl⟩
  · split at hupdate
    · cases hupdate
    · cases hupdate
      exact ⟨_, rfl⟩

/-! ## Reward requests -/

theorem findEventById_eq_ok {snap : Db} {eventId : String} {now : Int} {event : EventDocument}
    (h : findEventById snap eventId now = .ok event) :
    ObjectId.ofString eventId = some event._id ∧ event ∈ snap.events ∧
      event.startedAt < event.endedAt ∧ now ≤ event.startedAt ∧ event.status = .ACTIVE := by
  obtain ⟨found, hfound, h⟩ := bind_eq_ok h
  split at h
  · cases h
  · next stored =>
    obtain ⟨u, hperiod, h⟩ := bind_eq_ok h
    obtain ⟨v, hactive, h⟩ := bind_eq_ok h
    cases h
    obtain ⟨hparse, hmem⟩ := EventRepository.findById_eq_some hfound
    obtain ⟨hends, hstarts⟩ := validateEventPeriod_eq_ok.mp hperiod
    simp only [dateLessEq, dateLess, decide_eq_false_iff_not, not_le, not_lt] at hends hstarts
    exact ⟨hparse, hmem, hends, hstarts, checkActiveEvent_eq_ok.mp hactive⟩

theorem findUserActivityByUserId_eq_ok {snap : Db} {userId : String}
    {activity : UserActivityDocument} (h : findUserActivityByUserId snap userId = .ok activity) :
    ∃ uid, ObjectId.ofString userId = some uid ∧
      snap.activities.find? (fun activity => activity.userId == uid) = some activity := by
  obtain ⟨found, hfound, h⟩ := bind_eq_ok h
  obtain ⟨uid, huid, hfound⟩ := bind_eq_ok hfound
  cases hfound
  split at h
  · cases h
  · next stored hstored =>
    cases h
    exact ⟨uid, parseId_eq_ok.mp huid, hstored⟩

/-- Every claim starts without a history. -/
@[simp] theorem getPastRuleIds_eq_nil (snap : Db) (eventId userId : String) :
    getPastRuleIds snap eventId userId = [] := by
  simp [getPastRuleIds]

/-- The counters of an activity, as `runRewardEngine` hands them to the engine. -/
def UserActivityDocument.counters (userActivity : UserActivityDocument) : Activity :=
  ⟨userActivity.loginStreak, userActivity.inviteCount, userActivity.purchaseTotal⟩

theorem runRewardEngine_eq_ok {event : EventDocument} {activity : UserActivityDocument}
    {past : List String} {result : EngineResult}
    (h : runRewardEngine event activity past = .ok result) :
    ∃ rules, createRulesFromDocs event.rewardRules = .ok rules ∧
      result = ⟨(grantedDocs rules activity.counters event.rewardRules past).map
          (fun doc => doc._id.toString),
        (grantedDocs rules activity.counters event.rewardRules past).flatMap
          RewardRuleDocument.rewardItems⟩ := by
  obtain ⟨rules, hrules, h⟩ := bind_eq_ok h
  cases h
  exact ⟨rules, hrules, run_eq_grantedDocs (createRulesFromDocs_built hrules) _ past⟩

theorem mapM_newObjectId (docs : List RewardRuleDocument) :
    (docs.map fun doc => doc._id.toString).mapM newObjectId =
      .ok (docs.map RewardRuleDocument._id) := by
  induction docs with
  | nil => rfl
  | cons doc docs ih =>
    have hhead : newObjectId doc._id.toString = .ok doc._id := by simp [newObjectId]
    rw [List.map_cons, List.mapM_cons, hhead, ih]
    rfl

/-- Granted ids always parse back. -/
theorem buildRewardRequest_granted {eventId userId : String} {eid uid : ObjectId}
    (he : ObjectId.ofString eventId = some eid) (hu : ObjectId.ofString userId = some uid)
    (granted : List RewardRuleDocument) (rewards : List RewardItem) (status : RewardRequestStatus)
    (conditionMet : Bool) (newId : ObjectId) (requestedAt : Int) :
    buildRewardRequest eventId userId (granted.map fun doc => doc._id.toString) rewards status
      conditionMet newId requestedAt =
      .ok ⟨newId, eid, uid, conditionMet, granted.map RewardRuleDocument._id, rewards, status, none,
        requestedAt, some requestedAt, none, none⟩ := by
  have heid : newObjectId eventId = .ok eid := by simp [newObjectId, he]
  have huid : newObjectId userId = .ok uid := by simp [newObjectId, hu]
  unfold buildRewardRequest
  rw [heid, huid, mapM_newObjectId]
  rfl

/-- A request is stored with valid rewards, a new id and no clash in the index. -/
theorem RewardRequestRepository.create_eq_ok {db db' : Db} {r doc : RewardRequestDocument} :
    RewardRequestRepository.create db r = .ok (doc, db') ↔
      r.rewards.all RewardItem.valid = true ∧
        (∀ r' ∈ db.requests, r'._id ≠ r._id ∧ clashes r' r = false) ∧ doc = r ∧
        db' = { db with requests := db.requests ++ [r] } := by
  constructor
  · intro h
    unfold RewardRequestRepository.create at h
    split at h
    · cases h
    · next hvalid =>
      split at h
      · cases h
      · next hfree =>
        cases h
        refine ⟨by simpa using hvalid, ?_, rfl, rfl⟩
        intro r' hr'
        simp only [Bool.not_eq_true, List.any_eq_false, Bool.or_eq_true, not_or,
          beq_iff_eq] at hfree
        simpa using hfree r' hr'
  · rintro ⟨hvalid, hfree, rfl, rfl⟩
    have hunused : (db.requests.any fun r' => r'._id == doc._id || clashes r' doc) = false := by
      rw [List.any_eq_false]
      intro r' hr'
      obtain ⟨hid, hclash⟩ := hfree r' hr'
      simp [hid, hclash]
    simp only [RewardRequestRepository.create, hvalid, hunused]
    rfl

/-- The first half of `createRewardRequest`: the request that it builds from what its
transaction reads. -/
def requestFor (snap : Db) (eventId : String) (dto : RewardRequestCreateDto) (newId : ObjectId)
    (checkedAt requestedAt : Int) : Except Thrown RewardRequestDocument := do
  let event ← findEventById snap eventId checkedAt
  let userActivity ← findUserActivityByUserId snap dto.userId
  let result ← runRewardEngine event userActivity (getPastRuleIds snap eventId dto.userId)
  let decided := decideStatus event.autoReward result.newAchievedRuleIds result.rewards
  buildRewardRequest eventId dto.userId result.newAchievedRuleIds result.rewards decided.1
    decided.2 newId requestedAt

theorem createRewardRequest_eq (snap db : Db) (eventId : String) (dto : RewardRequestCreateDto)
    (newId : ObjectId) (checkedAt requestedAt : Int) :
    RewardRequestService.createRewardRequest snap db eventId dto newId checkedAt requestedAt =
      transact (do
        let r ← requestFor snap eventId dto newId checkedAt requestedAt
        let p ← RewardRequestRepository.create db r
        .ok (RewardRequestMapper.toDto p.1, p.2)) := by
  unfold RewardRequestService.createRewardRequest requestFor
  simp only [bind_assoc]

/-- A claim builds its request from the snapshot and stores it without another look there. -/
theorem createRewardRequest_eq_ok {snap db db' : Db} {eventId : String}
    {dto : RewardRequestCreateDto} {newId : ObjectId} {checkedAt requestedAt : Int}
    {response : RewardRequestDto} :
    RewardRequestService.createRewardRequest snap db eventId dto newId checkedAt requestedAt =
        .ok (response, db') ↔
      ∃ r, requestFor snap eventId dto newId checkedAt requestedAt = .ok r ∧
        RewardRequestRepository.create db r = .ok (r, db') ∧
        response = RewardRequestMapper.toDto r := by
  rw [createRewardRequest_eq, transact_eq_ok]
  constructor
  · intro h
    obtain ⟨r, hr, h⟩ := bind_eq_ok h
    obtain ⟨⟨doc, db₁⟩, hcreate, h⟩ := bind_eq_ok h
    cases h
    obtain ⟨-, -, rfl, -⟩ := RewardRequestRepository.create_eq_ok.mp hcreate
    exact ⟨doc, hr, hcreate, rfl⟩
  · rintro ⟨r, hr, hcreate, rfl⟩
    simp only [hr, hcreate, Bind.bind, Except.bind]

/-- What a new request holds, in terms of the rules that it was granted. -/
structure IssuedFrom (snap : Db) (event : EventDocument) (granted : List RewardRuleDocument)
    (r : RewardRequestDocument) : Prop where
  event_mem : event ∈ snap.events
  event_id : event._id = r.eventId
  grants : GrantedDocs event.rewardRules [] granted
  ruleIds : r.ruleIds = granted.map RewardRuleDocument._id
  rewards : r.rewards = granted.flatMap RewardRuleDocument.rewardItems
  status : (r.status, r.conditionMet) =
    decideStatus event.autoReward (granted.map fun doc => doc._id.toString) r.rewards
  approvedBy : r.approvedBy = none

/-- What a new request holds, in terms of the run of the engine that it was made by. -/
structure IssuedByRun (snap : Db) (event : EventDocument) (activity : UserActivityDocument)
    (rules : List RewardRule) (r : RewardRequestDocument) : Prop where
  event_mem : event ∈ snap.events
  event_id : event._id = r.eventId
  activity_eq : snap.activities.find? (fun activity => activity.userId == r.userId) = some activity
  rules_eq : createRulesFromDocs event.rewardRules = .ok rules
  ruleIds : r.ruleIds = (grantedDocs rules activity.counters event.rewardRules []).map
    RewardRuleDocument._id
  rewards : r.rewards = (grantedDocs rules activity.counters event.rewardRules []).flatMap
    RewardRuleDocument.rewardItems
  status : (r.status, r.conditionMet) = decideStatus event.autoReward ((grantedDocs rules
    activity.counters event.rewardRules []).map fun doc => doc._id.toString) r.rewards
  approvedBy : r.approvedBy = none

theorem IssuedByRun.issued {snap : Db} {event : EventDocument} {activity : UserActivityDocument}
    {rules : List RewardRule} {r : RewardRequestDocument}
    (h : IssuedByRun snap event activity rules r) : ∃ granted, IssuedFrom snap event granted r :=
  ⟨_, h.event_mem, h.event_id, grantedDocs_grants (createRulesFromDocs_built h.rules_eq) _ _,
    h.ruleIds, h.rewards, h.status, h.approvedBy⟩

/-- Everything a built request says. -/
theorem requestFor_eq_ok {snap : Db} {eventId : String} {dto : RewardRequestCreateDto}
    {newId : ObjectId} {checkedAt requestedAt : Int} {r : RewardRequestDocument}
    (h : requestFor snap eventId dto newId checkedAt requestedAt = .ok r) :
    r._id = newId ∧ ObjectId.ofString eventId = some r.eventId ∧
      ObjectId.ofString dto.userId = some r.userId ∧
      ∃ event activity rules, IssuedByRun snap event activity rules r := by
  obtain ⟨event, hevent, h⟩ := bind_eq_ok h
  obtain ⟨activity, hactivity, h⟩ := bind_eq_ok h
  rw [getPastRuleIds_eq_nil] at h
  obtain ⟨result, hresult, hbuild⟩ := bind_eq_ok h
  obtain ⟨he, hmem, -⟩ := findEventById_eq_ok hevent
  obtain ⟨uid, hu, hstored⟩ := findUserActivityByUserId_eq_ok hactivity
  obtain ⟨rules, hrules, rfl⟩ := runRewardEngine_eq_ok hresult
  rw [buildRewardRequest_granted he hu] at hbuild
  cases hbuild
  exact ⟨rfl, he, hu, event, activity, rules, ⟨hmem, rfl, hstored, hrules, rfl, rfl, rfl, rfl⟩⟩

/-- A claim that finds its event, its activity and supported rules builds a request. -/
theorem requestFor_of_found {snap : Db} {eventId : String} {dto : RewardRequestCreateDto}
    {checkedAt : Int} {event : EventDocument} {activity : UserActivityDocument}
    {rules : List RewardRule} (hevent : findEventById snap eventId checkedAt = .ok event)
    (hactivity : findUserActivityByUserId snap dto.userId = .ok activity)
    (hrules : createRulesFromDocs event.rewardRules = .ok rules) (newId : ObjectId)
    (requestedAt : Int) :
    ∃ r, requestFor snap eventId dto newId checkedAt requestedAt = .ok r ∧ r._id = newId ∧
      IssuedByRun snap event activity rules r := by
  obtain ⟨he, hmem, -⟩ := findEventById_eq_ok hevent
  obtain ⟨uid, hu, hstored⟩ := findUserActivityByUserId_eq_ok hactivity
  have hresult : runRewardEngine event activity [] = .ok (RewardEngine.run rules activity.counters
      []) := by
    simp only [runRewardEngine, hrules, Bind.bind, Except.bind, UserActivityDocument.counters]
  rw [run_eq_grantedDocs (createRulesFromDocs_built hrules)] at hresult
  unfold requestFor
  rw [hevent, hactivity, getPastRuleIds_eq_nil]
  simp only [Bind.bind, Except.bind, hresult]
  rw [buildRewardRequest_granted he hu]
  exact ⟨_, rfl, rfl, ⟨hmem, rfl, hstored, hrules, rfl, rfl, rfl, rfl⟩⟩

theorem RewardRequestService.createRewardRequest_writes {snap db db' : Db} {eventId : String}
    {dto : RewardRequestCreateDto} {newId : ObjectId} {checkedAt requestedAt : Int}
    {response : RewardRequestDto}
    (h : RewardRequestService.createRewardRequest snap db eventId dto newId checkedAt requestedAt =
      .ok (response, db')) :
    ∃ event granted r, IssuedFrom snap event granted r ∧ r._id = newId ∧
      ObjectId.ofString eventId = some r.eventId ∧ ObjectId.ofString dto.userId = some r.userId ∧
      (∀ r' ∈ db.requests, r'._id ≠ r._id ∧ clashes r' r = false) ∧
      db' = { db with requests := db.requests ++ [r] } := by
  obtain ⟨r, hr, hcreate, -⟩ := createRewardRequest_eq_ok.mp h
  obtain ⟨hid, heid, huid, event, activity, rules, hrun⟩ := requestFor_eq_ok hr
  obtain ⟨granted, hissued⟩ := hrun.issued
  obtain ⟨-, hfree, -, hdb⟩ := RewardRequestRepository.create_eq_ok.mp hcreate
  exact ⟨event, granted, r, hissued, hid, heid, huid, hfree, hdb⟩

/-- No approval finds its request. -/
theorem RewardRequestService.approveRewardRequest_eq_error (snap db : Db)
    (dto : RewardRequestApproveDto) (now savedAt : Int) :
    RewardRequestService.approveRewardRequest snap db dto now savedAt =
      .error (.databaseRpcException (.eventException (EventErrors .REWARD_REQUEST_NOT_FOUND))) := by
  simp [approveRewardRequest, transact, throwEvent]

end MapleRewards
