import MapleRewards.Store

/-!
# The services of the event microservice

Every operation is given the store `snap` that its transaction reads, the store `db`
it commits on, the ids it generates and what its clock shows, one argument for each
`new Date()`. It returns its response and the store after the commit, or what it
throws; a throwing operation commits nothing.
-/
namespace MapleRewards

/-! ## Request and response objects -/

/-- The dates are what `new Date(..)` makes of the submitted strings. -/
structure EventCreateRequestDto where
  name : String
  startedAt : Option Int
  endedAt : Option Int
  autoReward : Option Bool

structure EventUpdateRequestDto where
  eventId : String
  status : String

structure NewRuleDto where
  ruleType : RewardRuleType
  config : ConfigInput

structure RewardRuleOptionDto where
  ruleId : Option String
  newRule : Option NewRuleDto

structure RewardAddRequestDto where
  eventId : String
  rewardItem : SubmittedItem
  ruleOptions : Option RewardRuleOptionDto

structure UserActivityCreateRequestDto where
  userId : String
  loginStreak : Option Rat
  inviteCount : Option Rat
  purchaseTotal : Option Rat

structure RewardRequestCreateDto where
  userId : String

structure RewardRequestApproveDto where
  rewardRequestId : String
  approverId : String

/-- The ISO strings of the source are kept as the instants they spell. -/
structure EventDto where
  id : String
  name : String
  startedAt : Int
  endedAt : Int
  status : EventStatus
  deriving DecidableEq

/-- The config is one object, its checked keys in `config`, which determine the rule type,
and any others in `furtherConfig`. -/
structure RewardRuleDto where
  id : String
  config : RuleConfig
  furtherConfig : List (String × JsonValue)
  rewardItems : List RewardItemDto
  deriving DecidableEq

structure EventDetailsDto extends EventDto where
  rewardRules : List RewardRuleDto
  deriving DecidableEq

structure UserActivityDto where
  id : String
  userId : String
  loginStreak : Rat
  inviteCount : Rat
  purchaseTotal : Rat
  deriving DecidableEq

structure RewardRequestDto where
  id : String
  eventId : String
  userId : String
  conditionMet : Bool
  ruleIds : List String
  rewards : List RewardItemDto
  status : RewardRequestStatus
  reason : Option String
  requestedAt : Int
  processedAt : Option Int
  deriving DecidableEq

/-! ## Mappers -/

def EventMapper.toEventDto (event : EventDocument) : EventDto :=
  ⟨event._id.toString, event.name, event.startedAt, event.endedAt, event.status⟩

def RewardMapper.toRewardRuleDto (rule : RewardRuleDocument) : Except Thrown RewardRuleDto :=
  match rule.config with
  | .unsupported _ => throwEvent .UNSUPPORTED_RULE_TYPE
  | config => .ok ⟨rule._id.toString, config, [], rule.rewardItems.map RewardItem.toDto⟩

def EventMapper.toEventDetailsDto (event : EventDocument) : Except Thrown EventDetailsDto := do
  let rewardRules ← event.rewardRules.mapM RewardMapper.toRewardRuleDto
  .ok { EventMapper.toEventDto event with rewardRules := rewardRules }

def UserActivityMapper.toUserActivityDto (activity : UserActivityDocument) : UserActivityDto :=
  ⟨activity._id.toString, activity.userId.toString, activity.loginStreak, activity.inviteCount,
    activity.purchaseTotal⟩

def RewardRequestMapper.toDto (document : RewardRequestDocument) : RewardRequestDto where
  id := document._id.toString
  eventId := document.eventId.toString
  userId := document.userId.toString
  conditionMet := document.conditionMet
  ruleIds := document.ruleIds.map ObjectId.toString
  rewards := document.rewards.map RewardItem.toDto
  status := document.status
  reason := document.reason
  requestedAt := document.requestedAt
  processedAt := document.processedAt

/-! ## `EventValidator` -/

/-- `a < b` on dates; an invalid date compares false with every date. -/
def dateLess : Option Int → Option Int → Bool
  | some a, some b => decide (a < b)
  | _, _ => false

def dateLessEq : Option Int → Option Int → Bool
  | some a, some b => decide (a ≤ b)
  | _, _ => false

def EventValidator.validateEventPeriod (startedAt endedAt : Option Int) (now : Int) :
    Except Thrown Unit :=
  if dateLessEq endedAt startedAt || dateLess startedAt (some now) then
    throwEvent .INVALID_EVENT_PERIOD
  else .ok ()

def EventValidator.checkActiveEvent (status : EventStatus) : Except Thrown Unit :=
  if status ≠ .ACTIVE then throwEvent .EVENT_INACTIVE else .ok ()

/-- The status it has checked, read as a member of the enum. -/
def EventValidator.validateEventStatus (status : String) : Except Thrown EventStatus :=
  if status = "ACTIVE" then .ok .ACTIVE
  else if status = "INACTIVE" then .ok .INACTIVE
  else throwEvent .INVALID_EVENT_STATUS

/-! ## `EventService` -/

def EventService.findById (db : Db) (eventId : String) : Except Thrown EventDetailsDto := do
  match ← EventRepository.findById db eventId with
  | none => throwEvent .EVENT_NOT_FOUND
  | some event => EventMapper.toEventDetailsDto event

def determineInitialStatus (startedAt endedAt : Option Int) (now : Int) : EventStatus :=
  if dateLessEq startedAt (some now) && dateLessEq (some now) endedAt then .ACTIVE else .INACTIVE

def EventService.create (snap db : Db) (createEventDto : EventCreateRequestDto) (newId : ObjectId)
    (validatedAt createdAt : Int) : Except Thrown (EventDto × Db) := do
  EventValidator.validateEventPeriod createEventDto.startedAt createEventDto.endedAt validatedAt
  let toCreate : EventData :=
    { _id := newId
      name := createEventDto.name
      startedAt := createEventDto.startedAt
      endedAt := createEventDto.endedAt
      autoReward := createEventDto.autoReward
      status := determineInitialStatus createEventDto.startedAt createEventDto.endedAt createdAt
      rewardRules := [] }
  match EventRepository.findByName snap toCreate.name with
  | some _ => throwEvent .DUPLICATED_EVENT
  | none =>
    let (createdEvent, db') ← EventRepository.create db toCreate
    .ok (EventMapper.toEventDto createdEvent, db')

/-- An unchanged status returns the details object of the lookup. -/
def EventService.updateStatus (snap db : Db) (requestDto : EventUpdateRequestDto) :
    Except Thrown ((EventDetailsDto ⊕ EventDto) × Db) := do
  let status ← EventValidator.validateEventStatus requestDto.status
  let event ← EventService.findById snap requestDto.eventId
  if event.status = status then .ok (.inl event, db)
  else
    match ← EventRepository.updateStatus db requestDto.eventId status with
    | (none, _) => throwEvent .EVENT_NOT_FOUND
    | (some updatedEvent, db') => .ok (.inr (EventMapper.toEventDto updatedEvent), db')

/-! ## `RewardService` -/

def RewardService.findByEventId (db : Db) (eventId : String) :
    Except Thrown (List RewardRuleDto) := do
  match ← EventRepository.findById db eventId with
  | none => throwEvent .EVENT_NOT_FOUND
  | some event => event.rewardRules.mapM RewardMapper.toRewardRuleDto

def addRewardToExistingRule (db : Db) (eventId ruleId : String) (rewardItem : SubmittedItem) :
    Except Thrown (RewardRuleDto × Db) := do
  match ← EventRepository.findByIdAndUpdate db eventId ruleId rewardItem with
  | (none, _) => throwEvent .REWARD_RULE_NOT_FOUND
  | (some updatedEvent, db') =>
    match updatedEvent.rewardRules.find? fun r => r._id.toString == ruleId with
    | none => throwEvent .REWARD_RULE_NOT_FOUND
    | some updatedRule =>
      .ok (⟨updatedRule._id.toString, updatedRule.config, updatedRule.furtherConfig,
        updatedRule.rewardItems.map RewardItem.toDto⟩, db')

/-- The response holds the item and the config as they were submitted. An item that cannot
be cast is found when the event is validated. -/
def addRewardToNewRule (db : Db) (event : EventDocument) (rewardItem : SubmittedItem)
    (newRule : NewRuleDto) (newRuleId : ObjectId) : Except Thrown (RewardRuleDto × Db) := do
  let config ← validateRuleConfig newRule.ruleType newRule.config
  match rewardItem.cast with
  | none => .error .validationError
  | some item =>
    let db' ← EventRepository.upsert db event ⟨newRuleId, config, newRule.config.further, [item]⟩
    .ok (⟨newRuleId.toString, config, newRule.config.further, [rewardItem.json]⟩, db')

/-- An empty `ruleId` is falsy. -/
def RewardService.addReward (snap db : Db) (requestDto : RewardAddRequestDto)
    (newRuleId : ObjectId) : Except Thrown (RewardRuleDto × Db) :=
  transact do
    match ← EventRepository.findById snap requestDto.eventId with
    | none => throwEvent .EVENT_NOT_FOUND
    | some event =>
      let ruleId := (requestDto.ruleOptions.bind RewardRuleOptionDto.ruleId).getD ""
      if ruleId ≠ "" then
        addRewardToExistingRule db requestDto.eventId ruleId requestDto.rewardItem
      else
        match requestDto.ruleOptions.bind RewardRuleOptionDto.newRule with
        | some newRule => addRewardToNewRule db event requestDto.rewardItem newRule newRuleId
        | none => throwEvent .REWARD_ADDITION_FAILED

/-! ## `UserActivityService` -/

def UserActivityService.create (db : Db) (requestDto : UserActivityCreateRequestDto)
    (newId : ObjectId) (now : Int) : Except Thrown (UserActivityDto × Db) := do
  let (userActivity, db') ← UserActivityRepository.createOrUpdate db requestDto.userId
    requestDto.loginStreak requestDto.inviteCount requestDto.purchaseTotal newId now
  .ok (UserActivityMapper.toUserActivityDto userActivity, db')

/-! ## `RewardRequestService` -/

def findEventById (snap : Db) (eventId : String) (now : Int) : Except Thrown EventDocument := do
  match ← EventRepository.findById snap eventId with
  | none => throwEvent .EVENT_NOT_FOUND
  | some event =>
    EventValidator.validateEventPeriod (some event.startedAt) (some event.endedAt) now
    EventValidator.checkActiveEvent event.status
    .ok event

def findUserActivityByUserId (snap : Db) (userId : String) :
    Except Thrown UserActivityDocument := do
  match ← UserActivityRepository.findByUserId snap userId with
  | none => throwEvent .USER_ACTIVITY_NOT_FOUND
  | some userActivity => .ok userActivity

def getPastRuleIds (snap : Db) (eventId userId : String) : List String :=
  let previousRequests := RewardRequestRepository.findPreviousSuccess snap eventId userId
  previousRequests.flatMap fun req => req.ruleIds.map ObjectId.toString

def runRewardEngine (event : EventDocument) (userActivity : UserActivityDocument)
    (pastRuleIds : List String) : Except Thrown EngineResult := do
  let rules ← createRulesFromDocs event.rewardRules
  .ok (RewardEngine.run rules
    ⟨userActivity.loginStreak, userActivity.inviteCount, userActivity.purchaseTotal⟩ pastRuleIds)

def decideStatus (autoReward : Bool) (newRuleIds : List String) (rewards : List RewardItem) :
    RewardRequestStatus × Bool :=
  let conditionMet := decide (newRuleIds.length > 0) && decide (rewards.length > 0)
  if !conditionMet then (.FAILED, conditionMet)
  else if autoReward then (.SUCCESS, conditionMet)
  else (.PENDING, conditionMet)

/-- `new Types.ObjectId(id)` outside the repositories, whose error is not wrapped. -/
def newObjectId (id : String) : Except Thrown ObjectId :=
  match ObjectId.ofString id with
  | some _id => .ok _id
  | none => .error .bsonError

/-- The timestamps option fills `processedAt` of a new document with `requestedAt`. -/
def buildRewardRequest (eventId userId : String) (newAchievedRuleIds : List String)
    (rewards : List RewardItem) (status : RewardRequestStatus) (conditionMet : Bool)
    (newId : ObjectId) (requestedAt : Int) : Except Thrown RewardRequestDocument := do
  let eid ← newObjectId eventId
  let uid ← newObjectId userId
  let ruleIds ← newAchievedRuleIds.mapM newObjectId
  .ok
    { _id := newId
      eventId := eid
      userId := uid
      conditionMet := conditionMet
      ruleIds := ruleIds
      rewards := rewards
      status := status
      reason := none
      requestedAt := requestedAt
      processedAt := some requestedAt
      approvedBy := none
      approvedAt := none }

def RewardRequestService.createRewardRequest (snap db : Db) (eventId : String)
    (createDto : RewardRequestCreateDto) (newId : ObjectId) (checkedAt requestedAt : Int) :
    Except Thrown (RewardRequestDto × Db) :=
  transact do
    let event ← findEventById snap eventId checkedAt
    let userActivity ← findUserActivityByUserId snap createDto.userId
    let pastRuleIds := getPastRuleIds snap eventId createDto.userId
    let result ← runRewardEngine event userActivity pastRuleIds
    let (status, conditionMet) :=
      decideStatus event.autoReward result.newAchievedRuleIds result.rewards
    let rewardRequest ← buildRewardRequest eventId createDto.userId result.newAchievedRuleIds
      result.rewards status conditionMet newId requestedAt
    let (doc, db') ← RewardRequestRepository.create db rewardRequest
    .ok (RewardRequestMapper.toDto doc, db')

def RewardRequestService.approveRewardRequest (snap db : Db) (dto : RewardRequestApproveDto)
    (now savedAt : Int) : Except Thrown (RewardRequestDto × Db) :=
  transact do
    match RewardRequestRepository.findById snap dto.rewardRequestId with
    | none => throwEvent .REWARD_REQUEST_NOT_FOUND
    | some rewardRequest =>
      if rewardRequest.status ≠ .PENDING then throwEvent .REWARD_REQUEST_STATUS_NOT_PENDING
      else
        let approvedBy ← newObjectId dto.approverId
        let rewardRequest := { rewardRequest with
          status := .SUCCESS
          approvedBy := some approvedBy
          approvedAt := some now
          processedAt := some savedAt }
        let db' ← RewardRequestDocument.save db rewardRequest
        .ok (RewardRequestMapper.toDto rewardRequest, db')

end MapleRewards
