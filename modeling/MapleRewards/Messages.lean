import MapleRewards.Replies

/-!
# Messages between the gateway and the event service

The gateway builds a payload in one application, a handler reads it in another. The
payload is delivered as it was sent, and a property that is not there reads as
undefined.
-/
namespace MapleRewards

inductive Payload where
  | str (s : String)
  | num (n : Rat)
  | arr (elements : List JsonElement)
  | other (text : String)
  | object (properties : List (String × Payload))

def Payload.ofJson : JsonValue → Payload
  | .str s => .str s
  | .num n => .num n
  | .arr elements => .arr elements
  | .other text => .other text

/-- `payload.key`, where `none` is undefined. None of the keys below is a property of a
string or a number. -/
def Payload.get (payload : Payload) (key : String) : Option Payload :=
  match payload with
  | .object properties => properties.lookup key
  | _ => none

/-- The patterns that the event service answers. -/
inductive MessagePattern where
  | EVENTS_LIST
  | EVENTS_GET
  | EVENTS_CREATE
  | EVENTS_UPDATE
  | REWARDS_LIST
  | REWARDS_ADD
  | REWARD_REQUESTS_CREATE
  | REWARD_REQUESTS_USER_LIST
  | REWARD_REQUESTS_EVENT_LIST
  | REWARD_REQUESTS_APPROVE
  | USER_ACTIVITY_CREATE
  deriving DecidableEq

def MessagePattern.value : MessagePattern → String
  | .EVENTS_LIST => "events.list"
  | .EVENTS_GET => "events.get"
  | .EVENTS_CREATE => "events.create"
  | .EVENTS_UPDATE => "events.update"
  | .REWARDS_LIST => "rewards.list"
  | .REWARDS_ADD => "rewards.create"
  | .REWARD_REQUESTS_CREATE => "rewardRequests.create"
  | .REWARD_REQUESTS_USER_LIST => "rewardRequests.userList"
  | .REWARD_REQUESTS_EVENT_LIST => "rewardRequests.eventList"
  | .REWARD_REQUESTS_APPROVE => "rewardRequests.approve"
  | .USER_ACTIVITY_CREATE => "userActivity.create"

/-- Routing by the string of a pattern is routing by the pattern. -/
theorem MessagePattern.value_injective {a b : MessagePattern} (h : a.value = b.value) : a = b := by
  cases a <;> cases b <;> first | rfl | exact absurd h (by decide)

structure Message where
  pattern : MessagePattern
  payload : Payload

/-! ## The gateway -/

structure EventParamDto where
  eventId : String

/-- The properties that are there when the controller is called: the class has no
validators, so a whitelisting pipe leaves none. -/
structure RewardCreateRequestDto where
  type : Option String
  amount : Option Rat

def RewardCreateRequestDto.properties (dto : RewardCreateRequestDto) : List (String × Payload) :=
  (dto.type.map fun type => ("type", Payload.str type)).toList ++
    (dto.amount.map fun amount => ("amount", Payload.num amount)).toList

def EventClientController.findOne (params : EventParamDto) : Message :=
  ⟨.EVENTS_GET, .str params.eventId⟩

def RewardClientController.findAll (eventId : String) : Message :=
  ⟨.REWARDS_LIST, .str eventId⟩

def RewardClientController.create (eventId : String) (dto : RewardCreateRequestDto) : Message :=
  ⟨.REWARDS_ADD, .object (("eventId", .str eventId) :: dto.properties)⟩

def RewardRequestClientController.requestReward (eventId userId : String) : Message :=
  ⟨.REWARD_REQUESTS_CREATE, .object [("eventId", .str eventId), ("userId", .str userId)]⟩

def RewardRequestClientController.approveRewardRequest (eventId rewardRequestId userId : String) :
    Message :=
  ⟨.REWARD_REQUESTS_APPROVE, .object [("eventId", .str eventId),
    ("rewardRequestId", .str rewardRequestId), ("approverId", .str userId)]⟩

/-! ## The event service -/

/-- A call of a service method with what the handler passes to it. -/
inductive Invocation where
  | findAll (filter : Payload)
  | findById (param : Payload)
  | create (createEventDto : Payload)
  | updateStatus (requestDto : Payload)
  | findByEventId (param : Payload)
  | addReward (requestDto : Payload)
  | createRewardRequest (eventId createDto : Option Payload)
  | paginate (filter : Payload)
  | approveRewardRequest (dto : Payload)
  | createUserActivity (requestDto : Payload)

/-- The handlers. All but one pass the payload on as it came. -/
def handle (message : Message) : Invocation :=
  match message.pattern with
  | .EVENTS_LIST => .findAll message.payload
  | .EVENTS_GET => .findById message.payload
  | .EVENTS_CREATE => .create message.payload
  | .EVENTS_UPDATE => .updateStatus message.payload
  | .REWARDS_LIST => .findByEventId message.payload
  | .REWARDS_ADD => .addReward message.payload
  | .REWARD_REQUESTS_CREATE =>
    .createRewardRequest (message.payload.get "eventId") (message.payload.get "dto")
  | .REWARD_REQUESTS_USER_LIST => .paginate message.payload
  | .REWARD_REQUESTS_EVENT_LIST => .paginate message.payload
  | .REWARD_REQUESTS_APPROVE => .approveRewardRequest message.payload
  | .USER_ACTIVITY_CREATE => .createUserActivity message.payload

/-- The reward item that is read from a payload: its type and amount, whatever they are. -/
def Payload.ReadsItem (payload : Payload) (item : RewardItemDto) : Prop :=
  payload.get "type" = item.type.map Payload.ofJson ∧
    payload.get "amount" = item.amount.map Payload.ofJson

/-- The operation that an invocation runs, once the service has read its fields. The rule
options are not looked at here. -/
inductive Runs : Invocation → ServiceCall → Prop where
  | findById (param : Payload) (eventId : String)
      (heventId : param.get "eventId" = some (.str eventId)) :
      Runs (.findById param) (.getEventById eventId)
  | findByEventId (param : Payload) (eventId : String)
      (heventId : param.get "eventId" = some (.str eventId)) :
      Runs (.findByEventId param) (.findByEventId eventId)
  | addReward (requestDto item : Payload) (eventId : String) (rewardItem : SubmittedItem)
      (ruleOptions : Option RewardRuleOptionDto) (newRuleId : ObjectId)
      (heventId : requestDto.get "eventId" = some (.str eventId))
      (hitem : requestDto.get "rewardItem" = some item) (hread : item.ReadsItem rewardItem.json) :
      Runs (.addReward requestDto)
        (.write (.addReward ⟨eventId, rewardItem, ruleOptions⟩ newRuleId))
  | createRewardRequest (eventId : String) (createDto : Payload) (userId : String)
      (newId : ObjectId) (checkedAt requestedAt : Int)
      (huserId : createDto.get "userId" = some (.str userId)) :
      Runs (.createRewardRequest (some (.str eventId)) (some createDto))
        (.write (.createRewardRequest eventId ⟨userId⟩ newId checkedAt requestedAt))
  | approveRewardRequest (dto : Payload) (rewardRequestId approverId : String) (now savedAt : Int)
      (hrequest : dto.get "rewardRequestId" = some (.str rewardRequestId))
      (happrover : dto.get "approverId" = some (.str approverId)) :
      Runs (.approveRewardRequest dto)
        (.write (.approveRewardRequest ⟨rewardRequestId, approverId⟩ now savedAt))

/-! ## What the two sides make of a message -/

def RequestAgrees (eventId userId : String) : Prop :=
  ∃ newId checkedAt requestedAt,
    Runs (handle (RewardRequestClientController.requestReward eventId userId))
      (.write (.createRewardRequest eventId ⟨userId⟩ newId checkedAt requestedAt))

def LookupAgrees (eventId : String) : Prop :=
  Runs (handle (EventClientController.findOne ⟨eventId⟩)) (.getEventById eventId)

def ListAgrees (eventId : String) : Prop :=
  Runs (handle (RewardClientController.findAll eventId)) (.findByEventId eventId)

def AddAgrees (eventId : String) (dto : RewardCreateRequestDto) (rewardItem : SubmittedItem) :
    Prop :=
  ∃ ruleOptions newRuleId, Runs (handle (RewardClientController.create eventId dto))
    (.write (.addReward ⟨eventId, rewardItem, ruleOptions⟩ newRuleId))

def ApproveAgrees (eventId rewardRequestId userId : String) : Prop :=
  ∃ now savedAt,
    Runs (handle (RewardRequestClientController.approveRewardRequest eventId rewardRequestId
      userId)) (.write (.approveRewardRequest ⟨rewardRequestId, userId⟩ now savedAt))

theorem approve_agrees (eventId rewardRequestId userId : String) :
    ApproveAgrees eventId rewardRequestId userId :=
  ⟨0, 0, .approveRewardRequest _ _ _ 0 0 rfl rfl⟩

/-- The user id is sent beside the event id and looked for inside `dto`. -/
theorem not_requestAgrees (eventId userId : String) : ¬ RequestAgrees eventId userId := by
  rintro ⟨newId, checkedAt, requestedAt, hruns⟩
  have hdto : handle (RewardRequestClientController.requestReward eventId userId) =
      .createRewardRequest (some (.str eventId)) none := rfl
  rw [hdto] at hruns
  cases hruns

/-- A bare id has no property `eventId`. -/
theorem not_lookupAgrees (eventId : String) : ¬ LookupAgrees eventId := by
  intro hruns
  cases hruns with
  | findById param eventId heventId => cases heventId

theorem not_listAgrees (eventId : String) : ¬ ListAgrees eventId := by
  intro hruns
  cases hruns with
  | findByEventId param eventId heventId => cases heventId

/-- Type and amount are spread beside the event id and looked for inside `rewardItem`. -/
theorem not_addAgrees (eventId : String) (dto : RewardCreateRequestDto)
    (rewardItem : SubmittedItem) : ¬ AddAgrees eventId dto rewardItem := by
  rintro ⟨ruleOptions, newRuleId, hruns⟩
  cases hruns with
  | addReward requestDto item eventId rewardItem ruleOptions newRuleId heventId hitem hread =>
    obtain ⟨type, amount⟩ := dto
    cases type <;> cases amount <;> cases hitem

/-- The nesting that the handlers and services read. -/
theorem handlers_expect (eventId userId : String) (type : String) (amount : Rat) (newId : ObjectId)
    (checkedAt requestedAt : Int) :
    Runs (handle ⟨.REWARD_REQUESTS_CREATE, .object [("eventId", .str eventId),
        ("dto", .object [("userId", .str userId)])]⟩)
        (.write (.createRewardRequest eventId ⟨userId⟩ newId checkedAt requestedAt)) ∧
      Runs (handle ⟨.EVENTS_GET, .object [("eventId", .str eventId)]⟩) (.getEventById eventId) ∧
      Runs (handle ⟨.REWARDS_LIST, .object [("eventId", .str eventId)]⟩)
        (.findByEventId eventId) ∧
      Runs (handle ⟨.REWARDS_ADD, .object [("eventId", .str eventId),
        ("rewardItem", .object [("type", .str type), ("amount", .num amount)])]⟩)
        (.write (.addReward ⟨eventId, RewardItem.submitted ⟨some type, some amount⟩, none⟩
          newId)) := by
  refine ⟨?_, ?_, ?_, ?_⟩
  · exact .createRewardRequest eventId _ userId newId checkedAt requestedAt rfl
  · exact .findById _ eventId rfl
  · exact .findByEventId _ eventId rfl
  · exact .addReward _ _ eventId (RewardItem.submitted ⟨some type, some amount⟩) none newId rfl
      rfl ⟨rfl, rfl⟩

/-- Whatever the ids, the reward item and the properties that reach the controller, none
of the four messages makes the event service run the operation it is meant for. -/
theorem messages_never_agree (eventId userId : String) (dto : RewardCreateRequestDto)
    (rewardItem : SubmittedItem) :
    ¬ RequestAgrees eventId userId ∧ ¬ LookupAgrees eventId ∧ ¬ ListAgrees eventId ∧
      ¬ AddAgrees eventId dto rewardItem :=
  ⟨not_requestAgrees eventId userId, not_lookupAgrees eventId, not_listAgrees eventId,
    not_addAgrees eventId dto rewardItem⟩

theorem cash_reward_messages_disagree :
    ¬ (RequestAgrees (ObjectId.ofDigit 1).toString (ObjectId.ofDigit 2).toString ∧
      LookupAgrees (ObjectId.ofDigit 1).toString ∧ ListAgrees (ObjectId.ofDigit 1).toString ∧
      AddAgrees (ObjectId.ofDigit 1).toString ⟨some "CASH", some 1000⟩
        (RewardItem.submitted ⟨some "CASH", some 1000⟩)) := by
  rintro ⟨hrequest, -, -, -⟩
  exact not_requestAgrees _ _ hrequest

end MapleRewards
