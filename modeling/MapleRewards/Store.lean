import MapleRewards.Engine
import MapleRewards.Lib.Collection

/-!
# Documents, collections and repositories

The database is three collections. A repository method is given the store that its
session sees. Events and activities are looked up by ids that are parsed inside the
repository's `try`, so a malformed one comes out as a `DatabaseRpcException`; what the
driver rejects later is not caught there. Reward requests are looked up by the strings
as they come.
-/
namespace MapleRewards

open Collection

inductive EventStatus where
  | ACTIVE
  | INACTIVE
  deriving DecidableEq, Repr

inductive RewardRequestStatus where
  | PENDING
  | SUCCESS
  | FAILED
  deriving DecidableEq, Repr

/-- Dates are milliseconds since the epoch. -/
structure EventDocument where
  _id : ObjectId
  name : String
  startedAt : Int
  endedAt : Int
  status : EventStatus
  autoReward : Bool
  rewardRules : List RewardRuleDocument
  deriving DecidableEq

structure RewardRequestDocument where
  _id : ObjectId
  eventId : ObjectId
  userId : ObjectId
  conditionMet : Bool
  ruleIds : List ObjectId
  rewards : List RewardItem
  status : RewardRequestStatus
  reason : Option String
  requestedAt : Int
  processedAt : Option Int
  approvedBy : Option ObjectId
  approvedAt : Option Int
  deriving DecidableEq

structure UserActivityDocument where
  _id : ObjectId
  userId : ObjectId
  loginStreak : Rat
  inviteCount : Rat
  purchaseTotal : Rat
  lastUpdatedAt : Int
  deriving DecidableEq

structure Db where
  events : List EventDocument
  requests : List RewardRequestDocument
  activities : List UserActivityDocument
  deriving DecidableEq

def Db.empty : Db := ⟨[], [], []⟩

/-- `new Types.ObjectId(id)` inside the `try` of a repository method. -/
def parseId (id : String) : Except Thrown ObjectId :=
  match ObjectId.ofString id with
  | some _id => .ok _id
  | none => .error (.databaseRpcException .bsonError)

theorem parseId_eq_ok {id : String} {_id : ObjectId} :
    parseId id = .ok _id ↔ ObjectId.ofString id = some _id := by
  unfold parseId
  cases ObjectId.ofString id <;> simp

/-! ## Events -/

/-- The characters that `String.prototype.trim` removes. -/
def jsWhitespace (c : Char) : Bool :=
  [0x9, 0xA, 0xB, 0xC, 0xD, 0x20, 0xA0, 0x1680, 0x2028, 0x2029, 0x202F, 0x205F, 0x3000,
    0xFEFF].contains c.toNat || (0x2000 ≤ c.toNat && c.toNat ≤ 0x200A)

def jsTrim (s : String) : String :=
  String.ofList ((s.toList.dropWhile jsWhitespace).reverse.dropWhile jsWhitespace).reverse

def EventRepository.findById (db : Db) (id : String) : Except Thrown (Option EventDocument) := do
  let _id ← parseId id
  .ok (db.events.find? fun event => event._id == _id)

/-- The schema's `trim` applies to query values too. -/
def EventRepository.findByName (db : Db) (name : String) : Option EventDocument :=
  db.events.find? fun event => event.name == jsTrim name

/-- What `EventService.create` hands to the model, dates possibly invalid. -/
structure EventData where
  _id : ObjectId
  name : String
  startedAt : Option Int
  endedAt : Option Int
  autoReward : Option Bool
  status : EventStatus
  rewardRules : List RewardRuleDocument

/-- The setters, defaults and `required` checks of `EventSchema`; `none` fails validation. -/
def EventSchema (data : EventData) : Option EventDocument :=
  match data.startedAt, data.endedAt with
  | some startedAt, some endedAt =>
    if jsTrim data.name = "" then none
    else some ⟨data._id, jsTrim data.name, startedAt, endedAt, data.status,
      data.autoReward.getD true, data.rewardRules⟩
  | _, _ => none

def EventRepository.create (db : Db) (eventData : EventData) :
    Except Thrown (EventDocument × Db) :=
  match EventSchema eventData with
  | none => .error .validationError
  | some event =>
    if db.events.any fun e => e._id == event._id then .error .duplicateKeyError
    else .ok (event, { db with events := db.events ++ [event] })

def EventRepository.updateStatus (db : Db) (id : String) (status : EventStatus) :
    Except Thrown (Option EventDocument × Db) := do
  let _id ← parseId id
  let events := updateFirst (fun event => event._id == _id)
    (fun event => { event with status := status }) db.events
  .ok (events.find? (fun event => event._id == _id), { db with events := events })

def RewardRuleDocument.pushItem (rewardItem : RewardItem) (rule : RewardRuleDocument) :
    RewardRuleDocument :=
  { rule with rewardItems := rule.rewardItems ++ [rewardItem] }

/-- `$push: { 'rewardRules.$.rewardItems': rewardItem }` on a matched event. -/
def EventDocument.pushItem (ruleId : ObjectId) (rewardItem : RewardItem) (event : EventDocument) :
    EventDocument :=
  { event with
    rewardRules := updateFirst (fun rule => rule._id == ruleId)
      (RewardRuleDocument.pushItem rewardItem) event.rewardRules }

/-- The item is cast when the update runs, and not validated. -/
def EventRepository.findByIdAndUpdate (db : Db) (id ruleId : String)
    (rewardItem : SubmittedItem) : Except Thrown (Option EventDocument × Db) := do
  let _id ← parseId id
  let rid ← parseId ruleId
  match rewardItem.cast with
  | none => .error .castError
  | some item =>
    let query (event : EventDocument) : Bool :=
      event._id == _id && event.rewardRules.any fun rule => rule._id == rid
    let events := updateFirst query (EventDocument.pushItem rid item) db.events
    .ok (events.find? query, { db with events := events })

def RewardRuleDocument.valid (rule : RewardRuleDocument) : Bool :=
  rule.rewardItems.all RewardItem.valid

/-- `event.rewardRules.push(newRule)` and the save that follows: every rule of the event as
it was read is validated with the new one, which alone is `$push`ed onto the stored array. -/
def EventRepository.upsert (db : Db) (event : EventDocument) (newRule : RewardRuleDocument) :
    Except Thrown Db :=
  if !(event.rewardRules ++ [newRule]).all RewardRuleDocument.valid then .error .validationError
  else if db.events.any fun e => e._id == event._id then
    .ok { db with
      events := updateFirst (fun e => e._id == event._id)
        (fun e => { e with rewardRules := e.rewardRules ++ [newRule] }) db.events }
  else .error .documentNotFoundError

/-! ## Reward requests -/

/-- The unique index on `{userId, eventId, ruleIds}`, element by element, over the
documents with status SUCCESS: two of them with one key. -/
def clashes (r r' : RewardRequestDocument) : Bool :=
  r.status == .SUCCESS && r'.status == .SUCCESS && r.userId == r'.userId &&
    r.eventId == r'.eventId && r.ruleIds.any fun id => r'.ruleIds.contains id

/-- What a query compares: two values of different types are never equal. -/
inductive BsonValue where
  | objectId : ObjectId → BsonValue
  | string : String → BsonValue
  | null : BsonValue
  deriving DecidableEq

/-- The id paths of `RewardRequestSchema` are declared with `Types.ObjectId`, the class of
the values, which makes them paths of mixed type: a string in a query stays a string. -/
def RewardRequestRepository.findPreviousSuccess (db : Db) (eventId userId : String) :
    List RewardRequestDocument :=
  db.requests.filter fun r =>
    BsonValue.objectId r.eventId == .string eventId &&
      BsonValue.objectId r.userId == .string userId && r.status == .SUCCESS

def RewardRequestRepository.create (db : Db) (rewardRequest : RewardRequestDocument) :
    Except Thrown (RewardRequestDocument × Db) :=
  if !rewardRequest.rewards.all RewardItem.valid then .error .validationError
  else if db.requests.any fun r => r._id == rewardRequest._id || clashes r rewardRequest then
    .error .duplicateKeyError
  else .ok (rewardRequest, { db with requests := db.requests ++ [rewardRequest] })

def RewardRequestRepository.findById (db : Db) (id : String) : Option RewardRequestDocument :=
  db.requests.find? fun r => BsonValue.objectId r._id == .string id

/-- `doc.save()` after an approval: `$set` of the modified fields on the stored document. -/
def RewardRequestDocument.save (db : Db) (doc : RewardRequestDocument) : Except Thrown Db :=
  let set (stored : RewardRequestDocument) : RewardRequestDocument :=
    { stored with
      status := doc.status
      approvedBy := doc.approvedBy
      approvedAt := doc.approvedAt
      processedAt := doc.processedAt }
  match db.requests.find? fun r => r._id == doc._id with
  | none => .error .documentNotFoundError
  | some stored =>
    if db.requests.any fun r => r._id != doc._id && clashes r (set stored) then
      .error .duplicateKeyError
    else .ok { db with requests := updateFirst (fun r => r._id == doc._id) set db.requests }

/-! ## User activities -/

def UserActivityRepository.findByUserId (db : Db) (userId : String) :
    Except Thrown (Option UserActivityDocument) := do
  let uid ← parseId userId
  .ok (db.activities.find? fun activity => activity.userId == uid)

/-- `$set` drops the fields that are undefined; an inserted document takes the
schema's default 0 for them. -/
def UserActivityRepository.createOrUpdate (db : Db) (userId : String)
    (loginStreak inviteCount purchaseTotal : Option Rat) (newId : ObjectId) (now : Int) :
    Except Thrown (UserActivityDocument × Db) := do
  let uid ← parseId userId
  let set (activity : UserActivityDocument) : UserActivityDocument :=
    { activity with
      loginStreak := loginStreak.getD activity.loginStreak
      inviteCount := inviteCount.getD activity.inviteCount
      purchaseTotal := purchaseTotal.getD activity.purchaseTotal
      lastUpdatedAt := now }
  match db.activities.find? fun activity => activity.userId == uid with
  | some stored =>
    .ok (set stored, { db with
      activities := updateFirst (fun activity => activity.userId == uid) set db.activities })
  | none =>
    if db.activities.any fun activity => activity._id == newId then .error .duplicateKeyError
    else
      let inserted := set ⟨newId, uid, 0, 0, 0, now⟩
      .ok (inserted, { db with activities := db.activities ++ [inserted] })

/-! ## Lookups by string -/

/-- A stored id is no string. -/
@[simp] theorem objectId_beq_string (_id : ObjectId) (s : String) :
    (BsonValue.objectId _id == .string s) = false := by
  simp

/-- The history of a user is always empty. -/
@[simp] theorem RewardRequestRepository.findPreviousSuccess_eq_nil (db : Db)
    (eventId userId : String) :
    RewardRequestRepository.findPreviousSuccess db eventId userId = [] := by
  simp [RewardRequestRepository.findPreviousSuccess]

/-- No request is found by its id. -/
@[simp] theorem RewardRequestRepository.findById_eq_none (db : Db) (id : String) :
    RewardRequestRepository.findById db id = none := by
  simp [RewardRequestRepository.findById]

end MapleRewards
