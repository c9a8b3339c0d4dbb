import MapleRewards.System
import MapleRewards.PagedQueries

/-!
# Error replies

What the caller of the event service is told when an operation throws. The filter
tells the classes of exceptions apart and answers with an object or, for a plain
`RpcException`, with the string that the exception was made from.
-/
namespace MapleRewards

inductive GlobalErrorCode where
  | INTERNAL_ERROR
  | INVALID_PARAMETER
  deriving DecidableEq, Repr

def GlobalErrorCode.value : GlobalErrorCode → String
  | .INTERNAL_ERROR => "GLOBAL_0001"
  | .INVALID_PARAMETER => "GLOBAL_0002"

def GlobalErrors (code : GlobalErrorCode) : ExceptionDescriptor :=
  match code with
  | .INTERNAL_ERROR => ⟨code.value, 500, "서버 내부 오류입니다."⟩
  | .INVALID_PARAMETER => ⟨code.value, 400, "요청 파라미터가 잘못되었습니다."⟩

structure RpcPayload where
  statusCode : Nat
  errorCode : String
  message : String
  timestamp : String
  deriving DecidableEq

/-- What `getError()` returns. -/
inductive RpcError where
  | object (payload : RpcPayload)
  | text (message : String)
  deriving DecidableEq

/-- The payload that the constructor builds; no caller passes `message` or `details`. -/
def BaseRpcException (descriptor : ExceptionDescriptor) (now : String) : RpcPayload :=
  ⟨descriptor.statusCode, descriptor.errorCode, descriptor.message, now⟩

/-- `a || b` on strings. -/
def orElseText (a b : String) : String := if a = "" then b else a

/-- The classes between which the filter distinguishes, in its order. -/
inductive RaisedException where
  | baseRpcException (payload : RpcPayload)
  | rpcException (error : RpcError)
  | httpException (status : Nat) (responseMessage : Option String) (message : String)
  | error (message : String)
  | notAnError

def GlobalRpcExceptionFilter.catch (now : String) : RaisedException → RpcError
  | .baseRpcException payload => .object payload
  | .rpcException error => error
  | .httpException status responseMessage message =>
    .object (BaseRpcException ⟨GlobalErrorCode.INTERNAL_ERROR.value, status,
      orElseText (responseMessage.getD "") message⟩ now)
  | .error message =>
    .object (BaseRpcException ⟨(GlobalErrors .INTERNAL_ERROR).errorCode,
      (GlobalErrors .INTERNAL_ERROR).statusCode,
      orElseText message (GlobalErrors .INTERNAL_ERROR).message⟩ now)
  | .notAnError => .object (BaseRpcException (GlobalErrors .INTERNAL_ERROR) now)

/-- The `message` of an error. An `RpcException` takes it from what it was made from; the
texts of the drivers are a parameter. -/
def Thrown.message (driver : Thrown → String) : Thrown → String
  | .eventException descriptor => descriptor.message
  | .authException descriptor => descriptor.message
  | .databaseRpcException err => orElseText (err.message driver) "Database Error"
  | err => driver err

/-- The exception object that `err` stands for. A `DatabaseRpcException` is made from a
string and is no `BaseRpcException`. -/
def Thrown.raised (driver : Thrown → String) (now : String) (err : Thrown) : RaisedException :=
  match err with
  | .eventException descriptor => .baseRpcException (BaseRpcException descriptor now)
  | .authException descriptor => .baseRpcException (BaseRpcException descriptor now)
  | .databaseRpcException _ => .rpcException (.text (err.message driver))
  | _ => .error (err.message driver)

/-- The reply to what was thrown at `thrownAt` and caught at `caughtAt`. -/
def Thrown.reply (driver : Thrown → String) (thrownAt caughtAt : String) (err : Thrown) :
    RpcError :=
  GlobalRpcExceptionFilter.catch caughtAt (err.raised driver thrownAt)

/-- The reply carries the code and the status of `descriptor`. -/
def RpcError.Carries (descriptor : ExceptionDescriptor) : RpcError → Prop
  | .object payload =>
    payload.errorCode = descriptor.errorCode ∧ payload.statusCode = descriptor.statusCode
  | .text _ => False

theorem reply_eventException (driver : Thrown → String) (thrownAt caughtAt : String)
    (descriptor : ExceptionDescriptor) :
    (Thrown.eventException descriptor).reply driver thrownAt caughtAt =
      .object (BaseRpcException descriptor thrownAt) := rfl

/-- Of a wrapped error nothing but the message is left. -/
theorem reply_databaseRpcException (driver : Thrown → String) (thrownAt caughtAt : String)
    (err : Thrown) :
    (Thrown.databaseRpcException err).reply driver thrownAt caughtAt =
      .text (orElseText (err.message driver) "Database Error") := rfl

/-! ## The operations -/

/-- The messages that the controllers of the event service answer. -/
inductive ServiceCall where
  | write (command : Command)
  | getEventById (eventId : String)
  | paginateEvents (filter : EventGetQueryDto)
  | findByEventId (eventId : String)
  | paginateRewardRequests (filter : RewardRequestGetQueryDto)

def thrown {α : Type} : Except Thrown α → Option Thrown
  | .ok _ => none
  | .error err => some err

def Command.throws (snap db : Db) : Command → Option Thrown
  | .createEvent dto newId validatedAt createdAt =>
    thrown (EventService.create snap db dto newId validatedAt createdAt)
  | .updateStatus dto => thrown (EventService.updateStatus snap db dto)
  | .addReward dto newRuleId => thrown (RewardService.addReward snap db dto newRuleId)
  | .createUserActivity dto newId now => thrown (UserActivityService.create db dto newId now)
  | .createRewardRequest eventId dto newId checkedAt requestedAt =>
    thrown (RewardRequestService.createRewardRequest snap db eventId dto newId checkedAt
      requestedAt)
  | .approveRewardRequest dto now savedAt =>
    thrown (RewardRequestService.approveRewardRequest snap db dto now savedAt)

/-- The operations that run inside `TransactionHelper.transact`. -/
def Command.transactional : Command → Bool
  | .addReward _ _ => true
  | .createRewardRequest _ _ _ _ _ => true
  | .approveRewardRequest _ _ _ => true
  | _ => false

def ServiceCall.transactional : ServiceCall → Bool
  | .write command => command.transactional
  | _ => false

section

variable (eventOrder : Option String → EventDocument → EventDocument → Bool)
variable (requestOrder : Option String → RewardRequestDocument → RewardRequestDocument → Bool)

/-- What the operation throws, if it throws. -/
def ServiceCall.throws (snap db : Db) : ServiceCall → Option Thrown
  | .write command => command.throws snap db
  | .getEventById eventId => thrown (EventService.findById db eventId)
  | .paginateEvents filter => thrown (EventService.findAll eventOrder db filter)
  | .findByEventId eventId => thrown (RewardService.findByEventId db eventId)
  | .paginateRewardRequests filter =>
    thrown (RewardRequestService.paginate requestOrder db filter)

/-- What the body of the operation throws, before `transact` wraps it. -/
def ServiceCall.bodyThrows (snap db : Db) (call : ServiceCall) : Option Thrown :=
  match call.throws eventOrder requestOrder snap db with
  | some (.databaseRpcException err) =>
    if call.transactional then some err else some (.databaseRpcException err)
  | other => other

/-- What the caller is told, if the operation throws. -/
def ServiceCall.reply (driver : Thrown → String) (thrownAt caughtAt : String) (snap db : Db)
    (call : ServiceCall) : Option RpcError :=
  (call.throws eventOrder requestOrder snap db).map (Thrown.reply driver thrownAt caughtAt)

theorem thrown_transact {α : Type} {work : Except Thrown α} {err : Thrown}
    (h : thrown (transact work) = some err) :
    ∃ inner, work = .error inner ∧ err = .databaseRpcException inner := by
  cases work with
  | ok a => cases h
  | error inner =>
    cases h
    exact ⟨inner, rfl, rfl⟩

/-- Nothing leaves a transaction unwrapped. -/
theorem throws_transactional {call : ServiceCall} (hcall : call.transactional = true)
    {snap db : Db} {err : Thrown} (h : call.throws eventOrder requestOrder snap db = some err) :
    ∃ inner, err = .databaseRpcException inner := by
  have hwork : ∃ (α : Type) (work : Except Thrown α), thrown (transact work) = some err := by
    cases call with
    | write command =>
      cases command with
      | addReward dto newRuleId => exact ⟨_, _, h⟩
      | createRewardRequest eventId dto newId checkedAt requestedAt => exact ⟨_, _, h⟩
      | approveRewardRequest dto now savedAt => exact ⟨_, _, h⟩
      | createEvent dto newId validatedAt createdAt => cases hcall
      | updateStatus dto => cases hcall
      | createUserActivity dto newId now => cases hcall
    | getEventById eventId => cases hcall
    | paginateEvents filter => cases hcall
    | findByEventId eventId => cases hcall
    | paginateRewardRequests filter => cases hcall
  obtain ⟨α, work, hthrown⟩ := hwork
  obtain ⟨inner, -, herr⟩ := thrown_transact hthrown
  exact ⟨inner, herr⟩

/-- What an operation throws is what its body throws, wrapped by a transaction if there
is one. -/
theorem throws_of_bodyThrows {call : ServiceCall} {snap db : Db} {err : Thrown}
    (h : call.bodyThrows eventOrder requestOrder snap db = some err) :
    call.throws eventOrder requestOrder snap db =
      some (if call.transactional then .databaseRpcException err else err) := by
  unfold ServiceCall.bodyThrows at h
  cases hthrows : call.throws eventOrder requestOrder snap db with
  | none =>
    rw [hthrows] at h
    cases h
  | some outer =>
    rw [hthrows] at h
    cases hcall : call.transactional with
    | true =>
      obtain ⟨inner, rfl⟩ := throws_transactional eventOrder requestOrder hcall hthrows
      simp only [hcall, if_true, Option.some.injEq] at h
      simp [h]
    | false =>
      have hsame : some outer = some err := by
        rw [← h]
        split
        · next inner hinner =>
          cases hinner
          simp [hcall]
        · rfl
      simpa using hsame

/-- An `EventException` keeps its code and status on the way out exactly where the
operation does not run in a transaction. -/
theorem reply_carries_iff (driver : Thrown → String) (thrownAt caughtAt : String)
    (call : ServiceCall) (snap db : Db) (descriptor : ExceptionDescriptor)
    (h : call.bodyThrows eventOrder requestOrder snap db = some (.eventException descriptor)) :
    (∃ reply, call.reply eventOrder requestOrder driver thrownAt caughtAt snap db = some reply ∧
        reply.Carries descriptor) ↔ call.transactional = false := by
  have hreply : call.reply eventOrder requestOrder driver thrownAt caughtAt snap db =
      some ((if call.transactional then Thrown.databaseRpcException (.eventException descriptor)
        else .eventException descriptor).reply driver thrownAt caughtAt) := by
    rw [ServiceCall.reply, throws_of_bodyThrows eventOrder requestOrder h, Option.map_some]
  rw [hreply]
  cases call.transactional with
  | true =>
    rw [if_pos rfl, reply_databaseRpcException]
    simp [RpcError.Carries]
  | false =>
    rw [if_neg Bool.false_ne_true, reply_eventException]
    simp [RpcError.Carries, BaseRpcException]

end

/-- A lookup of an unknown event is told so. -/
theorem reply_carries_sample :
    ∃ reply, (ServiceCall.getEventById (ObjectId.ofDigit 1).toString).reply (fun _ _ _ => true)
        (fun _ _ _ => true) (fun _ => "") "" "" Db.empty Db.empty = some reply ∧
      reply.Carries (EventErrors .EVENT_NOT_FOUND) := by
  have hbody : (ServiceCall.getEventById (ObjectId.ofDigit 1).toString).bodyThrows
      (fun _ _ _ => true) (fun _ _ _ => true) Db.empty Db.empty =
      some (.eventException (EventErrors .EVENT_NOT_FOUND)) := by
    decide +kernel
  exact (reply_carries_iff _ _ (fun _ => "") "" "" _ Db.empty Db.empty _ hbody).mpr rfl

/-- A reward requested for an unknown event: the caller gets a bare message. -/
theorem wrapped_error_loses_its_code :
    (ServiceCall.write (.createRewardRequest (ObjectId.ofDigit 1).toString
        ⟨(ObjectId.ofDigit 2).toString⟩ (.ofDigit 3) 50 50)).bodyThrows (fun _ _ _ => true)
        (fun _ _ _ => true) Db.empty Db.empty =
      some (.eventException (EventErrors .EVENT_NOT_FOUND)) ∧
    ¬ ∃ reply, (ServiceCall.write (.createRewardRequest (ObjectId.ofDigit 1).toString
        ⟨(ObjectId.ofDigit 2).toString⟩ (.ofDigit 3) 50 50)).reply (fun _ _ _ => true)
        (fun _ _ _ => true) (fun _ => "") "" "" Db.empty Db.empty = some reply ∧
      reply.Carries (EventErrors .EVENT_NOT_FOUND) := by
  have hreply : (ServiceCall.write (.createRewardRequest (ObjectId.ofDigit 1).toString
      ⟨(ObjectId.ofDigit 2).toString⟩ (.ofDigit 3) 50 50)).reply (fun _ _ _ => true)
      (fun _ _ _ => true) (fun _ => "") "" "" Db.empty Db.empty =
      some (.text "해당 이벤트가 존재하지 않습니다.") := by
    decide +kernel
  refine ⟨by decide +kernel, ?_⟩
  rw [hreply]
  rintro ⟨reply, hsame, hcarries⟩
  cases hsame
  exact hcarries

end MapleRewards
