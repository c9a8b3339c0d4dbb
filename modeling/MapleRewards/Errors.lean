/-!
# Errors of the services

Every `EventException` is built from a descriptor of the table `EventErrors`, every
`AuthException` from one of `AuthErrors`. What else an operation can throw comes from
the drivers under it: an id that does not parse, a document that fails schema
validation, a duplicate key of a unique index, a lost connection; or from the
language: a property of `null`.
-/
namespace MapleRewards

structure ExceptionDescriptor where
  errorCode : String
  statusCode : Nat
  message : String
  deriving DecidableEq, Repr

inductive EventErrorCode where
  | EVENT_NOT_FOUND
  | INVALID_EVENT_STATUS
  | INVALID_EVENT_PERIOD
  | NOT_ENOUGH_POINTS
  | REWARD_ALREADY_CLAIMED
  | DUPLICATED_EVENT
  | REWARDS_NOT_FOUND
  | REWARD_REQUESTS_CONDITION_NOT_MET
  | UNSUPPORTED_RULE_TYPE
  | REWARD_RULE_NOT_FOUND
  | INVALID_RULE_CONFIG
  | REWARD_ADDITION_FAILED
  | USER_ACTIVITY_NOT_FOUND
  | EVENT_OUT_OF_PERIOD
  | EVENT_INACTIVE
  | REWARD_REQUEST_NOT_FOUND
  | REWARD_ALREADY_APPROVED
  | REWARD_REQUEST_STATUS_NOT_PENDING
  deriving DecidableEq, Repr

def EventErrorCode.value : EventErrorCode → String
  | .EVENT_NOT_FOUND => "EVENT_0001"
  | .INVALID_EVENT_STATUS => "EVENT_0002"
  | .INVALID_EVENT_PERIOD => "EVENT_0003"
  | .NOT_ENOUGH_POINTS => "EVENT_0004"
  | .REWARD_ALREADY_CLAIMED => "EVENT_0005"
  | .DUPLICATED_EVENT => "EVENT_0006"
  | .REWARDS_NOT_FOUND => "EVENT_0009"
  | .REWARD_REQUESTS_CONDITION_NOT_MET => "EVENT_0010"
  | .UNSUPPORTED_RULE_TYPE => "EVENT_0011"
  | .REWARD_RULE_NOT_FOUND => "EVENT_0012"
  | .INVALID_RULE_CONFIG => "EVENT_0013"
  | .REWARD_ADDITION_FAILED => "EVENT_0014"
  | .USER_ACTIVITY_NOT_FOUND => "EVENT_0015"
  | .EVENT_OUT_OF_PERIOD => "EVENT_0016"
  | .EVENT_INACTIVE => "EVENT_0017"
  | .REWARD_REQUEST_NOT_FOUND => "EVENT_0018"
  | .REWARD_ALREADY_APPROVED => "EVENT_0019"
  | .REWARD_REQUEST_STATUS_NOT_PENDING => "EVENT_0020"

def EventErrors (code : EventErrorCode) : ExceptionDescriptor :=
  match code with
  | .EVENT_NOT_FOUND => ⟨code.value, 404, "해당 이벤트가 존재하지 않습니다."⟩
  | .INVALID_EVENT_STATUS => ⟨code.value, 400, "이벤트 상태가 올바르지 않습니다."⟩
  | .INVALID_EVENT_PERIOD => ⟨code.value, 400, "이벤트 기간이 아닙니다."⟩
  | .NOT_ENOUGH_POINTS => ⟨code.value, 400, "포인트가 부족합니다."⟩
  | .REWARD_ALREADY_CLAIMED => ⟨code.value, 409, "이미 보상을 받았습니다."⟩
  | .DUPLICATED_EVENT => ⟨code.value, 409, "이미 존재하는 이벤트입니다."⟩
  | .REWARDS_NOT_FOUND => ⟨code.value, 404, "보상이 존재하지 않습니다."⟩
  | .REWARD_REQUESTS_CONDITION_NOT_MET => ⟨code.value, 400, "이벤트 조건을 충족하지 않습니다."⟩
  | .UNSUPPORTED_RULE_TYPE => ⟨code.value, 400, "지원하지 않는 규칙 타입입니다."⟩
  | .REWARD_RULE_NOT_FOUND => ⟨code.value, 404, "보상 규칙이 존재하지 않습니다."⟩
  | .INVALID_RULE_CONFIG => ⟨code.value, 400, "규칙 설정이 올바르지 않습니다."⟩
  | .REWARD_ADDITION_FAILED => ⟨code.value, 400, "보상 추가에 실패했습니다."⟩
  | .USER_ACTIVITY_NOT_FOUND => ⟨code.value, 404, "사용자 활동 데이터가 존재하지 않습니다."⟩
  | .EVENT_OUT_OF_PERIOD => ⟨code.value, 400, "이벤트 기간이 아닙니다."⟩
  | .EVENT_INACTIVE => ⟨code.value, 400, "이벤트가 비활성화 상태입니다."⟩
  | .REWARD_REQUEST_NOT_FOUND => ⟨code.value, 404, "보상 지급 요청이 존재하지 않습니다."⟩
  | .REWARD_ALREADY_APPROVED => ⟨code.value, 409, "이미 승인된 보상 지급 요청입니다."⟩
  | .REWARD_REQUEST_STATUS_NOT_PENDING =>
    ⟨code.value, 400, "보상 지급 요청 상태가 승인 대기가 아닙니다."⟩

/-- Every descriptor carries its own code. -/
theorem EventErrors_errorCode (code : EventErrorCode) :
    (EventErrors code).errorCode = code.value := by
  cases code <;> rfl

theorem EventErrorCode.value_injective {a b : EventErrorCode} (h : a.value = b.value) : a = b := by
  cases a <;> cases b <;> first | rfl | exact absurd h (by decide)

inductive AuthErrorCode where
  | INVALID_CREDENTIALS
  | INVALID_REFRESH_TOKEN
  | USER_NOT_FOUND
  | ACCESS_DENIED
  | EMAIL_ALREADY_EXISTS
  deriving DecidableEq, Repr

def AuthErrorCode.value : AuthErrorCode → String
  | .INVALID_CREDENTIALS => "AUTH_0001"
  | .INVALID_REFRESH_TOKEN => "AUTH_0002"
  | .USER_NOT_FOUND => "AUTH_0003"
  | .ACCESS_DENIED => "AUTH_0004"
  | .EMAIL_ALREADY_EXISTS => "AUTH_0005"

def AuthErrors (code : AuthErrorCode) : ExceptionDescriptor :=
  match code with
  | .INVALID_CREDENTIALS => ⟨code.value, 401, "아이디 또는 비밀번호가 올바르지 않습니다."⟩
  | .INVALID_REFRESH_TOKEN => ⟨code.value, 401, "유효하지 않은 토큰입니다."⟩
  | .USER_NOT_FOUND => ⟨code.value, 404, "사용자를 찾을 수 없습니다."⟩
  | .ACCESS_DENIED => ⟨code.value, 403, "접근 권한이 없습니다."⟩
  | .EMAIL_ALREADY_EXISTS => ⟨code.value, 409, "이미 사용 중인 이메일입니다."⟩

theorem AuthErrors_errorCode (code : AuthErrorCode) : (AuthErrors code).errorCode = code.value := by
  cases code <;> rfl

inductive Thrown where
  | eventException : ExceptionDescriptor → Thrown
  | authException : ExceptionDescriptor → Thrown
  | bsonError : Thrown
  | castError : Thrown
  | validationError : Thrown
  | duplicateKeyError : Thrown
  | documentNotFoundError : Thrown
  | connectionError : Thrown
  | typeError : Thrown
  | databaseRpcException : Thrown → Thrown
  deriving DecidableEq, Repr

/-- Take a computation that may throw apart at its first step. -/
theorem bind_eq_ok {α β : Type} {x : Except Thrown α} {f : α → Except Thrown β} {b : β}
    (h : (x >>= f) = .ok b) : ∃ a, x = .ok a ∧ f a = .ok b := by
  cases x with
  | error err => cases h
  | ok a => exact ⟨a, rfl, h⟩

/-- `throw new EventException(EventErrors[code])` -/
def throwEvent {α : Type} (code : EventErrorCode) : Except Thrown α :=
  .error (.eventException (EventErrors code))

/-- `throw new AuthException(AuthErrors[code])` -/
def throwAuth {α : Type} (code : AuthErrorCode) : Except Thrown α :=
  .error (.authException (AuthErrors code))

/-- `TransactionHelper.transact`: whatever the work throws leaves it wrapped. -/
def transact {α : Type} (work : Except Thrown α) : Except Thrown α :=
  match work with
  | .ok a => .ok a
  | .error err => .error (.databaseRpcException err)

@[simp] theorem transact_eq_ok {α : Type} {work : Except Thrown α} {a : α} :
    transact work = .ok a ↔ work = .ok a := by
  cases work <;> simp [transact]

end MapleRewards
