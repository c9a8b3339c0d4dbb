import MapleRewards.ObjectId
import MapleRewards.Errors
import MapleRewards.Lib.Collection

/-!
# Signup, login and refresh

`PasswordUtil` and the JWT library are parameters. An operation is given the ids and
secrets it generates and one clock reading for each time it looks at the clock. It
runs without a transaction, so it returns the store it leaves behind also when it
throws.
-/
namespace MapleRewards

open Collection

/-! ## Tokens -/

inductive JwtValue where
  | str : String → JwtValue
  | strs : List String → JwtValue
  | num : Int → JwtValue
  deriving DecidableEq

/-- The own properties of the payload object. -/
abbrev JwtPayload := List (String × JwtValue)

/-- `hash plain salt` is the bcrypt hash made with a generated salt; `sign payload mins now`
a token that expires `mins` minutes after `now`; `verify token now` the payload it carries. -/
structure AuthEnv where
  hash : String → String → String
  compare : String → String → Bool
  sign : JwtPayload → Int → Int → String
  verify : String → Int → Option JwtPayload
  accessExpiresMins : Int
  refreshExpiresDays : Int

/-! ## Documents -/

structure UserDocument where
  _id : ObjectId
  email : String
  passwordHash : String
  name : String
  roles : List String
  deriving DecidableEq

structure RefreshTokenDocument where
  _id : ObjectId
  userId : ObjectId
  tokenHash : String
  issuedAt : Int
  expiresAt : Int
  revoked : Bool
  deriving DecidableEq

structure AuthDb where
  users : List UserDocument
  tokens : List RefreshTokenDocument
  deriving DecidableEq

/-! ## Repositories -/

def UserRepository.findByEmail (db : AuthDb) (email : String) : Option UserDocument :=
  db.users.find? fun user => user.email == email

def UserRepository.findById (db : AuthDb) (userId : ObjectId) : Option UserDocument :=
  db.users.find? fun user => user._id == userId

def UserRepository.existsByEmail (db : AuthDb) (email : String) : Bool :=
  db.users.any fun user => user.email == email

/-- `save()` of a new user: mongoose refuses an empty string where one is required, and the
store a second user with the id or the email of a stored one. -/
def UserRepository.create (db : AuthDb) (user : UserDocument) : Except Thrown AuthDb :=
  if user.email == "" || user.passwordHash == "" || user.name == "" then .error .validationError
  else if db.users.any fun u => u._id == user._id || u.email == user.email then
    .error .duplicateKeyError
  else .ok { db with users := db.users ++ [user] }

theorem createUser_eq_ok {db db' : AuthDb} {user : UserDocument}
    (h : UserRepository.create db user = .ok db') :
    (∀ u ∈ db.users, u.email ≠ user.email) ∧ db' = { db with users := db.users ++ [user] } := by
  unfold UserRepository.create at h
  split at h
  · cases h
  · split at h
    · cases h
    · next hfree =>
      cases h
      refine ⟨?_, rfl⟩
      intro u hu hemail
      apply hfree
      rw [List.any_eq_true]
      exact ⟨u, hu, by simp [hemail]⟩

/-- Stored, not revoked and not expired: what the query of `findByToken` selects. -/
def RefreshTokenDocument.usable (now : Int) (row : RefreshTokenDocument) : Bool :=
  !row.revoked && decide (now < row.expiresAt)

theorem usable_eq_true {now : Int} {row : RefreshTokenDocument} :
    row.usable now = true ↔ row.revoked = false ∧ now < row.expiresAt := by
  simp [RefreshTokenDocument.usable]

def RefreshTokensRepository.findByToken (env : AuthEnv) (db : AuthDb) (token : String) (now : Int) :
    Option RefreshTokenDocument :=
  (db.tokens.filter fun row => row.usable now).find? fun row => env.compare token row.tokenHash

theorem findByToken_eq_some {env : AuthEnv} {db : AuthDb} {token : String} {now : Int}
    {row : RefreshTokenDocument}
    (h : RefreshTokensRepository.findByToken env db token now = some row) :
    row ∈ db.tokens ∧ row.usable now = true :=
  List.mem_filter.mp (List.mem_of_find?_eq_some h)

def RefreshTokensRepository.revoke (db : AuthDb) (id : ObjectId) : AuthDb :=
  { db with
    tokens := updateFirst (fun row => row._id == id) (fun row => { row with revoked := true })
      db.tokens }

def RefreshTokensRepository.revokeAllByUser (db : AuthDb) (userId : ObjectId) (now : Int) :
    AuthDb :=
  { db with
    tokens := db.tokens.map fun row =>
      if row.userId == userId && row.usable now then { row with revoked := true } else row }

def RefreshTokensRepository.create (db : AuthDb) (row : RefreshTokenDocument) :
    Except Thrown AuthDb :=
  if db.tokens.any fun r => r._id == row._id then .error .duplicateKeyError
  else .ok { db with tokens := db.tokens ++ [row] }

theorem create_eq_ok {db db' : AuthDb} {row : RefreshTokenDocument} :
    RefreshTokensRepository.create db row = .ok db' ↔
      (∀ r ∈ db.tokens, r._id ≠ row._id) ∧ db' = { db with tokens := db.tokens ++ [row] } := by
  unfold RefreshTokensRepository.create
  by_cases h : (db.tokens.any fun r => r._id == row._id) = true
  · simp only [h, if_true, reduceCtorEq, false_iff, not_and]
    obtain ⟨r, hr, hid⟩ := List.any_eq_true.mp h
    intro hfresh
    exact absurd (by simpa using hid) (hfresh r hr)
  · have hfresh : ∀ r ∈ db.tokens, r._id ≠ row._id := by simpa using h
    simp only [h]
    constructor
    · intro heq
      cases heq
      exact ⟨hfresh, rfl⟩
    · rintro ⟨-, rfl⟩
      rfl

/-! ## `AuthService` -/

structure SignUpRequestDto where
  email : String
  password : String
  name : String

/-- The length that `@MinLength` looks at: variation selectors do not count. -/
def isLength (s : String) : Nat :=
  (s.toList.filter fun c => c.toNat != 0xFE0E && c.toNat != 0xFE0F).length

/-- The validators of the request; `isEmail` is the one of the validator package. -/
def SignUpRequestDto.valid (isEmail : String → Bool) (request : SignUpRequestDto) : Bool :=
  isEmail request.email && decide (6 ≤ isLength request.password) &&
    decide (2 ≤ isLength request.name)

structure SignUpResponseDto where
  id : String
  email : String
  name : String
  deriving DecidableEq

structure LoginRequestDto where
  email : String
  password : String

structure LoginResponseDto where
  accessToken : String
  refreshToken : String
  deriving DecidableEq

structure RefreshTokenResponseDto where
  accessToken : String
  deriving DecidableEq

def tokenPayload (userId : ObjectId) (email : String) (roles : List String) : JwtPayload :=
  [("sub", .str userId.toString), ("email", .str email), ("roles", .strs roles)]

def AuthEnv.accessToken (env : AuthEnv) (payload : JwtPayload) (now : Int) : String :=
  env.sign payload env.accessExpiresMins now

/-- The document of a new refresh token; `revoked` and `issuedAt` take their defaults. -/
def AuthEnv.refreshRow (env : AuthEnv) (newId userId : ObjectId) (secret salt : String)
    (now : Int) : RefreshTokenDocument :=
  ⟨newId, userId, env.hash secret salt, now, now + env.refreshExpiresDays * 24 * 3600 * 1000, false⟩

/-- `randomBytes(64).toString('hex')` -/
def randomTokenString (bytes : Vector UInt8 64) : String :=
  String.ofList (bytes.toList.flatMap fun b =>
    [hexDigits.getD (b.toNat / 16) '0', hexDigits.getD (b.toNat % 16) '0'])

def AuthService.signup (env : AuthEnv) (db : AuthDb) (request : SignUpRequestDto) (salt : String)
    (newId : ObjectId) : Except Thrown SignUpResponseDto × AuthDb :=
  if UserRepository.existsByEmail db request.email then (throwAuth .EMAIL_ALREADY_EXISTS, db)
  else
    match UserRepository.create db
      ⟨newId, request.email, env.hash request.password salt, request.name, ["USER"]⟩ with
    | .error err => (.error err, db)
    | .ok db => (.ok ⟨newId.toString, request.email, request.name⟩, db)

/-- The two checks of `login` on what `findByEmail` returned. -/
def checkCredentials (env : AuthEnv) (found : Option UserDocument) (password : String) :
    Except Thrown UserDocument :=
  match found with
  | none => throwAuth .INVALID_CREDENTIALS
  | some user =>
    if !env.compare password user.passwordHash then throwAuth .INVALID_CREDENTIALS else .ok user

theorem checkCredentials_eq_ok {env : AuthEnv} {found : Option UserDocument} {password : String}
    {user : UserDocument} (h : checkCredentials env found password = .ok user) :
    found = some user := by
  cases found with
  | none => cases h
  | some u =>
    simp only [checkCredentials] at h
    split at h
    · cases h
    · cases h
      rfl

def AuthService.login (env : AuthEnv) (db : AuthDb) (request : LoginRequestDto)
    (secret salt : String) (newId : ObjectId) (revokedAt signedAt issuedAt : Int) :
    Except Thrown LoginResponseDto × AuthDb :=
  match checkCredentials env (UserRepository.findByEmail db request.email) request.password with
  | .error err => (.error err, db)
  | .ok user =>
    let db := RefreshTokensRepository.revokeAllByUser db user._id revokedAt
    let accessToken := env.accessToken (tokenPayload user._id request.email user.roles) signedAt
    match RefreshTokensRepository.create db (env.refreshRow newId user._id secret salt issuedAt) with
    | .error err => (.error err, db)
    | .ok db => (.ok ⟨accessToken, secret⟩, db)

/-- The check of `refresh` on what `findByToken` returned. -/
def checkRefreshToken (found : Option RefreshTokenDocument) (now : Int) :
    Except Thrown RefreshTokenDocument :=
  match found with
  | none => throwAuth .INVALID_REFRESH_TOKEN
  | some row =>
    if row.revoked || decide (row.expiresAt < now) then throwAuth .INVALID_REFRESH_TOKEN
    else .ok row

theorem checkRefreshToken_eq_ok {found : Option RefreshTokenDocument} {now : Int}
    {row : RefreshTokenDocument} (h : checkRefreshToken found now = .ok row) :
    found = some row := by
  cases found with
  | none => cases h
  | some r =>
    simp only [checkRefreshToken] at h
    split at h
    · cases h
    · cases h
      rfl

def AuthService.refresh (env : AuthEnv) (db : AuthDb) (oldToken secret salt : String)
    (newId : ObjectId) (foundAt checkedAt signedAt issuedAt : Int) :
    Except Thrown RefreshTokenResponseDto × AuthDb :=
  match checkRefreshToken (RefreshTokensRepository.findByToken env db oldToken foundAt) checkedAt with
  | .error err => (.error err, db)
  | .ok row =>
    let db := RefreshTokensRepository.revoke db row._id
    match UserRepository.findById db row.userId with
    | none => (throwAuth .USER_NOT_FOUND, db)
    | some user =>
      let accessToken := env.accessToken (tokenPayload row.userId user.email user.roles) signedAt
      match RefreshTokensRepository.create db
        (env.refreshRow newId row.userId secret salt issuedAt) with
      | .error err => (.error err, db)
      | .ok db => (.ok ⟨accessToken⟩, db)

/-! ## One user -/

namespace SampleAuth

def userId : ObjectId := ObjectId.ofDigit 1
def firstId : ObjectId := ObjectId.ofDigit 10
def secondId : ObjectId := ObjectId.ofDigit 11
def thirdId : ObjectId := ObjectId.ofDigit 12

/-- Hashing keeps the secret as it is. -/
def env : AuthEnv where
  hash plain _ := plain
  compare plain hashed := plain == hashed
  sign _ _ _ := "signed"
  verify _ _ := none
  accessExpiresMins := 15
  refreshExpiresDays := 7

def user : UserDocument := ⟨userId, "a@maple.kr", "pw", "A", ["USER"]⟩

end SampleAuth

end MapleRewards
