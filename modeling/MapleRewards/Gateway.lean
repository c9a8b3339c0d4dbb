import MapleRewards.Auth
import Mathlib.Logic.Encodable.Basic
import Mathlib.Logic.Equiv.List

/-!
# The gateway

The gateway checks the access tokens that the auth service signs: `JwtAuthGuard` verifies
a token and hands its payload to `JwtStrategy`, and `RolesGuard` reads the user that comes
back. Both run before every handler that requires roles.
-/
namespace MapleRewards

inductive GuardError where
  | unauthorized
  | forbidden : String → GuardError
  deriving DecidableEq

/-- The metadata that the decorators of a handler and of its class leave. -/
structure Route where
  isPublic : Bool
  handlerRoles : Option (List String)
  classRoles : Option (List String)

def Route.requiredRoles (route : Route) : Option (List String) :=
  route.handlerRoles.or route.classRoles

/-- A property that the payload lacks is undefined. -/
structure AuthenticatedUserDetails where
  userId : Option JwtValue
  email : Option JwtValue
  role : Option JwtValue
  deriving DecidableEq

def property (payload : JwtPayload) (name : String) : Option JwtValue :=
  (payload.find? fun p => p.1 == name).map Prod.snd

def JwtStrategy.validate (payload : JwtPayload) : AuthenticatedUserDetails where
  userId := property payload "sub"
  email := property payload "email"
  role := property payload "role"

/-- The user that the request carries afterwards. -/
def JwtAuthGuard.canActivate (env : AuthEnv) (route : Route) (token : String) (now : Int) :
    Except GuardError (Option AuthenticatedUserDetails) :=
  if route.isPublic then .ok none
  else
    match env.verify token now with
    | none => .error .unauthorized
    | some payload => .ok (some (JwtStrategy.validate payload))

def RolesGuard.canActivate (route : Route) (user : Option AuthenticatedUserDetails) :
    Except GuardError Bool :=
  match route.requiredRoles with
  | none => .ok true
  | some [] => .ok true
  | some requiredRoles =>
    match user with
    | none => .error (.forbidden "권한이 없습니다")
    | some user =>
      -- `includes` compares strictly, so only a string can be found
      if requiredRoles.any fun role => user.role == some (.str role) then .ok true
      else .error (.forbidden "권한이 없습니다")

/-- The guards of a handler on a request with a bearer token. -/
def authorize (env : AuthEnv) (route : Route) (token : String) (now : Int) :
    Except GuardError Bool :=
  match JwtAuthGuard.canActivate env route token now with
  | .error err => .error err
  | .ok user => RolesGuard.canActivate route user

/-! ## Access tokens -/

/-- The JWT library adds the claims `iat` and `exp`, in seconds, and returns the payload
with them until then. -/
structure AuthEnv.RoundTrips (env : AuthEnv) : Prop where
  verify_sign : ∀ payload mins signedAt now, (∀ p ∈ payload, p.1 ≠ "iat" ∧ p.1 ≠ "exp") →
    now / 1000 < signedAt / 1000 + mins * 60 →
    env.verify (env.sign payload mins signedAt) now =
      some (payload ++ [("iat", .num (signedAt / 1000)),
        ("exp", .num (signedAt / 1000 + mins * 60))])

def AuthEnv.Unexpired (env : AuthEnv) (signedAt now : Int) : Prop :=
  now / 1000 < signedAt / 1000 + env.accessExpiresMins * 60

/-- The access tokens that the auth service returns for a user. -/
inductive Minted (env : AuthEnv) (user : UserDocument) (signedAt : Int) : String → Prop where
  | login (db : AuthDb) (request : LoginRequestDto) (secret salt : String) (newId : ObjectId)
      (revokedAt issuedAt : Int) (response : LoginResponseDto)
      (huser : UserRepository.findByEmail db request.email = some user)
      (hok : (AuthService.login env db request secret salt newId revokedAt signedAt
        issuedAt).1 = .ok response) :
      Minted env user signedAt response.accessToken
  | refresh (db : AuthDb) (oldToken secret salt : String) (newId : ObjectId)
      (foundAt checkedAt issuedAt : Int) (old : RefreshTokenDocument)
      (response : RefreshTokenResponseDto)
      (hfound : RefreshTokensRepository.findByToken env db oldToken foundAt = some old)
      (huser : UserRepository.findById db old.userId = some user)
      (hok : (AuthService.refresh env db oldToken secret salt newId foundAt checkedAt signedAt
        issuedAt).1 = .ok response) :
      Minted env user signedAt response.accessToken

theorem login_accessToken {env : AuthEnv} {db : AuthDb} {request : LoginRequestDto}
    {secret salt : String} {newId : ObjectId} {revokedAt signedAt issuedAt : Int}
    {user : UserDocument} {response : LoginResponseDto}
    (huser : UserRepository.findByEmail db request.email = some user)
    (hok : (AuthService.login env db request secret salt newId revokedAt signedAt issuedAt).1 =
      .ok response) :
    response.accessToken =
      env.accessToken (tokenPayload user._id request.email user.roles) signedAt := by
  unfold AuthService.login at hok
  split at hok
  · cases hok
  · next found hcheck =>
    have hfound := checkCredentials_eq_ok hcheck
    cases huser.symm.trans hfound
    simp only at hok
    split at hok
    · cases hok
    · cases hok
      rfl

theorem refresh_accessToken {env : AuthEnv} {db : AuthDb} {oldToken secret salt : String}
    {newId : ObjectId} {foundAt checkedAt signedAt issuedAt : Int} {old : RefreshTokenDocument}
    {user : UserDocument} {response : RefreshTokenResponseDto}
    (hfound : RefreshTokensRepository.findByToken env db oldToken foundAt = some old)
    (huser : UserRepository.findById db old.userId = some user)
    (hok : (AuthService.refresh env db oldToken secret salt newId foundAt checkedAt signedAt
      issuedAt).1 = .ok response) :
    response.accessToken =
      env.accessToken (tokenPayload old.userId user.email user.roles) signedAt := by
  unfold AuthService.refresh at hok
  split at hok
  · cases hok
  · next row hcheck =>
    cases hfound.symm.trans (checkRefreshToken_eq_ok hcheck)
    simp only at hok
    split at hok
    · cases hok
    · next found hfind =>
      -- the revocation in between leaves the users alone
      have hsame : found = user := Option.some.inj (hfind.symm.trans huser)
      subst hsame
      split at hok
      · cases hok
      · cases hok
        rfl

theorem Minted.signed {env : AuthEnv} {user : UserDocument} {signedAt : Int} {token : String}
    (h : Minted env user signedAt token) :
    ∃ userId email, token = env.accessToken (tokenPayload userId email user.roles) signedAt := by
  cases h with
  | login db request secret salt newId revokedAt issuedAt response huser hok =>
    exact ⟨_, _, login_accessToken huser hok⟩
  | refresh db oldToken secret salt newId foundAt checkedAt issuedAt old response hfound huser
      hok =>
    exact ⟨_, _, refresh_accessToken hfound huser hok⟩

/-- The gateway finds the id and the email of the user in the payload, but no role. -/
theorem validate_tokenPayload (userId : ObjectId) (email : String) (roles : List String)
    (iat exp : Int) :
    JwtStrategy.validate (tokenPayload userId email roles ++ [("iat", .num iat), ("exp", .num exp)]) =
      ⟨some (.str userId.toString), some (.str email), none⟩ := by
  simp [JwtStrategy.validate, property, tokenPayload]

theorem verify_accessToken {env : AuthEnv} (henv : env.RoundTrips) (userId : ObjectId)
    (email : String) (roles : List String) {signedAt now : Int} (h : env.Unexpired signedAt now) :
    (env.verify (env.accessToken (tokenPayload userId email roles) signedAt) now).map
      JwtStrategy.validate = some ⟨some (.str userId.toString), some (.str email), none⟩ := by
  have hclaims : ∀ p ∈ tokenPayload userId email roles, p.1 ≠ "iat" ∧ p.1 ≠ "exp" := by
    simp [tokenPayload]
  rw [AuthEnv.accessToken, henv.verify_sign _ _ _ _ hclaims h, Option.map_some,
    validate_tokenPayload]

theorem rolesGuard_of_no_role {route : Route} {requiredRoles : List String}
    (hroute : route.requiredRoles = some requiredRoles) (hne : requiredRoles ≠ [])
    {user : Option AuthenticatedUserDetails} (huser : ∀ u, user = some u → u.role = none) :
    RolesGuard.canActivate route user = .error (.forbidden "권한이 없습니다") := by
  obtain ⟨role, roles, rfl⟩ := List.exists_cons_of_ne_nil hne
  cases user with
  | none => simp [RolesGuard.canActivate, hroute]
  | some u => simp [RolesGuard.canActivate, hroute, huser u rfl]

/-- No token of the auth service opens a handler that requires a role. -/
theorem authorize_minted {env : AuthEnv} (henv : env.RoundTrips) {route : Route}
    {requiredRoles : List String} (hroute : route.requiredRoles = some requiredRoles)
    (hne : requiredRoles ≠ []) {user : UserDocument} {token : String} {signedAt now : Int}
    (hminted : Minted env user signedAt token) (hunexpired : env.Unexpired signedAt now) :
    authorize env route token now = .error (.forbidden "권한이 없습니다") := by
  obtain ⟨userId, email, rfl⟩ := hminted.signed
  have hvalid := verify_accessToken henv userId email user.roles hunexpired
  obtain ⟨payload, hverify, hdetails⟩ := Option.map_eq_some_iff.mp hvalid
  unfold authorize JwtAuthGuard.canActivate
  rw [hverify]
  cases route.isPublic with
  | true => exact rolesGuard_of_no_role hroute hne (by simp)
  | false =>
    apply rolesGuard_of_no_role hroute hne
    intro u hu
    cases hu
    rw [hdetails]

/-- A user passes the guards of a handler exactly when the handler requires one of the
user's roles: this holds for those users only who have none of them. -/
theorem roles_decide_iff {env : AuthEnv} (henv : env.RoundTrips) {route : Route}
    {requiredRoles : List String} (hroute : route.requiredRoles = some requiredRoles)
    (hne : requiredRoles ≠ []) {user : UserDocument} {token : String} {signedAt now : Int}
    (hminted : Minted env user signedAt token) (hunexpired : env.Unexpired signedAt now) :
    (authorize env route token now = .ok true ↔ ∃ role ∈ user.roles, role ∈ requiredRoles) ↔
      ¬∃ role ∈ user.roles, role ∈ requiredRoles := by
  have hrefused := authorize_minted henv hroute hne hminted hunexpired
  have hno : ¬authorize env route token now = .ok true := by
    rw [hrefused]
    intro h
    cases h
  constructor
  · intro hiff hcommon
    exact hno (hiff.mpr hcommon)
  · intro hnone
    exact iff_of_false hno hnone

namespace SampleJwt

instance encodableChar : Encodable Char :=
  Encodable.ofLeftInverse Char.toNat Char.ofNat Char.ofNat_toNat

instance encodableString : Encodable String :=
  Encodable.ofLeftInverse String.toList String.ofList fun s => by simp

instance encodableJwtValue : Encodable JwtValue :=
  Encodable.ofLeftInverse
    (fun
      | .str s => Sum.inl s
      | .strs roles => Sum.inr (Sum.inl roles)
      | .num n => Sum.inr (Sum.inr n))
    (fun
      | .inl s => .str s
      | .inr (.inl roles) => .strs roles
      | .inr (.inr n) => .num n)
    (by
      intro value
      cases value <;> rfl)

/-- A token spells the number of its content in unary. -/
def env : AuthEnv :=
  { SampleAuth.env with
    sign := fun payload mins signedAt =>
      String.ofList (List.replicate (Encodable.encode (payload, mins, signedAt)) '1')
    verify := fun token now =>
      (Encodable.decode token.length : Option (JwtPayload × Int × Int)).bind fun content =>
        if now / 1000 < content.2.2 / 1000 + content.2.1 * 60 then
          some (content.1 ++ [("iat", .num (content.2.2 / 1000)),
            ("exp", .num (content.2.2 / 1000 + content.2.1 * 60))])
        else none }

theorem env_roundTrips : env.RoundTrips where
  verify_sign := by
    intro payload mins signedAt now _ hnow
    simp only [env, String.length_ofList, List.length_replicate, Encodable.encodek,
      Option.bind_some, hnow, if_true]

def route : Route := ⟨false, some ["USER"], none⟩

def db : AuthDb := ⟨[SampleAuth.user], []⟩

def token : String :=
  env.accessToken (tokenPayload SampleAuth.userId "a@maple.kr" ["USER"]) 0

theorem token_minted : Minted env SampleAuth.user 0 token :=
  .login db ⟨"a@maple.kr", "pw"⟩ "one" "salt" SampleAuth.firstId 0 0 ⟨token, "one"⟩ rfl rfl

end SampleJwt

theorem roles_decide_iff_sample :
    (authorize SampleJwt.env SampleJwt.route SampleJwt.token 1000 = .ok true ↔
        ∃ role ∈ SampleAuth.user.roles, role ∈ ["USER"]) ↔
      ¬∃ role ∈ SampleAuth.user.roles, role ∈ ["USER"] :=
  roles_decide_iff SampleJwt.env_roundTrips rfl (by simp) SampleJwt.token_minted
    (by simp [AuthEnv.Unexpired, SampleJwt.env, SampleAuth.env])

/-- A user with the role USER is refused by a handler for users. -/
theorem user_locked_out :
    ¬(authorize SampleJwt.env SampleJwt.route SampleJwt.token 1000 = .ok true ↔
      ∃ role ∈ SampleAuth.user.roles, role ∈ ["USER"]) := by
  intro hiff
  have hrefused : authorize SampleJwt.env SampleJwt.route SampleJwt.token 1000 =
      .error (.forbidden "권한이 없습니다") :=
    authorize_minted SampleJwt.env_roundTrips rfl (by simp) SampleJwt.token_minted
      (by simp [AuthEnv.Unexpired, SampleJwt.env, SampleAuth.env])
  rw [hiff.mpr ⟨"USER", by simp [SampleAuth.user], by simp⟩] at hrefused
  cases hrefused

end MapleRewards
