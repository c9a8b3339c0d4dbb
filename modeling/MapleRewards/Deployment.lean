import MapleRewards.Gateway
import MapleRewards.Messages
import MapleRewards.TokenProvenance

/-!
# The services behind the gateway

Clients reach the services through the routes of the gateway. `JwtAuthGuard` guards every
handler, `RolesGuard` those of the reward controllers and the creation of events; what the
guards let through goes through the validation pipe and then to the controller.
-/
namespace MapleRewards

open Processes LabelledRuns

variable {κ : Type}

/-! ## Routes -/

inductive Role where
  | USER
  | OPERATOR
  | AUDITOR
  | ADMIN

def Role.value : Role → String
  | .USER => "USER"
  | .OPERATOR => "OPERATOR"
  | .AUDITOR => "AUDITOR"
  | .ADMIN => "ADMIN"

/-- A controller method with what the request brings for it. -/
inductive ControllerCall where
  | signup (request : SignUpRequestDto)
  | login (request : LoginRequestDto)
  | findAll (queryParams : List (String × String))
  | findOne (id : String)
  | create (request : Payload)
  | findAllRewards
  | createReward (dto : Payload)
  | requestReward (eventId : String)
  | findMine (queryParams : List (String × String))
  | findAllByEvent (eventId : String) (query : List (String × String))
  | approveRewardRequest (eventId rewardRequestId : String)

def requires (roles : List Role) : Route := ⟨false, some (roles.map Role.value), none⟩

def ControllerCall.route : ControllerCall → Route
  | .signup _ => ⟨true, none, none⟩
  | .login _ => ⟨true, none, none⟩
  | .findAll _ => ⟨false, none, none⟩
  | .findOne _ => ⟨false, none, none⟩
  | .create _ => requires [.OPERATOR, .ADMIN]
  | .findAllRewards => requires [.OPERATOR, .ADMIN]
  | .createReward _ => requires [.OPERATOR, .ADMIN]
  | .requestReward _ => requires [.USER, .ADMIN]
  | .findMine _ => requires [.USER]
  | .findAllByEvent _ _ => requires [.OPERATOR, .AUDITOR, .ADMIN]
  | .approveRewardRequest _ _ => requires [.OPERATOR, .AUDITOR, .ADMIN]

structure HttpRequest where
  bearer : Option String
  call : ControllerCall

/-! ## Guards and pipe -/

/-- The guards on a request with or without a bearer token. -/
def authorizeBearer (env : AuthEnv) (route : Route) (bearer : Option String) (now : Int) :
    Except GuardError Bool :=
  match bearer with
  | some token => authorize env route token now
  | none => if route.isPublic then RolesGuard.canActivate route none else .error .unauthorized

/-- What the validator package makes of strings, and of the classes whose objects are looked
at by nobody here. -/
structure Validators where
  isEmail : String → Bool
  isUUID : String → Bool
  eventGetQuery : List (String × String) → Bool
  eventCreateRequest : Payload → Bool

def LoginRequestDto.valid (isEmail : String → Bool) (request : LoginRequestDto) : Bool :=
  isEmail request.email && request.email != "" && request.password != ""

/-- `@IsUUID()` refuses what is no string. -/
def EventParamDto.valid (isUUID : String → Bool) (params : List (String × String)) : Bool :=
  (params.lookup "eventId").any isUUID

/-- The checks of the validation pipe. The other classes have no validators. -/
def ControllerCall.valid (validators : Validators) : ControllerCall → Bool
  | .signup request => request.valid validators.isEmail
  | .login request => request.valid validators.isEmail
  | .findAll queryParams => validators.eventGetQuery queryParams
  | .findOne id => EventParamDto.valid validators.isUUID [("id", id)]
  | .create request => validators.eventCreateRequest request
  | _ => true

inductive Refusal where
  | guarded (err : GuardError)
  | badRequest

/-- The controller method that a request gets to. -/
def dispatch (env : AuthEnv) (validators : Validators) (request : HttpRequest) (now : Int) :
    Except Refusal ControllerCall :=
  match authorizeBearer env request.call.route request.bearer now with
  | .error err => .error (.guarded err)
  | .ok _ => if request.call.valid validators then .ok request.call else .error .badRequest

/-! ## The deployment -/

structure Deployment (κ : Type) where
  accounts : AccountState κ
  events : Db

/-- `after` is the event store that a message to the event service would leave. -/
inductive DeploymentMove (κ : Type) where
  | http (c : κ) (request : HttpRequest) (after : Db)
  | auth (move : AccountMove κ)

def AccountInput.begins : AccountInput → Bool
  | .signup _ => true
  | .session (.login _) => true
  | .session (.refresh _) => true
  | _ => false

/-- Calls of the auth service begin with a message of the gateway. A message to the event
service other than a list of events may do anything to its store. -/
def deploymentStep [DecidableEq κ] (env : AuthEnv) (validators : Validators) (s : Deployment κ) :
    DeploymentMove κ → Option (Deployment κ)
  | .http c request after =>
    match dispatch env validators request s.accounts.shared.now with
    | .error _ => some s
    | .ok (.signup body) =>
      (accountStep env s.accounts (.act c (.signup body))).map fun a => { s with accounts := a }
    | .ok (.login body) =>
      (accountStep env s.accounts (.act c (.session (.login body)))).map fun a =>
        { s with accounts := a }
    | .ok (.findAll _) => some s
    | .ok _ => some { s with events := after }
  | .auth (.act c input) =>
    if input.begins then none
    else (accountStep env s.accounts (.act c input)).map fun a => { s with accounts := a }
  | .auth (.env elapsed) =>
    (accountStep env s.accounts (.env elapsed)).map fun a => { s with accounts := a }

def deployed (now : Int) (events : Db) : Deployment κ := ⟨accountInitial now, events⟩

/-- A response of the auth service has carried the token. -/
def Deployment.HandedOut (s : Deployment κ) (token : String) : Prop :=
  ∃ c, (∃ response, s.accounts.locals c = .session (.done (.ok (.login response))) ∧
      response.accessToken = token) ∨
    ∃ response, s.accounts.locals c = .session (.done (.ok (.refresh response))) ∧
      response.accessToken = token

/-- Nobody presents a valid token that the auth service has not handed out. -/
def HttpRequest.Unforged (env : AuthEnv) (s : Deployment κ) (request : HttpRequest) : Prop :=
  ∀ token payload, request.bearer = some token →
    env.verify token s.accounts.shared.now = some payload → s.HandedOut token

def DeploymentMove.Unforged (env : AuthEnv) (s : Deployment κ) : DeploymentMove κ → Prop
  | .http _ request _ => request.Unforged env s
  | .auth _ => True

/-- The JWT library does not verify a token from its `exp` on. -/
structure AuthEnv.Expires (env : AuthEnv) : Prop where
  verify_sign : ∀ payload mins signedAt now, signedAt / 1000 + mins * 60 ≤ now / 1000 →
    env.verify (env.sign payload mins signedAt) now = none

/-! ## What a token opens -/

section Tokens

variable {env : AuthEnv} {now : Int}

/-- The payload of a token of the auth service has no property `role`. -/
theorem role_of_accessToken (hjwt : env.RoundTrips) (hexpires : env.Expires) {userId : ObjectId}
    {email : String} {roles : List String} {signedAt : Int} {payload : JwtPayload}
    (h : env.verify (env.accessToken (tokenPayload userId email roles) signedAt) now =
      some payload) : (JwtStrategy.validate payload).role = none := by
  by_cases hlive : env.Unexpired signedAt now
  · have hvalid := verify_accessToken hjwt userId email roles hlive
    rw [h, Option.map_some, Option.some.injEq] at hvalid
    rw [hvalid]
  · have hnone := hexpires.verify_sign (tokenPayload userId email roles) env.accessExpiresMins
      signedAt now (Int.not_lt.mp hlive)
    rw [AuthEnv.accessToken, hnone] at h
    cases h

theorem AccountsSound.handedOut {moves : List (AccountMove κ)} {s : Deployment κ}
    (h : AccountsSound env moves s.accounts) {token : String} (htoken : s.HandedOut token) :
    MintedFor env moves s.accounts.shared.db token := by
  obtain ⟨c, ⟨response, hc, rfl⟩ | ⟨response, hc, rfl⟩⟩ := htoken
  · have hcall := h.calls c
    rw [hc] at hcall
    exact hcall
  · have hcall := h.calls c
    rw [hc] at hcall
    exact hcall

/-- Without a `role` in its payload a request is stopped where roles are required. -/
theorem authorizeBearer_refuses {route : Route} {requiredRoles : List String}
    (hroute : route.requiredRoles = some requiredRoles) (hne : requiredRoles ≠ [])
    {bearer : Option String} (hrole : ∀ token payload, bearer = some token →
      env.verify token now = some payload → (JwtStrategy.validate payload).role = none) :
    ∃ err, authorizeBearer env route bearer now = .error err := by
  cases bearer with
  | none =>
    simp only [authorizeBearer]
    split
    · exact ⟨_, rolesGuard_of_no_role hroute hne (by simp)⟩
    · exact ⟨_, rfl⟩
  | some token =>
    simp only [authorizeBearer, authorize, JwtAuthGuard.canActivate]
    cases route.isPublic with
    | true => exact ⟨_, rolesGuard_of_no_role hroute hne (by simp)⟩
    | false =>
      cases hverify : env.verify token now with
      | none => exact ⟨_, rfl⟩
      | some payload =>
        refine ⟨_, rolesGuard_of_no_role hroute hne ?_⟩
        intro user huser
        cases huser
        exact hrole token payload rfl hverify

/-- What such a request gets to. -/
theorem dispatch_roleless {validators : Validators} {request : HttpRequest} {call : ControllerCall}
    (hrole : ∀ token payload, request.bearer = some token →
      env.verify token now = some payload → (JwtStrategy.validate payload).role = none)
    (h : dispatch env validators request now = .ok call) :
    (∃ body, call = .signup body) ∨ (∃ body, call = .login body) ∨
      ∃ queryParams, call = .findAll queryParams := by
  have hroles : ∀ roles : List Role, roles ≠ [] → request.call.route ≠ requires roles := by
    intro roles hne hroute
    have hrequired : request.call.route.requiredRoles = some (roles.map Role.value) := by
      rw [hroute]
      rfl
    obtain ⟨err, herr⟩ := authorizeBearer_refuses hrequired (by simpa using hne) hrole
    rw [dispatch, herr] at h
    cases h
  unfold dispatch at h
  split at h
  · cases h
  · split at h
    · next hvalid =>
      cases h
      generalize hcall : request.call = call at hroles hvalid
      cases call with
      | signup body => exact Or.inl ⟨body, rfl⟩
      | login body => exact Or.inr (Or.inl ⟨body, rfl⟩)
      | findAll queryParams => exact Or.inr (Or.inr ⟨queryParams, rfl⟩)
      | findOne id =>
        -- the path has a parameter `id` and none called `eventId`
        simp [ControllerCall.valid, EventParamDto.valid] at hvalid
      | create body => exact absurd rfl (hroles [.OPERATOR, .ADMIN] (by simp))
      | findAllRewards => exact absurd rfl (hroles [.OPERATOR, .ADMIN] (by simp))
      | createReward dto => exact absurd rfl (hroles [.OPERATOR, .ADMIN] (by simp))
      | requestReward eventId => exact absurd rfl (hroles [.USER, .ADMIN] (by simp))
      | findMine queryParams => exact absurd rfl (hroles [.USER] (by simp))
      | findAllByEvent eventId query =>
        exact absurd rfl (hroles [.OPERATOR, .AUDITOR, .ADMIN] (by simp))
      | approveRewardRequest eventId rewardRequestId =>
        exact absurd rfl (hroles [.OPERATOR, .AUDITOR, .ADMIN] (by simp))
    · cases h

end Tokens

/-! ## No refresh -/

/-- The states of a call that has not begun as a refresh. -/
def AuthCall.NotRefreshing : AuthCall → Prop
  | .idle => True
  | .loginRevoke _ _ _ => True
  | .loginIssue _ _ _ => True
  | .loginCreate _ _ _ => True
  | .done (.ok (.login _)) => True
  | .done (.error _) => True
  | _ => False

def AccountCall.NotRefreshing : AccountCall → Prop
  | .session call => call.NotRefreshing
  | _ => True

theorem AuthCall.NotRefreshing.act {env : AuthEnv} {c : κ} {input : AuthInput}
    {call call' : AuthCall} {w w' : AuthWorld κ} (h : call.NotRefreshing)
    (hinput : ∀ token, input ≠ .refresh token) (hact : call.act env c input w = some (call', w')) :
    call'.NotRefreshing := by
  cases auth_acted hact with
  | refreshBegins oldToken w => exact absurd rfl (hinput oldToken)
  | refreshRefused found before since w => exact h.elim
  | refreshChecks old before since w => exact h.elim
  | refreshRevokes old before since w => exact h.elim
  | refreshLosesUser old before overtaken w hgone => exact h.elim
  | refreshFindsUser old user before overtaken w huser hid => exact h.elim
  | refreshIssues old user before overtaken newId secret salt w => exact h.elim
  | refreshDuplicate old row response before overtaken w => exact h.elim
  | refreshCreates old row response before overtaken w hfresh => exact h.elim
  | _ => trivial

theorem AccountCall.NotRefreshing.act {env : AuthEnv} {c : κ} {input : AccountInput}
    {call call' : AccountCall} {w w' : AuthWorld κ} (h : call.NotRefreshing)
    (hinput : ∀ token, input ≠ .session (.refresh token))
    (hact : call.act env c input w = some (call', w')) : call'.NotRefreshing := by
  cases account_acted hact with
  | session input call call' w w' hcall =>
    refine AuthCall.NotRefreshing.act h ?_ hcall
    rintro token rfl
    exact hinput token rfl
  | _ => trivial

/-! ## Runs -/

section Runs

variable [DecidableEq κ] {env : AuthEnv} {validators : Validators}

theorem accountStep_notRefreshing {s t : AccountState κ} {m : AccountMove κ}
    (h : ∀ c, (s.locals c).NotRefreshing)
    (hmove : ∀ c token, m ≠ .act c (.session (.refresh token)))
    (hstep : accountStep env s m = some t) : ∀ c, (t.locals c).NotRefreshing := by
  rcases Processes.step_cases hstep with ⟨c, input, call, w, rfl, hact, rfl⟩ | ⟨elapsed, -, rfl⟩
  · intro d
    by_cases hd : d = c
    · subst hd
      simp only [Function.update_self]
      refine (h d).act ?_ hact
      rintro token rfl
      exact hmove d token rfl
    · simp only [Function.update_of_ne hd]
      exact h d
  · exact h

/-- Everything one move can do. -/
theorem deploymentStep_cases {s t : Deployment κ} {m : DeploymentMove κ}
    (h : deploymentStep env validators s m = some t) :
    (∃ move, (∀ c token, move ≠ .act c (.session (.refresh token))) ∧
      accountStep env s.accounts move = some t.accounts ∧ t.events = s.events) ∨
    t = s ∨
    ∃ c request after call, m = .http c request after ∧
      dispatch env validators request s.accounts.shared.now = .ok call ∧
      (∀ body, call ≠ .signup body) ∧ (∀ body, call ≠ .login body) ∧
      ∀ queryParams, call ≠ .findAll queryParams := by
  cases m with
  | http c request after =>
    simp only [deploymentStep] at h
    split at h
    · cases h
      exact Or.inr (Or.inl rfl)
    · obtain ⟨a, ha, rfl⟩ := Option.map_eq_some_iff.mp h
      exact Or.inl ⟨_, by simp, ha, rfl⟩
    · obtain ⟨a, ha, rfl⟩ := Option.map_eq_some_iff.mp h
      exact Or.inl ⟨_, by simp, ha, rfl⟩
    · cases h
      exact Or.inr (Or.inl rfl)
    · next call hsignup hlogin hlist hdispatch =>
      exact Or.inr (Or.inr ⟨c, request, after, call, rfl, hdispatch, hsignup, hlogin, hlist⟩)
  | auth move =>
    cases move with
    | act c input =>
      simp only [deploymentStep] at h
      split at h
      · cases h
      · next hbegins =>
        obtain ⟨a, ha, rfl⟩ := Option.map_eq_some_iff.mp h
        refine Or.inl ⟨_, ?_, ha, rfl⟩
        rintro d token heq
        cases heq
        exact hbegins rfl
    | env elapsed =>
      simp only [deploymentStep] at h
      obtain ⟨a, ha, rfl⟩ := Option.map_eq_some_iff.mp h
      exact Or.inl ⟨_, by simp, ha, rfl⟩

/-- What every run of the deployment keeps. -/
structure Contained (env : AuthEnv) (now : Int) (events : Db) (s : Deployment κ) : Prop where
  accounts : Reachable (accountStep env) (accountInitial now) s.accounts
  calls : ∀ c, (s.accounts.locals c).NotRefreshing
  events : s.events = events

variable {now : Int} {events : Db}

theorem Contained.dispatch (hjwt : env.RoundTrips) (hexpires : env.Expires) {s : Deployment κ}
    (h : Contained env now events s) {request : HttpRequest} (hknown : request.Unforged env s)
    {call : ControllerCall}
    (hdispatch : MapleRewards.dispatch env validators request s.accounts.shared.now = .ok call) :
    (∃ body, call = .signup body) ∨ (∃ body, call = .login body) ∨
      ∃ queryParams, call = .findAll queryParams := by
  refine dispatch_roleless ?_ hdispatch
  intro token payload hbearer hverify
  obtain ⟨moves, hmoves⟩ := h.accounts
  obtain ⟨user, -, -, signedAt, rfl⟩ :=
    (accounts_sound hmoves).handedOut (hknown token payload hbearer hverify)
  exact role_of_accessToken hjwt hexpires hverify

theorem Contained.step (hjwt : env.RoundTrips) (hexpires : env.Expires) {s t : Deployment κ}
    {m : DeploymentMove κ} (h : Contained env now events s) (hmove : m.Unforged env s)
    (hstep : deploymentStep env validators s m = some t) : Contained env now events t := by
  rcases deploymentStep_cases hstep with ⟨move, hrefresh, haccounts, hevents⟩ | rfl |
    ⟨c, request, after, call, rfl, hdispatch, hsignup, hlogin, hlist⟩
  · constructor
    · exact h.accounts.trans (Reachable.step haccounts)
    · exact accountStep_notRefreshing h.calls hrefresh haccounts
    · exact hevents.trans h.events
  · exact h
  · rcases h.dispatch hjwt hexpires hmove hdispatch with
      ⟨body, rfl⟩ | ⟨body, rfl⟩ | ⟨queryParams, rfl⟩
    · exact absurd rfl (hsignup body)
    · exact absurd rfl (hlogin body)
    · exact absurd rfl (hlist queryParams)

/-- Whatever requests come in, however they overlap, the gateway only lets signups, logins
and lists of events through. The event store stays as it was deployed, and no access token
is ever refreshed. -/
theorem gateway_only_lists (hjwt : env.RoundTrips) (hexpires : env.Expires)
    {moves : List (DeploymentMove κ)} {s : Deployment κ}
    (hmoves : Guarded (deploymentStep env validators) (DeploymentMove.Unforged env) moves
      (deployed now events))
    (h : run (deploymentStep env validators) moves (deployed now events) = some s) :
    s.events = events ∧
      (∀ c response, s.accounts.locals c ≠ .session (.done (.ok (.refresh response)))) ∧
      ∀ request : HttpRequest, request.Unforged env s → ∀ call,
        dispatch env validators request s.accounts.shared.now = .ok call →
        (∃ body, call = .signup body) ∨ (∃ body, call = .login body) ∨
          ∃ queryParams, call = .findAll queryParams := by
  have hcontained : Contained env now events s := by
    refine run_invariant_guarded (Contained env now events)
      (fun _ _ _ hs hm hstep => hs.step hjwt hexpires hm hstep) ?_ hmoves h
    exact ⟨Reachable.refl _ _, fun _ => trivial, rfl⟩
  refine ⟨hcontained.events, ?_, fun request hrequest call hdispatch =>
    hcontained.dispatch hjwt hexpires hrequest hdispatch⟩
  intro c response hc
  have hcall := hcontained.calls c
  rw [hc] at hcall
  exact hcall

end Runs

namespace SampleJwt

theorem env_expires : env.Expires where
  verify_sign := by
    intro payload mins signedAt now hnow
    simp only [env, String.length_ofList, List.length_replicate, Encodable.encodek,
      Option.bind_some, Int.not_lt.mpr hnow, if_false]

def validators : Validators where
  isEmail text := text.toList.contains '@'
  isUUID text := text.toList.length == 36
  eventGetQuery _ := true
  eventCreateRequest _ := true

/-- A signup and a login. -/
def session : List (DeploymentMove Nat) :=
  [.http 0 ⟨none, .signup ⟨"a@maple.kr", "maple1", "Ann"⟩⟩ Db.empty,
    .auth (.act 0 (.hash SampleAuth.userId "salt")), .auth (.act 0 .proceed),
    .http 1 ⟨none, .login ⟨"a@maple.kr", "maple1"⟩⟩ Db.empty,
    .auth (.act 1 (.session .proceed)),
    .auth (.act 1 (.session (.issue SampleAuth.firstId "first" "salt"))),
    .auth (.act 1 (.session .proceed))]

section AnySignature

variable (sign : JwtPayload → Int → Int → String) (verify : String → Int → Option JwtPayload)

def withJwt : AuthEnv := { SampleAuth.env with sign := sign, verify := verify }

def sessionState : Deployment Nat :=
  (run (deploymentStep (withJwt sign verify) validators) session (deployed 0 Db.empty)).getD
    (deployed 0 Db.empty)

theorem session_run :
    run (deploymentStep (withJwt sign verify) validators) session (deployed 0 Db.empty) =
      some (sessionState sign verify) := by
  have hview : (run (deploymentStep (withJwt sign verify) validators) session
      (deployed 0 Db.empty)).map (fun s : Deployment Nat =>
        s.accounts.shared.db.tokens.length) = some 1 := rfl
  exact (run_of_view hview).1

theorem session_unforged : Guarded (deploymentStep (withJwt sign verify) validators)
    (DeploymentMove.Unforged (withJwt sign verify)) session (deployed 0 Db.empty) := by
  apply guarded_of_forall
  intro m hm s
  simp only [session, List.mem_cons, List.not_mem_nil, or_false] at hm
  rcases hm with rfl | rfl | rfl | rfl | rfl | rfl | rfl <;>
    simp [DeploymentMove.Unforged, HttpRequest.Unforged]

def sessionToken : String :=
  (withJwt sign verify).accessToken (tokenPayload SampleAuth.userId "a@maple.kr" ["USER"]) 0

theorem session_token : (sessionState sign verify).HandedOut (sessionToken sign verify) :=
  ⟨1, Or.inl ⟨⟨_, "first"⟩, rfl, rfl⟩⟩

end AnySignature

theorem withJwt_env : withJwt env.sign env.verify = env := by
  simp only [withJwt, env]

theorem withJwt_roundTrips : (withJwt env.sign env.verify).RoundTrips := by
  rw [withJwt_env]
  exact env_roundTrips

theorem withJwt_expires : (withJwt env.sign env.verify).Expires := by
  rw [withJwt_env]
  exact env_expires

end SampleJwt

open SampleJwt in
/-- With the token of the login no reward can be requested. -/
theorem gateway_only_lists_sample :
    (sessionState env.sign env.verify).events = Db.empty ∧
      ∀ call, dispatch (withJwt env.sign env.verify) validators
          ⟨some (sessionToken env.sign env.verify), .requestReward SampleAuth.userId.toString⟩
          (sessionState env.sign env.verify).accounts.shared.now = .ok call →
        (∃ body, call = .signup body) ∨ (∃ body, call = .login body) ∨
          ∃ queryParams, call = .findAll queryParams := by
  have hjwt := withJwt_roundTrips
  have hexpires := withJwt_expires
  -- no token is computed
  generalize env.sign = sign at hjwt hexpires ⊢
  generalize env.verify = verify at hjwt hexpires ⊢
  obtain ⟨hevents, -, hdispatch⟩ :=
    gateway_only_lists hjwt hexpires (session_unforged sign verify) (session_run sign verify)
  refine ⟨hevents, hdispatch _ ?_⟩
  intro presented payload hbearer _
  cases hbearer
  exact session_token sign verify

end MapleRewards

