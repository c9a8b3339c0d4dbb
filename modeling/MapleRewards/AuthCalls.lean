import MapleRewards.Auth
import MapleRewards.Lib.Processes

/-!
# Concurrent logins and refreshes

Each call is a process that makes one repository call at a time; between them it only
computes. Any number of calls run on one store while the clock moves forward. The
trace records which call wrote which revocation and which refresh minted a token.
-/
namespace MapleRewards

open Processes LabelledRuns

variable {κ : Type}

inductive TokenEntry (κ : Type) where
  | revocation : ObjectId → κ → TokenEntry κ
  | success : ObjectId → κ → TokenEntry κ
  deriving DecidableEq

structure AuthWorld (κ : Type) where
  now : Int
  db : AuthDb
  trace : List (TokenEntry κ)

inductive AuthResponse where
  | login : LoginResponseDto → AuthResponse
  | refresh : RefreshTokenResponseDto → AuthResponse
  deriving DecidableEq

/-- What a call does next. `before` counts the rows stored when the call made its
lookup and `since` the entries of the trace then; `overtaken` says that another call
revoked the row between the lookup of a refresh and its own revocation. None of them
is read by the code. -/
inductive AuthCall where
  | idle
  | loginRevoke (request : LoginRequestDto) (user : UserDocument) (before : Nat)
  | loginIssue (request : LoginRequestDto) (user : UserDocument) (before : Nat)
  | loginCreate (row : RefreshTokenDocument) (response : LoginResponseDto) (before : Nat)
  | refreshCheck (found : Option RefreshTokenDocument) (before since : Nat)
  | refreshRevoke (old : RefreshTokenDocument) (before since : Nat)
  | refreshUser (old : RefreshTokenDocument) (before : Nat) (overtaken : Bool)
  | refreshIssue (old : RefreshTokenDocument) (user : UserDocument) (before : Nat)
      (overtaken : Bool)
  | refreshCreate (old row : RefreshTokenDocument) (response : RefreshTokenResponseDto)
      (before : Nat) (overtaken : Bool)
  | done (result : Except Thrown AuthResponse)

inductive AuthInput where
  | login : LoginRequestDto → AuthInput
  | refresh : String → AuthInput
  | proceed : AuthInput
  | issue : ObjectId → String → String → AuthInput
  | fail : AuthInput

def TokenEntry.revokes (id : ObjectId) : TokenEntry κ → Bool
  | .revocation revoked _ => revoked == id
  | .success _ _ => false

/-- The rows that `revokeAllByUser` changes. -/
def AuthDb.revocable (db : AuthDb) (userId : ObjectId) (now : Int) : List ObjectId :=
  (db.tokens.filter fun row => row.userId == userId && row.usable now).map RefreshTokenDocument._id

def AuthCall.act (env : AuthEnv) (c : κ) (input : AuthInput) (call : AuthCall) (w : AuthWorld κ) :
    Option (AuthCall × AuthWorld κ) :=
  match call, input with
  | .idle, .login request =>
    match checkCredentials env (UserRepository.findByEmail w.db request.email) request.password with
    | .error err => some (.done (.error err), w)
    | .ok user => some (.loginRevoke request user w.db.tokens.length, w)
  | .loginRevoke request user before, .proceed =>
    some (.loginIssue request user before,
      { w with
        db := RefreshTokensRepository.revokeAllByUser w.db user._id w.now
        trace := w.trace ++ (w.db.revocable user._id w.now).map fun id => .revocation id c })
  | .loginIssue request user before, .issue newId secret salt =>
    some (.loginCreate (env.refreshRow newId user._id secret salt w.now)
      ⟨env.accessToken (tokenPayload user._id request.email user.roles) w.now, secret⟩ before, w)
  | .loginCreate row response _, .proceed =>
    match RefreshTokensRepository.create w.db row with
    | .error err => some (.done (.error err), w)
    | .ok db => some (.done (.ok (.login response)), { w with db := db })
  | .idle, .refresh oldToken =>
    some (.refreshCheck (RefreshTokensRepository.findByToken env w.db oldToken w.now)
      w.db.tokens.length w.trace.length, w)
  | .refreshCheck found before since, .proceed =>
    match checkRefreshToken found w.now with
    | .error err => some (.done (.error err), w)
    | .ok old => some (.refreshRevoke old before since, w)
  | .refreshRevoke old before since, .proceed =>
    some (.refreshUser old before ((w.trace.drop since).any (TokenEntry.revokes old._id)),
      { w with
        db := RefreshTokensRepository.revoke w.db old._id
        trace := w.trace ++ [.revocation old._id c] })
  | .refreshUser old before overtaken, .proceed =>
    match UserRepository.findById w.db old.userId with
    | none => some (.done (throwAuth .USER_NOT_FOUND), w)
    | some user => some (.refreshIssue old user before overtaken, w)
  | .refreshIssue old user before overtaken, .issue newId secret salt =>
    some (.refreshCreate old (env.refreshRow newId old.userId secret salt w.now)
      ⟨env.accessToken (tokenPayload old.userId user.email user.roles) w.now⟩ before overtaken, w)
  | .refreshCreate old row response _ _, .proceed =>
    match RefreshTokensRepository.create w.db row with
    | .error err => some (.done (.error err), w)
    | .ok db => some (.done (.ok (.refresh response)),
        { w with db := db, trace := w.trace ++ [.success old._id c] })
  | .done _, _ => none
  | _, .fail => some (.done (.error .connectionError), w)
  | _, _ => none

abbrev AuthState (κ : Type) := Processes.State κ AuthCall (AuthWorld κ)

abbrev AuthMove (κ : Type) := Processes.Move κ AuthInput Nat

/-- The clock moves forward by any number of milliseconds. -/
def AuthWorld.tick (elapsed : Nat) (w : AuthWorld κ) : AuthWorld κ :=
  { w with now := w.now + elapsed }

variable [DecidableEq κ] in
def authStep (env : AuthEnv) : AuthState κ → AuthMove κ → Option (AuthState κ) :=
  Processes.step (AuthCall.act env) AuthWorld.tick

/-- Registered users, no refresh token yet and no call begun. -/
def authInitial (users : List UserDocument) (now : Int) : AuthState κ :=
  ⟨⟨now, ⟨users, []⟩, []⟩, fun _ => .idle⟩

/-- Everything one action of a call can do. -/
inductive Acted (env : AuthEnv) (c : κ) :
    AuthCall → AuthWorld κ → AuthCall → AuthWorld κ → Prop where
  | throws (call : AuthCall) (w : AuthWorld κ) (err : Thrown) :
      Acted env c call w (.done (.error err)) w
  | loginBegins (request : LoginRequestDto) (user : UserDocument) (w : AuthWorld κ) :
      Acted env c .idle w (.loginRevoke request user w.db.tokens.length) w
  | loginRevokes (request : LoginRequestDto) (user : UserDocument) (before : Nat)
      (w : AuthWorld κ) :
      Acted env c (.loginRevoke request user before) w (.loginIssue request user before)
        { w with
          db := RefreshTokensRepository.revokeAllByUser w.db user._id w.now
          trace := w.trace ++ (w.db.revocable user._id w.now).map fun id => .revocation id c }
  | loginIssues (request : LoginRequestDto) (user : UserDocument) (before : Nat)
      (row : RefreshTokenDocument) (response : LoginResponseDto) (hrow : row.userId = user._id)
      (hnew : row.revoked = false) (w : AuthWorld κ) :
      Acted env c (.loginIssue request user before) w (.loginCreate row response before) w
  | loginCreates (row : RefreshTokenDocument) (response : LoginResponseDto) (before : Nat)
      (w : AuthWorld κ) (hfresh : ∀ r ∈ w.db.tokens, r._id ≠ row._id) :
      Acted env c (.loginCreate row response before) w (.done (.ok (.login response)))
        { w with db := { w.db with tokens := w.db.tokens ++ [row] } }
  | refreshBegins (oldToken : String) (w : AuthWorld κ) :
      Acted env c .idle w (.refreshCheck (RefreshTokensRepository.findByToken env w.db oldToken
        w.now) w.db.tokens.length w.trace.length) w
  | refreshChecks (old : RefreshTokenDocument) (before since : Nat) (w : AuthWorld κ) :
      Acted env c (.refreshCheck (some old) before since) w (.refreshRevoke old before since) w
  | refreshRevokes (old : RefreshTokenDocument) (before since : Nat) (w : AuthWorld κ) :
      Acted env c (.refreshRevoke old before since) w
        (.refreshUser old before ((w.trace.drop since).any (TokenEntry.revokes old._id)))
        { w with
          db := RefreshTokensRepository.revoke w.db old._id
          trace := w.trace ++ [.revocation old._id c] }
  | refreshFindsUser (old : RefreshTokenDocument) (user : UserDocument) (before : Nat)
      (overtaken : Bool) (w : AuthWorld κ) :
      Acted env c (.refreshUser old before overtaken) w (.refreshIssue old user before overtaken) w
  | refreshIssues (old : RefreshTokenDocument) (user : UserDocument) (before : Nat)
      (overtaken : Bool) (row : RefreshTokenDocument) (response : RefreshTokenResponseDto)
      (hrow : row.userId = old.userId) (hnew : row.revoked = false) (w : AuthWorld κ) :
      Acted env c (.refreshIssue old user before overtaken) w
        (.refreshCreate old row response before overtaken) w
  | refreshCreates (old row : RefreshTokenDocument) (response : RefreshTokenResponseDto)
      (before : Nat) (overtaken : Bool) (w : AuthWorld κ)
      (hfresh : ∀ r ∈ w.db.tokens, r._id ≠ row._id) :
      Acted env c (.refreshCreate old row response before overtaken) w
        (.done (.ok (.refresh response)))
        { w with
          db := { w.db with tokens := w.db.tokens ++ [row] }
          trace := w.trace ++ [.success old._id c] }

theorem act_acted {env : AuthEnv} {c : κ} {input : AuthInput} {call call' : AuthCall}
    {w w' : AuthWorld κ} (h : call.act env c input w = some (call', w')) :
    Acted env c call w call' w' := by
  unfold AuthCall.act at h
  split at h
  · split at h
    · cases h
      exact .throws _ w _
    · cases h
      exact .loginBegins _ _ w
  · cases h
    exact .loginRevokes _ _ _ w
  · cases h
    exact .loginIssues _ _ _ _ _ rfl rfl w
  · split at h
    · cases h
      exact .throws _ w _
    · next db hcreate =>
      cases h
      obtain ⟨hfresh, rfl⟩ := create_eq_ok.mp hcreate
      exact .loginCreates _ _ _ w hfresh
  · cases h
    exact .refreshBegins _ w
  · split at h
    · cases h
      exact .throws _ w _
    · next old hcheck =>
      cases h
      rw [checkRefreshToken_eq_ok hcheck]
      exact .refreshChecks old _ _ w
  · cases h
    exact .refreshRevokes _ _ _ w
  · split at h
    · cases h
      exact .throws _ w _
    · cases h
      exact .refreshFindsUser _ _ _ _ w
  · cases h
    exact .refreshIssues _ _ _ _ _ _ (by rfl) rfl w
  · split at h
    · cases h
      exact .throws _ w _
    · next db hcreate =>
      cases h
      obtain ⟨hfresh, rfl⟩ := create_eq_ok.mp hcreate
      exact .refreshCreates _ _ _ _ _ w hfresh
  · cases h
  · cases h
    exact .throws _ w _
  · cases h

/-! ## A call that nobody interrupts -/

/-- How a call that runs alone ends: its result and the store it leaves. -/
def endsWith (env : AuthEnv) (c : κ) (inputs : List AuthInput) (w : AuthWorld κ) :
    Option (AuthCall × AuthDb) :=
  (alone (AuthCall.act env) c inputs .idle w).map fun p => (p.1, p.2.db)

/-- Run alone, the steps of a login compute `AuthService.login`. -/
theorem login_endsWith (env : AuthEnv) (c : κ) (w : AuthWorld κ) (request : LoginRequestDto)
    (secret salt : String) (newId : ObjectId) :
    let outcome := AuthService.login env w.db request secret salt newId w.now w.now w.now
    ∃ inputs, endsWith env c inputs w = some (.done (outcome.1.map .login), outcome.2) := by
  intro outcome
  cases hcheck : checkCredentials env (UserRepository.findByEmail w.db request.email)
      request.password with
  | error err =>
    refine ⟨[.login request], ?_⟩
    simp [endsWith, alone, AuthCall.act, outcome, AuthService.login, hcheck, Except.map]
  | ok user =>
    refine ⟨[.login request, .proceed, .issue newId secret salt, .proceed], ?_⟩
    cases hcreate : RefreshTokensRepository.create
        (RefreshTokensRepository.revokeAllByUser w.db user._id w.now)
        (env.refreshRow newId user._id secret salt w.now) <;>
      simp [endsWith, alone, AuthCall.act, outcome, AuthService.login, hcheck, hcreate, Except.map]

/-- Run alone, the steps of a refresh compute `AuthService.refresh`. -/
theorem refresh_endsWith (env : AuthEnv) (c : κ) (w : AuthWorld κ) (oldToken secret salt : String)
    (newId : ObjectId) :
    let outcome := AuthService.refresh env w.db oldToken secret salt newId w.now w.now w.now w.now
    ∃ inputs, endsWith env c inputs w = some (.done (outcome.1.map .refresh), outcome.2) := by
  intro outcome
  cases hcheck : checkRefreshToken (RefreshTokensRepository.findByToken env w.db oldToken w.now)
      w.now with
  | error err =>
    refine ⟨[.refresh oldToken, .proceed], ?_⟩
    simp [endsWith, alone, AuthCall.act, outcome, AuthService.refresh, hcheck, Except.map]
  | ok old =>
    cases huser : UserRepository.findById (RefreshTokensRepository.revoke w.db old._id)
        old.userId with
    | none =>
      refine ⟨[.refresh oldToken, .proceed, .proceed, .proceed], ?_⟩
      simp [endsWith, alone, AuthCall.act, outcome, AuthService.refresh, hcheck, huser, Except.map,
        throwAuth]
    | some user =>
      refine ⟨[.refresh oldToken, .proceed, .proceed, .proceed, .issue newId secret salt,
        .proceed], ?_⟩
      cases hcreate : RefreshTokensRepository.create (RefreshTokensRepository.revoke w.db old._id)
          (env.refreshRow newId old.userId secret salt w.now) <;>
        simp [endsWith, alone, AuthCall.act, outcome, AuthService.refresh, hcheck, huser, hcreate,
          Except.map]

variable [DecidableEq κ] in
/-- A call that ends so alone is a run of the system of calls. -/
theorem run_of_endsWith {env : AuthEnv} {s : AuthState κ} {c : κ} (hidle : s.locals c = .idle)
    {inputs : List AuthInput} {call : AuthCall} {db : AuthDb}
    (h : endsWith env c inputs s.shared = some (call, db)) :
    ∃ t, run (authStep env) (inputs.map (Move.act c)) s = some t ∧ t.locals c = call ∧
      t.shared.db = db := by
  obtain ⟨p, hp, heq⟩ := Option.map_eq_some_iff.mp h
  cases heq
  rw [← hidle] at hp
  exact ⟨_, run_of_alone hp, by simp, rfl⟩

namespace SampleAuth

def login (c : Nat) : AuthMove Nat := .act c (.login ⟨"a@maple.kr", "pw"⟩)

def refresh (c : Nat) (secret : String) : AuthMove Nat := .act c (.refresh secret)

def proceed (c : Nat) : AuthMove Nat := .act c .proceed

def issue (c : Nat) (newId : ObjectId) (secret : String) : AuthMove Nat :=
  .act c (.issue newId secret "salt")

def start : AuthState Nat := authInitial [user] 0

end SampleAuth

end MapleRewards
