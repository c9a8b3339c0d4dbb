import MapleRewards.Registration

/-!
# No token without a password

Wherever a token turns up, there is a stored user it belongs to, whose hash a signup made
from its password, and a login of the run has presented a password that compares with
the hash. This holds for refreshed tokens as well, however calls overlap.
-/
namespace MapleRewards

open Processes LabelledRuns Collection

variable {κ : Type}

/-- The user is the document that a signup of the run has made. -/
def SignedUp (env : AuthEnv) (moves : List (AccountMove κ)) (user : UserDocument) : Prop :=
  ∃ c request salt, Move.act c (.signup request) ∈ moves ∧
    user = env.newUser request user._id salt

/-- A login of the run has presented a password that compares with the hash of the stored
user. -/
def Authenticated (env : AuthEnv) (moves : List (AccountMove κ)) (db : AuthDb)
    (userId : ObjectId) : Prop :=
  ∃ user ∈ db.users, user._id = userId ∧ ∃ c request,
    Move.act c (.session (.login request)) ∈ moves ∧ request.email = user.email ∧
      env.compare request.password user.passwordHash = true

/-- The access token is signed for an authenticated user, with the stored email and roles. -/
def MintedFor (env : AuthEnv) (moves : List (AccountMove κ)) (db : AuthDb)
    (accessToken : String) : Prop :=
  ∃ user ∈ db.users, Authenticated env moves db user._id ∧ ∃ signedAt,
    accessToken = env.accessToken (tokenPayload user._id user.email user.roles) signedAt

theorem Authenticated.mono {env : AuthEnv} {moves moves' : List (AccountMove κ)} {db db' : AuthDb}
    (hmoves : ∀ m ∈ moves, m ∈ moves') (husers : ∀ u ∈ db.users, u ∈ db'.users)
    {userId : ObjectId} (h : Authenticated env moves db userId) :
    Authenticated env moves' db' userId := by
  obtain ⟨user, huser, hid, c, request, hmove, hemail, hcompare⟩ := h
  exact ⟨user, husers user huser, hid, c, request, hmoves _ hmove, hemail, hcompare⟩

theorem MintedFor.mono {env : AuthEnv} {moves moves' : List (AccountMove κ)} {db db' : AuthDb}
    (hmoves : ∀ m ∈ moves, m ∈ moves') (husers : ∀ u ∈ db.users, u ∈ db'.users)
    {accessToken : String} (h : MintedFor env moves db accessToken) :
    MintedFor env moves' db' accessToken := by
  obtain ⟨user, huser, hauth, signedAt, htoken⟩ := h
  exact ⟨user, husers user huser, hauth.mono hmoves husers, signedAt, htoken⟩

/-- What a login or refresh knows at each point. -/
def AuthCall.Sound (env : AuthEnv) (moves : List (AccountMove κ)) (db : AuthDb) : AuthCall → Prop
  | .idle => True
  | .loginRevoke request user _ =>
    user ∈ db.users ∧ request.email = user.email ∧ Authenticated env moves db user._id
  | .loginIssue request user _ =>
    user ∈ db.users ∧ request.email = user.email ∧ Authenticated env moves db user._id
  | .loginCreate row response _ =>
    Authenticated env moves db row.userId ∧ MintedFor env moves db response.accessToken
  | .refreshCheck found _ _ => ∀ row, found = some row → Authenticated env moves db row.userId
  | .refreshRevoke old _ _ => Authenticated env moves db old.userId
  | .refreshUser old _ _ => Authenticated env moves db old.userId
  | .refreshIssue old user _ _ =>
    user ∈ db.users ∧ user._id = old.userId ∧ Authenticated env moves db old.userId
  | .refreshCreate _ row response _ _ =>
    Authenticated env moves db row.userId ∧ MintedFor env moves db response.accessToken
  | .done (.ok (.login response)) => MintedFor env moves db response.accessToken
  | .done (.ok (.refresh response)) => MintedFor env moves db response.accessToken
  | .done (.error err) => err ≠ .authException (AuthErrors .USER_NOT_FOUND)

/-- What any call knows. -/
def AccountCall.Sound (env : AuthEnv) (moves : List (AccountMove κ)) (db : AuthDb) :
    AccountCall → Prop
  | .session call => call.Sound env moves db
  | .signupHash request => ∃ c, Move.act c (.signup request) ∈ moves
  | .signupCreate user => SignedUp env moves user
  | .signedUp _ => True

theorem AuthCall.Sound.mono {env : AuthEnv} {moves moves' : List (AccountMove κ)}
    {db db' : AuthDb} (hmoves : ∀ m ∈ moves, m ∈ moves') (husers : ∀ u ∈ db.users, u ∈ db'.users)
    {call : AuthCall} (h : call.Sound env moves db) : call.Sound env moves' db' := by
  cases call with
  | idle => exact h
  | loginRevoke request user before =>
    exact ⟨husers _ h.1, h.2.1, h.2.2.mono hmoves husers⟩
  | loginIssue request user before =>
    exact ⟨husers _ h.1, h.2.1, h.2.2.mono hmoves husers⟩
  | loginCreate row response before => exact ⟨h.1.mono hmoves husers, h.2.mono hmoves husers⟩
  | refreshCheck found before since => exact fun row hrow => (h row hrow).mono hmoves husers
  | refreshRevoke old before since => exact Authenticated.mono hmoves husers h
  | refreshUser old before overtaken => exact Authenticated.mono hmoves husers h
  | refreshIssue old user before overtaken =>
    exact ⟨husers _ h.1, h.2.1, h.2.2.mono hmoves husers⟩
  | refreshCreate old row response before overtaken =>
    exact ⟨h.1.mono hmoves husers, h.2.mono hmoves husers⟩
  | done result =>
    cases result with
    | error err => exact h
    | ok response =>
      cases response with
      | login response => exact MintedFor.mono hmoves husers h
      | refresh response => exact MintedFor.mono hmoves husers h

theorem AccountCall.Sound.mono {env : AuthEnv} {moves moves' : List (AccountMove κ)}
    {db db' : AuthDb} (hmoves : ∀ m ∈ moves, m ∈ moves') (husers : ∀ u ∈ db.users, u ∈ db'.users)
    {call : AccountCall} (h : call.Sound env moves db) : call.Sound env moves' db' := by
  cases call with
  | session call => exact AuthCall.Sound.mono hmoves husers h
  | signupHash request =>
    obtain ⟨c, hc⟩ := h
    exact ⟨c, hmoves _ hc⟩
  | signupCreate user =>
    obtain ⟨c, request, salt, hc, huser⟩ := h
    exact ⟨c, request, salt, hmoves _ hc, huser⟩
  | signedUp result => trivial

/-- What is known of the store. -/
structure AuthDb.Sound (env : AuthEnv) (moves : List (AccountMove κ)) (db : AuthDb) : Prop where
  users : ∀ user ∈ db.users, SignedUp env moves user
  tokens : ∀ row ∈ db.tokens, Authenticated env moves db row.userId

theorem AuthDb.Sound.mono {env : AuthEnv} {moves moves' : List (AccountMove κ)} {db : AuthDb}
    (hmoves : ∀ m ∈ moves, m ∈ moves') (h : db.Sound env moves) : db.Sound env moves' := by
  constructor
  · intro user huser
    obtain ⟨c, request, salt, hc, heq⟩ := h.users user huser
    exact ⟨c, request, salt, hmoves _ hc, heq⟩
  · intro row hrow
    exact (h.tokens row hrow).mono hmoves fun _ hu => hu

/-! ## What one action does -/

theorem findByEmail_eq_some {db : AuthDb} {email : String} {user : UserDocument}
    (h : UserRepository.findByEmail db email = some user) :
    user ∈ db.users ∧ user.email = email :=
  find?_key_eq_some UserDocument.email h

theorem findById_eq_some {db : AuthDb} {userId : ObjectId} {user : UserDocument}
    (h : UserRepository.findById db userId = some user) :
    user ∈ db.users ∧ user._id = userId :=
  find?_key_eq_some UserDocument._id h

/-- A user that passes the checks of a login has the password. -/
theorem checkCredentials_compare {env : AuthEnv} {found : Option UserDocument} {password : String}
    {user : UserDocument} (h : checkCredentials env found password = .ok user) :
    env.compare password user.passwordHash = true := by
  cases found with
  | none => cases h
  | some u =>
    simp only [checkCredentials] at h
    split at h
    · cases h
    · next hcompare =>
      cases h
      simpa using hcompare

theorem checkCredentials_error {env : AuthEnv} {found : Option UserDocument} {password : String}
    {err : Thrown} (h : checkCredentials env found password = .error err) :
    err = .authException (AuthErrors .INVALID_CREDENTIALS) := by
  cases found with
  | none =>
    cases h
    rfl
  | some u =>
    simp only [checkCredentials] at h
    split at h
    · cases h
      rfl
    · cases h

theorem checkRefreshToken_error {found : Option RefreshTokenDocument} {now : Int} {err : Thrown}
    (h : checkRefreshToken found now = .error err) :
    err = .authException (AuthErrors .INVALID_REFRESH_TOKEN) := by
  cases found with
  | none =>
    cases h
    rfl
  | some row =>
    simp only [checkRefreshToken] at h
    split at h
    · cases h
      rfl
    · cases h

theorem createToken_error {db : AuthDb} {row : RefreshTokenDocument} {err : Thrown}
    (h : RefreshTokensRepository.create db row = .error err) : err = .duplicateKeyError := by
  unfold RefreshTokensRepository.create at h
  split at h
  · cases h
    rfl
  · cases h

/-- Everything one action of a login or refresh can do, and with what. -/
inductive AuthActed (env : AuthEnv) (c : κ) :
    AuthInput → AuthCall → AuthWorld κ → AuthCall → AuthWorld κ → Prop where
  | loginRefused (request : LoginRequestDto) (w : AuthWorld κ) :
      AuthActed env c (.login request) .idle w (.done (throwAuth .INVALID_CREDENTIALS)) w
  | loginBegins (request : LoginRequestDto) (user : UserDocument) (w : AuthWorld κ)
      (huser : user ∈ w.db.users) (hemail : user.email = request.email)
      (hcompare : env.compare request.password user.passwordHash = true) :
      AuthActed env c (.login request) .idle w (.loginRevoke request user w.db.tokens.length) w
  | loginRevokes (request : LoginRequestDto) (user : UserDocument) (before : Nat)
      (w : AuthWorld κ) :
      AuthActed env c .proceed (.loginRevoke request user before) w
        (.loginIssue request user before)
        { w with
          db := RefreshTokensRepository.revokeAllByUser w.db user._id w.now
          trace := w.trace ++ (w.db.revocable user._id w.now).map fun id => .revocation id c }
  | loginIssues (request : LoginRequestDto) (user : UserDocument) (before : Nat)
      (newId : ObjectId) (secret salt : String) (w : AuthWorld κ) :
      AuthActed env c (.issue newId secret salt) (.loginIssue request user before) w
        (.loginCreate (env.refreshRow newId user._id secret salt w.now)
          ⟨env.accessToken (tokenPayload user._id request.email user.roles) w.now, secret⟩ before)
        w
  | loginDuplicate (row : RefreshTokenDocument) (response : LoginResponseDto) (before : Nat)
      (w : AuthWorld κ) :
      AuthActed env c .proceed (.loginCreate row response before) w
        (.done (.error .duplicateKeyError)) w
  | loginCreates (row : RefreshTokenDocument) (response : LoginResponseDto) (before : Nat)
      (w : AuthWorld κ) (hfresh : ∀ r ∈ w.db.tokens, r._id ≠ row._id) :
      AuthActed env c .proceed (.loginCreate row response before) w
        (.done (.ok (.login response)))
        { w with db := { w.db with tokens := w.db.tokens ++ [row] } }
  | refreshBegins (oldToken : String) (w : AuthWorld κ) :
      AuthActed env c (.refresh oldToken) .idle w
        (.refreshCheck (RefreshTokensRepository.findByToken env w.db oldToken w.now)
          w.db.tokens.length w.trace.length) w
  | refreshRefused (found : Option RefreshTokenDocument) (before since : Nat) (w : AuthWorld κ) :
      AuthActed env c .proceed (.refreshCheck found before since) w
        (.done (throwAuth .INVALID_REFRESH_TOKEN)) w
  | refreshChecks (old : RefreshTokenDocument) (before since : Nat) (w : AuthWorld κ) :
      AuthActed env c .proceed (.refreshCheck (some old) before since) w
        (.refreshRevoke old before since) w
  | refreshRevokes (old : RefreshTokenDocument) (before since : Nat) (w : AuthWorld κ) :
      AuthActed env c .proceed (.refreshRevoke old before since) w
        (.refreshUser old before ((w.trace.drop since).any (TokenEntry.revokes old._id)))
        { w with
          db := RefreshTokensRepository.revoke w.db old._id
          trace := w.trace ++ [.revocation old._id c] }
  | refreshLosesUser (old : RefreshTokenDocument) (before : Nat) (overtaken : Bool)
      (w : AuthWorld κ) (hgone : ∀ user ∈ w.db.users, user._id ≠ old.userId) :
      AuthActed env c .proceed (.refreshUser old before overtaken) w
        (.done (throwAuth .USER_NOT_FOUND)) w
  | refreshFindsUser (old : RefreshTokenDocument) (user : UserDocument) (before : Nat)
      (overtaken : Bool) (w : AuthWorld κ) (huser : user ∈ w.db.users)
      (hid : user._id = old.userId) :
      AuthActed env c .proceed (.refreshUser old before overtaken) w
        (.refreshIssue old user before overtaken) w
  | refreshIssues (old : RefreshTokenDocument) (user : UserDocument) (before : Nat)
      (overtaken : Bool) (newId : ObjectId) (secret salt : String) (w : AuthWorld κ) :
      AuthActed env c (.issue newId secret salt) (.refreshIssue old user before overtaken) w
        (.refreshCreate old (env.refreshRow newId old.userId secret salt w.now)
          ⟨env.accessToken (tokenPayload old.userId user.email user.roles) w.now⟩ before overtaken)
        w
  | refreshDuplicate (old row : RefreshTokenDocument) (response : RefreshTokenResponseDto)
      (before : Nat) (overtaken : Bool) (w : AuthWorld κ) :
      AuthActed env c .proceed (.refreshCreate old row response before overtaken) w
        (.done (.error .duplicateKeyError)) w
  | refreshCreates (old row : RefreshTokenDocument) (response : RefreshTokenResponseDto)
      (before : Nat) (overtaken : Bool) (w : AuthWorld κ)
      (hfresh : ∀ r ∈ w.db.tokens, r._id ≠ row._id) :
      AuthActed env c .proceed (.refreshCreate old row response before overtaken) w
        (.done (.ok (.refresh response)))
        { w with
          db := { w.db with tokens := w.db.tokens ++ [row] }
          trace := w.trace ++ [.success old._id c] }
  | fails (call : AuthCall) (w : AuthWorld κ) :
      AuthActed env c .fail call w (.done (.error .connectionError)) w

theorem auth_acted {env : AuthEnv} {c : κ} {input : AuthInput} {call call' : AuthCall}
    {w w' : AuthWorld κ} (h : call.act env c input w = some (call', w')) :
    AuthActed env c input call w call' w' := by
  unfold AuthCall.act at h
  split at h
  · split at h
    · next err hcheck =>
      cases h
      rw [checkCredentials_error hcheck]
      exact .loginRefused _ w
    · next user hcheck =>
      cases h
      obtain ⟨huser, hemail⟩ := findByEmail_eq_some (checkCredentials_eq_ok hcheck)
      exact .loginBegins _ user w huser hemail (checkCredentials_compare hcheck)
  · cases h
    exact .loginRevokes _ _ _ w
  · cases h
    exact .loginIssues _ _ _ _ _ _ w
  · split at h
    · next err hcreate =>
      cases h
      rw [createToken_error hcreate]
      exact .loginDuplicate _ _ _ w
    · next db hcreate =>
      cases h
      obtain ⟨hfresh, rfl⟩ := create_eq_ok.mp hcreate
      exact .loginCreates _ _ _ w hfresh
  · cases h
    exact .refreshBegins _ w
  · split at h
    · next err hcheck =>
      cases h
      rw [checkRefreshToken_error hcheck]
      exact .refreshRefused _ _ _ w
    · next old hcheck =>
      cases h
      rw [checkRefreshToken_eq_ok hcheck]
      exact .refreshChecks old _ _ w
  · cases h
    exact .refreshRevokes _ _ _ w
  · next old before overtaken =>
    split at h
    · next hnone =>
      cases h
      refine .refreshLosesUser _ _ _ w ?_
      intro user huser hid
      exact List.find?_eq_none.mp hnone user huser (by simp [hid])
    · next user hfound =>
      cases h
      obtain ⟨huser, hid⟩ := findById_eq_some hfound
      exact .refreshFindsUser _ user _ _ w huser hid
  · cases h
    exact .refreshIssues _ _ _ _ _ _ _ w
  · split at h
    · next err hcreate =>
      cases h
      rw [createToken_error hcreate]
      exact .refreshDuplicate _ _ _ _ _ w
    · next db hcreate =>
      cases h
      obtain ⟨hfresh, rfl⟩ := create_eq_ok.mp hcreate
      exact .refreshCreates _ _ _ _ _ w hfresh
  · cases h
  · cases h
    exact .fails _ w
  · cases h

/-! ## The tokens of a store after one action -/

/-- What a revocation leaves of a row. -/
structure SameToken (r r' : RefreshTokenDocument) : Prop where
  _id : r'._id = r._id
  userId : r'.userId = r.userId
  expiresAt : r'.expiresAt = r.expiresAt

theorem revoke_tokens (db : AuthDb) (id : ObjectId) :
    List.Forall₂ SameToken db.tokens (RefreshTokensRepository.revoke db id).tokens :=
  forall₂_updateFirst (fun _ => ⟨rfl, rfl, rfl⟩) _ (fun _ => ⟨rfl, rfl, rfl⟩) db.tokens

theorem revokeAllByUser_tokens (db : AuthDb) (userId : ObjectId) (now : Int) :
    List.Forall₂ SameToken db.tokens
      (RefreshTokensRepository.revokeAllByUser db userId now).tokens := by
  rw [RefreshTokensRepository.revokeAllByUser, List.forall₂_map_right_iff]
  apply List.forall₂_same.mpr
  intro row _
  split
  · exact ⟨rfl, rfl, rfl⟩
  · exact ⟨rfl, rfl, rfl⟩

section Action

variable {env : AuthEnv} {moves : List (AccountMove κ)}

theorem AuthDb.Sound.revoked {db db' : AuthDb} (h : db.Sound env moves)
    (husers : db'.users = db.users) (htokens : List.Forall₂ SameToken db.tokens db'.tokens) :
    db'.Sound env moves := by
  constructor
  · intro user huser
    exact h.users user (husers ▸ huser)
  · intro row hrow
    obtain ⟨old, hold, hsame⟩ := mem_of_forall₂ htokens hrow
    rw [hsame.userId]
    exact (h.tokens old hold).mono (fun _ hm => hm) fun u hu => husers ▸ hu

theorem AuthDb.Sound.createToken {db : AuthDb} (h : db.Sound env moves)
    {row : RefreshTokenDocument} (hrow : Authenticated env moves db row.userId) :
    AuthDb.Sound env moves { db with tokens := db.tokens ++ [row] } := by
  constructor
  · exact h.users
  · intro row' hrow'
    cases List.mem_append.mp hrow' with
    | inl hold => exact h.tokens row' hold
    | inr hnew =>
      cases List.mem_singleton.mp hnew
      exact hrow

/-- One action of a login or refresh, which stands last in the moves. -/
theorem AuthCall.Sound.act {c : κ} {input : AuthInput} {call call' : AuthCall} {w w' : AuthWorld κ}
    (hmove : Move.act c (.session input) ∈ moves) (hdb : w.db.Sound env moves)
    (hcall : call.Sound env moves w.db) (h : call.act env c input w = some (call', w')) :
    w'.db.Sound env moves ∧ call'.Sound env moves w'.db := by
  cases auth_acted h with
  | loginRefused request w => exact ⟨hdb, by simp [throwAuth, AuthCall.Sound, AuthErrors]⟩
  | loginBegins request user w huser hemail hcompare =>
    exact ⟨hdb, huser, hemail.symm, user, huser, rfl, c, request, hmove, hemail.symm, hcompare⟩
  | loginRevokes request user before w =>
    exact ⟨hdb.revoked rfl (revokeAllByUser_tokens w.db user._id w.now), hcall⟩
  | loginIssues request user before newId secret salt w =>
    obtain ⟨huser, hemail, hauth⟩ := hcall
    refine ⟨hdb, hauth, user, huser, hauth, w.now, ?_⟩
    rw [hemail]
  | loginDuplicate row response before w => exact ⟨hdb, by simp [AuthCall.Sound]⟩
  | loginCreates row response before w hfresh => exact ⟨hdb.createToken hcall.1, hcall.2⟩
  | refreshBegins oldToken w =>
    refine ⟨hdb, ?_⟩
    intro row hrow
    exact hdb.tokens row (findByToken_eq_some hrow).1
  | refreshRefused found before since w =>
    exact ⟨hdb, by simp [throwAuth, AuthCall.Sound, AuthErrors]⟩
  | refreshChecks old before since w => exact ⟨hdb, hcall old rfl⟩
  | refreshRevokes old before since w =>
    exact ⟨hdb.revoked rfl (revoke_tokens w.db old._id), hcall⟩
  | refreshLosesUser old before overtaken w hgone =>
    -- the user of a token is stored for good
    obtain ⟨user, huser, hid, -⟩ := hcall
    exact absurd hid (hgone user huser)
  | refreshFindsUser old user before overtaken w huser hid => exact ⟨hdb, huser, hid, hcall⟩
  | refreshIssues old user before overtaken newId secret salt w =>
    obtain ⟨huser, hid, hauth⟩ := hcall
    refine ⟨hdb, hauth, user, huser, hid ▸ hauth, w.now, ?_⟩
    rw [hid]
  | refreshDuplicate old row response before overtaken w => exact ⟨hdb, by simp [AuthCall.Sound]⟩
  | refreshCreates old row response before overtaken w hfresh =>
    exact ⟨hdb.createToken hcall.1, hcall.2⟩
  | fails call w => exact ⟨hdb, by simp [AuthCall.Sound]⟩

/-- One action of any call, which stands last in the moves. -/
theorem AccountCall.Sound.act {c : κ} {input : AccountInput} {call call' : AccountCall}
    {w w' : AuthWorld κ} (hmove : Move.act c input ∈ moves) (hdb : w.db.Sound env moves)
    (hcall : call.Sound env moves w.db) (h : call.act env c input w = some (call', w')) :
    w'.db.Sound env moves ∧ call'.Sound env moves w'.db := by
  cases account_acted h with
  | session input call call' w w' hact => exact AuthCall.Sound.act hmove hdb hcall hact
  | refused request w hexists => exact ⟨hdb, trivial⟩
  | begins request w hnew => exact ⟨hdb, c, hmove⟩
  | hashes request newId salt w =>
    obtain ⟨d, hd⟩ := hcall
    exact ⟨hdb, d, request, salt, hd, rfl⟩
  | invalid user w => exact ⟨hdb, trivial⟩
  | duplicate user w hused => exact ⟨hdb, trivial⟩
  | creates user w hfree =>
    refine ⟨?_, trivial⟩
    constructor
    · intro user' huser'
      cases List.mem_append.mp huser' with
      | inl hold => exact hdb.users user' hold
      | inr hnew =>
        cases List.mem_singleton.mp hnew
        exact hcall
    · intro row hrow
      exact (hdb.tokens row hrow).mono (fun _ hm => hm) fun u hu => List.mem_append_left _ hu
  | fails call w hopen => exact ⟨hdb, trivial⟩

end Action

/-! ## Runs -/

section Runs

variable [DecidableEq κ] {env : AuthEnv}

/-- What is known of the store and of every call after a history of moves. -/
structure AccountsSound (env : AuthEnv) (moves : List (AccountMove κ)) (s : AccountState κ) :
    Prop where
  db : s.shared.db.Sound env moves
  calls : ∀ c, (s.locals c).Sound env moves s.shared.db

theorem AccountsSound.step {moves : List (AccountMove κ)} {s t : AccountState κ}
    {m : AccountMove κ} (h : AccountsSound env moves s) (hstep : accountStep env s m = some t) :
    AccountsSound env (moves ++ [m]) t := by
  have hmoves : ∀ m' ∈ moves, m' ∈ moves ++ [m] := fun _ hm => List.mem_append_left _ hm
  rcases Processes.step_cases hstep with ⟨c, input, call, w, rfl, hact, rfl⟩ | ⟨elapsed, rfl, rfl⟩
  · have hacting := (h.calls c).mono hmoves fun _ hu => hu
    obtain ⟨hdb, hcall⟩ := AccountCall.Sound.act (by simp) (h.db.mono hmoves) hacting hact
    refine ⟨hdb, ?_⟩
    intro d
    by_cases hd : d = c
    · subst hd
      simpa using hcall
    · simp only [Function.update_of_ne hd]
      exact (h.calls d).mono hmoves fun _ hu => account_users hact hu
  · exact ⟨h.db.mono hmoves, fun c => (h.calls c).mono hmoves fun _ hu => hu⟩

theorem accounts_sound {moves : List (AccountMove κ)} {s : AccountState κ} {now : Int}
    (h : run (accountStep env) moves (accountInitial now) = some s) :
    AccountsSound env moves s := by
  refine run_history (AccountsSound env) (fun _ _ _ _ hs hstep => hs.step hstep) ?_ h
  constructor
  · constructor
    · intro user huser
      cases huser
    · intro row hrow
      cases hrow
  · exact fun c => trivial

/-- In any run from an empty store, a refresh token is only ever stored, and an access token
only ever handed out, for a user whom a signup of the run has stored and for whom a login
of the run has presented a password that compares with the hash; the access token carries the
stored email and roles. No call ends with the code for an unknown user. -/
theorem tokens_come_from_passwords {moves : List (AccountMove κ)} {s : AccountState κ} {now : Int}
    (h : run (accountStep env) moves (accountInitial now) = some s) :
    (∀ user ∈ s.shared.db.users, SignedUp env moves user) ∧
      (∀ row ∈ s.shared.db.tokens, Authenticated env moves s.shared.db row.userId) ∧
      (∀ c response, s.locals c = .session (.done (.ok (.login response))) →
        MintedFor env moves s.shared.db response.accessToken) ∧
      (∀ c response, s.locals c = .session (.done (.ok (.refresh response))) →
        MintedFor env moves s.shared.db response.accessToken) ∧
      ∀ c, s.locals c ≠ .session (.done (throwAuth .USER_NOT_FOUND)) := by
  have hsound := accounts_sound h
  refine ⟨hsound.db.users, hsound.db.tokens, ?_, ?_, ?_⟩
  · intro c response hc
    have hcall := hsound.calls c
    rw [hc] at hcall
    exact hcall
  · intro c response hc
    have hcall := hsound.calls c
    rw [hc] at hcall
    exact hcall
  · intro c hc
    have hcall := hsound.calls c
    rw [hc] at hcall
    exact hcall rfl

end Runs

namespace SampleAuth

/-- A signup, a login with its password and a refresh of the token it returns. -/
def fromSignUp : List (AccountMove Nat) :=
  [.act 0 (.signup request), .act 0 (.hash userId "salt"), .act 0 .proceed,
    .act 1 (.session (.login ⟨"a@maple.kr", "maple1"⟩)), .act 1 (.session .proceed),
    .act 1 (.session (.issue firstId "first" "salt")), .act 1 (.session .proceed),
    .act 2 (.session (.refresh "first")), .act 2 (.session .proceed), .act 2 (.session .proceed),
    .act 2 (.session .proceed), .act 2 (.session (.issue secondId "second" "salt")),
    .act 2 (.session .proceed)]

def refreshedState : AccountState Nat :=
  (run (accountStep env) fromSignUp (accountInitial 0)).getD (accountInitial 0)

theorem refreshed_run :
    run (accountStep env) fromSignUp (accountInitial 0) = some refreshedState := by
  have hview : (run (accountStep env) fromSignUp (accountInitial 0)).map
      (fun s : AccountState Nat => s.shared.db.tokens.length) = some 2 := by decide +kernel
  exact (run_of_view hview).1

theorem refreshed_call :
    refreshedState.locals 2 = .session (.done (.ok (.refresh ⟨"signed"⟩))) :=
  rfl

end SampleAuth

open SampleAuth in
theorem tokens_come_from_passwords_sample :
    MintedFor env fromSignUp refreshedState.shared.db "signed" :=
  (tokens_come_from_passwords refreshed_run).2.2.2.1 2 ⟨"signed"⟩ refreshed_call

end MapleRewards
