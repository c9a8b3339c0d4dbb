import MapleRewards.AuthCalls

/-!
# Sessions

A client logs in and then refreshes with the last refresh token it was given, while
other clients call the service as well. Calls run one after another. The clock and the
random generator are restricted as the platform promises: time does not run backwards,
a new id is not stored yet and a new secret has nothing in common with the old ones.
-/
namespace MapleRewards

open LabelledRuns Collection

/-- What bcrypt promises of a secret and its own hash. -/
structure AuthEnv.Lawful (env : AuthEnv) : Prop where
  compare_hash : ∀ plain salt, env.compare plain (env.hash plain salt) = true

/-- What a call generates and reads from the clock, in this order. -/
structure Generated where
  newId : ObjectId
  secret : String
  salt : String
  foundAt : Int
  checkedAt : Int
  signedAt : Int
  issuedAt : Int
  found_le : foundAt ≤ checkedAt
  checked_le : checkedAt ≤ signedAt
  signed_le : signedAt ≤ issuedAt

inductive AuthCommand where
  | login : LoginRequestDto → Generated → AuthCommand
  | refresh : String → Generated → AuthCommand

def AuthCommand.generated : AuthCommand → Generated
  | login _ g => g
  | refresh _ g => g

def AuthCommand.serve (env : AuthEnv) (db : AuthDb) :
    AuthCommand → Except Thrown AuthResponse × AuthDb
  | login request g =>
    let outcome := AuthService.login env db request g.secret g.salt g.newId g.checkedAt g.signedAt
      g.issuedAt
    (outcome.1.map .login, outcome.2)
  | refresh oldToken g =>
    let outcome := AuthService.refresh env db oldToken g.secret g.salt g.newId g.foundAt
      g.checkedAt g.signedAt g.issuedAt
    (outcome.1.map .refresh, outcome.2)

/-- The user whose tokens the call rotates; none if its checks refuse it. -/
def AuthCommand.rotates (env : AuthEnv) (db : AuthDb) : AuthCommand → Option ObjectId
  | login request _ =>
    match checkCredentials env (UserRepository.findByEmail db request.email) request.password with
    | .error _ => none
    | .ok user => some user._id
  | refresh oldToken g =>
    match checkRefreshToken (RefreshTokensRepository.findByToken env db oldToken g.foundAt)
      g.checkedAt with
    | .error _ => none
    | .ok row => some row.userId

/-- The refresh token in a reply: only a login returns one. -/
def repliedToken : Except Thrown AuthResponse → Option String
  | .ok (.login response) => some response.refreshToken
  | .ok (.refresh _) => none
  | .error _ => none

structure Client where
  held : String
  replies : List (Except Thrown AuthResponse)

/-- `returned` are the refresh tokens in all replies so far. -/
structure SessionState where
  now : Int
  db : AuthDb
  returned : List String
  client : Option Client

/-- A call by the client or by anybody else. -/
inductive SessionMove where
  | login : LoginRequestDto → Generated → SessionMove
  | refresh : Generated → SessionMove
  | other : AuthCommand → SessionMove

def sessionInitial (users : List UserDocument) (now : Int) : SessionState :=
  ⟨now, ⟨users, []⟩, [], none⟩

/-- The rows that a secret opens. -/
def AuthDb.opened (env : AuthEnv) (db : AuthDb) (secret : String) : List RefreshTokenDocument :=
  db.tokens.filter fun row => env.compare secret row.tokenHash

namespace SessionState

def fresh (env : AuthEnv) (s : SessionState) (g : Generated) : Bool :=
  decide (s.now ≤ g.foundAt) && s.db.tokens.all (fun row => row._id != g.newId) &&
    (s.db.opened env g.secret).isEmpty &&
    s.returned.all fun secret => !env.compare secret (env.hash g.secret g.salt)

def heldRows (env : AuthEnv) (s : SessionState) : List RefreshTokenDocument :=
  match s.client with
  | none => []
  | some c => s.db.opened env c.held

/-- The state after a call; `client` says what becomes of the client on its reply. -/
def after (env : AuthEnv) (s : SessionState) (command : AuthCommand)
    (client : Except Thrown AuthResponse → Option Client) : SessionState :=
  let outcome := command.serve env s.db
  ⟨command.generated.issuedAt, outcome.2, s.returned ++ (repliedToken outcome.1).toList,
    client outcome.1⟩

end SessionState

/-- After a login the client holds the token of the reply. -/
def Client.loggedIn (client : Option Client) (reply : Except Thrown AuthResponse) : Option Client :=
  match repliedToken reply with
  | none => client
  | some secret => some ⟨secret, []⟩

def Client.refreshed (c : Client) (reply : Except Thrown AuthResponse) : Option Client :=
  some ⟨(repliedToken reply).getD c.held, c.replies ++ [reply]⟩

/-- The client refreshes before the token it holds expires, and nobody else rotates the
tokens of its user. -/
def sessionStep (env : AuthEnv) (s : SessionState) : SessionMove → Option SessionState
  | .login request g =>
    if s.fresh env g then some (s.after env (.login request g) (Client.loggedIn s.client)) else none
  | .refresh g =>
    match s.client with
    | none => none
    | some c =>
      if s.fresh env g && (s.heldRows env).all fun row => decide (g.checkedAt < row.expiresAt) then
        some (s.after env (.refresh c.held g) c.refreshed)
      else none
  | .other command =>
    if s.fresh env command.generated &&
        (s.heldRows env).all fun row => command.rotates env s.db != some row.userId then
      some (s.after env command fun _ => s.client)
    else none

/-! ## What the client and the store should look like -/

/-- Every refresh of the client in its session has succeeded. -/
def Continuous (s : SessionState) : Prop :=
  ∀ c, s.client = some c → ∀ reply ∈ c.replies, reply.isOk = true

/-- Every usable token was returned to somebody. -/
def NoOrphans (env : AuthEnv) (s : SessionState) : Prop :=
  ∀ row ∈ s.db.tokens, row.usable s.now = true →
    ∃ secret ∈ s.returned, env.compare secret row.tokenHash = true

/-- The client refreshes at most once in a session. -/
def RefreshesOnce (s : SessionState) : SessionMove → Prop
  | .refresh _ => ∀ c, s.client = some c → c.replies = []
  | _ => True

/-- The client does not refresh, and the refreshes of others present no usable token. -/
def NoRotation (env : AuthEnv) (s : SessionState) : SessionMove → Prop
  | .refresh _ => False
  | .other (.refresh oldToken g) => (AuthCommand.refresh oldToken g).rotates env s.db = none
  | _ => True

/-! ## What a call does to the store -/

/-- Revoke the rows that `hit` selects and store one more row. -/
def AuthDb.rotate (db : AuthDb) (hit : RefreshTokenDocument → Bool) (row : RefreshTokenDocument) :
    AuthDb :=
  { db with
    tokens := (db.tokens.map fun r => if hit r then { r with revoked := true } else r) ++ [row] }

structure StoreSound (env : AuthEnv) (now : Int) (db : AuthDb) : Prop where
  ids : (db.tokens.map RefreshTokenDocument._id).Nodup
  owners : ∀ row ∈ db.tokens, ∃ user, UserRepository.findById db row.userId = some user
  expiry : ∀ row ∈ db.tokens, row.expiresAt ≤ now + env.refreshExpiresDays * 24 * 3600 * 1000

/-- Everything a call can do to a sound store that has no row with its new id. -/
inductive Served (env : AuthEnv) (db : AuthDb) :
    AuthCommand → Except Thrown AuthResponse → AuthDb → Prop where
  | refused (command : AuthCommand) (err : Thrown) (hnone : command.rotates env db = none) :
      Served env db command (.error err) db
  | login (request : LoginRequestDto) (g : Generated) (user : UserDocument) (accessToken : String)
      (huser : UserRepository.findByEmail db request.email = some user)
      (hrotates : (AuthCommand.login request g).rotates env db = some user._id) :
      Served env db (.login request g) (.ok (.login ⟨accessToken, g.secret⟩))
        (db.rotate (fun r => r.userId == user._id && r.usable g.checkedAt)
          (env.refreshRow g.newId user._id g.secret g.salt g.issuedAt))
  | refresh (oldToken : String) (g : Generated) (old : RefreshTokenDocument) (accessToken : String)
      (hfound : RefreshTokensRepository.findByToken env db oldToken g.foundAt = some old)
      (hrotates : (AuthCommand.refresh oldToken g).rotates env db = some old.userId) :
      Served env db (.refresh oldToken g) (.ok (.refresh ⟨accessToken⟩))
        (db.rotate (fun r => r._id == old._id)
          (env.refreshRow g.newId old.userId g.secret g.salt g.issuedAt))

theorem revoke_eq_map {db : AuthDb} (hids : (db.tokens.map RefreshTokenDocument._id).Nodup)
    (id : ObjectId) :
    (RefreshTokensRepository.revoke db id).tokens =
      db.tokens.map fun r => if r._id == id then { r with revoked := true } else r :=
  updateFirst_eq_map RefreshTokenDocument._id hids

/-- Storing a new row after a revocation is a rotation. -/
theorem create_revoked {db : AuthDb} {hit : RefreshTokenDocument → Bool}
    {row : RefreshTokenDocument} (hfresh : ∀ r ∈ db.tokens, r._id ≠ row._id) :
    RefreshTokensRepository.create
      { db with tokens := db.tokens.map fun r => if hit r then { r with revoked := true } else r }
      row = .ok (db.rotate hit row) := by
  refine create_eq_ok.mpr ⟨?_, rfl⟩
  intro r hr
  obtain ⟨r₀, hr₀, rfl⟩ := List.mem_map.mp hr
  have hne := hfresh r₀ hr₀
  split <;> exact hne

theorem login_served {env : AuthEnv} {db : AuthDb} (request : LoginRequestDto) (g : Generated)
    (hfresh : ∀ r ∈ db.tokens, r._id ≠ g.newId) :
    Served env db (.login request g) ((AuthCommand.login request g).serve env db).1
      ((AuthCommand.login request g).serve env db).2 := by
  cases hcheck : checkCredentials env (UserRepository.findByEmail db request.email)
      request.password with
  | error err =>
    have hserve : (AuthCommand.login request g).serve env db = (.error err, db) := by
      simp [AuthCommand.serve, AuthService.login, hcheck, Except.map]
    rw [hserve]
    exact .refused _ err (by simp [AuthCommand.rotates, hcheck])
  | ok user =>
    have hcreate : RefreshTokensRepository.create
        (RefreshTokensRepository.revokeAllByUser db user._id g.checkedAt)
        (env.refreshRow g.newId user._id g.secret g.salt g.issuedAt) =
        .ok (db.rotate (fun r => r.userId == user._id && r.usable g.checkedAt)
          (env.refreshRow g.newId user._id g.secret g.salt g.issuedAt)) := create_revoked hfresh
    have hserve : ∃ accessToken, (AuthCommand.login request g).serve env db =
        (.ok (.login ⟨accessToken, g.secret⟩),
          db.rotate (fun r => r.userId == user._id && r.usable g.checkedAt)
            (env.refreshRow g.newId user._id g.secret g.salt g.issuedAt)) := by
      simp [AuthCommand.serve, AuthService.login, hcheck, hcreate, Except.map]
    obtain ⟨accessToken, hserve⟩ := hserve
    rw [hserve]
    exact .login request g user accessToken (checkCredentials_eq_ok hcheck)
      (by simp [AuthCommand.rotates, hcheck])

theorem refresh_served {env : AuthEnv} {now : Int} {db : AuthDb} (hsound : StoreSound env now db)
    (oldToken : String) (g : Generated) (hfresh : ∀ r ∈ db.tokens, r._id ≠ g.newId) :
    Served env db (.refresh oldToken g) ((AuthCommand.refresh oldToken g).serve env db).1
      ((AuthCommand.refresh oldToken g).serve env db).2 := by
  cases hcheck : checkRefreshToken
      (RefreshTokensRepository.findByToken env db oldToken g.foundAt) g.checkedAt with
  | error err =>
    have hserve : (AuthCommand.refresh oldToken g).serve env db = (.error err, db) := by
      simp [AuthCommand.serve, AuthService.refresh, hcheck, Except.map]
    rw [hserve]
    exact .refused _ err (by simp [AuthCommand.rotates, hcheck])
  | ok old =>
    have hfound := checkRefreshToken_eq_ok hcheck
    obtain ⟨user, huser⟩ := hsound.owners old (findByToken_eq_some hfound).1
    have hrevoke : RefreshTokensRepository.revoke db old._id =
        { db with tokens := db.tokens.map fun r =>
          if r._id == old._id then { r with revoked := true } else r } := by
      rw [← revoke_eq_map hsound.ids]
      rfl
    have hcreate : RefreshTokensRepository.create (RefreshTokensRepository.revoke db old._id)
        (env.refreshRow g.newId old.userId g.secret g.salt g.issuedAt) =
        .ok (db.rotate (fun r => r._id == old._id)
          (env.refreshRow g.newId old.userId g.secret g.salt g.issuedAt)) := by
      rw [hrevoke]
      exact create_revoked hfresh
    have huser' : UserRepository.findById (RefreshTokensRepository.revoke db old._id)
        old.userId = some user := huser
    have hserve : ∃ accessToken, (AuthCommand.refresh oldToken g).serve env db =
        (.ok (.refresh ⟨accessToken⟩), db.rotate (fun r => r._id == old._id)
          (env.refreshRow g.newId old.userId g.secret g.salt g.issuedAt)) := by
      simp [AuthCommand.serve, AuthService.refresh, hcheck, huser', hcreate, Except.map]
    obtain ⟨accessToken, hserve⟩ := hserve
    rw [hserve]
    exact .refresh oldToken g old accessToken hfound (by simp [AuthCommand.rotates, hcheck])

theorem serve_served {env : AuthEnv} {now : Int} {db : AuthDb} (hsound : StoreSound env now db)
    (command : AuthCommand) (hfresh : ∀ r ∈ db.tokens, r._id ≠ command.generated.newId) :
    Served env db command (command.serve env db).1 (command.serve env db).2 := by
  cases command with
  | login request g => exact login_served request g hfresh
  | refresh oldToken g => exact refresh_served hsound oldToken g hfresh

theorem mem_rotate {db : AuthDb} {hit : RefreshTokenDocument → Bool} {row r' : RefreshTokenDocument}
    (h : r' ∈ (db.rotate hit row).tokens) :
    (∃ r ∈ db.tokens, r'.userId = r.userId ∧ r'.expiresAt = r.expiresAt ∧
      (r'.revoked = false → r' = r)) ∨ r' = row := by
  cases List.mem_append.mp h with
  | inl hold =>
    obtain ⟨r, hr, rfl⟩ := List.mem_map.mp hold
    refine Or.inl ⟨r, hr, ?_⟩
    split
    · exact ⟨rfl, rfl, by simp⟩
    · exact ⟨rfl, rfl, fun _ => rfl⟩
  | inr hnew => exact Or.inr (List.mem_singleton.mp hnew)

theorem rotate_ids {db : AuthDb} (hit : RefreshTokenDocument → Bool) (row : RefreshTokenDocument) :
    (db.rotate hit row).tokens.map RefreshTokenDocument._id =
      db.tokens.map RefreshTokenDocument._id ++ [row._id] := by
  simp only [AuthDb.rotate, List.map_append, List.map_map, List.map_cons, List.map_nil]
  congr 1
  apply List.map_congr_left
  intro r _
  simp only [Function.comp_apply]
  split <;> rfl

/-- A rotation changes none of the rows that a secret opens but by revoking them. -/
theorem opened_rotate {env : AuthEnv} {db : AuthDb} {hit : RefreshTokenDocument → Bool}
    {row : RefreshTokenDocument} (secret : String) :
    (db.rotate hit row).opened env secret =
      ((db.opened env secret).map fun r => if hit r then { r with revoked := true } else r) ++
        if env.compare secret row.tokenHash then [row] else [] := by
  simp only [AuthDb.opened, AuthDb.rotate, List.filter_append, List.filter_map]
  rw [List.filter_singleton, Bool.cond_eq_ite]
  congr 2
  apply List.filter_congr
  intro r _
  simp only [Function.comp_apply]
  split <;> rfl

theorem opened_rotate_eq {env : AuthEnv} {db : AuthDb} {hit : RefreshTokenDocument → Bool}
    {row : RefreshTokenDocument} {secret : String}
    (hnew : env.compare secret row.tokenHash = false)
    (hhit : ∀ r ∈ db.opened env secret, hit r = false) :
    (db.rotate hit row).opened env secret = db.opened env secret := by
  have hsame : ((db.opened env secret).map fun r =>
      if hit r then { r with revoked := true } else r) = db.opened env secret := by
    conv_rhs => rw [← List.map_id (db.opened env secret)]
    apply List.map_congr_left
    intro r hr
    simp [hhit r hr]
  rw [opened_rotate, hsame, hnew]
  simp

theorem StoreSound.rotate {env : AuthEnv} {now : Int} {db : AuthDb} (h : StoreSound env now db)
    {hit : RefreshTokenDocument → Bool} {userId : ObjectId} {g : Generated}
    (hfresh : ∀ r ∈ db.tokens, r._id ≠ g.newId) (hnow : now ≤ g.issuedAt)
    (howner : ∃ user, UserRepository.findById db userId = some user) :
    StoreSound env g.issuedAt
      (db.rotate hit (env.refreshRow g.newId userId g.secret g.salt g.issuedAt)) := by
  constructor
  · rw [rotate_ids, ← List.map_singleton, ← List.map_append]
    exact nodup_append_singleton _ h.ids hfresh
  · intro r' hr'
    cases mem_rotate hr' with
    | inl hold =>
      obtain ⟨r, hr, huserId, -, -⟩ := hold
      rw [huserId]
      exact h.owners r hr
    | inr hnew =>
      rw [hnew]
      exact howner
  · intro r' hr'
    cases mem_rotate hr' with
    | inl hold =>
      obtain ⟨r, hr, -, hexpiresAt, -⟩ := hold
      have hexpiry := h.expiry r hr
      omega
    | inr hnew =>
      rw [hnew]
      exact Int.le_refl _

theorem findById_of_findByEmail {db : AuthDb} {email : String} {user : UserDocument}
    (h : UserRepository.findByEmail db email = some user) :
    ∃ found, UserRepository.findById db user._id = some found := by
  apply Option.isSome_iff_exists.mp
  rw [UserRepository.findById, List.find?_isSome]
  exact ⟨user, List.mem_of_find?_eq_some h, by simp⟩

theorem Generated.le_issuedAt {g : Generated} {now : Int} (h : now ≤ g.foundAt) :
    now ≤ g.issuedAt := by
  have hfound := g.found_le
  have hchecked := g.checked_le
  have hsigned := g.signed_le
  omega

theorem StoreSound.served {env : AuthEnv} {now : Int} {db db' : AuthDb}
    (h : StoreSound env now db) {command : AuthCommand} {reply : Except Thrown AuthResponse}
    (hserved : Served env db command reply db')
    (hfresh : ∀ r ∈ db.tokens, r._id ≠ command.generated.newId)
    (hnow : now ≤ command.generated.foundAt) : StoreSound env command.generated.issuedAt db' := by
  have hle := Generated.le_issuedAt hnow
  cases hserved with
  | refused command err hnone =>
    refine ⟨h.ids, h.owners, ?_⟩
    intro r hr
    have hexpiry := h.expiry r hr
    omega
  | login request g user accessToken huser hrotates =>
    exact h.rotate hfresh hle (findById_of_findByEmail huser)
  | refresh oldToken g old accessToken hfound hrotates =>
    have hold := (findByToken_eq_some hfound).1
    exact h.rotate hfresh hle (h.owners old hold)

/-! ## The client -/

/-- The client's token opens one row, which is not revoked before the client has used it
and revoked afterwards. -/
structure ClientSound (env : AuthEnv) (db : AuthDb) (returned : List String) (c : Client) :
    Prop where
  returned : c.held ∈ returned
  live : c.replies = [] → ∃ row, db.opened env c.held = [row] ∧ row.revoked = false
  spent : c.replies ≠ [] → ∀ row ∈ db.opened env c.held, row.revoked = true

/-- What one call has in common with the store it runs on. -/
structure IsFresh (env : AuthEnv) (s : SessionState) (g : Generated) : Prop where
  now : s.now ≤ g.foundAt
  newId : ∀ r ∈ s.db.tokens, r._id ≠ g.newId
  opened : s.db.opened env g.secret = []
  returned : ∀ secret ∈ s.returned, env.compare secret (env.hash g.secret g.salt) = false

theorem fresh_eq_true {env : AuthEnv} {s : SessionState} {g : Generated}
    (h : s.fresh env g = true) : IsFresh env s g := by
  simp only [SessionState.fresh, Bool.and_eq_true, decide_eq_true_eq, List.all_eq_true,
    List.isEmpty_iff, bne_iff_ne, Bool.not_eq_true'] at h
  exact ⟨h.1.1.1, h.1.1.2, h.1.2, h.2⟩

theorem findByToken_eq_head? (env : AuthEnv) (db : AuthDb) (token : String) (now : Int) :
    RefreshTokensRepository.findByToken env db token now =
      ((db.opened env token).filter fun row => row.usable now).head? := by
  rw [RefreshTokensRepository.findByToken, AuthDb.opened, List.filter_comm, List.head?_filter]

/-- Nobody rotates the tokens of the client's user. -/
theorem ClientSound.other {env : AuthEnv} {s : SessionState} {c : Client}
    (h : ClientSound env s.db s.returned c) {command : AuthCommand}
    {reply : Except Thrown AuthResponse} {db' : AuthDb} (hsound : StoreSound env s.now s.db)
    (hserved : Served env s.db command reply db') (hfresh : IsFresh env s command.generated)
    (hother : ∀ row ∈ s.db.opened env c.held, command.rotates env s.db ≠ some row.userId)
    (more : List String) : ClientSound env db' (s.returned ++ more) c := by
  have hopened : db'.opened env c.held = s.db.opened env c.held := by
    cases hserved with
    | refused command err hnone => rfl
    | login request g user accessToken huser hrotates =>
      apply opened_rotate_eq (hfresh.returned c.held h.returned)
      intro r hr
      have hne : r.userId ≠ user._id := by
        intro he
        exact hother r hr (he ▸ hrotates)
      simp [hne]
    | refresh oldToken g old accessToken hfound hrotates =>
      apply opened_rotate_eq (hfresh.returned c.held h.returned)
      intro r hr
      have hne : r._id ≠ old._id := by
        intro he
        have hold := (findByToken_eq_some hfound).1
        have hsame := List.inj_on_of_nodup_map hsound.ids (List.mem_of_mem_filter hr) hold he
        exact hother r hr (hsame ▸ hrotates)
      simp [hne]
  constructor
  · exact List.mem_append_left _ h.returned
  · rw [hopened]
    exact h.live
  · rw [hopened]
    exact h.spent

/-- A login hands out a token that opens its own row only. -/
theorem clientSound_loggedIn {env : AuthEnv} (henv : env.Lawful) {s : SessionState}
    {command : AuthCommand} {reply : Except Thrown AuthResponse} {db' : AuthDb}
    (hserved : Served env s.db command reply db') (hfresh : IsFresh env s command.generated)
    {secret : String} (hreply : repliedToken reply = some secret) :
    ClientSound env db' (s.returned ++ [secret]) ⟨secret, []⟩ := by
  cases hserved with
  | refused command err hnone => cases hreply
  | refresh oldToken g old accessToken hfound hrotates => cases hreply
  | login request g user accessToken huser hrotates =>
    cases hreply
    refine ⟨by simp, fun _ => ?_, fun hne => absurd rfl hne⟩
    rw [opened_rotate]
    have hnone : s.db.opened env g.secret = [] := hfresh.opened
    simp [hnone, AuthEnv.refreshRow, henv.compare_hash]

/-- The first refresh of a session succeeds and revokes the token that it presents. -/
theorem ClientSound.refresh_live {env : AuthEnv} {s : SessionState} {c : Client}
    (h : ClientSound env s.db s.returned c) {g : Generated} {reply : Except Thrown AuthResponse}
    {db' : AuthDb} (hfresh : IsFresh env s g) (hlive : c.replies = [])
    (hbefore : ∀ row ∈ s.db.opened env c.held, g.checkedAt < row.expiresAt)
    (hserved : Served env s.db (.refresh c.held g) reply db') :
    ∃ accessToken userId hit, reply = .ok (.refresh ⟨accessToken⟩) ∧
      db' = s.db.rotate hit (env.refreshRow g.newId userId g.secret g.salt g.issuedAt) ∧
        ∀ row ∈ db'.opened env c.held, row.revoked = true := by
  obtain ⟨row, hopened, hrevoked⟩ := h.live hlive
  have hexpires : g.checkedAt < row.expiresAt := hbefore row (by simp [hopened])
  have hle := g.found_le
  have hfind : RefreshTokensRepository.findByToken env s.db c.held g.foundAt = some row := by
    have husable : row.usable g.foundAt = true := usable_eq_true.mpr ⟨hrevoked, by omega⟩
    rw [findByToken_eq_head?, hopened]
    simp [husable]
  cases hserved with
  | refused command err hnone =>
    have hnot : ¬row.expiresAt < g.checkedAt := by omega
    simp [AuthCommand.rotates, hfind, checkRefreshToken, hrevoked, hnot] at hnone
  | refresh oldToken g old accessToken hfound hrotates =>
    cases hfind.symm.trans hfound
    refine ⟨accessToken, row.userId, _, rfl, rfl, ?_⟩
    rw [opened_rotate, hopened]
    simp [AuthEnv.refreshRow, hfresh.returned c.held h.returned]

/-- No later refresh of the session succeeds. -/
theorem ClientSound.refresh_spent {env : AuthEnv} {s : SessionState} {c : Client}
    (h : ClientSound env s.db s.returned c) {g : Generated} {reply : Except Thrown AuthResponse}
    {db' : AuthDb} (hspent : c.replies ≠ [])
    (hserved : Served env s.db (.refresh c.held g) reply db') :
    ∃ err, reply = .error err ∧ db' = s.db := by
  have hfind : RefreshTokensRepository.findByToken env s.db c.held g.foundAt = none := by
    rw [findByToken_eq_head?, List.head?_eq_none_iff, List.filter_eq_nil_iff]
    intro row hrow
    simp [RefreshTokenDocument.usable, h.spent hspent row hrow]
  cases hserved with
  | refused command err hnone => exact ⟨err, rfl, rfl⟩
  | refresh oldToken g old accessToken hfound hrotates =>
    rw [hfind] at hfound
    cases hfound

/-! ## One move -/

structure SessionSound (env : AuthEnv) (s : SessionState) : Prop where
  store : StoreSound env s.now s.db
  client : ∀ c, s.client = some c → ClientSound env s.db s.returned c

/-- Everything a move can do. -/
inductive Moved (env : AuthEnv) (s : SessionState) : SessionMove → SessionState → Prop where
  | login (request : LoginRequestDto) (g : Generated) (reply : Except Thrown AuthResponse)
      (db' : AuthDb) (hfresh : IsFresh env s g)
      (hserved : Served env s.db (.login request g) reply db') :
      Moved env s (.login request g)
        ⟨g.issuedAt, db', s.returned ++ (repliedToken reply).toList,
          Client.loggedIn s.client reply⟩
  | refresh (c : Client) (g : Generated) (reply : Except Thrown AuthResponse) (db' : AuthDb)
      (hclient : s.client = some c) (hfresh : IsFresh env s g)
      (hbefore : ∀ row ∈ s.db.opened env c.held, g.checkedAt < row.expiresAt)
      (hserved : Served env s.db (.refresh c.held g) reply db') :
      Moved env s (.refresh g)
        ⟨g.issuedAt, db', s.returned ++ (repliedToken reply).toList, c.refreshed reply⟩
  | other (command : AuthCommand) (reply : Except Thrown AuthResponse) (db' : AuthDb)
      (hfresh : IsFresh env s command.generated)
      (hother : ∀ row ∈ s.heldRows env, command.rotates env s.db ≠ some row.userId)
      (hserved : Served env s.db command reply db') :
      Moved env s (.other command)
        ⟨command.generated.issuedAt, db', s.returned ++ (repliedToken reply).toList, s.client⟩

theorem sessionStep_moved {env : AuthEnv} {s t : SessionState} {m : SessionMove}
    (hsound : StoreSound env s.now s.db) (h : sessionStep env s m = some t) : Moved env s m t := by
  cases m with
  | login request g =>
    simp only [sessionStep, Option.ite_none_right_eq_some] at h
    obtain ⟨hfresh, heq⟩ := h
    cases heq
    have hf := fresh_eq_true hfresh
    exact .login request g _ _ hf (serve_served hsound (.login request g) hf.newId)
  | refresh g =>
    cases hclient : s.client with
    | none => simp [sessionStep, hclient] at h
    | some c =>
      simp only [sessionStep, hclient, Option.ite_none_right_eq_some, Bool.and_eq_true,
        SessionState.heldRows, List.all_eq_true, decide_eq_true_eq] at h
      obtain ⟨⟨hfresh, hbefore⟩, heq⟩ := h
      cases heq
      have hf := fresh_eq_true hfresh
      exact .refresh c g _ _ hclient hf hbefore
        (serve_served hsound (.refresh c.held g) hf.newId)
  | other command =>
    simp only [sessionStep, Option.ite_none_right_eq_some, Bool.and_eq_true, List.all_eq_true,
      bne_iff_ne] at h
    obtain ⟨⟨hfresh, hother⟩, heq⟩ := h
    cases heq
    have hf := fresh_eq_true hfresh
    exact .other command _ _ hf hother (serve_served hsound command hf.newId)

theorem SessionSound.moved {env : AuthEnv} (henv : env.Lawful) {s t : SessionState}
    {m : SessionMove} (h : SessionSound env s) (hm : Moved env s m t) : SessionSound env t := by
  cases hm with
  | login request g reply db' hfresh hserved =>
    refine ⟨h.store.served hserved hfresh.newId hfresh.now, ?_⟩
    intro c hc
    cases hreply : repliedToken reply with
    | none =>
      have hsame : db' = s.db := by
        cases hserved with
        | refused command err hnone => rfl
        | login request g user accessToken huser hrotates => cases hreply
      simp only [Client.loggedIn, hreply] at hc
      have hold := h.client c hc
      rw [hsame]
      simpa using hold
    | some secret =>
      simp only [Client.loggedIn, hreply, Option.some.injEq] at hc
      rw [← hc]
      exact clientSound_loggedIn henv hserved hfresh hreply
  | refresh c g reply db' hclient hfresh hbefore hserved =>
    refine ⟨h.store.served hserved hfresh.newId hfresh.now, ?_⟩
    have hold := h.client c hclient
    intro c' hc
    by_cases hlive : c.replies = []
    · obtain ⟨accessToken, userId, hit, rfl, -, hspent⟩ :=
        hold.refresh_live hfresh hlive hbefore hserved
      cases hc
      refine ⟨List.mem_append_left _ hold.returned, ?_, fun _ => hspent⟩
      intro hnil
      simp at hnil
    · obtain ⟨err, rfl, rfl⟩ := hold.refresh_spent hlive hserved
      cases hc
      refine ⟨List.mem_append_left _ hold.returned, ?_, fun _ => hold.spent hlive⟩
      intro hnil
      simp at hnil
  | other command reply db' hfresh hother hserved =>
    refine ⟨h.store.served hserved hfresh.newId hfresh.now, ?_⟩
    intro c hc
    have hclient : s.client = some c := hc
    have hheld : ∀ row ∈ s.db.opened env c.held, command.rotates env s.db ≠ some row.userId := by
      simpa only [SessionState.heldRows, hclient] using hother
    exact (h.client c hclient).other h.store hserved hfresh hheld _

theorem continuous_moved {env : AuthEnv} {s t : SessionState} {m : SessionMove}
    (hsound : SessionSound env s) (h : Continuous s) (hm : Moved env s m t) :
    Continuous t ↔ RefreshesOnce s m := by
  cases hm with
  | login request g reply db' hfresh hserved =>
    refine iff_of_true ?_ trivial
    intro c hc
    cases hreply : repliedToken reply with
    | none =>
      simp only [Client.loggedIn, hreply] at hc
      exact h c hc
    | some secret =>
      simp only [Client.loggedIn, hreply, Option.some.injEq] at hc
      simp [← hc]
  | refresh c g reply db' hclient hfresh hbefore hserved =>
    have hc := hsound.client c hclient
    by_cases hlive : c.replies = []
    · obtain ⟨accessToken, userId, hit, rfl, -, -⟩ := hc.refresh_live hfresh hlive hbefore hserved
      apply iff_of_true
      · intro c' hc'
        cases hc'
        simp [hlive, Except.isOk, Except.toBool]
      · intro c' hc'
        cases hclient.symm.trans hc'
        exact hlive
    · obtain ⟨err, rfl, -⟩ := hc.refresh_spent hlive hserved
      apply iff_of_false
      · intro h'
        have hok := h' _ rfl (.error err) (by simp)
        cases hok
      · intro honce
        exact hlive (honce c hclient)
  | other command reply db' hfresh hother hserved => exact iff_of_true h trivial

/-- A rotated token is an orphan: it is usable and nobody was given its secret. -/
theorem not_noOrphans_of_rotate {env : AuthEnv} {s t : SessionState}
    {hit : RefreshTokenDocument → Bool} {userId : ObjectId} {g : Generated} (hfresh : IsFresh env s g)
    (hdays : 0 < env.refreshExpiresDays * 24 * 3600 * 1000)
    (hdb : t.db = s.db.rotate hit (env.refreshRow g.newId userId g.secret g.salt g.issuedAt))
    (hnow : t.now = g.issuedAt) (hreturned : t.returned = s.returned) : ¬NoOrphans env t := by
  intro h
  have husable : (env.refreshRow g.newId userId g.secret g.salt g.issuedAt).usable t.now = true := by
    rw [usable_eq_true, hnow]
    refine ⟨rfl, ?_⟩
    simp only [AuthEnv.refreshRow]
    omega
  obtain ⟨secret, hsecret, hopens⟩ := h _ (by rw [hdb]; simp [AuthDb.rotate]) husable
  rw [hreturned] at hsecret
  have hnot := hfresh.returned secret hsecret
  rw [AuthEnv.refreshRow] at hopens
  exact absurd hopens (by simp [hnot])

/-- A refresh is accepted only while refresh tokens live for some time. -/
theorem expiry_pos_of_findByToken {env : AuthEnv} {s : SessionState} {token : String} {now : Int}
    {old : RefreshTokenDocument} (h : StoreSound env s.now s.db) (hnow : s.now ≤ now)
    (hfound : RefreshTokensRepository.findByToken env s.db token now = some old) :
    0 < env.refreshExpiresDays * 24 * 3600 * 1000 := by
  have hmem := findByToken_eq_some hfound
  have hexpiry := h.expiry old hmem.1
  have husable := (usable_eq_true.mp hmem.2).2
  omega

theorem noOrphans_served {env : AuthEnv} (henv : env.Lawful) {s t : SessionState}
    {command : AuthCommand} {reply : Except Thrown AuthResponse}
    (hsound : StoreSound env s.now s.db) (h : NoOrphans env s)
    (hserved : Served env s.db command reply t.db) (hfresh : IsFresh env s command.generated)
    (hnow : t.now = command.generated.issuedAt)
    (hreturned : t.returned = s.returned ++ (repliedToken reply).toList) :
    NoOrphans env t ↔
      ∀ oldToken g, command = .refresh oldToken g → command.rotates env s.db = none := by
  have hle : s.now ≤ t.now := hnow ▸ Generated.le_issuedAt hfresh.now
  have hkeep : ∀ r ∈ s.db.tokens, r.usable t.now = true →
      ∃ secret ∈ t.returned, env.compare secret r.tokenHash = true := by
    intro r hr husable
    obtain ⟨hrevoked, hexpires⟩ := usable_eq_true.mp husable
    obtain ⟨secret, hsecret, hopens⟩ := h r hr (usable_eq_true.mpr ⟨hrevoked, by omega⟩)
    exact ⟨secret, hreturned ▸ List.mem_append_left _ hsecret, hopens⟩
  generalize hdb : t.db = db' at hserved
  cases hserved with
  | refused command err hnone =>
    refine iff_of_true ?_ fun _ _ _ => hnone
    unfold NoOrphans
    rw [hdb]
    exact hkeep
  | login request g user accessToken huser hrotates =>
    refine iff_of_true ?_ (by simp)
    intro r' hr' husable
    rw [hdb] at hr'
    cases mem_rotate hr' with
    | inl hold =>
      obtain ⟨r, hr, -, -, hkept⟩ := hold
      have hsame : r' = r := hkept (usable_eq_true.mp husable).1
      subst hsame
      exact hkeep r' hr husable
    | inr hnew =>
      refine ⟨g.secret, by simp [hreturned, repliedToken], ?_⟩
      rw [hnew]
      exact henv.compare_hash g.secret g.salt
  | refresh oldToken g old accessToken hfound hrotates =>
    apply iff_of_false
    · have hdays := expiry_pos_of_findByToken hsound hfresh.now hfound
      exact not_noOrphans_of_rotate hfresh hdays hdb hnow (by simp [hreturned, repliedToken])
    · intro hnone
      have hnot := hnone oldToken g rfl
      rw [hrotates] at hnot
      cases hnot

theorem undisturbed_moved {env : AuthEnv} (henv : env.Lawful) {s t : SessionState}
    {m : SessionMove} (hsound : SessionSound env s) (h : Continuous s ∧ NoOrphans env s)
    (hm : Moved env s m t) : (Continuous t ∧ NoOrphans env t) ↔ NoRotation env s m := by
  rw [continuous_moved hsound h.1 hm]
  cases hm with
  | login request g reply db' hfresh hserved =>
    have hfresh' : IsFresh env s (AuthCommand.login request g).generated := hfresh
    rw [noOrphans_served henv hsound.store h.2 hserved hfresh' rfl rfl]
    simp [RefreshesOnce, NoRotation]
  | refresh c g reply db' hclient hfresh hbefore hserved =>
    refine iff_of_false ?_ id
    rintro ⟨honce, horphans⟩
    have hc := hsound.client c hclient
    obtain ⟨accessToken, userId, hit, rfl, -, -⟩ :=
      hc.refresh_live hfresh (honce c hclient) hbefore hserved
    have hfresh' : IsFresh env s (AuthCommand.refresh c.held g).generated := hfresh
    rw [noOrphans_served henv hsound.store h.2 hserved hfresh' rfl rfl] at horphans
    have hnone := horphans c.held g rfl
    cases hserved with
    | refresh oldToken g old accessToken hfound hrotates =>
      rw [hrotates] at hnone
      cases hnone
  | other command reply db' hfresh hother hserved =>
    rw [noOrphans_served henv hsound.store h.2 hserved hfresh rfl rfl]
    cases command with
    | login request g => simp [RefreshesOnce, NoRotation]
    | refresh oldToken g => simp [RefreshesOnce, NoRotation]

/-! ## Runs -/

theorem sessionInitial_sound (env : AuthEnv) (users : List UserDocument) (now : Int) :
    SessionSound env (sessionInitial users now) :=
  ⟨⟨List.nodup_nil, by simp [sessionInitial], by simp [sessionInitial]⟩,
    by simp [sessionInitial]⟩

/-- A run keeps all sessions going exactly when no session refreshes twice, and it leaves
no orphan either exactly when nobody refreshes with a usable token. -/
theorem session_continuity_iff {env : AuthEnv} (henv : env.Lawful) (users : List UserDocument)
    (now : Int) (moves : List SessionMove) :
    (Always (sessionStep env) Continuous moves (sessionInitial users now) ↔
      Guarded (sessionStep env) RefreshesOnce moves (sessionInitial users now)) ∧
    (Always (sessionStep env) (fun s => Continuous s ∧ NoOrphans env s) moves
        (sessionInitial users now) ↔
      Guarded (sessionStep env) (NoRotation env) moves (sessionInitial users now)) := by
  have hinitial := sessionInitial_sound env users now
  have hsound : ∀ s m t, SessionSound env s → sessionStep env s m = some t →
      SessionSound env t := by
    intro s m t hs hstep
    exact hs.moved henv (sessionStep_moved hs.store hstep)
  constructor
  · refine always_iff_guarded (SessionSound env) ?_ ?_ hinitial
      (by simp [Continuous, sessionInitial])
    · intro s m t hs _ hstep
      exact hsound s m t hs hstep
    · intro s m t hs h hstep
      exact continuous_moved hs h (sessionStep_moved hs.store hstep)
  · refine always_iff_guarded (SessionSound env) ?_ ?_ hinitial
      ⟨by simp [Continuous, sessionInitial], by simp [NoOrphans, sessionInitial]⟩
    · intro s m t hs _ hstep
      exact hsound s m t hs hstep
    · intro s m t hs h hstep
      exact undisturbed_moved henv hs h (sessionStep_moved hs.store hstep)

namespace SampleAuth

def generated (newId : ObjectId) (secret : String) (now : Int) : Generated where
  newId := newId
  secret := secret
  salt := "salt"
  foundAt := now
  checkedAt := now
  signedAt := now
  issuedAt := now
  found_le := Int.le_refl now
  checked_le := Int.le_refl now
  signed_le := Int.le_refl now

/-- One login and two refreshes in a row. -/
def session : List SessionMove :=
  [.login ⟨"a@maple.kr", "pw"⟩ (generated firstId "one" 0), .refresh (generated secondId "two" 1),
    .refresh (generated thirdId "three" 2)]

def opening : SessionState := sessionInitial [user] 0

end SampleAuth

theorem session_continuity_iff_sample :
    (Always (sessionStep SampleAuth.env) Continuous SampleAuth.session SampleAuth.opening ↔
      Guarded (sessionStep SampleAuth.env) RefreshesOnce SampleAuth.session SampleAuth.opening) ∧
    (Always (sessionStep SampleAuth.env) (fun s => Continuous s ∧ NoOrphans SampleAuth.env s)
        SampleAuth.session SampleAuth.opening ↔
      Guarded (sessionStep SampleAuth.env) (NoRotation SampleAuth.env) SampleAuth.session
        SampleAuth.opening) :=
  session_continuity_iff ⟨by simp [SampleAuth.env]⟩ [SampleAuth.user] 0 SampleAuth.session

/-- The second refresh fails, and after the first one the store keeps a usable token that
the client never sees. -/
theorem session_lost :
    ¬Always (sessionStep SampleAuth.env) Continuous SampleAuth.session SampleAuth.opening ∧
      ¬Always (sessionStep SampleAuth.env) (NoOrphans SampleAuth.env) SampleAuth.session
        SampleAuth.opening := by
  constructor
  · intro halways
    have hreplies : (run (sessionStep SampleAuth.env) SampleAuth.session SampleAuth.opening).map
        (fun s => s.client.map fun c => c.replies.map Except.isOk) = some (some [true, false]) := by
      decide +kernel
    obtain ⟨s, hrun, hclient⟩ := Option.map_eq_some_iff.mp hreplies
    obtain ⟨c, hc, hmap⟩ := Option.map_eq_some_iff.mp hclient
    have hcont := always_iff_prefixes.mp halways _ _ List.prefix_rfl hrun c hc
    have hfalse : false ∈ c.replies.map Except.isOk := by simp [hmap]
    obtain ⟨reply, hreply, hno⟩ := List.mem_map.mp hfalse
    rw [hcont reply hreply] at hno
    cases hno
  · intro halways
    have horphan : (run (sessionStep SampleAuth.env) SampleAuth.session SampleAuth.opening).map
        (fun s => s.db.tokens.any fun row => row.usable s.now &&
          s.returned.all fun secret => !SampleAuth.env.compare secret row.tokenHash) =
            some true := by
      decide +kernel
    obtain ⟨s, hrun, hany⟩ := Option.map_eq_some_iff.mp horphan
    obtain ⟨row, hrow, hboth⟩ := List.any_eq_true.mp hany
    simp only [Bool.and_eq_true, List.all_eq_true, Bool.not_eq_true'] at hboth
    obtain ⟨secret, hsecret, hopens⟩ :=
      always_iff_prefixes.mp halways _ _ List.prefix_rfl hrun row hrow hboth.1
    rw [hboth.2 secret hsecret] at hopens
    cases hopens

end MapleRewards
