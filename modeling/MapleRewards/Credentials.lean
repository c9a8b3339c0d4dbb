import MapleRewards.Session

/-!
# Passwords and refresh tokens as credentials

bcrypt reads the first 72 bytes of the UTF-8 encoding of a secret. The request for a
signup puts no upper bound on a password, and a refresh token has 128 digits.
-/
namespace MapleRewards

open Processes LabelledRuns Collection

/-! ## What bcrypt compares -/

def utf8Bytes (s : String) : List UInt8 := s.toList.flatMap String.utf8EncodeChar

def bcryptKey (s : String) : List UInt8 := (utf8Bytes s).take 72

/-- A comparison sees the key of what it is given, and a hash the key of what was hashed. -/
structure AuthEnv.Truncates (env : AuthEnv) : Prop where
  compare_congr : ∀ plain plain' hashed, bcryptKey plain = bcryptKey plain' →
    env.compare plain hashed = env.compare plain' hashed
  compare_hash : ∀ plain secret salt,
    env.compare plain (env.hash secret salt) = true ↔ bcryptKey plain = bcryptKey secret

theorem AuthEnv.Truncates.lawful {env : AuthEnv} (h : env.Truncates) : env.Lawful :=
  ⟨fun plain salt => (h.compare_hash plain plain salt).mpr rfl⟩

theorem utf8Bytes_append (s t : String) : utf8Bytes (s ++ t) = utf8Bytes s ++ utf8Bytes t := by
  rw [utf8Bytes, String.toList_append, List.flatMap_append]
  rfl

theorem utf8Bytes_injective : Function.Injective utf8Bytes := by
  intro s t h
  have hencode : s.toList.utf8Encode = t.toList.utf8Encode := congrArg List.toByteArray h
  rw [String.utf8Encode_toList, String.utf8Encode_toList] at hencode
  exact String.toByteArray_inj.mp hencode

/-- Every character takes at least one byte. -/
theorem length_le_utf8Bytes (s : String) : s.toList.length ≤ (utf8Bytes s).length := by
  rw [utf8Bytes]
  induction s.toList with
  | nil => simp
  | cons c cs ih =>
    have hpos : 0 < (String.utf8EncodeChar c).length :=
      List.length_pos_iff.mpr String.utf8EncodeChar_ne_nil
    rw [List.flatMap_cons, List.length_append, List.length_cons]
    omega

/-- Nothing that follows the first 72 bytes changes the key. -/
theorem bcryptKey_append {secret : String} (h : 72 ≤ (utf8Bytes secret).length) (more : String) :
    bcryptKey (secret ++ more) = bcryptKey secret := by
  rw [bcryptKey, utf8Bytes_append, List.take_append_of_le_length h]
  rfl

theorem append_ne_self (secret : String) : secret ++ "x" ≠ secret := by
  intro h
  have hlength := congrArg (fun s => s.toList.length) h
  simp at hlength

/-- The secrets that no other string can stand in for are those below 72 bytes. -/
theorem bcryptKey_eq_iff (secret : String) :
    (∀ plain, bcryptKey plain = bcryptKey secret ↔ plain = secret) ↔
      (utf8Bytes secret).length < 72 := by
  constructor
  · intro hexact
    by_contra hlong
    have hsame := bcryptKey_append (Nat.le_of_not_lt hlong) "x"
    exact append_ne_self secret ((hexact _).mp hsame)
  · intro hshort plain
    refine ⟨?_, fun h => by rw [h]⟩
    intro hkey
    have hsecret : bcryptKey secret = utf8Bytes secret := List.take_of_length_le (by omega)
    rw [hsecret] at hkey
    have hlength := congrArg List.length hkey
    rw [bcryptKey, List.length_take] at hlength
    have hplain : bcryptKey plain = utf8Bytes plain := List.take_of_length_le (by omega)
    rw [hplain] at hkey
    exact utf8Bytes_injective hkey

theorem randomTokenString_length (bytes : Vector UInt8 64) :
    (randomTokenString bytes).toList.length = 128 := by
  simp [randomTokenString, List.length_flatMap]

/-- The 64 random bytes become 128, of which bcrypt reads 72. -/
theorem bcryptKey_randomTokenString (bytes : Vector UInt8 64) (more : String) :
    bcryptKey (randomTokenString bytes ++ more) = bcryptKey (randomTokenString bytes) := by
  apply bcryptKey_append
  have hle := length_le_utf8Bytes (randomTokenString bytes)
  rw [randomTokenString_length] at hle
  omega

/-! ## Writes to the store -/

/-- One write by a repository. Whatever signups, logins and refreshes do, they do it by
such writes, and between two writes of one call others may make theirs. -/
inductive AuthWrite where
  | createUser : UserDocument → AuthWrite
  | createToken : RefreshTokenDocument → AuthWrite
  | revoke : ObjectId → AuthWrite
  | revokeAllByUser : ObjectId → Int → AuthWrite

def writeStep (db : AuthDb) : AuthWrite → Option AuthDb
  | .createUser user => (UserRepository.create db user).toOption
  | .createToken row => (RefreshTokensRepository.create db row).toOption
  | .revoke id => some (RefreshTokensRepository.revoke db id)
  | .revokeAllByUser userId now => some (RefreshTokensRepository.revokeAllByUser db userId now)

/-- Everything one write can do. -/
inductive AuthWrote (db : AuthDb) : AuthDb → Prop where
  | user (user : UserDocument) : AuthWrote db { db with users := db.users ++ [user] }
  | token (row : RefreshTokenDocument) (hfresh : ∀ r ∈ db.tokens, r._id ≠ row._id) :
      AuthWrote db { db with tokens := db.tokens ++ [row] }
  | revoked (tokens : List RefreshTokenDocument)
      (hrows : List.Forall₂ (fun r r' : RefreshTokenDocument =>
        r'._id = r._id ∧ r'.tokenHash = r.tokenHash) db.tokens tokens) :
      AuthWrote db { db with tokens := tokens }

theorem toOption_eq_some {α : Type} {x : Except Thrown α} {a : α} (h : x.toOption = some a) :
    x = .ok a := by
  cases x with
  | error err => cases h
  | ok b =>
    cases h
    rfl

theorem writeStep_wrote {db db' : AuthDb} {write : AuthWrite}
    (h : writeStep db write = some db') : AuthWrote db db' := by
  cases write with
  | createUser user =>
    obtain ⟨-, rfl⟩ := createUser_eq_ok (toOption_eq_some h)
    exact .user user
  | createToken row =>
    obtain ⟨hfresh, rfl⟩ := create_eq_ok.mp (toOption_eq_some h)
    exact .token row hfresh
  | revoke id =>
    cases h
    exact .revoked _ (forall₂_updateFirst (fun _ => ⟨rfl, rfl⟩) _ (fun _ => ⟨rfl, rfl⟩) db.tokens)
  | revokeAllByUser userId now =>
    cases h
    refine .revoked _ ?_
    rw [List.forall₂_map_right_iff]
    apply List.forall₂_same.mpr
    intro r _
    split <;> exact ⟨rfl, rfl⟩

theorem signup_writes (env : AuthEnv) (db : AuthDb) (request : SignUpRequestDto) (salt : String)
    (newId : ObjectId) :
    Reachable writeStep db (AuthService.signup env db request salt newId).2 := by
  unfold AuthService.signup
  split
  · exact Reachable.refl _ db
  · split
    · exact Reachable.refl _ db
    · next db' hcreate =>
      have hstep : writeStep db (.createUser ⟨newId, request.email,
          env.hash request.password salt, request.name, ["USER"]⟩) = some db' := by
        rw [writeStep, hcreate]
        rfl
      exact Reachable.step hstep

theorem Acted.writes {κ : Type} {env : AuthEnv} {c : κ} {call call' : AuthCall}
    {w w' : AuthWorld κ} (h : Acted env c call w call' w') : Reachable writeStep w.db w'.db := by
  have hcreate : ∀ {db : AuthDb} {row : RefreshTokenDocument},
      (∀ r ∈ db.tokens, r._id ≠ row._id) →
      Reachable writeStep db { db with tokens := db.tokens ++ [row] } := by
    intro db row hfresh
    refine Reachable.step (e := .createToken row) ?_
    rw [writeStep, create_eq_ok.mpr ⟨hfresh, rfl⟩]
    rfl
  cases h with
  | throws call w err => exact Reachable.refl _ _
  | loginBegins request user w => exact Reachable.refl _ _
  | loginRevokes request user before w =>
    exact Reachable.step (e := .revokeAllByUser user._id w.now) rfl
  | loginIssues request user before row response hrow hnew w => exact Reachable.refl _ _
  | loginCreates row response before w hfresh => exact hcreate hfresh
  | refreshBegins oldToken w => exact Reachable.refl _ _
  | refreshChecks old before since w => exact Reachable.refl _ _
  | refreshRevokes old before since w => exact Reachable.step (e := .revoke old._id) rfl
  | refreshFindsUser old user before overtaken w => exact Reachable.refl _ _
  | refreshIssues old user before overtaken row response hrow hnew w => exact Reachable.refl _ _
  | refreshCreates old row response before overtaken w hfresh => exact hcreate hfresh

/-- Logins and refreshes that run at the same time make a run of writes. -/
theorem calls_write {κ : Type} [DecidableEq κ] {env : AuthEnv} {moves : List (AuthMove κ)}
    {s t : AuthState κ} (h : run (authStep env) moves s = some t) :
    Reachable writeStep s.shared.db t.shared.db := by
  refine run_relates (fun _ => True) (fun s t => Reachable writeStep s.shared.db t.shared.db)
    (fun _ => Reachable.refl _ _) (fun _ _ _ => Reachable.trans) ?_ trivial h
  intro s move t _ hstep
  refine ⟨trivial, ?_⟩
  rcases step_cases hstep with ⟨c, i, call, w, -, hact, rfl⟩ | ⟨elapsed, -, rfl⟩
  · exact (act_acted hact).writes
  · exact Reachable.refl _ _

/-! ## Passwords -/

/-- The user that a signup stores is the one found by its email ever after. -/
theorem findByEmail_kept {db later : AuthDb} (h : Reachable writeStep db later) {email : String}
    {user : UserDocument} (huser : UserRepository.findByEmail db email = some user) :
    UserRepository.findByEmail later email = some user := by
  refine h.invariant (fun db => UserRepository.findByEmail db email = some user) ?_ huser
  intro db write db' hfound hwrite
  cases writeStep_wrote hwrite with
  | user new =>
    rw [UserRepository.findByEmail] at hfound
    rw [UserRepository.findByEmail, List.find?_append, hfound]
    rfl
  | token row hfresh => exact hfound
  | revoked tokens hrows => exact hfound

theorem signup_stores {env : AuthEnv} {db db' : AuthDb} {request : SignUpRequestDto}
    {salt : String} {newId : ObjectId} {response : SignUpResponseDto}
    (h : AuthService.signup env db request salt newId = (.ok response, db')) :
    ∃ user, UserRepository.findByEmail db' request.email = some user ∧
      user.passwordHash = env.hash request.password salt := by
  unfold AuthService.signup at h
  split at h
  · cases h
  · split at h
    · cases h
    · next created hcreate =>
      cases h
      obtain ⟨hfree, rfl⟩ := createUser_eq_ok hcreate
      have hnone : db.users.find? (fun u => u.email == request.email) = none := by
        rw [List.find?_eq_none]
        intro u hu
        simpa using hfree u hu
      refine ⟨⟨newId, request.email, env.hash request.password salt, request.name, ["USER"]⟩,
        ?_, rfl⟩
      rw [UserRepository.findByEmail, List.find?_append, hnone]
      simp

/-- With a fresh id for its token, a login succeeds exactly when the password is accepted. -/
theorem login_isOk_iff {env : AuthEnv} {db : AuthDb} {email : String} {user : UserDocument}
    (huser : UserRepository.findByEmail db email = some user) {newId : ObjectId}
    (hfresh : ∀ r ∈ db.tokens, r._id ≠ newId) (password secret salt : String)
    (revokedAt signedAt issuedAt : Int) :
    (AuthService.login env db ⟨email, password⟩ secret salt newId revokedAt signedAt
      issuedAt).1.isOk = true ↔ env.compare password user.passwordHash = true := by
  have hcheck : checkCredentials env (UserRepository.findByEmail db email) password =
      if !env.compare password user.passwordHash then throwAuth .INVALID_CREDENTIALS
      else .ok user := by
    rw [huser]
    rfl
  have hcreate : RefreshTokensRepository.create
      (RefreshTokensRepository.revokeAllByUser db user._id revokedAt)
      (env.refreshRow newId user._id secret salt issuedAt) =
      .ok (db.rotate (fun r => r.userId == user._id && r.usable revokedAt)
        (env.refreshRow newId user._id secret salt issuedAt)) := create_revoked hfresh
  cases hcompare : env.compare password user.passwordHash with
  | false => simp [AuthService.login, hcheck, hcompare, throwAuth, Except.isOk, Except.toBool]
  | true => simp [AuthService.login, hcheck, hcompare, hcreate, Except.isOk, Except.toBool]

/-! ## Refresh tokens -/

/-- One row has the id, and the hash that a login stored with it. -/
structure TokenStored (db : AuthDb) (id : ObjectId) (tokenHash : String) : Prop where
  stored : ∃ row ∈ db.tokens, row._id = id
  hashed : ∀ row ∈ db.tokens, row._id = id → row.tokenHash = tokenHash

theorem TokenStored.kept {db later : AuthDb} (h : Reachable writeStep db later) {id : ObjectId}
    {tokenHash : String} (hstored : TokenStored db id tokenHash) :
    TokenStored later id tokenHash := by
  refine h.invariant (fun db => TokenStored db id tokenHash) ?_ hstored
  rintro db write db' ⟨⟨row, hrow, hid⟩, hhashed⟩ hwrite
  cases writeStep_wrote hwrite with
  | user user => exact ⟨⟨row, hrow, hid⟩, hhashed⟩
  | token new hfresh =>
    refine ⟨⟨row, List.mem_append_left _ hrow, hid⟩, ?_⟩
    intro r hr hrid
    rcases List.mem_append.mp hr with hold | hnew
    · exact hhashed r hold hrid
    · cases List.mem_singleton.mp hnew
      exact absurd (hid.trans hrid.symm) (hfresh row hrow)
  | revoked tokens hrows =>
    constructor
    · obtain ⟨row', hrow', hsame⟩ := mem_of_forall₂ hrows.flip hrow
      exact ⟨row', hrow', hsame.1.trans hid⟩
    · intro r' hr' hid'
      obtain ⟨r, hr, hsame⟩ := mem_of_forall₂ hrows hr'
      rw [hsame.2]
      exact hhashed r hr (hsame.1.symm.trans hid')

theorem login_stores {env : AuthEnv} {db db' : AuthDb} {request : LoginRequestDto}
    {secret salt : String} {newId : ObjectId} {revokedAt signedAt issuedAt : Int}
    {response : LoginResponseDto}
    (h : AuthService.login env db request secret salt newId revokedAt signedAt issuedAt =
      (.ok response, db')) :
    response.refreshToken = secret ∧ TokenStored db' newId (env.hash secret salt) := by
  unfold AuthService.login at h
  split at h
  · cases h
  · next user hcheck =>
    simp only at h
    split at h
    · cases h
    · next created hcreate =>
      cases h
      obtain ⟨hfresh, rfl⟩ := create_eq_ok.mp hcreate
      refine ⟨rfl, ⟨env.refreshRow newId user._id secret salt issuedAt, by simp, rfl⟩, ?_⟩
      intro row hrow hid
      rcases List.mem_append.mp hrow with hold | hnew
      · exact absurd hid (hfresh row hold)
      · rw [List.mem_singleton.mp hnew]
        rfl

/-- The row with the id is usable and comes before all usable rows that the token opens. -/
def FirstOpened (env : AuthEnv) (db : AuthDb) (token : String) (now : Int) (id : ObjectId) :
    Prop :=
  ∃ before row after, db.tokens = before ++ row :: after ∧ row._id = id ∧
    row.usable now = true ∧
      ∀ r ∈ before, r.usable now = true → env.compare token r.tokenHash = false

theorem findByToken_eq_find? (env : AuthEnv) (db : AuthDb) (token : String) (now : Int) :
    RefreshTokensRepository.findByToken env db token now =
      db.tokens.find? fun row => row.usable now && env.compare token row.tokenHash := by
  simp [RefreshTokensRepository.findByToken, List.find?_filter]

theorem findByToken_congr {env : AuthEnv} (henv : env.Truncates) (db : AuthDb)
    {token token' : String} (h : bcryptKey token = bcryptKey token') (now : Int) :
    RefreshTokensRepository.findByToken env db token now =
      RefreshTokensRepository.findByToken env db token' now := by
  simp only [RefreshTokensRepository.findByToken, henv.compare_congr token token' _ h]

theorem firstOpened_iff {env : AuthEnv} {db : AuthDb} {id : ObjectId} {token salt : String}
    (henv : env.Truncates) (hstored : TokenStored db id (env.hash token salt)) {now : Int} :
    FirstOpened env db token now id ↔
      ∃ row, RefreshTokensRepository.findByToken env db token now = some row ∧ row._id = id := by
  have hopens : ∀ row ∈ db.tokens, row._id = id → env.compare token row.tokenHash = true := by
    intro row hrow hid
    rw [hstored.hashed row hrow hid, henv.compare_hash]
  simp only [findByToken_eq_find?, List.find?_eq_some_iff_append]
  constructor
  · rintro ⟨before, row, after, htokens, hid, husable, hbefore⟩
    refine ⟨row, ⟨?_, before, after, htokens, ?_⟩, hid⟩
    · rw [husable, hopens row (by simp [htokens]) hid]
      rfl
    · intro r hr
      cases hused : r.usable now with
      | false => rfl
      | true => simp [hbefore r hr hused]
  · rintro ⟨row, ⟨hfound, before, after, htokens, hbefore⟩, hid⟩
    rw [Bool.and_eq_true] at hfound
    refine ⟨before, row, after, htokens, hid, hfound.1, ?_⟩
    intro r hr hused
    simpa [hused] using hbefore r hr

/-! ## Both kinds of credentials -/

theorem password_exact_iff {env : AuthEnv} (henv : env.Truncates) {db db' later : AuthDb}
    {request : SignUpRequestDto} {salt : String} {newId : ObjectId} {response : SignUpResponseDto}
    (h : AuthService.signup env db request salt newId = (.ok response, db'))
    (hlater : Reachable writeStep db' later) {tokenId : ObjectId}
    (hfresh : ∀ r ∈ later.tokens, r._id ≠ tokenId) (secret tokenSalt : String)
    (revokedAt signedAt issuedAt : Int) :
    (∀ password, (AuthService.login env later ⟨request.email, password⟩ secret tokenSalt tokenId
        revokedAt signedAt issuedAt).1.isOk = true ↔ password = request.password) ↔
      (utf8Bytes request.password).length < 72 := by
  obtain ⟨user, huser, hhash⟩ := signup_stores h
  have hfound := findByEmail_kept hlater huser
  rw [← bcryptKey_eq_iff]
  apply forall_congr'
  intro password
  rw [login_isOk_iff hfound hfresh, hhash, henv.compare_hash]

theorem refreshToken_exact_iff {env : AuthEnv} (henv : env.Truncates) {db db' later : AuthDb}
    {request : LoginRequestDto} {bytes : Vector UInt8 64} {salt : String} {newId : ObjectId}
    {revokedAt signedAt issuedAt : Int} {response : LoginResponseDto}
    (h : AuthService.login env db request (randomTokenString bytes) salt newId revokedAt signedAt
      issuedAt = (.ok response, db'))
    (hlater : Reachable writeStep db' later) (now : Int) :
    (∀ token row, RefreshTokensRepository.findByToken env later token now = some row →
        row._id = newId → token = response.refreshToken) ↔
      ¬FirstOpened env later response.refreshToken now newId := by
  obtain ⟨htoken, hstored⟩ := login_stores h
  have hkept := hstored.kept hlater
  rw [htoken, firstOpened_iff henv hkept]
  constructor
  · rintro hexact ⟨row, hrow, hid⟩
    have hkey := bcryptKey_randomTokenString bytes "x"
    rw [← findByToken_congr henv later hkey] at hrow
    exact append_ne_self _ (hexact _ row hrow hid)
  · intro hnot token row hrow hid
    have hopens : env.compare token row.tokenHash = true := by
      rw [findByToken_eq_find?] at hrow
      exact (Bool.and_eq_true _ _ ▸ List.find?_some hrow).2
    rw [hkept.hashed row (findByToken_eq_some hrow).1 hid, henv.compare_hash] at hopens
    rw [findByToken_congr henv later hopens] at hrow
    exact absurd ⟨row, hrow, hid⟩ hnot

/-- After a signup, whatever has been written since, its password is the only one accepted
exactly when it is below 72 bytes; a login's token is the only string that finds its row
exactly when the row cannot be found at all. -/
theorem credentials_exact_iff {env : AuthEnv} (henv : env.Truncates) :
    (∀ db request salt newId response db',
      AuthService.signup env db request salt newId = (.ok response, db') →
      ∀ later, Reachable writeStep db' later →
      ∀ tokenId, (∀ r ∈ later.tokens, r._id ≠ tokenId) →
      ∀ secret tokenSalt revokedAt signedAt issuedAt,
        (∀ password, (AuthService.login env later ⟨request.email, password⟩ secret tokenSalt tokenId
          revokedAt signedAt issuedAt).1.isOk = true ↔ password = request.password) ↔
        (utf8Bytes request.password).length < 72) ∧
    (∀ db request bytes salt newId revokedAt signedAt issuedAt response db',
      AuthService.login env db request (randomTokenString bytes) salt newId revokedAt signedAt
        issuedAt = (.ok response, db') →
      ∀ later, Reachable writeStep db' later → ∀ now,
        (∀ token row, RefreshTokensRepository.findByToken env later token now = some row →
          row._id = newId → token = response.refreshToken) ↔
        ¬FirstOpened env later response.refreshToken now newId) := by
  constructor
  · intro db request salt newId response db' h later hlater tokenId hfresh
    exact password_exact_iff henv h hlater hfresh
  · intro db request bytes salt newId revokedAt signedAt issuedAt response db' h later hlater
    exact refreshToken_exact_iff henv h hlater

namespace SampleSecrets

/-- Hashing keeps the secret, and comparing looks at the first 72 bytes. -/
def env : AuthEnv :=
  { SampleAuth.env with compare := fun plain hashed => bcryptKey plain == bcryptKey hashed }

theorem env_truncates : env.Truncates where
  compare_congr plain plain' hashed h := by simp [env, h]
  compare_hash plain secret salt := by simp [env, SampleAuth.env]

def email : String := "a@maple.kr"

def password : String := String.ofList (List.replicate 72 'a')

def signUp : SignUpRequestDto := ⟨email, password, "Ann"⟩

def secret : String := randomTokenString (Vector.replicate 64 0)

def user : UserDocument := ⟨SampleAuth.userId, email, password, "Ann", ["USER"]⟩

def row : RefreshTokenDocument :=
  env.refreshRow SampleAuth.firstId SampleAuth.userId secret "salt" 0

/-- The store after the signup. -/
def registered : AuthDb := (AuthService.signup env ⟨[], []⟩ signUp "salt" SampleAuth.userId).2

def login (password : String) : Except Thrown LoginResponseDto × AuthDb :=
  AuthService.login env registered ⟨email, password⟩ secret "salt" SampleAuth.firstId 0 0 0

theorem login_password : login password = (.ok ⟨"signed", secret⟩, ⟨[user], [row]⟩) := (rfl)

end SampleSecrets

theorem credentials_exact_iff_sample :
    ((∀ password, (SampleSecrets.login password).1.isOk = true ↔
        password = SampleSecrets.password) ↔ (utf8Bytes SampleSecrets.password).length < 72) ∧
    ((∀ token row, RefreshTokensRepository.findByToken SampleSecrets.env
        (SampleSecrets.login SampleSecrets.password).2 token 1 = some row →
        row._id = SampleAuth.firstId → token = SampleSecrets.secret) ↔
      ¬FirstOpened SampleSecrets.env (SampleSecrets.login SampleSecrets.password).2
        SampleSecrets.secret 1 SampleAuth.firstId) := by
  obtain ⟨hpassword, htoken⟩ := credentials_exact_iff SampleSecrets.env_truncates
  have hnone : SampleSecrets.registered.tokens = [] := rfl
  constructor
  · exact hpassword ⟨[], []⟩ SampleSecrets.signUp "salt" SampleAuth.userId _ _ rfl
      SampleSecrets.registered (Reachable.refl _ _) SampleAuth.firstId (by simp [hnone])
      SampleSecrets.secret "salt" 0 0 0
  · rw [SampleSecrets.login_password]
    exact htoken SampleSecrets.registered ⟨SampleSecrets.email, SampleSecrets.password⟩
      (Vector.replicate 64 0) "salt" SampleAuth.firstId 0 0 0 _ _ SampleSecrets.login_password _
      (Reachable.refl _ _) 1

/-- A password of 72 letters, which the validators accept, and the token of the first login
both open to one letter more. -/
theorem credentials_shared :
    SampleSecrets.signUp.valid (fun email => email == SampleSecrets.email) = true ∧
      ¬(∀ password, (SampleSecrets.login password).1.isOk = true ↔
        password = SampleSecrets.password) ∧
      ¬(∀ token row, RefreshTokensRepository.findByToken SampleSecrets.env
        (SampleSecrets.login SampleSecrets.password).2 token 1 = some row →
        row._id = SampleAuth.firstId → token = SampleSecrets.secret) := by
  refine ⟨by decide +kernel, ?_, ?_⟩
  · intro hexact
    exact append_ne_self _ ((hexact (SampleSecrets.password ++ "x")).mp (by decide +kernel))
  · rw [SampleSecrets.login_password]
    intro hexact
    have hfound : RefreshTokensRepository.findByToken SampleSecrets.env
        ⟨[SampleSecrets.user], [SampleSecrets.row]⟩ SampleSecrets.secret 1 =
          some SampleSecrets.row := by
      rw [findByToken_eq_find?]
      exact List.find?_cons_of_pos (Bool.and_eq_true_iff.mpr ⟨rfl,
        SampleSecrets.env_truncates.lawful.compare_hash SampleSecrets.secret "salt"⟩)
    have hkey : bcryptKey (SampleSecrets.secret ++ "x") = bcryptKey SampleSecrets.secret :=
      bcryptKey_randomTokenString (Vector.replicate 64 0) "x"
    rw [← findByToken_congr SampleSecrets.env_truncates _ hkey] at hfound
    exact append_ne_self _ (hexact _ _ hfound rfl)

end MapleRewards
