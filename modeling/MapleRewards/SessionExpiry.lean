import MapleRewards.Deployment

/-!
# Sessions end

A refresh token lives for a fixed number of days and an access token for a fixed number
of minutes, whatever signups, logins and refreshes are going on. Who holds tokens and makes
no further call ends up with nothing that is accepted.
-/
namespace MapleRewards

open Processes LabelledRuns Collection

variable {κ : Type}

def AuthEnv.refreshLifetime (env : AuthEnv) : Int := env.refreshExpiresDays * 24 * 3600 * 1000

def AuthEnv.accessLifetime (env : AuthEnv) : Int := env.accessExpiresMins * 60 * 1000

/-- An access token that was signed at some time up to `now`. -/
def SignedBy (env : AuthEnv) (now : Int) (accessToken : String) : Prop :=
  ∃ payload, ∃ signedAt ≤ now, accessToken = env.accessToken payload signedAt

/-- What a login or refresh hands out later was made up to `now`. -/
def AuthCall.Dated (env : AuthEnv) (now : Int) : AuthCall → Prop
  | .loginCreate row response _ =>
    row.expiresAt ≤ now + env.refreshLifetime ∧ SignedBy env now response.accessToken
  | .refreshCreate _ row response _ _ =>
    row.expiresAt ≤ now + env.refreshLifetime ∧ SignedBy env now response.accessToken
  | .done (.ok (.login response)) => SignedBy env now response.accessToken
  | .done (.ok (.refresh response)) => SignedBy env now response.accessToken
  | _ => True

def AccountCall.Dated (env : AuthEnv) (now : Int) : AccountCall → Prop
  | .session call => call.Dated env now
  | _ => True

def AuthDb.Dated (env : AuthEnv) (now : Int) (db : AuthDb) : Prop :=
  ∀ row ∈ db.tokens, row.expiresAt ≤ now + env.refreshLifetime

theorem SignedBy.mono {env : AuthEnv} {now now' : Int} (hnow : now ≤ now') {accessToken : String}
    (h : SignedBy env now accessToken) : SignedBy env now' accessToken := by
  obtain ⟨payload, signedAt, hsigned, htoken⟩ := h
  exact ⟨payload, signedAt, hsigned.trans hnow, htoken⟩

theorem AuthCall.Dated.mono {env : AuthEnv} {now now' : Int} (hnow : now ≤ now') {call : AuthCall}
    (h : call.Dated env now) : call.Dated env now' := by
  cases call with
  | loginCreate row response before =>
    refine ⟨?_, h.2.mono hnow⟩
    have hrow := h.1
    omega
  | refreshCreate old row response before overtaken =>
    refine ⟨?_, h.2.mono hnow⟩
    have hrow := h.1
    omega
  | done result =>
    cases result with
    | error err => trivial
    | ok response =>
      cases response with
      | login response => exact SignedBy.mono hnow h
      | refresh response => exact SignedBy.mono hnow h
  | _ => trivial

theorem AccountCall.Dated.mono {env : AuthEnv} {now now' : Int} (hnow : now ≤ now')
    {call : AccountCall} (h : call.Dated env now) : call.Dated env now' := by
  cases call with
  | session call => exact AuthCall.Dated.mono hnow h
  | _ => trivial

/-! ## How the tokens of a store go on -/

/-- No row goes away, and a row of an old id expires when it did. -/
structure TokensFollow (db db' : AuthDb) : Prop where
  kept : ∀ r ∈ db.tokens, ∃ r' ∈ db'.tokens, r'._id = r._id
  dates : ∀ r' ∈ db'.tokens, (∃ r ∈ db.tokens, r._id = r'._id ∧ r.expiresAt = r'.expiresAt) ∨
    ∀ r ∈ db.tokens, r._id ≠ r'._id

theorem TokensFollow.of_tokens_eq {db db' : AuthDb} (h : db'.tokens = db.tokens) :
    TokensFollow db db' := by
  constructor
  · intro r hr
    exact ⟨r, h ▸ hr, rfl⟩
  · intro r' hr'
    exact Or.inl ⟨r', h ▸ hr', rfl, rfl⟩

theorem TokensFollow.revoked {db db' : AuthDb}
    (h : List.Forall₂ SameToken db.tokens db'.tokens) : TokensFollow db db' := by
  constructor
  · intro r hr
    obtain ⟨r', hr', hsame⟩ := mem_of_forall₂ h.flip hr
    exact ⟨r', hr', hsame._id⟩
  · intro r' hr'
    obtain ⟨r, hr, hsame⟩ := mem_of_forall₂ h hr'
    exact Or.inl ⟨r, hr, hsame._id.symm, hsame.expiresAt.symm⟩

theorem TokensFollow.create {db : AuthDb} {row : RefreshTokenDocument}
    (hfresh : ∀ r ∈ db.tokens, r._id ≠ row._id) :
    TokensFollow db { db with tokens := db.tokens ++ [row] } := by
  constructor
  · intro r hr
    exact ⟨r, List.mem_append_left _ hr, rfl⟩
  · intro r' hr'
    cases List.mem_append.mp hr' with
    | inl hold => exact Or.inl ⟨r', hold, rfl, rfl⟩
    | inr hnew =>
      cases List.mem_singleton.mp hnew
      exact Or.inr hfresh

theorem act_tokensFollow {env : AuthEnv} {c : κ} {input : AuthInput} {call call' : AuthCall}
    {w w' : AuthWorld κ} (h : call.act env c input w = some (call', w')) :
    TokensFollow w.db w'.db := by
  cases act_acted h with
  | loginRevokes request user before w =>
    exact .revoked (revokeAllByUser_tokens w.db user._id w.now)
  | refreshRevokes old before since w => exact .revoked (revoke_tokens w.db old._id)
  | loginCreates row response before w hfresh => exact .create hfresh
  | refreshCreates old row response before overtaken w hfresh => exact .create hfresh
  | _ => exact .of_tokens_eq rfl

theorem account_tokensFollow {env : AuthEnv} {c : κ} {input : AccountInput}
    {call call' : AccountCall} {w w' : AuthWorld κ}
    (h : call.act env c input w = some (call', w')) : TokensFollow w.db w'.db := by
  cases account_acted h with
  | session input call call' w w' hact => exact act_tokensFollow hact
  | _ => exact .of_tokens_eq rfl

/-! ## What is dated -/

section Dates

variable {env : AuthEnv}

theorem act_now {c : κ} {input : AuthInput} {call call' : AuthCall} {w w' : AuthWorld κ}
    (h : call.act env c input w = some (call', w')) : w'.now = w.now := by
  cases act_acted h <;> rfl

theorem account_now {c : κ} {input : AccountInput} {call call' : AccountCall} {w w' : AuthWorld κ}
    (h : call.act env c input w = some (call', w')) : w'.now = w.now := by
  cases account_acted h with
  | session input call call' w w' hact => exact act_now hact
  | _ => rfl

theorem AuthDb.Dated.revoked {now : Int} {db db' : AuthDb} (h : db.Dated env now)
    (htokens : List.Forall₂ SameToken db.tokens db'.tokens) : db'.Dated env now := by
  intro row hrow
  obtain ⟨old, hold, hsame⟩ := mem_of_forall₂ htokens hrow
  rw [hsame.expiresAt]
  exact h old hold

theorem AuthDb.Dated.create {now : Int} {db : AuthDb} (h : db.Dated env now)
    {row : RefreshTokenDocument} (hrow : row.expiresAt ≤ now + env.refreshLifetime) :
    AuthDb.Dated env now { db with tokens := db.tokens ++ [row] } := by
  intro r' hr'
  cases List.mem_append.mp hr' with
  | inl hold => exact h r' hold
  | inr hnew =>
    cases List.mem_singleton.mp hnew
    exact hrow

theorem AuthCall.Dated.act {c : κ} {input : AuthInput} {call call' : AuthCall} {w w' : AuthWorld κ}
    (hdb : w.db.Dated env w.now) (hcall : call.Dated env w.now)
    (h : call.act env c input w = some (call', w')) :
    w'.db.Dated env w'.now ∧ call'.Dated env w'.now := by
  cases auth_acted h with
  | loginRevokes request user before w =>
    exact ⟨hdb.revoked (revokeAllByUser_tokens w.db user._id w.now), trivial⟩
  | refreshRevokes old before since w =>
    exact ⟨hdb.revoked (revoke_tokens w.db old._id), trivial⟩
  | loginIssues request user before newId secret salt w =>
    exact ⟨hdb, le_refl _, _, w.now, le_refl _, rfl⟩
  | refreshIssues old user before overtaken newId secret salt w =>
    exact ⟨hdb, le_refl _, _, w.now, le_refl _, rfl⟩
  | loginCreates row response before w hfresh => exact ⟨hdb.create hcall.1, hcall.2⟩
  | refreshCreates old row response before overtaken w hfresh =>
    exact ⟨hdb.create hcall.1, hcall.2⟩
  | _ => exact ⟨hdb, trivial⟩

theorem AccountCall.Dated.act {c : κ} {input : AccountInput} {call call' : AccountCall}
    {w w' : AuthWorld κ} (hdb : w.db.Dated env w.now) (hcall : call.Dated env w.now)
    (h : call.act env c input w = some (call', w')) :
    w'.db.Dated env w'.now ∧ call'.Dated env w'.now := by
  cases account_acted h with
  | session input call call' w w' hact => exact AuthCall.Dated.act hdb hcall hact
  | _ => exact ⟨hdb, trivial⟩

end Dates

/-! ## Runs -/

section Runs

variable [DecidableEq κ] {env : AuthEnv}

structure AccountsDated (env : AuthEnv) (s : AccountState κ) : Prop where
  db : s.shared.db.Dated env s.shared.now
  calls : ∀ c, (s.locals c).Dated env s.shared.now

theorem AccountsDated.step {s t : AccountState κ} {m : AccountMove κ} (h : AccountsDated env s)
    (hstep : accountStep env s m = some t) : AccountsDated env t := by
  rcases Processes.step_cases hstep with ⟨c, input, call, w, -, hact, rfl⟩ | ⟨elapsed, -, rfl⟩
  · obtain ⟨hdb, hcall⟩ := AccountCall.Dated.act h.db (h.calls c) hact
    refine ⟨hdb, ?_⟩
    intro d
    by_cases hd : d = c
    · subst hd
      simpa using hcall
    · simp only [Function.update_of_ne hd]
      rw [account_now hact]
      exact h.calls d
  · have hlater : s.shared.now ≤ s.shared.now + elapsed := by omega
    constructor
    · intro row hrow
      have hdate := h.db row hrow
      simp only [AuthWorld.tick]
      omega
    · exact fun c => (h.calls c).mono hlater

theorem accounts_dated {s : AccountState κ} {start : Int}
    (h : Reachable (accountStep env) (accountInitial start) s) : AccountsDated env s := by
  refine h.invariant (AccountsDated env) (fun _ _ _ hs hstep => hs.step hstep) ?_
  constructor
  · intro row hrow
    cases hrow
  · exact fun c => trivial

/-- What is known of the rows whose ids were taken at some moment. -/
structure OldTokens (old : List RefreshTokenDocument) (deadline : Int) (db : AuthDb) : Prop where
  kept : ∀ o ∈ old, ∃ row ∈ db.tokens, row._id = o._id
  dates : ∀ row ∈ db.tokens, (∃ o ∈ old, o._id = row._id) → row.expiresAt ≤ deadline

omit [DecidableEq κ] in
theorem OldTokens.follow {old : List RefreshTokenDocument} {deadline : Int} {db db' : AuthDb}
    (h : OldTokens old deadline db) (hfollow : TokensFollow db db') :
    OldTokens old deadline db' := by
  constructor
  · intro o ho
    obtain ⟨row, hrow, hid⟩ := h.kept o ho
    obtain ⟨row', hrow', hid'⟩ := hfollow.kept row hrow
    exact ⟨row', hrow', hid'.trans hid⟩
  · rintro row' hrow' ⟨o, ho, hid⟩
    rcases hfollow.dates row' hrow' with ⟨row, hrow, hsame, hdate⟩ | hnew
    · rw [← hdate]
      exact h.dates row hrow ⟨o, ho, hid.trans hsame.symm⟩
    · -- a new row takes no old id
      obtain ⟨row, hrow, hkept⟩ := h.kept o ho
      exact absurd (hkept.trans hid) (hnew row hrow)

/-- Once the lifetime of refresh tokens has passed, only tokens that have been stored since
are found, and once that of access tokens has passed, no access token that had been handed
out is verified. -/
theorem sessions_end (hexpires : env.Expires) {start : Int} {s t : AccountState κ}
    (hs : Reachable (accountStep env) (accountInitial start) s) {moves : List (AccountMove κ)}
    (h : run (accountStep env) moves s = some t) :
    (s.shared.now + env.refreshLifetime ≤ t.shared.now → ∀ token row,
        RefreshTokensRepository.findByToken env t.shared.db token t.shared.now = some row →
          ∀ old ∈ s.shared.db.tokens, old._id ≠ row._id) ∧
      (s.shared.now + env.accessLifetime ≤ t.shared.now → ∀ c,
        (∀ response, s.locals c = .session (.done (.ok (.login response))) →
          env.verify response.accessToken t.shared.now = none) ∧
        ∀ response, s.locals c = .session (.done (.ok (.refresh response))) →
          env.verify response.accessToken t.shared.now = none) := by
  have hdated := accounts_dated hs
  constructor
  · intro hlate token row hfound old hold hid
    have hrows : OldTokens s.shared.db.tokens (s.shared.now + env.refreshLifetime) t.shared.db := by
      refine run_invariant (fun t => OldTokens s.shared.db.tokens
        (s.shared.now + env.refreshLifetime) t.shared.db) ?_ ?_ h
      · intro u m v hu hstep
        rcases Processes.step_cases hstep with ⟨c, input, call, w, -, hact, rfl⟩ |
          ⟨elapsed, -, rfl⟩
        · exact hu.follow (account_tokensFollow hact)
        · exact hu
      · exact ⟨fun o ho => ⟨o, ho, rfl⟩, fun row hrow _ => hdated.db row hrow⟩
    obtain ⟨hrow, husable⟩ := findByToken_eq_some hfound
    have hdate := hrows.dates row hrow ⟨old, hold, hid⟩
    have hlive := (usable_eq_true.mp husable).2
    omega
  · intro hlate c
    have hexpired : ∀ accessToken, SignedBy env s.shared.now accessToken →
        env.verify accessToken t.shared.now = none := by
      rintro accessToken ⟨payload, signedAt, hsigned, rfl⟩
      apply hexpires.verify_sign
      rw [AuthEnv.accessLifetime] at hlate
      omega
    have hcall := hdated.calls c
    constructor
    · intro response hc
      rw [hc] at hcall
      exact hexpired _ hcall
    · intro response hc
      rw [hc] at hcall
      exact hexpired _ hcall

end Runs

namespace SampleJwt

/-- A signup and a login with its password. -/
def logsIn : List (AccountMove Nat) :=
  [.act 0 (.signup SampleAuth.request), .act 0 (.hash SampleAuth.userId "salt"), .act 0 .proceed,
    .act 1 (.session (.login ⟨"a@maple.kr", "maple1"⟩)), .act 1 (.session .proceed),
    .act 1 (.session (.issue SampleAuth.firstId "first" "salt")), .act 1 (.session .proceed)]

section AnySignature

variable (sign : JwtPayload → Int → Int → String) (verify : String → Int → Option JwtPayload)

def loggedIn : AccountState Nat :=
  (run (accountStep (withJwt sign verify)) logsIn (accountInitial 0)).getD (accountInitial 0)

def weekLater : AccountState Nat :=
  { loggedIn sign verify with
    shared := AuthWorld.tick 604800000 (loggedIn sign verify).shared }

theorem loggedIn_run : run (accountStep (withJwt sign verify)) logsIn (accountInitial 0) =
    some (loggedIn sign verify) := by
  have hview : (run (accountStep (withJwt sign verify)) logsIn (accountInitial 0)).map
      (fun s : AccountState Nat => s.shared.db.tokens.length) = some 1 := rfl
  exact (run_of_view hview).1

theorem weekLater_run : run (accountStep (withJwt sign verify)) [.env 604800000]
    (loggedIn sign verify) = some (weekLater sign verify) :=
  rfl

theorem loggedIn_call : (loggedIn sign verify).locals 1 =
    .session (.done (.ok (.login ⟨sessionToken sign verify, "first"⟩))) :=
  rfl

theorem loggedIn_now : (loggedIn sign verify).shared.now = 0 := rfl

theorem weekLater_now : (weekLater sign verify).shared.now = 604800000 := rfl

end AnySignature

end SampleJwt

open SampleJwt in
/-- A week after the login its tokens are worth nothing. -/
theorem sessions_end_sample :
    (∀ token row, RefreshTokensRepository.findByToken (withJwt env.sign env.verify)
        (weekLater env.sign env.verify).shared.db token 604800000 = some row →
          ∀ old ∈ (loggedIn env.sign env.verify).shared.db.tokens, old._id ≠ row._id) ∧
      (withJwt env.sign env.verify).verify (sessionToken env.sign env.verify) 604800000 = none := by
  have hexpires := withJwt_expires
  -- no token is computed
  generalize env.sign = sign at hexpires ⊢
  generalize env.verify = verify at hexpires ⊢
  obtain ⟨hrefresh, haccess⟩ :=
    sessions_end hexpires ⟨logsIn, loggedIn_run sign verify⟩ (weekLater_run sign verify)
  rw [weekLater_now, loggedIn_now] at hrefresh haccess
  have hdays : (withJwt sign verify).refreshLifetime = 604800000 := rfl
  have hminutes : (withJwt sign verify).accessLifetime = 900000 := rfl
  exact ⟨hrefresh (by omega), (haccess (by omega) 1).1 _ (loggedIn_call sign verify)⟩

end MapleRewards
