import MapleRewards.Session

/-!
# Calls that fail half way

One login or refresh runs on a store while time passes. It may be refused by a check of
its own or stopped by a repository call that fails, and what it has written by then
stays written.
-/
namespace MapleRewards

open Processes LabelledRuns Collection

/-- The usable refresh tokens of a user. -/
def AuthDb.usableOf (db : AuthDb) (userId : ObjectId) (now : Int) : List RefreshTokenDocument :=
  db.tokens.filter fun row => row.userId == userId && row.usable now

def SessionKept (before after : AuthDb) (now : Int) : Prop :=
  ∀ userId, before.usableOf userId now = after.usableOf userId now

/-- The rows at which a call that has come this far has aimed a revocation. -/
def AuthCall.hasRevoked (call : AuthCall) (row : RefreshTokenDocument) : Bool :=
  match call with
  | .loginIssue _ user _ => row.userId == user._id
  | .loginCreate new _ _ => row.userId == new.userId
  | .refreshUser old _ _ => row._id == old._id
  | .refreshIssue old _ _ _ => row._id == old._id
  | .refreshCreate old _ _ _ _ => row._id == old._id
  | _ => false

/-! ## What a call has written -/

/-- The store of a call on its way, for the store it found. -/
def Written (found : AuthDb) (w : AuthWorld Unit) : AuthCall → Prop
  | .loginIssue _ user _ => ∃ revokedAt, revokedAt ≤ w.now ∧
      w.db = RefreshTokensRepository.revokeAllByUser found user._id revokedAt
  | .loginCreate new _ _ => ∃ revokedAt, revokedAt ≤ w.now ∧
      w.db = RefreshTokensRepository.revokeAllByUser found new.userId revokedAt
  | .refreshUser old _ _ => w.db = RefreshTokensRepository.revoke found old._id
  | .refreshIssue old _ _ _ => w.db = RefreshTokensRepository.revoke found old._id
  | .refreshCreate old _ _ _ _ => w.db = RefreshTokensRepository.revoke found old._id
  | .done _ => True
  | _ => w.db = found

theorem Written.act {env : AuthEnv} {found : AuthDb} {call call' : AuthCall}
    {w w' : AuthWorld Unit} (h : Written found w call) (hact : Acted env () call w call' w') :
    Written found w' call' := by
  cases hact with
  | throws call w err => trivial
  | loginBegins request user w => exact h
  | loginRevokes request user before w =>
    have hfound : w.db = found := h
    refine ⟨w.now, Int.le_refl _, ?_⟩
    rw [hfound]
  | loginIssues request user before row response hrow hnew w =>
    obtain ⟨revokedAt, hle, hdb⟩ := h
    refine ⟨revokedAt, hle, ?_⟩
    rw [hrow]
    exact hdb
  | loginCreates row response before w hfresh => trivial
  | refreshBegins oldToken w => exact h
  | refreshChecks old before since w => exact h
  | refreshRevokes old before since w =>
    have hfound : w.db = found := h
    change RefreshTokensRepository.revoke w.db old._id = _
    rw [hfound]
  | refreshFindsUser old user before overtaken w => exact h
  | refreshIssues old user before overtaken row response hrow hnew w => exact h
  | refreshCreates old row response before overtaken w hfresh => trivial

theorem Written.tick {found : AuthDb} {call : AuthCall} {w : AuthWorld Unit}
    (h : Written found w call) (elapsed : Nat) : Written found (w.tick elapsed) call := by
  cases call with
  | loginIssue request user before =>
    obtain ⟨revokedAt, hle, hdb⟩ := h
    exact ⟨revokedAt, by simp only [AuthWorld.tick]; omega, hdb⟩
  | loginCreate row response before =>
    obtain ⟨revokedAt, hle, hdb⟩ := h
    exact ⟨revokedAt, by simp only [AuthWorld.tick]; omega, hdb⟩
  | _ => exact h

theorem Written.step {env : AuthEnv} {found : AuthDb} {s t : AuthState Unit} {m : AuthMove Unit}
    (h : Written found s.shared (s.locals ())) (hstep : authStep env s m = some t) :
    Written found t.shared (t.locals ()) := by
  rcases step_cases hstep with ⟨c, i, call, w, -, hact, rfl⟩ | ⟨elapsed, -, rfl⟩
  · simpa using h.act (act_acted hact)
  · exact h.tick elapsed

/-! ## What a revocation takes away -/

theorem revoked_usable (row : RefreshTokenDocument) (now : Int) :
    ({ row with revoked := true } : RefreshTokenDocument).usable now = false := by
  simp [RefreshTokenDocument.usable]

/-- Revoking the rows that `hit` selects keeps every session if none of them is usable. -/
theorem sessionKept_revoked {before after : AuthDb} (hit : RefreshTokenDocument → Bool)
    (h : after.tokens =
      before.tokens.map fun row => if hit row then { row with revoked := true } else row)
    (now : Int) :
    SessionKept before after now ↔
      ∀ row ∈ before.tokens, hit row = true → row.usable now = false := by
  constructor
  · intro hkept row hrow hhit
    cases husable : row.usable now with
    | false => rfl
    | true =>
      have hbefore : row ∈ before.usableOf row.userId now := by
        simp [AuthDb.usableOf, hrow, husable]
      rw [hkept row.userId, AuthDb.usableOf, h] at hbefore
      obtain ⟨old, hold, heq⟩ := List.mem_map.mp (List.mem_filter.mp hbefore).1
      by_cases hhit' : hit old = true
      · -- a row that was revoked is not usable
        rw [if_pos hhit'] at heq
        rw [← heq, revoked_usable] at husable
        cases husable
      · rw [if_neg hhit'] at heq
        rw [heq] at hhit'
        exact absurd hhit hhit'
  · intro hnone userId
    rw [AuthDb.usableOf, AuthDb.usableOf, h]
    symm
    apply filter_map_of_fixed
    · intro row hrow
      cases hhit : hit row with
      | false => rfl
      | true => simp [revoked_usable, hnone row hrow hhit]
    · intro row hrow hsel
      cases hhit : hit row with
      | false => rfl
      | true => simp [hnone row hrow hhit] at hsel

/-- What is usable when the call ends was usable when the call revoked. -/
theorem sessionKept_revokeAllByUser (db : AuthDb) (userId : ObjectId) {revokedAt now : Int}
    (hle : revokedAt ≤ now) :
    SessionKept db (RefreshTokensRepository.revokeAllByUser db userId revokedAt) now ↔
      ∀ row ∈ db.tokens, row.userId = userId → row.usable now = false := by
  have htokens : (RefreshTokensRepository.revokeAllByUser db userId revokedAt).tokens =
      db.tokens.map fun row => if row.userId == userId && row.usable revokedAt then
        { row with revoked := true } else row := rfl
  rw [sessionKept_revoked (fun row => row.userId == userId && row.usable revokedAt) htokens]
  constructor
  · intro h row hrow huser
    cases husable : row.usable now with
    | false => rfl
    | true =>
      obtain ⟨hrevoked, hexpiry⟩ := usable_eq_true.mp husable
      have hthen : row.usable revokedAt = true := usable_eq_true.mpr ⟨hrevoked, by omega⟩
      have hnow := h row hrow (by simp [huser, hthen])
      rw [husable] at hnow
      exact hnow
  · intro h row hrow hhit
    simp only [Bool.and_eq_true, beq_iff_eq] at hhit
    exact h row hrow hhit.1

theorem sessionKept_revoke {db : AuthDb} (hids : (db.tokens.map RefreshTokenDocument._id).Nodup)
    (id : ObjectId) (now : Int) :
    SessionKept db (RefreshTokensRepository.revoke db id) now ↔
      ∀ row ∈ db.tokens, row._id = id → row.usable now = false := by
  rw [sessionKept_revoked (fun row => row._id == id) (revoke_eq_map hids id)]
  simp

theorem sessionKept_self (db : AuthDb) (now : Int) : SessionKept db db now := fun _ => rfl

/-- A step into an exception writes nothing. -/
theorem act_throws {env : AuthEnv} {call call' : AuthCall} {w w' : AuthWorld Unit} {err : Thrown}
    (h : Acted env () call w call' w') (herr : call' = .done (.error err)) : w' = w := by
  cases h with
  | throws call w err' => rfl
  | loginCreates row response before w hfresh => cases herr
  | refreshCreates old row response before overtaken w hfresh => cases herr
  | _ => cases herr

/-- On its way, a call has kept every session exactly if none of the rows that it has
revoked would still be usable. -/
theorem Written.sessionKept_iff {found : AuthDb} {w : AuthWorld Unit} {call : AuthCall}
    (h : Written found w call) (hids : (found.tokens.map RefreshTokenDocument._id).Nodup)
    (hrunning : ∀ result, call ≠ .done result) :
    SessionKept found w.db w.now ↔
      ∀ row ∈ found.tokens, call.hasRevoked row = true → row.usable w.now = false := by
  have hall : ∀ userId revokedAt, revokedAt ≤ w.now →
      w.db = RefreshTokensRepository.revokeAllByUser found userId revokedAt →
      (SessionKept found w.db w.now ↔
        ∀ row ∈ found.tokens, (row.userId == userId) = true → row.usable w.now = false) := by
    intro userId revokedAt hle hdb
    rw [hdb, sessionKept_revokeAllByUser _ _ hle]
    simp
  have hone : ∀ id, w.db = RefreshTokensRepository.revoke found id →
      (SessionKept found w.db w.now ↔
        ∀ row ∈ found.tokens, (row._id == id) = true → row.usable w.now = false) := by
    intro id hdb
    rw [hdb, sessionKept_revoke hids]
    simp
  have hnone : w.db = found → (SessionKept found w.db w.now ↔
      ∀ row ∈ found.tokens, false = true → row.usable w.now = false) := by
    intro hdb
    rw [hdb]
    simp [sessionKept_self]
  -- one case for each point at which the call may stand
  cases call with
  | idle => exact hnone h
  | loginRevoke request user before => exact hnone h
  | loginIssue request user before =>
    obtain ⟨revokedAt, hle, hdb⟩ := h
    exact hall user._id revokedAt hle hdb
  | loginCreate new response before =>
    obtain ⟨revokedAt, hle, hdb⟩ := h
    exact hall new.userId revokedAt hle hdb
  | refreshCheck row before since => exact hnone h
  | refreshRevoke old before since => exact hnone h
  | refreshUser old before overtaken => exact hone old._id h
  | refreshIssue old user before overtaken => exact hone old._id h
  | refreshCreate old new response before overtaken => exact hone old._id h
  | done result => exact absurd rfl (hrunning result)

/-- A call that ends in an exception leaves every session as it was exactly if none of
the rows that it had revoked by then would still be usable. -/
theorem failed_call_keeps_session_iff {env : AuthEnv} {s u t : AuthState Unit}
    (hids : (s.shared.db.tokens.map RefreshTokenDocument._id).Nodup)
    (hidle : s.locals () = .idle) {moves : List (AuthMove Unit)}
    (hrun : run (authStep env) moves s = some u) {input : AuthInput} {err : Thrown}
    (hfail : authStep env u (.act () input) = some t)
    (herr : t.locals () = .done (.error err)) :
    SessionKept s.shared.db t.shared.db t.shared.now ↔
      ∀ row ∈ s.shared.db.tokens, (u.locals ()).hasRevoked row = true →
        row.usable t.shared.now = false := by
  have hstart : Written s.shared.db s.shared (s.locals ()) := by
    rw [hidle]
    rfl
  have hwritten : Written s.shared.db u.shared (u.locals ()) :=
    run_invariant (fun v : AuthState Unit => Written s.shared.db v.shared (v.locals ()))
      (fun _ _ _ h hstep => h.step hstep) hstart hrun
  have hsame : t.shared = u.shared ∧ ∀ result, u.locals () ≠ .done result := by
    rcases step_cases hfail with ⟨c, i, call, w, -, hact, rfl⟩ | ⟨elapsed, hmove, -⟩
    · refine ⟨act_throws (act_acted hact) (by simpa using herr), ?_⟩
      intro result hdone
      simp [hdone, AuthCall.act] at hact
    · cases hmove
  obtain ⟨hshared, hrunning⟩ := hsame
  rw [hshared]
  exact hwritten.sessionKept_iff hids hrunning

namespace SampleAuth

def oldRow : RefreshTokenDocument := ⟨firstId, userId, "old", 0, 1000, false⟩

/-- A user with one usable token, and a call that is about to begin. -/
def signedIn : AuthState Unit := ⟨⟨0, ⟨[user], [oldRow]⟩, []⟩, fun _ => .idle⟩

def loginUpTo (inputs : List AuthInput) : List (AuthMove Unit) :=
  (AuthInput.login ⟨"a@maple.kr", "pw"⟩ :: inputs).map (Move.act ())

end SampleAuth

open SampleAuth in
/-- A login whose new token cannot be stored has revoked the old one. -/
theorem failed_login_ends_session :
    ∃ t, run (authStep env)
        (loginUpTo [.proceed, .issue secondId "new" "salt", .fail]) signedIn = some t ∧
      t.locals () = .done (.error .connectionError) ∧
      ¬ SessionKept signedIn.shared.db t.shared.db t.shared.now := by
  have halone : alone (AuthCall.act env) () [.login ⟨"a@maple.kr", "pw"⟩, .proceed,
      .issue secondId "new" "salt", .fail] (signedIn.locals ()) signedIn.shared =
      some (.done (.error .connectionError),
        ⟨0, ⟨[user], [{ oldRow with revoked := true }]⟩, [.revocation firstId ()]⟩) := by
    rfl
  refine ⟨_, run_of_alone halone, rfl, ?_⟩
  intro hkept
  have hlost : [oldRow] = [] := hkept userId
  cases hlost

open SampleAuth in
/-- A login that cannot revoke the old token leaves it usable. -/
theorem failed_call_keeps_session_sample :
    ∃ u t, run (authStep env) (loginUpTo []) signedIn = some u ∧
      authStep env u (.act () .fail) = some t ∧
      SessionKept signedIn.shared.db t.shared.db t.shared.now := by
  have hfound : alone (AuthCall.act env) () [.login ⟨"a@maple.kr", "pw"⟩] (signedIn.locals ())
      signedIn.shared = some (.loginRevoke ⟨"a@maple.kr", "pw"⟩ user 1, signedIn.shared) := by
    rfl
  have hrun : run (authStep env) (loginUpTo []) signedIn = some ⟨signedIn.shared,
      Function.update signedIn.locals () (.loginRevoke ⟨"a@maple.kr", "pw"⟩ user 1)⟩ :=
    run_of_alone hfound
  have hfail : authStep env ⟨signedIn.shared, Function.update signedIn.locals ()
      (.loginRevoke ⟨"a@maple.kr", "pw"⟩ user 1)⟩ (.act () .fail) =
      some ⟨signedIn.shared, Function.update (Function.update signedIn.locals ()
        (.loginRevoke ⟨"a@maple.kr", "pw"⟩ user 1)) () (.done (.error .connectionError))⟩ := by
    rfl
  refine ⟨_, _, hrun, hfail, ?_⟩
  apply (failed_call_keeps_session_iff (by decide) rfl hrun hfail rfl).mpr
  intro row _ hrevoked
  cases hrevoked

end MapleRewards
