import MapleRewards.AuthCalls
import MapleRewards.Replies

/-!
# Signups among logins and refreshes

A signup looks for the email and stores the new user in two repository calls, with the
hashing of the password between them. Nothing holds off another signup in the meantime,
so what keeps emails apart is the unique index.
-/
namespace MapleRewards

open Processes LabelledRuns Collection

variable {κ : Type}

/-- Where a call of the auth service stands. -/
inductive AccountCall where
  | session (call : AuthCall)
  | signupHash (request : SignUpRequestDto)
  | signupCreate (user : UserDocument)
  | signedUp (result : Except Thrown SignUpResponseDto)

inductive AccountInput where
  | session (input : AuthInput)
  | signup (request : SignUpRequestDto)
  | hash (newId : ObjectId) (salt : String)
  | proceed
  | fail

/-- The document of a new user; `roles` takes its default. -/
def AuthEnv.newUser (env : AuthEnv) (request : SignUpRequestDto) (newId : ObjectId)
    (salt : String) : UserDocument :=
  ⟨newId, request.email, env.hash request.password salt, request.name, ["USER"]⟩

def UserDocument.toSignUpResponse (user : UserDocument) : SignUpResponseDto :=
  ⟨user._id.toString, user.email, user.name⟩

def AccountCall.act (env : AuthEnv) (c : κ) (input : AccountInput) (call : AccountCall)
    (w : AuthWorld κ) : Option (AccountCall × AuthWorld κ) :=
  match call, input with
  | .session call, .session input => (call.act env c input w).map fun p => (.session p.1, p.2)
  | .session .idle, .signup request =>
    if UserRepository.existsByEmail w.db request.email then
      some (.signedUp (throwAuth .EMAIL_ALREADY_EXISTS), w)
    else some (.signupHash request, w)
  | .signupHash request, .hash newId salt =>
    some (.signupCreate (env.newUser request newId salt), w)
  | .signupCreate user, .proceed =>
    match UserRepository.create w.db user with
    | .error err => some (.signedUp (.error err), w)
    | .ok db => some (.signedUp (.ok user.toSignUpResponse), { w with db := db })
  | .signupHash _, .fail => some (.signedUp (.error .connectionError), w)
  | .signupCreate _, .fail => some (.signedUp (.error .connectionError), w)
  | _, _ => none

abbrev AccountState (κ : Type) := Processes.State κ AccountCall (AuthWorld κ)

abbrev AccountMove (κ : Type) := Processes.Move κ AccountInput Nat

variable [DecidableEq κ] in
def accountStep (env : AuthEnv) : AccountState κ → AccountMove κ → Option (AccountState κ) :=
  Processes.step (AccountCall.act env) AuthWorld.tick

/-- No user, no refresh token and no call begun. -/
def accountInitial (now : Int) : AccountState κ :=
  ⟨⟨now, ⟨[], []⟩, []⟩, fun _ => .session .idle⟩

/-- Run alone, the steps of a signup compute `AuthService.signup`. -/
theorem signup_alone (env : AuthEnv) (c : κ) (w : AuthWorld κ) (request : SignUpRequestDto)
    (salt : String) (newId : ObjectId) :
    let outcome := AuthService.signup env w.db request salt newId
    ∃ inputs, alone (AccountCall.act env) c inputs (.session .idle) w =
      some (.signedUp outcome.1, { w with db := outcome.2 }) := by
  intro outcome
  by_cases hexists : UserRepository.existsByEmail w.db request.email = true
  · refine ⟨[.signup request], ?_⟩
    simp [alone, AccountCall.act, outcome, AuthService.signup, hexists]
  · refine ⟨[.signup request, .hash newId salt, .proceed], ?_⟩
    cases hcreate : UserRepository.create w.db
        ⟨newId, request.email, env.hash request.password salt, request.name, ["USER"]⟩ with
    | error err =>
      simp [alone, AccountCall.act, outcome, AuthService.signup, hexists, hcreate, AuthEnv.newUser]
    | ok db =>
      simp [alone, AccountCall.act, outcome, AuthService.signup, hexists, hcreate, AuthEnv.newUser,
        UserDocument.toSignUpResponse]

/-- Everything one action of a call can do. -/
inductive AccountActed (env : AuthEnv) (c : κ) :
    AccountInput → AccountCall → AuthWorld κ → AccountCall → AuthWorld κ → Prop where
  | session (input : AuthInput) (call call' : AuthCall) (w w' : AuthWorld κ)
      (h : call.act env c input w = some (call', w')) :
      AccountActed env c (.session input) (.session call) w (.session call') w'
  | refused (request : SignUpRequestDto) (w : AuthWorld κ)
      (h : ∃ u ∈ w.db.users, u.email = request.email) :
      AccountActed env c (.signup request) (.session .idle) w
        (.signedUp (throwAuth .EMAIL_ALREADY_EXISTS)) w
  | begins (request : SignUpRequestDto) (w : AuthWorld κ)
      (h : ∀ u ∈ w.db.users, u.email ≠ request.email) :
      AccountActed env c (.signup request) (.session .idle) w (.signupHash request) w
  | hashes (request : SignUpRequestDto) (newId : ObjectId) (salt : String) (w : AuthWorld κ) :
      AccountActed env c (.hash newId salt) (.signupHash request) w
        (.signupCreate (env.newUser request newId salt)) w
  | invalid (user : UserDocument) (w : AuthWorld κ) :
      AccountActed env c .proceed (.signupCreate user) w
        (.signedUp (.error .validationError)) w
  | duplicate (user : UserDocument) (w : AuthWorld κ)
      (h : ∃ u ∈ w.db.users, u._id = user._id ∨ u.email = user.email) :
      AccountActed env c .proceed (.signupCreate user) w
        (.signedUp (.error .duplicateKeyError)) w
  | creates (user : UserDocument) (w : AuthWorld κ)
      (h : ∀ u ∈ w.db.users, u._id ≠ user._id ∧ u.email ≠ user.email) :
      AccountActed env c .proceed (.signupCreate user) w (.signedUp (.ok user.toSignUpResponse))
        { w with db := { w.db with users := w.db.users ++ [user] } }
  | fails (call : AccountCall) (w : AuthWorld κ) (h : ∀ result, call ≠ .signedUp result) :
      AccountActed env c .fail call w (.signedUp (.error .connectionError)) w

theorem existsByEmail_iff {db : AuthDb} {email : String} :
    UserRepository.existsByEmail db email = true ↔ ∃ u ∈ db.users, u.email = email := by
  simp [UserRepository.existsByEmail]

theorem account_acted {env : AuthEnv} {c : κ} {input : AccountInput} {call call' : AccountCall}
    {w w' : AuthWorld κ} (h : call.act env c input w = some (call', w')) :
    AccountActed env c input call w call' w' := by
  unfold AccountCall.act at h
  split at h
  · obtain ⟨p, hp, heq⟩ := Option.map_eq_some_iff.mp h
    cases heq
    exact .session _ _ _ _ _ hp
  · next request =>
    split at h
    · next hexists =>
      cases h
      exact .refused _ _ (existsByEmail_iff.mp hexists)
    · next hnew =>
      cases h
      refine .begins _ _ ?_
      intro u hu hemail
      exact hnew (existsByEmail_iff.mpr ⟨u, hu, hemail⟩)
  · cases h
    exact .hashes _ _ _ _
  · next user =>
    unfold UserRepository.create at h
    by_cases hempty : (user.email == "" || user.passwordHash == "" || user.name == "") = true
    · simp only [hempty, if_true] at h
      cases h
      exact .invalid _ _
    · by_cases hused : (w.db.users.any fun u => u._id == user._id || u.email == user.email) = true
      · simp only [hempty, hused, if_true] at h
        cases h
        exact .duplicate _ _ (by simpa using hused)
      · simp only [hempty, hused] at h
        cases h
        exact .creates _ _ (by simpa using hused)
  · cases h
    exact .fails _ _ (by simp)
  · cases h
    exact .fails _ _ (by simp)
  · cases h

/-- Logins and refreshes leave the users alone. -/
theorem act_users {env : AuthEnv} {c : κ} {input : AuthInput} {call call' : AuthCall}
    {w w' : AuthWorld κ} (h : call.act env c input w = some (call', w')) :
    w'.db.users = w.db.users := by
  cases act_acted h <;> rfl

theorem account_users {env : AuthEnv} {c : κ} {input : AccountInput} {call call' : AccountCall}
    {w w' : AuthWorld κ} (h : call.act env c input w = some (call', w')) {user : UserDocument}
    (huser : user ∈ w.db.users) : user ∈ w'.db.users := by
  cases account_acted h with
  | session input call call' w w' hcall =>
    rw [act_users hcall]
    exact huser
  | creates user' w hfree => exact List.mem_append_left _ huser
  | _ => exact huser

/-! ## One account for each email -/

/-- The successful signups and the stored users belong to each other. -/
structure AccountsMatch (s : AccountState κ) : Prop where
  emails : (s.shared.db.users.map UserDocument.email).Nodup
  ids : (s.shared.db.users.map UserDocument._id).Nodup
  stored : ∀ c response, s.locals c = .signedUp (.ok response) →
    ∃ user ∈ s.shared.db.users, response = user.toSignUpResponse
  created : ∀ user ∈ s.shared.db.users, ∃ c, s.locals c = .signedUp (.ok user.toSignUpResponse)
  apart : ∀ c c' response response', s.locals c = .signedUp (.ok response) →
    s.locals c' = .signedUp (.ok response') → c ≠ c' → response.id ≠ response'.id

/-- A step that stores no user and ends no signup well. -/
theorem AccountsMatch.of_users_eq [DecidableEq κ] {s : AccountState κ} (h : AccountsMatch s)
    {w : AuthWorld κ} {c : κ} {call : AccountCall} (husers : w.db.users = s.shared.db.users)
    (hbefore : ∀ response, s.locals c ≠ .signedUp (.ok response))
    (hafter : ∀ response, call ≠ .signedUp (.ok response)) :
    AccountsMatch (⟨w, Function.update s.locals c call⟩ : AccountState κ) := by
  have hsame : ∀ d response, Function.update s.locals c call d = .signedUp (.ok response) ↔
      s.locals d = .signedUp (.ok response) := by
    intro d response
    by_cases hd : d = c
    · subst hd
      simp [hbefore response, hafter response]
    · rw [Function.update_of_ne hd]
  constructor
  · simp only [husers]
    exact h.emails
  · simp only [husers]
    exact h.ids
  · intro d response hd
    simp only [husers]
    exact h.stored d response ((hsame d response).mp hd)
  · intro user huser
    simp only [husers] at huser
    obtain ⟨d, hd⟩ := h.created user huser
    exact ⟨d, (hsame d _).mpr hd⟩
  · intro d d' response response' hd hd'
    exact h.apart d d' response response' ((hsame d _).mp hd) ((hsame d' _).mp hd')

/-- A signup that stores its user. -/
theorem AccountsMatch.create [DecidableEq κ] {s : AccountState κ} (h : AccountsMatch s) {c : κ}
    {user : UserDocument} (hcall : s.locals c = .signupCreate user)
    (hfree : ∀ u ∈ s.shared.db.users, u._id ≠ user._id ∧ u.email ≠ user.email) :
    AccountsMatch (⟨{ s.shared with
        db := { s.shared.db with users := s.shared.db.users ++ [user] } },
      Function.update s.locals c (.signedUp (.ok user.toSignUpResponse))⟩ : AccountState κ) := by
  have hcases : ∀ d response,
      Function.update s.locals c (.signedUp (.ok user.toSignUpResponse)) d =
        .signedUp (.ok response) →
      (d = c ∧ response = user.toSignUpResponse) ∨
        (d ≠ c ∧ s.locals d = .signedUp (.ok response)) := by
    intro d response hd
    by_cases hdc : d = c
    · subst hdc
      left
      rw [Function.update_self] at hd
      cases hd
      exact ⟨rfl, rfl⟩
    · right
      rw [Function.update_of_ne hdc] at hd
      exact ⟨hdc, hd⟩
  -- an earlier account is that of another id
  have hother : ∀ d response, s.locals d = .signedUp (.ok response) →
      response.id ≠ user.toSignUpResponse.id := by
    intro d response hd heq
    obtain ⟨u, hu, rfl⟩ := h.stored d response hd
    exact (hfree u hu).1 (ObjectId.toString_injective heq)
  constructor
  · exact nodup_append_singleton _ h.emails fun u hu => (hfree u hu).2
  · exact nodup_append_singleton _ h.ids fun u hu => (hfree u hu).1
  · intro d response hd
    rcases hcases d response hd with ⟨-, rfl⟩ | ⟨-, hold⟩
    · exact ⟨user, by simp, rfl⟩
    · obtain ⟨u, hu, heq⟩ := h.stored d response hold
      exact ⟨u, List.mem_append_left _ hu, heq⟩
  · intro u hu
    cases List.mem_append.mp hu with
    | inl hold =>
      obtain ⟨d, hd⟩ := h.created u hold
      refine ⟨d, ?_⟩
      have hne : d ≠ c := by
        rintro rfl
        rw [hcall] at hd
        cases hd
      simp only [Function.update_of_ne hne]
      exact hd
    | inr hnew =>
      cases List.mem_singleton.mp hnew
      exact ⟨c, by simp⟩
  · intro d d' response response' hd hd' hne
    rcases hcases d response hd with ⟨rfl, rfl⟩ | ⟨-, hold⟩
    · rcases hcases d' response' hd' with ⟨rfl, -⟩ | ⟨-, hold'⟩
      · exact absurd rfl hne
      · exact Ne.symm (hother d' response' hold')
    · rcases hcases d' response' hd' with ⟨-, rfl⟩ | ⟨-, hold'⟩
      · exact hother d response hold
      · exact h.apart d d' response response' hold hold' hne

section Runs

variable [DecidableEq κ] {env : AuthEnv}

theorem AccountsMatch.step {s t : AccountState κ} {m : AccountMove κ} (h : AccountsMatch s)
    (hstep : accountStep env s m = some t) :
    AccountsMatch t ∧ s.shared.db.users <+: t.shared.db.users := by
  rcases Processes.step_cases hstep with ⟨c, input, call, w, -, hact, rfl⟩ | ⟨elapsed, -, rfl⟩
  · have hkeep : w.db.users = s.shared.db.users →
        (∀ response, s.locals c ≠ .signedUp (.ok response)) →
        (∀ response, call ≠ .signedUp (.ok response)) →
        AccountsMatch (⟨w, Function.update s.locals c call⟩ : AccountState κ) ∧
          s.shared.db.users <+: w.db.users := by
      intro husers hbefore hafter
      exact ⟨h.of_users_eq husers hbefore hafter, husers ▸ List.prefix_rfl⟩
    have hacted := account_acted hact
    generalize hlocal : s.locals c = before at hacted
    cases hacted with
    | session input call call' w w' hcall =>
      exact hkeep (act_users hcall) (by simp [hlocal]) (by simp)
    | refused request w hexists => exact hkeep rfl (by simp [hlocal]) (by simp [throwAuth])
    | begins request w hnew => exact hkeep rfl (by simp [hlocal]) (by simp)
    | hashes request newId salt w => exact hkeep rfl (by simp [hlocal]) (by simp)
    | invalid user w => exact hkeep rfl (by simp [hlocal]) (by simp)
    | duplicate user w hused => exact hkeep rfl (by simp [hlocal]) (by simp)
    | creates user w hfree => exact ⟨h.create hlocal hfree, List.prefix_append _ _⟩
    | fails call w hopen =>
      refine hkeep rfl ?_ (by simp)
      intro response hdone
      exact hopen _ (hlocal.symm.trans hdone)
  · exact ⟨⟨h.emails, h.ids, h.stored, h.created, h.apart⟩, List.prefix_rfl⟩

theorem accounts_match {s : AccountState κ} {now : Int}
    (h : Reachable (accountStep env) (accountInitial now) s) : AccountsMatch s := by
  refine h.invariant AccountsMatch (fun _ _ _ hs hstep => (hs.step hstep).1) ?_
  constructor
  · exact List.nodup_nil
  · exact List.nodup_nil
  · intro c response hc
    cases hc
  · intro user huser
    cases huser
  · intro c c' response response' hc
    cases hc

end Runs

/-- However signups, logins and refreshes overlap, every stored user has an email and an id
of their own and comes from exactly one successful signup, every successful signup is of a
stored user, and no user changes or goes away. -/
theorem one_signup_for_each_user [DecidableEq κ] {env : AuthEnv} {s : AccountState κ} {now : Int}
    (h : Reachable (accountStep env) (accountInitial now) s) :
    (s.shared.db.users.map UserDocument.email).Nodup ∧
      (s.shared.db.users.map UserDocument._id).Nodup ∧
      (∀ user ∈ s.shared.db.users,
        ∃! c, s.locals c = .signedUp (.ok user.toSignUpResponse)) ∧
      (∀ c response, s.locals c = .signedUp (.ok response) →
        ∃ user ∈ s.shared.db.users, response = user.toSignUpResponse) ∧
      ∀ moves t, run (accountStep env) moves s = some t →
        s.shared.db.users <+: t.shared.db.users := by
  have hmatch := accounts_match h
  refine ⟨hmatch.emails, hmatch.ids, ?_, hmatch.stored, ?_⟩
  · intro user huser
    obtain ⟨c, hc⟩ := hmatch.created user huser
    refine ⟨c, hc, ?_⟩
    intro c' hc'
    by_contra hne
    exact hmatch.apart c' c _ _ hc' hc hne rfl
  · intro moves t hrun
    exact run_relates AccountsMatch (fun s t => s.shared.db.users <+: t.shared.db.users)
      (fun _ => List.prefix_rfl) (fun _ _ _ => List.IsPrefix.trans)
      (fun _ _ _ hs hstep => hs.step hstep) hmatch hrun

/-! ## The signup that comes second -/

/-- Where a signup stands that has not found its email, and where it can end once another
user has the email. -/
def LostRace (email : String) : AccountCall → Prop
  | .signupHash request => request.email = email
  | .signupCreate user => user.email = email
  | .signedUp (.error err) =>
    err = .validationError ∨ err = .duplicateKeyError ∨ err = .connectionError
  | _ => False

theorem LostRace.act {env : AuthEnv} {c : κ} {input : AccountInput} {email : String}
    {call call' : AccountCall} {w w' : AuthWorld κ} (h : LostRace email call)
    (hlost : ∃ u ∈ w.db.users, u.email = email)
    (hact : call.act env c input w = some (call', w')) : LostRace email call' := by
  cases account_acted hact with
  | session input call call' w w' hcall => exact h.elim
  | refused request w hexists => exact h.elim
  | begins request w hnew => exact h.elim
  | hashes request newId salt w => exact h
  | invalid user w => exact Or.inl rfl
  | duplicate user w hused => exact Or.inr (Or.inl rfl)
  | creates user w hfree =>
    obtain ⟨u, hu, hemail⟩ := hlost
    exact absurd (hemail.trans (Eq.symm h)) (hfree u hu).2
  | fails call w hopen => exact Or.inr (Or.inr rfl)

/-- The signup has found its email free and has not ended. -/
def AccountCall.Looked (email : String) : AccountCall → Prop
  | .signupHash request => request.email = email
  | .signupCreate user => user.email = email
  | _ => False

theorem AccountCall.Looked.lostRace {email : String} {call : AccountCall}
    (h : call.Looked email) : LostRace email call := by
  cases call with
  | signupHash request => exact h
  | signupCreate user => exact h
  | _ => exact h.elim

/-- A signup that has found its email free and not ended when another user has taken it, be it
before its hash or before its insert, ends with an error that the filter answers as an internal
one, never with the code for a taken email. -/
theorem lost_signup_is_internal_error [DecidableEq κ] {env : AuthEnv} {s t : AccountState κ}
    (c : κ) (email : String) (hlooked : (s.locals c).Looked email)
    (hlost : ∃ u ∈ s.shared.db.users, u.email = email) {moves : List (AccountMove κ)}
    (h : run (accountStep env) moves s = some t) (result : Except Thrown SignUpResponseDto)
    (hresult : t.locals c = .signedUp result) :
    ∃ err, result = .error err ∧ ∀ driver thrownAt caughtAt,
      (err.reply driver thrownAt caughtAt).Carries (GlobalErrors .INTERNAL_ERROR) ∧
        ¬(err.reply driver thrownAt caughtAt).Carries (AuthErrors .EMAIL_ALREADY_EXISTS) := by
  have hrace : (∃ u ∈ t.shared.db.users, u.email = email) ∧ LostRace email (t.locals c) := by
    refine run_invariant (fun s => (∃ u ∈ s.shared.db.users, u.email = email) ∧
      LostRace email (s.locals c)) ?_ ⟨hlost, hlooked.lostRace⟩ h
    rintro s m t ⟨⟨u, hu, hemail⟩, hcall⟩ hstep
    rcases Processes.step_cases hstep with ⟨d, input, call, w, -, hact, rfl⟩ |
      ⟨elapsed, -, rfl⟩
    · refine ⟨⟨u, account_users hact hu, hemail⟩, ?_⟩
      by_cases hd : c = d
      · subst hd
        simp only [Function.update_self]
        exact hcall.act ⟨u, hu, hemail⟩ hact
      · simp only [Function.update_of_ne hd]
        exact hcall
    · exact ⟨⟨u, hu, hemail⟩, hcall⟩
  have hend := hrace.2
  rw [hresult] at hend
  cases result with
  | ok response => exact hend.elim
  | error err =>
    refine ⟨err, rfl, ?_⟩
    intro driver thrownAt caughtAt
    have hstatus : (GlobalErrors .INTERNAL_ERROR).statusCode ≠
        (AuthErrors .EMAIL_ALREADY_EXISTS).statusCode := by decide
    rcases hend with rfl | rfl | rfl
    · exact ⟨⟨rfl, rfl⟩, fun hcarries => hstatus hcarries.2⟩
    · exact ⟨⟨rfl, rfl⟩, fun hcarries => hstatus hcarries.2⟩
    · exact ⟨⟨rfl, rfl⟩, fun hcarries => hstatus hcarries.2⟩

namespace SampleAuth

def request : SignUpRequestDto := ⟨"a@maple.kr", "maple1", "A"⟩

/-- Two signups for one email both look for it and make their hashes before either of them
stores its user. -/
def bothSignUp : List (AccountMove Nat) :=
  [.act 0 (.signup request), .act 1 (.signup request), .act 0 (.hash firstId "salt"),
    .act 1 (.hash userId "salt"), .act 1 .proceed]

def raceState : AccountState Nat :=
  (run (accountStep env) bothSignUp (accountInitial 0)).getD (accountInitial 0)

theorem race_run : run (accountStep env) bothSignUp (accountInitial 0) = some raceState := by
  have hview : (run (accountStep env) bothSignUp (accountInitial 0)).map
      (fun s : AccountState Nat => s.shared.db.users.length) = some 1 := by decide +kernel
  exact (run_of_view hview).1

theorem race_looked : (raceState.locals 0).Looked request.email := by
  have hlocal : raceState.locals 0 = .signupCreate (env.newUser request firstId "salt") := by rfl
  rw [hlocal]
  rfl

theorem race_users : raceState.shared.db.users = [env.newUser request userId "salt"] := by
  decide +kernel

def lateSignUp : List (AccountMove Nat) := [.act 0 .proceed]

def lateState : AccountState Nat :=
  (run (accountStep env) lateSignUp raceState).getD raceState

theorem late_run : run (accountStep env) lateSignUp raceState = some lateState := by
  have hview : (run (accountStep env) lateSignUp raceState).map
      (fun s : AccountState Nat => s.shared.db.users.length) = some 1 := by decide +kernel
  exact (run_of_view hview).1

end SampleAuth

open SampleAuth in
theorem one_signup_for_each_user_sample :
    ∃! c,
      raceState.locals c = .signedUp (.ok (env.newUser request userId "salt").toSignUpResponse) :=
  (one_signup_for_each_user ⟨_, race_run⟩).2.2.1 _ (by simp [race_users])

open SampleAuth in
theorem lost_signup_is_internal_error_sample :
    ∃ err, Except.error Thrown.duplicateKeyError = (.error err : Except Thrown SignUpResponseDto) ∧
      ∀ driver thrownAt caughtAt,
        (err.reply driver thrownAt caughtAt).Carries (GlobalErrors .INTERNAL_ERROR) ∧
          ¬(err.reply driver thrownAt caughtAt).Carries (AuthErrors .EMAIL_ALREADY_EXISTS) :=
  lost_signup_is_internal_error 0 request.email race_looked
    ⟨_, by rw [race_users]; exact List.mem_singleton_self _, rfl⟩ late_run _ rfl

end MapleRewards
