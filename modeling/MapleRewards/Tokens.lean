import MapleRewards.AuthCalls

/-!
# One usable refresh token

A login revokes every usable token of its user and a refresh the one it was given,
each before it stores its own. Between the two another call may store one.
-/
namespace MapleRewards

open Processes LabelledRuns Collection

variable {κ : Type}

def AuthWorld.usableOf (w : AuthWorld κ) (userId : ObjectId) : List RefreshTokenDocument :=
  w.db.tokens.filter fun row => row.userId == userId && row.usable w.now

def AtMostOneUsable (w : AuthWorld κ) : Prop := ∀ userId, (w.usableOf userId).length ≤ 1

/-- The row that the next action of a call stores, and the rows stored before its lookup. -/
def AuthCall.stores : AuthCall → Option (RefreshTokenDocument × Nat)
  | .loginCreate row _ before => some (row, before)
  | .refreshCreate _ row _ before _ => some (row, before)
  | _ => none

/-- A call that stores a usable token does so when no token that was stored for the
user since the call's own lookup is still usable. -/
def StoresAlone (s : AuthState κ) : AuthMove κ → Prop
  | .act c .proceed => ∀ row before, (s.locals c).stores = some (row, before) →
      ∀ db, RefreshTokensRepository.create s.shared.db row = .ok db →
        row.usable s.shared.now = true → ∀ r ∈ s.shared.db.tokens.drop before,
          r.userId = row.userId → r.usable s.shared.now = false
  | _ => True

/-! ## What happens to the rows -/

/-- A row keeps its id and its user and only loses its use. -/
structure Faded (now now' : Int) (r r' : RefreshTokenDocument) : Prop where
  _id : r'._id = r._id
  userId : r'.userId = r.userId
  usable : r'.usable now' = true → r.usable now = true

def Fades (w w' : AuthWorld κ) : Prop :=
  List.Forall₂ (Faded w.now w'.now) w.db.tokens w'.db.tokens

/-- Store one more row. -/
def AuthWorld.add (w : AuthWorld κ) (row : RefreshTokenDocument) : AuthDb :=
  { w.db with tokens := w.db.tokens ++ [row] }

theorem Faded.refl (now : Int) (r : RefreshTokenDocument) : Faded now now r r := ⟨rfl, rfl, id⟩

theorem Faded.revoke (now : Int) (r : RefreshTokenDocument) :
    Faded now now r { r with revoked := true } :=
  ⟨rfl, rfl, by simp [RefreshTokenDocument.usable]⟩

theorem fades_of_tokens_eq {w w' : AuthWorld κ} (hdb : w'.db = w.db) (hnow : w'.now = w.now) :
    Fades w w' := by
  unfold Fades
  rw [hdb, hnow]
  exact List.forall₂_same.mpr fun r _ => Faded.refl w.now r

theorem fades_revokeAllByUser (w : AuthWorld κ) (userId : ObjectId) (trace : List (TokenEntry κ)) :
    Fades w ⟨w.now, RefreshTokensRepository.revokeAllByUser w.db userId w.now, trace⟩ := by
  unfold Fades RefreshTokensRepository.revokeAllByUser
  rw [List.forall₂_map_right_iff]
  apply List.forall₂_same.mpr
  intro r _
  split
  · exact Faded.revoke w.now r
  · exact Faded.refl w.now r

theorem fades_revoke (w : AuthWorld κ) (id : ObjectId) (trace : List (TokenEntry κ)) :
    Fades w ⟨w.now, RefreshTokensRepository.revoke w.db id, trace⟩ :=
  forall₂_updateFirst (Faded.refl w.now) _ (Faded.revoke w.now) w.db.tokens

theorem fades_tick (w : AuthWorld κ) (elapsed : Nat) : Fades w (w.tick elapsed) := by
  apply List.forall₂_same.mpr
  intro r _
  refine ⟨rfl, rfl, ?_⟩
  rw [usable_eq_true, usable_eq_true]
  rintro ⟨hrevoked, hexpires⟩
  have hnow : (w.tick elapsed).now = w.now + elapsed := rfl
  exact ⟨hrevoked, by omega⟩

/-- Rows only fade, and one action stores at most one new row. -/
theorem Acted.tokens {env : AuthEnv} {c : κ} {call call' : AuthCall} {w w' : AuthWorld κ}
    (h : Acted env c call w call' w') :
    Fades w w' ∨ ∃ row before, call.stores = some (row, before) ∧
      (∀ r ∈ w.db.tokens, r._id ≠ row._id) ∧ w'.db = w.add row ∧ w'.now = w.now := by
  cases h with
  | throws call w err => exact Or.inl (fades_of_tokens_eq rfl rfl)
  | loginBegins request user w => exact Or.inl (fades_of_tokens_eq rfl rfl)
  | loginRevokes request user before w => exact Or.inl (fades_revokeAllByUser w _ _)
  | loginIssues request user before row response hrow hnew w =>
    exact Or.inl (fades_of_tokens_eq rfl rfl)
  | loginCreates row response before w hfresh => exact Or.inr ⟨row, before, rfl, hfresh, rfl, rfl⟩
  | refreshBegins oldToken w => exact Or.inl (fades_of_tokens_eq rfl rfl)
  | refreshChecks old before since w => exact Or.inl (fades_of_tokens_eq rfl rfl)
  | refreshRevokes old before since w => exact Or.inl (fades_revoke w _ _)
  | refreshFindsUser old user before overtaken w => exact Or.inl (fades_of_tokens_eq rfl rfl)
  | refreshIssues old user before overtaken row response hrow hnew w =>
    exact Or.inl (fades_of_tokens_eq rfl rfl)
  | refreshCreates old row response before overtaken w hfresh =>
    exact Or.inr ⟨row, before, rfl, hfresh, rfl, rfl⟩

theorem AtMostOneUsable.fades {w w' : AuthWorld κ} (h : AtMostOneUsable w) (hf : Fades w w') :
    AtMostOneUsable w' := by
  intro userId
  have hle : (w'.usableOf userId).length ≤ (w.usableOf userId).length := by
    refine length_filter_le_of_forall₂ ?_ hf
    intro r r' hr hq
    simp only [Bool.and_eq_true, beq_iff_eq] at hq ⊢
    exact ⟨hr.userId.symm.trans hq.1, hr.usable hq.2⟩
  have hone := h userId
  omega

theorem eq_of_usable {w : AuthWorld κ} (h : AtMostOneUsable w) {r r' : RefreshTokenDocument}
    (hr : r ∈ w.db.tokens) (hr' : r' ∈ w.db.tokens) (hu : r.userId = r'.userId)
    (hus : r.usable w.now = true) (hus' : r'.usable w.now = true) : r = r' := by
  have hmem : r ∈ w.usableOf r'.userId := by simp [AuthWorld.usableOf, hr, hu, hus]
  have hmem' : r' ∈ w.usableOf r'.userId := by simp [AuthWorld.usableOf, hr', hus']
  have hone := h r'.userId
  cases hl : w.usableOf r'.userId with
  | nil =>
    rw [hl] at hmem
    cases hmem
  | cons x xs =>
    rw [hl] at hmem hmem' hone
    have hnil : xs = [] := by
      rw [List.length_cons] at hone
      exact List.length_eq_zero_iff.mp (by omega)
    subst hnil
    rw [List.mem_singleton] at hmem hmem'
    rw [hmem, hmem']

/-! ## The outline of a call -/

/-- Of the rows stored before the call's lookup none of this user is usable, except
perhaps the one with the given id. -/
structure Cleared (before : Nat) (userId : ObjectId) (except : Option ObjectId)
    (w : AuthWorld κ) : Prop where
  before_le : before ≤ w.db.tokens.length
  cleared : ∀ r ∈ w.db.tokens.take before, r.userId = userId → r.usable w.now = true →
    some r._id = except

def TokenOutline (call : AuthCall) (w : AuthWorld κ) : Prop :=
  match call with
  | .idle => True
  | .loginRevoke _ _ before => before ≤ w.db.tokens.length
  | .loginIssue _ user before => Cleared before user._id none w
  | .loginCreate row _ before => Cleared before row.userId none w
  | .refreshCheck found before _ =>
    ∀ old, found = some old → Cleared before old.userId (some old._id) w
  | .refreshRevoke old before _ => Cleared before old.userId (some old._id) w
  | .refreshUser old before _ => Cleared before old.userId none w
  | .refreshIssue old _ before _ => Cleared before old.userId none w
  | .refreshCreate _ row _ before _ => Cleared before row.userId none w
  | .done _ => True

theorem Cleared.fades {before : Nat} {userId : ObjectId} {except : Option ObjectId}
    {w w' : AuthWorld κ} (h : Cleared before userId except w) (hf : Fades w w') :
    Cleared before userId except w' := by
  refine ⟨hf.length_eq ▸ h.before_le, ?_⟩
  intro r' hr' hu hus
  obtain ⟨r, hr, hfaded⟩ := mem_of_forall₂ (List.forall₂_take before hf) hr'
  rw [hfaded._id]
  exact h.cleared r hr (hfaded.userId.symm.trans hu) (hfaded.usable hus)

theorem Cleared.add {before : Nat} {userId : ObjectId} {except : Option ObjectId}
    {w w' : AuthWorld κ} (h : Cleared before userId except w) {row : RefreshTokenDocument}
    (hdb : w'.db = w.add row) (hnow : w'.now = w.now) : Cleared before userId except w' := by
  constructor
  · rw [hdb]
    have hle := h.before_le
    simp only [AuthWorld.add, List.length_append]
    omega
  · rw [hdb, hnow]
    simp only [AuthWorld.add]
    rw [List.take_append_of_le_length h.before_le]
    exact h.cleared

/-- No action of another call and no passing of time falsifies an assertion. -/
theorem TokenOutline.stable {call : AuthCall} {w w' : AuthWorld κ} (h : TokenOutline call w)
    (hlen : w.db.tokens.length ≤ w'.db.tokens.length)
    (hkeep : ∀ before userId except, Cleared before userId except w →
      Cleared before userId except w') : TokenOutline call w' := by
  cases call with
  | idle => trivial
  | loginRevoke request user before => exact Nat.le_trans h hlen
  | loginIssue request user before => exact hkeep _ _ _ h
  | loginCreate row response before => exact hkeep _ _ _ h
  | refreshCheck found before since => exact fun old hold => hkeep _ _ _ (h old hold)
  | refreshRevoke old before since => exact hkeep _ _ _ h
  | refreshUser old before overtaken => exact hkeep _ _ _ h
  | refreshIssue old user before overtaken => exact hkeep _ _ _ h
  | refreshCreate old row response before overtaken => exact hkeep _ _ _ h
  | done result => trivial

theorem cleared_of_revokeAllByUser {w : AuthWorld κ} {before : Nat} (userId : ObjectId)
    (trace : List (TokenEntry κ)) (hle : before ≤ w.db.tokens.length) :
    Cleared before userId none
      ⟨w.now, RefreshTokensRepository.revokeAllByUser w.db userId w.now, trace⟩ := by
  constructor
  · simpa [RefreshTokensRepository.revokeAllByUser] using hle
  · intro r' hr' hu hus
    have hmem := List.mem_of_mem_take hr'
    obtain ⟨r, hr, rfl⟩ := List.mem_map.mp hmem
    split at hus
    · simp [RefreshTokenDocument.usable] at hus
    · next hnot =>
      rw [if_neg hnot] at hu
      simp [hu, hus] at hnot

/-- Revoking the one row that was left clears the user. -/
theorem Cleared.revoke {w : AuthWorld κ} {before : Nat} {userId id : ObjectId}
    (h : Cleared before userId (some id) w)
    (hnd : (w.db.tokens.map RefreshTokenDocument._id).Nodup) (trace : List (TokenEntry κ)) :
    Cleared before userId none ⟨w.now, RefreshTokensRepository.revoke w.db id, trace⟩ := by
  have hfades := h.fades (fades_revoke w id trace)
  refine ⟨hfades.before_le, ?_⟩
  intro r' hr' hu hus
  have hid : r'._id = id := Option.some.inj (hfades.cleared r' hr' hu hus)
  have hmem := List.mem_of_mem_take hr'
  cases (mem_updateFirst_key RefreshTokenDocument._id hnd).mp hmem with
  | inl hold => exact absurd hid hold.2
  | inr hnew =>
    obtain ⟨r, -, -, rfl⟩ := hnew
    simp [RefreshTokenDocument.usable] at hus

theorem cleared_of_findByToken {env : AuthEnv} {w : AuthWorld κ} (h : AtMostOneUsable w)
    {token : String} {old : RefreshTokenDocument}
    (hfound : RefreshTokensRepository.findByToken env w.db token w.now = some old) :
    Cleared w.db.tokens.length old.userId (some old._id) w := by
  have hmem := findByToken_eq_some hfound
  refine ⟨Nat.le_refl _, ?_⟩
  intro r hr hu hus
  rw [List.take_length] at hr
  rw [eq_of_usable h hr hmem.1 hu hus hmem.2]

def TokenIds (w : AuthWorld κ) : Prop := (w.db.tokens.map RefreshTokenDocument._id).Nodup

theorem Fades.ids {w w' : AuthWorld κ} (hf : Fades w w') :
    w'.db.tokens.map RefreshTokenDocument._id = w.db.tokens.map RefreshTokenDocument._id := by
  symm
  rw [← List.forall₂_eq_eq_eq, List.forall₂_map_left_iff, List.forall₂_map_right_iff]
  exact hf.imp fun r r' hr => hr._id.symm

theorem TokenIds.fades {w w' : AuthWorld κ} (h : TokenIds w) (hf : Fades w w') : TokenIds w' := by
  unfold TokenIds
  rw [hf.ids]
  exact h

theorem TokenIds.acted {env : AuthEnv} {c : κ} {call call' : AuthCall} {w w' : AuthWorld κ}
    (h : TokenIds w) (ha : Acted env c call w call' w') : TokenIds w' := by
  cases ha.tokens with
  | inl hf => exact h.fades hf
  | inr hadd =>
    obtain ⟨row, before, -, hfresh, hdb, -⟩ := hadd
    unfold TokenIds
    rw [hdb]
    exact nodup_append_singleton _ h hfresh

theorem Acted.length_le {env : AuthEnv} {c : κ} {call call' : AuthCall} {w w' : AuthWorld κ}
    (ha : Acted env c call w call' w') : w.db.tokens.length ≤ w'.db.tokens.length := by
  cases ha.tokens with
  | inl hf => exact Nat.le_of_eq hf.length_eq
  | inr hadd =>
    obtain ⟨row, before, -, -, hdb, -⟩ := hadd
    rw [hdb]
    simp [AuthWorld.add]

theorem Acted.keeps_cleared {env : AuthEnv} {c : κ} {call call' : AuthCall} {w w' : AuthWorld κ}
    (ha : Acted env c call w call' w') {before : Nat} {userId : ObjectId}
    {except : Option ObjectId} (h : Cleared before userId except w) :
    Cleared before userId except w' := by
  cases ha.tokens with
  | inl hf => exact h.fades hf
  | inr hadd =>
    obtain ⟨row, _, -, -, hdb, hnow⟩ := hadd
    exact h.add hdb hnow

/-- While each user has at most one usable token, every call keeps to its outline. -/
theorem token_outline (env : AuthEnv) :
    Outline (@AuthCall.act κ env) AuthWorld.tick AtMostOneUsable TokenIds
      (fun _ => TokenOutline) where
  own := by
    intro c input call w call' w' hone hids hcall hact
    have ha := act_acted hact
    refine ⟨hids.acted ha, ?_⟩
    cases ha with
    | throws call w err => trivial
    | loginBegins request user w => exact Nat.le_refl _
    | loginRevokes request user before w => exact cleared_of_revokeAllByUser user._id _ hcall
    | loginIssues request user before row response hrow hnew w =>
      have hclear : Cleared before user._id none w := hcall
      rw [← hrow] at hclear
      exact hclear
    | loginCreates row response before w hfresh => trivial
    | refreshBegins oldToken w => exact fun old hold => cleared_of_findByToken hone hold
    | refreshChecks old before since w => exact hcall old rfl
    | refreshRevokes old before since w => exact Cleared.revoke hcall hids _
    | refreshFindsUser old user before overtaken w => exact hcall
    | refreshIssues old user before overtaken row response hrow hnew w =>
      have hclear : Cleared before old.userId none w := hcall
      rw [← hrow] at hclear
      exact hclear
    | refreshCreates old row response before overtaken w hfresh => trivial
  others := by
    intro c input call w call' w' d other _ _ _ hact _ hother
    have ha := act_acted hact
    exact hother.stable ha.length_le fun _ _ _ => ha.keeps_cleared
  env := by
    intro elapsed w _ hids
    have hf := fades_tick w elapsed
    refine ⟨hids.fades hf, ?_⟩
    intro d other hother
    exact hother.stable (Nat.le_of_eq hf.length_eq) fun _ _ _ h => h.fades hf

/-! ## One step -/

theorem act_stores {env : AuthEnv} {c : κ} {call call' : AuthCall} {w w' : AuthWorld κ}
    {row : RefreshTokenDocument} {before : Nat} (hstores : call.stores = some (row, before))
    (h : call.act env c .proceed w = some (call', w')) :
    (∃ db, RefreshTokensRepository.create w.db row = .ok db ∧ w'.db = db ∧ w'.now = w.now) ∨
      ((∀ db, RefreshTokensRepository.create w.db row ≠ .ok db) ∧ w' = w) := by
  cases hcreate : RefreshTokensRepository.create w.db row with
  | error err =>
    right
    refine ⟨by simp, ?_⟩
    cases call <;> cases hstores <;> simp only [AuthCall.act, hcreate] at h <;> cases h <;> rfl
  | ok db =>
    left
    refine ⟨db, rfl, ?_⟩
    cases call <;> cases hstores <;> simp only [AuthCall.act, hcreate] at h <;> cases h <;>
      exact ⟨rfl, rfl⟩

/-- A call about to store a row does nothing else, save that it may fail. -/
theorem act_stores_other {env : AuthEnv} {c : κ} {input : AuthInput} {call call' : AuthCall}
    {w w' : AuthWorld κ} {row : RefreshTokenDocument} {before : Nat}
    (hstores : call.stores = some (row, before)) (hinput : input ≠ .proceed)
    (h : call.act env c input w = some (call', w')) : w' = w := by
  cases call <;> cases hstores <;> cases input <;> simp [AuthCall.act] at h hinput <;>
    exact h.2.symm

/-- Storing one more row keeps the count exactly when it is not usable itself or no
usable row was there. -/
theorem atMostOneUsable_add {w w' : AuthWorld κ} (h : AtMostOneUsable w)
    {row : RefreshTokenDocument} (hdb : w'.db = w.add row) (hnow : w'.now = w.now) :
    AtMostOneUsable w' ↔ (row.usable w.now = true → w.usableOf row.userId = []) := by
  have husable : ∀ userId, w'.usableOf userId = w.usableOf userId ++
      if row.userId == userId && row.usable w.now then [row] else [] := by
    intro userId
    simp only [AuthWorld.usableOf, hdb, hnow, AuthWorld.add, List.filter_append]
    rw [List.filter_singleton, Bool.cond_eq_ite]
  constructor
  · intro h' hrow
    have hone := h' row.userId
    rw [husable, if_pos (by simp [hrow]), List.length_append, List.length_singleton] at hone
    exact List.length_eq_zero_iff.mp (by omega)
  · intro hempty userId
    rw [husable]
    split
    · next hrow =>
      simp only [Bool.and_eq_true, beq_iff_eq] at hrow
      rw [← hrow.1, hempty hrow.2]
      simp
    · simpa using h userId

theorem usableOf_eq_nil {w : AuthWorld κ} {before : Nat} {userId : ObjectId}
    (h : Cleared before userId none w) :
    w.usableOf userId = [] ↔
      ∀ r ∈ w.db.tokens.drop before, r.userId = userId → r.usable w.now = false := by
  rw [AuthWorld.usableOf, List.filter_eq_nil_iff]
  constructor
  · intro hall r hr hu
    have hnot := hall r (List.mem_of_mem_drop hr)
    simpa [hu] using hnot
  · intro hdrop r hr hr'
    simp only [Bool.and_eq_true, beq_iff_eq] at hr'
    rw [← List.take_append_drop before w.db.tokens] at hr
    cases List.mem_append.mp hr with
    | inl htake => cases h.cleared r htake hr'.1 hr'.2
    | inr hmem =>
      rw [hdrop r hmem hr'.1] at hr'
      cases hr'.2

theorem TokenOutline.cleared_of_stores {call : AuthCall} {w : AuthWorld κ}
    (h : TokenOutline call w) {row : RefreshTokenDocument} {before : Nat}
    (hstores : call.stores = some (row, before)) : Cleared before row.userId none w := by
  cases call with
  | loginCreate row' response before' =>
    cases hstores
    exact h
  | refreshCreate old row' response before' overtaken =>
    cases hstores
    exact h
  | _ => cases hstores

variable [DecidableEq κ]

/-- From a state with at most one usable token for each user a step leads to such a
state exactly when it does not store a second one. -/
theorem atMostOneUsable_step {env : AuthEnv} {s t : AuthState κ} {m : AuthMove κ}
    (ho : Annotated TokenIds (fun _ => TokenOutline) s) (h : AtMostOneUsable s.shared)
    (hstep : authStep env s m = some t) : AtMostOneUsable t.shared ↔ StoresAlone s m := by
  rcases step_cases hstep with ⟨c, input, call, w, rfl, hact, rfl⟩ | ⟨elapsed, rfl, rfl⟩
  · cases hstores : (s.locals c).stores with
    | none =>
      have hguard : StoresAlone s (.act c input) := by
        cases input with
        | proceed =>
          intro row before hsome
          rw [hstores] at hsome
          cases hsome
        | _ => trivial
      cases (act_acted hact).tokens with
      | inl hf => exact iff_of_true (h.fades hf) hguard
      | inr hadd =>
        obtain ⟨row, before, hsome, -⟩ := hadd
        rw [hstores] at hsome
        cases hsome
    | some p =>
      obtain ⟨row, before⟩ := p
      by_cases hinput : input = .proceed
      · subst hinput
        have hclear := (ho.locals c).cleared_of_stores hstores
        cases act_stores hstores hact with
        | inl hstored =>
          obtain ⟨db, hcreate, hdb, hnow⟩ := hstored
          have hadd : w.db = s.shared.add row := hdb.trans (create_eq_ok.mp hcreate).2
          rw [atMostOneUsable_add h hadd hnow, usableOf_eq_nil hclear]
          constructor
          · intro hone row' before' hsome db' _ husable
            cases hstores.symm.trans hsome
            exact hone husable
          · intro hguard husable
            exact hguard row before hstores db hcreate husable
        | inr hrefused =>
          obtain ⟨hnone, rfl⟩ := hrefused
          apply iff_of_true h
          intro row' before' hsome db' hcreate
          cases hstores.symm.trans hsome
          exact absurd hcreate (hnone db')
      · have hsame := act_stores_other hstores hinput hact
        apply iff_of_true (hsame ▸ h)
        cases input with
        | proceed => exact absurd rfl hinput
        | _ => trivial
  · exact iff_of_true (h.fades (fades_tick s.shared elapsed)) trivial

/-- From a store without refresh tokens each user has at most one usable token in every
state that a run visits exactly when every call that stores a usable token does so while
none stored for the user since the call's lookup is usable. -/
theorem one_usable_token_iff (env : AuthEnv) (users : List UserDocument) (now : Int)
    (moves : List (AuthMove κ)) :
    Always (authStep env) (fun s => AtMostOneUsable s.shared) moves (authInitial users now) ↔
      Guarded (authStep env) StoresAlone moves (authInitial users now) := by
  apply always_iff_guarded (Annotated TokenIds (fun _ => TokenOutline))
  · intro s m t ho h hstep
    exact (token_outline env).step h ho hstep
  · intro s m t ho h hstep
    exact atMostOneUsable_step ho h hstep
  · exact ⟨List.nodup_nil, fun _ => trivial⟩
  · intro userId
    simp [AuthWorld.usableOf, authInitial]

/-- Both logins revoke before either of them creates. -/
def SampleAuth.twoLogins : List (AuthMove Nat) :=
  [login 0, login 1, proceed 0, proceed 1, issue 0 firstId "one", issue 1 secondId "two",
    proceed 0, proceed 1]

theorem two_usable_tokens :
    ¬Always (authStep SampleAuth.env) (fun s => AtMostOneUsable s.shared) SampleAuth.twoLogins
      SampleAuth.start := by
  intro halways
  have hcount : (run (authStep SampleAuth.env) SampleAuth.twoLogins SampleAuth.start).map
      (fun s => (s.shared.usableOf SampleAuth.userId).length) = some 2 := by decide +kernel
  obtain ⟨s, hrun, htwo⟩ := Option.map_eq_some_iff.mp hcount
  have hone := always_iff_prefixes.mp halways _ _ List.prefix_rfl hrun SampleAuth.userId
  omega

end MapleRewards
