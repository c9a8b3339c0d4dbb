import MapleRewards.Tokens

/-!
# Single use of a refresh token

`refresh` looks its row up, checks what it found and then revokes the row by an update
that does not look at it again. Of the calls that revoke a row only the first may go on.
-/
namespace MapleRewards

open Processes LabelledRuns Collection

variable {κ : Type}

def TokenEntry.call : TokenEntry κ → κ
  | .revocation _ c => c
  | .success _ c => c

def TokenEntry.succeeds (id : ObjectId) : TokenEntry κ → Bool
  | .revocation _ _ => false
  | .success used _ => used == id

def TokenEntry.revoker (id : ObjectId) : TokenEntry κ → Option κ
  | .revocation revoked c => if revoked == id then some c else none
  | .success _ _ => none

/-- The call that wrote the first revocation of the row. -/
def firstRevoker (id : ObjectId) (trace : List (TokenEntry κ)) : Option κ :=
  trace.findSome? (TokenEntry.revoker id)

/-- At most one refresh succeeds on a row, and nobody revoked the row before it. -/
structure SingleUse (trace : List (TokenEntry κ)) : Prop where
  once : ∀ id, (trace.filter (TokenEntry.succeeds id)).length ≤ 1
  first : ∀ id c, .success id c ∈ trace → firstRevoker id trace = some c

/-- A refresh whose row another call revoked after the lookup does not complete. -/
def NotOvertaken (s : AuthState κ) : AuthMove κ → Prop
  | .act c .proceed =>
    match s.locals c with
    | .refreshCreate _ row _ _ overtaken =>
      (∃ db, RefreshTokensRepository.create s.shared.db row = .ok db) → overtaken = false
    | _ => True
  | _ => True

/-! ## The trace -/

theorem firstRevoker_append (id : ObjectId) (trace entries : List (TokenEntry κ)) :
    firstRevoker id (trace ++ entries) =
      (firstRevoker id trace).or (firstRevoker id entries) :=
  List.findSome?_append

theorem firstRevoker_append_of_some {id : ObjectId} {trace : List (TokenEntry κ)} {c : κ}
    (h : firstRevoker id trace = some c) (entries : List (TokenEntry κ)) :
    firstRevoker id (trace ++ entries) = some c := by
  rw [firstRevoker_append, h, Option.some_or]

theorem firstRevoker_isSome (id : ObjectId) (trace : List (TokenEntry κ)) :
    (firstRevoker id trace).isSome = trace.any (TokenEntry.revokes id) := by
  induction trace with
  | nil => rfl
  | cons e trace ih =>
    rw [List.any_cons, ← ih, firstRevoker, List.findSome?_cons]
    cases e with
    | revocation revoked c =>
      by_cases h : revoked = id
      · simp [TokenEntry.revoker, TokenEntry.revokes, h]
      · simp [TokenEntry.revoker, TokenEntry.revokes, h, firstRevoker]
    | success used c => simp [TokenEntry.revoker, TokenEntry.revokes, firstRevoker]

theorem revocation_mem_of_firstRevoker {id : ObjectId} {trace : List (TokenEntry κ)} {c : κ}
    (h : firstRevoker id trace = some c) : .revocation id c ∈ trace := by
  obtain ⟨e, he, hrevoker⟩ := List.exists_of_findSome?_eq_some h
  cases e with
  | revocation revoked d =>
    simp only [TokenEntry.revoker, beq_iff_eq, Option.ite_none_right_eq_some] at hrevoker
    obtain ⟨rfl, heq⟩ := hrevoker
    cases heq
    exact he
  | success used d => cases hrevoker

theorem SingleUse.append_of_no_success {trace entries : List (TokenEntry κ)}
    (h : SingleUse trace) (hno : ∀ id c, .success id c ∉ entries) :
    SingleUse (trace ++ entries) := by
  constructor
  · intro id
    have hnil : entries.filter (TokenEntry.succeeds id) = [] := by
      rw [List.filter_eq_nil_iff]
      intro e he
      cases e with
      | revocation revoked c => simp [TokenEntry.succeeds]
      | success used c => exact absurd he (hno used c)
    rw [List.filter_append, hnil, List.append_nil]
    exact h.once id
  · intro id c hmem
    cases List.mem_append.mp hmem with
    | inl hold => exact firstRevoker_append_of_some (h.first id c hold) entries
    | inr hnew => exact absurd hnew (hno id c)

/-- A call that has not succeeded yet may succeed on a row exactly when it was the first
to revoke it. -/
theorem SingleUse.append_success_iff {trace : List (TokenEntry κ)} {id : ObjectId} {c : κ}
    (h : SingleUse trace) (hno : ∀ id, .success id c ∉ trace) :
    SingleUse (trace ++ [.success id c]) ↔ firstRevoker id trace = some c := by
  have hsame : ∀ id', firstRevoker id' (trace ++ [.success id c]) = firstRevoker id' trace := by
    intro id'
    rw [firstRevoker_append]
    simp [firstRevoker, TokenEntry.revoker]
  constructor
  · intro h'
    rw [← hsame]
    exact h'.first id c (by simp)
  · intro hfirst
    constructor
    · intro id'
      rw [List.filter_append, List.length_append]
      by_cases hid : id = id'
      · subst hid
        have hnil : trace.filter (TokenEntry.succeeds id) = [] := by
          rw [List.filter_eq_nil_iff]
          intro e he
          cases e with
          | revocation revoked d => simp [TokenEntry.succeeds]
          | success used d =>
            intro hused
            have hused : used = id := by simpa [TokenEntry.succeeds] using hused
            subst hused
            -- both were the first to revoke the row
            have hd : d = c := Option.some.inj ((h.first used d he).symm.trans hfirst)
            subst hd
            exact hno used he
        rw [hnil]
        simp [TokenEntry.succeeds]
      · have hone := h.once id'
        simpa [TokenEntry.succeeds, hid] using hone
    · intro id' d hmem
      rw [hsame]
      cases List.mem_append.mp hmem with
      | inl hold => exact h.first id' d hold
      | inr hnew =>
        cases List.mem_singleton.mp hnew
        exact hfirst

/-! ## The trace and the rows -/

/-- The trace knows which stored rows are revoked and names no others. -/
structure Traced (w : AuthWorld κ) : Prop where
  ids : TokenIds w
  stored : ∀ id c, .revocation id c ∈ w.trace → ∃ row ∈ w.db.tokens, row._id = id
  revoked : ∀ row ∈ w.db.tokens, row.revoked = (firstRevoker row._id w.trace).isSome

/-- A call wrote entries of its own; only a refresh that completes writes a success. -/
theorem Acted.trace {env : AuthEnv} {c : κ} {call call' : AuthCall} {w w' : AuthWorld κ}
    (h : Acted env c call w call' w') :
    ∃ entries, w'.trace = w.trace ++ entries ∧ (∀ e ∈ entries, e.call = c) ∧
      ((∀ id d, .success id d ∉ entries) ∨
        ∃ old row response before overtaken,
          call = .refreshCreate old row response before overtaken) := by
  cases h with
  | loginRevokes request user before w =>
    refine ⟨_, rfl, ?_, Or.inl ?_⟩
    · intro e he
      obtain ⟨id, -, rfl⟩ := List.mem_map.mp he
      rfl
    · simp
  | refreshRevokes old before since w =>
    exact ⟨_, rfl, by simp [TokenEntry.call], Or.inl (by simp)⟩
  | refreshCreates old row response before overtaken w hfresh =>
    exact ⟨_, rfl, by simp [TokenEntry.call], Or.inr ⟨_, _, _, _, _, rfl⟩⟩
  | _ => exact ⟨[], by simp⟩

/-- Revoke the rows with the given ids and write the entries for them. -/
theorem Traced.revoke {w w' : AuthWorld κ} (h : Traced w) {c : κ} {ids : List ObjectId}
    (hids : ∀ id ∈ ids, ∃ row ∈ w.db.tokens, row._id = id)
    (hrows : w'.db.tokens.map RefreshTokenDocument._id =
      w.db.tokens.map RefreshTokenDocument._id)
    (hflag : ∀ r' ∈ w'.db.tokens, ∃ r ∈ w.db.tokens, r'._id = r._id ∧
      r'.revoked = (r.revoked || decide (r._id ∈ ids)))
    (htrace : w'.trace = w.trace ++ ids.map fun id => .revocation id c) : Traced w' := by
  have hkeep : ∀ id, (∃ row ∈ w.db.tokens, row._id = id) → ∃ row ∈ w'.db.tokens, row._id = id := by
    intro id hid
    have hmem : id ∈ w'.db.tokens.map RefreshTokenDocument._id := by
      rw [hrows]
      exact List.mem_map.mpr hid
    exact List.mem_map.mp hmem
  constructor
  · unfold TokenIds
    rw [hrows]
    exact h.ids
  · intro id d hmem
    rw [htrace] at hmem
    cases List.mem_append.mp hmem with
    | inl hold => exact hkeep id (h.stored id d hold)
    | inr hnew =>
      obtain ⟨id', hid', heq⟩ := List.mem_map.mp hnew
      cases heq
      exact hkeep id (hids id hid')
  · intro r' hr'
    obtain ⟨r, hr, hid, hrevoked⟩ := hflag r' hr'
    have hentries : (ids.map fun id => TokenEntry.revocation id c).any
        (TokenEntry.revokes r._id) = decide (r._id ∈ ids) := by
      rw [List.any_map]
      simp only [Function.comp_def, TokenEntry.revokes]
      rw [List.any_beq', List.contains_eq_mem]
    rw [hrevoked, h.revoked r hr, hid, htrace, firstRevoker_isSome, firstRevoker_isSome,
      List.any_append, hentries]

theorem Traced.revokeAllByUser {w : AuthWorld κ} (h : Traced w) (userId : ObjectId) (c : κ) :
    Traced ⟨w.now, RefreshTokensRepository.revokeAllByUser w.db userId w.now,
      w.trace ++ (w.db.revocable userId w.now).map fun id => .revocation id c⟩ := by
  refine h.revoke ?_ ?_ ?_ rfl
  · intro id hid
    obtain ⟨row, hrow, rfl⟩ := List.mem_map.mp hid
    exact ⟨row, List.mem_of_mem_filter hrow, rfl⟩
  · exact (fades_revokeAllByUser w userId _).ids
  · intro r' hr'
    obtain ⟨r, hr, rfl⟩ := List.mem_map.mp hr'
    have hmem : r._id ∈ w.db.revocable userId w.now ↔
        (r.userId == userId && r.usable w.now) = true := by
      constructor
      · intro hid
        obtain ⟨r₀, hr₀, heq⟩ := List.mem_map.mp hid
        have hsame : r₀ = r :=
          List.inj_on_of_nodup_map h.ids (List.mem_of_mem_filter hr₀) hr heq
        rw [← hsame]
        exact (List.mem_filter.mp hr₀).2
      · intro hq
        exact List.mem_map.mpr ⟨r, List.mem_filter.mpr ⟨hr, hq⟩, rfl⟩
    refine ⟨r, hr, ?_⟩
    by_cases hq : (r.userId == userId && r.usable w.now) = true
    · rw [if_pos hq]
      exact ⟨rfl, by simp [hmem.mpr hq]⟩
    · rw [if_neg hq]
      refine ⟨rfl, ?_⟩
      have hnot : r._id ∉ w.db.revocable userId w.now := fun hid => hq (hmem.mp hid)
      simp [hnot]

theorem Traced.revokeOne {w : AuthWorld κ} (h : Traced w) {id : ObjectId}
    (hid : ∃ row ∈ w.db.tokens, row._id = id) (c : κ) :
    Traced ⟨w.now, RefreshTokensRepository.revoke w.db id, w.trace ++ [.revocation id c]⟩ := by
  refine @Traced.revoke κ w _ h c [id] ?_ ?_ ?_ rfl
  · intro id' hid'
    rw [List.mem_singleton] at hid'
    rw [hid']
    exact hid
  · exact (fades_revoke w id _).ids
  · intro r' hr'
    cases (mem_updateFirst_key RefreshTokenDocument._id h.ids).mp hr' with
    | inl hold => exact ⟨r', hold.1, rfl, by simp [hold.2]⟩
    | inr hnew =>
      obtain ⟨r, hr, hrid, rfl⟩ := hnew
      exact ⟨r, hr, rfl, by simp [hrid]⟩

/-- A new row has no revocation yet; a success is none. -/
theorem Traced.add {w w' : AuthWorld κ} (h : Traced w) {row : RefreshTokenDocument}
    (hfresh : ∀ r ∈ w.db.tokens, r._id ≠ row._id) (hnew : row.revoked = false)
    {entries : List (TokenEntry κ)} (hdb : w'.db = w.add row)
    (htrace : w'.trace = w.trace ++ entries) (hno : ∀ id c, .revocation id c ∉ entries) :
    Traced w' := by
  have hentries : ∀ id, firstRevoker id w'.trace = firstRevoker id w.trace := by
    intro id
    have hnone : firstRevoker id entries = none := by
      cases hsome : firstRevoker id entries with
      | none => rfl
      | some c => exact absurd (revocation_mem_of_firstRevoker hsome) (hno id c)
    rw [htrace, firstRevoker_append, hnone, Option.or_none]
  constructor
  · unfold TokenIds
    rw [hdb]
    exact nodup_append_singleton _ h.ids hfresh
  · intro id c hmem
    rw [htrace] at hmem
    cases List.mem_append.mp hmem with
    | inl hold =>
      obtain ⟨r, hr, hid⟩ := h.stored id c hold
      exact ⟨r, by rw [hdb]; simp [AuthWorld.add, hr], hid⟩
    | inr hin => exact absurd hin (hno id c)
  · intro r hr
    rw [hentries]
    rw [hdb] at hr
    cases List.mem_append.mp hr with
    | inl hold => exact h.revoked r hold
    | inr hin =>
      rw [List.mem_singleton.mp hin, hnew]
      cases hsome : firstRevoker row._id w.trace with
      | none => rfl
      | some c =>
        obtain ⟨r, hr, hid⟩ := h.stored _ c (revocation_mem_of_firstRevoker hsome)
        exact absurd hid (hfresh r hr)

/-! ## The outline of a call -/

def Silent (c : κ) (w : AuthWorld κ) : Prop := ∀ e ∈ w.trace, e.call ≠ c

/-- The row was not revoked when the call looked it up. -/
structure Unspent (old : RefreshTokenDocument) (since : Nat) (w : AuthWorld κ) : Prop where
  stored : ∃ row ∈ w.db.tokens, row._id = old._id
  since_le : since ≤ w.trace.length
  unspent : firstRevoker old._id (w.trace.take since) = none

/-- The call revoked the row, as the first exactly when it was not overtaken, and has
not succeeded yet. -/
structure Spent (c : κ) (old : RefreshTokenDocument) (overtaken : Bool) (w : AuthWorld κ) :
    Prop where
  unsuccessful : ∀ id, .success id c ∉ w.trace
  revoker : ∃ d, firstRevoker old._id w.trace = some d ∧ (d = c ↔ overtaken = false)

def UseOutline (c : κ) (call : AuthCall) (w : AuthWorld κ) : Prop :=
  match call with
  | .idle => Silent c w
  | .loginCreate row _ _ => row.revoked = false
  | .refreshCheck found _ since => Silent c w ∧ ∀ old, found = some old → Unspent old since w
  | .refreshRevoke old _ since => Silent c w ∧ Unspent old since w
  | .refreshUser old _ overtaken => Spent c old overtaken w
  | .refreshIssue old _ _ overtaken => Spent c old overtaken w
  | .refreshCreate old row _ _ overtaken => Spent c old overtaken w ∧ row.revoked = false
  | _ => True

theorem Silent.mono {c d : κ} {w w' : AuthWorld κ} (h : Silent d w) {entries : List (TokenEntry κ)}
    (htrace : w'.trace = w.trace ++ entries) (hcall : ∀ e ∈ entries, e.call = c) (hd : d ≠ c) :
    Silent d w' := by
  intro e he
  rw [htrace] at he
  cases List.mem_append.mp he with
  | inl hold => exact h e hold
  | inr hnew =>
    rw [hcall e hnew]
    exact hd.symm

theorem Unspent.mono {old : RefreshTokenDocument} {since : Nat} {w w' : AuthWorld κ}
    (h : Unspent old since w) {entries : List (TokenEntry κ)}
    (htrace : w'.trace = w.trace ++ entries)
    (hstored : ∀ id, (∃ row ∈ w.db.tokens, row._id = id) → ∃ row ∈ w'.db.tokens, row._id = id) :
    Unspent old since w' := by
  refine ⟨hstored _ h.stored, ?_, ?_⟩
  · have hle := h.since_le
    rw [htrace, List.length_append]
    omega
  · rw [htrace, List.take_append_of_le_length h.since_le]
    exact h.unspent

theorem Spent.mono {c d : κ} {old : RefreshTokenDocument} {overtaken : Bool} {w w' : AuthWorld κ}
    (h : Spent d old overtaken w) {entries : List (TokenEntry κ)}
    (htrace : w'.trace = w.trace ++ entries) (hcall : ∀ e ∈ entries, e.call = c) (hd : d ≠ c) :
    Spent d old overtaken w' := by
  constructor
  · intro id hmem
    rw [htrace] at hmem
    cases List.mem_append.mp hmem with
    | inl hold => exact h.unsuccessful id hold
    | inr hnew => exact hd (hcall _ hnew)
  · obtain ⟨e, hfirst, hiff⟩ := h.revoker
    exact ⟨e, htrace ▸ firstRevoker_append_of_some hfirst entries, hiff⟩

/-- No row is ever deleted. -/
theorem Acted.stored {env : AuthEnv} {c : κ} {call call' : AuthCall} {w w' : AuthWorld κ}
    (h : Acted env c call w call' w') {id : ObjectId} (hid : ∃ row ∈ w.db.tokens, row._id = id) :
    ∃ row ∈ w'.db.tokens, row._id = id := by
  obtain ⟨row, hrow, rfl⟩ := hid
  cases h.tokens with
  | inl hfades =>
    obtain ⟨row', hrow', hfaded⟩ := mem_of_forall₂ hfades.flip hrow
    exact ⟨row', hrow', hfaded._id⟩
  | inr hadd =>
    obtain ⟨new, before, -, -, hdb, -⟩ := hadd
    exact ⟨row, by rw [hdb]; simp [AuthWorld.add, hrow], rfl⟩

theorem unspent_of_findByToken {env : AuthEnv} {w : AuthWorld κ} (h : Traced w) {token : String}
    {old : RefreshTokenDocument}
    (hfound : RefreshTokensRepository.findByToken env w.db token w.now = some old) :
    Unspent old w.trace.length w := by
  have hmem := findByToken_eq_some hfound
  refine ⟨⟨old, hmem.1, rfl⟩, Nat.le_refl _, ?_⟩
  have hrevoked := h.revoked old hmem.1
  rw [(usable_eq_true.mp hmem.2).1] at hrevoked
  rw [List.take_length]
  exact Option.isNone_iff_eq_none.mp (by simpa using hrevoked.symm)

/-- The revocation of a refresh is the first one exactly when none was written since its
lookup. -/
theorem Unspent.spent {c : κ} {old : RefreshTokenDocument} {since : Nat} {w w' : AuthWorld κ}
    (h : Unspent old since w) (hsilent : Silent c w)
    (htrace : w'.trace = w.trace ++ [.revocation old._id c]) :
    Spent c old ((w.trace.drop since).any (TokenEntry.revokes old._id)) w' := by
  have hdrop : firstRevoker old._id w.trace = firstRevoker old._id (w.trace.drop since) := by
    conv_lhs => rw [← List.take_append_drop since w.trace]
    rw [firstRevoker_append, h.unspent, Option.none_or]
  constructor
  · intro id hmem
    rw [htrace] at hmem
    cases List.mem_append.mp hmem with
    | inl hold => exact hsilent _ hold rfl
    | inr hnew => simp at hnew
  · rw [htrace, firstRevoker_append, ← firstRevoker_isSome, ← hdrop]
    cases hfirst : firstRevoker old._id w.trace with
    | none => exact ⟨c, by simp [firstRevoker, TokenEntry.revoker], by simp⟩
    | some d =>
      have hne : d ≠ c := hsilent _ (revocation_mem_of_firstRevoker hfirst)
      exact ⟨d, by simp, by simp [hne]⟩

/-- Every call keeps to its outline. -/
theorem use_outline (env : AuthEnv) :
    Outline (@AuthCall.act κ env) AuthWorld.tick (fun _ => True) Traced UseOutline where
  own := by
    intro c input call w call' w' _ htraced hcall hact
    cases act_acted hact with
    | throws call w err => exact ⟨htraced, trivial⟩
    | loginBegins request user w => exact ⟨htraced, trivial⟩
    | loginRevokes request user before w =>
      exact ⟨htraced.revokeAllByUser user._id c, trivial⟩
    | loginIssues request user before row response hrow hnew w => exact ⟨htraced, hnew⟩
    | loginCreates row response before w hfresh =>
      exact ⟨htraced.add hfresh hcall rfl (List.append_nil _).symm (by simp), trivial⟩
    | refreshBegins oldToken w =>
      exact ⟨htraced, hcall, fun old hold => unspent_of_findByToken htraced hold⟩
    | refreshChecks old before since w => exact ⟨htraced, hcall.1, hcall.2 old rfl⟩
    | refreshRevokes old before since w =>
      exact ⟨htraced.revokeOne hcall.2.stored c, hcall.2.spent hcall.1 rfl⟩
    | refreshFindsUser old user before overtaken w => exact ⟨htraced, hcall⟩
    | refreshIssues old user before overtaken row response hrow hnew w =>
      exact ⟨htraced, hcall, hnew⟩
    | refreshCreates old row response before overtaken w hfresh =>
      exact ⟨htraced.add hfresh hcall.2 rfl rfl (by simp), trivial⟩
  others := by
    intro c input call w call' w' d other _ _ _ hact hd hother
    have ha := act_acted hact
    obtain ⟨entries, htrace, hentries, -⟩ := ha.trace
    cases other with
    | idle => exact Silent.mono hother htrace hentries hd
    | loginCreate row response before => exact hother
    | refreshCheck found before since =>
      refine ⟨hother.1.mono htrace hentries hd, ?_⟩
      intro old hold
      exact (hother.2 old hold).mono htrace fun id => ha.stored
    | refreshRevoke old before since =>
      exact ⟨hother.1.mono htrace hentries hd, hother.2.mono htrace fun id => ha.stored⟩
    | refreshUser old before overtaken => exact Spent.mono hother htrace hentries hd
    | refreshIssue old user before overtaken => exact Spent.mono hother htrace hentries hd
    | refreshCreate old row response before overtaken =>
      exact ⟨hother.1.mono htrace hentries hd, hother.2⟩
    | _ => trivial
  env := by
    intro elapsed w _ htraced
    refine ⟨⟨htraced.ids, htraced.stored, htraced.revoked⟩, ?_⟩
    intro d other hother
    cases other with
    | refreshCheck found before since =>
      refine ⟨hother.1, ?_⟩
      intro old hold
      have h := hother.2 old hold
      exact ⟨h.stored, h.since_le, h.unspent⟩
    | refreshRevoke old before since =>
      have h := hother.2
      exact ⟨hother.1, h.stored, h.since_le, h.unspent⟩
    | refreshUser old before overtaken => exact ⟨hother.unsuccessful, hother.revoker⟩
    | refreshIssue old user before overtaken => exact ⟨hother.unsuccessful, hother.revoker⟩
    | refreshCreate old row response before overtaken =>
      exact ⟨⟨hother.1.unsuccessful, hother.1.revoker⟩, hother.2⟩
    | _ => exact hother

/-! ## One step -/

theorem act_refreshCreate {env : AuthEnv} {c : κ} {input : AuthInput} {call' : AuthCall}
    {w w' : AuthWorld κ} {old row : RefreshTokenDocument} {response : RefreshTokenResponseDto}
    {before : Nat} {overtaken : Bool}
    (h : (AuthCall.refreshCreate old row response before overtaken).act env c input w =
      some (call', w')) :
    (input = .proceed ∧ (∃ db, RefreshTokensRepository.create w.db row = .ok db) ∧
      w'.trace = w.trace ++ [.success old._id c]) ∨
    ((input = .proceed → ∀ db, RefreshTokensRepository.create w.db row ≠ .ok db) ∧ w' = w) := by
  by_cases hinput : input = .proceed
  · subst hinput
    simp only [AuthCall.act] at h
    cases hcreate : RefreshTokensRepository.create w.db row with
    | error err =>
      rw [hcreate] at h
      cases h
      exact Or.inr ⟨by simp, rfl⟩
    | ok db =>
      rw [hcreate] at h
      cases h
      exact Or.inl ⟨rfl, ⟨db, rfl⟩, rfl⟩
  · exact Or.inr ⟨fun hp => absurd hp hinput, act_stores_other rfl hinput h⟩

variable [DecidableEq κ]

theorem singleUse_step {env : AuthEnv} {s t : AuthState κ} {m : AuthMove κ}
    (ho : Annotated Traced UseOutline s) (h : SingleUse s.shared.trace)
    (hstep : authStep env s m = some t) : SingleUse t.shared.trace ↔ NotOvertaken s m := by
  rcases step_cases hstep with ⟨c, input, call, w, rfl, hact, rfl⟩ | ⟨elapsed, rfl, rfl⟩
  · have hcall := ho.locals c
    cases hlocal : s.locals c with
    | refreshCreate old row response before overtaken =>
      rw [hlocal] at hact hcall
      have hspent : Spent c old overtaken s.shared := hcall.1
      cases act_refreshCreate hact with
      | inl hdone =>
        obtain ⟨rfl, hcreate, htrace⟩ := hdone
        obtain ⟨d, hfirst, hiff⟩ := hspent.revoker
        rw [htrace, h.append_success_iff hspent.unsuccessful, hfirst, Option.some_inj, hiff]
        simp [NotOvertaken, hlocal, hcreate]
      | inr hrefused =>
        obtain ⟨hnone, rfl⟩ := hrefused
        apply iff_of_true h
        cases input with
        | proceed =>
          simp only [NotOvertaken, hlocal]
          rintro ⟨db, hcreate⟩
          exact absurd hcreate (hnone rfl db)
        | _ => trivial
    | _ =>
      have hguard : NotOvertaken s (.act c input) := by
        cases input <;> simp [NotOvertaken, hlocal]
      obtain ⟨entries, htrace, -, hno⟩ := (act_acted hact).trace
      refine iff_of_true ?_ hguard
      cases hno with
      | inl hno =>
        rw [htrace]
        exact h.append_of_no_success hno
      | inr hcreates =>
        obtain ⟨old, row, response, before, overtaken, hcreates⟩ := hcreates
        rw [hlocal] at hcreates
        cases hcreates
  · exact iff_of_true h trivial

/-- Refresh tokens are single use in a run exactly when no refresh completes whose row
another call revoked after the lookup. -/
theorem single_use_iff (env : AuthEnv) (users : List UserDocument) (now : Int)
    (moves : List (AuthMove κ)) :
    Always (authStep env) (fun s => SingleUse s.shared.trace) moves (authInitial users now) ↔
      Guarded (authStep env) NotOvertaken moves (authInitial users now) := by
  apply always_iff_guarded (Annotated Traced UseOutline)
  · intro s m t ho _ hstep
    exact (use_outline env).step trivial ho hstep
  · intro s m t ho h hstep
    exact singleUse_step ho h hstep
  · exact ⟨⟨List.nodup_nil, by simp [authInitial], by simp [authInitial]⟩,
      fun c => by simp [authInitial, UseOutline, Silent]⟩
  · exact ⟨by simp [authInitial], by simp [authInitial]⟩

/-- Both refreshes look the row up before either of them revokes it. -/
def SampleAuth.twoRefreshes : List (AuthMove Nat) :=
  [login 0, proceed 0, issue 0 firstId "one", proceed 0, refresh 1 "one", refresh 2 "one",
    proceed 1, proceed 2, proceed 1, proceed 2, proceed 1, proceed 2, issue 1 secondId "two",
    issue 2 thirdId "three", proceed 1, proceed 2]

theorem row_used_twice :
    ¬Always (authStep SampleAuth.env) (fun s => SingleUse s.shared.trace) SampleAuth.twoRefreshes
      SampleAuth.start := by
  intro halways
  have hcount : (run (authStep SampleAuth.env) SampleAuth.twoRefreshes SampleAuth.start).map
      (fun s => (s.shared.trace.filter (TokenEntry.succeeds SampleAuth.firstId)).length) =
        some 2 := by decide +kernel
  obtain ⟨s, hrun, htwo⟩ := Option.map_eq_some_iff.mp hcount
  have hone := (always_iff_prefixes.mp halways _ _ List.prefix_rfl hrun).once SampleAuth.firstId
  omega

end MapleRewards
