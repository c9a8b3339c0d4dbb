import MapleRewards.EventGrowth

/-!
# The counters of a user

An activity request sets the counters that it gives and leaves the others. Whatever else
is going on, the stored counters are the last ones given, in the order of the commits.
-/
namespace MapleRewards

open SnapshotStore LabelledRuns Collection

variable {κ : Type} [DecidableEq κ]

/-- The activity request that a command makes for the user. -/
def Command.activityOf (userId : ObjectId) : Command → Option UserActivityCreateRequestDto
  | .createUserActivity dto _ _ =>
    if ObjectId.ofString dto.userId = some userId then some dto else none
  | _ => none

/-- The activity requests of the user that have been committed, oldest first. -/
def activitiesOf (userId : ObjectId) (log : List (Command × Db)) :
    List UserActivityCreateRequestDto :=
  log.filterMap fun p => p.1.activityOf userId

/-- The last value that the requests give, or the schema's default. -/
def lastGiven (counter : UserActivityCreateRequestDto → Option Rat)
    (requests : List UserActivityCreateRequestDto) : Rat :=
  (requests.filterMap counter).getLast?.getD 0

theorem lastGiven_concat (counter : UserActivityCreateRequestDto → Option Rat)
    (requests : List UserActivityCreateRequestDto) (dto : UserActivityCreateRequestDto) :
    lastGiven counter (requests ++ [dto]) = (counter dto).getD (lastGiven counter requests) := by
  unfold lastGiven
  cases hc : counter dto with
  | none => simp [hc]
  | some value => simp [hc]

theorem activitiesOf_concat (userId : ObjectId) (log : List (Command × Db)) (command : Command)
    (snap : Db) : activitiesOf userId (log ++ [(command, snap)]) =
      activitiesOf userId log ++ (command.activityOf userId).toList := by
  cases hc : command.activityOf userId with
  | none => simp [activitiesOf, hc]
  | some dto => simp [activitiesOf, hc]

/-- The counters that the requests leave behind. -/
def countersGiven (requests : List UserActivityCreateRequestDto) : Option Activity :=
  if requests = [] then none
  else some ⟨lastGiven UserActivityCreateRequestDto.loginStreak requests,
    lastGiven UserActivityCreateRequestDto.inviteCount requests,
    lastGiven UserActivityCreateRequestDto.purchaseTotal requests⟩

/-- The stored counters of the user, as a reward request looks them up. -/
def Db.countersOf (db : Db) (userId : ObjectId) : Option Activity :=
  (db.activities.find? fun activity => activity.userId == userId).map UserActivityDocument.counters

/-- One activity document for each user, with the counters last given. -/
structure CountersTrue (log : List (Command × Db)) (db : Db) : Prop where
  users : (db.activities.map UserActivityDocument.userId).Nodup
  counters : ∀ userId, db.countersOf userId = countersGiven (activitiesOf userId log)

/-- A command that makes no activity request leaves the activities alone. -/
theorem perform_activities {command : Command} {snap db db' : Db}
    (hother : ∀ userId, command.activityOf userId = none)
    (h : perform command snap db = some db') : db'.activities = db.activities := by
  cases command with
  | createUserActivity dto newId now =>
    obtain ⟨response, h⟩ := committed_eq_some h
    obtain ⟨⟨activity, db₁⟩, hupdate, -⟩ := bind_eq_ok h
    obtain ⟨uid, huid, -⟩ := bind_eq_ok hupdate
    have hnone := hother uid
    simp [Command.activityOf, parseId_eq_ok.mp huid] at hnone
  | createEvent dto newId validatedAt createdAt =>
    obtain ⟨response, h⟩ := committed_eq_some h
    obtain ⟨event, -, -, -, -, -, -, rfl⟩ := EventService.create_writes h
    rfl
  | updateStatus dto =>
    obtain ⟨response, h⟩ := committed_eq_some h
    rcases EventService.updateStatus_writes h with rfl | ⟨_id, status, -, rfl⟩ <;> rfl
  | addReward dto newRuleId =>
    by_cases hused : db.hasRule newRuleId = true
    · simp [perform, hused] at h
    · simp only [perform, hused] at h
      obtain ⟨response, h⟩ := committed_eq_some h
      cases RewardService.addReward_added h <;> rfl
  | createRewardRequest eventId dto newId checkedAt requestedAt =>
    obtain ⟨response, h⟩ := committed_eq_some h
    obtain ⟨event, granted, r, -, -, -, -, -, rfl⟩ :=
      RewardRequestService.createRewardRequest_writes h
    rfl
  | approveRewardRequest dto now savedAt =>
    obtain ⟨response, h⟩ := committed_eq_some h
    rw [RewardRequestService.approveRewardRequest_eq_error] at h
    cases h

/-- `$set` of the counters that a request gives. -/
def UserActivityDocument.setGiven (dto : UserActivityCreateRequestDto) (now : Int)
    (activity : UserActivityDocument) : UserActivityDocument :=
  { activity with
    loginStreak := dto.loginStreak.getD activity.loginStreak
    inviteCount := dto.inviteCount.getD activity.inviteCount
    purchaseTotal := dto.purchaseTotal.getD activity.purchaseTotal
    lastUpdatedAt := now }

/-- An activity request updates the document of its user or inserts one. -/
theorem UserActivityService.create_cases {db db' : Db} {dto : UserActivityCreateRequestDto}
    {newId : ObjectId} {now : Int} {response : UserActivityDto}
    (h : UserActivityService.create db dto newId now = .ok (response, db')) :
    ∃ uid, ObjectId.ofString dto.userId = some uid ∧
      ((∃ stored, db.activities.find? (fun activity => activity.userId == uid) = some stored ∧
        db' = { db with
          activities := updateFirst (fun activity => activity.userId == uid)
            (UserActivityDocument.setGiven dto now) db.activities }) ∨
      (db.activities.find? (fun activity => activity.userId == uid) = none ∧
        db' = { db with
          activities := db.activities ++
            [UserActivityDocument.setGiven dto now ⟨newId, uid, 0, 0, 0, now⟩] })) := by
  obtain ⟨⟨activity, db₁⟩, hupdate, h⟩ := bind_eq_ok h
  cases h
  obtain ⟨uid, huid, hupdate⟩ := bind_eq_ok hupdate
  refine ⟨uid, parseId_eq_ok.mp huid, ?_⟩
  simp only at hupdate
  split at hupdate
  · next stored hstored =>
    cases hupdate
    exact Or.inl ⟨stored, hstored, rfl⟩
  · next hnone =>
    split at hupdate
    · cases hupdate
    · cases hupdate
      exact Or.inr ⟨hnone, rfl⟩

theorem countersGiven_concat (requests : List UserActivityCreateRequestDto)
    (dto : UserActivityCreateRequestDto) : countersGiven (requests ++ [dto]) =
      some ⟨dto.loginStreak.getD (lastGiven UserActivityCreateRequestDto.loginStreak requests),
        dto.inviteCount.getD (lastGiven UserActivityCreateRequestDto.inviteCount requests),
        dto.purchaseTotal.getD
          (lastGiven UserActivityCreateRequestDto.purchaseTotal requests)⟩ := by
  simp [countersGiven, lastGiven_concat]

theorem countersGiven_eq_none {requests : List UserActivityCreateRequestDto} :
    countersGiven requests = none ↔ requests = [] := by
  simp [countersGiven]

/-- One activity request. -/
theorem CountersTrue.create {log : List (Command × Db)} {snap db db' : Db}
    {dto : UserActivityCreateRequestDto} {newId : ObjectId} {now : Int}
    {response : UserActivityDto} (h : CountersTrue log db)
    (hcreate : UserActivityService.create db dto newId now = .ok (response, db')) :
    CountersTrue (log ++ [(.createUserActivity dto newId now, snap)]) db' := by
  obtain ⟨uid, huid, hcases⟩ := UserActivityService.create_cases hcreate
  have hown : (Command.createUserActivity dto newId now).activityOf uid = some dto := by
    simp [Command.activityOf, huid]
  have hothers : ∀ userId, userId ≠ uid →
      (Command.createUserActivity dto newId now).activityOf userId = none := by
    intro userId hne
    simp [Command.activityOf, huid, Ne.symm hne]
  have hbefore := h.counters uid
  rcases hcases with ⟨stored, hstored, rfl⟩ | ⟨hnone, rfl⟩
  · constructor
    · simp only
      rw [map_updateFirst _ (UserActivityDocument.setGiven dto now) UserActivityDocument.userId
        (fun _ => rfl)]
      exact h.users
    · intro userId
      rw [activitiesOf_concat]
      by_cases hsame : userId = uid
      · subst hsame
        have hfound : Db.countersOf { db with
            activities := updateFirst (fun activity => activity.userId == userId)
              (UserActivityDocument.setGiven dto now) db.activities } userId =
            some (stored.setGiven dto now).counters := by
          have hkeep : ∀ activity : UserActivityDocument, (activity.userId == userId) = true →
              ((activity.setGiven dto now).userId == userId) = true := fun _ hquery => hquery
          simp only [Db.countersOf, find?_updateFirst hkeep, hstored]
          rfl
        have hgiven : activitiesOf userId log ≠ [] := by
          intro hempty
          rw [Db.countersOf, hstored, hempty] at hbefore
          cases hbefore
        rw [Db.countersOf, hstored, countersGiven, if_neg hgiven, Option.map_some,
          Option.some.injEq] at hbefore
        rw [hown, Option.toList_some, countersGiven_concat, hfound]
        simp only [UserActivityDocument.counters, Activity.mk.injEq] at hbefore
        obtain ⟨hlogin, hinvite, hpurchase⟩ := hbefore
        simp only [UserActivityDocument.counters, UserActivityDocument.setGiven, hlogin, hinvite,
          hpurchase]
      · rw [hothers userId hsame, Option.toList_none, List.append_nil, ← h.counters userId]
        simp only [Db.countersOf]
        rw [find?_updateFirst_of_not]
        intro activity hquery
        have huser : activity.userId = uid := by simpa using hquery
        simp [UserActivityDocument.setGiven, huser, Ne.symm hsame]
  · constructor
    · apply nodup_append_singleton _ h.users
      intro activity hactivity heq
      have hnot := List.find?_eq_none.mp hnone activity hactivity
      exact hnot (by simpa [UserActivityDocument.setGiven] using heq)
    · intro userId
      rw [activitiesOf_concat]
      by_cases hsame : userId = uid
      · subst hsame
        have hempty : activitiesOf userId log = [] := by
          rw [Db.countersOf, hnone] at hbefore
          exact countersGiven_eq_none.mp hbefore.symm
        rw [hown, Option.toList_some, countersGiven_concat, hempty]
        simp [Db.countersOf, List.find?_append, hnone, UserActivityDocument.setGiven,
          UserActivityDocument.counters, lastGiven]
      · rw [hothers userId hsame, Option.toList_none, List.append_nil, ← h.counters userId]
        simp [Db.countersOf, List.find?_append, UserActivityDocument.setGiven, Ne.symm hsame]

/-- One commit of any command. -/
theorem CountersTrue.commit {log : List (Command × Db)} {command : Command} {snap db db' : Db}
    (h : CountersTrue log db) (hperform : perform command snap db = some db') :
    CountersTrue (log ++ [(command, snap)]) db' := by
  by_cases hother : ∀ userId, command.activityOf userId = none
  · have hsame := perform_activities hother hperform
    refine ⟨hsame ▸ h.users, ?_⟩
    intro userId
    rw [activitiesOf_concat, hother userId, Option.toList_none, List.append_nil,
      ← h.counters userId, Db.countersOf, hsame]
    rfl
  · cases command with
    | createUserActivity dto newId now =>
      obtain ⟨response, hcreate⟩ := committed_eq_some hperform
      exact h.create hcreate
    | _ => exact absurd (fun _ => rfl) hother

/-- In every reachable state a user has at most one activity document, and it holds for
each counter the last value that a committed request of the user gave, or 0. -/
theorem counters_are_last_given {s : ServiceState κ} (h : ReachableService s) :
    (s.db.activities.map UserActivityDocument.userId).Nodup ∧
      ∀ userId, s.db.countersOf userId = countersGiven (activitiesOf userId s.log) := by
  have htrue : CountersTrue s.log s.db := by
    refine reachable_log perform_preserves CountersTrue WellFormed.empty ?_ ?_ h
    · exact ⟨List.nodup_nil, fun _ => rfl⟩
    · intro log command snap db db' _ _ _ hlog hperform
      exact hlog.commit hperform
  exact ⟨htrue.users, htrue.counters⟩

theorem counters_are_last_given_sample :
    countersGiven (activitiesOf Sample.userId Sample.state.log) = some ⟨5, 4, 0⟩ := by
  have h := (counters_are_last_given Sample.state_reachable).2 Sample.userId
  rw [Sample.state_db] at h
  rw [← h]
  decide +kernel

end MapleRewards
