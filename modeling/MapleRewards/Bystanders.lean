import MapleRewards.AddReward

/-!
# What a command leaves alone

A request depends on the counters of its user and on the rules of its event. Most
commands change neither.
-/
namespace MapleRewards

open SnapshotStore LabelledRuns Collection

/-- Neither an activity update of the user nor a new rule on the event. -/
def Command.Bystander (userId eventId : ObjectId) : Command → Prop
  | .createUserActivity dto _ _ => ObjectId.ofString dto.userId ≠ some userId
  | .addReward dto _ => ObjectId.ofString dto.eventId = some eventId → dto.ruleId ≠ ""
  | _ => True

/-- A request of the user for the event finds the same counters and rules. -/
structure SameFor (userId eventId : ObjectId) (db db' : Db) : Prop where
  activity : db'.activities.find? (fun activity => activity.userId == userId) =
    db.activities.find? fun activity => activity.userId == userId
  event : ∀ event ∈ db.events, event._id = eventId → ∃ event' ∈ db'.events, event'._id = eventId ∧
    event'.autoReward = event.autoReward ∧
    event'.rewardRules.map RewardRuleDocument.key = event.rewardRules.map RewardRuleDocument.key

theorem SameFor.refl (userId eventId : ObjectId) (db : Db) : SameFor userId eventId db db :=
  ⟨rfl, fun event he hid => ⟨event, he, hid, rfl, rfl⟩⟩

theorem SameFor.trans {userId eventId : ObjectId} {a b c : Db} (h : SameFor userId eventId a b)
    (h' : SameFor userId eventId b c) : SameFor userId eventId a c where
  activity := h'.activity.trans h.activity
  event := by
    intro event hevent hid
    obtain ⟨event₁, hevent₁, hid₁, hauto₁, hkeys₁⟩ := h.event event hevent hid
    obtain ⟨event₂, hevent₂, hid₂, hauto₂, hkeys₂⟩ := h'.event event₁ hevent₁ hid₁
    exact ⟨event₂, hevent₂, hid₂, hauto₂.trans hauto₁, hkeys₂.trans hkeys₁⟩

/-- A change of events that keeps their ids, modes and rules. -/
theorem SameFor.of_events {userId eventId : ObjectId} {db : Db} {events : List EventDocument}
    (h : ∀ event ∈ db.events, event._id = eventId → ∃ event' ∈ events, event'._id = eventId ∧
      event'.autoReward = event.autoReward ∧ event'.rewardRules.map RewardRuleDocument.key =
        event.rewardRules.map RewardRuleDocument.key) :
    SameFor userId eventId db { db with events := events } :=
  ⟨rfl, h⟩

theorem SameFor.updateEvent {userId eventId : ObjectId} (db : Db) (query : EventDocument → Bool)
    {f : EventDocument → EventDocument}
    (hf : ∀ event, event._id = eventId → query event = true → (f event)._id = eventId ∧
      (f event).autoReward = event.autoReward ∧ (f event).rewardRules.map RewardRuleDocument.key =
        event.rewardRules.map RewardRuleDocument.key) :
    SameFor userId eventId db { db with events := updateFirst query f db.events } := by
  apply SameFor.of_events
  intro event hevent hid
  cases mem_or_mem_updateFirst query f hevent with
  | inl hold => exact ⟨event, hold, hid, rfl, rfl⟩
  | inr hnew => exact ⟨f event, hnew.2, hf event hid hnew.1⟩

theorem Added.sameFor {userId eventId : ObjectId} {dto : RewardAddRequestDto}
    {newRuleId : ObjectId} {response : RewardRuleDto} {snap db db' : Db}
    (h : Added snap dto newRuleId response db db')
    (hitems : ObjectId.ofString dto.eventId = some eventId → dto.ruleId ≠ "") :
    SameFor userId eventId db db' := by
  cases h with
  | item event rule item hevent hrule hid hname hcast hresponse =>
    apply SameFor.updateEvent
    intro e he _
    exact ⟨he, rfl, pushItem_keys rule._id item e⟩
  | rule event newRule config item hevent hid hname hnew hcast hconfig hvalid hitem hresponse =>
    apply SameFor.updateEvent
    intro e he hquery
    have hsame : e._id = event._id := by simpa using hquery
    rw [← hsame, he] at hid
    exact absurd hname (hitems hid)

theorem UserActivityService.create_sameFor {userId eventId : ObjectId} {db db' : Db}
    {dto : UserActivityCreateRequestDto} {newId : ObjectId} {now : Int}
    {response : UserActivityDto}
    (h : UserActivityService.create db dto newId now = .ok (response, db'))
    (hother : ObjectId.ofString dto.userId ≠ some userId) : SameFor userId eventId db db' := by
  obtain ⟨⟨activity, db''⟩, hupdate, h⟩ := bind_eq_ok h
  cases h
  obtain ⟨uid, huid, hupdate⟩ := bind_eq_ok hupdate
  have hne : ¬uid = userId := by
    rintro rfl
    exact hother (parseId_eq_ok.mp huid)
  simp only at hupdate
  split at hupdate
  · cases hupdate
    refine ⟨find?_updateFirst_of_not ?_ db.activities,
      fun event he hid => ⟨event, he, hid, rfl, rfl⟩⟩
    intro activity hquery
    have hsame : activity.userId = uid := by simpa using hquery
    simp [hsame, hne]
  · split at hupdate
    · cases hupdate
    · cases hupdate
      refine ⟨?_, fun event he hid => ⟨event, he, hid, rfl, rfl⟩⟩
      rw [List.find?_append]
      simp [hne]

/-- A bystander leaves the rules of the event and the counters of the user alone. -/
theorem perform_sameFor {userId eventId : ObjectId} {command : Command} {snap db db' : Db}
    (hbystander : command.Bystander userId eventId) (h : perform command snap db = some db') :
    SameFor userId eventId db db' := by
  cases command with
  | createEvent dto newId validatedAt createdAt =>
    obtain ⟨response, h⟩ := committed_eq_some h
    obtain ⟨event, -, -, -, -, -, -, rfl⟩ := EventService.create_writes h
    apply SameFor.of_events
    intro e he hid
    exact ⟨e, List.mem_append_left _ he, hid, rfl, rfl⟩
  | updateStatus dto =>
    obtain ⟨response, h⟩ := committed_eq_some h
    rcases EventService.updateStatus_writes h with rfl | ⟨_id, status, -, rfl⟩
    · exact SameFor.refl userId eventId db'
    · apply SameFor.updateEvent
      intro e he _
      exact ⟨he, rfl, rfl⟩
  | addReward dto newRuleId =>
    by_cases hused : db.hasRule newRuleId = true
    · simp [perform, hused] at h
    · simp only [perform, hused] at h
      obtain ⟨response, h⟩ := committed_eq_some h
      exact (RewardService.addReward_added h).sameFor hbystander
  | createUserActivity dto newId now =>
    obtain ⟨response, h⟩ := committed_eq_some h
    exact UserActivityService.create_sameFor h hbystander
  | createRewardRequest claimed dto newId checkedAt requestedAt =>
    obtain ⟨response, h⟩ := committed_eq_some h
    obtain ⟨event, granted, r, -, -, -, -, -, rfl⟩ :=
      RewardRequestService.createRewardRequest_writes h
    exact ⟨rfl, fun e he hid => ⟨e, he, hid, rfl, rfl⟩⟩
  | approveRewardRequest dto now savedAt =>
    obtain ⟨response, h⟩ := committed_eq_some h
    rw [RewardRequestService.approveRewardRequest_eq_error] at h
    cases h

/-- What the user and the event look like after a run of bystanders. -/
theorem run_sameFor {κ : Type} [DecidableEq κ] {userId eventId : ObjectId} {s t : ServiceState κ}
    (hs : Coherent WellFormed Evolves s) {events : List (SnapshotStore.Event κ Command)}
    (h : run (step perform) events s = some t) {l : List (Command × Db)}
    (hlog : t.log = s.log ++ l) (hl : ∀ p ∈ l, p.1.Bystander userId eventId) :
    SameFor userId eventId s.db t.db := by
  obtain ⟨l', hlog', hrel⟩ := run_relates_log perform_preserves (Command.Bystander userId eventId)
    (SameFor userId eventId) (SameFor.refl userId eventId) (fun _ _ _ => SameFor.trans)
    (fun _ _ _ _ _ _ _ hp hperf => perform_sameFor hp hperf) hs h
  have hsame : l' = l := List.append_cancel_left (hlog'.symm.trans hlog)
  exact hrel (hsame ▸ hl)

end MapleRewards
