import MapleRewards.Writes
import MapleRewards.Lib.SnapshotStore

/-!
# The event service as a transaction system

A command is one operation with its request, the ids it generates and its clock
readings. `perform` is what a committed command makes of the store; commands run in
any interleaving, each on the snapshot it began with.
-/
namespace MapleRewards

open Collection

inductive Command where
  | createEvent : EventCreateRequestDto → ObjectId → Int → Int → Command
  | updateStatus : EventUpdateRequestDto → Command
  | addReward : RewardAddRequestDto → ObjectId → Command
  | createUserActivity : UserActivityCreateRequestDto → ObjectId → Int → Command
  | createRewardRequest : String → RewardRequestCreateDto → ObjectId → Int → Int → Command
  | approveRewardRequest : RewardRequestApproveDto → Int → Int → Command

/-- The store after an operation that did not throw. -/
def committed {α : Type} : Except Thrown (α × Db) → Option Db
  | .ok (_, db) => some db
  | .error _ => none

theorem committed_eq_some {α : Type} {x : Except Thrown (α × Db)} {db : Db}
    (h : committed x = some db) : ∃ response, x = .ok (response, db) := by
  cases x with
  | error err => cases h
  | ok p =>
    cases h
    exact ⟨p.1, rfl⟩

def Db.hasRule (db : Db) (ruleId : ObjectId) : Bool :=
  db.events.any fun event => event.rewardRules.any fun rule => rule._id == ruleId

/-- Generated ids are unique. The store itself refuses a repeated `_id` of a document
but not of a rule inside one, so the id of a new rule is required to be unused. -/
def perform (command : Command) (snap db : Db) : Option Db :=
  match command with
  | .createEvent dto newId validatedAt createdAt =>
    committed (EventService.create snap db dto newId validatedAt createdAt)
  | .updateStatus dto => committed (EventService.updateStatus snap db dto)
  | .addReward dto newRuleId =>
    if db.hasRule newRuleId then none
    else committed (RewardService.addReward snap db dto newRuleId)
  | .createUserActivity dto newId now => committed (UserActivityService.create db dto newId now)
  | .createRewardRequest eventId dto newId checkedAt requestedAt =>
    committed (RewardRequestService.createRewardRequest snap db eventId dto newId checkedAt
      requestedAt)
  | .approveRewardRequest dto now savedAt =>
    committed (RewardRequestService.approveRewardRequest snap db dto now savedAt)

/-- The request that `command` makes from the snapshot `snap`. -/
structure Requested (command : Command) (snap : Db) (event : EventDocument)
    (granted : List RewardRuleDocument) (r : RewardRequestDocument) : Prop where
  command : ∃ eventId dto checkedAt requestedAt,
    command = .createRewardRequest eventId dto r._id checkedAt requestedAt ∧
      ObjectId.ofString eventId = some r.eventId ∧ ObjectId.ofString dto.userId = some r.userId
  issued : IssuedFrom snap event granted r

/-- Everything a committed command can do to the store. -/
inductive Wrote (command : Command) (snap db : Db) : Db → Prop where
  | nothing : Wrote command snap db db
  | event (event : EventDocument) (hrules : event.rewardRules = [])
      (hfresh : ∀ e ∈ db.events, e._id ≠ event._id) :
      Wrote command snap db { db with events := db.events ++ [event] }
  | status (_id : ObjectId) (status : EventStatus) :
      Wrote command snap db (db.setStatus _id status)
  | item (_id ruleId : ObjectId) (rewardItem : RewardItem) :
      Wrote command snap db (db.pushItem _id ruleId rewardItem)
  | rule (event : EventDocument) (rule : RewardRuleDocument) (hevent : event ∈ snap.events)
      (hvalid : ∀ old ∈ event.rewardRules, old.valid = true) (hitems : rule.rewardItems ≠ [])
      (hfresh : db.hasRule rule._id = false) : Wrote command snap db (db.pushRule event._id rule)
  | activities (activities : List UserActivityDocument) :
      Wrote command snap db { db with activities := activities }
  | request (event : EventDocument) (granted : List RewardRuleDocument)
      (r : RewardRequestDocument) (hr : Requested command snap event granted r)
      (hfree : ∀ r' ∈ db.requests, r'._id ≠ r._id ∧ clashes r' r = false) :
      Wrote command snap db { db with requests := db.requests ++ [r] }

theorem perform_wrote {command : Command} {snap db db' : Db}
    (h : perform command snap db = some db') : Wrote command snap db db' := by
  cases command with
  | createEvent dto newId validatedAt createdAt =>
    obtain ⟨response, h⟩ := committed_eq_some h
    obtain ⟨event, hid, hrules, -, -, hfresh, -, rfl⟩ := EventService.create_writes h
    exact .event event hrules (hid ▸ hfresh)
  | updateStatus dto =>
    obtain ⟨response, h⟩ := committed_eq_some h
    rcases EventService.updateStatus_writes h with rfl | ⟨_id, status, -, rfl⟩
    · exact .nothing
    · exact .status _id status
  | addReward dto newRuleId =>
    by_cases hused : db.hasRule newRuleId = true
    · simp [perform, hused] at h
    · simp only [perform, hused] at h
      obtain ⟨response, h⟩ := committed_eq_some h
      cases RewardService.addReward_added h with
      | item event rule item hevent hrule hid hname hcast hresponse =>
        exact .item event._id rule._id item
      | rule event newRule config item hevent hid hname hnew hcast hconfig hvalid hitem hresponse =>
        exact .rule event _ hevent hvalid (by simp) (by simpa using hused)
  | createUserActivity dto newId now =>
    obtain ⟨response, h⟩ := committed_eq_some h
    obtain ⟨activities, rfl⟩ := UserActivityService.create_writes h
    exact .activities activities
  | createRewardRequest eventId dto newId checkedAt requestedAt =>
    obtain ⟨response, h⟩ := committed_eq_some h
    obtain ⟨event, granted, r, hissued, hid, heid, huid, hfree, rfl⟩ :=
      RewardRequestService.createRewardRequest_writes h
    subst hid
    exact .request event granted r
      ⟨⟨eventId, dto, checkedAt, requestedAt, rfl, heid, huid⟩, hissued⟩ hfree
  | approveRewardRequest dto now savedAt =>
    obtain ⟨response, h⟩ := committed_eq_some h
    rw [RewardRequestService.approveRewardRequest_eq_error] at h
    cases h

/-- A stored request was stored before, or the command made it. -/
theorem Wrote.request_cases {command : Command} {snap db db' : Db} (h : Wrote command snap db db')
    {r : RewardRequestDocument} (hr : r ∈ db'.requests) :
    r ∈ db.requests ∨ ∃ event granted, Requested command snap event granted r := by
  cases h with
  | request event granted new hnew hfree =>
    cases List.mem_append.mp hr with
    | inl hold => exact Or.inl hold
    | inr hmem =>
      cases List.mem_singleton.mp hmem
      exact Or.inr ⟨event, granted, hnew⟩
  | _ => exact Or.inl hr

/-- Commands that are no claims leave the requests alone. -/
theorem Wrote.requests_eq {command : Command} {snap db db' : Db} (h : Wrote command snap db db')
    (hclaim : ∀ eventId dto newId checkedAt requestedAt,
      command ≠ .createRewardRequest eventId dto newId checkedAt requestedAt) :
    db'.requests = db.requests := by
  cases h with
  | request event granted r hr hfree =>
    obtain ⟨eventId, dto, checkedAt, requestedAt, heq, -, -⟩ := hr.command
    exact absurd heq (hclaim _ _ _ _ _)
  | _ => rfl

/-! ## How a store moves on -/

structure EventEvolves (e e' : EventDocument) : Prop where
  _id : e'._id = e._id
  autoReward : e'.autoReward = e.autoReward
  keys : e.rewardRules.map RewardRuleDocument.key <+: e'.rewardRules.map RewardRuleDocument.key

structure Evolves (db db' : Db) : Prop where
  events : ∀ e ∈ db.events, ∃ e' ∈ db'.events, EventEvolves e e'
  requests : db.requests <+: db'.requests

theorem EventEvolves.refl (e : EventDocument) : EventEvolves e e := ⟨rfl, rfl, List.prefix_rfl⟩

theorem EventEvolves.trans {a b c : EventDocument} (h : EventEvolves a b) (h' : EventEvolves b c) :
    EventEvolves a c :=
  ⟨h'._id.trans h._id, h'.autoReward.trans h.autoReward, h.keys.trans h'.keys⟩

theorem Evolves.refl (db : Db) : Evolves db db :=
  ⟨fun e he => ⟨e, he, EventEvolves.refl e⟩, List.prefix_rfl⟩

theorem Evolves.trans {a b c : Db} (h : Evolves a b) (h' : Evolves b c) : Evolves a c := by
  refine ⟨?_, h.requests.trans h'.requests⟩
  intro e he
  obtain ⟨e', he', hee'⟩ := h.events e he
  obtain ⟨e'', he'', hee''⟩ := h'.events e' he'
  exact ⟨e'', he'', hee'.trans hee''⟩

/-- The rule id has been paid to the user for the event. -/
def Db.Paid (db : Db) (userId eventId ruleId : ObjectId) : Prop :=
  ∃ r ∈ db.requests, r.userId = userId ∧ r.eventId = eventId ∧ r.status = .SUCCESS ∧
    ruleId ∈ r.ruleIds

/-- What has been paid stays paid. -/
theorem Evolves.paid {db db' : Db} (h : Evolves db db') {userId eventId ruleId : ObjectId}
    (hp : db.Paid userId eventId ruleId) : db'.Paid userId eventId ruleId := by
  obtain ⟨r, hr, hrest⟩ := hp
  exact ⟨r, h.requests.subset hr, hrest⟩

end MapleRewards
