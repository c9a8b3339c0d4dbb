import MapleRewards.WellFormed

/-!
# What is paid, and for what

The results hold in every state that any interleaving of commands reaches from the
empty store, each command reading the store committed when it began.
-/
namespace MapleRewards

open SnapshotStore LabelledRuns

variable {κ : Type} [DecidableEq κ]

abbrev ServiceState (κ : Type) := SnapshotStore.State κ Command Db

def ReachableService (s : ServiceState κ) : Prop :=
  Reachable (step perform) (initial Db.empty) s

/-- What operations reach one after another, clients that interleave them can reach. -/
theorem reachableService_of_serial (c : κ) {commands : List Command} {db : Db}
    (h : run (serialStep perform) commands Db.empty = some db) :
    ∃ s : ServiceState κ, ReachableService s ∧ s.db = db :=
  serial_reachable perform c h

theorem ReachableService.coherent {s : ServiceState κ} (h : ReachableService s) :
    Coherent WellFormed Evolves s :=
  reachable_coherent perform_preserves WellFormed.empty h

/-! ## One concrete run

An automatic event with a rule of each kind and a second copy of the stage rule, a user
who meets all of them, and two claims that overlap, of which the index lets one through. -/

namespace Sample

def eventId : ObjectId := ObjectId.ofDigit 1
def userId : ObjectId := ObjectId.ofDigit 2
def activityId : ObjectId := ObjectId.ofDigit 4
def conditionRuleId : ObjectId := ObjectId.ofDigit 10
def stageRuleId : ObjectId := ObjectId.ofDigit 11
def finalRuleId : ObjectId := ObjectId.ofDigit 12
def copyRuleId : ObjectId := ObjectId.ofDigit 13
def firstRequestId : ObjectId := ObjectId.ofDigit 14
def secondRequestId : ObjectId := ObjectId.ofDigit 15

def addRule (ruleType : RewardRuleType) (config : List (String × JsonValue)) (item : RewardItem)
    (newRuleId : ObjectId) : Command :=
  .addReward ⟨eventId.toString, item.submitted, some ⟨none, some ⟨ruleType, .object config⟩⟩⟩
    newRuleId

def setup (autoReward : Bool) : List Command :=
  [.createEvent ⟨"Launch", some 100, some 200, some autoReward⟩ eventId 0 0,
    .updateStatus ⟨eventId.toString, "ACTIVE"⟩,
    addRule .PER_CONDITION [("metric", .str "loginStreak"), ("perThreshold", .num 3)]
      ⟨some "COUPON", some 1⟩ conditionRuleId,
    addRule .STAGE [("metric", .str "inviteCount"), ("stageThreshold", .num 2)]
      ⟨some "CASH", some 500⟩ stageRuleId,
    addRule .STAGE [("metric", .str "inviteCount"), ("stageThreshold", .num 2)]
      ⟨some "CASH", some 700⟩ copyRuleId,
    addRule .FINAL [("prerequisiteRuleIds", .arr [.str conditionRuleId.toString,
      .str stageRuleId.toString])] ⟨some "CASH", some 1000⟩ finalRuleId,
    .createUserActivity ⟨userId.toString, some 5, some 4, none⟩ activityId 40]

def claim (newId : ObjectId) : Command :=
  .createRewardRequest eventId.toString ⟨userId.toString⟩ newId 50 50

def alone (command : Command) : List (SnapshotStore.Event Nat Command) :=
  [.start 0 command, .commit 0]

/-- One command after another leaves nothing open. -/
theorem alone_idle {commands : List Command} {s t : ServiceState Nat}
    (hs : ∀ c, s.active c = none)
    (h : run (step perform) (commands.flatMap alone) s = some t) : ∀ c, t.active c = none := by
  induction commands generalizing s with
  | nil =>
    cases h
    exact hs
  | cons command commands ih =>
    rw [List.flatMap_cons, run_append] at h
    obtain ⟨u, hu, hrest⟩ := Option.bind_eq_some_iff.mp h
    apply ih _ hrest
    obtain ⟨s₁, hstart, hu⟩ := Option.bind_eq_some_iff.mp hu
    obtain ⟨s₂, hcommit, hu⟩ := Option.bind_eq_some_iff.mp hu
    cases hu
    have hopened : s₁ = { s with active := Function.update s.active 0 (some (command, s.db)) } := by
      simpa [step, hs 0] using hstart.symm
    subst hopened
    rcases step_cases hcommit with ⟨_, _, he, -⟩ | ⟨c, a, snap, db', he, -, -, rfl⟩ | ⟨_, he, -⟩
    · cases he
    · cases he
      intro d
      by_cases hd : d = 0
      · simp [hd]
      · simp [Function.update_of_ne hd, hs d]
    · cases he

def overlapping : List (SnapshotStore.Event Nat Command) :=
  (setup true).flatMap alone ++
    [.start 1 (claim firstRequestId), .start 2 (claim secondRequestId), .commit 1, .abort 2]

def state : ServiceState Nat :=
  (run (step perform) overlapping (initial Db.empty)).getD (initial Db.empty)

def conditionRule : RewardRuleDocument :=
  ⟨conditionRuleId, .perCondition ⟨"loginStreak", 3⟩, [], [⟨some "COUPON", some 1⟩]⟩

def stageRule : RewardRuleDocument :=
  ⟨stageRuleId, .stage ⟨"inviteCount", 2⟩, [], [⟨some "CASH", some 500⟩]⟩

def copyRule : RewardRuleDocument :=
  ⟨copyRuleId, .stage ⟨"inviteCount", 2⟩, [], [⟨some "CASH", some 700⟩]⟩

def finalRule : RewardRuleDocument :=
  ⟨finalRuleId, .final ⟨[.str conditionRuleId.toString, .str stageRuleId.toString]⟩, [],
    [⟨some "CASH", some 1000⟩]⟩

def event : EventDocument :=
  ⟨eventId, "Launch", 100, 200, .ACTIVE, true, [conditionRule, stageRule, copyRule, finalRule]⟩

def paid : RewardRequestDocument :=
  ⟨firstRequestId, eventId, userId, true, [conditionRuleId, stageRuleId, finalRuleId],
    [⟨some "COUPON", some 1⟩, ⟨some "CASH", some 500⟩, ⟨some "CASH", some 1000⟩], .SUCCESS, none,
    50, some 50, none, none⟩

def storedActivity : UserActivityDocument := ⟨activityId, userId, 5, 4, 0, 40⟩

def storedDb : Db := ⟨[event], [paid], [storedActivity]⟩

theorem overlapping_run : (run (step perform) overlapping (initial Db.empty)).map State.db =
    some storedDb := by
  decide +kernel

theorem state_run : run (step perform) overlapping (initial Db.empty) = some state :=
  (run_of_view overlapping_run).1

theorem state_reachable : ReachableService state := ⟨overlapping, state_run⟩

theorem state_db : state.db = storedDb := (run_of_view overlapping_run).2

theorem state_events : state.db.events = [event] := by rw [state_db, storedDb]

theorem state_requests : state.db.requests = [paid] := by rw [state_db, storedDb]

end Sample

/-! ## No reward twice, none for nothing -/

/-- The request was made by `command`, whose snapshot was `snap`, and its rewards are
what the rules of its event held there. -/
structure PaidFor (command : Command) (snap : Db) (r : RewardRequestDocument) : Prop where
  command : ∃ eventId dto checkedAt requestedAt,
    command = .createRewardRequest eventId dto r._id checkedAt requestedAt ∧
      ObjectId.ofString eventId = some r.eventId ∧ ObjectId.ofString dto.userId = some r.userId
  rewards : ∃ event ∈ snap.events, event._id = r.eventId ∧
    (∀ id ∈ r.ruleIds, ∃ rule ∈ event.rewardRules, rule._id = id) ∧
    r.rewards = (event.rewardRules.filter fun rule => rule._id ∈ r.ruleIds).flatMap
      RewardRuleDocument.rewardItems

/-- The granted rules are found again in the event by their ids, in its order. -/
theorem Requested.paidFor {command : Command} {snap : Db} {event : EventDocument}
    {granted : List RewardRuleDocument} {r : RewardRequestDocument}
    (h : Requested command snap event granted r) (hsnap : WellFormed snap) :
    PaidFor command snap r := by
  have hissued := h.issued
  refine ⟨h.command, event, hissued.event_mem, hissued.event_id, ?_, ?_⟩
  · intro id hid
    rw [hissued.ruleIds] at hid
    obtain ⟨doc, hdoc, rfl⟩ := List.mem_map.mp hid
    exact ⟨doc, hissued.grants.sublist.subset hdoc, rfl⟩
  · have hids := (hsnap.events.rules event hissued.event_mem).ids
    have hfilter :=
      OnePass.filter_keys_of_sublist RewardRuleDocument._id hissued.grants.sublist hids
    rw [hissued.rewards, hissued.ruleIds, hfilter]

theorem ReachableService.paidFor {s : ServiceState κ} (h : ReachableService s) :
    ∀ r ∈ s.db.requests, ∃ command snap, (command, snap) ∈ s.log ∧ PaidFor command snap r := by
  refine reachable_log perform_preserves
    (fun log db => ∀ r ∈ db.requests, ∃ command snap, (command, snap) ∈ log ∧
      PaidFor command snap r) WellFormed.empty (by simp [Db.empty]) ?_ h
  intro log command snap db db' hsnap _ _ hlog hperform r hr
  cases (perform_wrote hperform).request_cases hr with
  | inl hold =>
    obtain ⟨c, sn, hmem, hpaid⟩ := hlog r hold
    exact ⟨c, sn, List.mem_append_left _ hmem, hpaid⟩
  | inr hnew =>
    obtain ⟨event, granted, hreq⟩ := hnew
    exact ⟨command, snap, by simp, hreq.paidFor hsnap⟩

/-- The rule ids in the SUCCESS requests of one user for one event, one after another. -/
def Db.successRuleIds (db : Db) (userId eventId : ObjectId) : List ObjectId :=
  (db.requests.filter fun r =>
    r.eventId == eventId && r.userId == userId && r.status == .SUCCESS).flatMap
      RewardRequestDocument.ruleIds

theorem WellFormed.successRuleIds_nodup {db : Db} (h : WellFormed db) (userId eventId : ObjectId) :
    (db.successRuleIds userId eventId).Nodup := by
  rw [Db.successRuleIds, List.nodup_flatMap]
  constructor
  · intro r hr
    obtain ⟨e, -, -, hsound⟩ := h.requests r (List.mem_of_mem_filter hr)
    exact hsound.nodup
  · have hne : (db.requests.filter fun r => r.eventId == eventId && r.userId == userId &&
        r.status == .SUCCESS).Pairwise fun r r' => r._id ≠ r'._id :=
      (List.pairwise_map.mp h.requestIds).filter _
    apply hne.imp_of_mem
    intro r r' hr hr' hid rid hrid hrid'
    simp only [List.mem_filter, Bool.and_eq_true, beq_iff_eq] at hr hr'
    obtain ⟨hmem, ⟨he, hu⟩, hs⟩ := hr
    obtain ⟨hmem', ⟨he', hu'⟩, hs'⟩ := hr'
    -- two SUCCESS requests with a common id would clash in the index
    have hclash : clashes r r' = true :=
      clashes_eq_true.mpr ⟨hs, hs', hu.trans hu'.symm, he.trans he'.symm, rid, hrid, hrid'⟩
    rw [h.index r hmem r' hmem' hid] at hclash
    cases hclash

/-- No rule id is paid twice to a user for an event, and what a request pays is what
the rules it names held in the snapshot that its transaction read. -/
theorem rewards_paid_once {s : ServiceState κ} (h : ReachableService s) :
    (∀ userId eventId, (s.db.successRuleIds userId eventId).Nodup) ∧
      ∀ r ∈ s.db.requests, ∃ command snap, (command, snap) ∈ s.log ∧ PaidFor command snap r :=
  ⟨h.coherent.db.successRuleIds_nodup, h.paidFor⟩

theorem rewards_paid_once_sample :
    (Sample.state.db.successRuleIds Sample.userId Sample.eventId).length = 3 ∧
      (Sample.state.db.successRuleIds Sample.userId Sample.eventId).Nodup :=
  ⟨by rw [Sample.state_db]; decide,
    (rewards_paid_once Sample.state_reachable).1 Sample.userId Sample.eventId⟩

/-! ## Prerequisites -/

/-- A paid FINAL rule has all its prerequisites paid. -/
theorem paid_closed_under_prerequisites {s : ServiceState κ} (h : ReachableService s)
    (r : RewardRequestDocument) (hr : r ∈ s.db.requests) (hs : r.status = .SUCCESS)
    (event : EventDocument) (he : event ∈ s.db.events) (heid : event._id = r.eventId)
    (rule : RewardRuleDocument) (hrule : rule ∈ event.rewardRules) (hid : rule._id ∈ r.ruleIds)
    (config : FinalRuleConfig) (hc : rule.config = .final config) :
    ∀ rid ∈ config.prerequisiteRuleIds, ∃ id : ObjectId, rid = .str id.toString ∧
      ∃ r' ∈ s.db.requests, r'.userId = r.userId ∧ r'.eventId = r.eventId ∧
        r'.status = .SUCCESS ∧ id ∈ r'.ruleIds := by
  have hwf := h.coherent.db
  obtain ⟨e, hemem, heid', hsound⟩ := hwf.requests r hr
  have hsame : e = event := hwf.event_unique hemem he (heid'.trans heid.symm)
  subst hsame
  intro rid hrid
  obtain ⟨id, hown, hstr⟩ :=
    hsound.prerequisites rule.key (List.mem_map_of_mem hrule) hid config hc rid hrid
  exact ⟨id, hstr, r, hr, rfl, rfl, hs, hown⟩

theorem paid_closed_under_prerequisites_sample :
    Sample.finalRuleId ∈ Sample.paid.ruleIds ∧
      ∀ rid ∈ [JsonElement.str Sample.conditionRuleId.toString, .str Sample.stageRuleId.toString],
        ∃ id : ObjectId, rid = .str id.toString ∧ ∃ r' ∈ Sample.state.db.requests,
          r'.userId = Sample.userId ∧ r'.eventId = Sample.eventId ∧ r'.status = .SUCCESS ∧
            id ∈ r'.ruleIds :=
  ⟨by decide, paid_closed_under_prerequisites Sample.state_reachable Sample.paid
    (by simp [Sample.state_requests]) rfl Sample.event (by simp [Sample.state_events]) rfl
    Sample.finalRule (by decide) (by decide) _ rfl⟩

/-! ## Stages -/

/-- Two stage rules of an event with one metric and one threshold are never both named
by the requests for it, whoever made them and whatever their status. -/
theorem stage_rewarded_once {s : ServiceState κ} (h : ReachableService s)
    (event : EventDocument) (he : event ∈ s.db.events) (rule rule' : RewardRuleDocument)
    (hrule : rule ∈ event.rewardRules) (hrule' : rule' ∈ event.rewardRules)
    (hne : rule._id ≠ rule'._id) (config config' : StageRuleConfig)
    (hc : rule.config = .stage config) (hc' : rule'.config = .stage config')
    (hmetric : config.metric = config'.metric)
    (hthreshold : config.stageThreshold = config'.stageThreshold) (r r' : RewardRequestDocument)
    (hr : r ∈ s.db.requests) (hr' : r' ∈ s.db.requests) (hreid : r.eventId = event._id)
    (hreid' : r'.eventId = event._id) : ¬(rule._id ∈ r.ruleIds ∧ rule'._id ∈ r'.ruleIds) := by
  rintro ⟨hid, hid'⟩
  have hwf := h.coherent.db
  have hfirst : ∀ q ∈ s.db.requests, q.eventId = event._id → ∀ doc ∈ event.rewardRules,
      doc._id ∈ q.ruleIds → ∀ c, doc.config = .stage c →
      FirstOfConfig (event.rewardRules.map RewardRuleDocument.key) doc.key := by
    intro q hq hqe doc hdoc hdid c hdc
    obtain ⟨e, hemem, heid, hsound⟩ := hwf.requests q hq
    have hsame : e = event := hwf.event_unique hemem he (heid.trans hqe)
    subst hsame
    exact hsound.first doc.key (List.mem_map_of_mem hdoc) hdid c hdc
  have hconfig : rule.key.2 = rule'.key.2 := by
    cases config
    cases config'
    simp_all [RewardRuleDocument.key]
  have hkey : rule.key = rule'.key :=
    (hfirst r hr hreid rule hrule hid config hc).unique
      (hfirst r' hr' hreid' rule' hrule' hid' config' hc') hconfig
  exact hne (congrArg Prod.fst hkey)

theorem stage_rewarded_once_sample :
    Sample.stageRuleId ∈ Sample.paid.ruleIds ∧
      ¬(Sample.stageRuleId ∈ Sample.paid.ruleIds ∧ Sample.copyRuleId ∈ Sample.paid.ruleIds) :=
  ⟨by decide, stage_rewarded_once Sample.state_reachable Sample.event
    (by simp [Sample.state_events]) Sample.stageRule Sample.copyRule (by decide) (by decide)
    (by decide) _ _ rfl rfl rfl rfl Sample.paid Sample.paid (by simp [Sample.state_requests])
    (by simp [Sample.state_requests]) rfl rfl⟩

/-! ## The life of a request -/

end MapleRewards
