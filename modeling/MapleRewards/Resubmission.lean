import MapleRewards.Bystanders

/-!
# Requesting twice

The second of two requests in a row finds the counters and the rules of the first one
and is granted the same rules. Where there are any, both requests are SUCCESS at once, and
the index has no room for the second one.
-/
namespace MapleRewards

open SnapshotStore LabelledRuns

/-- A request for an automatic event that grants anything is SUCCESS at once. -/
theorem IssuedByRun.success {snap : Db} (hwf : WellFormed snap) {event : EventDocument}
    {activity : UserActivityDocument} {rules : List RewardRule} {r : RewardRequestDocument}
    (h : IssuedByRun snap event activity rules r) (hauto : event.autoReward = true)
    {ruleId : ObjectId} (hid : ruleId ∈ r.ruleIds) : r.status = .SUCCESS := by
  obtain ⟨granted, hissued⟩ := h.issued
  have hlife := hissued.lifecycle (hwf.events.rules event h.event_mem)
  have hne : r.ruleIds ≠ [] := List.ne_nil_of_mem hid
  cases hs : r.status with
  | SUCCESS => rfl
  | PENDING => exact absurd hs (hlife.auto hauto).1
  | FAILED => exact absurd (hlife.ruleIds.mp (hlife.failed.mp hs)) hne

/-- Requests made from the same counters and rules are granted the same rules. -/
theorem IssuedByRun.same {snap snap' : Db} (hwf : WellFormed snap') {event event' : EventDocument}
    {activity activity' : UserActivityDocument} {rules rules' : List RewardRule}
    {r r' : RewardRequestDocument} (h : IssuedByRun snap event activity rules r)
    (h' : IssuedByRun snap' event' activity' rules' r') (huser : r'.userId = r.userId)
    (hevent : r'.eventId = r.eventId) (hsame : SameFor r.userId r.eventId snap snap') :
    r'.ruleIds = r.ruleIds ∧ event'.autoReward = event.autoReward := by
  obtain ⟨found, hfound, hid, hauto, hkeys⟩ := hsame.event event h.event_mem h.event_id
  obtain rfl : event' = found :=
    hwf.event_unique h'.event_mem hfound (h'.event_id.trans (hevent.trans hid.symm))
  have hactivity' := h'.activity_eq
  rw [huser, hsame.activity, h.activity_eq] at hactivity'
  obtain rfl : activity = activity' := Option.some.inj hactivity'
  have hgranted := grantedDocs_keys_congr activity.counters
    (createRulesFromDocs_built h'.rules_eq) (createRulesFromDocs_built h.rules_eq) hkeys []
  have hids := congrArg (List.map Prod.fst) hgranted
  rw [List.map_map, List.map_map] at hids
  refine ⟨?_, hauto⟩
  rw [h'.ruleIds, h.ruleIds]
  exact hids

section InARow

variable {κ : Type} [DecidableEq κ]

/-- A request of the user for the event has read the store of `s` and committed on the way
to `t`; everything else that has committed in the meantime is a bystander. -/
inductive RequestedBetween (userId eventId : ObjectId) (s t : ServiceState κ) : Prop where
  | intro (c : κ) (requested : String) (dto : RewardRequestCreateDto) (newId : ObjectId)
      (checkedAt requestedAt : Int) (begun committing committed : ServiceState κ)
      (before after : List (SnapshotStore.Event κ Command)) (others others' : List (Command × Db))
      (heid : ObjectId.ofString requested = some eventId)
      (huid : ObjectId.ofString dto.userId = some userId)
      (hstart : step perform s (.start c (.createRewardRequest requested dto newId checkedAt
        requestedAt)) = some begun)
      (hbefore : run (step perform) before begun = some committing)
      (hopen : committing.active c =
        some (.createRewardRequest requested dto newId checkedAt requestedAt, s.db))
      (hcommit : step perform committing (.commit c) = some committed)
      (hafter : run (step perform) after committed = some t)
      (hlog : committing.log = s.log ++ others) (hlog' : t.log = committed.log ++ others')
      (hothers : ∀ p ∈ others ++ others', p.1.Bystander userId eventId) :
      RequestedBetween userId eventId s t

/-- The first request is still stored, and the counters and the rules that it has read are
still those of the user and the event. -/
theorem RequestedBetween.stored {userId eventId : ObjectId} {s t : ServiceState κ}
    (hs : Coherent WellFormed Evolves s) (h : RequestedBetween userId eventId s t) :
    Coherent WellFormed Evolves t ∧ SameFor userId eventId s.db t.db ∧
      ∃ r ∈ t.db.requests, r.eventId = eventId ∧ r.userId = userId ∧
        ∃ event activity rules, IssuedByRun s.db event activity rules r := by
  obtain ⟨c, requested, dto, newId, checkedAt, requestedAt, begun, committing, committed, before,
    after, others, others', heid, huid, hstart, hbefore, hopen, hcommit, hafter, hlog, hlog',
    hothers⟩ := h
  have hbegun := (hs.step perform_preserves hstart).1
  obtain ⟨hbegunDb, hbegunLog⟩ := step_start hstart
  have hcommitted := ((hbegun.run perform_preserves hbefore).step perform_preserves hcommit).1
  -- up to the commit only bystanders have committed, and after it as well
  have hfirst : SameFor userId eventId s.db committing.db := by
    have hsame := run_sameFor hbegun hbefore (hbegunLog ▸ hlog)
      fun p hp => hothers p (List.mem_append_left _ hp)
    rwa [hbegunDb] at hsame
  have hlast : SameFor userId eventId committed.db t.db :=
    run_sameFor hcommitted hafter hlog' fun p hp => hothers p (List.mem_append_right _ hp)
  have hperform := step_commit hopen hcommit
  have hown : SameFor userId eventId committing.db committed.db :=
    perform_sameFor (by trivial) hperform
  obtain ⟨response, hok⟩ := committed_eq_some hperform
  obtain ⟨r, hr, hcreate, -⟩ := createRewardRequest_eq_ok.mp hok
  obtain ⟨-, heid', huid', event, activity, rules, hrun⟩ := requestFor_eq_ok hr
  obtain ⟨-, -, -, hdb⟩ := RewardRequestRepository.create_eq_ok.mp hcreate
  have hmem : r ∈ t.db.requests := by
    apply (run_evolves perform_preserves hcommitted hafter).requests.subset
    rw [hdb]
    simp
  exact ⟨hcommitted.run perform_preserves hafter, (hfirst.trans hown).trans hlast, r, hmem,
    Option.some.inj (heid'.symm.trans heid), Option.some.inj (huid'.symm.trans huid), event,
    activity, rules, hrun⟩

end InARow

/-! ## A user who reaches nothing, twice -/

namespace SampleTwice

open Sample

def setup : List Command :=
  [.createEvent ⟨"Launch", some 100, some 200, some true⟩ eventId 0 0,
    .updateStatus ⟨eventId.toString, "ACTIVE"⟩,
    addRule .PER_CONDITION [("metric", .str "loginStreak"), ("perThreshold", .num 3)]
      ⟨some "COUPON", some 1⟩ conditionRuleId,
    .createUserActivity ⟨userId.toString, some 2, none, none⟩ activityId 40]

def failed (_id : ObjectId) : RewardRequestDocument :=
  ⟨_id, eventId, userId, false, [], [], .FAILED, none, 50, some 50, none, none⟩

/-- The store of a state and whether the first client is between two commands. -/
def view (s : ServiceState Nat) : Db × Bool := (s.db, (s.active 0).isNone)

end SampleTwice

end MapleRewards
