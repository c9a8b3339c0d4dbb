import MapleRewards.Stages
import MapleRewards.Writes

/-!
# What a rule pays for

PER_CONDITION and STAGE rules compare one counter of the activity with a threshold:
they ask whether the counter is *not* below it, which is also so for a counter that the
activity does not have, and a STAGE rule divides the counter by the threshold as well, on
doubles.
-/
namespace MapleRewards

open OnePass

/-! ## Stages -/

/-- The stage `s` is among the past or the newly achieved ids exactly when it was in
the past ids or its counter has reached the threshold. -/
def PaidAsReached (rules : List RewardRule) (activity : Activity) (past : List String)
    (s : RewardRuleDocument) (config : StageRuleConfig) (value : Rat) : Prop :=
  s._id.toString ∈ past ++ (RewardEngine.run rules activity past).newAchievedRuleIds ↔
    s._id.toString ∈ past ∨ config.stageThreshold ≤ value

section Stages

variable {event : EventDocument} (h : AcceptedRules event.rewardRules) {rules : List RewardRule}
  (hrules : createRulesFromDocs event.rewardRules = .ok rules) (activity : Activity)
  (past : List String) {s : RewardRuleDocument} (hs : s ∈ event.rewardRules)
  {config : StageRuleConfig} (hc : s.config = .stage config) {value : Rat}
  (hvalue : activity.get config.metric = some value)
  (honly : ∀ rule ∈ event.rewardRules, ∀ c, rule.config = .stage c →
    c.stageThreshold = config.stageThreshold → rule = s)
include h hrules hs hc hvalue honly

/-- The only stage rule that could block `s` on its turn is `s` itself. -/
theorem lone_stage_newAchieved_iff :
    s._id.toString ∈ (RewardEngine.run rules activity past).newAchievedRuleIds ↔
      s._id.toString ∉ past ∧ config.stageThreshold ≤ value ∧
        config.stageThreshold ≤ jsDiv value config.stageThreshold := by
  have hbuilt := createRulesFromDocs_built hrules
  obtain ⟨before, after, hdocs⟩ := List.append_of_mem hs
  obtain ⟨hint, -⟩ := h.threshold hs (by rw [hc]; rfl)
  have hreached : (⟨"", [], config⟩ : StageRule).reached activity = true ↔
      config.stageThreshold ≤ value ∧
        config.stageThreshold ≤ jsDiv value config.stageThreshold := reached_iff hvalue hint
  rw [newAchieved_iff activity past h.ids hbuilt hdocs, docGrants_stage_iff activity hbuilt hc,
    hreached, mem_turn_self activity past h.ids hdocs]
  constructor
  · rintro ⟨hpast, hboth, -⟩
    exact ⟨hpast, hboth⟩
  · rintro ⟨hpast, hboth⟩
    refine ⟨hpast, hboth, ?_⟩
    intro d hd c hdc ht
    rw [honly d hd c hdc ht, mem_turn_self activity past h.ids hdocs]
    exact hpast

theorem paidAsReached_iff :
    PaidAsReached rules activity past s config value ↔
      ¬(s._id.toString ∉ past ∧ config.stageThreshold ≤ value ∧
        jsDiv value config.stageThreshold < config.stageThreshold) := by
  have hnew := lone_stage_newAchieved_iff h hrules activity past hs hc hvalue honly
  rw [PaidAsReached, List.mem_append, hnew]
  constructor
  · rintro hiff ⟨hpast, hlow, hquotient⟩
    rcases hiff.mpr (Or.inr hlow) with hmem | hpaid
    · exact hpast hmem
    · exact absurd hpaid.2.2 (not_le.mpr hquotient)
  · intro hgap
    constructor
    · rintro (hmem | ⟨-, hlow, -⟩)
      · exact Or.inl hmem
      · exact Or.inr hlow
    · rintro (hmem | hlow)
      · exact Or.inl hmem
      · by_cases hpast : s._id.toString ∈ past
        · exact Or.inl hpast
        · right
          refine ⟨hpast, hlow, ?_⟩
          rw [← not_lt]
          intro hquotient
          exact hgap ⟨hpast, hlow, hquotient⟩

/-- For whole counters and thresholds up to 2 ^ 26 the gap ends at the square. -/
theorem paidAsReached_iff_sq (hwhole : value.den = 1) (hsmall : config.stageThreshold ≤ 2 ^ 26) :
    PaidAsReached rules activity past s config value ↔
      ¬(s._id.toString ∉ past ∧ config.stageThreshold ≤ value ∧
        value < config.stageThreshold * config.stageThreshold) := by
  obtain ⟨hint, hone⟩ := h.threshold hs (by rw [hc]; rfl)
  rw [paidAsReached_iff h hrules activity past hs hc hvalue honly, ← not_le, ← not_le,
    le_jsDiv_iff_sq_le hwhole hint hone hsmall]

end Stages

/-- A stage rule whose threshold no other stage rule of the event has is paid as its
counter says exactly when the counter is outside the gap in which it is at least the
threshold and its quotient by the threshold is below it. -/
theorem stage_paid_outside_gap (event : EventDocument) (h : AcceptedRules event.rewardRules)
    (activity : Activity) (past : List String) (s : RewardRuleDocument)
    (hs : s ∈ event.rewardRules) (config : StageRuleConfig) (hc : s.config = .stage config)
    (value : Rat) (hvalue : activity.get config.metric = some value)
    (honly : ∀ rule ∈ event.rewardRules, ∀ c, rule.config = .stage c →
      c.stageThreshold = config.stageThreshold → rule = s) :
    ∃ rules, createRulesFromDocs event.rewardRules = .ok rules ∧
      (PaidAsReached rules activity past s config value ↔
        ¬(s._id.toString ∉ past ∧ config.stageThreshold ≤ value ∧
          jsDiv value config.stageThreshold < config.stageThreshold)) := by
  obtain ⟨rules, hrules⟩ := h.built
  exact ⟨rules, hrules, paidAsReached_iff h hrules activity past hs hc hvalue honly⟩

/-! ## Counters that no activity has -/

/-- Every PER_CONDITION or STAGE rule that the run newly grants names one of the three
counters, which is at least the threshold. -/
def GrantedForAchievement (event : EventDocument) (activity : Activity) (result : EngineResult) :
    Prop :=
  ∀ rule ∈ event.rewardRules, rule._id.toString ∈ result.newAchievedRuleIds →
    ∀ metric threshold, rule.config.target = some (metric, threshold) →
      ∃ value, activity.get metric = some value ∧ threshold ≤ value

/-- No rule on an unknown metric is left to grant: a PER_CONDITION rule has been paid,
and the threshold of a STAGE rule has been paid, or an earlier stage rule on a counter
takes it. -/
structure UnknownMetricsSettled (docs : List RewardRuleDocument) (activity : Activity)
    (past : List String) : Prop where
  perCondition : ∀ doc ∈ docs, ∀ config, doc.config = .perCondition config →
    config.metric ∉ Activity.metrics → doc._id.toString ∈ past
  stage : ∀ before doc after, docs = before ++ doc :: after → ∀ config, doc.config = .stage config →
    config.metric ∉ Activity.metrics →
    (∃ d ∈ docs, ∃ c, d.config = .stage c ∧ c.stageThreshold = config.stageThreshold ∧
      d._id.toString ∈ past) ∨
    ∃ d ∈ before, ∃ c value, d.config = .stage c ∧ c.stageThreshold = config.stageThreshold ∧
      activity.get c.metric = some value ∧ config.stageThreshold ≤ value ∧
      config.stageThreshold ≤ jsDiv value config.stageThreshold

section Settled

variable {docs : List RewardRuleDocument} {rules : List RewardRule} {activity : Activity}
  {past : List String} (h : AcceptedRules docs) (hbuilt : List.Forall₂ Built docs rules)

include h hbuilt

/-- A stage rule on a counter that reaches it leaves its threshold held behind it. -/
theorem threshold_held_after {before middle after : List RewardRuleDocument}
    {d : RewardRuleDocument} {c : StageRuleConfig} {value : Rat}
    (hdocs : docs = before ++ d :: (middle ++ after)) (hc : d.config = .stage c)
    (hvalue : activity.get c.metric = some value)
    (hboth : c.stageThreshold ≤ value ∧ c.stageThreshold ≤ jsDiv value c.stageThreshold) :
    ThresholdHeld docs c.stageThreshold (turn activity past rules (before ++ d :: middle)) := by
  have hd : d ∈ docs := by simp [hdocs]
  obtain ⟨hint, -⟩ := h.threshold hd (by rw [hc]; rfl)
  have hreached : (⟨"", [], c⟩ : StageRule).reached activity = true :=
    (reached_iff hvalue hint).mpr hboth
  exact thresholdHeld_behind activity past hbuilt hd hc hreached before middle

/-- With the unknown metrics settled, the threshold of a stage rule on one of them is held
when its turn comes. -/
theorem UnknownMetricsSettled.thresholdHeld (hsettled : UnknownMetricsSettled docs activity past)
    {before after : List RewardRuleDocument} {doc : RewardRuleDocument}
    (hdocs : docs = before ++ doc :: after) {config : StageRuleConfig}
    (hc : doc.config = .stage config) (hunknown : config.metric ∉ Activity.metrics) :
    ThresholdHeld docs config.stageThreshold (turn activity past rules before) := by
  rcases hsettled.stage before doc after hdocs config hc hunknown with
    ⟨d, hd, c, hdc, hdt, hpast⟩ | ⟨d, hd, c, value, hdc, hdt, hdv, hboth⟩
  · exact ⟨d, hd, c, hdc, hdt, mem_turn_of_past activity past before hpast⟩
  · obtain ⟨b₁, b₂, rfl⟩ := List.append_of_mem hd
    have hsplit : docs = b₁ ++ d :: (b₂ ++ doc :: after) := by simp [hdocs]
    rw [← hdt] at hboth ⊢
    exact threshold_held_after h hbuilt hsplit hdc hdv hboth

/-- With the unknown metrics settled, a newly granted rule has reached its threshold. -/
theorem granted_of_settled (hsettled : UnknownMetricsSettled docs activity past)
    {doc : RewardRuleDocument} (hdoc : doc ∈ docs)
    (hnew : doc._id.toString ∈ (RewardEngine.run rules activity past).newAchievedRuleIds)
    {metric : String} {threshold : Rat} (ht : doc.config.target = some (metric, threshold)) :
    ∃ value, activity.get metric = some value ∧ threshold ≤ value := by
  obtain ⟨before, after, hdocs⟩ := List.append_of_mem hdoc
  rw [newAchieved_iff activity past h.ids hbuilt hdocs] at hnew
  cases hc : doc.config with
  | final config =>
    rw [hc] at ht
    cases ht
  | unsupported text =>
    rw [hc] at ht
    cases ht
  | perCondition config =>
    rw [hc] at ht
    cases ht
    obtain ⟨hheld, hless⟩ := (docGrants_perCondition activity hc).mp hnew
    cases hvalue : activity.get config.metric with
    | none =>
      have hpast := hsettled.perCondition doc hdoc config hc (Activity.get_eq_none_iff.mp hvalue)
      exact absurd (mem_turn_of_past activity past before hpast) hheld
    | some value =>
      refine ⟨value, rfl, ?_⟩
      simpa [hvalue, jsLess] using hless
  | stage config =>
    rw [hc] at ht
    cases ht
    obtain ⟨hheld, hreached, hclear⟩ := (docGrants_stage_iff activity hbuilt hc).mp hnew
    cases hvalue : activity.get config.metric with
    | none =>
      obtain ⟨d, hd, c, hdc, hdt, hmem⟩ :=
        hsettled.thresholdHeld h hbuilt hdocs hc (Activity.get_eq_none_iff.mp hvalue)
      exact absurd hmem (hclear d hd c hdc hdt)
    | some value =>
      refine ⟨value, rfl, ?_⟩
      simp only [StageRule.reached, hvalue, jsLess, Bool.and_eq_true, Bool.not_eq_true',
        decide_eq_false_iff_not, not_lt] at hreached
      exact hreached.1

/-- Every newly granted rule has reached its threshold. -/
def AllReached (docs : List RewardRuleDocument) (rules : List RewardRule) (activity : Activity)
    (past : List String) : Prop :=
  ∀ doc ∈ docs, doc._id.toString ∈ (RewardEngine.run rules activity past).newAchievedRuleIds →
    ∀ metric threshold, doc.config.target = some (metric, threshold) →
      ∃ value, activity.get metric = some value ∧ threshold ≤ value

/-- Then no rule on an unknown metric is granted on its turn. -/
theorem AllReached.refused (hall : AllReached docs rules activity past)
    {before after : List RewardRuleDocument} {doc : RewardRuleDocument}
    (hdocs : docs = before ++ doc :: after) {metric : String} {threshold : Rat}
    (ht : doc.config.target = some (metric, threshold))
    (hnone : activity.get metric = none) :
    ¬docGrants rules activity doc (turn activity past rules before) = true := by
  rw [← newAchieved_iff activity past h.ids hbuilt hdocs]
  intro hgrant
  obtain ⟨value, hvalue, -⟩ := hall doc (by simp [hdocs]) hgrant _ _ ht
  rw [hnone] at hvalue
  cases hvalue

/-- If every newly granted rule has reached its threshold, no unknown metric is left. -/
theorem settled_of_granted (hall : AllReached docs rules activity past) :
    UnknownMetricsSettled docs activity past := by
  constructor
  · intro doc hdoc config hc hunknown
    have hnone : activity.get config.metric = none := Activity.get_eq_none_iff.mpr hunknown
    obtain ⟨before, after, hdocs⟩ := List.append_of_mem hdoc
    by_contra hpast
    apply hall.refused h hbuilt hdocs (by rw [hc]; rfl) hnone
    rw [docGrants_perCondition activity hc, mem_turn_self activity past h.ids hdocs, hnone]
    exact ⟨hpast, rfl⟩
  · intro before doc after hdocs config hc hunknown
    have hnone : activity.get config.metric = none := Activity.get_eq_none_iff.mpr hunknown
    have hdoc : doc ∈ docs := by simp [hdocs]
    have hrefused := hall.refused h hbuilt hdocs (by rw [hc]; rfl) hnone
    -- out of reach for no activity, so something held blocks it
    obtain ⟨d, hd, c, hdc, ht, hmem⟩ :=
      thresholdHeld_of_refused activity hbuilt hdoc hc (reached_of_get_eq_none hnone) hrefused
    rcases mem_turn_cases activity past h.ids hbuilt hdocs hd hmem with hpast | ⟨hbefore, hnew⟩
    · exact Or.inl ⟨d, hd, c, hdc, ht, hpast⟩
    · right
      obtain ⟨value, hvalue, -⟩ := hall d hd hnew _ _ (by rw [hdc]; rfl)
      obtain ⟨b₁, b₂, hsplit⟩ := List.append_of_mem hd
      obtain ⟨hint, -⟩ := h.threshold hd (by rw [hdc]; rfl)
      rw [newAchieved_iff activity past h.ids hbuilt hsplit,
        docGrants_stage_iff activity hbuilt hdc] at hnew
      refine ⟨d, hbefore, c, value, hdc, ht, hvalue, ?_⟩
      rw [← ht]
      exact (reached_iff hvalue hint).mp hnew.2.1

end Settled

/-- Every rule that a claim newly grants has been achieved exactly when the rules on
metrics that no activity has are settled. -/
theorem granted_for_achievement_iff (event : EventDocument) (h : AcceptedRules event.rewardRules)
    (userActivity : UserActivityDocument) (past : List String) :
    ∃ result, runRewardEngine event userActivity past = .ok result ∧
      (GrantedForAchievement event userActivity.counters result ↔
        UnknownMetricsSettled event.rewardRules userActivity.counters past) := by
  obtain ⟨rules, hrules⟩ := h.built
  have hbuilt := createRulesFromDocs_built hrules
  refine ⟨RewardEngine.run rules userActivity.counters past, ?_, ?_, ?_⟩
  · rw [runRewardEngine, hrules]
    rfl
  · exact settled_of_granted h hbuilt
  · intro hsettled rule hrule hnew metric threshold ht
    exact granted_of_settled h hbuilt hsettled hrule hnew ht

/-! An event with one stage rule for three invitations, and one PER_CONDITION and one
STAGE rule on counters that no activity has. -/

namespace SampleAchievement

def stageRule : RewardRuleDocument :=
  ⟨ObjectId.ofDigit 1, .stage ⟨"inviteCount", 3⟩, [], [⟨some "CASH", some 500⟩]⟩

def levelRule : RewardRuleDocument :=
  ⟨ObjectId.ofDigit 2, .perCondition ⟨"level", 100⟩, [], [⟨some "CASH", some 1000⟩]⟩

def stageEvent : EventDocument :=
  ⟨ObjectId.ofDigit 3, "Launch", 100, 200, .ACTIVE, true, [stageRule]⟩

def levelEvent : EventDocument :=
  ⟨ObjectId.ofDigit 3, "Launch", 100, 200, .ACTIVE, true, [levelRule]⟩

theorem stageEvent_accepted : AcceptedRules stageEvent.rewardRules := by
  refine ⟨List.nodup_singleton _, ?_⟩
  intro doc hdoc
  cases List.mem_singleton.mp hdoc
  exact ⟨.STAGE, .object [("metric", .str "inviteCount"), ("stageThreshold", .num 3)], rfl⟩

theorem levelEvent_accepted : AcceptedRules levelEvent.rewardRules := by
  refine ⟨List.nodup_singleton _, ?_⟩
  intro doc hdoc
  cases List.mem_singleton.mp hdoc
  exact ⟨.PER_CONDITION, .object [("metric", .str "level"), ("perThreshold", .num 100)], rfl⟩

/-- Whoever invited `inviteCount` friends and has done nothing else. -/
def invited (inviteCount : Rat) : Activity := ⟨0, inviteCount, 0⟩

def newcomer : UserActivityDocument := ⟨ObjectId.ofDigit 4, ObjectId.ofDigit 5, 0, 0, 0, 40⟩

end SampleAchievement

open SampleAchievement in
/-- A rule on the level of a player pays every user, whatever they did. -/
theorem unknown_metric_granted :
    AcceptedRules levelEvent.rewardRules ∧
      ∃ result, runRewardEngine levelEvent newcomer [] = .ok result ∧
        levelRule._id.toString ∈ result.newAchievedRuleIds ∧
        ¬GrantedForAchievement levelEvent newcomer.counters result := by
  refine ⟨levelEvent_accepted, ⟨[levelRule._id.toString], [⟨some "CASH", some 1000⟩]⟩,
    by decide +kernel, by simp, ?_⟩
  intro h
  obtain ⟨value, hvalue, -⟩ := h levelRule (by simp [levelEvent]) (by simp) "level" 100 rfl
  have hnone : newcomer.counters.get "level" = none := by decide
  rw [hnone] at hvalue
  cases hvalue

open SampleAchievement in
theorem granted_for_achievement_iff_sample :
    ∃ result, runRewardEngine stageEvent newcomer [] = .ok result ∧
      (GrantedForAchievement stageEvent newcomer.counters result ↔
        UnknownMetricsSettled stageEvent.rewardRules newcomer.counters []) :=
  granted_for_achievement_iff stageEvent stageEvent_accepted newcomer []

open SampleAchievement in
/-- Five invitations reach the stage of three, and it is not paid. -/
theorem stage_reached_not_paid :
    AcceptedRules stageEvent.rewardRules ∧ stageRule ∈ stageEvent.rewardRules ∧
      (invited 5).get "inviteCount" = some 5 ∧
      ∃ rules, createRulesFromDocs stageEvent.rewardRules = .ok rules ∧
        RewardEngine.run rules (invited 5) [] = ⟨[], []⟩ ∧
        ¬PaidAsReached rules (invited 5) [] stageRule ⟨"inviteCount", 3⟩ 5 := by
  refine ⟨stageEvent_accepted, by simp [stageEvent], rfl, _, rfl, by decide +kernel, ?_⟩
  intro h
  have hpaid := h.mpr (Or.inr (by decide))
  revert hpaid
  decide +kernel

open SampleAchievement in
theorem stage_paid_outside_gap_sample :
    ∃ rules, createRulesFromDocs stageEvent.rewardRules = .ok rules ∧
      (PaidAsReached rules (invited 9) [] stageRule ⟨"inviteCount", 3⟩ 9 ↔
        ¬(stageRule._id.toString ∉ ([] : List String) ∧ (3 : Rat) ≤ 9 ∧ jsDiv 9 3 < 3)) :=
  stage_paid_outside_gap stageEvent stageEvent_accepted (invited 9) [] stageRule
    (by simp [stageEvent]) ⟨"inviteCount", 3⟩ rfl 9 rfl
    (fun rule hrule _ _ _ => List.mem_singleton.mp hrule)

end MapleRewards
