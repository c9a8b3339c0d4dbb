import MapleRewards.Turns

/-!
# Stages side by side

A stage rule is blocked by any stage rule of its threshold that is in the set, whatever
the metric of that rule. Of the rules with one threshold, at most the first one that the
activity reaches is granted.
-/
namespace MapleRewards

open OnePass

/-- The stage rules that keep another one of this threshold from being granted. -/
def ThresholdHeld (docs : List RewardRuleDocument) (threshold : Rat) (held : List String) : Prop :=
  ∃ d ∈ docs, ∃ c, d.config = .stage c ∧ c.stageThreshold = threshold ∧ d._id.toString ∈ held

theorem ThresholdHeld.mono {docs : List RewardRuleDocument} {threshold : Rat}
    {held held' : List String} (h : ThresholdHeld docs threshold held)
    (hsub : ∀ id ∈ held, id ∈ held') : ThresholdHeld docs threshold held' := by
  obtain ⟨d, hd, c, hc, ht, hmem⟩ := h
  exact ⟨d, hd, c, hc, ht, hsub _ hmem⟩

section Stages

variable {docs : List RewardRuleDocument} {rules : List RewardRule} (activity : Activity)
  (past : List String)

/-- A held id was paid before the run, or belongs to an earlier rule that grants. -/
theorem mem_turn_cases (hids : (docs.map RewardRuleDocument._id).Nodup)
    (hbuilt : List.Forall₂ Built docs rules) {before after : List RewardRuleDocument}
    {doc d : RewardRuleDocument} (hdocs : docs = before ++ doc :: after) (hd : d ∈ docs)
    (hmem : d._id.toString ∈ turn activity past rules before) :
    d._id.toString ∈ past ∨ (d ∈ before ∧
      d._id.toString ∈ (RewardEngine.run rules activity past).newAchievedRuleIds) := by
  rcases List.mem_append.mp hmem with hpast | hnew
  · exact Or.inl (by simpa using hpast)
  · right
    obtain ⟨d₀, hd₀, hkey⟩ := List.mem_map.mp hnew
    have hbefore := (choose_sublist _ _ before (setOf past)).subset hd₀
    have hsame : d₀ = d :=
      List.inj_on_of_nodup_map (keys_nodup hids) (hdocs ▸ List.mem_append_left _ hbefore) hd hkey
    subst hsame
    refine ⟨hbefore, ?_⟩
    rw [run_eq_grantedDocs hbuilt]
    apply List.mem_map_of_mem
    rw [grantedDocs, hdocs, choose_append]
    exact List.mem_append_left _ hd₀

variable (hbuilt : List.Forall₂ Built docs rules)
include hbuilt

/-- A stage rule that passes the comparisons is refused only when its threshold is held. -/
theorem thresholdHeld_of_refused {doc : RewardRuleDocument} (hdoc : doc ∈ docs)
    {config : StageRuleConfig} (hc : doc.config = .stage config)
    (hreached : (⟨"", [], config⟩ : StageRule).reached activity = true) {held : List String}
    (hrefused : ¬docGrants rules activity doc held = true) :
    ThresholdHeld docs config.stageThreshold held := by
  by_contra hclear
  apply hrefused
  rw [docGrants_stage_iff activity hbuilt hc]
  refine ⟨?_, hreached, ?_⟩
  · intro hmem
    exact hclear ⟨doc, hdoc, config, hc, rfl, hmem⟩
  · intro d hd c hdc ht hmem
    exact hclear ⟨d, hd, c, hdc, ht, hmem⟩

/-- Granted or blocked, a stage rule that passes the comparisons leaves its threshold held
behind it. -/
theorem thresholdHeld_behind {doc : RewardRuleDocument} (hdoc : doc ∈ docs)
    {config : StageRuleConfig} (hc : doc.config = .stage config)
    (hreached : (⟨"", [], config⟩ : StageRule).reached activity = true)
    (before middle : List RewardRuleDocument) :
    ThresholdHeld docs config.stageThreshold
      (turn activity past rules (before ++ doc :: middle)) := by
  by_cases hgrant : docGrants rules activity doc (turn activity past rules before) = true
  · exact ⟨doc, hdoc, config, hc, rfl, key_mem_heldAfter _ _ middle hgrant⟩
  · have hheld : ThresholdHeld docs config.stageThreshold (turn activity past rules before) :=
      thresholdHeld_of_refused activity hbuilt hdoc hc hreached hgrant
    exact hheld.mono (heldAfter_mono _ _ before (doc :: middle) (setOf past))

/-- A stage rule is newly granted exactly when it is reached, no stage rule of its threshold
has been paid and none that is reached stands before it. -/
theorem stage_newAchieved_iff (hids : (docs.map RewardRuleDocument._id).Nodup)
    {before after : List RewardRuleDocument} {doc : RewardRuleDocument}
    (hdocs : docs = before ++ doc :: after) {config : StageRuleConfig}
    (hc : doc.config = .stage config) :
    doc._id.toString ∈ (RewardEngine.run rules activity past).newAchievedRuleIds ↔
      (⟨"", [], config⟩ : StageRule).reached activity = true ∧
      (∀ d ∈ docs, ∀ c, d.config = .stage c → c.stageThreshold = config.stageThreshold →
        d._id.toString ∉ past) ∧
      ∀ d ∈ before, ∀ c, d.config = .stage c → c.stageThreshold = config.stageThreshold →
        (⟨"", [], c⟩ : StageRule).reached activity = false := by
  have hdoc : doc ∈ docs := by simp [hdocs]
  rw [newAchieved_iff activity past hids hbuilt hdocs, docGrants_stage_iff activity hbuilt hc]
  constructor
  · rintro ⟨-, hreached, hclear⟩
    refine ⟨hreached, ?_, ?_⟩
    · intro d hd c hdc ht hpast
      exact hclear d hd c hdc ht (mem_turn_of_past activity past before hpast)
    · intro d hd c hdc ht
      rw [Bool.eq_false_iff]
      intro hearlier
      obtain ⟨before₁, before₂, rfl⟩ := List.append_of_mem hd
      have hd' : d ∈ docs := by simp [hdocs]
      obtain ⟨d', hd', c', hdc', ht', hmem⟩ :=
        thresholdHeld_behind activity past hbuilt hd' hdc hearlier before₁ before₂
      exact hclear d' hd' c' hdc' (ht'.trans ht) hmem
  · rintro ⟨hreached, hpast, hearlier⟩
    have hclear : ∀ d ∈ docs, ∀ c, d.config = .stage c →
        c.stageThreshold = config.stageThreshold →
        d._id.toString ∉ turn activity past rules before := by
      intro d hd c hdc ht hmem
      rcases mem_turn_cases activity past hids hbuilt hdocs hd hmem with hold | ⟨hbefore, hnew⟩
      · exact hpast d hd c hdc ht hold
      · -- an earlier rule that grants is reached
        obtain ⟨before₁, before₂, hsplit⟩ := List.append_of_mem hd
        rw [newAchieved_iff activity past hids hbuilt hsplit,
          docGrants_stage_iff activity hbuilt hdc] at hnew
        have hunreached := hearlier d hbefore c hdc ht
        rw [hnew.2.1] at hunreached
        cases hunreached
    exact ⟨hclear doc hdoc config hc rfl, hreached, hclear⟩

end Stages

/-! ## The ladder of one metric -/

/-- On its turn in the loop the rule adds its id to the set. -/
def RewardEngine.NewlyGrants (rules : List RewardRule) (activity : Activity) (past : List String)
    (rule : RewardRule) : Prop :=
  ∃ before after, rules = before ++ rule :: after ∧
    let ruleIds := (before.foldl (RewardEngine.visit rules activity) (setOf past, [])).1
    rule.id ∉ ruleIds ∧ rule.id ∈ (rule.apply rules activity ruleIds).2

/-- The rules that grant on their turn are those whose ids and items a run puts out. -/
theorem RewardEngine.newlyGrants_iff {rules : List RewardRule} {activity : Activity}
    {past : List String} {rule : RewardRule} :
    NewlyGrants rules activity past rule ↔ rule ∈ RewardEngine.granted rules activity past := by
  have hfold : ∀ before : List RewardRule,
      (before.foldl (RewardEngine.visit rules activity) (setOf past, [])).1 =
        heldAfter RewardRule.id (RewardRule.grants rules activity) before (setOf past) := by
    intro before
    rw [show RewardEngine.visit rules activity =
      fun acc rule => RewardEngine.visit rules activity acc rule from rfl,
      RewardEngine.foldl_visit (fun _ => rules)]
  constructor
  · rintro ⟨before, after, hrules, hnew, hadded⟩
    rw [hfold, RewardRule.apply_eq] at hadded
    rw [hfold] at hnew
    rw [RewardEngine.granted, hrules]
    apply mem_choose_of_accepts
    by_contra hrefused
    rw [← hrules, Bool.not_eq_true] at hrefused
    simp [hrefused, hnew] at hadded
  · intro h
    obtain ⟨before, after, hrules, hgrants⟩ := accepts_of_mem_choose _ _ h
    refine ⟨before, after, hrules, ?_⟩
    simp only [hfold]
    refine ⟨rule.grants_fresh _ hgrants, ?_⟩
    rw [RewardRule.apply_eq, if_pos hgrants]
    simp

theorem RewardEngine.NewlyGrants.grants {rules : List RewardRule} {activity : Activity}
    {past : List String} {rule : RewardRule} (h : NewlyGrants rules activity past rule) :
    ∃ ruleIds, rule.grants rules activity ruleIds = true := by
  obtain ⟨before, after, -, hgrants⟩ :=
    accepts_of_mem_choose _ _ (RewardEngine.newlyGrants_iff.mp h)
  exact ⟨_, hgrants⟩

theorem mem_past_or_new_iff {rules : List RewardRule} {activity : Activity} {past : List String}
    {id : String} :
    id ∈ past ++ (RewardEngine.run rules activity past).newAchievedRuleIds ↔
      id ∈ heldAfter RewardRule.id (RewardRule.grants rules activity) rules (setOf past) := by
  rw [RewardEngine.run_eq, heldAfter, List.mem_append, List.mem_append, mem_setOf]
  rfl

/-- A lower stage of the same metric is reached when a higher one is. -/
theorem reached_mono {r r' : StageRule} {activity : Activity}
    (hmetric : r'.config.metric = r.config.metric) (hpos : 0 < r'.config.stageThreshold)
    (hle : r'.config.stageThreshold ≤ r.config.stageThreshold)
    (h : r.reached activity = true) : r'.reached activity = true := by
  cases hvalue : activity.get r.config.metric with
  | none => exact reached_of_get_eq_none (hmetric ▸ hvalue)
  | some value =>
    obtain ⟨hlow, hfloor⟩ := (reached_iff_floor hvalue).mp h
    have hvalue_nonneg : 0 ≤ value := hpos.le.trans (hle.trans hlow)
    have hfloors : ((jsDiv value r.config.stageThreshold).floor : Rat) ≤
        ((jsDiv value r'.config.stageThreshold).floor : Rat) :=
      Int.cast_le.mpr (Rat.floor_monotone (jsDiv_anti_right hvalue_nonneg hpos hle))
    have hvalue' : activity.get r'.config.metric = some value := hmetric ▸ hvalue
    exact (reached_iff_floor hvalue').mpr
      ⟨hle.trans hlow, hle.trans (hfloor.trans hfloors)⟩

/-- The threshold of a stage rule of the list that is reached is held after the run. -/
theorem threshold_held_at_end (past : List String) {rules : List RewardRule}
    {activity : Activity} {r : StageRule}
    (hr : RewardRule.stage r ∈ rules) (hreached : r.reached activity = true) :
    ∃ r', RewardRule.stage r' ∈ rules ∧ r'.config.stageThreshold = r.config.stageThreshold ∧
      r'.id ∈ heldAfter RewardRule.id (RewardRule.grants rules activity) rules (setOf past) := by
  obtain ⟨before, after, hrules⟩ := List.append_of_mem hr
  by_cases hgrant : (RewardRule.stage r).grants rules activity
      (heldAfter RewardRule.id (RewardRule.grants rules activity) before (setOf past)) = true
  · refine ⟨r, hr, rfl, ?_⟩
    have hheld := key_mem_heldAfter RewardRule.id (RewardRule.grants rules activity) after hgrant
    rw [← hrules] at hheld
    exact hheld
  · -- refused although reached: its id or its threshold was in the set
    have hblocked : ∃ r', RewardRule.stage r' ∈ rules ∧
        r'.config.stageThreshold = r.config.stageThreshold ∧
        r'.id ∈ heldAfter RewardRule.id (RewardRule.grants rules activity) before (setOf past) := by
      by_contra hclear
      apply hgrant
      simp only [RewardRule.grants, hreached, Bool.true_and, Bool.and_eq_true, Bool.not_eq_true',
        List.contains_eq_mem, decide_eq_false_iff_not]
      constructor
      · intro hmem
        exact hclear ⟨r, hr, rfl, hmem⟩
      · rw [Bool.eq_false_iff]
        intro hst
        simp only [stageRewarded, List.any_eq_true, Bool.and_eq_true, List.contains_iff_mem,
          List.mem_filterMap, beq_iff_eq] at hst
        obtain ⟨r', ⟨rule, hrule, hstage⟩, hmem, ht⟩ := hst
        cases rule with
        | stage r₀ =>
          cases hstage
          exact hclear ⟨r', hrule, ht, hmem⟩
        | perCondition r₀ => cases hstage
        | final r₀ => cases hstage
    obtain ⟨r', hr', ht, hmem⟩ := hblocked
    refine ⟨r', hr', ht, ?_⟩
    have hend := heldAfter_mono RewardRule.id (RewardRule.grants rules activity) before
      (.stage r :: after) (setOf past) _ hmem
    rw [← hrules] at hend
    exact hend

/-- With a stage, a run leaves every stage of the same metric up to it settled, wherever the
rules stand. -/
theorem stage_ladder_without_gaps (rules : List RewardRule)
    (hthresholds : ∀ r, RewardRule.stage r ∈ rules → 1 ≤ r.config.stageThreshold)
    (activity : Activity) (past : List String) (r : StageRule)
    (hr : RewardEngine.NewlyGrants rules activity past (.stage r)) (r' : StageRule)
    (hr' : RewardRule.stage r' ∈ rules) (hmetric : r'.config.metric = r.config.metric)
    (hle : r'.config.stageThreshold ≤ r.config.stageThreshold) :
    ∃ paid, RewardRule.stage paid ∈ rules ∧
      paid.config.stageThreshold = r'.config.stageThreshold ∧
      paid.id ∈ past ++ (RewardEngine.run rules activity past).newAchievedRuleIds := by
  obtain ⟨ruleIds, hgrants⟩ := hr.grants
  simp only [RewardRule.grants, Bool.and_eq_true] at hgrants
  have hpos : 0 < r'.config.stageThreshold := lt_of_lt_of_le one_pos (hthresholds r' hr')
  have hreached : r'.reached activity = true := reached_mono hmetric hpos hle hgrants.2.1
  obtain ⟨paid, hpaid, ht, hheld⟩ := threshold_held_at_end past hr' hreached
  exact ⟨paid, hpaid, ht, mem_past_or_new_iff.mpr hheld⟩

namespace SampleStages

/-- Three stages of one counter, the highest first. -/
def ladder : List RewardRule :=
  [.stage ⟨"third", [⟨some "CASH", some 300⟩], ⟨"inviteCount", 3⟩⟩,
    .stage ⟨"first", [⟨some "CASH", some 100⟩], ⟨"inviteCount", 1⟩⟩,
    .stage ⟨"second", [⟨some "CASH", some 200⟩], ⟨"inviteCount", 2⟩⟩]

end SampleStages

open SampleStages in
theorem stage_ladder_without_gaps_sample :
    ∃ paid, RewardRule.stage paid ∈ ladder ∧ paid.config.stageThreshold = 2 ∧
      paid.id ∈ ["first"] ++ (RewardEngine.run ladder ⟨0, 9, 0⟩ ["first"]).newAchievedRuleIds := by
  have hthresholds : ∀ r, RewardRule.stage r ∈ ladder → 1 ≤ r.config.stageThreshold := by
    intro r hr
    simp only [ladder, List.mem_cons, RewardRule.stage.injEq, List.not_mem_nil, or_false] at hr
    rcases hr with rfl | rfl | rfl <;> decide
  have hgrants : RewardEngine.NewlyGrants ladder ⟨0, 9, 0⟩ ["first"]
      (.stage ⟨"third", [⟨some "CASH", some 300⟩], ⟨"inviteCount", 3⟩⟩) :=
    ⟨[], _, rfl, by decide +kernel, by decide +kernel⟩
  exact stage_ladder_without_gaps ladder hthresholds ⟨0, 9, 0⟩ ["first"] _ hgrants
    ⟨"second", [⟨some "CASH", some 200⟩], ⟨"inviteCount", 2⟩⟩ (by simp [ladder]) rfl (by decide)

/-! ## Stages of different metrics -/

/-- Every rule but the stage rules of other metrics. -/
def RewardRuleDocument.concerns (metric : String) (doc : RewardRuleDocument) : Bool :=
  match doc.config with
  | .stage config => config.metric == metric
  | _ => true

def docsConcerning (metric : String) (docs : List RewardRuleDocument) : List RewardRuleDocument :=
  docs.filter (RewardRuleDocument.concerns metric)

def pastConcerning (metric : String) (docs : List RewardRuleDocument) (past : List String) :
    List String :=
  past.filter fun id => !docs.any fun doc => !doc.concerns metric && doc._id.toString == id

/-- The rule is newly granted by the engine that is built from the documents. -/
def NewlyGranted (docs : List RewardRuleDocument) (activity : Activity) (past : List String)
    (doc : RewardRuleDocument) : Prop :=
  ∃ rules, createRulesFromDocs docs = .ok rules ∧
    doc._id.toString ∈ (RewardEngine.run rules activity past).newAchievedRuleIds

theorem newlyGranted_iff {docs : List RewardRuleDocument} {rules : List RewardRule}
    (hrules : createRulesFromDocs docs = .ok rules) (activity : Activity) (past : List String)
    (doc : RewardRuleDocument) :
    NewlyGranted docs activity past doc ↔
      doc._id.toString ∈ (RewardEngine.run rules activity past).newAchievedRuleIds := by
  constructor
  · rintro ⟨rules', hrules', hnew⟩
    cases hrules.symm.trans hrules'
    exact hnew
  · intro hnew
    exact ⟨rules, hrules, hnew⟩

/-- Without the stage rules of other metrics the same stage rules of `metric` are granted. -/
def Undisturbed (docs : List RewardRuleDocument) (activity : Activity) (past : List String)
    (metric : String) : Prop :=
  ∀ doc ∈ docs, ∀ config, doc.config = .stage config → config.metric = metric →
    (NewlyGranted docs activity past doc ↔
      NewlyGranted (docsConcerning metric docs) activity (pastConcerning metric docs past) doc)

/-- Of a stage of `metric` that is reached and not paid, the first rule has its threshold to
itself: no stage rule of another metric with this threshold has been paid, and none that is
reached stands before it. -/
def ThresholdsApart (docs : List RewardRuleDocument) (activity : Activity) (past : List String)
    (metric : String) : Prop :=
  ∀ before doc after, docs = before ++ doc :: after → ∀ config, doc.config = .stage config →
    config.metric = metric → (⟨"", [], config⟩ : StageRule).reached activity = true →
    (∀ d ∈ before, d.config ≠ .stage config) →
    (∀ d ∈ docs, d.config = .stage config → d._id.toString ∉ past) →
    ∀ d ∈ docs, ∀ c, d.config = .stage c → c.metric ≠ metric →
      c.stageThreshold = config.stageThreshold →
      d._id.toString ∉ past ∧
        (d ∈ before → (⟨"", [], c⟩ : StageRule).reached activity = false)

theorem StageRuleConfig.eq_of_same {c c' : StageRuleConfig} (hmetric : c.metric = c'.metric)
    (ht : c.stageThreshold = c'.stageThreshold) : c = c' := by
  cases c
  cases c'
  simp_all

section Metrics

variable {docs : List RewardRuleDocument} (hids : (docs.map RewardRuleDocument._id).Nodup)
  (activity : Activity) (past : List String) {metric : String}

theorem concerns_stage {doc : RewardRuleDocument} {config : StageRuleConfig}
    (hc : doc.config = .stage config) :
    doc.concerns metric = true ↔ config.metric = metric := by
  simp [RewardRuleDocument.concerns, hc]

include hids in
/-- The past ids of the rules that stay are the same. -/
theorem mem_pastConcerning {doc : RewardRuleDocument} (hdoc : doc ∈ docs)
    (hstays : doc.concerns metric = true) :
    doc._id.toString ∈ pastConcerning metric docs past ↔ doc._id.toString ∈ past := by
  simp only [pastConcerning, List.mem_filter, Bool.not_eq_true', List.any_eq_false,
    Bool.and_eq_true, Bool.not_eq_true', beq_iff_eq, not_and, and_iff_left_iff_imp]
  intro _ d hd hremoved hsame
  have heq : d = doc := List.inj_on_of_nodup_map (keys_nodup hids) hd hdoc hsame
  rw [heq, hstays] at hremoved
  cases hremoved

theorem not_newlyGranted_of_unsupported {d : RewardRuleDocument} (hd : d ∈ docs)
    {ruleType : String} (hc : d.config = .unsupported ruleType) (doc : RewardRuleDocument) :
    ¬NewlyGranted docs activity past doc := by
  rintro ⟨rules, hrules, -⟩
  obtain ⟨rule, -, hbuilt⟩ :=
    Collection.mem_of_forall₂ (createRulesFromDocs_built hrules).flip hd
  exact Built.supported hbuilt ruleType hc

include hids in
theorem newlyGranted_stage_iff
    (hsupported : ∀ doc ∈ docs, ∀ ruleType, doc.config ≠ .unsupported ruleType)
    {before after : List RewardRuleDocument} {doc : RewardRuleDocument}
    (hdocs : docs = before ++ doc :: after) {config : StageRuleConfig}
    (hc : doc.config = .stage config) :
    NewlyGranted docs activity past doc ↔
      (⟨"", [], config⟩ : StageRule).reached activity = true ∧
      (∀ d ∈ docs, ∀ c, d.config = .stage c → c.stageThreshold = config.stageThreshold →
        d._id.toString ∉ past) ∧
      ∀ d ∈ before, ∀ c, d.config = .stage c → c.stageThreshold = config.stageThreshold →
        (⟨"", [], c⟩ : StageRule).reached activity = false := by
  obtain ⟨rules, hrules⟩ := built_of_supported hsupported
  rw [newlyGranted_iff hrules,
    stage_newAchieved_iff activity past (createRulesFromDocs_built hrules) hids hdocs hc]

include hids in
/-- Among the rules of its own metric, a stage competes with its duplicates only. -/
theorem newlyGranted_concerning_iff
    (hsupported : ∀ doc ∈ docs, ∀ ruleType, doc.config ≠ .unsupported ruleType)
    {before after : List RewardRuleDocument} {doc : RewardRuleDocument}
    (hdocs : docs = before ++ doc :: after) {config : StageRuleConfig}
    (hc : doc.config = .stage config) (hmetric : config.metric = metric) :
    NewlyGranted (docsConcerning metric docs) activity (pastConcerning metric docs past) doc ↔
      (⟨"", [], config⟩ : StageRule).reached activity = true ∧
      (∀ d ∈ docs, d.config = .stage config → d._id.toString ∉ past) ∧
      ∀ d ∈ before, d.config ≠ .stage config := by
  have hstays : doc.concerns metric = true := (concerns_stage hc).mpr hmetric
  have hsplit : docsConcerning metric docs =
      docsConcerning metric before ++ doc :: docsConcerning metric after := by
    simp [docsConcerning, hdocs, hstays]
  have hsupported' : ∀ doc ∈ docsConcerning metric docs, ∀ ruleType,
      doc.config ≠ .unsupported ruleType :=
    fun doc hdoc => hsupported doc (List.mem_filter.mp hdoc).1
  have hids' : ((docsConcerning metric docs).map RewardRuleDocument._id).Nodup :=
    hids.sublist (List.filter_sublist.map _)
  rw [newlyGranted_stage_iff hids' activity _ hsupported' hsplit hc]
  -- a stage rule that stays has the metric, so with the threshold it has the config
  have hsame : ∀ (d : RewardRuleDocument) (c : StageRuleConfig), d.concerns metric = true →
      d.config = .stage c → c.stageThreshold = config.stageThreshold → c = config := by
    intro d c hd hdc ht
    exact StageRuleConfig.eq_of_same (((concerns_stage hdc).mp hd).trans hmetric.symm) ht
  constructor
  · rintro ⟨hreached, hpast, hearlier⟩
    refine ⟨hreached, ?_, ?_⟩
    · intro d hd hdc
      have hd' : d.concerns metric = true := (concerns_stage hdc).mpr hmetric
      rw [← mem_pastConcerning hids past hd hd']
      exact hpast d (List.mem_filter.mpr ⟨hd, hd'⟩) config hdc rfl
    · intro d hd hdc
      have hd' : d.concerns metric = true := (concerns_stage hdc).mpr hmetric
      have hunreached := hearlier d (List.mem_filter.mpr ⟨hd, hd'⟩) config hdc rfl
      rw [hreached] at hunreached
      cases hunreached
  · rintro ⟨hreached, hpast, hfirst⟩
    refine ⟨hreached, ?_, ?_⟩
    · intro d hd c hdc ht
      obtain ⟨hd, hd'⟩ := List.mem_filter.mp hd
      rw [mem_pastConcerning hids past hd hd']
      exact hpast d hd (hsame d c hd' hdc ht ▸ hdc)
    · intro d hd c hdc ht
      obtain ⟨hd, hd'⟩ := List.mem_filter.mp hd
      exact absurd (hsame d c hd' hdc ht ▸ hdc) (hfirst d hd)

end Metrics

/-- The stage rules of other metrics make no difference to those of `metric` exactly when
they leave their thresholds alone, or an unknown rule type keeps the engine from being
built. -/
theorem stages_undisturbed_iff (docs : List RewardRuleDocument)
    (hids : (docs.map RewardRuleDocument._id).Nodup) (activity : Activity) (past : List String)
    (metric : String) :
    Undisturbed docs activity past metric ↔
      (∃ doc ∈ docs, ∃ ruleType, doc.config = .unsupported ruleType) ∨
        ThresholdsApart docs activity past metric := by
  by_cases hunsupported : ∃ doc ∈ docs, ∃ ruleType, doc.config = .unsupported ruleType
  · apply iff_of_true _ (Or.inl hunsupported)
    obtain ⟨d, hd, ruleType, hdc⟩ := hunsupported
    have hd' : d ∈ docsConcerning metric docs :=
      List.mem_filter.mpr ⟨hd, by simp [RewardRuleDocument.concerns, hdc]⟩
    intro doc hdoc config hc hmetric
    exact iff_of_false (not_newlyGranted_of_unsupported activity past hd hdc doc)
      (not_newlyGranted_of_unsupported activity _ hd' hdc doc)
  · have hsupported : ∀ doc ∈ docs, ∀ ruleType, doc.config ≠ .unsupported ruleType :=
      fun doc hdoc ruleType hc => hunsupported ⟨doc, hdoc, ruleType, hc⟩
    rw [or_iff_right hunsupported]
    constructor
    · intro h before doc after hdocs config hc hmetric hreached hfirst hpast
      have hdoc : doc ∈ docs := by simp [hdocs]
      have hgranted := (newlyGranted_concerning_iff hids activity past hsupported hdocs hc
        hmetric).mpr ⟨hreached, hpast, hfirst⟩
      rw [← h doc hdoc config hc hmetric,
        newlyGranted_stage_iff hids activity past hsupported hdocs hc] at hgranted
      obtain ⟨-, hclear, hearlier⟩ := hgranted
      intro d hd c hdc _ ht
      exact ⟨hclear d hd c hdc ht, fun hbefore => hearlier d hbefore c hdc ht⟩
    · intro happart doc hdoc config hc hmetric
      obtain ⟨before, after, hdocs⟩ := List.append_of_mem hdoc
      rw [newlyGranted_stage_iff hids activity past hsupported hdocs hc,
        newlyGranted_concerning_iff hids activity past hsupported hdocs hc hmetric]
      constructor
      · rintro ⟨hreached, hpast, hearlier⟩
        refine ⟨hreached, fun d hd hdc => hpast d hd config hdc rfl, ?_⟩
        intro d hd hdc
        have hunreached := hearlier d hd config hdc rfl
        rw [hreached] at hunreached
        cases hunreached
      · rintro ⟨hreached, hpast, hfirst⟩
        have hother := happart before doc after hdocs config hc hmetric hreached hfirst hpast
        refine ⟨hreached, ?_, ?_⟩
        · intro d hd c hdc ht
          by_cases hcm : c.metric = metric
          · have hsame : c = config := StageRuleConfig.eq_of_same (hcm.trans hmetric.symm) ht
            exact hpast d hd (hsame ▸ hdc)
          · exact (hother d hd c hdc hcm ht).1
        · intro d hd c hdc ht
          by_cases hcm : c.metric = metric
          · have hsame : c = config := StageRuleConfig.eq_of_same (hcm.trans hmetric.symm) ht
            exact absurd (hsame ▸ hdc) (hfirst d hd)
          · have hd' : d ∈ docs := by simp [hdocs, hd]
            exact (hother d hd' c hdc hcm ht).2 hd

namespace SampleStages

def stageOf (n : Nat) (metric : String) (threshold : Rat) : RewardRuleDocument :=
  ⟨ObjectId.ofDigit n, .stage ⟨metric, threshold⟩, [], [⟨some "CASH", some 500⟩]⟩

/-- A stage of two counters each, with one threshold and with two. -/
def sameThresholds : List RewardRuleDocument :=
  [stageOf 1 "loginStreak" 2, stageOf 2 "inviteCount" 2]

def otherThresholds : List RewardRuleDocument :=
  [stageOf 1 "loginStreak" 1, stageOf 2 "inviteCount" 2]

end SampleStages

open SampleStages in
/-- The login stage is paid and keeps the invitation stage from being paid. -/
theorem stages_disturbed : ¬Undisturbed sameThresholds ⟨4, 4, 0⟩ [] "inviteCount" := by
  intro h
  have halone : NewlyGranted (docsConcerning "inviteCount" sameThresholds) ⟨4, 4, 0⟩
      (pastConcerning "inviteCount" sameThresholds []) (stageOf 2 "inviteCount" 2) :=
    ⟨[.stage ⟨(ObjectId.ofDigit 2).toString, [⟨some "CASH", some 500⟩], ⟨"inviteCount", 2⟩⟩], rfl,
      by decide +kernel⟩
  obtain ⟨rules, hrules, hnew⟩ := (h (stageOf 2 "inviteCount" 2) (by simp [sameThresholds])
    ⟨"inviteCount", 2⟩ rfl rfl).mpr halone
  have hboth : createRulesFromDocs sameThresholds = .ok
      [.stage ⟨(ObjectId.ofDigit 1).toString, [⟨some "CASH", some 500⟩], ⟨"loginStreak", 2⟩⟩,
        .stage ⟨(ObjectId.ofDigit 2).toString, [⟨some "CASH", some 500⟩], ⟨"inviteCount", 2⟩⟩] := rfl
  rw [hboth] at hrules
  cases hrules
  revert hnew
  decide +kernel

open SampleStages in
theorem stages_undisturbed_sample : Undisturbed otherThresholds ⟨4, 4, 0⟩ [] "inviteCount" := by
  have hids : (otherThresholds.map RewardRuleDocument._id).Nodup := by decide
  apply (stages_undisturbed_iff otherThresholds hids ⟨4, 4, 0⟩ [] "inviteCount").mpr
  right
  intro before doc after hdocs config hc hmetric _ _ _ d hd c hdc hcm ht
  have hdoc : doc ∈ otherThresholds := by simp [hdocs]
  simp only [otherThresholds, stageOf, List.mem_cons, List.not_mem_nil, or_false] at hdoc hd
  rcases hdoc with rfl | rfl <;> rcases hd with rfl | rfl <;> cases hc <;> cases hdc <;>
    simp_all

end MapleRewards
