import MapleRewards.FinalBonus
import MapleRewards.Stages

/-!
# Claiming in instalments

A user who claims now and then while the counters go up is granted in the end what one
claim with the last counters grants. FINAL rules must not stand before their prerequisites,
and stage rules with one threshold must count one metric, or the early claims get in the
way of the late one.
-/
namespace MapleRewards

open OnePass Collection

/-- No counter of the first activity is above that of the second one. -/
structure Activity.Le (a b : Activity) : Prop where
  loginStreak : a.loginStreak ≤ b.loginStreak
  inviteCount : a.inviteCount ≤ b.inviteCount
  purchaseTotal : a.purchaseTotal ≤ b.purchaseTotal

/-- Stage rules with the same threshold have the same metric. -/
def OneMetricPerStage (docs : List RewardRuleDocument) : Prop :=
  ∀ d ∈ docs, ∀ d' ∈ docs, ∀ c c', d.config = .stage c → d'.config = .stage c' →
    c.stageThreshold = c'.stageThreshold → c.metric = c'.metric

/-- Claims with these activities one after another, each with what the earlier ones were
granted as part of its history. -/
def RewardEngine.instalments (rules : List RewardRule) :
    List Activity → List String → EngineResult
  | [], _ => ⟨[], []⟩
  | activity :: activities, past =>
    let first := RewardEngine.run rules activity past
    let rest := RewardEngine.instalments rules activities (past ++ first.newAchievedRuleIds)
    ⟨first.newAchievedRuleIds ++ rest.newAchievedRuleIds, first.rewards ++ rest.rewards⟩

/-! ## More counted, more reached -/

theorem Activity.Le.get {a b : Activity} (h : a.Le b) (metric : String) :
    (a.get metric = none ∧ b.get metric = none) ∨
      ∃ v w, a.get metric = some v ∧ b.get metric = some w ∧ v ≤ w := by
  unfold Activity.get
  split
  · exact Or.inr ⟨_, _, rfl, rfl, h.loginStreak⟩
  · split
    · exact Or.inr ⟨_, _, rfl, rfl, h.inviteCount⟩
    · split
      · exact Or.inr ⟨_, _, rfl, rfl, h.purchaseTotal⟩
      · exact Or.inl ⟨rfl, rfl⟩

theorem Activity.Le.jsLess {a b : Activity} (h : a.Le b) {metric : String} {threshold : Rat}
    (hlow : MapleRewards.jsLess (a.get metric) threshold = false) :
    MapleRewards.jsLess (b.get metric) threshold = false := by
  rcases h.get metric with ⟨ha, hb⟩ | ⟨v, w, ha, hb, hvw⟩
  · rw [hb]
    rfl
  · rw [ha] at hlow
    rw [hb]
    simp only [MapleRewards.jsLess, decide_eq_false_iff_not, not_lt] at hlow ⊢
    exact hlow.trans hvw

theorem Activity.Le.reached {a b : Activity} (h : a.Le b) {rule : StageRule}
    (hpos : 0 ≤ rule.config.stageThreshold) (hreached : rule.reached a = true) :
    rule.reached b = true := by
  rcases h.get rule.config.metric with ⟨-, hb⟩ | ⟨v, w, ha, hb, hvw⟩
  · exact reached_of_get_eq_none hb
  · obtain ⟨hlow, hfloor⟩ := (reached_iff_floor ha).mp hreached
    have hfloors : ((jsDiv v rule.config.stageThreshold).floor : Rat) ≤
        ((jsDiv w rule.config.stageThreshold).floor : Rat) :=
      Int.cast_le.mpr (Rat.floor_monotone (jsDiv_mono_left (hpos.trans hlow) hpos hvw))
    exact (reached_iff_floor hb).mpr ⟨hlow.trans hvw, hfloor.trans hfloors⟩

/-! ## Two claims -/

section TwoClaims

variable {docs : List RewardRuleDocument} {rules : List RewardRule} {a b : Activity}
  {past : List String} (haccepted : AcceptedRules docs) (hbuilt : List.Forall₂ Built docs rules)
  (hstages : OneMetricPerStage docs) (hle : a.Le b)

/-- Stage rules of one threshold are reached together. -/
theorem OneMetricPerStage.config_eq {d d' : RewardRuleDocument} {c c' : StageRuleConfig}
    (hstages : OneMetricPerStage docs) (hd : d ∈ docs) (hd' : d' ∈ docs)
    (hc : d.config = .stage c) (hc' : d'.config = .stage c')
    (ht : c.stageThreshold = c'.stageThreshold) : c = c' := by
  have hmetric := hstages d hd d' hd' c c' hc hc' ht
  cases c
  cases c'
  simp_all

include haccepted hbuilt hstages hle

/-- What a rule grants with the lower counters it has granted, or grants, with the higher. -/
theorem grants_with_more {before after : List RewardRuleDocument} {doc : RewardRuleDocument}
    (hdocs : docs = before ++ doc :: after)
    (hsub : ∀ id ∈ turn a past rules before, id ∈ turn b past rules before)
    (h : docGrants rules a doc (turn a past rules before) = true) :
    doc._id.toString ∈ turn b past rules before ∨
      docGrants rules b doc (turn b past rules before) = true := by
  have hdoc : doc ∈ docs := by simp [hdocs]
  by_cases hid : doc._id.toString ∈ turn b past rules before
  · exact Or.inl hid
  right
  cases hc : doc.config with
  | perCondition config =>
    rw [docGrants_perCondition _ hc] at h ⊢
    exact ⟨hid, hle.jsLess h.2⟩
  | stage config =>
    rw [docGrants_stage_iff _ hbuilt hc] at h ⊢
    obtain ⟨-, hreached, hclear⟩ := h
    have hone := (haccepted.threshold hdoc
      (show doc.config.target = some (config.metric, config.stageThreshold) by rw [hc]; rfl)).2
    refine ⟨hid, hle.reached (zero_le_one.trans hone) hreached, ?_⟩
    intro d hd c hdc ht hmem
    rcases mem_turn_cases b past haccepted.ids hbuilt hdocs hd hmem with hpast | ⟨hbefore, -⟩
    · exact hclear d hd c hdc ht (mem_turn_of_past a past before hpast)
    · -- an earlier stage rule of the threshold is reached with the lower counters too
      have hsame := hstages.config_eq hd hdoc hdc hc ht
      subst hsame
      obtain ⟨before₁, before₂, rfl⟩ := List.append_of_mem hbefore
      obtain ⟨d', hd', c', hdc', ht', hmem'⟩ :=
        thresholdHeld_behind a past hbuilt hd hdc hreached before₁ before₂
      exact hclear d' hd' c' hdc' ht' hmem'
  | final config =>
    rw [docGrants_final _ hc] at h ⊢
    refine ⟨hid, ?_⟩
    rw [List.all_eq_true] at h ⊢
    intro rid hrid
    obtain ⟨id, rfl, hmem⟩ := hasElement_iff.mp (h.2 rid hrid)
    exact hasElement_iff.mpr ⟨id, rfl, hsub id hmem⟩
  | unsupported ruleType =>
    rw [docGrants_unsupported _ hc] at h
    cases h

theorem turn_le {before after : List RewardRuleDocument} (hdocs : docs = before ++ after) :
    ∀ id ∈ turn a past rules before, id ∈ turn b past rules before :=
  heldAfter_le _ (fun _ _ _ hsplit hsub hgrants =>
    grants_with_more haccepted hbuilt hstages hle hsplit hsub hgrants) hdocs

/-- What the first claim held at its end makes no difference to a rule that it has not
granted. -/
theorem grants_after_first (hlast : FinalsLast (docs.map RewardRuleDocument.key))
    {before after : List RewardRuleDocument} {doc : RewardRuleDocument}
    (hdocs : docs = before ++ doc :: after)
    (hnew : doc._id.toString ∉ turn a past rules docs) {larger : List String}
    (hlarger : ∀ id, id ∈ larger ↔ id ∈ turn b past rules before ∨ id ∈ turn a past rules docs) :
    docGrants rules b doc larger = docGrants rules b doc (turn b past rules before) := by
  have hdoc : doc ∈ docs := by simp [hdocs]
  have hsub : ∀ id ∈ turn a past rules before, id ∈ turn b past rules before :=
    turn_le haccepted hbuilt hstages hle hdocs
  have hown : doc._id.toString ∈ larger ↔ doc._id.toString ∈ turn b past rules before := by
    rw [hlarger]
    exact or_iff_left hnew
  -- the first claim came to the rule and refused it
  have hrefused : docGrants rules a doc (turn a past rules before) = false := by
    rw [Bool.eq_false_iff]
    intro hgrant
    apply hnew
    have hheld := key_mem_heldAfter (fun doc : RewardRuleDocument => doc._id.toString)
      (docGrants rules a) after hgrant
    rw [← hdocs] at hheld
    exact hheld
  rw [Bool.eq_iff_iff]
  cases hc : doc.config with
  | perCondition config =>
    rw [docGrants_perCondition _ hc, docGrants_perCondition _ hc, hown]
  | stage config =>
    rw [docGrants_stage_iff _ hbuilt hc, docGrants_stage_iff _ hbuilt hc, hown]
    constructor
    · rintro ⟨hid, hreached, hclear⟩
      refine ⟨hid, hreached, ?_⟩
      intro d hd c hdc ht hmem
      exact hclear d hd c hdc ht ((hlarger _).mpr (Or.inl hmem))
    · rintro ⟨hid, hreached, hclear⟩
      refine ⟨hid, hreached, ?_⟩
      intro d hd c hdc ht hmem
      rcases (hlarger _).mp hmem with hin | hfirst
      · exact hclear d hd c hdc ht hin
      rw [← pastOrNew_iff_mem_turn hbuilt] at hfirst
      rcases hfirst with hpast | hgranted
      · exact hclear d hd c hdc ht (mem_turn_of_past b past before hpast)
      · -- a stage rule of the threshold that the first claim was granted is reached, and
        -- so is this rule: the first claim found the threshold held when it came here
        have hsame := hstages.config_eq hd hdoc hdc hc ht
        subst hsame
        obtain ⟨before₁, after₁, hsplit⟩ := List.append_of_mem hd
        rw [newAchieved_iff a past haccepted.ids hbuilt hsplit,
          docGrants_stage_iff a hbuilt hdc] at hgranted
        obtain ⟨d', hd', c', hdc', ht', hmem'⟩ :=
          thresholdHeld_of_refused a hbuilt hdoc hc hgranted.2.1 (Bool.eq_false_iff.mp hrefused)
        exact hclear d' hd' c' hdc' ht' (hsub _ hmem')
  | final config =>
    rw [docGrants_final _ hc, docGrants_final _ hc, hown]
    have hkeys : docs.map RewardRuleDocument.key = before.map RewardRuleDocument.key ++
        doc.key :: after.map RewardRuleDocument.key := by
      rw [hdocs, List.map_append, List.map_cons]
    apply and_congr_right
    intro _
    rw [List.all_eq_true, List.all_eq_true]
    apply forall₂_congr
    intro rid hrid
    cases rid with
    | other text => simp [hasElement]
    | str id =>
      simp only [hasElement, List.contains_iff_mem, hlarger]
      apply or_iff_left_of_imp
      intro hfirst
      by_cases hbefore : id ∈ turn a past rules before
      · exact hsub id hbefore
      · rw [hdocs] at hfirst
        obtain ⟨later, hlater, rfl⟩ := key_mem_later _ _ hrefused hbefore hfirst
        exact absurd hrid (hlast _ _ _ hkeys config hc later.key (List.mem_map_of_mem hlater))
  | unsupported ruleType =>
    rw [docGrants_unsupported _ hc, docGrants_unsupported _ hc]

/-- A second claim ends with the ids that one claim with its counters ends with. -/
theorem pastOrNew_second (hlast : FinalsLast (docs.map RewardRuleDocument.key))
    {past' : List String} (hpast : ∀ id, id ∈ past' ↔ PastOrNew rules a past id) (id : String) :
    PastOrNew rules b past' id ↔ PastOrNew rules b past id := by
  have hstart : ∀ id, id ∈ setOf past' ↔ id ∈ turn a past rules docs := by
    intro id
    rw [mem_setOf, hpast, pastOrNew_iff_mem_turn hbuilt]
  have hsecond : id ∈ turn b past' rules docs ↔
      id ∈ turn b past rules docs ∨ id ∈ setOf past' := by
    refine second_pass_held (fun doc : RewardRuleDocument => doc._id.toString)
      (docGrants_fresh rules b) ?_ ?_ (List.append_nil docs).symm id
    · intro k hk
      rw [hstart]
      exact held_subset_heldAfter _ _ docs (setOf past) k hk
    · intro before x after hdocs hx larger hlarger
      apply grants_after_first haccepted hbuilt hstages hle hlast hdocs
      · rwa [← hstart]
      · intro k
        rw [hlarger, hstart]
        rfl
  rw [pastOrNew_iff_mem_turn hbuilt, pastOrNew_iff_mem_turn hbuilt, hsecond, hstart]
  apply or_iff_left_of_imp
  exact turn_le haccepted hbuilt hstages hle (List.append_nil docs).symm id

end TwoClaims

/-! ## Any number of claims -/

/-- The documents of the rules that the claims are granted, claim by claim. -/
def grantedInstalments (rules : List RewardRule) (docs : List RewardRuleDocument) :
    List Activity → List String → List RewardRuleDocument
  | [], _ => []
  | activity :: activities, past =>
    grantedDocs rules activity docs past ++ grantedInstalments rules docs activities
      (past ++ (grantedDocs rules activity docs past).map fun doc => doc._id.toString)

section Claims

variable {docs : List RewardRuleDocument} {rules : List RewardRule}

theorem instalments_eq (hbuilt : List.Forall₂ Built docs rules) (activities : List Activity)
    (past : List String) :
    RewardEngine.instalments rules activities past =
      ⟨(grantedInstalments rules docs activities past).map (fun doc => doc._id.toString),
        (grantedInstalments rules docs activities past).flatMap
          RewardRuleDocument.rewardItems⟩ := by
  induction activities generalizing past with
  | nil => rfl
  | cons activity activities ih =>
    simp only [RewardEngine.instalments, grantedInstalments, run_eq_grantedDocs hbuilt, ih,
      List.map_append, List.flatMap_append]

theorem grantedDocs_fresh {activity : Activity} {past : List String} {doc : RewardRuleDocument}
    (h : doc ∈ grantedDocs rules activity docs past) : doc._id.toString ∉ past := by
  have hfresh := key_not_mem_held _ _ (docGrants_fresh rules activity) h
  rwa [mem_setOf] at hfresh

/-- No claim is granted what an earlier one was granted, or what was paid before. -/
theorem grantedInstalments_fresh (activities : List Activity) (past : List String) :
    ((grantedInstalments rules docs activities past).map fun doc => doc._id.toString).Nodup ∧
      ∀ doc ∈ grantedInstalments rules docs activities past,
        doc ∈ docs ∧ doc._id.toString ∉ past := by
  induction activities generalizing past with
  | nil => simp [grantedInstalments]
  | cons activity activities ih =>
    obtain ⟨hnodup, hrest⟩ := ih
      (past ++ (grantedDocs rules activity docs past).map fun doc => doc._id.toString)
    simp only [grantedInstalments]
    constructor
    · rw [List.map_append, List.nodup_append]
      refine ⟨choose_keys_nodup _ _ (docGrants_fresh rules activity) docs _, hnodup, ?_⟩
      intro id hid id' hid' heq
      obtain ⟨doc', hdoc', rfl⟩ := List.mem_map.mp hid'
      exact (hrest doc' hdoc').2 (List.mem_append_right _ (heq ▸ hid))
    · intro doc hdoc
      rcases List.mem_append.mp hdoc with hfirst | hlater
      · exact ⟨(choose_sublist _ _ docs _).subset hfirst, grantedDocs_fresh hfirst⟩
      · exact ⟨(hrest doc hlater).1, fun hpast => (hrest doc hlater).2
          (List.mem_append_left _ hpast)⟩

theorem grantedDocs_once (activity : Activity) (past : List String) :
    ((grantedDocs rules activity docs past).map fun doc => doc._id.toString).Nodup ∧
      ∀ doc ∈ grantedDocs rules activity docs past, doc ∈ docs ∧ doc._id.toString ∉ past :=
  ⟨choose_keys_nodup _ _ (docGrants_fresh rules activity) docs _,
    fun _ hdoc => ⟨(choose_sublist _ _ docs _).subset hdoc, grantedDocs_fresh hdoc⟩⟩

/-- New rules of the event without repetition are told by their ids. -/
theorem granted_perm (haccepted : AcceptedRules docs) {past : List String}
    {granted granted' : List RewardRuleDocument}
    (h : (granted.map fun doc => doc._id.toString).Nodup ∧
      ∀ doc ∈ granted, doc ∈ docs ∧ doc._id.toString ∉ past)
    (h' : (granted'.map fun doc => doc._id.toString).Nodup ∧
      ∀ doc ∈ granted', doc ∈ docs ∧ doc._id.toString ∉ past)
    (hids : ∀ id, id ∈ past ∨ id ∈ granted.map (fun doc => doc._id.toString) ↔
      id ∈ past ∨ id ∈ granted'.map (fun doc => doc._id.toString)) : granted.Perm granted' := by
  have hsub : ∀ l l' : List RewardRuleDocument,
      (∀ doc ∈ l, doc ∈ docs ∧ doc._id.toString ∉ past) →
      (∀ doc ∈ l', doc ∈ docs ∧ doc._id.toString ∉ past) →
      (∀ id, id ∈ past ∨ id ∈ l.map (fun doc => doc._id.toString) →
        id ∈ past ∨ id ∈ l'.map (fun doc => doc._id.toString)) → ∀ doc ∈ l, doc ∈ l' := by
    intro l l' hl hl' himp doc hdoc
    obtain ⟨hmem, hnew⟩ := hl doc hdoc
    rcases himp _ (Or.inr (List.mem_map_of_mem hdoc)) with hpast | hin
    · exact absurd hpast hnew
    · obtain ⟨d, hd, hkey⟩ := List.mem_map.mp hin
      have hsame : d = doc :=
        List.inj_on_of_nodup_map (keys_nodup haccepted.ids) (hl' d hd).1 hmem hkey
      exact hsame ▸ hd
  rw [List.perm_ext_iff_of_nodup (h.1.of_map _) (h'.1.of_map _)]
  intro doc
  constructor
  · exact hsub granted granted' h.2 h'.2 (fun id => (hids id).mp) doc
  · exact hsub granted' granted h'.2 h.2 (fun id => (hids id).mpr) doc

variable (haccepted : AcceptedRules docs) (hbuilt : List.Forall₂ Built docs rules)
  (hstages : OneMetricPerStage docs) (hlast : FinalsLast (docs.map RewardRuleDocument.key))
  {b : Activity}
include haccepted hbuilt hstages hlast

theorem mem_instalments_iff {activities : List Activity} (hle : ∀ a ∈ activities, a.Le b)
    (past : List String) (id : String) :
    id ∈ past ∨ id ∈ (RewardEngine.instalments rules (activities ++ [b])
      past).newAchievedRuleIds ↔ PastOrNew rules b past id := by
  induction activities generalizing past with
  | nil => simp [RewardEngine.instalments, PastOrNew]
  | cons a activities ih =>
    have hrest := ih (fun a' ha' => hle a' (List.mem_cons_of_mem a ha'))
      (past ++ (RewardEngine.run rules a past).newAchievedRuleIds)
    rw [pastOrNew_second haccepted hbuilt hstages (hle a List.mem_cons_self) hlast
      (fun id => List.mem_append)] at hrest
    rw [← hrest]
    simp only [List.cons_append, RewardEngine.instalments, List.mem_append]
    exact or_assoc.symm

end Claims

/-- Any number of claims, none with a counter above those of the last one, are granted
together the rules and the items that the last one alone would be granted. -/
theorem instalments_pay_the_same (event : EventDocument) (h : AcceptedRules event.rewardRules)
    (hlast : FinalsLast (event.rewardRules.map RewardRuleDocument.key))
    (hstages : OneMetricPerStage event.rewardRules) (rules : List RewardRule)
    (hrules : createRulesFromDocs event.rewardRules = .ok rules) (activities : List Activity)
    (final : Activity) (hle : ∀ activity ∈ activities, activity.Le final) (past : List String) :
    let claims := RewardEngine.instalments rules (activities ++ [final]) past
    let once := RewardEngine.run rules final past
    claims.newAchievedRuleIds.Perm once.newAchievedRuleIds ∧ claims.rewards.Perm once.rewards := by
  have hbuilt := createRulesFromDocs_built hrules
  have hids := fun id => mem_instalments_iff h hbuilt hstages hlast hle past id
  simp only [PastOrNew, instalments_eq hbuilt, run_eq_grantedDocs hbuilt] at hids ⊢
  have hperm := granted_perm h (grantedInstalments_fresh (activities ++ [final]) past)
    (grantedDocs_once final past) hids
  exact ⟨hperm.map _, hperm.flatMap_right _⟩

theorem instalments_pay_the_same_sample :
    ∃ rules, createRulesFromDocs Sample.event.rewardRules = .ok rules ∧
      (RewardEngine.instalments rules [⟨3, 0, 0⟩, ⟨4, 1, 0⟩, ⟨5, 4, 0⟩] []).rewards.Perm
        (RewardEngine.run rules ⟨5, 4, 0⟩ []).rewards := by
  have hevent : Sample.event ∈ Sample.state.db.events := by simp [Sample.state_events]
  have haccepted := Sample.state_reachable.acceptedRules hevent
  obtain ⟨rules, hrules⟩ := haccepted.built
  have hlast : FinalsLast (Sample.event.rewardRules.map RewardRuleDocument.key) :=
    prerequisitesFirst_of_run (by decide +kernel) Sample.state_run Sample.event hevent
  have hstages : OneMetricPerStage Sample.event.rewardRules := by
    intro d hd d' hd' c c' hc hc' _
    simp only [Sample.event, List.mem_cons, List.not_mem_nil, or_false] at hd hd'
    rcases hd with rfl | rfl | rfl | rfl <;> cases hc <;>
      rcases hd' with rfl | rfl | rfl | rfl <;> cases hc' <;> rfl
  refine ⟨rules, hrules, ?_⟩
  have hle : ∀ activity ∈ ([⟨3, 0, 0⟩, ⟨4, 1, 0⟩] : List Activity), activity.Le ⟨5, 4, 0⟩ := by
    intro activity hmem
    simp only [List.mem_cons, List.not_mem_nil, or_false] at hmem
    rcases hmem with rfl | rfl <;> constructor <;> decide +kernel
  exact (instalments_pay_the_same Sample.event haccepted hlast hstages rules hrules _ _ hle []).2

end MapleRewards
