import MapleRewards.AddReward

/-!
# Final bonuses after one pass

`addReward` puts a new rule at the end of its event and gives it an id that no stored
FINAL rule can have named. So prerequisites stand before the rules that wait for them,
and the one pass of the engine leaves no bonus open.
-/
namespace MapleRewards

open OnePass SnapshotStore LabelledRuns

/-- A FINAL rule of the store names the id among its prerequisites. -/
def Db.namesRule (db : Db) (ruleId : ObjectId) : Bool :=
  db.events.any fun event => event.rewardRules.any fun rule =>
    match rule.config with
    | .final config => config.prerequisiteRuleIds.contains (.str ruleId.toString)
    | _ => false

/-- The id generated by an `addReward` that commits has not been named before. -/
def newIdUnnamed {κ : Type} (s : ServiceState κ) : SnapshotStore.Event κ Command → Bool
  | .commit c =>
    match s.active c with
    | some (.addReward _ newRuleId, _) => !s.db.namesRule newRuleId
    | _ => true
  | _ => true

/-! ## Prerequisites come first -/

def Db.PrerequisitesFirst (db : Db) : Prop :=
  ∀ event ∈ db.events, FinalsLast (event.rewardRules.map RewardRuleDocument.key)

theorem not_mem_prerequisites_of_unnamed {db : Db} {ruleId : ObjectId}
    (h : db.namesRule ruleId = false) {event : EventDocument} (hevent : event ∈ db.events)
    {rule : RewardRuleDocument} (hrule : rule ∈ event.rewardRules) {config : FinalRuleConfig}
    (hc : rule.config = .final config) :
    JsonElement.str ruleId.toString ∉ config.prerequisiteRuleIds := by
  intro hmem
  have hnamed : db.namesRule ruleId = true := by
    simp only [Db.namesRule, List.any_eq_true]
    refine ⟨event, hevent, rule, hrule, ?_⟩
    simp [hc, hmem]
  rw [hnamed] at h
  cases h

theorem FinalsLast.nil : FinalsLast [] := by
  intro before k after hkeys
  simp at hkeys

/-- A rule whose id is not named before it may be put at the end. -/
theorem FinalsLast.concat {keys : List (ObjectId × RuleConfig)} {new : ObjectId × RuleConfig}
    (h : FinalsLast keys) (hunnamed : ∀ k ∈ keys, ∀ config, k.2 = .final config →
      JsonElement.str new.1.toString ∉ config.prerequisiteRuleIds) :
    FinalsLast (keys ++ [new]) := by
  intro before k after hkeys config hc k' hk'
  rcases List.eq_nil_or_concat after with rfl | ⟨middle, last, rfl⟩
  · cases hk'
  · rw [List.concat_eq_append] at hkeys hk'
    have hsplit : keys ++ [new] = (before ++ k :: middle) ++ [last] := by
      rw [hkeys]
      simp
    obtain ⟨rfl, hlast⟩ := List.append_inj' hsplit rfl
    cases hlast
    rcases List.mem_append.mp hk' with hmiddle | hnew
    · exact h before k middle rfl config hc k' hmiddle
    · cases List.mem_singleton.mp hnew
      exact hunnamed k (by simp) config hc

theorem prerequisitesFirst_commit {κ : Type} {s : ServiceState κ} {c : κ} {command : Command}
    {snap db' : Db} (hfresh : newIdUnnamed s (.commit c) = true)
    (hactive : s.active c = some (command, snap)) (hfirst : s.db.PrerequisitesFirst)
    (h : perform command snap s.db = some db') : db'.PrerequisitesFirst := by
  intro event' hevent'
  cases perform_rulesFrom h hevent' with
  | nothing hrules =>
    rw [hrules]
    exact FinalsLast.nil
  | same event hevent hkeys =>
    rw [hkeys]
    exact hfirst event hevent
  | added event hevent dto newRuleId ruleType input config hcommand hconfig hkeys =>
    subst hcommand
    have hunnamed : s.db.namesRule newRuleId = false := by
      simpa [newIdUnnamed, hactive] using hfresh
    rw [hkeys]
    apply (hfirst event hevent).concat
    intro k hk config hc
    obtain ⟨rule, hrule, rfl⟩ := List.mem_map.mp hk
    exact not_mem_prerequisites_of_unnamed hunnamed hevent hrule hc

theorem prerequisitesFirst_of_run {κ : Type} [DecidableEq κ]
    {es : List (SnapshotStore.Event κ Command)} {s : ServiceState κ}
    (hfresh : Guarded (step perform) (fun s e => newIdUnnamed s e = true) es (initial Db.empty))
    (hrun : run (step perform) es (initial Db.empty) = some s) : s.db.PrerequisitesFirst :=
  run_store_guarded Db.PrerequisitesFirst
    (fun _ _ _ _ _ hG hactive hfirst hperform =>
      prerequisitesFirst_commit hG hactive hfirst hperform)
    (by simp [Db.PrerequisitesFirst, initial, Db.empty]) hfresh hrun

/-! ## One pass -/

/-- The id was paid before the run or is granted by it. -/
def PastOrNew (rules : List RewardRule) (activity : Activity) (past : List String) (id : String) :
    Prop :=
  id ∈ past ∨ id ∈ (RewardEngine.run rules activity past).newAchievedRuleIds

section OnePass

variable {docs : List RewardRuleDocument} {rules : List RewardRule} {activity : Activity}
  {past : List String}

/-- The set at the end of a run holds the past ids and the new ones. -/
theorem pastOrNew_iff_mem_turn (hbuilt : List.Forall₂ Built docs rules) {id : String} :
    PastOrNew rules activity past id ↔ id ∈ turn activity past rules docs := by
  rw [PastOrNew, run_eq_grantedDocs hbuilt, turn, heldAfter, List.mem_append, mem_setOf]
  rfl

/-- What a FINAL rule finds missing on its turn, and the set holds at the end, is the id of
a later rule; where prerequisites come first there is none. -/
theorem final_settled (hids : (docs.map RewardRuleDocument._id).Nodup)
    (hbuilt : List.Forall₂ Built docs rules)
    (hfirst : FinalsLast (docs.map RewardRuleDocument.key)) {rule : RewardRuleDocument}
    (hrule : rule ∈ docs) {config : FinalRuleConfig} (hc : rule.config = .final config) :
    PastOrNew rules activity past rule._id.toString ↔ rule._id.toString ∈ past ∨
      ∀ rid ∈ config.prerequisiteRuleIds,
        ∃ id, rid = .str id ∧ PastOrNew rules activity past id := by
  obtain ⟨before, after, hdocs⟩ := List.append_of_mem hrule
  have hlater : ∀ id ∈ turn activity past rules before, PastOrNew rules activity past id := by
    intro id hid
    rw [pastOrNew_iff_mem_turn hbuilt, hdocs]
    exact heldAfter_mono _ _ before (rule :: after) (setOf past) id hid
  constructor
  · rintro (hpast | hnew)
    · exact Or.inl hpast
    · right
      rw [newAchieved_iff activity past hids hbuilt hdocs, docGrants_final activity hc] at hnew
      intro rid hrid
      obtain ⟨id, hstr, hid⟩ := hasElement_iff.mp (List.all_eq_true.mp hnew.2 rid hrid)
      exact ⟨id, hstr, hlater id hid⟩
  · rintro (hpast | hall)
    · exact Or.inl hpast
    · by_cases hturn : rule._id.toString ∈ turn activity past rules before
      · exact hlater _ hturn
      · right
        rw [newAchieved_iff activity past hids hbuilt hdocs]
        by_contra hnot
        have hrefused := Bool.eq_false_iff.mpr hnot
        obtain ⟨rid, hrid, hmissing⟩ := exists_missing_prerequisite activity hc hturn hrefused
        obtain ⟨id, rfl, hid⟩ := hall rid hrid
        rw [pastOrNew_iff_mem_turn hbuilt, hdocs] at hid
        have hmissing : id ∉ turn activity past rules before := by
          simpa [hasElement] using hmissing
        obtain ⟨later, hmem, rfl⟩ := key_mem_later _ _ hrefused hmissing hid
        have hkeys : docs.map RewardRuleDocument.key = before.map RewardRuleDocument.key ++
            rule.key :: after.map RewardRuleDocument.key := by
          rw [hdocs, List.map_append, List.map_cons]
        exact hfirst _ _ _ hkeys config hc later.key (List.mem_map_of_mem hmem) hrid

end OnePass

/-- In every state that a run with unnamed new ids reaches, a run of the engine on the rules
of an event grants every FINAL rule whose prerequisites it has left granted, and no other. -/
theorem final_bonus_settled {κ : Type} [DecidableEq κ]
    {es : List (SnapshotStore.Event κ Command)} {s : ServiceState κ}
    (hrun : run (step perform) es (initial Db.empty) = some s)
    (hfresh : Guarded (step perform) (fun s e => newIdUnnamed s e = true) es (initial Db.empty))
    {event : EventDocument} (hevent : event ∈ s.db.events) (activity : Activity)
    (past : List String) :
    ∃ rules, createRulesFromDocs event.rewardRules = .ok rules ∧
      ∀ rule ∈ event.rewardRules, ∀ config, rule.config = .final config →
        (PastOrNew rules activity past rule._id.toString ↔ rule._id.toString ∈ past ∨
          ∀ rid ∈ config.prerequisiteRuleIds,
            ∃ id, rid = .str id ∧ PastOrNew rules activity past id) := by
  have hreachable : ReachableService s := ⟨es, hrun⟩
  have haccepted := hreachable.acceptedRules hevent
  obtain ⟨rules, hrules⟩ := haccepted.built
  refine ⟨rules, hrules, ?_⟩
  intro rule hrule config hc
  exact final_settled haccepted.ids (createRulesFromDocs_built hrules)
    (prerequisitesFirst_of_run hfresh hrun event hevent) hrule hc

theorem final_bonus_settled_sample :
    ∃ rules, createRulesFromDocs Sample.event.rewardRules = .ok rules ∧
      ∀ rule ∈ Sample.event.rewardRules, ∀ config, rule.config = .final config →
        (PastOrNew rules ⟨5, 4, 0⟩ [] rule._id.toString ↔ rule._id.toString ∈ ([] : List String) ∨
          ∀ rid ∈ config.prerequisiteRuleIds,
            ∃ id, rid = .str id ∧ PastOrNew rules ⟨5, 4, 0⟩ [] id) :=
  final_bonus_settled Sample.state_run (by decide +kernel) (by simp [Sample.state_events])
    ⟨5, 4, 0⟩ []

end MapleRewards
