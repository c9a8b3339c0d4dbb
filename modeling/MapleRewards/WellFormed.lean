import MapleRewards.System

/-!
# The invariant of the event store

Every request was issued for rules of its event, and what it was issued with stays
right while the event gains rules and items: the rules of an event only grow at the end.
-/
namespace MapleRewards

open Collection

/-! ## Events -/

structure RulesWellFormed (e : EventDocument) : Prop where
  ids : (e.rewardRules.map RewardRuleDocument._id).Nodup
  items : ∀ rule ∈ e.rewardRules, rule.rewardItems ≠ []

structure EventsWellFormed (events : List EventDocument) : Prop where
  ids : (events.map EventDocument._id).Nodup
  rules : ∀ e ∈ events, RulesWellFormed e

theorem EventsWellFormed.append {events : List EventDocument} (h : EventsWellFormed events)
    {event : EventDocument} (hfresh : ∀ e ∈ events, e._id ≠ event._id)
    (hrules : RulesWellFormed event) : EventsWellFormed (events ++ [event]) := by
  refine ⟨nodup_append_singleton _ h.ids hfresh, ?_⟩
  intro e he
  cases List.mem_append.mp he with
  | inl he => exact h.rules e he
  | inr he =>
    cases List.mem_singleton.mp he
    exact hrules

theorem EventsWellFormed.updateFirst {events : List EventDocument} (h : EventsWellFormed events)
    (query : EventDocument → Bool) {f : EventDocument → EventDocument}
    (hid : ∀ e, (f e)._id = e._id) (hrules : ∀ e ∈ events, RulesWellFormed (f e)) :
    EventsWellFormed (updateFirst query f events) := by
  constructor
  · rw [map_updateFirst query f EventDocument._id hid]
    exact h.ids
  · intro e he
    cases mem_updateFirst he with
    | inl he => exact h.rules e he
    | inr he =>
      obtain ⟨e', he', -, rfl⟩ := he
      exact hrules e' he'

theorem evolve_updateFirst {events : List EventDocument} (query : EventDocument → Bool)
    {f : EventDocument → EventDocument} (hf : ∀ e ∈ events, EventEvolves e (f e)) :
    ∀ e ∈ events, ∃ e' ∈ updateFirst query f events, EventEvolves e e' := by
  intro e he
  cases mem_or_mem_updateFirst query f he with
  | inl hmem => exact ⟨e, hmem, EventEvolves.refl e⟩
  | inr hmem => exact ⟨f e, hmem.2, hf e he⟩

/-- Pushing an item changes no rule's id and no config. -/
theorem pushItem_keys (ruleId : ObjectId) (rewardItem : RewardItem) (e : EventDocument) :
    (e.pushItem ruleId rewardItem).rewardRules.map RewardRuleDocument.key =
      e.rewardRules.map RewardRuleDocument.key :=
  map_updateFirst _ (RewardRuleDocument.pushItem rewardItem) RewardRuleDocument.key (fun _ => rfl)
    e.rewardRules

theorem RulesWellFormed.pushItem {e : EventDocument} (h : RulesWellFormed e) (ruleId : ObjectId)
    (rewardItem : RewardItem) : RulesWellFormed (e.pushItem ruleId rewardItem) := by
  constructor
  · have hids := map_updateFirst (fun rule => rule._id == ruleId)
      (RewardRuleDocument.pushItem rewardItem) RewardRuleDocument._id (fun _ => rfl) e.rewardRules
    simp only [EventDocument.pushItem, hids]
    exact h.ids
  · intro rule hrule
    cases mem_updateFirst hrule with
    | inl hrule => exact h.items rule hrule
    | inr hrule =>
      obtain ⟨old, -, -, rfl⟩ := hrule
      simp [RewardRuleDocument.pushItem]

theorem RulesWellFormed.pushRule {e : EventDocument} (h : RulesWellFormed e)
    {rule : RewardRuleDocument} (hitems : rule.rewardItems ≠ [])
    (hfresh : ∀ r ∈ e.rewardRules, r._id ≠ rule._id) :
    RulesWellFormed { e with rewardRules := e.rewardRules ++ [rule] } := by
  refine ⟨nodup_append_singleton _ h.ids hfresh, ?_⟩
  intro r hr
  cases List.mem_append.mp hr with
  | inl hr => exact h.items r hr
  | inr hr =>
    cases List.mem_singleton.mp hr
    exact hitems

theorem hasRule_eq_false {db : Db} {ruleId : ObjectId} (h : db.hasRule ruleId = false) :
    ∀ e ∈ db.events, ∀ rule ∈ e.rewardRules, rule._id ≠ ruleId := by
  simpa [Db.hasRule] using h

/-! ## Requests -/

/-- The fields that say how far a request has come fit together. -/
structure Lifecycle (autoReward : Bool) (r : RewardRequestDocument) : Prop where
  failed : r.status = .FAILED ↔ r.conditionMet = false
  ruleIds : r.conditionMet = false ↔ r.ruleIds = []
  rewards : r.ruleIds = [] ↔ r.rewards = []
  auto : autoReward = true → r.status ≠ .PENDING ∧ r.approvedBy = none
  manual : autoReward = false → (r.status = .SUCCESS ↔ r.approvedBy ≠ none)

/-- What stays true of a stored request of event `e`. -/
structure Sound (e : EventDocument) (r : RewardRequestDocument) : Prop where
  lifecycle : Lifecycle e.autoReward r
  nodup : r.ruleIds.Nodup
  known : ∀ id ∈ r.ruleIds, ∃ k ∈ e.rewardRules.map RewardRuleDocument.key, k.1 = id
  prerequisites : ∀ k ∈ e.rewardRules.map RewardRuleDocument.key, k.1 ∈ r.ruleIds →
    ∀ config, k.2 = .final config → ∀ rid ∈ config.prerequisiteRuleIds, ∃ id ∈ r.ruleIds,
      rid = .str id.toString
  first : ∀ k ∈ e.rewardRules.map RewardRuleDocument.key, k.1 ∈ r.ruleIds →
    ∀ config, k.2 = .stage config → FirstOfConfig (e.rewardRules.map RewardRuleDocument.key) k

structure WellFormed (db : Db) : Prop where
  events : EventsWellFormed db.events
  requestIds : (db.requests.map RewardRequestDocument._id).Nodup
  requests : ∀ r ∈ db.requests, ∃ e ∈ db.events, e._id = r.eventId ∧ Sound e r
  index : ∀ r ∈ db.requests, ∀ r' ∈ db.requests, r._id ≠ r'._id → clashes r r' = false

theorem clashes_eq_true {r r' : RewardRequestDocument} :
    clashes r r' = true ↔ r.status = .SUCCESS ∧ r'.status = .SUCCESS ∧ r.userId = r'.userId ∧
      r.eventId = r'.eventId ∧ ∃ id ∈ r.ruleIds, id ∈ r'.ruleIds := by
  simp [clashes, and_assoc]

theorem clashes_comm (r r' : RewardRequestDocument) : clashes r r' = clashes r' r := by
  rw [Bool.eq_iff_iff, clashes_eq_true, clashes_eq_true]
  constructor <;>
  · rintro ⟨hs, hs', hu, he, id, hid, hid'⟩
    exact ⟨hs', hs, hu.symm, he.symm, id, hid', hid⟩

/-- In an event whose rule ids are distinct a known id still means the same rule
after the event has gained rules. -/
theorem Sound.key_mem {e e' : EventDocument} {r : RewardRequestDocument}
    (h : Sound e r) (he : EventEvolves e e') (hids : (e'.rewardRules.map
      RewardRuleDocument._id).Nodup) {k : ObjectId × RuleConfig}
    (hk : k ∈ e'.rewardRules.map RewardRuleDocument.key) (hid : k.1 ∈ r.ruleIds) :
    k ∈ e.rewardRules.map RewardRuleDocument.key := by
  obtain ⟨k₀, hk₀, heq⟩ := h.known k.1 hid
  have hk₀' : k₀ ∈ e'.rewardRules.map RewardRuleDocument.key := he.keys.subset hk₀
  have hnd : ((e'.rewardRules.map RewardRuleDocument.key).map Prod.fst).Nodup := by
    rw [List.map_map]
    exact hids
  have hsame : k₀ = k := List.inj_on_of_nodup_map hnd hk₀' hk heq
  exact hsame ▸ hk₀

/-- A sound request stays sound while its event grows. -/
theorem Sound.mono {e e' : EventDocument} {r : RewardRequestDocument} (h : Sound e r)
    (he : EventEvolves e e') (hids : (e'.rewardRules.map RewardRuleDocument._id).Nodup) :
    Sound e' r where
  lifecycle := he.autoReward ▸ h.lifecycle
  nodup := h.nodup
  known := by
    intro id hid
    obtain ⟨k, hk, heq⟩ := h.known id hid
    exact ⟨k, he.keys.subset hk, heq⟩
  prerequisites := by
    intro k hk hid
    exact h.prerequisites k (h.key_mem he hids hk hid) hid
  first := by
    intro k hk hid config hc
    exact (h.first k (h.key_mem he hids hk hid) hid config hc).mono he.keys

theorem decideStatus_eq (autoReward : Bool) (ids : List String) (rewards : List RewardItem) :
    decideStatus autoReward ids rewards =
      if ids = [] ∨ rewards = [] then (.FAILED, false)
      else (if autoReward then .SUCCESS else .PENDING, true) := by
  cases ids with
  | nil => simp [decideStatus]
  | cons id ids =>
    cases rewards with
    | nil => simp [decideStatus]
    | cons item items => cases autoReward <;> simp [decideStatus]

/-- Every stored rule has an item, so the granted rules and the rewards are empty together. -/
theorem flatMap_rewardItems_eq_nil {granted : List RewardRuleDocument}
    (hitems : ∀ doc ∈ granted, doc.rewardItems ≠ []) :
    granted.flatMap RewardRuleDocument.rewardItems = [] ↔ granted = [] := by
  cases granted with
  | nil => simp
  | cons doc docs => simp [hitems doc List.mem_cons_self]

theorem IssuedFrom.lifecycle {snap : Db} {event : EventDocument}
    {granted : List RewardRuleDocument} {r : RewardRequestDocument}
    (h : IssuedFrom snap event granted r) (hrules : RulesWellFormed event) :
    Lifecycle event.autoReward r := by
  have hitems : ∀ doc ∈ granted, doc.rewardItems ≠ [] :=
    fun doc hdoc => hrules.items doc (h.grants.sublist.subset hdoc)
  have hempty : r.rewards = [] ↔ granted = [] := by
    rw [h.rewards]
    exact flatMap_rewardItems_eq_nil hitems
  have hids : r.ruleIds = [] ↔ granted = [] := by simp [h.ruleIds]
  have hstatus := h.status
  simp only [decideStatus_eq, List.map_eq_nil_iff, hempty, or_self] at hstatus
  by_cases hg : granted = []
  · rw [if_pos hg, Prod.mk.injEq] at hstatus
    obtain ⟨hs, hc⟩ := hstatus
    constructor <;> simp [hs, hc, hids, hempty, hg, h.approvedBy]
  · rw [if_neg hg, Prod.mk.injEq] at hstatus
    obtain ⟨hs, hc⟩ := hstatus
    cases hauto : event.autoReward <;> rw [hauto] at hs <;> constructor <;>
      simp_all [h.approvedBy]

/-- A request is sound for its event the moment it is issued. -/
theorem IssuedFrom.sound {snap : Db} {event : EventDocument} {granted : List RewardRuleDocument}
    {r : RewardRequestDocument} (h : IssuedFrom snap event granted r)
    (hrules : RulesWellFormed event) : Sound event r := by
  -- a granted id leads back to one rule of the event
  have hdoc : ∀ doc ∈ event.rewardRules, doc._id ∈ r.ruleIds → doc ∈ granted := by
    intro doc hdoc hid
    rw [h.ruleIds] at hid
    obtain ⟨doc', hdoc', heq⟩ := List.mem_map.mp hid
    have hsame := List.inj_on_of_nodup_map hrules.ids (h.grants.sublist.subset hdoc') hdoc heq
    exact hsame ▸ hdoc'
  refine ⟨h.lifecycle hrules, ?_, ?_, ?_, ?_⟩
  · rw [h.ruleIds]
    exact h.grants.nodup
  · intro id hid
    rw [h.ruleIds] at hid
    obtain ⟨doc, hdoc, rfl⟩ := List.mem_map.mp hid
    exact ⟨doc.key, List.mem_map_of_mem (h.grants.sublist.subset hdoc), rfl⟩
  · intro k hk hid config hc rid hrid
    obtain ⟨doc, hmem, rfl⟩ := List.mem_map.mp hk
    obtain ⟨id, rfl, hwhere⟩ :=
      h.grants.prerequisites doc (hdoc doc hmem hid) config hc rid hrid
    cases hwhere with
    | inl hpast => cases hpast
    | inr hnew =>
      obtain ⟨d, hd, rfl⟩ := hnew
      refine ⟨d._id, ?_, rfl⟩
      rw [h.ruleIds]
      exact List.mem_map_of_mem hd
  · intro k hk hid config hc
    obtain ⟨doc, hmem, rfl⟩ := List.mem_map.mp hk
    exact h.grants.first doc (hdoc doc hmem hid) config hc

/-! ## Every command keeps the invariant -/

theorem WellFormed.empty : WellFormed Db.empty :=
  ⟨⟨List.nodup_nil, by simp [Db.empty]⟩, List.nodup_nil, by simp [Db.empty], by simp [Db.empty]⟩

theorem WellFormed.event_unique {db : Db} (h : WellFormed db) {e e' : EventDocument}
    (he : e ∈ db.events) (he' : e' ∈ db.events) (hid : e._id = e'._id) : e = e' :=
  List.inj_on_of_nodup_map h.events.ids he he' hid

/-- A request sound in an earlier store is sound in a later one. -/
theorem Evolves.sound {db db' : Db} (h : Evolves db db') (hevents : EventsWellFormed db'.events)
    {r : RewardRequestDocument} (hr : ∃ e ∈ db.events, e._id = r.eventId ∧ Sound e r) :
    ∃ e ∈ db'.events, e._id = r.eventId ∧ Sound e r := by
  obtain ⟨e, he, hid, hsound⟩ := hr
  obtain ⟨e', he', hee'⟩ := h.events e he
  exact ⟨e', he', hee'._id.trans hid, hsound.mono hee' (hevents.rules e' he').ids⟩

/-- A step that leaves the requests alone. -/
theorem WellFormed.of_requests_eq {db db' : Db} (h : WellFormed db)
    (hevents : EventsWellFormed db'.events)
    (hevolve : ∀ e ∈ db.events, ∃ e' ∈ db'.events, EventEvolves e e')
    (hreq : db'.requests = db.requests) : WellFormed db' ∧ Evolves db db' := by
  have hev : Evolves db db' := ⟨hevolve, hreq ▸ List.prefix_rfl⟩
  refine ⟨⟨hevents, hreq ▸ h.requestIds, ?_, hreq ▸ h.index⟩, hev⟩
  intro r hr
  exact hev.sound hevents (h.requests r (hreq ▸ hr))

/-- A step that stores a new event. -/
theorem WellFormed.insertEvent {db : Db} (h : WellFormed db) {event : EventDocument}
    (hrules : event.rewardRules = []) (hfresh : ∀ e ∈ db.events, e._id ≠ event._id) :
    WellFormed { db with events := db.events ++ [event] } ∧
      Evolves db { db with events := db.events ++ [event] } := by
  have hwf : RulesWellFormed event := ⟨by simp [hrules], by simp [hrules]⟩
  refine h.of_requests_eq (h.events.append hfresh hwf) ?_ rfl
  intro e he
  exact ⟨e, List.mem_append_left _ he, EventEvolves.refl e⟩

/-- A step that updates one event and leaves the requests alone. -/
theorem WellFormed.updateEvent {db : Db} (h : WellFormed db) (query : EventDocument → Bool)
    {f : EventDocument → EventDocument} (hid : ∀ e, (f e)._id = e._id)
    (hrules : ∀ e ∈ db.events, RulesWellFormed (f e))
    (hevolve : ∀ e ∈ db.events, EventEvolves e (f e)) :
    WellFormed { db with events := updateFirst query f db.events } ∧
      Evolves db { db with events := updateFirst query f db.events } :=
  h.of_requests_eq (h.events.updateFirst query hid hrules) (evolve_updateFirst query hevolve) rfl

/-- A step that stores a new request. -/
theorem WellFormed.insertRequest {snap db : Db} (hsnap : WellFormed snap) (h : WellFormed db)
    (hev : Evolves snap db) {event : EventDocument} {granted : List RewardRuleDocument}
    {r : RewardRequestDocument} (hr : IssuedFrom snap event granted r)
    (hfree : ∀ r' ∈ db.requests, r'._id ≠ r._id ∧ clashes r' r = false) :
    WellFormed { db with requests := db.requests ++ [r] } ∧
      Evolves db { db with requests := db.requests ++ [r] } := by
  have hgrow : Evolves db { db with requests := db.requests ++ [r] } :=
    ⟨fun e he => ⟨e, he, EventEvolves.refl e⟩, List.prefix_append _ _⟩
  refine ⟨⟨h.events, ?_, ?_, ?_⟩, hgrow⟩
  · exact nodup_append_singleton _ h.requestIds fun r' hr' => (hfree r' hr').1
  · intro r' hr'
    cases List.mem_append.mp hr' with
    | inl hold => exact hgrow.sound h.events (h.requests r' hold)
    | inr hnew =>
      cases List.mem_singleton.mp hnew
      have hissued := hr.sound (hsnap.events.rules event hr.event_mem)
      exact (hev.trans hgrow).sound h.events ⟨event, hr.event_mem, hr.event_id, hissued⟩
  · intro r₁ hr₁ r₂ hr₂ hne
    cases List.mem_append.mp hr₁ with
    | inl hold₁ =>
      cases List.mem_append.mp hr₂ with
      | inl hold₂ => exact h.index r₁ hold₁ r₂ hold₂ hne
      | inr hnew₂ =>
        cases List.mem_singleton.mp hnew₂
        exact (hfree r₁ hold₁).2
    | inr hnew₁ =>
      cases List.mem_singleton.mp hnew₁
      cases List.mem_append.mp hr₂ with
      | inl hold₂ =>
        rw [clashes_comm]
        exact (hfree r₂ hold₂).2
      | inr hnew₂ =>
        cases List.mem_singleton.mp hnew₂
        exact absurd rfl hne

/-- Any committed command, from any earlier good snapshot, keeps the invariant. -/
theorem perform_preserves : SnapshotStore.Preserves perform WellFormed Evolves where
  refl := Evolves.refl
  trans := fun _ _ _ => Evolves.trans
  commit := by
    intro command snap db db' hsnap h hev hperform
    cases perform_wrote hperform with
    | nothing => exact ⟨h, Evolves.refl db⟩
    | event event hrules hfresh => exact h.insertEvent hrules hfresh
    | status _id status =>
      refine h.updateEvent _ (fun _ => rfl) ?_ fun _ _ => ⟨rfl, rfl, List.prefix_rfl⟩
      intro e he
      exact ⟨(h.events.rules e he).ids, (h.events.rules e he).items⟩
    | item _id ruleId rewardItem =>
      refine h.updateEvent _ (fun _ => rfl) ?_ ?_
      · intro e he
        exact (h.events.rules e he).pushItem ruleId rewardItem
      · intro e _
        refine ⟨rfl, rfl, ?_⟩
        simp only [pushItem_keys, List.prefix_rfl]
    | rule event rule hevent hvalid hitems hfresh =>
      refine h.updateEvent _ (fun _ => rfl) ?_ ?_
      · intro e he
        exact (h.events.rules e he).pushRule hitems (hasRule_eq_false hfresh e he)
      · intro e _
        refine ⟨rfl, rfl, ?_⟩
        simp
    | activities activities =>
      exact h.of_requests_eq h.events (fun e he => ⟨e, he, EventEvolves.refl e⟩) rfl
    | request event granted r hr hfree => exact hsnap.insertRequest h hev hr.issued hfree

end MapleRewards
