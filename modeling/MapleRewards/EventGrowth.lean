import MapleRewards.Payout

/-!
# How events grow

Events are never removed, renamed or moved in time, their rules keep their configs and
their place, and items are only added at the end of a rule. Only the status goes back
and forth, as status updates ask.
-/
namespace MapleRewards

open SnapshotStore LabelledRuns Collection

variable {κ : Type} [DecidableEq κ]

structure RuleGrows (rule rule' : RewardRuleDocument) : Prop where
  key : rule'.key = rule.key
  further : rule'.furtherConfig = rule.furtherConfig
  items : rule.rewardItems <+: rule'.rewardItems

theorem RuleGrows.refl (rule : RewardRuleDocument) : RuleGrows rule rule :=
  ⟨rfl, rfl, List.prefix_rfl⟩

theorem RuleGrows.trans {a b c : RewardRuleDocument} (h : RuleGrows a b) (h' : RuleGrows b c) :
    RuleGrows a c :=
  ⟨h'.key.trans h.key, h'.further.trans h.further, h.items.trans h'.items⟩

/-- The fields of an event that its creation decides for good. -/
def EventDocument.header (e : EventDocument) : ObjectId × String × Int × Int × Bool :=
  (e._id, e.name, e.startedAt, e.endedAt, e.autoReward)

structure EventGrows (e e' : EventDocument) : Prop where
  header : e'.header = e.header
  rules : Grows RuleGrows e.rewardRules e'.rewardRules

theorem EventGrows.refl (e : EventDocument) : EventGrows e e :=
  ⟨rfl, Grows.refl RuleGrows.refl e.rewardRules⟩

theorem EventGrows.trans {a b c : EventDocument} (h : EventGrows a b) (h' : EventGrows b c) :
    EventGrows a c :=
  ⟨h'.header.trans h.header, h.rules.trans (fun _ _ _ hab hbc => hab.trans hbc) h'.rules⟩

/-- A command that asks for a status of an event. -/
def Command.Asks (_id : ObjectId) (status : EventStatus) : Command → Prop
  | .updateStatus dto =>
    ObjectId.ofString dto.eventId = some _id ∧
      EventValidator.validateEventStatus dto.status = .ok status
  | _ => False

/-- What has become of an event after the commits in `l`. -/
structure Follows (l : List (Command × Db)) (e e' : EventDocument) : Prop where
  grows : EventGrows e e'
  status : e'.status = e.status ∨ ∃ p ∈ l, p.1.Asks e._id e'.status

theorem Follows.refl (e : EventDocument) : Follows [] e e := ⟨EventGrows.refl e, Or.inl rfl⟩

theorem EventGrows._id {e e' : EventDocument} (h : EventGrows e e') : e'._id = e._id :=
  congrArg Prod.fst h.header

theorem Follows.trans {l l' : List (Command × Db)} {a b c : EventDocument} (h : Follows l a b)
    (h' : Follows l' b c) : Follows (l ++ l') a c := by
  refine ⟨h.grows.trans h'.grows, ?_⟩
  cases h'.status with
  | inl hkept =>
    rw [hkept]
    cases h.status with
    | inl hsame => exact Or.inl hsame
    | inr hasked =>
      obtain ⟨p, hp, hasks⟩ := hasked
      exact Or.inr ⟨p, List.mem_append_left _ hp, hasks⟩
  | inr hasked =>
    obtain ⟨p, hp, hasks⟩ := hasked
    exact Or.inr ⟨p, List.mem_append_right _ hp, h.grows._id ▸ hasks⟩

/-! ## One commit -/

theorem EventGrows.pushItem (e : EventDocument) (ruleId : ObjectId) (rewardItem : RewardItem) :
    EventGrows e (e.pushItem ruleId rewardItem) := by
  refine ⟨rfl, Grows.updateFirst RuleGrows.refl _ ?_⟩
  intro rule _ _
  exact ⟨rfl, rfl, List.prefix_append _ _⟩

/-- The header that a creation gives its event. -/
def Command.creates : Command → Option (ObjectId × String × Int × Int × Bool)
  | .createEvent dto newId _ _ =>
    match dto.startedAt, dto.endedAt with
    | some startedAt, some endedAt =>
      some (newId, jsTrim dto.name, startedAt, endedAt, dto.autoReward.getD true)
    | _, _ => none
  | _ => none

theorem EventService.create_header {snap db db' : Db} {dto : EventCreateRequestDto}
    {newId : ObjectId} {validatedAt createdAt : Int} {response : EventDto}
    (h : EventService.create snap db dto newId validatedAt createdAt = .ok (response, db')) :
    ∃ event : EventDocument, event.name ≠ "" ∧ event.startedAt < event.endedAt ∧
      (Command.createEvent dto newId validatedAt createdAt).creates = some event.header ∧
      db' = { db with events := db.events ++ [event] } := by
  obtain ⟨u, hperiod, h⟩ := bind_eq_ok h
  obtain ⟨hends, -⟩ := validateEventPeriod_eq_ok.mp hperiod
  simp only at h
  split at h
  · cases h
  · obtain ⟨⟨event, db₁⟩, hcreate, h⟩ := bind_eq_ok h
    cases h
    obtain ⟨hschema, -, hdb⟩ := EventRepository.create_eq_ok hcreate
    unfold EventSchema at hschema
    split at hschema
    · next startedAt endedAt hs he =>
      simp only at hs he
      split at hschema
      · cases hschema
      · next hname =>
        cases hschema
        rw [hs, he] at hends
        simp only [dateLessEq, decide_eq_false_iff_not, not_le] at hends
        refine ⟨_, hname, hends, ?_, hdb⟩
        simp [Command.creates, hs, he, EventDocument.header]
    · cases hschema

/-- A commit stores the event that its command creates and changes no other header. -/
theorem perform_headers {command : Command} {snap db db' : Db}
    (h : perform command snap db = some db') :
    db'.events.map EventDocument.header =
      db.events.map EventDocument.header ++ command.creates.toList := by
  cases command with
  | createEvent dto newId validatedAt createdAt =>
    obtain ⟨response, h⟩ := committed_eq_some h
    obtain ⟨event, -, -, hcreates, rfl⟩ := EventService.create_header h
    simp [hcreates]
  | updateStatus dto =>
    obtain ⟨response, h⟩ := committed_eq_some h
    rcases EventService.updateStatus_writes h with rfl | ⟨_id, status, -, rfl⟩
    · simp [Command.creates]
    · simp only [Db.setStatus, Command.creates, Option.toList_none, List.append_nil]
      apply map_updateFirst
      intro e
      rfl
  | addReward dto newRuleId =>
    simp only [Command.creates, Option.toList_none, List.append_nil]
    by_cases hused : db.hasRule newRuleId = true
    · simp [perform, hused] at h
    · simp only [perform, hused] at h
      obtain ⟨response, h⟩ := committed_eq_some h
      cases RewardService.addReward_added h with
      | item event rule item hevent hrule hid hname hcast hresponse =>
        apply map_updateFirst
        intro e
        rfl
      | rule event newRule config item hevent hid hname hnew hcast hconfig hvalid hitem hresponse =>
        apply map_updateFirst
        intro e
        rfl
  | createUserActivity dto newId now =>
    obtain ⟨response, h⟩ := committed_eq_some h
    obtain ⟨activities, rfl⟩ := UserActivityService.create_writes h
    simp [Command.creates]
  | createRewardRequest eventId dto newId checkedAt requestedAt =>
    obtain ⟨response, h⟩ := committed_eq_some h
    obtain ⟨event, granted, r, -, -, -, -, -, rfl⟩ :=
      RewardRequestService.createRewardRequest_writes h
    simp [Command.creates]
  | approveRewardRequest dto now savedAt =>
    obtain ⟨response, h⟩ := committed_eq_some h
    rw [RewardRequestService.approveRewardRequest_eq_error] at h
    cases h

/-- What every stored event satisfies from its creation on. -/
def EventDocument.Dated (e : EventDocument) : Prop :=
  e.name ≠ "" ∧ e.startedAt < e.endedAt

theorem EventDocument.Dated.of_header {e e' : EventDocument} (h : e.Dated)
    (hheader : e'.header = e.header) : e'.Dated := by
  simp only [EventDocument.header, Prod.mk.injEq] at hheader
  obtain ⟨-, hname, hstarts, hends, -⟩ := hheader
  simp only [EventDocument.Dated, hname, hstarts, hends]
  exact h

theorem perform_dated {command : Command} {snap db db' : Db}
    (hdated : ∀ e ∈ db.events, e.Dated) (h : perform command snap db = some db') :
    ∀ e ∈ db'.events, e.Dated := by
  intro e he
  have hmem := List.mem_map_of_mem (f := EventDocument.header) he
  rw [perform_headers h, List.mem_append] at hmem
  cases hmem with
  | inl hold =>
    obtain ⟨e₀, he₀, hheader⟩ := List.mem_map.mp hold
    exact (hdated e₀ he₀).of_header hheader.symm
  | inr hnew =>
    cases command with
    | createEvent dto newId validatedAt createdAt =>
      obtain ⟨response, h⟩ := committed_eq_some h
      obtain ⟨event, hname, hdates, hcreates, -⟩ := EventService.create_header h
      rw [hcreates, Option.toList_some, List.mem_singleton] at hnew
      have hevent : event.Dated := ⟨hname, hdates⟩
      exact hevent.of_header hnew
    | _ => simp [Command.creates] at hnew

/-- The stored events are the committed creations, in the order of their commits. -/
theorem events_are_creations {s : ServiceState κ} (h : ReachableService s) :
    s.db.events.map EventDocument.header = s.log.filterMap (fun p => p.1.creates) ∧
      (s.db.events.map EventDocument._id).Nodup ∧ ∀ e ∈ s.db.events, e.Dated := by
  have hlog : s.db.events.map EventDocument.header = s.log.filterMap (fun p => p.1.creates) ∧
      ∀ e ∈ s.db.events, e.Dated := by
    refine reachable_log perform_preserves
      (fun log db => db.events.map EventDocument.header = log.filterMap (fun p => p.1.creates) ∧
        ∀ e ∈ db.events, e.Dated) WellFormed.empty (by simp [Db.empty]) ?_ h
    rintro log command snap db db' - - - ⟨hheaders, hdated⟩ hperform
    refine ⟨?_, perform_dated hdated hperform⟩
    rw [perform_headers hperform, hheaders, List.filterMap_append]
    cases hcreates : command.creates with
    | none => simp [hcreates]
    | some header => simp [hcreates]
  exact ⟨hlog.1, h.coherent.db.events.ids, hlog.2⟩

theorem events_are_creations_sample :
    [Sample.event.header] = Sample.state.log.filterMap (fun p => p.1.creates) := by
  have h := (events_are_creations Sample.state_reachable).1
  rwa [Sample.state_events] at h

end MapleRewards
