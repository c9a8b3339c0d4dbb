import MapleRewards.Payout
import MapleRewards.Lib.SerialOrder

/-!
# Concurrent reward requests are serializable

A reward request reads the events and the activities, which no other request changes. So
it does not matter how old its snapshot is: while only requests run, each one comes out as
if it had begun at its commit.
-/
namespace MapleRewards

open SnapshotStore LabelledRuns Collection

variable {κ : Type} [DecidableEq κ]

/-- A request for rewards, or the approval of one. -/
def Command.OnRequests : Command → Prop
  | .createRewardRequest _ _ _ _ _ => True
  | .approveRewardRequest _ _ _ => True
  | _ => False

/-- Nothing but operations on requests begins. -/
def StartsOnRequests : SnapshotStore.Event κ Command → Prop
  | .start _ command => command.OnRequests
  | _ => True

/-! ## What a reward request reads -/

/-- A request is built from the events and the activities. -/
theorem requestFor_congr {a b : Db} (hevents : a.events = b.events)
    (hactivities : a.activities = b.activities) (eventId : String) (dto : RewardRequestCreateDto)
    (newId : ObjectId) (checkedAt requestedAt : Int) :
    requestFor a eventId dto newId checkedAt requestedAt =
      requestFor b eventId dto newId checkedAt requestedAt := by
  have hevent : findEventById a eventId checkedAt = findEventById b eventId checkedAt := by
    simp only [findEventById, EventRepository.findById, hevents]
  have hactivity : findUserActivityByUserId a dto.userId =
      findUserActivityByUserId b dto.userId := by
    simp only [findUserActivityByUserId, UserActivityRepository.findByUserId, hactivities]
  unfold requestFor
  rw [hevent, hactivity, getPastRuleIds_eq_nil, getPastRuleIds_eq_nil]

/-- Two snapshots with the same events and activities make an operation on requests do the
same. -/
theorem perform_congr {command : Command} (hcommand : command.OnRequests) {a b : Db}
    (hevents : a.events = b.events) (hactivities : a.activities = b.activities) (db : Db) :
    perform command a db = perform command b db := by
  cases command with
  | createRewardRequest eventId dto newId checkedAt requestedAt =>
    simp only [perform, createRewardRequest_eq, requestFor_congr hevents hactivities]
  | approveRewardRequest dto now savedAt =>
    simp only [perform, RewardRequestService.approveRewardRequest_eq_error]
  | _ => exact hcommand.elim

/-- An operation on requests changes neither. -/
theorem perform_onRequests {command : Command} (hcommand : command.OnRequests) {snap db db' : Db}
    (h : perform command snap db = some db') :
    db'.events = db.events ∧ db'.activities = db.activities := by
  cases command with
  | createRewardRequest eventId dto newId checkedAt requestedAt =>
    obtain ⟨response, h⟩ := committed_eq_some h
    obtain ⟨event, granted, r, -, -, -, -, -, rfl⟩ :=
      RewardRequestService.createRewardRequest_writes h
    exact ⟨rfl, rfl⟩
  | approveRewardRequest dto now savedAt =>
    obtain ⟨response, h⟩ := committed_eq_some h
    rw [RewardRequestService.approveRewardRequest_eq_error] at h
    cases h
  | _ => exact hcommand.elim

/-! ## Runs of reward requests -/

/-- Only operations on requests are open, each on the events and activities of now. -/
def OnlyRequests (s : ServiceState κ) : Prop :=
  ∀ c command snap, s.active c = some (command, snap) →
    command.OnRequests ∧ snap.events = s.db.events ∧ snap.activities = s.db.activities

omit [DecidableEq κ] in
theorem OnlyRequests.commit {s : ServiceState κ} (h : OnlyRequests s) {c : κ} {command : Command}
    {snap : Db} (hc : s.active c = some (command, snap)) :
    perform command snap s.db = perform command s.db s.db := by
  obtain ⟨hcommand, hevents, hactivities⟩ := h c command snap hc
  exact perform_congr hcommand hevents hactivities s.db

theorem requests_commitNow : CommitsNow (κ := κ) perform OnlyRequests StartsOnRequests where
  step := by
    intro s e t hs he hstep d command snap hd
    rcases step_cases hstep with ⟨c, a, rfl, rfl⟩ | ⟨c, a, old, db', rfl, hc, hperf, rfl⟩ |
      ⟨c, rfl, rfl⟩
    · cases update_active hd with
      | inl hnew =>
        obtain ⟨-, hnew⟩ := hnew
        cases hnew
        exact ⟨he, rfl, rfl⟩
      | inr hold => exact hs d command snap hold
    · cases update_active hd with
      | inl hnew => cases hnew.2
      | inr hold =>
        obtain ⟨hcommand, hevents, hactivities⟩ := hs d command snap hold
        obtain ⟨hevents', hactivities'⟩ := perform_onRequests (hs c a old hc).1 hperf
        exact ⟨hcommand, hevents.trans hevents'.symm, hactivities.trans hactivities'.symm⟩
    · cases update_active hd with
      | inl hnew => cases hnew.2
      | inr hold => exact hs d command snap hold
  commit := by
    intro s c command snap db' hs hc hperf
    rwa [← hs.commit hc]

/-- Any interleaving of operations on requests leaves what those that committed leave one
after another in the order of their commits, each on the store as it then is; and whatever
is still open commits, or is refused, as if it began now. -/
theorem claims_serializable {s t : ServiceState κ} (hidle : ∀ c, s.active c = none)
    {es : List (SnapshotStore.Event κ Command)} (hes : ∀ e ∈ es, StartsOnRequests e)
    (h : run (step perform) es s = some t) :
    (∃ l, t.log = s.log ++ l ∧ run (commitNow perform) (l.map Prod.fst) s.db = some t.db) ∧
      ∀ c command snap, t.active c = some (command, snap) →
        perform command snap t.db = perform command t.db t.db := by
  have hopen : OnlyRequests s := by
    intro c command snap hc
    rw [hidle c] at hc
    cases hc
  obtain ⟨hend, hserial⟩ := requests_commitNow.serial hopen hes h
  exact ⟨hserial, fun _ _ _ hc => hend.commit hc⟩

namespace Sample

def readyState : ServiceState Nat :=
  (run (step perform) ((setup true).flatMap alone) (initial Db.empty)).getD (initial Db.empty)

theorem ready_run :
    run (step perform) ((setup true).flatMap alone) (initial Db.empty) = some readyState := by
  have hview : (run (step perform) ((setup true).flatMap alone) (initial Db.empty)).map
      (fun s : ServiceState Nat => s.db.activities.length) = some 1 := by decide +kernel
  exact (run_of_view hview).1

def claims : List (SnapshotStore.Event Nat Command) :=
  [.start 1 (claim firstRequestId), .start 2 (claim secondRequestId), .commit 2]

def claimedState : ServiceState Nat := (run (step perform) claims readyState).getD readyState

theorem claims_run : run (step perform) claims readyState = some claimedState := by
  have hview : (run (step perform) claims readyState).map
      (fun s : ServiceState Nat => s.db.requests.length) = some 1 := by decide +kernel
  exact (run_of_view hview).1

end Sample

theorem claims_serializable_sample :
    (∃ l, Sample.claimedState.log = Sample.readyState.log ++ l ∧
      run (commitNow perform) (l.map Prod.fst) Sample.readyState.db =
        some Sample.claimedState.db) ∧
      ∀ c command snap, Sample.claimedState.active c = some (command, snap) →
        perform command snap Sample.claimedState.db =
          perform command Sample.claimedState.db Sample.claimedState.db :=
  claims_serializable (Sample.alone_idle (fun _ => rfl) Sample.ready_run)
    (by simp [Sample.claims, Sample.claim, StartsOnRequests, Command.OnRequests]) Sample.claims_run

end MapleRewards
