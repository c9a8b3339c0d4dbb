import MapleRewards.Payout

/-!
# Requests and the log

The log of the commits decides which requests are stored: one for each committed claim, in
the order of the commits, as the claim built it from its snapshot. Nothing changes it
afterwards, because no approval commits.
-/
namespace MapleRewards

open SnapshotStore LabelledRuns

variable {κ : Type} [DecidableEq κ]

/-- The request that a command builds from its snapshot. -/
def Command.builds (snap : Db) : Command → Option RewardRequestDocument
  | .createRewardRequest eventId dto newId checkedAt requestedAt =>
    (requestFor snap eventId dto newId checkedAt requestedAt).toOption
  | _ => none

def requestsLogged (log : List (Command × Db)) : List RewardRequestDocument :=
  log.filterMap fun p => p.1.builds p.2

theorem requestsLogged_concat (log : List (Command × Db)) (command : Command) (snap : Db) :
    requestsLogged (log ++ [(command, snap)]) =
      requestsLogged log ++ (command.builds snap).toList := by
  cases hbuilds : command.builds snap with
  | none => simp [requestsLogged, hbuilds]
  | some r => simp [requestsLogged, hbuilds]

/-- What a logged command says about the requests: a claim has built one of them, and an
approval is not logged at all. -/
def Command.Logged (snap : Db) (requests : List RewardRequestDocument) : Command → Prop
  | .createRewardRequest eventId dto newId checkedAt requestedAt =>
    ∃ r ∈ requests, requestFor snap eventId dto newId checkedAt requestedAt = .ok r
  | .approveRewardRequest _ _ _ => False
  | _ => True

theorem Command.Logged.mono {command : Command} {snap : Db}
    {requests requests' : List RewardRequestDocument} (h : command.Logged snap requests)
    (hsub : requests ⊆ requests') : command.Logged snap requests' := by
  cases command with
  | createRewardRequest eventId dto newId checkedAt requestedAt =>
    obtain ⟨r, hr, hbuilt⟩ := h
    exact ⟨r, hsub hr, hbuilt⟩
  | approveRewardRequest dto now savedAt => exact h.elim
  | _ => trivial

/-- A commit adds the request that it has built, and nothing else. -/
theorem perform_logged {command : Command} {snap db db' : Db}
    (h : perform command snap db = some db') :
    db'.requests = db.requests ++ (command.builds snap).toList ∧
      command.Logged snap db'.requests := by
  cases command with
  | createRewardRequest eventId dto newId checkedAt requestedAt =>
    obtain ⟨response, hok⟩ := committed_eq_some h
    obtain ⟨r, hr, hcreate, -⟩ := createRewardRequest_eq_ok.mp hok
    obtain ⟨-, -, -, rfl⟩ := RewardRequestRepository.create_eq_ok.mp hcreate
    refine ⟨?_, r, by simp, hr⟩
    simp only [Command.builds, hr]
    rfl
  | approveRewardRequest dto now savedAt =>
    obtain ⟨response, hok⟩ := committed_eq_some h
    rw [RewardRequestService.approveRewardRequest_eq_error] at hok
    cases hok
  | createEvent dto newId validatedAt createdAt =>
    exact ⟨by simp [(perform_wrote h).requests_eq, Command.builds], trivial⟩
  | updateStatus dto => exact ⟨by simp [(perform_wrote h).requests_eq, Command.builds], trivial⟩
  | addReward dto newRuleId =>
    exact ⟨by simp [(perform_wrote h).requests_eq, Command.builds], trivial⟩
  | createUserActivity dto newId now =>
    exact ⟨by simp [(perform_wrote h).requests_eq, Command.builds], trivial⟩

/-- In every reachable state the stored requests are, document by document and in order, what
the committed claims have built from their snapshots. Each of these claims has built one, and
no approval has committed. -/
theorem requests_are_as_logged {s : ServiceState κ} (h : ReachableService s) :
    s.db.requests = requestsLogged s.log ∧
      ∀ command snap, (command, snap) ∈ s.log → command.Logged snap s.db.requests := by
  refine reachable_log perform_preserves
    (fun log db => db.requests = requestsLogged log ∧
      ∀ command snap, (command, snap) ∈ log → command.Logged snap db.requests)
    WellFormed.empty ⟨rfl, by simp⟩ ?_ h
  rintro log command snap db db' - - - ⟨hrequests, hlogged⟩ hperform
  obtain ⟨hadded, hnew⟩ := perform_logged hperform
  constructor
  · rw [hadded, hrequests, requestsLogged_concat]
  · intro command' snap' hmem
    cases List.mem_append.mp hmem with
    | inl hold =>
      apply (hlogged command' snap' hold).mono
      rw [hadded]
      exact List.subset_append_left _ _
    | inr hlast =>
      cases List.mem_singleton.mp hlast
      exact hnew

/-- Of two overlapping claims one has committed. -/
theorem requests_are_as_logged_sample :
    requestsLogged Sample.state.log = [Sample.paid] :=
  (requests_are_as_logged Sample.state_reachable).1.symm.trans Sample.state_requests

end MapleRewards
