import AIWorld.Quest.QuestProvenance

/-! Rewards. A turn-in that succeeds pays the reward of the quest that it publishes as
completed, to the player who accepted it; any other turn-in leaves the balance and the
registry as they were, or ends the quest as failed. So over a run what was paid out is what
was published as completed, and it is bounded by the requests that were sent. -/

namespace AIWorld.Quest

open Std Lib DynamicQuestRegistry DynamicQuestManager

variable {c : Settings} {w : World} {s s' : DynamicQuestManager} {i : ManagerInput}
  {o : ManagerOutput} {id nowMs : UInt64} {q : DynamicQuestInstance} {tr : Trace}

/-! ### Payments -/

/-- What a turn-in that succeeded paid, and to whom. -/
def payment : ManagerInput → ManagerOutput → Option (ObjectGuid × ℤ)
  | .complete w _ playerGuid _ _ _, o =>
    if o.completed = .none then some (playerGuid, o.money.toNat - (balance w playerGuid).toNat) else none
  | _, _ => none

def payments (tr : Trace) : List (ObjectGuid × ℤ) := tr.filterMap fun e => payment e.input e.output

/-- What a published completion was worth, and to whom. -/
def Publication.reward (p : Publication) : Option (ObjectGuid × ℤ) :=
  if p.quest.state = .completed then some (p.quest.acceptedByPlayerGuid, p.quest.rewardMoneyCopper.toNat)
  else none

theorem reward_publish (hstate : q.state = .completed) (location : WorldEventLocation) :
    (publishDynamicQuestOutcome q location).filterMap Publication.reward =
      [(q.acceptedByPlayerGuid, (q.rewardMoneyCopper.toNat : ℤ))] := by
  obtain ⟨event, -, hlist⟩ := publish_terminal (by rw [hstate]; rfl) location
  rw [hlist]
  simp [Publication.reward, hstate]

theorem reward_publish_ne (hstate : q.state ≠ .completed) (location : WorldEventLocation) :
    (publishDynamicQuestOutcome q location).filterMap Publication.reward = [] := by
  rw [List.filterMap_eq_nil_iff]
  intro p hp
  rw [Publication.reward, quest_of_mem_publish hp, if_neg hstate]

theorem reward_flatMap {qs : List DynamicQuestInstance} {location : DynamicQuestInstance → WorldEventLocation}
    (hqs : ∀ q ∈ qs, q.state ≠ .completed) :
    (qs.flatMap fun q => publishDynamicQuestOutcome q (location q)).filterMap Publication.reward = [] := by
  rw [List.filterMap_eq_nil_iff]
  intro p hp
  obtain ⟨q, hq, hp⟩ := List.mem_flatMap.mp hp
  exact List.filterMap_eq_nil_iff.mp (reward_publish_ne (hqs q hq) (location q)) p hp

theorem TurnsIn.pays {playerGuid : ObjectGuid} {turnIn : TurnIn}
    (h : TurnsIn w s id playerGuid nowMs turnIn) :
    (if turnIn.reason = .none then
        some (playerGuid, (turnIn.money.toNat : ℤ) - (balance w playerGuid).toNat) else none).toList =
      turnIn.published.filterMap Publication.reward := by
  cases h with
  | refused hreason => simp [hreason]
  | contained => simp [reward_publish_ne]
  | paid _ howner _ hmoney =>
    subst howner
    rw [if_pos rfl, reward_publish rfl, Option.toList_some, hmoney, Nat.cast_add, add_sub_cancel_left]

/-- One call pays exactly what it publishes as completed. -/
theorem payment_eq (c : Settings) (s : DynamicQuestManager) (i : ManagerInput) :
    (payment i (managerStep c s i).1).toList =
      (managerStep c s i).1.published.filterMap Publication.reward := by
  cases i with
  | complete w id playerGuid grant revert nowMs =>
    exact (complete_cases c w s id playerGuid grant revert nowMs).pays
  | maintain w nowMs =>
    obtain ⟨hnodup, hregistry, -⟩ := discover_spec c s
    have hloop := (expireLoop_eq w nowMs (discover c s).1 hnodup ([], s.registry)).1
    simp only [managerStep, payment, runDynamicQuestMaintenance, hregistry, hloop, List.nil_append,
      Option.toList_none]
    refine (reward_flatMap fun q hq => ?_).symm
    obtain ⟨k, -, hjudged⟩ := List.mem_filterMap.mp hq
    obtain ⟨q₀, -, hexpiring⟩ := Option.bind_eq_some_iff.mp hjudged
    simp [(expiring_eq_some hexpiring).2]
  | reclaim w nowMs =>
    simp only [managerStep, payment, reclaimDynamicQuestsAfterKillCreditLoss, Option.toList_none]
    split_ifs
    · rfl
    · have hloop := (removeFailed_foldl w (s.registry.getAllActiveIds.filterMap (s.registry.failing nowMs))
        ([], s.registry.failAll nowMs)).1
      simp only [forceFailAllActiveDynamicQuests, failAll_eq, hloop, List.nil_append]
      refine (reward_flatMap fun q hq => ?_).symm
      obtain ⟨k, -, hjudged⟩ := List.mem_filterMap.mp hq
      obtain ⟨q₀, -, hfailing⟩ := Option.bind_eq_some_iff.mp hjudged
      simp [(failing_eq_some hfailing).2.2]
  | _ => rfl

theorem payments_of_run (hrun : (manager c).Run {} tr s) :
    payments tr = (publications tr).filterMap Publication.reward := by
  refine hrun.history (P := fun tr _ => payments tr = (publications tr).filterMap Publication.reward)
    (fun tr s i o s' ih hstep => ?_) rfl
  obtain ⟨rfl, rfl⟩ := manager_step hstep
  have hone := payment_eq c s i
  rw [publications_append, List.filterMap_append, ← hone, ← ih, payments, List.filterMap_append]
  rfl

/-! ### Bounds -/

def submissions (tr : Trace) : ℕ := tr.countP fun e => e.output.submitted

/-- A request is pending or used up, and yields one quest at most. -/
theorem pending_count (c : Settings) (s : DynamicQuestManager) (i : ManagerInput) :
    (managerStep c s i).1.created.toList.length + (managerStep c s i).2.pending.size ≤
        s.pending.size + (if (managerStep c s i).1.submitted then 1 else 0) ∧
      (s.pending.size ≤ c.maxInFlight.toNat → (managerStep c s i).2.pending.size ≤ c.maxInFlight.toNat) := by
  cases i with
  | submit w record creature source retrieved nowMs requestId =>
    rcases submit_cases c w s record creature source retrieved nowMs requestId with
      hr | ⟨context, provenance, hnew, hroom, -, hr⟩
    · simp [managerStep, hr]
    · have hmem : ¬ s.pending.contains record.id = true := by
        rwa [← ExtTreeMap.isSome_getElem?_eq_contains, Option.not_isSome_iff_eq_none]
      simp only [managerStep, hr, ExtTreeMap.size_insert, if_neg hmem, Option.toList_none, List.length_nil, if_true]
      omega
  | respond w requestId agent success response nowMs offerMs =>
    have hcases := respond_cases c w s requestId agent success response nowMs offerMs
    simp only [managerStep]
    generalize handleDynamicTaskResponse c w s requestId agent success response nowMs offerMs = res at hcases ⊢
    obtain ⟨created, s'⟩ := res
    dsimp only at hcases ⊢
    have herase {pending : PendingDynamicTaskRequest} (hpending : s.pending[agent]? = some pending) :
        (s.pending.erase agent).size + 1 = s.pending.size := by
      have hmem : s.pending.contains agent = true := by
        rw [← ExtTreeMap.isSome_getElem?_eq_contains, hpending]
        rfl
      have hpos : s.pending.size ≠ 0 := by
        rw [ne_eq, ← ExtTreeMap.eq_empty_iff_size_eq_zero]
        rintro hempty
        rw [hempty] at hpending
        simp at hpending
      rw [ExtTreeMap.size_erase, if_pos hmem]
      omega
    cases hcases with
    | ignored => simp
    | refused hpending =>
      have hsize := herase hpending
      simp only [Option.toList_none, List.length_nil]
      omega
    | created hpending _ _ _ _ hcreates =>
      have hsize := herase hpending
      cases hcreates with
      | offered =>
        simp only [Option.toList_some, List.length_singleton]
        omega
  | accept w id playerGuid nowMs =>
    rcases accept_cases c w s id playerGuid nowMs with ⟨reason, -, hr⟩ | ⟨q, q', -, -, hr⟩ <;> simp [managerStep, hr]
  | complete w id playerGuid grant revert nowMs =>
    have hcases := complete_cases c w s id playerGuid grant revert nowMs
    simp only [managerStep]
    generalize completeDynamicQuestForPlayer c w s id playerGuid grant revert nowMs = turnIn at hcases ⊢
    cases hcases <;> simp
  | maintain w nowMs => simp [managerStep, runDynamicQuestMaintenance, (discover_spec c s).2.2.2.1]
  | kill event => simp [managerStep]
  | drain nowMs => simp [managerStep, drainKillEvents]
  | reclaim w nowMs =>
    simp only [managerStep, reclaimDynamicQuestsAfterKillCreditLoss]
    split_ifs <;> simp [forceFailAllActiveDynamicQuests]

theorem requests_of_run (hrun : (manager c).Run {} tr s) :
    (createdIds tr).length + s.pending.size ≤ submissions tr ∧ s.pending.size ≤ c.maxInFlight.toNat := by
  refine hrun.history (P := fun tr s => (createdIds tr).length + s.pending.size ≤ submissions tr ∧
    s.pending.size ≤ c.maxInFlight.toNat) (fun tr s i o s' ih hstep => ?_) (by simp [createdIds, submissions])
  obtain ⟨rfl, rfl⟩ := manager_step hstep
  obtain ⟨hcount, hroom⟩ := pending_count c s i
  refine ⟨?_, hroom ih.2⟩
  have hsubmitted : submissions (tr ++ [callEvent c s i]) =
      submissions tr + if (managerStep c s i).1.submitted then 1 else 0 := by
    rw [submissions, List.countP_append, List.countP_singleton]
    rfl
  rw [createdIds_append, List.length_append, hsubmitted]
  have hbefore := ih.1
  dsimp only at hcount ⊢
  omega

theorem created_within (h : (managerStep c s i).1.created = some id) :
    ∃ q, (managerStep c s i).2.registry.quests[id]? = some q ∧ Within c.limits q := by
  cases i with
  | respond w requestId agent success response nowMs offerMs =>
    have hcases := respond_cases c w s requestId agent success response nowMs offerMs
    simp only [managerStep] at h ⊢
    generalize handleDynamicTaskResponse c w s requestId agent success response nowMs offerMs = res at *
    obtain ⟨created, s'⟩ := res
    dsimp only at hcases h ⊢
    subst h
    cases hcases with
    | created _ _ _ _ hvalid hcreates =>
      cases hcreates with
      | offered _ _ _ _ hq =>
        exact ⟨_, (getElem?_add hq s.registry s.nextDynamicQuestId).trans (if_pos rfl),
          (validate_spec hvalid).within _ _ _ _ hq⟩
  | _ => simp [managerStep] at h

theorem OfferedAs.within (hrun : (manager c).Run {} tr s) (h : OfferedAs tr q) : Within c.limits q.asOffered := by
  obtain ⟨e, he, hcreated, hq⟩ := h
  obtain ⟨tr₁, tr₂, -, -, hstep, -⟩ := hrun.at_mem he
  obtain ⟨hout, hpost⟩ := manager_step hstep
  rw [← hout] at hcreated
  obtain ⟨q', hq', hwithin⟩ := created_within hcreated
  rw [hpost, hq, Option.some.injEq] at hq'
  rwa [hq']

theorem rewards_le {published : List Publication} {limit : ℕ}
    (h : ∀ p ∈ published, p.quest.rewardMoneyCopper.toNat ≤ limit) :
    ((published.filterMap Publication.reward).map Prod.snd).sum ≤ (limit : ℤ) * published.length := by
  induction published with
  | nil => simp
  | cons p published ih =>
    obtain ⟨hp, hrest⟩ := List.forall_mem_cons.mp h
    have hrest := ih hrest
    rw [List.length_cons, Nat.cast_add, Nat.cast_one, mul_add, mul_one]
    by_cases hstate : p.quest.state = .completed
    · have hpaid : p.reward = some (p.quest.acceptedByPlayerGuid, (p.quest.rewardMoneyCopper.toNat : ℤ)) :=
        if_pos hstate
      rw [List.filterMap_cons_some hpaid, List.map_cons, List.sum_cons]
      have hp : (p.quest.rewardMoneyCopper.toNat : ℤ) ≤ limit := by exact_mod_cast hp
      linarith
    · have hpaid : p.reward = none := if_neg hstate
      rw [List.filterMap_cons_none hpaid]
      linarith [Int.natCast_nonneg limit]

/-! ### The contract -/

/-- A turn-in that is refused. -/
theorem TurnsIn.refuses {playerGuid : ObjectGuid} {turnIn : TurnIn}
    (h : TurnsIn w s id playerGuid nowMs turnIn) (hr : Inv s.registry) (hreason : turnIn.reason ≠ .none) :
    (turnIn.manager = s ∧ turnIn.published = [] ∧ turnIn.money = balance w playerGuid) ∨
      turnIn.reason = .rewardApplicationFailed ∧ ∃ p, turnIn.published = [p] ∧ p.quest.id = id ∧
        p.quest.state = .failed ∧ turnIn.manager.registry.quests[id]? = none := by
  cases h with
  | refused => exact .inl ⟨rfl, rfl, rfl⟩
  | @contained q money location hq hmove =>
    right
    obtain ⟨event, -, hlist⟩ := publish_terminal (q := { q with state := .failed }) rfl location
    refine ⟨rfl, _, hlist, hr.id id q hq, rfl, ?_⟩
    rw [getElem?_remove, if_pos rfl]
  | paid => exact absurd rfl hreason

/-- Over a run the payments of successful turn-ins are the rewards of the quests that were published as
completed, each quest once and in order. A refused turn-in leaves everything as it was or ends the quest
as failed, and all that is paid is bounded by the number of requests sent. -/
theorem rewards_are_paid_once (hrun : (manager c).Run {} tr s) :
    payments tr = (publications tr).filterMap Publication.reward ∧
      ((publications tr).map fun p => p.quest.id).Nodup ∧
      (∀ e ∈ tr, ∀ w id playerGuid grant revert nowMs,
        e.input = .complete w id playerGuid grant revert nowMs → e.output.completed ≠ .none →
          (e.post = e.pre ∧ e.output.published = [] ∧ e.output.money = balance w playerGuid) ∨
            e.output.completed = .rewardApplicationFailed ∧ ∃ p, e.output.published = [p] ∧ p.quest.id = id ∧
              p.quest.state = .failed ∧ e.post.registry.quests[id]? = none) ∧
      (createdIds tr).length + s.pending.size ≤ submissions tr ∧ s.pending.size ≤ c.maxInFlight.toNat ∧
      ((payments tr).map Prod.snd).sum ≤ (c.limits.maxRewardMoneyCopper.toNat : ℤ) * submissions tr := by
  have haccounts := accounts_of_run hrun
  obtain ⟨hrequests, hflight⟩ := requests_of_run hrun
  have hids : (createdIds tr).Nodup := haccounts.increasing.imp fun h => (UInt64.ne_of_lt h)
  refine ⟨payments_of_run hrun, ?_, fun e he w id playerGuid grant revert nowMs hinput hreason => ?_, hrequests,
    hflight, ?_⟩
  · exact (List.nodup_append.mp (haccounts.balanced.nodup_iff.mpr hids)).1
  · obtain ⟨tr₁, tr₂, -, hrun₁, hstep, -⟩ := hrun.at_mem he
    obtain ⟨hout, hpost⟩ := manager_step hstep
    have hcases := complete_cases c w e.pre id playerGuid grant revert nowMs
    rw [hinput] at hout hpost
    rw [← hout] at hreason ⊢
    rw [← hpost]
    exact hcases.refuses (accounts_of_run hrun₁).registry hreason
  · have hlength := haccounts.balanced.length_eq
    rw [List.length_append, List.length_map] at hlength
    have hle : (publications tr).length ≤ submissions tr := by omega
    rw [payments_of_run hrun]
    calc ((((publications tr).filterMap Publication.reward).map Prod.snd).sum : ℤ)
        ≤ c.limits.maxRewardMoneyCopper.toNat * (publications tr).length :=
          rewards_le fun p hp => ((haccounts.published p hp).2.1.within hrun).reward
      _ ≤ c.limits.maxRewardMoneyCopper.toNat * submissions tr :=
          mul_le_mul_of_nonneg_left (by exact_mod_cast hle) (Int.natCast_nonneg _)

theorem rewards_are_paid_once_sample : ∃ tr s, (manager sampleSettings).Run {} tr s ∧
    payments tr = [(⟨5⟩, 30)] ∧ payments tr = (publications tr).filterMap Publication.reward := by
  obtain ⟨⟨tr, s⟩, hexec⟩ := Option.isSome_iff_exists.mp
    (show ((manager sampleSettings).exec {} sampleInputs).isSome = true by decide +kernel)
  have hpaid : ((manager sampleSettings).exec {} sampleInputs).map (fun r => payments r.1) =
      some [(⟨5⟩, 30)] := by decide +kernel
  rw [hexec, Option.map_some, Option.some.injEq] at hpaid
  have hrun := Machine.run_of_exec hexec
  exact ⟨tr, s, hrun, hpaid, (rewards_are_paid_once hrun).1⟩

end AIWorld.Quest
