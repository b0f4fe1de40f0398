import AIWorld.Quest.ManagerSteps

/-! No quest is lost. Over any run of the manager the quests that were created are those
that are still open and those whose outcome was published, each of them once: a quest
leaves the registry only with its one outcome, and nothing that has ended stays behind. -/

namespace AIWorld.Quest

open Std Lib DynamicQuestRegistry DynamicQuestManager

variable {c : Settings} {w : World} {r r' : DynamicQuestRegistry} {s s' : DynamicQuestManager}
  {i : ManagerInput} {o : ManagerOutput} {id k nowMs : UInt64} {q q' : DynamicQuestInstance}

/-! ### One step and one quest -/

/-- What a call does to the quest under one id. -/
inductive Fate (s : DynamicQuestManager) (i : ManagerInput) (o : ManagerOutput) (id : UInt64) :
    Option DynamicQuestInstance → Option DynamicQuestInstance → Prop
  | kept {x : Option DynamicQuestInstance} (hcreated : o.created ≠ some id)
      (hpublished : about id o.published = []) : Fate s i o id x x
  | created {proposal : ValidatedProposal} {location : WorldEventLocation} {offerMs : UInt64}
      {q : DynamicQuestInstance} (hcreated : o.created = some id) (hpublished : o.published = [])
      (hq : offerDynamicQuest id proposal.toQuestProposal location offerMs = accepted q) :
      Fate s i o id none (some q)
  | accepted {w : World} {playerGuid : ObjectGuid} {nowMs : UInt64} {q q' : DynamicQuestInstance}
      (hi : i = .accept w id playerGuid nowMs) (haccepted : o.accepted = .none) (hcreated : o.created = none)
      (hpublished : o.published = []) (hmove : Moves nowMs q (.accept playerGuid) q') :
      Fate s i o id (some q) (some q')
  | credited {nowMs : DynamicQuestKillEvent → UInt64} {q : DynamicQuestInstance} (hi : i = .drain nowMs)
      (hcreated : o.created = none) (hpublished : o.published = []) :
      Fate s i o id (some q)
        (some (s.killEventBus.pending.foldl (fun q event => q.credit nowMs event) q))
  | ended {t : Transition} {nowMs : UInt64} {q q' : DynamicQuestInstance} {event : WorldEvent}
      {location : WorldEventLocation} (hcreated : o.created = none) (hmove : Moves nowMs q t q')
      (hterminal : isTerminal q'.state = true)
      (hevent : buildDynamicQuestOutcomeWorldEvent q' location = some event)
      (hpublished : about id o.published = [⟨q', event⟩]) : Fate s i o id (some q) none

theorem about_nil (id : UInt64) : about id [] = [] := rfl

theorem getElem?_put (r : DynamicQuestRegistry) (id k : UInt64) (q : DynamicQuestInstance) :
    (r.put id q).quests[k]? = if id = k then some q else r.quests[k]? :=
  OrdMap.getElem?_insert ..

theorem getElem?_add {proposal : QuestProposal} {location : WorldEventLocation}
    (hq : offerDynamicQuest id proposal location nowMs = accepted q) (r : DynamicQuestRegistry)
    (k : UInt64) : (r.add q).quests[k]? = if id = k then some q else r.quests[k]? := by
  rw [add, (offerDynamicQuest_accepted hq).1]
  exact OrdMap.getElem?_insert ..

/-- A quest that ends under one id, while the others are kept. -/
theorem Fate.of_remove {t : Transition} {location : WorldEventLocation}
    (hq : s.registry.quests[id]? = some q) (hid : q.id = id) (hmove : Moves nowMs q t q')
    (hid' : q'.id = q.id) (hterminal : isTerminal q'.state = true) (hcreated : o.created = none)
    (hpublished : o.published = publishDynamicQuestOutcome q' location) (k : UInt64) :
    Fate s i o k s.registry.quests[k]? (s.registry.remove id).2.quests[k]? := by
  obtain ⟨event, hevent, hlist⟩ := publish_terminal hterminal location
  rw [getElem?_remove]
  split_ifs with hk
  · subst hk
    rw [hq]
    refine .ended hcreated hmove hterminal hevent ?_
    have habout := about_publish q' location
    rw [hid', hid] at habout
    rw [hpublished, habout, hlist]
  · refine .kept (by simp [hcreated]) ?_
    rw [hpublished]
    exact about_publish_ne (by rwa [hid', hid]) location

theorem nodup_getIdsAfterUntil (r : DynamicQuestRegistry) (after untilId : UInt64) (maxCount : UInt32) :
    (r.getIdsAfterUntil after untilId maxCount).Nodup := by
  unfold getIdsAfterUntil
  split_ifs
  · exact List.nodup_nil
  · have hsub : List.Sublist
        (((r.quests.keys.dropWhile (· ≤ after)).takeWhile (· ≤ untilId)).take maxCount.toNat) r.quests.keys :=
      (List.take_sublist _ _).trans ((List.takeWhile_sublist _).trans (List.dropWhile_sublist _))
    exact hsub.nodup (OrdMap.nodup_keys _)

theorem discover_spec (c : Settings) (s : DynamicQuestManager) :
    (discover c s).1.Nodup ∧ (discover c s).2.registry = s.registry ∧
      (discover c s).2.nextDynamicQuestId = s.nextDynamicQuestId ∧
      (discover c s).2.pending = s.pending ∧ (discover c s).2.killEventBus = s.killEventBus ∧
      (discover c s).2.lastObservedKillDropCount = s.lastObservedKillDropCount := by
  unfold discover
  dsimp only
  split_ifs <;> exact ⟨nodup_getIdsAfterUntil .., rfl, rfl, rfl, rfl, rfl⟩

/-- A pass over distinct ids that publishes what a judge lets through. -/
theorem Fate.of_pass {judge : DynamicQuestInstance → Option DynamicQuestInstance} (t : Transition)
    (nowMs : UInt64) {ids : List UInt64} {location : DynamicQuestInstance → WorldEventLocation} (hr : Inv s.registry)
    (hjudge : ∀ q q', judge q = some q' →
      Moves nowMs q t q' ∧ q'.id = q.id ∧ isTerminal q'.state = true)
    (hids : ids.Nodup) (hcreated : o.created = none)
    (hpublished : o.published = (ids.filterMap (s.registry.judged judge)).flatMap
      fun q => publishDynamicQuestOutcome q (location q)) (k : UInt64) :
    Fate s i o k s.registry.quests[k]?
      (if k ∈ ids ∧ (s.registry.judged judge k).isSome then none else s.registry.quests[k]?) := by
  obtain ⟨hnodup, hfind⟩ := find_filterMap judge hr (fun q q' h => (hjudge q q' h).2.1) hids
  have habout := about_flatMap location hnodup k
  rw [← hpublished, hfind k] at habout
  by_cases hk : k ∈ ids
  · rw [if_pos hk] at habout
    cases hj : s.registry.judged judge k with
    | none =>
      rw [hj] at habout
      simp only [Option.isSome_none, Bool.false_eq_true, and_false, if_false]
      exact .kept (by simp [hcreated]) habout
    | some q' =>
      rw [hj] at habout
      obtain ⟨q, hq, hqj⟩ := Option.bind_eq_some_iff.mp hj
      obtain ⟨hmove, -, hterminal⟩ := hjudge q q' hqj
      obtain ⟨event, hevent, hlist⟩ := publish_terminal hterminal (location q')
      simp only [Option.isSome_some, hk, and_self, if_true, hq]
      exact .ended hcreated hmove hterminal hevent (habout.trans hlist)
  · rw [if_neg hk] at habout
    simp only [hk, false_and, if_false]
    exact .kept (by simp [hcreated]) habout

/-- What one call does to the quest under any id. -/
theorem managerStep_fate (c : Settings) (hr : Inv s.registry) (i : ManagerInput) (k : UInt64) :
    Fate s i (managerStep c s i).1 k s.registry.quests[k]? (managerStep c s i).2.registry.quests[k]? := by
  cases i with
  | submit w record creature source retrieved nowMs requestId =>
    rcases submit_cases c w s record creature source retrieved nowMs requestId with
      hr' | ⟨context, provenance, -, -, -, hr'⟩ <;>
    · simp only [managerStep, hr']
      exact .kept (by simp) rfl
  | respond w requestId agent success response nowMs offerMs =>
    have hcases := respond_cases c w s requestId agent success response nowMs offerMs
    simp only [managerStep]
    generalize handleDynamicTaskResponse c w s requestId agent success response nowMs offerMs = res at hcases ⊢
    obtain ⟨created, s'⟩ := res
    dsimp only at hcases ⊢
    cases hcases with
    | ignored => exact .kept (by simp) rfl
    | refused => exact .kept (by simp) rfl
    | created _ _ _ _ _ hcreates =>
      cases hcreates with
      | offered _ _ _ hnew hq =>
        dsimp only at hq hnew ⊢
        rw [getElem?_add hq]
        split_ifs with hk
        · subst hk
          rw [hnew]
          exact .created rfl rfl hq
        · exact .kept (by simpa using hk) rfl
  | accept w id playerGuid nowMs =>
    rcases accept_cases c w s id playerGuid nowMs with ⟨reason, -, hr'⟩ | ⟨q, q', hq, hmove, hr'⟩
    · simp only [managerStep, hr']
      exact .kept (by simp) rfl
    · simp only [managerStep, hr', getElem?_put]
      split_ifs with hk
      · subst hk
        rw [hq]
        exact .accepted rfl rfl rfl rfl hmove
      · exact .kept (by simp) rfl
  | complete w id playerGuid grant revert nowMs =>
    have hcases := complete_cases c w s id playerGuid grant revert nowMs
    simp only [managerStep]
    generalize completeDynamicQuestForPlayer c w s id playerGuid grant revert nowMs = turnIn at hcases ⊢
    cases hcases with
    | refused => exact .kept (by simp) rfl
    | contained hq hmove => exact Fate.of_remove hq (hr.id _ _ hq) hmove rfl rfl rfl rfl k
    | paid hq _ hmove => exact Fate.of_remove hq (hr.id _ _ hq) hmove rfl rfl rfl rfl k
  | maintain w nowMs =>
    obtain ⟨hnodup, hregistry, -⟩ := discover_spec c s
    obtain ⟨hpublished, hquests⟩ := expireLoop_eq w nowMs (discover c s).1 hnodup ([], s.registry)
    simp only [managerStep, runDynamicQuestMaintenance, hregistry, hquests]
    refine Fate.of_pass .expire nowMs hr (fun q q' h => ?_) hnodup rfl (hpublished.trans (List.nil_append _)) k
    obtain ⟨hmove, rfl⟩ := expiring_eq_some h
    exact ⟨hmove, rfl, rfl⟩
  | kill event => exact .kept (by simp [managerStep]) rfl
  | drain nowMs =>
    simp only [managerStep, drain_getElem?]
    cases s.registry.quests[k]? with
    | none => exact .kept (by simp) rfl
    | some q => exact .credited rfl rfl rfl
  | reclaim w nowMs =>
    simp only [managerStep, reclaimDynamicQuestsAfterKillCreditLoss]
    split_ifs with hdropped
    · exact .kept (by simp) rfl
    · simp only [forceFailAllActiveDynamicQuests, failAll_eq]
      obtain ⟨hpublished, hquests⟩ := removeFailed_foldl w
        (s.registry.getAllActiveIds.filterMap (s.registry.failing nowMs)) ([], s.registry.failAll nowMs)
      rw [hquests, reclaim_getElem? hr]
      refine Fate.of_pass .fail nowMs hr (fun q q' h => ?_) (nodup_getAllActiveIds _) rfl
        (hpublished.trans (List.nil_append _)) k
      obtain ⟨hstate, hlive, rfl⟩ := failing_eq_some h
      exact ⟨.fail hstate hlive, rfl, rfl⟩

/-! ### What every step keeps -/

theorem credit_evolves (hq : q.Good) (events : List DynamicQuestKillEvent)
    (nowMs : DynamicQuestKillEvent → UInt64) :
    (events.foldl (fun q event => q.credit nowMs event) q).Good ∧
      Evolves q (events.foldl (fun q event => q.credit nowMs event) q) := by
  induction events generalizing q with
  | nil => exact ⟨hq, Evolves.refl q⟩
  | cons event events ih =>
    have hone : (q.credit nowMs event).Good ∧ Evolves q (q.credit nowMs event) := by
      unfold DynamicQuestInstance.credit
      split_ifs
      · rcases after_cases q (.applyProgress event.killerGuid event.eventId) (nowMs event) with hsame | hmove
        · rw [hsame]
          exact ⟨hq, Evolves.refl q⟩
        · exact ⟨hmove.good hq, hmove.evolves hq⟩
      · exact ⟨hq, Evolves.refl q⟩
    obtain ⟨hgood, hev⟩ := ih hone.1
    exact ⟨hgood, hone.2.trans hev⟩

/-- What transitions do not write to stays as it was offered. -/
theorem Evolves.fixed {α : Type*} (h : Evolves q q') (f : DynamicQuestInstance → α)
    (hf : ∀ q, f q.asOffered = f q) : f q' = f q := by
  rw [← hf q', h.asOffered, hf q]

theorem Evolves.id_eq (h : Evolves q q') : q'.id = q.id := h.fixed _ fun _ => rfl

theorem Moves.progress_state {playerGuid : ObjectGuid} {event : UInt64}
    (h : Moves nowMs q (.applyProgress playerGuid event) q') : q'.state = q.state := by
  cases h
  rfl

/-- The state of a quest does not change while kills are credited to it. -/
theorem credit_state (q : DynamicQuestInstance) (events : List DynamicQuestKillEvent)
    (nowMs : DynamicQuestKillEvent → UInt64) :
    (events.foldl (fun q event => q.credit nowMs event) q).state = q.state := by
  induction events generalizing q with
  | nil => rfl
  | cons event events ih =>
    rw [List.foldl_cons, ih]
    unfold DynamicQuestInstance.credit
    split_ifs
    · rcases after_cases q (.applyProgress event.killerGuid event.eventId) (nowMs event) with hsame | hmove
      · rw [hsame]
      · exact hmove.progress_state
    · rfl

/-- What a call leaves of a quest that stays, and of one that it creates. -/
theorem Fate.stays {x : Option DynamicQuestInstance} (hf : Fate s i o k x (some q'))
    (hx : ∀ q, x = some q → q.Good ∧ q.id = k ∧ isTerminal q.state = false) :
    q'.Good ∧ q'.id = k ∧ isTerminal q'.state = false ∧
      ((o.created = some k ∧ q'.asOffered = q') ∨ ∃ q, x = some q ∧ Evolves q q') := by
  cases hf with
  | kept =>
    obtain ⟨hgood, hid, hopen⟩ := hx _ rfl
    exact ⟨hgood, hid, hopen, .inr ⟨_, rfl, Evolves.refl _⟩⟩
  | created hcreated _ hq =>
    obtain ⟨hid, -, hoffered⟩ := offerDynamicQuest_accepted hq
    refine ⟨good_of_offer hq, hid, ?_, .inl ⟨hcreated, hoffered⟩⟩
    rw [← hoffered]
    rfl
  | accepted _ _ _ _ hmove =>
    obtain ⟨hgood, hid, -⟩ := hx _ rfl
    refine ⟨hmove.good hgood, (hmove.evolves hgood).id_eq.trans hid, ?_, .inr ⟨_, rfl, hmove.evolves hgood⟩⟩
    cases hmove
    rfl
  | credited =>
    obtain ⟨hgood, hid, hopen⟩ := hx _ rfl
    obtain ⟨hgood', hev⟩ := credit_evolves hgood _ _
    exact ⟨hgood', hev.id_eq.trans hid, by rw [credit_state]; exact hopen, .inr ⟨_, rfl, hev⟩⟩

/-- An id that a call creates is the next one, and there was room for it. -/
theorem created_fresh (h : (managerStep c s i).1.created = some id) :
    id = s.nextDynamicQuestId ∧ id ≠ 0 ∧ s.registry.getCount < c.maxLive ∧
      (managerStep c s i).2.nextDynamicQuestId = (advanceDynamicQuestIdCounter id).2 := by
  cases i with
  | respond w requestId agent success response nowMs offerMs =>
    have hcases := respond_cases c w s requestId agent success response nowMs offerMs
    simp only [managerStep] at h ⊢
    generalize handleDynamicTaskResponse c w s requestId agent success response nowMs offerMs = res at *
    obtain ⟨created, s'⟩ := res
    dsimp only at hcases h ⊢
    subst h
    cases hcases with
    | created _ _ _ _ _ hcreates =>
      cases hcreates with
      | offered hroom _ hid => exact ⟨rfl, hid, hroom, rfl⟩
  | _ => simp [managerStep] at h

/-- The counter moves only by handing out its own value, or is exhausted. -/
theorem next_cases (c : Settings) (s : DynamicQuestManager) (i : ManagerInput) :
    (managerStep c s i).2.nextDynamicQuestId = s.nextDynamicQuestId ∨
      (managerStep c s i).2.nextDynamicQuestId =
        (advanceDynamicQuestIdCounter s.nextDynamicQuestId).2 := by
  cases i with
  | submit w record creature source retrieved nowMs requestId =>
    rcases submit_cases c w s record creature source retrieved nowMs requestId with
      hr' | ⟨context, provenance, -, -, -, hr'⟩ <;>
    simp [managerStep, hr']
  | respond w requestId agent success response nowMs offerMs =>
    have hcases := respond_cases c w s requestId agent success response nowMs offerMs
    simp only [managerStep]
    generalize handleDynamicTaskResponse c w s requestId agent success response nowMs offerMs = res at hcases ⊢
    obtain ⟨created, s'⟩ := res
    dsimp only at hcases ⊢
    cases hcases with
    | ignored => exact .inl rfl
    | refused _ _ hn => exact hn
    | created _ _ _ _ _ hcreates =>
      cases hcreates with
      | offered => exact .inr rfl
  | accept w id playerGuid nowMs =>
    rcases accept_cases c w s id playerGuid nowMs with ⟨reason, -, hr'⟩ | ⟨q, q', -, -, hr'⟩ <;>
    simp [managerStep, hr']
  | complete w id playerGuid grant revert nowMs =>
    have hcases := complete_cases c w s id playerGuid grant revert nowMs
    simp only [managerStep]
    generalize completeDynamicQuestForPlayer c w s id playerGuid grant revert nowMs = turnIn at hcases ⊢
    cases hcases <;> exact .inl rfl
  | maintain w nowMs => exact .inl (discover_spec c s).2.2.1
  | kill event => exact .inl rfl
  | drain nowMs => exact .inl rfl
  | reclaim w nowMs =>
    simp only [managerStep, reclaimDynamicQuestsAfterKillCreditLoss]
    split_ifs <;> exact .inl rfl

theorem advance_cases (n : UInt64) :
    (advanceDynamicQuestIdCounter n).2 = 0 ∨ n < (advanceDynamicQuestIdCounter n).2 := by
  unfold advanceDynamicQuestIdCounter
  split_ifs with h0 hmax
  · exact .inl rfl
  · exact .inl rfl
  · refine .inr (UInt64.lt_iff_toNat_lt.mpr ?_)
    have hne : n.toNat ≠ 18446744073709551615 := fun h => hmax (UInt64.toNat_inj.mp h)
    have hlt := n.toNat_lt
    rw [UInt64.toNat_add, UInt64.toNat_one, Nat.mod_eq_of_lt (by omega)]
    omega

/-! ### The accounts -/

/-- The ids that were handed out, oldest first. -/
def createdIds (tr : Trace) : List UInt64 :=
  tr.filterMap fun e => e.output.created

def publications (tr : Trace) : List Publication :=
  tr.flatMap fun e => e.output.published

/-- A quest that was created in a run with the values that its offer still shows. -/
def OfferedAs (tr : Trace) (q : DynamicQuestInstance) : Prop :=
  ∃ e ∈ tr, e.output.created = some q.id ∧ e.post.registry.quests[q.id]? = some q.asOffered

/-- The books of a manager after the events of a run. -/
structure Accounts (c : Settings) (tr : Trace) (s : DynamicQuestManager) : Prop where
  registry : Inv s.registry
  still_open : ∀ (k : UInt64) (q : DynamicQuestInstance), s.registry.quests[k]? = some q →
    isTerminal q.state = false ∧ OfferedAs tr q
  published : ∀ p ∈ publications tr, isTerminal p.quest.state = true ∧ OfferedAs tr p.quest ∧
    ∃ location, buildDynamicQuestOutcomeWorldEvent p.quest location = some p.event
  balanced : ((publications tr).map (fun p => p.quest.id) ++ s.registry.quests.keys).Perm (createdIds tr)
  increasing : (createdIds tr).Pairwise (· < ·)
  below : s.nextDynamicQuestId ≠ 0 → ∀ id ∈ createdIds tr, id < s.nextDynamicQuestId
  room : s.registry.quests.size ≤ c.maxLive.toNat

theorem count_keys (m : ExtTreeMap UInt64 DynamicQuestInstance) (k : UInt64) :
    m.keys.count k = if (m[k]?).isSome then 1 else 0 := by
  rw [(OrdMap.nodup_keys m).count]
  refine if_congr ?_ rfl rfl
  rw [OrdMap.mem_keys_iff, Option.isSome_iff_exists]

theorem count_ids (published : List Publication) (k : UInt64) :
    (published.map fun p => p.quest.id).count k = (about k published).length := by
  rw [List.count, List.countP_map, about, List.countP_eq_length_filter]
  congr 1

/-- One call moves ids from the stored to the published, and adds what it creates. -/
theorem Fate.balanced (hf : ∀ k : UInt64, Fate s i o k s.registry.quests[k]? s'.registry.quests[k]?) :
    (o.published.map (fun p => p.quest.id) ++ s'.registry.quests.keys).Perm
      (s.registry.quests.keys ++ o.created.toList) := by
  rw [List.perm_iff_count]
  intro k
  rw [List.count_append, List.count_append, count_ids, count_keys, count_keys]
  have hk := hf k
  generalize s.registry.quests[k]? = x at hk ⊢
  generalize s'.registry.quests[k]? = y at hk ⊢
  cases hk with
  | kept hcreated hpublished =>
    have hcount : o.created.toList.count k = 0 := by
      rw [List.count_eq_zero]
      intro hmem
      exact hcreated (Option.mem_toList.mp hmem)
    rw [hpublished, hcount]
    simp
  | created hcreated hpublished =>
    rw [hcreated, hpublished]
    simp [about]
  | accepted _ _ hcreated hpublished =>
    rw [hcreated, hpublished]
    simp [about]
  | credited _ hcreated hpublished =>
    rw [hcreated, hpublished]
    simp [about]
  | ended hcreated _ _ _ hpublished =>
    rw [hcreated, hpublished]
    simp

theorem createdIds_append (tr : Trace) (e : Event DynamicQuestManager ManagerInput ManagerOutput) :
    createdIds (tr ++ [e]) = createdIds tr ++ e.output.created.toList := by
  rw [createdIds, List.filterMap_append]
  congr 1

theorem publications_append (tr : Trace) (e : Event DynamicQuestManager ManagerInput ManagerOutput) :
    publications (tr ++ [e]) = publications tr ++ e.output.published := by
  simp [publications]

theorem OfferedAs.mono {tr : Trace} (h : OfferedAs tr q) (tr' : Trace) : OfferedAs (tr ++ tr') q := by
  obtain ⟨e, he, hcreated, hq⟩ := h
  exact ⟨e, List.mem_append_left _ he, hcreated, hq⟩

theorem OfferedAs.evolves {tr : Trace} (h : OfferedAs tr q) (hev : Evolves q q') : OfferedAs tr q' := by
  rwa [OfferedAs, hev.id_eq, hev.asOffered]

/-- A publication of a call is the end of a quest that was stored. -/
theorem Fate.publishes (hf : ∀ k : UInt64, Fate s i o k s.registry.quests[k]? s'.registry.quests[k]?)
    {p : Publication} (hp : p ∈ o.published) : ∃ q t nowMs location,
      s.registry.quests[p.quest.id]? = some q ∧ Moves nowMs q t p.quest ∧
        isTerminal p.quest.state = true ∧
        buildDynamicQuestOutcomeWorldEvent p.quest location = some p.event ∧
        about p.quest.id o.published = [p] := by
  have hmem : p ∈ about p.quest.id o.published :=
    List.mem_filter.mpr ⟨hp, decide_eq_true rfl⟩
  have hk := hf p.quest.id
  generalize s.registry.quests[p.quest.id]? = x at hk ⊢
  generalize s'.registry.quests[p.quest.id]? = y at hk
  cases hk with
  | kept _ hpublished => simp [hpublished] at hmem
  | created _ hpublished | accepted _ _ _ hpublished | credited _ _ hpublished => simp [hpublished] at hp
  | ended _ hmove hterminal hevent hpublished =>
    have heq := hpublished
    rw [hpublished, List.mem_singleton] at hmem
    subst hmem
    exact ⟨_, _, _, _, rfl, hmove, hterminal, hevent, heq⟩

theorem Accounts.step {tr : Trace} (h : Accounts c tr s) (i : ManagerInput) :
    Accounts c (tr ++ [callEvent c s i]) (managerStep c s i).2 := by
  have hf := managerStep_fate c h.registry i
  have hbalanced := Fate.balanced hf
  have hstays (k : UInt64) (q' : DynamicQuestInstance)
      (hq' : (managerStep c s i).2.registry.quests[k]? = some q') := by
    have hk := hf k
    rw [hq'] at hk
    exact hk.stays fun q hq => ⟨h.registry.good k q hq, h.registry.id k q hq, (h.still_open k q hq).1⟩
  have hnew (id : UInt64) (hid : (managerStep c s i).1.created = some id) := created_fresh hid
  refine ⟨⟨fun k q hq => (hstays k q hq).2.1, fun k q hq => (hstays k q hq).1⟩, fun k q' hq' => ?_,
    fun p hp => ?_, ?_, ?_, fun hne id hid => ?_, ?_⟩
  · obtain ⟨-, hid, hopen, hcreated | ⟨q, hq, hev⟩⟩ := hstays k q' hq'
    · refine ⟨hopen, _, List.mem_append_right _ (List.mem_singleton.mpr rfl), ?_, ?_⟩
      · rw [hid]
        exact hcreated.1
      · rw [hid, hcreated.2]
        exact hq'
    · exact ⟨hopen, ((h.still_open k q hq).2.evolves hev).mono _⟩
  · rw [publications_append, List.mem_append] at hp
    rcases hp with hp | hp
    · obtain ⟨hterminal, hoffered, hevent⟩ := h.published p hp
      exact ⟨hterminal, hoffered.mono _, hevent⟩
    · obtain ⟨q, t, nowMs, location, hq, hmove, hterminal, hevent, -⟩ := Fate.publishes hf hp
      exact ⟨hterminal, ((h.still_open _ q hq).2.evolves (hmove.evolves (h.registry.good _ q hq))).mono _,
        location, hevent⟩
  · rw [publications_append, createdIds_append, List.map_append, List.append_assoc]
    refine (List.Perm.append_left _ hbalanced).trans ?_
    rw [← List.append_assoc]
    exact List.Perm.append_right _ h.balanced
  · rw [createdIds_append, List.pairwise_append]
    refine ⟨h.increasing, ?_, fun x hx y hy => ?_⟩
    · cases (managerStep c s i).1.created <;> simp
    · obtain ⟨hy', hne, -⟩ := hnew y (Option.mem_toList.mp hy)
      rw [hy']
      exact h.below (hy' ▸ hne) x hx
  · rw [createdIds_append, List.mem_append] at hid
    have hgrows : s.nextDynamicQuestId ≠ 0 →
        s.nextDynamicQuestId ≤ (managerStep c s i).2.nextDynamicQuestId := by
      intro _
      rcases next_cases c s i with hsame | hadvance
      · rw [hsame]
      · rw [hadvance] at hne ⊢
        rcases advance_cases s.nextDynamicQuestId with hzero | hlt
        · exact absurd hzero hne
        · exact hlt.le
    have hnext : s.nextDynamicQuestId ≠ 0 := by
      intro hzero
      rcases next_cases c s i with hsame | hadvance
      · exact hne (hsame.trans hzero)
      · rw [hadvance, hzero] at hne
        exact hne rfl
    rcases hid with hid | hid
    · exact (h.below hnext id hid).trans_le (hgrows hnext)
    · obtain ⟨hid', -, -, hadvance⟩ := hnew id (Option.mem_toList.mp hid)
      rw [hadvance] at hne ⊢
      rcases advance_cases id with hzero | hlt
      · exact absurd hzero hne
      · exact hlt
  · have hlength := hbalanced.length_eq
    rw [List.length_append, List.length_append, ExtTreeMap.length_keys, ExtTreeMap.length_keys] at hlength
    have hroom := h.room
    cases hcreated : (managerStep c s i).1.created with
    | none =>
      rw [hcreated, Option.toList_none, List.length_nil] at hlength
      omega
    | some id =>
      obtain ⟨-, -, hlt, -⟩ := hnew id hcreated
      rw [hcreated, Option.toList_some, List.length_singleton] at hlength
      have hmax := c.maxLive.toNat_lt
      have hcount : (s.registry.getCount).toNat = s.registry.quests.size := by
        rw [getCount, Nat.toUInt32_eq, UInt32.toNat_ofNat']
        exact Nat.mod_eq_of_lt (by omega)
      rw [UInt32.lt_iff_toNat_lt, hcount] at hlt
      omega

theorem accounts_empty (c : Settings) : Accounts c [] {} where
  registry := inv_empty
  still_open := by simp
  published := by simp [publications]
  balanced := by simp [publications, createdIds]
  increasing := List.Pairwise.nil
  below := by simp [createdIds]
  room := by simp

theorem accounts_of_run {tr : Trace} (hrun : (manager c).Run {} tr s) : Accounts c tr s :=
  hrun.history (fun tr s i o s' h hstep => by
    obtain ⟨rfl, rfl⟩ := manager_step hstep
    exact h.step i) (accounts_empty c)

/-- Every quest that a run created is still open in the registry or has had its one outcome
published, under ids that are never given twice. -/
theorem no_quest_is_lost {tr : Trace} (hrun : (manager c).Run {} tr s) :
    (createdIds tr).Pairwise (· < ·) ∧
      ((publications tr).map (fun p => p.quest.id) ++ s.registry.quests.keys).Perm (createdIds tr) ∧
      (∀ p ∈ publications tr, isTerminal p.quest.state = true ∧ OfferedAs tr p.quest ∧
        ∃ location, buildDynamicQuestOutcomeWorldEvent p.quest location = some p.event) ∧
      (∀ (k : UInt64) (q : DynamicQuestInstance), s.registry.quests[k]? = some q →
        q.id = k ∧ (q.state = .offered ∨ q.state = .active) ∧ q.Good ∧ OfferedAs tr q) ∧
      s.registry.quests.size ≤ c.maxLive.toNat := by
  have h := accounts_of_run hrun
  refine ⟨h.increasing, h.balanced, h.published, fun k q hq => ?_, h.room⟩
  obtain ⟨hopen, hoffered⟩ := h.still_open k q hq
  exact ⟨h.registry.id k q hq, isTerminal_eq_false_iff.mp hopen, h.registry.good k q hq, hoffered⟩

/-! ### A quest from its request to its reward -/

def sampleSettings : Settings where
  dynamicTaskEnabled := true
  remoteInferenceEnabled := true
  hasClient := true
  maxInFlight := 1
  responseMaxAgeMs := 100
  sourceMaxAgeMs := 100
  limits := ⟨1, 50, 1000, 30⟩
  maxLive := 1
  playerAcceptMaxRangeYards := 5
  maintenanceScanMaxPerPass := 1

def sampleGiver : GiverRecord := ⟨7, true, true, .aiWorldControlled, ⟨70⟩, 0, none⟩

def sampleSource : Memory.MemoryRecord :=
  { owner := 7, sourceEventId := 3, sourceOccurredAtMs := 10, sourceEventType := some .livestockKilled }

/-- A giver, a wolf ten yards from it and a player two yards from it. -/
def sampleWorld : World where
  record _ := some { sampleGiver with snapshotSequence := 1 }
  creature _ := some ⟨⟨70⟩, true, {}⟩
  memories _ := [sampleSource,
    { owner := 7, type := .creatureSeen, target := { guid := ⟨90⟩, entry := 9 }, lastObservedAtMs := 15 }]
  target _ _ := some ⟨⟨90⟩, 9, 0, true, false, true, 10, [119]⟩
  player _ := some ⟨true, 0, 100⟩
  distance _ _ := 2

/-- Kill one wolf for thirty copper. -/
def sampleTask : Inference.DynamicTaskResponse Float32 :=
  ⟨1, 1, 7, 1, ⟨.killCreature, 1, 1, 20, 1000, 30, [87], [87]⟩⟩

def samplePayment (money : UInt32) (amount : ℤ) : Bool × UInt32 := (true, money + UInt32.ofNat amount.toNat)

def sampleInputs : List ManagerInput := [
  .submit sampleWorld sampleGiver ⟨⟨70⟩, true, {}⟩ sampleSource [] 20 1,
  .respond sampleWorld 1 7 true (some sampleTask) 30 31,
  .accept sampleWorld 1 ⟨5⟩ 40,
  .kill { killerGuid := ⟨5⟩, victimEntry := 9 },
  .drain fun _ => 50,
  .complete sampleWorld 1 ⟨5⟩ samplePayment samplePayment 60]

theorem no_quest_is_lost_sample : ∃ tr s, (manager sampleSettings).Run {} tr s ∧ createdIds tr = [1] ∧
    ((publications tr).map (fun p => p.quest.id) ++ s.registry.quests.keys).Perm [1] ∧
    s.registry.quests.keys = [] := by
  obtain ⟨⟨tr, s⟩, hexec⟩ := Option.isSome_iff_exists.mp
    (show ((manager sampleSettings).exec {} sampleInputs).isSome = true by decide +kernel)
  have hend : ((manager sampleSettings).exec {} sampleInputs).map
      (fun r => (createdIds r.1, r.2.registry.quests.keys)) = some ([1], []) := by decide +kernel
  rw [hexec, Option.map_some, Option.some.injEq, Prod.mk.injEq] at hend
  have hrun := Machine.run_of_exec hexec
  obtain ⟨-, hbalanced, -⟩ := no_quest_is_lost hrun
  rw [hend.1] at hbalanced
  exact ⟨tr, s, hrun, hend.1, hbalanced, hend.2⟩

end AIWorld.Quest
