import AIWorld.Quest.Registry

/-! What one call does to the registry: nothing, one new instance, one legal
transition, the failure of every live active instance, or one removal. -/

namespace AIWorld.Quest

open Std Lib

/-- The instance a call asks to move, the transition and the time. -/
def Op.transition? : Op → Option (UInt64 × Transition × UInt64)
  | .accept id playerGuid nowMs => some (id, .accept playerGuid, nowMs)
  | .applyProgress id playerGuid progressEventId nowMs =>
    some (id, .applyProgress playerGuid progressEventId, nowMs)
  | .complete id nowMs => some (id, .complete, nowMs)
  | .fail id nowMs => some (id, .fail, nowMs)
  | .expire id nowMs => some (id, .expire, nowMs)
  | _ => none

/-- The calls that take an instance out of the registry. -/
def Op.Removes (id : UInt64) : Op → Prop
  | .remove quest | .terminateForReplayContainment quest _ => quest = id
  | _ => False

theorem not_removes_of_transition {op : Op} {id nowMs k : UInt64} {t : Transition}
    (hop : op.transition? = some (id, t, nowMs)) : ¬ op.Removes k := by
  cases op <;> first | contradiction | exact not_false

/-- The calls that did nothing. -/
def Outcome.Rejected : Outcome → Prop
  | .transition result => result.isAccepted = false
  | .removed b => b = false
  | .failed instances => instances = []
  | .terminated result => result.failedInstance = none ∧ result.removed = false

/-- What `FailAllActiveInstances` makes of an instance, if it changes it. -/
def DynamicQuestInstance.failing (nowMs : UInt64) (q : DynamicQuestInstance) :
    Option DynamicQuestInstance :=
  if q.state = .active ∧ isDynamicQuestExpired q nowMs = false then
    some { q with state := .failed }
  else none

namespace DynamicQuestRegistry

def put (r : DynamicQuestRegistry) (id : UInt64) (q : DynamicQuestInstance) :
    DynamicQuestRegistry :=
  { r with quests := r.quests.insert id q }

def add (r : DynamicQuestRegistry) (q : DynamicQuestInstance) : DynamicQuestRegistry where
  quests := r.quests.insert q.id q
  questIdsByGiver :=
    r.questIdsByGiver.insert q.giver ((r.questIdsByGiver[q.giver]?).getD [] ++ [q.id])

/-- The failed value of the instance with an id, if it is active and live. -/
def failing (r : DynamicQuestRegistry) (nowMs id : UInt64) : Option DynamicQuestInstance :=
  (r.quests[id]?).bind (·.failing nowMs)

def failAll (r : DynamicQuestRegistry) (nowMs : UInt64) : DynamicQuestRegistry :=
  { r with quests := r.quests.map fun _ q => (q.failing nowMs).getD q }

end DynamicQuestRegistry

open DynamicQuestRegistry

variable {r r' : DynamicQuestRegistry} {op : Op} {o : Outcome} {id nowMs : UInt64}
  {q q' : DynamicQuestInstance}

/-! ### Transitions -/

theorem failDynamicQuest_of_some (h : q.failing nowMs = some q') :
    failDynamicQuest q nowMs = accepted q' := by
  unfold DynamicQuestInstance.failing at h
  split_ifs at h with hfail
  cases h
  simp [failDynamicQuest, isTerminal, hfail]

theorem failDynamicQuest_of_none (h : q.failing nowMs = none) :
    ∃ reason, reason ≠ .none ∧ failDynamicQuest q nowMs = reject reason := by
  rcases attempt_cases .fail q nowMs with hr | ⟨_, _, hmove⟩
  · exact hr
  · cases hmove with
    | fail hstate hlive => simp [DynamicQuestInstance.failing, hstate, hlive] at h

/-- A commit changes nothing or stores what its judge accepted. -/
theorem commit_cases (r : DynamicQuestRegistry) (id : UInt64) (t : Transition) (nowMs : UInt64) :
    (∃ reason, reason ≠ .none ∧ r.commit id (t.attempt · nowMs) = (reject reason, r)) ∨
      ∃ q q', r.quests[id]? = some q ∧ Moves nowMs q t q' ∧
        r.commit id (t.attempt · nowMs) = (accepted q', r.put id q') := by
  unfold commit
  cases hq : r.quests[id]? with
  | none => exact .inl ⟨.questNotFound, by decide, rfl⟩
  | some q =>
    rcases attempt_cases t q nowMs with ⟨reason, hreason, hr⟩ | ⟨q', hr, hmove⟩
    · refine .inl ⟨reason, hreason, ?_⟩
      simp only [hr, reject_isAccepted]
    · refine .inr ⟨q, q', rfl, hmove, ?_⟩
      simp only [hr, accepted_isAccepted]
      rfl

theorem fail_of_some (hq : r.quests[id]? = some q) (h : q.failing nowMs = some q') :
    r.fail id nowMs = (accepted q', r.put id q') := by
  simp only [DynamicQuestRegistry.fail, commit, hq, failDynamicQuest_of_some h,
    accepted_isAccepted]
  rfl

theorem fail_of_none (h : ∀ q, r.quests[id]? = some q → q.failing nowMs = none) :
    ∃ reason, reason ≠ .none ∧ r.fail id nowMs = (reject reason, r) := by
  rcases commit_cases r id .fail nowMs with hr | ⟨q, _, hq, hmove, -⟩
  · exact hr
  · cases hmove with
    | fail hstate hlive =>
      have := h q hq
      simp [DynamicQuestInstance.failing, hstate, hlive] at this

/-- The loop over distinct ids fails each one that is active and live. -/
theorem failLoop_eq (nowMs : UInt64) (ids : List UInt64) (hids : ids.Nodup)
    (done : List DynamicQuestInstance) (r : DynamicQuestRegistry) :
    ids.foldl (failOne nowMs) (done, r) =
      (done ++ ids.filterMap (r.failing nowMs),
        { r with quests := r.quests.map fun id q =>
          if id ∈ ids then (q.failing nowMs).getD q else q }) := by
  induction ids generalizing done r with
  | nil => simp [OrdMap.map_id_of]
  | cons id ids ih =>
    obtain ⟨hid', hids⟩ := List.nodup_cons.mp hids
    rw [List.foldl_cons]
    cases hq : r.failing nowMs id with
    | none =>
      have hnone : ∀ q, r.quests[id]? = some q → q.failing nowMs = none := by
        intro q hid
        rwa [DynamicQuestRegistry.failing, hid, Option.bind_some] at hq
      obtain ⟨reason, -, hfail⟩ := fail_of_none hnone
      have hone : failOne nowMs (done, r) id = (done, r) := by
        simp only [failOne, hfail, reject_isAccepted]
      rw [hone, ih hids, List.filterMap_cons_none hq]
      have hmap : (r.quests.map fun k q => if k ∈ ids then (q.failing nowMs).getD q else q) =
          r.quests.map fun k q => if k ∈ id :: ids then (q.failing nowMs).getD q else q := by
        refine OrdMap.map_congr fun k q hk => ?_
        by_cases hkid : k = id
        · subst hkid
          simp [hnone q hk]
        · simp [hkid]
      rw [hmap]
    | some q' =>
      obtain ⟨q, hid, hq'⟩ := Option.bind_eq_some_iff.mp hq
      have hone : failOne nowMs (done, r) id = (done ++ [q'], r.put id q') := by
        simp only [failOne, fail_of_some hid hq', accepted_isAccepted]
        rfl
      have hrest : ids.filterMap ((r.put id q').failing nowMs) = ids.filterMap (r.failing nowMs) := by
        refine List.filterMap_congr fun k hk => ?_
        have hne : id ≠ k := by
          rintro rfl
          exact hid' hk
        simp only [DynamicQuestRegistry.failing, put, OrdMap.getElem?_insert_ne _ _ hne]
      have hmap : ((r.put id q').quests.map fun k q =>
            if k ∈ ids then (q.failing nowMs).getD q else q) =
          r.quests.map fun k q => if k ∈ id :: ids then (q.failing nowMs).getD q else q := by
        apply ExtTreeMap.ext_getElem?
        intro k
        rw [ExtTreeMap.getElem?_map, ExtTreeMap.getElem?_map, put, OrdMap.getElem?_insert]
        by_cases hk : id = k
        · subst hk
          simp [hid, hid', hq']
        · simp [hk, Ne.symm hk]
      rw [hone, ih hids, List.filterMap_cons_some hq, hrest, hmap, List.append_assoc]
      rfl

theorem nodup_getAllActiveIds (r : DynamicQuestRegistry) : r.getAllActiveIds.Nodup := by
  have hkeys : (r.quests.toList.map Prod.fst).Nodup := by
    rw [ExtTreeMap.map_fst_toList_eq_keys]
    exact OrdMap.nodup_keys _
  exact hkeys.sublist (List.filter_sublist.map _)

theorem mem_getAllActiveIds {id : UInt64} :
    id ∈ r.getAllActiveIds ↔ ∃ q, r.quests[id]? = some q ∧ q.state = .active := by
  simp [getAllActiveIds, ExtTreeMap.mem_toList_iff_getElem?_eq_some]

theorem failAllActiveInstances_eq (r : DynamicQuestRegistry) (nowMs : UInt64) :
    ∃ failed, r.failAllActiveInstances nowMs = (failed, r.failAll nowMs) ∧
      ∀ q', q' ∈ failed ↔ ∃ (id : UInt64) (q : DynamicQuestInstance),
        r.quests[id]? = some q ∧ q.failing nowMs = some q' := by
  have hactive {id : UInt64} {q : DynamicQuestInstance} (hq : r.quests[id]? = some q)
      (hid : id ∉ r.getAllActiveIds) : q.failing nowMs = none := by
    refine if_neg fun h => hid ?_
    exact mem_getAllActiveIds.mpr ⟨q, hq, h.1⟩
  refine ⟨r.getAllActiveIds.filterMap (r.failing nowMs),
    (failLoop_eq nowMs _ (nodup_getAllActiveIds r) [] r).trans ?_, fun q' => ?_⟩
  · rw [failAll]
    congr 2
    refine OrdMap.map_congr fun id q hq => ?_
    split_ifs with hid
    · rfl
    · rw [hactive hq hid]
      rfl
  · simp only [List.mem_filterMap, DynamicQuestRegistry.failing, Option.bind_eq_some_iff]
    constructor
    · rintro ⟨id, -, q, hq, hq'⟩
      exact ⟨id, q, hq, hq'⟩
    · rintro ⟨id, q, hq, hq'⟩
      refine ⟨id, ?_, q, hq, hq'⟩
      by_contra hid
      rw [hactive hq hid] at hq'
      contradiction

/-! ### Effects -/

/-- The effects of a call on the registry. -/
inductive Effect (r : DynamicQuestRegistry) : Op → Outcome → DynamicQuestRegistry → Prop
  | rejected {op : Op} {o : Outcome} (ho : o.Rejected)
      (hgone : ∀ id, op.Removes id → r.quests[id]? = none) : Effect r op o r
  | offered {id nowMs : UInt64} {proposal : QuestProposal} {location : WorldEventLocation}
      {q : DynamicQuestInstance} (hid : id ≠ 0) (hnew : r.quests[id]? = none)
      (hq : offerDynamicQuest id proposal location nowMs = accepted q) :
      Effect r (.offer id proposal location nowMs) (.transition (accepted q)) (r.add q)
  | moved {op : Op} {id nowMs : UInt64} {t : Transition} {q q' : DynamicQuestInstance}
      (hop : op.transition? = some (id, t, nowMs)) (hq : r.quests[id]? = some q)
      (hmove : Moves nowMs q t q') : Effect r op (.transition (accepted q')) (r.put id q')
  | failed {nowMs : UInt64} {instances : List DynamicQuestInstance} (hne : instances ≠ [])
      (hfailed : ∀ q', q' ∈ instances ↔ ∃ (id : UInt64) (q : DynamicQuestInstance),
        r.quests[id]? = some q ∧ q.failing nowMs = some q') :
      Effect r (.failAllActiveInstances nowMs) (.failed instances) (r.failAll nowMs)
  | removed {id : UInt64} {q : DynamicQuestInstance} (hq : r.quests[id]? = some q) :
      Effect r (.remove id) (.removed true) (r.remove id).2
  | terminated {id nowMs : UInt64} {q : DynamicQuestInstance}
      {result : DynamicQuestTerminationResult} (hq : r.quests[id]? = some q)
      (hfailed : result.failedInstance = q.failing nowMs) (hremoved : result.removed = true) :
      Effect r (.terminateForReplayContainment id nowMs) (.terminated result) (r.remove id).2

theorem offerDynamicQuest_accepted {proposal : QuestProposal} {location : WorldEventLocation}
    (h : offerDynamicQuest id proposal location nowMs = accepted q) :
    q.id = id ∧ q.giver = proposal.giver ∧ q.asOffered = q := by
  unfold offerDynamicQuest at h
  split_ifs at h <;> cases h
  exact ⟨rfl, rfl, rfl⟩

theorem offerDynamicQuest_cases (id : UInt64) (proposal : QuestProposal)
    (location : WorldEventLocation) (nowMs : UInt64) :
    offerDynamicQuest id proposal location nowMs = reject .invalidQuestId ∨
      id ≠ 0 ∧ ∃ q, offerDynamicQuest id proposal location nowMs = accepted q := by
  unfold offerDynamicQuest
  split_ifs with hid
  · exact .inl rfl
  · exact .inr ⟨hid, _, rfl⟩

theorem offer_cases (r : DynamicQuestRegistry) (id : UInt64) (proposal : QuestProposal)
    (location : WorldEventLocation) (nowMs : UInt64) :
    (∃ reason, reason ≠ .none ∧ r.offer id proposal location nowMs = (reject reason, r)) ∨
      ∃ q, id ≠ 0 ∧ r.quests[id]? = none ∧
        offerDynamicQuest id proposal location nowMs = accepted q ∧
        r.offer id proposal location nowMs = (accepted q, r.add q) := by
  unfold offer
  rcases offerDynamicQuest_cases id proposal location nowMs with hr | ⟨hid, q, hq⟩
  · exact .inl ⟨.invalidQuestId, by decide, by rw [hr]; rfl⟩
  · obtain ⟨rfl, -⟩ := offerDynamicQuest_accepted hq
    simp only [hq, accepted_isAccepted, accepted_result, ← ExtTreeMap.isSome_getElem?_eq_contains]
    cases hnew : r.quests[q.id]? with
    | none => exact .inr ⟨q, hid, rfl, rfl, rfl⟩
    | some old => exact .inl ⟨.duplicateQuestId, by decide, rfl⟩

theorem remove_none (hq : r.quests[id]? = none) : r.remove id = (false, r) := by
  simp only [remove, hq]

theorem remove_some (hq : r.quests[id]? = some q) : (r.remove id).1 = true := by
  simp only [remove, hq]
  split <;> rfl

theorem remove_quests (hq : r.quests[id]? = some q) :
    (r.remove id).2.quests = r.quests.erase id := by
  simp only [remove, hq]
  split <;> rfl

theorem remove_put (hq : r.quests[id]? = some q) (hgiver : q'.giver = q.giver) :
    (r.put id q').remove id = r.remove id := by
  have herase : (r.quests.insert id q').erase id = r.quests.erase id := by
    apply ExtTreeMap.ext_getElem?
    intro k
    rw [OrdMap.getElem?_erase, OrdMap.getElem?_erase, OrdMap.getElem?_insert]
    split_ifs <;> rfl
  simp only [remove, put, ExtTreeMap.getElem?_insert_self, hq, hgiver, herase]

theorem failing_eq_some (h : q.failing nowMs = some q') :
    q.state = .active ∧ isDynamicQuestExpired q nowMs = false ∧ q' = { q with state := .failed } := by
  unfold DynamicQuestInstance.failing at h
  split_ifs at h with hfail
  cases h
  exact ⟨hfail.1, hfail.2, rfl⟩

theorem terminate_effect (r : DynamicQuestRegistry) (id nowMs : UInt64) :
    ∃ result, r.terminateForReplayContainment id nowMs = (result, (r.remove id).2) ∧
      Effect r (.terminateForReplayContainment id nowMs) (.terminated result) (r.remove id).2 := by
  unfold terminateForReplayContainment
  cases hq : r.quests[id]? with
  | none =>
    have hnone : ∀ q, r.quests[id]? = some q → q.failing nowMs = none := by simp [hq]
    obtain ⟨reason, -, hfail⟩ := fail_of_none hnone
    simp only [hfail, remove_none hq, reject_isAccepted]
    refine ⟨_, rfl, .rejected ⟨rfl, rfl⟩ ?_⟩
    rintro _ rfl
    exact hq
  | some q =>
    cases hf : q.failing nowMs with
    | none =>
      have hnone : ∀ q, r.quests[id]? = some q → q.failing nowMs = none := by simp [hq, hf]
      obtain ⟨reason, -, hfail⟩ := fail_of_none hnone
      simp only [hfail, reject_isAccepted]
      exact ⟨_, rfl, .terminated hq hf.symm (remove_some hq)⟩
    | some q' =>
      obtain ⟨-, -, rfl⟩ := failing_eq_some hf
      have hput : (r.put id { q with state := .failed }).remove id = r.remove id :=
        remove_put hq rfl
      simp only [fail_of_some hq hf, hput, accepted_isAccepted]
      exact ⟨_, rfl, .terminated hq hf.symm (remove_some hq)⟩

theorem commit_effect (op : Op) {t : Transition} (hop : op.transition? = some (id, t, nowMs)) :
    Effect r op (.transition (r.commit id (t.attempt · nowMs)).1)
      (r.commit id (t.attempt · nowMs)).2 := by
  rcases commit_cases r id t nowMs with ⟨reason, -, hr⟩ | ⟨q, q', hq, hmove, hr⟩
  · rw [hr]
    exact .rejected reject_isAccepted fun k hk => absurd hk (not_removes_of_transition hop)
  · rw [hr]
    exact .moved hop hq hmove

/-- Every call has its effect. -/
theorem step_effect (r : DynamicQuestRegistry) (op : Op) :
    Effect r op (step r op).1 (step r op).2 := by
  cases op with
  | offer quest proposal location nowMs =>
    rcases offer_cases r quest proposal location nowMs with ⟨reason, -, hr⟩ | ⟨q, hid, hnew, hq, hr⟩
    · simp only [step, hr]
      exact .rejected reject_isAccepted nofun
    · simp only [step, hr]
      exact .offered hid hnew hq
  | accept quest playerGuid nowMs => exact commit_effect (.accept quest playerGuid nowMs) rfl
  | applyProgress quest playerGuid event nowMs =>
    exact commit_effect (.applyProgress quest playerGuid event nowMs) rfl
  | complete quest nowMs => exact commit_effect (.complete quest nowMs) rfl
  | fail quest nowMs => exact commit_effect (.fail quest nowMs) rfl
  | expire quest nowMs => exact commit_effect (.expire quest nowMs) rfl
  | remove quest =>
    simp only [step]
    cases hq : r.quests[quest]? with
    | none =>
      rw [remove_none hq]
      refine .rejected rfl ?_
      rintro _ rfl
      exact hq
    | some q =>
      have := Effect.removed hq
      rwa [← remove_some hq] at this
  | failAllActiveInstances nowMs =>
    obtain ⟨instances, hr, hfailed⟩ := failAllActiveInstances_eq r nowMs
    simp only [step, hr]
    by_cases hne : instances = []
    · subst hne
      have hmap : r.failAll nowMs = r := by
        rw [failAll, OrdMap.map_id_of]
        intro id q hq
        cases hf : q.failing nowMs with
        | none => rfl
        | some q' => exact absurd ((hfailed q').mpr ⟨id, q, hq, hf⟩) List.not_mem_nil
      simp only [Prod.map_apply, hmap]
      exact .rejected rfl nofun
    · exact .failed hne hfailed
  | terminateForReplayContainment quest nowMs =>
    obtain ⟨result, hr, he⟩ := terminate_effect r quest nowMs
    simp only [step, hr]
    exact he

/-! ### One instance -/

/-- The calls that ask an instance for a transition. -/
def Op.AsksFor (id : UInt64) (t : Transition) (nowMs : UInt64) (op : Op) : Prop :=
  op.transition? = some (id, t, nowMs) ∨ op = .failAllActiveInstances nowMs ∧ t = .fail

/-- What a call does to the entry with one id. -/
inductive Change (op : Op) (o : Outcome) (id : UInt64) :
    Option DynamicQuestInstance → Option DynamicQuestInstance → Prop
  | kept {x : Option DynamicQuestInstance} (hstays : ¬ op.Removes id) : Change op o id x x
  | moved {t : Transition} {nowMs : UInt64} {q q' : DynamicQuestInstance}
      (hstays : ¬ op.Removes id) (hasks : op.AsksFor id t nowMs) (hmove : Moves nowMs q t q') :
      Change op o id (some q) (some q')
  | offered {proposal : QuestProposal} {location : WorldEventLocation} {nowMs : UInt64}
      {q : DynamicQuestInstance} (hop : op = .offer id proposal location nowMs)
      (ho : o = .transition (accepted q)) (hid : id ≠ 0)
      (hq : offerDynamicQuest id proposal location nowMs = accepted q) :
      Change op o id none (some q)
  | removed {x : Option DynamicQuestInstance} (hop : op.Removes id) : Change op o id x none

theorem Effect.change (he : Effect r op o r') (id : UInt64) :
    Change op o id r.quests[id]? r'.quests[id]? := by
  cases he with
  | rejected _ hgone =>
    by_cases hop : op.Removes id
    · rw [hgone id hop]
      exact .removed hop
    · exact .kept hop
  | @offered k nowMs proposal location q hk hnew hq =>
    have hqk : q.id = k := (offerDynamicQuest_accepted hq).1
    rw [add, hqk, OrdMap.getElem?_insert]
    split_ifs with hkid
    · subst hkid
      rw [hnew]
      exact .offered rfl rfl hk hq
    · exact .kept not_false
  | @moved _ k nowMs t q q' hop hq hmove =>
    have hstays := not_removes_of_transition (k := id) hop
    rw [put, OrdMap.getElem?_insert]
    split_ifs with hkid
    · subst hkid
      rw [hq]
      exact .moved hstays (.inl hop) hmove
    · exact .kept hstays
  | @failed nowMs =>
    rw [failAll, ExtTreeMap.getElem?_map]
    cases hq : r.quests[id]? with
    | none => exact .kept not_false
    | some q =>
      rw [Option.map_some]
      cases hf : q.failing nowMs with
      | none => exact .kept not_false
      | some q' =>
        obtain ⟨hstate, hlive, rfl⟩ := failing_eq_some hf
        exact .moved not_false (.inr ⟨rfl, rfl⟩) (.fail hstate hlive)
  | @removed k q hq =>
    rw [remove_quests hq, OrdMap.getElem?_erase]
    split_ifs with hkid
    · exact .removed hkid
    · exact .kept hkid
  | @terminated k _ q _ hq =>
    rw [remove_quests hq, OrdMap.getElem?_erase]
    split_ifs with hkid
    · exact .removed hkid
    · exact .kept hkid

end AIWorld.Quest
