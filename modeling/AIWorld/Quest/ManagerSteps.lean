import AIWorld.Quest.GiverIndex
import AIWorld.Quest.QuestManager

/-! What one operation of the manager does to one quest. The loops over the registry are
read entry by entry: a pass of maintenance expires what has run out, a drain credits each
kill in turn, and a reclaim fails what is active. From them every operation leaves a quest
as it is, creates it, moves it on, or ends it with the one outcome it publishes. -/

namespace AIWorld.Quest

open Std Lib DynamicQuestRegistry DynamicQuestManager

variable {c : Settings} {w : World} {r r' : DynamicQuestRegistry} {s s' : DynamicQuestManager}
  {id nowMs : UInt64} {q q' : DynamicQuestInstance}

theorem manager_step {i : ManagerInput} {o : ManagerOutput} (h : (manager c).step s i = some (o, s')) :
    (managerStep c s i).1 = o ∧ (managerStep c s i).2 = s' := by
  have hboth : managerStep c s i = (o, s') := Option.some.inj h
  exact ⟨congrArg Prod.fst hboth, congrArg Prod.snd hboth⟩

theorem run_once (c : Settings) (s : DynamicQuestManager) (i : ManagerInput) :
    (manager c).Run s [callEvent c s i] (managerStep c s i).2 := .cons rfl (.nil _)

/-! ### Calls of the registry -/

theorem reaches_call (r : DynamicQuestRegistry) (op : Op) : machine.Reachable r (step r op).2 :=
  (Machine.Reachable.refl r).step (i := op) rfl

theorem reaches_trans {r₁ r₂ r₃ : DynamicQuestRegistry} (h : machine.Reachable r₁ r₂)
    (h' : machine.Reachable r₂ r₃) : machine.Reachable r₁ r₃ := by
  obtain ⟨tr, hrun⟩ := h
  obtain ⟨tr', hrun'⟩ := h'
  exact ⟨tr ++ tr', hrun.append hrun'⟩

/-- A loop whose rounds are calls of the registry is a run of it. -/
theorem reaches_foldl {α β : Type*} {f : β → α → β} (registry : β → DynamicQuestRegistry)
    (h : ∀ b a, machine.Reachable (registry b) (registry (f b a))) (as : List α) (b : β) :
    machine.Reachable (registry b) (registry (as.foldl f b)) := by
  induction as generalizing b with
  | nil => exact Machine.Reachable.refl _
  | cons a as ih => exact reaches_trans (h b a) (ih (f b a))

theorem getElem?_remove (r : DynamicQuestRegistry) (id k : UInt64) :
    (r.remove id).2.quests[k]? = if id = k then none else r.quests[k]? := by
  cases hq : r.quests[id]? with
  | none =>
    rw [remove_none hq]
    split_ifs with hk
    · exact hk ▸ hq
    · rfl
  | some q => rw [remove_quests hq, OrdMap.getElem?_erase]

/-- What a commit leaves under each id. -/
theorem getElem?_commit (r : DynamicQuestRegistry) (id : UInt64) (t : Transition) (nowMs k : UInt64) :
    (r.commit id (t.attempt · nowMs)).2.quests[k]? =
      if id = k then (r.quests[k]?).map fun q => q.after t nowMs else r.quests[k]? := by
  split_ifs with hk
  · subst hk
    unfold commit
    cases hq : r.quests[id]? with
    | none => exact hq
    | some q =>
      rw [Option.map_some, DynamicQuestInstance.after]
      rcases attempt_cases t q nowMs with ⟨reason, -, hr⟩ | ⟨q', hr, -⟩
      · simp only [hr, reject_isAccepted]
        exact hq
      · simp only [hr, accepted_isAccepted, accepted_result, Option.getD_some]
        exact ExtTreeMap.getElem?_insert_self
  · rcases commit_cases r id t nowMs with ⟨reason, -, hr⟩ | ⟨q, q', -, -, hr⟩ <;> rw [hr]
    exact OrdMap.getElem?_insert_ne _ _ hk

/-- A transition that is rejected changes nothing. -/
theorem after_cases (q : DynamicQuestInstance) (t : Transition) (nowMs : UInt64) :
    q.after t nowMs = q ∨ Moves nowMs q t (q.after t nowMs) := by
  unfold DynamicQuestInstance.after
  rcases attempt_cases t q nowMs with ⟨reason, -, hr⟩ | ⟨q', hr, hmove⟩
  · rw [hr]
    exact .inl rfl
  · rw [hr]
    exact .inr hmove

/-! ### Publications -/

/-- The publications of one quest. -/
def about (id : UInt64) (published : List Publication) : List Publication :=
  published.filter fun p => p.quest.id = id

theorem publish_terminal (hq : isTerminal q.state = true) (location : WorldEventLocation) :
    ∃ event, buildDynamicQuestOutcomeWorldEvent q location = some event ∧
      publishDynamicQuestOutcome q location = [⟨q, event⟩] := by
  cases hbuilt : buildDynamicQuestOutcomeWorldEvent q location with
  | none =>
    unfold buildDynamicQuestOutcomeWorldEvent toOutcomeEventType at hbuilt
    revert hq hbuilt
    cases q.state <;> simp [isTerminal]
  | some event => exact ⟨event, rfl, by rw [publishDynamicQuestOutcome, hbuilt]⟩

theorem quest_of_mem_publish {p : Publication} {location : WorldEventLocation}
    (hp : p ∈ publishDynamicQuestOutcome q location) : p.quest = q := by
  unfold publishDynamicQuestOutcome at hp
  split at hp
  · contradiction
  · rw [List.mem_singleton.mp hp]

theorem about_publish (q : DynamicQuestInstance) (location : WorldEventLocation) :
    about q.id (publishDynamicQuestOutcome q location) = publishDynamicQuestOutcome q location :=
  List.filter_eq_self.mpr fun _ hp => decide_eq_true (congrArg DynamicQuestInstance.id (quest_of_mem_publish hp))

theorem about_publish_ne (hne : q.id ≠ id) (location : WorldEventLocation) :
    about id (publishDynamicQuestOutcome q location) = [] := by
  refine List.filter_eq_nil_iff.mpr fun p hp => ?_
  rw [quest_of_mem_publish hp]
  simpa using hne

/-- The publications of several quests with different ids. -/
theorem about_flatMap (location : DynamicQuestInstance → WorldEventLocation)
    {qs : List DynamicQuestInstance} (hqs : (qs.map DynamicQuestInstance.id).Nodup) (id : UInt64) :
    about id (qs.flatMap fun q => publishDynamicQuestOutcome q (location q)) =
      match qs.find? fun q => q.id = id with
      | none => []
      | some q => publishDynamicQuestOutcome q (location q) := by
  induction qs with
  | nil => rfl
  | cons q qs ih =>
    obtain ⟨hq, hqs⟩ := List.nodup_cons.mp hqs
    have happend : about id ((q :: qs).flatMap fun q => publishDynamicQuestOutcome q (location q)) =
        about id (publishDynamicQuestOutcome q (location q)) ++
          about id (qs.flatMap fun q => publishDynamicQuestOutcome q (location q)) := by
      rw [List.flatMap_cons]
      exact List.filter_append ..
    rw [happend, ih hqs]
    by_cases hid : q.id = id
    · have hnone : (qs.find? fun q' => q'.id = id) = none := by
        rw [List.find?_eq_none]
        intro q' hq' h
        exact hq (List.mem_map.mpr ⟨q', hq', (of_decide_eq_true h).trans hid.symm⟩)
      rw [hnone, List.find?_cons_of_pos (by simpa using hid), ← hid, about_publish, List.append_nil]
    · rw [about_publish_ne hid, List.find?_cons_of_neg (by simpa using hid), List.nil_append]

/-! ### Expiry -/

/-- What an instance expires to, if it is due. -/
def DynamicQuestInstance.expiring (nowMs : UInt64) (q : DynamicQuestInstance) :
    Option DynamicQuestInstance :=
  if isTerminal q.state = false ∧ isDynamicQuestExpired q nowMs = true then
    some { q with state := .expired } else none

/-- The stored instances that a judge lets through, under their ids. -/
def DynamicQuestRegistry.judged (r : DynamicQuestRegistry)
    (judge : DynamicQuestInstance → Option DynamicQuestInstance) (id : UInt64) :
    Option DynamicQuestInstance :=
  (r.quests[id]?).bind judge

theorem expiring_eq_some (h : q.expiring nowMs = some q') :
    Moves nowMs q .expire q' ∧ q' = { q with state := .expired } := by
  unfold DynamicQuestInstance.expiring at h
  split_ifs at h with hdue
  cases h
  exact ⟨.expire hdue.1 hdue.2, rfl⟩

theorem isTerminal_eq_false_iff {state : DynamicQuestState} :
    isTerminal state = false ↔ state = .offered ∨ state = .active := by
  cases state <;> simp [isTerminal]

theorem expireOne_eq (w : World) (nowMs : UInt64) (s : List Publication × DynamicQuestRegistry)
    (id : UInt64) : expireOne w nowMs s id =
      match s.2.judged (DynamicQuestInstance.expiring nowMs) id with
      | none => s
      | some q => (s.1 ++ publishDynamicQuestOutcome q (resolveDynamicQuestOutcomeLocation w q),
          (s.2.remove id).2) := by
  unfold expireOne DynamicQuestRegistry.find judged
  cases hq : s.2.quests[id]? with
  | none => rfl
  | some q =>
    rw [Option.bind_some]
    dsimp only
    by_cases hopen : isTerminal q.state = false
    · have hguard : ¬ (q.state ≠ .offered ∧ q.state ≠ .active) := by
        rcases isTerminal_eq_false_iff.mp hopen with h | h <;> simp [h]
      rw [if_neg hguard]
      cases hdue : isDynamicQuestExpired q nowMs with
      | false => simp [DynamicQuestInstance.expiring, hdue]
      | true =>
        have hexpire : expireDynamicQuest q nowMs = accepted { q with state := .expired } := by
          simp [expireDynamicQuest, hopen, hdue]
        have hcommit : s.2.expire id nowMs =
            (accepted { q with state := .expired }, s.2.put id { q with state := .expired }) := by
          simp only [DynamicQuestRegistry.expire, commit, hq, hexpire, accepted_isAccepted]
          rfl
        have hremove : (s.2.put id { q with state := .expired }).remove id = s.2.remove id :=
          remove_put hq rfl
        simp only [hcommit, accepted_isAccepted, accepted_result, DynamicQuestInstance.expiring, hopen,
          hdue, and_self, if_true, hremove, Bool.not_true, Bool.false_eq_true, if_false]
    · have hguard : q.state ≠ .offered ∧ q.state ≠ .active := by
        rw [isTerminal_eq_false_iff, not_or] at hopen
        exact hopen
      rw [if_pos hguard, DynamicQuestInstance.expiring, if_neg fun h => hopen h.1]

/-- A pass over distinct ids expires what is due and publishes it. -/
theorem expireLoop_eq (w : World) (nowMs : UInt64) (ids : List UInt64) (hids : ids.Nodup)
    (s : List Publication × DynamicQuestRegistry) :
    (ids.foldl (expireOne w nowMs) s).1 =
        s.1 ++ (ids.filterMap (s.2.judged (DynamicQuestInstance.expiring nowMs))).flatMap
          (fun q => publishDynamicQuestOutcome q (resolveDynamicQuestOutcomeLocation w q)) ∧
      ∀ k : UInt64, (ids.foldl (expireOne w nowMs) s).2.quests[k]? =
        if k ∈ ids ∧ (s.2.judged (DynamicQuestInstance.expiring nowMs) k).isSome then none
        else s.2.quests[k]? := by
  induction ids generalizing s with
  | nil => simp
  | cons id ids ih =>
    obtain ⟨hid, hids⟩ := List.nodup_cons.mp hids
    obtain ⟨ih₁, ih₂⟩ := ih hids (expireOne w nowMs s id)
    rw [expireOne_eq] at ih₁ ih₂
    rw [List.foldl_cons, expireOne_eq]
    cases hq : s.2.judged (DynamicQuestInstance.expiring nowMs) id with
    | none =>
      rw [hq] at ih₁ ih₂
      refine ⟨by rw [ih₁, List.filterMap_cons_none hq], fun k => ?_⟩
      rw [ih₂]
      refine if_congr ?_ rfl rfl
      by_cases hk : k = id
      · subst hk
        simp [hid, hq]
      · simp [hk]
    | some q' =>
      rw [hq] at ih₁ ih₂
      have hsame (k : UInt64) (hk : k ∈ ids) : (s.2.remove id).2.quests[k]? = s.2.quests[k]? := by
        rw [getElem?_remove, if_neg]
        rintro rfl
        exact hid hk
      have hrest : ids.filterMap ((s.2.remove id).2.judged (DynamicQuestInstance.expiring nowMs)) =
          ids.filterMap (s.2.judged (DynamicQuestInstance.expiring nowMs)) :=
        List.filterMap_congr fun k hk => by rw [judged, judged, hsame k hk]
      refine ⟨?_, fun k => ?_⟩
      · rw [ih₁, List.filterMap_cons_some hq, List.flatMap_cons, List.append_assoc]
        dsimp only
        rw [hrest]
      · rw [ih₂]
        by_cases hk : k = id
        · subst hk
          simp [getElem?_remove, hid, hq]
        · simp only [judged, getElem?_remove, if_neg (Ne.symm hk), List.mem_cons, hk, false_or]

/-! ### Failure -/

/-- A loop over failed quests publishes each of them and removes it. -/
theorem removeFailed_foldl (w : World) (qs : List DynamicQuestInstance)
    (s : List Publication × DynamicQuestRegistry) :
    (qs.foldl (removeFailed w) s).1 = s.1 ++ qs.flatMap
        (fun q => publishDynamicQuestOutcome q (resolveDynamicQuestOutcomeLocation w q)) ∧
      ∀ k : UInt64, (qs.foldl (removeFailed w) s).2.quests[k]? =
        if k ∈ qs.map DynamicQuestInstance.id then none else s.2.quests[k]? := by
  induction qs generalizing s with
  | nil => simp
  | cons q qs ih =>
    obtain ⟨ih₁, ih₂⟩ := ih (removeFailed w s q)
    refine ⟨?_, fun k => ?_⟩
    · rw [List.foldl_cons, ih₁, List.flatMap_cons, removeFailed, List.append_assoc]
    · rw [List.foldl_cons, ih₂, removeFailed, getElem?_remove]
      by_cases hk : k = q.id
      · simp [hk]
      · simp [hk, Ne.symm hk]

theorem failAll_eq (r : DynamicQuestRegistry) (nowMs : UInt64) : r.failAllActiveInstances nowMs =
    (r.getAllActiveIds.filterMap (r.failing nowMs), r.failAll nowMs) := by
  obtain ⟨failed, heq, -⟩ := failAllActiveInstances_eq r nowMs
  have hloop := failLoop_eq nowMs _ (nodup_getAllActiveIds r) [] r
  rw [List.nil_append] at hloop
  have hfirst : failed = r.getAllActiveIds.filterMap (r.failing nowMs) :=
    congrArg Prod.fst (heq.symm.trans hloop)
  rw [heq, hfirst]

theorem failing_eq_judged (r : DynamicQuestRegistry) (nowMs : UInt64) :
    r.failing nowMs = r.judged (DynamicQuestInstance.failing nowMs) := rfl

/-- The instances that a pass over distinct ids produces, each under the id it is stored under. -/
theorem find_filterMap (judge : DynamicQuestInstance → Option DynamicQuestInstance) {ids : List UInt64}
    (hr : Inv r) (hjudge : ∀ q q', judge q = some q' → q'.id = q.id) (hids : ids.Nodup) :
    ((ids.filterMap (r.judged judge)).map DynamicQuestInstance.id).Nodup ∧
      ∀ k : UInt64, (ids.filterMap (r.judged judge)).find? (fun q => q.id = k) =
        if k ∈ ids then r.judged judge k else none := by
  have hname {id : UInt64} {q : DynamicQuestInstance} (hq : r.judged judge id = some q) :
      q.id = id := by
    obtain ⟨q₀, hq₀, hj⟩ := Option.bind_eq_some_iff.mp hq
    exact (hjudge q₀ q hj).trans (hr.id id q₀ hq₀)
  induction ids with
  | nil => simp
  | cons id ids ih =>
    obtain ⟨hid, hids⟩ := List.nodup_cons.mp hids
    obtain ⟨ih₁, ih₂⟩ := ih hids
    cases hq : r.judged judge id with
    | none =>
      rw [List.filterMap_cons_none hq]
      refine ⟨ih₁, fun k => ?_⟩
      rw [ih₂]
      by_cases hk : k = id
      · subst hk
        simp [hid, hq]
      · simp [hk]
    | some q =>
      rw [List.filterMap_cons_some hq]
      refine ⟨List.nodup_cons.mpr ⟨fun hmem => ?_, ih₁⟩, fun k => ?_⟩
      · obtain ⟨q', hq', heq⟩ := List.mem_map.mp hmem
        obtain ⟨id', hid', hq'⟩ := List.mem_filterMap.mp hq'
        exact hid (((hname hq').symm.trans heq).trans (hname hq) ▸ hid')
      · by_cases hk : k = id
        · subst hk
          rw [List.find?_cons_of_pos (by simpa using hname hq), if_pos List.mem_cons_self, hq]
        · rw [List.find?_cons_of_neg (by simpa [hname hq] using Ne.symm hk), ih₂]
          simp [hk]

theorem failing_isActive (h : q.failing nowMs = some q') : q.state = .active := (failing_eq_some h).1

/-- Failing every active quest and removing what failed takes out exactly what could fail. -/
theorem reclaim_getElem? (hr : Inv r) (nowMs k : UInt64) :
    (if k ∈ (r.getAllActiveIds.filterMap (r.failing nowMs)).map DynamicQuestInstance.id then none
      else (r.failAll nowMs).quests[k]?) =
      if k ∈ r.getAllActiveIds ∧ (r.judged (DynamicQuestInstance.failing nowMs) k).isSome then none
      else r.quests[k]? := by
  have hfind := (find_filterMap (DynamicQuestInstance.failing nowMs) hr
    (fun q q' h => by rw [(failing_eq_some h).2.2]) (nodup_getAllActiveIds r)).2 k
  rw [← failing_eq_judged] at hfind ⊢
  have hmem : k ∈ (r.getAllActiveIds.filterMap (r.failing nowMs)).map DynamicQuestInstance.id ↔
      k ∈ r.getAllActiveIds ∧ (r.failing nowMs k).isSome := by
    have hsome : k ∈ (r.getAllActiveIds.filterMap (r.failing nowMs)).map DynamicQuestInstance.id ↔
        ((r.getAllActiveIds.filterMap (r.failing nowMs)).find? fun q => q.id = k).isSome := by
      rw [List.find?_isSome, List.mem_map]
      simp
    rw [hsome, hfind]
    split_ifs with hk <;> simp [hk]
  rw [if_congr hmem rfl rfl]
  split_ifs with h
  · rfl
  · rw [failAll, ExtTreeMap.getElem?_map]
    cases hq : r.quests[k]? with
    | none => rfl
    | some q =>
      rw [Option.map_some]
      cases hf : q.failing nowMs with
      | none => rfl
      | some q' =>
        refine absurd ⟨mem_getAllActiveIds.mpr ⟨q, hq, failing_isActive hf⟩, ?_⟩ h
        rw [failing_eq_judged, judged, hq, Option.bind_some, hf]
        rfl

/-! ### Kill credit -/

/-- The kills that count for an instance. -/
def DynamicQuestInstance.CountsFor (q : DynamicQuestInstance) (event : DynamicQuestKillEvent) : Prop :=
  event.killerGuid.isPlayer = true ∧ q.state = .active ∧ q.acceptedByPlayerGuid = event.killerGuid ∧
    q.objective = .killCreature ∧ q.targetEntry = event.victimEntry ∧ q.targetMapId = event.mapId

instance (q : DynamicQuestInstance) (event : DynamicQuestKillEvent) : Decidable (q.CountsFor event) :=
  inferInstanceAs (Decidable (_ ∧ _))

/-- An instance after one kill was processed. -/
def DynamicQuestInstance.credit (nowMs : DynamicQuestKillEvent → UInt64) (q : DynamicQuestInstance)
    (event : DynamicQuestKillEvent) : DynamicQuestInstance :=
  if q.CountsFor event then q.after (.applyProgress event.killerGuid event.eventId) (nowMs event) else q

theorem mem_findActive {playerGuid : ObjectGuid} {victimEntry mapId : UInt32} :
    k ∈ r.findActiveByPlayerAndVictimEntry playerGuid victimEntry mapId ↔
      ∃ q, r.quests[k]? = some q ∧ q.state = .active ∧ q.acceptedByPlayerGuid = playerGuid ∧
        q.objective = .killCreature ∧ q.targetEntry = victimEntry ∧ q.targetMapId = mapId := by
  simp [findActiveByPlayerAndVictimEntry, ExtTreeMap.mem_toList_iff_getElem?_eq_some]

theorem nodup_findActive (r : DynamicQuestRegistry) (playerGuid : ObjectGuid)
    (victimEntry mapId : UInt32) :
    (r.findActiveByPlayerAndVictimEntry playerGuid victimEntry mapId).Nodup := by
  have hkeys : (r.quests.toList.map Prod.fst).Nodup := by
    rw [ExtTreeMap.map_fst_toList_eq_keys]
    exact OrdMap.nodup_keys _
  exact hkeys.sublist (List.filter_sublist.map _)

theorem applyProgress_foldl {playerGuid : ObjectGuid} {event : UInt64} (ids : List UInt64)
    (hids : ids.Nodup) (r : DynamicQuestRegistry) (k : UInt64) :
    (ids.foldl (fun r id => (r.applyProgress id playerGuid event nowMs).2) r).quests[k]? =
      if k ∈ ids then (r.quests[k]?).map fun q => q.after (.applyProgress playerGuid event) nowMs
      else r.quests[k]? := by
  induction ids generalizing r with
  | nil => simp
  | cons id ids ih =>
    obtain ⟨hid, hids⟩ := List.nodup_cons.mp hids
    have hone : (r.applyProgress id playerGuid event nowMs).2.quests[k]? = if id = k then
        (r.quests[k]?).map fun q => q.after (.applyProgress playerGuid event) nowMs
        else r.quests[k]? := getElem?_commit r id (.applyProgress playerGuid event) nowMs k
    rw [List.foldl_cons, ih hids, hone]
    by_cases hk : k = id
    · subst hk
      simp [hid]
    · simp [hk, Ne.symm hk]

theorem processKill_getElem? (nowMs : DynamicQuestKillEvent → UInt64) (r : DynamicQuestRegistry)
    (event : DynamicQuestKillEvent) (k : UInt64) :
    (processDynamicQuestKillProgress (nowMs event) r event).quests[k]? =
      (r.quests[k]?).map fun q => q.credit nowMs event := by
  unfold processDynamicQuestKillProgress
  cases hplayer : event.killerGuid.isPlayer with
  | false =>
    have hno (q : DynamicQuestInstance) : q.credit nowMs event = q :=
      if_neg fun h => Bool.false_ne_true (hplayer.symm.trans h.1)
    simp only [hno, Option.map_id', Bool.not_false, if_true]
  | true =>
    rw [Bool.not_true, if_neg Bool.false_ne_true, applyProgress_foldl _ (nodup_findActive ..)]
    by_cases hk : k ∈ r.findActiveByPlayerAndVictimEntry event.killerGuid event.victimEntry event.mapId
    · obtain ⟨q, hq, hcounts⟩ := mem_findActive.mp hk
      rw [if_pos hk, hq, Option.map_some, Option.map_some, DynamicQuestInstance.credit,
        if_pos ⟨hplayer, hcounts⟩]
    · rw [if_neg hk]
      cases hq : r.quests[k]? with
      | none => rfl
      | some q =>
        have hno : ¬ q.CountsFor event := fun h => hk (mem_findActive.mpr ⟨q, hq, h.2⟩)
        rw [Option.map_some, DynamicQuestInstance.credit, if_neg hno]

/-- A drain credits its kills one after another. -/
theorem drain_getElem? (s : DynamicQuestManager) (nowMs : DynamicQuestKillEvent → UInt64) (k : UInt64) :
    (s.drainKillEvents nowMs).registry.quests[k]? =
      (s.registry.quests[k]?).map fun q => s.killEventBus.pending.foldl (fun q event => q.credit nowMs event) q := by
  have hloop (events : List DynamicQuestKillEvent) (r : DynamicQuestRegistry) :
      (events.foldl (fun r event => processDynamicQuestKillProgress (nowMs event) r event) r).quests[k]? =
        (r.quests[k]?).map fun q => events.foldl (fun q event => q.credit nowMs event) q := by
    induction events generalizing r with
    | nil => simp
    | cons event events ih =>
      rw [List.foldl_cons, ih, processKill_getElem?, Option.map_map]
      rfl
  exact hloop _ _

/-! ### Offers -/

/-- An offer is made under the next id, of a proposal that applies to the live world, or it is not
made and at most an id is lost. -/
inductive Creates (c : Settings) (w : World) (s : DynamicQuestManager) (proposal : ValidatedProposal)
    (nowMs : UInt64) : Option UInt64 → DynamicQuestManager → Prop
  | refused {n : UInt64} (hn : n = s.nextDynamicQuestId ∨
      n = (advanceDynamicQuestIdCounter s.nextDynamicQuestId).2) :
      Creates c w s proposal nowMs none { s with nextDynamicQuestId := n }
  | offered {location : WorldEventLocation} {q : DynamicQuestInstance}
      (hroom : s.registry.getCount < c.maxLive)
      (happlies : checkDynamicQuestCreateApplicability proposal (giverFacts w proposal.giver)
        (targetFacts w proposal) = .none)
      (hid : s.nextDynamicQuestId ≠ 0) (hnew : s.registry.quests[s.nextDynamicQuestId]? = none)
      (hq : offerDynamicQuest s.nextDynamicQuestId proposal.toQuestProposal location nowMs = accepted q) :
      Creates c w s proposal nowMs (some s.nextDynamicQuestId) { s with
        registry := s.registry.add q
        nextDynamicQuestId := (advanceDynamicQuestIdCounter s.nextDynamicQuestId).2 }

theorem advance_fst (n : UInt64) : (advanceDynamicQuestIdCounter n).1 = n := by
  unfold advanceDynamicQuestIdCounter
  split_ifs with h0
  · exact h0.symm
  · rfl
  · rfl

theorem create_cases (c : Settings) (w : World) (s : DynamicQuestManager) (proposal : ValidatedProposal)
    (nowMs : UInt64) : Creates c w s proposal nowMs (createDynamicQuestOffer c w s proposal nowMs).1.2
      (createDynamicQuestOffer c w s proposal nowMs).2 := by
  unfold createDynamicQuestOffer
  by_cases hfull : c.maxLive ≤ s.registry.getCount
  · rw [if_pos hfull]
    exact .refused (.inl rfl)
  rw [if_neg hfull]
  dsimp only
  by_cases happlies : checkDynamicQuestCreateApplicability proposal (giverFacts w proposal.giver)
      (targetFacts w proposal) ≠ .none
  · rw [if_pos happlies]
    exact .refused (.inl rfl)
  rw [if_neg happlies]
  simp only [advance_fst]
  by_cases hid : s.nextDynamicQuestId = 0
  · rw [if_pos hid]
    exact .refused (.inr rfl)
  rw [if_neg hid]
  rcases offer_cases s.registry s.nextDynamicQuestId proposal.toQuestProposal
      (((w.creature proposal.giver).map LiveCreature.location).getD {}) nowMs with
    ⟨reason, -, hr⟩ | ⟨q, -, hnew, hq, hr⟩
  · simp only [hr, reject_isAccepted, Bool.not_false, if_true]
    exact .refused (.inr rfl)
  · simp only [hr, accepted_isAccepted, Bool.not_true, Bool.false_eq_true, if_false]
    exact .offered (UInt32.not_le.mp hfull) (not_not.mp happlies) hid hnew hq

/-! ### Turn-ins -/

/-- A turn-in changes nothing, or it fails the quest and publishes that, or it pays the whole reward
and completes the quest. -/
inductive TurnsIn (w : World) (s : DynamicQuestManager) (id : UInt64) (playerGuid : ObjectGuid)
    (nowMs : UInt64) : TurnIn → Prop
  | refused {reason : DynamicQuestPlayerCompleteReason} (hreason : reason ≠ .none) :
      TurnsIn w s id playerGuid nowMs ⟨reason, balance w playerGuid, [], s⟩
  | contained {q : DynamicQuestInstance} {money : UInt32} {location : WorldEventLocation}
      (hq : s.registry.quests[id]? = some q) (hmove : Moves nowMs q .fail { q with state := .failed }) :
      TurnsIn w s id playerGuid nowMs ⟨.rewardApplicationFailed, money,
        publishDynamicQuestOutcome { q with state := .failed } location,
        { s with registry := (s.registry.remove id).2 }⟩
  | paid {q : DynamicQuestInstance} {money : UInt32} {location : WorldEventLocation}
      (hq : s.registry.quests[id]? = some q) (howner : playerGuid = q.acceptedByPlayerGuid)
      (hmove : Moves nowMs q .complete { q with state := .completed })
      (hmoney : money.toNat = (balance w playerGuid).toNat + q.rewardMoneyCopper.toNat) :
      TurnsIn w s id playerGuid nowMs ⟨.none, money,
        publishDynamicQuestOutcome { q with state := .completed } location,
        { s with registry := (s.registry.remove id).2 }⟩

/-- Compensation restores the balance, or the quest of the turn-in is failed, published and removed. -/
theorem compensate_cases (hq : s.registry.quests[id]? = some q)
    (hfail : Moves nowMs q .fail { q with state := .failed }) (moneyNow moneyBefore : UInt32)
    (modifyMoney : MoneyChange) :
    compensateDynamicQuestReward w s id nowMs moneyNow moneyBefore modifyMoney = (true, moneyBefore, [], s) ∨
      ∃ money location, compensateDynamicQuestReward w s id nowMs moneyNow moneyBefore modifyMoney =
        (false, money, publishDynamicQuestOutcome { q with state := .failed } location,
          { s with registry := (s.registry.remove id).2 }) := by
  have hfailing : q.failing nowMs = some { q with state := .failed } := by
    cases hfail with
    | fail hstate hlive => exact if_pos ⟨hstate, hlive⟩
  have hput : (s.registry.put id { q with state := .failed }).remove id = s.registry.remove id :=
    remove_put hq rfl
  unfold compensateDynamicQuestReward
  dsimp only
  generalize (if (moneyNow.toNat : ℤ) - moneyBefore.toNat = 0 then (true, moneyNow)
    else modifyMoney moneyNow (toInt32 (-((moneyNow.toNat : ℤ) - moneyBefore.toNat)))) = change
  obtain ⟨compensated, money⟩ := change
  dsimp only
  by_cases hback : (compensated && decide (money = moneyBefore)) = true
  · rw [if_pos hback]
    rw [Bool.and_eq_true, decide_eq_true_eq] at hback
    exact .inl (by rw [hback.2])
  · rw [if_neg hback]
    refine .inr ⟨money, resolveDynamicQuestOutcomeLocation w { q with state := .failed }, ?_⟩
    simp only [terminateForReplayContainment, fail_of_some hq hfailing, accepted_isAccepted, accepted_result,
      if_true, hput]

theorem Completable.moves (h : Completable q nowMs) :
    Moves nowMs q .complete { q with state := .completed } ∧
      Moves nowMs q .fail { q with state := .failed } ∧
      completeDynamicQuest q nowMs = accepted { q with state := .completed } := by
  obtain ⟨hactive, hlive, hdone⟩ := h
  refine ⟨.complete hactive hlive (of_decide_eq_true hdone), .fail hactive hlive, ?_⟩
  simp [completeDynamicQuest, hactive, hlive, hdone, isTerminal]

theorem complete_of_completable (hq : r.quests[id]? = some q) (h : Completable q nowMs) :
    r.complete id nowMs = (accepted { q with state := .completed }, r.put id { q with state := .completed }) ∧
      (r.put id { q with state := .completed }).remove id = r.remove id := by
  refine ⟨?_, remove_put hq rfl⟩
  simp only [DynamicQuestRegistry.complete, commit, hq, h.moves.2.2, accepted_isAccepted]
  rfl

theorem pay_cases (hq : s.registry.quests[id]? = some q) {playerGuid : ObjectGuid}
    (howner : playerGuid = q.acceptedByPlayerGuid) (hdone : Completable q nowMs)
    (location : WorldEventLocation) (grant revert : MoneyChange) :
    TurnsIn w s id playerGuid nowMs
      (payReward w s id q (balance w playerGuid) location grant revert nowMs) := by
  obtain ⟨hcomplete, hfail, -⟩ := hdone.moves
  obtain ⟨hcommit, hremove⟩ := complete_of_completable hq hdone
  unfold payReward
  dsimp only
  generalize (if q.rewardMoneyCopper = 0 then (true, balance w playerGuid)
    else grant (balance w playerGuid) q.rewardMoneyCopper.toNat) = change
  obtain ⟨rewardGranted, paid⟩ := change
  dsimp only
  by_cases hpaid : (!rewardGranted || decide (paid.toNat ≠
      (balance w playerGuid).toNat + q.rewardMoneyCopper.toNat)) = true
  · rw [if_pos hpaid]
    rcases compensate_cases (w := w) hq hfail paid (balance w playerGuid) revert with
      hc | ⟨money, location', hc⟩
    · rw [hc]
      exact .refused (by split_ifs <;> decide)
    · rw [hc]
      exact .contained hq hfail
  · rw [if_neg hpaid]
    rw [hcommit]
    dsimp only [accepted_isAccepted, accepted_result]
    rw [hremove]
    refine .paid hq howner hcomplete ?_
    have hexact : rewardGranted = true ∧
        paid.toNat = (balance w playerGuid).toNat + q.rewardMoneyCopper.toNat := by simpa using hpaid
    exact hexact.2

theorem complete_cases (c : Settings) (w : World) (s : DynamicQuestManager) (id : UInt64)
    (playerGuid : ObjectGuid) (grant revert : MoneyChange) (nowMs : UInt64) :
    TurnsIn w s id playerGuid nowMs
      (completeDynamicQuestForPlayer c w s id playerGuid grant revert nowMs) := by
  unfold completeDynamicQuestForPlayer DynamicQuestRegistry.find
  cases hq : s.registry.quests[id]? with
  | none => exact .refused (by decide)
  | some q =>
    dsimp only
    split_ifs with happlicable hreject
    · exact .refused happlicable
    · exact .refused (by decide)
    · obtain ⟨howner, -, hdone, -⟩ := preflight_none (not_not.mp happlicable)
      exact pay_cases hq howner hdone _ grant revert

/-! ### Acceptance -/

theorem accept_cases (c : Settings) (w : World) (s : DynamicQuestManager) (id : UInt64)
    (playerGuid : ObjectGuid) (nowMs : UInt64) :
    (∃ reason, reason ≠ .none ∧ acceptDynamicQuestForPlayer c w s id playerGuid nowMs = (reason, s)) ∨
      ∃ q q', s.registry.quests[id]? = some q ∧ Moves nowMs q (.accept playerGuid) q' ∧
        acceptDynamicQuestForPlayer c w s id playerGuid nowMs =
          (.none, { s with registry := s.registry.put id q' }) := by
  unfold acceptDynamicQuestForPlayer DynamicQuestRegistry.find
  cases hq : s.registry.quests[id]? with
  | none => exact .inl ⟨_, by decide, rfl⟩
  | some q =>
    dsimp only
    by_cases happlies : checkDynamicQuestPlayerAcceptApplicability q (playerFacts w playerGuid)
        (giverAcceptFacts w q.giver) (playerToGiverDistance w playerGuid q.giver)
        c.playerAcceptMaxRangeYards ≠ .none
    · exact .inl ⟨_, happlies, if_pos happlies⟩
    · rw [if_neg happlies]
      rcases commit_cases s.registry id (.accept playerGuid) nowMs with ⟨reason, -, hr⟩ | ⟨q₀, q', hq₀, hmove, hr⟩
      · have hr' : s.registry.accept id playerGuid nowMs = (reject reason, s.registry) := hr
        simp only [hr', reject_isAccepted, Bool.not_false, if_true]
        exact .inl ⟨_, by decide, rfl⟩
      · have hr' : s.registry.accept id playerGuid nowMs = (accepted q', s.registry.put id q') := hr
        simp only [hr', accepted_isAccepted, Bool.not_true, Bool.false_eq_true, if_false]
        exact .inr ⟨q₀, q', hq₀.symm.trans hq ▸ rfl, hmove, rfl⟩

/-! ### Requests -/

/-- A submission is refused, or leaves the one request that is now pending for its agent. -/
theorem submit_cases (c : Settings) (w : World) (s : DynamicQuestManager) (record : GiverRecord)
    (creature : LiveCreature) (source : Memory.MemoryRecord) (retrieved : List Memory.RetrievedMemory)
    (nowMs requestId : UInt64) :
    trySubmitDynamicTask c w s record creature source retrieved nowMs requestId = (false, s) ∨
      ∃ context provenance, s.pending[record.id]? = none ∧ s.pending.size < c.maxInFlight.toNat ∧
        buildDynamicTaskRequest c w record creature source retrieved nowMs = some (context, provenance) ∧
        trySubmitDynamicTask c w s record creature source retrieved nowMs requestId =
          (true, { s with
            pending := s.pending.insert record.id ⟨requestId, nowMs, context, provenance⟩ }) := by
  unfold trySubmitDynamicTask
  by_cases hoff : (!c.dynamicTaskEnabled || !c.remoteInferenceEnabled || !c.hasClient || !record.member) = true
  · exact .inl (if_pos hoff)
  rw [if_neg hoff]
  by_cases hduplicate : s.pending.contains record.id = true
  · exact .inl (if_pos hduplicate)
  rw [if_neg hduplicate]
  by_cases hfull : c.maxInFlight.toNat ≤ s.pending.size
  · exact .inl (if_pos hfull)
  rw [if_neg hfull]
  cases hbuild : buildDynamicTaskRequest c w record creature source retrieved nowMs with
  | none => exact .inl rfl
  | some built =>
    obtain ⟨context, provenance⟩ := built
    dsimp only
    by_cases hrequest : requestId = 0
    · exact .inl (if_pos hrequest)
    rw [if_neg hrequest]
    refine .inr ⟨context, provenance, ?_, Nat.not_le.mp hfull, rfl, rfl⟩
    rwa [ExtTreeMap.contains_iff_mem, ← ExtTreeMap.isSome_getElem?_iff_mem, Option.not_isSome_iff_eq_none]
      at hduplicate

/-! ### Responses -/

/-- A response leaves everything as it is, or consumes the request that it names; then it creates
nothing, or one offer of a proposal that the checks let through. -/
inductive Responds (c : Settings) (w : World) (s : DynamicQuestManager) (requestId agent nowMs offerMs : UInt64)
    (response : Option (Inference.DynamicTaskResponse Float32)) :
    Option UInt64 → DynamicQuestManager → Prop
  | ignored (hno : ∀ pending, s.pending[agent]? = some pending → pending.requestId ≠ requestId) :
      Responds c w s requestId agent nowMs offerMs response none s
  | refused {pending : PendingDynamicTaskRequest} {n : UInt64} (hpending : s.pending[agent]? = some pending)
      (hrequest : pending.requestId = requestId) (hn : n = s.nextDynamicQuestId ∨
        n = (advanceDynamicQuestIdCounter s.nextDynamicQuestId).2) :
      Responds c w s requestId agent nowMs offerMs response none
        { s with pending := s.pending.erase agent, nextDynamicQuestId := n }
  | created {pending : PendingDynamicTaskRequest} {answer : Inference.DynamicTaskResponse Float32}
      {candidate : DynamicTaskCandidate} {facts : DynamicTaskAuthoritativeFacts}
      {proposal : ValidatedProposal} {id : UInt64} {s' : DynamicQuestManager}
      (hpending : s.pending[agent]? = some pending) (hrequest : pending.requestId = requestId)
      (hresponse : response = some answer)
      (hjudge : judgeResponse c w pending requestId agent answer.proposal nowMs = some (candidate, facts))
      (hvalid : validateDynamicTaskCandidate candidate c.limits facts = (.none, some proposal))
      (hcreates : Creates c w { s with pending := s.pending.erase agent } proposal offerMs (some id) s') :
      Responds c w s requestId agent nowMs offerMs response (some id) s'

theorem candidate_cases (c : Settings) (w : World) (s : DynamicQuestManager)
    (candidate : DynamicTaskCandidate) (facts : DynamicTaskAuthoritativeFacts) (offerMs : UInt64) :
    onDynamicTaskCandidateAccepted c w s candidate facts offerMs = (none, s) ∨
      ∃ proposal, validateDynamicTaskCandidate candidate c.limits facts = (.none, some proposal) ∧
        onDynamicTaskCandidateAccepted c w s candidate facts offerMs =
          ((createDynamicQuestOffer c w s proposal offerMs).1.2,
            (createDynamicQuestOffer c w s proposal offerMs).2) := by
  unfold onDynamicTaskCandidateAccepted
  split
  next proposal hvalid => exact .inr ⟨proposal, hvalid, rfl⟩
  next => exact .inl rfl

theorem respond_cases (c : Settings) (w : World) (s : DynamicQuestManager) (requestId agent : UInt64)
    (success : Bool) (response : Option (Inference.DynamicTaskResponse Float32)) (nowMs offerMs : UInt64) :
    Responds c w s requestId agent nowMs offerMs response
      (handleDynamicTaskResponse c w s requestId agent success response nowMs offerMs).1
      (handleDynamicTaskResponse c w s requestId agent success response nowMs offerMs).2 := by
  unfold handleDynamicTaskResponse
  cases hpending : s.pending[agent]? with
  | none => exact .ignored (by simp [hpending])
  | some pending =>
    dsimp only
    by_cases hrequest : pending.requestId ≠ requestId
    · rw [if_pos hrequest]
      exact .ignored (by simpa [hpending] using hrequest)
    rw [if_neg hrequest]
    have hsame : pending.requestId = requestId := not_not.mp hrequest
    cases success with
    | false => exact .refused hpending hsame (.inl rfl)
    | true =>
      rw [Bool.not_true, if_neg Bool.false_ne_true]
      cases response with
      | none => exact .refused hpending hsame (.inl rfl)
      | some answer =>
        dsimp only
        cases hjudge : judgeResponse c w pending requestId agent answer.proposal nowMs with
        | none => exact .refused hpending hsame (.inl rfl)
        | some judged =>
          obtain ⟨candidate, facts⟩ := judged
          dsimp only
          rcases candidate_cases c w { s with pending := s.pending.erase agent } candidate facts offerMs with
            hnone | ⟨proposal, hvalid, hcreate⟩
          · rw [hnone]
            exact .refused hpending hsame (.inl rfl)
          · rw [hcreate]
            have hcreates :=
              create_cases c w { s with pending := s.pending.erase agent } proposal offerMs
            dsimp only
            generalize (createDynamicQuestOffer c w { s with pending := s.pending.erase agent } proposal
              offerMs).1.2 = created at hcreates ⊢
            generalize (createDynamicQuestOffer c w { s with pending := s.pending.erase agent } proposal
              offerMs).2 = s' at hcreates ⊢
            cases created with
            | none =>
              cases hcreates with
              | refused hn => exact .refused hpending hsame hn
            | some id => exact .created hpending hsame rfl hjudge hvalid hcreates

end AIWorld.Quest
