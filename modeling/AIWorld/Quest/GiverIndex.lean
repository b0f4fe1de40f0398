import AIWorld.Lib.GroupIndex
import AIWorld.Quest.Effect

/-! The giver index refines a full scan. The catalog keeps the stored instances in
the order of their offers and answers every query by scanning all of them; a run
of the registry stays in step with the catalog of the same calls. -/

namespace AIWorld.Quest

open Std Lib DynamicQuestRegistry

/-- The stored instances in offer order. -/
abbrev Catalog := List DynamicQuestInstance

/-- An instance after a transition was attempted on it. -/
def DynamicQuestInstance.after (q : DynamicQuestInstance) (t : Transition) (nowMs : UInt64) :
    DynamicQuestInstance :=
  (t.attempt q nowMs).result.getD q

namespace Catalog

def update (s : Catalog) (id : UInt64) (t : Transition) (nowMs : UInt64) : Catalog :=
  s.map fun q => if q.id = id then q.after t nowMs else q

def discard (s : Catalog) (id : UInt64) : Catalog := s.filter fun q => q.id ≠ id

/-- The catalog after a call. -/
def after (s : Catalog) : Op → Catalog
  | .offer id proposal location nowMs =>
    match (offerDynamicQuest id proposal location nowMs).result with
    | some q => if (s.find? fun q' => q'.id = id).isSome then s else s ++ [q]
    | none => s
  | .accept id playerGuid nowMs => s.update id (.accept playerGuid) nowMs
  | .applyProgress id playerGuid event nowMs => s.update id (.applyProgress playerGuid event) nowMs
  | .complete id nowMs => s.update id .complete nowMs
  | .fail id nowMs => s.update id .fail nowMs
  | .expire id nowMs => s.update id .expire nowMs
  | .remove id => s.discard id
  | .failAllActiveInstances nowMs => s.map fun q => q.after .fail nowMs
  | .terminateForReplayContainment id _ => s.discard id

/-- The catalog of the calls of a run. -/
def ofRun (tr : List (Event DynamicQuestRegistry Op Outcome)) : Catalog :=
  (tr.map Event.input).foldl after []

/-! ### Scans -/

def offeredBy (s : Catalog) (giver : UInt64) (giverRuntimeGuid : ObjectGuid) :
    Option DynamicQuestInstance :=
  s.find? fun q => q.state = .offered ∧ q.giver = giver ∧ q.giverRuntimeGuid = giverRuntimeGuid

/-- The first live match, or else the first match. -/
def activeBy (s : Catalog) (giver : UInt64) (giverRuntimeGuid playerGuid : ObjectGuid)
    (nowMs : UInt64) : Option DynamicQuestInstance :=
  let found := s.filter fun q => q.state = .active ∧ q.giver = giver ∧
    q.giverRuntimeGuid = giverRuntimeGuid ∧ q.acceptedByPlayerGuid = playerGuid
  (found.find? fun q => ¬ isDynamicQuestExpired q nowMs).or found.head?

def hasLive (s : Catalog) (giver : UInt64) (giverRuntimeGuid : ObjectGuid) (nowMs : UInt64) :
    Bool :=
  s.any fun q => q.giver = giver ∧ q.giverRuntimeGuid = giverRuntimeGuid ∧
    (q.state = .offered ∨ q.state = .active) ∧ ¬ isDynamicQuestExpired q nowMs

/-- The ids of a giver's instances, in offer order. -/
def idsOf (s : Catalog) (giver : UInt64) : List UInt64 :=
  GroupIndex.ids DynamicQuestInstance.id DynamicQuestInstance.giver s giver

end Catalog

/-- A registry and a catalog with the same instances. -/
structure Represents (r : DynamicQuestRegistry) (s : Catalog) : Prop where
  nodup : (s.map DynamicQuestInstance.id).Nodup
  quests : ∀ id : UInt64, r.quests[id]? = s.find? fun q => q.id = id
  index : GroupIndex.Indexes DynamicQuestInstance.id DynamicQuestInstance.giver r.questIdsByGiver s

variable {r r' : DynamicQuestRegistry} {s : Catalog} {id nowMs : UInt64}

theorem represents_empty : Represents {} [] :=
  ⟨List.nodup_nil, fun _ => by simp, GroupIndex.indexes_empty⟩

/-! ### Transitions -/

theorem after_id (q : DynamicQuestInstance) (t : Transition) (nowMs : UInt64) :
    (q.after t nowMs).id = q.id ∧ (q.after t nowMs).giver = q.giver := by
  unfold DynamicQuestInstance.after
  rcases attempt_cases t q nowMs with ⟨reason, -, hr⟩ | ⟨q', hr, hmove⟩
  · rw [hr]
    exact ⟨rfl, rfl⟩
  · rw [hr]
    cases hmove <;> exact ⟨rfl, rfl⟩

theorem Represents.map (h : Represents r s) {f : DynamicQuestInstance → DynamicQuestInstance}
    (hid : ∀ q, (f q).id = q.id) (hgiver : ∀ q, (f q).giver = q.giver)
    (hquests : ∀ id : UInt64, r'.quests[id]? = (r.quests[id]?).map f)
    (hindex : r'.questIdsByGiver = r.questIdsByGiver) : Represents r' (s.map f) where
  nodup := by
    have hsame : (s.map f).map DynamicQuestInstance.id = s.map DynamicQuestInstance.id := by
      rw [List.map_map]
      exact List.map_congr_left fun q _ => hid q
    rw [hsame]
    exact h.nodup
  quests id := by
    rw [hquests, h.quests, List.find?_map]
    congr 1
    refine congrArg (List.find? · s) (funext fun q => ?_)
    simp [hid]
  index := by
    rw [hindex]
    exact h.index.map hid hgiver

theorem Represents.id_eq (h : Represents r s) {k : UInt64} {q : DynamicQuestInstance}
    (hq : r.quests[k]? = some q) : q.id = k := by
  rw [h.quests] at hq
  simpa using List.find?_some hq

theorem commit_quests (h : Represents r s) (id : UInt64) (t : Transition) (nowMs : UInt64)
    (k : UInt64) : (r.commit id (t.attempt · nowMs)).2.quests[k]? =
      (r.quests[k]?).map fun q => if q.id = id then q.after t nowMs else q := by
  by_cases hk : id = k
  · subst hk
    unfold commit
    cases hq : r.quests[id]? with
    | none => exact hq
    | some q =>
      simp only [Option.map_some, if_pos (h.id_eq hq), DynamicQuestInstance.after]
      rcases attempt_cases t q nowMs with ⟨reason, -, hr⟩ | ⟨q', hr, -⟩
      · simp only [hr, reject_isAccepted]
        exact hq
      · simp only [hr, accepted_isAccepted, accepted_result, Option.getD_some]
        exact ExtTreeMap.getElem?_insert_self
  · have hsame : (r.commit id (t.attempt · nowMs)).2.quests[k]? = r.quests[k]? := by
      rcases commit_cases r id t nowMs with ⟨reason, -, hr⟩ | ⟨q, q', -, -, hr⟩ <;> rw [hr]
      exact OrdMap.getElem?_insert_ne _ _ hk
    rw [hsame]
    cases hq : r.quests[k]? with
    | none => rfl
    | some q => rw [Option.map_some, if_neg (h.id_eq hq ▸ Ne.symm hk)]

theorem commit_index (r : DynamicQuestRegistry) (id : UInt64) (t : Transition) (nowMs : UInt64) :
    (r.commit id (t.attempt · nowMs)).2.questIdsByGiver = r.questIdsByGiver := by
  rcases commit_cases r id t nowMs with ⟨reason, -, hr⟩ | ⟨q, q', -, -, hr⟩ <;> rw [hr]
  rfl

theorem Represents.update (h : Represents r s) (id : UInt64) (t : Transition) (nowMs : UInt64) :
    Represents (r.commit id (t.attempt · nowMs)).2 (s.update id t nowMs) := by
  refine h.map (fun q => ?_) (fun q => ?_) (commit_quests h id t nowMs) (commit_index r id t nowMs)
  · split_ifs
    · exact (after_id q t nowMs).1
    · rfl
  · split_ifs
    · exact (after_id q t nowMs).2
    · rfl

theorem after_fail (q : DynamicQuestInstance) (nowMs : UInt64) :
    q.after .fail nowMs = (q.failing nowMs).getD q := by
  unfold DynamicQuestInstance.after
  cases hf : q.failing nowMs with
  | none =>
    obtain ⟨reason, -, hr⟩ := failDynamicQuest_of_none hf
    rw [Transition.attempt, hr]
    rfl
  | some q' =>
    rw [Transition.attempt, failDynamicQuest_of_some hf]
    rfl

theorem Represents.failAll (h : Represents r s) (nowMs : UInt64) :
    Represents (r.failAll nowMs) (s.map fun q => q.after .fail nowMs) := by
  refine h.map (fun q => (after_id q .fail nowMs).1) (fun q => (after_id q .fail nowMs).2) ?_ rfl
  intro id
  simp only [DynamicQuestRegistry.failAll, ExtTreeMap.getElem?_map, after_fail]

/-! ### Offers and removals -/

theorem Represents.add {q : DynamicQuestInstance} (h : Represents r s)
    (hnew : r.quests[q.id]? = none) : Represents (r.add q) (s ++ [q]) where
  nodup := by
    rw [h.quests] at hnew
    rw [List.map_append, List.nodup_append]
    refine ⟨h.nodup, List.nodup_singleton _, fun x hx y hy hxy => ?_⟩
    obtain ⟨q', hq', rfl⟩ := List.mem_map.mp hx
    have hne := List.find?_eq_none.mp hnew q' hq'
    simp_all
  quests id := by
    rw [DynamicQuestRegistry.add, OrdMap.getElem?_insert, List.find?_append]
    by_cases hid : q.id = id
    · subst hid
      rw [← h.quests, hnew]
      simp
    · rw [← h.quests]
      simp [hid]
  index := h.index.push q

theorem Represents.offer (h : Represents r s) (id : UInt64) (proposal : QuestProposal)
    (location : WorldEventLocation) (nowMs : UInt64) :
    Represents (r.offer id proposal location nowMs).2
      (s.after (.offer id proposal location nowMs)) := by
  unfold DynamicQuestRegistry.offer Catalog.after
  rcases offerDynamicQuest_cases id proposal location nowMs with hr | ⟨hid, q, hq⟩
  · simp only [hr, reject_isAccepted]
    exact h
  · obtain ⟨rfl, -⟩ := offerDynamicQuest_accepted hq
    simp only [hq, accepted_isAccepted, accepted_result, ← ExtTreeMap.isSome_getElem?_eq_contains,
      h.quests]
    split_ifs with hold
    · exact h
    · refine h.add ?_
      rw [h.quests]
      exact Option.not_isSome_iff_eq_none.mp hold

theorem find_discard (s : Catalog) (id k : UInt64) :
    (s.discard id).find? (fun q => q.id = k) =
      if id = k then none else s.find? fun q => q.id = k := by
  unfold Catalog.discard
  rw [List.find?_filter]
  split_ifs with hid
  · rw [List.find?_eq_none]
    simp [hid]
  · refine congrArg (List.find? · s) (funext fun q => ?_)
    by_cases hk : q.id = k
    · simp [hk, Ne.symm hid]
    · simp [hk]

/-- Every stored instance is in its giver's bucket. -/
theorem Represents.index_of_mem (h : Represents r s) {q : DynamicQuestInstance} (hq : q ∈ s) :
    r.questIdsByGiver[q.giver]? = some (s.idsOf q.giver) := by
  rw [h.index, if_neg]
  · rfl
  · refine List.ne_nil_of_mem (a := q.id) (List.mem_map_of_mem ?_)
    simpa using hq

theorem Represents.discard (h : Represents r s) (id : UInt64) :
    Represents (r.remove id).2 (s.discard id) := by
  cases hq : r.quests[id]? with
  | none =>
    rw [remove_none hq]
    have hall : s.discard id = s := by
      refine List.filter_eq_self.mpr fun q hmem => ?_
      have hne := List.find?_eq_none.mp (h.quests id ▸ hq) q hmem
      simpa using hne
    rw [hall]
    exact h
  | some q =>
    have hmem : q ∈ s := List.mem_of_find?_eq_some (h.quests id ▸ hq)
    -- an id is stored once, so its items share the giver
    have hgiver : ∀ q' ∈ s, q'.id = id → q'.giver = q.giver := by
      intro q' hq' hid
      have hfind := GroupIndex.find_name h.nodup hq'
      rw [hid, ← h.quests, hq, Option.some.injEq] at hfind
      rw [hfind]
    refine ⟨h.nodup.sublist (List.filter_sublist.map _), fun k => ?_, ?_⟩
    · rw [remove_quests hq, OrdMap.getElem?_erase, find_discard, h.quests]
    · have hindex := h.index.remove hgiver
      simp only [remove, hq, h.index_of_mem hmem]
      exact hindex

/-! ### Runs -/

theorem Represents.step (h : Represents r s) (op : Op) :
    Represents (step r op).2 (s.after op) := by
  cases op with
  | offer id proposal location nowMs => exact h.offer id proposal location nowMs
  | accept id playerGuid nowMs => exact h.update id (.accept playerGuid) nowMs
  | applyProgress id playerGuid event nowMs =>
    exact h.update id (.applyProgress playerGuid event) nowMs
  | complete id nowMs => exact h.update id .complete nowMs
  | fail id nowMs => exact h.update id .fail nowMs
  | expire id nowMs => exact h.update id .expire nowMs
  | remove id => exact h.discard id
  | failAllActiveInstances nowMs =>
    obtain ⟨failed, hr, -⟩ := failAllActiveInstances_eq r nowMs
    simp only [AIWorld.Quest.step, hr]
    exact h.failAll nowMs
  | terminateForReplayContainment id nowMs =>
    obtain ⟨result, hr, -⟩ := terminate_effect r id nowMs
    simp only [AIWorld.Quest.step, hr]
    exact h.discard id

theorem Represents.run (h : Represents r s) {tr : List (Event DynamicQuestRegistry Op Outcome)}
    (hrun : machine.Run r tr r') :
    Represents r' ((tr.map Event.input).foldl Catalog.after s) := by
  induction hrun generalizing s with
  | nil => exact h
  | @cons _ _ _ op _ _ hstep _ ih =>
    have hnext := h.step op
    rw [Option.some.inj hstep] at hnext
    exact ih hnext

/-! ### Lookups -/

theorem Represents.givenBy (h : Represents r s) (giver : UInt64) :
    r.givenBy giver = s.filter fun q => q.giver = giver := by
  have hids : (s.idsOf giver).filterMap (fun id => s.find? fun q => q.id = id) =
      s.filter fun q => q.giver = giver := GroupIndex.filterMap_ids h.nodup giver
  simp only [← h.quests] at hids
  unfold DynamicQuestRegistry.givenBy
  rw [h.index giver]
  split_ifs with hnil
  · rw [Catalog.idsOf, hnil] at hids
    exact hids
  · exact hids

theorem Represents.findOfferedByGiver (h : Represents r s) (giver : UInt64)
    (giverRuntimeGuid : ObjectGuid) :
    r.findOfferedByGiver giver giverRuntimeGuid = s.offeredBy giver giverRuntimeGuid := by
  unfold DynamicQuestRegistry.findOfferedByGiver Catalog.offeredBy
  rw [h.givenBy, List.find?_filter]
  refine congrArg (List.find? · s) (funext fun q => ?_)
  by_cases hq : q.giver = giver <;> simp [hq]

theorem Represents.hasLiveInstanceForGiver (h : Represents r s) (giver : UInt64)
    (giverRuntimeGuid : ObjectGuid) (nowMs : UInt64) :
    r.hasLiveInstanceForGiver giver giverRuntimeGuid nowMs =
      s.hasLive giver giverRuntimeGuid nowMs := by
  unfold DynamicQuestRegistry.hasLiveInstanceForGiver Catalog.hasLive
  rw [h.givenBy, List.any_filter]
  refine congrArg (List.any s) (funext fun q => ?_)
  by_cases hq : q.giver = giver <;> simp [hq]

/-- The loop prefers the first live match and falls back to the first match. -/
theorem findActive_go (giver : UInt64) (giverRuntimeGuid playerGuid : ObjectGuid) (nowMs : UInt64)
    (fallbackExpired : Option DynamicQuestInstance) (qs : List DynamicQuestInstance) :
    findActiveByGiverAndPlayer.go giver giverRuntimeGuid playerGuid nowMs fallbackExpired qs =
      let found := qs.filter fun q => q.state = .active ∧ q.giver = giver ∧
        q.giverRuntimeGuid = giverRuntimeGuid ∧ q.acceptedByPlayerGuid = playerGuid
      (found.find? fun q => ¬ isDynamicQuestExpired q nowMs).or (fallbackExpired.or found.head?) := by
  induction qs generalizing fallbackExpired with
  | nil => simp [findActiveByGiverAndPlayer.go]
  | cons q qs ih =>
    rw [findActiveByGiverAndPlayer.go]
    simp only [ih, List.filter_cons]
    by_cases hq : q.state = .active ∧ q.giver = giver ∧ q.giverRuntimeGuid = giverRuntimeGuid ∧
        q.acceptedByPlayerGuid = playerGuid
    · obtain ⟨hstate, hgiver, hruntime, hplayer⟩ := hq
      by_cases hlive : isDynamicQuestExpired q nowMs = true
      · cases fallbackExpired <;> simp [hstate, hgiver, hruntime, hplayer, hlive]
      · simp [hstate, hgiver, hruntime, hplayer, hlive]
    · rw [if_pos (by tauto)]
      simp [hq]

theorem Represents.findActiveByGiverAndPlayer (h : Represents r s) (giver : UInt64)
    (giverRuntimeGuid playerGuid : ObjectGuid) (nowMs : UInt64) :
    r.findActiveByGiverAndPlayer giver giverRuntimeGuid playerGuid nowMs =
      s.activeBy giver giverRuntimeGuid playerGuid nowMs := by
  have hfilter : (s.filter fun q => q.giver = giver).filter (fun q => q.state = .active ∧
        q.giver = giver ∧ q.giverRuntimeGuid = giverRuntimeGuid ∧
        q.acceptedByPlayerGuid = playerGuid) =
      s.filter fun q => q.state = .active ∧ q.giver = giver ∧
        q.giverRuntimeGuid = giverRuntimeGuid ∧ q.acceptedByPlayerGuid = playerGuid := by
    rw [List.filter_filter]
    refine List.filter_congr fun q _ => ?_
    by_cases hq : q.giver = giver <;> simp [hq]
  unfold DynamicQuestRegistry.findActiveByGiverAndPlayer Catalog.activeBy
  simp only [findActive_go, h.givenBy, hfilter, Option.none_or]

theorem Represents.mem_idsOf (h : Represents r s) {giver : UInt64} :
    id ∈ s.idsOf giver ↔ ∃ q, r.quests[id]? = some q ∧ q.giver = giver := by
  constructor
  · intro hid
    obtain ⟨q, hq, rfl⟩ := List.mem_map.mp hid
    rw [List.mem_filter] at hq
    exact ⟨q, (h.quests q.id).trans (GroupIndex.find_name h.nodup hq.1), by simpa using hq.2⟩
  · rintro ⟨q, hq, rfl⟩
    have hid := h.id_eq hq
    have hmem : q ∈ s := List.mem_of_find?_eq_some (h.quests id ▸ hq)
    exact List.mem_map.mpr ⟨q, List.mem_filter.mpr ⟨hmem, by simp⟩, hid⟩

/-- The giver index against the catalog, for every run of an empty registry. -/
theorem giver_index_refines_scan {tr : List (Event DynamicQuestRegistry Op Outcome)}
    (hrun : machine.Run {} tr r) :
    (∀ id : UInt64, r.quests[id]? = (Catalog.ofRun tr).find? fun q => q.id = id) ∧
    (∀ giver : UInt64, r.questIdsByGiver[giver]? =
      if (Catalog.ofRun tr).idsOf giver = [] then none
      else some ((Catalog.ofRun tr).idsOf giver)) ∧
    (∀ giver, ((Catalog.ofRun tr).idsOf giver).Nodup) ∧
    (∀ giver (id : UInt64), id ∈ (Catalog.ofRun tr).idsOf giver ↔
      ∃ q, r.quests[id]? = some q ∧ q.giver = giver) ∧
    (∀ giver giverRuntimeGuid, r.findOfferedByGiver giver giverRuntimeGuid =
      (Catalog.ofRun tr).offeredBy giver giverRuntimeGuid) ∧
    (∀ giver giverRuntimeGuid playerGuid nowMs,
      r.findActiveByGiverAndPlayer giver giverRuntimeGuid playerGuid nowMs =
        (Catalog.ofRun tr).activeBy giver giverRuntimeGuid playerGuid nowMs) ∧
    ∀ giver giverRuntimeGuid nowMs, r.hasLiveInstanceForGiver giver giverRuntimeGuid nowMs =
      (Catalog.ofRun tr).hasLive giver giverRuntimeGuid nowMs := by
  have h : Represents r (Catalog.ofRun tr) := represents_empty.run hrun
  exact ⟨h.quests, h.index, GroupIndex.ids_nodup h.nodup, fun _ _ => h.mem_idsOf,
    h.findOfferedByGiver, h.findActiveByGiverAndPlayer, h.hasLiveInstanceForGiver⟩

/-- A giver with two offers, the later one under the smaller id. -/
def twoOffers : List Op :=
  [.offer 5 { giver := 9, requiredCount := 1, expiryMs := 1000 } {} 10,
    .offer 3 { giver := 9, requiredCount := 2, expiryMs := 1000 } {} 20, .accept 5 ⟨77⟩ 30]

theorem giver_index_refines_scan_twoOffers : ∃ r : DynamicQuestRegistry,
    r.questIdsByGiver[(9 : UInt64)]? = some [5, 3] ∧
      (r.findOfferedByGiver 9 {}).map DynamicQuestInstance.id = some 3 := by
  obtain ⟨tr, r, hrun, hcalls, -⟩ := Machine.exists_run (M := machine) (P := fun _ => True)
    (fun r op _ => ⟨_, _, rfl, trivial⟩) twoOffers (s := {}) trivial
  obtain ⟨-, hindex, -, -, hoffered, -⟩ := giver_index_refines_scan hrun
  refine ⟨r, ?_, ?_⟩
  · rw [hindex, Catalog.ofRun, hcalls]
    decide
  · rw [hoffered, Catalog.ofRun, hcalls]
    decide

end AIWorld.Quest
