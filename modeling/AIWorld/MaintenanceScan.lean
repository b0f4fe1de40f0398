import AIWorld.Groups.Effect
import AIWorld.Lib.CursorScan
import AIWorld.Quest.Life

/-! The maintenance scans of the quest registry and of the group registry. Both
read the ids page by page, from a cursor up to the highest id of the moment the
cycle began, while the registry goes on changing between the pages. -/

namespace AIWorld

open Std (ExtTreeMap)
open Lib CursorScan

theorem pos_of_ne_zero {k : UInt64} (h : k ≠ 0) : 0 < k :=
  lt_of_le_of_ne UInt64.zero_le h.symm

/-! ### Quests -/

namespace Quest

open DynamicQuestRegistry

/-- New ids come above the limit. -/
def Op.OffersAbove (limit : UInt64) : Op → Prop
  | .offer id _ _ _ => limit < id
  | _ => True

/-- The registry next to the cursor of a cycle. -/
def questScan (untilId : UInt64) :
    Machine (DynamicQuestRegistry × UInt64) (Op ⊕ UInt32) (Outcome ⊕ List UInt64) :=
  scan machine fun r after maxCount => r.getIdsAfterUntil after untilId maxCount

theorem getIdsAfterUntil_eq (r : DynamicQuestRegistry) (after untilId : UInt64)
    (maxCount : UInt32) : r.getIdsAfterUntil after untilId maxCount =
      page r.quests.keys after untilId maxCount.toNat := by
  unfold getIdsAfterUntil
  split_ifs with h
  · refine (page_nil (h.imp_left fun h0 => ?_)).symm
    rw [h0]
    rfl
  · exact walk_eq_page (OrdMap.keys_sorted _) after untilId maxCount.toNat

theorem le_getHighestId (r : DynamicQuestRegistry) : ∀ k ∈ r.quests.keys, k ≤ r.getHighestId :=
  fun _ hk => OrdMap.le_lastKey r.quests hk

theorem quest_pages (limit : UInt64) :
    Pages machine (fun r after maxCount => r.getIdsAfterUntil after limit maxCount)
      (fun r => r.quests.keys) UInt32.toNat limit (fun r => r.quests[(0 : UInt64)]? = none)
      (Op.OffersAbove limit) where
  sorted r _ := OrdMap.keys_sorted r.quests
  page_eq r after maxCount _ := getIdsAfterUntil_eq r after limit maxCount
  inv r op o r' h0 hstep := by
    have hc := (effect_of_step hstep).change 0
    rw [h0] at hc
    generalize r'.quests[(0 : UInt64)]? = x at hc
    cases hc with
    | kept | removed => rfl
    | offered _ _ hid => exact absurd rfl hid
  no_new r op o r' _ hop hstep k hk hle := by
    rw [OrdMap.mem_keys_iff] at hk ⊢
    obtain ⟨q', hq'⟩ := hk
    have hc := (effect_of_step hstep).change k
    rw [hq'] at hc
    generalize r.quests[k]? = x at hc
    cases hc with
    | kept | moved => exact ⟨_, rfl⟩
    | offered hoffer =>
      subst hoffer
      exact absurd hle (not_le.mpr hop)

end Quest

/-! ### Groups -/

namespace Groups

open AgentGroupRegistry

/-- New ids come above the limit. -/
def RegistryOp.AddsAbove (limit : UInt64) : RegistryOp → Prop
  | .add record => limit < record.id
  | _ => True

/-- The registry next to the cursor of a cycle. -/
def groupScan (untilId : UInt64) :
    Machine (AgentGroupRegistry × UInt64) (RegistryOp ⊕ UInt32) (Bool ⊕ List UInt64) :=
  scan machine fun r after maxCount => r.getGroupsAfterUntil after untilId maxCount

variable {r r' : AgentGroupRegistry} {op : RegistryOp} {b : Bool}

theorem Keyed.map_id (h : r.Keyed) {ps : List (UInt64 × AgentGroupRecord)}
    (hps : ∀ p ∈ ps, p ∈ r.groups.toList) : (ps.map fun p => p.2.id) = ps.map Prod.fst :=
  List.map_congr_left fun p hp =>
    (h p.1 p.2 (ExtTreeMap.mem_toList_iff_getElem?_eq_some.mp (hps p hp))).1

theorem getGroupsAfterUntil_eq (h : r.Keyed) (after untilId : UInt64) (maxCount : UInt32) :
    r.getGroupsAfterUntil after untilId maxCount =
      page r.groups.keys after untilId maxCount.toNat := by
  unfold getGroupsAfterUntil
  split_ifs with hend
  · refine (page_nil (hend.imp_left fun h0 => ?_)).symm
    rw [h0]
    rfl
  · rw [Keyed.map_id h, List.map_take, ← walk_eq_page (OrdMap.keys_sorted _),
      ← ExtTreeMap.map_fst_toList_eq_keys, List.dropWhile_map, List.takeWhile_map]
    · rfl
    · intro p hp
      have hp := (List.takeWhile_sublist _).subset (List.mem_of_mem_take hp)
      exact (List.dropWhile_sublist _).subset hp

theorem le_getHighestGroupId (h : r.Keyed) : ∀ k ∈ r.groups.keys, k ≤ r.getHighestGroupId := by
  intro k hk
  have hle := OrdMap.le_lastKey r.groups hk
  rw [← ExtTreeMap.map_fst_toList_eq_keys, List.getLast?_map] at hle
  unfold getHighestGroupId
  cases hlast : r.groups.toList.getLast? with
  | none =>
    rw [hlast] at hle
    exact hle
  | some p =>
    rw [hlast] at hle
    have hp := ExtTreeMap.mem_toList_iff_getElem?_eq_some.mp (List.mem_of_getLast? hlast)
    exact hle.trans_eq (h p.1 p.2 hp).1.symm

theorem group_pages (limit : UInt64) :
    Pages machine (fun r after maxCount => r.getGroupsAfterUntil after limit maxCount)
      (fun r => r.groups.keys) UInt32.toNat limit Keyed (RegistryOp.AddsAbove limit) where
  sorted r _ := OrdMap.keys_sorted r.groups
  page_eq r after maxCount h := getGroupsAfterUntil_eq h after limit maxCount
  inv _ _ _ _ h hstep := (effect_of_step hstep).keyed h
  no_new r op b r' _ hop hstep k hk hle := by
    rw [OrdMap.mem_keys_iff] at hk ⊢
    obtain ⟨record, hrecord⟩ := hk
    rcases (effect_of_step hstep).group_before hrecord with hold | ⟨rfl, rfl⟩
    · exact hold
    · exact absurd hle (not_le.mpr hop)

theorem keyed_of_reachable (h : machine.Reachable {} r) : r.Keyed :=
  h.invariant (fun _ _ _ _ h hstep => (effect_of_step hstep).keyed h) keyed_empty

end Groups

/-! ### The cycles -/

namespace Quest

open DynamicQuestRegistry

theorem zero_free_of_reachable {r : DynamicQuestRegistry} (h : Reachable r) :
    r.quests[(0 : UInt64)]? = none :=
  h.invariant (quest_pages 0).inv (by simp)

end Quest

/-- A cycle of either registry, from a reachable registry and the cursor zero up to
its highest id: whatever is taken out meanwhile, and whatever comes in above that
id, the pages sweep the registry. -/
theorem maintenance_cycles_sweep :
    (∀ r, Quest.Reachable r → ∀ tr x', (Quest.questScan r.getHighestId).Run (r, 0) tr x' →
      (∀ e ∈ tr, Input.Fair UInt32.toNat (Quest.Op.OffersAbove r.getHighestId) e.input) →
      Sweep (fun r => r.quests.keys) r r.getHighestId tr) ∧
    ∀ r, Groups.AgentGroupRegistry.machine.Reachable {} r → ∀ tr x',
      (Groups.groupScan r.getHighestGroupId).Run (r, 0) tr x' →
      (∀ e ∈ tr, Input.Fair UInt32.toNat (Groups.RegistryOp.AddsAbove r.getHighestGroupId) e.input) →
      Sweep (fun r => r.groups.keys) r r.getHighestGroupId tr := by
  constructor
  · intro r hr tr x' hrun hfair
    have h0 := Quest.zero_free_of_reachable hr
    refine (Quest.quest_pages _).sweep hrun h0 hfair (fun k hk => ?_) (Quest.le_getHighestId r)
    refine pos_of_ne_zero fun hk0 => ?_
    obtain ⟨q, hq⟩ := (OrdMap.mem_keys_iff _ k).mp hk
    rw [hk0, h0] at hq
    contradiction
  · intro r hr tr x' hrun hfair
    have h := Groups.keyed_of_reachable hr
    refine (Groups.group_pages _).sweep hrun h hfair (fun k hk => ?_) (Groups.le_getHighestGroupId h)
    obtain ⟨record, hrecord⟩ := (OrdMap.mem_keys_iff _ k).mp hk
    exact pos_of_ne_zero (h k record hrecord).2

/-- Three quests, and a cycle in which one is taken out and one comes in. -/
def threeOffers : List Quest.Op :=
  [3, 5, 7].map fun id => .offer id { giver := 9, requiredCount := 1, expiryMs := 1000 } {} 10

def questCycle : List (Quest.Op ⊕ UInt32) :=
  [.inr 1, .inl (.remove 5), .inl (.offer 9 { giver := 9, requiredCount := 1 } {} 20), .inr 2, .inr 1]

def threeGroups : List Groups.RegistryOp := [3, 5, 7].map fun id => .add { id }

def groupCycle : List (Groups.RegistryOp ⊕ UInt32) :=
  [.inr 1, .inl (.remove 5), .inl (.add { id := 9 }), .inr 2, .inr 1]

theorem maintenance_cycles_sweep_small :
    (∃ r tr, pages tr = [[3], [7], []] ∧
      Sweep (fun r : Quest.DynamicQuestRegistry => r.quests.keys) r 7
        (tr : List (Event _ (Quest.Op ⊕ UInt32) (Quest.Outcome ⊕ List UInt64)))) ∧
    ∃ r tr, pages tr = [[3], [7], []] ∧
      Sweep (fun r : Groups.AgentGroupRegistry => r.groups.keys) r 7
        (tr : List (Event _ (Groups.RegistryOp ⊕ UInt32) (Bool ⊕ List UInt64))) := by
  constructor
  · have h : ((Quest.machine.exec {} threeOffers).bind fun p =>
        ((Quest.questScan p.2.getHighestId).exec (p.2, 0) questCycle).map fun p' =>
          (p.2.getHighestId, pages p'.1)) = some (7, [[3], [7], []]) := by decide +kernel
    obtain ⟨⟨tr₀, r⟩, hr, h⟩ := Option.bind_eq_some_iff.mp h
    obtain ⟨⟨tr, x'⟩, hexec, h⟩ := Option.map_eq_some_iff.mp h
    obtain ⟨h7, hpages⟩ := Prod.mk.inj h
    have hfair : ∀ i ∈ questCycle, Input.Fair UInt32.toNat (Quest.Op.OffersAbove 7) i := by
      simp [questCycle, Input.Fair, Quest.Op.OffersAbove]
    have hsweep := maintenance_cycles_sweep.1 r ⟨tr₀, Machine.run_of_exec hr⟩ tr x'
      (Machine.run_of_exec hexec) fun e he =>
        h7.symm ▸ hfair e.input (Machine.inputs_of_exec hexec ▸ List.mem_map_of_mem he)
    exact ⟨r, tr, hpages, h7 ▸ hsweep⟩
  · have h : ((Groups.AgentGroupRegistry.machine.exec {} threeGroups).bind fun p =>
        ((Groups.groupScan p.2.getHighestGroupId).exec (p.2, 0) groupCycle).map fun p' =>
          (p.2.getHighestGroupId, pages p'.1)) = some (7, [[3], [7], []]) := by decide +kernel
    obtain ⟨⟨tr₀, r⟩, hr, h⟩ := Option.bind_eq_some_iff.mp h
    obtain ⟨⟨tr, x'⟩, hexec, h⟩ := Option.map_eq_some_iff.mp h
    obtain ⟨h7, hpages⟩ := Prod.mk.inj h
    have hfair : ∀ i ∈ groupCycle, Input.Fair UInt32.toNat (Groups.RegistryOp.AddsAbove 7) i := by
      simp [groupCycle, Input.Fair, Groups.RegistryOp.AddsAbove]
    have hsweep := maintenance_cycles_sweep.2 r ⟨tr₀, Machine.run_of_exec hr⟩ tr x'
      (Machine.run_of_exec hexec) fun e he =>
        h7.symm ▸ hfair e.input (Machine.inputs_of_exec hexec ▸ List.mem_map_of_mem he)
    exact ⟨r, tr, hpages, h7 ▸ hsweep⟩

end AIWorld
