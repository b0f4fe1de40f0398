import AIWorld.Memory.ShortTermMemory
import Mathlib.Data.List.Perm.Basic

/-! What the short-term memory of an agent holds over all its history: never more than its
capacity, and nothing twice unless an observation is of the kinds that move what they refresh. -/

namespace AIWorld.Memory.ShortTermMemory

open Std (ExtTreeMap)
open Lib

variable {memory : ShortTermMemory} {records : List MemoryRecord} {observation : Observation}
  {a b r s : MemoryRecord} {id ttlMs : UInt64} {importance : Float32} {agent : UInt64}

/-! ### Equivalence of records -/

/-- What the record says was observed. -/
def toObservation (record : MemoryRecord) : Observation where
  observer := record.owner
  type := record.type
  sourceEventId := record.sourceEventId
  location := record.location
  target := record.target
  raid := record.raid

/-- One of the records would be refreshed by what the other says was observed. -/
def Equivalent (a b : MemoryRecord) : Prop :=
  isEquivalent (toObservation a) b = true ∨ isEquivalent (toObservation b) a = true

theorem Equivalent.symm (h : Equivalent a b) : Equivalent b a := Or.symm h

def Distinct (records : List MemoryRecord) : Prop :=
  records.Pairwise fun a b => ¬ Equivalent a b

/-- The records agree on all that the equivalence looks at. -/
structure SameKey (a b : MemoryRecord) : Prop where
  type : a.type = b.type
  sourceEventId : a.type = .worldEvent → a.sourceEventId = b.sourceEventId
  location : a.location = b.location
  target : a.target = b.target
  raid : a.raid = b.raid

theorem SameKey.refreshes (h : SameKey a b) : isEquivalent observation a = isEquivalent observation b := by
  have hraid : sameRaid observation a = sameRaid observation b := by
    unfold sameRaid
    rw [h.raid, h.location, h.target]
  unfold isEquivalent
  rw [hraid, h.type, h.location, h.target]
  by_cases htype : b.type = observation.type
  · rw [if_neg (not_not.mpr htype), if_neg (not_not.mpr htype)]
    cases hobserved : observation.type with
    | worldEvent => rw [h.sourceEventId (h.type.trans (htype.trans hobserved))]
    | _ => rfl
  · rw [if_pos htype, if_pos htype]

theorem SameKey.refreshed (h : SameKey a b) :
    isEquivalent (toObservation a) r = isEquivalent (toObservation b) r := by
  have hraid : sameRaid (toObservation a) r = sameRaid (toObservation b) r := by
    unfold sameRaid toObservation
    rw [h.raid, h.location, h.target]
  unfold isEquivalent
  rw [hraid]
  unfold toObservation
  dsimp only
  rw [h.type, h.location, h.target]
  cases htype : b.type with
  | worldEvent => rw [h.sourceEventId (h.type.trans htype)]
  | _ => rfl

theorem SameKey.equivalent_iff (h : SameKey a b) : Equivalent r a ↔ Equivalent r b := by
  unfold Equivalent
  rw [h.refreshes, h.refreshed]

/-- The record that an observation makes. -/
def recorded (observation : Observation) : MemoryRecord := create 0 observation 0 0

theorem sameKey_create : SameKey (create id observation ttlMs importance) (recorded observation) :=
  ⟨rfl, fun _ => rfl, rfl, rfl, rfl⟩

theorem type_eq (h : isEquivalent observation r = true) : r.type = observation.type := by
  by_contra hne
  unfold isEquivalent at h
  rw [if_pos hne] at h
  contradiction

theorem sameKey_refresh (ttlMs : UInt64) (importance : Float32)
    (h : isEquivalent observation r = true) :
    SameKey (refresh observation ttlMs importance r) (recorded observation) := by
  have htype := type_eq h
  refine ⟨htype, fun hevent => ?_, rfl, rfl, rfl⟩
  have hobserved : observation.type = .worldEvent := htype.symm.trans hevent
  unfold isEquivalent at h
  rw [if_neg (not_not.mpr htype), hobserved] at h
  exact eq_of_beq h

/-! ### The kinds that stay -/

/-- Such an observation may be equivalent to several records that are not equivalent to one
another: creatures are told by different marks, and the places of a guard need only be near. -/
def mayMove (observation : Observation) : Bool :=
  match observation.type with
  | .creatureSeen => true
  | .raidExperience => observation.raid.any fun raid => decide (raid.kind = .guardPositionChecked)
  | _ => false

theorem sameRaid_iff : sameRaid observation r = true ↔ ∃ raid observed, r.raid = some raid ∧
    observation.raid = some observed ∧ sameRaidExperience raid observed = true ∧
      r.location.mapId = observation.location.mapId ∧
      (isGuard observed.kind = true → r.target.spawnId = observation.target.spawnId) ∧
      (observed.kind = .guardPositionChecked → observation.target.spawnId ≠ 0 ∧
        sameCheckedGuardLocation r.location observation.location = true) := by
  unfold sameRaid
  cases hr : r.raid <;> cases ho : observation.raid <;> simp [and_assoc, or_iff_not_imp_left]

theorem sameRaidExperience_symm {x y : RaidExperience} (h : sameRaidExperience x y = true) :
    sameRaidExperience y x = true := by
  simp only [sameRaidExperience, Bool.and_eq_true, decide_eq_true_eq, beq_iff_eq,
    Bool.or_eq_true] at h ⊢
  grind

theorem sameRaidExperience_trans {x y z : RaidExperience} (h : sameRaidExperience x y = true)
    (h' : sameRaidExperience y z = true) : sameRaidExperience x z = true := by
  simp only [sameRaidExperience, Bool.and_eq_true, decide_eq_true_eq, beq_iff_eq,
    Bool.or_eq_true] at h h' ⊢
  grind

theorem kind_eq {x y : RaidExperience} (h : sameRaidExperience x y = true) : x.kind = y.kind := by
  simp only [sameRaidExperience, Bool.and_eq_true, decide_eq_true_eq] at h
  exact h.1.1.1

/-- For the kinds that stay the equivalence is one of keys. -/
theorem isEquivalent_iff (hstays : mayMove observation = false) :
    isEquivalent observation r = true ↔ r.type = observation.type ∧
      (observation.type = .worldEvent → r.sourceEventId = observation.sourceEventId) ∧
      (observation.type = .playerSeen → r.target.guid = observation.target.guid) ∧
      (observation.type = .raidExperience → sameRaid observation r = true) := by
  unfold isEquivalent
  unfold mayMove at hstays
  cases hobserved : observation.type <;> simp_all

theorem sameRaid_of_isEquivalent (h : isEquivalent observation r = true)
    (hkind : observation.type = .raidExperience) : sameRaid observation r = true := by
  have htype := type_eq h
  unfold isEquivalent at h
  rw [if_neg (not_not.mpr htype), hkind] at h
  exact h

theorem mayMove_toObservation (h : isEquivalent observation r = true) :
    mayMove (toObservation r) = mayMove observation := by
  have htype : r.type = observation.type := type_eq h
  unfold mayMove toObservation
  dsimp only
  rw [htype]
  cases hkind : observation.type with
  | raidExperience =>
    obtain ⟨raid, observed, hraid, hobserved, hsame, -⟩ := sameRaid_iff.mp
      (sameRaid_of_isEquivalent h hkind)
    rw [hraid, hobserved]
    simp [kind_eq hsame]
  | _ => rfl

theorem sameRaid_symm (hstays : mayMove observation = false) (htype : observation.type = .raidExperience)
    (h : sameRaid (toObservation r) (recorded observation) = true) : sameRaid observation r = true := by
  obtain ⟨raid, observed, hraid, hobserved, hsame, hmap, hguard, -⟩ := sameRaid_iff.mp h
  have hraid : observation.raid = some raid := hraid
  have hobserved : r.raid = some observed := hobserved
  have hkind := kind_eq hsame
  unfold mayMove at hstays
  rw [htype, hraid] at hstays
  refine sameRaid_iff.mpr ⟨observed, raid, hobserved, hraid, sameRaidExperience_symm hsame, hmap.symm,
    fun hisGuard => (hguard (hkind ▸ hisGuard)).symm, fun hchecked => ?_⟩
  simp [hchecked] at hstays

theorem isEquivalent_of_equivalent (hstays : mayMove observation = false)
    (h : Equivalent r (recorded observation)) : isEquivalent observation r = true := by
  rcases h with h | h
  · have hstays' : mayMove (toObservation r) = false := (mayMove_toObservation h).symm.trans hstays
    obtain ⟨htype, hevent, hplayer, hraid⟩ := (isEquivalent_iff hstays').mp h
    have htype : observation.type = r.type := htype
    refine (isEquivalent_iff hstays).mpr ⟨htype.symm, fun hkind => ?_, fun hkind => ?_, fun hkind => ?_⟩
    · exact (hevent (htype.symm.trans hkind)).symm
    · exact (hplayer (htype.symm.trans hkind)).symm
    · exact sameRaid_symm hstays hkind (hraid (htype.symm.trans hkind))
  · exact h

theorem equivalent_of_isEquivalent (hstays : mayMove observation = false)
    (hr : isEquivalent observation r = true) (hs : isEquivalent observation s = true) :
    Equivalent r s := by
  left
  have hstays' := (mayMove_toObservation hr).trans hstays
  obtain ⟨htypeR, heventR, hplayerR, hraidR⟩ := (isEquivalent_iff hstays).mp hr
  obtain ⟨htypeS, heventS, hplayerS, hraidS⟩ := (isEquivalent_iff hstays).mp hs
  refine (isEquivalent_iff hstays').mpr ⟨htypeS.trans htypeR.symm, fun hkind => ?_, fun hkind => ?_,
    fun hkind => ?_⟩
  · have hkind := htypeR.symm.trans hkind
    exact (heventS hkind).trans (heventR hkind).symm
  · have hkind := htypeR.symm.trans hkind
    exact (hplayerS hkind).trans (hplayerR hkind).symm
  · have hkind := htypeR.symm.trans hkind
    obtain ⟨raid, observed, hraid, hobserved, hsame, hmap, hguard, hchecked⟩ :=
      sameRaid_iff.mp (hraidR hkind)
    obtain ⟨raid', observed', hraid', hobserved', hsame', hmap', hguard', -⟩ :=
      sameRaid_iff.mp (hraidS hkind)
    cases hobserved.symm.trans hobserved'
    have hkindR := kind_eq hsame
    refine sameRaid_iff.mpr ⟨raid', raid, hraid', hraid,
      sameRaidExperience_trans hsame' (sameRaidExperience_symm hsame), hmap'.trans hmap.symm,
      fun hisGuard => ?_, fun hcheck => ?_⟩
    · rw [hkindR] at hisGuard
      exact (hguard' hisGuard).trans (hguard hisGuard).symm
    · unfold mayMove at hstays
      rw [hkind, hobserved] at hstays
      rw [hkindR] at hcheck
      simp [hcheck] at hstays

/-! ### One observation -/

/-- The records that stay as they are when the observation is remembered. -/
def others (records : List MemoryRecord) (observation : Observation) : List MemoryRecord :=
  match findEquivalent records observation with
  | some i => records.eraseIdx i
  | none => evict records

theorem sublist_others (records : List MemoryRecord) (observation : Observation) :
    (others records observation).Sublist records := by
  unfold others
  split
  · exact List.eraseIdx_sublist _ _
  · unfold evict
    split_ifs
    · exact List.eraseIdx_sublist _ _
    · exact .refl _

/-- What is observed is equivalent to none of the other records. -/
def Apart (records : List MemoryRecord) (observation : Observation) : Prop :=
  ∀ r ∈ others records observation, ¬ Equivalent r (recorded observation)

/-- Of the kinds that stay, what is observed is equivalent to no other record. -/
theorem Distinct.apart (h : Distinct records) (hstays : mayMove observation = false) :
    Apart records observation := by
  intro r hr hequivalent
  have hhere := isEquivalent_of_equivalent hstays hequivalent
  unfold others at hr
  cases hfind : findEquivalent records observation with
  | none =>
    have hmem := (sublist_others records observation).mem (by unfold others; exact hr)
    have hnone := List.findIdx?_eq_none_iff.mp hfind r hmem
    rw [hhere] at hnone
    contradiction
  | some i =>
    rw [hfind] at hr
    obtain ⟨hi, hfound, -⟩ := List.findIdx?_eq_some_iff_getElem.mp hfind
    have hperm : records.Perm (records[i] :: records.eraseIdx i) := (List.getElem_cons_eraseIdx_perm hi).symm
    have hpairwise := (hperm.pairwise_iff fun h h' => h (Equivalent.symm h')).mp h
    exact (List.pairwise_cons.mp hpairwise).1 r hr (equivalent_of_isEquivalent hstays hfound hhere)

theorem perm_modify {i : ℕ} (hi : i < records.length) (f : MemoryRecord → MemoryRecord) :
    (records.modify i f).Perm (f records[i] :: records.eraseIdx i) := by
  rw [List.modify_eq_take_cons_drop hi, List.eraseIdx_eq_take_drop_succ]
  exact List.perm_middle

/-- Remembering puts one record of what is observed beside the others. -/
theorem exists_perm_remember (memory : ShortTermMemory) (observation : Observation) (ttlMs : UInt64)
    (importance : Float32) :
    ∃ record, SameKey record (recorded observation) ∧
      ((memory.remember observation ttlMs importance).1.getForAgent observation.observer).Perm
        (record :: others (memory.getForAgent observation.observer) observation) := by
  unfold remember others
  dsimp only
  cases hfind : findEquivalent (memory.getForAgent observation.observer) observation with
  | none =>
    refine ⟨create memory.nextMemoryId observation ttlMs importance, sameKey_create, ?_⟩
    simp [getForAgent]
  | some i =>
    obtain ⟨hi, hfound, -⟩ := List.findIdx?_eq_some_iff_getElem.mp hfind
    refine ⟨_, sameKey_refresh ttlMs importance hfound, ?_⟩
    simpa [getForAgent] using perm_modify hi _

theorem getForAgent_remember_ne (hne : agent ≠ observation.observer) :
    (memory.remember observation ttlMs importance).1.getForAgent agent = memory.getForAgent agent := by
  unfold remember getForAgent
  dsimp only
  split
  · rw [OrdMap.getElem?_insert_ne _ _ hne.symm]
  · rw [OrdMap.getElem?_insert_ne _ _ hne.symm]

theorem getForAgent_expire (nowMs : UInt64) :
    (memory.expire nowMs).getForAgent agent =
      (memory.getForAgent agent).filter fun record => !decide (record.expiresAtMs ≤ nowMs) := by
  unfold expire getForAgent
  rw [ExtTreeMap.getElem?_map]
  cases memory.records[agent]? <;> rfl

/-- After an observation nothing is stored twice if and only if the other records are distinct and
what was observed is apart from them. -/
theorem distinct_remember_iff :
    Distinct ((memory.remember observation ttlMs importance).1.getForAgent observation.observer) ↔
      Distinct (others (memory.getForAgent observation.observer) observation) ∧
        Apart (memory.getForAgent observation.observer) observation := by
  obtain ⟨record, hkey, hperm⟩ := exists_perm_remember memory observation ttlMs importance
  unfold Distinct
  rw [hperm.pairwise_iff fun h h' => h (Equivalent.symm h'), List.pairwise_cons, and_comm]
  refine and_congr_right fun _ => ⟨fun h r hr hequivalent => ?_, fun h r hr hequivalent => ?_⟩
  · exact h r hr (hkey.equivalent_iff.mpr hequivalent).symm
  · exact h r hr (hkey.equivalent_iff.mp hequivalent.symm)

/-! ### Capacity -/

theorem oldestFrom_lt (records : List MemoryRecord) (last : UInt64) {best i : ℕ} (h : best < i) :
    oldestFrom last best i records < i + records.length := by
  induction records generalizing last best i with
  | nil => exact h
  | cons record records ih =>
    rw [oldestFrom, List.length_cons]
    split_ifs
    · have hlt := ih record.lastObservedAtMs (Nat.lt_add_one i)
      omega
    · have hlt := ih last (Nat.lt_add_right 1 h)
      omega

theorem length_evict (h : records.length ≤ maxEntriesPerAgent) :
    (evict records).length + 1 ≤ maxEntriesPerAgent := by
  unfold evict
  split_ifs with hfull
  · have hlt : oldest records < records.length := by
      cases records with
      | nil => exact absurd hfull (by decide)
      | cons record records =>
        have hlt := oldestFrom_lt records record.lastObservedAtMs Nat.zero_lt_one
        rw [oldest, List.length_cons]
        omega
    rw [List.length_eraseIdx_of_lt hlt]
    omega
  · omega

theorem length_remember
    (h : ∀ agent, (memory.getForAgent agent).length ≤ maxEntriesPerAgent) :
    ((memory.remember observation ttlMs importance).1.getForAgent agent).length ≤
      maxEntriesPerAgent := by
  by_cases hagent : agent = observation.observer
  · subst hagent
    have hle := h observation.observer
    unfold remember
    dsimp only
    cases findEquivalent (memory.getForAgent observation.observer) observation with
    | none => simpa [getForAgent] using length_evict hle
    | some i => simpa [getForAgent] using hle
  · rw [getForAgent_remember_ne hagent]
    exact h agent

/-! ### Histories -/

inductive Op
  | remember (observation : Observation) (ttlMs : UInt64) (importance : Float32)
  | expire (nowMs : UInt64)

def apply (memory : ShortTermMemory) : Op → ShortTermMemory
  | .remember observation ttlMs importance => (memory.remember observation ttlMs importance).1
  | .expire nowMs => memory.expire nowMs

/-- The store after a history of calls. -/
def after (ops : List Op) : ShortTermMemory := ops.foldl apply {}

/-- The call moves no record to where another one stands. -/
def Settled (memory : ShortTermMemory) : Op → Prop
  | .remember observation _ _ => mayMove observation = true →
      Apart (memory.getForAgent observation.observer) observation
  | .expire _ => True

theorem after_append_singleton (ops : List Op) (op : Op) : after (ops ++ [op]) = (after ops).apply op := by
  unfold after
  rw [List.foldl_append, List.foldl_cons, List.foldl_nil]

theorem length_after (ops : List Op) (agent : UInt64) :
    ((after ops).getForAgent agent).length ≤ maxEntriesPerAgent := by
  induction ops using List.reverseRecOn generalizing agent with
  | nil => exact Nat.zero_le _
  | append_singleton ops op ih =>
    rw [after_append_singleton]
    cases op with
    | remember observation ttlMs importance => exact length_remember ih
    | expire nowMs =>
      rw [apply, getForAgent_expire]
      exact (List.length_filter_le _ _).trans (ih agent)

/-- A call keeps the records of every agent distinct if and only if it is settled. -/
theorem distinct_apply_iff {op : Op} (h : ∀ agent, Distinct (memory.getForAgent agent)) :
    (∀ agent, Distinct ((memory.apply op).getForAgent agent)) ↔ Settled memory op := by
  cases op with
  | remember observation ttlMs importance =>
    have hothers := (h observation.observer).sublist (sublist_others _ observation)
    constructor
    · exact fun hafter _ => (distinct_remember_iff.mp (hafter observation.observer)).2
    · intro hsettled agent
      by_cases hagent : agent = observation.observer
      · subst hagent
        refine distinct_remember_iff.mpr ⟨hothers, ?_⟩
        cases hmoves : mayMove observation with
        | true => exact hsettled hmoves
        | false => exact (h _).apart hmoves
      · rw [apply, getForAgent_remember_ne hagent]
        exact h agent
  | expire nowMs =>
    refine iff_of_true (fun agent => ?_) trivial
    rw [apply, getForAgent_expire]
    exact (h agent).sublist List.filter_sublist

theorem distinct_after_iff (ops : List Op) :
    (∀ pre, pre <+: ops → ∀ agent, Distinct ((after pre).getForAgent agent)) ↔
      ∀ pre op, pre ++ [op] <+: ops → Settled (after pre) op := by
  constructor
  · intro h pre op hpre
    refine (distinct_apply_iff (h pre ((List.prefix_append pre [op]).trans hpre))).mp ?_
    rw [← after_append_singleton]
    exact h _ hpre
  · intro h pre hpre
    induction pre using List.reverseRecOn with
    | nil => exact fun agent => List.Pairwise.nil
    | append_singleton pre op ih =>
      rw [after_append_singleton]
      exact (distinct_apply_iff (ih ((List.prefix_append pre [op]).trans hpre))).mpr (h pre op hpre)

/-- Over every history each agent holds at most its capacity, a call touches the records of no
agent but the observer, except that all lose what expired, and nothing is ever stored twice if and
only if no call moves a record to where another one stands. -/
theorem short_term_bounds (ops : List Op) :
    (∀ agent : UInt64, ((after ops).getForAgent agent).length ≤ 128) ∧
    (∀ (memory : ShortTermMemory) (observation : Observation) (ttlMs : UInt64) (importance : Float32)
        (agent : UInt64), agent ≠ observation.observer →
      (memory.remember observation ttlMs importance).1.getForAgent agent = memory.getForAgent agent) ∧
    (∀ (memory : ShortTermMemory) (nowMs agent : UInt64), (memory.expire nowMs).getForAgent agent =
      (memory.getForAgent agent).filter fun record => !decide (record.expiresAtMs ≤ nowMs)) ∧
    ((∀ pre, pre <+: ops → ∀ agent, Distinct ((after pre).getForAgent agent)) ↔
      ∀ pre op, pre ++ [op] <+: ops → Settled (after pre) op) :=
  ⟨length_after ops, fun _ _ _ _ _ hne => getForAgent_remember_ne hne,
    fun _ nowMs _ => getForAgent_expire nowMs, distinct_after_iff ops⟩

/-- A creature seen before it is known as an agent, and again when it is. -/
def seenCreature (agent : UInt64) : Observation :=
  { observer := 1, type := .creatureSeen, target := { spawnId := 5, agent } }

theorem short_term_bounds_unobserved :
    (({} : ShortTermMemory).remember (seenCreature 0) 60000 0).1.getForAgent 2 = [] :=
  (short_term_bounds []).2.1 {} (seenCreature 0) 60000 0 2 (by decide)

theorem creature_stored_twice :
    ¬ ∀ (ops : List Op) (agent : UInt64), Distinct ((after ops).getForAgent agent) := by
  intro h
  have hdistinct := h [.remember (seenCreature 0) 60000 0, .remember (seenCreature 7) 60000 0] 1
  have hrecords : (after [.remember (seenCreature 0) 60000 0,
      .remember (seenCreature 7) 60000 0]).getForAgent 1 =
        [create 1 (seenCreature 0) 60000 0, create 2 (seenCreature 7) 60000 0] := by decide
  rw [hrecords] at hdistinct
  exact (List.pairwise_cons.mp hdistinct).1 _ (List.mem_singleton_self _) (.inl (by decide))

end AIWorld.Memory.ShortTermMemory
