import AIWorld.Lib.Binary32Order
import AIWorld.Memory.MemoryRetrieval

/-! What is returned covers what was remembered. Except for checks of where a guard was, which are
duplicates within a yard of one another, each memory is of one thing; of each thing the most
relevant memory is returned, unless others that are as relevant leave no room for it. -/

namespace AIWorld.Memory.MemoryRetrieval

open Lib.Binary32 Lib.Merging Lib.Ranking
open OrderDual (toDual)
open Quest (ObjectGuid)

variable {a b c m : RetrievedMemory} {context : MemoryQueryContext} {shortTerm : List MemoryRecord}
  {longTerm : List LongTermMemoryRecord} {maxResults : ℕ}

/-! ### What a memory is of -/

inductive Subject
  | raid (owner : UInt64) (mapId : UInt32) (kind : RaidExperienceKind) (depotId routeId : UInt32)
      (attemptId guard : Option UInt64)
  | event (id occurredAtMs : UInt64)
  | player (guid : ObjectGuid)
  | agent (id : UInt64)
  | spawn (mapId : UInt32) (id : UInt64)
  | creature (guid : ObjectGuid)

def raidSubject (m : RetrievedMemory) (raid : RaidExperience) : Subject :=
  .raid m.owner m.location.mapId raid.kind raid.depotId raid.routeId
    (if raid.kind ≠ .theft ∧ raid.kind ≠ .delivered then none else some raid.attemptId)
    (if raid.kind ≠ .guardEncounter ∧ raid.kind ≠ .guardPositionChecked then none
      else some m.target.spawnId)

def creatureSubject (m : RetrievedMemory) : Subject :=
  if m.target.agent ≠ 0 then .agent m.target.agent
  else if m.target.spawnId ≠ 0 then .spawn m.location.mapId m.target.spawnId
  else .creature m.target.guid

def subject (m : RetrievedMemory) : Option Subject :=
  match m.type with
  | .raidExperience => m.raid.map (raidSubject m)
  | .worldEvent => some (.event m.sourceEventId m.sourceOccurredAtMs)
  | .playerSeen => some (.player m.target.guid)
  | .creatureSeen => some (creatureSubject m)

def Subject.type : Subject → ObservationType
  | .raid .. => .raidExperience
  | .event .. => .worldEvent
  | .player _ => .playerSeen
  | .agent _ | .spawn .. | .creature _ => .creatureSeen

theorem subject_type {s : Subject} (h : subject m = some s) : s.type = m.type := by
  unfold subject at h
  cases htype : m.type with
  | raidExperience =>
    rw [htype] at h
    obtain ⟨raid, -, rfl⟩ := Option.map_eq_some_iff.mp h
    rfl
  | worldEvent =>
    rw [htype] at h
    cases h
    rfl
  | playerSeen =>
    rw [htype] at h
    cases h
    rfl
  | creatureSeen =>
    rw [htype] at h
    cases h
    unfold creatureSubject
    split_ifs <;> rfl

/-- A check of where a guard was. -/
def isGuardCheck (m : RetrievedMemory) : Bool :=
  decide (m.type = .raidExperience) &&
    m.raid.any fun raid => decide (raid.kind = .guardPositionChecked)

theorem sameRaid_iff {raid other : RaidExperience} (ha : a.raid = some raid) (hb : b.raid = some other)
    (hkind : raid.kind ≠ .guardPositionChecked) :
    sameRaid a b = true ↔ raidSubject a raid = raidSubject b other := by
  unfold sameRaid sameRaidExperience raidSubject
  rw [ha, hb]
  simp only [Bool.and_eq_true, Bool.or_eq_true, decide_eq_true_eq, beq_iff_eq, Subject.raid.injEq]
  by_cases hsame : raid.kind = other.kind
  · rw [← hsame]
    by_cases houtcome : raid.kind ≠ .theft ∧ raid.kind ≠ .delivered
    · by_cases hguard : raid.kind = .guardEncounter
      · simp [hguard]
        tauto
      · simp [houtcome, hguard, hkind]
        tauto
    · have hguard : raid.kind ≠ .guardEncounter := by
        rintro h
        simp [h] at houtcome
      simp [houtcome, hguard, hkind]
      tauto
  · simp [hsame]

theorem sameCreature_iff :
    (if a.target.agent ≠ 0 ∨ b.target.agent ≠ 0 then a.target.agent == b.target.agent
      else if a.target.spawnId ≠ 0 ∨ b.target.spawnId ≠ 0 then
        a.location.mapId == b.location.mapId && a.target.spawnId == b.target.spawnId
      else decide (a.target.guid = b.target.guid)) = true ↔ creatureSubject a = creatureSubject b := by
  unfold creatureSubject
  by_cases hagent : a.target.agent = 0 <;> by_cases hagent' : b.target.agent = 0
  · by_cases hspawn : a.target.spawnId = 0 <;> by_cases hspawn' : b.target.spawnId = 0
    · simp [hagent, hagent', hspawn, hspawn']
    · simp [hagent, hagent', hspawn, hspawn', Ne.symm hspawn']
    · simp [hagent, hagent', hspawn, hspawn']
    · simp [hagent, hagent', hspawn, hspawn']
  · simp [hagent, hagent', Ne.symm hagent']
    split_ifs <;> simp
  · simp [hagent, hagent']
    split_ifs <;> simp
  · simp [hagent, hagent']

/-- Apart from checks of guards, duplicates are memories of one thing. -/
theorem isSameMemory_iff (ha : isGuardCheck a = false) :
    isSameMemory a b = true ↔ ∃ s, subject a = some s ∧ subject b = some s := by
  by_cases htype : a.type = b.type
  · unfold isSameMemory subject
    rw [if_neg (not_not.mpr htype), ← htype]
    cases h : a.type with
    | raidExperience =>
      cases hra : a.raid with
      | none => simp [sameRaid, hra]
      | some raid =>
        have hkind : raid.kind ≠ .guardPositionChecked := by
          simpa [isGuardCheck, h, hra] using ha
        cases hrb : b.raid with
        | none => simp [sameRaid, hra, hrb]
        | some other => simp [sameRaid_iff hra hrb hkind, eq_comm]
    | worldEvent =>
      simp
      rw [eq_comm, @eq_comm _ b.sourceOccurredAtMs]
    | playerSeen =>
      simp
      rw [eq_comm]
    | creatureSeen =>
      dsimp only
      rw [sameCreature_iff]
      simp [eq_comm]
  · unfold isSameMemory
    rw [if_pos htype]
    refine iff_of_false Bool.false_ne_true ?_
    rintro ⟨s, hs, hs'⟩
    exact htype ((subject_type hs).symm.trans (subject_type hs'))

theorem isGuardCheck_eq (h : isSameMemory a b = true) : isGuardCheck a = isGuardCheck b := by
  unfold isSameMemory at h
  by_cases htype : a.type = b.type
  · rw [if_neg (not_not.mpr htype)] at h
    unfold isGuardCheck
    rw [← htype]
    cases hta : a.type with
    | raidExperience =>
      rw [hta] at h
      change sameRaid a b = true at h
      unfold sameRaid at h
      cases hra : a.raid with
      | none => simp [hra] at h
      | some raid =>
        cases hrb : b.raid with
        | none => simp [hra, hrb] at h
        | some other =>
          simp only [hra, hrb, sameRaidExperience, Bool.and_eq_true, decide_eq_true_eq] at h
          simp [h.1.1.2.1.1.1]
    | worldEvent => rfl
    | playerSeen => rfl
    | creatureSeen => rfl
  · rw [if_pos htype] at h
    contradiction

theorem plain_isSameMemory : Plain isSameMemory fun m => isGuardCheck m = false where
  closed a b h := by rw [isGuardCheck_eq h]
  symm a b ha h := by
    have hb := (isGuardCheck_eq h).symm.trans ha
    rw [isSameMemory_iff hb]
    obtain ⟨s, hs, hs'⟩ := (isSameMemory_iff ha).mp h
    exact ⟨s, hs', hs⟩
  trans a b c ha h h' := by
    have hb := (isGuardCheck_eq h).symm.trans ha
    obtain ⟨s, hs, hsb⟩ := (isSameMemory_iff ha).mp h
    obtain ⟨t, htb, ht⟩ := (isSameMemory_iff hb).mp h'
    cases hsb.symm.trans htb
    exact (isSameMemory_iff ha).mpr ⟨s, hs, ht⟩

/-! ### Order -/

/-- Both numbers that the order looks at are numbers. -/
structure Numbers (m : RetrievedMemory) : Prop where
  relevance : m.relevance.isNaN = false
  importance : m.importance.isNaN = false

abbrev Rank := ℤ ×ₗ ℤ ×ₗ ℤ

def tierPlace : MemoryTier → ℕ
  | .longTerm => 0
  | .shortTerm => 1

def place (m : RetrievedMemory) : Rankᵒᵈ ×ₗ Rankᵒᵈ ×ₗ ℕᵒᵈ ×ₗ ℕ ×ₗ ℕ :=
  toLex (toDual (rank m.relevance), toLex (toDual (rank m.importance),
    toLex (toDual m.lastObservedAtMs.toNat,
      toLex (tierPlace m.tier, m.memoryId.toNat))))

theorem larger_first_iff {x y : Float32} {rest : Bool} (hx : x.isNaN = false) (hy : y.isNaN = false) :
    (if x != y then decide (x > y) else rest) = true ↔
      toDual (rank x) < toDual (rank y) ∨ toDual (rank x) = toDual (rank y) ∧ rest = true := by
  rw [OrderDual.toDual_lt_toDual, OrderDual.toDual_inj, ← beq_iff_rank hx hy, ← lt_iff_rank hy hx]
  cases heq : x == y with
  | true =>
    have hnot : ¬ y < x := by
      rw [lt_iff_rank hy hx, (beq_iff_rank hx hy).mp heq]
      exact lt_irrefl _
    simp [bne, heq, hnot]
  | false => simp [bne, heq]

theorem later_first_iff {x y : UInt64} {rest : Bool} :
    (if x ≠ y then decide (x > y) else rest) = true ↔
      toDual x.toNat < toDual y.toNat ∨ toDual x.toNat = toDual y.toNat ∧ rest = true := by
  rw [OrderDual.toDual_lt_toDual, OrderDual.toDual_inj, UInt64.toNat_inj, ← UInt64.lt_iff_toNat_lt]
  by_cases heq : x = y
  · have hnot : ¬ y < x := heq ▸ UInt64.lt_irrefl x
    simp [heq]
  · simp [heq]

theorem long_first_iff {x y : MemoryTier} {rest : Bool} :
    (if x ≠ y then decide (x = .longTerm) else rest) = true ↔
      tierPlace x < tierPlace y ∨
        tierPlace x = tierPlace y ∧ rest = true := by
  cases x <;> cases y <;> simp [tierPlace]

theorem precedes_iff (ha : Numbers a) (hb : Numbers b) : precedes a b = true ↔ place a < place b := by
  unfold precedes place
  rw [larger_first_iff ha.relevance hb.relevance, larger_first_iff ha.importance hb.importance,
    later_first_iff, long_first_iff, decide_eq_true_eq, UInt64.lt_iff_toNat_lt,
    Prod.Lex.toLex_lt_toLex, Prod.Lex.toLex_lt_toLex, Prod.Lex.toLex_lt_toLex,
    Prod.Lex.toLex_lt_toLex]

theorem relevance_le_of_place (ha : Numbers a) (hb : Numbers b) (h : place a ≤ place b) :
    b.relevance ≤ a.relevance := by
  rw [le_iff_rank hb.relevance ha.relevance]
  have hle := Prod.Lex.monotone_fst _ _ h
  exact OrderDual.toDual_le_toDual.mp hle

/-- The second memory is no less relevant than the first. -/
def NoLess (a b : RetrievedMemory) : Prop := a.relevance ≤ b.relevance

/-- What survives of two duplicates is no less relevant than the other. -/
theorem noLess_of_candidateWins (ha : Numbers a) (hb : Numbers b) :
    if candidateWins a b then NoLess b a else NoLess a b := by
  unfold NoLess
  split_ifs with hwins
  · unfold candidateWins at hwins
    rw [Bool.or_eq_true, Bool.and_eq_true, Bool.and_eq_true, decide_eq_true_eq] at hwins
    rw [le_iff_rank hb.relevance ha.relevance]
    rcases hwins with hlt | ⟨⟨heq, -⟩, -⟩
    · exact ((lt_iff_rank hb.relevance ha.relevance).mp hlt).le
    · exact ((beq_iff_rank ha.relevance hb.relevance).mp heq).ge
  · unfold candidateWins at hwins
    rw [Bool.or_eq_true, not_or, decide_eq_true_eq, gt_iff_lt,
      lt_iff_rank hb.relevance ha.relevance] at hwins
    exact (le_iff_rank ha.relevance hb.relevance).mpr (not_lt.mp hwins.1)

theorem relevance_le_of_leads (ha : Numbers a)
    (h : Leads isSameMemory NoLess a b) : a.relevance ≤ b.relevance := by
  induction h with
  | refl => exact (le_iff_rank ha.relevance ha.relevance).mpr le_rfl
  | tail _ hyields ih => exact le_trans_of_le ih hyields.2

theorem of_leads (ha : isGuardCheck a = false) (h : Leads isSameMemory NoLess a b) :
    b = a ∨ (isSameMemory a b = true ∧ a.relevance ≤ b.relevance) := by
  have htrans : ∀ a b c, NoLess a b → NoLess b c → NoLess a c := fun _ _ _ => le_trans_of_le
  exact plain_isSameMemory.of_leads htrans ha h

/-! ### Retrieval -/

def quarterPast : MemoryQueryContext := { agent := 7, nowMs := 900, mapId := 1 }

def seenWolves : List MemoryRecord :=
  [{ id := 1, owner := 7, type := .creatureSeen, importance := 0.5, lastObservedAtMs := 600,
     expiresAtMs := 1000, location := ⟨1, 10, 0, 0⟩, target := { spawnId := 5 } },
   { id := 2, owner := 7, type := .creatureSeen, importance := 0.5, lastObservedAtMs := 700,
     expiresAtMs := 1100, location := ⟨1, 20, 0, 0⟩, target := { spawnId := 6 } }]

def knownWolf : List LongTermMemoryRecord :=
  [{ persistentId := 9, owner := 7, type := .creatureSeen, importance := 0.75,
     lastObservedAtMs := 100, location := ⟨1, 10, 0, 0⟩, target := { spawnId := 5 } }]

/-- A check of where one guard was. -/
def check (id : UInt64) (x importance : Float32) : MemoryRecord :=
  { id, owner := 7, type := .raidExperience, importance, expiresAtMs := 1000, location := ⟨0, x, 0, 0⟩,
    target := { spawnId := 5 }, raid := some { kind := .guardPositionChecked } }

/-- Someone who was seen, as important as given. -/
def sight (id : UInt64) (importance : Float32) : MemoryRecord :=
  { id, owner := 7, type := .playerSeen, importance, expiresAtMs := 1000 }

end AIWorld.Memory.MemoryRetrieval
