import AIWorld.Agent.LivingRaidMemory
import Mathlib.Data.List.Nodup
import Mathlib.Data.List.Perm.Basic
import Mathlib.Data.Prod.Lex
import Mathlib.Tactic.Linarith
import Mathlib.Tactic.NormNum

/-! A route that is chosen is safe after all that is remembered, and which one it is depends neither
on the order of the memories nor on the order of the candidates. -/

namespace AIWorld.Agent.LivingRaidMemory

open Lib.Selection
open Memory (RetrievedMemory)
open OrderDual (toDual)

variable {hypot : ℚ → ℚ → ℚ → ℚ} {owner now : UInt64} {map previousDepot : UInt32}
  {here : ActionPosition Float32} {candidate : Candidate} {candidates candidates' : List Candidate}
  {memories memories' recalled recalled' : List RetrievedMemory} {memory : RetrievedMemory}

/-! ### Appraisal -/

def gain (now : UInt64) (candidate : Candidate) (memory : RetrievedMemory) : Option ℚ :=
  if succeeded candidate memory then
    some (1.5 * freshness memory now * clamp (value memory.relevance) 0 1)
  else none

def hazard (hypot : ℚ → ℚ → ℚ → ℚ) (now : UInt64) (here : ActionPosition Float32)
    (candidate : Candidate) (memory : RetrievedMemory) : Option ℚ :=
  if blocks candidate memory then some (12 * freshness memory now)
  else if threatens hypot here candidate memory then some (20 * freshness memory now)
  else none

/-- Reason enough to keep away from the candidate. -/
def deadly (hypot : ℚ → ℚ → ℚ → ℚ) (owner now : UInt64) (here : ActionPosition Float32)
    (candidate : Candidate) (memory : RetrievedMemory) : Bool :=
  (blocks candidate memory && decide (strongRiskThreshold ≤ 12 * freshness memory now)) ||
    (threatens hypot here candidate memory && shouldAvoidGuard owner here.mapId now memory)

theorem threatens_of_blocks (h : blocks candidate memory = true) :
    threatens hypot here candidate memory = false := by
  unfold blocks at h
  rw [Bool.and_eq_true, Bool.and_eq_true, decide_eq_true_eq] at h
  simp [threatens, h.1.2]

theorem weigh_stock (a : Appraisal) :
    (a.weigh hypot owner now here candidate memory).stock =
      if supplies candidate memory then keep newer a.stock memory else a.stock := by
  unfold Appraisal.weigh
  dsimp only
  split_ifs <;> rfl

theorem weigh_success (a : Appraisal) (memory : RetrievedMemory) :
    (a.weigh hypot owner now here candidate memory).success =
      (gain now candidate memory).elim a.success (max a.success) := by
  unfold Appraisal.weigh gain
  dsimp only
  split_ifs <;> rfl

theorem weigh_risk (a : Appraisal) (memory : RetrievedMemory) :
    (a.weigh hypot owner now here candidate memory).risk =
      (hazard hypot now here candidate memory).elim a.risk (max a.risk) := by
  unfold Appraisal.weigh hazard
  by_cases hblocks : blocks candidate memory = true
  · simp only [hblocks, threatens_of_blocks hblocks, if_true, Bool.false_eq_true, if_false]
    split_ifs <;> rfl
  · simp only [hblocks, Bool.false_eq_true, if_false]
    split_ifs <;> rfl

theorem appraise_stock :
    (appraise hypot owner now here recalled candidate).stock =
      select newer (recalled.filter (supplies candidate)) := by
  rw [select, List.foldl_filter]
  exact (List.foldl_hom Appraisal.stock fun a _ => (weigh_stock a).symm).symm

theorem appraise_success :
    (appraise hypot owner now here recalled candidate).success =
      (recalled.filterMap (gain now candidate)).foldl max 0 := foldl_part weigh_success recalled {}

theorem appraise_risk :
    (appraise hypot owner now here recalled candidate).risk =
      (recalled.filterMap (hazard hypot now here candidate)).foldl max 0 :=
  foldl_part weigh_risk recalled {}

/-! ### What must be avoided -/

theorem le_of_le_clamp {x y lo hi : ℚ} (hlo : lo < y) (h : y ≤ clamp x lo hi) : y ≤ x := by
  unfold clamp at h
  split_ifs at h with _ hhi
  · exact absurd h hlo.not_ge
  · exact h.trans hhi.le
  · exact h

theorem lt_ttl_of_active (h : active owner map now memory = true) :
    now - memory.lastObservedAtMs < experienceTtlMs (fact memory).kind ∧
      memory.lastObservedAtMs ≤ now := by
  unfold active at h
  split_ifs at h with hvalid
  simp only [Bool.or_eq_true, decide_eq_true_eq, not_or] at hvalid
  rw [Bool.and_eq_true, decide_eq_true_eq] at h
  exact ⟨h.2, UInt64.not_lt.mp hvalid.1.1.1.1.1.1.2⟩

/-- A danger that is strong is recent enough to be avoided. -/
theorem recent_of_strong (hactive : active owner map now memory = true)
    (hkind : (fact memory).kind = .guardEncounter)
    (hstrong : strongRiskThreshold ≤ 20 * freshness memory now) :
    now - memory.lastObservedAtMs ≤ guardHardAvoidMs := by
  have httl : experienceTtlMs (fact memory).kind = 900000 := by rw [hkind]; rfl
  have hage : freshness memory now =
      clamp (1 - ((now - memory.lastObservedAtMs).toNat : ℚ) / 900000) 0 1 := by
    rw [freshness, httl, if_pos ⟨by decide, (lt_ttl_of_active hactive).2⟩]
    rfl
  have hfresh : (1 / 5 : ℚ) ≤ freshness memory now := by
    unfold strongRiskThreshold at hstrong
    linarith
  rw [hage] at hfresh
  have hle := le_of_le_clamp (by norm_num) hfresh
  have hold : ((now - memory.lastObservedAtMs).toNat : ℚ) ≤ 720000 := by linarith
  exact UInt64.le_iff_toNat_le.mpr (by exact_mod_cast hold)

theorem weigh_hardAvoid (a : Appraisal) :
    (a.weigh hypot owner now here candidate memory).hardAvoid =
      if blocks candidate memory then
        a.hardAvoid || decide (strongRiskThreshold ≤ max a.risk (12 * freshness memory now))
      else if threatens hypot here candidate memory then
        a.hardAvoid || shouldAvoidGuard owner here.mapId now memory
      else a.hardAvoid := by
  unfold Appraisal.weigh
  by_cases hblocks : blocks candidate memory = true
  · simp only [hblocks, threatens_of_blocks hblocks, if_true, Bool.false_eq_true, if_false]
    split_ifs <;> rfl
  · simp only [hblocks, Bool.false_eq_true, if_false]
    split_ifs <;> rfl

/-- A strong risk is avoided. -/
def Appraisal.Wary (a : Appraisal) : Prop := strongRiskThreshold ≤ a.risk → a.hardAvoid = true

theorem Appraisal.Wary.weigh {a : Appraisal} (ha : a.Wary)
    (hactive : active owner here.mapId now memory = true) :
    (a.weigh hypot owner now here candidate memory).Wary := by
  unfold Appraisal.Wary at ha ⊢
  rw [weigh_hardAvoid, weigh_risk, hazard]
  split_ifs with hblocks hthreat
  · rw [Option.elim_some, Bool.or_eq_true, decide_eq_true_eq]
    exact .inr
  · rw [Option.elim_some, Bool.or_eq_true, le_max_iff]
    have hkind : (fact memory).kind = .guardEncounter :=
      of_decide_eq_true (Bool.and_eq_true_iff.mp hthreat).1
    rintro (hrisk | hstrong)
    · exact .inl (ha hrisk)
    · have hrecent := recent_of_strong hactive hkind hstrong
      exact .inr (by simp [shouldAvoidGuard, hactive, hkind, hrecent])
  · exact ha

/-- What is deadly makes the candidate one to avoid, and nothing else does. -/
theorem Appraisal.Wary.weigh_hardAvoid {a : Appraisal} (ha : a.Wary) :
    (a.weigh hypot owner now here candidate memory).hardAvoid =
      (a.hardAvoid || deadly hypot owner now here candidate memory) := by
  rw [LivingRaidMemory.weigh_hardAvoid, deadly]
  by_cases hblocks : blocks candidate memory = true
  · rw [if_pos hblocks, hblocks, threatens_of_blocks hblocks, Bool.true_and, Bool.false_and,
      Bool.or_false]
    cases havoid : a.hardAvoid with
    | true => rfl
    | false =>
      have hrisk : ¬ strongRiskThreshold ≤ a.risk := fun h => by simp [ha h] at havoid
      simp only [le_max_iff, hrisk, false_or]
  · rw [if_neg hblocks, eq_false_of_ne_true hblocks, Bool.false_and, Bool.false_or]
    cases threatens hypot here candidate memory with
    | true => simp
    | false => simp

theorem Appraisal.Wary.foldl_hardAvoid {a : Appraisal} (ha : a.Wary)
    (hactive : ∀ m ∈ recalled, active owner here.mapId now m = true) :
    (recalled.foldl (Appraisal.weigh hypot owner now here candidate) a).hardAvoid =
      (a.hardAvoid || recalled.any (deadly hypot owner now here candidate)) := by
  induction recalled generalizing a with
  | nil => simp
  | cons m recalled ih =>
    have hm := hactive m List.mem_cons_self
    rw [List.foldl_cons, ih (ha.weigh hm) fun x hx => hactive x (List.mem_cons_of_mem _ hx),
      ha.weigh_hardAvoid, List.any_cons, Bool.or_assoc]

theorem appraise_hardAvoid (hactive : ∀ m ∈ recalled, active owner here.mapId now m = true) :
    (appraise hypot owner now here recalled candidate).hardAvoid =
      recalled.any (deadly hypot owner now here candidate) := by
  have hwary : (({} : Appraisal)).Wary := fun h => absurd h (by decide +kernel)
  rw [appraise, hwary.foldl_hardAvoid hactive, Bool.false_or]

/-! ### The order of the memories -/

theorem remembered_perm (hperm : memories.Perm memories') :
    (remembered owner map now memories).Perm (remembered owner map now memories') := by
  have hsuperseded : isSupersededGuard owner map now memories =
      isSupersededGuard owner map now memories' := by
    funext guard
    unfold isSupersededGuard
    rw [hperm.any_eq]
  unfold remembered
  rw [hsuperseded]
  exact hperm.filter _

def recency (memory : RetrievedMemory) : (ℕ ×ₗ ℕ)ᵒᵈ :=
  toDual (toLex (memory.lastObservedAtMs.toNat, memory.memoryId.toNat))

theorem newer_iff (a b : RetrievedMemory) : newer a b = true ↔ recency a < recency b := by
  unfold newer recency
  rw [OrderDual.toDual_lt_toDual, Prod.Lex.toLex_lt_toLex, Bool.or_eq_true, Bool.and_eq_true,
    decide_eq_true_eq, decide_eq_true_eq, beq_iff_eq, gt_iff_lt, gt_iff_lt, UInt64.lt_iff_toNat_lt,
    UInt64.lt_iff_toNat_lt, ← UInt64.toNat_inj]
  exact or_congr_right (and_congr_left fun _ => eq_comm)

theorem appraise_stock_of_perm (hperm : recalled.Perm recalled')
    (hids : (recalled.map (·.memoryId)).Nodup) :
    (appraise hypot owner now here recalled candidate).stock =
      (appraise hypot owner now here recalled' candidate).stock := by
  rw [appraise_stock, appraise_stock]
  refine select_eq_of_perm (hperm.filter _) (fun c _ b _ => newer_iff c b) fun c hc b hb heq => ?_
  have hid := congrArg Prod.snd (toLex.injective (toDual.injective heq))
  exact List.inj_on_of_nodup_map hids (List.mem_of_mem_filter hc) (List.mem_of_mem_filter hb)
    (UInt64.toNat_inj.mp hid)

/-- Of all that an appraisal says, only which danger is reported depends on the order. -/
theorem appraise_of_perm (hypot : ℚ → ℚ → ℚ → ℚ) (hperm : recalled.Perm recalled')
    (hactive : ∀ m ∈ recalled, active owner here.mapId now m = true)
    (hids : (recalled.map (·.memoryId)).Nodup) (candidate : Candidate) :
    let a := appraise hypot owner now here recalled candidate
    let a' := appraise hypot owner now here recalled' candidate
    a.stock = a'.stock ∧ a.success = a'.success ∧ a.risk = a'.risk ∧ a.hardAvoid = a'.hardAvoid := by
  refine ⟨appraise_stock_of_perm hperm hids, ?_, ?_, ?_⟩
  · rw [appraise_success, appraise_success]
    exact (hperm.filterMap _).foldl_eq 0
  · rw [appraise_risk, appraise_risk]
    exact (hperm.filterMap _).foldl_eq 0
  · rw [appraise_hardAvoid hactive,
      appraise_hardAvoid fun m hm => hactive m (hperm.mem_iff.mpr hm)]
    exact hperm.any_eq

/-! ### Candidates -/

/-- Standings rank by the score, and those of one score by the depot and the route. -/
abbrev Standing := ℚ ×ₗ (ℕ ×ₗ ℕ)ᵒᵈ

def standing (score : ℚ) (depotId routeId : UInt32) : Standing :=
  toLex (score, toDual (toLex (depotId.toNat, routeId.toNat)))

def Search.standing (s : Search) : Standing :=
  LivingRaidMemory.standing s.best s.result.depotId s.result.routeId

/-- Where a candidate that is eligible stands. -/
def bid (hypot : ℚ → ℚ → ℚ → ℚ) (owner now : UInt64) (here : ActionPosition Float32)
    (previousDepot : UInt32) (recalled : List RetrievedMemory) (candidate : Candidate) :
    Option Standing :=
  let a := appraise hypot owner now here recalled candidate
  if validCandidate here candidate && !a.short && !a.hardAvoid then
    some (standing (score hypot now here previousDepot candidate a) candidate.depotId candidate.routeId)
  else none

theorem better_iff (s : Search) (score : ℚ) :
    (decide (score > s.best) || (score == s.best && before candidate s.result)) = true ↔
      s.standing < standing score candidate.depotId candidate.routeId := by
  unfold Search.standing standing before
  rw [Prod.Lex.toLex_lt_toLex, OrderDual.toDual_lt_toDual, Prod.Lex.toLex_lt_toLex]
  simp only [Bool.or_eq_true, Bool.and_eq_true, Bool.not_eq_true', decide_eq_true_eq,
    decide_eq_false_iff_not, beq_iff_eq, gt_iff_lt, UInt32.lt_iff_toNat_lt]
  refine or_congr_right (and_congr eq_comm ?_)
  omega

theorem take_standing (s : Search) (a : Appraisal) (score : ℚ) :
    (s.take now map candidate a score).standing =
      standing score candidate.depotId candidate.routeId := by
  unfold Search.take Search.standing
  cases a.danger <;> rfl

theorem avoid_standing (s : Search) (a : Appraisal) : (s.avoid now map a).standing = s.standing := by
  unfold Search.avoid
  dsimp only
  split_ifs
  · cases a.danger <;> rfl
  · cases a.danger <;> rfl
  · rfl

theorem consider_standing (s : Search) (candidate : Candidate) :
    (s.consider hypot owner now here previousDepot recalled candidate).standing =
      (bid hypot owner now here previousDepot recalled candidate).elim s.standing
        (max s.standing) := by
  unfold Search.consider bid
  dsimp only
  cases validCandidate here candidate with
  | false => rfl
  | true =>
  cases (appraise hypot owner now here recalled candidate).short with
  | true => rfl
  | false =>
  cases (appraise hypot owner now here recalled candidate).hardAvoid with
  | true => exact avoid_standing s _
  | false =>
    simp only [Bool.not_true, Bool.not_false, Bool.and_true, Bool.false_eq_true, if_false, if_true,
      Option.elim_some]
    split_ifs with hbetter
    · rw [take_standing, max_eq_right ((better_iff s _).mp hbetter).le]
    · exact (max_eq_left (not_lt.mp ((better_iff s _).not.mp hbetter))).symm

theorem finish_standing (s : Search) :
    (s.finish now).depotId = s.result.depotId ∧ (s.finish now).routeId = s.result.routeId := by
  unfold Search.finish
  split_ifs <;> exact ⟨rfl, rfl⟩

/-! ### Choice -/

/-- The latest that is known of the stock of a depot. -/
structure LatestStock (owner : UInt64) (map : UInt32) (now : UInt64)
    (memories : List RetrievedMemory) (depotId : UInt32) (memory : RetrievedMemory) : Prop where
  mem : memory ∈ memories
  active : active owner map now memory = true
  depot : (fact memory).depotId = depotId
  kind : (fact memory).kind = .stockObserved ∨ (fact memory).kind = .sourceEmpty
  latest : ∀ m ∈ memories, LivingRaidMemory.active owner map now m = true →
    (fact m).depotId = depotId → (fact m).kind = .stockObserved ∨ (fact m).kind = .sourceEmpty →
      newer m memory = false

/-- Nothing that is remembered speaks against the candidate. -/
structure Safe (hypot : ℚ → ℚ → ℚ → ℚ) (owner now : UInt64) (here : ActionPosition Float32)
    (memories : List RetrievedMemory) (candidate : Candidate) : Prop where
  unguarded : ∀ m ∈ memories, active owner here.mapId now m = true →
    isSupersededGuard owner here.mapId now memories m = false →
    (fact m).kind = .guardEncounter → now - m.lastObservedAtMs ≤ guardHardAvoidMs →
      dangerRadius < routeDistance hypot candidate here (spot here.mapId m)
  stocked : ∀ m, LatestStock owner here.mapId now memories candidate.depotId m → 6 ≤ quantity m
  passable : ∀ m ∈ memories, active owner here.mapId now m = true → (fact m).kind = .routeBlocked →
    (fact m).depotId = candidate.depotId → (fact m).routeId = candidate.routeId →
      12 * freshness m now < strongRiskThreshold

theorem mem_remembered : memory ∈ remembered owner map now memories ↔ memory ∈ memories ∧
    active owner map now memory = true ∧ isSupersededGuard owner map now memories memory = false := by
  rw [remembered, List.mem_filter, Bool.and_eq_true, Bool.not_eq_true']

theorem not_superseded_of_kind (h : (fact memory).kind ≠ .guardEncounter) :
    isSupersededGuard owner map now memories memory = false := by
  simp [isSupersededGuard, h]

theorem safe_of_bid {k : Standing} (hids : (memories.map (·.memoryId)).Nodup)
    (h : bid hypot owner now here previousDepot (remembered owner here.mapId now memories) candidate =
      some k) : Safe hypot owner now here memories candidate := by
  have hactive : ∀ m ∈ remembered owner here.mapId now memories, active owner here.mapId now m = true :=
    fun m hm => (mem_remembered.mp hm).2.1
  unfold bid at h
  dsimp only at h
  split_ifs at h with heligible
  rw [Bool.and_eq_true, Bool.and_eq_true, Bool.not_eq_true', Bool.not_eq_true',
    appraise_hardAvoid hactive, List.any_eq_false] at heligible
  obtain ⟨⟨-, hshort⟩, hcalm⟩ := heligible
  refine ⟨fun m hm ha hs hkind hrecent => ?_, fun m hm => ?_, fun m hm ha hkind hdepot hroute => ?_⟩
  · have hnot := hcalm m (mem_remembered.mpr ⟨hm, ha, hs⟩)
    by_contra hnear
    exact hnot (by simp [deadly, threatens, shouldAvoidGuard, ha, hkind, hrecent, not_lt.mp hnear])
  · have hguard : (fact m).kind ≠ .guardEncounter := by
      rcases hm.kind with hk | hk <;> simp [hk]
    have hmem : m ∈ (remembered owner here.mapId now memories).filter (supplies candidate) := by
      rw [List.mem_filter, mem_remembered]
      exact ⟨⟨hm.mem, hm.active, not_superseded_of_kind hguard⟩,
        by simpa [supplies, hm.depot] using hm.kind⟩
    rw [Appraisal.short, appraise_stock] at hshort
    cases hselect : select newer ((remembered owner here.mapId now memories).filter (supplies candidate)) with
    | none =>
      rw [select_eq_none_iff.mp hselect] at hmem
      contradiction
    | some s =>
      obtain ⟨hs, hmin⟩ := select_spec (fun c _ b _ => newer_iff c b) hselect
      rw [List.mem_filter, mem_remembered] at hs
      have hsupplies := hs.2
      rw [supplies, Bool.and_eq_true, beq_iff_eq, decide_eq_true_eq] at hsupplies
      have hnot := hm.latest s hs.1.1 hs.1.2.1 hsupplies.1 hsupplies.2
      have hle := not_lt.mp ((newer_iff s m).not.mp (ne_true_of_eq_false hnot))
      have hid := congrArg Prod.snd (toLex.injective (toDual.injective (hle.antisymm (hmin m hmem))))
      cases List.inj_on_of_nodup_map hids hs.1.1 hm.mem (UInt64.toNat_inj.mp hid).symm
      rw [hselect, Option.any_some, decide_eq_false_iff_not] at hshort
      exact UInt32.not_lt.mp hshort
  · have hnot := hcalm m (mem_remembered.mpr ⟨hm, ha, not_superseded_of_kind (by simp [hkind])⟩)
    by_contra hstrong
    exact hnot (by simp [deadly, blocks, hdepot, hkind, hroute, not_lt.mp hstrong])

/-- A decision can be made after these lists. -/
def Fits (owner now : UInt64) (here : ActionPosition Float32) (candidates : List Candidate)
    (memories : List RetrievedMemory) : Prop :=
  (owner == 0 || now == 0 || here.mapId == 0 || !finite here || decide (candidates.length > 16) ||
    decide (memories.length > 128)) = false

theorem choose_of_not_fits (h : ¬ Fits owner now here candidates memories) :
    choose hypot owner now here previousDepot candidates memories = { reason := "INVALID_CONTEXT" } := by
  unfold Fits at h
  rw [choose, if_pos (eq_true_of_ne_false h)]

/-- What is chosen stands highest of all. -/
theorem choose_standing (hypot : ℚ → ℚ → ℚ → ℚ) (previousDepot : UInt32)
    (h : Fits owner now here candidates memories) :
    ∃ best, standing best (choose hypot owner now here previousDepot candidates memories).depotId
        (choose hypot owner now here previousDepot candidates memories).routeId =
      (candidates.filterMap
        (bid hypot owner now here previousDepot (remembered owner here.mapId now memories))).foldl max
          (standing (-floatMax) 0 0) := by
  unfold Fits at h
  rw [choose, if_neg (ne_true_of_eq_false h)]
  dsimp only
  rw [(finish_standing _).1, (finish_standing _).2]
  exact ⟨_, foldl_part consider_standing candidates _⟩

theorem standing_inj {score score' : ℚ} {depot depot' route route' : UInt32}
    (h : standing score depot route = standing score' depot' route') :
    depot = depot' ∧ route = route' := by
  have hids := toLex.injective (toDual.injective (congrArg Prod.snd (toLex.injective h)))
  exact ⟨UInt32.toNat_inj.mp (congrArg Prod.fst hids), UInt32.toNat_inj.mp (congrArg Prod.snd hids)⟩

theorem bid_of_perm (hperm : memories.Perm memories') (hids : (memories.map (·.memoryId)).Nodup) :
    bid hypot owner now here previousDepot (remembered owner here.mapId now memories) =
      bid hypot owner now here previousDepot (remembered owner here.mapId now memories') := by
  funext candidate
  have hactive : ∀ m ∈ remembered owner here.mapId now memories, active owner here.mapId now m = true :=
    fun m hm => (mem_remembered.mp hm).2.1
  have hids' : ((remembered owner here.mapId now memories).map (·.memoryId)).Nodup :=
    hids.sublist (List.filter_sublist.map _)
  have happraised := appraise_of_perm hypot (remembered_perm hperm) hactive hids' candidate
  unfold bid
  generalize appraise hypot owner now here (remembered owner here.mapId now memories) candidate = a
    at happraised ⊢
  generalize appraise hypot owner now here (remembered owner here.mapId now memories') candidate = a'
    at happraised ⊢
  cases a
  cases a'
  obtain ⟨rfl, rfl, rfl, rfl⟩ := happraised
  rfl

/-- A chosen route is safe after all that is remembered, and the order of the memories and that of
the candidates play no role. -/
theorem choose_safe (hypot : ℚ → ℚ → ℚ → ℚ) (owner now : UInt64) (here : ActionPosition Float32)
    (previousDepot : UInt32) (candidates candidates' : List Candidate)
    (memories memories' : List RetrievedMemory) (hids : (memories.map (·.memoryId)).Nodup)
    (hcandidates : candidates.Perm candidates') (hmemories : memories.Perm memories') :
    let chosen := choose hypot owner now here previousDepot candidates memories
    let chosen' := choose hypot owner now here previousDepot candidates' memories'
    (chosen.depotId ≠ 0 → ∃ c ∈ candidates, c.depotId = chosen.depotId ∧
      c.routeId = chosen.routeId ∧ Safe hypot owner now here memories c) ∧
    chosen'.depotId = chosen.depotId ∧ chosen'.routeId = chosen.routeId := by
  dsimp only
  by_cases hfits : Fits owner now here candidates memories
  · have hfits' : Fits owner now here candidates' memories' := by
      unfold Fits at hfits ⊢
      rwa [← hcandidates.length_eq, ← hmemories.length_eq]
    obtain ⟨best, hstands⟩ := choose_standing hypot previousDepot hfits
    obtain ⟨best', hstands'⟩ := choose_standing hypot previousDepot hfits'
    rw [← bid_of_perm hmemories hids, ← (hcandidates.filterMap _).foldl_eq, ← hstands] at hstands'
    refine ⟨fun hchosen => ?_, standing_inj hstands'⟩
    have hmem := mem_foldl_max (standing (-floatMax) 0 0) (candidates.filterMap
      (bid hypot owner now here previousDepot (remembered owner here.mapId now memories)))
    rw [← hstands] at hmem
    rcases List.mem_cons.mp hmem with hnone | hsome
    · exact absurd (standing_inj hnone).1 hchosen
    · obtain ⟨c, hc, hbid⟩ := List.mem_filterMap.mp hsome
      have hsafe := safe_of_bid hids hbid
      unfold bid at hbid
      dsimp only at hbid
      split_ifs at hbid
      obtain ⟨hdepot, hroute⟩ := standing_inj (Option.some.inj hbid)
      exact ⟨c, hc, hdepot, hroute, hsafe⟩
  · have hfits' : ¬ Fits owner now here candidates' memories' := by
      unfold Fits at hfits ⊢
      rwa [← hcandidates.length_eq, ← hmemories.length_eq]
    rw [choose_of_not_fits hfits, choose_of_not_fits hfits']
    exact ⟨fun h => absurd rfl h, rfl, rfl⟩

/-- The length of a vector along the first axis. -/
def axisLength (x y z : ℚ) : ℚ := max x (-x) + max y (-y) + max z (-z)

def twoDepots : List Candidate :=
  [⟨1, 1, ⟨1, 100, 0, 0⟩, []⟩, ⟨4, 2, ⟨1, -100, 0, 0⟩, [⟨1, -50, 0, 0⟩]⟩]

/-- A guard at the first depot, and food at the second. -/
def twoMemories : List RetrievedMemory :=
  [{ memoryId := 1, owner := 7, type := .raidExperience, lastObservedAtMs := 1000,
     location := ⟨1, 90, 0, 0⟩, target := { spawnId := 5 },
     raid := some { kind := .guardEncounter, depotId := 1, routeId := 1 } },
   { memoryId := 2, owner := 7, type := .raidExperience, lastObservedAtMs := 1500,
     location := ⟨1, -100, 0, 0⟩, raid := some { depotId := 4, routeId := 2, quantity := 10 } }]

theorem choose_safe_two :
    (∃ c ∈ twoDepots, c.depotId = 4 ∧ c.routeId = 2 ∧
      Safe axisLength 7 2000 ⟨1, 0, 0, 0⟩ twoMemories c) ∧
    (choose axisLength 7 2000 ⟨1, 0, 0, 0⟩ 0 twoDepots.reverse twoMemories.reverse).depotId = 4 := by
  have hchosen : (choose axisLength 7 2000 ⟨1, 0, 0, 0⟩ 0 twoDepots twoMemories).depotId = 4 ∧
      (choose axisLength 7 2000 ⟨1, 0, 0, 0⟩ 0 twoDepots twoMemories).routeId = 2 := by
    decide +kernel
  obtain ⟨hsafe, hdepot, -⟩ := choose_safe axisLength 7 2000 ⟨1, 0, 0, 0⟩ 0 twoDepots
    twoDepots.reverse twoMemories twoMemories.reverse (by decide) (List.reverse_perm _).symm
    (List.reverse_perm _).symm
  rw [hchosen.1, hchosen.2] at hsafe
  exact ⟨hsafe (by decide), hdepot.trans hchosen.1⟩

end AIWorld.Agent.LivingRaidMemory
