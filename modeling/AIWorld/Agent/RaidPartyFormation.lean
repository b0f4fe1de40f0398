import AIWorld.Agent.LivingRaidParty

/-! What the formation of raid parties promises. The search for one party is taken apart
into a seed and the neighbors kept around it; a rule for the rounds of the formation then
carries every promise from one round to the whole result. -/

namespace AIWorld.Agent

open Std (ExtTreeMap)
open Lib Lib.Binary32 Groups

/-! ### The sign of a zero plays no role -/

namespace CoalitionCandidate

def plain (c : CoalitionCandidate) : CoalitionCandidate :=
  { c with x := Binary32.plain c.x, y := Binary32.plain c.y, z := Binary32.plain c.z }

/-- The same place up to the sign of zeros, and the same actor. -/
structure Alike (c d : CoalitionCandidate) : Prop where
  id : c.id = d.id
  mapId : c.mapId = d.mapId
  x : Binary32.Alike c.x d.x
  y : Binary32.Alike c.y d.y
  z : Binary32.Alike c.z d.z
  creatureEntry : c.creatureEntry = d.creatureEntry
  worldFaction : c.worldFaction = d.worldFaction

theorem alike_plain (c : CoalitionCandidate) : c.Alike c.plain :=
  ⟨rfl, rfl, Binary32.alike_plain _, Binary32.alike_plain _, Binary32.alike_plain _, rfl, rfl⟩

theorem Alike.refl (c : CoalitionCandidate) : c.Alike c :=
  ⟨rfl, rfl, .refl _, .refl _, .refl _, rfl, rfl⟩

theorem Alike.symm {c d : CoalitionCandidate} (h : c.Alike d) : d.Alike c :=
  ⟨h.id.symm, h.mapId.symm, h.x.symm, h.y.symm, h.z.symm, h.creatureEntry.symm, h.worldFaction.symm⟩

theorem Alike.trans {c d e : CoalitionCandidate} (hcd : c.Alike d) (hde : d.Alike e) : c.Alike e :=
  ⟨hcd.id.trans hde.id, hcd.mapId.trans hde.mapId, hcd.x.trans hde.x, hcd.y.trans hde.y,
    hcd.z.trans hde.z, hcd.creatureEntry.trans hde.creatureEntry,
    hcd.worldFaction.trans hde.worldFaction⟩

theorem Alike.plain_eq {c d : CoalitionCandidate} (h : c.Alike d) : c.plain = d.plain := by
  obtain ⟨hid, hmap, hx, hy, hz, hentry, hfaction⟩ := h
  simp only [plain, hid, hmap, hentry, hfaction, hx.plain_eq, hy.plain_eq, hz.plain_eq]

end CoalitionCandidate

namespace CoalitionFormationSystem

variable {profile : CoalitionFormationProfile} {l others kept : List CoalitionCandidate}
  {seed c d : CoalitionCandidate}

theorem distanceSq_alike {c' d' : CoalitionCandidate} (hc : c.Alike c') (hd : d.Alike d') :
    Alike (distanceSq c d) (distanceSq c' d') :=
  have hx := hc.x.sub hd.x
  have hy := hc.y.sub hd.y
  have hz := hc.z.sub hd.z
  ((hx.mul hx).add (hy.mul hy)).add (hz.mul hz)

theorem isNeighbor_plain (radiusSq : Float32) (seed c : CoalitionCandidate) :
    isNeighbor radiusSq seed.plain c.plain = isNeighbor radiusSq seed c := by
  have hlt := (Alike.refl radiusSq).lt_iff (distanceSq_alike c.alike_plain seed.alike_plain)
  simp only [isNeighbor, CoalitionCandidate.plain, gt_iff_lt] at hlt ⊢
  simp only [hlt]

theorem closer_plain (seed c d : CoalitionCandidate) :
    closer seed.plain c.plain d.plain = closer seed c d := by
  have hc := distanceSq_alike c.alike_plain seed.alike_plain
  have hd := distanceSq_alike d.alike_plain seed.alike_plain
  unfold closer
  rw [bne, bne, hc.beq_eq hd]
  simp only [hc.lt_iff hd]
  rfl

theorem neighbors_plain (profile : CoalitionFormationProfile) (others : List CoalitionCandidate)
    (seed : CoalitionCandidate) :
    neighbors profile (others.map (·.plain)) seed.plain =
      (neighbors profile others seed).map (·.plain) := by
  have hfilter : ∀ radiusSq : Float32,
      (others.map (·.plain)).filter (isNeighbor radiusSq seed.plain) =
        (others.filter (isNeighbor radiusSq seed)).map (·.plain) := by
    intro radiusSq
    rw [List.filter_map]
    congr 2
    funext c
    exact isNeighbor_plain radiusSq seed c
  have hsort : ∀ l : List CoalitionCandidate,
      (l.map (·.plain)).insertionSort (fun a b => closer seed.plain b a = false) =
        (l.insertionSort fun a b => closer seed b a = false).map (·.plain) := by
    intro l
    refine (List.map_insertionSort _ _ _ l fun a _ b _ => ?_).symm
    rw [closer_plain]
  simp only [neighbors, hfilter, hsort, List.length_map]
  split_ifs
  · rw [List.map_take]
  · rfl

theorem trySeed_plain (profile : CoalitionFormationProfile) (others : List CoalitionCandidate)
    (seed : CoalitionCandidate) :
    (trySeed profile (others.map (·.plain)) seed.plain).map (·.members) =
      (trySeed profile others seed).map (·.members) := by
  simp only [trySeed, neighbors_plain, List.length_map, List.map_map]
  split_ifs <;> rfl

/-- The members that are proposed do not depend on the sign of zeros. -/
theorem propose_plain (l : List CoalitionCandidate) (profile : CoalitionFormationProfile) :
    (propose (l.map (·.plain)) profile).map (·.members) = (propose l profile).map (·.members) := by
  have hfilter : (l.map (·.plain)).filter (compatible profile) =
      (l.filter (compatible profile)).map (·.plain) := by
    rw [List.filter_map]
    rfl
  have hsort : ∀ l : List CoalitionCandidate,
      (l.map (·.plain)).insertionSort (fun a b => a.id ≤ b.id) =
        (l.insertionSort fun a b => a.id ≤ b.id).map (·.plain) := by
    intro l
    refine (List.map_insertionSort _ _ _ l fun a _ b _ => ?_).symm
    exact Iff.rfl
  simp only [propose, hfilter, hsort, List.length_map]
  split_ifs
  · rfl
  · rw [List.zipIdx_map, List.findSome?_map, List.map_findSome?, List.map_findSome?]
    congr 1
    funext ⟨seed, seedIndex⟩
    have herase : ∀ (l : List CoalitionCandidate) (i : ℕ),
        (l.map (·.plain)).eraseIdx i = (l.eraseIdx i).map (·.plain) := by
      intro l i
      simp only [List.eraseIdx_eq_take_drop_succ, List.map_append, List.map_take, List.map_drop]
    simp only [Function.comp_apply, Prod.map_apply, id_eq, herase, trySeed_plain]

/-! ### One proposal -/

theorem neighbors_eq (hlength : others.length < 2 ^ 32) :
    neighbors profile others seed =
      ((others.filter (isNeighbor (profile.formationRadius * profile.formationRadius) seed)).insertionSort
        fun a b => closer seed b a = false).take (profile.maxMembers - 1).toNat := by
  have hle := List.length_filter_le (isNeighbor (profile.formationRadius * profile.formationRadius) seed) others
  simp only [neighbors, List.length_insertionSort]
  split_ifs with hmax
  · rfl
  · rw [List.take_of_length_le]
    rw [gt_iff_lt, UInt32.lt_iff_toNat_lt, UInt32.toNat_ofNat', Nat.mod_eq_of_lt (by omega)] at hmax
    rw [List.length_insertionSort]
    omega

theorem length_neighbors (hlength : others.length < 2 ^ 32) :
    (neighbors profile others seed).length = min (profile.maxMembers - 1).toNat
      (others.filter (isNeighbor (profile.formationRadius * profile.formationRadius) seed)).length := by
  rw [neighbors_eq hlength, List.length_take, List.length_insertionSort]

theorem mem_neighbors (hlength : others.length < 2 ^ 32) (h : c ∈ neighbors profile others seed) :
    c ∈ others ∧ isNeighbor (profile.formationRadius * profile.formationRadius) seed c = true := by
  rw [neighbors_eq hlength] at h
  have hsorted := List.mem_of_mem_take h
  rw [List.mem_insertionSort, List.mem_filter] at hsorted
  exact hsorted

theorem neighbors_subperm (hlength : others.length < 2 ^ 32) :
    (neighbors profile others seed).Subperm others := by
  rw [neighbors_eq hlength]
  exact (List.take_sublist _ _).subperm.trans
    ((List.perm_insertionSort _ _).subperm.trans List.filter_sublist.subperm)

theorem trySeed_eq_some {proposal : CoalitionProposal} (h : trySeed profile others seed = some proposal) :
    proposal.members = seed.id :: (neighbors profile others seed).map (·.id) ∧
      profile.minMembers ≤ UInt32.ofNat (1 + (neighbors profile others seed).length) := by
  simp only [trySeed] at h
  split_ifs at h with hmin
  cases h
  exact ⟨rfl, by simpa using hmin⟩

theorem trySeed_eq_none (h : trySeed profile others seed = none) :
    UInt32.ofNat (1 + (neighbors profile others seed).length) < profile.minMembers := by
  simp only [trySeed] at h
  split_ifs at h with hmin
  exact hmin

theorem propose_eq_some {proposal : CoalitionProposal} (hl : ∀ c ∈ l, compatible profile c = true)
    (h : propose l profile = some proposal) :
    ∃ seed others, l.Perm (seed :: others) ∧ trySeed profile others seed = some proposal := by
  simp only [propose, List.filter_eq_self.mpr hl] at h
  split_ifs at h
  obtain ⟨⟨seed, i⟩, hmem, htry⟩ := List.exists_of_findSome?_eq_some h
  rw [List.mem_zipIdx_iff_getElem?] at hmem
  dsimp only at hmem htry
  obtain ⟨hi, rfl⟩ := List.getElem?_eq_some_iff.mp hmem
  exact ⟨_, _, ((List.getElem_cons_eraseIdx_perm hi).trans (List.perm_insertionSort _ _)).symm, htry⟩

theorem propose_eq_none (hl : ∀ c ∈ l, compatible profile c = true) (hlength : l.length < 2 ^ 32)
    (hmin : profile.minMembers.toNat ≤ l.length) (h : propose l profile = none) (hseed : seed ∈ l) :
    ∃ others, l.Perm (seed :: others) ∧ trySeed profile others seed = none := by
  simp only [propose, List.filter_eq_self.mpr hl] at h
  split_ifs at h with hsmall
  · rw [UInt32.lt_iff_toNat_lt, UInt32.toNat_ofNat', Nat.mod_eq_of_lt (by omega)] at hsmall
    omega
  · rw [← List.mem_insertionSort fun a b : CoalitionCandidate => a.id ≤ b.id] at hseed
    obtain ⟨i, hi, rfl⟩ := List.getElem_of_mem hseed
    rw [List.findSome?_eq_none_iff] at h
    have htry := h (_, i) (List.mem_zipIdx_iff_getElem?.mpr (List.getElem?_eq_getElem hi))
    exact ⟨_, ((List.getElem_cons_eraseIdx_perm hi).trans (List.perm_insertionSort _ _)).symm, htry⟩

end CoalitionFormationSystem

namespace LivingRaidParty

open CoalitionFormationSystem

variable {l others kept : List CoalitionCandidate} {seed c d : CoalitionCandidate}
  {members : List UInt64}

/-! ### Raiders -/

/-- No further from the seed than the formation radius. -/
def InRange (c seed : CoalitionCandidate) : Prop :=
  distanceSq c seed ≤ formationRadius * formationRadius

/-- What eligibility says of an actor. -/
structure IsRaider (c : CoalitionCandidate) : Prop where
  low : 901050 ≤ c.id
  high : c.id ≤ 901059
  mapId : c.mapId = mapId
  creatureEntry : c.creatureEntry = creatureEntry
  worldFaction : c.worldFaction = WorldFactions.defiasBrotherhood
  x : c.x.isFinite = true
  y : c.y.isFinite = true
  z : c.z.isFinite = true

/-- Different raiders. -/
structure Formable (l : List CoalitionCandidate) : Prop where
  ids : (l.map (·.id)).Nodup
  raiders : ∀ c ∈ l, IsRaider c

theorem IsRaider.compatible (h : IsRaider c) (size : ℕ) : compatible (profileFor size) c = true := by
  simp [CoalitionFormationSystem.compatible, profileFor, h.creatureEntry, h.worldFaction]

theorem IsRaider.isNaN_distanceSq (hc : IsRaider c) (hd : IsRaider d) : (distanceSq c d).isNaN = false :=
  have hx := nonnegative_mul_self (isNaN_sub hc.x hd.x)
  have hy := nonnegative_mul_self (isNaN_sub hc.y hd.y)
  have hz := nonnegative_mul_self (isNaN_sub hc.z hd.z)
  ((hx.add hy).add hz).isNaN

theorem IsRaider.isNeighbor_iff (hc : IsRaider c) (hseed : IsRaider seed) :
    isNeighbor (formationRadius * formationRadius) seed c = true ↔ InRange c seed := by
  have hradius : (formationRadius * formationRadius).isNaN = false := by decide +kernel
  rw [InRange, ← not_lt_iff hradius (hc.isNaN_distanceSq hseed)]
  simp [isNeighbor, hc.mapId, hseed.mapId]

theorem Formable.of_sublist {l' : List CoalitionCandidate} (h : Formable l) (hl : l'.Sublist l) :
    Formable l' :=
  ⟨h.ids.sublist (hl.map _), fun c hc => h.raiders c (hl.subset hc)⟩

theorem Formable.of_perm {l' : List CoalitionCandidate} (h : Formable l) (hl : l.Perm l') :
    Formable l' :=
  ⟨(hl.map _).nodup_iff.mp h.ids, fun c hc => h.raiders c (hl.mem_iff.mpr hc)⟩

/-- There are only ten spawns of raiders. -/
theorem Formable.length_le (h : Formable l) : l.length ≤ 10 := by
  have hnodup : (l.map fun c => c.id.toNat).Nodup := by
    have hinj := h.ids.map (f := UInt64.toNat) fun _ _ => UInt64.toNat_inj.mp
    rwa [List.map_map] at hinj
  have hsub : (l.map fun c => c.id.toNat) ⊆ List.range' 901050 10 := by
    intro n hn
    obtain ⟨c, hc, rfl⟩ := List.mem_map.mp hn
    have hlow := UInt64.le_iff_toNat_le.mp (h.raiders c hc).low
    have hhigh := UInt64.le_iff_toNat_le.mp (h.raiders c hc).high
    rw [List.mem_range'_1]
    exact ⟨hlow, Nat.lt_succ_of_le hhigh⟩
  have hle := (hnodup.subperm hsub).length_le
  rwa [List.length_map, List.length_range'] at hle

/-! ### One round -/

/-- A round of the formation: the seed, the other actors and those of them that are kept. -/
structure Round (l : List CoalitionCandidate) (seed : CoalitionCandidate)
    (others kept : List CoalitionCandidate) (members : List UInt64) : Prop where
  perm : l.Perm (seed :: others)
  sub : kept.Subperm others
  near : ∀ c ∈ kept, InRange c seed
  least : 1 ≤ kept.length
  most : kept.length ≤ 4
  full : (∀ c ∈ others, InRange c seed) →
    kept.length = min (if l.length = 6 then 3 else 4) others.length
  ids : members.Perm (seed.id :: kept.map (·.id))

theorem maxMembers_profileFor (size : ℕ) :
    ((profileFor size).maxMembers - 1).toNat = if size = 6 then 3 else 4 := by
  have hsix : maxMembers.toNat + 1 = 6 := rfl
  simp only [profileFor, hsix]
  split_ifs <;> rfl

theorem length_neighbors_profileFor (size : ℕ) (hlength : others.length < 2 ^ 32) :
    (neighbors (profileFor size) others seed).length = min (if size = 6 then 3 else 4)
      (others.filter (isNeighbor (formationRadius * formationRadius) seed)).length := by
  rw [length_neighbors hlength, maxMembers_profileFor]
  rfl

theorem Formable.round (h : Formable l) {proposal : CoalitionProposal}
    (hpropose : propose l (profileFor l.length) = some proposal) :
    ∃ seed others kept, Round l seed others kept (proposal.members.insertionSort (· ≤ ·)) := by
  have hlength := h.length_le
  obtain ⟨seed, others, hperm, htry⟩ :=
    propose_eq_some (fun c hc => (h.raiders c hc).compatible l.length) hpropose
  have hothers : l.length = others.length + 1 := hperm.length_eq
  have hraiders := (h.of_perm hperm).raiders
  have hseed : IsRaider seed := hraiders seed (List.mem_cons_self ..)
  obtain ⟨hmembers, hmin⟩ := trySeed_eq_some htry
  have hkept := @length_neighbors_profileFor others seed l.length (by omega)
  have hfilter := List.length_filter_le (isNeighbor (formationRadius * formationRadius) seed) others
  refine ⟨seed, others, neighbors (profileFor l.length) others seed, ⟨hperm, ?_, ?_, ?_, ?_, ?_, ?_⟩⟩
  · exact neighbors_subperm (by omega)
  · intro c hc
    obtain ⟨hmem, hnear⟩ := mem_neighbors (by omega) hc
    exact ((hraiders c (List.mem_cons_of_mem _ hmem)).isNeighbor_iff hseed).mp hnear
  · rw [UInt32.le_iff_toNat_le, UInt32.toNat_ofNat', Nat.mod_eq_of_lt (by omega)] at hmin
    have htwo : (profileFor l.length).minMembers.toNat = 2 := rfl
    omega
  · rw [hkept]
    split_ifs <;> omega
  · intro hall
    rw [hkept, List.filter_eq_self.mpr]
    intro c hc
    exact ((hraiders c (List.mem_cons_of_mem _ hc)).isNeighbor_iff hseed).mpr (hall c hc)
  · rw [← hmembers]
    exact List.perm_insertionSort _ _

/-- No proposal means that no two actors are in range of each other. -/
theorem Formable.not_inRange (h : Formable l)
    (hpropose : propose l (profileFor l.length) = none) (hc : c ∈ l) (hd : d ∈ l) (hne : c.id ≠ d.id) :
    ¬ InRange c d := by
  intro hrange
  have hlength := h.length_le
  have htwo : (profileFor l.length).minMembers.toNat = 2 := rfl
  have hmin : (profileFor l.length).minMembers.toNat ≤ l.length := by
    have hsub : [c, d].Subperm l := by
      apply List.Nodup.subperm
      · simpa using fun heq => hne (congrArg _ heq)
      · simp [hc, hd]
    exact hsub.length_le
  obtain ⟨others, hperm, htry⟩ :=
    propose_eq_none (fun c hc => (h.raiders c hc).compatible l.length) (by omega) hmin hpropose hd
  have hothers : l.length = others.length + 1 := hperm.length_eq
  have hmem : c ∈ others.filter (isNeighbor (formationRadius * formationRadius) d) := by
    have hcons := hperm.mem_iff.mp hc
    rw [List.mem_cons] at hcons
    have hother := hcons.resolve_left fun heq => hne (congrArg _ heq)
    exact List.mem_filter.mpr ⟨hother, ((h.raiders c hc).isNeighbor_iff (h.raiders d hd)).mpr hrange⟩
  have hpos := List.length_pos_of_mem hmem
  have hfilter := List.length_filter_le (isNeighbor (formationRadius * formationRadius) d) others
  have hkept := @length_neighbors_profileFor others d l.length (by omega)
  have hnone := trySeed_eq_none htry
  rw [UInt32.lt_iff_toNat_lt, UInt32.toNat_ofNat', Nat.mod_eq_of_lt (by omega), htwo, hkept] at hnone
  split_ifs at hnone <;> omega

/-! ### The rounds -/

/-- The actors that a party leaves for the next round. -/
def rest (l : List CoalitionCandidate) (members : List UInt64) : List CoalitionCandidate :=
  l.filter fun actor => actor.id ∉ members

theorem mem_rest : c ∈ rest l members ↔ c ∈ l ∧ c.id ∉ members := by
  simp [rest]

theorem Formable.rest (h : Formable l) : Formable (rest l members) :=
  h.of_sublist List.filter_sublist

namespace Round

theorem mem_iff (h : Round l seed others kept members) {m : UInt64} :
    m ∈ members ↔ ∃ c ∈ l, c.id = m ∧ (c = seed ∨ c ∈ kept) := by
  have hkept : ∀ c ∈ kept, c ∈ l := fun c hc =>
    h.perm.mem_iff.mpr (List.mem_cons_of_mem _ (h.sub.subset hc))
  have hseed : seed ∈ l := h.perm.mem_iff.mpr (List.mem_cons_self ..)
  rw [h.ids.mem_iff, List.mem_cons, List.mem_map]
  constructor
  · rintro (rfl | ⟨c, hc, rfl⟩)
    · exact ⟨seed, hseed, rfl, .inl rfl⟩
    · exact ⟨c, hkept c hc, rfl, .inr hc⟩
  · rintro ⟨c, -, rfl, rfl | hc⟩
    · exact .inl rfl
    · exact .inr ⟨c, hc, rfl⟩

theorem length_eq (h : Round l seed others kept members) : members.length = kept.length + 1 := by
  simp [h.ids.length_eq]

theorem nodup (h : Round l seed others kept members) (hl : Formable l) : members.Nodup := by
  have hsub : (seed :: kept).Subperm l :=
    ((List.subperm_cons seed).mpr h.sub).trans h.perm.symm.subperm
  obtain ⟨l', hperm, hl'⟩ := hsub
  rw [h.ids.nodup_iff, ← List.map_cons (f := fun c : CoalitionCandidate => c.id),
    ← (hperm.map _).nodup_iff]
  exact hl.ids.sublist (hl'.map _)

theorem length_rest (h : Round l seed others kept members) (hl : Formable l) :
    (rest l members).length + members.length = l.length := by
  have hin : (l.filter fun actor => actor.id ∈ members).length = members.length := by
    rw [← List.length_map (f := fun c : CoalitionCandidate => c.id)]
    apply List.Perm.length_eq
    rw [List.perm_ext_iff_of_nodup (hl.ids.sublist (List.filter_sublist.map _)) (h.nodup hl)]
    intro m
    rw [List.mem_map]
    constructor
    · rintro ⟨c, hc, rfl⟩
      simpa using (List.mem_filter.mp hc).2
    · intro hm
      obtain ⟨c, hc, rfl, -⟩ := h.mem_iff.mp hm
      exact ⟨c, List.mem_filter.mpr ⟨hc, by simpa using hm⟩, rfl⟩
  have hsplit := List.length_eq_length_filter_add (l := l) fun actor => actor.id ∈ members
  rw [rest, ← hin]
  simp only [hsplit, decide_not]
  omega

end Round

/-- What holds when the formation stops and is kept by a round holds of the whole result. -/
theorem formFrom_rec {motive : List CoalitionCandidate → List (List UInt64) → Prop}
    (hstop : ∀ l, Formable l →
      (∀ c ∈ l, ∀ d ∈ l, c.id ≠ d.id → ¬ InRange c d) → motive l [])
    (hround : ∀ l seed others kept members parties, Formable l → Round l seed others kept members →
      motive (rest l members) parties → motive l (members :: parties))
    {rounds : ℕ} (hl : Formable l) (hrounds : l.length ≤ rounds) : motive l (formFrom rounds l) := by
  have hfew : ∀ l : List CoalitionCandidate, l.length < 2 →
      ∀ c ∈ l, ∀ d ∈ l, c.id ≠ d.id → ¬ InRange c d := by
    intro l hlength c hc d hd hne
    match l, hlength with
    | [e], _ =>
      rw [List.mem_singleton] at hc hd
      exact absurd (hc ▸ hd ▸ rfl) hne
  induction rounds generalizing l with
  | zero => exact hstop l hl (hfew l (by omega))
  | succ rounds ih =>
    rw [formFrom]
    split_ifs with hmin
    · cases hpropose : propose l (profileFor l.length) with
      | none => exact hstop l hl fun c hc d hd hne => hl.not_inRange hpropose hc hd hne
      | some proposal =>
        obtain ⟨seed, others, kept, hr⟩ := hl.round hpropose
        have hlength := hr.length_rest hl
        have hpos := hr.length_eq
        exact hround l seed others kept _ _ hl hr (ih hl.rest (by omega))
    · exact hstop l hl (hfew l (Nat.lt_of_not_le hmin))

/-! ### What the rounds promise -/

/-- A party of these actors: two to five of them, within the radius of one of them. -/
def IsParty (l : List CoalitionCandidate) (party : List UInt64) : Prop :=
  party.Nodup ∧ 2 ≤ party.length ∧ party.length ≤ 5 ∧
    ∃ seed ∈ l, seed.id ∈ party ∧ ∀ m ∈ party, ∃ c ∈ l, c.id = m ∧ (c = seed ∨ InRange c seed)

theorem IsParty.of_rest {party : List UInt64} (h : IsParty (rest l members) party) : IsParty l party := by
  obtain ⟨hnodup, hleast, hmost, seed, hseed, hin, hall⟩ := h
  refine ⟨hnodup, hleast, hmost, seed, (mem_rest.mp hseed).1, hin, fun m hm => ?_⟩
  obtain ⟨c, hc, hrest⟩ := hall m hm
  exact ⟨c, (mem_rest.mp hc).1, hrest⟩

theorem Round.isParty (h : Round l seed others kept members) (hl : Formable l) : IsParty l members := by
  have hlength := h.length_eq
  have hleast := h.least
  have hmost := h.most
  have hseed : seed ∈ l := h.perm.mem_iff.mpr (List.mem_cons_self ..)
  refine ⟨h.nodup hl, by omega, by omega, seed, hseed, h.mem_iff.mpr ⟨seed, hseed, rfl, .inl rfl⟩, ?_⟩
  intro m hm
  obtain ⟨c, hc, hid, hkept⟩ := h.mem_iff.mp hm
  exact ⟨c, hc, hid, hkept.imp_right (h.near c)⟩

theorem isParty_of_mem_formFrom {rounds : ℕ} (hl : Formable l) (hrounds : l.length ≤ rounds) :
    ∀ party ∈ formFrom rounds l, IsParty l party := by
  refine formFrom_rec (motive := fun l parties => ∀ party ∈ parties, IsParty l party) ?_ ?_ hl hrounds
  · intro l _ _ party hparty
    contradiction
  · intro l seed others kept members parties hl hr ih party hparty
    rcases List.mem_cons.mp hparty with rfl | htail
    · exact hr.isParty hl
    · exact (ih party htail).of_rest

theorem pairwise_disjoint_formFrom {rounds : ℕ} (hl : Formable l) (hrounds : l.length ≤ rounds) :
    (formFrom rounds l).Pairwise List.Disjoint := by
  have hboth : (formFrom rounds l).Pairwise List.Disjoint ∧
      ∀ party ∈ formFrom rounds l, ∀ m ∈ party, ∃ c ∈ l, c.id = m := by
    refine formFrom_rec (motive := fun l parties => parties.Pairwise List.Disjoint ∧
      ∀ party ∈ parties, ∀ m ∈ party, ∃ c ∈ l, c.id = m) ?_ ?_ hl hrounds
    · intro l _ _
      exact ⟨.nil, by simp⟩
    · rintro l seed others kept members parties hl hr ⟨hdisjoint, hfrom⟩
      refine ⟨List.pairwise_cons.mpr ⟨?_, hdisjoint⟩, ?_⟩
      · intro party hparty m hm hm'
        obtain ⟨c, hc, rfl⟩ := hfrom party hparty m hm'
        exact (mem_rest.mp hc).2 hm
      · intro party hparty m hm
        rcases List.mem_cons.mp hparty with rfl | htail
        · obtain ⟨c, hc, hid, -⟩ := hr.mem_iff.mp hm
          exact ⟨c, hc, hid⟩
        · obtain ⟨c, hc, hid⟩ := hfrom party htail m hm
          exact ⟨c, (mem_rest.mp hc).1, hid⟩
  exact hboth.1

/-- Whoever is left over is out of range of all others that are. -/
theorem not_inRange_of_left {rounds : ℕ} (hl : Formable l) (hrounds : l.length ≤ rounds)
    (hc : c ∈ l) (hd : d ∈ l) (hne : c.id ≠ d.id) (hcleft : c.id ∉ (formFrom rounds l).flatten)
    (hdleft : d.id ∉ (formFrom rounds l).flatten) : ¬ InRange c d := by
  refine formFrom_rec (motive := fun l parties => ∀ c ∈ l, ∀ d ∈ l, c.id ≠ d.id →
    c.id ∉ parties.flatten → d.id ∉ parties.flatten → ¬ InRange c d) ?_ ?_ hl hrounds
    c hc d hd hne hcleft hdleft
  · intro l _ hout c hc d hd hne _ _
    exact hout c hc d hd hne
  · intro l seed others kept members parties hl hr ih c hc d hd hne hcleft hdleft
    simp only [List.flatten_cons, List.mem_append, not_or] at hcleft hdleft
    exact ih c (mem_rest.mpr ⟨hc, hcleft.1⟩) d (mem_rest.mpr ⟨hd, hdleft.1⟩) hne hcleft.2 hdleft.2

/-- Two or more actors that are all in range of one another leave nobody out: a round never
leaves a single actor behind. -/
theorem mem_flatten_of_inRange {rounds : ℕ} (hl : Formable l) (hrounds : l.length ≤ rounds)
    (hall : ∀ c ∈ l, ∀ d ∈ l, c.id ≠ d.id → InRange c d) (hne : l.length ≠ 1) (hc : c ∈ l) :
    c.id ∈ (formFrom rounds l).flatten := by
  refine formFrom_rec (motive := fun l parties => (∀ c ∈ l, ∀ d ∈ l, c.id ≠ d.id → InRange c d) →
    l.length ≠ 1 → ∀ c ∈ l, c.id ∈ parties.flatten) ?_ ?_ hl hrounds hall hne c hc
  · intro l hl hout hall hne c hc
    exfalso
    match l, hne with
    | e :: e' :: l, _ =>
      have hids : e.id ≠ e'.id := by
        have hnodup := hl.ids
        simp only [List.map_cons, List.nodup_cons, List.mem_cons, not_or] at hnodup
        exact hnodup.1.1
      exact hout e (by simp) e' (by simp) hids (hall e (by simp) e' (by simp) hids)
  · intro l seed others kept members parties hl hr ih hall hne c hc
    rw [List.flatten_cons, List.mem_append]
    by_cases hin : c.id ∈ members
    · exact .inl hin
    · right
      refine ih ?_ ?_ c (mem_rest.mpr ⟨hc, hin⟩)
      · intro c hc d hd
        exact hall c (mem_rest.mp hc).1 d (mem_rest.mp hd).1
      · have hothers : l.length = others.length + 1 := hr.perm.length_eq
        have hnear : ∀ c ∈ others, InRange c seed := by
          intro c hc
          have hids := (hl.of_perm hr.perm).ids
          rw [List.map_cons, List.nodup_cons] at hids
          refine hall c (hr.perm.mem_iff.mpr (List.mem_cons_of_mem _ hc)) seed
            (hr.perm.mem_iff.mpr (List.mem_cons_self ..)) fun heq => hids.1 ?_
          exact List.mem_map.mpr ⟨c, hc, heq⟩
        have hfull := hr.full hnear
        have hlength := hr.length_eq
        have hrest := hr.length_rest hl
        split_ifs at hfull <;> omega

/-! ### Observations that agree -/

variable {candidates seen : List Candidate} {unique : ExtTreeMap UInt64 (Option Candidate)}
  {a b e : Candidate} {id : UInt64}

theorem eligible_iff : eligible a = true ↔ IsRaider a.actor ∧ a.actor.id = a.spawnId ∧
    a.materialized = true ∧ a.alive = true ∧ a.bound = true ∧ a.atCamp = true ∧ a.idle = true ∧
    a.ready = true := by
  simp only [eligible, Bool.and_eq_true, decide_eq_true_eq, beq_iff_eq, and_assoc]
  constructor
  · rintro ⟨hlow, hhigh, hid, hmap, hentry, hfaction, hx, hy, hz, hflags⟩
    exact ⟨⟨hid ▸ hlow, hid ▸ hhigh, hmap, hentry, hfaction, hx, hy, hz⟩, hid, hflags⟩
  · rintro ⟨⟨hlow, hhigh, hmap, hentry, hfaction, hx, hy, hz⟩, hid, hflags⟩
    exact ⟨hid ▸ hlow, hid ▸ hhigh, hid, hmap, hentry, hfaction, hx, hy, hz, hflags⟩

/-- The same values apart from the actor's place, which may differ in the sign of zeros. -/
structure Agrees (a b : Candidate) : Prop where
  actor : a.actor.Alike b.actor
  spawnId : a.spawnId = b.spawnId
  materialized : a.materialized = b.materialized
  alive : a.alive = b.alive
  bound : a.bound = b.bound
  atCamp : a.atCamp = b.atCamp
  idle : a.idle = b.idle
  ready : a.ready = b.ready

theorem sameCandidate_iff (ha : eligible a = true) : sameCandidate a b = true ↔ Agrees a b := by
  have hraider := (eligible_iff.mp ha).1
  have hbeq : ∀ {u v : Float32}, u.isFinite = true → ((u == v) = true ↔ Binary32.Alike u v) :=
    fun h => beq_iff.trans (and_iff_right (isNaN_of_isFinite h))
  simp only [sameCandidate, Bool.and_eq_true, decide_eq_true_eq, beq_iff_eq, hbeq hraider.x,
    hbeq hraider.y, hbeq hraider.z, and_assoc]
  constructor
  · rintro ⟨hid, hmap, hx, hy, hz, hentry, hfaction, hspawn, hmat, halive, hbound, hcamp, hidle, hready⟩
    exact ⟨⟨hid, hmap, hx, hy, hz, hentry, hfaction⟩, hspawn, hmat, halive, hbound, hcamp, hidle, hready⟩
  · rintro ⟨⟨hid, hmap, hx, hy, hz, hentry, hfaction⟩, hspawn, hmat, halive, hbound, hcamp, hidle, hready⟩
    exact ⟨hid, hmap, hx, hy, hz, hentry, hfaction, hspawn, hmat, halive, hbound, hcamp, hidle, hready⟩

theorem Agrees.refl (a : Candidate) : Agrees a a :=
  ⟨.refl _, rfl, rfl, rfl, rfl, rfl, rfl, rfl⟩

theorem Agrees.symm (h : Agrees a b) : Agrees b a :=
  ⟨h.actor.symm, h.spawnId.symm, h.materialized.symm, h.alive.symm, h.bound.symm, h.atCamp.symm,
    h.idle.symm, h.ready.symm⟩

theorem Agrees.trans (hab : Agrees a b) (hbe : Agrees b e) : Agrees a e :=
  ⟨hab.actor.trans hbe.actor, hab.spawnId.trans hbe.spawnId, hab.materialized.trans hbe.materialized,
    hab.alive.trans hbe.alive, hab.bound.trans hbe.bound, hab.atCamp.trans hbe.atCamp,
    hab.idle.trans hbe.idle, hab.ready.trans hbe.ready⟩

theorem Agrees.eligible (h : Agrees a b) (ha : eligible a = true) : eligible b = true := by
  obtain ⟨hraider, hid, hmat, halive, hbound, hcamp, hidle, hready⟩ := eligible_iff.mp ha
  refine eligible_iff.mpr ⟨?_, ?_, h.materialized ▸ hmat, h.alive ▸ halive, h.bound ▸ hbound,
    h.atCamp ▸ hcamp, h.idle ▸ hidle, h.ready ▸ hready⟩
  · exact ⟨h.actor.id ▸ hraider.low, h.actor.id ▸ hraider.high, h.actor.mapId ▸ hraider.mapId,
      h.actor.creatureEntry ▸ hraider.creatureEntry, h.actor.worldFaction ▸ hraider.worldFaction,
      h.actor.x.isFinite_eq ▸ hraider.x, h.actor.y.isFinite_eq ▸ hraider.y,
      h.actor.z.isFinite_eq ▸ hraider.z⟩
  · rw [← h.actor.id, hid, h.spawnId]

/-! ### The observations of each actor -/

/-- What the map of observations says of the candidates seen so far. -/
structure Observed (seen : List Candidate) (unique : ExtTreeMap UInt64 (Option Candidate)) : Prop where
  nonzero : ∀ (id : UInt64) v, unique[id]? = some v → id ≠ 0
  absent : ∀ a ∈ seen, a.actor.id ≠ 0 → unique[a.actor.id]? ≠ none
  agreed : ∀ id a, unique[id]? = some (some a) → a ∈ seen ∧ a.actor.id = id ∧
    ∀ b ∈ seen, b.actor.id = id → b = a ∨ sameCandidate a b = true
  contradicted : ∀ id, unique[id]? = some none →
    ∃ a ∈ seen, ∃ b ∈ seen, a.actor.id = id ∧ b.actor.id = id ∧ sameCandidate a b = false

theorem Observed.of_insert {v : Option Candidate} (h : Observed seen unique) (hid : a.actor.id ≠ 0)
    (hagreed : ∀ e, v = some e → e ∈ seen ++ [a] ∧ e.actor.id = a.actor.id ∧
      ∀ b ∈ seen ++ [a], b.actor.id = a.actor.id → b = e ∨ sameCandidate e b = true)
    (hcontradicted : v = none → ∃ e ∈ seen ++ [a], ∃ b ∈ seen ++ [a], e.actor.id = a.actor.id ∧
      b.actor.id = a.actor.id ∧ sameCandidate e b = false) :
    Observed (seen ++ [a]) (unique.insert a.actor.id v) := by
  constructor
  · intro id w hw
    rw [OrdMap.getElem?_insert] at hw
    split_ifs at hw with heq
    · exact heq ▸ hid
    · exact h.nonzero id w hw
  · intro b hb hb0 hnone
    rw [OrdMap.getElem?_insert] at hnone
    split_ifs at hnone with heq
    rcases List.mem_append.mp hb with hb | hb
    · exact h.absent b hb hb0 hnone
    · exact heq (List.mem_singleton.mp hb ▸ rfl)
  · intro id e he
    rw [OrdMap.getElem?_insert] at he
    split_ifs at he with heq
    · cases heq
      exact hagreed e (Option.some.inj he)
    · obtain ⟨hmem, hid, hall⟩ := h.agreed id e he
      refine ⟨List.mem_append_left _ hmem, hid, fun b hb hbid => ?_⟩
      rcases List.mem_append.mp hb with hb | hb
      · exact hall b hb hbid
      · cases List.mem_singleton.mp hb
        exact absurd hbid heq
  · intro id he
    rw [OrdMap.getElem?_insert] at he
    split_ifs at he with heq
    · cases heq
      exact hcontradicted (Option.some.inj he)
    · obtain ⟨e, hmem, b, hb, hids⟩ := h.contradicted id he
      exact ⟨e, List.mem_append_left _ hmem, b, List.mem_append_left _ hb, hids⟩

theorem Observed.of_known (h : Observed seen unique)
    (habsent : a.actor.id ≠ 0 → unique[a.actor.id]? ≠ none)
    (hagreed : ∀ e, unique[a.actor.id]? = some (some e) → sameCandidate e a = true) :
    Observed (seen ++ [a]) unique := by
  constructor
  · exact h.nonzero
  · intro b hb hb0
    rcases List.mem_append.mp hb with hb | hb
    · exact h.absent b hb hb0
    · cases List.mem_singleton.mp hb
      exact habsent hb0
  · intro id e he
    obtain ⟨hmem, hid, hall⟩ := h.agreed id e he
    refine ⟨List.mem_append_left _ hmem, hid, fun b hb hbid => ?_⟩
    rcases List.mem_append.mp hb with hb | hb
    · exact hall b hb hbid
    · cases List.mem_singleton.mp hb
      exact .inr (hagreed e (hbid ▸ he))
  · intro id he
    obtain ⟨e, hmem, b, hb, hids⟩ := h.contradicted id he
    exact ⟨e, List.mem_append_left _ hmem, b, List.mem_append_left _ hb, hids⟩

theorem Observed.observe (h : Observed seen unique) (a : Candidate) :
    Observed (seen ++ [a]) (observe unique a) := by
  have ha : a ∈ seen ++ [a] := List.mem_append_right _ (List.mem_singleton_self a)
  unfold LivingRaidParty.observe
  split_ifs with hid
  · exact h.of_known (fun hne => absurd hid hne) fun e he => absurd hid (h.nonzero _ _ he)
  · split
    · rename_i hnone
      refine h.of_insert hid ?_ (fun h => by contradiction)
      rintro e ⟨⟩
      refine ⟨ha, rfl, fun b hb hbid => ?_⟩
      rcases List.mem_append.mp hb with hb | hb
      · rw [← hbid] at hnone
        exact absurd hnone (h.absent b hb (hbid ▸ hid))
      · exact .inl (List.mem_singleton.mp hb)
    · rename_i hnull
      refine h.of_known (fun _ => by simp [hnull]) fun e he => ?_
      rw [hnull] at he
      exact absurd (Option.some.inj he) (Option.some_ne_none e).symm
    · rename_i first hfirst
      split_ifs with hsame
      · refine h.of_insert hid (fun e he => by contradiction) fun _ => ?_
        obtain ⟨hmem, hfid, -⟩ := h.agreed _ first hfirst
        exact ⟨first, List.mem_append_left _ hmem, a, ha, hfid, rfl, by simpa using hsame⟩
      · refine h.of_known (fun _ => by simp [hfirst]) fun e he => ?_
        rw [hfirst] at he
        cases he
        simpa using hsame

theorem observed_foldl (candidates : List Candidate) :
    Observed candidates (candidates.foldl LivingRaidParty.observe ∅) := by
  have hall : ∀ (rest seen : List Candidate) (unique : ExtTreeMap UInt64 (Option Candidate)),
      Observed seen unique → Observed (seen ++ rest) (rest.foldl LivingRaidParty.observe unique) := by
    intro rest
    induction rest with
    | nil =>
      intro seen unique h
      rwa [List.append_nil]
    | cons a rest ih =>
      intro seen unique h
      have hnext := ih (seen ++ [a]) _ (h.observe a)
      rwa [List.append_assoc] at hnext
  have hempty : Observed [] (∅ : ExtTreeMap UInt64 (Option Candidate)) :=
    ⟨by simp, by simp, by simp, by simp⟩
  simpa using hall candidates [] ∅ hempty

/-- An eligible actor that no observation contradicts. -/
def EligibleActor (candidates : List Candidate) (a : Candidate) : Prop :=
  a ∈ candidates ∧ eligible a = true ∧
    ∀ b ∈ candidates, b.actor.id = a.actor.id → sameCandidate a b = true

theorem EligibleActor.of_mem_iff {candidates' : List Candidate} (h : EligibleActor candidates a)
    (hmem : ∀ b, b ∈ candidates ↔ b ∈ candidates') : EligibleActor candidates' a :=
  ⟨(hmem a).mp h.1, h.2.1, fun b hb => h.2.2 b ((hmem b).mpr hb)⟩

theorem eligibleActor_of_stored (h : Observed candidates unique) (hstored : unique[id]? = some (some a))
    (ha : eligible a = true) : EligibleActor candidates a := by
  obtain ⟨hmem, rfl, hall⟩ := h.agreed id a hstored
  refine ⟨hmem, ha, fun b hb hbid => ?_⟩
  rcases hall b hb hbid with rfl | hsame
  · exact (sameCandidate_iff ha).mpr (.refl b)
  · exact hsame

theorem stored_of_eligibleActor (h : Observed candidates unique) (ha : EligibleActor candidates a) :
    ∃ b, unique[a.actor.id]? = some (some b) ∧ Agrees a b := by
  obtain ⟨hmem, heligible, hall⟩ := ha
  have hid : a.actor.id ≠ 0 := by
    have hlow := (eligible_iff.mp heligible).1.low
    intro hzero
    rw [hzero] at hlow
    contradiction
  have hagrees := fun b hb hbid => (sameCandidate_iff heligible).mp (hall b hb hbid)
  match hstored : unique[a.actor.id]? with
  | none => exact absurd hstored (h.absent a hmem hid)
  | some none =>
    obtain ⟨b, hb, e, he, hbid, heid, hdiffer⟩ := h.contradicted _ hstored
    have hb' := hagrees b hb hbid
    have hsame := (sameCandidate_iff (hb'.eligible heligible)).mpr (hb'.symm.trans (hagrees e he heid))
    rw [hsame] at hdiffer
    contradiction
  | some (some b) =>
    obtain ⟨hb, hbid, -⟩ := h.agreed _ b hstored
    exact ⟨b, rfl, hagrees b hb hbid⟩

/-- The actor of an observation that counts. -/
def eligibleActor? : Option Candidate → Option CoalitionCandidate
  | some candidate => if eligible candidate then some candidate.actor else none
  | none => none

theorem eligibleActors_eq (candidates : List Candidate) :
    eligibleActors candidates =
      (candidates.foldl observe ∅).toList.filterMap fun entry => eligibleActor? entry.2 := rfl

theorem eligibleActor?_eq_some {v : Option Candidate} :
    eligibleActor? v = some c ↔ ∃ a, v = some a ∧ eligible a = true ∧ a.actor = c := by
  cases v with
  | none => simp [eligibleActor?]
  | some a => simp [eligibleActor?]

theorem mem_eligibleActors_iff : c ∈ eligibleActors candidates ↔
    ∃ (id : UInt64) (a : Candidate), (candidates.foldl observe ∅)[id]? = some (some a) ∧
      eligible a = true ∧ a.actor = c := by
  rw [eligibleActors_eq, List.mem_filterMap]
  simp only [eligibleActor?_eq_some, Prod.exists, ExtTreeMap.mem_toList_iff_getElem?_eq_some]
  constructor
  · rintro ⟨id, v, hv, a, rfl, ha⟩
    exact ⟨id, a, hv, ha⟩
  · rintro ⟨id, a, hv, ha⟩
    exact ⟨id, _, hv, a, rfl, ha⟩

theorem exists_of_mem_eligibleActors (h : c ∈ eligibleActors candidates) :
    ∃ a, EligibleActor candidates a ∧ a.actor = c := by
  obtain ⟨id, a, hstored, ha, rfl⟩ := mem_eligibleActors_iff.mp h
  exact ⟨a, eligibleActor_of_stored (observed_foldl candidates) hstored ha, rfl⟩

theorem exists_mem_eligibleActors (h : EligibleActor candidates a) :
    ∃ c ∈ eligibleActors candidates, a.actor.Alike c := by
  obtain ⟨b, hb, hagrees⟩ := stored_of_eligibleActor (observed_foldl candidates) h
  exact ⟨b.actor, mem_eligibleActors_iff.mpr ⟨_, b, hb, hagrees.eligible h.2.1, rfl⟩, hagrees.actor⟩

theorem formable_eligibleActors (candidates : List Candidate) : Formable (eligibleActors candidates) := by
  have hobserved := observed_foldl candidates
  constructor
  · rw [eligibleActors_eq, List.Nodup, List.pairwise_map, List.pairwise_filterMap]
    refine ExtTreeMap.distinct_keys_toList.imp_of_mem ?_
    rintro ⟨id, v⟩ ⟨id', v'⟩ hv hv' hne c hc c' hc'
    obtain ⟨a, rfl, -, rfl⟩ := eligibleActor?_eq_some.mp hc
    obtain ⟨a', rfl, -, rfl⟩ := eligibleActor?_eq_some.mp hc'
    rw [ExtTreeMap.mem_toList_iff_getElem?_eq_some] at hv hv'
    rw [(hobserved.agreed id a hv).2.1, (hobserved.agreed id' a' hv').2.1]
    rintro rfl
    exact hne Std.compare_self
  · intro c hc
    obtain ⟨a, ha, rfl⟩ := exists_of_mem_eligibleActors hc
    exact (eligible_iff.mp ha.2.1).1

theorem plain_eligibleActor?_eq_some {v : Option Candidate} (h : Observed candidates unique)
    (hstored : unique[id]? = some v) : (eligibleActor? v).map (·.plain) = some c ↔
      ∃ a, EligibleActor candidates a ∧ a.actor.id = id ∧ a.actor.plain = c := by
  simp only [Option.map_eq_some_iff, eligibleActor?_eq_some]
  constructor
  · rintro ⟨_, ⟨a, rfl, ha, rfl⟩, rfl⟩
    exact ⟨a, eligibleActor_of_stored h hstored ha, (h.agreed id a hstored).2.1, rfl⟩
  · rintro ⟨a, ha, rfl, rfl⟩
    obtain ⟨b, hb, hagrees⟩ := stored_of_eligibleActor h ha
    rw [hstored] at hb
    exact ⟨_, ⟨b, Option.some.inj hb, hagrees.eligible ha.2.1, rfl⟩, hagrees.actor.plain_eq.symm⟩

theorem Observed.isSome_iff (h : Observed candidates unique) :
    unique[id]?.isSome = true ↔ id ≠ 0 ∧ ∃ a ∈ candidates, a.actor.id = id := by
  constructor
  · intro hsome
    obtain ⟨v, hv⟩ := Option.isSome_iff_exists.mp hsome
    refine ⟨h.nonzero id v hv, ?_⟩
    cases v with
    | none =>
      obtain ⟨a, ha, -, -, hid, -⟩ := h.contradicted id hv
      exact ⟨a, ha, hid⟩
    | some a => exact ⟨a, (h.agreed id a hv).1, (h.agreed id a hv).2.1⟩
  · rintro ⟨hid, a, ha, rfl⟩
    exact Option.isSome_iff_ne_none.mpr (h.absent a ha hid)

/-- The actors are the same up to the sign of zeros, whatever the order of the observations. -/
theorem map_plain_eligibleActors {candidates' : List Candidate}
    (hmem : ∀ a, a ∈ candidates ↔ a ∈ candidates') :
    (eligibleActors candidates).map (·.plain) = (eligibleActors candidates').map (·.plain) := by
  have h := observed_foldl candidates
  have h' := observed_foldl candidates'
  have hview : ∀ unique : ExtTreeMap UInt64 (Option Candidate),
      (unique.toList.filterMap fun entry => eligibleActor? entry.2).map (·.plain) =
        ((unique.map fun _ v => (eligibleActor? v).map (·.plain)).toList.filterMap (·.2)) := by
    intro unique
    rw [ExtTreeMap.toList_map, List.filterMap_map, List.map_filterMap]
    rfl
  rw [eligibleActors_eq, eligibleActors_eq, hview, hview]
  congr 2
  apply ExtTreeMap.ext_getElem?
  intro id
  rw [ExtTreeMap.getElem?_map, ExtTreeMap.getElem?_map]
  have hsome : (candidates.foldl observe ∅)[id]?.isSome = true ↔
      (candidates'.foldl observe ∅)[id]?.isSome = true := by
    rw [h.isSome_iff, h'.isSome_iff]
    simp only [hmem]
  cases hv : (candidates.foldl observe ∅)[id]? with
  | none =>
    rw [hv] at hsome
    have hnone : (candidates'.foldl observe ∅)[id]? = none := by simpa using hsome
    rw [hnone]
  | some v =>
    rw [hv] at hsome
    obtain ⟨v', hv'⟩ := Option.isSome_iff_exists.mp (hsome.mp rfl)
    rw [hv']
    refine congrArg some (Option.ext fun c => ?_)
    rw [plain_eligibleActor?_eq_some h hv, plain_eligibleActor?_eq_some h' hv']
    constructor
    · rintro ⟨a, ha, hids⟩
      exact ⟨a, ha.of_mem_iff hmem, hids⟩
    · rintro ⟨a, ha, hids⟩
      exact ⟨a, ha.of_mem_iff fun b => (hmem b).symm, hids⟩

/-! ### The formation -/

theorem formFrom_plain (rounds : ℕ) (l : List CoalitionCandidate) :
    formFrom rounds (l.map (·.plain)) = formFrom rounds l := by
  induction rounds generalizing l with
  | zero => rfl
  | succ rounds ih =>
    have hpropose := propose_plain l (profileFor l.length)
    have hfilter : ∀ members : List UInt64,
        (l.map (·.plain)).filter (fun actor => actor.id ∉ members) =
          (l.filter fun actor => actor.id ∉ members).map (·.plain) := by
      intro members
      rw [List.filter_map]
      rfl
    simp only [formFrom, List.length_map]
    split_ifs
    · cases h : propose l (profileFor l.length) with
      | none =>
        rw [h, Option.map_none, Option.map_eq_none_iff] at hpropose
        rw [hpropose]
      | some proposal =>
        rw [h, Option.map_some, Option.map_eq_some_iff] at hpropose
        obtain ⟨proposal', hproposal', hmembers⟩ := hpropose
        rw [hproposal']
        simp only [hmembers, hfilter, ih]
    · rfl

theorem form_eq_of_mem_iff {candidates' : List Candidate}
    (hmem : ∀ a, a ∈ candidates ↔ a ∈ candidates') : form candidates = form candidates' := by
  have hplain := map_plain_eligibleActors hmem
  have hlength := congrArg List.length hplain
  rw [List.length_map, List.length_map] at hlength
  rw [form, form, ← formFrom_plain, hplain, formFrom_plain, hlength]

theorem inRange_congr {c' d' : CoalitionCandidate} (hc : c.Alike c') (hd : d.Alike d') :
    InRange c d ↔ InRange c' d' :=
  (distanceSq_alike hc hd).le_iff (.refl _)

/-- The formation of raid parties, for every list of observations. -/
theorem form_spec (candidates : List Candidate) :
    (form candidates).Pairwise List.Disjoint ∧
    (∀ party ∈ form candidates, party.Nodup ∧ 2 ≤ party.length ∧ party.length ≤ 5) ∧
    (∀ party ∈ form candidates, ∃ seed, EligibleActor candidates seed ∧ seed.actor.id ∈ party ∧
      ∀ m ∈ party, ∃ a, EligibleActor candidates a ∧ a.actor.id = m ∧
        a.actor.mapId = seed.actor.mapId ∧ (a = seed ∨ InRange a.actor seed.actor)) ∧
    (∀ candidates' : List Candidate, (∀ a, a ∈ candidates ↔ a ∈ candidates') →
      form candidates' = form candidates) ∧
    (∀ a b, EligibleActor candidates a → EligibleActor candidates b → a.actor.id ≠ b.actor.id →
      a.actor.id ∉ (form candidates).flatten → b.actor.id ∉ (form candidates).flatten →
      ¬ (a.actor.mapId = b.actor.mapId ∧ InRange a.actor b.actor)) ∧
    ((∃ a b, EligibleActor candidates a ∧ EligibleActor candidates b ∧ a.actor.id ≠ b.actor.id) →
      (∀ a b, EligibleActor candidates a → EligibleActor candidates b → a.actor.id ≠ b.actor.id →
        a.actor.mapId = b.actor.mapId ∧ InRange a.actor b.actor) →
      ∀ a, EligibleActor candidates a → a.actor.id ∈ (form candidates).flatten) := by
  have hl := formable_eligibleActors candidates
  have hparty := isParty_of_mem_formFrom hl le_rfl
  refine ⟨pairwise_disjoint_formFrom hl le_rfl, ?_, ?_, fun _ h => (form_eq_of_mem_iff h).symm, ?_, ?_⟩
  · intro party hp
    obtain ⟨hnodup, hleast, hmost, -⟩ := hparty party hp
    exact ⟨hnodup, hleast, hmost⟩
  · intro party hp
    obtain ⟨-, -, -, seed, hseed, hin, hall⟩ := hparty party hp
    obtain ⟨s, hs, rfl⟩ := exists_of_mem_eligibleActors hseed
    refine ⟨s, hs, hin, fun m hm => ?_⟩
    obtain ⟨c, hc, rfl, rfl | hnear⟩ := hall m hm
    · exact ⟨s, hs, rfl, rfl, .inl rfl⟩
    · obtain ⟨a, ha, rfl⟩ := exists_of_mem_eligibleActors hc
      have hmap := (hl.raiders _ hc).mapId.trans (hl.raiders _ hseed).mapId.symm
      exact ⟨a, ha, rfl, hmap, .inr hnear⟩
  · rintro a b ha hb hne haleft hbleft ⟨-, hrange⟩
    obtain ⟨c, hc, hac⟩ := exists_mem_eligibleActors ha
    obtain ⟨d, hd, hbd⟩ := exists_mem_eligibleActors hb
    rw [hac.id, hbd.id] at hne
    rw [hac.id] at haleft
    rw [hbd.id] at hbleft
    exact not_inRange_of_left hl le_rfl hc hd hne haleft hbleft ((inRange_congr hac hbd).mp hrange)
  · rintro ⟨a₁, a₂, ha₁, ha₂, hne⟩ hall a ha
    obtain ⟨c, hc, hac⟩ := exists_mem_eligibleActors ha
    rw [hac.id]
    refine mem_flatten_of_inRange hl le_rfl ?_ ?_ hc
    · intro c hc d hd hne
      obtain ⟨a, ha, rfl⟩ := exists_of_mem_eligibleActors hc
      obtain ⟨b, hb, rfl⟩ := exists_of_mem_eligibleActors hd
      exact (hall a b ha hb hne).2
    · intro hone
      obtain ⟨c₁, hc₁, h₁⟩ := exists_mem_eligibleActors ha₁
      obtain ⟨c₂, hc₂, h₂⟩ := exists_mem_eligibleActors ha₂
      obtain ⟨e, he⟩ := List.length_eq_one_iff.mp hone
      rw [he, List.mem_singleton] at hc₁ hc₂
      exact hne (by rw [h₁.id, h₂.id, hc₁, hc₂])

/-- A raider at its camp. -/
def raiderAt (id : UInt64) (x : Float32) : Candidate where
  actor := { id, mapId, x, creatureEntry, worldFaction := WorldFactions.defiasBrotherhood }
  spawnId := id
  materialized := true
  alive := true
  bound := true
  atCamp := true
  idle := true
  ready := true

def pair : List Candidate := [raiderAt 901050 0, raiderAt 901051 40]

theorem form_spec_pair : (901051 : UInt64) ∈ (form pair).flatten := by
  have heligible : ∀ a ∈ pair, EligibleActor pair a := by
    unfold EligibleActor
    decide +kernel
  have hrange : ∀ a ∈ pair, ∀ b ∈ pair, a.actor.mapId = b.actor.mapId ∧ InRange a.actor b.actor := by
    unfold InRange
    decide +kernel
  have hfirst := heligible (raiderAt 901050 0) (List.mem_cons_self ..)
  have hsecond := heligible (raiderAt 901051 40) (List.mem_cons_of_mem _ (List.mem_cons_self ..))
  obtain ⟨-, -, -, -, -, hcover⟩ := form_spec pair
  refine hcover ⟨_, _, hfirst, hsecond, by decide⟩ ?_ _ hsecond
  intro a b ha hb _
  exact hrange a ha.1 b hb.1

end LivingRaidParty

end AIWorld.Agent
