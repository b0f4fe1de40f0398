import AIWorld.Raid.Attempts
import AIWorld.Raid.RaidCargo

/-! What holds of the raiders and their parties in every world that calls lead to, and what a call may change:
parties only go on, no raider changes its target, and of its attempt each raider does no more than the steps of an
attempt allow. The rules below are for the single changes that calls are made of. -/

namespace AIWorld.Raid

open Agent.LivingRaidParty (Phase)
open LivingSupply (Ledger)

/-! ### Sources -/

theorem mem_of_sourceFor {depot routeId : UInt32} {fields : Bool} {spec : SourceSpec}
    (h : sourceFor depot fields routeId = some spec) :
    spec ∈ sources ++ [rightBypass] ∧ spec.depot = depot ∧ spec.routeId = routeId := by
  unfold sourceFor at h
  split_ifs at h with hright
  · cases h
    simp only [Bool.and_eq_true, beq_iff_eq] at hright
    exact ⟨by simp, hright.1.2.symm, hright.2.symm⟩
  · have hfound := List.find?_some h
    simp only [Bool.and_eq_true, beq_iff_eq] at hfound
    exact ⟨List.mem_append_left _ (List.mem_of_find?_eq_some h), hfound.1.1, hfound.1.2⟩

theorem count_pos_of_sourceFor {depot routeId : UInt32} {fields : Bool} {spec : SourceSpec}
    (h : sourceFor depot fields routeId = some spec) : 0 < spec.count := by
  have hall : ∀ s ∈ sources ++ [rightBypass], 0 < s.count := by
    simp only [sources, List.cons_append, List.nil_append, List.forall_mem_cons, List.not_mem_nil]
    exact ⟨by decide, by decide, by decide, by decide, by decide, by simp⟩
  exact hall spec (mem_of_sourceFor h).1

/-- With the fields every source is still there. -/
theorem sourceFor_true {depot routeId : UInt32} {fields : Bool} {spec : SourceSpec}
    (h : sourceFor depot fields routeId = some spec) : sourceFor depot true routeId = some spec := by
  cases fields with
  | true => exact h
  | false =>
    have hfound := List.find?_some h
    simp only [sourceFor, Bool.false_and, Bool.false_eq_true, if_false, Bool.false_or, Bool.and_eq_true,
      beq_iff_eq] at h hfound
    obtain ⟨-, hdepot⟩ := hfound
    have hright : (depot == rightBypass.depot) = false := by rw [hdepot]; rfl
    rw [sourceFor, hright, Bool.and_false, Bool.false_and, if_neg Bool.false_ne_true]
    simpa [hdepot] using h

theorem min_pred_lt {leg count : UInt32} (h : 0 < count) : min leg (count - 1) < count := by
  have hle : min leg (count - 1) ≤ count - 1 := Std.min_le_right
  grind

theorem pred_lt {count : UInt32} (h : 0 < count) : count - 1 < count := by grind

/-! ### The invariant -/

def PartyRuntime.forward (p : PartyRuntime) : Bool :=
  p.coordination.stage != .returning && p.coordination.stage != .complete

/-- The leg is one of the route to the party's source. -/
def Guided (p : PartyRuntime) : Prop :=
  ∃ spec, sourceFor p.coordination.sourceDepot true p.coordination.routeId = some spec ∧
    p.coordination.leg < spec.count

/-- The leg is one of the route that the raider selected. -/
def Course (profile : Profile) (raid : State) : Prop :=
  ∃ spec, sourceFor raid.selectedSourceDepot profile.fields raid.selectedRouteId = some spec ∧
    raid.leg < spec.count

structure SameTarget (raid raid' : State) : Prop where
  depot : raid'.selectedSourceDepot = raid.selectedSourceDepot
  route : raid'.selectedRouteId = raid.selectedRouteId

theorem SameTarget.refl (raid : State) : SameTarget raid raid := ⟨rfl, rfl⟩

theorem SameTarget.trans {a b c : State} (h : SameTarget a b) (h' : SameTarget b c) : SameTarget a c :=
  ⟨h'.depot.trans h.depot, h'.route.trans h.route⟩

/-- The raider has the orders of the party. -/
structure Ordered (p : PartyRuntime) (raid : State) : Prop where
  depot : raid.selectedSourceDepot = p.coordination.sourceDepot
  route : raid.selectedRouteId = p.coordination.routeId

structure Inv (profile : Profile) (w : World) : Prop where
  ledger : w.ledger.Inv
  ids : ∀ p ∈ w.parties, p.id ≠ 0 ∧ p.id ≤ w.nextPartyId
  unique : (w.parties.map (·.id)).Nodup
  few : w.parties.countP (!·.complete) ≤ 2
  guided : ∀ p ∈ w.parties, Guided p
  known : ∀ p ∈ w.parties, p.coordination.stage ≠ .other
  defias : w.parties ≠ [] → profile.defias = true
  enlisted : ∀ s, (w.raiders s).partyId ≠ 0 → s ∈ raiderSpawns
  stored : ∀ s, (w.raiders s).partyId ≠ 0 → ∃ p ∈ w.parties, p.id = (w.raiders s).partyId
  members : ∀ p ∈ w.parties, p.forward = true → ∀ m ∈ p.coordination.members, (w.raiders m).partyId = p.id
  course : ∀ s, Course profile (w.raiders s)
  shared : ∀ s, ∀ p ∈ w.parties, p.id = (w.raiders s).partyId → p.complete = false → Ordered p (w.raiders s)

/-! ### Changes -/

def World.forward (w : World) (id : UInt64) : Bool := w.parties.any fun p => p.id == id && p.forward

/-- A raider's attempt, as its state, its actor, its cargo and its party tell. -/
def World.attempt (w : World) (s : UInt64) : Attempt where
  active := (w.raiders s).active
  returning := (w.raiders s).returning
  noted := (w.raiders s).combatNoted
  stealing := (w.raiders s).phase == .stealing
  robbed := (w.actors s).stolen != (w.raiders s).stolenAtStart
  laden := cargoOf w.ledger s.toNat != 0
  forward := w.forward (w.raiders s).partyId
  count := (w.raiders s).thefts + (w.raiders s).prevented

def rank : Phase → ℕ
  | .assembling => 0
  | .outbound => 1
  | .raiding => 2
  | .returning => 3
  | .complete => 4
  | .other => 5

/-- The same party, as far or further on. -/
structure Onward (p p' : PartyRuntime) : Prop where
  id : p'.id = p.id
  members : p'.coordination.members = p.coordination.members
  leader : p'.coordination.leaderSpawn = p.coordination.leaderSpawn
  depot : p'.coordination.sourceDepot = p.coordination.sourceDepot
  route : p'.coordination.routeId = p.coordination.routeId
  lives : p'.lives = p.lives
  stage : rank p.coordination.stage ≤ rank p'.coordination.stage

theorem Onward.refl (p : PartyRuntime) : Onward p p := ⟨rfl, rfl, rfl, rfl, rfl, rfl, le_rfl⟩

theorem Onward.trans {p q r : PartyRuntime} (h : Onward p q) (h' : Onward q r) : Onward p r :=
  ⟨h'.id.trans h.id, h'.members.trans h.members, h'.leader.trans h.leader, h'.depot.trans h.depot,
    h'.route.trans h.route, h'.lives.trans h.lives, h.stage.trans h'.stage⟩

theorem rank_forward {p : PartyRuntime} (h : p.coordination.stage ≠ .other) :
    (p.forward = true ↔ rank p.coordination.stage < 3) ∧ (p.complete = true ↔ rank p.coordination.stage = 4) := by
  unfold PartyRuntime.forward PartyRuntime.complete
  cases hs : p.coordination.stage <;> simp_all [rank]

/-- Parties go on, and new ones have new numbers. -/
structure Later (w w' : World) : Prop where
  next : w.nextPartyId ≤ w'.nextPartyId
  origin : ∀ p' ∈ w'.parties, (∃ p ∈ w.parties, Onward p p') ∨ w.nextPartyId < p'.id

theorem Later.refl (w : World) : Later w w :=
  ⟨UInt64.le_refl _, fun p hp => .inl ⟨p, hp, Onward.refl p⟩⟩

theorem Later.trans {w w' w'' : World} (h : Later w w') (h' : Later w' w'') : Later w w'' := by
  refine ⟨UInt64.le_trans h.next h'.next, fun p'' hp'' => ?_⟩
  rcases h'.origin p'' hp'' with ⟨p', hp', hon'⟩ | hnew
  · rcases h.origin p' hp' with ⟨p, hp, hon⟩ | hnew
    · exact .inl ⟨p, hp, hon.trans hon'⟩
    · exact .inr (hon'.id ▸ hnew)
  · exact .inr (UInt64.lt_of_le_of_lt h.next hnew)

/-- What a call without a new attempt changes. -/
structure Change (profile : Profile) (w w' : World) : Prop where
  inv : Inv profile w'
  later : Later w w'
  target : ∀ s, SameTarget (w.raiders s) (w'.raiders s)
  steps : ∀ s ∈ raiderSpawns, Attempt.Steps (w.attempt s) (w'.attempt s)

variable {profile : Profile} {w w' w'' : World}

theorem Change.refl (h : Inv profile w) : Change profile w w :=
  ⟨h, Later.refl w, fun _ => SameTarget.refl _, fun _ _ => .refl⟩

theorem Change.trans (h : Change profile w w') (h' : Change profile w' w'') : Change profile w w'' :=
  ⟨h'.inv, h.later.trans h'.later, fun s => (h.target s).trans (h'.target s),
    fun s hs => (h.steps s hs).trans (h'.steps s hs)⟩

theorem Attempt.Steps.of_eq {a b : Attempt} (h : b = a) : Attempt.Steps a b := h ▸ .refl

/-! ### Rules -/

/-- One raider changed, and maybe released from a party that is no longer on its way out. -/
theorem inv_setRaid (h : Inv profile w) (s : UInt64) {raid : State}
    (hparty : raid.partyId = (w.raiders s).partyId ∨
      (raid.partyId = 0 ∧ w.forward (w.raiders s).partyId = false))
    (hcourse : Course profile raid)
    (hshared : ∀ p ∈ w.parties, p.id = raid.partyId → p.complete = false → Ordered p raid) :
    Inv profile (w.setRaid s raid) := by
  have hself : (w.setRaid s raid).raiders s = raid := Function.update_self ..
  have hother : ∀ i, i ≠ s → (w.setRaid s raid).raiders i = w.raiders i :=
    fun i hi => Function.update_of_ne hi ..
  refine { h with
    enlisted := fun i hi => ?_
    stored := fun i hi => ?_
    members := fun p hp hf m hm => ?_
    course := fun i => ?_
    shared := fun i p hp hid hc => ?_ }
  · by_cases his : i = s
    · subst his
      rw [hself] at hi
      exact h.enlisted i (hparty.elim (fun heq => heq ▸ hi) fun hzero => absurd hzero.1 hi)
    · exact h.enlisted i (hother i his ▸ hi)
  · by_cases his : i = s
    · subst his
      rw [hself] at hi ⊢
      rcases hparty with heq | ⟨hzero, -⟩
      · exact heq ▸ h.stored i (heq ▸ hi)
      · exact absurd hzero hi
    · rw [hother i his] at hi ⊢
      exact h.stored i hi
  · have hfrom := h.members p hp hf m hm
    by_cases hms : m = s
    · subst hms
      rw [hself]
      rcases hparty with heq | ⟨-, hstays⟩
      · exact heq.trans hfrom
      · have hgoes : w.forward (w.raiders m).partyId = true := by
          rw [World.forward, List.any_eq_true]
          exact ⟨p, hp, by simp [hfrom, hf]⟩
        rw [hgoes] at hstays
        contradiction
    · rwa [hother m hms]
  · by_cases his : i = s
    · subst his
      rwa [hself]
    · exact hother i his ▸ h.course i
  · by_cases his : i = s
    · subst his
      rw [hself] at hid ⊢
      exact hshared p hp hid hc
    · rw [hother i his] at hid ⊢
      exact h.shared i p hp hid hc

theorem later_of_parties (hparties : w'.parties = w.parties) (hnext : w'.nextPartyId = w.nextPartyId) :
    Later w w' :=
  ⟨hnext ▸ UInt64.le_refl _, fun p hp => .inl ⟨p, hparties ▸ hp, Onward.refl p⟩⟩

theorem attempt_setRaid_of_ne {s i : UInt64} {raid : State} (hi : i ≠ s) :
    (w.setRaid s raid).attempt i = w.attempt i := by
  simp [World.attempt, World.setRaid, World.forward, hi]

/-- A change of one raider that stays with its party and its target. -/
theorem change_setRaid (h : Inv profile w) (s : UInt64) {raid : State}
    (hparty : raid.partyId = (w.raiders s).partyId) (htarget : SameTarget (w.raiders s) raid)
    (hcourse : Course profile raid)
    (hsteps : Attempt.Steps (w.attempt s) ((w.setRaid s raid).attempt s)) :
    Change profile w (w.setRaid s raid) := by
  refine ⟨inv_setRaid h s (.inl hparty) hcourse fun p hp hid hc => ?_, later_of_parties rfl rfl, fun i => ?_,
    fun i _ => ?_⟩
  · have hordered := h.shared s p hp (hid.trans hparty) hc
    exact ⟨htarget.depot.trans hordered.depot, htarget.route.trans hordered.route⟩
  · by_cases hi : i = s
    · subst hi
      simpa [World.setRaid] using htarget
    · simpa [World.setRaid, hi] using SameTarget.refl _
  · by_cases hi : i = s
    · subst hi
      exact hsteps
    · exact .of_eq (attempt_setRaid_of_ne hi)

/-- A change of an actor that steals nothing. -/
theorem change_setActor (h : Inv profile w) (s : UInt64) {actor : ActorRuntime}
    (hstolen : actor.stolen = (w.actors s).stolen) : Change profile w (w.setActor s actor) := by
  refine ⟨{ h with }, later_of_parties rfl rfl, fun _ => SameTarget.refl _, fun i _ => .of_eq ?_⟩
  by_cases hi : i = s
  · subst hi
    simp [World.attempt, World.setActor, World.forward, hstolen]
  · simp [World.attempt, World.setActor, World.forward, hi]

/-- A change of the ledger that brings no raider any cargo. -/
theorem change_ledger (h : Inv profile w) {ledger : Ledger} (hledger : ledger.Inv)
    (hcargo : ∀ s ∈ raiderSpawns, cargoOf w.ledger s.toNat = 0 → cargoOf ledger s.toNat = 0) :
    Change profile w { w with ledger } := by
  refine ⟨{ h with ledger := hledger }, later_of_parties rfl rfl, fun _ => SameTarget.refl _,
    fun s hs => .single ?_⟩
  refine Attempt.Step.fade (fun h => h) (fun hladen => ?_) fun h => h
  simp only [bne_iff_ne] at hladen
  simpa [World.attempt] using mt (hcargo s hs) hladen

theorem change_guard (h : Inv profile w) (guard : State) : Change profile w { w with guard } :=
  ⟨{ h with }, later_of_parties rfl rfl, fun _ => SameTarget.refl _, fun _ _ => .refl⟩

/-- A party that goes on. -/
theorem change_setParty (h : Inv profile w) (id : UInt64) {g : PartyRuntime → PartyRuntime}
    (hg : ∀ p ∈ w.parties, p.id = id → Onward p (g p) ∧ Guided (g p) ∧ (g p).coordination.stage ≠ .other) :
    Change profile w (w.setParty id g) := by
  have hmem : ∀ p' ∈ (w.setParty id g).parties, ∃ p ∈ w.parties, Onward p p' ∧ Guided p' ∧
      p'.coordination.stage ≠ .other := by
    intro p' hp'
    obtain ⟨p, hp, rfl⟩ := List.mem_map.mp hp'
    refine ⟨p, hp, ?_⟩
    split_ifs with hid
    · exact hg p hp hid
    · exact ⟨Onward.refl p, h.guided p hp, h.known p hp⟩
  have hids : (w.setParty id g).parties.map (·.id) = w.parties.map (·.id) := by
    simp only [World.setParty, List.map_map]
    refine List.map_congr_left fun p hp => ?_
    simp only [Function.comp_apply]
    split_ifs with hid
    · exact (hg p hp hid).1.id
    · rfl
  have hrank : ∀ p ∈ w.parties, ∀ p', Onward p p' → p'.coordination.stage ≠ .other →
      (p'.forward = true → p.forward = true) ∧ (p.complete = true → p'.complete = true) := by
    intro p hp p' hon hother
    have hstage := hon.stage
    have hle : rank p'.coordination.stage ≤ 4 := by cases hs : p'.coordination.stage <;> simp_all [rank]
    rw [(rank_forward hother).1, (rank_forward (h.known p hp)).1, (rank_forward hother).2,
      (rank_forward (h.known p hp)).2]
    omega
  refine ⟨{ h with
      ids := fun p' hp' => ?_
      unique := hids ▸ h.unique
      few := ?_
      guided := fun p' hp' => ?_
      known := fun p' hp' => ?_
      defias := fun hne => h.defias fun hnil => hne (by simp [World.setParty, hnil])
      stored := fun s hs => ?_
      members := fun p' hp' hf m hm => ?_
      shared := fun s p' hp' hid hc => ?_ },
    ⟨UInt64.le_refl _, fun p' hp' => ?_⟩, fun _ => SameTarget.refl _, fun s _ => .single ?_⟩
  · obtain ⟨p, hp, hon, -⟩ := hmem p' hp'
    exact hon.id ▸ h.ids p hp
  · refine le_trans ?_ h.few
    rw [World.setParty, List.countP_map]
    refine List.countP_mono_left fun p hp hc => ?_
    simp only [Function.comp_apply, Bool.not_eq_true'] at hc ⊢
    by_contra hcomplete
    split_ifs at hc with hid
    · obtain ⟨hon, -, hother⟩ := hg p hp hid
      rw [(hrank p hp _ hon hother).2 (eq_true_of_ne_false hcomplete)] at hc
      contradiction
    · contradiction
  · obtain ⟨p, hp, -, hguided, -⟩ := hmem p' hp'
    exact hguided
  · obtain ⟨p, hp, -, -, hother⟩ := hmem p' hp'
    exact hother
  · have hs' : (w.raiders s).partyId ∈ w.parties.map (·.id) := List.mem_map.mpr (h.stored s hs)
    exact List.mem_map.mp (hids ▸ hs')
  · obtain ⟨p, hp, hon, -, hother⟩ := hmem p' hp'
    have hfrom := h.members p hp ((hrank p hp p' hon hother).1 hf) m (hon.members ▸ hm)
    exact hfrom.trans hon.id.symm
  · obtain ⟨p, hp, hon, -, hother⟩ := hmem p' hp'
    have hc' : p.complete = false :=
      Bool.eq_false_iff.mpr fun ht => Bool.eq_false_iff.mp hc ((hrank p hp p' hon hother).2 ht)
    have hordered := h.shared s p hp (hon.id ▸ hid) hc'
    exact ⟨hordered.depot.trans hon.depot.symm, hordered.route.trans hon.route.symm⟩
  · obtain ⟨p, hp, hon, -⟩ := hmem p' hp'
    exact .inl ⟨p, hp, hon⟩
  · refine Attempt.Step.fade (fun h => h) (fun h => h) fun hf => ?_
    simp only [World.forward, List.any_eq_true, Bool.and_eq_true, beq_iff_eq] at hf
    obtain ⟨p', hp', hid, hf⟩ := hf
    obtain ⟨p, hp, hon, -, hother⟩ := hmem p' hp'
    simp only [World.attempt, World.forward, List.any_eq_true, Bool.and_eq_true, beq_iff_eq]
    exact ⟨p, hp, hon.id ▸ hid, (hrank p hp p' hon hother).1 hf⟩

end AIWorld.Raid
