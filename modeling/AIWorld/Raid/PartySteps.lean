import AIWorld.Raid.RaidInvariant

/-! What the functions of a party change, and what a raider does on its way. A retreat turns everybody in the party
back, progress leads everybody on; a raider turns back from a fight or a blocked route, steals, delivers and eats, and
each of these is a step of its attempt. -/

namespace AIWorld.Raid

open Agent.LivingRaidParty (Phase)

variable {profile : Profile} {formation : Formation} {f : Facts} {w w' : World} {p q : PartyRuntime} {s id : UInt64}

/-! ### Parties -/

theorem mem_of_party (h : w.party id = some p) : p ∈ w.parties ∧ p.id = id :=
  ⟨List.mem_of_find?_eq_some h, by simpa using List.find?_some h⟩

theorem Inv.eq_of_id (h : Inv profile w) (hp : p ∈ w.parties) (hq : q ∈ w.parties) (hid : p.id = q.id) : p = q :=
  List.inj_on_of_nodup_map h.unique hp hq hid

theorem Inv.party_eq (h : Inv profile w) (hp : p ∈ w.parties) : w.party p.id = some p := by
  cases hfound : w.party p.id with
  | none =>
    rw [World.party, List.find?_eq_none] at hfound
    simpa using hfound p hp
  | some q =>
    obtain ⟨hq, hid⟩ := mem_of_party hfound
    rw [h.eq_of_id hq hp hid]

/-- A leg of the party's route is one of the routes of the raiders that have its orders. -/
theorem Inv.course_of_party (h : Inv profile w) (hp : p ∈ w.parties) (hid : p.id = (w.raiders s).partyId)
    (hcomplete : p.complete = false) {raid : State} (htarget : SameTarget (w.raiders s) raid) (hq : Guided q)
    (hon : Onward p q) (hleg : raid.leg = q.coordination.leg) : Course profile raid := by
  obtain ⟨spec, hspec, -⟩ := h.course s
  obtain ⟨source, hsource, hlt⟩ := hq
  have hordered := h.shared s p hp hid hcomplete
  have hsame := sourceFor_true hspec
  rw [hordered.depot, hordered.route, ← hon.depot, ← hon.route, hsource, Option.some.injEq] at hsame
  subst hsame
  exact ⟨source, by rw [htarget.depot, htarget.route, hspec], hleg ▸ hlt⟩

theorem change_setEach (h : Inv profile w) {m : UInt64 → Bool} {raid : State → State}
    {actor : ActorRuntime → ActorRuntime} (hparty : ∀ r, (raid r).partyId = r.partyId)
    (htarget : ∀ r, SameTarget r (raid r)) (hcourse : ∀ s, m s = true → Course profile (raid (w.raiders s)))
    (hsteps : ∀ s, m s = true → Attempt.Steps (w.attempt s) ((w.setEach m raid actor).attempt s)) :
    Change profile w (w.setEach m raid actor) := by
  have hat : ∀ i, ((w.setEach m raid actor).raiders i).partyId = (w.raiders i).partyId ∧
      SameTarget (w.raiders i) ((w.setEach m raid actor).raiders i) ∧
      Course profile ((w.setEach m raid actor).raiders i) := by
    intro i
    simp only [World.setEach]
    split_ifs with hi
    · exact ⟨hparty _, htarget _, hcourse i hi⟩
    · exact ⟨rfl, SameTarget.refl _, h.course i⟩
  refine ⟨{ h with
      enlisted := fun i hi => h.enlisted i ((hat i).1 ▸ hi)
      stored := fun i hi => (hat i).1 ▸ h.stored i ((hat i).1 ▸ hi)
      members := fun p hp hf m hm => (hat m).1.trans (h.members p hp hf m hm)
      course := fun i => (hat i).2.2
      shared := fun i p hp hid hc => ?_ }, later_of_parties rfl rfl, fun i => (hat i).2.1, fun i _ => ?_⟩
  · have hordered := h.shared i p hp (hid.trans (hat i).1) hc
    exact ⟨(hat i).2.1.depot.trans hordered.depot, (hat i).2.1.route.trans hordered.route⟩
  · by_cases hi : m i = true
    · exact hsteps i hi
    · refine .of_eq ?_
      simp [World.attempt, World.setEach, World.forward, hi]

/-! ### Retreat -/

theorem guided_turnParty (h : Guided p) : Guided (turnParty f p) := by
  obtain ⟨source, hsource, -⟩ := h
  refine ⟨source, hsource, ?_⟩
  simp only [turnParty, hsource]
  exact min_pred_lt (count_pos_of_sourceFor hsource)

theorem onward_turnParty (h : p.coordination.stage ≠ .returning ∧ p.coordination.stage ≠ .complete)
    (hother : p.coordination.stage ≠ .other) : Onward p (turnParty f p) := by
  refine ⟨rfl, rfl, rfl, rfl, rfl, rfl, ?_⟩
  simp only [turnParty]
  cases hs : p.coordination.stage <;> simp_all [rank]

theorem onward_complete (hother : p.coordination.stage ≠ .other) : Onward p (p.setStage .complete) := by
  refine ⟨rfl, rfl, rfl, rfl, rfl, rfl, ?_⟩
  simp only [PartyRuntime.setStage]
  cases hs : p.coordination.stage <;> simp_all [rank]

theorem change_complete (h : Inv profile w) (id : UInt64) :
    Change profile w (w.setParty id (·.setStage .complete)) :=
  change_setParty h id fun p hp _ => ⟨onward_complete (h.known p hp), h.guided p hp, by simp [PartyRuntime.setStage]⟩

/-- A raider before and after a retreat of its party. -/
structure Withdrawn (raid raid' : State) : Prop where
  same : raid' = { raid with
    active := raid'.active, returning := raid'.returning, leg := raid'.leg, outcome := raid'.outcome }
  moved : (raid'.active = raid.active ∧ raid'.returning = raid.returning) ∨
    (raid'.active = false ∧ raid'.returning = true)

theorem Withdrawn.refl (raid : State) : Withdrawn raid raid := ⟨rfl, .inl ⟨rfl, rfl⟩⟩

theorem retreat_raider (f : Facts) (w : World) (id : UInt64) (reason : String) (s : UInt64) :
    Withdrawn (w.raiders s) ((retreatLivingRaidParty f w id reason).raiders s) := by
  unfold retreatLivingRaidParty
  split
  · exact Withdrawn.refl _
  split_ifs
  · exact Withdrawn.refl _
  · exact Withdrawn.refl _
  · simp only [World.setEach, World.setParty]
    split_ifs
    · exact ⟨rfl, .inr ⟨rfl, rfl⟩⟩
    · exact Withdrawn.refl _

theorem retreat_actor (f : Facts) (w : World) (id : UInt64) (reason : String) (s : UInt64) :
    (retreatLivingRaidParty f w id reason).actors s =
      { w.actors s with nextAtMs := ((retreatLivingRaidParty f w id reason).actors s).nextAtMs } := by
  unfold retreatLivingRaidParty
  split
  · rfl
  split_ifs
  · rfl
  · rfl
  · simp only [World.setEach, World.setParty]
    split_ifs <;> rfl

theorem retreat_ledger (f : Facts) (w : World) (id : UInt64) (reason : String) :
    (retreatLivingRaidParty f w id reason).ledger = w.ledger ∧
      (retreatLivingRaidParty f w id reason).guard = w.guard := by
  unfold retreatLivingRaidParty
  split
  · exact ⟨rfl, rfl⟩
  split_ifs <;> exact ⟨rfl, rfl⟩

theorem forward_iff : w.forward id = true ↔ ∃ p ∈ w.parties, p.id = id ∧ p.forward = true := by
  simp [World.forward]

/-- After a retreat the party is no longer on its way out. -/
theorem retreat_forward (h : Inv profile w) (id : UInt64) (reason : String) :
    (retreatLivingRaidParty f w id reason).forward id = false := by
  rw [Bool.eq_false_iff, Ne, forward_iff]
  unfold retreatLivingRaidParty
  split
  next hnone =>
    rintro ⟨p, hp, rfl, -⟩
    rw [h.party_eq hp] at hnone
    contradiction
  next p hfound =>
    obtain ⟨hp, hid⟩ := mem_of_party hfound
    have hset : ∀ g : PartyRuntime → PartyRuntime, (∀ p, (g p).id = p.id) → (∀ p, (g p).forward = false) →
        ¬ ∃ q ∈ (w.setParty id g).parties, q.id = id ∧ q.forward = true := by
      rintro g hgid hg ⟨q, hq, hqid, hqf⟩
      obtain ⟨q', hq', rfl⟩ := List.mem_map.mp hq
      split_ifs at hqid hqf with hsame
      · rw [hg q'] at hqf
        contradiction
      · exact hsame hqid
    split_ifs with _ hover
    · exact hset _ (fun _ => rfl) fun _ => rfl
    · rintro ⟨q, hq, hqid, hqf⟩
      rw [h.eq_of_id hq hp (hqid.trans hid.symm)] at hqf
      unfold PartyRuntime.forward at hqf
      rcases hover with hs | hs <;> simp [hs] at hqf
    · exact hset _ (fun _ => rfl) fun _ => rfl

theorem retreat_change (h : Inv profile w) (id : UInt64) (reason : String) :
    Change profile w (retreatLivingRaidParty f w id reason) := by
  unfold retreatLivingRaidParty
  split
  · exact Change.refl h
  next p hfound =>
    obtain ⟨hp, hid⟩ := mem_of_party hfound
    split_ifs with _ hover
    · exact change_complete h id
    · exact Change.refl h
    rw [not_or] at hover
    have hon : Onward p (turnParty f p) := onward_turnParty hover (h.known p hp)
    have hforward : p.forward = true := by simp [PartyRuntime.forward, hover]
    have hcomplete : p.complete = false := by simp [PartyRuntime.complete, hover]
    -- first the members turn back, then the party does
    have hmembers : Change profile w (w.setEach
        (fun i => p.coordination.members.contains i && (w.raiders i).partyId == id)
        (fun raid => { raid with
          active := false, returning := true, leg := (turnParty f p).coordination.leg, outcome := reason })
        (fun actor => { actor with nextAtMs := f.nowMs })) := by
      refine change_setEach h (fun _ => rfl) (fun _ => ⟨rfl, rfl⟩) (fun i hi => ?_) fun i hi => ?_
      all_goals
        rw [Bool.and_eq_true, beq_iff_eq] at hi
        have hpi : p.id = (w.raiders i).partyId := hid.trans hi.2.symm
      · exact h.course_of_party hp hpi hcomplete ⟨rfl, rfl⟩ (guided_turnParty (h.guided p hp)) hon rfl
      · have hout : (w.attempt i).forward = true := forward_iff.mpr ⟨p, hp, hpi, hforward⟩
        refine .single ?_
        have hturned := Attempt.Step.turnBack (.inl hout)
        simpa [World.attempt, World.setEach, World.forward, List.contains_iff_mem.mp hi.1, hi.2] using hturned
    refine hmembers.trans (change_setParty hmembers.inv id fun q hq hqid => ?_)
    obtain rfl : q = p := h.eq_of_id hq hp (hqid.trans hid.symm)
    exact ⟨hon, guided_turnParty (h.guided q hp), by simp [turnParty]⟩

/-! ### Progress -/

theorem lead_change (h : Inv profile w) (hp : p ∈ w.parties) (hcomplete : p.complete = false) (hon : Onward p q)
    (hguided : Guided q) (hother : q.coordination.stage ≠ .other) : Change profile w (lead f w q) := by
  have hmembers : Change profile w (w.setEach
      (fun i => q.coordination.members.contains i && (w.raiders i).partyId == q.id)
      (fun raid => { raid with leg := q.coordination.leg })
      (fun actor => { actor with nextAtMs := f.nowMs })) := by
    refine change_setEach h (fun _ => rfl) (fun _ => ⟨rfl, rfl⟩) (fun i hi => ?_) fun i hi => .of_eq ?_
    · rw [Bool.and_eq_true, beq_iff_eq] at hi
      exact h.course_of_party hp (hon.id ▸ hi.2.symm) hcomplete ⟨rfl, rfl⟩ hguided hon rfl
    · simp only [World.attempt, World.setEach, World.forward, hi, if_true]
  refine hmembers.trans (change_setParty hmembers.inv q.id fun p' hp' hid => ?_)
  obtain rfl : p' = p := h.eq_of_id hp' hp (hid.trans hon.id)
  exact ⟨⟨hon.id, hon.members, hon.leader, hon.depot, hon.route, hon.lives, hon.stage⟩, hguided, hother⟩

theorem change_rally (h : Inv profile w) (id since : UInt64) :
    Change profile w (w.setParty id fun p => { p with rallyReadyAtMs := since }) :=
  change_setParty h id fun p hp _ => ⟨⟨rfl, rfl, rfl, rfl, rfl, rfl, le_rfl⟩, h.guided p hp, h.known p hp⟩

theorem advance_change (h : Inv profile w) (hp : p ∈ w.parties) (hcomplete : p.complete = false)
    {source : SourceSpec}
    (hsource : sourceFor p.coordination.sourceDepot true p.coordination.routeId = some source) :
    Change profile w (advanceParty f w p source) := by
  obtain ⟨spec, hspec, hleg⟩ := h.guided p hp
  rw [hsource, Option.some.injEq] at hspec
  subst hspec
  unfold advanceParty
  dsimp only
  split
  next hstage =>
    generalize (if p.rallyReadyAtMs = 0 then f.nowMs else p.rallyReadyAtMs) = since
    split_ifs
    · exact change_rally h _ _
    · exact lead_change h hp hcomplete ⟨rfl, rfl, rfl, rfl, rfl, rfl, by simp [hstage, rank]⟩
        ⟨source, hsource, hleg⟩ (by simp [PartyRuntime.setStage])
  next hstage =>
    split_ifs with hnext
    · refine lead_change h hp hcomplete ⟨rfl, rfl, rfl, rfl, rfl, rfl, le_rfl⟩ ⟨source, hsource, hnext⟩ ?_
      simp [PartyRuntime.setLeg, hstage]
    · exact lead_change h hp hcomplete
        ⟨rfl, rfl, rfl, rfl, rfl, rfl, by simp [PartyRuntime.setStage, hstage, rank]⟩ ⟨source, hsource, hleg⟩
        (by simp [PartyRuntime.setStage])
  next => exact retreat_change h _ _
  next hstage =>
    split_ifs with hzero
    · refine lead_change h hp hcomplete ⟨rfl, rfl, rfl, rfl, rfl, rfl, le_rfl⟩ ⟨source, hsource, ?_⟩ ?_
      · simp only [PartyRuntime.setLeg]
        grind
      · simp [PartyRuntime.setLeg, hstage]
    · exact Change.refl h
  next => exact Change.refl h

theorem updateParty_change (h : Inv profile w) :
    Change profile w (updateLivingRaidParty profile formation f w) := by
  unfold updateLivingRaidParty
  split_ifs
  · exact Change.refl h
  split
  · exact Change.refl h
  next p hfound =>
    obtain ⟨hp, -⟩ := mem_of_party hfound
    split_ifs with hstage
    · exact Change.refl h
    have hcomplete : p.complete = false := by simp [PartyRuntime.complete, hstage]
    split
    · exact retreat_change h _ _
    next source hsource =>
      dsimp only
      split
      · exact retreat_change h _ _
      · exact change_complete h _
      · exact change_rally h _ _
      · exact advance_change h hp hcomplete hsource

section Raiders
open LivingSupply (Ledger Result)
variable {source : SourceSpec}

/-! ### One raider -/

/-- The attempt that a raider's state, its actor and its cargo make. -/
def attemptOf (w : World) (raid : State) (stolen cargo : ℕ) : Attempt where
  active := raid.active
  returning := raid.returning
  noted := raid.combatNoted
  stealing := raid.phase == .stealing
  robbed := stolen != raid.stolenAtStart
  laden := cargo != 0
  forward := w.forward raid.partyId
  count := raid.thefts + raid.prevented

theorem attempt_eq (w : World) (s : UInt64) :
    w.attempt s = attemptOf w (w.raiders s) (w.actors s).stolen (cargoOf w.ledger s.toNat) := rfl

/-- The raider has selected the source. -/
def Aims (profile : Profile) (w : World) (s : UInt64) (source : SourceSpec) : Prop :=
  sourceFor (w.raiders s).selectedSourceDepot profile.fields (w.raiders s).selectedRouteId = some source

theorem Aims.after (h : Aims profile w s source) (hc : Change profile w w') : Aims profile w' s source := by
  rw [Aims, (hc.target s).depot, (hc.target s).route]
  exact h

theorem Aims.course (h : Aims profile w s source) {raid : State} (htarget : SameTarget (w.raiders s) raid)
    (hleg : raid.leg < source.count) : Course profile raid :=
  ⟨source, by rw [htarget.depot, htarget.route]; exact h, hleg⟩

theorem Inv.keeps_course (h : Inv profile w) {raid : State} (htarget : SameTarget (w.raiders s) raid)
    (hleg : raid.leg = (w.raiders s).leg) : Course profile raid := by
  obtain ⟨spec, hspec, hlt⟩ := h.course s
  exact ⟨spec, by rw [htarget.depot, htarget.route, hspec], hleg ▸ hlt⟩

/-- The state, the actor and the cargo of one raider changed together. -/
theorem change_self (h : Inv profile w) (s : UInt64) {ledger : Ledger} {actor : ActorRuntime} {raid : State}
    (hledger : ledger.Inv) (hothers : ∀ k, k ≠ s.toNat → cargoOf ledger k = cargoOf w.ledger k)
    (hparty : raid.partyId = (w.raiders s).partyId) (htarget : SameTarget (w.raiders s) raid)
    (hcourse : Course profile raid)
    (hsteps : Attempt.Steps (w.attempt s) (attemptOf w raid actor.stolen (cargoOf ledger s.toNat))) :
    Change profile w (((({ w with ledger } : World)).setActor s actor).setRaid s raid) := by
  have hinv : Inv profile ((({ w with ledger } : World)).setActor s actor) := { h with ledger := hledger }
  have hself : (w.setRaid s raid).raiders s = raid := Function.update_self ..
  refine ⟨inv_setRaid hinv s (.inl hparty) hcourse fun p hp hid hc => ?_, later_of_parties rfl rfl, fun i => ?_,
    fun i _ => ?_⟩
  · have hordered := h.shared s p hp (hid.trans hparty) hc
    exact ⟨htarget.depot.trans hordered.depot, htarget.route.trans hordered.route⟩
  · by_cases hi : i = s
    · subst hi
      simpa [World.setRaid] using htarget
    · simpa [World.setRaid, World.setActor, hi] using SameTarget.refl _
  · by_cases hi : i = s
    · subst hi
      simpa [World.attempt, attemptOf, World.setRaid, World.setActor, World.forward] using hsteps
    · refine .of_eq ?_
      rw [attempt_setRaid_of_ne hi]
      simp [World.attempt, World.setActor, World.forward, hi, hothers i.toNat (mt UInt64.toNat_inj.mp hi)]

theorem change_raid (h : Inv profile w) (s : UInt64) {raid : State}
    (hparty : raid.partyId = (w.raiders s).partyId) (htarget : SameTarget (w.raiders s) raid)
    (hcourse : Course profile raid)
    (hsteps : Attempt.Steps (w.attempt s)
      (attemptOf w raid (w.actors s).stolen (cargoOf w.ledger s.toNat))) :
    Change profile w (w.setRaid s raid) := by
  refine change_setRaid h s hparty htarget hcourse ?_
  simpa [World.attempt, attemptOf, World.setRaid, World.forward] using hsteps

theorem wait_change (h : Inv profile w) (f : Facts) (delay : UInt64) : Change profile w (w.wait f delay) :=
  change_setActor h _ rfl

theorem setPhase_change (h : Inv profile w) (f : Facts) {phase : RaidPhase}
    (hphase : phase = .stealing →
      (w.raiders f.record.spawnId).active = true ∧ (w.raiders f.record.spawnId).returning = false) :
    Change profile w (w.setPhase f phase) := by
  have hraid : Change profile w (w.setRaid f.record.spawnId { w.raiders f.record.spawnId with phase }) := by
    refine change_raid h _ rfl ⟨rfl, rfl⟩ (h.keeps_course (s := f.record.spawnId) ⟨rfl, rfl⟩ rfl) (.single ?_)
    by_cases hs : phase = .stealing
    · subst hs
      exact .reach (hphase rfl).1 (hphase rfl).2
    · refine .fade (fun hstealing => ?_) (fun h => h) fun h => h
      exact absurd (beq_iff_eq.mp hstealing) hs
  exact hraid.trans (change_setActor hraid.inv _ rfl)

/-- Another leg of the selected route. -/
theorem leg_change (h : Inv profile w) (haims : Aims profile w s source) {leg : UInt32} (hleg : leg < source.count) :
    Change profile w (w.setRaid s { w.raiders s with leg }) :=
  change_raid h s rfl ⟨rfl, rfl⟩ (haims.course ⟨rfl, rfl⟩ hleg) .refl

/-! ### Fights and blocked routes -/

theorem retreatOf_change {f : Facts} (h : Inv profile w) (id : UInt64) (reason : String) :
    Change profile w (if id ≠ 0 then retreatLivingRaidParty f w id reason else w) := by
  split_ifs
  · exact retreat_change h id reason
  · exact Change.refl h

end Raiders

end AIWorld.Raid
