import AIWorld.Agent.RaidPartyFormation
import AIWorld.Raid.PartySteps

/-! How attempts begin. Who is called up for a party is in no other and on no way, and a new party takes nobody from
another one. -/

namespace AIWorld.Raid

open Agent.LivingRaidParty

variable {profile : Profile} {f : Facts} {w w' w'' : World} {p : PartyRuntime} {s m : UInt64}
  {roster started : List UInt64}

/-! ### The roster -/

/-- A raider without a party, at home and with empty hands. -/
structure Enlistable (w : World) (m : UInt64) : Prop where
  raider : m ∈ raiderSpawns
  unassigned : unassigned w m = true
  idle : (w.raiders m).active = false
  home : (w.raiders m).returning = false
  empty : cargoOf w.ledger m.toNat = 0

theorem mem_raiderSpawns (h : firstRaider ≤ s ∧ s ≤ lastRaider) : s ∈ raiderSpawns := by
  simp only [firstRaider, lastRaider] at h
  simp only [raiderSpawns, List.mem_cons, List.not_mem_nil, or_false]
  grind

theorem mem_of_isSupplyRaider {r : Record} (h : isSupplyRaider profile r = true) :
    r.spawnId ∈ raiderSpawns ∧ r.id = r.spawnId := by
  simp only [isSupplyRaider, raiderCapability, Bool.and_eq_true, Bool.or_eq_true, beq_iff_eq,
    decide_eq_true_eq] at h
  refine ⟨?_, h.1.2⟩
  rcases h.1.1.1.1.1.2 with hspawn | hrange
  · rw [hspawn]
    decide
  · exact mem_raiderSpawns ⟨hrange.1.2, hrange.2⟩

/-- A candidate that may be taken is one that the world says is ready. -/
theorem enlistable_of_candidate {a : Candidate} (hs : s ∈ raiderSpawns) (ha : candidate profile f w s = some a)
    (heligible : eligible a = true) : a.actor.id = s ∧ Enlistable w s := by
  unfold candidate at ha
  split at ha
  · split_ifs at ha
    rw [Option.some.injEq] at ha
    obtain ⟨-, hid, -, -, -, -, -, hready⟩ := eligible_iff.mp heligible
    subst ha
    simp only [Bool.and_eq_true, Bool.not_eq_true', beq_iff_eq] at hready
    obtain ⟨⟨⟨⟨⟨⟨⟨hfree, hidle⟩, hhome⟩, hempty⟩, -⟩, -⟩, -⟩, -⟩ := hready
    exact ⟨hid, hs, hfree, hidle, hhome, hempty⟩
  · contradiction

/-- Whom a roster names. -/
theorem roster_spec (h : livingRaidPartyRoster profile f w = roster) (hne : roster ≠ []) :
    profile.defias = true ∧ w.parties.countP (!·.complete) < 2 ∧ f.record.id ∈ roster ∧
      ∀ m ∈ roster, Enlistable w m := by
  subst h
  unfold livingRaidPartyRoster at hne ⊢
  split_ifs at hne ⊢ with hraider hfull
  · contradiction
  · contradiction
  · simp only [Bool.or_eq_true, Bool.not_eq_true', not_or, Bool.not_eq_false] at hraider
    split at hne
    · contradiction
    next roster hfound =>
      split_ifs at hne with hearly
      · contradiction
      simp only [hearly, Bool.false_eq_true, if_false]
      have hhead := List.find?_some hfound
      have hmem := List.mem_of_find?_eq_some hfound
      rw [beq_iff_eq] at hhead
      refine ⟨hraider.1, by omega, List.mem_of_head? hhead, fun m hm => ?_⟩
      obtain ⟨seed, hseed, hin, hall⟩ := (form_spec _).2.2.1 roster hmem
      obtain ⟨a, ha, rfl, -⟩ := hall m hm
      obtain ⟨spawn, hs, hspawn⟩ := List.mem_filterMap.mp ha.1
      obtain ⟨hid, henlistable⟩ := enlistable_of_candidate hs hspawn ha.2.1
      rwa [hid]

/-! ### A new party -/

/-- What an enlisted raider still has of before. -/
structure Enlisted (f : Facts) (w w' : World) (m : UInt64) : Prop where
  raid : ∃ selected party, w'.raiders m = enlist f selected party (w.actors m).stolen (w.raiders m)
  stolen : (w'.actors m).stolen = (w.actors m).stolen

/-- What a refused or a successful attempt to create a party changes. -/
structure Created (profile : Profile) (f : Facts) (roster : List UInt64) (w w' : World) : Prop where
  inv : Inv profile w'
  later : Later w w'
  ledger : w'.ledger = w.ledger
  enlisted : ∀ m ∈ roster, Enlisted f w w' m
  others : ∀ m, m ∉ roster → w'.raiders m = w.raiders m ∧ w'.actors m = w.actors m
  forward : ∀ m, m ∉ roster → w'.forward (w.raiders m).partyId = true → w.forward (w.raiders m).partyId = true

theorem next_lt {n : UInt64} (h : (n == uint64Max) = false) : n < n + 1 := by
  rw [beq_eq_false_iff_ne, uint64Max] at h
  grind

theorem party_created (h : Inv profile w) (hdefias : profile.defias = true)
    (hfew : w.parties.countP (!·.complete) < 2) (hroster : ∀ m ∈ roster, m ∈ raiderSpawns ∧ unassigned w m = true)
    (hnext : (w.nextPartyId == uint64Max) = false) {source : SourceSpec} {lives : List (UInt64 × ℕ)}
    (hsource : sourceFor (w.raiders s).selectedSourceDepot true (w.raiders s).selectedRouteId = some source) :
    Created profile f roster w (forgetParties (enlistAll f
      { w with
        nextPartyId := w.nextPartyId + 1
        parties := w.parties ++ [newParty f w source roster lives] }
      (w.raiders s) (newParty f w source roster lives).coordination)) := by
  have hlt := next_lt hnext
  obtain ⟨spec, hspec, -⟩ := h.course s
  obtain ⟨-, hdepot, hroute⟩ := mem_of_sourceFor hsource
  have hspec' : spec = source := Option.some.inj ((sourceFor_true hspec).symm.trans hsource)
  subst hspec'
  set fresh := newParty f w spec roster lives with hfresh
  have hid : fresh.id = w.nextPartyId + 1 := rfl
  set w' := forgetParties (enlistAll f
    { w with nextPartyId := w.nextPartyId + 1, parties := w.parties ++ [fresh] } (w.raiders s) fresh.coordination)
    with hw'
  have hin : ∀ m ∈ roster, w'.raiders m =
      enlist f (w.raiders s) fresh.coordination (w.actors m).stolen (w.raiders m) := by
    intro m hm
    simp [hw', forgetParties, enlistAll, hfresh, newParty, hm]
  have hout : ∀ m, m ∉ roster → w'.raiders m = w.raiders m ∧ w'.actors m = w.actors m := by
    intro m hm
    simp [hw', forgetParties, enlistAll, hfresh, newParty, hm]
  have hparty : ∀ m ∈ roster, (w'.raiders m).partyId = w.nextPartyId + 1 := fun m hm => by
    rw [hin m hm]
    rfl
  have hparties : w'.parties = (w.parties ++ [fresh]).filter fun p =>
      !p.complete || raiderSpawns.any fun i => (w'.raiders i).partyId == p.id := rfl
  have hmem : ∀ p ∈ w'.parties, p ∈ w.parties ∨ p = fresh := by
    intro p hp
    rw [hparties] at hp
    simpa using List.mem_of_mem_filter hp
  have hkept : ∀ p ∈ w.parties ++ [fresh], (p.complete = false ∨ ∃ i, (w'.raiders i).partyId = p.id ∧
      i ∈ raiderSpawns) → p ∈ w'.parties := by
    rintro p hp hreferred
    rw [hparties]
    refine List.mem_filter.mpr ⟨hp, ?_⟩
    rcases hreferred with hc | ⟨i, hi, his⟩
    · simp [hc]
    · rw [Bool.or_eq_true]
      exact .inr (List.any_eq_true.mpr ⟨i, his, by simpa using hi⟩)
  have hnew : ∀ p ∈ w.parties, p.id ≠ fresh.id := by
    intro p hp heq
    have hle := (h.ids p hp).2
    rw [heq, hid] at hle
    exact absurd (UInt64.lt_of_lt_of_le hlt hle) (UInt64.lt_irrefl _)
  have hold : ∀ i, (w.raiders i).partyId ≠ fresh.id := by
    intro i heq
    obtain ⟨p, hp, hpi⟩ := h.stored i (by rw [heq, hid]; grind)
    exact hnew p hp (hpi.trans heq)
  have hidle : ∀ m ∈ roster, ∀ p ∈ w.parties, p.id = (w.raiders m).partyId → p.complete = true := by
    intro m hm p hp hpm
    have hall := (hroster m hm).2
    rw [unassigned, ← hpm, h.party_eq hp] at hall
    simpa using hall
  refine ⟨{
      ledger := h.ledger
      ids := fun p hp => ?_
      unique := ?_
      few := ?_
      guided := fun p hp => ?_
      known := fun p hp => ?_
      defias := fun _ => hdefias
      enlisted := fun i hi => ?_
      stored := fun i hi => ?_
      members := fun p hp hf m hm => ?_
      course := fun i => ?_
      shared := fun i p hp hpi hc => ?_ }, ⟨hlt.le, fun p hp => ?_⟩, rfl, fun m hm => ⟨⟨_, _, hin m hm⟩, ?_⟩,
    hout, fun m hm hf => ?_⟩
  · rcases hmem p hp with hp | rfl
    · exact ⟨(h.ids p hp).1, UInt64.le_trans (h.ids p hp).2 hlt.le⟩
    · refine ⟨?_, UInt64.le_refl _⟩
      rw [hid]
      grind
  · have hall : ((w.parties ++ [fresh]).map (·.id)).Nodup := by
      rw [List.map_append, List.nodup_append]
      refine ⟨h.unique, by simp, ?_⟩
      simp only [List.mem_map, List.map_cons, List.map_nil, List.mem_singleton]
      rintro _ ⟨p, hp, rfl⟩ _ rfl
      exact hnew p hp
    rw [hparties]
    exact hall.sublist (List.filter_sublist.map _)
  · rw [hparties]
    refine (List.filter_sublist.countP_le).trans ?_
    rw [List.countP_append]
    have hone : List.countP (fun p : PartyRuntime => !p.complete) [fresh] ≤ 1 := List.countP_le_length
    omega
  · rcases hmem p hp with hp | rfl
    · exact h.guided p hp
    · refine ⟨spec, ?_, count_pos_of_sourceFor hsource⟩
      change sourceFor spec.depot true spec.routeId = some spec
      rw [hdepot, hroute, hsource]
  · rcases hmem p hp with hp | rfl
    · exact h.known p hp
    · simp [hfresh, newParty]
  · by_cases hi' : i ∈ roster
    · exact (hroster i hi').1
    · exact h.enlisted i ((hout i hi').1 ▸ hi)
  · by_cases hi' : i ∈ roster
    · exact ⟨fresh, hkept fresh (by simp) (.inl rfl), (hparty i hi').symm⟩
    · have hsame := (hout i hi').1
      rw [hsame] at hi ⊢
      obtain ⟨p, hp, hpi⟩ := h.stored i hi
      refine ⟨p, hkept p (List.mem_append_left _ hp) (.inr ⟨i, ?_, h.enlisted i hi⟩), hpi⟩
      rw [hsame, hpi]
  · rcases hmem p hp with hp | rfl
    · have hfrom := h.members p hp hf m hm
      have hm' : m ∉ roster := by
        intro hmr
        have hc := hidle m hmr p hp hfrom.symm
        have hrank := rank_forward (h.known p hp)
        have := hrank.1.mp hf
        have := hrank.2.mp hc
        omega
      rw [(hout m hm').1, hfrom]
    · exact hparty m hm
  · by_cases hi' : i ∈ roster
    · refine ⟨spec, ?_, ?_⟩
      · rw [hin i hi']
        change sourceFor spec.depot profile.fields spec.routeId = some spec
        rw [hdepot, hroute, hspec]
      · rw [hin i hi']
        exact count_pos_of_sourceFor hsource
    · exact (hout i hi').1 ▸ h.course i
  · by_cases hi' : i ∈ roster
    · rcases hmem p hp with hp | rfl
      · exact absurd (hpi.trans (hparty i hi')) (hnew p hp)
      · rw [hin i hi']
        exact ⟨rfl, rfl⟩
    · have hsame := (hout i hi').1
      rw [hsame] at hpi ⊢
      rcases hmem p hp with hp | rfl
      · exact h.shared i p hp hpi hc
      · exact absurd hpi.symm (hold i)
  · rcases hmem p hp with hp | rfl
    · exact .inl ⟨p, hp, Onward.refl p⟩
    · exact .inr hlt
  · simp [hw', forgetParties, enlistAll, hfresh, newParty, hm]
  · rw [forward_iff] at hf ⊢
    obtain ⟨p, hp, hpm, hpf⟩ := hf
    rcases hmem p hp with hp | rfl
    · exact ⟨p, hp, hpm, hpf⟩
    · exact absurd hpm.symm (hold m)

theorem inv_nextPartyId (h : Inv profile w) (hnext : (w.nextPartyId == uint64Max) = false) :
    Inv profile { w with nextPartyId := w.nextPartyId + 1 } :=
  { h with ids := fun p hp => ⟨(h.ids p hp).1, UInt64.le_trans (h.ids p hp).2 (next_lt hnext).le⟩ }

/-- A party is created with everybody on the roster, or nothing but its number is spent. -/
theorem create_spec (h : Inv profile w) (hdefias : profile.defias = true)
    (hfew : w.parties.countP (!·.complete) < 2)
    (hroster : ∀ m ∈ roster, m ∈ raiderSpawns ∧ unassigned w m = true) {created : Bool}
    (hcreate : createLivingRaidParty profile f w roster = (created, w')) :
    if created then Created profile f roster w w'
    else w' = w ∨ ((w.nextPartyId == uint64Max) = false ∧ w' = { w with nextPartyId := w.nextPartyId + 1 }) := by
  unfold createLivingRaidParty at hcreate
  split_ifs at hcreate with hrefused
  · cases hcreate
    exact .inl rfl
  dsimp only at hcreate
  split at hcreate
  · cases hcreate
    exact .inl rfl
  next source hsource =>
    simp only [Bool.or_eq_true, not_or, Bool.not_eq_true] at hrefused
    split at hcreate
    · cases hcreate
      exact .inr ⟨hrefused.2, rfl⟩
    next lives _ =>
      cases hcreate
      exact party_created h hdefias hfew hroster hrefused.2 hsource

end AIWorld.Raid
