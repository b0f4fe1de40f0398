import AIWorld.Caravan.SectionMoves

/-! A survivor that was released to travel alone. The flag stays for the rest of the trip, unless both members
are found to be the original ones again at a point where the way back is taken up anew. -/

namespace AIWorld.Caravan

open Agent (FloatOps ActionPosition)
open Lib (Machine)

variable {F : Type} {ops : FloatOps F} {pair : PairSpec} {slot : Side → F × F} {f : Facts F} {w w' : World F}
  {s t u : State} {flows flows' : List Flow}

/-! ### Moves of a released trip -/

/-- Only a trip on its way back is released. -/
def ReleasedBack (s : State) : Prop := s.returningSolo = true → s.current.outbound = false ∧ s.trip ≠ 0

theorem Turn.releasedBack (hbegun : s.trip ≠ 0) (hs : ReleasedBack s) (h : Turn ops f w s t) : ReleasedBack t := by
  refine fun ht => ⟨?_, h.keeps.trip ▸ hbegun⟩
  cases h with
  | look => exact (hs ht).1
  | release hstage _ =>
    simp only [hstage]
    rfl
  | goBack | scatter | regain => rfl

theorem Move.releasedBack (hbegun : s.trip ≠ 0) (hs : ReleasedBack s) (h : Move ops slot f w s flows t) :
    ReleasedBack t := by
  refine fun ht => ⟨?_, h.keeps.trip ▸ hbegun⟩
  cases h with
  | flow => exact (hs ht).1
  | back hstage _ _ _ =>
    simp only [hstage]
    rfl
  | load | deliver | unload | rest => rfl
  | depart hstage _ | advance hstage _ _ | arrive hstage _ _ =>
    have hback := (hs ht).1
    rw [hstage] at hback
    contradiction

theorem kept_releasedBack : Kept ops pair slot f w ReleasedBack where
  look _ hs := hs
  turn := Turn.releasedBack
  move := Move.releasedBack
  begins h hsolo := by simp [h.fresh.paired] at hsolo

/-- Where a released trip has both its members, its way back goes on as it is. -/
def Held (f : Facts F) (w : World F) (s : State) : Prop :=
  bothIn f w s = true → s.current ≠ .recover ∧ (s.current = .toCity ∨ Calm f w s)

theorem Turn.solo (h : Turn ops f w s t) (hback : s.current.outbound = false) (hheld : Held f w s)
    (hsolo : s.returningSolo = true) : t.returningSolo = true ∧ Held f w t := by
  cases h with
  | look => exact ⟨hsolo, hheld⟩
  | release hstage hlost => exact ⟨rfl, fun _ => ⟨by simp [hstage], .inl hstage⟩⟩
  | goBack reason h =>
    obtain ⟨hcity, hdanger⟩ := h.resolve_left (by simp [hback])
    have hboth : bothIn f w s = true := by
      by_contra hboth
      exact hdanger fun h => absurd h hboth
    exact absurd ((hheld hboth).2.resolve_left hcity) hdanger
  | scatter h =>
    refine ⟨hsolo, fun hboth => ?_⟩
    have hlost : bothIn f w s = false := by simp [bothIn, h]
    exact absurd (hlost.symm.trans hboth) (by simp)
  | regain hstage =>
    have hboth : bothIn f w s = false := Bool.eq_false_iff.mpr fun h => (hheld h).1 hstage
    exact ⟨by simp [setPhase, hboth], fun _ => ⟨by simp [setPhase], .inl rfl⟩⟩

theorem Turns.solo (h : Turns ops f w s t) (hback : ReleasedBack s) (hheld : Held f w s)
    (hsolo : s.returningSolo = true) : t.returningSolo = true ∧ ReleasedBack t := by
  have hall : t.returningSolo = true ∧ Held f w t ∧ ReleasedBack t := by
    induction h with
    | refl => exact ⟨hsolo, hheld, hback⟩
    | tail _ hturn ih =>
      obtain ⟨hsolo', hheld', hback'⟩ := ih
      obtain ⟨hsolo'', hheld''⟩ := hturn.solo (hback' hsolo').1 hheld' hsolo'
      exact ⟨hsolo'', hheld'', hturn.releasedBack (hback' hsolo').2 hback'⟩
  exact ⟨hall.1, hall.2.2⟩

theorem Move.solo (h : Move ops slot f w s flows t) (hback : s.current.outbound = false)
    (hsolo : s.returningSolo = true) : t.returningSolo = true := by
  cases h with
  | depart hstage _ | advance hstage _ _ | arrive hstage _ _ | load hstage _ _ _ =>
    rw [hstage] at hback
    contradiction
  | back | unload | rest | flow | deliver => exact hsolo

/-! ### Updates -/

/-- A member in peace finds both original lives, and the way back of the released trip is taken up anew:
from the recovery, or from the city with the other member in danger. -/
def Rejoins (f : Facts F) (w : World F) : Prop :=
  f.bound = true ∧ f.stored = true ∧ (member f w f.side).peaceful = true ∧ w.trip.returningSolo = true ∧
    bothIn f w w.trip = true ∧ (w.trip.current = .recover ∨ (w.trip.current ≠ .toCity ∧ ¬Calm f w w.trip))

theorem update_reached (h : ¬(f.bound = true ∧ f.stored = true ∧ (member f w f.side).peaceful = true)) :
    (updateLivingCaravan ops pair slot f w).2.trip.returningSolo = w.trip.returningSolo := by
  unfold updateLivingCaravan
  dsimp only
  split_ifs with hbound hstored hpeaceful
  · rfl
  · rfl
  · rfl
  · rw [not_or, Bool.not_eq_false] at hstored
    exact absurd ⟨Bool.not_eq_false _ ▸ hbound, hstored.1, Bool.not_eq_false _ ▸ hpeaceful⟩ h

theorem update_solo (hback : ReleasedBack w.trip) (hstays : ¬Rejoins f w) (hsolo : w.trip.returningSolo = true)
    (hsame : (updateLivingCaravan ops pair slot f w).2.trip.trip = w.trip.trip) :
    (updateLivingCaravan ops pair slot f w).2.trip.returningSolo = true := by
  by_cases hreached : f.bound = true ∧ f.stored = true ∧ (member f w f.side).peaceful = true
  · have hheld : Held f w w.trip := by
      intro hboth
      have hnot : ¬(w.trip.current = .recover ∨ (w.trip.current ≠ .toCity ∧ ¬Calm f w w.trip)) := fun h =>
        hstays ⟨hreached.1, hreached.2.1, hreached.2.2, hsolo, hboth, h⟩
      rw [not_or, not_and_or, not_not, not_not] at hnot
      exact hnot
    obtain ⟨flows, hchanges, -⟩ := update_changes ops pair slot f w
    obtain ⟨ready, hidle, -⟩ | ⟨m, hturns, hmove⟩ := hchanges.same_trip hsame
    · rw [hidle, hsolo]
    · obtain ⟨hsolo', hback'⟩ := Turns.solo hturns hback hheld hsolo
      rcases hmove with ⟨hm, -⟩ | hmove
      · rw [hm, hsolo']
      · exact hmove.solo (hback' hsolo').1 hsolo'
  · rw [update_reached hreached, hsolo]

/-! ### A member alone at the waypoint -/

/-- A member of the trip with nothing to do stands at the waypoint, and no whole pair is in danger. Of the other
member nothing else is asked. -/
structure Alone (ops : FloatOps F) (slot : Side → F × F) (f : Facts F) (w : World F) : Prop where
  bound : f.bound = true
  stored : f.stored = true
  original : original f w w.trip f.side = true
  peaceful : (member f w f.side).peaceful = true
  calm : Calm f w w.trip
  idle : (f.member f.side).record.phase = .idle
  free : (f.member f.side).record.action = none ∧ (f.member f.side).record.goal = none
  due : f.food.nextAtMs ≤ f.now ∧ (f.member f.side).record.nextDecisionAtMs ≤ f.now
  stands : ∃ wp ∈ waypointOf ops w.trip, ∃ point ∈ target ops slot f.side wp, (f.member f.side).isAt point = true

section Alone
variable {c : Call F}

theorem loseMembers_alone (h : Alone ops slot f w) (hstage : c.trip.current = .toCity)
    (hsolo : c.trip.returningSolo = true) : loseMembers ops f (member f w) c = c := by
  have hrefresh : ∀ a b, refreshReturnMode c.trip a b = c.trip := by
    intro a b
    unfold refreshReturnMode
    split_ifs
    · rw [← hsolo]
    · rfl
  have hside : ¬((member f w .carrier).original = false ∧ (member f w .escort).original = false ∧
      c.trip.current ≠ .recover) := by
    rintro ⟨hcarrier, hescort, -⟩
    have horiginal : (member f w f.side).original = true := h.original
    cases hi : f.side <;> simp_all
  have hsame : c.setTrip c.trip = c := rfl
  unfold loseMembers
  dsimp only
  rw [hrefresh, hsame, if_neg (show ¬(_ ∧ c.trip.current ≠ .toCity ∧ _) from fun h => h.2.1 hstage), if_neg hside]

theorem recoverOriginal_alone (hstage : c.trip.current = .toCity) : recoverOriginal ops f (member f w) c = c :=
  if_neg (by simp [hstage])

theorem danger_alone (h : Alone ops slot f w) (hc : c.trip = w.trip) : danger ops f (member f w) c = .go c := by
  have hsees : Sees f w (member f w) c.trip := by
    rw [hc]
    exact sees_member
  exact if_neg fun hdanger => not_calm hsees hdanger (hc ▸ h.calm)

theorem timeout_alone (hstage : c.trip.current = .toCity) : timeout ops f (member f w) c = c :=
  if_neg (by simp [hstage])

theorem movement_alone (hidle : (c.records f.side).phase = .idle) : movement f c = .go c :=
  if_neg (by simp [hidle])

theorem checkRoute_alone {wp : Waypoint F} (hstage : c.trip.current = .toCity)
    (hwp : waypointOf ops c.trip = some wp) : checkRoute ops f c = .go c := by
  rw [waypointOf, if_neg (by simp [hstage, cityPhase])] at hwp
  obtain ⟨hlt, -⟩ := List.getElem?_eq_some_iff.mp hwp
  exact if_neg (Nat.not_le.mpr hlt)

theorem perform_alone (hidle : (c.records f.side).phase = .idle) : perform ops f (member f w) c = .go c :=
  if_neg (by simp [hidle])

theorem takeRole_alone (hidle : (c.records f.side).phase = .idle) (haction : (c.records f.side).action = none)
    (hgoal : (c.records f.side).goal = none) (hfood : c.food.nextAtMs ≤ f.now)
    (hdecision : (c.records f.side).nextDecisionAtMs ≤ f.now) :
    takeRole f c = .go (c.setActor f.side (clearActivity (c.actors f.side))) := by
  have hkeep : (if ((c.records f.side).phase = .moving ∨ (c.records f.side).phase = .acting) ∧
      ownRole (c.records f.side) = true then finish f 0 c else c) = c := if_neg (by simp [hidle])
  have hdue : ¬(f.now < c.food.nextAtMs ∨ f.now < (c.records f.side).nextDecisionAtMs) := by omega
  unfold takeRole
  dsimp only
  rw [hkeep, if_neg (by simp [hidle, haction, hgoal])]
  exact if_neg hdue

theorem rejoin_alone (horiginal : (member f w f.side).original = true) (hstage : c.trip.current = .toCity) :
    rejoin ops pair f (member f w) c = .go c := if_pos ⟨horiginal, by simp [hstage]⟩

theorem travelOn_alone {wp : Waypoint F} {point : ActionPosition F} (hstage : c.trip.current = .toCity)
    (hsolo : c.trip.returningSolo = true) (hwaypoint : c.trip.waypoint ≠ 0) (hwp : waypointOf ops c.trip = some wp)
    (hpoint : target ops slot f.side wp = some point) (hat : (f.member f.side).isAt point = true)
    (hready : readyAt ops slot f (member f w) c wp f.side = true) :
    (travelOn ops pair slot f (member f w) c).result.2.trip.waypoint = c.trip.waypoint - 1 := by
  have htask : ∀ ready, task ops f point { c.trip with ready } = none := by
    intro ready
    simp [task, hstage]
  unfold travelOn
  simp only [hwp, hpoint, hat, Bool.true_eq_false, if_false, Call.setTrip, htask]
  simp only [advance, hstage, hsolo, if_true, hready, hwaypoint, ne_eq, not_false_eq_true]
  rfl

/-- In the city's direction the readiness of one member of a released trip is enough. -/
theorem update_alone (h : Alone ops slot f w) (htrip : w.trip.trip ≠ 0) (hstage : w.trip.current = .toCity)
    (hsolo : w.trip.returningSolo = true) (hwaypoint : w.trip.waypoint ≠ 0) :
    (updateLivingCaravan ops pair slot f w).2.trip.waypoint = w.trip.waypoint - 1 := by
  obtain ⟨wp, hwp, point, hpoint, hat⟩ := h.stands
  have hbound := bound_of_peaceful h.peaceful
  simp only [member, Bool.and_eq_true, beq_iff_eq] at hbound
  obtain ⟨⟨⟨⟨⟨-, hlive⟩, -⟩, hguid⟩, hfood⟩, hfoodGuid⟩ := hbound
  have hknown : ¬(f.stored = false ∨ (w.actors f.side).live = false ∨
      (w.actors f.side).guid ≠ (f.member f.side).guid ∨ (f.member f.side).foodLive = false ∨
      (f.member f.side).foodGuid ≠ (f.member f.side).guid) := by
    simp [h.stored, hlive, hguid, hfood, hfoodGuid]
  unfold updateLivingCaravan
  dsimp only
  rw [if_neg (by simp [h.bound]), if_neg hknown, if_neg (by simp [h.peaceful])]
  unfold sections
  dsimp only [firstTrip]
  rw [if_pos htrip]
  dsimp only [Next.andThen]
  rw [if_neg htrip, loseMembers_alone h hstage hsolo, recoverOriginal_alone hstage, danger_alone h rfl]
  dsimp only
  rw [timeout_alone hstage, movement_alone h.idle]
  dsimp only
  rw [checkRoute_alone hstage hwp]
  dsimp only
  rw [perform_alone h.idle]
  dsimp only
  rw [takeRole_alone h.idle h.free.1 h.free.2 h.due.1 h.due.2]
  dsimp only
  rw [rejoin_alone h.original hstage]
  refine travelOn_alone hstage hsolo hwaypoint hwp hpoint hat ?_
  have horiginal : (member f w f.side).original = true := h.original
  simp only [readyAt, Bool.and_eq_true, beq_iff_eq, Option.isNone_iff_eq_none]
  refine ⟨⟨⟨⟨horiginal, h.peaceful⟩, ?_⟩, h.idle⟩, h.free.1⟩
  rw [Option.mem_def.mp hpoint]
  exact hat

end Alone

/-! ### Runs -/

abbrev CaravanEvent (F : Type) := Lib.Event (World F) (Input F) (Bool × Option Flow)

/-- No member rejoins a trip of which the other was released. -/
def Stays (e : CaravanEvent F) : Prop := ∀ f, e.input = .update f → ¬Rejoins f e.pre

theorem step_releasedBack {w w' : World F} {i : Input F} {o : Bool × Option Flow} (hw : ReleasedBack w.trip)
    (hstep : (caravan ops pair slot).step w i = some (o, w')) : ReleasedBack w'.trip := by
  cases i with
  | update f =>
    cases hstep
    obtain ⟨flows, hchanges, -⟩ := update_changes ops pair slot f w
    exact kept_releasedBack.changes hchanges hw
  | observe i stored foodLive foodGuid =>
    cases hstep
    unfold observeCaravanLife
    split_ifs <;> exact hw
  | numbers n =>
    cases hstep
    exact hw

theorem step_trip_le {w w' : World F} {i : Input F} {o : Bool × Option Flow}
    (hstep : (caravan ops pair slot).step w i = some (o, w')) : w.trip.trip ≤ w'.trip.trip := by
  cases i with
  | update f =>
    cases hstep
    obtain ⟨flows, hchanges, -⟩ := update_changes ops pair slot f w
    exact hchanges.trip_le
  | observe i stored foodLive foodGuid =>
    cases hstep
    unfold observeCaravanLife
    split_ifs <;> exact le_rfl
  | numbers n =>
    cases hstep
    exact le_rfl

theorem step_solo {w w' : World F} {i : Input F} {o : Bool × Option Flow} (hback : ReleasedBack w.trip)
    (hstays : ∀ f, i = .update f → ¬Rejoins f w) (hstep : (caravan ops pair slot).step w i = some (o, w'))
    (hsolo : w.trip.returningSolo = true) (hsame : w'.trip.trip = w.trip.trip) : w'.trip.returningSolo = true := by
  cases i with
  | update f =>
    cases hstep
    exact update_solo hback (hstays f rfl) hsolo hsame
  | observe i stored foodLive foodGuid =>
    cases hstep
    unfold observeCaravanLife
    split_ifs <;> exact hsolo
  | numbers n =>
    cases hstep
    exact hsolo

theorem run_trip_le {tr : List (CaravanEvent F)} (h : (caravan ops pair slot).Run w tr w') :
    w.trip.trip ≤ w'.trip.trip := by
  induction h with
  | nil => exact le_rfl
  | cons hstep _ ih => exact (step_trip_le hstep).trans ih

theorem run_solo {tr : List (CaravanEvent F)} (h : (caravan ops pair slot).Run w tr w') (hback : ReleasedBack w.trip)
    (hstays : ∀ e ∈ tr, Stays e) (hsolo : w.trip.returningSolo = true) (hsame : w'.trip.trip = w.trip.trip) :
    w'.trip.returningSolo = true := by
  induction h with
  | nil => exact hsolo
  | @cons s m s' i o tr hstep hrun ih =>
    obtain ⟨hfirst, hrest⟩ := List.forall_mem_cons.mp hstays
    have hle := step_trip_le hstep
    have hle' := run_trip_le hrun
    have hmid : m.trip.trip = s.trip.trip := by omega
    have hsolo' : m.trip.returningSolo = true := step_solo hback hfirst hstep hsolo hmid
    exact ih (step_releasedBack hback hstep) hrest hsolo' (by omega)

theorem releasedBack_initial (point : ActionPosition F) : ReleasedBack (World.initial point).trip := fun h => by
  simp [World.initial] at h

theorem run_releasedBack {tr : List (CaravanEvent F)} (h : (caravan ops pair slot).Run w tr w')
    (hw : ReleasedBack w.trip) : ReleasedBack w'.trip :=
  h.invariant (P := fun w => ReleasedBack w.trip) (fun _ _ _ _ hs hstep => step_releasedBack hs hstep) hw

/-- While nobody rejoins, a released trip stays released until the next one begins, and on the way to the city
the readiness of one member moves it on. -/
theorem solo_sticks (point : ActionPosition F) {tr tr' : List (CaravanEvent F)}
    (h : (caravan ops pair slot).Run (World.initial point) tr w) (h' : (caravan ops pair slot).Run w tr' w')
    (hstays : ∀ e ∈ tr', Stays e) (hsolo : w.trip.returningSolo = true) (hsame : w'.trip.trip = w.trip.trip) :
    w'.trip.returningSolo = true ∧
      (w'.trip.current = .toCity → w'.trip.waypoint ≠ 0 → ∀ f, Alone ops slot f w' →
        (updateLivingCaravan ops pair slot f w').2.trip.waypoint = w'.trip.waypoint - 1) := by
  have hback := run_releasedBack h (releasedBack_initial point)
  have hsolo' := run_solo h' hback hstays hsolo hsame
  refine ⟨hsolo', fun hstage hwaypoint f halone => ?_⟩
  exact update_alone halone ((run_releasedBack h' hback) hsolo').2 hstage hsolo' hwaypoint

/-! ### A trip that is joined again -/

/-- The integer part of a square root, digit by digit in base four. -/
def root : ℕ → ℕ → ℕ
  | 0, _ => 0
  | digits + 1, n =>
    let r := 2 * root digits (n / 4)
    if (r + 1) * (r + 1) ≤ n then r + 1 else r

theorem eq_decimal {x : ℚ} (_ : true = true) : decide (x = x) = true := decide_eq_true rfl

/-- Exact decimals; lengths are known to three digits. -/
def decimalFloats : FloatOps ℚ where
  lit := id
  add := (· + ·)
  sub := (· - ·)
  mul := (· * ·)
  div := (· / ·)
  abs := fun x => if x < 0 then -x else x
  hypot := fun x y => (root 40 ((x * x + y * y) * 1000000).floor.toNat : ℚ) / 1000
  hypot3 := fun x y z => (root 40 ((x * x + y * y + z * z) * 1000000).floor.toNat : ℚ) / 1000
  ceil := fun x => x.ceil.toNat
  roundQuotient := fun x q => some (x / q + 1 / 2).floor
  isFinite := fun _ => true
  lt := fun x y => x < y
  le := fun x y => x ≤ y
  eq := fun x y => x = y
  eq_self := @eq_decimal

def merchants : PairSpec := ⟨1, 901040, .merchant, 901042, (4, 5)⟩

/-- Two places side by side. -/
def sampleSlot : Side → ℚ × ℚ
  | .carrier => (3 / 2, 0)
  | .escort => (-3 / 2, 0)

/-- A member that stands in the city with nothing to do. -/
def resident (guid : ℕ) : MemberFacts ℚ where
  found := true
  admitted := true
  guid := guid
  foodLive := true
  foodGuid := guid
  fighting := false
  record := {}
  isAt := fun p => p = cityPoint decimalFloats
  nearer := fun _ _ => false

/-- The carrier's call while the escort is as given. -/
def carrierCall (now : ℕ) (escort : MemberFacts ℚ) : Facts ℚ where
  now := now
  clock := now
  side := .carrier
  bound := true
  stored := true
  member := fun i => match i with | .carrier => resident 1 | .escort => escort
  food := {}
  reached := false
  underway := false
  upright := true
  step := fun _ => none
  deferred := false
  started := false
  attempted := {}
  receipt := {}
  cargo := 0
  cargoAfter := 0
  city := none
  hungry := false

def bothThere : Facts ℚ := carrierCall 1000 (resident 2)

def escortAway : Facts ℚ := carrierCall 2000 { resident 2 with admitted := false }

def escortStillAway : Facts ℚ := carrierCall 3000 { resident 2 with admitted := false }

def escortFights : Facts ℚ := carrierCall 3000 { resident 2 with fighting := true }

def sampleUpdate (f : Facts ℚ) (w : World ℚ) : World ℚ :=
  (updateLivingCaravan decimalFloats merchants sampleSlot f w).2.toWorld

/-- Both members live, begin a trip, and the escort goes out of sight. -/
def lonely : World ℚ :=
  sampleUpdate escortAway (sampleUpdate bothThere (observeCaravanLife (observeCaravanLife
    (World.initial (cityPoint decimalFloats)) .carrier true true 1) .escort true true 2))

theorem run_lonely : ∃ tr, (caravan decimalFloats merchants sampleSlot).Run
    (World.initial (cityPoint decimalFloats)) tr lonely :=
  ⟨_, .cons (i := .observe .carrier true true 1) rfl <| .cons (i := .observe .escort true true 2) rfl <|
    .cons (i := .update bothThere) rfl <| .cons (i := .update escortAway) rfl <| .nil _⟩

theorem run_update (f : Facts ℚ) (w : World ℚ) : ∃ o, (caravan decimalFloats merchants sampleSlot).Run w
    [⟨w, .update f, o, sampleUpdate f w⟩] (sampleUpdate f w) := ⟨_, .cons rfl (.nil _)⟩

/-- The released carrier rests in the city when the escort comes into sight again in a fight: the carrier
turns back as one of a pair. -/
theorem solo_dropped : ¬∀ (w w' : World ℚ) (tr tr' : List (CaravanEvent ℚ)),
    (caravan decimalFloats merchants sampleSlot).Run (World.initial (cityPoint decimalFloats)) tr w →
    (caravan decimalFloats merchants sampleSlot).Run w tr' w' → w.trip.returningSolo = true →
    w'.trip.trip = w.trip.trip → w'.trip.returningSolo = true := by
  intro h
  obtain ⟨tr, hrun⟩ := run_lonely
  obtain ⟨o, hrun'⟩ := run_update escortFights lonely
  have hsolo := h lonely (sampleUpdate escortFights lonely) tr _ hrun hrun' (by decide +kernel) (by decide +kernel)
  revert hsolo
  decide +kernel

theorem solo_sticks_lonely : (sampleUpdate escortStillAway lonely).trip.returningSolo = true := by
  obtain ⟨tr, hrun⟩ := run_lonely
  obtain ⟨o, hrun'⟩ := run_update escortStillAway lonely
  have halone : bothIn escortStillAway lonely lonely.trip = false := by decide +kernel
  refine (solo_sticks (cityPoint decimalFloats) hrun hrun' ?_ (by decide +kernel) (by decide +kernel)).1
  intro e he f hf hrejoins
  rw [List.mem_singleton.mp he] at hf hrejoins
  cases hf
  exact absurd (halone.symm.trans hrejoins.2.2.2.2.1) (by simp)

end AIWorld.Caravan
