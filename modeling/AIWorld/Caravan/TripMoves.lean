import AIWorld.Caravan.LivingCaravan
import Mathlib.Logic.Relation

/-! What an update can do to a trip: a few kinds of moves, each with what has to hold for it, and the begin of
a new trip. Every section of the update makes such moves and no others. -/

namespace AIWorld.Caravan

open Agent (FloatOps ActionPosition)

section Moves
variable {F : Type} (ops : FloatOps F) (pair : PairSpec) (slot : Side → F × F) (f : Facts F) (w : World F)

/-! ### Moves -/

/-- Whether a member still is the one that the trip began with. -/
def original (s : State) (i : Side) : Bool :=
  (member f w i).bound && s.guids i == (f.member i).guid && s.lives i == (w.actors i).life

def bothIn (s : State) : Bool := original f w s .carrier && original f w s .escort

/-- Stages in which the food is not yet on its way. -/
def Stage.outbound : Stage → Bool
  | .rally | .toVillage | .loading => true
  | _ => false

/-- A member of the trip in peace at the waypoint. -/
def present (s : State) (i : Side) : Bool :=
  original f w s i && (member f w i).peaceful &&
    (waypointOf ops s).any fun waypoint => (target ops slot i waypoint).any (f.member i).isAt

def Gathered (s : State) : Prop := readyBarrier s = true ∧ ∀ i, present ops slot f w s i = true

/-- No member of a whole pair is in danger. -/
def Calm (s : State) : Prop := bothIn f w s = true → ∀ i, (member f w i).peaceful = true

/-- What the update does before the ordinary transitions. -/
inductive Turn : State → State → Prop
  | look {s : State} (ready : Side → Bool) : Turn s { s with ready }
  | release {s : State} (hstage : s.current = .toCity) (hlost : bothIn f w s = false) :
      Turn s { s with returningSolo := true }
  | goBack {s : State} (reason : Reason)
      (h : s.current.outbound = true ∨ (s.current ≠ .toCity ∧ ¬Calm f w s)) :
      Turn s (setPhase (returned ops s (!bothIn f w s)) .toCity f.now reason)
  | scatter {s : State} (h : ∀ i, original f w s i = false) :
      Turn s { setPhase s .recover f.now .reassembleNewLivesAtCity with waypoint := 0 }
  | regain {s : State} {waypoint : ℕ} (hstage : s.current = .recover) (h : ∃ i, original f w s i = true)
      (hwaypoint : waypoint < (route ops s.sourceDepotId).length) :
      Turn s (setPhase { s with waypoint, returningSolo := !bothIn f w s } .toCity f.now .originalLifeRecovered)

/-- The ordinary transitions, with their calls to the ledger. -/
inductive Move : State → List Flow → State → Prop
  | depart {s : State} (hstage : s.current = .rally) (h : Gathered ops slot f w s) :
      Move s [] (setPhase { s with waypoint := 1 } .toVillage f.now .departingCity)
  | advance {s : State} (hstage : s.current = .toVillage) (h : Gathered ops slot f w s)
      (hnext : s.waypoint + 1 < (route ops s.sourceDepotId).length) :
      Move s [] { s with waypoint := s.waypoint + 1, ready := fun _ => false, lastProgressAtMs := f.now }
  | arrive {s : State} (hstage : s.current = .toVillage) (h : Gathered ops slot f w s)
      (hlast : ¬ s.waypoint + 1 < (route ops s.sourceDepotId).length) :
      Move s [] (setPhase s .loading f.now .arrivedVillage)
  | load {s : State} {serial : ℕ} (hstage : s.current = .loading) (hside : f.side = .carrier)
      (hboth : bothIn f w s = true)
      (hat : ∀ i, (f.member i).isAt ((sourcePoint ops s.sourceDepotId).getD (cityPoint ops)) = true) :
      Move s [⟨.load, serial, s.sourceDepotId, f.receipt⟩]
        (setPhase (returned ops s (!bothIn f w s)) .toCity f.now
          (if f.receipt.success then .foodOnBoard else .sourceHasNoSurplus))
  | back {s : State} (hstage : s.current = .toCity) (hcalm : Calm f w s)
      (h : if s.returningSolo then s.ready f.side = true else readyBarrier s = true) (hwaypoint : s.waypoint ≠ 0) :
      Move s [] { s with waypoint := s.waypoint - 1, ready := fun _ => false, lastProgressAtMs := f.now }
  | unload {s : State} (hstage : s.current = .toCity) (hcalm : Calm f w s) (hwaypoint : s.waypoint = 0)
      (hside : f.side = .carrier) (hcargo : f.cargo ≠ 0) :
      Move s [] (setPhase s .unloading f.now .arrivedCityWithFood)
  | rest {s : State} (hstage : s.current = .toCity) (hcalm : Calm f w s) (hwaypoint : s.waypoint = 0)
      (hcargo : f.cargo = 0) :
      Move s [] { setPhase s .rest f.now .emptyReturnFinished with nextAtMs := f.now + restMs }
  | flow {s : State} {kind : Activity} {serial : ℕ} (hkind : kind ≠ .load) :
      Move s [⟨kind, serial, cityDepot, f.receipt⟩] s
  | deliver {s : State} {serial : ℕ} (hstage : s.current = .unloading) (hcalm : Calm f w s)
      (hside : f.side = .carrier) (hcargo : f.cargoAfter = 0) :
      Move s [⟨.unload, serial, cityDepot, f.receipt⟩]
        { setPhase (delivered f s) .rest f.now .deliveryFinished with nextAtMs := f.now + restMs }

/-- A new trip with the members as they are. -/
inductive Begins : State → State → Prop
  | mk {s t : State} {number : ℕ}
      (h : begin ops s pair f.now number (f.member .carrier).guid (f.member .escort).guid = some t)
      (hcargo : s.trip ≠ 0 → f.cargo = 0) : Begins s { t with lives := fun i => (w.actors i).life }

abbrev Turns : State → State → Prop := Relation.ReflTransGen (Turn ops f w)

/-- At most one transition, or a new trip. -/
inductive Outcome : State → List Flow → State → Prop
  | quiet (s : State) : Outcome s [] s
  | moves {s t : State} {flows : List Flow} (h : Move ops slot f w s flows t) : Outcome s flows t
  | begins {s t : State} (h : Begins ops pair f w s t) : Outcome s [] t

end Moves

section Rules
variable {F : Type} {ops : FloatOps F} {pair : PairSpec} {slot : Side → F × F} {f : Facts F} {w : World F}
  {s t u : State} {flows : List Flow}

/-- What belongs to the trip and not to its stage. -/
structure Keeps (s t : State) : Prop where
  trip : t.trip = s.trip
  source : t.sourceDepotId = s.sourceDepotId
  guids : t.guids = s.guids
  lives : t.lives = s.lives

theorem Turn.keeps (h : Turn ops f w s t) : Keeps s t := by
  cases h <;> exact ⟨rfl, rfl, rfl, rfl⟩

theorem Move.keeps (h : Move ops slot f w s flows t) : Keeps s t := by
  cases h <;> exact ⟨rfl, rfl, rfl, rfl⟩

theorem Keeps.trans (h : Keeps s t) (h' : Keeps t u) : Keeps s u :=
  ⟨h'.trip.trans h.trip, h'.source.trans h.source, h'.guids.trans h.guids, h'.lives.trans h.lives⟩

theorem Turns.keeps (h : Turns ops f w s t) : Keeps s t := by
  induction h with
  | refl => exact ⟨rfl, rfl, rfl, rfl⟩
  | tail _ hturn ih => exact ih.trans hturn.keeps

theorem Keeps.original (h : Keeps s t) : original f w t = original f w s := by
  funext i
  rw [Caravan.original, Caravan.original, h.guids, h.lives]

theorem Keeps.bothIn (h : Keeps s t) : bothIn f w t = bothIn f w s := by
  rw [Caravan.bothIn, Caravan.bothIn, h.original]

theorem Keeps.calm (h : Keeps s t) : Calm f w t ↔ Calm f w s := by
  rw [Calm, Calm, h.bothIn]

/-! ### Begins -/

/-- What a new trip begins with. -/
structure Fresh (ops : FloatOps F) (s t : State) (number carrier escort : ℕ) : Prop where
  trip : t.trip = number
  later : s.trip < t.trip
  stage : t.current = .rally
  waypoint : t.waypoint = 0
  source : validRoute ops t.sourceDepotId = true
  guids : t.guids .carrier = carrier ∧ t.guids .escort = escort
  completed : t.completedTrips = s.completedTrips
  paired : t.returningSolo = false

theorem begin_fresh {now number carrier escort : ℕ} (h : begin ops s pair now number carrier escort = some t) :
    Fresh ops s t number carrier escort := by
  unfold begin at h
  cases hpair : findPair pair.id with
  | none =>
    simp [hpair] at h
  | some registered =>
    simp only [hpair] at h
    rw [Option.ite_none_left_eq_some] at h
    obtain ⟨hrefused, hbegun⟩ := h
    rw [Option.ite_none_left_eq_some] at hbegun
    obtain ⟨hroute, hbegun⟩ := hbegun
    cases hbegun
    have hlater : ¬number ≤ s.trip := fun h => hrefused (by simp only [h, true_or, or_true])
    exact ⟨rfl, Nat.lt_of_not_le hlater, rfl, rfl, Bool.not_eq_false _ ▸ hroute, ⟨rfl, rfl⟩, rfl, rfl⟩

theorem Begins.fresh (h : Begins ops pair f w s t) : Fresh ops s t t.trip (f.member .carrier).guid (f.member .escort).guid := by
  obtain ⟨hbegin, -⟩ := h
  have hfresh := begin_fresh hbegin
  exact ⟨rfl, hfresh.later, hfresh.stage, hfresh.waypoint, hfresh.source, hfresh.guids, hfresh.completed,
    hfresh.paired⟩

theorem Begins.trip_ne_zero (h : Begins ops pair f w s t) : t.trip ≠ 0 := Nat.ne_zero_of_lt h.fresh.later

theorem Begins.lives (h : Begins ops pair f w s t) (i : Side) : t.lives i = (w.actors i).life := by
  obtain ⟨-, -⟩ := h
  rfl

theorem Begins.guids (h : Begins ops pair f w s t) (i : Side) : t.guids i = (f.member i).guid := by
  cases i
  · exact h.fresh.guids.1
  · exact h.fresh.guids.2

theorem Begins.original (h : Begins ops pair f w s t) (i : Side) :
    original f w t i = (member f w i).bound := by
  rw [Caravan.original, h.guids, h.lives]
  simp

end Rules

end AIWorld.Caravan
