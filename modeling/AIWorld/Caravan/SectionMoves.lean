import AIWorld.Caravan.TripMoves

/-! The sections of the update, each as the moves it makes of the trip. -/

namespace AIWorld.Caravan

open Agent (FloatOps ActionPosition)

variable {F : Type} {ops : FloatOps F} {pair : PairSpec} {slot : Side → F × F} {f : Facts F} {w : World F}
  {ms : Side → Member} {c c' c'' : Call F} {n : Next F}

/-! ### What a call leaves alone -/

/-- No call to the ledger, and nobody's life counted. -/
structure Frame (c c' : Call F) : Prop where
  flow : c'.flow = c.flow
  lives : ∀ i, (c'.actors i).life = (c.actors i).life

theorem Frame.refl (c : Call F) : Frame c c := ⟨rfl, fun _ => rfl⟩

theorem Frame.trans (h : Frame c c') (h' : Frame c' c'') : Frame c c'' :=
  ⟨h'.flow.trans h.flow, fun i => (h'.lives i).trans (h.lives i)⟩

theorem frame_setTrip (s : State) : Frame c (c.setTrip s) := ⟨rfl, fun _ => rfl⟩

theorem frame_setRecord (i : Side) (r : Record) : Frame c (c.setRecord i r) := ⟨rfl, fun _ => rfl⟩

theorem frame_setReady (i : Side) (ready : Bool) : Frame c (c.setReady i ready) := frame_setTrip _

theorem frame_setActor {i : Side} {actor : ActorState F} (h : actor.life = (c.actors i).life) :
    Frame c (c.setActor i actor) := by
  refine ⟨rfl, fun j => ?_⟩
  change (Function.update c.actors i actor j).life = _
  by_cases hj : j = i
  · subst hj
    rw [Function.update_self, h]
  · rw [Function.update_of_ne hj]

theorem frame_wait (delay : ℕ) : Frame c (c.wait f delay) := ⟨rfl, fun _ => rfl⟩

theorem frame_stopOwned (i : Side) : Frame c (stopOwned f ms i c) := by
  unfold stopOwned
  split_ifs
  · exact .refl c
  · exact (frame_setRecord i _).trans (frame_setActor rfl)

theorem stopOwned_trip (i : Side) : (stopOwned f ms i c).trip = c.trip := by
  unfold stopOwned
  split_ifs <;> rfl

theorem frame_phase (next : Stage) (reason : Reason) : Frame c (phase f ms next reason c) :=
  ((frame_stopOwned .carrier).trans (frame_stopOwned .escort)).trans (frame_setTrip _)

theorem phase_trip (next : Stage) (reason : Reason) :
    (phase f ms next reason c).trip = setPhase c.trip next f.now reason := rfl

theorem frame_returnToCity (reason : Reason) : Frame c (returnToCity ops f ms reason c) :=
  (frame_setTrip _).trans (frame_phase _ _)

theorem returnToCity_trip (reason : Reason) : (returnToCity ops f ms reason c).trip =
    setPhase (returned ops c.trip (!bothOriginal ms)) .toCity f.now reason := rfl

theorem frame_repose (reason : Reason) : Frame c (repose f ms reason c) :=
  (frame_phase _ _).trans (frame_setTrip _)

theorem repose_trip (reason : Reason) : (repose f ms reason c).trip =
    { setPhase c.trip .rest f.now reason with nextAtMs := f.now + restMs } := rfl

theorem frame_finish (delay : ℕ) : Frame c (finish f delay c) := by
  refine ((frame_setRecord _ _).trans (frame_setActor ?_)).trans (frame_wait delay)
  rfl

theorem finish_trip (delay : ℕ) : (finish f delay c).trip = c.trip := rfl

/-! ### Sections as moves -/

/-- The members as the update sees them are those of the trip. -/
structure Sees (f : Facts F) (w : World F) (ms : Side → Member) (s : State) : Prop where
  original : ∀ i, (ms i).original = original f w s i
  bound : ∀ i, (ms i).bound = (member f w i).bound
  peaceful : ∀ i, (ms i).peaceful = (member f w i).peaceful

theorem Sees.bothOriginal {s : State} (h : Sees f w ms s) : bothOriginal ms = bothIn f w s := by
  rw [Caravan.bothOriginal, bothIn, h.original, h.original]

theorem Sees.keeps {s t : State} (h : Sees f w ms s) (hkeeps : Keeps s t) : Sees f w ms t :=
  ⟨fun i => by rw [h.original, hkeeps.original], h.bound, h.peaceful⟩

/-- No ordinary transition and no call to the ledger. -/
structure Holds (ops : FloatOps F) (f : Facts F) (w : World F) (c c' : Call F) : Prop where
  turns : Turns ops f w c.trip c'.trip
  frame : Frame c c'

theorem Holds.refl (c : Call F) : Holds ops f w c c := ⟨.refl, .refl c⟩

theorem Holds.trans (h : Holds ops f w c c') (h' : Holds ops f w c' c'') : Holds ops f w c c'' :=
  ⟨h.turns.trans h'.turns, h.frame.trans h'.frame⟩

theorem Holds.of_trip (htrip : c'.trip = c.trip) (hframe : Frame c c') : Holds ops f w c c' :=
  ⟨htrip ▸ .refl, hframe⟩

theorem Holds.of_turn (h : Turn ops f w c.trip c'.trip) (hframe : Frame c c') : Holds ops f w c c' :=
  ⟨.single h, hframe⟩

theorem Holds.sees (h : Holds ops f w c c') (hsees : Sees f w ms c.trip) : Sees f w ms c'.trip :=
  hsees.keeps (Turns.keeps h.turns)

/-- What the rest of an update does to the trip, with its calls to the ledger. -/
def Leads (ops : FloatOps F) (pair : PairSpec) (slot : Side → F × F) (f : Facts F) (w : World F)
    (c c' : Call F) : Prop :=
  ∃ t flows, Turns ops f w c.trip t ∧ Outcome ops pair slot f w t flows c'.trip ∧
    c'.flow.toList = c.flow.toList ++ flows

theorem Holds.leads (h : Holds ops f w c c') : Leads ops pair slot f w c c' :=
  ⟨_, [], h.turns, .quiet _, by rw [h.frame.flow, List.append_nil]⟩

theorem Holds.trans_leads (h : Holds ops f w c c') (h' : Leads ops pair slot f w c' c'') :
    Leads ops pair slot f w c c'' := by
  obtain ⟨t, flows, hturns, houtcome, hflow⟩ := h'
  exact ⟨t, flows, h.turns.trans hturns, houtcome, by rw [hflow, h.frame.flow]⟩

theorem Leads.of_move {flows : List Flow} (h : Move ops slot f w c.trip flows c'.trip)
    (hflow : c'.flow.toList = c.flow.toList ++ flows) : Leads ops pair slot f w c c' :=
  ⟨_, flows, .refl, .moves h, hflow⟩

theorem Leads.of_frame (h : Move ops slot f w c.trip [] c'.trip) (hframe : Frame c c') :
    Leads ops pair slot f w c c' := .of_move h (by rw [hframe.flow, List.append_nil])

theorem Leads.decide (h : Leads ops pair slot f w c c') (delay : ℕ) : Leads ops pair slot f w c (c'.decide f delay) := h

/-- Every way out of a section. -/
inductive Passes (ops : FloatOps F) (pair : PairSpec) (slot : Side → F × F) (f : Facts F) (w : World F)
    (c : Call F) : Next F → Prop
  | done {handled : Bool} {c' : Call F} (h : Leads ops pair slot f w c c') : Passes ops pair slot f w c (.done handled c')
  | go {c' : Call F} (h : Holds ops f w c c') : Passes ops pair slot f w c (.go c')

theorem Passes.andThen {k : Call F → Next F} (h : Passes ops pair slot f w c n)
    (hk : ∀ c', n = .go c' → Holds ops f w c c' → Leads ops pair slot f w c' (k c').result.2) :
    Leads ops pair slot f w c (n.andThen k).result.2 := by
  cases h with
  | done h => exact h
  | go h => exact h.trans_leads (hk _ rfl h)

theorem Holds.ite {p : Prop} [Decidable p] (hthen : p → Holds ops f w c c')
    (helse : ¬p → Holds ops f w c c'') : Holds ops f w c (if p then c' else c'') := by
  split_ifs with hp
  · exact hthen hp
  · exact helse hp

theorem Leads.ite {p : Prop} [Decidable p] (hthen : p → Leads ops pair slot f w c c')
    (helse : ¬p → Leads ops pair slot f w c c'') : Leads ops pair slot f w c (if p then c' else c'') := by
  split_ifs with hp
  · exact hthen hp
  · exact helse hp

theorem Passes.ite {p : Prop} [Decidable p] {n' : Next F} (hthen : p → Passes ops pair slot f w c n)
    (helse : ¬p → Passes ops pair slot f w c n') : Passes ops pair slot f w c (if p then n else n') := by
  split_ifs with hp
  · exact hthen hp
  · exact helse hp

theorem Passes.done_of_holds {handled : Bool} (h : Holds ops f w c c') :
    Passes ops pair slot f w c (.done handled c') := .done h.leads

theorem holds_setReady (i : Side) (ready : Bool) : Holds ops f w c (c.setReady i ready) :=
  .of_turn (.look _) (frame_setReady i ready)

theorem holds_finish (delay : ℕ) : Holds ops f w c (finish f delay c) := .of_trip rfl (frame_finish delay)

theorem holds_wait (delay : ℕ) : Holds ops f w c (c.wait f delay) := .of_trip rfl (frame_wait delay)

theorem holds_setRecord (i : Side) (r : Record) : Holds ops f w c (c.setRecord i r) :=
  .of_trip rfl (frame_setRecord i r)

theorem holds_setActor {i : Side} {actor : ActorState F} (h : actor.life = (c.actors i).life) :
    Holds ops f w c (c.setActor i actor) := .of_trip rfl (frame_setActor h)

theorem holds_stopOwned (i : Side) : Holds ops f w c (stopOwned f ms i c) :=
  .of_trip (stopOwned_trip i) (frame_stopOwned i)

/-! ### Losses and dangers -/

section Losses
variable (h : Sees f w ms c.trip)
include h

theorem holds_refresh : Holds ops f w c
    (c.setTrip (refreshReturnMode c.trip (ms .carrier).original (ms .escort).original)) := by
  unfold refreshReturnMode
  split_ifs with hrelease
  · refine .of_turn (.release hrelease.1 ?_) (frame_setTrip _)
    rw [bothIn, ← h.original, ← h.original, Bool.and_eq_false_iff]
    exact hrelease.2
  · exact .of_trip rfl (frame_setTrip _)

theorem holds_returnToCity {reason : Reason}
    (hturn : c.trip.current.outbound = true ∨ (c.trip.current ≠ .toCity ∧ ¬Calm f w c.trip)) :
    Holds ops f w c (returnToCity ops f ms reason c) := by
  refine .of_turn ?_ (frame_returnToCity reason)
  rw [returnToCity_trip, h.bothOriginal]
  exact .goBack reason hturn

theorem holds_lost : Holds ops f w c
    (if bothOriginal ms = false ∧ c.trip.current ≠ .toCity ∧ c.trip.current ≠ .unloading ∧
        c.trip.current ≠ .rest ∧ c.trip.current ≠ .recover then
      returnToCity ops f ms .memberLostReturning c
    else c) := by
  split_ifs with hlost
  · refine holds_returnToCity h (.inl ?_)
    obtain ⟨-, hcity, hunloading, hrest, hrecover⟩ := hlost
    cases hstage : c.trip.current <;> simp_all [Stage.outbound]
  · exact .refl c

theorem holds_scatter : Holds ops f w c
    (if (ms .carrier).original = false ∧ (ms .escort).original = false ∧ c.trip.current ≠ .recover then
      (phase f ms .recover .reassembleNewLivesAtCity c).setTrip
        { (phase f ms .recover .reassembleNewLivesAtCity c).trip with waypoint := 0 }
    else c) := by
  split_ifs with hscatter
  · refine .of_turn (.scatter fun i => ?_) ((frame_phase _ _).trans (frame_setTrip _))
    rw [← h.original]
    cases i
    · exact hscatter.1
    · exact hscatter.2.1
  · exact .refl c

theorem holds_loseMembers : Holds ops f w c (loseMembers ops f ms c) := by
  unfold loseMembers
  have hrefresh : Holds ops f w c _ := holds_refresh h
  have hlost : Holds ops f w _ _ := holds_lost (hrefresh.sees h)
  exact hrefresh.trans (hlost.trans (holds_scatter (hlost.sees (hrefresh.sees h))))

end Losses

/-! ### Recovery, dangers and delays -/

theorem closestFrom_lt {nearer : ActionPosition F → ActionPosition F → Bool} {best : ActionPosition F}
    {found i size : ℕ} {path : List (Waypoint F)} (hfound : found < size) (hpath : i + path.length ≤ size) :
    closestFrom nearer best found i path < size := by
  induction path generalizing best found i with
  | nil => exact hfound
  | cons w path ih =>
    rw [List.length_cons] at hpath
    rw [closestFrom]
    split_ifs
    · exact ih (by omega) (by omega)
    · exact ih hfound (by omega)

theorem closest_lt {nearer : ActionPosition F → ActionPosition F → Bool} {path : List (Waypoint F)}
    (h : path ≠ []) : closest nearer path < path.length := by
  cases path with
  | nil => contradiction
  | cons w path =>
    rw [closest, List.length_cons]
    exact closestFrom_lt (by omega) (by omega)

section Recovery
variable (h : Sees f w ms c.trip)
include h

theorem holds_recoverOriginal : Holds ops f w c (recoverOriginal ops f ms c) := by
  refine .ite (fun hrecover => .ite (fun _ => .refl c) fun hroute => ?_) fun _ => .refl c
  refine .of_turn ?_ ((frame_setTrip _).trans (frame_phase _ _))
  rw [phase_trip, h.bothOriginal]
  refine .regain hrecover.1 ?_ (closest_lt hroute)
  rcases hrecover.2 with horiginal | horiginal
  · exact ⟨.carrier, h.original .carrier ▸ horiginal⟩
  · exact ⟨.escort, h.original .escort ▸ horiginal⟩

theorem not_calm (hdanger : bothOriginal ms = true ∧ ((ms .carrier).peaceful = false ∨ (ms .escort).peaceful = false)) :
    ¬Calm f w c.trip := by
  intro hcalm
  rw [h.bothOriginal, h.peaceful, h.peaceful] at hdanger
  have hall := hcalm hdanger.1
  rcases hdanger.2 with hfalse | hfalse
  · simp [hall .carrier] at hfalse
  · simp [hall .escort] at hfalse

theorem passes_danger : Passes ops pair slot f w c (danger ops f ms c) := by
  refine .ite (fun hdanger => .done_of_holds ?_) fun _ => .go (.refl c)
  have hreturn : Holds ops f w c
      (if c.trip.current ≠ .toCity then returnToCity ops f ms .dangerReturning c else c) :=
    .ite (fun hcity => holds_returnToCity h (.inr ⟨hcity, not_calm h hdanger⟩)) fun _ => .refl c
  exact hreturn.trans ((holds_stopOwned _).trans ((holds_setReady _ _).trans (holds_wait _)))

theorem danger_calm (hgo : danger ops f ms c = .go c') : c' = c ∧ Calm f w c.trip := by
  unfold danger at hgo
  split_ifs at hgo with hdanger
  cases hgo
  refine ⟨rfl, fun hboth i => ?_⟩
  rw [h.bothOriginal, h.peaceful, h.peaceful] at hdanger
  by_contra hi
  rw [Bool.not_eq_true] at hi
  cases i
  · exact hdanger ⟨hboth, .inl hi⟩
  · exact hdanger ⟨hboth, .inr hi⟩

theorem holds_timeout : Holds ops f w c (timeout ops f ms c) := by
  unfold timeout
  split_ifs with htimeout
  · refine holds_returnToCity h (.inl ?_)
    obtain ⟨hlate, hcity, hrecover, hunloading⟩ := htimeout
    cases hstage : c.trip.current <;> simp_all [Stage.outbound, timedOut]
  · exact .refl c

end Recovery

theorem passes_movement : Passes ops pair slot f w c (movement f c) := by
  refine .ite (fun _ => .ite (fun _ => .done_of_holds (.refl c)) fun _ => .ite (fun _ => .go (holds_finish 0)) fun _ => ?_)
    fun _ => .go (.refl c)
  exact .done_of_holds ((holds_finish 3000).trans (holds_setReady _ _))

theorem passes_checkRoute : Passes ops pair slot f w c (checkRoute ops f c) :=
  .ite (fun _ => .done_of_holds (holds_finish 10000)) fun _ => .go (.refl c)

theorem passes_takeRole : Passes ops pair slot f w c (takeRole f c) := by
  unfold takeRole
  dsimp only
  have hfinish : Holds ops f w c
      (if ((c.records f.side).phase = .moving ∨ (c.records f.side).phase = .acting) ∧
        ownRole (c.records f.side) = true then finish f 0 c else c) :=
    .ite (fun _ => holds_finish 0) fun _ => .refl c
  refine .ite (fun _ => .done_of_holds hfinish) fun _ => .ite (fun _ => .done_of_holds ?_) fun _ => .go ?_
  · exact hfinish.trans (holds_setActor rfl)
  · exact hfinish.trans (holds_setActor rfl)

/-! ### Activities -/

/-- The flow of an activity is the only one of the call. -/
theorem leads_flow (fl : Flow) (hflow : c.flow = none) (hflow' : c'.flow = some fl)
    (h : Move ops slot f w c.trip [fl] c'.trip) : Leads ops pair slot f w c c' := by
  refine .of_move h ?_
  rw [hflow, hflow']
  rfl

theorem ownedActivity_stage (h : ownedActivity ops f ms c = true) :
    ((c.actors f.side).current = .load → f.side = .carrier ∧ c.trip.current = .loading ∧ bothOriginal ms = true ∧
      ∀ i, (f.member i).isAt ((sourcePoint ops c.trip.sourceDepotId).getD (cityPoint ops)) = true) ∧
    ((c.actors f.side).current = .unload → f.side = .carrier ∧ c.trip.current = .unloading) := by
  simp only [ownedActivity, Bool.and_eq_true, Bool.or_eq_true, beq_iff_eq] at h
  obtain ⟨⟨⟨⟨⟨⟨⟨⟨-, -⟩, -⟩, hsource⟩, -⟩, -⟩, hat⟩, -⟩, hstage⟩ := h
  constructor
  · intro hload
    simp only [hload, true_and, reduceCtorEq, false_and, or_false] at hstage
    obtain ⟨⟨⟨⟨hside, hloading⟩, hboth⟩, -⟩, hescort⟩ := hstage
    rw [expectedPoint, if_pos hload, hsource] at hat hescort
    refine ⟨hside, hloading, hboth, fun i => ?_⟩
    cases i
    · rwa [hside] at hat
    · exact hescort
  · intro hunload
    simpa only [hunload, true_and, reduceCtorEq, false_and, or_false, false_or] using hstage

section Activities
variable (h : Sees f w ms c.trip) (hcalm : Calm f w c.trip) (hflow : c.flow = none)
include h hcalm hflow

theorem leads_complete (howned : ownedActivity ops f ms c = true) :
    Leads ops pair slot f w c (complete ops f ms c) := by
  obtain ⟨hload, hunload⟩ := ownedActivity_stage howned
  have htrip : (exchange f c).trip = c.trip := rfl
  unfold complete
  by_cases hkind : (c.actors f.side).current = .load
  · obtain ⟨hside, hstage, hboth, hat⟩ := hload hkind
    rw [if_pos hkind]
    refine leads_flow ⟨.load, c.food.eventSerial + 1, c.trip.sourceDepotId, f.receipt⟩ hflow ?_ ?_
    · rw [(frame_returnToCity _).flow, exchange, (frame_finish 0).flow]
      simp [Call.setActor, hkind]
    · rw [returnToCity_trip, htrip, h.bothOriginal]
      exact .load hstage hside (h.bothOriginal ▸ hboth) hat
  · rw [if_neg hkind]
    have hexchanged : (exchange f c).flow =
        some ⟨(c.actors f.side).current, c.food.eventSerial + 1, cityDepot, f.receipt⟩ := by
      rw [exchange, (frame_finish 0).flow]
      simp [Call.setActor, hkind]
    by_cases hdelivered : (c.actors f.side).current = .unload ∧ f.cargoAfter = 0
    · obtain ⟨hside, hstage⟩ := hunload hdelivered.1
      rw [if_pos hdelivered]
      rw [hdelivered.1] at hexchanged
      refine leads_flow _ hflow (((frame_setTrip _).trans (frame_repose _)).flow.trans hexchanged) ?_
      exact .deliver hstage hcalm hside hdelivered.2
    · rw [if_neg hdelivered]
      refine leads_flow _ hflow hexchanged ?_
      rw [htrip]
      exact .flow hkind

theorem passes_perform : Passes ops pair slot f w c (perform ops f ms c) := by
  refine .ite (fun _ => .ite (fun _ => .done_of_holds (holds_finish 2000)) fun howned =>
    .ite (fun _ => .done_of_holds (.refl c)) fun _ => .ite (fun _ => .done_of_holds (holds_finish 60000)) fun _ =>
      .done (leads_complete h hcalm hflow ?_)) fun _ => .go (.refl c)
  rw [not_or, Bool.not_eq_false] at howned
  exact howned.1

end Activities

/-! ### Travel and the next trip -/

theorem holds_travel (destination : ActionPosition F) (purpose : Purpose) :
    Holds ops f w c (travel f destination purpose c) := by
  refine (holds_setReady f.side false).trans ?_
  unfold travel
  cases f.step destination with
  | none => exact (holds_wait _).trans (.ite (fun _ => holds_setRecord _ _) fun _ => .refl _)
  | some => exact (holds_setRecord _ _).trans (.ite (fun _ => holds_setRecord _ _) fun _ => holds_wait _)

theorem holds_activity (kind : Activity) (point : ActionPosition F) :
    Holds ops f w c (activity f kind point c) := by
  refine .ite (fun _ => .refl c) fun _ => (holds_setRecord _ _).trans (.ite (fun _ => ?_) fun _ => holds_wait _)
  refine (holds_setActor ?_).trans (holds_setReady _ _)
  rfl

/-- The trip that a member begins, or the number that was taken in vain. -/
theorem leads_tryBegin (hlives : ∀ i, (c.actors i).life = (w.actors i).life) (hcargo : c.trip.trip ≠ 0 → f.cargo = 0) :
    Leads ops pair slot f w c (tryBegin ops pair f c) := by
  unfold tryBegin beginNext
  dsimp only
  cases hbegin : begin ops c.trip pair f.now (c.nextTrip + 1) (f.member .carrier).guid (f.member .escort).guid with
  | none => exact (Holds.of_trip rfl ⟨rfl, fun _ => rfl⟩ : Holds ops f w c _).leads
  | some t =>
    have hbegins : Begins ops pair f w c.trip { t with lives := fun i => (c.actors i).life } := by
      rw [funext hlives]
      exact .mk hbegin hcargo
    exact ⟨_, [], .refl, .begins hbegins, by simp [Call.setTrip]⟩

theorem holds_reachCity : Holds ops f w c (reachCity f c) := holds_setActor rfl

theorem leads_reassemble (hlives : ∀ i, (c.actors i).life = (w.actors i).life) :
    Leads ops pair slot f w c (reassemble ops pair f ms c) := by
  unfold reassemble
  split_ifs with hready
  · simp only [Bool.and_eq_true, decide_eq_true_eq] at hready
    exact leads_tryBegin hlives fun _ => hready.1.2
  · exact (Holds.refl c).leads

theorem holds_goToCity : Holds ops f w c (goToCity ops f c) := by
  refine (holds_setActor ?_).trans (holds_travel _ _)
  rfl

theorem passes_rejoin (hlives : ∀ i, (c.actors i).life = (w.actors i).life) :
    Passes ops pair slot f w c (rejoin ops pair f ms c) := by
  refine .ite (fun _ => .go (.refl c)) fun _ => .ite (fun _ => .done_of_holds holds_goToCity) fun _ => .done ?_
  have hreach : Holds ops f w c (reachCity f c) := holds_reachCity
  have hlives' : ∀ i, ((reachCity f c).actors i).life = (w.actors i).life := fun i =>
    (hreach.frame.lives i).trans (hlives i)
  exact hreach.trans_leads ((leads_reassemble hlives').decide 1000)

/-! ### At the waypoint -/

theorem leads_advance (hcalm : Calm f w c.trip) (hlives : ∀ i, (c.actors i).life = (w.actors i).life)
    (hready : ∀ i, c.trip.ready i = true → present ops slot f w c.trip i = true) :
    Leads ops pair slot f w c (advance ops pair f ms c) := by
  have hgathered : readyBarrier c.trip = true → Gathered ops slot f w c.trip := by
    refine fun hbarrier => ⟨hbarrier, fun i => hready i ?_⟩
    simp only [readyBarrier, Bool.and_eq_true] at hbarrier
    cases i
    · exact hbarrier.1.2
    · exact hbarrier.2
  unfold advance
  dsimp only
  cases hstage : c.trip.current with
  | rally =>
    dsimp only
    refine .ite (fun hbarrier => ?_) fun _ => (Holds.refl c).leads
    exact .of_frame (.depart hstage (hgathered hbarrier)) ((frame_setTrip _).trans (frame_phase _ _))
  | toVillage =>
    refine .ite (fun hbarrier => .ite (fun hnext => ?_) fun hlast => ?_) fun _ => (Holds.refl c).leads
    · exact .of_frame (.advance hstage (hgathered hbarrier) hnext) (frame_setTrip _)
    · exact .of_frame (.arrive hstage (hgathered hbarrier) hlast) (frame_phase _ _)
  | toCity =>
    refine .ite (fun harrived => .ite (fun hwaypoint => ?_) fun hcity => .ite (fun hcargo => ?_)
      fun _ => .ite (fun hempty => ?_) fun _ => (Holds.refl c).leads) fun _ => (Holds.refl c).leads
    · refine .of_frame (.back hstage hcalm ?_ hwaypoint) (frame_setTrip _)
      split_ifs at harrived ⊢ <;> exact harrived
    · exact .of_frame (.unload hstage hcalm (not_not.mp hcity) hcargo.1 hcargo.2) (frame_phase _ _)
    · exact .of_frame (.rest hstage hcalm (not_not.mp hcity) hempty) (frame_repose _)
  | rest =>
    dsimp only
    refine .ite (fun hnext => ?_) fun _ => (Holds.refl c).leads
    simp only [Bool.and_eq_true, decide_eq_true_eq] at hnext
    exact leads_tryBegin hlives fun _ => hnext.1.2
  | loading | unloading | recover => exact (Holds.refl c).leads

theorem present_of_readyAt {wp : Waypoint F} {ready : Side → Bool} {i : Side} (h : Sees f w ms c.trip)
    (hwp : waypointOf ops c.trip = some wp) (hready : readyAt ops slot f ms c wp i = true) :
    present ops slot f w { c.trip with ready } i = true := by
  simp only [readyAt, Bool.and_eq_true] at hready
  obtain ⟨⟨⟨⟨horiginal, hpeaceful⟩, hat⟩, -⟩, -⟩ := hready
  have hwp' : waypointOf ops { c.trip with ready } = some wp := hwp
  have horiginal' : original f w { c.trip with ready } i = true := (h.original i).symm.trans horiginal
  rw [present, hwp', horiginal', ← h.peaceful, hpeaceful]
  exact hat

theorem leads_travelOn (h : Sees f w ms c.trip) (hcalm : Calm f w c.trip)
    (hlives : ∀ i, (c.actors i).life = (w.actors i).life) :
    Leads ops pair slot f w c (travelOn ops pair slot f ms c).result.2 := by
  unfold travelOn
  cases hwp : waypointOf ops c.trip with
  | none => exact (holds_finish 10000).leads
  | some wp =>
    dsimp only
    cases htarget : target ops slot f.side wp with
    | none => exact (holds_finish 10000).leads
    | some point =>
      dsimp only
      split_ifs with haway
      · exact (holds_travel _ _).leads
      · have hlook : Holds ops f w c (c.setTrip { c.trip with ready := readyAt ops slot f ms c wp }) :=
          .of_turn (.look _) (frame_setTrip _)
        have hlives' : ∀ i, ((c.setTrip { c.trip with ready := readyAt ops slot f ms c wp }).actors i).life =
            (w.actors i).life := hlives
        refine hlook.trans_leads ?_
        cases htask : task ops f point (c.setTrip { c.trip with ready := readyAt ops slot f ms c wp }).trip with
        | some kind => exact (holds_activity _ _).leads
        | none =>
          refine (leads_advance ?_ hlives' fun i hi => ?_).decide 500
          · exact (Turns.keeps hlook.turns).calm.mpr hcalm
          · exact present_of_readyAt h hwp hi

/-! ### The update -/

/-- A member bound to its creature before anything is changed. -/
theorem sees_member : Sees f w (member f w) w.trip := ⟨fun _ => rfl, fun _ => rfl, fun _ => rfl⟩

theorem bound_of_peaceful {i : Side} (h : (member f w i).peaceful = true) : (member f w i).bound = true := by
  simp only [member, Bool.and_eq_true] at h ⊢
  exact h.1.1

theorem firstTrip_cases (ops : FloatOps F) (pair : PairSpec) (hlives : ∀ i, (c.actors i).life = (w.actors i).life) :
    (∃ c', firstTrip ops pair f (member f w) c = .done true c' ∧ c'.trip = c.trip ∧ Frame c c') ∨
    (c.trip.trip ≠ 0 ∧ firstTrip ops pair f (member f w) c = .go c) ∨
    (c.trip.trip = 0 ∧ ∃ c', firstTrip ops pair f (member f w) c = .go c' ∧ Begins ops pair f w c.trip c'.trip ∧
      Frame c c' ∧ Sees f w (fun i => { member f w i with original := true }) c'.trip) := by
  unfold firstTrip
  by_cases htrip : c.trip.trip = 0
  · rw [if_neg (not_not.mpr htrip)]
    split_ifs with hpeace
    · simp only [Bool.and_eq_true] at hpeace
      unfold beginNext
      dsimp only
      cases hbegin : begin ops c.trip pair f.now (c.nextTrip + 1) (f.member .carrier).guid (f.member .escort).guid with
      | none =>
        have hnumbered : Frame c { c with nextTrip := c.nextTrip + 1 } := ⟨rfl, fun _ => rfl⟩
        exact .inl ⟨_, rfl, rfl, hnumbered.trans (frame_finish 2000)⟩
      | some t =>
        have hbegins : Begins ops pair f w c.trip { t with lives := fun i => (c.actors i).life } := by
          rw [funext hlives]
          exact .mk hbegin fun h => absurd htrip h
        refine .inr (.inr ⟨htrip, _, rfl, hbegins, ⟨rfl, fun _ => rfl⟩, fun i => ?_, fun _ => rfl, fun _ => rfl⟩)
        refine ((hbegins.original i).trans ?_).symm
        cases i
        · exact bound_of_peaceful hpeace.1.1
        · exact bound_of_peaceful hpeace.1.2
    · exact .inl ⟨_, rfl, rfl, frame_finish 2000⟩
  · exact .inr (.inl ⟨htrip, if_pos htrip⟩)

theorem go_takeRole (h : Sees f w ms c.trip) (hcalm : Calm f w c.trip) (hflow : c.flow = none)
    (hlives : ∀ i, (c.actors i).life = (w.actors i).life) :
    Leads ops pair slot f w c (((perform ops f ms c).andThen fun c => (takeRole f c).andThen fun c =>
      (rejoin ops pair f ms c).andThen fun c => travelOn ops pair slot f ms c).result.2) := by
  refine (passes_perform h hcalm hflow).andThen fun c₁ _ h₁ => passes_takeRole.andThen fun c₂ _ h₂ => ?_
  have hlives₂ : ∀ i, (c₂.actors i).life = (w.actors i).life := fun i =>
    (h₂.frame.lives i).trans ((h₁.frame.lives i).trans (hlives i))
  refine (passes_rejoin hlives₂).andThen fun c₃ _ h₃ => ?_
  have hholds := h₁.trans (h₂.trans h₃)
  exact leads_travelOn (hholds.sees h) ((Turns.keeps hholds.turns).calm.mpr hcalm) fun i =>
    (h₃.frame.lives i).trans (hlives₂ i)

/-- Everything after the first trip has begun. -/
theorem leads_rest (h : Sees f w ms c.trip) (hflow : c.flow = none)
    (hlives : ∀ i, (c.actors i).life = (w.actors i).life) :
    Leads ops pair slot f w c ((danger ops f ms (recoverOriginal ops f ms (loseMembers ops f ms c))).andThen fun c =>
      (movement f (timeout ops f ms c)).andThen fun c => (checkRoute ops f c).andThen fun c =>
      (perform ops f ms c).andThen fun c => (takeRole f c).andThen fun c =>
      (rejoin ops pair f ms c).andThen fun c => travelOn ops pair slot f ms c).result.2 := by
  have hlose : Holds ops f w c (loseMembers ops f ms c) := holds_loseMembers h
  have hrecover : Holds ops f w (loseMembers ops f ms c) (recoverOriginal ops f ms (loseMembers ops f ms c)) :=
    holds_recoverOriginal (hlose.sees h)
  have hstart := hlose.trans hrecover
  refine hstart.trans_leads ((passes_danger (hstart.sees h)).andThen fun c₁ hgo _ => ?_)
  obtain ⟨rfl, hcalm⟩ := danger_calm (hstart.sees h) hgo
  have htimeout : Holds ops f w _ _ := holds_timeout (hstart.sees h)
  refine htimeout.trans_leads (passes_movement.andThen fun c₂ _ h₂ => passes_checkRoute.andThen fun c₃ _ h₃ => ?_)
  have hholds := hstart.trans (htimeout.trans (h₂.trans h₃))
  have hcalm₃ := (Turns.keeps (htimeout.trans (h₂.trans h₃)).turns).calm.mpr hcalm
  exact go_takeRole (hholds.sees h) hcalm₃ (hholds.frame.flow.trans hflow) fun i =>
    (hholds.frame.lives i).trans (hlives i)

/-- How an update changes a trip: before the first one nothing is done but to begin it. -/
inductive Changes (ops : FloatOps F) (pair : PairSpec) (slot : Side → F × F) (f : Facts F) (w : World F) :
    State → List Flow → State → Prop
  | idle (s : State) (ready : Side → Bool) : Changes ops pair slot f w s [] { s with ready }
  | goes {s t u : State} {flows : List Flow} (hbegun : s.trip ≠ 0) (hturns : Turns ops f w s t)
      (houtcome : Outcome ops pair slot f w t flows u) : Changes ops pair slot f w s flows u
  | starts {s t u v : State} {flows : List Flow} (hbegin : Begins ops pair f w s t) (hturns : Turns ops f w t u)
      (houtcome : Outcome ops pair slot f w u flows v) : Changes ops pair slot f w s flows v

/-- What holds of a trip that has just begun, and is kept by all that can happen to one that has. -/
structure Kept (ops : FloatOps F) (pair : PairSpec) (slot : Side → F × F) (f : Facts F) (w : World F)
    (P : State → Prop) : Prop where
  look : ∀ {s : State} (ready : Side → Bool), P s → P { s with ready }
  turn : ∀ {s t : State}, s.trip ≠ 0 → P s → Turn ops f w s t → P t
  move : ∀ {s t : State} {flows : List Flow}, s.trip ≠ 0 → P s → Move ops slot f w s flows t → P t
  begins : ∀ {s t : State}, Begins ops pair f w s t → P t

section Kept
variable {P : State → Prop} {s t : State} {flows : List Flow} (hkept : Kept ops pair slot f w P)
include hkept

theorem Kept.turns (hbegun : s.trip ≠ 0) (h : Turns ops f w s t) (hs : P s) : P t := by
  induction h with
  | refl => exact hs
  | tail hbefore hturn ih => exact hkept.turn ((Turns.keeps hbefore).trip ▸ hbegun) ih hturn

theorem Kept.outcome (hbegun : s.trip ≠ 0) (h : Outcome ops pair slot f w s flows t) (hs : P s) : P t := by
  cases h with
  | quiet => exact hs
  | moves h => exact hkept.move hbegun hs h
  | begins h => exact hkept.begins h

theorem Kept.changes (h : Changes ops pair slot f w s flows t) (hs : P s) : P t := by
  cases h with
  | idle => exact hkept.look _ hs
  | goes hbegun hturns houtcome =>
    exact hkept.outcome ((Turns.keeps hturns).trip ▸ hbegun) houtcome (hkept.turns hbegun hturns hs)
  | starts hbegin hturns houtcome =>
    have hbegun := hbegin.trip_ne_zero
    exact hkept.outcome ((Turns.keeps hturns).trip ▸ hbegun) houtcome
      (hkept.turns hbegun hturns (hkept.begins hbegin))

end Kept

section Numbers
variable {s t : State} {flows : List Flow}

theorem Outcome.trip_le (h : Outcome ops pair slot f w s flows t) : s.trip ≤ t.trip := by
  cases h with
  | quiet => exact le_rfl
  | moves h => exact h.keeps.trip.ge
  | begins h => exact h.fresh.later.le

theorem Changes.trip_le (h : Changes ops pair slot f w s flows t) : s.trip ≤ t.trip := by
  cases h with
  | idle => exact le_rfl
  | goes _ hturns houtcome => exact (Turns.keeps hturns).trip.ge.trans houtcome.trip_le
  | starts hbegin hturns houtcome =>
    exact hbegin.fresh.later.le.trans ((Turns.keeps hturns).trip.ge.trans houtcome.trip_le)

/-- A trip that keeps its number has not begun anew. -/
theorem Changes.same_trip (h : Changes ops pair slot f w s flows t) (htrip : t.trip = s.trip) :
    (∃ ready, t = { s with ready } ∧ flows = []) ∨
      ∃ m, Turns ops f w s m ∧ ((t = m ∧ flows = []) ∨ Move ops slot f w m flows t) := by
  cases h with
  | idle => exact .inl ⟨_, rfl, rfl⟩
  | goes _ hturns houtcome =>
    refine .inr ⟨_, hturns, ?_⟩
    cases houtcome with
    | quiet => exact .inl ⟨rfl, rfl⟩
    | moves h => exact .inr h
    | begins h =>
      have hlater := h.fresh.later
      have hkeeps := (Turns.keeps hturns).trip
      omega
  | starts hbegin hturns houtcome =>
    have hlater := hbegin.fresh.later
    have hkeeps := (Turns.keeps hturns).trip
    have hle := houtcome.trip_le
    omega

end Numbers

theorem changes_sections (hc : c.trip = w.trip) (hflow : c.flow = none)
    (hlives : ∀ i, (c.actors i).life = (w.actors i).life) :
    ∃ flows, Changes ops pair slot f w c.trip flows (sections ops pair slot f (member f w) c).result.2.trip ∧
      (sections ops pair slot f (member f w) c).result.2.flow.toList = flows := by
  unfold sections
  obtain ⟨c', hdone, htrip, hframe⟩ | ⟨htrip, hgo⟩ | ⟨htrip, c', hgo, hbegins, hframe, hsees⟩ :=
    firstTrip_cases ops pair hlives
  · rw [hdone]
    refine ⟨[], ?_, by rw [← Option.toList_none, ← hflow, ← hframe.flow]; rfl⟩
    change Changes ops pair slot f w c.trip [] c'.trip
    rw [htrip]
    exact .idle c.trip c.trip.ready
  · rw [hgo]
    dsimp only [Next.andThen]
    rw [if_neg htrip]
    have hsees : Sees f w (member f w) c.trip := by
      rw [hc]
      exact sees_member
    have hrest : Leads ops pair slot f w c _ := leads_rest hsees hflow hlives
    obtain ⟨t, flows, hturns, houtcome, hflows⟩ := hrest
    exact ⟨flows, .goes htrip hturns houtcome, hflows.trans (by rw [hflow]; rfl)⟩
  · rw [hgo]
    dsimp only [Next.andThen]
    rw [if_pos htrip]
    have hrest : Leads ops pair slot f w c' _ :=
      leads_rest hsees (hframe.flow.trans hflow) fun i => (hframe.lives i).trans (hlives i)
    obtain ⟨t, flows, hturns, houtcome, hflows⟩ := hrest
    exact ⟨flows, .starts hbegins hturns houtcome, hflows.trans (by rw [hframe.flow, hflow]; rfl)⟩

/-- An update changes the trip by moves and begins only; its call to the ledger is the one of its moves. -/
theorem update_changes (ops : FloatOps F) (pair : PairSpec) (slot : Side → F × F) (f : Facts F) (w : World F) :
    ∃ flows,
    Changes ops pair slot f w w.trip flows (updateLivingCaravan ops pair slot f w).2.trip ∧
      (updateLivingCaravan ops pair slot f w).2.flow.toList = flows := by
  unfold updateLivingCaravan
  dsimp only
  split_ifs
  · exact ⟨[], .idle w.trip w.trip.ready, rfl⟩
  · exact ⟨[], .idle w.trip w.trip.ready, rfl⟩
  · exact ⟨[], .idle w.trip _, rfl⟩
  · have hchanges : ∃ flows, Changes ops pair slot f w w.trip flows _ ∧ _ :=
      changes_sections (c := { w with records := fun i => (f.member i).record, food := f.food }) rfl rfl fun _ => rfl
    exact hchanges

end AIWorld.Caravan
