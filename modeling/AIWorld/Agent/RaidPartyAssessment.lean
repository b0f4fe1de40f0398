import AIWorld.Agent.LivingRaidParty

/-! The assessment of a party. It depends on the observations of the roster as a set only, and it
lets a party advance only when all its members were seen ready, without a contradiction. -/

namespace AIWorld.Agent.LivingRaidParty

variable {party : Party} {observations observations' : List MemberObservation}
  {member : UInt64} {o x : MemberObservation} {nowMs : UInt64}

/-! ### Sightings -/

theorem sameObservation_iff {a b : MemberObservation} : sameObservation a b = true ↔ a = b := by
  obtain ⟨_, _, _, _, _, _, _⟩ := a
  obtain ⟨_, _, _, _, _, _, _⟩ := b
  simp [sameObservation, and_assoc]

/-- The member was observed, always in the same way. -/
def Clear (observations : List MemberObservation) (member : UInt64) (o : MemberObservation) : Prop :=
  o ∈ observations ∧ o.member = member ∧ ∀ x ∈ observations, x.member = member → x = o

theorem Clear.unique (ho : Clear observations member o) (hx : Clear observations member x) : o = x :=
  hx.2.2 o ho.1 ho.2.1

theorem Clear.congr (h : Clear observations member o)
    (hsame : ∀ x : MemberObservation, x.member = member → (x ∈ observations ↔ x ∈ observations')) :
    Clear observations' member o :=
  ⟨(hsame o h.2.1).mp h.1, h.2.1, fun x hx hmember => h.2.2 x ((hsame x hmember).mpr hx) hmember⟩

theorem clear_append (hx : x.member = member) :
    Clear (observations ++ [x]) member o ↔
      x = o ∧ ((∀ y ∈ observations, y.member ≠ member) ∨ Clear observations member x) := by
  constructor
  · rintro ⟨hmem, hmember, hall⟩
    obtain rfl : x = o := hall x (by simp) hx
    refine ⟨rfl, ?_⟩
    by_cases hnone : ∀ y ∈ observations, y.member ≠ member
    · exact .inl hnone
    · push Not at hnone
      obtain ⟨y, hy, hymember⟩ := hnone
      obtain rfl : y = x := hall y (List.mem_append_left _ hy) hymember
      exact .inr ⟨hy, hx, fun z hz => hall z (List.mem_append_left _ hz)⟩
  · rintro ⟨rfl, hbefore⟩
    refine ⟨by simp, hx, fun y hy hmember => ?_⟩
    rcases List.mem_append.mp hy with hy | hy
    · rcases hbefore with hnone | hclear
      · exact absurd hmember (hnone y hy)
      · exact hclear.2.2 y hy hmember
    · exact List.mem_singleton.mp hy

theorem look_of_eq (hx : x.member = member) (sighting : Sighting) :
    look member sighting x = ⟨some x, sighting.ambiguous ||
      sighting.observed.any fun observed => !sameObservation observed x⟩ :=
  if_neg (not_not.mpr hx)

theorem look_of_ne (hx : x.member ≠ member) (sighting : Sighting) :
    look member sighting x = sighting :=
  if_pos hx

/-- Without a sighting nothing is ambiguous. -/
theorem foldl_look_none :
    (observations.foldl (look member) {}).observed = none →
      (observations.foldl (look member) {}).ambiguous = false ∧
        ∀ x ∈ observations, x.member ≠ member := by
  induction observations using List.reverseRecOn with
  | nil => simp
  | append_singleton observations x ih =>
    rw [List.foldl_append, List.foldl_cons, List.foldl_nil]
    intro hnone
    by_cases hx : x.member = member
    · rw [look_of_eq hx] at hnone
      contradiction
    rw [look_of_ne hx] at hnone ⊢
    obtain ⟨hclear, hall⟩ := ih hnone
    refine ⟨hclear, fun y hy => ?_⟩
    rcases List.mem_append.mp hy with hy | hy
    · exact hall y hy
    · rwa [List.mem_singleton.mp hy]

theorem foldl_look_of_absent (h : ∀ x ∈ observations, x.member ≠ member) (sighting : Sighting) :
    observations.foldl (look member) sighting = sighting := by
  induction observations with
  | nil => rfl
  | cons x observations ih =>
    rw [List.foldl_cons, look_of_ne (h x List.mem_cons_self)]
    exact ih fun y hy => h y (List.mem_cons_of_mem _ hy)

theorem foldl_look_iff :
    observations.foldl (look member) {} = ⟨some o, false⟩ ↔ Clear observations member o := by
  induction observations using List.reverseRecOn generalizing o with
  | nil => simp [Clear]
  | append_singleton observations x ih =>
    rw [List.foldl_append, List.foldl_cons, List.foldl_nil]
    by_cases hx : x.member = member
    · rw [clear_append hx, look_of_eq hx]
      cases hobserved : (observations.foldl (look member) {}).observed with
      | none =>
        obtain ⟨hclear, hnone⟩ := foldl_look_none hobserved
        simpa [hclear] using fun _ => Or.inl hnone
      | some first =>
        have hsome : ¬ ∀ y ∈ observations, y.member ≠ member := by
          intro hnone
          rw [foldl_look_of_absent hnone] at hobserved
          contradiction
        rw [← ih]
        simp only [Sighting.mk.injEq, Option.some.injEq, Option.any_some, Bool.or_eq_false_iff,
          Bool.not_eq_false', sameObservation_iff, hsome, false_or]
        constructor
        · rintro ⟨rfl, hclear, rfl⟩
          exact ⟨rfl, Sighting.ext hobserved hclear⟩
        · rintro ⟨rfl, hfold⟩
          rw [hfold] at hobserved
          exact ⟨rfl, by rw [hfold], (Option.some.inj hobserved).symm⟩
    · rw [look_of_ne hx, ih]
      have hne : ∀ y ∈ observations ++ [x], y.member = member → y ∈ observations := by
        intro y hy hmember
        rcases List.mem_append.mp hy with hy | hy
        · exact hy
        · rw [List.mem_singleton.mp hy] at hmember
          exact absurd hmember hx
      constructor
      · exact fun h => ⟨List.mem_append_left _ h.1, h.2.1, fun y hy hmember =>
          h.2.2 y (hne y hy hmember) hmember⟩
      · exact fun h => ⟨hne o h.1 h.2.1, h.2.1, fun y hy =>
          h.2.2 y (List.mem_append_left _ hy)⟩

/-! ### The count of one member -/

/-- The count of a member that was observed clearly. -/
def countClear (party : Party) (o : MemberObservation) (state : Assessment × Bool) :
    Assessment × Bool :=
  count party [o] state o.member

theorem count_of_clear (h : Clear observations member o) (state : Assessment × Bool) :
    count party observations state member = countClear party o state := by
  have hself : Clear [o] o.member o := ⟨by simp, rfl, by simp⟩
  unfold countClear count
  rw [foldl_look_iff.mpr hself, foldl_look_iff.mpr h, h.2.1]

theorem count_of_not_clear (h : ∀ o, ¬ Clear observations member o) (state : Assessment × Bool) :
    count party observations state member =
      ({ state.1 with unavailable := state.1.unavailable + 1 }, state.2) := by
  unfold count
  dsimp only
  split
  · rfl
  · rename_i o hobserved
    have hambiguous : (observations.foldl (look member) {}).ambiguous = true := by
      rw [← Bool.not_eq_false]
      intro hclear
      exact h o (foldl_look_iff.mp (Sighting.ext hobserved hclear))
    rw [hambiguous]
    rfl

theorem count_congr {party' : Party} (hleader : party'.leaderSpawn = party.leaderSpawn)
    (hsame : ∀ x : MemberObservation, x.member = member → (x ∈ observations ↔ x ∈ observations'))
    (state : Assessment × Bool) :
    count party observations state member = count party' observations' state member := by
  have hparty : count party observations' state member = count party' observations' state member := by
    unfold count
    rw [hleader]
  rw [← hparty]
  by_cases hclear : ∃ o, Clear observations member o
  · obtain ⟨o, ho⟩ := hclear
    rw [count_of_clear ho, count_of_clear (ho.congr hsame)]
  · have hunclear : ∀ o, ¬ Clear observations member o := fun o ho => hclear ⟨o, ho⟩
    rw [count_of_not_clear hunclear, count_of_not_clear fun o ho =>
      hunclear o (ho.congr fun x hx => (hsame x hx).symm)]

/-- A member that is there and fit to go on. -/
structure Ready (observations : List MemberObservation) (member : UInt64) (o : MemberObservation) :
    Prop where
  clear : Clear observations member o
  materialized : o.materialized = true
  bound : o.bound = true
  alive : o.alive = true
  atAnchor : o.atAnchor = true
  outOfCombat : o.inCombat = false

theorem count_arrived (party : Party) (observations : List MemberObservation) (member : UInt64)
    (state : Assessment × Bool) :
    (count party observations state member).1.arrived ≤ state.1.arrived + 1 ∧
    ((count party observations state member).2 = false → state.2 = false ∧
      ((count party observations state member).1.arrived = state.1.arrived + 1 →
        ∃ o, Ready observations member o)) := by
  by_cases hclear : ∃ o, Clear observations member o
  · obtain ⟨o, ho⟩ := hclear
    have hready := Ready.mk ho
    unfold count
    rw [foldl_look_iff.mpr ho]
    dsimp only
    cases hm : o.materialized <;> cases hb : o.bound <;> cases ha : o.alive <;>
      cases hanchor : o.atAnchor <;> cases hc : o.inCombat <;> simp_all
    exact fun _ => ⟨o, hready⟩
  · rw [count_of_not_clear fun o ho => hclear ⟨o, ho⟩]
    simp

/-! ### The count of the roster -/

/-- Who counts every member as arrived, and nobody as fighting, has seen every member ready. -/
theorem foldl_count_ready {roster : List UInt64} (state : Assessment × Bool) :
    (roster.foldl (count party observations) state).1.arrived ≤ state.1.arrived + roster.length ∧
    ((roster.foldl (count party observations) state).2 = false → state.2 = false ∧
      ((roster.foldl (count party observations) state).1.arrived =
          state.1.arrived + roster.length →
        ∀ m ∈ roster, ∃ o, Ready observations m o)) := by
  induction roster generalizing state with
  | nil => simp
  | cons m roster ih =>
    rw [List.foldl_cons, List.length_cons]
    obtain ⟨hle, hcalm⟩ := count_arrived party observations m state
    obtain ⟨hrest, hcalm'⟩ := ih (count party observations state m)
    refine ⟨by omega, fun hout => ?_⟩
    obtain ⟨hout', hall⟩ := hcalm' hout
    obtain ⟨hout'', hhere⟩ := hcalm hout'
    refine ⟨hout'', fun harrived => ?_⟩
    exact List.forall_mem_cons.mpr ⟨hhere (by omega), hall (by omega)⟩

/-- Counting decides nothing. -/
theorem count_action (state : Assessment × Bool) :
    (count party observations state member).1.action = state.1.action := by
  unfold count
  dsimp only
  split
  · rfl
  · split_ifs <;> rfl

theorem foldl_count_action {roster : List UInt64} {state : Assessment × Bool} :
    (roster.foldl (count party observations) state).1.action = state.1.action := by
  induction roster generalizing state with
  | nil => rfl
  | cons m roster ih => rw [List.foldl_cons, ih, count_action]

/-! ### Assessment -/

/-- A forward phase ends in an advance only with the whole roster ready and in time. -/
theorem advance_ready (hforward : party.stage = .assembling ∨ party.stage = .outbound ∨
      party.stage = .raiding)
    (hadvance : (assess party observations nowMs).action = .advance) :
    (∀ m ∈ party.members, ∃ o, Ready observations m o) ∧ attemptExpired party nowMs = false ∧
      assemblyExpired party nowMs = false ∧ lagExpired party nowMs = false := by
  have hreturning : party.stage ≠ .returning := by rintro h; simp [h] at hforward
  unfold assess at hadvance
  dsimp only at hadvance
  split_ifs at hadvance with _ _ hstop htime harrived
  case neg => rw [foldl_count_action] at hadvance; contradiction
  rw [Bool.or_eq_true, not_or, Bool.not_eq_true] at hstop
  rw [Bool.or_eq_true, Bool.or_eq_true, not_or, not_or, Bool.not_eq_true, Bool.not_eq_true,
    Bool.not_eq_true] at htime
  rw [Bool.and_eq_true, decide_eq_true_eq, decide_eq_true_eq] at harrived
  have hall := (foldl_count_ready ({}, false)).2 hstop.1
  refine ⟨fun m hm => hall.2 ?_ m ((List.mem_insertionSort _).mpr hm), htime.1.1, htime.1.2, htime.2⟩
  rw [Nat.zero_add]
  exact harrived.2

theorem assess_congr {roster : List UInt64} (hroster : party.members.Perm roster)
    (hsame : ∀ x : MemberObservation, x.member ∈ party.members →
      (x ∈ observations ↔ x ∈ observations')) :
    assess { party with members := roster } observations' nowMs = assess party observations nowMs := by
  have hsorted : roster.insertionSort (· ≤ ·) = party.members.insertionSort (· ≤ ·) :=
    List.Perm.eq_of_pairwise (fun a b _ _ hab hba => UInt64.le_antisymm hab hba)
      (List.pairwise_insertionSort _ _) (List.pairwise_insertionSort _ _)
      ((List.perm_insertionSort _ _).trans
        (hroster.symm.trans (List.perm_insertionSort _ _).symm))
  have hcount : ∀ state, (party.members.insertionSort (· ≤ ·)).foldl
      (count { party with members := roster } observations') state =
        (party.members.insertionSort (· ≤ ·)).foldl (count party observations) state := by
    intro state
    refine List.foldl_ext _ _ _ fun s m hm => (count_congr rfl (fun x hx => ?_) s).symm
    rw [List.mem_insertionSort] at hm
    exact hsame x (hx ▸ hm)
  unfold assess
  dsimp only
  rw [hsorted, hcount]
  rfl

/-- A forward phase ends in an advance only when every member was observed, always in the same
way, materialized, bound, alive, at its anchor and out of combat, and no time has run out. And
permuted rosters give the same assessment, as do observations that agree on the roster: they may
be permuted or repeated, and others than the members may be observed too. -/
theorem assess_safe :
    (∀ (party : Party) (observations : List MemberObservation) (nowMs : UInt64),
      party.stage = .assembling ∨ party.stage = .outbound ∨ party.stage = .raiding →
      (assess party observations nowMs).action = .advance →
      (∀ m ∈ party.members, ∃ o, Ready observations m o) ∧ attemptExpired party nowMs = false ∧
        assemblyExpired party nowMs = false ∧ lagExpired party nowMs = false) ∧
    ∀ (party : Party) (roster : List UInt64) (observations observations' : List MemberObservation)
        (nowMs : UInt64), party.members.Perm roster →
      (∀ x : MemberObservation, x.member ∈ party.members →
        (x ∈ observations ↔ x ∈ observations')) →
      assess { party with members := roster } observations' nowMs =
        assess party observations nowMs :=
  ⟨fun _ _ _ hforward hadvance => advance_ready hforward hadvance,
    fun _ _ _ _ _ hroster hsame => assess_congr hroster hsame⟩

/-- Two raiders seen at their anchor. -/
def twoAtAnchor : Party where
  id := 1
  attemptId := 1
  leaderSpawn := 901050
  members := [901050, 901051]
  startedAtMs := 1000

def atAnchor (member : UInt64) : MemberObservation :=
  { member, materialized := true, alive := true, bound := true, atAnchor := true }

theorem assess_safe_pair :
    (∃ o, Ready [atAnchor 901051, atAnchor 901050, atAnchor 901050] 901050 o) ∧
    assess { twoAtAnchor with members := [901051, 901050] }
      [atAnchor 901051, atAnchor 901050, atAnchor 901050, atAnchor 7] 2000 =
        assess twoAtAnchor [atAnchor 901050, atAnchor 901051] 2000 := by
  constructor
  · have hadvance : (assess twoAtAnchor [atAnchor 901051, atAnchor 901050, atAnchor 901050] 2000).action =
        .advance := by decide
    exact (assess_safe.1 twoAtAnchor _ 2000 (.inl rfl) hadvance).1 901050 (by decide)
  · refine assess_safe.2 twoAtAnchor _ _ _ 2000 (List.Perm.swap _ _ _) fun x hx => ?_
    have hforeign : x ≠ atAnchor 7 := by
      rintro rfl
      exact absurd hx (by decide)
    simp only [List.mem_cons, List.not_mem_nil, or_false, hforeign]
    tauto

end AIWorld.Agent.LivingRaidParty
