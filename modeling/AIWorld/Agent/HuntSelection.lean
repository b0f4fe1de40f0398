import AIWorld.Agent.HuntIntentSystem
import AIWorld.Lib.OrdMap

/-! What the choice of a hunted target promises. The observations of a target come down to one that
represents it, and the nearest represented target is chosen; neither looks at the order or at
exact repetitions of what was observed. -/

namespace AIWorld.Agent

open Std (ExtTreeMap)
open Lib Lib.Binary32 Lib.Selection
open Groups

namespace HuntIntentSystem

/-! ### The state of an observer -/

section Members
variable {a b c s e : CoalitionMemberObservation} {members members' : List CoalitionMemberObservation}
  {k : UInt64}

/-- What the comparison of two states says. -/
structure SameState (a b : CoalitionMemberObservation) : Prop where
  materialized : a.materialized = b.materialized
  alive : a.alive = b.alive
  mapId : a.mapId = b.mapId
  x : (a.x == b.x) = true
  y : (a.y == b.y) = true
  z : (a.z == b.z) = true

theorem sameObserverState_iff : sameObserverState a b = true ↔ SameState a b := by
  simp only [sameObserverState, Bool.and_eq_true, beq_iff_eq, and_assoc]
  exact ⟨fun ⟨hm, ha, hid, hx, hy, hz⟩ => ⟨hm, ha, hid, hx, hy, hz⟩,
    fun ⟨hm, ha, hid, hx, hy, hz⟩ => ⟨hm, ha, hid, hx, hy, hz⟩⟩

theorem SameState.symm (h : SameState a b) : SameState b a :=
  ⟨h.materialized.symm, h.alive.symm, h.mapId.symm, beq_symm h.x, beq_symm h.y, beq_symm h.z⟩

theorem SameState.trans (h : SameState a b) (h' : SameState b c) : SameState a c :=
  ⟨h.materialized.trans h'.materialized, h.alive.trans h'.alive, h.mapId.trans h'.mapId,
    beq_trans h.x h'.x, beq_trans h.y h'.y, beq_trans h.z h'.z⟩

/-- The member was seen at a place. A place that is not a number differs from itself. -/
def Placed (o : CoalitionMemberObservation) : Prop :=
  o.x.isNaN = false ∧ o.y.isNaN = false ∧ o.z.isNaN = false

theorem sameState_self_iff : SameState a a ↔ Placed a :=
  ⟨fun h => ⟨beq_self_iff.mp h.x, beq_self_iff.mp h.y, beq_self_iff.mp h.z⟩,
    fun ⟨hx, hy, hz⟩ => ⟨rfl, rfl, rfl, beq_self_iff.mpr hx, beq_self_iff.mpr hy, beq_self_iff.mpr hz⟩⟩

/-- The states that one member was seen in. -/
def statesOf (members : List CoalitionMemberObservation) (k : UInt64) :
    List CoalitionMemberObservation :=
  members.filter (·.memberId = k)

theorem mem_statesOf : e ∈ statesOf members k ↔ e ∈ members ∧ e.memberId = k := by
  simp [statesOf]

theorem statesOf_append : statesOf (members ++ [e]) k =
    if e.memberId = k then statesOf members k ++ [e] else statesOf members k := by
  unfold statesOf
  split_ifs with h <;> simp [h]

/-- What is known of the members after some of their states. -/
structure Known (members : List CoalitionMemberObservation) (states : ObserverStates) : Prop where
  resolved : ∀ (k : UInt64), states.resolved[k]? = (statesOf members k).head?
  conflicted : ∀ k, k ∈ states.conflicted ↔
    ∃ first rest, statesOf members k = first :: rest ∧ ∃ e ∈ rest, ¬ SameState first e

theorem Known.add {states : ObserverStates} (h : Known members states) :
    Known (members ++ [e]) (states.add e) := by
  obtain ⟨hresolved, hconflicted⟩ := h
  have hhere := hresolved e.memberId
  unfold ObserverStates.add
  cases hstates : statesOf members e.memberId with
  | nil =>
    rw [hstates, List.head?_nil] at hhere
    rw [hhere]
    refine ⟨fun k => ?_, fun k => ?_⟩
    · rw [OrdMap.getElem?_insert, statesOf_append]
      split_ifs with hk
      · subst hk
        rw [hstates]
        rfl
      · exact hresolved k
    · rw [hconflicted k, statesOf_append]
      split_ifs with hk
      · subst hk
        simp [hstates]
      · rfl
  | cons first rest =>
    rw [hstates, List.head?_cons] at hhere
    rw [hhere]
    dsimp only
    cases hsame : sameObserverState first e with
    | true =>
      simp only [Bool.not_true, Bool.false_eq_true, if_false]
      refine ⟨fun k => ?_, fun k => ?_⟩
      · rw [statesOf_append]
        split_ifs with hk
        · subst hk
          rw [hstates]
          exact hhere
        · exact hresolved k
      · rw [statesOf_append]
        split_ifs with hk
        · subst hk
          have hagrees := sameObserverState_iff.mp hsame
          rw [hstates]
          simpa [hstates, hagrees] using hconflicted e.memberId
        · exact hconflicted k
    | false =>
      have hdiffers : ¬ SameState first e := fun h => by
        rw [sameObserverState_iff.mpr h] at hsame
        contradiction
      simp only [Bool.not_false, if_true]
      refine ⟨fun k => ?_, fun k => ?_⟩
      · rw [statesOf_append]
        split_ifs with hk
        · subst hk
          rw [hstates]
          exact hhere
        · exact hresolved k
      · rw [statesOf_append]
        split_ifs with hk
        · subst hk
          rw [hstates]
          refine iff_of_true List.mem_cons_self ⟨first, rest ++ [e], rfl, e, by simp, hdiffers⟩
        · rw [← hconflicted k]
          simp [Ne.symm hk]

theorem known_foldl (members : List CoalitionMemberObservation) :
    Known members (members.foldl ObserverStates.add {}) := by
  induction members using List.reverseRecOn with
  | nil => exact ⟨fun k => by simp [statesOf], by simp [statesOf]⟩
  | append_singleton members e ih =>
    rw [List.foldl_append, List.foldl_cons, List.foldl_nil]
    exact ih.add

theorem getElem?_foldl_erase (keys : List UInt64)
    (m : ExtTreeMap UInt64 CoalitionMemberObservation) :
    (keys.foldl (fun m key => m.erase key) m)[k]? = if k ∈ keys then none else m[k]? := by
  induction keys generalizing m with
  | nil => simp
  | cons key keys ih =>
    rw [List.foldl_cons, ih, OrdMap.getElem?_erase]
    by_cases hmem : k ∈ keys
    · simp [hmem]
    · by_cases hkey : key = k
      · simp [hkey]
      · simp [hmem, hkey, Ne.symm hkey]

/-- A member is resolved to its first state if all its further states are the same. -/
theorem resolve_eq_some_iff : (resolveObserverStates members)[k]? = some s ↔
    ∃ rest, statesOf members k = s :: rest ∧ ∀ e ∈ rest, SameState s e := by
  obtain ⟨hresolved, hconflicted⟩ := known_foldl members
  unfold resolveObserverStates
  rw [getElem?_foldl_erase, hresolved k]
  have hhere := hconflicted k
  cases hstates : statesOf members k with
  | nil => simp
  | cons first rest =>
    rw [hstates] at hhere
    by_cases hall : ∀ e ∈ rest, SameState first e
    · have hnot : k ∉ (members.foldl ObserverStates.add {}).conflicted := by
        rw [hhere]
        rintro ⟨_, _, heq, e, he, hdiffers⟩
        cases heq
        exact hdiffers (hall e he)
      rw [if_neg hnot, List.head?_cons]
      constructor
      · intro h
        cases h
        exact ⟨rest, rfl, hall⟩
      · rintro ⟨_, heq, -⟩
        cases heq
        rfl
    · have hmem : k ∈ (members.foldl ObserverStates.add {}).conflicted := by
        push Not at hall
        exact hhere.mpr ⟨first, rest, rfl, hall⟩
      rw [if_pos hmem]
      refine iff_of_false nofun ?_
      rintro ⟨_, heq, hsame⟩
      cases heq
      exact hall hsame

/-- The same states were seen of every member. A state without a place, which differs from
itself, was seen equally often. -/
structure SameMembers (members members' : List CoalitionMemberObservation) : Prop where
  mem : ∀ e, e ∈ members ↔ e ∈ members'
  count : ∀ e, ¬ Placed e → members.count e = members'.count e

theorem SameMembers.symm (h : SameMembers members members') : SameMembers members' members :=
  ⟨fun e => (h.mem e).symm, fun e he => (h.count e he).symm⟩

theorem SameMembers.resolve (h : SameMembers members members')
    (hs : (resolveObserverStates members)[k]? = some s) :
    ∃ s', (resolveObserverStates members')[k]? = some s' ∧ s'.materialized = s.materialized ∧
      s'.alive = s.alive ∧ s'.mapId = s.mapId := by
  obtain ⟨rest, hstates, hsame⟩ := resolve_eq_some_iff.mp hs
  have hmem : ∀ e, e ∈ statesOf members' k ↔ e ∈ s :: rest := by
    intro e
    rw [← hstates, mem_statesOf, mem_statesOf, h.mem]
  by_cases hplaced : Placed s
  · have hall : ∀ e ∈ s :: rest, SameState s e :=
      List.forall_mem_cons.mpr ⟨sameState_self_iff.mpr hplaced, hsame⟩
    cases hstates' : statesOf members' k with
    | nil =>
      rw [hstates'] at hmem
      exact absurd ((hmem s).mpr List.mem_cons_self) List.not_mem_nil
    | cons s' rest' =>
      rw [hstates'] at hmem
      have hs' := hall s' ((hmem s').mp List.mem_cons_self)
      refine ⟨s', resolve_eq_some_iff.mpr ⟨rest', hstates', fun e he => ?_⟩, hs'.materialized.symm,
        hs'.alive.symm, hs'.mapId.symm⟩
      exact hs'.symm.trans (hall e ((hmem e).mp (List.mem_cons_of_mem _ he)))
  · have hrest : rest = [] := by
      refine List.eq_nil_iff_forall_not_mem.mpr fun e he => hplaced ?_
      exact sameState_self_iff.mp ((hsame e he).trans (hsame e he).symm)
    subst hrest
    have hk : s.memberId = k := (mem_statesOf.mp (hstates ▸ List.mem_cons_self)).2
    have hcount : (statesOf members' k).count s = 1 := by
      have hhere : (statesOf members k).count s = 1 := by simp [hstates]
      unfold statesOf at hhere ⊢
      rw [List.count_filter (by simpa using hk)] at hhere ⊢
      rw [← h.count s hplaced, hhere]
    have hreplicate : statesOf members' k = List.replicate (statesOf members' k).length s :=
      List.eq_replicate_of_mem fun e he => List.mem_singleton.mp ((hmem e).mp he)
    rw [hreplicate, List.count_replicate_self] at hcount
    rw [hcount] at hreplicate
    exact ⟨s, resolve_eq_some_iff.mpr ⟨[], hreplicate, nofun⟩, rfl, rfl, rfl⟩

theorem SameMembers.observerFits (h : SameMembers members members') (group : AgentGroupRecord)
    (observer : UInt64) : observerFits group (resolveObserverStates members) observer =
      observerFits group (resolveObserverStates members') observer := by
  have hleft : ∀ {members members' : List CoalitionMemberObservation}, SameMembers members members' →
      HuntIntentSystem.observerFits group (resolveObserverStates members) observer = true →
      HuntIntentSystem.observerFits group (resolveObserverStates members') observer = true := by
    intro members members' h hfits
    unfold HuntIntentSystem.observerFits at hfits ⊢
    rw [Bool.and_eq_true] at hfits ⊢
    refine ⟨hfits.1, ?_⟩
    cases hs : (resolveObserverStates members)[observer]? with
    | none =>
      rw [hs] at hfits
      exact absurd hfits.2 Bool.false_ne_true
    | some s =>
      obtain ⟨s', hs', hmaterialized, halive, hmap⟩ := h.resolve hs
      rw [hs']
      rw [hs] at hfits
      dsimp only at hfits ⊢
      rw [hmaterialized, halive, hmap]
      exact hfits.2
  exact Bool.eq_iff_iff.mpr ⟨hleft h, hleft h.symm⟩

end Members

/-! ### The observations of a target -/

section Targets
variable {a b c o : HuntTargetObservation} {passing passing' bucket : List HuntTargetObservation}
  {k : UInt64} {group : AgentGroupRecord} {profile : AgentGroupCoordinationProfile} {nowMs : UInt64}

/-- What a check of an observation leaves: numbers only. -/
structure Numbers (o : HuntTargetObservation) : Prop where
  distance : o.distance.isNaN = false
  x : o.target.x.isNaN = false
  y : o.target.y.isNaN = false
  z : o.target.z.isNaN = false

theorem numbers_of_passes {states : ExtTreeMap UInt64 CoalitionMemberObservation}
    (h : passes group profile states nowMs o = true) : Numbers o := by
  unfold passes targetFits distanceFits at h
  simp only [Bool.and_eq_true] at h
  obtain ⟨⟨⟨-, htarget⟩, -⟩, hdistance⟩ := h
  obtain ⟨⟨⟨-, ⟨hx, hy⟩, hz⟩, -⟩, -⟩ := htarget
  exact ⟨isNaN_of_isFinite hdistance.1.1, isNaN_of_isFinite hx, isNaN_of_isFinite hy,
    isNaN_of_isFinite hz⟩

/-- The same to a program: the signs of zeros may differ. -/
structure HuntTargetProvenance.Alike (a b : HuntTargetProvenance) : Prop where
  targetGuid : a.targetGuid = b.targetGuid
  targetEntry : a.targetEntry = b.targetEntry
  mapId : a.mapId = b.mapId
  x : Binary32.Alike a.x b.x
  y : Binary32.Alike a.y b.y
  z : Binary32.Alike a.z b.z
  alive : a.alive = b.alive
  observedAtMs : a.observedAtMs = b.observedAtMs

/-- Observations of one target by one observer of one moment that agree. -/
structure Agree (a b : HuntTargetObservation) : Prop where
  observer : a.observer = b.observer
  target : HuntTargetProvenance.Alike a.target b.target
  distance : Binary32.Alike a.distance b.distance
  lineOfSight : a.lineOfSight = b.lineOfSight

theorem disagree_eq_false_iff (ha : Numbers a) (hguid : a.target.targetGuid = b.target.targetGuid)
    (htime : a.target.observedAtMs = b.target.observedAtMs) (hobserver : a.observer = b.observer) :
    disagree a b = false ↔ Agree a b := by
  have hbeq : ∀ {u v : Float32}, u.isNaN = false → ((u == v) = true ↔ Binary32.Alike u v) :=
    fun h => beq_iff.trans (and_iff_right h)
  unfold disagree
  simp only [htime, hobserver, ne_eq, not_true_eq_false, decide_false, Bool.or_self,
    Bool.false_eq_true, if_false, Bool.not_eq_false', sameObservationPayload, Bool.and_eq_true,
    beq_iff_eq, hbeq ha.distance, hbeq ha.x, hbeq ha.y, hbeq ha.z, and_assoc]
  constructor
  · rintro ⟨hdistance, hsight, halive, hmap, hentry, hx, hy, hz⟩
    exact ⟨hobserver, ⟨hguid, hentry, hmap, hx, hy, hz, halive, htime⟩, hdistance, hsight⟩
  · rintro ⟨-, ⟨-, hentry, hmap, hx, hy, hz, halive, -⟩, hdistance, hsight⟩
    exact ⟨hdistance, hsight, halive, hmap, hentry, hx, hy, hz⟩

theorem HuntTargetProvenance.Alike.refl (a : HuntTargetProvenance) : HuntTargetProvenance.Alike a a :=
  ⟨rfl, rfl, rfl, .refl _, .refl _, .refl _, rfl, rfl⟩

theorem Agree.refl (a : HuntTargetObservation) : Agree a a :=
  ⟨rfl, .refl _, .refl _, rfl⟩

theorem Agree.symm (h : Agree a b) : Agree b a :=
  ⟨h.observer.symm, ⟨h.target.targetGuid.symm, h.target.targetEntry.symm, h.target.mapId.symm,
    h.target.x.symm, h.target.y.symm, h.target.z.symm, h.target.alive.symm,
    h.target.observedAtMs.symm⟩, h.distance.symm, h.lineOfSight.symm⟩

theorem disagree_comm (ha : Numbers a) (hb : Numbers b)
    (hguid : a.target.targetGuid = b.target.targetGuid) (h : disagree a b = false) :
    disagree b a = false := by
  by_cases hsame : a.target.observedAtMs = b.target.observedAtMs ∧ a.observer = b.observer
  · have hagree := (disagree_eq_false_iff ha hguid hsame.1 hsame.2).mp h
    exact (disagree_eq_false_iff hb hguid.symm hsame.1.symm hsame.2.symm).mpr hagree.symm
  · unfold disagree
    rw [if_pos]
    simp only [ne_eq, Bool.or_eq_true, decide_eq_true_eq]
    by_contra! hboth
    exact hsame ⟨hboth.1.symm, hboth.2.symm⟩

/-- The observations that are made of one target. -/
def bucketOf (passing : List HuntTargetObservation) (k : UInt64) : List HuntTargetObservation :=
  passing.filter (·.target.targetGuid.raw = k)

theorem mem_bucketOf : o ∈ bucketOf passing k ↔ o ∈ passing ∧ o.target.targetGuid.raw = k := by
  simp [bucketOf]

theorem guid_eq (ha : a ∈ bucketOf passing k) (hb : b ∈ bucketOf passing k) :
    a.target.targetGuid = b.target.targetGuid := by
  have hraw := (mem_bucketOf.mp ha).2.trans (mem_bucketOf.mp hb).2.symm
  cases ha' : a.target.targetGuid
  cases hb' : b.target.targetGuid
  rw [ha', hb'] at hraw
  cases hraw
  rfl

theorem ambiguous_eq_false_iff (hnumbers : ∀ o ∈ bucket, Numbers o)
    (hguid : ∀ a ∈ bucket, ∀ b ∈ bucket, a.target.targetGuid = b.target.targetGuid) :
    ambiguous bucket = false ↔ ∀ a ∈ bucket, ∀ b ∈ bucket, disagree a b = false := by
  induction bucket with
  | nil => simp [ambiguous]
  | cons a bucket ih =>
    have hrest := ih (fun o ho => hnumbers o (List.mem_cons_of_mem _ ho)) fun x hx y hy =>
      hguid x (List.mem_cons_of_mem _ hx) y (List.mem_cons_of_mem _ hy)
    have ha := hnumbers a List.mem_cons_self
    have hself : disagree a a = false := (disagree_eq_false_iff ha rfl rfl rfl).mpr (.refl a)
    rw [ambiguous, Bool.or_eq_false_iff, hrest, List.any_eq_false]
    constructor
    · rintro ⟨hhead, htail⟩
      have hhead : ∀ b ∈ bucket, disagree a b = false := fun b hb => by simpa using hhead b hb
      refine List.forall_mem_cons.mpr ⟨List.forall_mem_cons.mpr ⟨hself, hhead⟩, fun x hx => ?_⟩
      refine List.forall_mem_cons.mpr ⟨?_, htail x hx⟩
      exact disagree_comm ha (hnumbers x (List.mem_cons_of_mem _ hx))
        (hguid a List.mem_cons_self x (List.mem_cons_of_mem _ hx)) (hhead x hx)
    · intro hall
      refine ⟨fun b hb => ?_, fun x hx y hy => ?_⟩
      · rw [hall a List.mem_cons_self b (List.mem_cons_of_mem _ hb)]
        exact Bool.false_ne_true
      · exact hall x (List.mem_cons_of_mem _ hx) y (List.mem_cons_of_mem _ hy)

/-- Later observations first, and of one moment those of lower observers. -/
def freshness (o : HuntTargetObservation) : ℕᵒᵈ ×ₗ ℕ :=
  toLex (OrderDual.toDual o.target.observedAtMs.toNat, o.observer.toNat)

theorem fresher_iff : fresher a b = true ↔ freshness a < freshness b := by
  unfold fresher freshness
  rw [Prod.Lex.toLex_lt_toLex]
  simp [UInt64.lt_iff_toNat_lt, UInt64.toNat_inj]

theorem select_fresher (h : select fresher bucket = some o) :
    o ∈ bucket ∧ ∀ c ∈ bucket, freshness o ≤ freshness c :=
  select_spec (fun a _ b _ => @fresher_iff a b) h

/-- Of all observations of its target, which do not contradict one another, the freshest. -/
structure Represents (passing : List HuntTargetObservation) (o : HuntTargetObservation) : Prop where
  mem : o ∈ passing
  agrees : ∀ a ∈ passing, ∀ b ∈ passing, a.target.targetGuid = o.target.targetGuid →
    b.target.targetGuid = o.target.targetGuid → disagree a b = false
  freshest : ∀ c ∈ passing, c.target.targetGuid = o.target.targetGuid →
    c.target.observedAtMs < o.target.observedAtMs ∨
      c.target.observedAtMs = o.target.observedAtMs ∧ o.observer ≤ c.observer

theorem freshness_le_iff : freshness a ≤ freshness b ↔
    b.target.observedAtMs < a.target.observedAtMs ∨
      b.target.observedAtMs = a.target.observedAtMs ∧ a.observer ≤ b.observer := by
  unfold freshness
  rw [Prod.Lex.toLex_le_toLex]
  simp [UInt64.lt_iff_toNat_lt, UInt64.le_iff_toNat_le, ← UInt64.toNat_inj, eq_comm]

theorem Represents.congr (h : Represents passing o) (hsame : ∀ o, o ∈ passing ↔ o ∈ passing') :
    Represents passing' o :=
  ⟨(hsame o).mp h.mem, fun a ha b hb => h.agrees a ((hsame a).mpr ha) b ((hsame b).mpr hb),
    fun c hc => h.freshest c ((hsame c).mpr hc)⟩

/-- Two that represent the same target agree. -/
theorem Represents.agree (hnumbers : ∀ o ∈ passing, Numbers o) (ha : Represents passing a)
    (hb : Represents passing b) (hguid : a.target.targetGuid = b.target.targetGuid) : Agree a b := by
  have hab := freshness_le_iff.mpr (ha.freshest b hb.mem hguid.symm)
  have hba := freshness_le_iff.mpr (hb.freshest a ha.mem hguid)
  have heq := le_antisymm hab hba
  have htime : a.target.observedAtMs = b.target.observedAtMs :=
    UInt64.toNat_inj.mp (OrderDual.toDual_inj.mp (congrArg (fun k => (ofLex k).1) heq))
  have hobserver : a.observer = b.observer :=
    UInt64.toNat_inj.mp (congrArg (fun k => (ofLex k).2) heq)
  exact (disagree_eq_false_iff (hnumbers a ha.mem) hguid htime hobserver).mp
    (ha.agrees a ha.mem b hb.mem rfl hguid.symm)

theorem represents_of_represent (hnumbers : ∀ o ∈ passing, Numbers o)
    (h : represent (bucketOf passing k) = some o) : Represents passing o ∧ o.target.targetGuid.raw = k := by
  unfold represent at h
  split_ifs at h with hambiguous
  obtain ⟨hmem, hmin⟩ := select_fresher h
  obtain ⟨ho, hraw⟩ := mem_bucketOf.mp hmem
  have hbucket : ∀ c ∈ passing, c.target.targetGuid = o.target.targetGuid → c ∈ bucketOf passing k :=
    fun c hc hguid => mem_bucketOf.mpr ⟨hc, by rw [hguid, hraw]⟩
  rw [Bool.not_eq_true, ambiguous_eq_false_iff (fun o ho => hnumbers o (mem_bucketOf.mp ho).1)
    fun a ha b hb => guid_eq ha hb] at hambiguous
  refine ⟨⟨ho, fun a ha b hb hguidA hguidB => ?_, fun c hc hguid => ?_⟩, hraw⟩
  · exact hambiguous a (hbucket a ha hguidA) b (hbucket b hb hguidB)
  · exact freshness_le_iff.mp (hmin c (hbucket c hc hguid))

/-- A target that can be represented is. -/
theorem Represents.represent (hnumbers : ∀ o ∈ passing, Numbers o) (h : Represents passing o) :
    ∃ o', represent (bucketOf passing o.target.targetGuid.raw) = some o' ∧ Agree o o' := by
  have hguid : ∀ a ∈ bucketOf passing o.target.targetGuid.raw,
      a.target.targetGuid = o.target.targetGuid :=
    fun a ha => guid_eq ha (mem_bucketOf.mpr ⟨h.mem, rfl⟩)
  have hclear : ambiguous (bucketOf passing o.target.targetGuid.raw) = false := by
    rw [ambiguous_eq_false_iff (fun o ho => hnumbers o (mem_bucketOf.mp ho).1)
      fun a ha b hb => guid_eq ha hb]
    exact fun a ha b hb => h.agrees a (mem_bucketOf.mp ha).1 b (mem_bucketOf.mp hb).1
      (hguid a ha) (hguid b hb)
  cases hselect : select fresher (bucketOf passing o.target.targetGuid.raw) with
  | none =>
    rw [select_eq_none_iff] at hselect
    exact absurd (hselect ▸ mem_bucketOf.mpr ⟨h.mem, rfl⟩) List.not_mem_nil
  | some o' =>
    have hrepresent : HuntIntentSystem.represent (bucketOf passing o.target.targetGuid.raw) = some o' := by
      unfold HuntIntentSystem.represent
      rw [hclear, hselect]
      rfl
    obtain ⟨hrepresents, -⟩ := represents_of_represent hnumbers hrepresent
    refine ⟨o', hrepresent, h.agree hnumbers hrepresents ?_⟩
    exact (hguid o' (select_fresher hselect).1).symm

/-! ### The nearest target -/

theorem getElem?_foldl_addToBucket (passing : List HuntTargetObservation) :
    ∀ k : UInt64, (passing.foldl addToBucket ∅)[k]? =
      if bucketOf passing k = [] then none else some (bucketOf passing k) := by
  induction passing using List.reverseRecOn with
  | nil => exact fun k => by simp [bucketOf]
  | append_singleton passing o ih =>
    intro k
    have hhere := ih o.target.targetGuid.raw
    rw [List.foldl_append, List.foldl_cons, List.foldl_nil, addToBucket, OrdMap.getElem?_insert]
    have happend : bucketOf (passing ++ [o]) k =
        if o.target.targetGuid.raw = k then bucketOf passing k ++ [o] else bucketOf passing k := by
      unfold bucketOf
      split_ifs with h <;> simp [h]
    rw [happend]
    by_cases hk : o.target.targetGuid.raw = k
    · rw [if_pos hk, if_pos hk, hhere, hk]
      by_cases hnil : bucketOf passing k = [] <;> simp [hnil]
    · rw [if_neg hk, if_neg hk, ih k]

/-- The observations that stand for the targets. -/
def representatives (passing : List HuntTargetObservation) : List HuntTargetObservation :=
  (passing.foldl addToBucket ∅).toList.filterMap fun (_, bucket) => represent bucket

theorem mem_representatives : o ∈ representatives passing ↔
    ∃ k, represent (bucketOf passing k) = some o := by
  have hempty : represent [] = none := rfl
  unfold representatives
  simp only [List.mem_filterMap, Prod.exists, ExtTreeMap.mem_toList_iff_getElem?_eq_some,
    getElem?_foldl_addToBucket]
  constructor
  · rintro ⟨k, bucket, hbucket, hrepresent⟩
    split_ifs at hbucket
    cases hbucket
    exact ⟨k, hrepresent⟩
  · rintro ⟨k, hrepresent⟩
    have hne : bucketOf passing k ≠ [] := by
      intro hnil
      rw [hnil, hempty] at hrepresent
      contradiction
    exact ⟨k, _, if_neg hne, hrepresent⟩

/-- Nearer targets first, and of one distance those of lower guids. -/
def nearness (o : HuntTargetObservation) : (ℤ ×ₗ ℤ ×ₗ ℤ) ×ₗ ℕ :=
  toLex (rank o.distance, o.target.targetGuid.raw.toNat)

theorem closer_iff (ha : Numbers a) (hb : Numbers b) :
    closer a b = true ↔ nearness a < nearness b := by
  unfold closer nearness
  rw [Prod.Lex.toLex_lt_toLex, ← lt_iff_rank ha.distance hb.distance,
    ← beq_iff_rank ha.distance hb.distance]
  simp [UInt64.lt_iff_toNat_lt]

/-- The one comes before the other in the choice of the nearest. -/
def Nearer (a b : HuntTargetObservation) : Prop :=
  a.distance < b.distance ∨ (a.distance == b.distance) = true ∧
    a.target.targetGuid.raw ≤ b.target.targetGuid.raw

theorem nearness_le_iff (ha : Numbers a) (hb : Numbers b) : nearness a ≤ nearness b ↔ Nearer a b := by
  unfold Nearer nearness
  rw [Prod.Lex.toLex_le_toLex, ← lt_iff_rank ha.distance hb.distance,
    ← beq_iff_rank ha.distance hb.distance]
  simp [UInt64.le_iff_toNat_le]

theorem Agree.nearness_eq (ha : Numbers a) (hb : Numbers b) (h : Agree a b) :
    nearness a = nearness b := by
  unfold nearness
  rw [(beq_iff_rank ha.distance hb.distance).mp (beq_iff.mpr ⟨ha.distance, h.distance⟩),
    h.target.targetGuid]

theorem numbers_of_mem_representatives (hnumbers : ∀ o ∈ passing, Numbers o)
    (h : o ∈ representatives passing) : Numbers o := by
  obtain ⟨k, hk⟩ := mem_representatives.mp h
  exact hnumbers o (represents_of_represent hnumbers hk).1.mem

/-- What is selected represents its target, and no target is represented by a nearer one. -/
theorem select_closer (hnumbers : ∀ o ∈ passing, Numbers o)
    (h : select closer (representatives passing) = some o) :
    Represents passing o ∧ ∀ o', Represents passing o' → Nearer o o' := by
  have hkey : ∀ a ∈ representatives passing, ∀ b ∈ representatives passing,
      closer a b = true ↔ nearness a < nearness b := fun a ha b hb =>
    closer_iff (numbers_of_mem_representatives hnumbers ha) (numbers_of_mem_representatives hnumbers hb)
  obtain ⟨hmem, hmin⟩ := select_spec hkey h
  obtain ⟨k, hk⟩ := mem_representatives.mp hmem
  have ho := (represents_of_represent hnumbers hk).1
  refine ⟨ho, fun o' ho' => ?_⟩
  obtain ⟨o'', hrepresent, hagree⟩ := ho'.represent hnumbers
  have hmem' := mem_representatives.mpr ⟨_, hrepresent⟩
  have hnumbers' := hnumbers o' ho'.mem
  rw [← nearness_le_iff (hnumbers o ho.mem) hnumbers',
    hagree.nearness_eq hnumbers' (numbers_of_mem_representatives hnumbers hmem')]
  exact hmin o'' hmem'

theorem select_closer_eq_none (hnumbers : ∀ o ∈ passing, Numbers o) :
    select closer (representatives passing) = none ↔ ∀ o, ¬ Represents passing o := by
  rw [select_eq_none_iff]
  constructor
  · intro hnil o ho
    obtain ⟨o', hrepresent, -⟩ := ho.represent hnumbers
    have hmem := mem_representatives.mpr ⟨_, hrepresent⟩
    rw [hnil] at hmem
    exact List.not_mem_nil hmem
  · intro hnone
    refine List.eq_nil_iff_forall_not_mem.mpr fun o ho => ?_
    obtain ⟨k, hk⟩ := mem_representatives.mp ho
    exact hnone o (represents_of_represent hnumbers hk).1

/-! ### The choice -/

variable {members members' : List CoalitionMemberObservation} {targets targets' : List HuntTargetObservation}

/-- The observations that pass every check. -/
def passed (group : AgentGroupRecord) (profile : AgentGroupCoordinationProfile)
    (members : List CoalitionMemberObservation) (targets : List HuntTargetObservation)
    (nowMs : UInt64) : List HuntTargetObservation :=
  targets.filter (passes group profile (resolveObserverStates members) nowMs)

theorem numbers_of_mem_passed (h : o ∈ passed group profile members targets nowMs) : Numbers o :=
  numbers_of_passes (List.mem_filter.mp h).2

theorem evaluate_eq (hfits : profileFits group profile nowMs = true) :
    evaluate group profile members targets nowMs =
      (select closer (representatives (passed group profile members targets nowMs))).map
        fun selected => { group := group.id, target := selected.target, startedAtMs := nowMs } := by
  unfold evaluate
  rw [hfits, if_neg (by decide)]
  dsimp only
  split
  next hselect => exact (congrArg (Option.map _) hselect).symm
  next selected hselect =>
    exact (congrArg (Option.map fun selected : HuntTargetObservation =>
      ({ group := group.id, target := selected.target, startedAtMs := nowMs } : HuntIntent)) hselect).symm

/-- The intent of a group is to hunt the nearest target that is represented. -/
theorem of_evaluate_eq_some {intent : HuntIntent}
    (h : evaluate group profile members targets nowMs = some intent) :
    profileFits group profile nowMs = true ∧
    ∃ o, Represents (passed group profile members targets nowMs) o ∧
      intent = { group := group.id, target := o.target, startedAtMs := nowMs } ∧
      ∀ o', Represents (passed group profile members targets nowMs) o' → Nearer o o' := by
  cases hfits : profileFits group profile nowMs with
  | false =>
    unfold evaluate at h
    rw [hfits] at h
    contradiction
  | true =>
    rw [evaluate_eq hfits] at h
    obtain ⟨o, hselect, rfl⟩ := Option.map_eq_some_iff.mp h
    obtain ⟨ho, hnearest⟩ := select_closer (fun o ho => numbers_of_mem_passed ho) hselect
    exact ⟨rfl, o, ho, rfl, hnearest⟩

theorem evaluate_eq_none_iff : evaluate group profile members targets nowMs = none ↔
    profileFits group profile nowMs = false ∨
      ∀ o, ¬ Represents (passed group profile members targets nowMs) o := by
  cases hfits : profileFits group profile nowMs with
  | false =>
    unfold evaluate
    rw [hfits]
    simp
  | true =>
    rw [evaluate_eq hfits, Option.map_eq_none_iff,
      select_closer_eq_none fun o ho => numbers_of_mem_passed ho]
    simp

theorem SameMembers.mem_passed (h : SameMembers members members')
    (htargets : ∀ o, o ∈ targets ↔ o ∈ targets') :
    o ∈ passed group profile members targets nowMs ↔
      o ∈ passed group profile members' targets' nowMs := by
  unfold passed
  rw [List.mem_filter, List.mem_filter, htargets, passes, passes, h.observerFits]

structure HuntIntent.Alike (a b : HuntIntent) : Prop where
  group : a.group = b.group
  target : HuntTargetProvenance.Alike a.target b.target
  startedAtMs : a.startedAtMs = b.startedAtMs

theorem evaluate_alike (h : SameMembers members members')
    (htargets : ∀ o, o ∈ targets ↔ o ∈ targets') :
    Option.Rel HuntIntent.Alike (evaluate group profile members targets nowMs)
      (evaluate group profile members' targets' nowMs) := by
  have hpassed : ∀ o, o ∈ passed group profile members targets nowMs ↔
      o ∈ passed group profile members' targets' nowMs := fun o => h.mem_passed htargets
  cases heval : evaluate group profile members targets nowMs with
  | none =>
    have hnone : evaluate group profile members' targets' nowMs = none := by
      rw [evaluate_eq_none_iff] at heval ⊢
      exact heval.imp_right fun hno o ho => hno o (ho.congr fun o => (hpassed o).symm)
    rw [hnone]
    exact .none
  | some intent =>
    obtain ⟨hfits, o, ho, rfl, hnearest⟩ := of_evaluate_eq_some heval
    cases heval' : evaluate group profile members' targets' nowMs with
    | none =>
      rcases evaluate_eq_none_iff.mp heval' with hnot | hno
      · rw [hfits] at hnot
        contradiction
      · exact absurd (ho.congr hpassed) (hno o)
    | some intent' =>
      obtain ⟨-, o', ho', rfl, hnearest'⟩ := of_evaluate_eq_some heval'
      have ho'' := ho'.congr fun o => (hpassed o).symm
      have hnumbers := numbers_of_mem_passed ho.mem
      have hnumbers' := numbers_of_mem_passed ho''.mem
      have heq := le_antisymm ((nearness_le_iff hnumbers hnumbers').mpr (hnearest o' ho''))
        ((nearness_le_iff hnumbers' hnumbers).mpr (hnearest' o (ho.congr hpassed)))
      have hraw : o.target.targetGuid.raw = o'.target.targetGuid.raw :=
        UInt64.toNat_inj.mp (congrArg (fun k => (ofLex k).2) heq)
      have hguid := guid_eq (mem_bucketOf.mpr ⟨ho.mem, rfl⟩) (mem_bucketOf.mpr ⟨ho''.mem, hraw.symm⟩)
      have hagree := ho.agree (fun o ho => numbers_of_mem_passed ho) ho'' hguid
      exact .some ⟨rfl, hagree.target, rfl⟩

end Targets

/-- The choice does not depend on the order or the repetition of what was observed, except that a
member without a place must be seen equally often. And what is chosen is the nearest of the targets
that are represented, each by the freshest of observations that do not contradict one another. -/
theorem hunt_selection :
    (∀ (group : AgentGroupRecord) (profile : AgentGroupCoordinationProfile)
        (members members' : List CoalitionMemberObservation)
        (targets targets' : List HuntTargetObservation) (nowMs : UInt64),
      SameMembers members members' → (∀ o, o ∈ targets ↔ o ∈ targets') →
      Option.Rel HuntIntent.Alike (evaluate group profile members targets nowMs)
        (evaluate group profile members' targets' nowMs)) ∧
    (∀ (group : AgentGroupRecord) (profile : AgentGroupCoordinationProfile)
        (members : List CoalitionMemberObservation) (targets : List HuntTargetObservation)
        (nowMs : UInt64) (intent : HuntIntent),
      evaluate group profile members targets nowMs = some intent →
      ∃ o, Represents (passed group profile members targets nowMs) o ∧
        intent = { group := group.id, target := o.target, startedAtMs := nowMs } ∧
        ∀ o', Represents (passed group profile members targets nowMs) o' → Nearer o o') ∧
    ∀ (group : AgentGroupRecord) (profile : AgentGroupCoordinationProfile)
        (members : List CoalitionMemberObservation) (targets : List HuntTargetObservation)
        (nowMs : UInt64),
      evaluate group profile members targets nowMs = none ↔ profileFits group profile nowMs = false ∨
        ∀ o, ¬ Represents (passed group profile members targets nowMs) o :=
  ⟨fun _ _ _ _ _ _ _ hmembers htargets => evaluate_alike hmembers htargets,
    fun _ _ _ _ _ _ h => (of_evaluate_eq_some h).2, fun _ _ _ _ _ => evaluate_eq_none_iff⟩

/-! ### A pack with one wolf -/

def pack : AgentGroupRecord where
  id := 1
  profileId := .wolfLoose
  members := [⟨1, 0⟩]

def rabbits : AgentGroupCoordinationProfile where
  profileId := .wolfLoose
  huntEnabled := true
  huntTargetCreatureEntry := 721
  huntAcquisitionRadius := 50
  huntObservationMaxAgeMs := 5000

def wolf (x : Float32) : CoalitionMemberObservation where
  memberId := 1
  materialized := true
  alive := true
  x := x

def rabbit : HuntTargetObservation where
  observer := 1
  target := { targetGuid := ⟨0xF1300002D1000001⟩, targetEntry := 721, alive := true,
              observedAtMs := 1000 }
  distance := 10
  lineOfSight := true

theorem hunt_selection_pack :
    Option.Rel HuntIntent.Alike (evaluate pack rabbits [wolf 3] [rabbit] 2000)
      (evaluate pack rabbits [wolf 3, wolf 3] [rabbit, rabbit] 2000) := by
  refine hunt_selection.1 pack rabbits _ _ _ _ 2000 ⟨by simp, fun e he => ?_⟩ (by simp)
  have hne : e ≠ wolf 3 := by
    rintro rfl
    exact he ⟨by decide +kernel, by decide +kernel, by decide +kernel⟩
  simp [Ne.symm hne]

/-- A wolf whose place is not a number contradicts itself when it is listed twice. -/
theorem unplaced_wolf_twice :
    ¬ ∀ (group : AgentGroupRecord) (profile : AgentGroupCoordinationProfile)
        (members members' : List CoalitionMemberObservation)
        (targets targets' : List HuntTargetObservation) (nowMs : UInt64),
      (∀ e, e ∈ members ↔ e ∈ members') → (∀ o, o ∈ targets ↔ o ∈ targets') →
      Option.Rel HuntIntent.Alike (evaluate group profile members targets nowMs)
        (evaluate group profile members' targets' nowMs) := by
  intro h
  have hrel := h pack rabbits [wolf (0 / 0)] [wolf (0 / 0), wolf (0 / 0)] [rabbit] [rabbit] 2000
    (by simp) (by simp)
  have honce : evaluate pack rabbits [wolf (0 / 0)] [rabbit] 2000 =
      some { group := 1, target := rabbit.target, startedAtMs := 2000 } := by decide +kernel
  have htwice : evaluate pack rabbits [wolf (0 / 0), wolf (0 / 0)] [rabbit] 2000 = none := by
    decide +kernel
  rw [honce, htwice] at hrel
  contradiction

end HuntIntentSystem

end AIWorld.Agent
