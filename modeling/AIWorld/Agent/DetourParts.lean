import AIWorld.Agent.LivingSurfaceDetour

/-! What the parts of the search for a way home do to its state: the heap touches the nodes and their order
only, and choosing an edge ends in one of a few ways. -/

namespace AIWorld.Agent.LivingSurfaceDetour

open Lib

variable {F : Type} {ops : FloatOps F} {request : Request F} {s t : Search F}
  {log : Probe.Transcript (SurfaceQuery F) SurfaceQuery.Answer}

/-! ### The heap -/

theorem promote_eq (ops : FloatOps F) (fuel : ℕ) (s : Search F) (position : ℕ) :
    ∃ nodes openNodes, promote ops fuel s position = { s with nodes, openNodes } := by
  induction fuel generalizing s position with
  | zero => exact ⟨s.nodes, s.openNodes, rfl⟩
  | succ fuel ih =>
    unfold promote
    split
    · obtain ⟨nodes, openNodes, h⟩ := ih (swapOpen s position ((position - 1) / 2)) ((position - 1) / 2)
      exact ⟨nodes, openNodes, h⟩
    · exact ⟨s.nodes, s.openNodes, rfl⟩

theorem queue_eq (ops : FloatOps F) (s : Search F) (i : ℕ) : ∃ nodes openNodes, queue ops s i = { s with nodes, openNodes } := by
  unfold queue
  split
  · exact promote_eq ops _ _ _
  · obtain ⟨nodes, openNodes, h⟩ := promote_eq ops s.openNodes.length (append s i) s.openNodes.length
    exact ⟨nodes, openNodes, h⟩

theorem sink_eq (ops : FloatOps F) (fuel : ℕ) (s : Search F) (position : ℕ) :
    ∃ nodes openNodes, sink ops fuel s position = { s with nodes, openNodes } := by
  induction fuel generalizing s position with
  | zero => exact ⟨s.nodes, s.openNodes, rfl⟩
  | succ fuel ih =>
    unfold sink
    dsimp only
    generalize (if (decide (position * 2 + 1 + 1 < s.openNodes.length) &&
      before ops s (openAt s (position * 2 + 1 + 1)) (openAt s (position * 2 + 1))) = true then position * 2 + 1 + 1
      else position * 2 + 1) = next
    split
    · split
      · exact ⟨s.nodes, s.openNodes, rfl⟩
      · obtain ⟨nodes, openNodes, h⟩ := ih (swapOpen s position next) next
        exact ⟨nodes, openNodes, h⟩
    · exact ⟨s.nodes, s.openNodes, rfl⟩

theorem pop_eq (ops : FloatOps F) (s : Search F) : ∃ nodes openNodes, (pop ops s).2 = { s with nodes, openNodes } := by
  unfold pop
  dsimp only
  split
  · exact ⟨_, _, rfl⟩
  · obtain ⟨nodes, openNodes, h⟩ := sink_eq ops _ _ 0
    exact ⟨nodes, openNodes, h⟩

/-! ### Choosing an edge -/

/-- The place in the loop over the directions. -/
structure Cursor where
  originConnectorPending : Bool
  nextDirection : ℕ
  nextStride : ℕ

def Search.cursor (s : Search F) : Cursor := ⟨s.originConnectorPending, s.nextDirection, s.nextStride⟩

def Search.at (s : Search F) (c : Cursor) : Search F :=
  { s with
    originConnectorPending := c.originConnectorPending
    nextDirection := c.nextDirection
    nextStride := c.nextStride }

/-- An edge was chosen. -/
def Search.take (s : Search F) (ops : FloatOps F) (i stride : ℕ) (offer : EdgeOffer F) : Search F :=
  { s with
    edgeAttempts := s.edgeAttempts + 1
    edgeFrom := some i
    edgeExisting := offer.existing
    edgeStride := stride
    edgeX := offer.x
    edgeY := offer.y
    edgeTarget := offer.target
    edge := .initial ops
    edgeActive := true }

/-- The loop over the directions finds no edge, or there is none left, or it takes one. -/
theorem nextEdge_cases (ops : FloatOps F) (request : Request F) (i fuel : ℕ) (s : Search F) (hdirection : s.nextDirection ≤ 8) : ∃ c : Cursor,
    c.nextDirection ≤ 8 ∧ (nextEdge ops request i fuel s = s.at c ∧
        ((8 - s.nextDirection) + s.originConnectorPending.toNat ≤ fuel → c.nextDirection = 8) ∨
      nextEdge ops request i fuel s = (s.at c).reject .surfaceDetourEdgeLimit ∨
      s.edgeAttempts ≠ s.edgeLimit ∧ ∃ stride offer direction,
        offerEdge ops request (s.at c) i stride direction = some offer ∧
        nextEdge ops request i fuel s = (s.at c).take ops i stride offer) := by
  induction fuel generalizing s with
  | zero => exact ⟨s.cursor, hdirection, .inl ⟨rfl, fun _ => by dsimp only [Search.cursor]; omega⟩⟩
  | succ fuel ih =>
    unfold nextEdge
    dsimp only
    split
    next hdone =>
      simp only [Bool.not_eq_true', Bool.or_eq_false_iff, decide_eq_false_iff_not] at hdone
      exact ⟨s.cursor, hdirection, .inl ⟨rfl, fun _ => by dsimp only [Search.cursor]; omega⟩⟩
    next hmore =>
      generalize hnext : (if (decide (i = 0) && s.originConnectorPending) = true then
        { s with originConnectorPending := false, nextStride := 4 }
        else { s with nextDirection := s.nextDirection + 1, nextStride := 4 }) = next
      have hcursor : ∃ c : Cursor, next = s.at c ∧ c.nextDirection ≤ 8 ∧
          (8 - c.nextDirection) + c.originConnectorPending.toNat < (8 - s.nextDirection) + s.originConnectorPending.toNat := by
        subst hnext
        split
        next hconnector =>
          refine ⟨⟨false, s.nextDirection, 4⟩, rfl, hdirection, ?_⟩
          rw [Bool.and_eq_true] at hconnector
          simp [hconnector.2]
        next hconnector =>
          simp only [hconnector, Bool.or_false, Bool.not_eq_true', decide_eq_false_iff_not, not_not] at hmore
          exact ⟨⟨s.originConnectorPending, s.nextDirection + 1, 4⟩, rfl, by dsimp only; omega, by dsimp only; omega⟩
      obtain ⟨c, rfl, hc, hless⟩ := hcursor
      split
      next =>
        obtain ⟨c', hc', h⟩ := ih (s.at c) hc
        refine ⟨c', hc', ?_⟩
        obtain ⟨heq, hfuel⟩ | heq | hchosen := h
        · refine .inl ⟨heq, fun hroom => hfuel ?_⟩
          change (8 - c.nextDirection) + c.originConnectorPending.toNat ≤ fuel
          omega
        · exact .inr (.inl heq)
        · exact .inr (.inr hchosen)
      next offer hoffer =>
        refine ⟨c, hc, .inr ?_⟩
        split
        next => exact .inl rfl
        next hlimit => exact .inr ⟨hlimit, _, offer, _, hoffer, rfl⟩

end AIWorld.Agent.LivingSurfaceDetour
