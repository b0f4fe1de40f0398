import AIWorld.Memory.MemoryRetrieval

/-! What presses an agent. Every need is a number between zero and one that grows with time or follows the
body and the memories; two of them latch an event when they become critical. -/

namespace AIWorld.Needs

open Memory (RetrievedMemory)
open Memory.MemoryRetrieval (clamp)
open Quest (WorldEventType)

structure NeedsState where
  healthPressure : Float32 := 0
  hunger : Float32 := 0
  fatigue : Float32 := 0
  safetyPressure : Float32 := 0
  resourcePressure : Float32 := 0
  deriving DecidableEq

structure NeedsUpdateRates where
  hungerPerSecond : Float32 := 0.0002
  fatiguePerSecond : Float32 := 0.0001
  resourcePressurePerSecond : Float32 := 0.00005

structure NeedsUpdateContext where
  health : UInt32 := 0
  maxHealth : UInt32 := 0
  alive : Bool := false
  inCombat : Bool := false
  memorySafetyPressure : Float32 := 0

structure NeedsThresholdState where
  hungerCriticalActive : Bool := false
  dangerHighActive : Bool := false
  deriving DecidableEq

inductive NeedsThresholdEventType
  | hungerCritical | dangerHigh
  deriving DecidableEq

structure NeedsThresholdEvent where
  type : NeedsThresholdEventType
  value : Float32

namespace NeedsSystem

def isDangerousEventType (type : WorldEventType) : Bool :=
  type = .creatureKilled || type = .npcInjured || type = .livestockKilled || type = .wolfPackMoved ||
    type = .npcDied

def criticalEnterThreshold : Float32 := 0.80

def criticalResetThreshold : Float32 := 0.60

/-- The dead feel nothing new but that they are not well. -/
def update (state : NeedsState) (context : NeedsUpdateContext) (elapsedMs : UInt32) (rates : NeedsUpdateRates) :
    NeedsState :=
  if !context.alive then { state with healthPressure := 1 }
  else
    let dtSeconds := elapsedMs.toFloat32 / 1000
    { healthPressure :=
        if context.maxHealth = 0 then 1
        else 1 - clamp (context.health.toFloat32 / context.maxHealth.toFloat32) 0 1
      safetyPressure := if context.inCombat then 1 else clamp context.memorySafetyPressure 0 1
      hunger := clamp (state.hunger + rates.hungerPerSecond * dtSeconds) 0 1
      fatigue := clamp (state.fatigue + rates.fatiguePerSecond * dtSeconds) 0 1
      resourcePressure := clamp (state.resourcePressure + rates.resourcePressurePerSecond * dtSeconds) 0 1 }

/-- What one memory adds to the danger felt so far. -/
def remembered (nowMs : UInt64) (recentWindowMs : UInt32) (pressure : Float32) (memory : RetrievedMemory) : Float32 :=
  if !memory.sourceEventType.any isDangerousEventType then pressure
  else if nowMs < memory.lastObservedAtMs then pressure
  else
    let ageMs := nowMs - memory.lastObservedAtMs
    if recentWindowMs.toUInt64 ≤ ageMs then pressure
    else
      let recency := 1 - ageMs.toFloat32 / recentWindowMs.toFloat32
      let danger := memory.importance * recency
      if pressure < danger then danger else pressure

def evaluateMemorySafety (memories : List RetrievedMemory) (nowMs : UInt64) (recentWindowMs : UInt32) : Float32 :=
  clamp (memories.foldl (remembered nowMs recentWindowMs) 0) 0 1

/-- One latch: set on the way up, with an event, and cleared on the way down. -/
def latch (type : NeedsThresholdEventType) (active : Bool) (value : Float32) : Bool × List NeedsThresholdEvent :=
  if !active && criticalEnterThreshold ≤ value then (true, [⟨type, value⟩])
  else if active && value < criticalResetThreshold then (false, [])
  else (active, [])

def evaluateThresholds (state : NeedsState) (thresholds : NeedsThresholdState) :
    NeedsThresholdState × List NeedsThresholdEvent :=
  let hunger := latch .hungerCritical thresholds.hungerCriticalActive state.hunger
  let danger := latch .dangerHigh thresholds.dangerHighActive state.safetyPressure
  (⟨hunger.1, danger.1⟩, hunger.2 ++ danger.2)

def satisfyHunger (state : NeedsState) : NeedsState := { state with hunger := 0 }

end NeedsSystem

end AIWorld.Needs
