import AIWorld.Goal.Meals
import AIWorld.Goal.Wages
import AIWorld.Goal.AgentRuns
import AIWorld.Goal.PassOwnership
import AIWorld.Goal.SlotOwnership
import AIWorld.Goal.AgentLoop
import AIWorld.Goal.Coordination
import AIWorld.Goal.AgentRecord
import AIWorld.Needs.NeedsSystem
import AIWorld.Quest.QuestGossip
import AIWorld.Quest.KillCredit
import AIWorld.Quest.QuestRewards
import AIWorld.Quest.QuestProvenance
import AIWorld.Quest.ManagerSteps
import AIWorld.Quest.QuestFate
import AIWorld.Quest.QuestManager
import AIWorld.Quest.TaskRequest
import AIWorld.Agent.DetourHeapRuns
import AIWorld.Agent.DetourOpenList
import AIWorld.Agent.SurfaceNumbers
import AIWorld.Agent.FineRouteCorners
import AIWorld.Agent.MemoryExperiences
import AIWorld.RealmLab.TerrainField
import AIWorld.Lib.Tents
import AIWorld.RealmLab.TerrainGeometry
import AIWorld.Agent.ExecutionLegs
import AIWorld.Agent.ReturnTrail
import AIWorld.Telemetry.MemoryPageRequest
import AIWorld.Viewer.PageQueue
import AIWorld.Agent.NpcAgentFeedback
import AIWorld.Inference.DecisionResponse
import AIWorld.AiServer.RecoveryAgreement
import AIWorld.Lib.Json.Reader
import AIWorld.Lib.Binary32Text
import AIWorld.Agent.SurfaceWalks
import AIWorld.Agent.CorridorCoverage
import AIWorld.Raid.StraightLegs
import AIWorld.Inference.NpcAgentRequestText
import AIWorld.Inference.StringDecoders
import AIWorld.Agent.TravelContext
import AIWorld.Lib.Thinning
import AIWorld.Agent.LivingFineRoute
import AIWorld.Action.Authority
import AIWorld.Action.ActionRequest
import AIWorld.Action.ActionSystem
import AIWorld.Quest.PlayerCompletion
import AIWorld.Raid.PartySteps
import AIWorld.Raid.Departures
import AIWorld.Caravan.SoloReturn
import AIWorld.Inference.NpcAgentResponses
import AIWorld.Agent.SpeechNormalForm
import AIWorld.Memory.RetrievalCoverage
import AIWorld.Agent.RaidRouteChoice
import AIWorld.Agent.HuntSelection
import AIWorld.Memory.MemoryBounds
import AIWorld.Memory.MemoryPages
import AIWorld.Agent.RaidPartyAssessment
import AIWorld.Scheduler.DecisionFairness
import AIWorld.Agent.PlanningInactivity
import AIWorld.Agent.RaidPartyFormation
import AIWorld.LivingSupply.ExactlyOnce
import AIWorld.LivingSupply.Growth
import AIWorld.LivingSupply.Polling
import AIWorld.LivingSupply.Reservations
import AIWorld.LivingSupply.RoleIsolation
import AIWorld.Quest.GiverIndex
import AIWorld.Quest.Life
import AIWorld.MaintenanceScan
import AIWorld.Groups.Factions
import AIWorld.Scheduler.TimeConservation
import AIWorld.Scheduler.NoOvertaking
import AIWorld.Scheduler.BudgetRuns
import AIWorld.Agent.AdviceFairness
import AIWorld.Agent.ConversationReplays
import AIWorld.Agent.SpeechWindows
import AIWorld.Agent.MemoryRecall
import AIWorld.Agent.DetourSlicing
import AIWorld.Agent.DetourTermination
import AIWorld.Inference.DynamicTaskRoundTrip
import AIWorld.Reconciliation.Replanning
import AIWorld.AiServer.TaskAgreement
