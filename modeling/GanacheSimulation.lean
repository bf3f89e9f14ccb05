import GanacheSimulation.Async
import GanacheSimulation.Data
import GanacheSimulation.CheckpointDB
import GanacheSimulation.StateManager
import GanacheSimulation.AccessList
import GanacheSimulation.Overrides
import GanacheSimulation.OverrideEffects
import GanacheSimulation.Handler
import GanacheSimulation.HandlerSpec
import GanacheSimulation.Budget
import GanacheSimulation.Events
import GanacheSimulation.Isolation
import GanacheSimulation.Warmth
import GanacheSimulation.AccessListLoop
import GanacheSimulation.Lifecycle
