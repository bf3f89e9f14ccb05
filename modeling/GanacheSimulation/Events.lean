import GanacheSimulation.HandlerSpec

/-! # The events of a simulation

`initialize` emits `before` once, before anything else, and installs the step listener only when
the gas covers the intrinsic cost. From then on each VM call emits, per step, a console.log
event when the step carries logs and a step event. `runCall` emits `after` as soon as the VM call
returns, before it looks at the result's exception.

So a simulation's trace is always `before`, then for each VM call its step events and `after`,
in the order of the calls (`event_trace`), however `runCall` or `createAccessList` ends. A call
whose result carries an exception emits `after`, and `runCall` then rejects with a `CallError`
(`after_emitted_on_call_error`). -/

namespace Ganache

/-- The events of one VM call: its steps through the listener, then `after`. -/
def callEvents (vm : Vm) (stepListener : Bool) (context : Nat) (c : VmCall) : List Event :=
  listenerEvents stepListener context (vm.runCall c.opts c.stateManager).steps ++
    [.after context]

/-- The trace a handler's VM calls account for: `before`, then the events of each call. -/
def traceOf (vm : Vm) (h : SimulationHandler) : List Event :=
  .before h.transactionContext ::
    (h.invocations.map (callEvents vm h.stepListener h.transactionContext)).flatten

/-- The handler has emitted exactly what its VM calls account for. -/
def Traced (vm : Vm) (h : SimulationHandler) : Prop := h.emitted = traceOf vm h

theorem traced_runCall (vm : Vm) : Preserves (Traced vm) (runCall vm) :=
  runCall_preserves vm fun h opts ht _ _ => by
    unfold Traced at ht ⊢
    rw [afterCall_emitted, ht]
    simp [traceOf, callEvents, SimulationHandler.afterCall]

/-- The event trace: `before`, then each VM call's console and step events followed by `after`,
whatever the call's result. -/
theorem event_trace (vm : Vm) (keccak : Bytes → Bytes) (blockchain : Blockchain)
    (common : Common) (simulationBlock : Block) (transaction : SimulationTransaction)
    (overrides : Option CallOverrides) (context : Nat) (sm : StateManager) :
    (stateOf ((initializeSimulation keccak blockchain common simulationBlock transaction
      overrides).run (SimulationHandler.new context sm))).emitted = [.before context] ∧
    ∀ h₁, (initializeSimulation keccak blockchain common simulationBlock transaction
        overrides).run (SimulationHandler.new context sm) = .ok () h₁ →
      h₁.stepListener =
        decide (calculateIntrinsicGas transaction.data transaction.to.isSome common ≤ transaction.gas) ∧
      Traced vm (stateOf ((runCall vm).run h₁)) ∧
      ∀ seed, Traced vm (stateOf ((createAccessList vm seed).run h₁)) := by
  obtain ⟨hemitted, hcalls, hcontext, hlistener⟩ := initializeSimulation_emitted keccak blockchain
    common simulationBlock transaction overrides context sm
  refine ⟨hemitted, fun h₁ hok => ?_⟩
  rw [hok] at hemitted hcalls hcontext hlistener
  have ht : Traced vm h₁ := by
    simp only [stateOf_ok] at hemitted hcalls hcontext
    simp [Traced, traceOf, hemitted, hcalls, hcontext]
  exact ⟨hlistener, traced_runCall vm h₁ ht, fun seed =>
    accessListLoop_preserves (fun _ _ hI => hI) (traced_runCall vm) MAX_ITERATIONS _ h₁ ht⟩

/-- A VM whose every call takes one step, at program counter 0, and reverts. -/
def Vm.reverting : Vm := ⟨fun _ _ => ⟨⟨0, ⟨some .REVERT, [], 0⟩⟩, [⟨0, none⟩], []⟩, fun _ _ => rfl⟩

/-- The event protocol on a plain call whose VM run takes one step and reverts. -/
theorem event_trace_reverting :
    (stateOf ((initializeSimulation (fun _ => []) Blockchain.empty Common.berlin
      Block.genesis (callTx 21000 1 none) none).run
        (SimulationHandler.new 0 StateManager.empty))).emitted = [.before 0] ∧
    ∃ h₁, (initializeSimulation (fun _ => []) Blockchain.empty Common.berlin
        Block.genesis (callTx 21000 1 none) none).run (SimulationHandler.new 0 StateManager.empty) =
        .ok () h₁ ∧
      h₁.stepListener = decide (calculateIntrinsicGas (callTx 21000 1 none).data
        (callTx 21000 1 none).to.isSome Common.berlin ≤ (callTx 21000 1 none).gas) ∧
      Traced Vm.reverting (stateOf ((runCall Vm.reverting).run h₁)) ∧
      ∀ seed, Traced Vm.reverting (stateOf ((createAccessList Vm.reverting seed).run h₁)) :=
  ⟨(event_trace Vm.reverting (fun _ => []) Blockchain.empty Common.berlin Block.genesis
      (callTx 21000 1 none) none 0 StateManager.empty).1,
    _, rfl, (event_trace Vm.reverting (fun _ => []) Blockchain.empty Common.berlin Block.genesis
      (callTx 21000 1 none) none 0 StateManager.empty).2 _ rfl⟩

/-- `after` on a path where `runCall` raises `CallError`: on a plain call whose VM run takes one
step and reverts, `runCall` emits the step and `after`, and then rejects. -/
theorem after_emitted_on_call_error :
    ∃ h₁, (initializeSimulation (fun _ => []) Blockchain.empty Common.berlin
        Block.genesis (callTx 21000 1 none) none).run (SimulationHandler.new 0 StateManager.empty) =
        .ok () h₁ ∧
      ∃ r h₂, (runCall Vm.reverting).run h₁ = .error (.callError r) h₂ ∧
        r.execResult.exceptionError = some .REVERT ∧
        h₂.emitted = [.before 0, .step 0 ⟨0, none⟩, .after 0] :=
  ⟨_, rfl, _, _, rfl, rfl, rfl⟩

end Ganache
