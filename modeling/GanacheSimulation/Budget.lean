import GanacheSimulation.HandlerSpec

/-! # What the VM is given

`initialize` compares the gas with the intrinsic cost. When the gas does not cover it, nothing
but the set-up happens, and every later `runCall` or `createAccessList` fails at once with a
made-up `OUT_OF_GAS` result, neither running the VM nor emitting an event. When it does, the
boundary included, `runCall` runs the VM once and `createAccessList` at least once, each time with
the options `initialize` set, whose gas is what is left over (`intrinsic_gas_coverage`).

Before the VM runs, `initialize` bumps the sender's nonce and takes `gas × gasPrice` from its
balance. The balance is a `BN` subtracted in place and stored through the account encoding,
which writes the magnitude: a sender who cannot pay is left with the shortfall as a positive
balance, and `initialize` resolves (`underfunded_sender_balance`). Every `createAccessList`
iteration starts from the same debited accounts and storage, because each iteration is a
balanced run between a checkpoint and a revert; only the access frames grow (`sender_debit`). -/

namespace Ganache

/-- Every VM call so far was given the options `opts`, and the handler holds them. -/
def CallsGot (opts : RunCallOpts) (h : SimulationHandler) : Prop :=
  h.runCallOpts = some opts ∧ ∀ c ∈ h.invocations, c.opts = opts

theorem callsGot_runCall (vm : Vm) (opts : RunCallOpts) :
    Preserves (CallsGot opts) (runCall vm) :=
  runCall_preserves vm fun h o ⟨ho, hc⟩ _ ho' => by
    obtain rfl : o = opts := Option.some.inj (ho'.symm.trans ho)
    refine ⟨ho, fun c hc' => ?_⟩
    rcases List.mem_append.mp hc' with hc' | hc'
    · exact hc c hc'
    · rw [List.mem_singleton.mp hc']

theorem invocations_accessListIteration (vm : Vm) (h : SimulationHandler) :
    (stateOf ((accessListIteration vm).run h)).invocations =
      (stateOf ((runCall vm).run h.checkpointed)).invocations := by
  rw [accessListIteration_run]
  split <;> next h₂ hr => rw [hr]; rfl

/-- The first iteration of `createAccessList` runs the VM when `initialize` set the options, and
no later step removes a call from the log. -/
theorem invocations_createAccessList_ne_nil (vm : Vm) {h : SimulationHandler} {opts : RunCallOpts}
    (he : h.initializationError = none) (ho : h.runCallOpts = some opts) (seed : Option AccessList) :
    (stateOf ((createAccessList vm seed).run h)).invocations ≠ [] := by
  have hfirst : (stateOf ((accessListIteration vm).run h)).invocations ≠ [] := by
    rw [invocations_accessListIteration, stateOf_runCall]
    simp [SimulationHandler.checkpointed, he, ho]
  show (stateOf ((accessListLoop vm (999 + 1) _).run h)).invocations ≠ []
  rw [accessListLoop_succ]
  rcases hit : (accessListIteration vm).run h with ⟨⟨r, L⟩, h₁⟩ | ⟨e, h₁⟩ <;> rw [hit] at hfirst
  · dsimp only
    split
    · exact hfirst
    · exact accessListLoop_preserves (I := fun h' => h'.invocations ≠ []) (fun _ _ hI => hI)
        (runCall_preserves vm fun _ _ _ _ _ => by simp) _ _ _ hfirst
  · exact hfirst

/-! ### Intrinsic gas -/

/-- Intrinsic-gas coverage: below the intrinsic cost both methods fail with `OUT_OF_GAS` and no VM
call; from it up, `runCall` makes exactly one call and every call gets the gas left. -/
theorem intrinsic_gas_coverage (vm : Vm) (keccak : Bytes → Bytes) (blockchain : Blockchain)
    (common : Common) (simulationBlock : Block) (transaction : SimulationTransaction)
    (overrides : Option CallOverrides) (context : Nat) (sm : StateManager) :
    (transaction.gas < calculateIntrinsicGas transaction.data transaction.to.isSome common →
      ∃ h₁, (initializeSimulation keccak blockchain common simulationBlock transaction
          overrides).run (SimulationHandler.new context sm) = .ok () h₁ ∧
        h₁.stepListener = false ∧
        h₁.stateManager = (blockchain.createVmFromStateTrie ((blockchain.trie.copy false).setContext
          simulationBlock.stateRoot none simulationBlock.number)).checkpoint ∧
        h₁.emitted = [.before context] ∧ h₁.invocations = [] ∧
        (∃ r, (runCall vm).run h₁ = .error (.callError r) h₁ ∧
          r.execResult = ⟨some .OUT_OF_GAS, [], 0⟩) ∧
        ∀ seed, ∃ r, (createAccessList vm seed).run h₁ =
            .error (.callError r) { h₁ with stateManager := h₁.stateManager.checkpoint } ∧
          r.execResult = ⟨some .OUT_OF_GAS, [], 0⟩) ∧
    (calculateIntrinsicGas transaction.data transaction.to.isSome common ≤ transaction.gas →
      ∀ h₁, (initializeSimulation keccak blockchain common simulationBlock transaction
          overrides).run (SimulationHandler.new context sm) = .ok () h₁ →
        (stateOf ((runCall vm).run h₁)).invocations = [⟨runCallOptsOf transaction
          (transaction.gas - calculateIntrinsicGas transaction.data transaction.to.isSome common),
          h₁.stateManager⟩] ∧
        ∀ seed, (stateOf ((createAccessList vm seed).run h₁)).invocations ≠ [] ∧
          ∀ c ∈ (stateOf ((createAccessList vm seed).run h₁)).invocations,
            c.opts = runCallOptsOf transaction
              (transaction.gas - calculateIntrinsicGas transaction.data transaction.to.isSome common) ∧
            c.opts.gasLimit =
              transaction.gas - calculateIntrinsicGas transaction.data transaction.to.isSome common) := by
  refine ⟨fun hlt => ?_, fun hle h₁ hok => ?_⟩
  · rw [initializeSimulation_of_lt keccak blockchain common simulationBlock transaction overrides _
      hlt]
    refine ⟨_, rfl, rfl, rfl, rfl, rfl, ⟨_, runCall_of_initializationError vm rfl, rfl⟩,
      fun seed => ⟨initializationResult .OUT_OF_GAS, ?_, rfl⟩⟩
    show (accessListLoop vm (999 + 1) _).run _ = _
    rw [accessListLoop_succ, accessListIteration_run, runCall_of_initializationError vm rfl]
    rfl
  · obtain ⟨hroots, he, ho, hcalls⟩ := initializeSimulation_ready keccak blockchain common
      simulationBlock transaction overrides context sm hle hok
    have h₀ : CallsGot (runCallOptsOf transaction
        (transaction.gas - calculateIntrinsicGas transaction.data transaction.to.isSome common)) h₁ :=
      ⟨ho, fun _ hc => absurd (hcalls ▸ hc) (List.not_mem_nil _)⟩
    refine ⟨by rw [stateOf_runCall, he, ho, afterCall_invocations, hcalls]; rfl,
      fun seed => ⟨invocations_createAccessList_ne_nil vm he ho seed, fun c hc => ?_⟩⟩
    have hopts := (accessListLoop_preserves (fun _ _ hI => hI) (callsGot_runCall vm _)
      MAX_ITERATIONS _ _ h₀).2 c hc
    exact ⟨hopts, by rw [hopts]; rfl⟩

/-- Both sides of the intrinsic-gas check on a plain call, whose intrinsic gas is 21000: with
20999 gas the handler fails at once; with exactly 21000 the VM is given 0 gas. -/
theorem intrinsic_gas_coverage_callTx :
    (∃ h₁, (initializeSimulation (fun _ => []) Blockchain.empty Common.berlin Block.genesis
          (callTx 20999 1 none) none).run (SimulationHandler.new 0 StateManager.empty) = .ok () h₁ ∧
        h₁.stepListener = false ∧
        h₁.stateManager = (Blockchain.empty.createVmFromStateTrie
          ((Blockchain.empty.trie.copy false).setContext Block.genesis.stateRoot none
            Block.genesis.number)).checkpoint ∧
        h₁.emitted = [.before 0] ∧ h₁.invocations = [] ∧
        (∃ r, (runCall Vm.idle).run h₁ = .error (.callError r) h₁ ∧
          r.execResult = ⟨some .OUT_OF_GAS, [], 0⟩) ∧
        ∀ seed, ∃ r, (createAccessList Vm.idle seed).run h₁ =
            .error (.callError r) { h₁ with stateManager := h₁.stateManager.checkpoint } ∧
          r.execResult = ⟨some .OUT_OF_GAS, [], 0⟩) ∧
    ∃ h₁, (initializeSimulation (fun _ => []) Blockchain.empty Common.berlin Block.genesis
          (callTx 21000 1 none) none).run (SimulationHandler.new 0 StateManager.empty) = .ok () h₁ ∧
        (stateOf ((runCall Vm.idle).run h₁)).invocations =
          [⟨runCallOptsOf (callTx 21000 1 none) (21000 - 21000), h₁.stateManager⟩] ∧
        ∀ seed, (stateOf ((createAccessList Vm.idle seed).run h₁)).invocations ≠ [] ∧
          ∀ c ∈ (stateOf ((createAccessList Vm.idle seed).run h₁)).invocations,
            c.opts = runCallOptsOf (callTx 21000 1 none) (21000 - 21000) ∧
            c.opts.gasLimit = 21000 - 21000 :=
  ⟨(intrinsic_gas_coverage Vm.idle (fun _ => []) Blockchain.empty Common.berlin Block.genesis
      (callTx 20999 1 none) none 0 StateManager.empty).1 (by decide),
    _, rfl, (intrinsic_gas_coverage Vm.idle (fun _ => []) Blockchain.empty Common.berlin Block.genesis
      (callTx 21000 1 none) none 0 StateManager.empty).2 (by decide) _ rfl⟩

/-! ### The sender's debit -/

theorem debitBalance_eq (balance txCost : Nat) :
    debitBalance balance txCost = if txCost ≤ balance then balance - txCost else txCost - balance := by
  unfold debitBalance
  split <;> omega

/-- Every VM call so far was given `S` checkpointed, up to the access frames and the leveldb. -/
def CallsFrom (S : StateManager) (h : SimulationHandler) : Prop :=
  ∀ c ∈ h.invocations, StateManager.SameState S.checkpoint c.stateManager

/-- Where an iteration starts: at `S` up to the access frames and the leveldb, on a trie whose
checkpoints agree with its root. -/
def AtDebited (S : StateManager) (h : SimulationHandler) : Prop :=
  StateManager.SameState S h.stateManager ∧ StateManager.RootsAgree h.stateManager.trie ∧ CallsFrom S h

theorem callsFrom_runCall (vm : Vm) {S : StateManager} {h : SimulationHandler}
    (hS : StateManager.SameState S h.stateManager) (hc : CallsFrom S h) :
    CallsFrom S (stateOf ((runCall vm).run h.checkpointed)) := by
  obtain ⟨calls, hcalls, -, hsame⟩ := invocations_runCall vm h.checkpointed
  intro c hmem
  rw [hcalls] at hmem
  rcases List.mem_append.mp hmem with hmem | hmem
  · exact hc c hmem
  · rw [(hsame c hmem).1]; exact hS.checkpoint

/-- A resolved iteration from `S`, up to the access frames and the leveldb, ends there too. -/
theorem atDebited_iteration (vm : Vm) (S : StateManager) (h : SimulationHandler) (r : EVMResult)
    (L : AccessList) (h₁ : SimulationHandler) (hit : (accessListIteration vm).run h = .ok (r, L) h₁)
    (hI : AtDebited S h) : AtDebited S h₁ := by
  obtain ⟨hS, hroots, hc⟩ := hI
  have hcalls := callsFrom_runCall vm hS hc
  obtain ⟨opts, he, ho, -, -, -, rfl⟩ := accessListIteration_ok hit
  rw [stateOf_runCall] at hcalls
  have hsame := StateManager.sameState_iteration h.stateManager _
    (vm.balanced_runCall opts h.stateManager.checkpoint) hroots
  refine ⟨hS.trans hsame, hsame.trie ▸ hroots, ?_⟩
  simpa [SimulationHandler.checkpointed, he, ho] using hcalls

/-- What every VM call of `createAccessList` is given: the state manager the loop started from,
checkpointed, up to the access frames and the leveldb. -/
theorem invocations_createAccessList_sameState (vm : Vm) {h₁ : SimulationHandler}
    (hroots : StateManager.RootsAgree h₁.stateManager.trie) (hcalls : h₁.invocations = [])
    (seed : Option AccessList) :
    ∀ c ∈ (stateOf ((createAccessList vm seed).run h₁)).invocations,
      StateManager.SameState h₁.stateManager.checkpoint c.stateManager :=
  accessListLoop_invariant (I := AtDebited h₁.stateManager) (J := CallsFrom h₁.stateManager)
    (atDebited_iteration vm h₁.stateManager)
    (fun h e h' hit hI => by
      have := callsFrom_runCall vm hI.1 hI.2.2
      rwa [accessListIteration_error hit, stateOf_error] at this)
    (fun _ hI => hI.2.2) (fun _ hJ => hJ) MAX_ITERATIONS _ _
    ⟨.refl _, hroots, fun _ h => absurd (hcalls ▸ h) (List.not_mem_nil _)⟩

/-- The sender's debit after the overrides: nonce `n₀ + 1`, balance `|b₀ − gas·gasPrice|`, no other
account changed, and every VM call given that state. -/
theorem sender_debit (vm : Vm) (keccak : Bytes → Bytes) (blockchain : Blockchain)
    (common : Common) (simulationBlock : Block) (transaction : SimulationTransaction)
    (overrides : Option CallOverrides) (context : Nat) (sm : StateManager)
    (hle : calculateIntrinsicGas transaction.data transaction.to.isSome common ≤ transaction.gas)
    (h₁ : SimulationHandler)
    (hok : (initializeSimulation keccak blockchain common simulationBlock transaction
      overrides).run (SimulationHandler.new context sm) = .ok () h₁) :
    ∃ smo : StateManager, (applyOverridesIfAny keccak overrides).run
        (((SimulationHandler.new context sm).started blockchain common simulationBlock
          transaction).listening common transaction).stateManager = .ok () smo ∧
      (h₁.stateManager.accounts transaction.from).nonce = (smo.accounts transaction.from).nonce + 1 ∧
      (h₁.stateManager.accounts transaction.from).balance =
        (if transaction.gas * transaction.gasPrice ≤ (smo.accounts transaction.from).balance then
          (smo.accounts transaction.from).balance - transaction.gas * transaction.gasPrice
        else transaction.gas * transaction.gasPrice - (smo.accounts transaction.from).balance) ∧
      (∀ a, a ≠ transaction.from → h₁.stateManager.accounts a = smo.accounts a) ∧
      (∀ c ∈ (stateOf ((runCall vm).run h₁)).invocations, c.stateManager = h₁.stateManager) ∧
      ∀ seed, ∀ c ∈ (stateOf ((createAccessList vm seed).run h₁)).invocations,
        StateManager.SameState h₁.stateManager.checkpoint c.stateManager := by
  obtain ⟨smo, hsmo, hh₁⟩ :=
    initializeSimulation_ok_of_le keccak blockchain common simulationBlock transaction overrides _
      hle hok
  obtain ⟨hroots, he, ho, hcalls⟩ := initializeSimulation_ready keccak blockchain common
    simulationBlock transaction overrides context sm hle hok
  have hsm : h₁.stateManager = debitSender transaction.from transaction.gas transaction.gasPrice
      (warmTransactionAccessList common transaction.accessList smo) := by rw [hh₁]
  obtain ⟨acc, hw⟩ := warmTransactionAccessList_eq common transaction.accessList smo
  refine ⟨smo, hsmo, ?_, ?_, fun a ha => ?_, fun c hc => ?_,
    invocations_createAccessList_sameState vm hroots hcalls⟩
  · simp [hsm, debitSender, hw, StateManager.putAccount, StateManager.getAccount]
  · simp [hsm, debitSender, hw, StateManager.putAccount, StateManager.getAccount, debitBalance_eq]
  · simp [hsm, debitSender, hw, StateManager.putAccount, ha]
  · rw [stateOf_runCall, he, ho, afterCall_invocations, hcalls] at hc
    rw [List.mem_singleton.mp hc]

/-- A sender with nothing, sending a plain call with 21000 gas at gas price 1: `initialize`
resolves and debits it as `sender_debit` says. -/
theorem sender_debit_underfunded :
    21000 ≤ 21000 ∧ ∃ h₁, (initializeSimulation (fun _ => []) Blockchain.empty Common.berlin
        Block.genesis (callTx 21000 1 none) none).run (SimulationHandler.new 0 StateManager.empty) =
        .ok () h₁ ∧
      ∃ smo : StateManager, (applyOverridesIfAny (fun _ => []) none).run
          (((SimulationHandler.new 0 StateManager.empty).started Blockchain.empty
            Common.berlin Block.genesis (callTx 21000 1 none)).listening Common.berlin
            (callTx 21000 1 none)).stateManager = .ok () smo ∧
        (h₁.stateManager.accounts (Address.ofByte 0xa0)).nonce =
          (smo.accounts (Address.ofByte 0xa0)).nonce + 1 ∧
        (h₁.stateManager.accounts (Address.ofByte 0xa0)).balance =
          (if 21000 * 1 ≤ (smo.accounts (Address.ofByte 0xa0)).balance then
            (smo.accounts (Address.ofByte 0xa0)).balance - 21000 * 1
          else 21000 * 1 - (smo.accounts (Address.ofByte 0xa0)).balance) ∧
        (∀ a, a ≠ Address.ofByte 0xa0 → h₁.stateManager.accounts a = smo.accounts a) ∧
        (∀ c ∈ (stateOf ((runCall Vm.idle).run h₁)).invocations, c.stateManager = h₁.stateManager) ∧
        ∀ seed, ∀ c ∈ (stateOf ((createAccessList Vm.idle seed).run h₁)).invocations,
          StateManager.SameState h₁.stateManager.checkpoint c.stateManager :=
  ⟨le_refl _, _, rfl, sender_debit Vm.idle (fun _ => []) Blockchain.empty Common.berlin Block.genesis
    (callTx 21000 1 none) none 0 StateManager.empty (by decide) _ rfl⟩

/-- A sender with balance 0 paying 30000 is credited 30000, and every VM call sees that balance. -/
theorem underfunded_sender_balance :
    ∃ h₁, (initializeSimulation (fun _ => []) Blockchain.empty Common.berlin Block.genesis
        (callTx 30000 1 none) none).run (SimulationHandler.new 0 StateManager.empty) = .ok () h₁ ∧
      (Blockchain.empty.accountsAt [] (Address.ofByte 0xa0)).balance = 0 ∧
      (h₁.stateManager.accounts (Address.ofByte 0xa0)).balance = 30000 ∧
      (∃ c, (stateOf ((runCall Vm.idle).run h₁)).invocations = [c] ∧
        (c.stateManager.accounts (Address.ofByte 0xa0)).balance = 30000) ∧
      ∀ (vm : Vm) seed, ∀ c ∈ (stateOf ((createAccessList vm seed).run h₁)).invocations,
        (c.stateManager.accounts (Address.ofByte 0xa0)).balance = 30000 := by
  obtain ⟨hroots, -, -, hcalls⟩ := initializeSimulation_ready (fun _ => []) Blockchain.empty
    Common.berlin Block.genesis (callTx 30000 1 none) none 0 StateManager.empty (by decide) rfl
  refine ⟨_, rfl, rfl, rfl, ⟨_, rfl, rfl⟩, fun vm seed c hc => ?_⟩
  rw [(invocations_createAccessList_sameState vm hroots hcalls seed c hc).accounts]
  rfl

end Ganache
