import GanacheSimulation.Handler
import Mathlib.Data.List.Chain

/-! # Spec lemmas of the handler's methods

One lemma per method says what it does to the handler's state, so that the results about whole
simulations cite these and never unfold a method: `initialize` on each side of the intrinsic-gas
check and `prepare_run` for the rest of it, `runCall` by the three cases of its first `if`, and
`accessListIteration_run` and `accessListLoop_succ` for one iteration of the `createAccessList`
loop.

A resolved iteration from `h` with the options `opts` ends at `h.iterated vm opts` and generates
`h.generated vm opts`. `Iterates` chains resolved iterations, each starting where the one before
ended, and `accessListLoop_trace` gives every run of the loop as such a chain followed by its
last iteration: the one that resolved with a list, the one that rejected, or none when the loop
ran out. `accessListLoop_ends` carries an invariant through every iteration. -/

namespace Ganache

/-- The handler once `initialize` has emitted `before`: the state manager of the VM made on the
trie copied at the block's state root, checkpointed, and the intrinsic gas. -/
def SimulationHandler.started (h : SimulationHandler) (blockchain : Blockchain) (common : Common)
    (simulationBlock : Block) (transaction : SimulationTransaction) : SimulationHandler :=
  { h with
    stateManager := (blockchain.createVmFromStateTrie
      ((blockchain.trie.copy false).setContext simulationBlock.stateRoot none
        simulationBlock.number)).checkpoint
    intrinsicGas := calculateIntrinsicGas transaction.data transaction.to.isSome common
    emitted := h.emitted ++ [.before h.transactionContext] }

/-- The handler after a VM call and `#emitAfter()`. -/
def SimulationHandler.afterCall (h : SimulationHandler) (vm : Vm) (opts : RunCallOpts) :
    SimulationHandler :=
  let run := vm.runCall opts h.stateManager
  { h with
    stateManager := h.stateManager.run run.ops
    emitted := h.emitted ++ listenerEvents h.stepListener h.transactionContext run.steps ++
      [.after h.transactionContext]
    invocations := h.invocations ++ [⟨opts, h.stateManager⟩] }

section AfterCall

variable (h : SimulationHandler) (vm : Vm) (opts : RunCallOpts)

@[simp] theorem afterCall_stateManager :
    (h.afterCall vm opts).stateManager = h.stateManager.run (vm.runCall opts h.stateManager).ops := rfl

@[simp] theorem afterCall_invocations :
    (h.afterCall vm opts).invocations = h.invocations ++ [⟨opts, h.stateManager⟩] := rfl

@[simp] theorem afterCall_emitted :
    (h.afterCall vm opts).emitted = h.emitted ++
      listenerEvents h.stepListener h.transactionContext (vm.runCall opts h.stateManager).steps ++
        [.after h.transactionContext] := rfl

end AfterCall

/-- What neither `runCall` nor `createAccessList` changes: all that `initialize` sets but the
state manager. -/
structure Config where
  stepListener : Bool
  runCallOpts : Option RunCallOpts
  accessListExclusions : List Address
  addressesOnlyStorage : List Address
  intrinsicGas : Nat
  initializationError : Option ERROR
  transactionContext : Nat

/-- The handler's `Config`. -/
def SimulationHandler.config (h : SimulationHandler) : Config :=
  ⟨h.stepListener, h.runCallOpts, h.accessListExclusions, h.addressesOnlyStorage, h.intrinsicGas,
    h.initializationError, h.transactionContext⟩

@[simp] theorem config_afterCall (h : SimulationHandler) (vm : Vm) (opts : RunCallOpts) :
    (h.afterCall vm opts).config = h.config := rfl

/-- The listener and the defaults change only the listener flag, the access set and the
exclusion sets. -/
theorem listening_eq (h : SimulationHandler) (common : Common)
    (transaction : SimulationTransaction) :
    h.listening common transaction =
      if common.isActivatedEIP 2929 then
        { h with
          stepListener := true
          stateManager := (warmDefaults common transaction.from transaction.to h.stateManager).1
          accessListExclusions := h.accessListExclusions ++ transaction.from :: common.precompiles
          addressesOnlyStorage := h.addressesOnlyStorage ++ transaction.to.toList }
      else { h with stepListener := true } := by
  unfold SimulationHandler.listening
  split <;> rfl

/-- The listener and the defaults leave all but four fields of the handler as they were. -/
theorem listening_frame (h : SimulationHandler) (common : Common)
    (transaction : SimulationTransaction) :
    ∃ sm exclusions onlyStorage, h.listening common transaction =
      { h with
        stepListener := true
        stateManager := sm
        accessListExclusions := exclusions
        addressesOnlyStorage := onlyStorage } := by
  rw [listening_eq]
  split
  · exact ⟨_, _, _, rfl⟩
  · exact ⟨_, _, _, rfl⟩

theorem foldl_addWarmedAddress (l : List Address) :
    ∀ sm : StateManager, l.foldl StateManager.addWarmedAddress sm =
      { sm with accessed := l.foldl AccessSet.addAddress sm.accessed } := by
  induction l with
  | nil => intro sm; rfl
  | cons a l ih => intro sm; exact ih (sm.addWarmedAddress a)

/-- Warming the defaults changes only the access set. -/
theorem warmDefaults_eq (common : Common) (caller : Address) («to» : Option Address)
    (sm : StateManager) : ∃ accessed,
      (warmDefaults common caller «to» sm).1 = { sm with accessed := accessed } := by
  simp only [warmDefaults, warmPrecompiles, foldl_addWarmedAddress]
  cases «to» <;> exact ⟨_, rfl⟩

/-- Warming an access list changes only the access set. -/
theorem warmAccessList_eq (accessList : AccessList) :
    ∀ sm : StateManager, ∃ accessed, warmAccessList accessList sm = { sm with accessed := accessed } := by
  induction accessList with
  | nil => exact fun sm => ⟨_, rfl⟩
  | cons item l ih =>
    intro sm
    have hkeys : ∀ (keys : List Bytes) (sm' : StateManager), ∃ accessed, keys.foldl
        (fun sm slot => sm.addWarmedStorage item.address (Data.bufferToFixedByteLength slot 32)) sm' =
        { sm' with accessed := accessed } := by
      intro keys
      induction keys with
      | nil => exact fun sm' => ⟨_, rfl⟩
      | cons k keys ihk =>
        intro sm'
        obtain ⟨acc, hacc⟩ := ihk (sm'.addWarmedStorage item.address (Data.bufferToFixedByteLength k 32))
        exact ⟨acc, hacc⟩
    obtain ⟨acc₁, h₁⟩ := hkeys item.storageKeys (sm.addWarmedAddress item.address)
    obtain ⟨acc₂, h₂⟩ := ih { sm with accessed := acc₁ }
    refine ⟨acc₂, ?_⟩
    show warmAccessList l (item.storageKeys.foldl _ (sm.addWarmedAddress item.address)) = _
    rw [h₁]
    exact h₂

theorem warmTransactionAccessList_eq (common : Common) (accessList : Option AccessList)
    (sm : StateManager) : ∃ accessed,
      warmTransactionAccessList common accessList sm = { sm with accessed := accessed } := by
  rcases accessList with _ | l
  · exact ⟨_, rfl⟩
  · show ∃ accessed, (if common.isActivatedEIP 2930 then warmAccessList l sm else sm) = _
    split
    · exact warmAccessList_eq l sm
    · exact ⟨_, rfl⟩

section Initialize

variable (keccak : Bytes → Bytes) (blockchain : Blockchain) (common : Common)
  (simulationBlock : Block) (transaction : SimulationTransaction)
  (overrides : Option CallOverrides) (h : SimulationHandler)

/-- With less gas than the intrinsic cost, `initialize` only sets up and records `OUT_OF_GAS`. -/
theorem initializeSimulation_of_lt
    (hlt : transaction.gas < calculateIntrinsicGas transaction.data transaction.to.isSome common) :
    (initializeSimulation keccak blockchain common simulationBlock transaction overrides).run h =
      .ok () { h.started blockchain common simulationBlock transaction with
        initializationError := some .OUT_OF_GAS } := by
  simp only [initializeSimulation, run_bind, setUp, emitBefore, run_modify]
  rw [if_neg (by omega)]
  rfl

/-- With enough gas, `initialize` sets up and goes on with the gas left. -/
theorem initializeSimulation_of_le
    (hle : calculateIntrinsicGas transaction.data transaction.to.isSome common ≤ transaction.gas) :
    (initializeSimulation keccak blockchain common simulationBlock transaction overrides).run h =
      (prepare keccak common transaction overrides
        (transaction.gas - calculateIntrinsicGas transaction.data transaction.to.isSome common)).run
        (h.started blockchain common simulationBlock transaction) := by
  simp only [initializeSimulation, run_bind, setUp, emitBefore, run_modify]
  rw [if_pos (by omega), show ((transaction.gas : Int) -
    calculateIntrinsicGas transaction.data transaction.to.isSome common).toNat =
    transaction.gas - calculateIntrinsicGas transaction.data transaction.to.isSome common by omega]
  rfl

/-- The part of `initialize` after the intrinsic-gas check: it rejects exactly when the overrides
do, and otherwise warms the transaction's access list, debits the sender and sets the options. -/
theorem prepare_run (gasLeft : Nat) :
    (prepare keccak common transaction overrides gasLeft).run h =
      let h₁ := h.listening common transaction
      match (applyOverridesIfAny keccak overrides).run h₁.stateManager with
      | .ok _ sm => .ok ()
        { h₁ with
          stateManager := debitSender transaction.from transaction.gas transaction.gasPrice
            (warmTransactionAccessList common transaction.accessList sm)
          runCallOpts := some (runCallOptsOf transaction gasLeft) }
      | .error e sm => .error (.error e) { h₁ with stateManager := sm } := by
  simp only [prepare, run_bind, run_modify, run_liftOverriding]
  cases (applyOverridesIfAny keccak overrides).run (h.listening common transaction).stateManager <;>
    rfl

/-- A resolved `initialize` with enough gas: the overrides resolved, then the list was warmed, the
sender debited and the options set. -/
theorem initializeSimulation_ok_of_le
    (hle : calculateIntrinsicGas transaction.data transaction.to.isSome common ≤ transaction.gas)
    {h₁ : SimulationHandler}
    (hok : (initializeSimulation keccak blockchain common simulationBlock transaction
      overrides).run h = .ok () h₁) :
    ∃ sm, (applyOverridesIfAny keccak overrides).run
        ((h.started blockchain common simulationBlock transaction).listening common
          transaction).stateManager = .ok () sm ∧
      h₁ = { (h.started blockchain common simulationBlock transaction).listening common transaction with
        stateManager := debitSender transaction.from transaction.gas transaction.gasPrice
          (warmTransactionAccessList common transaction.accessList sm)
        runCallOpts := some (runCallOptsOf transaction
          (transaction.gas - calculateIntrinsicGas transaction.data transaction.to.isSome common)) } := by
  rw [initializeSimulation_of_le keccak blockchain common simulationBlock transaction overrides h
    hle, prepare_run] at hok
  dsimp only at hok
  split at hok
  · next sm hsm => cases hok; exact ⟨sm, hsm, rfl⟩
  · cases hok

end Initialize

/-! ### The trie under `initialize` -/

/-- The leveldb is `leveldb` with nodes of storage tries put in, the only writes of `initialize`
that leave a scratch. -/
def StorageNodesOver (leveldb : KV) (sm : StateManager) : Prop :=
  ∃ nodes, sm.leveldb = leveldb.putAll nodes ∧
    ∀ n ∈ nodes, ∃ contents key, n ∈ sm.storageTrieNodes contents key

/-- A state manager on a trie with `depth` open checkpoints, all taken at its root, over the
leveldb `leveldb` with nodes of storage tries put in. -/
structure OnTrie (depth : Nat) (leveldb : KV) (sm : StateManager) : Prop where
  rootsAgree : StateManager.RootsAgree sm.trie
  length_checkpoints : sm.trie.db.checkpoints.length = depth
  storageNodes : StorageNodesOver leveldb sm

theorem OnTrie.of_eq {depth : Nat} {leveldb : KV} {sm sm' : StateManager}
    (h : OnTrie depth leveldb sm) (ht : sm'.trie = sm.trie) (hl : sm'.leveldb = sm.leveldb)
    (hn : sm'.storageTrieNodes = sm.storageTrieNodes) : OnTrie depth leveldb sm' :=
  ⟨ht ▸ h.rootsAgree, ht ▸ h.length_checkpoints, by rw [StorageNodesOver, hl, hn]; exact h.storageNodes⟩

/-- Override writes, made under an open checkpoint, keep the trie's checkpoints, and reach the
leveldb only through the nodes of storage tries. -/
theorem onTrie_kept (depth : Nat) (leveldb : KV) :
    KeptByOverrideWrites (OnTrie (depth + 1) leveldb) where
  putAccount _ _ _ h := h.of_eq rfl rfl rfl
  modifyContractStorage s a k v h := by
    obtain ⟨nodes, hl, hn⟩ := h.storageNodes
    rw [StateManager.modifyContractStorage_eq]
    exact ⟨h.rootsAgree, h.length_checkpoints, nodes ++ s.storageTrieNodes (s.storageWith a k v) k,
      by rw [KV.putAll_append, hl], fun n hmem =>
        (List.mem_append.mp hmem).elim (hn n) fun hmem => ⟨_, _, hmem⟩⟩
  clearContractStorage _ _ h := h.of_eq rfl rfl rfl
  putNode s k v h := by
    obtain ⟨-, -, hl, -⟩ := StateManager.putNode_trie s .stateTrie k v
    have hne : s.trie.db.checkpoints ≠ [] :=
      List.ne_nil_of_length_pos (by rw [h.length_checkpoints]; omega)
    exact ⟨(StateManager.rootsAgree_apply h.rootsAgree (.putNode .stateTrie k v)).1,
      hl.trans h.length_checkpoints,
      by rw [StorageNodesOver, @StateManager.putNode_leveldb s hne .stateTrie nofun k v]; exact h.storageNodes⟩

theorem applyOverridesIfAny_preserves {I : StateManager → Prop} (hI : KeptByOverrideWrites I)
    (keccak : Bytes → Bytes) : ∀ overrides, Preserves I (applyOverridesIfAny keccak overrides)
  | some o => applySimulationOverrides_preserves hI keccak o
  | none => preserves_pure ()

section Initialize

variable (keccak : Bytes → Bytes) (blockchain : Blockchain) (common : Common)
  (simulationBlock : Block) (transaction : SimulationTransaction)
  (overrides : Option CallOverrides) (h : SimulationHandler)

theorem started_onTrie :
    OnTrie 1 blockchain.leveldb (h.started blockchain common simulationBlock transaction).stateManager :=
  ⟨StateManager.rootsAgree_checkpoint fun _ hcp => absurd hcp (List.not_mem_nil _), rfl, [], rfl, nofun⟩

theorem listening_onTrie {depth : Nat} {leveldb : KV} (hs : OnTrie depth leveldb h.stateManager) :
    OnTrie depth leveldb (h.listening common transaction).stateManager := by
  rw [listening_eq]
  split
  · obtain ⟨acc, heq⟩ := warmDefaults_eq common transaction.from transaction.to h.stateManager
    exact hs.of_eq (by rw [heq]) (by rw [heq]) (by rw [heq])
  · exact hs

/-- Whichever way `initialize` ends, its state manager is on a trie with one open checkpoint,
taken at the block's state root, over the chain's leveldb with nodes of storage tries put in. -/
theorem initializeSimulation_onTrie :
    OnTrie 1 blockchain.leveldb (stateOf ((initializeSimulation keccak blockchain common
      simulationBlock transaction overrides).run h)).stateManager := by
  have hs := started_onTrie blockchain common simulationBlock transaction h
  by_cases hle : calculateIntrinsicGas transaction.data transaction.to.isSome common ≤ transaction.gas
  · rw [initializeSimulation_of_le keccak blockchain common simulationBlock transaction overrides h
      hle, prepare_run]
    have hl := listening_onTrie common transaction _ hs
    have ho := applyOverridesIfAny_preserves (onTrie_kept 0 blockchain.leveldb) keccak overrides _ hl
    dsimp only
    split
    · next sm hsm =>
      rw [hsm] at ho
      obtain ⟨acc, heq⟩ := warmTransactionAccessList_eq common transaction.accessList sm
      exact ho.of_eq (by simp only [debitSender, heq]; rfl) (by simp only [debitSender, heq]; rfl)
        (by simp only [debitSender, heq]; rfl)
    · next e sm hsm => rw [hsm] at ho; exact ho
  · rw [initializeSimulation_of_lt keccak blockchain common simulationBlock transaction overrides h
      (by omega)]
    exact hs

end Initialize

/-- Whichever way `initialize` ends, it has emitted `before` alone and made no VM call, and the
listener is installed exactly when the gas covers the intrinsic cost. -/
theorem initializeSimulation_emitted (keccak : Bytes → Bytes) (blockchain : Blockchain)
    (common : Common) (simulationBlock : Block) (transaction : SimulationTransaction)
    (overrides : Option CallOverrides) (context : Nat) (sm : StateManager) :
    let h₁ := stateOf ((initializeSimulation keccak blockchain common simulationBlock transaction
      overrides).run (SimulationHandler.new context sm))
    h₁.emitted = [.before context] ∧ h₁.invocations = [] ∧ h₁.transactionContext = context ∧
      h₁.stepListener =
        decide (calculateIntrinsicGas transaction.data transaction.to.isSome common ≤ transaction.gas) := by
  by_cases hle : calculateIntrinsicGas transaction.data transaction.to.isSome common ≤ transaction.gas
  · rw [initializeSimulation_of_le keccak blockchain common simulationBlock transaction overrides _
      hle, prepare_run]
    obtain ⟨sm', ex, only, heq⟩ := listening_frame
      ((SimulationHandler.new context sm).started blockchain common simulationBlock transaction)
      common transaction
    rw [heq]
    dsimp only
    split <;> simp [hle, SimulationHandler.started, SimulationHandler.new]
  · rw [initializeSimulation_of_lt keccak blockchain common simulationBlock transaction overrides _
      (by omega)]
    simp [hle, SimulationHandler.started, SimulationHandler.new]

/-- A resolved `initialize` with enough gas leaves a handler ready to run the VM: no error, the
options with the gas left, no VM call yet, and a trie whose checkpoints agree with its root. -/
theorem initializeSimulation_ready (keccak : Bytes → Bytes) (blockchain : Blockchain)
    (common : Common) (simulationBlock : Block) (transaction : SimulationTransaction)
    (overrides : Option CallOverrides) (context : Nat) (sm : StateManager)
    (hle : calculateIntrinsicGas transaction.data transaction.to.isSome common ≤ transaction.gas)
    {h₁ : SimulationHandler}
    (hok : (initializeSimulation keccak blockchain common simulationBlock transaction
      overrides).run (SimulationHandler.new context sm) = .ok () h₁) :
    StateManager.RootsAgree h₁.stateManager.trie ∧ h₁.initializationError = none ∧
      h₁.runCallOpts = some (runCallOptsOf transaction
        (transaction.gas - calculateIntrinsicGas transaction.data transaction.to.isSome common)) ∧
      h₁.invocations = [] := by
  have htrie := initializeSimulation_onTrie keccak blockchain common simulationBlock transaction
    overrides (SimulationHandler.new context sm)
  have hcalls := (initializeSimulation_emitted keccak blockchain common simulationBlock
    transaction overrides context sm).2.1
  rw [hok, stateOf_ok] at htrie hcalls
  refine ⟨htrie.rootsAgree, ?_, ?_, hcalls⟩ <;>
  · obtain ⟨smo, -, rfl⟩ := initializeSimulation_ok_of_le keccak blockchain common simulationBlock
      transaction overrides _ hle hok
    obtain ⟨sm', ex, only, heq⟩ := listening_frame
      ((SimulationHandler.new context sm).started blockchain common simulationBlock transaction)
      common transaction
    rw [heq] <;> rfl

section RunCall

variable (vm : Vm) {h : SimulationHandler}

theorem runCall_of_initializationError {err : ERROR} (he : h.initializationError = some err) :
    (runCall vm).run h = .error (.callError (initializationResult err)) h := by
  simp [runCall, obtainCallResult, run_bind, he, initializationResult]

theorem obtainCallResult_of_runCallOpts {opts : RunCallOpts} (he : h.initializationError = none)
    (ho : h.runCallOpts = some opts) :
    (obtainCallResult vm).run h = .ok (vm.runCall opts h.stateManager).result (h.afterCall vm opts) := by
  simp only [obtainCallResult, run_bind, run_get, he, ho]
  rfl

theorem runCall_of_runCallOpts {opts : RunCallOpts} (he : h.initializationError = none)
    (ho : h.runCallOpts = some opts) :
    (runCall vm).run h =
      let result := (vm.runCall opts h.stateManager).result
      if result.execResult.exceptionError.isSome then .error (.callError result) (h.afterCall vm opts)
      else .ok result (h.afterCall vm opts) := by
  rw [runCall, run_bind_ok (obtainCallResult_of_runCallOpts vm he ho)]
  dsimp only
  split <;> rfl

theorem runCall_of_none (he : h.initializationError = none) (ho : h.runCallOpts = none) :
    (runCall vm).run h = .error (.error "Unknown error when simulating transaction.") h := by
  simp [runCall, obtainCallResult, run_bind, he, ho]

/-- A `runCall` that resolves ran the VM with the options `initialize` set and got a result with
no exception. -/
theorem runCall_ok {h₁ : SimulationHandler} {r : EVMResult} (hr : (runCall vm).run h = .ok r h₁) :
    ∃ opts, h.initializationError = none ∧ h.runCallOpts = some opts ∧ h₁ = h.afterCall vm opts ∧
      r = (vm.runCall opts h.stateManager).result ∧ r.execResult.exceptionError = none := by
  cases he : h.initializationError with
  | some err => rw [runCall_of_initializationError vm he] at hr; cases hr
  | none =>
    cases ho : h.runCallOpts with
    | none => rw [runCall_of_none vm he ho] at hr; cases hr
    | some opts =>
      rw [runCall_of_runCallOpts vm he ho] at hr
      dsimp only at hr
      split at hr
      · cases hr
      · next hx => cases hr; exact ⟨opts, rfl, rfl, rfl, rfl, by simpa using hx⟩

/-- `runCall` keeps whatever a VM call with the options `initialize` set keeps. -/
theorem runCall_preserves {J : SimulationHandler → Prop}
    (hJ : ∀ h opts, J h → h.initializationError = none → h.runCallOpts = some opts →
      J (h.afterCall vm opts)) :
    Preserves J (runCall vm) := by
  intro h hh
  cases he : h.initializationError with
  | some err => rw [runCall_of_initializationError vm he]; exact hh
  | none =>
    cases ho : h.runCallOpts with
    | none => rw [runCall_of_none vm he ho]; exact hh
    | some opts =>
      rw [runCall_of_runCallOpts vm he ho]
      dsimp only
      split <;> exact hJ h opts hh he ho

/-- Where `runCall` leaves the handler: after the VM call when `initialize` set the options, and
where it was otherwise. -/
theorem stateOf_runCall (h : SimulationHandler) :
    stateOf ((runCall vm).run h) = match h.initializationError, h.runCallOpts with
      | none, some opts => h.afterCall vm opts
      | _, _ => h := by
  cases he : h.initializationError with
  | some err => rw [runCall_of_initializationError vm he]; rfl
  | none =>
    cases ho : h.runCallOpts with
    | none => rw [runCall_of_none vm he ho]; rfl
    | some opts =>
      rw [runCall_of_runCallOpts vm he ho]
      dsimp only
      split <;> rfl

/-- `runCall` records at most one VM call, given the handler's state manager and the options
`initialize` set. -/
theorem invocations_runCall (h : SimulationHandler) :
    ∃ calls, (stateOf ((runCall vm).run h)).invocations = h.invocations ++ calls ∧
      calls.length ≤ 1 ∧ ∀ c ∈ calls, c.stateManager = h.stateManager ∧ h.runCallOpts = some c.opts := by
  rw [stateOf_runCall]
  split
  · next opts _ ho => exact ⟨[⟨opts, h.stateManager⟩], rfl, le_refl _, by simp [ho]⟩
  · exact ⟨[], by simp, Nat.zero_le _, fun _ h => absurd h (List.not_mem_nil _)⟩

theorem config_runCall (h : SimulationHandler) :
    (stateOf ((runCall vm).run h)).config = h.config := by
  rw [stateOf_runCall]
  split <;> rfl

end RunCall

/-! ### One iteration of the loop -/

/-- The handler with its state manager checkpointed, as an iteration starts. -/
def SimulationHandler.checkpointed (h : SimulationHandler) : SimulationHandler :=
  { h with stateManager := h.stateManager.checkpoint }

/-- Where a resolved iteration from `h` with the options `opts` ends: after the VM call from the
checkpoint, the frames folded and the checkpoint reverted. -/
def SimulationHandler.iterated (h : SimulationHandler) (vm : Vm) (opts : RunCallOpts) :
    SimulationHandler :=
  let h₁ := h.checkpointed.afterCall vm opts
  { h₁ with stateManager := h₁.stateManager.foldAccessFrames.revert }

/-- The list a resolved iteration from `h` with the options `opts` generates. -/
def SimulationHandler.generated (h : SimulationHandler) (vm : Vm) (opts : RunCallOpts) : AccessList :=
  generateAccessList (h.checkpointed.afterCall vm opts).stateManager.foldedAccess
    h.accessListExclusions h.addressesOnlyStorage

section Iterated

variable (h : SimulationHandler) (vm : Vm) (opts : RunCallOpts)

@[simp] theorem config_iterated : (h.iterated vm opts).config = h.config := rfl

@[simp] theorem iterated_stateManager : (h.iterated vm opts).stateManager =
    (h.stateManager.checkpoint.run (vm.runCall opts h.stateManager.checkpoint).ops).foldAccessFrames.revert :=
  rfl

@[simp] theorem iterated_invocations :
    (h.iterated vm opts).invocations = h.invocations ++ [⟨opts, h.stateManager.checkpoint⟩] := rfl

theorem generated_eq : h.generated vm opts = generateAccessList
    (h.stateManager.checkpoint.run (vm.runCall opts h.stateManager.checkpoint).ops).foldedAccess
    h.accessListExclusions h.addressesOnlyStorage := rfl

end Iterated

theorem accessListIteration_run (vm : Vm) (h : SimulationHandler) :
    (accessListIteration vm).run h =
      match (runCall vm).run h.checkpointed with
      | .ok r h₁ =>
        .ok (r, generateAccessList h₁.stateManager.foldedAccess h₁.accessListExclusions
          h₁.addressesOnlyStorage) { h₁ with stateManager := h₁.stateManager.foldAccessFrames.revert }
      | .error e h₁ => .error e h₁ := by
  unfold SimulationHandler.checkpointed
  simp only [accessListIteration, run_bind, modifyStateManager, run_modify, run_get, run_set, run_pure]
  rcases (runCall vm).run { h with stateManager := h.stateManager.checkpoint } with ⟨r, h₁⟩ | ⟨e, h₁⟩ <;>
    rfl

/-- A resolved iteration ran the VM once, from the checkpoint, with the options `initialize`
set, and got a result with no exception. -/
theorem accessListIteration_ok {vm : Vm} {h h₁ : SimulationHandler} {r : EVMResult}
    {L : AccessList} (hit : (accessListIteration vm).run h = .ok (r, L) h₁) :
    ∃ opts, h.initializationError = none ∧ h.runCallOpts = some opts ∧
      r = (vm.runCall opts h.stateManager.checkpoint).result ∧ r.execResult.exceptionError = none ∧
      L = h.generated vm opts ∧ h₁ = h.iterated vm opts := by
  rw [accessListIteration_run] at hit
  split at hit
  · next r' h₂ hr =>
    obtain ⟨opts, he, ho, rfl, rfl, hx⟩ := runCall_ok vm hr
    cases hit
    exact ⟨opts, he, ho, rfl, hx, rfl, rfl⟩
  · cases hit

/-- An iteration whose VM run has no exception resolves with the run's result and the list it
generates. -/
theorem accessListIteration_of_runCallOpts {vm : Vm} {h : SimulationHandler} {opts : RunCallOpts}
    (he : h.initializationError = none) (ho : h.runCallOpts = some opts)
    (hx : (vm.runCall opts h.stateManager.checkpoint).result.execResult.exceptionError = none) :
    (accessListIteration vm).run h =
      .ok ((vm.runCall opts h.stateManager.checkpoint).result, h.generated vm opts) (h.iterated vm opts) := by
  rw [accessListIteration_run, runCall_of_runCallOpts vm (h := h.checkpointed) he ho]
  simp only [SimulationHandler.checkpointed, hx, Option.isSome_none, Bool.false_eq_true, if_false]
  rfl

/-- A rejected iteration rejected in its `runCall`, before its revert. -/
theorem accessListIteration_error {vm : Vm} {h h₁ : SimulationHandler} {e : HandlerError}
    (hit : (accessListIteration vm).run h = .error e h₁) :
    (runCall vm).run h.checkpointed = .error e h₁ := by
  rw [accessListIteration_run] at hit
  split at hit
  · cases hit
  · next e' h₂ hr => cases hit; exact hr

/-- An iteration keeps the handler's `Config`, however it ends. -/
theorem config_accessListIteration (vm : Vm) (h : SimulationHandler) :
    (stateOf ((accessListIteration vm).run h)).config = h.config := by
  have := config_runCall vm h.checkpointed
  rw [accessListIteration_run]
  split <;> next h₂ hr => rw [hr] at this; exact this

theorem accessListLoop_succ (vm : Vm) (n : Nat) (prev : AccessList) (h : SimulationHandler) :
    (accessListLoop vm (n + 1) prev).run h =
      match (accessListIteration vm).run h with
      | .ok (r, L) h₁ =>
        if areAccessListsSame prev L then
          .ok (some ⟨L, r.gasUsed + (h₁.intrinsicGas + dataFeeEIP2930 L)⟩) h₁
        else (accessListLoop vm n L).run h₁
      | .error e h₁ => .error e h₁ := by
  rw [accessListLoop]
  rcases hit : (accessListIteration vm).run h with ⟨⟨r, L⟩, h₁⟩ | ⟨e, h₁⟩
  · simp only [run_bind, hit, run_get]
    split <;> rfl
  · rw [run_bind_error hit]

/-! ### The loop -/

/-- `Iterates vm h Ls h'`: from `h`, resolved iterations follow one another, each starting
where the one before ended, the `i`-th generating `Ls[i]`, and the last ending at `h'`. -/
inductive Iterates (vm : Vm) : SimulationHandler → List AccessList → SimulationHandler → Prop
  | nil (h : SimulationHandler) : Iterates vm h [] h
  | cons {h h₁ h' : SimulationHandler} {r : EVMResult} {L : AccessList} {Ls : List AccessList} :
    (accessListIteration vm).run h = .ok (r, L) h₁ → Iterates vm h₁ Ls h' → Iterates vm h (L :: Ls) h'

/-- What every resolved iteration keeps holds at the end of a chain of them. -/
theorem Iterates.preserves {vm : Vm} {P : SimulationHandler → Prop}
    (hP : ∀ h r L h₁, (accessListIteration vm).run h = .ok (r, L) h₁ → P h → P h₁)
    {h h' : SimulationHandler} {Ls : List AccessList} (hit : Iterates vm h Ls h') (hh : P h) : P h' := by
  induction hit with
  | nil => exact hh
  | cons hstep _ ih => exact ih (hP _ _ _ _ hstep hh)

/-- Each resolved iteration makes one VM call. -/
theorem Iterates.invocations {vm : Vm} {h h' : SimulationHandler} {Ls : List AccessList}
    (hit : Iterates vm h Ls h') : h'.invocations.length = h.invocations.length + Ls.length := by
  induction hit with
  | nil => rfl
  | cons hstep _ ih =>
    obtain ⟨opts, -, -, -, -, -, rfl⟩ := accessListIteration_ok hstep
    rw [ih]
    simp [SimulationHandler.iterated, SimulationHandler.checkpointed]
    omega

/-- Consecutive lists disagree. -/
def Disagree : AccessList → AccessList → Prop := fun a b => areAccessListsSame a b = false

/-- A run of the loop: disagreeing iterations from `prev`, then one that agrees, one that rejects,
or nothing when all `n` ran. -/
theorem accessListLoop_trace (vm : Vm) : ∀ (n : Nat) (prev : AccessList) (h : SimulationHandler),
    match (accessListLoop vm n prev).run h with
    | .ok (some res) h' => ∃ Ls hk r, Iterates vm h Ls hk ∧ Ls.length < n ∧
        List.Chain' Disagree (prev :: Ls) ∧ (accessListIteration vm).run hk = .ok (r, res.accessList) h' ∧
        areAccessListsSame (Ls.getLastD prev) res.accessList = true ∧
        res.gasUsed = r.gasUsed + (h'.intrinsicGas + dataFeeEIP2930 res.accessList)
    | .ok none h' => ∃ Ls, Iterates vm h Ls h' ∧ Ls.length = n ∧ List.Chain' Disagree (prev :: Ls)
    | .error e h' => ∃ Ls hk, Iterates vm h Ls hk ∧ Ls.length < n ∧
        List.Chain' Disagree (prev :: Ls) ∧ (accessListIteration vm).run hk = .error e h'
  | 0, prev, h => ⟨[], .nil h, rfl, List.chain'_singleton prev⟩
  | n + 1, prev, h => by
    rw [accessListLoop_succ]
    rcases hit : (accessListIteration vm).run h with ⟨⟨r, L⟩, h₁⟩ | ⟨e, h₁⟩
    · dsimp only
      by_cases hsame : areAccessListsSame prev L = true
      · rw [if_pos hsame]
        exact ⟨[], h, r, .nil h, Nat.succ_pos n, List.chain'_singleton prev, hit, hsame, rfl⟩
      · rw [if_neg hsame]
        have ih := accessListLoop_trace vm n L h₁
        have hd : Disagree prev L := by simpa [Disagree] using hsame
        split at ih
        · obtain ⟨Ls, hk, r', hits, hlen, hchain, hlast, hsame', hgas⟩ := ih
          exact ⟨L :: Ls, hk, r', .cons hit hits, by simp; omega,
            List.chain'_cons.mpr ⟨hd, hchain⟩, hlast, by rwa [List.getLastD_cons], hgas⟩
        · obtain ⟨Ls, hits, hlen, hchain⟩ := ih
          exact ⟨L :: Ls, .cons hit hits, by simp [hlen], List.chain'_cons.mpr ⟨hd, hchain⟩⟩
        · obtain ⟨Ls, hk, hits, hlen, hchain, hlast⟩ := ih
          exact ⟨L :: Ls, hk, .cons hit hits, by simp; omega, List.chain'_cons.mpr ⟨hd, hchain⟩, hlast⟩
    · exact ⟨[], h, .nil h, Nat.succ_pos n, List.chain'_singleton prev, hit⟩

/-- A loop that resolves with a list: the chain of resolved iterations and the last one, whose
list agrees with the one it was compared against. -/
theorem accessListLoop_some {vm : Vm} {n : Nat} {prev : AccessList} {h h' : SimulationHandler}
    {res : AccessListResult} (hres : (accessListLoop vm n prev).run h = .ok (some res) h') :
    ∃ Ls hk r, Iterates vm h Ls hk ∧ Ls.length < n ∧ List.Chain' Disagree (prev :: Ls) ∧
      (accessListIteration vm).run hk = .ok (r, res.accessList) h' ∧
      areAccessListsSame (Ls.getLastD prev) res.accessList = true ∧
      res.gasUsed = r.gasUsed + (h'.intrinsicGas + dataFeeEIP2930 res.accessList) := by
  have htrace := accessListLoop_trace vm n prev h
  rw [hres] at htrace
  exact htrace

/-- A loop that resolves with nothing ran all its iterations, no list agreeing with the one
before. -/
theorem accessListLoop_none {vm : Vm} {n : Nat} {prev : AccessList} {h h' : SimulationHandler}
    (hres : (accessListLoop vm n prev).run h = .ok none h') :
    ∃ Ls, Iterates vm h Ls h' ∧ Ls.length = n ∧ List.Chain' Disagree (prev :: Ls) := by
  have htrace := accessListLoop_trace vm n prev h
  rw [hres] at htrace
  exact htrace

section Invariant

/- `I` holds where an iteration starts; `J` where an iteration that rejects leaves the handler. -/
variable {vm : Vm} {I J : SimulationHandler → Prop}
  (hok : ∀ h r L h₁, (accessListIteration vm).run h = .ok (r, L) h₁ → I h → I h₁)
  (herr : ∀ h e h₁, (accessListIteration vm).run h = .error e h₁ → I h → J h₁)
include hok herr

/-- Where the loop ends: where an iteration starts when it resolves, and where an iteration's
`runCall` rejected when it rejects. -/
theorem accessListLoop_ends (n : Nat) (prev : AccessList) (h : SimulationHandler) (hI : I h) :
    match (accessListLoop vm n prev).run h with
    | .ok _ h' => I h'
    | .error _ h' => J h' := by
  have htrace := accessListLoop_trace vm n prev h
  split at htrace <;> rename_i heq <;> rw [heq]
  · obtain ⟨Ls, hk, r, hits, -, -, hlast, -⟩ := htrace
    exact hok _ _ _ _ hlast (hits.preserves hok hI)
  · obtain ⟨Ls, hits, -⟩ := htrace
    exact hits.preserves hok hI
  · obtain ⟨Ls, hk, hits, -, -, hlast⟩ := htrace
    exact herr _ _ _ hlast (hits.preserves hok hI)

/-- What follows from the loop's invariants holds when the loop ends, whichever way it ends. -/
theorem accessListLoop_invariant {P : SimulationHandler → Prop} (hIP : ∀ h, I h → P h)
    (hJP : ∀ h, J h → P h) (n : Nat) (prev : AccessList) (h : SimulationHandler) (hI : I h) :
    P (stateOf ((accessListLoop vm n prev).run h)) := by
  have hend := accessListLoop_ends hok herr n prev h hI
  split at hend
  · next h' heq => rw [heq]; exact hIP h' hend
  · next h' heq => rw [heq]; exact hJP h' hend

end Invariant

/-- An invariant that does not look at the state manager and that `runCall` keeps holds
whichever way the loop ends. -/
theorem accessListLoop_preserves {vm : Vm} {I : SimulationHandler → Prop}
    (hsm : ∀ h sm, I h → I { h with stateManager := sm }) (hrun : Preserves I (runCall vm))
    (n : Nat) (prev : AccessList) : Preserves I (accessListLoop vm n prev) := by
  have hiter : Preserves I (accessListIteration vm) := fun h hI => by
    have := hrun h.checkpointed (hsm h _ hI)
    rw [accessListIteration_run]
    split
    · next r h₂ hr => rw [hr] at this; exact hsm _ _ this
    · next e h₂ hr => rw [hr] at this; exact this
  exact fun h hI => accessListLoop_invariant (I := I) (J := I)
    (fun h _ _ h₁ hit hh => by simpa [hit] using hiter h hh)
    (fun h _ h₁ hit hh => by simpa [hit] using hiter h hh) (fun _ hI => hI) (fun _ hJ => hJ) n prev h hI

theorem config_accessListLoop (vm : Vm) (n : Nat) (prev : AccessList) (h : SimulationHandler) :
    (stateOf ((accessListLoop vm n prev).run h)).config = h.config :=
  @accessListLoop_preserves vm (fun h' => h'.config = h.config) (fun _ _ hI => hI)
    (fun h' hI => (config_runCall vm h').trans hI) n prev h rfl

/-- `createAccessList` makes at most `MAX_ITERATIONS` VM calls, however it ends. -/
theorem invocations_accessListLoop (vm : Vm) (n : Nat) (prev : AccessList) (h : SimulationHandler) :
    (stateOf ((accessListLoop vm n prev).run h)).invocations.length ≤ h.invocations.length + n := by
  have htrace := accessListLoop_trace vm n prev h
  split at htrace <;> rename_i heq <;> simp only [heq, stateOf_ok, stateOf_error]
  · obtain ⟨Ls, hk, r, hits, hlen, -, hlast, -⟩ := htrace
    have := (Iterates.cons hlast (.nil _)).invocations
    rw [hits.invocations] at this
    simp only [List.length_singleton] at this
    omega
  · obtain ⟨Ls, hits, hlen, -⟩ := htrace
    rw [hits.invocations, hlen]
  · obtain ⟨Ls, hk, hits, hlen, -, hlast⟩ := htrace
    obtain ⟨calls, hcalls, hle, -⟩ := invocations_runCall vm hk.checkpointed
    rw [accessListIteration_error hlast, stateOf_error] at hcalls
    rw [hcalls, List.length_append]
    have := hits.invocations
    simp only [SimulationHandler.checkpointed] at this ⊢
    omega

/-! ### A chain to run the handler on -/

/-- A chain on which every account is empty, over a leveldb that holds nothing, whose storage
tries store no node. -/
def Blockchain.empty : Blockchain :=
  ⟨⟨[], ⟨[]⟩⟩, fun _ => none, fun _ _ => ⟨0, 0, []⟩, fun _ _ _ => [], fun _ _ => []⟩

/-- Berlin's rules: the creation cost of Homestead (EIP-2), the calldata cost of EIP-2028, and
EIP-2929 and EIP-2930, with ganache's precompiles `0x…01` to `0x…12`. -/
def Common.berlin : Common :=
  ⟨[2, 2028, 2929, 2930], (List.range 18).map fun i => Address.ofByte (UInt8.ofNat (i + 1))⟩

/-- The block at the empty state root. -/
def Block.genesis : Block := ⟨[], 0⟩

/-- A call without data from `0x…a0` to `0x…b0`, with the given gas, gas price and access
list. -/
def callTx (gas gasPrice : Nat) (accessList : Option AccessList) : SimulationTransaction :=
  ⟨Address.ofByte 0xa0, some (Address.ofByte 0xb0), gas, gasPrice, none, none, 0, accessList⟩

example : calculateIntrinsicGas (callTx 0 0 none).data (callTx 0 0 none).to.isSome Common.berlin =
    21000 := rfl

/-- A VM that does nothing: every call succeeds at no cost, with no step and no write. -/
def Vm.idle : Vm := ⟨fun _ _ => ⟨⟨0, ⟨none, [], 0⟩⟩, [], []⟩, fun _ _ => rfl⟩

/-- The handler once `initialize` has run a plain call with 21000 gas at gas price 1 on the empty
chain under Berlin's rules. -/
def initializedCall : SimulationHandler :=
  stateOf ((initializeSimulation (fun _ => []) Blockchain.empty Common.berlin Block.genesis
    (callTx 21000 1 none) none).run (SimulationHandler.new 0 StateManager.empty))

end Ganache
