import GanacheSimulation.HandlerSpec

/-! # What a simulation writes to the chain's database

The simulation runs on `blockchain.trie.copy(false)`: a new trie object over the chain's leveldb
whose database starts with no checkpoint. `initialize` opens one and `createAccessList` one more
per iteration; the handler never commits, and a VM run closes the checkpoints it opens. So every
write through the state trie, an account, a code blob or any node of it, lands in a scratch map
that is never flushed. The storage tries are another matter. The state manager derives each
account's storage trie from the state trie with `copy(false)`, which drops the checkpoints
(`GanacheTrie.put_copy_false`), so a storage write, by an override in `initialize` or by an
`SSTORE` of the VM, stores its nodes in the shared leveldb.

`simulation_leveldb`: however `initialize` ends, the leveldb is the chain's with nodes of storage
tries put in; once it resolves, however `runCall` or `createAccessList` ends, the leveldb is that
one with exactly the nodes each VM call stored, in the order of the calls.
`storage_write_reaches_leveldb` runs one such call, on any storage trie that stores a node for a
slot that holds a value. -/

namespace Ganache

/-- What a list of VM calls stored in the leveldb, in order. -/
def leaksOfCalls (vm : Vm) (calls : List VmCall) : List (Bytes × Bytes) :=
  calls.flatMap fun c => c.stateManager.leaks (vm.runCall c.opts c.stateManager).ops

@[simp] theorem leaksOfCalls_append (vm : Vm) (calls calls' : List VmCall) :
    leaksOfCalls vm (calls ++ calls') = leaksOfCalls vm calls ++ leaksOfCalls vm calls' :=
  List.flatMap_append _ _ _

/-- The leveldb is `leveldb` with what the handler's VM calls stored put in. -/
def Leaked (vm : Vm) (leveldb : KV) (h : SimulationHandler) : Prop :=
  h.stateManager.leveldb = leveldb.putAll (leaksOfCalls vm h.invocations)

/-- A VM call made under an open checkpoint adds what it stored. -/
theorem leaked_afterCall (vm : Vm) (leveldb : KV) {h : SimulationHandler}
    (hd : h.stateManager.trie.db.checkpoints ≠ []) (hl : Leaked vm leveldb h) (opts : RunCallOpts) :
    Leaked vm leveldb (h.afterCall vm opts) := by
  rw [Leaked, afterCall_stateManager, StateManager.leveldb_run _ h.stateManager 0
    (vm.balanced_runCall opts h.stateManager) (List.length_pos.mpr hd), hl, afterCall_invocations,
    leaksOfCalls_append, KV.putAll_append]
  simp [leaksOfCalls]

theorem leaked_runCall (vm : Vm) (leveldb : KV) {h : SimulationHandler}
    (hd : h.stateManager.trie.db.checkpoints ≠ []) (hl : Leaked vm leveldb h) :
    Leaked vm leveldb (stateOf ((runCall vm).run h)) := by
  rw [stateOf_runCall]
  split
  · exact leaked_afterCall vm leveldb hd hl _
  · exact hl

/-- Every iteration runs the VM under the checkpoint it opens, and its fold and revert leave the
leveldb alone, however it ends. -/
theorem leaked_accessListLoop (vm : Vm) (leveldb : KV) (n : Nat) (prev : AccessList)
    (h : SimulationHandler) (hI : Leaked vm leveldb h) :
    Leaked vm leveldb (stateOf ((accessListLoop vm n prev).run h)) := by
  have hcp : ∀ h : SimulationHandler, h.checkpointed.stateManager.trie.db.checkpoints ≠ [] :=
    fun _ => List.cons_ne_nil _ _
  refine accessListLoop_invariant (I := Leaked vm leveldb) (J := Leaked vm leveldb)
    (fun h r L h₁ hit hI => ?_) (fun h e h₁ hit hI => ?_) (fun _ hI => hI) (fun _ hJ => hJ) n prev h hI
  · obtain ⟨opts, -, -, -, -, -, rfl⟩ := accessListIteration_ok hit
    have := leaked_afterCall vm leveldb (hcp h) hI opts
    simpa [Leaked, SimulationHandler.iterated, StateManager.foldAccessFrames] using this
  · have := leaked_runCall vm leveldb (hcp h) hI
    rwa [accessListIteration_error hit, stateOf_error] at this

/-- The leveldb: the chain's with storage-trie nodes after `initialize`, then with exactly the
nodes every VM call stored, in order. -/
theorem simulation_leveldb (vm : Vm) (keccak : Bytes → Bytes) (blockchain : Blockchain)
    (common : Common) (simulationBlock : Block) (transaction : SimulationTransaction)
    (overrides : Option CallOverrides) (context : Nat) (sm : StateManager) :
    StorageNodesOver blockchain.leveldb (stateOf ((initializeSimulation keccak blockchain common
      simulationBlock transaction overrides).run (SimulationHandler.new context sm))).stateManager ∧
    ∀ h₁, (initializeSimulation keccak blockchain common simulationBlock transaction
        overrides).run (SimulationHandler.new context sm) = .ok () h₁ →
      (stateOf ((runCall vm).run h₁)).stateManager.leveldb = h₁.stateManager.leveldb.putAll
        (leaksOfCalls vm (stateOf ((runCall vm).run h₁)).invocations) ∧
      ∀ seed, (stateOf ((createAccessList vm seed).run h₁)).stateManager.leveldb =
        h₁.stateManager.leveldb.putAll
          (leaksOfCalls vm (stateOf ((createAccessList vm seed).run h₁)).invocations) := by
  have htrie := initializeSimulation_onTrie keccak blockchain common simulationBlock transaction
    overrides (SimulationHandler.new context sm)
  have hcalls := (initializeSimulation_emitted keccak blockchain common simulationBlock transaction
    overrides context sm).2.1
  refine ⟨htrie.storageNodes, fun h₁ hok => ?_⟩
  rw [hok, stateOf_ok] at htrie hcalls
  have hI : Leaked vm h₁.stateManager.leveldb h₁ := by rw [Leaked, hcalls]; rfl
  exact ⟨leaked_runCall vm _ (List.ne_nil_of_length_pos (by rw [htrie.length_checkpoints]; omega)) hI,
    fun seed => leaked_accessListLoop vm _ _ _ h₁ hI⟩

/-- A VM whose every call stores the word `1` in slot 0 of `0x…b0`, as `SSTORE(0, 1)` run by the
callee does. -/
def Vm.slotWriter : Vm :=
  ⟨fun _ _ => ⟨⟨0, ⟨none, [], 0⟩⟩, [],
    [.putContractStorage (Address.ofByte 0xb0) (List.replicate 32 0) (List.replicate 31 0 ++ [1])]⟩,
    fun _ _ => rfl⟩

/-- The leveldb after a plain call whose VM run stores one slot, on the empty chain. -/
theorem simulation_leveldb_slotWriter :
    StorageNodesOver Blockchain.empty.leveldb (stateOf ((initializeSimulation (fun _ => [])
      Blockchain.empty Common.berlin Block.genesis (callTx 100000 1 none) none).run
        (SimulationHandler.new 0 StateManager.empty))).stateManager ∧
    ∃ h₁, (initializeSimulation (fun _ => []) Blockchain.empty Common.berlin Block.genesis
        (callTx 100000 1 none) none).run (SimulationHandler.new 0 StateManager.empty) = .ok () h₁ ∧
      (stateOf ((runCall Vm.slotWriter).run h₁)).stateManager.leveldb = h₁.stateManager.leveldb.putAll
        (leaksOfCalls Vm.slotWriter (stateOf ((runCall Vm.slotWriter).run h₁)).invocations) ∧
      ∀ seed, (stateOf ((createAccessList Vm.slotWriter seed).run h₁)).stateManager.leveldb =
        h₁.stateManager.leveldb.putAll (leaksOfCalls Vm.slotWriter
          (stateOf ((createAccessList Vm.slotWriter seed).run h₁)).invocations) :=
  ⟨(simulation_leveldb Vm.slotWriter (fun _ => []) Blockchain.empty Common.berlin Block.genesis
      (callTx 100000 1 none) none 0 StateManager.empty).1,
    _, rfl, (simulation_leveldb Vm.slotWriter (fun _ => []) Blockchain.empty Common.berlin
      Block.genesis (callTx 100000 1 none) none 0 StateManager.empty).2 _ rfl⟩

/-- A simulation writes into the chain's database: a callee's `SSTORE` leaves in the shared
leveldb a key it did not hold, for any storage trie that stores a node. -/
theorem storage_write_reaches_leveldb (nodes : (Bytes → Bytes) → Bytes → List (Bytes × Bytes))
    (hnodes : ∀ contents key, contents key ≠ [] → nodes contents key ≠ []) :
    ∃ h₁, (initializeSimulation (fun _ => []) { Blockchain.empty with storageTrieNodes := nodes }
        Common.berlin Block.genesis (callTx 100000 1 none) none).run
        (SimulationHandler.new 0 StateManager.empty) = .ok () h₁ ∧
      h₁.stateManager.leveldb = Blockchain.empty.leveldb ∧
      ∃ r h₂, (runCall Vm.slotWriter).run h₁ = .ok r h₂ ∧
        ∃ key, Blockchain.empty.leveldb key = none ∧ h₂.stateManager.leveldb key ≠ none := by
  obtain ⟨h₁, hok, hl, hn⟩ : ∃ h₁, (initializeSimulation (fun _ => [])
      { Blockchain.empty with storageTrieNodes := nodes } Common.berlin Block.genesis
      (callTx 100000 1 none) none).run (SimulationHandler.new 0 StateManager.empty) = .ok () h₁ ∧
      h₁.stateManager.leveldb = Blockchain.empty.leveldb ∧ h₁.stateManager.storageTrieNodes = nodes :=
    ⟨_, rfl, rfl, rfl⟩
  obtain ⟨-, he, ho, -⟩ := initializeSimulation_ready _ _ _ _ _ _ _ _ (by decide) hok
  refine ⟨h₁, hok, hl, _, _, runCall_of_runCallOpts Vm.slotWriter he ho, ?_⟩
  have hv : unpad (List.replicate 31 0 ++ [1]) = [1] := by decide
  obtain ⟨w, hw⟩ := List.exists_mem_of_ne_nil _ (hnodes
    (h₁.stateManager.storageWith (Address.ofByte 0xb0) (List.replicate 32 0) [1]) (List.replicate 32 0)
    (by simp [StateManager.storageWith]))
  refine ⟨w.1, rfl, ?_⟩
  simpa [Vm.slotWriter, StateManager.apply, StateManager.modifyContractStorage_eq, hl, hn, hv] using
    KV.putAll_ne_none hw Blockchain.empty.leveldb

/-- On the storage trie that stores one node per write, the slot's key and its value. -/
theorem storage_write_reaches_leveldb_keyed :
    (∀ contents (key : Bytes), contents key ≠ [] →
      (fun (contents : Bytes → Bytes) (key : Bytes) => [(key, contents key)]) contents key ≠ []) ∧
    ∃ h₁, (initializeSimulation (fun _ => []) { Blockchain.empty with
          storageTrieNodes := fun contents key => [(key, contents key)] }
        Common.berlin Block.genesis (callTx 100000 1 none) none).run
        (SimulationHandler.new 0 StateManager.empty) = .ok () h₁ ∧
      h₁.stateManager.leveldb = Blockchain.empty.leveldb ∧
      ∃ r h₂, (runCall Vm.slotWriter).run h₁ = .ok r h₂ ∧
        ∃ key, Blockchain.empty.leveldb key = none ∧ h₂.stateManager.leveldb key ≠ none :=
  ⟨fun _ _ _ => List.cons_ne_nil _ _,
    storage_write_reaches_leveldb _ fun _ _ _ => List.cons_ne_nil _ _⟩

end Ganache
