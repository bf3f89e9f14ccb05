import GanacheSimulation.HandlerSpec

/-! # What the VM finds warm

Under EIP-2929 `initialize` warms the caller, the callee and the precompiles (`#warmDefaults`);
under EIP-2930 it warms every address of the transaction's access list and each of its keys,
padded to 32 bytes (`#warmAccessList`). Nothing else in `initialize` warms anything: the overrides
and the sender's debit write accounts, storage and trie nodes only. `prewarmedAddresses` and
`prewarmedSlots` list what that makes warm (`warmExactly_initialized`).

The state manager keeps what a reverted run accessed: `generateAccessList` folds every frame,
reverted ones included, into the frames below the iteration's checkpoint, and the revert keeps
those. So each iteration of `createAccessList` finds warm what the one before found warm and
what its run accessed (`warm_iterated`). `vm_warm_sets`: the VM call of `runCall` and the first
VM call of `createAccessList` are given exactly the prewarmed sets, and each later call finds
warm what the call before it found warm and warmed. -/

namespace Ganache

/-- The addresses `initialize` warms: under EIP-2929 the caller, the callee and the precompiles,
under EIP-2930 the addresses of the transaction's access list. -/
def prewarmedAddresses (common : Common) (transaction : SimulationTransaction) : List Address :=
  (if common.isActivatedEIP 2929 then transaction.from :: transaction.to.toList ++ common.precompiles
    else []) ++
  (if common.isActivatedEIP 2930 then (transaction.accessList.getD []).map (·.address) else [])

/-- The slots `initialize` warms: under EIP-2930 each key of the access list, padded to 32 bytes. -/
def prewarmedSlots (common : Common) (transaction : SimulationTransaction) :
    List (Address × Bytes) :=
  if common.isActivatedEIP 2930 then
    (transaction.accessList.getD []).flatMap fun item =>
      item.storageKeys.map fun key => (item.address, Data.bufferToFixedByteLength key 32)
  else []

/-- A state manager whose warm addresses and warm slots are exactly the given ones. -/
structure WarmExactly (addresses : List Address) (slots : List (Address × Bytes))
    (sm : StateManager) : Prop where
  address : ∀ a, sm.isWarmedAddress a = true ↔ a ∈ addresses
  storage : ∀ a slot, sm.isWarmedStorage a slot = true ↔ (a, slot) ∈ slots

/-- Warmth reads the live frames only. -/
theorem WarmExactly.of_warm_iff {addresses : List Address} {slots : List (Address × Bytes)}
    {sm sm' : StateManager} (h : WarmExactly addresses slots sm) (hw : ∀ x, sm'.Warm x ↔ sm.Warm x) :
    WarmExactly addresses slots sm' :=
  ⟨fun a => by rw [StateManager.isWarmedAddress_iff, hw, ← StateManager.isWarmedAddress_iff]; exact h.address a,
    fun a k => by rw [StateManager.isWarmedStorage_iff, hw, ← StateManager.isWarmedStorage_iff]; exact h.storage a k⟩

/-! ### Each step of `initialize` -/

theorem mem_warmDefaults_addresses (common : Common) (caller : Address) («to» : Option Address)
    (sm : StateManager) (a : Address) :
    a ∈ (warmDefaults common caller «to» sm).1.accessed.addresses ↔
      a ∈ caller :: «to».toList ++ common.precompiles ∨ a ∈ sm.accessed.addresses := by
  have hfold : ∀ (l : List Address) (s : AccessSet),
      (l.foldl AccessSet.addAddress s).addresses = l.reverse ++ s.addresses := by
    intro l
    induction l with
    | nil => exact fun _ => rfl
    | cons b l ih => intro s; simp [ih, AccessSet.addAddress]
  cases «to» <;>
    simp [warmDefaults, warmPrecompiles, foldl_addWarmedAddress, StateManager.addWarmedAddress,
      AccessSet.addAddress, hfold, or_assoc, or_left_comm]

theorem warmDefaults_slots (common : Common) (caller : Address) («to» : Option Address)
    (sm : StateManager) : (warmDefaults common caller «to» sm).1.accessed.slots = sm.accessed.slots := by
  have hfold : ∀ (l : List Address) (s : AccessSet), (l.foldl AccessSet.addAddress s).slots = s.slots := by
    intro l
    induction l with
    | nil => exact fun _ => rfl
    | cons b l ih => exact fun s => ih _
  cases «to» <;> simp [warmDefaults, warmPrecompiles, foldl_addWarmedAddress,
    StateManager.addWarmedAddress, AccessSet.addAddress, hfold]

/-- Warming the keys of one entry, once its address is warm, warms exactly those keys. -/
theorem mem_foldl_addWarmedStorage (a : Address) (keys : List Bytes) :
    ∀ sm : StateManager, a ∈ sm.accessed.addresses →
      let sm' := keys.foldl (fun sm slot => sm.addWarmedStorage a (Data.bufferToFixedByteLength slot 32)) sm
      (∀ b, b ∈ sm'.accessed.addresses ↔ b ∈ sm.accessed.addresses) ∧
      ∀ p, p ∈ sm'.accessed.slots ↔
        p ∈ keys.map (fun key => (a, Data.bufferToFixedByteLength key 32)) ∨ p ∈ sm.accessed.slots := by
  induction keys with
  | nil => intro sm _; simp
  | cons k keys ih =>
    intro sm ha
    obtain ⟨haddr, hslot⟩ := ih (sm.addWarmedStorage a (Data.bufferToFixedByteLength k 32))
      (List.mem_cons_self _ _)
    refine ⟨fun b => ?_, fun p => ?_⟩
    · rw [List.foldl_cons, haddr]
      simp only [StateManager.addWarmedStorage, AccessSet.addSlot, List.mem_cons]
      exact ⟨fun h => h.elim (· ▸ ha) id, .inr⟩
    · rw [List.foldl_cons, hslot]
      simp [StateManager.addWarmedStorage, AccessSet.addSlot, or_assoc, or_left_comm]

/-- `#warmAccessList` warms exactly the list's addresses and its keys, padded to 32 bytes. -/
theorem mem_warmAccessList (accessList : AccessList) :
    ∀ sm : StateManager,
      (∀ b, b ∈ (warmAccessList accessList sm).accessed.addresses ↔
        b ∈ accessList.map (·.address) ∨ b ∈ sm.accessed.addresses) ∧
      ∀ p, p ∈ (warmAccessList accessList sm).accessed.slots ↔
        p ∈ accessList.flatMap (fun item =>
          item.storageKeys.map fun key => (item.address, Data.bufferToFixedByteLength key 32)) ∨
        p ∈ sm.accessed.slots := by
  induction accessList with
  | nil => intro sm; simp [warmAccessList]
  | cons item l ih =>
    intro sm
    obtain ⟨hkaddr, hkslot⟩ := mem_foldl_addWarmedStorage item.address item.storageKeys
      (sm.addWarmedAddress item.address) (List.mem_cons_self _ _)
    obtain ⟨haddr, hslot⟩ := ih (item.storageKeys.foldl
      (fun sm slot => sm.addWarmedStorage item.address (Data.bufferToFixedByteLength slot 32))
      (sm.addWarmedAddress item.address))
    refine ⟨fun b => ?_, fun p => ?_⟩
    · rw [warmAccessList, List.foldl_cons, ← warmAccessList, haddr, hkaddr]
      simp [StateManager.addWarmedAddress, AccessSet.addAddress, or_assoc, or_left_comm]
    · rw [warmAccessList, List.foldl_cons, ← warmAccessList, hslot, hkslot]
      simp [StateManager.addWarmedAddress, AccessSet.addAddress, or_assoc, or_left_comm]

/-- The EIP-2930 step of `initialize` warms the declared list, when that EIP is active. -/
theorem mem_warmTransactionAccessList (common : Common) (accessList : Option AccessList)
    (sm : StateManager) :
    (∀ b, b ∈ (warmTransactionAccessList common accessList sm).accessed.addresses ↔
      b ∈ sm.accessed.addresses ∨
        (common.isActivatedEIP 2930 = true ∧ b ∈ (accessList.getD []).map (·.address))) ∧
    ∀ p, p ∈ (warmTransactionAccessList common accessList sm).accessed.slots ↔
      p ∈ sm.accessed.slots ∨
        (common.isActivatedEIP 2930 = true ∧ p ∈ (accessList.getD []).flatMap (fun item =>
          item.storageKeys.map fun key => (item.address, Data.bufferToFixedByteLength key 32))) := by
  rcases accessList with _ | l
  · simp [warmTransactionAccessList]
  · by_cases h30 : common.isActivatedEIP 2930 = true
    · simpa [warmTransactionAccessList, h30, or_comm] using mem_warmAccessList l sm
    · simp [warmTransactionAccessList, h30]

/-- The access frames: the innermost, those the checkpoints saved, and the reverted ones. -/
def StateManager.frames (sm : StateManager) : AccessSet × List AccessSet × AccessSet :=
  (sm.accessed, sm.checkpoints.map (·.accessed), sm.reverted)

/-- The overrides write accounts, storage and trie nodes, never an access frame. -/
theorem frames_keptByOverrideWrites (F : AccessSet × List AccessSet × AccessSet) :
    KeptByOverrideWrites fun sm => sm.frames = F :=
  ⟨fun _ _ _ h => h, fun _ _ _ _ h => by rw [StateManager.modifyContractStorage_eq]; exact h,
    fun _ _ h => h, fun _ _ _ h => h⟩

section Initialize

variable (blockchain : Blockchain) (common : Common) (simulationBlock : Block)
  (transaction : SimulationTransaction) (h : SimulationHandler)

/-- The overrides start from the defaults warmed, under EIP-2929, in a frame over the empty one
the VM was made with. -/
theorem mem_listening_started (a : Address) :
    a ∈ ((h.started blockchain common simulationBlock transaction).listening common
        transaction).stateManager.accessed.addresses ↔
      common.isActivatedEIP 2929 = true ∧
        a ∈ transaction.from :: transaction.to.toList ++ common.precompiles := by
  rw [listening_eq]
  split
  · next h29 => simp [mem_warmDefaults_addresses, h29, SimulationHandler.started,
      Blockchain.createVmFromStateTrie, StateManager.checkpoint, AccessSet.empty]
  · next h29 => simp [h29, SimulationHandler.started, Blockchain.createVmFromStateTrie,
      StateManager.checkpoint, AccessSet.empty]

theorem frames_listening_started :
    let sm := ((h.started blockchain common simulationBlock transaction).listening common
      transaction).stateManager
    sm.frames = (sm.accessed, [AccessSet.empty], AccessSet.empty) ∧ sm.accessed.slots = [] := by
  rw [listening_eq]
  split
  · obtain ⟨acc, heq⟩ := warmDefaults_eq common transaction.from transaction.to
      (h.started blockchain common simulationBlock transaction).stateManager
    exact ⟨by rw [heq]; rfl, by rw [warmDefaults_slots]; rfl⟩
  · exact ⟨rfl, rfl⟩

end Initialize

theorem mem_prewarmedAddresses (common : Common) (transaction : SimulationTransaction) (a : Address) :
    a ∈ prewarmedAddresses common transaction ↔
      (common.isActivatedEIP 2929 = true ∧
          a ∈ transaction.from :: transaction.to.toList ++ common.precompiles) ∨
        (common.isActivatedEIP 2930 = true ∧ a ∈ (transaction.accessList.getD []).map (·.address)) := by
  unfold prewarmedAddresses
  rw [List.mem_append]
  split_ifs <;> simp [*]

/-- A state manager with one live frame over an empty one, and nothing reverted: warm is what
that frame holds, and everything accessed is warm. -/
theorem warm_of_frames {sm : StateManager} (hf : sm.frames = (sm.accessed, [AccessSet.empty], AccessSet.empty))
    (x : Access) : (sm.Warm x ↔ sm.accessed.Has x) ∧ (sm.Accessed x ↔ sm.Warm x) := by
  simp only [StateManager.frames, Prod.mk.injEq, true_and] at hf
  simp [StateManager.Warm, StateManager.Accessed, StateManager.liveFrames, hf.1, hf.2]

/-- What a resolved `initialize` with enough gas leaves warm: exactly the prewarmed sets, with
nothing accessed that is not warm. -/
theorem warmExactly_initialized (keccak : Bytes → Bytes) (blockchain : Blockchain)
    (common : Common) (simulationBlock : Block) (transaction : SimulationTransaction)
    (overrides : Option CallOverrides) (context : Nat) (sm : StateManager)
    (hle : calculateIntrinsicGas transaction.data transaction.to.isSome common ≤ transaction.gas)
    (h₁ : SimulationHandler)
    (hok : (initializeSimulation keccak blockchain common simulationBlock transaction
      overrides).run (SimulationHandler.new context sm) = .ok () h₁) :
    WarmExactly (prewarmedAddresses common transaction) (prewarmedSlots common transaction)
      h₁.stateManager ∧ ∀ x, h₁.stateManager.Accessed x ↔ h₁.stateManager.Warm x := by
  obtain ⟨smo, hsmo, hh₁⟩ :=
    initializeSimulation_ok_of_le keccak blockchain common simulationBlock transaction overrides _
      hle hok
  let S := (((SimulationHandler.new context sm).started blockchain common simulationBlock
    transaction).listening common transaction).stateManager
  obtain ⟨hSf, hSslots⟩ := frames_listening_started blockchain common simulationBlock transaction
    (SimulationHandler.new context sm)
  have hsmo_f : smo.frames = S.frames := by
    have := applyOverridesIfAny_preserves (frames_keptByOverrideWrites S.frames) keccak overrides S rfl
    rwa [hsmo] at this
  obtain ⟨acc, hw⟩ := warmTransactionAccessList_eq common transaction.accessList smo
  have hacc : h₁.stateManager.accessed =
      (warmTransactionAccessList common transaction.accessList smo).accessed := by rw [hh₁]; rfl
  have hf : h₁.stateManager.frames = (h₁.stateManager.accessed, [AccessSet.empty], AccessSet.empty) := by
    have h₁f : h₁.stateManager.frames = (h₁.stateManager.accessed, smo.frames.2) := by
      rw [hh₁]; simp only [debitSender, hw]; rfl
    rw [h₁f, hsmo_f, hSf]
  obtain ⟨haddr, hslot⟩ := mem_warmTransactionAccessList common transaction.accessList smo
  have hsmo_acc : smo.accessed = S.accessed := congrArg Prod.fst hsmo_f
  refine ⟨⟨fun a => ?_, fun a k => ?_⟩, fun x => (warm_of_frames hf x).2⟩
  · rw [StateManager.isWarmedAddress_iff, (warm_of_frames hf _).1]
    simp only [AccessSet.Has, hacc, haddr, hsmo_acc, S, mem_listening_started, mem_prewarmedAddresses]
  · rw [StateManager.isWarmedStorage_iff, (warm_of_frames hf _).1]
    simp only [AccessSet.Has, hacc, hslot, hsmo_acc, S, hSslots, prewarmedSlots]
    split_ifs <;> simp [*]

/-! ### One iteration -/

section Iteration

variable (h : SimulationHandler) (vm : Vm) (opts : RunCallOpts)

theorem checkpoints_run_ne_nil :
    (h.stateManager.checkpoint.run (vm.runCall opts h.stateManager.checkpoint).ops).checkpoints ≠ [] := by
  rw [StateManager.checkpoints_checkpoint_run _ (vm.balanced_runCall _ _)]
  exact List.cons_ne_nil _ _

/-- What the list of an iteration is built from: what was accessed before it and what its run
warmed. -/
theorem has_generated (x : Access) :
    (h.stateManager.checkpoint.run (vm.runCall opts h.stateManager.checkpoint).ops).foldedAccess.Has x ↔
      h.stateManager.Accessed x ∨ ∃ op ∈ (vm.runCall opts h.stateManager.checkpoint).ops, op.Warms x := by
  rw [StateManager.has_foldedAccess, StateManager.accessed_run, StateManager.accessed_checkpoint]

/-- After a resolved iteration, warm is what was accessed before it and what its run warmed: the
fold keeps the run's accesses in the frames below the checkpoint the revert drops. -/
theorem warm_iterated (x : Access) :
    (h.iterated vm opts).stateManager.Warm x ↔
      h.stateManager.Accessed x ∨ ∃ op ∈ (vm.runCall opts h.stateManager.checkpoint).ops, op.Warms x := by
  rw [iterated_stateManager, StateManager.warm_foldAccessFrames_revert (checkpoints_run_ne_nil h vm opts),
    StateManager.accessed_run, StateManager.accessed_checkpoint]

theorem accessed_iterated (x : Access) :
    (h.iterated vm opts).stateManager.Accessed x ↔ (h.iterated vm opts).stateManager.Warm x := by
  rw [warm_iterated, iterated_stateManager,
    StateManager.accessed_foldAccessFrames_revert (checkpoints_run_ne_nil h vm opts),
    StateManager.accessed_run, StateManager.accessed_checkpoint]

end Iteration

/-! ### What every VM call is given -/

/-- The call `c'` finds warm what the call `c` found warm and what `c`'s run warmed. -/
def FindsWarm (vm : Vm) (c c' : VmCall) : Prop :=
  ∀ x, c'.stateManager.Warm x ↔ c.stateManager.Warm x ∨
    ∃ op ∈ (vm.runCall c.opts c.stateManager).ops, op.Warms x

section Log

variable {vm : Vm} {addresses : List Address} {slots : List (Address × Bytes)}

/-- The calls so far: each finds warm what the one before found warm and warmed, and the first
finds warm exactly `addresses` and `slots`. -/
structure WarmCalls (vm : Vm) (addresses : List Address) (slots : List (Address × Bytes))
    (calls : List VmCall) : Prop where
  chain : List.Chain' (FindsWarm vm) calls
  head : ∀ c ∈ calls.head?, WarmExactly addresses slots c.stateManager

/-- Where an iteration starts: the calls so far as `WarmCalls` says, everything accessed warm,
and warm what the last call found warm and warmed, or the prewarmed sets before any call. -/
structure WarmLog (vm : Vm) (addresses : List Address) (slots : List (Address × Bytes))
    (h : SimulationHandler) : Prop where
  calls : WarmCalls vm addresses slots h.invocations
  accessed : ∀ x, h.stateManager.Accessed x ↔ h.stateManager.Warm x
  start : h.invocations = [] → WarmExactly addresses slots h.stateManager
  last : ∀ c ∈ h.invocations.getLast?, ∀ x, h.stateManager.Warm x ↔ c.stateManager.Warm x ∨
    ∃ op ∈ (vm.runCall c.opts c.stateManager).ops, op.Warms x

/-- The call an iteration makes from the checkpoint extends the log. -/
theorem WarmLog.call {h : SimulationHandler} (hI : WarmLog vm addresses slots h) (opts : RunCallOpts) :
    WarmCalls vm addresses slots (h.invocations ++ [⟨opts, h.stateManager.checkpoint⟩]) := by
  refine ⟨List.chain'_append.mpr ⟨hI.calls.chain, List.chain'_singleton _, fun c hc c' hc' => ?_⟩, ?_⟩
  · obtain rfl := Option.some.inj hc'.symm
    exact fun x => (StateManager.warm_checkpoint _ x).trans (hI.last c hc x)
  · cases hcalls : h.invocations with
    | nil => exact fun c hc => (Option.some.inj hc.symm ▸ (hI.start hcalls).of_warm_iff
        (StateManager.warm_checkpoint _))
    | cons c₀ rest => exact fun c hc => hI.calls.head c (by rw [hcalls] at *; exact hc)

theorem WarmLog.iterated {h : SimulationHandler} (hI : WarmLog vm addresses slots h) (opts : RunCallOpts) :
    WarmLog vm addresses slots (h.iterated vm opts) := by
  refine ⟨by rw [iterated_invocations]; exact hI.call opts, accessed_iterated h vm opts,
    fun hnil => absurd hnil (by simp), fun c hc x => ?_⟩
  obtain rfl : c = ⟨opts, h.stateManager.checkpoint⟩ := by simpa using hc.symm
  rw [warm_iterated, hI.accessed, ← StateManager.warm_checkpoint]

/-- Whichever way the loop ends, its calls are as `WarmCalls` says. -/
theorem warmCalls_accessListLoop (n : Nat) (prev : AccessList) (h : SimulationHandler)
    (hI : WarmLog vm addresses slots h) :
    WarmCalls vm addresses slots (stateOf ((accessListLoop vm n prev).run h)).invocations :=
  accessListLoop_invariant (I := WarmLog vm addresses slots)
    (J := fun h => WarmCalls vm addresses slots h.invocations)
    (fun h _ _ _ hit hI => by
      obtain ⟨opts, -, -, -, -, -, rfl⟩ := accessListIteration_ok hit
      exact hI.iterated opts)
    (fun h _ h₁ hit hI => by
      have hh₁ : h₁ = stateOf ((runCall vm).run h.checkpointed) := by
        rw [accessListIteration_error hit]; rfl
      rw [hh₁, stateOf_runCall]
      split
      · exact hI.call _
      · exact hI.calls)
    (fun _ hI => hI.calls) (fun _ hJ => hJ) n prev h hI

end Log

/-- The warm sets: exactly the prewarmed ones for `runCall`'s call and the loop's first, and for
each later call what the one before found warm and warmed. -/
theorem vm_warm_sets (vm : Vm) (keccak : Bytes → Bytes) (blockchain : Blockchain)
    (common : Common) (simulationBlock : Block) (transaction : SimulationTransaction)
    (overrides : Option CallOverrides) (context : Nat) (sm : StateManager)
    (hle : calculateIntrinsicGas transaction.data transaction.to.isSome common ≤ transaction.gas)
    (h₁ : SimulationHandler)
    (hok : (initializeSimulation keccak blockchain common simulationBlock transaction
      overrides).run (SimulationHandler.new context sm) = .ok () h₁) :
    WarmExactly (prewarmedAddresses common transaction) (prewarmedSlots common transaction)
      h₁.stateManager ∧
    (∀ c ∈ (stateOf ((runCall vm).run h₁)).invocations,
      WarmExactly (prewarmedAddresses common transaction) (prewarmedSlots common transaction)
        c.stateManager) ∧
    ∀ seed, (∀ c ∈ (stateOf ((createAccessList vm seed).run h₁)).invocations.head?,
        WarmExactly (prewarmedAddresses common transaction) (prewarmedSlots common transaction)
          c.stateManager) ∧
      List.Chain' (FindsWarm vm) (stateOf ((createAccessList vm seed).run h₁)).invocations := by
  obtain ⟨hwarm, hacc⟩ := warmExactly_initialized keccak blockchain common simulationBlock
    transaction overrides context sm hle h₁ hok
  obtain ⟨-, -, -, hcalls⟩ := initializeSimulation_ready keccak blockchain common simulationBlock
    transaction overrides context sm hle hok
  have hlog : WarmLog vm (prewarmedAddresses common transaction) (prewarmedSlots common transaction)
      h₁ := ⟨⟨by rw [hcalls]; exact List.chain'_nil, by simp [hcalls]⟩, hacc, fun _ => hwarm,
        by simp [hcalls]⟩
  obtain ⟨calls, hrun, -, hsame⟩ := invocations_runCall vm h₁
  refine ⟨hwarm, fun c hc => ?_, fun seed => ?_⟩
  · rw [hrun, hcalls, List.nil_append] at hc
    rw [(hsame c hc).1]
    exact hwarm
  · have := warmCalls_accessListLoop MAX_ITERATIONS (seed.getD []) h₁ hlog
    exact ⟨this.head, this.chain⟩

/-- A plain call declaring the account `0x…0c` with one key, `0x05`. -/
def declaringTx : SimulationTransaction :=
  callTx 30000 1 (some [⟨Address.ofByte 12, [[5]]⟩])

/-- The warm sets of a plain call declaring one account with one key, under Berlin rules. -/
theorem vm_warm_sets_declaringTx :
    calculateIntrinsicGas declaringTx.data declaringTx.to.isSome Common.berlin ≤ declaringTx.gas ∧
    ∃ h₁, (initializeSimulation (fun _ => []) Blockchain.empty Common.berlin Block.genesis
        declaringTx none).run (SimulationHandler.new 0 StateManager.empty) = .ok () h₁ ∧
      WarmExactly (prewarmedAddresses Common.berlin declaringTx) (prewarmedSlots Common.berlin declaringTx)
        h₁.stateManager ∧
      (∀ c ∈ (stateOf ((runCall Vm.idle).run h₁)).invocations,
        WarmExactly (prewarmedAddresses Common.berlin declaringTx)
          (prewarmedSlots Common.berlin declaringTx) c.stateManager) ∧
      ∀ seed, (∀ c ∈ (stateOf ((createAccessList Vm.idle seed).run h₁)).invocations.head?,
          WarmExactly (prewarmedAddresses Common.berlin declaringTx)
            (prewarmedSlots Common.berlin declaringTx) c.stateManager) ∧
        List.Chain' (FindsWarm Vm.idle) (stateOf ((createAccessList Vm.idle seed).run h₁)).invocations :=
  ⟨by decide, _, rfl, vm_warm_sets Vm.idle (fun _ => []) Blockchain.empty Common.berlin Block.genesis
    declaringTx none 0 StateManager.empty (by decide) _ rfl⟩

end Ganache
