import GanacheSimulation.AccessList
import GanacheSimulation.Overrides

/-! # The simulation handler

`SimulationHandler` (part_000) runs one transaction for `eth_call`, `eth_estimateGas` and
`eth_createAccessList` on an ephemeral copy of the state at a block. `initialize` copies the
state trie, makes a VM on it, takes the checkpoint every later write goes under, computes the
intrinsic gas and emits `before`. When the gas covers the intrinsic cost it installs the step
listener, warms the defaults and records the exclusion sets (EIP-2929), applies the overrides,
warms the transaction's access list (EIP-2930), bumps the sender's nonce, debits its balance and
sets the VM's options; otherwise it records `OUT_OF_GAS`. `runCall` runs the VM once and emits
`after`; `createAccessList` runs it until two consecutive access lists agree.

The VM is a parameter: `runCall` as a function of its options and of the state manager it runs
on, which holds everything a run can read, the warm sets included. What a run does to the state
is a list of `StateOp`s that closes the checkpoints it opens. The handler's state carries one
ghost field, `invocations`: the VM calls made so far, with what each was given.

`HandlerSpec` gives one spec lemma per method; the modules after it cite those and never unfold a
method. -/

namespace Ganache

/-! ### The VM and its results -/

/-- `ERROR` of the VM library: the exceptions a result can carry. -/
inductive ERROR
  | OUT_OF_GAS
  | REVERT
  | other (name : String)
  deriving DecidableEq

/-- `execResult`: the exception the run ended with, its return data, and its final program
counter (`runState.programCounter`). -/
structure ExecResult where
  exceptionError : Option ERROR
  returnValue : Bytes
  programCounter : Nat

/-- `EVMResult`: the gas a run used and its `execResult`. -/
structure EVMResult where
  gasUsed : Nat
  execResult : ExecResult

/-- An `InterpreterStep` the VM reports to its `step` listeners, with the console.log arguments
`maybeGetLogs` decodes from it when the step is a call to the console.log address. -/
structure InterpreterStep where
  pc : Nat
  logs : Option (List Bytes)

/-- `RunCallOpts`: what `vm.runCall` is given. -/
structure RunCallOpts where
  caller : Address
  data : Option Bytes
  gasPrice : Nat
  gasLimit : Nat
  «to» : Option Address
  value : Nat
  block : Nat

/-- What one `vm.runCall` does: its result, the steps it reports, and its writes to the state. -/
structure VmRun where
  result : EVMResult
  steps : List InterpreterStep
  ops : List StateOp

/-- A VM: `runCall` on the state manager it was made on. Every run closes the checkpoints it
opens. -/
structure Vm where
  runCall : RunCallOpts → StateManager → VmRun
  balanced_runCall : ∀ opts sm, balanced (runCall opts sm).ops = true

/-! ### The chain and the transaction -/

/-- `SimulationTransaction`. -/
structure SimulationTransaction where
  «from» : Address
  «to» : Option Address
  gas : Nat
  gasPrice : Nat
  value : Option Nat
  data : Option Bytes
  block : Nat
  accessList : Option AccessList

/-- The chain rules (`Common`): the EIPs in force, and the precompiles `warmPrecompiles` warms. -/
structure Common where
  eips : List Nat
  precompiles : List Address

/-- `common.isActivatedEIP(eip)`. -/
def Common.isActivatedEIP (common : Common) (eip : Nat) : Bool := common.eips.contains eip

/-- `calculateIntrinsicGas(data, hasToAddress, common)`. Modelled from the spec: 21000, then 4
per zero byte and 16 per other byte of data (68 before EIP-2028), and for a creation 32000 from
Homestead (EIP-2) and 2 per 32-byte word of init code from Shanghai (EIP-3860). -/
def calculateIntrinsicGas (data : Option Bytes) (hasToAddress : Bool) (common : Common) : Nat :=
  let bytes := data.getD []
  let zeros := bytes.count 0
  let nonZeroCost := if common.isActivatedEIP 2028 then 16 else 68
  let creationCost :=
    if hasToAddress then 0
    else (if common.isActivatedEIP 2 then 32000 else 0) +
      (if common.isActivatedEIP 3860 then 2 * ((bytes.length + 31) / 32) else 0)
  21000 + 4 * zeros + nonZeroCost * (bytes.length - zeros) + creationCost

/-- The simulated block's header: its state root and number. -/
structure Block where
  stateRoot : Bytes
  number : Nat

/-- What the handler uses of the `Blockchain`: its state trie, the leveldb under it, the accounts
and storage a state manager reads at a state root, and the nodes the trie library's storage
tries store for a write. -/
structure Blockchain where
  trie : GanacheTrie
  leveldb : KV
  accountsAt : Bytes → Address → Account
  storageAt : Bytes → Address → Bytes → Bytes
  storageTrieNodes : (Bytes → Bytes) → Bytes → List (Bytes × Bytes)

/-- `blockchain.createVmFromStateTrie(stateTrie, false, common)`: the state manager of a new VM,
holding the state at the trie's root, with nothing accessed and no checkpoint. -/
def Blockchain.createVmFromStateTrie (blockchain : Blockchain) (stateTrie : GanacheTrie) :
    StateManager :=
  ⟨blockchain.accountsAt stateTrie.root, blockchain.storageAt stateTrie.root, AccessSet.empty, [],
    AccessSet.empty, stateTrie, blockchain.leveldb, blockchain.storageTrieNodes⟩

/-! ### The handler's state -/

/-- What the handler emits, each with the transaction's context. -/
inductive Event
  | before (context : Nat)
  | step (context : Nat) (event : InterpreterStep)
  | consoleLog (context : Nat) (logs : List Bytes)
  | after (context : Nat)

/-- One VM call as the ghost log keeps it: the options and the state manager it was given. -/
structure VmCall where
  opts : RunCallOpts
  stateManager : StateManager

/-- A `SimulationHandler`: its fields, and the events emitted so far. `stepListener` says whether
`#setupStepEventEmits` has run. `invocations` is ghost: every VM call so far, in order. -/
structure SimulationHandler where
  stateManager : StateManager
  stepListener : Bool
  runCallOpts : Option RunCallOpts
  accessListExclusions : List Address
  addressesOnlyStorage : List Address
  intrinsicGas : Nat
  initializationError : Option ERROR
  transactionContext : Nat
  emitted : List Event
  invocations : List VmCall

/-- `new SimulationHandler()`: a fresh context and empty exclusion sets. `stateManager` stands
for the field the constructor leaves undefined; `initialize` sets it. -/
def SimulationHandler.new (transactionContext : Nat) (stateManager : StateManager) :
    SimulationHandler :=
  ⟨stateManager, false, none, [], [], 0, none, transactionContext, [], []⟩

/-- A rejection: `CallError` with the result it carries, or an `Error` with its message. -/
inductive HandlerError
  | callError (result : EVMResult)
  | error (message : String)

/-- A method of the handler. -/
abbrev Handler := EStateM HandlerError SimulationHandler

/-- A state manager update. -/
def modifyStateManager (f : StateManager → StateManager) : Handler Unit :=
  modify fun h => { h with stateManager := f h.stateManager }

/-- An override step on the state manager; its rejection rejects the method. -/
def liftOverriding (x : Overriding Unit) : Handler Unit := fun h =>
  match x.run h.stateManager with
  | .ok a sm => .ok a { h with stateManager := sm }
  | .error e sm => .error (.error e) { h with stateManager := sm }

theorem run_liftOverriding (x : Overriding Unit) (h : SimulationHandler) :
    (liftOverriding x).run h = match x.run h.stateManager with
      | .ok a sm => .ok a { h with stateManager := sm }
      | .error e sm => .error (.error e) { h with stateManager := sm } := rfl

/-! ### Events -/

/-- `#emitBefore()`. -/
def emitBefore : Handler Unit :=
  modify fun h => { h with emitted := h.emitted ++ [.before h.transactionContext] }

/-- `#emitAfter()`. -/
def emitAfter : Handler Unit :=
  modify fun h => { h with emitted := h.emitted ++ [.after h.transactionContext] }

/-- `#setupStepEventEmits()`: from now on the VM's steps are emitted. -/
def setupStepEventEmits (h : SimulationHandler) : SimulationHandler :=
  { h with stepListener := true }

/-- What the step listener emits for one step: a console.log event when the step carries logs,
then the step event (`makeStepEvent`). -/
def stepEvents (context : Nat) (event : InterpreterStep) : List Event :=
  (match event.logs with
    | some logs => [.consoleLog context logs]
    | none => []) ++ [.step context event]

/-- What the listeners emit for a run's steps: nothing before the listener is installed. -/
def listenerEvents (stepListener : Bool) (context : Nat) (steps : List InterpreterStep) :
    List Event :=
  if stepListener then steps.flatMap (stepEvents context) else []

/-! ### `initialize` -/

/-- `warmPrecompiles(stateManager)`: every precompile warmed; the precompiles. -/
def warmPrecompiles (precompiles : List Address) (sm : StateManager) :
    StateManager × List Address :=
  (precompiles.foldl StateManager.addWarmedAddress sm, precompiles)

/-- `#warmDefaults(caller, to)`: the precompiles, the caller and the callee warmed; the
precompiles. -/
def warmDefaults (common : Common) (caller : Address) («to» : Option Address) (sm : StateManager) :
    StateManager × List Address :=
  let warmed := warmPrecompiles common.precompiles sm
  let sm := warmed.1.addWarmedAddress caller
  (match «to» with
    | some t => sm.addWarmedAddress t
    | none => sm, warmed.2)

/-- `#warmAccessList(accessList)`: every address of the list, and every slot as `Data.toBuffer`
pads it to 32 bytes. -/
def warmAccessList (accessList : AccessList) (sm : StateManager) : StateManager :=
  accessList.foldl (fun sm item => item.storageKeys.foldl
    (fun sm slot => sm.addWarmedStorage item.address (Data.bufferToFixedByteLength slot 32))
    (sm.addWarmedAddress item.address)) sm

/-- The start of `initialize`: the trie copied without its checkpoints and set to the block's
state root, the VM made on it, and the checkpoint every later write goes under. -/
def setUp (blockchain : Blockchain) (simulationBlock : Block) : Handler Unit :=
  modify fun h =>
    let stateTrie := (blockchain.trie.copy false).setContext simulationBlock.stateRoot none
      simulationBlock.number
    { h with stateManager := (blockchain.createVmFromStateTrie stateTrie).checkpoint }

/-- The EIP-2929 block of `initialize`: `#warmDefaults`, then the caller and the precompiles join
the exclusion set and the callee the only-with-storage set. -/
def excludeDefaults (common : Common) (caller : Address) («to» : Option Address)
    (h : SimulationHandler) : SimulationHandler :=
  let warmed := warmDefaults common caller «to» h.stateManager
  { h with
    stateManager := warmed.1
    accessListExclusions := h.accessListExclusions ++ caller :: warmed.2
    addressesOnlyStorage := h.addressesOnlyStorage ++ «to».toList }

/-- `if (overrides) await this.#applySimulationOverrides(overrides)`. -/
def applyOverridesIfAny (keccak : Bytes → Bytes) : Option CallOverrides → Overriding Unit
  | some overrides => applySimulationOverrides keccak overrides
  | none => pure ()

/-- `if (common.isActivatedEIP(2930) && transaction.accessList) this.#warmAccessList(…)`. -/
def warmTransactionAccessList (common : Common) : Option AccessList → StateManager → StateManager
  | some accessList, sm => if common.isActivatedEIP 2930 then warmAccessList accessList sm else sm
  | none, sm => sm

/-- `balance.isub(txCost)` as `putAccount` stores it: the account encoding writes the `BN`
through `toArrayLike`, which drops its sign. -/
def debitBalance (balance txCost : Nat) : Nat := ((balance : Int) - txCost).natAbs

/-- The sender's nonce bumped and `gas × gasPrice` taken from its balance. -/
def debitSender (caller : Address) (gasLimit gasPrice : Nat) (sm : StateManager) : StateManager :=
  let fromAccount := sm.getAccount caller
  let txCost := gasLimit * gasPrice
  sm.putAccount caller
    { fromAccount with
      nonce := fromAccount.nonce + 1
      balance := debitBalance fromAccount.balance txCost }

/-- `this.#runCallOpts`: the VM's options, with the gas left after the intrinsic cost. -/
def runCallOptsOf (transaction : SimulationTransaction) (gasLeft : Nat) : RunCallOpts :=
  { caller := transaction.from
    data := transaction.data
    gasPrice := transaction.gasPrice
    gasLimit := gasLeft
    «to» := transaction.to
    value := transaction.value.getD 0
    block := transaction.block }

/-- The first steps of `initialize` once the gas covers the intrinsic cost:
`#setupStepEventEmits()`, then, under EIP-2929, the defaults warmed and the exclusion sets
filled. -/
def SimulationHandler.listening (h : SimulationHandler) (common : Common)
    (transaction : SimulationTransaction) : SimulationHandler :=
  if common.isActivatedEIP 2929 then
    excludeDefaults common transaction.from transaction.to (setupStepEventEmits h)
  else setupStepEventEmits h

/-- The part of `initialize` run when the gas covers the intrinsic cost. -/
def prepare (keccak : Bytes → Bytes) (common : Common) (transaction : SimulationTransaction)
    (overrides : Option CallOverrides) (gasLeft : Nat) : Handler Unit := do
  modify (·.listening common transaction)
  liftOverriding (applyOverridesIfAny keccak overrides)
  modifyStateManager fun sm =>
    debitSender transaction.from transaction.gas transaction.gasPrice
      (warmTransactionAccessList common transaction.accessList sm)
  modify fun h => { h with runCallOpts := some (runCallOptsOf transaction gasLeft) }

/-- `initialize(blockchain, common, simulationBlock, transaction, overrides)`. -/
def initializeSimulation (keccak : Bytes → Bytes) (blockchain : Blockchain) (common : Common)
    (simulationBlock : Block) (transaction : SimulationTransaction)
    (overrides : Option CallOverrides) : Handler Unit := do
  setUp blockchain simulationBlock
  let intrinsicGas := calculateIntrinsicGas transaction.data transaction.to.isSome common
  modify fun h => { h with intrinsicGas := intrinsicGas }
  let gasLeft : Int := transaction.gas - intrinsicGas
  emitBefore
  if 0 ≤ gasLeft then prepare keccak common transaction overrides gasLeft.toNat
  else modify fun h => { h with initializationError := some .OUT_OF_GAS }

/-! ### `runCall` -/

/-- `this.#vm.runCall(opts)`: the VM runs on the state manager, the listener emits its steps once
installed, and the ghost log records the call. -/
def vmRunCall (vm : Vm) (opts : RunCallOpts) : Handler EVMResult := fun h =>
  let run := vm.runCall opts h.stateManager
  .ok run.result
    { h with
      stateManager := h.stateManager.run run.ops
      emitted := h.emitted ++ listenerEvents h.stepListener h.transactionContext run.steps
      invocations := h.invocations ++ [⟨opts, h.stateManager⟩] }

/-- The result `runCall` makes up after a failed `initialize`: the error, empty return data and
program counter 0. The source leaves `gasUsed` undefined; nothing reads it, since the result
always carries an exception. -/
def initializationResult (err : ERROR) : EVMResult := ⟨0, ⟨some err, [], 0⟩⟩

/-- The first part of `runCall`: the made-up result of a failed `initialize`, or a VM run
followed by `#emitAfter()`. -/
def obtainCallResult (vm : Vm) : Handler EVMResult := do
  let h ← get
  match h.initializationError, h.runCallOpts with
  | some err, _ => pure (initializationResult err)
  | none, some opts => do
    let callResult ← vmRunCall vm opts
    emitAfter
    pure callResult
  | none, none => throw (.error "Unknown error when simulating transaction.")

/-- `runCall()`: a result with an exception rejects as a `CallError`. -/
def runCall (vm : Vm) : Handler EVMResult := do
  let callResult ← obtainCallResult vm
  if callResult.execResult.exceptionError.isSome then throw (.callError callResult)
  else pure callResult

/-! ### `createAccessList` -/

/-- `MAX_ITERATIONS`. -/
def MAX_ITERATIONS : Nat := 1000

/-- What `createAccessList` resolves with; `gasUsed` is the hex quantity of this number. -/
structure AccessListResult where
  accessList : AccessList
  gasUsed : Nat

/-- The body of the `do … while` loop up to the comparison: checkpoint, `runCall`,
`generateAccessList`, which folds the access frames in place, and revert. -/
def accessListIteration (vm : Vm) : Handler (EVMResult × AccessList) := do
  modifyStateManager StateManager.checkpoint
  let callResult ← runCall vm
  let h ← get
  let generated := h.stateManager.generateAccessList h.accessListExclusions h.addressesOnlyStorage
  set { h with stateManager := generated.2.revert }
  pure (callResult, generated.1)

/-- The `do … while (iterations < MAX_ITERATIONS)` loop with `remaining` iterations left: stop
when the list is the same as the one it is compared against. `none` is the `undefined` the
method resolves with when the loop runs out. -/
def accessListLoop (vm : Vm) : Nat → AccessList → Handler (Option AccessListResult)
  | 0, _ => pure none
  | remaining + 1, previousAccessList => do
    let (callResult, accessList) ← accessListIteration vm
    let h ← get
    if areAccessListsSame previousAccessList accessList then
      pure (some ⟨accessList, callResult.gasUsed + (h.intrinsicGas + dataFeeEIP2930 accessList)⟩)
    else accessListLoop vm remaining accessList

/-- `createAccessList(initialAccessList)`. -/
def createAccessList (vm : Vm) (initialAccessList : Option AccessList) :
    Handler (Option AccessListResult) :=
  accessListLoop vm MAX_ITERATIONS (initialAccessList.getD [])

end Ganache
