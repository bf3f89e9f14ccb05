import GanacheSimulation.CheckpointDB

/-! # The state manager the simulation runs on

The VM reads and writes the simulated state through the VM library's `DefaultStateManager`, which
this repository does not define; it is modelled from that library. Accounts and storage are maps
with nested checkpoints: a checkpoint saves them and checkpoints the trie, `revert` restores both,
`commit` keeps the current state and folds the trie's scratch outward. The code store is the
state trie's database.

Storage is written through a storage trie that `_lookupStorageTrie` derives from the state trie
with `copy(false)` and no checkpoint, so every node a storage write stores goes straight into the
leveldb. The model does not build the Merkle Patricia trie: which nodes a write stores is the trie
library's `storageTrieNodes`, a function of the account's storage after the write and of the key.

The EIP-2929 access set is a stack of frames: `checkpoint` opens an empty one, `commit` merges the
innermost into the one below, `revert` moves it to the reverted frames. An address is warm when a
live frame holds it (`Warm`); `generateAccessList` reads every frame, reverted ones included
(`Accessed`), and folds each into the one below in place, so that what a later `revert` leaves
warm is everything accessed so far (`warm_foldAccessFrames_revert`).

What a VM run does to the state is a list of `StateOp`s. The run lemmas: a `balanced` run leaves
the saved states as it found them (`checkpoints_run`); with an outer checkpoint open, the leveldb
gains exactly the nodes the run stores through tries copied without their checkpoints
(`leveldb_run`); the access set gains exactly what the run warms (`accessed_run`); and a run
between `checkpoint` and `revert` gives back the state it started from but for the access frames
and the leveldb (`sameState_iteration`). -/

namespace Ganache

/-- An address: 20 bytes, compared bytewise (`buf.equals`). -/
structure Address where
  buf : Bytes
  length_buf : buf.length = 20
  deriving DecidableEq

/-- `Address.from(value).toBuffer()`: a 20-byte `Data` of the hex string. -/
def Address.from (value : String) : Except String Address :=
  match h : Data.from (.string value) (some 20) with
  | .ok d => .ok ⟨d.toBuffer none, length_toBuffer_of_from (by decide) h⟩
  | .error e => .error e

/-- The address `0x00…00b`. -/
def Address.ofByte (b : UInt8) : Address := ⟨List.replicate 19 0 ++ [b], by simp⟩

/-- An account as the state manager keeps it. -/
structure Account where
  nonce : Nat
  balance : Nat
  codeHash : Bytes

/-! ### Access sets -/

/-- One frame of the EIP-2929 access set: warm addresses and warm (address, slot) pairs. A warm
slot's address is warm. -/
structure AccessSet where
  addresses : List Address
  slots : List (Address × Bytes)
  slots_warm : ∀ p ∈ slots, p.1 ∈ addresses

/-- The empty frame. -/
def AccessSet.empty : AccessSet := ⟨[], [], fun _ h => absurd h (List.not_mem_nil _)⟩

/-- `addWarmedAddress(address)`. -/
def AccessSet.addAddress (s : AccessSet) (a : Address) : AccessSet :=
  ⟨a :: s.addresses, s.slots, fun p hp => List.mem_cons_of_mem _ (s.slots_warm p hp)⟩

/-- `addWarmedStorage(address, slot)`: the slot, and with it its address. -/
def AccessSet.addSlot (s : AccessSet) (a : Address) (slot : Bytes) : AccessSet :=
  ⟨a :: s.addresses, (a, slot) :: s.slots, by
    intro p hp
    rcases List.mem_cons.mp hp with rfl | hp
    · exact List.mem_cons_self _ _
    · exact List.mem_cons_of_mem _ (s.slots_warm p hp)⟩

/-- `_accessedStorageMerge`: every address and slot of `s` added to `t`. -/
def AccessSet.merge (t s : AccessSet) : AccessSet :=
  ⟨t.addresses ++ s.addresses, t.slots ++ s.slots, fun p hp => by
    rcases List.mem_append.mp hp with hp | hp
    · exact List.mem_append_left _ (t.slots_warm p hp)
    · exact List.mem_append_right _ (s.slots_warm p hp)⟩

/-- What a frame can hold: an address, or a slot of an address. -/
inductive Access
  | address (a : Address)
  | slot (a : Address) (key : Bytes)

/-- The frame holds `x`. -/
def AccessSet.Has (s : AccessSet) : Access → Prop
  | .address a => a ∈ s.addresses
  | .slot a key => (a, key) ∈ s.slots

namespace AccessSet

@[simp] theorem has_empty (x : Access) : ¬ empty.Has x := by
  cases x <;> exact List.not_mem_nil _

@[simp] theorem has_merge (t s : AccessSet) (x : Access) : (t.merge s).Has x ↔ t.Has x ∨ s.Has x := by
  cases x <;> exact List.mem_append

@[simp] theorem has_addAddress (s : AccessSet) (a : Address) (x : Access) :
    (s.addAddress a).Has x ↔ x = .address a ∨ s.Has x := by
  cases x <;> simp [Has, addAddress]

@[simp] theorem has_addSlot (s : AccessSet) (a : Address) (slot : Bytes) (x : Access) :
    (s.addSlot a slot).Has x ↔ x = .address a ∨ x = .slot a slot ∨ s.Has x := by
  cases x <;> simp [Has, addSlot, or_left_comm]

end AccessSet

/-! ### The state manager -/

/-- What a checkpoint saves and a revert restores: the accounts, the storage, and the access
frame it was taken over. -/
structure Snapshot where
  accounts : Address → Account
  storage : Address → Bytes → Bytes
  accessed : AccessSet

/-- The state manager: the current state and its innermost access frame, the saved states
(innermost first), the reverted access frames merged, the state trie whose database holds the
code, the leveldb under it, shared with the blockchain, and the nodes the trie library's storage
tries store for a write. -/
structure StateManager where
  accounts : Address → Account
  storage : Address → Bytes → Bytes
  accessed : AccessSet
  checkpoints : List Snapshot
  reverted : AccessSet
  trie : GanacheTrie
  leveldb : KV
  storageTrieNodes : (Bytes → Bytes) → Bytes → List (Bytes × Bytes)

/-- Through which trie a node write goes: the state trie, or a trie copied from it. -/
inductive Route
  | stateTrie
  | copy (includeCheckpoints : Bool)

/-- One thing a run does to the state. -/
inductive StateOp
  | putAccount (address : Address) (account : Account)
  | putContractStorage (address : Address) (key value : Bytes)
  | clearContractStorage (address : Address)
  | addWarmedAddress (address : Address)
  | addWarmedStorage (address : Address) (slot : Bytes)
  | putNode (route : Route) (key value : Bytes)
  | checkpoint
  | commit
  | revert

/-- `unpadBuffer`: the leading zero bytes dropped (an all-zero value is the empty one). -/
def unpad (b : Bytes) : Bytes := b.dropWhile (· = 0)

/-- What an operation warms: the address of `addWarmedAddress`, the slot of `addWarmedStorage` and
its address. -/
def StateOp.Warms : StateOp → Access → Prop
  | .addWarmedAddress a, x => x = .address a
  | .addWarmedStorage a slot, x => x = .address a ∨ x = .slot a slot
  | _, _ => False

/-- `ops` closes exactly the checkpoints it opens, `depth` of them being open already, and never
closes one it did not open. -/
def balancedFrom : Nat → List StateOp → Bool
  | depth, [] => depth == 0
  | depth, .checkpoint :: ops => balancedFrom (depth + 1) ops
  | depth, .commit :: ops => depth != 0 && balancedFrom (depth - 1) ops
  | depth, .revert :: ops => depth != 0 && balancedFrom (depth - 1) ops
  | depth, _ :: ops => balancedFrom depth ops

/-- A run that opens and closes its own checkpoints only. -/
def balanced (ops : List StateOp) : Bool := balancedFrom 0 ops

namespace StateManager

/-- A state manager with nothing in it: every account empty, no slot set, nothing accessed, no
checkpoint, an empty trie over an empty leveldb, and storage tries that store no node. -/
def empty : StateManager :=
  ⟨fun _ => ⟨0, 0, []⟩, fun _ _ => [], AccessSet.empty, [], AccessSet.empty, ⟨[], ⟨[]⟩⟩,
    fun _ => none, fun _ _ => []⟩

/-- The part a checkpoint saves. -/
def snapshot (sm : StateManager) : Snapshot := ⟨sm.accounts, sm.storage, sm.accessed⟩

/-- `getAccount(address)`. -/
def getAccount (sm : StateManager) (a : Address) : Account := sm.accounts a

/-- `putAccount(address, account)`. -/
def putAccount (sm : StateManager) (a : Address) (acct : Account) : StateManager :=
  { sm with accounts := fun b => if b = a then acct else sm.accounts b }

/-- `getContractStorage(address, key)`; an unset slot reads as the empty value. -/
def getContractStorage (sm : StateManager) (a : Address) (key : Bytes) : Bytes := sm.storage a key

/-- A node written into the trie database along `route`. A copy that kept the checkpoints uses
the same scratch as the state trie (trie.ts); one that did not writes into the leveldb. -/
def putNode (sm : StateManager) (route : Route) (key value : Bytes) : StateManager :=
  match route with
  | .stateTrie =>
    let r := sm.trie.db.put sm.leveldb key value
    { sm with trie := { sm.trie with db := r.1 }, leveldb := r.2 }
  | .copy b =>
    let c := sm.trie.copy b
    let r := c.db.put sm.leveldb key value
    { sm with trie := if c.db.isCheckpoint then { sm.trie with db := r.1 } else sm.trie,
              leveldb := r.2 }

/-- The nodes a storage trie stores: `_lookupStorageTrie` makes it with `this._trie.copy(false)`
and no checkpoint. -/
def putStorageNodes (sm : StateManager) (nodes : List (Bytes × Bytes)) : StateManager :=
  nodes.foldl (fun sm node => sm.putNode (.copy false) node.1 node.2) sm

/-- The storage of `a` once `key` holds `value`. -/
def storageWith (sm : StateManager) (a : Address) (key value : Bytes) : Bytes → Bytes :=
  fun k => if k = key then value else sm.storage a k

/-- `_modifyContractStorage` with the storage trie's `put(key, value)`, or `del(key)` for the
empty value: the account's storage changes at `key`, and the trie stores its nodes. -/
def modifyContractStorage (sm : StateManager) (a : Address) (key value : Bytes) : StateManager :=
  ({ sm with storage := fun b => if b = a then sm.storageWith a key value else sm.storage b } :
    StateManager).putStorageNodes (sm.storageTrieNodes (sm.storageWith a key value) key)

/-- `putContractStorage(address, key, value)`: the key must have 32 bytes and the value at most
32; the value is stored unpadded. -/
def putContractStorage (sm : StateManager) (a : Address) (key value : Bytes) :
    Except String StateManager :=
  if key.length ≠ 32 then .error "Storage key must be 32 bytes long"
  else if value.length > 32 then .error "Storage value cannot be longer than 32 bytes"
  else .ok (sm.modifyContractStorage a key (unpad value))

/-- `clearContractStorage(address)`: the storage trie's root is set to the empty one, so every
slot of the account reads as empty; no node is stored. -/
def clearContractStorage (sm : StateManager) (a : Address) : StateManager :=
  { sm with storage := fun b k => if b = a then [] else sm.storage b k }

/-- `addWarmedAddress(address)`: into the innermost frame. -/
def addWarmedAddress (sm : StateManager) (a : Address) : StateManager :=
  { sm with accessed := sm.accessed.addAddress a }

/-- `addWarmedStorage(address, slot)`: into the innermost frame. -/
def addWarmedStorage (sm : StateManager) (a : Address) (slot : Bytes) : StateManager :=
  { sm with accessed := sm.accessed.addSlot a slot }

/-- The live access frames, innermost first. -/
def liveFrames (sm : StateManager) : List AccessSet := sm.accessed :: sm.checkpoints.map (·.accessed)

/-- `isWarmedAddress(address)`: some live frame holds it. -/
def isWarmedAddress (sm : StateManager) (a : Address) : Bool :=
  sm.liveFrames.any fun f => f.addresses.contains a

/-- `isWarmedStorage(address, slot)`: some live frame holds it. -/
def isWarmedStorage (sm : StateManager) (a : Address) (slot : Bytes) : Bool :=
  sm.liveFrames.any fun f => f.slots.contains (a, slot)

/-- `x` is warm: a live frame holds it. -/
def Warm (sm : StateManager) (x : Access) : Prop := ∃ f ∈ sm.liveFrames, f.Has x

/-- `x` was accessed: a live frame or a reverted one holds it. -/
def Accessed (sm : StateManager) (x : Access) : Prop := sm.Warm x ∨ sm.reverted.Has x

/-- The code store: the trie database read through its scratch maps. -/
def getCode (sm : StateManager) (codeHash : Bytes) : Option Bytes :=
  sm.trie.db.get sm.leveldb codeHash

/-- `checkpoint()`: the state saved, an empty access frame opened, the trie checkpointed. -/
def checkpoint (sm : StateManager) : StateManager :=
  { sm with accessed := AccessSet.empty, checkpoints := sm.snapshot :: sm.checkpoints,
            trie := sm.trie.checkpoint }

/-- `commit()`: the innermost access frame merged into the one below, the trie committed. -/
def commit (sm : StateManager) : StateManager :=
  let r := sm.trie.commit sm.leveldb
  match sm.checkpoints with
  | [] => { sm with trie := r.1, leveldb := r.2 }
  | s :: rest =>
    { sm with accessed := s.accessed.merge sm.accessed, checkpoints := rest, trie := r.1,
              leveldb := r.2 }

/-- `revert()`: the saved state restored, the innermost access frame moved to the reverted ones,
the trie reverted. -/
def revert (sm : StateManager) : StateManager :=
  match sm.checkpoints with
  | [] => { sm with trie := sm.trie.revert }
  | s :: rest =>
    { sm with accounts := s.accounts, storage := s.storage, accessed := s.accessed,
              reverted := sm.reverted.merge sm.accessed, checkpoints := rest,
              trie := sm.trie.revert }

/-! ### The fold of `generateAccessList` -/

/-- The live frames below the innermost, innermost first, each merged in place with the frame
above it once that one is merged. -/
def foldFrames : AccessSet → List Snapshot → List Snapshot
  | _, [] => []
  | above, s :: rest =>
    { s with accessed := s.accessed.merge above } :: foldFrames (s.accessed.merge above) rest

/-- The outermost frame once everything is folded into it. -/
def foldedFrame : AccessSet → List Snapshot → AccessSet
  | above, [] => above
  | above, s :: rest => foldedFrame (s.accessed.merge above) rest

/-- What `generateAccessList` reads: the reverted frames merged into the innermost live one, and
every live frame into the outermost. -/
def foldedAccess (sm : StateManager) : AccessSet :=
  foldedFrame (sm.accessed.merge sm.reverted) sm.checkpoints

/-- The frames `generateAccessList` leaves: each live frame merged with the reverted ones and
every frame above it. -/
def foldAccessFrames (sm : StateManager) : StateManager :=
  let top := sm.accessed.merge sm.reverted
  { sm with accessed := top, checkpoints := foldFrames top sm.checkpoints }

/-! ### Runs -/

/-- One operation. The EVM's `SSTORE` writes a 32-byte key and a 32-byte word, which pass
`putContractStorage`'s checks (`putContractStorage_of_length`). -/
def apply (sm : StateManager) : StateOp → StateManager
  | .putAccount a acct => sm.putAccount a acct
  | .putContractStorage a k v => sm.modifyContractStorage a k (unpad v)
  | .clearContractStorage a => sm.clearContractStorage a
  | .addWarmedAddress a => sm.addWarmedAddress a
  | .addWarmedStorage a slot => sm.addWarmedStorage a slot
  | .putNode route k v => sm.putNode route k v
  | .checkpoint => sm.checkpoint
  | .commit => sm.commit
  | .revert => sm.revert

/-- A run of operations, in order. -/
def run (sm : StateManager) (ops : List StateOp) : StateManager := ops.foldl apply sm

@[simp] theorem run_nil (sm : StateManager) : sm.run [] = sm := rfl

@[simp] theorem run_cons (sm : StateManager) (op : StateOp) (ops : List StateOp) :
    sm.run (op :: ops) = (sm.apply op).run ops := rfl

theorem putContractStorage_of_length (sm : StateManager) (a : Address) {k v : Bytes}
    (hk : k.length = 32) (hv : v.length ≤ 32) :
    sm.putContractStorage a k v = .ok (sm.apply (.putContractStorage a k v)) := by
  simp [putContractStorage, hk, hv, apply]

/-- `putContractStorage` resolves exactly on a 32-byte key and a value of at most 32 bytes, and
then stores the value unpadded. -/
theorem putContractStorage_eq_ok {sm sm' : StateManager} {a : Address} {k v : Bytes} :
    sm.putContractStorage a k v = .ok sm' ↔
      k.length = 32 ∧ v.length ≤ 32 ∧ sm' = sm.modifyContractStorage a k (unpad v) := by
  unfold putContractStorage
  split_ifs <;> simp_all [eq_comm]

/-! ### Storage writes -/

theorem putNode_copy_false (sm : StateManager) (k v : Bytes) :
    sm.putNode (.copy false) k v = { sm with leveldb := sm.leveldb.put k v } := by
  simp only [putNode]
  exact congrArg (fun l => { sm with leveldb := l }) (GanacheTrie.put_copy_false sm.trie sm.leveldb k v)

theorem putStorageNodes_eq (nodes : List (Bytes × Bytes)) :
    ∀ sm : StateManager, sm.putStorageNodes nodes = { sm with leveldb := sm.leveldb.putAll nodes } := by
  induction nodes with
  | nil => intro sm; rfl
  | cons node nodes ih =>
    intro sm
    rw [putStorageNodes, List.foldl_cons, ← putStorageNodes, putNode_copy_false, ih]
    rfl

/-- A storage write changes the storage at one slot and stores the storage trie's nodes for it in
the leveldb; nothing else. -/
theorem modifyContractStorage_eq (sm : StateManager) (a : Address) (key value : Bytes) :
    sm.modifyContractStorage a key value =
      { sm with storage := fun b => if b = a then sm.storageWith a key value else sm.storage b,
                leveldb := sm.leveldb.putAll (sm.storageTrieNodes (sm.storageWith a key value) key) } := by
  rw [modifyContractStorage, putStorageNodes_eq]

@[simp] theorem storage_modifyContractStorage (sm : StateManager) (a : Address) (key value : Bytes) :
    (sm.modifyContractStorage a key value).storage =
      fun b => if b = a then sm.storageWith a key value else sm.storage b := by
  rw [modifyContractStorage_eq]

/-- What one operation stores in the leveldb once a checkpoint is open: the nodes of a storage
write, and a node written through a copy made without its checkpoints. -/
def leaksOf (sm : StateManager) : StateOp → List (Bytes × Bytes)
  | .putContractStorage a k v => sm.storageTrieNodes (sm.storageWith a k (unpad v)) k
  | .putNode (.copy false) k v => [(k, v)]
  | _ => []

/-- What a run stores in the leveldb, in order. -/
def leaks : StateManager → List StateOp → List (Bytes × Bytes)
  | _, [] => []
  | sm, op :: ops => sm.leaksOf op ++ (sm.apply op).leaks ops

/-- No operation changes the storage trie library. -/
theorem storageTrieNodes_run (ops : List StateOp) :
    ∀ sm : StateManager, (sm.run ops).storageTrieNodes = sm.storageTrieNodes := by
  induction ops with
  | nil => intro sm; rfl
  | cons op ops ih =>
    intro sm
    rw [run_cons, ih]
    cases op with
    | putContractStorage a k v => simp only [apply, modifyContractStorage_eq]
    | putNode route k v => cases route <;> rfl
    | commit => simp only [apply, commit]; split <;> rfl
    | revert => simp only [apply, revert]; split <;> rfl
    | _ => rfl

/-! ### The access frames under a run -/

theorem warm_iff (sm : StateManager) (x : Access) :
    sm.Warm x ↔ sm.accessed.Has x ∨ ∃ s ∈ sm.checkpoints, s.accessed.Has x := by
  simp [Warm, liveFrames]

theorem isWarmedAddress_iff (sm : StateManager) (a : Address) :
    sm.isWarmedAddress a = true ↔ sm.Warm (.address a) := by
  simp [isWarmedAddress, Warm, AccessSet.Has]

theorem isWarmedStorage_iff (sm : StateManager) (a : Address) (slot : Bytes) :
    sm.isWarmedStorage a slot = true ↔ sm.Warm (.slot a slot) := by
  simp [isWarmedStorage, Warm, AccessSet.Has]

theorem warm_checkpoint (sm : StateManager) (x : Access) : sm.checkpoint.Warm x ↔ sm.Warm x := by
  simp [warm_iff, checkpoint, snapshot]

theorem accessed_checkpoint (sm : StateManager) (x : Access) :
    sm.checkpoint.Accessed x ↔ sm.Accessed x := by
  rw [Accessed, Accessed, warm_checkpoint]
  rfl

/-- One operation adds to the access set what it warms and takes nothing away: `commit` and
`revert` move a frame, they do not drop it. -/
theorem accessed_apply (sm : StateManager) (op : StateOp) (x : Access) :
    (sm.apply op).Accessed x ↔ sm.Accessed x ∨ op.Warms x := by
  cases op with
  | putContractStorage a k v =>
    rw [apply, modifyContractStorage_eq]
    exact iff_of_eq (or_false _).symm
  | addWarmedAddress a =>
    simp only [apply, addWarmedAddress, Accessed, warm_iff, AccessSet.has_addAddress, StateOp.Warms]
    generalize (∃ s ∈ sm.checkpoints, s.accessed.Has x) = E
    tauto
  | addWarmedStorage a slot =>
    simp only [apply, addWarmedStorage, Accessed, warm_iff, AccessSet.has_addSlot, StateOp.Warms]
    generalize (∃ s ∈ sm.checkpoints, s.accessed.Has x) = E
    tauto
  | putNode route k v => cases route <;> exact iff_of_eq (or_false _).symm
  | checkpoint => rw [apply, accessed_checkpoint]; exact iff_of_eq (or_false _).symm
  | commit =>
    simp only [apply, commit]
    split
    · exact iff_of_eq (or_false _).symm
    · next s rest hcp =>
      simp only [Accessed, warm_iff, hcp, List.mem_cons, exists_eq_or_imp, AccessSet.has_merge,
        StateOp.Warms]
      generalize (∃ s ∈ rest, s.accessed.Has x) = E
      tauto
  | revert =>
    simp only [apply, revert]
    split
    · exact iff_of_eq (or_false _).symm
    · next s rest hcp =>
      simp only [Accessed, warm_iff, hcp, List.mem_cons, exists_eq_or_imp, AccessSet.has_merge,
        StateOp.Warms]
      generalize (∃ s ∈ rest, s.accessed.Has x) = E
      tauto
  | _ => exact iff_of_eq (or_false _).symm

/-- A run adds to the access set exactly what its operations warm, in frames it commits or
reverts alike. -/
theorem accessed_run (ops : List StateOp) :
    ∀ (sm : StateManager) (x : Access), (sm.run ops).Accessed x ↔ sm.Accessed x ∨ ∃ op ∈ ops, op.Warms x := by
  induction ops with
  | nil => intro sm x; simp
  | cons op ops ih =>
    intro sm x
    rw [run_cons, ih, accessed_apply]
    simp only [List.mem_cons, exists_eq_or_imp]
    generalize (∃ op ∈ ops, op.Warms x) = E
    tauto

/-! ### The fold -/

theorem has_foldedFrame : ∀ (above : AccessSet) (l : List Snapshot) (x : Access),
    (foldedFrame above l).Has x ↔ above.Has x ∨ ∃ s ∈ l, s.accessed.Has x
  | _, [], _ => by simp [foldedFrame]
  | above, s :: rest, x => by
    rw [foldedFrame, has_foldedFrame, AccessSet.has_merge]
    simp only [List.mem_cons, exists_eq_or_imp]
    generalize (∃ s ∈ rest, s.accessed.Has x) = E
    tauto

theorem has_foldFrames : ∀ (above : AccessSet) (l : List Snapshot) (x : Access),
    (∃ s ∈ foldFrames above l, s.accessed.Has x) ↔
      l ≠ [] ∧ (above.Has x ∨ ∃ s ∈ l, s.accessed.Has x)
  | _, [], _ => by simp [foldFrames]
  | above, s :: rest, x => by
    have hne : (∃ s ∈ rest, s.accessed.Has x) → rest ≠ [] := fun ⟨s, hs, _⟩ h => by simp [h] at hs
    rw [foldFrames]
    simp only [List.mem_cons, exists_eq_or_imp, AccessSet.has_merge, has_foldFrames, ne_eq,
      reduceCtorEq, not_false_eq_true, true_and]
    generalize (∃ s ∈ rest, s.accessed.Has x) = E at hne ⊢
    tauto

/-- The fold merges frames and keeps the saved states. -/
theorem foldFrames_state : ∀ (above : AccessSet) (l : List Snapshot),
    (foldFrames above l).map (fun s => (s.accounts, s.storage)) = l.map (fun s => (s.accounts, s.storage))
  | _, [] => rfl
  | _, s :: rest => by simp [foldFrames, foldFrames_state _ rest]

/-- `generateAccessList` reads everything accessed, reverted frames included. -/
theorem has_foldedAccess (sm : StateManager) (x : Access) : sm.foldedAccess.Has x ↔ sm.Accessed x := by
  rw [foldedAccess, has_foldedFrame, AccessSet.has_merge, Accessed, warm_iff]
  generalize (∃ s ∈ sm.checkpoints, s.accessed.Has x) = E
  tauto

/-- After the fold, reverting the innermost frame leaves warm everything accessed so far. -/
theorem warm_foldAccessFrames_revert {sm : StateManager} (hc : sm.checkpoints ≠ []) (x : Access) :
    sm.foldAccessFrames.revert.Warm x ↔ sm.Accessed x := by
  obtain ⟨s, rest, hcp⟩ := List.exists_cons_of_ne_nil hc
  have hne : (∃ s ∈ rest, s.accessed.Has x) → rest ≠ [] := fun ⟨s, hs, _⟩ h => by simp [h] at hs
  simp only [foldAccessFrames, revert, hcp, foldFrames, warm_iff, AccessSet.has_merge,
    has_foldFrames, Accessed, List.mem_cons, exists_eq_or_imp]
  generalize (∃ s ∈ rest, s.accessed.Has x) = E at hne ⊢
  tauto

theorem accessed_foldAccessFrames_revert {sm : StateManager} (hc : sm.checkpoints ≠ []) (x : Access) :
    sm.foldAccessFrames.revert.Accessed x ↔ sm.Accessed x := by
  obtain ⟨s, rest, hcp⟩ := List.exists_cons_of_ne_nil hc
  have hw := warm_foldAccessFrames_revert hc x
  simp only [foldAccessFrames, revert, hcp, foldFrames] at hw ⊢
  simp only [Accessed, hw, AccessSet.has_merge]
  simp only [Accessed, warm_iff, hcp, List.mem_cons, exists_eq_or_imp]
  generalize (∃ s ∈ rest, s.accessed.Has x) = E
  tauto

/-! ### The saved states under a balanced run -/

/-- What one operation does to the saved states: push, pop, or nothing. -/
theorem checkpoints_apply (sm : StateManager) (op : StateOp) :
    (sm.apply op).checkpoints =
      match op with
      | .checkpoint => sm.snapshot :: sm.checkpoints
      | .commit | .revert => sm.checkpoints.tail
      | _ => sm.checkpoints := by
  cases op with
  | putContractStorage a k v => simp only [apply, modifyContractStorage_eq]
  | putNode route k v => cases route <;> rfl
  | commit => simp only [apply, commit]; split <;> simp_all
  | revert => simp only [apply, revert]; split <;> simp_all
  | _ => rfl

/-- A balanced run closes the `depth` checkpoints open inside it and leaves the rest alone. -/
theorem checkpoints_run (ops : List StateOp) :
    ∀ (sm : StateManager) (depth : Nat), balancedFrom depth ops = true →
      depth ≤ sm.checkpoints.length → (sm.run ops).checkpoints = sm.checkpoints.drop depth := by
  induction ops with
  | nil => intro sm depth h _; simp_all [balancedFrom]
  | cons op ops ih =>
    intro sm depth h hd
    rw [run_cons]
    cases op with
    | checkpoint =>
      rw [ih _ (depth + 1) h (by simp [checkpoints_apply]; omega)]
      simp [checkpoints_apply]
    | commit =>
      simp only [balancedFrom, Bool.and_eq_true, bne_iff_ne] at h
      rw [ih _ (depth - 1) h.2 (by simp [checkpoints_apply]; omega)]
      simp only [checkpoints_apply, List.drop_tail]
      congr 1; omega
    | revert =>
      simp only [balancedFrom, Bool.and_eq_true, bne_iff_ne] at h
      rw [ih _ (depth - 1) h.2 (by simp [checkpoints_apply]; omega)]
      simp only [checkpoints_apply, List.drop_tail]
      congr 1; omega
    | _ =>
      rw [ih (sm.apply _) depth h (by simpa [checkpoints_apply] using hd)]
      simp [checkpoints_apply]

/-! ### The trie under a run -/

/-- Every open checkpoint of the trie was taken at its current root. -/
def RootsAgree (t : GanacheTrie) : Prop := ∀ cp ∈ t.db.checkpoints, cp.root = t.root

@[simp] theorem trie_apply_putContractStorage (sm : StateManager) (a : Address) (k v : Bytes) :
    (sm.apply (.putContractStorage a k v)).trie = sm.trie := by
  simp only [apply, modifyContractStorage_eq]

@[simp] theorem trie_apply_putNode (sm : StateManager) (route : Route) (k v : Bytes) :
    (sm.apply (.putNode route k v)).trie = (sm.putNode route k v).trie := rfl

@[simp] theorem trie_apply_checkpoint (sm : StateManager) :
    (sm.apply .checkpoint).trie = sm.trie.checkpoint := rfl

@[simp] theorem trie_apply_commit (sm : StateManager) :
    (sm.apply .commit).trie = (sm.trie.commit sm.leveldb).1 := by
  simp only [apply, commit]; split <;> rfl

theorem leveldb_apply_commit (sm : StateManager) :
    (sm.apply .commit).leveldb = (sm.trie.commit sm.leveldb).2 := by
  simp only [apply, commit]; split <;> rfl

@[simp] theorem revert_leveldb (sm : StateManager) : sm.revert.leveldb = sm.leveldb := by
  unfold revert; split <;> rfl

@[simp] theorem revert_trie (sm : StateManager) : sm.revert.trie = sm.trie.revert := by
  unfold revert; split <;> rfl

@[simp] theorem trie_apply_revert (sm : StateManager) :
    (sm.apply .revert).trie = sm.trie.revert := revert_trie sm

/-- A node write keeps the root, the depth, and every checkpoint's root and all but the
innermost checkpoint. -/
theorem putNode_trie (sm : StateManager) (route : Route) (k v : Bytes) :
    (sm.putNode route k v).trie.root = sm.trie.root ∧
    (sm.putNode route k v).trie.db.checkpoints.tail = sm.trie.db.checkpoints.tail ∧
    (sm.putNode route k v).trie.db.checkpoints.length = sm.trie.db.checkpoints.length ∧
    ((sm.putNode route k v).trie.db.checkpoints.map (·.root)) =
      sm.trie.db.checkpoints.map (·.root) := by
  have hput : ∀ db : CheckpointDB, ∀ l : KV, (db.put l k v).1.checkpoints.map (·.root) =
      db.checkpoints.map (·.root) := by
    intro db l; unfold CheckpointDB.put; split <;> simp_all
  cases route with
  | stateTrie =>
    exact ⟨rfl, CheckpointDB.tail_put _ _ _ _, CheckpointDB.length_put _ _ _ _, hput _ _⟩
  | copy b =>
    simp only [putNode]
    split
    · next h =>
      have hc : (sm.trie.copy b).db = sm.trie.db := by
        cases b
        · simp [GanacheTrie.copy_false_checkpoints, CheckpointDB.isCheckpoint] at h
        · exact congrArg CheckpointDB.mk (GanacheTrie.copy_true_checkpoints _)
      rw [hc]
      exact ⟨rfl, CheckpointDB.tail_put _ _ _ _, CheckpointDB.length_put _ _ _ _, hput _ _⟩
    · exact ⟨rfl, rfl, rfl, rfl⟩

/-- Every operation keeps the trie's root, and with it the roots of the open checkpoints. -/
theorem rootsAgree_apply {sm : StateManager} (h : RootsAgree sm.trie) (op : StateOp) :
    RootsAgree (sm.apply op).trie ∧ (sm.apply op).trie.root = sm.trie.root := by
  cases op with
  | putContractStorage a k v => rw [trie_apply_putContractStorage]; exact ⟨h, rfl⟩
  | putNode route k v =>
    obtain ⟨hr, -, -, hm⟩ := putNode_trie sm route k v
    refine ⟨fun cp hcp => ?_, hr⟩
    have : cp.root ∈ sm.trie.db.checkpoints.map (·.root) := by
      rw [← hm]; exact List.mem_map_of_mem _ hcp
    obtain ⟨cp', hcp', he⟩ := List.mem_map.mp this
    rw [trie_apply_putNode, hr, ← he]; exact h cp' hcp'
  | checkpoint =>
    refine ⟨fun cp hcp => ?_, rfl⟩
    rcases List.mem_cons.mp hcp with rfl | hcp
    · rfl
    · exact h cp hcp
  | commit =>
    rw [trie_apply_commit]
    refine ⟨fun cp hcp => ?_, rfl⟩
    simp only [GanacheTrie.commit, CheckpointDB.commit] at hcp ⊢
    split at hcp
    · exact h cp hcp
    · simp at hcp
    · next top next rest heq =>
      rcases List.mem_cons.mp hcp with rfl | hcp
      · exact h next (by rw [heq]; simp)
      · exact h cp (by rw [heq]; simp [hcp])
  | revert =>
    have hroot : sm.trie.revert.root = sm.trie.root := by
      simp only [GanacheTrie.revert, CheckpointDB.revert]
      split
      · rfl
      · next top rest heq => exact h top (by simp [heq])
    refine ⟨fun cp hcp => ?_, by rw [trie_apply_revert, hroot]⟩
    rw [trie_apply_revert, hroot]
    exact h cp (List.mem_of_mem_tail (by simpa using hcp))
  | _ => exact ⟨h, rfl⟩

theorem rootsAgree_run (ops : List StateOp) :
    ∀ sm : StateManager, RootsAgree sm.trie →
      RootsAgree (sm.run ops).trie ∧ (sm.run ops).trie.root = sm.trie.root := by
  induction ops with
  | nil => intro sm h; exact ⟨h, rfl⟩
  | cons op ops ih =>
    intro sm h
    obtain ⟨h1, hr1⟩ := rootsAgree_apply h op
    obtain ⟨h2, hr2⟩ := ih _ h1
    exact ⟨h2, hr2.trans hr1⟩

/-- A balanced run inside an open checkpoint closes the `depth` checkpoints it opened and leaves
every checkpoint outside the innermost remaining one as it was. -/
theorem trie_run (ops : List StateOp) :
    ∀ (sm : StateManager) (depth : Nat), balancedFrom depth ops = true →
      depth < sm.trie.db.checkpoints.length →
      (sm.run ops).trie.db.checkpoints.tail = sm.trie.db.checkpoints.drop (depth + 1) ∧
      (sm.run ops).trie.db.checkpoints.length + depth = sm.trie.db.checkpoints.length := by
  induction ops with
  | nil =>
    intro sm depth h _
    simp only [balancedFrom, beq_iff_eq] at h
    subst h; simp [List.drop_one]
  | cons op ops ih =>
    intro sm depth h hd
    rw [run_cons]
    cases op with
    | putContractStorage a k v =>
      have := ih (sm.apply (.putContractStorage a k v)) depth h (by rw [trie_apply_putContractStorage]; exact hd)
      rwa [trie_apply_putContractStorage] at this
    | checkpoint =>
      have := ih (sm.apply .checkpoint) (depth + 1) h (by simp; omega)
      simp only [trie_apply_checkpoint, GanacheTrie.checkpoints_checkpoint, List.drop_succ_cons,
        List.length_cons] at this
      exact ⟨this.1, by omega⟩
    | commit =>
      simp only [balancedFrom, Bool.and_eq_true, bne_iff_ne] at h
      obtain ⟨d, rfl⟩ : ∃ d, depth = d + 1 := ⟨depth - 1, by omega⟩
      have hl := @CheckpointDB.length_commit sm.trie.db (by omega) sm.leveldb
      have ht := @CheckpointDB.tail_commit sm.trie.db (by omega) sm.leveldb
      have := ih (sm.apply .commit) d h.2 (by simp [GanacheTrie.commit]; omega)
      simp only [trie_apply_commit, GanacheTrie.commit] at this
      refine ⟨?_, by omega⟩
      rw [this.1, ← List.drop_tail, ht, List.drop_tail, List.drop_tail]
    | revert =>
      simp only [balancedFrom, Bool.and_eq_true, bne_iff_ne] at h
      obtain ⟨d, rfl⟩ : ∃ d, depth = d + 1 := ⟨depth - 1, by omega⟩
      have := ih (sm.apply .revert) d h.2 (by simp; omega)
      simp only [trie_apply_revert, GanacheTrie.checkpoints_revert, List.length_tail] at this
      exact ⟨by rw [this.1, List.drop_tail], by omega⟩
    | putNode route k v =>
      obtain ⟨-, ht, hl, -⟩ := putNode_trie sm route k v
      have := ih (sm.apply (.putNode route k v)) depth h (by rw [trie_apply_putNode]; omega)
      rw [trie_apply_putNode, hl, ← List.drop_tail, ht, List.drop_tail] at this
      exact this
    | _ => exact ih _ depth h hd

/-! ### The leveldb under a run -/

/-- A node write while a checkpoint is open, through the state trie or a copy that kept the
checkpoints, lands in a scratch map. -/
theorem putNode_leveldb {sm : StateManager} (h : sm.trie.db.checkpoints ≠ []) {route : Route}
    (hr : route ≠ .copy false) (k v : Bytes) : (sm.putNode route k v).leveldb = sm.leveldb := by
  have hc : sm.trie.db.isCheckpoint = true := by simpa [CheckpointDB.isCheckpoint] using h
  cases route with
  | stateTrie => exact CheckpointDB.put_leveldb_of_isCheckpoint hc _ _ _
  | copy b =>
    cases b
    · exact absurd rfl hr
    · have : (sm.trie.copy true).db = sm.trie.db :=
        congrArg CheckpointDB.mk (GanacheTrie.copy_true_checkpoints _)
      show ((sm.trie.copy true).db.put _ _ _).2 = _
      rw [this]; exact CheckpointDB.put_leveldb_of_isCheckpoint hc _ _ _

/-- A balanced run inside an open checkpoint leaves in the leveldb exactly the nodes it stores
through tries copied without their checkpoints, in order. -/
theorem leveldb_run (ops : List StateOp) :
    ∀ (sm : StateManager) (depth : Nat), balancedFrom depth ops = true →
      depth < sm.trie.db.checkpoints.length →
      (sm.run ops).leveldb = sm.leveldb.putAll (sm.leaks ops) := by
  induction ops with
  | nil => intro sm _ _ _; rfl
  | cons op ops ih =>
    intro sm depth h hd
    rw [run_cons, leaks, KV.putAll_append]
    cases op with
    | putContractStorage a k v =>
      rw [ih _ depth h (by rw [trie_apply_putContractStorage]; exact hd)]
      simp only [apply, modifyContractStorage_eq, leaksOf]
    | checkpoint => exact ih _ (depth + 1) h (by simp; omega)
    | commit =>
      simp only [balancedFrom, Bool.and_eq_true, bne_iff_ne] at h
      have hl := @CheckpointDB.length_commit sm.trie.db (by omega) sm.leveldb
      rw [ih _ (depth - 1) h.2 (by simp [GanacheTrie.commit]; omega), leveldb_apply_commit]
      exact congrArg (KV.putAll · _) (CheckpointDB.commit_leveldb (by omega) _)
    | revert =>
      simp only [balancedFrom, Bool.and_eq_true, bne_iff_ne] at h
      rw [ih _ (depth - 1) h.2 (by simp; omega)]
      exact congrArg (KV.putAll · _) (revert_leveldb sm)
    | putNode route k v =>
      obtain ⟨-, -, hl, -⟩ := putNode_trie sm route k v
      rw [ih _ depth h (by rw [trie_apply_putNode, hl]; exact hd)]
      have hne : sm.trie.db.checkpoints ≠ [] := List.ne_nil_of_length_pos (by omega)
      rcases route with _ | ⟨_ | _⟩
      · exact congrArg (KV.putAll · _) (@putNode_leveldb sm hne .stateTrie nofun k v)
      · exact congrArg (KV.putAll · _) (GanacheTrie.put_copy_false sm.trie sm.leveldb k v)
      · exact congrArg (KV.putAll · _) (@putNode_leveldb sm hne (.copy true) nofun k v)
    | _ => exact ih _ depth h hd

/-! ### One iteration: `checkpoint`, a run, the fold, `revert` -/

/-- `sm'` holds the state `sm` holds, but for the access frames and the leveldb: the same
accounts and storage, the same saved accounts and storage, the same trie and storage tries. -/
structure SameState (sm sm' : StateManager) : Prop where
  accounts : sm'.accounts = sm.accounts
  storage : sm'.storage = sm.storage
  checkpoints : sm'.checkpoints.map (fun s => (s.accounts, s.storage)) =
    sm.checkpoints.map (fun s => (s.accounts, s.storage))
  trie : sm'.trie = sm.trie
  storageTrieNodes : sm'.storageTrieNodes = sm.storageTrieNodes

theorem SameState.refl (sm : StateManager) : SameState sm sm := ⟨rfl, rfl, rfl, rfl, rfl⟩

theorem SameState.trans {s t u : StateManager} (h₁ : SameState s t) (h₂ : SameState t u) :
    SameState s u :=
  ⟨h₂.accounts.trans h₁.accounts, h₂.storage.trans h₁.storage,
    h₂.checkpoints.trans h₁.checkpoints, h₂.trie.trans h₁.trie,
    h₂.storageTrieNodes.trans h₁.storageTrieNodes⟩

theorem SameState.checkpoint {sm sm' : StateManager} (h : SameState sm sm') :
    SameState sm.checkpoint sm'.checkpoint :=
  ⟨h.accounts, h.storage, by simp [StateManager.checkpoint, snapshot, h.accounts, h.storage,
    h.checkpoints], by simp [StateManager.checkpoint, h.trie], h.storageTrieNodes⟩

theorem rootsAgree_checkpoint {t : GanacheTrie} (h : RootsAgree t) : RootsAgree t.checkpoint := by
  intro cp hcp
  rcases List.mem_cons.mp hcp with rfl | hcp
  · rfl
  · exact h cp hcp

/-- A balanced run from a checkpoint leaves that checkpoint open. -/
theorem checkpoints_checkpoint_run (sm : StateManager) {ops : List StateOp}
    (hb : balanced ops = true) : (sm.checkpoint.run ops).checkpoints = sm.snapshot :: sm.checkpoints :=
  checkpoints_run ops sm.checkpoint 0 hb (Nat.zero_le _)

/-- A balanced run between `checkpoint` and `revert`, with the frames folded in between, gives
back the state it started from, but for the access frames and the leveldb. -/
theorem sameState_iteration (sm : StateManager) (ops : List StateOp) (hb : balanced ops = true)
    (hr : RootsAgree sm.trie) : SameState sm (sm.checkpoint.run ops).foldAccessFrames.revert := by
  have hcp := checkpoints_checkpoint_run sm hb
  obtain ⟨ht, hl⟩ := trie_run ops sm.checkpoint 0 hb (by simp [StateManager.checkpoint])
  obtain ⟨hra, hroot⟩ := rootsAgree_run ops sm.checkpoint (rootsAgree_checkpoint hr)
  have hnodes := storageTrieNodes_run ops sm.checkpoint
  generalize sm.checkpoint.run ops = s1 at hcp ht hl hra hroot hnodes
  obtain ⟨top, htop⟩ : ∃ top, s1.trie.db.checkpoints = top :: sm.trie.db.checkpoints := by
    cases hc : s1.trie.db.checkpoints with
    | nil => simp [hc, StateManager.checkpoint] at hl
    | cons top rest => exact ⟨top, by simpa [hc, StateManager.checkpoint] using ht⟩
  have htrie : s1.trie.revert = sm.trie := by
    have : top.root = sm.trie.root := (hra top (by simp [htop])).trans hroot
    simp [GanacheTrie.revert, CheckpointDB.revert, htop, this]
  simp only [foldAccessFrames, revert, hcp, foldFrames]
  exact ⟨rfl, rfl, foldFrames_state _ _, htrie, hnodes⟩

end StateManager

end Ganache
