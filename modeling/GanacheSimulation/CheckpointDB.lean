import GanacheSimulation.Data

/-! # The checkpointed trie database and `GanacheTrie.copy`

The state trie keeps its nodes in the trie library's `CheckpointDB`: a stack of checkpoints over a
leveldb. A `put` lands in the innermost checkpoint's scratch map when there is one and in the
leveldb otherwise; `commit` folds the innermost scratch into the next one, or flushes it to the
leveldb when it was the last; `revert` drops it and gives back the root it was taken at.

`GanacheTrie.copy(includeCheckpoints)` (trie.ts) makes a trie over the same leveldb at the same
root, keeping the checkpoints only when asked to and only during a checkpoint. The leveldb is
shared by every copy, so it is a separate component of the state and every operation threads it.

The lemmas say where a write can land: never in the leveldb while a checkpoint is open, never
through `commit` unless the last checkpoint closes, never through `revert`, and always in the
leveldb through a copy made with `includeCheckpoints = false`. -/

namespace Ganache

/-- A key-value store: the leveldb, or the scratch of one checkpoint. -/
abbrev KV := Bytes → Option Bytes

/-- The store with `key` set to `value`. -/
def KV.put (m : KV) (key value : Bytes) : KV := fun k => if k = key then some value else m k

/-- `m` read first, `base` under it: a scratch map laid over the store below it. -/
def KV.over (m base : KV) : KV := fun k => (m k).orElse fun _ => base k

/-- The store with each write of a list made in turn. -/
def KV.putAll (m : KV) (writes : List (Bytes × Bytes)) : KV :=
  writes.foldl (fun m w => m.put w.1 w.2) m

@[simp] theorem KV.putAll_nil (m : KV) : m.putAll [] = m := rfl

@[simp] theorem KV.putAll_cons (m : KV) (w : Bytes × Bytes) (writes : List (Bytes × Bytes)) :
    m.putAll (w :: writes) = (m.put w.1 w.2).putAll writes := rfl

theorem KV.putAll_append (m : KV) (writes writes' : List (Bytes × Bytes)) :
    m.putAll (writes ++ writes') = (m.putAll writes).putAll writes' := List.foldl_append _ _ _ _

@[simp] theorem KV.put_apply (m : KV) (key value k : Bytes) :
    m.put key value k = if k = key then some value else m k := rfl

/-- A key that holds a value keeps one through any writes. -/
theorem KV.putAll_ne_none_of_ne_none {k : Bytes} :
    ∀ {writes : List (Bytes × Bytes)} {m : KV}, m k ≠ none → m.putAll writes k ≠ none
  | [], _, h => h
  | w :: _, m, h => KV.putAll_ne_none_of_ne_none (m := m.put w.1 w.2) (by
    rw [KV.put_apply]; split <;> simp [h])

/-- Every key written holds a value afterwards. -/
theorem KV.putAll_ne_none : ∀ {writes : List (Bytes × Bytes)} {w : Bytes × Bytes}, w ∈ writes →
    ∀ m : KV, m.putAll writes w.1 ≠ none
  | _ :: _, _, hw, m => by
    rcases List.mem_cons.mp hw with rfl | hw
    · exact KV.putAll_ne_none_of_ne_none (m := m.put _ _) (by simp)
    · exact KV.putAll_ne_none hw _

@[simp] theorem KV.over_apply (m base : KV) (k : Bytes) :
    m.over base k = (m k).orElse fun _ => base k := rfl

/-- A checkpoint: the scratch it collects writes in and the trie root it was taken at. -/
structure Checkpoint where
  keyValueMap : KV
  root : Bytes

/-- The trie library's `CheckpointDB`: its checkpoints, innermost first. The leveldb it wraps is
passed beside it. -/
structure CheckpointDB where
  checkpoints : List Checkpoint

namespace CheckpointDB

/-- `isCheckpoint`. -/
def isCheckpoint (db : CheckpointDB) : Bool := !db.checkpoints.isEmpty

/-- `db.put(key, val)`: into the innermost scratch, or straight into the leveldb. -/
def put (db : CheckpointDB) (leveldb : KV) (key value : Bytes) : CheckpointDB × KV :=
  match db.checkpoints with
  | [] => (db, leveldb.put key value)
  | cp :: rest => (⟨{ cp with keyValueMap := cp.keyValueMap.put key value } :: rest⟩, leveldb)

/-- `db.get(key)`: the innermost scratch that holds the key, else the leveldb. -/
def get (db : CheckpointDB) (leveldb : KV) (key : Bytes) : Option Bytes :=
  (db.checkpoints.foldr (fun cp below => cp.keyValueMap.over below) leveldb) key

/-- `db.checkpoint(root)`: open an empty scratch. -/
def checkpoint (db : CheckpointDB) (root : Bytes) : CheckpointDB :=
  ⟨⟨fun _ => none, root⟩ :: db.checkpoints⟩

/-- `db.commit()`: fold the innermost scratch into the next, or flush it when it was the last. -/
def commit (db : CheckpointDB) (leveldb : KV) : CheckpointDB × KV :=
  match db.checkpoints with
  | [] => (db, leveldb)
  | [cp] => (⟨[]⟩, cp.keyValueMap.over leveldb)
  | cp :: next :: rest =>
    (⟨{ next with keyValueMap := cp.keyValueMap.over next.keyValueMap } :: rest⟩, leveldb)

/-- `db.revert()`: drop the innermost scratch; the root it was taken at, if there was one. -/
def revert (db : CheckpointDB) : CheckpointDB × Option Bytes :=
  match db.checkpoints with
  | [] => (db, none)
  | cp :: rest => (⟨rest⟩, some cp.root)

theorem put_leveldb_of_isCheckpoint {db : CheckpointDB} (h : db.isCheckpoint = true)
    (leveldb : KV) (key value : Bytes) : (db.put leveldb key value).2 = leveldb := by
  unfold put
  split
  · simp_all [isCheckpoint]
  · rfl

theorem put_leveldb_of_not_isCheckpoint {db : CheckpointDB} (h : db.isCheckpoint = false)
    (leveldb : KV) (key value : Bytes) : (db.put leveldb key value).2 = leveldb.put key value := by
  unfold put
  split
  · rfl
  · simp_all [isCheckpoint]

theorem length_put (db : CheckpointDB) (leveldb : KV) (key value : Bytes) :
    (db.put leveldb key value).1.checkpoints.length = db.checkpoints.length := by
  unfold put; split <;> simp_all

/-- A write below the innermost checkpoint leaves the outer checkpoints as they were. -/
theorem tail_put (db : CheckpointDB) (leveldb : KV) (key value : Bytes) :
    (db.put leveldb key value).1.checkpoints.tail = db.checkpoints.tail := by
  unfold put; split <;> simp_all

/-- `commit` touches the leveldb only when it closes the last checkpoint. -/
theorem commit_leveldb {db : CheckpointDB} (h : 2 ≤ db.checkpoints.length) (leveldb : KV) :
    (db.commit leveldb).2 = leveldb := by
  unfold commit
  split
  · rfl
  · simp_all
  · rfl

theorem length_commit {db : CheckpointDB} (h : 1 ≤ db.checkpoints.length) (leveldb : KV) :
    (db.commit leveldb).1.checkpoints.length + 1 = db.checkpoints.length := by
  unfold commit; split <;> simp_all

theorem tail_commit {db : CheckpointDB} (h : 2 ≤ db.checkpoints.length) (leveldb : KV) :
    (db.commit leveldb).1.checkpoints.tail = db.checkpoints.tail.tail := by
  unfold commit; split <;> simp_all

@[simp] theorem checkpoints_checkpoint (db : CheckpointDB) (root : Bytes) :
    (db.checkpoint root).checkpoints = ⟨fun _ => none, root⟩ :: db.checkpoints := rfl

@[simp] theorem checkpoints_revert (db : CheckpointDB) :
    db.revert.1.checkpoints = db.checkpoints.tail := by
  unfold revert; split <;> simp_all

end CheckpointDB

/-! ### `GanacheTrie` (trie.ts) -/

/-- A `GanacheTrie`: its root and its checkpointed database. -/
structure GanacheTrie where
  root : Bytes
  db : CheckpointDB

namespace GanacheTrie

/-- `isCheckpoint`. -/
def isCheckpoint (t : GanacheTrie) : Bool := t.db.isCheckpoint

/-- `setContext(stateRoot, address, blockNumber)`: only the root is set. -/
def setContext (t : GanacheTrie) (stateRoot : Bytes) (_address : Option Bytes)
    (_blockNumber : Nat) : GanacheTrie :=
  { t with root := stateRoot }

/-- `_copy(leveldb, includeCheckpoints)`: a trie over the leveldb at this root, with this trie's
checkpoints only when `includeCheckpoints` and during a checkpoint. -/
def _copy (t : GanacheTrie) (includeCheckpoints : Bool) : GanacheTrie :=
  ⟨t.root, ⟨if includeCheckpoints && t.isCheckpoint then t.db.checkpoints else []⟩⟩

/-- `copy(includeCheckpoints)`: `_copy` over the leveldb of a copy of this database, which is the
same leveldb. -/
def copy (t : GanacheTrie) (includeCheckpoints : Bool) : GanacheTrie :=
  t._copy includeCheckpoints

/-- `trie.checkpoint()`. -/
def checkpoint (t : GanacheTrie) : GanacheTrie := { t with db := t.db.checkpoint t.root }

/-- `trie.commit()`. -/
def commit (t : GanacheTrie) (leveldb : KV) : GanacheTrie × KV :=
  let r := t.db.commit leveldb
  ({ t with db := r.1 }, r.2)

/-- `trie.revert()`: the root goes back to the one the checkpoint was taken at. -/
def revert (t : GanacheTrie) : GanacheTrie :=
  let r := t.db.revert
  ⟨r.2.getD t.root, r.1⟩

@[simp] theorem root_copy (t : GanacheTrie) (b : Bool) : (t.copy b).root = t.root := rfl

/-- A copy made without its checkpoints has none, whatever the trie it was made from. -/
theorem copy_false_checkpoints (t : GanacheTrie) : (t.copy false).db.checkpoints = [] := rfl

/-- A copy made with its checkpoints has exactly the checkpoints of the trie it was made from. -/
theorem copy_true_checkpoints (t : GanacheTrie) : (t.copy true).db.checkpoints = t.db.checkpoints := by
  simp only [copy, _copy, isCheckpoint, CheckpointDB.isCheckpoint, Bool.true_and]
  split
  · rfl
  · simp_all

/-- Every write through a copy made without its checkpoints reaches the leveldb. -/
theorem put_copy_false (t : GanacheTrie) (leveldb : KV) (key value : Bytes) :
    ((t.copy false).db.put leveldb key value).2 = leveldb.put key value :=
  CheckpointDB.put_leveldb_of_not_isCheckpoint
    (show (t.copy false).db.isCheckpoint = false from rfl) leveldb key value

@[simp] theorem checkpoints_checkpoint (t : GanacheTrie) :
    t.checkpoint.db.checkpoints = ⟨fun _ => none, t.root⟩ :: t.db.checkpoints := rfl

@[simp] theorem checkpoints_revert (t : GanacheTrie) :
    t.revert.db.checkpoints = t.db.checkpoints.tail := by
  simp [revert]

/-- `revert` after `checkpoint` gives back the trie as it was. -/
@[simp] theorem revert_checkpoint (t : GanacheTrie) : t.checkpoint.revert = t := by
  simp [revert, checkpoint, CheckpointDB.revert, CheckpointDB.checkpoint]

end GanacheTrie

end Ganache
