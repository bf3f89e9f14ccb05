import GanacheSimulation.Overrides
import Mathlib.Data.Set.Function

/-! # What a resolved override does

`#applySimulationOverrides` resolves when every key converts and none carries both `state` and
`stateDiff` (`applyOverrides_run`). This module says what it then leaves at each address a key
names (`OverrideEffect`): the nonce and the balance given, an empty string being zero; the hash
of the code given; a `stateDiff` written over the storage; a `state` with at least one slot in
place of the storage, every other slot reading as empty. An address no key names keeps its
account and its storage. When the keys name distinct addresses, each address ends as its own key
left it, whatever the order of the keys (`applySimulationOverrides_effect`).

None of this depends on the hash. The code store does: each code is stored in the state trie's
database under its hash, in the scratch of the checkpoint `initialize` opened (`CodeHeld`), and
two codes of the map stay apart when the hash tells them apart (`Set.InjOn`). A `state` map with
no slot is the case the code gets wrong (`emptyStateOverride_keeps_storage`). -/

namespace Ganache

/-! ### Writing the slots of a map -/

namespace StateManager

/-- The converted slots `writes` written at `a`, in order, each value unpadded. -/
def writeStorage (sm : StateManager) (a : Address) (writes : List (Bytes × Bytes)) :
    StateManager :=
  writes.foldl (fun sm w => sm.modifyContractStorage a w.1 (unpad w.2)) sm

@[simp] theorem writeStorage_nil (sm : StateManager) (a : Address) : sm.writeStorage a [] = sm :=
  rfl

@[simp] theorem writeStorage_cons (sm : StateManager) (a : Address) (w : Bytes × Bytes)
    (writes : List (Bytes × Bytes)) :
    sm.writeStorage a (w :: writes) =
      (sm.modifyContractStorage a w.1 (unpad w.2)).writeStorage a writes := rfl

/-- Writing slots changes the storage and the leveldb, and nothing else. -/
theorem writeStorage_eq (a : Address) :
    ∀ (sm : StateManager) (writes : List (Bytes × Bytes)),
      sm.writeStorage a writes = { sm with storage := (sm.writeStorage a writes).storage,
                                           leveldb := (sm.writeStorage a writes).leveldb }
  | _, [] => rfl
  | sm, w :: writes => by
    rw [writeStorage_cons, writeStorage_eq a _ writes, modifyContractStorage_eq]

@[simp] theorem accounts_writeStorage (sm : StateManager) (a : Address)
    (writes : List (Bytes × Bytes)) : (sm.writeStorage a writes).accounts = sm.accounts := by
  rw [writeStorage_eq]

@[simp] theorem trie_writeStorage (sm : StateManager) (a : Address)
    (writes : List (Bytes × Bytes)) : (sm.writeStorage a writes).trie = sm.trie := by
  rw [writeStorage_eq]

theorem storage_writeStorage_of_ne {a b : Address} (hb : b ≠ a) :
    ∀ (sm : StateManager) (writes : List (Bytes × Bytes)),
      (sm.writeStorage a writes).storage b = sm.storage b
  | _, [] => rfl
  | sm, w :: writes => by
    rw [writeStorage_cons, storage_writeStorage_of_ne hb _ writes]
    simp [hb]

theorem storage_writeStorage_of_not_mem {a : Address} {k : Bytes} :
    ∀ (sm : StateManager) (writes : List (Bytes × Bytes)), k ∉ writes.map Prod.fst →
      (sm.writeStorage a writes).storage a k = sm.storage a k
  | _, [], _ => rfl
  | sm, w :: writes, hk => by
    simp only [List.map_cons, List.mem_cons, not_or] at hk
    rw [writeStorage_cons, storage_writeStorage_of_not_mem _ writes hk.2]
    simp [storageWith, hk.1]

theorem storage_writeStorage_of_mem {a : Address} :
    ∀ (sm : StateManager) (writes : List (Bytes × Bytes)), (writes.map Prod.fst).Nodup →
      ∀ w ∈ writes, (sm.writeStorage a writes).storage a w.1 = unpad w.2
  | _, [], _, _, hw => absurd hw (List.not_mem_nil _)
  | sm, w' :: writes, hnd, w, hw => by
    rw [List.map_cons, List.nodup_cons] at hnd
    rw [writeStorage_cons]
    rcases List.mem_cons.mp hw with rfl | hw
    · rw [storage_writeStorage_of_not_mem _ writes hnd.1]
      simp [storageWith]
    · exact storage_writeStorage_of_mem _ writes hnd.2 w hw

/-- After writing slots that name distinct keys, each reads its value, unpadded, and every other
key of `a` reads as before. -/
theorem storage_writeStorage_at {a : Address} (sm : StateManager) (writes : List (Bytes × Bytes))
    (hnd : (writes.map Prod.fst).Nodup) :
    (∀ w ∈ writes, (sm.writeStorage a writes).storage a w.1 = unpad w.2) ∧
      ∀ k ∉ writes.map Prod.fst, (sm.writeStorage a writes).storage a k = sm.storage a k :=
  ⟨storage_writeStorage_of_mem sm writes hnd, fun _ hk => storage_writeStorage_of_not_mem sm writes hk⟩

/-! ### The code store -/

/-- The innermost checkpoint's scratch of the trie database maps the hash of `cb` to `cb`: the
code store holds it where no write to the leveldb reaches. -/
def CodeHeld (keccak : Bytes → Bytes) (sm : StateManager) (cb : Bytes) : Prop :=
  ∃ cp rest, sm.trie.db.checkpoints = cp :: rest ∧ cp.keyValueMap (keccak cb) = some cb

/-- A held code is what the code store reads under its hash. -/
theorem getCode_of_codeHeld {keccak : Bytes → Bytes} {sm : StateManager} {cb : Bytes}
    (h : sm.CodeHeld keccak cb) : sm.getCode (keccak cb) = some cb := by
  obtain ⟨cp, rest, hcp, hk⟩ := h
  simp [getCode, CheckpointDB.get, hcp, hk]

theorem CodeHeld.of_trie_eq {keccak : Bytes → Bytes} {sm sm' : StateManager} {cb : Bytes}
    (h : sm.CodeHeld keccak cb) (ht : sm'.trie = sm.trie) : sm'.CodeHeld keccak cb := by
  rw [CodeHeld, ht]; exact h

/-- A node written through the state trie during a checkpoint lands in the innermost scratch. -/
theorem checkpoints_putNode {sm : StateManager} {cp : Checkpoint} {rest : List Checkpoint}
    (hcp : sm.trie.db.checkpoints = cp :: rest) (k v : Bytes) :
    (sm.putNode .stateTrie k v).trie.db.checkpoints =
      { cp with keyValueMap := cp.keyValueMap.put k v } :: rest := by
  simp [putNode, CheckpointDB.put, hcp]

theorem codeHeld_putNode {keccak : Bytes → Bytes} {sm : StateManager}
    (hc : sm.trie.db.checkpoints ≠ []) (cb : Bytes) :
    (sm.putNode .stateTrie (keccak cb) cb).CodeHeld keccak cb := by
  obtain ⟨cp, rest, hcp⟩ := List.exists_cons_of_ne_nil hc
  exact ⟨_, rest, checkpoints_putNode hcp _ _, by simp⟩

/-- A node write keeps a held code unless it stores another value under that code's hash. -/
theorem CodeHeld.putNode {keccak : Bytes → Bytes} {sm : StateManager} {cb : Bytes}
    (h : sm.CodeHeld keccak cb) {k v : Bytes} (hk : k = keccak cb → v = cb) :
    (sm.putNode .stateTrie k v).CodeHeld keccak cb := by
  obtain ⟨cp, rest, hcp, hheld⟩ := h
  refine ⟨_, rest, checkpoints_putNode hcp k v, ?_⟩
  by_cases hkey : keccak cb = k
  · simp [hkey, hk hkey.symm]
  · simp [Ne.symm hkey, hheld, KV.put_apply, hkey]

theorem length_putNode_checkpoints (sm : StateManager) (k v : Bytes) :
    (sm.putNode .stateTrie k v).trie.db.checkpoints.length = sm.trie.db.checkpoints.length :=
  CheckpointDB.length_put _ _ _ _

end StateManager

/-- Every code of `C` that `s` holds, `s'` holds too. -/
def CodeKept (keccak : Bytes → Bytes) (C : Set Bytes) (s s' : StateManager) : Prop :=
  ∀ cb ∈ C, s.CodeHeld keccak cb → s'.CodeHeld keccak cb

theorem CodeKept.trans {keccak : Bytes → Bytes} {C : Set Bytes} {s t u : StateManager}
    (h₁ : CodeKept keccak C s t) (h₂ : CodeKept keccak C t u) : CodeKept keccak C s u :=
  fun cb hC h => h₂ cb hC (h₁ cb hC h)

theorem codeKept_of_trie_eq {keccak : Bytes → Bytes} {C : Set Bytes} {s s' : StateManager}
    (h : s'.trie = s.trie) : CodeKept keccak C s s' :=
  fun _ _ hc => hc.of_trie_eq h

/-- Storing a code of `C` under its hash keeps every code of `C` when the hash tells the codes of
`C` apart. -/
theorem codeKept_putNode {keccak : Bytes → Bytes} {C : Set Bytes} (hinj : Set.InjOn keccak C)
    (s : StateManager) {cb : Bytes} (hcb : cb ∈ C) :
    CodeKept keccak C s (s.putNode .stateTrie (keccak cb) cb) :=
  fun _ hC hheld => hheld.putNode fun hk => hinj hcb hC hk

/-! ### What one key leaves -/

/-- `writes` are the slots of a storage map as its loop validates and converts them: each slot
padded to 32 bytes, each value as given. -/
def SlotWrites (fieldName : String) : List (String × Option String) → List (Bytes × Bytes) → Prop :=
  List.Forall₂ fun p w => validateStorageOverride p.1 p.2 fieldName = .ok () ∧
    Data.bufferOf (.string p.1) (some 32) = .ok w.1 ∧ valueBuffer p.2 = .ok w.2 ∧ w.2.length ≤ 32

theorem slotWrites_of_converts {fieldName : String} :
    ∀ {l : List (String × Option String)}, (∀ p ∈ l, SlotConverts fieldName p) →
      ∃ writes, SlotWrites fieldName l writes
  | [], _ => ⟨[], .nil⟩
  | p :: l, h => by
    obtain ⟨hval, ⟨b, hb⟩, ⟨v, hv, hlen⟩⟩ := h p (List.mem_cons_self _ _)
    obtain ⟨writes, hw⟩ := slotWrites_of_converts fun q hq => h q (List.mem_cons_of_mem _ hq)
    exact ⟨(b, v) :: writes, .cons ⟨hval, hb, hv, hlen⟩ hw⟩

/-- A map's slots convert one way only. -/
theorem SlotWrites.unique {fieldName : String} :
    ∀ {l : List (String × Option String)} {writes writes' : List (Bytes × Bytes)},
      SlotWrites fieldName l writes → SlotWrites fieldName l writes' → writes = writes'
  | [], [], [], _, _ => rfl
  | _ :: _, _ :: _, _ :: _, .cons ⟨_, hb, hv, _⟩ h, .cons ⟨_, hb', hv', _⟩ h' =>
    congrArg₂ List.cons (Prod.ext (Except.ok.inj (hb.symm.trans hb')) (Except.ok.inj (hv.symm.trans hv')))
      (SlotWrites.unique h h')

/-- What the account fields of the override `o` at `A` leave, from `s` to `s'`. -/
structure AccountEffect (keccak : Bytes → Bytes) (o : CallOverride) (A : Address)
    (s s' : StateManager) : Prop where
  nonce : ∀ n, quantityField o.nonce (s.accounts A).nonce = .ok n → (s'.accounts A).nonce = n
  balance : ∀ n, quantityField o.balance (s.accounts A).balance = .ok n →
    (s'.accounts A).balance = n
  codeHash : o.code = none → (s'.accounts A).codeHash = (s.accounts A).codeHash
  codeHash_code : ∀ c cb, o.code = some c → codeBufferOf c = .ok cb →
    (s'.accounts A).codeHash = keccak cb

/-- What the storage fields of the override `o` at `A` leave, from `s` to `s'`, for maps whose
slots name distinct 32-byte slots. A `state` map is taken to have a slot. -/
structure StorageEffect (o : CallOverride) (A : Address) (s s' : StateManager) : Prop where
  state : ∀ m writes, o.state = some m → m.entries ≠ [] → SlotWrites "State" m.entries writes →
    (writes.map Prod.fst).Nodup →
      (∀ w ∈ writes, s'.storage A w.1 = unpad w.2) ∧
      ∀ k ∉ writes.map Prod.fst, s'.storage A k = []
  stateDiff : ∀ m writes, o.stateDiff = some m → SlotWrites "StateDiff" m.entries writes →
    (writes.map Prod.fst).Nodup →
      (∀ w ∈ writes, s'.storage A w.1 = unpad w.2) ∧
      ∀ k ∉ writes.map Prod.fst, s'.storage A k = s.storage A k
  storage : o.state = none → o.stateDiff = none → s'.storage A = s.storage A

/-- What the override `o` at `A` leaves, from `s` to `s'`. -/
structure OverrideEffect (keccak : Bytes → Bytes) (o : CallOverride) (A : Address)
    (s s' : StateManager) extends AccountEffect keccak o A s s', StorageEffect o A s s' : Prop

section Transport

variable {keccak : Bytes → Bytes} {o : CallOverride} {A : Address} {s t u : StateManager}

/-- An account effect depends on `s` only through the account at `A`. -/
theorem AccountEffect.congr_left (h : AccountEffect keccak o A t u)
    (hA : t.accounts A = s.accounts A) : AccountEffect keccak o A s u :=
  ⟨fun n hn => h.nonce n (hA ▸ hn), fun n hn => h.balance n (hA ▸ hn),
    fun hc => hA ▸ h.codeHash hc, h.codeHash_code⟩

/-- Later writes that keep the account at `A` keep an account effect. -/
theorem AccountEffect.mono (h : AccountEffect keccak o A s t) (hA : u.accounts A = t.accounts A) :
    AccountEffect keccak o A s u :=
  ⟨fun n hn => hA ▸ h.nonce n hn, fun n hn => hA ▸ h.balance n hn,
    fun hc => hA ▸ h.codeHash hc, fun c cb hc hcb => hA ▸ h.codeHash_code c cb hc hcb⟩

/-- A storage effect depends on `s` only through the storage at `A`. -/
theorem StorageEffect.congr_left (h : StorageEffect o A t u) (hA : t.storage A = s.storage A) :
    StorageEffect o A s u :=
  ⟨h.state, fun m w hm hw hnd => hA ▸ h.stateDiff m w hm hw hnd,
    fun h₁ h₂ => hA ▸ h.storage h₁ h₂⟩

/-- Later writes that keep the storage at `A` keep a storage effect. -/
theorem StorageEffect.mono (h : StorageEffect o A s t) (hA : u.storage A = t.storage A) :
    StorageEffect o A s u :=
  ⟨fun m w hm hne hw hnd => hA ▸ h.state m w hm hne hw hnd,
    fun m w hm hw hnd => hA ▸ h.stateDiff m w hm hw hnd, fun h₁ h₂ => hA ▸ h.storage h₁ h₂⟩

theorem OverrideEffect.congr_left (h : OverrideEffect keccak o A t u)
    (hacc : t.accounts A = s.accounts A) (hsto : t.storage A = s.storage A) :
    OverrideEffect keccak o A s u :=
  ⟨h.toAccountEffect.congr_left hacc, h.toStorageEffect.congr_left hsto⟩

theorem OverrideEffect.mono (h : OverrideEffect keccak o A s t) (hacc : u.accounts A = t.accounts A)
    (hsto : u.storage A = t.storage A) : OverrideEffect keccak o A s u :=
  ⟨h.toAccountEffect.mono hacc, h.toStorageEffect.mono hsto⟩

end Transport

/-- The codes of one override, as `codeBufferOf` converts them. -/
def CallOverride.codes (o : CallOverride) : Set Bytes :=
  {cb | ∃ c, o.code = some c ∧ codeBufferOf c = .ok cb}

/-- What a key's writes do to the state trie: nothing when it gives no code, and its code stored
under its hash when it gives one. -/
def CodeWritten (keccak : Bytes → Bytes) (o : CallOverride) (s s' : StateManager) : Prop :=
  (o.code = none ∧ s'.trie = s.trie) ∨
    ∃ c cb, o.code = some c ∧ codeBufferOf c = .ok cb ∧
      s'.trie = (s.putNode .stateTrie (keccak cb) cb).trie

/-! ### One key -/

theorem applyStateDiff_run {a : Address} :
    ∀ {l : List (String × Option String)} {writes : List (Bytes × Bytes)},
      SlotWrites "StateDiff" l writes →
        ∀ s, (applyStateDiff a l).run s = .ok () (s.writeStorage a writes)
  | [], [], _, _ => rfl
  | _ :: _, _ :: _, .cons ⟨hval, hb, hv, hlen⟩ h, s => by
    simp [applyStateDiff, run_bind, hval, writeSlot_run_ok hb hv hlen, applyStateDiff_run h]

/-- Once the storage is cleared, the `state` loop writes its slots. -/
theorem applyState_run {a : Address} :
    ∀ {l : List (String × Option String)} {writes : List (Bytes × Bytes)},
      SlotWrites "State" l writes → ∀ s, (applyState a true l).run s = .ok () (s.writeStorage a writes)
  | [], [], _, _ => rfl
  | _ :: _, _ :: _, .cons ⟨hval, hb, hv, hlen⟩ h, s => by
    simp [applyState, run_bind, hval, writeSlot_run_ok hb hv hlen, applyState_run h]

/-- A `state` map with a slot clears the storage, then writes its slots. -/
theorem applyState_false_run {a : Address} {l : List (String × Option String)}
    {writes : List (Bytes × Bytes)} (h : SlotWrites "State" l writes) (hne : l ≠ [])
    (s : StateManager) :
    (applyState a false l).run s = .ok () ((s.clearContractStorage a).writeStorage a writes) :=
  match l, writes, h with
  | [], [], _ => absurd rfl hne
  | _ :: _, _ :: _, .cons ⟨hval, hb, hv, hlen⟩ h => by
    simp [applyState, run_bind, hval, writeSlot_run_ok hb hv hlen, applyState_run h]

/-- Code is stored under its hash, the empty code under `KECCAK256_NULL`, which is its hash. -/
theorem overrideCode_run (keccak : Bytes → Bytes) (account : Account) {c : String} {cb : Bytes}
    (hc : codeBufferOf c = .ok cb) (s : StateManager) :
    (overrideCode keccak account (some c)).run s =
      .ok (keccak cb) (s.putNode .stateTrie (keccak cb) cb) := by
  have hash : (if cb.length > 0 then keccak cb else KECCAK256_NULL keccak) = keccak cb := by
    split
    · rfl
    · next h => rw [List.length_eq_zero.mp (Nat.eq_zero_of_not_pos h)]; rfl
  simp only [overrideCode, run_bind, hc, run_liftExcept_ok, hash, run_modify, run_pure]

/-- An override that gives no account field leaves the account as it was. -/
theorem accountEffect_self (keccak : Bytes → Bytes) {o : CallOverride} (hn : o.nonce = none)
    (hb : o.balance = none) (hc : o.code = none) (A : Address) (s : StateManager) :
    AccountEffect keccak o A s s :=
  ⟨fun _ h => by rw [hn] at h; exact Except.ok.inj h, fun _ h => by rw [hb] at h; exact Except.ok.inj h,
    fun _ => rfl, fun _ _ h => absurd (hc.symm.trans h) nofun⟩

theorem applyAccount_effect (keccak : Bytes → Bytes) {k : String} {o : CallOverride}
    (h : Converts k o) (A : Address) (s : StateManager) :
    ∃ s₁, (applyAccount keccak A o).run s = .ok () s₁ ∧ AccountEffect keccak o A s s₁ ∧
      s₁.storage = s.storage ∧ (∀ b, b ≠ A → s₁.accounts b = s.accounts b) ∧
      CodeWritten keccak o s s₁ := by
  obtain ⟨n, hn⟩ := quantityField_ok h.nonce (s.accounts A).nonce
  obtain ⟨b, hb⟩ := quantityField_ok h.balance (s.accounts A).balance
  have hnonce : ∀ n', quantityField o.nonce (s.accounts A).nonce = .ok n' → n = n' :=
    fun _ h' => Except.ok.inj (hn.symm.trans h')
  have hbalance : ∀ b', quantityField o.balance (s.accounts A).balance = .ok b' → b = b' :=
    fun _ h' => Except.ok.inj (hb.symm.trans h')
  cases hc : o.code with
  | none =>
    refine ⟨s.putAccount A ⟨n, b, (s.accounts A).codeHash⟩, ?_,
      ⟨fun n' h' => by simp [← hnonce n' h', StateManager.putAccount],
        fun b' h' => by simp [← hbalance b' h', StateManager.putAccount],
        fun _ => by simp [StateManager.putAccount], fun _ _ h' => absurd (hc.symm.trans h') nofun⟩,
      rfl, fun a' ha' => by simp [StateManager.putAccount, ha'], .inl ⟨hc, rfl⟩⟩
    simp [applyAccount, overrideCode, run_bind, hc, hn, hb, StateManager.getAccount]
  | some c =>
    obtain ⟨cb, hcb⟩ := h.code c hc
    have hcode : ∀ c' cb', o.code = some c' → codeBufferOf c' = .ok cb' → cb' = cb := by
      intro c' cb' hc' hcb'
      obtain rfl : c = c' := Option.some.inj (hc.symm.trans hc')
      exact Except.ok.inj (hcb'.symm.trans hcb)
    refine ⟨(s.putNode .stateTrie (keccak cb) cb).putAccount A ⟨n, b, keccak cb⟩, ?_,
      ⟨fun n' h' => by simp [← hnonce n' h', StateManager.putAccount],
        fun b' h' => by simp [← hbalance b' h', StateManager.putAccount],
        fun h' => absurd (hc.symm.trans h') nofun,
        fun c' cb' hc' hcb' => by simp [hcode c' cb' hc' hcb', StateManager.putAccount]⟩,
      rfl, fun a' ha' => by simp [StateManager.putAccount, StateManager.putNode, ha'],
      .inr ⟨c, cb, hc, hcb, rfl⟩⟩
    simp [applyAccount, run_bind, hc, overrideCode_run keccak _ hcb, hn, hb, StateManager.getAccount]

theorem applyStorage_effect {k : String} {o : CallOverride} (h : Converts k o)
    (hx : ¬ (o.state.isSome ∧ o.stateDiff.isSome)) (A : Address) (s : StateManager) :
    ∃ s₂, (applyStorage A o).run s = .ok () s₂ ∧ StorageEffect o A s s₂ ∧
      s₂.accounts = s.accounts ∧ s₂.trie = s.trie ∧ ∀ b, b ≠ A → s₂.storage b = s.storage b := by
  obtain ⟨code, nonce, balance, state, stateDiff⟩ := o
  unfold applyStorage
  cases state with
  | none =>
    cases stateDiff with
    | none => exact ⟨s, rfl, ⟨nofun, nofun, fun _ _ => rfl⟩, rfl, rfl, fun _ _ => rfl⟩
    | some m =>
      obtain ⟨writes, hw⟩ := slotWrites_of_converts (h.stateDiff m rfl)
      refine ⟨s.writeStorage A writes, applyStateDiff_run hw s, ⟨nofun, ?_, nofun⟩, by simp, by simp,
        fun b hb => StateManager.storage_writeStorage_of_ne hb _ _⟩
      rintro _ writes' ⟨⟩ hw' hnd
      obtain rfl := hw.unique hw'
      exact StateManager.storage_writeStorage_at _ _ hnd
  | some m =>
    cases stateDiff with
    | some _ => exact absurd ⟨rfl, rfl⟩ hx
    | none =>
      obtain ⟨writes, hw⟩ := slotWrites_of_converts (h.state m rfl)
      by_cases hne : m.entries = []
      · exact ⟨s, by dsimp only; rw [hne]; rfl,
          ⟨fun _ _ hm h' => absurd (Option.some.inj hm ▸ hne) h', nofun, nofun⟩, rfl, rfl, fun _ _ => rfl⟩
      refine ⟨(s.clearContractStorage A).writeStorage A writes, applyState_false_run hw hne s,
        ⟨?_, nofun, nofun⟩, by simp [StateManager.clearContractStorage],
        by simp [StateManager.clearContractStorage], fun b hb => ?_⟩
      · rintro _ writes' ⟨⟩ - hw' hnd
        obtain rfl := hw.unique hw'
        obtain ⟨hmem, hnot⟩ := StateManager.storage_writeStorage_at (s.clearContractStorage A) writes hnd
        exact ⟨hmem, fun k hk => by rw [hnot k hk]; simp [StateManager.clearContractStorage]⟩
      · rw [StateManager.storage_writeStorage_of_ne hb]
        simp [StateManager.clearContractStorage, hb]

/-- One override applied: its effect on its address, every other address kept, and its code
written. -/
theorem applyOverride_effect (keccak : Bytes → Bytes) {k : String} {o : CallOverride} {A : Address}
    (hA : Address.from k = .ok A) (h : Converts k o) (hx : ¬ (o.state.isSome ∧ o.stateDiff.isSome))
    (s : StateManager) :
    ∃ s', (applyOverride keccak k o).run s = .ok () s' ∧ OverrideEffect keccak o A s s' ∧
      (∀ b, b ≠ A → s'.accounts b = s.accounts b ∧ s'.storage b = s.storage b) ∧
      CodeWritten keccak o s s' := by
  obtain ⟨s₁, hs₁, hacc, hsto₁, hoth₁, hcode₁⟩ : ∃ s₁,
      ((if o.nonce.isSome ∨ o.balance.isSome ∨ o.code.isSome then applyAccount keccak A o
        else pure ()) : Overriding Unit).run s = .ok () s₁ ∧ AccountEffect keccak o A s s₁ ∧
      s₁.storage = s.storage ∧ (∀ b, b ≠ A → s₁.accounts b = s.accounts b) ∧
      CodeWritten keccak o s s₁ := by
    split
    · exact applyAccount_effect keccak h A s
    · next hnone =>
      simp only [not_or, Option.not_isSome_iff_eq_none] at hnone
      exact ⟨s, rfl, accountEffect_self keccak hnone.1 hnone.2.1 hnone.2.2 A s, rfl, fun _ _ => rfl,
        .inl ⟨hnone.2.2, rfl⟩⟩
  obtain ⟨s₂, hs₂, hsto, hacc₂, htrie₂, hoth₂⟩ := applyStorage_effect h hx A s₁
  refine ⟨s₂, ?_, ⟨hacc.mono (by rw [hacc₂]), hsto.congr_left (congrFun hsto₁ A)⟩,
    fun b hb => ⟨by rw [hacc₂, hoth₁ b hb], by rw [hoth₂ b hb, hsto₁]⟩, ?_⟩
  · unfold applyOverride
    rw [run_bind_ok (show (liftExcept (Address.from k) : Overriding Address).run s = .ok A s by
      rw [hA]; rfl), run_bind_ok hs₁, hs₂]
  · rcases hcode₁ with ⟨hnone, ht⟩ | ⟨c, cb, hc, hcb, ht⟩
    · exact .inl ⟨hnone, htrie₂.trans ht⟩
    · exact .inr ⟨c, cb, hc, hcb, htrie₂.trans ht⟩

/-- A key's trie writes keep the number of open checkpoints, hold its code when one is open, and
keep every code of a set the hash tells apart. -/
theorem CodeWritten.codes {keccak : Bytes → Bytes} {o : CallOverride} {s s' : StateManager}
    (h : CodeWritten keccak o s s') {C : Set Bytes} (hC : o.codes ⊆ C) (hinj : Set.InjOn keccak C) :
    s'.trie.db.checkpoints.length = s.trie.db.checkpoints.length ∧ CodeKept keccak C s s' ∧
      (s.trie.db.checkpoints ≠ [] → ∀ cb ∈ o.codes, s'.CodeHeld keccak cb) := by
  rcases h with ⟨hnone, ht⟩ | ⟨c, cb, hc, hcb, ht⟩
  · exact ⟨by rw [ht], codeKept_of_trie_eq ht, fun _ _ ⟨c, hc, _⟩ => absurd (hnone ▸ hc) nofun⟩
  · have hmem : cb ∈ o.codes := ⟨c, hc, hcb⟩
    refine ⟨by rw [ht, StateManager.length_putNode_checkpoints],
      (codeKept_putNode hinj s (hC hmem)).trans (codeKept_of_trie_eq ht), fun hne cb' hcb' => ?_⟩
    obtain ⟨c', hc', hcb'⟩ := hcb'
    obtain rfl : c = c' := Option.some.inj (hc.symm.trans hc')
    obtain rfl : cb = cb' := Except.ok.inj (hcb.symm.trans hcb')
    exact (StateManager.codeHeld_putNode hne cb).of_trie_eq ht

/-! ### The whole map -/

/-- The codes an override map gives, as `codeBufferOf` converts them. -/
def overrideCodes (l : List (String × CallOverride)) : Set Bytes := {cb | ∃ e ∈ l, cb ∈ e.2.codes}

/-- The loop over keys that name distinct addresses: each address a key names ends as that key
left it, and every other address as it was; the codes are stored under their hashes. -/
theorem applyOverrides_effect (keccak : Bytes → Bytes) :
    ∀ (l : List (String × CallOverride)), (∀ e ∈ l, Converts e.1 e.2) →
      (∀ e ∈ l, ¬ (e.2.state.isSome ∧ e.2.stateDiff.isSome)) →
      (l.map fun e => Address.from e.1).Nodup → ∀ s, ∃ s', (applyOverrides keccak l).run s = .ok () s' ∧
        (∀ e ∈ l, ∀ A, Address.from e.1 = .ok A → OverrideEffect keccak e.2 A s s') ∧
        (∀ b, (∀ e ∈ l, Address.from e.1 ≠ .ok b) →
          s'.accounts b = s.accounts b ∧ s'.storage b = s.storage b) ∧
        ∀ C, overrideCodes l ⊆ C → Set.InjOn keccak C →
          s'.trie.db.checkpoints.length = s.trie.db.checkpoints.length ∧ CodeKept keccak C s s' ∧
          (s.trie.db.checkpoints ≠ [] → ∀ cb ∈ overrideCodes l, s'.CodeHeld keccak cb)
  | [], _, _, _, s =>
    ⟨s, rfl, nofun, fun _ _ => ⟨rfl, rfl⟩, fun _ _ _ => ⟨rfl, fun _ _ h => h, fun _ _ ⟨_, he, _⟩ =>
      absurd he (List.not_mem_nil _)⟩⟩
  | (k, o) :: rest, h, hx, hnd, s => by
    obtain ⟨A, hA⟩ := (h (k, o) (List.mem_cons_self _ _)).address
    rw [List.map_cons, List.nodup_cons] at hnd
    have hfresh : ∀ e ∈ rest, Address.from e.1 ≠ .ok A := fun e he heq =>
      hnd.1 (by rw [hA, ← heq]; exact List.mem_map_of_mem _ he)
    obtain ⟨s₁, hs₁, heff₁, hoth₁, hcode₁⟩ := applyOverride_effect keccak hA
      (h _ (List.mem_cons_self _ _)) (hx _ (List.mem_cons_self _ _)) s
    obtain ⟨s', hs', heff', hoth', hcode'⟩ := applyOverrides_effect keccak rest
      (fun e he => h e (List.mem_cons_of_mem _ he)) (fun e he => hx e (List.mem_cons_of_mem _ he))
      hnd.2 s₁
    refine ⟨s', by rw [applyOverrides, run_bind_ok hs₁, hs'], fun e he B hB => ?_, fun b hb => ?_,
      fun C hC hinj => ?_⟩
    · rcases List.mem_cons.mp he with rfl | he
      · obtain rfl : B = A := Except.ok.inj (hB.symm.trans hA)
        exact heff₁.mono (hoth' B hfresh).1 (hoth' B hfresh).2
      · have hBA : B ≠ A := fun hBA => hfresh e he (hBA ▸ hB)
        exact (heff' e he B hB).congr_left (hoth₁ B hBA).1 (hoth₁ B hBA).2
    · have hbA : b ≠ A := fun hbA => hb (k, o) (List.mem_cons_self _ _) (hbA ▸ hA)
      obtain ⟨h₁, h₂⟩ := hoth' b fun e he => hb e (List.mem_cons_of_mem _ he)
      exact ⟨h₁.trans (hoth₁ b hbA).1, h₂.trans (hoth₁ b hbA).2⟩
    · obtain ⟨hlen₁, hkept₁, hheld₁⟩ :=
        hcode₁.codes (fun cb hcb => hC ⟨_, List.mem_cons_self _ _, hcb⟩) hinj
      obtain ⟨hlen', hkept', hheld'⟩ :=
        hcode' C (fun cb ⟨e, he, hcb⟩ => hC ⟨e, List.mem_cons_of_mem _ he, hcb⟩) hinj
      refine ⟨hlen'.trans hlen₁, hkept₁.trans hkept', fun hne cb ⟨e, he, hcb⟩ => ?_⟩
      rcases List.mem_cons.mp he with rfl | he
      · exact hkept' cb (hC ⟨_, List.mem_cons_self _ _, hcb⟩) (hheld₁ hne cb hcb)
      · exact hheld' (List.ne_nil_of_length_pos (by rw [hlen₁]; exact List.length_pos.mpr hne)) cb
          ⟨e, he, hcb⟩

/-- Override semantics: the map resolves with each address's effect and every other account kept;
with an open checkpoint and the hash injective on the codes given, the code store holds them. -/
theorem applySimulationOverrides_effect (keccak : Bytes → Bytes) (overrides : CallOverrides)
    (h : ∀ e ∈ overrides.entries, Converts e.1 e.2)
    (hx : ∀ e ∈ overrides.entries, ¬ (e.2.state.isSome ∧ e.2.stateDiff.isSome))
    (hnd : (overrides.entries.map fun e => Address.from e.1).Nodup) (s : StateManager) :
    ∃ s', (applySimulationOverrides keccak overrides).run s = .ok () s' ∧
      (∀ e ∈ overrides.entries, ∀ A, Address.from e.1 = .ok A → OverrideEffect keccak e.2 A s s') ∧
      (∀ b, (∀ e ∈ overrides.entries, Address.from e.1 ≠ .ok b) →
        s'.accounts b = s.accounts b ∧ s'.storage b = s.storage b) ∧
      (s.trie.db.checkpoints ≠ [] → Set.InjOn keccak (overrideCodes overrides.entries) →
        ∀ cb ∈ overrideCodes overrides.entries, s'.getCode (keccak cb) = some cb) :=
  let ⟨s', hs', heff, hoth, hcode⟩ := applyOverrides_effect keccak _ h hx hnd s
  ⟨s', hs', heff, hoth, fun hne hinj cb hcb =>
    StateManager.getCode_of_codeHeld ((hcode _ subset_rfl hinj).2.2 hne cb hcb)⟩

/-- `{code: "0x6001", nonce: "0x05", state: {0x…01: 0x…02}}` at the address `0xa`. -/
def codeNonceStateOverride : CallOverrides :=
  ⟨[("0xa", ⟨some "0x6001", some "0x05", none, some ⟨[(slotOne, some valueTwo)], by decide⟩, none⟩)],
    by decide⟩

theorem codeNonceStateOverride_converts :
    ∀ e ∈ codeNonceStateOverride.entries, Converts e.1 e.2 := by
  simp only [codeNonceStateOverride, List.mem_singleton]
  rintro e rfl
  exact ⟨⟨_, rfl⟩, by simp; exact ⟨_, rfl⟩, by simp; exact ⟨_, rfl⟩, nofun,
    by simp [SlotConverts]; exact ⟨rfl, ⟨_, rfl⟩, _, rfl, by decide⟩, nofun⟩

/-- Override semantics for one address given a code, a nonce and a one-slot `state`, on an empty
state manager with a checkpoint open. -/
theorem applySimulationOverrides_effect_codeNonceState :
    (∀ e ∈ codeNonceStateOverride.entries, Converts e.1 e.2) ∧
    (∀ e ∈ codeNonceStateOverride.entries, ¬ (e.2.state.isSome ∧ e.2.stateDiff.isSome)) ∧
    (codeNonceStateOverride.entries.map fun e => Address.from e.1).Nodup ∧
    ∃ s', (applySimulationOverrides (fun b => b) codeNonceStateOverride).run
        StateManager.empty.checkpoint = .ok () s' ∧
      (∀ e ∈ codeNonceStateOverride.entries, ∀ A, Address.from e.1 = .ok A →
        OverrideEffect (fun b => b) e.2 A StateManager.empty.checkpoint s') ∧
      (∀ b, (∀ e ∈ codeNonceStateOverride.entries, Address.from e.1 ≠ .ok b) →
        s'.accounts b = StateManager.empty.checkpoint.accounts b ∧
        s'.storage b = StateManager.empty.checkpoint.storage b) ∧
      (StateManager.empty.checkpoint.trie.db.checkpoints ≠ [] →
        Set.InjOn (fun b => b) (overrideCodes codeNonceStateOverride.entries) →
        ∀ cb ∈ overrideCodes codeNonceStateOverride.entries, s'.getCode cb = some cb) :=
  ⟨codeNonceStateOverride_converts, by simp [codeNonceStateOverride],
    List.nodup_cons.2 ⟨List.not_mem_nil _, .nil⟩,
    applySimulationOverrides_effect (fun b => b) codeNonceStateOverride codeNonceStateOverride_converts
      (by simp [codeNonceStateOverride]) (List.nodup_cons.2 ⟨List.not_mem_nil _, .nil⟩) _⟩

end Ganache
