import GanacheSimulation.StateManager
import GanacheSimulation.Async

/-! # Call overrides

`eth_call` may override, per address, an account's `nonce`, `balance` and `code`, and its storage:
`state` replaces it, `stateDiff` merges into it. `#applySimulationOverrides` walks the map's keys
in order. For each it parses the address, writes the account fields it was given (code into the
state trie's database under its hash), and then the storage: it rejects a key that carries both
`state` and `stateDiff`, and validates every slot and value with `#validateStorageOverride`
before writing it, and each message it rejects with names the map it checks
(`validateStorageOverride_error`). The `state` loop clears the storage when it reaches its first
slot. A slot that passes the check and converts was `0x` and 64 hex digits, so it is written under
its own 32 bytes (`writeSlot_validated`).

A JavaScript object is modelled as its own keys in insertion order, each once. The checks are
made per key of the map; two keys that differ in the case of their hex letters are two keys that
name one address (`address_case_insensitive`), and so are two keys whose bytes agree once padded
with leading zeros or cut to 20 bytes (`override_keys_same_address`). -/

namespace Ganache

/-- A JavaScript object: its own keys in insertion order, each once. -/
structure JsObject (α : Type) where
  entries : List (String × α)
  nodup_keys : (entries.map (·.1)).Nodup

/-- `CallOverride`: what to override at one address; every field may be missing. -/
structure CallOverride where
  code : Option String
  nonce : Option String
  balance : Option String
  state : Option (JsObject (Option String))
  stateDiff : Option (JsObject (Option String))

/-- `CallOverrides`, keyed by address strings. -/
abbrev CallOverrides := JsObject CallOverride

/-- `KECCAK256_NULL`: the hash of the empty string. -/
def KECCAK256_NULL (keccak : Bytes → Bytes) : Bytes := keccak []

/-- The number a big-endian byte string spells. -/
def bytesToNat (b : Bytes) : Nat := b.foldl (fun acc x => acc * 256 + x.toNat) 0

/-- A `Quantity` string, as an overridden `nonce` or `balance` is read back from the account
encoding: the number its hex spells. -/
def quantityOf (value : String) : Except String Nat :=
  (Data.bufferOf (.string value) none).map bytesToNat

/-- `value.indexOf("0x") === 0`. -/
def startsWith0x (value : String) : Bool := value.data.take 2 == ['0', 'x']

/-- A state manager step that may throw, keeping the state it reached. -/
abbrev Overriding := EStateM String StateManager

/-- `#validateStorageOverride(slot, value, fieldName)`. -/
def validateStorageOverride (slot : String) (value : Option String) (fieldName : String) :
    Except String Unit := do
  if slot ≠ "" ∧ startsWith0x slot ∧ slot.length ≠ 66 then
    let received := slot.length - 2
    throw s!"{fieldName} override slot must be a 64 character hex string. Received {received} character string."
  match value with
  | none => throw s!"{fieldName} override data not valid. Received: null"
  | some v =>
    if v ≠ "" ∧ startsWith0x v ∧ v.length ≠ 66 then
      let received := v.length - 2
      throw s!"{fieldName} override data must be a 64 character hex string. Received {received} character string."

/-- Every message `#validateStorageOverride` rejects with starts with the name of the map it
checks. -/
theorem validateStorageOverride_error {slot : String} {value : Option String}
    {fieldName msg : String} (h : validateStorageOverride slot value fieldName = .error msg) :
    ∃ rest, msg = fieldName ++ rest := by
  have named : ∀ rest, toString "" ++ toString fieldName ++ rest = msg → ∃ rest, msg = fieldName ++ rest :=
    fun rest hr => ⟨rest, hr.symm⟩
  unfold validateStorageOverride at h
  by_cases hslot : slot ≠ "" ∧ startsWith0x slot ∧ slot.length ≠ 66
  · simp only [if_pos hslot] at h
    injection h with h
    exact named _ (by simpa only [String.append_assoc] using h)
  simp only [if_neg hslot] at h
  cases value with
  | none =>
    injection h with h
    exact named _ (by simpa only [String.append_assoc] using h)
  | some v =>
    by_cases hv : v ≠ "" ∧ startsWith0x v ∧ v.length ≠ 66
    · simp only [if_pos hv] at h
      injection h with h
      exact named _ (by simpa only [String.append_assoc] using h)
    · simp only [if_neg hv] at h
      cases h

/-- `Data.toBuffer(value)`: a `null` value wraps no buffer and gives the empty one. -/
def valueBuffer : Option String → Except String Bytes
  | none => .ok []
  | some v => Data.bufferOf (.string v) none

/-- Writing one slot: `putContractStorage(vmAddr, Data.toBuffer(slot, 32), Data.toBuffer(value))`,
which rejects a value of more than 32 bytes. -/
def writeSlot (a : Address) (slot : String) (value : Option String) : Overriding Unit := do
  let slotBuf ← liftExcept (Data.bufferOf (.string slot) (some 32))
  let valueBuf ← liftExcept (valueBuffer value)
  let sm ← get
  set (← liftExcept (sm.putContractStorage a slotBuf valueBuf))

/-- The `state` loop: each slot is validated, the storage is cleared before the first write, and
the slot is written. `clearedState` says whether it has been cleared. -/
def applyState (a : Address) : Bool → List (String × Option String) → Overriding Unit
  | _, [] => pure ()
  | clearedState, (slot, value) :: rest => do
    liftExcept (validateStorageOverride slot value "State")
    (if !clearedState then modify (·.clearContractStorage a) else pure ())
    writeSlot a slot value
    applyState a true rest

/-- The `stateDiff` loop: each slot is validated and written. -/
def applyStateDiff (a : Address) : List (String × Option String) → Overriding Unit
  | [] => pure ()
  | (slot, value) :: rest => do
    liftExcept (validateStorageOverride slot value "StateDiff")
    writeSlot a slot value
    applyStateDiff a rest

/-- An overridden `nonce` or `balance`, as the account encoding reads it when `putAccount`
stores the account: an empty string is zero (geth's convention), a missing one keeps `current`. -/
def quantityField (field : Option String) (current : Nat) : Except String Nat :=
  match field with
  | none => .ok current
  | some q => if q = "" then .ok 0 else quantityOf q

/-- `Data.toBuffer(code === "" ? "0x" : code)`. -/
def codeBufferOf (code : String) : Except String Bytes :=
  Data.bufferOf (.string (if code = "" then "0x" else code)) none

/-- The code of an override, stored in the state trie's database under its hash: the hash to
install. Without code the account keeps its hash. -/
def overrideCode (keccak : Bytes → Bytes) (account : Account) : Option String → Overriding Bytes
  | none => pure account.codeHash
  | some code => do
    let codeBuffer ← liftExcept (codeBufferOf code)
    let codeHash := if codeBuffer.length > 0 then keccak codeBuffer else KECCAK256_NULL keccak
    modify (·.putNode .stateTrie codeHash codeBuffer)
    pure codeHash

/-- The account part of one override: code first, then `nonce` and `balance`, read when
`putAccount` stores the account. -/
def applyAccount (keccak : Bytes → Bytes) (a : Address) (o : CallOverride) : Overriding Unit := do
  let account := (← get).getAccount a
  let codeHash ← overrideCode keccak account o.code
  let nonce ← liftExcept (quantityField o.nonce account.nonce)
  let balance ← liftExcept (quantityField o.balance account.balance)
  modify (·.putAccount a ⟨nonce, balance, codeHash⟩)

/-- The storage part of one override: a key with both `state` and `stateDiff` is rejected,
otherwise the loop of the one it has runs. -/
def applyStorage (a : Address) (o : CallOverride) : Overriding Unit :=
  match o.state, o.stateDiff with
  | some _, some _ => throw "both state and stateDiff overrides specified"
  | some state, none => applyState a false state.entries
  | none, some stateDiff => applyStateDiff a stateDiff.entries
  | none, none => pure ()

/-- The body of the loop of `#applySimulationOverrides` for one key. -/
def applyOverride (keccak : Bytes → Bytes) (address : String) (o : CallOverride) :
    Overriding Unit := do
  let vmAddr ← liftExcept (Address.from address)
  (if o.nonce.isSome ∨ o.balance.isSome ∨ o.code.isSome then applyAccount keccak vmAddr o
    else pure ())
  applyStorage vmAddr o

/-- The loop of `#applySimulationOverrides` over the keys, in order. -/
def applyOverrides (keccak : Bytes → Bytes) : List (String × CallOverride) → Overriding Unit
  | [] => pure ()
  | (address, o) :: rest => do
    applyOverride keccak address o
    applyOverrides keccak rest

/-- `#applySimulationOverrides(overrides)`. -/
def applySimulationOverrides (keccak : Bytes → Bytes) (overrides : CallOverrides) :
    Overriding Unit :=
  applyOverrides keccak overrides.entries

/-! ### What the overrides can touch -/

/-- `I` survives every write an override makes: an account, a slot, a cleared storage, and a
node written through the state trie. -/
structure KeptByOverrideWrites (I : StateManager → Prop) : Prop where
  putAccount : ∀ s a acct, I s → I (s.putAccount a acct)
  modifyContractStorage : ∀ s a k v, I s → I (s.modifyContractStorage a k v)
  clearContractStorage : ∀ s a, I s → I (s.clearContractStorage a)
  putNode : ∀ s k v, I s → I (s.putNode .stateTrie k v)

/-- A slot write converts the slot and the value, then stores them; a rejection keeps the state. -/
theorem writeSlot_run (a : Address) (slot : String) (value : Option String) (s : StateManager) :
    (writeSlot a slot value).run s =
      match Data.bufferOf (.string slot) (some 32), valueBuffer value with
      | .ok b, .ok v =>
        match s.putContractStorage a b v with
        | .ok s' => .ok () s'
        | .error e => .error e s
      | .error e, _ => .error e s
      | .ok _, .error e => .error e s := by
  unfold writeSlot
  cases Data.bufferOf (.string slot) (some 32) <;> cases valueBuffer value <;> try rfl
  rename_i b v
  show (liftExcept (s.putContractStorage a b v) >>= fun s' => set s' : Overriding Unit).run s =
    match s.putContractStorage a b v with
    | .ok s' => .ok () s'
    | .error e => .error e s
  cases s.putContractStorage a b v <;> rfl

section Frame

variable {I : StateManager → Prop} (h : KeptByOverrideWrites I)
include h

theorem writeSlot_preserves (a : Address) (slot : String) (value : Option String) :
    Preserves I (writeSlot a slot value) := by
  intro s hs
  rw [writeSlot_run]
  split
  · split
    · next s' hs' =>
      rw [(StateManager.putContractStorage_eq_ok.mp hs').2.2]
      exact h.modifyContractStorage _ _ _ _ hs
    · exact hs
  · exact hs
  · exact hs

theorem applyState_preserves (a : Address) :
    ∀ (c : Bool) (l : List (String × Option String)), Preserves I (applyState a c l)
  | _, [] => preserves_pure ()
  | _, (slot, value) :: rest =>
    (preserves_liftExcept _).bind fun _ =>
      (preserves_ite (preserves_modify fun s => h.clearContractStorage s a) (preserves_pure ())).bind
        fun _ => (writeSlot_preserves h a slot value).bind fun _ => applyState_preserves a true rest

theorem applyStateDiff_preserves (a : Address) :
    ∀ l : List (String × Option String), Preserves I (applyStateDiff a l)
  | [] => preserves_pure ()
  | (slot, value) :: rest =>
    (preserves_liftExcept _).bind fun _ =>
      (writeSlot_preserves h a slot value).bind fun _ => applyStateDiff_preserves a rest

theorem overrideCode_preserves (keccak : Bytes → Bytes) (account : Account) :
    ∀ code : Option String, Preserves I (overrideCode keccak account code)
  | none => preserves_pure _
  | some _ => (preserves_liftExcept _).bind fun _ =>
    (preserves_modify fun s => h.putNode s _ _).bind fun _ => preserves_pure _

theorem applyAccount_preserves (keccak : Bytes → Bytes) (a : Address) (o : CallOverride) :
    Preserves I (applyAccount keccak a o) :=
  preserves_get.bind fun _ => (overrideCode_preserves h keccak _ o.code).bind fun _ =>
    (preserves_liftExcept _).bind fun _ => (preserves_liftExcept _).bind fun _ =>
      preserves_modify fun s => h.putAccount s a _

theorem applyStorage_preserves (a : Address) (o : CallOverride) :
    Preserves I (applyStorage a o) := by
  unfold applyStorage
  split
  · exact preserves_throw _
  · exact applyState_preserves h a false _
  · exact applyStateDiff_preserves h a _
  · exact preserves_pure ()

theorem applyOverrides_preserves (keccak : Bytes → Bytes) :
    ∀ l : List (String × CallOverride), Preserves I (applyOverrides keccak l)
  | [] => preserves_pure ()
  | (_, o) :: rest =>
    Preserves.bind ((preserves_liftExcept _).bind fun vmAddr =>
      (preserves_ite (applyAccount_preserves h keccak vmAddr o) (preserves_pure ())).bind
        fun _ => applyStorage_preserves h vmAddr o) fun _ => applyOverrides_preserves keccak rest

/-- `#applySimulationOverrides` keeps every invariant its writes keep, whether it resolves or
rejects part way. -/
theorem applySimulationOverrides_preserves (keccak : Bytes → Bytes) (overrides : CallOverrides) :
    Preserves I (applySimulationOverrides keccak overrides) :=
  applyOverrides_preserves h keccak overrides.entries

end Frame

/-! ### Which overrides resolve -/

/-- A slot of a storage override passes `#validateStorageOverride` and converts, to a value
`putContractStorage` takes. -/
def SlotConverts (fieldName : String) (p : String × Option String) : Prop :=
  validateStorageOverride p.1 p.2 fieldName = .ok () ∧
    (∃ b, Data.bufferOf (.string p.1) (some 32) = .ok b) ∧ ∃ v, valueBuffer p.2 = .ok v ∧ v.length ≤ 32

/-- Every field of the override at key `address` converts. -/
structure Converts (address : String) (o : CallOverride) : Prop where
  address : ∃ a, Address.from address = .ok a
  code : ∀ c ∈ o.code, ∃ b, codeBufferOf c = .ok b
  nonce : ∀ n ∈ o.nonce, n = "" ∨ ∃ v, quantityOf n = .ok v
  balance : ∀ b ∈ o.balance, b = "" ∨ ∃ v, quantityOf b = .ok v
  state : ∀ m ∈ o.state, ∀ p ∈ m.entries, SlotConverts "State" p
  stateDiff : ∀ m ∈ o.stateDiff, ∀ p ∈ m.entries, SlotConverts "StateDiff" p

/-- A slot converted at 32 bytes has 32 bytes. -/
theorem length_slotBuffer {slot : String} {b : Bytes}
    (h : Data.bufferOf (.string slot) (some 32) = .ok b) : b.length = 32 := by
  unfold Data.bufferOf at h
  cases hd : Data.from (.string slot) (some 32) with
  | error e => rw [hd] at h; cases h
  | ok d => rw [hd] at h; cases h; exact length_toBuffer_of_from (by decide) hd

theorem writeSlot_run_ok {a : Address} {slot : String} {value : Option String} {b v : Bytes}
    (hs : Data.bufferOf (.string slot) (some 32) = .ok b) (hv : valueBuffer value = .ok v)
    (hlen : v.length ≤ 32) (s : StateManager) :
    (writeSlot a slot value).run s = .ok () (s.modifyContractStorage a b (unpad v)) := by
  rw [writeSlot_run, hs, hv]
  simp only [StateManager.putContractStorage, length_slotBuffer hs, ne_eq, not_true_eq_false,
    if_false, gt_iff_lt, not_lt.mpr hlen]

/-- The slot `0x…01`, a 64-digit key. -/
def slotOne : String := "0x0000000000000000000000000000000000000000000000000000000000000001"

/-- The value `0x…02`, 64 digits. -/
def valueTwo : String := "0x0000000000000000000000000000000000000000000000000000000000000002"

/-- A slot write that resolves converted the slot at 32 bytes and a value of at most 32 bytes,
and stored them. -/
theorem writeSlot_run_eq_ok {a : Address} {slot : String} {value : Option String}
    {s s' : StateManager} (hw : (writeSlot a slot value).run s = .ok () s') :
    ∃ b v, Data.bufferOf (.string slot) (some 32) = .ok b ∧ valueBuffer value = .ok v ∧
      v.length ≤ 32 ∧ s' = s.modifyContractStorage a b (unpad v) := by
  rw [writeSlot_run] at hw
  split at hw
  · next b v hb hv =>
    split at hw
    · next s'' hs'' =>
      cases hw
      obtain ⟨-, hlen, rfl⟩ := StateManager.putContractStorage_eq_ok.mp hs''
      exact ⟨b, v, hb, hv, hlen, rfl⟩
    · cases hw
  · cases hw
  · cases hw

/-- A validated slot is written as its own 32 bytes when it is `0x` and 64 digits, and padded or
cut when it starts with `0X`, which the length check misses. -/
theorem writeSlot_validated {a : Address} {slot fieldName : String} {value : Option String}
    {s s' : StateManager} (hv : validateStorageOverride slot value fieldName = .ok ())
    (hw : (writeSlot a slot value).run s = .ok () s') :
    ∃ key v, Data.bufferOf (.string slot) (some 32) = .ok key ∧ valueBuffer value = .ok v ∧
      v.length ≤ 32 ∧ s' = s.modifyContractStorage a key (unpad v) ∧
      ((slot.length = 66 ∧ Data.bufferOf (.string slot) none = .ok key ∧
          Data.validateHexString (.string slot) 32 = .ok ()) ∨
        (slot.data.take 2 = ['0', 'X'] ∧ ∃ b, Data.bufferOf (.string slot) none = .ok b ∧
          key = if b.length ≤ 32 then List.replicate (32 - b.length) 0 ++ b else b.take 32)) := by
  obtain ⟨key, v, hkey, hval, hlen, rfl⟩ := writeSlot_run_eq_ok hw
  refine ⟨key, v, hkey, hval, hlen, rfl, ?_⟩
  rw [Data.bufferOf_string_fixed] at hkey
  cases hb : Data.bufferOf (.string slot) none with
  | error e => rw [hb] at hkey; cases hkey
  | ok b =>
    rw [hb] at hkey
    cases hkey
    obtain ⟨x, digits, hdata, hx, hblen⟩ := parseHexString_some (parseHexString_of_bufferOf hb)
    rcases hx with rfl | rfl
    · have h66 : slot.length = 66 := by
        by_contra hne
        have hcheck : slot ≠ "" ∧ startsWith0x slot ∧ slot.length ≠ 66 :=
          ⟨fun he => (by rw [he] at hdata; cases hdata), (by rw [startsWith0x, hdata]; rfl), hne⟩
        unfold validateStorageOverride at hv
        simp only [if_pos hcheck] at hv
        cases hv
      have h32 : b.length = 32 := by
        rw [String.length, hdata, List.length_cons, List.length_cons] at h66
        omega
      beta_reduce
      rw [toBuffer_of_length h32]
      exact .inl ⟨h66, rfl, validateHexString_of_length hb h32⟩
    · exact .inr ⟨by rw [hdata]; rfl, b, rfl, toBuffer_fixed b (by decide)⟩

/-- The slot `0X1` passes the check, whose length test looks for a lower-case `0x`, and is
written as the 32-byte key `0x00…01`. -/
theorem writeSlot_validated_upperPrefix :
    validateStorageOverride "0X1" (some valueTwo) "State" = .ok () ∧
    ∃ s', (writeSlot (Address.ofByte 10) "0X1" (some valueTwo)).run StateManager.empty = .ok () s' ∧
      ∃ key v, Data.bufferOf (.string "0X1") (some 32) = .ok key ∧ valueBuffer (some valueTwo) = .ok v ∧
        v.length ≤ 32 ∧ s' = StateManager.empty.modifyContractStorage (Address.ofByte 10) key (unpad v) ∧
        ((("0X1" : String).length = 66 ∧ Data.bufferOf (.string "0X1") none = .ok key ∧
            Data.validateHexString (.string "0X1") 32 = .ok ()) ∨
          (("0X1" : String).data.take 2 = ['0', 'X'] ∧ ∃ b, Data.bufferOf (.string "0X1") none = .ok b ∧
            key = if b.length ≤ 32 then List.replicate (32 - b.length) 0 ++ b else b.take 32)) := by
  have hv : validateStorageOverride "0X1" (some valueTwo) "State" = .ok () := rfl
  exact ⟨hv, _, rfl, writeSlot_validated hv rfl⟩

theorem applyState_resolves (a : Address) (l : List (String × Option String))
    (h : ∀ p ∈ l, SlotConverts "State" p) :
    ∀ (c : Bool) (s : StateManager), ∃ s', (applyState a c l).run s = .ok () s' := by
  induction l with
  | nil => exact fun _ s => ⟨s, rfl⟩
  | cons p l ih =>
    intro c s
    obtain ⟨hval, ⟨b, hb⟩, ⟨v, hv, hlen⟩⟩ := h p (List.mem_cons_self _ _)
    obtain ⟨s', hs'⟩ := ih (fun q hq => h q (List.mem_cons_of_mem _ hq)) true
      ((if !c then s.clearContractStorage a else s).modifyContractStorage a b (unpad v))
    refine ⟨s', ?_⟩
    cases c <;> simpa [applyState, run_bind, hval, writeSlot_run_ok hb hv hlen] using hs'

theorem applyStateDiff_resolves (a : Address) (l : List (String × Option String))
    (h : ∀ p ∈ l, SlotConverts "StateDiff" p) :
    ∀ s : StateManager, ∃ s', (applyStateDiff a l).run s = .ok () s' := by
  induction l with
  | nil => exact fun s => ⟨s, rfl⟩
  | cons p l ih =>
    intro s
    obtain ⟨hval, ⟨b, hb⟩, ⟨v, hv, hlen⟩⟩ := h p (List.mem_cons_self _ _)
    obtain ⟨s', hs'⟩ := ih (fun q hq => h q (List.mem_cons_of_mem _ hq))
      (s.modifyContractStorage a b (unpad v))
    exact ⟨s', by simpa [applyStateDiff, run_bind, hval, writeSlot_run_ok hb hv hlen] using hs'⟩

theorem quantityField_ok {field : Option String} (h : ∀ q ∈ field, q = "" ∨ ∃ v, quantityOf q = .ok v)
    (current : Nat) : ∃ v, quantityField field current = .ok v := by
  cases field with
  | none => exact ⟨current, rfl⟩
  | some q =>
    rcases h q rfl with rfl | ⟨v, hv⟩
    · exact ⟨0, rfl⟩
    · by_cases hq : q = ""
      · exact ⟨0, by simp [quantityField, hq]⟩
      · exact ⟨v, by simp [quantityField, hq, hv]⟩

theorem applyAccount_resolves (keccak : Bytes → Bytes) (a : Address) {k : String}
    {o : CallOverride} (h : Converts k o) (s : StateManager) :
    ∃ s', (applyAccount keccak a o).run s = .ok () s' := by
  obtain ⟨n, hn⟩ := quantityField_ok h.nonce (s.accounts a).nonce
  obtain ⟨b, hb⟩ := quantityField_ok h.balance (s.accounts a).balance
  cases hc : o.code with
  | none =>
    exact ⟨_, by simp [applyAccount, overrideCode, run_bind, hc, hn, hb, StateManager.getAccount]; rfl⟩
  | some c =>
    obtain ⟨cb, hcb⟩ := h.code c hc
    exact ⟨_, by
      simp [applyAccount, overrideCode, run_bind, hc, hcb, hn, hb, StateManager.getAccount,
        StateManager.putNode]
      rfl⟩

/-- The exclusivity check is made on one key's override: a key that converts resolves unless
it carries both `state` and `stateDiff`, and then it rejects with the exclusivity message. -/
theorem applyOverride_run (keccak : Bytes → Bytes) {k : String} {o : CallOverride}
    (h : Converts k o) (s : StateManager) :
    (o.state.isSome ∧ o.stateDiff.isSome → ∃ s', (applyOverride keccak k o).run s =
        .error "both state and stateDiff overrides specified" s') ∧
    (¬ (o.state.isSome ∧ o.stateDiff.isSome) → ∃ s', (applyOverride keccak k o).run s = .ok () s') := by
  obtain ⟨A, hA⟩ := h.address
  obtain ⟨s1, hs1⟩ : ∃ s1, ((if o.nonce.isSome ∨ o.balance.isSome ∨ o.code.isSome then
      applyAccount keccak A o else pure ()) : Overriding Unit).run s = .ok () s1 := by
    split
    · exact applyAccount_resolves keccak A h s
    · exact ⟨s, rfl⟩
  unfold applyOverride
  rw [run_bind_ok (show (liftExcept (Address.from k) : Overriding Address).run s = .ok A s by
    rw [hA]; rfl), run_bind_ok hs1]
  unfold applyStorage
  cases hst : o.state with
  | none =>
    cases hsd : o.stateDiff with
    | none => exact ⟨by simp, fun _ => ⟨s1, rfl⟩⟩
    | some m => exact ⟨by simp, fun _ => applyStateDiff_resolves A m.entries (h.stateDiff m hsd) s1⟩
  | some m =>
    cases hsd : o.stateDiff with
    | none => exact ⟨by simp, fun _ => applyState_resolves A m.entries (h.state m hst) false s1⟩
    | some m' => exact ⟨fun _ => ⟨s1, rfl⟩, by simp⟩

/-- When every key converts, the loop of `#applySimulationOverrides` resolves if no key carries
both `state` and `stateDiff`, and rejects with the exclusivity message if one does. -/
theorem applyOverrides_run (keccak : Bytes → Bytes) (l : List (String × CallOverride))
    (h : ∀ e ∈ l, Converts e.1 e.2) (s : StateManager) :
    ((∃ e ∈ l, e.2.state.isSome ∧ e.2.stateDiff.isSome) → ∃ s', (applyOverrides keccak l).run s =
        .error "both state and stateDiff overrides specified" s') ∧
    ((¬ ∃ e ∈ l, e.2.state.isSome ∧ e.2.stateDiff.isSome) →
        ∃ s', (applyOverrides keccak l).run s = .ok () s') := by
  induction l generalizing s with
  | nil => exact ⟨by simp, fun _ => ⟨s, rfl⟩⟩
  | cons e l ih =>
    obtain ⟨k, o⟩ := e
    have ho := applyOverride_run keccak (h (k, o) (List.mem_cons_self _ _)) s
    have ih' := fun s => ih (fun e he => h e (List.mem_cons_of_mem _ he)) s
    by_cases hboth : o.state.isSome ∧ o.stateDiff.isSome
    · obtain ⟨s', hs'⟩ := ho.1 hboth
      exact ⟨fun _ => ⟨s', by rw [applyOverrides, run_bind_error hs']⟩,
        fun hno => absurd ⟨(k, o), List.mem_cons_self _ _, hboth⟩ hno⟩
    · obtain ⟨s1, hs1⟩ := ho.2 hboth
      rw [applyOverrides, run_bind_ok hs1]
      refine ⟨fun ⟨e, he, hb⟩ => (ih' s1).1 ⟨e, ?_, hb⟩, fun hno => (ih' s1).2 fun ⟨e, he, hb⟩ =>
        hno ⟨e, List.mem_cons_of_mem _ he, hb⟩⟩
      rcases List.mem_cons.mp he with rfl | he
      · exact absurd hb hboth
      · exact he

/-! ### Exclusivity is per key -/

/-- When every key converts, `#applySimulationOverrides` rejects with the exclusivity message
exactly when some key of the map carries both `state` and `stateDiff`. -/
theorem applySimulationOverrides_rejects_iff (keccak : Bytes → Bytes) (overrides : CallOverrides)
    (sm : StateManager) (h : ∀ e ∈ overrides.entries, Converts e.1 e.2) :
    (∃ s, (applySimulationOverrides keccak overrides).run sm =
        .error "both state and stateDiff overrides specified" s) ↔
      ∃ e ∈ overrides.entries, e.2.state.isSome ∧ e.2.stateDiff.isSome := by
  have hr := applyOverrides_run keccak overrides.entries h sm
  refine ⟨fun ⟨s, hs⟩ => ?_, hr.1⟩
  by_contra hno
  obtain ⟨s', hs'⟩ := hr.2 hno
  rw [applySimulationOverrides, hs'] at hs
  cases hs

/-- `Address.from` resolves exactly when the 20-byte `Data` of the text does, with its buffer. -/
theorem Address.from_eq_ok {value : String} {a : Address} :
    Address.from value = .ok a ↔
      ∃ d, Data.from (.string value) (some 20) = .ok d ∧ a.buf = d.toBuffer none := by
  unfold Address.from
  split
  · next d hd =>
    constructor
    · rintro ⟨⟩
      exact ⟨d, hd, rfl⟩
    · rintro ⟨d', hd', hbuf⟩
      obtain rfl : d = d' := Except.ok.inj (hd.symm.trans hd')
      obtain ⟨buf, hlen⟩ := a
      subst hbuf
      rfl
  · next e he =>
    refine ⟨nofun, fun ⟨d, hd, _⟩ => ?_⟩
    rw [hd] at he
    cases he

/-- Keys that differ only in the case of their hex letters name the same address, or neither
names one. -/
theorem address_case_insensitive {k₁ k₂ : String}
    (hcase : k₁.data.map lowerHexLetter = k₂.data.map lowerHexLetter) (a : Address) :
    Address.from k₁ = .ok a ↔ Address.from k₂ = .ok a := by
  have hp : parseHexString k₁ = parseHexString k₂ := by
    rw [← parseHexString_lowerHexLetter k₁, hcase, parseHexString_lowerHexLetter]
  simp only [Address.from_eq_ok, Data.from_string_eq_ok, hp]

/-- The keys `0xA` and `0xa` name the same address. -/
theorem address_case_insensitive_0xA :
    "0xA".data.map lowerHexLetter = "0xa".data.map lowerHexLetter ∧
    ∀ a, Address.from "0xA" = .ok a ↔ Address.from "0xa" = .ok a :=
  ⟨by decide, address_case_insensitive (by decide)⟩

/-- The address a key names: its bytes with leading zeros up to 20, or their first 20. -/
theorem Address.from_buf {value : String} {b : Bytes} (h : parseHexString value = some b) :
    ∃ a : Address, Address.from value = .ok a ∧
      a.buf = if b.length ≤ 20 then List.replicate (20 - b.length) 0 ++ b else b.take 20 := by
  have hd : Data.from (.string value) (some 20) = .ok ⟨some b, some 20⟩ :=
    Data.from_string_eq_ok.mpr ⟨b, h, rfl⟩
  obtain ⟨a, ha⟩ : ∃ a, Address.from value = .ok a := by
    unfold Address.from
    split
    · exact ⟨_, rfl⟩
    · next e he => rw [hd] at he; cases he
  obtain ⟨d, hd', hbuf⟩ := Address.from_eq_ok.mp ha
  rw [hd] at hd'
  cases hd'
  exact ⟨a, ha, hbuf.trans (toBuffer_fixed b (by decide))⟩

/-- Two hex keys name one address exactly when their bytes agree once brought to 20 bytes. -/
theorem override_keys_same_address {k₁ k₂ : String} {b₁ b₂ : Bytes}
    (h₁ : parseHexString k₁ = some b₁) (h₂ : parseHexString k₂ = some b₂) :
    Address.from k₁ = Address.from k₂ ↔
      (if b₁.length ≤ 20 then List.replicate (20 - b₁.length) 0 ++ b₁ else b₁.take 20) =
        (if b₂.length ≤ 20 then List.replicate (20 - b₂.length) 0 ++ b₂ else b₂.take 20) := by
  obtain ⟨⟨buf₁, _⟩, ha₁, rfl⟩ := Address.from_buf h₁
  obtain ⟨⟨buf₂, _⟩, ha₂, rfl⟩ := Address.from_buf h₂
  rw [ha₁, ha₂]
  exact ⟨fun h => congrArg Address.buf (Except.ok.inj h), fun h => by simp only [h]⟩

/-- A 21-byte key names the address of its first 20 bytes. -/
theorem override_keys_same_address_truncated :
    parseHexString "0x111111111111111111111111111111111111111122" =
      some (List.replicate 20 0x11 ++ [0x22]) ∧
    parseHexString "0x1111111111111111111111111111111111111111" = some (List.replicate 20 0x11) ∧
    Address.from "0x111111111111111111111111111111111111111122" =
      Address.from "0x1111111111111111111111111111111111111111" := by
  have h₁ : parseHexString "0x111111111111111111111111111111111111111122" =
      some (List.replicate 20 0x11 ++ [0x22]) := rfl
  have h₂ : parseHexString "0x1111111111111111111111111111111111111111" =
      some (List.replicate 20 0x11) := rfl
  exact ⟨h₁, h₂, (override_keys_same_address h₁ h₂).2 (by decide)⟩

/-- Two keys that differ only in the case of their hex digit: the first replaces the storage of
the address they both name, the second merges into it. -/
def caseVariantOverrides : CallOverrides :=
  ⟨[("0xA", ⟨none, none, none, some ⟨[(slotOne, some valueTwo)], by decide⟩, none⟩),
    ("0xa", ⟨none, none, none, none, some ⟨[(slotOne, some valueTwo)], by decide⟩⟩)], by decide⟩

theorem caseVariantOverrides_converts : ∀ e ∈ caseVariantOverrides.entries, Converts e.1 e.2 := by
  have hslot : ∀ f, validateStorageOverride slotOne (some valueTwo) f = .ok () := fun _ => rfl
  simp only [caseVariantOverrides, List.mem_cons, List.mem_singleton, List.not_mem_nil, or_false]
  rintro e (rfl | rfl) <;>
    exact ⟨⟨_, rfl⟩, nofun, nofun, nofun,
      by simp [SlotConverts, hslot] <;> exact ⟨⟨_, rfl⟩, _, rfl, by decide⟩,
      by simp [SlotConverts, hslot] <;> exact ⟨⟨_, rfl⟩, _, rfl, by decide⟩⟩

theorem applySimulationOverrides_rejects_iff_caseVariant :
    (∀ e ∈ caseVariantOverrides.entries, Converts e.1 e.2) ∧
    ((∃ s, (applySimulationOverrides (fun _ => []) caseVariantOverrides).run
        StateManager.empty =
        .error "both state and stateDiff overrides specified" s) ↔
      ∃ e ∈ caseVariantOverrides.entries, e.2.state.isSome ∧ e.2.stateDiff.isSome) :=
  ⟨caseVariantOverrides_converts,
    applySimulationOverrides_rejects_iff _ caseVariantOverrides _ caseVariantOverrides_converts⟩

/-- Per address the check fails: both keys name one address, one gives it `state`, the other
`stateDiff`, every slot and value validates, and `#applySimulationOverrides` resolves. -/
theorem caseVariantOverrides_resolve :
    Address.from "0xA" = Address.from "0xa" ∧
    (∀ e ∈ caseVariantOverrides.entries, Converts e.1 e.2) ∧
    (∃ e₁ ∈ caseVariantOverrides.entries, ∃ e₂ ∈ caseVariantOverrides.entries,
      Address.from e₁.1 = Address.from e₂.1 ∧ e₁.2.state.isSome ∧ e₂.2.stateDiff.isSome) ∧
    ∀ (keccak : Bytes → Bytes) (sm : StateManager),
      ∃ s, (applySimulationOverrides keccak caseVariantOverrides).run sm = .ok () s := by
  refine ⟨rfl, caseVariantOverrides_converts,
    ⟨_, List.mem_cons_self _ _, _, List.mem_cons_of_mem _ (List.mem_cons_self _ _), rfl, rfl, rfl⟩,
    fun keccak sm => (applyOverrides_run keccak _ caseVariantOverrides_converts sm).2 ?_⟩
  simp [caseVariantOverrides]

/-! ### An empty `state` map -/

/-- `{state: {}}` at the address `0xA`. -/
def emptyStateOverride : CallOverrides :=
  ⟨[("0xA", ⟨none, none, none, some ⟨[], by decide⟩, none⟩)], by decide⟩

/-- A `state` override with no slots leaves the storage as it was: the storage is cleared only
when the loop reaches a first slot. -/
theorem emptyStateOverride_keeps_storage (keccak : Bytes → Bytes) (sm : StateManager) :
    ∃ s, (applySimulationOverrides keccak emptyStateOverride).run sm = .ok () s ∧
      s.storage = sm.storage :=
  ⟨sm, rfl, rfl⟩

end Ganache
