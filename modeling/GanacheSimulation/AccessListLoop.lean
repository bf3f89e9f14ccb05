import GanacheSimulation.Warmth

/-! # The access-list loop

`createAccessList` runs the VM at most `MAX_ITERATIONS` times, each run between a checkpoint and
a revert, and stops at the first run whose generated list is the same as the one compared
against: the seed for the first run, the list of the run before it afterwards. It reports that
list with the run's gas plus the intrinsic gas and the list's fee (`createAccessList_outcome`).

The lists it reports never name the caller or a precompile, and name the callee only with a
storage key: `initialize` fixes the exclusion sets, and nothing in the loop changes them
(`prewarm_exclusion`).

Each run finds warm what every earlier run accessed (`warm_iterated`). So a VM that reads
neither the access frames nor the leveldb makes the loop agree on its second run
(`warmthBlind_vm_converges`). A VM whose costs depend on warmth can tell the runs apart from a run
with the generated list: the exclusion sets drop the caller with its slots from the list, while
the later runs find those slots warm, and the gas reported is not that of a run with the list
(`access_list_gas_without_list`). And when the loop runs out it resolves with `undefined`: a
probe that reads a sequence of accounts up to the first cold one makes it run a thousand times
and resolve with nothing (`scanner_vm_exhausts_loop`). -/

namespace Ganache

/-! ### What the loop reports -/

/-- At most `MAX_ITERATIONS` VM calls; a reported list ends a chain of disagreeing lists from the
seed and agrees with the last one; running out means all iterations ran without agreement. -/
theorem createAccessList_outcome (vm : Vm) (seed : Option AccessList) (h : SimulationHandler) :
    (stateOf ((createAccessList vm seed).run h)).invocations.length ≤
      h.invocations.length + MAX_ITERATIONS ∧
    (∀ res h', (createAccessList vm seed).run h = .ok (some res) h' →
      ∃ Ls hk r, Iterates vm h Ls hk ∧ Ls.length < MAX_ITERATIONS ∧
        List.Chain' Disagree (seed.getD [] :: Ls) ∧
        (accessListIteration vm).run hk = .ok (r, res.accessList) h' ∧
        areAccessListsSame (Ls.getLastD (seed.getD [])) res.accessList = true ∧
        res.gasUsed = r.gasUsed + (h'.intrinsicGas + dataFeeEIP2930 res.accessList)) ∧
    ∀ h', (createAccessList vm seed).run h = .ok none h' →
      ∃ Ls, Iterates vm h Ls h' ∧ Ls.length = MAX_ITERATIONS ∧
        List.Chain' Disagree (seed.getD [] :: Ls) :=
  ⟨invocations_accessListLoop vm _ _ h, fun _ _ => accessListLoop_some, fun _ => accessListLoop_none⟩

/-- A VM whose every call reads the caller `0x…a0`, the precompile `0x…01`, the callee `0x…b0`
and the account `0x…c0`, at no cost. -/
def Vm.reader : Vm :=
  ⟨fun _ _ => ⟨⟨0, ⟨none, [], 0⟩⟩, [], [.addWarmedAddress (Address.ofByte 0xa0),
    .addWarmedAddress (Address.ofByte 1), .addWarmedAddress (Address.ofByte 0xb0),
    .addWarmedAddress (Address.ofByte 0xc0)]⟩, fun _ _ => rfl⟩

/-- The outcome on a plain call whose VM reads four accounts: the loop resolves on its second
run. -/
theorem createAccessList_outcome_reader :
    ∃ res h', (createAccessList Vm.reader none).run initializedCall = .ok (some res) h' ∧
      ∃ Ls hk r, Iterates Vm.reader initializedCall Ls hk ∧ Ls.length < MAX_ITERATIONS ∧
        List.Chain' Disagree ((none : Option AccessList).getD [] :: Ls) ∧
        (accessListIteration Vm.reader).run hk = .ok (r, res.accessList) h' ∧
        areAccessListsSame (Ls.getLastD ((none : Option AccessList).getD [])) res.accessList = true ∧
        res.gasUsed = r.gasUsed + (h'.intrinsicGas + dataFeeEIP2930 res.accessList) :=
  ⟨_, _, rfl, (createAccessList_outcome Vm.reader none initializedCall).2.1 _ _ rfl⟩

/-! ### Pre-warm exclusion -/

/-- Pre-warm exclusion: the exclusion sets `initialize` fixes stay, and no reported list names the
caller, a precompile, or the callee without a storage key. -/
theorem prewarm_exclusion (vm : Vm) (keccak : Bytes → Bytes) (blockchain : Blockchain)
    (common : Common) (simulationBlock : Block) (transaction : SimulationTransaction)
    (overrides : Option CallOverrides) (context : Nat) (sm : StateManager)
    (h2929 : common.isActivatedEIP 2929 = true) (h₁ : SimulationHandler)
    (hok : (initializeSimulation keccak blockchain common simulationBlock transaction
      overrides).run (SimulationHandler.new context sm) = .ok () h₁) :
    (calculateIntrinsicGas transaction.data transaction.to.isSome common ≤ transaction.gas →
      h₁.accessListExclusions = transaction.from :: common.precompiles ∧
      h₁.addressesOnlyStorage = transaction.to.toList) ∧
    (∀ seed, (stateOf ((createAccessList vm seed).run h₁)).accessListExclusions =
        h₁.accessListExclusions ∧
      (stateOf ((createAccessList vm seed).run h₁)).addressesOnlyStorage = h₁.addressesOnlyStorage) ∧
    ∀ seed res h₂, (createAccessList vm seed).run h₁ = .ok (some res) h₂ →
      ∀ item ∈ res.accessList, item.address ≠ transaction.from ∧
        item.address ∉ common.precompiles ∧ (transaction.to = some item.address → item.storageKeys ≠ []) := by
  have hsets : calculateIntrinsicGas transaction.data transaction.to.isSome common ≤ transaction.gas →
      h₁.accessListExclusions = transaction.from :: common.precompiles ∧
      h₁.addressesOnlyStorage = transaction.to.toList := fun hle => by
    obtain ⟨smo, -, rfl⟩ :=
      initializeSimulation_ok_of_le keccak blockchain common simulationBlock transaction overrides _
        hle hok
    rw [listening_eq, if_pos h2929]
    exact ⟨rfl, rfl⟩
  refine ⟨hsets, fun seed => ?_, fun seed res h₂ hres item hitem => ?_⟩
  · have := config_accessListLoop vm MAX_ITERATIONS (seed.getD []) h₁
    exact ⟨congrArg Config.accessListExclusions this, congrArg Config.addressesOnlyStorage this⟩
  · obtain ⟨Ls, hk, r, hits, -, -, hlast, -⟩ := accessListLoop_some hres
    have hcfg : hk.config = h₁.config := hits.preserves (P := fun h => h.config = h₁.config)
      (fun h _ _ _ hit hP => by
        have := config_accessListIteration vm h
        rw [hit] at this
        exact this.trans hP) rfl
    obtain ⟨opts, he, -, -, -, hL, -⟩ := accessListIteration_ok hlast
    have hle : calculateIntrinsicGas transaction.data transaction.to.isSome common ≤ transaction.gas := by
      by_contra hlt
      rw [initializeSimulation_of_lt keccak blockchain common simulationBlock transaction overrides _
        (by omega)] at hok
      cases hok
      exact absurd (he.symm.trans (congrArg Config.initializationError hcfg)) nofun
    obtain ⟨hex, hon⟩ := hsets hle
    rw [hL, generated_eq, show hk.accessListExclusions = h₁.accessListExclusions from
      congrArg Config.accessListExclusions hcfg, show hk.addressesOnlyStorage = h₁.addressesOnlyStorage
      from congrArg Config.addressesOnlyStorage hcfg, hex, hon] at hitem
    obtain ⟨-, hnot, honly, -⟩ := mem_generateAccessList hitem
    refine ⟨fun h => hnot (h ▸ List.mem_cons_self _ _), fun h => hnot (List.mem_cons_of_mem _ h),
      fun hto => honly ?_⟩
    rw [hto]
    exact List.mem_singleton_self _

/-- Pre-warm exclusion on a plain call under Berlin's rules, whose VM reads the caller, a
precompile, the callee and one more account: the list reported names the last alone. -/
theorem prewarm_exclusion_reader :
    Common.berlin.isActivatedEIP 2929 = true ∧
    (initializeSimulation (fun _ => []) Blockchain.empty Common.berlin Block.genesis
        (callTx 21000 1 none) none).run (SimulationHandler.new 0 StateManager.empty) =
      .ok () initializedCall ∧
    (calculateIntrinsicGas (callTx 21000 1 none).data (callTx 21000 1 none).to.isSome
        Common.berlin ≤ (callTx 21000 1 none).gas →
      initializedCall.accessListExclusions = (callTx 21000 1 none).from :: Common.berlin.precompiles ∧
      initializedCall.addressesOnlyStorage = (callTx 21000 1 none).to.toList) ∧
    (∀ seed, (stateOf ((createAccessList Vm.reader seed).run initializedCall)).accessListExclusions =
        initializedCall.accessListExclusions ∧
      (stateOf ((createAccessList Vm.reader seed).run initializedCall)).addressesOnlyStorage =
        initializedCall.addressesOnlyStorage) ∧
    ∃ res h₂, (createAccessList Vm.reader none).run initializedCall = .ok (some res) h₂ ∧
      res.accessList = [⟨Address.ofByte 0xc0, []⟩] ∧
      ∀ item ∈ res.accessList, item.address ≠ (callTx 21000 1 none).from ∧
        item.address ∉ Common.berlin.precompiles ∧
        ((callTx 21000 1 none).to = some item.address → item.storageKeys ≠ []) :=
  ⟨rfl, rfl, (prewarm_exclusion Vm.reader (fun _ => []) Blockchain.empty Common.berlin Block.genesis
      (callTx 21000 1 none) none 0 StateManager.empty rfl _ rfl).1,
    (prewarm_exclusion Vm.reader (fun _ => []) Blockchain.empty Common.berlin Block.genesis
      (callTx 21000 1 none) none 0 StateManager.empty rfl _ rfl).2.1, _, _, rfl, rfl,
    (prewarm_exclusion Vm.reader (fun _ => []) Blockchain.empty Common.berlin Block.genesis
      (callTx 21000 1 none) none 0 StateManager.empty rfl initializedCall rfl).2.2 none _ _ rfl⟩

/-! ### A VM at EIP-2929's prices -/

/-- The operation by which a run makes an access warm. -/
def Access.warmOp : Access → StateOp
  | .address a => .addWarmedAddress a
  | .slot a key => .addWarmedStorage a key

theorem balancedFrom_warmOps (depth : Nat) :
    ∀ xs : List Access, balancedFrom depth (xs.map Access.warmOp) = (depth == 0)
  | [] => rfl
  | .address _ :: xs => balancedFrom_warmOps depth xs
  | .slot _ _ :: xs => balancedFrom_warmOps depth xs

/-- EIP-2929's price of an access: 100 when it is warm, 2600 for a cold account and 2100 for a
cold slot. -/
def accessCost (sm : StateManager) : Access → Nat
  | .address a => if sm.isWarmedAddress a then 100 else 2600
  | .slot a key => if sm.isWarmedStorage a key then 100 else 2100

/-- A VM whose every call makes the accesses `xs`, each priced as EIP-2929 prices it on the state
manager the call is given. -/
def Vm.touching (xs : List Access) : Vm :=
  ⟨fun _ sm => ⟨⟨xs.foldr (fun x gas => accessCost sm x + gas) 0, ⟨none, [], 0⟩⟩, [],
    xs.map Access.warmOp⟩,
    fun _ _ => balancedFrom_warmOps 0 xs⟩

/-! ### The gas it reports -/

/-- A callee that reads the account `0x…c0` and calls back into the caller `0x…a0`, whose code
reads its own slot 0. -/
def Vm.callbackReader : Vm :=
  Vm.touching [.address (Address.ofByte 0xc0), .slot (Address.ofByte 0xa0) (List.replicate 32 0)]

/-- The gas reported is not that of a run with the list: the list drops the caller's slot, which
the second run finds warm and a run with the list finds cold. -/
theorem access_list_gas_without_list :
    ∃ h₁, (initializeSimulation (fun _ => []) Blockchain.empty Common.berlin Block.genesis
        (callTx 30000 1 none) none).run (SimulationHandler.new 0 StateManager.empty) = .ok () h₁ ∧
      ∃ h₂, (createAccessList Vm.callbackReader none).run h₁ =
        .ok (some ⟨[⟨Address.ofByte 0xc0, []⟩], 23600⟩) h₂ ∧
    ∃ h₁', (initializeSimulation (fun _ => []) Blockchain.empty Common.berlin Block.genesis
        (callTx 30000 1 (some [⟨Address.ofByte 0xc0, []⟩])) none).run
        (SimulationHandler.new 0 StateManager.empty) = .ok () h₁' ∧
      23600 - h₁'.intrinsicGas - dataFeeEIP2930 [⟨Address.ofByte 0xc0, []⟩] = 200 ∧
      (∃ r h₃, (runCall Vm.callbackReader).run h₁' = .ok r h₃ ∧ r.gasUsed = 2200 ∧
        generateAccessList h₃.stateManager.foldedAccess h₃.accessListExclusions
          h₃.addressesOnlyStorage = [⟨Address.ofByte 0xc0, []⟩]) ∧
      ∃ h₄, (createAccessList Vm.callbackReader (some [⟨Address.ofByte 0xc0, []⟩])).run h₁' =
        .ok (some ⟨[⟨Address.ofByte 0xc0, []⟩], 25600⟩) h₄ :=
  ⟨_, rfl, _, rfl, _, rfl, rfl, ⟨_, _, rfl, rfl, rfl⟩, _, rfl⟩

/-! ### A VM blind to warmth -/

/-- The account a probe reads `n`-th: `0x01 00…00 hi lo`, where `hi lo` are the two low bytes of
`n`. -/
def scanAddress (n : Nat) : Address :=
  ⟨1 :: List.replicate 17 0 ++ [UInt8.ofNat (n / 256), UInt8.ofNat n], by simp⟩

/-- The first 65536 accounts of the sequence are pairwise different. -/
theorem scanAddress_inj {m n : Nat} (hm : m < 65536) (hn : n < 65536)
    (h : scanAddress m = scanAddress n) : m = n := by
  have hbuf := congrArg Address.buf h
  simp only [scanAddress, List.cons.injEq, List.append_cancel_left_eq, true_and, and_true] at hbuf
  have hhi : m / 256 % 256 = n / 256 % 256 := congrArg UInt8.toNat hbuf.1
  have hlo : m % 256 = n % 256 := congrArg UInt8.toNat hbuf.2
  omega

/-- The first account of the sequence that is not warm, among `fuel` of them from the `i`-th. -/
def firstColdFrom (sm : StateManager) : Nat → Nat → Nat
  | 0, i => i
  | fuel + 1, i => if sm.isWarmedAddress (scanAddress i) then firstColdFrom sm fuel (i + 1) else i

theorem firstColdFrom_eq {sm : StateManager} {k : Nat}
    (hwarm : ∀ j < k, sm.isWarmedAddress (scanAddress j) = true)
    (hcold : sm.isWarmedAddress (scanAddress k) = false) :
    ∀ fuel i, i ≤ k → k < i + fuel → firstColdFrom sm fuel i = k
  | 0, _, _, hk => by omega
  | fuel + 1, i, hi, hk => by
    rw [firstColdFrom]
    rcases Nat.lt_or_eq_of_le hi with hlt | rfl
    · rw [if_pos (hwarm i hlt)]
      exact firstColdFrom_eq hwarm hcold fuel (i + 1) hlt (by omega)
    · rw [hcold, if_neg Bool.false_ne_true]

/-- A probe contract: it reads the accounts of the sequence in turn, up to the first that is not
warm, at no cost. -/
def Vm.scanner : Vm :=
  ⟨fun _ sm => ⟨⟨0, ⟨none, [], 0⟩⟩, [],
    ((List.range (firstColdFrom sm 65536 0 + 1)).map fun i => Access.address (scanAddress i)).map
      Access.warmOp⟩,
    fun _ _ => balancedFrom_warmOps 0 _⟩

/-- Where the probe's iteration numbered `k` starts, from the handler `h₁`: the first `k` accounts
of the sequence have been added to what `h₁` found warm, everything accessed is warm, and `k` VM
calls have been made. -/
structure Scanned (h₁ : SimulationHandler) (k : Nat) (h : SimulationHandler) : Prop where
  config : h.config = h₁.config
  warm : ∀ x, h.stateManager.Warm x ↔ h₁.stateManager.Warm x ∨ ∃ j < k, x = .address (scanAddress j)
  accessed : ∀ x, h.stateManager.Accessed x ↔ h.stateManager.Warm x
  calls : h.invocations.length = k

section Scanner

variable {h₁ : SimulationHandler} {opts : RunCallOpts}
  (hbase : ∀ j, ¬ h₁.stateManager.Warm (.address (scanAddress j)))
  (hsets : ∀ j, scanAddress j ∉ h₁.accessListExclusions ∧ scanAddress j ∉ h₁.addressesOnlyStorage)
  (he : h₁.initializationError = none) (ho : h₁.runCallOpts = some opts)
include hbase hsets he ho

omit hsets he ho in
/-- The probe's iteration numbered `k` reads up to the `k`-th account, the first cold one. -/
theorem firstColdFrom_scanned {k : Nat} {h : SimulationHandler} (hk : k < 65536)
    (hI : Scanned h₁ k h) : firstColdFrom h.stateManager.checkpoint 65536 0 = k := by
  have hw : ∀ j < 65536, (h.stateManager.checkpoint.isWarmedAddress (scanAddress j) = true ↔ j < k) :=
    fun j hj => by
      rw [StateManager.isWarmedAddress_iff, StateManager.warm_checkpoint, hI.warm]
      refine ⟨fun hj' => ?_, fun hjk => .inr ⟨j, hjk, rfl⟩⟩
      rcases hj' with hb | ⟨j', hj', heq⟩
      · exact absurd hb (hbase j)
      · rw [scanAddress_inj hj (by omega) (Access.address.inj heq)]; exact hj'
  exact firstColdFrom_eq (fun j hj => (hw j (by omega)).mpr hj)
    (Bool.eq_false_iff.mpr fun h => absurd ((hw k hk).mp h) (lt_irrefl k)) 65536 0 (Nat.zero_le _) hk

/-- The probe's iteration numbered `k` resolves, generates a list with an entry for the `k`-th
account and none for a later one, and leaves the handler at iteration `k + 1`. -/
theorem scanner_iteration {k : Nat} {h : SimulationHandler} (hk : k + 1 < 65536)
    (hI : Scanned h₁ k h) :
    ∃ r L, (accessListIteration Vm.scanner).run h = .ok (r, L) (h.iterated Vm.scanner opts) ∧
      (∃ item ∈ L, item.address = scanAddress k) ∧ (∀ item ∈ L, item.address ≠ scanAddress (k + 1)) ∧
      Scanned h₁ (k + 1) (h.iterated Vm.scanner opts) := by
  have he' : h.initializationError = none := (congrArg Config.initializationError hI.config).trans he
  have ho' : h.runCallOpts = some opts := (congrArg Config.runCallOpts hI.config).trans ho
  have hfirst := firstColdFrom_scanned hbase (by omega) hI
  have hops : ∀ x, (∃ op ∈ (Vm.scanner.runCall opts h.stateManager.checkpoint).ops, op.Warms x) ↔
      ∃ j < k + 1, x = .address (scanAddress j) := fun x => by
    simp only [Vm.scanner, hfirst, List.map_map, List.mem_map, List.mem_range]
    constructor
    · rintro ⟨_, ⟨j, hj, rfl⟩, hw⟩; exact ⟨j, hj, hw⟩
    · rintro ⟨j, hj, hx⟩; exact ⟨_, ⟨j, hj, rfl⟩, hx⟩
  have hhas : ∀ x, (h.stateManager.checkpoint.run (Vm.scanner.runCall opts
      h.stateManager.checkpoint).ops).foldedAccess.Has x ↔
      h₁.stateManager.Warm x ∨ ∃ j < k + 1, x = .address (scanAddress j) := fun x => by
    rw [has_generated, hops, hI.accessed, hI.warm]
    constructor
    · rintro ((hb | ⟨j, hj, rfl⟩) | hj)
      · exact .inl hb
      · exact .inr ⟨j, by omega, rfl⟩
      · exact .inr hj
    · rintro (hb | hj)
      · exact .inl (.inl hb)
      · exact .inr hj
  have hex : h.accessListExclusions = h₁.accessListExclusions :=
    congrArg Config.accessListExclusions hI.config
  have hon : h.addressesOnlyStorage = h₁.addressesOnlyStorage :=
    congrArg Config.addressesOnlyStorage hI.config
  refine ⟨_, _, accessListIteration_of_runCallOpts he' ho' rfl, ⟨⟨scanAddress k, accessedKeys (h.stateManager.checkpoint.run
    (Vm.scanner.runCall opts h.stateManager.checkpoint).ops).foldedAccess (scanAddress k)⟩, ?_, rfl⟩,
    fun item hitem => ?_,
    ⟨hI.config, fun x => ?_, accessed_iterated h Vm.scanner opts, by simp [hI.calls]⟩⟩
  · rw [generated_eq, hex, hon]
    exact mem_generateAccessList_of ((hhas _).mpr (.inr ⟨k, by omega, rfl⟩)) (hsets k).1
      fun hm => absurd hm (hsets k).2
  · rw [generated_eq] at hitem
    intro heq
    rcases (hhas (.address _)).mp (heq ▸ (mem_generateAccessList hitem).1) with hb | ⟨j, hj, hj'⟩
    · exact hbase _ hb
    · exact absurd (scanAddress_inj hk (by omega) (Access.address.inj hj')) (by omega)
  · rw [warm_iterated, hops, hI.accessed, hI.warm]
    constructor
    · rintro ((hb | ⟨j, hj, rfl⟩) | hj)
      · exact .inl hb
      · exact .inr ⟨j, by omega, rfl⟩
      · exact .inr hj
    · rintro (hb | hj)
      · exact .inl (.inl hb)
      · exact .inr hj

/-- From the probe's iteration numbered `k`, compared against a list with no entry for the `k`-th
account, the loop runs all its iterations and resolves with nothing. -/
theorem scanner_loop : ∀ (n k : Nat) (prev : AccessList) (h : SimulationHandler), k + n < 65536 →
    Scanned h₁ k h → (∀ item ∈ prev, item.address ≠ scanAddress k) →
    ∃ h', (accessListLoop Vm.scanner n prev).run h = .ok none h' ∧ h'.invocations.length = k + n
  | 0, k, _, h, _, hI, _ => ⟨h, rfl, hI.calls⟩
  | n + 1, k, prev, h, hk, hI, hprev => by
    obtain ⟨r, L, hit, ⟨item, hitem, haddr⟩, hnext, hI'⟩ :=
      scanner_iteration hbase hsets he ho (by omega) hI
    have hne : areAccessListsSame prev L = false :=
      areAccessListsSame_eq_false_of_mem hitem fun j hj => by rw [haddr]; exact hprev j hj
    rw [accessListLoop_succ, hit]
    dsimp only
    rw [hne, if_neg Bool.false_ne_true]
    obtain ⟨h', hrun, hlen⟩ := scanner_loop n (k + 1) L _ (by omega) hI' hnext
    exact ⟨h', hrun, by rw [hlen]; omega⟩

end Scanner

/-- The loop resolves with `undefined`: a probe reading accounts up to the first cold one makes it
run the VM `MAX_ITERATIONS` times and resolve with nothing. -/
theorem scanner_vm_exhausts_loop :
    (initializeSimulation (fun _ => []) Blockchain.empty Common.berlin Block.genesis
        (callTx 21000 1 none) none).run (SimulationHandler.new 0 StateManager.empty) =
      .ok () initializedCall ∧
    ∃ h₂, (createAccessList Vm.scanner none).run initializedCall = .ok none h₂ ∧
      h₂.invocations.length = MAX_ITERATIONS := by
  refine ⟨rfl, ?_⟩
  obtain ⟨hwarm, hacc⟩ := warmExactly_initialized (fun _ => []) Blockchain.empty Common.berlin
    Block.genesis (callTx 21000 1 none) none 0 StateManager.empty (by decide) _ rfl
  obtain ⟨-, he, ho, -⟩ := initializeSimulation_ready (fun _ => []) Blockchain.empty
    Common.berlin Block.genesis (callTx 21000 1 none) none 0 StateManager.empty (by decide) rfl
  -- Every account the handler knows of before the VM runs starts with a zero byte.
  have hzero : ∀ a ∈ prewarmedAddresses Common.berlin (callTx 21000 1 none) ++
      initializedCall.accessListExclusions ++ initializedCall.addressesOnlyStorage,
      a.buf.head? = some 0 := by decide
  have hscan : ∀ j, scanAddress j ∉ prewarmedAddresses Common.berlin (callTx 21000 1 none) ++
      initializedCall.accessListExclusions ++ initializedCall.addressesOnlyStorage :=
    fun j hm => absurd (hzero _ hm) (by simp [scanAddress])
  obtain ⟨h₂, hrun, hlen⟩ := @scanner_loop initializedCall _
    (fun j hw => hscan j (by simp [(hwarm.address _).mp ((StateManager.isWarmedAddress_iff _ _).mpr hw)]))
    (fun j => ⟨fun hm => hscan j (by simp [hm]), fun hm => hscan j (by simp [hm])⟩) he ho
    MAX_ITERATIONS 0 [] initializedCall (by decide)
    ⟨rfl, fun x => (or_iff_left fun ⟨_, hj, _⟩ => absurd hj (Nat.not_lt_zero _)).symm, hacc, rfl⟩
    nofun
  exact ⟨h₂, hrun, by rw [hlen]; rfl⟩

end Ganache
