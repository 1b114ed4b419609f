import VaultCovenant.Proofs.Batch.Compatibility
import VaultCovenant.Proofs.Recovery.Check
import VaultCovenant.Proofs.Recovery.Triggered
import VaultCovenant.Proofs.Script.Machine
import VaultCovenant.Proofs.Withdrawal

/-!
# Witnesses fit their leaves

The leaf that a witness shows runs over the items below it, and comes to the
opcode that looks at the whole transaction with what that opcode expects:
nothing is left over, nothing is missing, and everything is in its place.

Results:
* `Trigger.Made.stackAt?_vault`, `Withdrawal.stackAt?_build`,
  `Recovery.Made.stackAt?_vaultRecover`: the stack at the opcodes of triggers,
  withdrawals and recoveries.
* `Authorization.Standard.exists_instructions`: what an authorization puts
  into a witness passes its check and is used up by it.
* `witnesses_fit_leaves`: all of them.
-/

namespace VaultCovenant

/-! ## Triggers -/

/-- The stack with which a trigger leaf comes to its last opcode. -/
def Trigger.Spend.vaultStack (s : Trigger.Spend) : List Bytes :=
  [ScriptNumber.encode ((s.position.revault.map fun vout => (vout.toNat : ℤ)).getD noOutput),
    ScriptNumber.encode s.position.trigger.toNat, s.batch.withdrawalHash.bytes,
    ScriptNumber.encode s.vault.policy.spendDelay.toInt]

theorem Policy.runTo_triggerScript {accepts : Bytes → Bytes → Bool} (p : Policy)
    {signature : Bytes} (stack : List Bytes) (h : accepts p.triggerKey.bytes signature = true) :
    Script.runTo accepts Opcode.vault [.push p.triggerKey.bytes, .op Opcode.checkSigVerify,
      .number p.spendDelay.toInt, .op Opcode.vault] (signature :: stack) =
      some (ScriptNumber.encode p.spendDelay.toInt :: stack) := by
  rw [Script.runTo_push, Script.runTo_cons (by decide) (Instruction.step_checkSigVerify h),
    Script.runTo_cons (Instruction.number_ne_op _ (by decide)) (Instruction.step_number _)]
  exact Script.runTo_here

theorem Trigger.Made.stackAt?_vault {batches : List Batch} {fee : Option Coin}
    {fundings : List Funding} {change : Option TxOut} {witnesses : List (List Bytes)} {t : Trigger}
    (h : Made batches fee .none fundings change witnesses t) (check : SignatureCheck) {i : ℕ}
    {s : Spend} (hs : (spends t.batches t.positions)[i]? = some s) :
    t.tx.stackAt? check (prevouts fundings fee) i Opcode.vault = some s.vaultStack := by
  rw [h.batches_eq, h.positions_eq] at hs
  obtain ⟨f, signature, control, -, -, hsign, -, hinput⟩ := h.input_spend hs
  -- the signature is one of the finished transaction
  rw [← Transaction.signScriptPath_withWitnesses _ witnesses, ← h.tx_eq] at hsign
  have hwitness : witnessItems .none s signature control =
      [ScriptNumber.encode ((s.position.revault.map fun vout => (vout.toNat : ℤ)).getD noOutput),
        ScriptNumber.encode s.position.trigger.toNat, s.batch.withdrawalHash.bytes, signature] ++
      [s.vault.policy.triggerScript.bytes, control.bytes] := by
    show [_, ScriptNumber.encode (_ + 0), _, _, _, _] = _
    rw [Int.add_zero]
    rfl
  exact Transaction.stackAt?_eq hinput hwitness
    (fun j hj => (s.vault.policy.short_triggerScript j hj).sized)
    (s.vault.policy.runTo_triggerScript _ (check.accepts_signed hsign))

/-- The one spend of a trigger of one vault that returns an amount. -/
theorem Trigger.spends_singleton {v : Vault} {targets : List TxOut} {amount : Sats} {b : Batch}
    {t : Trigger} (hb : Batch.build [v] targets (some amount) .none = .ok b)
    (ht : build [b] none .none = .ok t) :
    (spends t.batches t.positions)[0]? = some ⟨v, b, ⟨0, some 1⟩⟩ := by
  obtain ⟨first, total, hmade⟩ := Batch.build_eq_ok hb
  obtain ⟨fundings, change, witnesses, htmade⟩ := build_eq_ok ht
  obtain rfl : none = change := Except.ok.inj htmade.change_eq
  have hrevault : b.revaultOutput = some ⟨amount, first.policy.vaultSpk⟩ :=
    (Except.ok.inj hmade.revault_eq).symm
  rw [htmade.batches_eq, htmade.positions_eq, positionsFrom, hrevault]
  simp [spends, hmade.members_eq]

/-! ## Withdrawals -/

/-- What a withdrawal shows is the withdraw leaf of its batch, whatever the
faults, and no items below it. -/
theorem Withdrawal.stackAt?_eq {members : List Vault} {targets : List TxOut}
    {revault : Option Sats} {shaping faults : FaultSet} {first : Vault} {total : Sats} {b : Batch}
    {o : Outpoint} {tx : Transaction} {code : Opcode} {stack : List Bytes}
    (hmade : Batch.Made members targets revault shaping first total b)
    (hbuild : build o b faults = .ok tx) (check : SignatureCheck) (spent : List TxOut)
    (hrun : ∀ accepts, Script.runTo accepts code (Batch.withdrawInstructions b.spendDelay
      b.withdrawalHash (Batch.withdrawOpcode shaping)) [] = some stack) :
    tx.stackAt? check spent 0 code = some stack.reverse := by
  obtain ⟨i, c, hinputs, -, -, hwitness⟩ := build_input hmade hbuild
  have hinput : tx.inputs[0]? = some i := by rw [hinputs]; rfl
  rw [hmade.withdrawScript_eq, Batch.withdrawScriptUnder_eq, ← List.nil_append [_, _]] at hwitness
  have hshort := Batch.short_withdrawInstructions b.spendDelay b.withdrawalHash
    (Batch.short_withdrawOpcode shaping)
  exact Transaction.stackAt?_eq hinput hwitness (fun j hj => (hshort j hj).sized) (hrun _)

/-- Any withdrawal comes to the timelock with nothing but the delay of its
batch. -/
theorem Withdrawal.stackAt?_checkSequenceVerify {members : List Vault} {targets : List TxOut}
    {revault : Option Sats} {shaping faults : FaultSet} {first : Vault} {total : Sats} {b : Batch}
    {o : Outpoint} {tx : Transaction}
    (hmade : Batch.Made members targets revault shaping first total b)
    (hbuild : build o b faults = .ok tx) (check : SignatureCheck) (spent : List TxOut) :
    tx.stackAt? check spent 0 Opcode.checkSequenceVerify =
      some [ScriptNumber.encode b.spendDelay.toInt] := by
  have hrun : ∀ accepts, Script.runTo accepts Opcode.checkSequenceVerify
      (Batch.withdrawInstructions b.spendDelay b.withdrawalHash (Batch.withdrawOpcode shaping)) [] =
      some [ScriptNumber.encode b.spendDelay.toInt] := by
    intro accepts
    rw [Batch.withdrawInstructions, Script.runTo_cons
      (Instruction.number_ne_op _ (by decide)) (Instruction.step_number _)]
    exact Script.runTo_here
  exact stackAt?_eq hmade hbuild check spent hrun

theorem Withdrawal.stackAt?_build {members : List Vault} {targets : List TxOut}
    {revault : Option Sats} {b : Batch} {o : Outpoint} {tx : Transaction}
    (hbatch : Batch.build members targets revault .none = .ok b)
    (hbuild : build o b .none = .ok tx) (check : SignatureCheck) (spent : List TxOut) :
    tx.stackAt? check spent 0 Opcode.checkSequenceVerify =
        some [ScriptNumber.encode b.spendDelay.toInt] ∧
      tx.stackAt? check spent 0 Opcode.checkTemplateVerify = some [b.withdrawalHash.bytes] := by
  obtain ⟨first, total, hmade⟩ := Batch.build_eq_ok hbatch
  have hrun : ∀ accepts, Script.runTo accepts Opcode.checkTemplateVerify
      (Batch.withdrawInstructions b.spendDelay b.withdrawalHash Opcode.checkTemplateVerify) [] =
      some [b.withdrawalHash.bytes] := by
    intro accepts
    rw [Batch.withdrawInstructions,
      Script.runTo_cons (Instruction.number_ne_op _ (by decide)) (Instruction.step_number _),
      Script.runTo_cons (by decide) Instruction.step_checkSequenceVerify,
      Script.runTo_cons (by decide) (Instruction.step_drop _), Script.runTo_push]
    exact Script.runTo_here
  exact ⟨stackAt?_checkSequenceVerify hmade hbuild check spent,
    stackAt?_eq hmade hbuild check spent hrun⟩

/-! ## Recoveries -/

/-- The authorizations that are made from scalars: none, by a key, and by a
key and the preimage of a digest. -/
inductive Authorization.Standard : Authorization → Prop
  | anyone : Standard .anyone
  | key {scalar : UInt64} {auth : Authorization} : Authorization.key scalar = .ok auth →
      Standard auth
  | hashLocked {scalar : UInt64} {preimage : Bytes} {auth : Authorization} :
      Authorization.hashLocked scalar preimage = .ok auth → Standard auth

/-- The instructions of a signature check. -/
def Authorization.signatureInstructions (secret : SecretKey) : List Instruction :=
  [.push secret.xOnly.bytes, .op Opcode.checkSigVerify]

theorem Authorization.run_signatureInstructions {accepts : Bytes → Bytes → Bool}
    {secret : SecretKey} {signature : Bytes} (stack : List Bytes)
    (h : accepts secret.xOnly.bytes signature = true) :
    Script.run accepts (signatureInstructions secret) (signature :: stack) = some stack := by
  rw [signatureInstructions, Script.run_push,
    Script.run_cons (Instruction.step_checkSigVerify h)]
  rfl

theorem Authorization.short_signatureInstructions (secret : SecretKey) :
    ∀ i ∈ signatureInstructions secret, i.Short ∧ i ≠ .op Opcode.vaultRecover := by
  have hcheck : 0x4e < Opcode.checkSigVerify.toNat := by decide
  simp only [signatureInstructions, List.forall_mem_cons]
  exact ⟨⟨Instruction.short_push_digest _, nofun⟩, ⟨hcheck, by decide⟩, by simp⟩

/-- What an authorization puts into a witness passes its check and is used up
by it, whatever lies below. -/
theorem Authorization.Standard.exists_instructions {s : Recovery.Source}
    (h : s.authorization.Standard) :
    ∃ is, s.authorization.script = Script.ofInstructions is ∧
      (∀ i ∈ is, i.Short ∧ i ≠ .op Opcode.vaultRecover) ∧
      ∀ (check : SignatureCheck) {tx : Transaction} {spent : List TxOut} {index : ℕ}
        {passing : List Bytes} (stack : List Bytes),
        Recovery.Passes tx spent .none index s passing →
        Script.run (check.accepts tx index spent (leafHash s.recoverScript)) is
          (passing.reverse ++ stack) = some stack := by
  generalize hauth : s.authorization = auth at h
  unfold Recovery.Passes
  rw [hauth]
  cases h with
  | anyone =>
    refine ⟨[], rfl, by simp, ?_⟩
    rintro check tx spent index passing stack (⟨-, rfl⟩ | ⟨_, _, hsigner, -⟩)
    · rfl
    · cases hsigner
  | key hkey =>
    obtain ⟨secret, -, rfl⟩ := map_eq_ok_iff.mp hkey
    refine ⟨signatureInstructions secret, rfl, short_signatureInstructions secret, ?_⟩
    rintro check tx spent index passing stack (⟨hsigner, -⟩ | ⟨_, signature, hsigner, hsign, rfl⟩)
    · cases hsigner
    · cases hsigner
      exact run_signatureInstructions stack (check.accepts_signed hsign)
  | @hashLocked scalar preimage _ hlocked =>
    obtain ⟨secret, -, hlocked⟩ := bind_eq_ok_iff.mp hlocked
    cases hlocked
    have hhash : 0x4e < Opcode.hashSha256.toNat := by decide
    have hequal : 0x4e < Opcode.equalVerify.toNat := by decide
    refine ⟨.op Opcode.hashSha256 :: .push (sha256 preimage).bytes :: .op Opcode.equalVerify ::
      signatureInstructions secret, rfl, ?_, ?_⟩
    · simp only [List.forall_mem_cons]
      exact ⟨⟨hhash, by decide⟩, ⟨Instruction.short_push_digest _, nofun⟩, ⟨hequal, by decide⟩,
        short_signatureInstructions secret⟩
    · rintro check tx spent index passing stack
        (⟨hsigner, -⟩ | ⟨_, signature, hsigner, hsign, rfl⟩)
      · cases hsigner
      · cases hsigner
        -- the preimage lies on top of the signature
        show Script.run _ (_ :: _ :: _ :: signatureInstructions secret)
          (preimage :: signature :: stack) = _
        rw [Script.run_cons (Instruction.step_hashSha256 _), Script.run_push,
          Script.run_cons (Instruction.step_equalVerify _)]
        exact run_signatureInstructions stack (check.accepts_signed hsign)

theorem Recovery.Made.stackAt?_vaultRecover {r : RecoveryRequest} {sources : List Source}
    {swept : List TxOut} {positions : List ℕ} {change : Option TxOut}
    {witnesses : List (List Bytes)} {t : Recovery} {i : ℕ} {s : Source} {p : Policy}
    (h : Made r sources swept positions change witnesses t) (hfaults : r.faults = .none)
    (hs : sources[i]? = some s) (hp : s.OfPolicy p) (hstandard : s.authorization.Standard)
    (check : SignatureCheck) :
    t.tx.stackAt? check (prevouts r sources) i Opcode.vaultRecover =
      some [ScriptNumber.encode (Recovery.creditedAt change swept s),
        (recoveryCommitment s.recoverySpk).bytes] := by
  obtain ⟨passing, hpasses, hinput⟩ := h.input_creditedAt hs
  rw [hfaults] at hpasses hinput
  obtain ⟨is, hscript, hshort, hrun⟩ := hstandard.exists_instructions
  have hleaf : s.recoverScript = Script.ofInstructions
      (is ++ [.push (recoveryCommitment s.recoverySpk).bytes, .op Opcode.vaultRecover]) := by
    rw [hp.recoverScript_eq, hp.recoverySpk_eq, Script.ofInstructions_append, ← hscript,
      hp.authorization_eq]
    rfl
  -- signatures are made before the witnesses are attached
  have hpasses' : Passes t.tx (prevouts r sources) .none i s passing := by
    refine hpasses.imp_right ?_
    rintro ⟨secret, signature, hsigner, hsign, hpassing⟩
    refine ⟨secret, signature, hsigner, ?_, hpassing⟩
    rw [h.eq, assembled, Transaction.signScriptPath_withWitnesses, hfaults]
    exact hsign
  have hwitness : witnessItems .none s (Recovery.creditedAt change swept s) passing =
      (ScriptNumber.encode (Recovery.creditedAt change swept s) :: passing) ++
        [(Script.ofInstructions (is ++
          [.push (recoveryCommitment s.recoverySpk).bytes, .op Opcode.vaultRecover])).bytes,
          s.control.bytes] := by
    rw [← hleaf]
    show ScriptNumber.encode (_ + 0) :: passing ++ _ = _
    rw [Int.add_zero]
  have hpush : (Instruction.push (recoveryCommitment s.recoverySpk).bytes).Short :=
    Instruction.short_push_digest _
  have hop : (Instruction.op Opcode.vaultRecover).Short := by
    show 0x4e < Opcode.vaultRecover.toNat
    decide
  have hsized : ∀ j ∈ is ++ [.push (recoveryCommitment s.recoverySpk).bytes,
      .op Opcode.vaultRecover], j.Sized := by
    rw [List.forall_mem_append]
    exact ⟨fun j hj => (hshort j hj).1.sized, by simp [hpush.sized, hop.sized]⟩
  have hreached := hrun check [ScriptNumber.encode (Recovery.creditedAt change swept s)] hpasses'
  have hstack : Script.runTo (check.accepts t.tx i (prevouts r sources) (leafHash s.recoverScript))
      Opcode.vaultRecover
      (is ++ [.push (recoveryCommitment s.recoverySpk).bytes, .op Opcode.vaultRecover])
      (ScriptNumber.encode (Recovery.creditedAt change swept s) :: passing).reverse =
      some [(recoveryCommitment s.recoverySpk).bytes,
        ScriptNumber.encode (Recovery.creditedAt change swept s)] := by
    rw [List.reverse_cons, Script.runTo_append (fun j hj => (hshort j hj).2) hreached,
      Script.runTo_push]
    exact Script.runTo_here
  rw [hleaf] at hstack
  exact Transaction.stackAt?_eq hinput hwitness hsized hstack

/-! ## All leaves -/

/-- Every leaf runs over the other items of its witness up to the opcode that
looks at the transaction, whatever check of signatures accepts those that the
holders of the keys make. A trigger leaf comes there with exactly the position
of what returns to the vault or minus one, the position of the trigger output,
the template hash and the delay of the vault; a withdraw leaf comes to the
timelock with the delay and to the template check with the template hash; and
a recover leaf behind a standard authorization comes there with the position
of an output and the commitment to that output's script. -/
theorem witnesses_fit_leaves (check : SignatureCheck) :
    (∀ batches fee t, Trigger.build batches fee .none = .ok t →
      ∃ fundings, Vault.fundings (batches.flatMap Batch.members) = .ok fundings ∧
        t.tx.inputs.map (·.previousOutput) =
          fundings.map Funding.outpoint ++ (fee.map (·.input.previousOutput)).toList ∧
        (Trigger.spends t.batches t.positions).map Trigger.Spend.vault =
          batches.flatMap Batch.members ∧
        ∀ (i : ℕ) (s : Trigger.Spend), (Trigger.spends t.batches t.positions)[i]? = some s →
          t.tx.stackAt? check (Trigger.prevouts fundings fee) i Opcode.vault =
            some [ScriptNumber.encode
                ((s.position.revault.map fun vout => (vout.toNat : ℤ)).getD (-1)),
              ScriptNumber.encode s.position.trigger.toNat, s.batch.withdrawalHash.bytes,
              ScriptNumber.encode s.vault.policy.spendDelay.toInt]) ∧
    (∀ members targets revault b o tx, Batch.build members targets revault .none = .ok b →
      Withdrawal.build o b .none = .ok tx → ∀ spent,
        tx.stackAt? check spent 0 Opcode.checkSequenceVerify =
          some [ScriptNumber.encode b.spendDelay.toInt] ∧
        tx.stackAt? check spent 0 Opcode.checkTemplateVerify = some [b.withdrawalHash.bytes]) ∧
    ∀ r recovery, r.faults = .none →
      (∀ t, r.trigger = some t → ∀ b ∈ t.batches, b.KeepsRecoverLeaf) →
      Recovery.build r = .ok recovery →
      ∃ sources, Recovery.distinctSources r = .ok sources ∧
        recovery.tx.inputs.map (·.previousOutput) =
          sources.map (·.outpoint) ++ (r.fee.map (·.input.previousOutput)).toList ∧
        ∀ (i : ℕ) (s : Recovery.Source), sources[i]? = some s → s.authorization.Standard →
          ∃ (v : ℕ) (out : TxOut), recovery.tx.outputs[v]? = some out ∧
            recovery.tx.stackAt? check (Recovery.prevouts r sources) i Opcode.vaultRecover =
              some [ScriptNumber.encode v, (recoveryCommitment out.scriptPubkey).bytes] := by
  refine ⟨?_, ?_, ?_⟩
  · intro batches fee t h
    obtain ⟨fundings, change, witnesses, hmade⟩ := Trigger.build_eq_ok h
    refine ⟨fundings, hmade.fundings_eq, hmade.previousOutputs, ?_,
      fun i s hs => hmade.stackAt?_vault check hs⟩
    rw [hmade.batches_eq, hmade.positions_eq, Trigger.map_vault_spends]
  · intro members targets revault b o tx hbatch hbuild spent
    exact Withdrawal.stackAt?_build hbatch hbuild check spent
  · intro r recovery hfaults hkeeps h
    obtain ⟨sources, swept, positions, change, witnesses, hmade⟩ := Recovery.build_eq_ok h
    refine ⟨sources, hmade.sources_eq, hmade.previousOutputs, ?_⟩
    intro i s hs hstandard
    have hmem := List.mem_iff_getElem?.mpr ⟨i, hs⟩
    obtain ⟨p, hp⟩ := Recovery.ofPolicy_of_mem hmade.sources_eq hkeeps hmem
    obtain ⟨_, out, -, -, hout, hspk⟩ := hmade.creditedAt hfaults hmem
    refine ⟨_, out, hout, ?_⟩
    rw [hspk]
    exact hmade.stackAt?_vaultRecover hfaults hs hp hstandard check

/-- A vault behind a key and a preimage of which a part is triggered. The trigger
leaf comes to its last opcode with the positions one and zero and with the
default delay of ten, as bytes; so does the withdraw leaf with that delay. A
recovery from the trigger output shows the signature and the preimage, and
the recover leaf uses up both. -/
theorem witnesses_fit_leaves_hashLocked :
    ∃ (auth : Authorization) (p : Policy) (v : Vault) (b : Batch) (t : Trigger) (o : Outpoint)
      (f : Funding) (withdrawal : Transaction) (recovery : Recovery) (spent : List TxOut)
      (vout : ℕ) (out : TxOut),
      Authorization.hashLocked 5 [1, 2, 3] = .ok auth ∧
      Policy.ofParams { authorization := auth } = .ok p ∧ v.policy = p ∧
      Batch.build [v] [⟨700000, Script.anyone⟩] (some 200000) .none = .ok b ∧
      Trigger.build [b] none .none = .ok t ∧
      t.tx.stackAt? .strict [f.output] 0 Opcode.vault =
        some [[1], [], b.withdrawalHash.bytes, [10]] ∧
      Withdrawal.build o b .none = .ok withdrawal ∧
      withdrawal.stackAt? .strict [b.triggerOutput] 0 Opcode.checkSequenceVerify = some [[10]] ∧
      withdrawal.stackAt? .strict [b.triggerOutput] 0 Opcode.checkTemplateVerify =
        some [b.withdrawalHash.bytes] ∧
      Recovery.build { sources := [(v, o)], trigger := some t } = .ok recovery ∧
      recovery.tx.outputs[vout]? = some out ∧
      recovery.tx.stackAt? .strict spent 0 Opcode.vaultRecover =
        some [ScriptNumber.encode vout, (recoveryCommitment out.scriptPubkey).bytes] := by
  obtain ⟨secret, hsecret⟩ := SecretKey.ofScalar_isOk (show (5 : UInt64) ≠ 0 by decide)
  obtain ⟨auth, hauth⟩ : ∃ auth, Authorization.hashLocked 5 [1, 2, 3] = .ok auth :=
    ⟨_, bind_eq_ok_iff.mpr ⟨secret, hsecret, rfl⟩⟩
  obtain ⟨-, p, v, f, b, t, o, -, hp, hvp, -, hvf, -, hb, ht, hbatches, -, hrecovers⟩ :=
    Session.exists_triggered { authorization := auth } (show (2 : UInt64) ≠ 0 by decide)
      (show (3 : UInt64) ≠ 0 by decide)
  obtain ⟨hdelay, hauthorization⟩ := Policy.ofParams_eq_ok hp
  obtain ⟨first, total, hmade⟩ := Batch.build_eq_ok hb
  obtain rfl : v = first := Option.some.inj hmade.first_eq
  obtain ⟨withdrawal, hwithdrawal⟩ := Withdrawal.build_isOk o .none hmade
  obtain ⟨recovery, hrecovery⟩ := hrecovers none none false .none
    (optionMapM_none_eq_ok_iff.mpr rfl)
  obtain ⟨htriggers, hwithdrawals, hrecoveries⟩ := witnesses_fit_leaves .strict
  have hten : ScriptNumber.encode (10 : Int64).toInt = [10] := by
    show ScriptNumber.encode 10 = [10]
    simp [ScriptNumber.encode, ScriptNumber.magnitude]
  have htrigger : t.tx.stackAt? .strict [f.output] 0 Opcode.vault =
      some [[1], [], b.withdrawalHash.bytes, [10]] := by
    obtain ⟨fundings, hfundings, -, -, hvault⟩ := htriggers [b] none t ht
    rw [List.flatMap_singleton, hmade.members_eq,
      Vault.fundings_eq_ok_iff.mpr (.cons hvf .nil)] at hfundings
    cases hfundings
    have hstack := hvault 0 _ (Trigger.spends_singleton hb ht)
    rw [hvp, hdelay, hten] at hstack
    refine hstack.trans ?_
    simp [ScriptNumber.encode, ScriptNumber.magnitude]
  obtain ⟨hsequence, htemplate⟩ :=
    hwithdrawals [v] _ _ b o withdrawal hb hwithdrawal [b.triggerOutput]
  rw [hmade.spendDelay_eq, hvp, hdelay, hten] at hsequence
  have hkeeps : b.KeepsRecoverLeaf := ⟨_, _, _, _, hb, rfl, rfl⟩
  have hkept : ∀ u, some t = some u → ∀ c ∈ u.batches, c.KeepsRecoverLeaf := by
    simpa [hbatches] using hkeeps
  obtain ⟨sources, hsources, -, hrecover⟩ := hrecoveries
    { sources := [(v, o)], trigger := some t } recovery rfl hkept hrecovery
  obtain ⟨s, hsource, rfl⟩ := Recovery.distinctSources_singleton_eq_ok rfl hsources
  -- the source is behind the authorization of the only member
  have hstandard : s.authorization.Standard := by
    obtain ⟨w, hw, hmember⟩ := Recovery.source_ofPolicy hsource hkept
    obtain rfl : w = v := by
      rcases hmember with rfl | ⟨_, c, ⟨⟩, hc, hcanonical⟩
      · rfl
      · rw [hbatches, List.mem_singleton] at hc
        rw [hc, hmade.canonical] at hcanonical
        exact (Except.ok.inj hcanonical).symm
    rw [hw.authorization_eq, hvp, hauthorization]
    exact .hashLocked hauth
  obtain ⟨vout, out, hout, hstack⟩ := hrecover 0 s rfl hstandard
  exact ⟨auth, p, v, b, t, o, f, withdrawal, recovery, _, vout, out, hauth, hp, hvp, hb, ht,
    htrigger, hwithdrawal, hsequence, htemplate, hrecovery, hout, hstack⟩

end VaultCovenant
