import VaultCovenant.Proofs.Recovery.Build
import VaultCovenant.Proofs.Trigger.Build

/-!
# Signatures on what is returned

Signatures are made before any witness is attached, over the outputs that the
inputs spend. They are signatures of the finished transaction all the same.

Results:
* `Trigger.Made.holdsSignature`, `Recovery.Made.holdsSignature`: the signature
  in a witness is one of the transaction as it is returned.
* `signed_as_returned`: no signature in a trigger or a recovery is stale, and
  none could not be made.
-/

namespace VaultCovenant

/-- The witness at a place shows a leaf, and among the items below it stands
the signature that a key makes, for that place and that leaf, of the
transaction as it is. -/
def Transaction.HoldsSignature (tx : Transaction) (spent : List TxOut) (secret : SecretKey)
    (leaf : Script) (i : ℕ) (depth : ℕ) (above : List Bytes) : Prop :=
  ∃ input below signature control,
    tx.inputs[i]? = some input ∧ below.length = depth ∧
    input.witness = below ++ signature :: above ++ [leaf.bytes, control] ∧
    signScriptPath tx i spent (leafHash leaf) secret = .ok signature

/-! ## Triggers -/

theorem Trigger.Made.holdsSignature {batches : List Batch} {fee : Option Coin} {faults : FaultSet}
    {fundings : List Funding} {change : Option TxOut} {witnesses : List (List Bytes)} {t : Trigger}
    (h : Made batches fee faults fundings change witnesses t) {i : ℕ} {v : Vault}
    (hv : (batches.flatMap Batch.members)[i]? = some v) :
    t.tx.HoldsSignature (prevouts fundings fee) (signer faults v) v.policy.triggerScript i 3
      [] := by
  obtain ⟨f, s, signature, control, -, -, rfl, hsign, -, hinput⟩ := h.input hv
  refine ⟨_, [_, _, _], signature, control.bytes, hinput, rfl, rfl, ?_⟩
  rw [h.tx_eq, Transaction.signScriptPath_withWitnesses]
  exact hsign

/-! ## Recoveries -/

section Recoveries

variable {r : RecoveryRequest} {sources : List Recovery.Source} {swept : List TxOut}
  {positions : List ℕ} {change : Option TxOut} {witnesses : List (List Bytes)} {t : Recovery}
  {i : ℕ} {s : Recovery.Source}

theorem Recovery.Made.holdsSignature (h : Made r sources swept positions change witnesses t)
    (hs : sources[i]? = some s) {secret : SecretKey}
    (hsigner : s.authorization.signer r.faults = some secret) :
    t.tx.HoldsSignature (prevouts r sources) secret s.recoverScript i 1 s.authorization.stack := by
  obtain ⟨position, passing, hpasses, hinput⟩ := h.input hs
  rcases hpasses with ⟨hnone, -⟩ | ⟨secret', signature, hsome, hsign, rfl⟩
  · rw [hsigner] at hnone
    cases hnone
  · rw [hsigner] at hsome
    cases hsome
    refine ⟨_, [_], signature, s.control.bytes, hinput, rfl, rfl, ?_⟩
    rw [h.signScriptPath_eq]
    exact hsign

/-- Where nothing is asked for, the witness shows a position and the leaf. -/
theorem Recovery.Made.holdsNone (h : Made r sources swept positions change witnesses t)
    (hs : sources[i]? = some s) (hsigner : s.authorization.signer r.faults = none) :
    ∃ input position control, t.tx.inputs[i]? = some input ∧
      input.witness = [position, s.recoverScript.bytes, control] := by
  obtain ⟨position, passing, hpasses, hinput⟩ := h.input hs
  rcases hpasses with ⟨-, rfl⟩ | ⟨secret, signature, hsome, -⟩
  · exact ⟨_, _, s.control.bytes, hinput, rfl⟩
  · rw [hsigner] at hsome
    cases hsome

end Recoveries

/-! ## No signature is refused -/

/-- The failure is not that of a key or a signature. -/
def VaultError.SparesSigning (e : VaultError) : Prop := ∀ text, e ≠ .cryptography text

theorem Coin.sparesSigning_of_change {fee : Option Coin} {e : VaultError}
    (h : fee.mapM Coin.change = .error e) : e.SparesSigning := by
  obtain ⟨coin, -, h⟩ := optionMapM_eq_error_iff.mp h
  rcases bind_eq_error_iff.mp h with h | ⟨_, -, h⟩
  · unfold Sats.spend at h
    split at h <;> cases h
    rintro text ⟨⟩
  · cases h

theorem Trigger.sparesSigning_of_build {batches : List Batch} {fee : Option Coin}
    {faults : FaultSet} {e : VaultError} (h : build batches fee faults = .error e) :
    e.SparesSigning := by
  rcases build_eq_error h with h | h
  · obtain ⟨v, -, hv⟩ := mapM_error h
    rw [Vault.funding_eq_error hv]
    rintro text ⟨⟩
  · exact Coin.sparesSigning_of_change h

namespace Recovery

theorem sparesSigning_of_source {trigger : Option Trigger} {v : Vault} {o : Outpoint}
    {e : VaultError} (h : source trigger v o = .error e) : e.SparesSigning := by
  unfold source at h
  split at h
  · rw [Vault.funding_eq_error (vaultSource_eq_error h)]
    rintro text ⟨⟩
  · rcases triggerSource_eq_error h with rfl | ⟨t, i, b, -, -, h | h | h | h⟩
    · rintro text ⟨⟩
    · unfold Trigger.outpoint at h
      split at h <;> cases h
      rintro text ⟨⟩
    · unfold Batch.canonical at h
      split at h <;> cases h
      rintro text ⟨⟩
    · obtain ⟨_, rfl⟩ := TaprootTree.leafScript_eq_error h
      rintro text ⟨⟩
    · obtain ⟨_, rfl⟩ := TaprootTree.controlBlock_eq_error h
      rintro text ⟨⟩

theorem sparesSigning_of_build {r : RecoveryRequest} {e : VaultError}
    (h : build r = .error (.error e)) : e.SparesSigning := by
  rcases build_eq_error h with ⟨cause, h, hcause⟩ | ⟨-, he⟩ | he | ⟨cause, h, hcause⟩
  · cases hcause
    rcases bind_eq_error_iff.mp h with h | ⟨resolved, -, h⟩
    · obtain ⟨p, -, hp⟩ := mapM_error h
      exact sparesSigning_of_source hp
    · cases h
  · cases he
    rintro text ⟨⟩
  · cases he
  · cases hcause
    exact Coin.sparesSigning_of_change h

end Recovery

/-! ## Nothing signed is stale -/

/-- Every signature in a trigger or a recovery is one of the transaction as it
is returned, over the outputs that its inputs spend in order, made for its own
place and the leaf that its witness shows. No signature fails to be made, and
attaching witnesses changes neither ids nor signatures. -/
theorem signed_as_returned :
    (∀ batches fee faults t, Trigger.build batches fee faults = .ok t →
      ∃ fundings, Vault.fundings (batches.flatMap Batch.members) = .ok fundings ∧
        t.tx.inputs.map (·.previousOutput) =
          fundings.map Funding.outpoint ++ (fee.map (·.input.previousOutput)).toList ∧
        (Trigger.prevouts fundings fee).length = t.tx.inputs.length ∧
        ∀ (i : ℕ) (v : Vault), (batches.flatMap Batch.members)[i]? = some v →
          t.tx.HoldsSignature (Trigger.prevouts fundings fee) (Trigger.signer faults v)
            v.policy.triggerScript i 3 []) ∧
    (∀ r t, Recovery.build r = .ok t →
      ∃ sources, Recovery.distinctSources r = .ok sources ∧
        sources.map (·.outpoint) = (r.sources.map Prod.snd).eraseDups ∧
        t.tx.inputs.map (·.previousOutput) =
          sources.map (·.outpoint) ++ (r.fee.map (·.input.previousOutput)).toList ∧
        (Recovery.prevouts r sources).length = t.tx.inputs.length ∧
        ∀ (i : ℕ) (s : Recovery.Source), sources[i]? = some s →
          match s.authorization.signer r.faults with
          | none => ∃ input position control, t.tx.inputs[i]? = some input ∧
              input.witness = [position, s.recoverScript.bytes, control]
          | some secret => t.tx.HoldsSignature (Recovery.prevouts r sources) secret
              s.recoverScript i 1 s.authorization.stack) ∧
    (∀ batches fee faults text,
      Trigger.build batches fee faults ≠ .error (.cryptography text)) ∧
    (∀ r text, Recovery.build r ≠ .error (.error (.cryptography text))) ∧
    ∀ (tx : Transaction) (ws : List (List Bytes)), (tx.withWitnesses ws).txid = tx.txid ∧
      ∀ i spent leaf secret, signScriptPath (tx.withWitnesses ws) i spent leaf secret =
        signScriptPath tx i spent leaf secret := by
  refine ⟨?_, ?_, ?_, ?_, ?_⟩
  · intro batches fee faults t h
    obtain ⟨fundings, change, witnesses, hmade⟩ := Trigger.build_eq_ok h
    exact ⟨fundings, hmade.fundings_eq, hmade.previousOutputs, hmade.length_inputs,
      fun i v hv => hmade.holdsSignature hv⟩
  · intro r t h
    obtain ⟨sources, swept, positions, change, witnesses, hmade⟩ := Recovery.build_eq_ok h
    refine ⟨sources, hmade.sources_eq, Recovery.map_outpoint_distinctSources hmade.sources_eq,
      hmade.previousOutputs, hmade.length_inputs, ?_⟩
    intro i s hs
    split
    · exact hmade.holdsNone hs ‹_›
    · exact hmade.holdsSignature hs ‹_›
  · intro batches fee faults text h
    exact Trigger.sparesSigning_of_build h text rfl
  · intro r text h
    exact Recovery.sparesSigning_of_build h text rfl
  · intro tx ws
    exact ⟨tx.withWitnesses_txid ws, fun i spent leaf secret =>
      tx.signScriptPath_withWitnesses ws i spent leaf secret⟩

/-- A vault with an authorization is triggered with a wrong key and recovered;
a coin pays for either. -/
theorem signed_as_returned_with_coin :
    ∃ (v : Vault) (f : Funding) (b : Batch) (coin : Coin) (secret : SecretKey) (t : Trigger)
      (recovery : Recovery),
      v.funding = .ok f ∧ v.policy.authorization = .keySignature secret ∧
      Batch.build [v] [] none .none = .ok b ∧
      Trigger.build [b] (some coin) (.only .triggerWrongKey) = .ok t ∧
      Recovery.build { sources := [(v, f.outpoint)], fee := some coin, anchor := true } =
        .ok recovery ∧
      t.tx.HoldsSignature [f.output, coin.spent] Trigger.forgingSecret v.policy.triggerScript
        0 3 [] ∧
      recovery.tx.HoldsSignature [f.output, coin.spent] secret v.policy.recoverScript 0 1 [] := by
  obtain ⟨secret, -⟩ := SecretKey.ofScalar_isOk (show (5 : UInt64) ≠ 0 by decide)
  obtain ⟨policy, hauth⟩ : ∃ p : Policy, p.authorization = .keySignature secret :=
    ⟨⟨.nothingUpMySleeve, secret, 10, .keySignature secret, false⟩, rfl⟩
  obtain ⟨v, f, -, hpolicy, hf, -, hamount, -⟩ := Vault.exists_funded 7 policy .null 990000
  obtain ⟨coin, change, hchange⟩ : ∃ coin change, (some coin).mapM Coin.change = .ok change :=
    ⟨⟨TxIn.spending .null, ⟨50000, Script.anyone⟩⟩, some ⟨40000, Script.anyone⟩, by decide⟩
  obtain ⟨b, hb⟩ := Batch.build_isOk [] none (Vault.total_singleton hf)
    (show _ = Except.ok f.amount by rw [hamount]; decide)
  obtain ⟨first, total, hbmade⟩ := Batch.build_eq_ok hb
  have hmembers : [b].flatMap Batch.members = [v] := by
    rw [List.flatMap_cons, List.flatMap_nil, List.append_nil, hbmade.members_eq]
  have hfundings : Vault.fundings ([b].flatMap Batch.members) = .ok [f] := by
    rw [hmembers, Vault.fundings_eq_ok_iff]
    exact .cons hf .nil
  obtain ⟨t, ht⟩ := Trigger.build_isOk (.only .triggerWrongKey) hfundings hchange
  obtain ⟨c, hc⟩ := v.policy.controlBlock_recover_isOk
  have hsource : Recovery.source none v f.outpoint = .ok ⟨[v.id], f.outpoint, f.output,
      v.policy.recoverySpk, v.policy.recoverScript, c, v.policy.authorization⟩ := by
    unfold Recovery.source
    rw [if_pos (Vault.funding_eq_ok_iff.mp hf).1]
    exact Recovery.vaultSource_eq_ok_iff.mpr ⟨f, c, hf, hc, rfl⟩
  obtain ⟨recovery, hrecovery⟩ := Recovery.build_singleton_isOk
    (r := { sources := [(v, f.outpoint)], fee := some coin, anchor := true }) rfl hsource hchange
  obtain ⟨htriggers, hrecoveries, -⟩ := signed_as_returned
  obtain ⟨fundings, hfundings', -, -, hsigned⟩ := htriggers _ _ _ t ht
  obtain ⟨sources, hsources', -, -, -, hsigned'⟩ := hrecoveries _ recovery hrecovery
  rw [hfundings] at hfundings'
  cases hfundings'
  rw [Recovery.distinctSources_singleton rfl hsource] at hsources'
  cases hsources'
  have hat := hsigned' 0 _ rfl
  simp only [hpolicy, hauth, Authorization.signer] at hat
  refine ⟨v, f, b, coin, secret, t, recovery, hf, by rw [hpolicy, hauth], hb, ht, hrecovery,
    hsigned 0 v (by rw [hmembers]; rfl), ?_⟩
  rw [hpolicy]
  exact hat

end VaultCovenant
