import VaultCovenant.Proofs.Scenario.Rules

/-!
# Locking coins in a run

Vaults are named one after the other, each just before its coin is handed out.
Once the node has taken the transaction that locks the coin, the vault is in
play.

Results:
* `Locked.append`: what was locked before and after.
* `Ensures.lockCoin`, `Ensures.lockCoins`: the vaults that are locked are in
  play, with the policies that were asked for and the names that were next.
-/

namespace VaultCovenant

open Run

/-- Between two points of a run vaults with given choices were locked. They
have the next names, and the vaults that were in play stay so. -/
structure Locked (w : Watch) (params : List VaultParams) (vs : List Vault) (s s' : RunState)
    (done done' : History) : Prop where
  play : ∀ v ∈ vs, w.InPlay s' .vaulted v
  kept : ∀ v, w.InPlay s .vaulted v → w.InPlay s' .vaulted v
  policies : List.Forall₂ (fun p v => Policy.ofParams p = .ok v.policy) params vs
  ids_eq : vs.map Vault.id = (List.range' (coins done).length params.length).map w.name
  coins_eq : (coins done').length = (coins done).length + params.length
  aligned : w.Aligned s' done'

namespace Locked

variable {w : Watch} {params more : List VaultParams} {vs us : List Vault}
  {s s' s'' : RunState} {done done' done'' : History}

theorem nil (h : w.Aligned s done) : Locked w [] [] s s done done where
  play v hv := by cases hv
  kept v hv := hv
  policies := .nil
  ids_eq := rfl
  coins_eq := rfl
  aligned := h

theorem append (h : Locked w params vs s s' done done') (h' : Locked w more us s' s'' done' done'') :
    Locked w (params ++ more) (vs ++ us) s s'' done done'' where
  play v hv := by
    rcases List.mem_append.mp hv with hv | hv
    · exact h'.kept v (h.play v hv)
    · exact h'.play v hv
  kept v hv := h'.kept v (h.kept v hv)
  policies := List.rel_append h.policies h'.policies
  ids_eq := by
    rw [List.map_append, h.ids_eq, h'.ids_eq, h.coins_eq, List.length_append,
      ← List.range'_append_1, List.map_append]
  coins_eq := by
    rw [h'.coins_eq, h.coins_eq, List.length_append, Nat.add_assoc]
  aligned := h'.aligned

/-- The same, seen later when nothing but steps was added. -/
theorem later (h : Locked w params vs s s' done done') (steps : List Step)
    (hdone : coins done'' = coins done') :
    Locked w params vs s { s' with steps } done done'' where
  play v hv := (h.play v hv).later steps
  kept v hv := (h.kept v hv).later steps
  policies := h.policies
  ids_eq := h.ids_eq
  coins_eq := by
    rw [hdone]
    exact h.coins_eq
  aligned := by
    unfold Watch.Aligned
    rw [hdone]
    exact h.aligned

/-- No two of the vaults have one id. -/
theorem nodup (h : Locked w params vs s s' done done') (hdistinct : w.Distinct s'.named) :
    (vs.map Vault.id).Nodup := by
  rw [h.ids_eq]
  apply hdistinct.nodup
  have haligned := h.aligned
  unfold Watch.Aligned at haligned
  rw [haligned, h.coins_eq, Nat.add_assoc]

end Locked

namespace Ensures

variable {w : Watch} {s : RunState} {done : History}

theorem lockCoin (params : VaultParams) (h : w.Aligned s done) :
    Ensures w (w.runner.lockCoin params) s done fun v s' done' =>
      Locked w [params] [v] s s' done done' := by
  refine of_books fun hbooks => ?_
  unfold Runner.lockCoin
  refine ofExcept (Policy.stateless_ofParams _) fun policy hpolicy => ?_
  refine takeNames 1 (spendableCoin fun coin hcoin => ?_)
  refine ofExcept (Vault.stateless_lock _ _ _) fun locked hlock => ?_
  obtain ⟨tx, v⟩ := locked
  refine took (w.quiet_expectAccept _ _) fun htook _ steps done' hdone' => ?_
  obtain ⟨total, htotal, hv⟩ := bind_eq_ok_iff.mp hlock
  have hid : v.id = w.ids s.named := by
    cases hv
    rfl
  have hpolicy' : v.policy = policy := by
    cases hv
    rfl
  have hopened : Opened w.name w.calls v := by
    obtain ⟨txid, after, hcalls⟩ := htook
    refine .locked done after coin policy tx txid ?_ ?_
    · rw [hcalls, List.append_assoc]
      rfl
    · unfold Watch.Aligned at h
      unfold Watch.name
      rw [← h]
      exact hlock
  have hplay : w.InPlay { s with steps, named := s.named + 1 } .unfunded v := by
    refine ⟨hopened, ⟨s.named, ?_, Nat.lt_succ_self _, hid⟩, ?_⟩
    · rw [h]
      exact Nat.le_add_right _ _
    · intro hdistinct
      rw [hid]
      exact hbooks.state_of_fresh (Nat.le_refl _) hdistinct
  refine bind (transition hplay rfl ⟨v, rfl, hopened⟩) ?_
  rintro _ s' done' ⟨rfl, hmoved⟩
  have hcoins : (coins done').length = (coins done).length + 1 := by
    rw [hdone', coins_append, List.length_append]
    rfl
  refine pure ⟨?_, ?_, .cons (hpolicy' ▸ hpolicy) .nil, ?_, hcoins, ?_⟩
  · intro u hu
    rw [List.mem_singleton.mp hu]
    exact hplay.moved hmoved (List.mem_singleton_self _)
  · intro u hu
    have hlater : w.InPlay { s with steps, named := s.named + 1 } .vaulted u :=
      hu.mono rfl (Nat.le_succ _)
    refine hlater.kept hmoved fun hdistinct hmem => ?_
    -- a vault in play has an earlier name
    obtain ⟨i, hi, hlt, hui⟩ := hu.known
    rw [List.mem_singleton, hui, hid] at hmem
    exact hdistinct i s.named hi hlt (Nat.lt_succ_self _) hmem
  · rw [List.map_singleton, hid, h]
    rfl
  · unfold Watch.Aligned at h ⊢
    rw [hmoved.named, hcoins, h, Nat.add_assoc]

theorem mapM_lockCoin (params : List VaultParams) (h : w.Aligned s done) :
    Ensures w (params.mapM w.runner.lockCoin) s done fun vs s' done' =>
      Locked w params vs s s' done done' := by
  induction params generalizing s done with
  | nil =>
    rw [List.mapM_nil]
    exact pure (.nil h)
  | cons p params ih =>
    rw [List.mapM_cons]
    refine bind (lockCoin p h) fun v s₁ done₁ hfirst => ?_
    refine bind (ih hfirst.aligned) fun vs s₂ done₂ hrest => ?_
    exact pure (hfirst.append hrest)

theorem lockCoins (params : List VaultParams) (h : w.Aligned s done) :
    Ensures w (w.runner.lockCoins params) s done fun vs s' done' =>
      Locked w params vs s s' done done' := by
  unfold Runner.lockCoins
  refine bind (mapM_lockCoin params h) fun vs s₁ done₁ hlocked => ?_
  exact aside (w.quiet_mine 1) fun _ steps done₂ hdone₂ => pure (hlocked.later steps hdone₂)

end Ensures

end VaultCovenant
