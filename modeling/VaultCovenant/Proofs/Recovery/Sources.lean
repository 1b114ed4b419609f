import VaultCovenant.Proofs.Batch.Build
import VaultCovenant.Proofs.FirstSeen
import VaultCovenant.Recovery

/-!
# The sources of a recovery

How a vault at an outpoint is resolved, and how the sources that name one
outpoint become one.

Results:
* `Recovery.vaultSource_eq_ok_iff`, `Recovery.triggerSource_eq_ok_iff`: what a
  vault at an outpoint is resolved to.
* `Recovery.foldl_merge`: every outpoint stays once, as the source that names
  it first, with all vaults that name it.
* `Recovery.distinctSources_isOk_iff`, `Recovery.distinctSources_eq_ok`: when a
  request has sources, and what they are.
-/

namespace VaultCovenant.Recovery

/-! ## Resolving a vault at an outpoint -/

section Resolving

variable {v : Vault} {o : Outpoint} {trigger : Option Trigger} {s : Source}

theorem vaultSource_eq_ok_iff :
    vaultSource v = .ok s ↔
      ∃ f c, v.funding = .ok f ∧ v.policy.tree.controlBlock recoverLeaf = .ok c ∧
        s = ⟨[v.id], f.outpoint, f.output, v.policy.recoverySpk, v.policy.recoverScript, c,
          v.policy.authorization⟩ := by
  unfold vaultSource
  constructor
  · intro h
    obtain ⟨f, hf, h⟩ := bind_eq_ok_iff.mp h
    obtain ⟨c, hc, h⟩ := bind_eq_ok_iff.mp h
    cases h
    exact ⟨f, c, hf, hc, rfl⟩
  · rintro ⟨f, c, hf, hc, rfl⟩
    rw [hf, hc]
    rfl

theorem triggerSource_eq_ok_iff :
    triggerSource v o trigger = .ok s ↔
      ∃ t i b first spent script c, trigger = some t ∧ t.batchOf v.id = some (i, b) ∧
        t.outpoint i = .ok o ∧ b.canonical = .ok first ∧
        t.tx.outputs[o.vout.toNat]? = some spent ∧ b.tree.leafScript recoverLeaf = .ok script ∧
        b.tree.controlBlock recoverLeaf = .ok c ∧
        s = ⟨[v.id], o, spent, first.policy.recoverySpk, script, c,
          first.policy.authorization⟩ := by
  unfold triggerSource
  constructor
  · intro h
    cases trigger with
    | none => cases h
    | some t =>
      cases hb : t.batchOf v.id with
      | none => simp [hb, throw, throwThe, MonadExceptOf.throw] at h
      | some found =>
        obtain ⟨i, b⟩ := found
        simp only [hb] at h
        obtain ⟨expected, ho, h⟩ := bind_eq_ok_iff.mp h
        by_cases hne : expected ≠ o
        · rw [if_pos hne] at h
          cases h
        rw [if_neg hne] at h
        rw [not_ne_iff] at hne
        subst hne
        obtain ⟨first, hfirst, h⟩ := bind_eq_ok_iff.mp h
        cases hspent : t.tx.outputs[expected.vout.toNat]? with
        | none => simp [hspent, throw, throwThe, MonadExceptOf.throw] at h
        | some spent =>
          simp only [hspent] at h
          obtain ⟨script, hscript, h⟩ := bind_eq_ok_iff.mp h
          obtain ⟨c, hc, h⟩ := bind_eq_ok_iff.mp h
          cases h
          exact ⟨t, i, b, first, spent, script, c, rfl, hb, ho, hfirst, hspent, hscript, hc, rfl⟩
  · rintro ⟨t, i, b, first, spent, script, c, rfl, hb, ho, hfirst, hspent, hscript, hc, rfl⟩
    simp only [hb]
    refine bind_eq_ok_iff.mpr ⟨o, ho, ?_⟩
    rw [if_neg (not_not_intro rfl)]
    refine bind_eq_ok_iff.mpr ⟨first, hfirst, ?_⟩
    simp only [hspent]
    exact bind_eq_ok_iff.mpr ⟨script, hscript, bind_eq_ok_iff.mpr ⟨c, hc, rfl⟩⟩

theorem vaultSource_isOk {f : Funding} (hf : v.funding = .ok f) :
    ∃ s, vaultSource v = .ok s := by
  obtain ⟨c, hc⟩ := v.policy.controlBlock_recover_isOk
  exact ⟨_, vaultSource_eq_ok_iff.mpr ⟨f, c, hf, hc, rfl⟩⟩

theorem vaultSource_eq_error {e : VaultError} (h : vaultSource v = .error e) :
    v.funding = .error e := by
  rcases bind_eq_error_iff.mp h with h | ⟨f, hf, -⟩
  · exact h
  · obtain ⟨s, hs⟩ := vaultSource_isOk hf
    rw [h] at hs
    cases hs

/-- A vault is not resolved at a foreign outpoint because nothing leads there,
or because a part of its batch that leads there is missing. -/
theorem triggerSource_eq_error {e : VaultError} (h : triggerSource v o trigger = .error e) :
    e = .missingSpendContext v.id o.text ∨
    ∃ t i b, trigger = some t ∧ t.batchOf v.id = some (i, b) ∧
      (t.outpoint i = .error e ∨ b.canonical = .error e ∨
        b.tree.leafScript recoverLeaf = .error e ∨ b.tree.controlBlock recoverLeaf = .error e) := by
  unfold triggerSource at h
  cases trigger with
  | none =>
    cases h
    exact Or.inl rfl
  | some t =>
    cases hb : t.batchOf v.id with
    | none =>
      simp only [hb] at h
      cases h
      exact Or.inl rfl
    | some found =>
      obtain ⟨i, b⟩ := found
      simp only [hb] at h
      rcases bind_eq_error_iff.mp h with h | ⟨expected, -, h⟩
      · exact Or.inr ⟨t, i, b, rfl, hb, Or.inl h⟩
      by_cases hne : expected ≠ o
      · rw [if_pos hne] at h
        cases h
        exact Or.inl rfl
      rw [if_neg hne] at h
      rcases bind_eq_error_iff.mp h with h | ⟨first, -, h⟩
      · exact Or.inr ⟨t, i, b, rfl, hb, Or.inr (Or.inl h)⟩
      cases hspent : t.tx.outputs[o.vout.toNat]? with
      | none =>
        simp only [hspent] at h
        cases h
        exact Or.inl rfl
      | some spent =>
        simp only [hspent] at h
        rcases bind_eq_error_iff.mp h with h | ⟨script, -, h⟩
        · exact Or.inr ⟨t, i, b, rfl, hb, Or.inr (Or.inr (Or.inl h))⟩
        rcases bind_eq_error_iff.mp h with h | ⟨c, -, h⟩
        · exact Or.inr ⟨t, i, b, rfl, hb, Or.inr (Or.inr (Or.inr h))⟩
        cases h

/-- A vault can be resolved at the trigger output of its batch. -/
theorem triggerSource_isOk {members : List Vault} {targets : List TxOut} {revault : Option Sats}
    {faults : FaultSet} {first : Vault} {total : Sats} {t : Trigger} {i : ℕ} {b : Batch}
    {spent : TxOut} (h : Batch.Made members targets revault faults first total b)
    (hb : t.batchOf v.id = some (i, b)) (ho : t.outpoint i = .ok o)
    (hspent : t.tx.outputs[o.vout.toNat]? = some spent) :
    ∃ s, triggerSource v o (some t) = .ok s := by
  obtain ⟨c, hc⟩ := h.controlBlock_recover_isOk
  exact ⟨_, triggerSource_eq_ok_iff.mpr ⟨t, i, b, first, spent, _, c, rfl, hb, ho, h.canonical,
    hspent, h.leafScript_recover, hc, rfl⟩⟩

/-- A vault at its own outpoint is swept by its own policy. -/
theorem source_own (trigger : Option Trigger) {f : Funding} (hf : v.funding = .ok f) :
    ∃ c, v.policy.tree.controlBlock recoverLeaf = .ok c ∧
      source trigger v f.outpoint = .ok ⟨[v.id], f.outpoint, f.output, v.policy.recoverySpk,
        v.policy.recoverScript, c, v.policy.authorization⟩ := by
  obtain ⟨c, hc⟩ := v.policy.controlBlock_recover_isOk
  exact ⟨c, hc, (if_pos (Vault.funding_eq_ok_iff.mp hf).1).trans
    (vaultSource_eq_ok_iff.mpr ⟨f, c, hf, hc, rfl⟩)⟩

/-- A source is at the outpoint for which it was asked and names the vault. -/
theorem source_eq_ok (h : source trigger v o = .ok s) : s.outpoint = o ∧ s.vaultIds = [v.id] := by
  unfold source at h
  by_cases ho : v.outpoint = some o
  · rw [if_pos ho] at h
    obtain ⟨f, c, hf, -, rfl⟩ := vaultSource_eq_ok_iff.mp h
    obtain ⟨hout, -⟩ := Vault.funding_eq_ok_iff.mp hf
    rw [ho] at hout
    cases hout
    exact ⟨rfl, rfl⟩
  · rw [if_neg ho] at h
    obtain ⟨t, i, b, first, spent, script, c, -, -, -, -, -, -, -, rfl⟩ :=
      triggerSource_eq_ok_iff.mp h
    exact ⟨rfl, rfl⟩

end Resolving

/-! ## Sources at one outpoint -/

section Merging

variable {sources : List Source} {new s : Source}

/-- A source that also names other vaults. -/
def Source.naming (s : Source) (ids : List VaultId) : Source :=
  { s with vaultIds := s.vaultIds ++ ids.filter fun id => !s.vaultIds.contains id }

theorem merge_of_not_mem (h : new.outpoint ∉ sources.map (·.outpoint)) :
    merge sources new = sources ++ [new] := by
  induction sources with
  | nil => rfl
  | cons s rest ih =>
    rw [List.map_cons, List.mem_cons, not_or] at h
    rw [merge, if_neg (Ne.symm h.1), ih h.2]
    rfl

theorem merge_of_mem (hnodup : (sources.map (·.outpoint)).Nodup)
    (h : new.outpoint ∈ sources.map (·.outpoint)) :
    merge sources new =
      sources.map fun s => if s.outpoint = new.outpoint then s.naming new.vaultIds else s := by
  induction sources with
  | nil => simp at h
  | cons s rest ih =>
    rw [List.map_cons, List.nodup_cons] at hnodup
    by_cases hs : s.outpoint = new.outpoint
    · have hrest : ∀ s' ∈ rest, (if s'.outpoint = new.outpoint then s'.naming new.vaultIds else s')
          = s' := by
        intro s' hs'
        refine if_neg fun heq => hnodup.1 ?_
        rw [hs, ← heq]
        exact List.mem_map_of_mem hs'
      rw [merge, if_pos hs, List.map_cons, if_pos hs, List.map_congr_left hrest, List.map_id']
      rfl
    · rw [List.map_cons, List.mem_cons] at h
      rw [merge, if_neg hs, List.map_cons, if_neg hs,
        ih hnodup.2 (h.resolve_left (Ne.symm hs))]

/-- The ids of the vaults at an outpoint, each once. -/
def idsAt (resolved : List Source) (o : Outpoint) : List VaultId :=
  ((resolved.filter fun s => s.outpoint = o).flatMap Source.vaultIds).eraseDups

/-- What becomes of the sources at an outpoint: the first, with the ids of all. -/
def gathered (resolved : List Source) (o : Outpoint) : Option Source :=
  (resolved.find? fun s => s.outpoint = o).map fun s => { s with vaultIds := idsAt resolved o }

variable {resolved : List Source} {o : Outpoint}

theorem outpoint_of_gathered (h : gathered resolved o = some s) : s.outpoint = o := by
  obtain ⟨r, hr, rfl⟩ := Option.map_eq_some_iff.mp h
  simpa using List.find?_some hr

theorem mem_of_gathered (h : gathered resolved o = some s) :
    o ∈ resolved.map (·.outpoint) := by
  obtain ⟨r, hr, -⟩ := Option.map_eq_some_iff.mp h
  have ho : r.outpoint = o := by simpa using List.find?_some hr
  exact ho ▸ List.mem_map_of_mem (List.mem_of_find?_eq_some hr)

theorem idsAt_concat_of_ne (h : new.outpoint ≠ o) :
    idsAt (resolved ++ [new]) o = idsAt resolved o := by
  unfold idsAt
  rw [List.filter_append, List.filter_singleton]
  simp [h]

theorem idsAt_concat_self {id : VaultId} (hid : new.vaultIds = [id]) :
    idsAt (resolved ++ [new]) new.outpoint = idsAt resolved new.outpoint ++
      new.vaultIds.filter fun id => !(idsAt resolved new.outpoint).contains id := by
  unfold idsAt
  rw [List.filter_append, List.filter_singleton, List.flatMap_append, hid]
  simp only [decide_true, cond_true, List.flatMap_cons, List.flatMap_nil, List.append_nil, hid]
  exact eraseDups_concat _ _

theorem gathered_concat_of_ne (h : new.outpoint ≠ o) :
    gathered (resolved ++ [new]) o = gathered resolved o := by
  unfold gathered
  rw [idsAt_concat_of_ne h, List.find?_append]
  simp [h]

/-- A further source at an outpoint that is there already adds the ids of its
vaults. -/
theorem gathered_concat_self {id : VaultId} (hid : new.vaultIds = [id])
    (h : gathered resolved new.outpoint = some s) :
    gathered (resolved ++ [new]) new.outpoint = some (s.naming new.vaultIds) := by
  obtain ⟨r, hr, rfl⟩ := Option.map_eq_some_iff.mp h
  unfold gathered Source.naming
  rw [List.find?_append, hr, idsAt_concat_self hid]
  rfl

theorem gathered_concat_new {id : VaultId} (hid : new.vaultIds = [id])
    (h : new.outpoint ∉ resolved.map (·.outpoint)) :
    gathered (resolved ++ [new]) new.outpoint = some new := by
  have hnone : ∀ s ∈ resolved, s.outpoint ≠ new.outpoint := by
    intro s hs heq
    exact h (heq ▸ List.mem_map_of_mem hs)
  have hfind : (resolved.find? fun s => s.outpoint = new.outpoint) = none := by
    simpa using hnone
  have hids : idsAt resolved new.outpoint = [] := by
    have hfilter : (resolved.filter fun s => s.outpoint = new.outpoint) = [] := by
      simpa using hnone
    rw [idsAt, hfilter]
    rfl
  unfold gathered
  rw [List.find?_append, hfind, idsAt_concat_self hid, hids]
  obtain ⟨ids, _⟩ := new
  cases hid
  simp

/-- Every outpoint stays once, as the source that names it first, with all
vaults that name it. -/
theorem foldl_merge (h : ∀ s ∈ resolved, ∃ id, s.vaultIds = [id]) :
    List.Forall₂ (fun o s => gathered resolved o = some s)
      (resolved.map (·.outpoint)).eraseDups (resolved.foldl merge []) := by
  -- from the back, since a source is compared with all that were merged before it
  induction resolved using List.reverseRecOn with
  | nil => exact .nil
  | append_singleton resolved new ih =>
    obtain ⟨id, hid⟩ := h new (by simp)
    have ih := ih fun s hs => h s (by simp [hs])
    have hmap : (resolved.foldl merge []).map (·.outpoint) =
        (resolved.map (·.outpoint)).eraseDups := by
      have := ih.imp fun o s hs => (outpoint_of_gathered hs).symm
      exact (List.forall₂_eq_eq_eq ▸ List.forall₂_map_right_iff.mpr this).symm
    rw [List.foldl_concat, List.map_append, List.map_singleton]
    by_cases hmem : new.outpoint ∈ resolved.map (·.outpoint)
    · have hmem' : new.outpoint ∈ (resolved.foldl merge []).map (·.outpoint) := by
        rw [hmap]
        exact List.mem_eraseDups.mpr hmem
      rw [eraseDups_concat_of_mem hmem,
        merge_of_mem (hmap ▸ nodup_eraseDups _) hmem', List.forall₂_map_right_iff]
      -- no outpoint is added, and only the source at this one names more vaults
      refine ih.imp fun o s hs => ?_
      have ho := outpoint_of_gathered hs
      by_cases hnew : s.outpoint = new.outpoint
      · rw [if_pos hnew]
        rw [ho] at hnew
        subst hnew
        exact gathered_concat_self hid hs
      · rw [if_neg hnew]
        rw [ho] at hnew
        rw [gathered_concat_of_ne (Ne.symm hnew)]
        exact hs
    · have hmem' : new.outpoint ∉ (resolved.foldl merge []).map (·.outpoint) := by
        rw [hmap, List.mem_eraseDups]
        exact hmem
      rw [eraseDups_concat_of_not_mem hmem, merge_of_not_mem hmem']
      refine List.rel_append (ih.imp fun o s hs => ?_) (.cons (gathered_concat_new hid hmem) .nil)
      have hne : new.outpoint ≠ o := fun heq => hmem (heq ▸ mem_of_gathered hs)
      rw [gathered_concat_of_ne hne]
      exact hs

end Merging

/-! ## The sources of a request -/

/-- The ids of the vaults that are named at an outpoint, each once. -/
def namedAt (named : List (Vault × Outpoint)) (o : Outpoint) : List VaultId :=
  ((named.filter fun p => p.2 = o).map (·.1.id)).eraseDups

section Requests

variable {trigger : Option Trigger} {named : List (Vault × Outpoint)} {resolved : List Source}
  {r : RecoveryRequest} {sources : List Source} {s : Source}

theorem map_outpoint_resolved
    (h : List.Forall₂ (fun p s => source trigger p.1 p.2 = .ok s) named resolved) :
    resolved.map (·.outpoint) = named.map Prod.snd := by
  induction h with
  | nil => rfl
  | cons hs _ ih => rw [List.map_cons, List.map_cons, ih, (source_eq_ok hs).1]

theorem idsAt_resolved
    (h : List.Forall₂ (fun p s => source trigger p.1 p.2 = .ok s) named resolved)
    (o : Outpoint) : idsAt resolved o = namedAt named o := by
  unfold idsAt namedAt
  congr 1
  induction h with
  | nil => rfl
  | cons hs _ ih =>
    obtain ⟨ho, hids⟩ := source_eq_ok hs
    rw [List.filter_cons, List.filter_cons, ho]
    split_ifs
    · rw [List.flatMap_cons, List.map_cons, ih, hids]
      rfl
    · exact ih

/-- The sources of a request: an outpoint each, in the order in which they are
first named, resolved as by the vault that names it first. -/
theorem distinctSources_eq_ok (h : distinctSources r = .ok sources) :
    List.Forall₂ (fun o s => ∃ v s', r.sources.find? (fun p => p.2 = o) = some (v, o) ∧
        source r.trigger v o = .ok s' ∧ s = { s' with vaultIds := namedAt r.sources o })
      (r.sources.map Prod.snd).eraseDups sources := by
  obtain ⟨resolved, hresolved, h⟩ := bind_eq_ok_iff.mp h
  cases h
  have hall := mapM_eq_ok_iff.mp hresolved
  have hone : ∀ s ∈ resolved, ∃ id, s.vaultIds = [id] := by
    intro s hs
    obtain ⟨p, -, hp⟩ := forall₂_mem_right hall hs
    exact ⟨p.1.id, (source_eq_ok hp).2⟩
  rw [← map_outpoint_resolved hall]
  refine (foldl_merge hone).imp fun o s hs => ?_
  obtain ⟨s', hs', rfl⟩ := Option.map_eq_some_iff.mp hs
  obtain ⟨⟨v, o'⟩, hfind, hsource⟩ := find?_of_forall₂ (p := fun p => p.2 = o) hall
    (fun p s hp => by rw [(source_eq_ok hp).1]) hs'
  have ho : o' = o := by simpa using List.find?_some hfind
  subst ho
  exact ⟨v, s', hfind, hsource, by rw [idsAt_resolved hall]⟩

theorem distinctSources_isOk_iff :
    (∃ sources, distinctSources r = .ok sources) ↔
      ∀ p ∈ r.sources, ∃ s, source r.trigger p.1 p.2 = .ok s := by
  constructor
  · rintro ⟨sources, h⟩ p hp
    obtain ⟨resolved, hresolved, -⟩ := bind_eq_ok_iff.mp h
    obtain ⟨s, -, hs⟩ := forall₂_mem_right (mapM_eq_ok_iff.mp hresolved).flip hp
    exact ⟨s, hs⟩
  · intro h
    obtain ⟨resolved, hresolved⟩ := mapM_isOk h
    exact ⟨_, bind_eq_ok_iff.mpr ⟨resolved, hresolved, rfl⟩⟩

theorem vaultIds_of_mem (h : distinctSources r = .ok sources) (hs : s ∈ sources) :
    s.vaultIds = namedAt r.sources s.outpoint := by
  obtain ⟨o, -, v, s', -, hsource, rfl⟩ := forall₂_mem_right (distinctSources_eq_ok h) hs
  have ho : s'.outpoint = o := (source_eq_ok hsource).1
  rw [← ho]

theorem distinctSources_singleton {v : Vault} {o : Outpoint} (hsources : r.sources = [(v, o)])
    (hsource : source r.trigger v o = .ok s) : distinctSources r = .ok [s] := by
  refine bind_eq_ok_iff.mpr ⟨[s], ?_, rfl⟩
  rw [hsources]
  exact mapM_eq_ok_iff.mpr (.cons hsource .nil)

theorem distinctSources_singleton_eq_ok {v : Vault} {o : Outpoint} (hsources : r.sources = [(v, o)])
    (h : distinctSources r = .ok sources) : ∃ s, source r.trigger v o = .ok s ∧ sources = [s] := by
  obtain ⟨resolved, hresolved, -⟩ := bind_eq_ok_iff.mp h
  rw [hsources] at hresolved
  obtain ⟨s, hs, -⟩ := bind_eq_ok_iff.mp hresolved
  exact ⟨s, hs, Except.ok.inj (h.symm.trans (distinctSources_singleton hsources hs))⟩

theorem map_outpoint_distinctSources (h : distinctSources r = .ok sources) :
    sources.map (·.outpoint) = (r.sources.map Prod.snd).eraseDups := by
  have hall := distinctSources_eq_ok h
  have hsame : List.Forall₂ (fun o s => o = s.outpoint) (r.sources.map Prod.snd).eraseDups
      sources := by
    refine hall.imp ?_
    rintro o s ⟨v, s', -, hsource, rfl⟩
    exact (source_eq_ok hsource).1.symm
  exact (List.forall₂_eq_eq_eq ▸ List.forall₂_map_right_iff.mpr hsame).symm

end Requests

end VaultCovenant.Recovery
