import Mathlib.Data.List.Forall2
import VaultCovenant.Taproot.Signing

/-!
# Attaching witnesses

What attaching witnesses to a transaction leaves alone, and where each
witness ends up.

Results:
* `getElem?_attach`: the witness at a position goes to the input there.
* `map_attach`: a function of an input that does not look at the witness has
  the same values before and after.
* `signScriptPath_withWitnesses`: a signature made before the witnesses are
  attached is a signature of the finished transaction.
-/

namespace VaultCovenant.Transaction

theorem getElem?_attach {is : List TxIn} {ws : List (List Bytes)} {k : ℕ} {i : TxIn}
    {w : List Bytes} (hi : is[k]? = some i) (hw : ws[k]? = some w) :
    (attach is ws)[k]? = some { i with witness := w } := by
  induction is generalizing ws k with
  | nil => simp at hi
  | cons j is ih =>
    cases ws with
    | nil => simp at hw
    | cons v ws =>
      cases k with
      | zero => cases hi; cases hw; rfl
      | succ k => exact ih hi hw

/-- The input that spends a coin, once its witness is attached. -/
theorem getElem?_attach_spending {α : Type} {f : α → Outpoint} {xs : List α} {rest : List TxIn}
    {ws : List (List Bytes)} {k : ℕ} {x : α} {w : List Bytes} (hx : xs[k]? = some x)
    (hw : ws[k]? = some w) :
    (attach (xs.map fun x => TxIn.spending (f x)) ws ++ rest)[k]? =
      some { TxIn.spending (f x) with witness := w } := by
  have hi : (xs.map fun x => TxIn.spending (f x))[k]? = some (TxIn.spending (f x)) := by
    rw [List.getElem?_map, hx]
    rfl
  have hget := getElem?_attach hi hw
  rw [List.getElem?_append_left (List.getElem?_eq_some_iff.mp hget).1, hget]

/-- Inputs beyond the witnesses stay as they are. -/
theorem attach_append {is rest : List TxIn} {ws : List (List Bytes)}
    (h : ws.length = is.length) : attach (is ++ rest) ws = attach is ws ++ rest := by
  induction is generalizing ws with
  | nil =>
    rw [List.length_nil, List.length_eq_zero_iff] at h
    subst h
    cases rest <;> rfl
  | cons i is ih =>
    cases ws with
    | nil => cases h
    | cons w ws => simp [attach, ih (Nat.succ_inj.mp h)]

theorem map_attach {α : Type} {f : TxIn → α} (hf : ∀ i w, f { i with witness := w } = f i)
    (is : List TxIn) (ws : List (List Bytes)) : (attach is ws).map f = is.map f := by
  induction is generalizing ws with
  | nil => cases ws <;> rfl
  | cons i is ih =>
    cases ws with
    | nil => rfl
    | cons w ws => rw [attach, List.map_cons, List.map_cons, ih, hf]

/-- The inputs with their witnesses taken off. -/
def bareInputs (tx : Transaction) : List TxIn := tx.inputs.map fun i => { i with witness := [] }

theorem bareInputs_withWitnesses (tx : Transaction) (ws : List (List Bytes)) :
    (tx.withWitnesses ws).bareInputs = tx.bareInputs :=
  map_attach (fun _ _ => rfl) tx.inputs ws

theorem digestOf_attach {f : TxIn → Bytes} (hf : ∀ i w, f { i with witness := w } = f i)
    (is : List TxIn) (ws : List (List Bytes)) : digestOf (attach is ws) f = digestOf is f := by
  simp only [digestOf, List.flatMap_def, map_attach hf]

@[simp] theorem outputs_withWitnesses (tx : Transaction) (ws : List (List Bytes)) :
    (tx.withWitnesses ws).outputs = tx.outputs := rfl

@[simp] theorem inputs_withWitnesses (tx : Transaction) (ws : List (List Bytes)) :
    (tx.withWitnesses ws).inputs = attach tx.inputs ws := rfl

theorem map_previousOutput_withWitnesses (tx : Transaction) (ws : List (List Bytes)) :
    (tx.withWitnesses ws).inputs.map (·.previousOutput) = tx.inputs.map (·.previousOutput) :=
  map_attach (fun _ _ => rfl) _ _

/-! ## Signatures -/

theorem scriptPathMessage_withWitnesses (tx : Transaction) (ws : List (List Bytes)) (index : ℕ)
    (spent : List TxOut) (leaf : Digest) :
    (tx.withWitnesses ws).scriptPathMessage index spent leaf =
      tx.scriptPathMessage index spent leaf := by
  -- of the inputs the message has only the outpoints and the sequences
  unfold scriptPathMessage
  rw [inputs_withWitnesses, outputs_withWitnesses, digestOf_attach fun _ _ => rfl,
    digestOf_attach fun _ _ => rfl]
  rfl

theorem signScriptPath_withWitnesses (tx : Transaction) (ws : List (List Bytes)) (index : ℕ)
    (spent : List TxOut) (leaf : Digest) (secret : SecretKey) :
    signScriptPath (tx.withWitnesses ws) index spent leaf secret =
      signScriptPath tx index spent leaf secret := by
  unfold signScriptPath scriptPathSighash
  rw [scriptPathMessage_withWitnesses, inputs_withWitnesses, length_attach]

theorem signScriptPath_isOk {tx : Transaction} {spent : List TxOut} (index : ℕ) (leaf : Digest)
    (secret : SecretKey) (h : spent.length = tx.inputs.length) :
    ∃ signature, signScriptPath tx index spent leaf secret = .ok signature := by
  unfold signScriptPath
  rw [if_pos h]
  exact ⟨_, rfl⟩

end VaultCovenant.Transaction
