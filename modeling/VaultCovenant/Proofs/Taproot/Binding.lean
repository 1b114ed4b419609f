import VaultCovenant.Proofs.Hash.Collision
import VaultCovenant.Proofs.Taproot.Opening
import VaultCovenant.Proofs.Transaction.Reading

/-!
# What a root hash binds

A root hash fixes the leaves of a tree up to the order of what a joint joins,
since the joint sorts the two hashes below it.

Results:
* `joinData_inj`: the data of a joint tell the two hashes, not their sides.
* `leafHash_binds`, `joinHash_binds`: equal hashes are of equal leaves or
  joints unless two of the strings hashed collide.
* `TaprootTree.merkleRoot_pair_binds`: two trees of two leaves with one root
  have the same leaves, straight or crossed, unless two of the strings hashed
  collide.
-/

namespace VaultCovenant

/-! ## The strings hashed -/

/-- The string hashed for a leaf. -/
def leafMessage (script : Script) : Bytes := taggedPreimage "TapLeaf" (leafData script)

/-- The string hashed for a joint. -/
def joinMessage (a b : Digest) : Bytes := taggedPreimage "TapBranch" (joinData a b)

/-- The strings hashed on the way to the root of a tree. -/
def Branching.messages : Branching → List Bytes
  | leaf script => [leafMessage script]
  | join left right => joinMessage left.root right.root :: (left.messages ++ right.messages)

/-- The strings hashed on the way to the root of a taproot output. -/
def TaprootTree.messages (t : TaprootTree) : List Bytes :=
  (t.branching?.map Branching.messages).getD []

/-! ## Leaves and joints -/

variable {first second : List Bytes} {a b c d : Digest}

theorem leafData_inj {s t : Script} (h : leafData s = leafData t) : s = t :=
  Script.serialize_inj (List.cons.inj h).2

theorem append_bytes_inj (h : a.bytes ++ b.bytes = c.bytes ++ d.bytes) : a = c ∧ b = d := by
  obtain ⟨hfirst, hsecond⟩ := List.append_inj h (a.length_eq.trans c.length_eq.symm)
  exact ⟨Bytes32.ext_bytes hfirst, Bytes32.ext_bytes hsecond⟩

/-- A joint tells the two hashes below it, but not which was on which side. -/
theorem joinData_inj (h : joinData a b = joinData c d) : (a = c ∧ b = d) ∨ (a = d ∧ b = c) := by
  unfold joinData at h
  split at h <;> split at h
  · exact Or.inl (append_bytes_inj h)
  · exact Or.inr (append_bytes_inj h)
  · obtain ⟨hbc, had⟩ := append_bytes_inj h
    exact Or.inr ⟨had, hbc⟩
  · obtain ⟨hbd, hac⟩ := append_bytes_inj h
    exact Or.inl ⟨hac, hbd⟩

theorem leafHash_binds (hno : ¬ Collision first second) {s t : Script}
    (hs : leafMessage s ∈ first) (ht : leafMessage t ∈ second)
    (h : leafHash s = leafHash t) : s = t :=
  leafData_inj (taggedPreimage_inj (eq_of_not_collision hno hs ht h))

theorem joinHash_binds (hno : ¬ Collision first second) (hab : joinMessage a b ∈ first)
    (hcd : joinMessage c d ∈ second) (h : joinHash a b = joinHash c d) :
    (a = c ∧ b = d) ∨ (a = d ∧ b = c) :=
  joinData_inj (taggedPreimage_inj (eq_of_not_collision hno hab hcd h))

/-! ## Trees of two leaves -/

namespace TaprootTree

section Pair

variable {key key' : XOnlyKey} {n m n' m' : String} {left right left' right' : Script}

theorem messages_pair :
    (⟨key, [(n, left), (m, right)]⟩ : TaprootTree).messages =
      [joinMessage (VaultCovenant.leafHash left) (VaultCovenant.leafHash right),
        leafMessage left, leafMessage right] := by
  unfold messages
  rw [branching?_pair]
  rfl

theorem merkleRoot_pair :
    (⟨key, [(n, left), (m, right)]⟩ : TaprootTree).merkleRoot =
      some (joinHash (VaultCovenant.leafHash left) (VaultCovenant.leafHash right)) := by
  unfold merkleRoot
  rw [branching?_pair]
  rfl

/-- One root is of the same two leaves, straight or crossed. The internal key
and the names of the leaves do not enter it. -/
theorem merkleRoot_pair_binds
    (hfirst : ∀ x ∈ (⟨key, [(n, left), (m, right)]⟩ : TaprootTree).messages, x ∈ first)
    (hsecond : ∀ x ∈ (⟨key', [(n', left'), (m', right')]⟩ : TaprootTree).messages, x ∈ second)
    (hno : ¬ Collision first second)
    (h : (⟨key, [(n, left), (m, right)]⟩ : TaprootTree).merkleRoot =
      (⟨key', [(n', left'), (m', right')]⟩ : TaprootTree).merkleRoot) :
    (left = left' ∧ right = right') ∨ (left = right' ∧ right = left') := by
  rw [messages_pair] at hfirst hsecond
  simp only [List.forall_mem_cons] at hfirst hsecond
  obtain ⟨hjoin, hleft, hright, -⟩ := hfirst
  obtain ⟨hjoin', hleft', hright', -⟩ := hsecond
  rw [merkleRoot_pair, merkleRoot_pair] at h
  rcases joinHash_binds hno hjoin hjoin' (Option.some.inj h) with ⟨hl, hr⟩ | ⟨hl, hr⟩
  · exact Or.inl ⟨leafHash_binds hno hleft hleft' hl, leafHash_binds hno hright hright' hr⟩
  · exact Or.inr ⟨leafHash_binds hno hleft hright' hl, leafHash_binds hno hright hleft' hr⟩

end Pair

end TaprootTree

end VaultCovenant
