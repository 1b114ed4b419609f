import Mathlib.Algebra.GroupWithZero.Nat
import Mathlib.Tactic.SplitIfs
import VaultCovenant.Proofs.PrefixFree
import VaultCovenant.Transaction.Reader

/-!
# Reading back what was written

The readers of serialized records undo the writers, whatever follows the
record. Outputs, scripts and numbers that stand one after the other are
therefore determined by their bytes.

Results:
* `Bytes.littleEndian_inj`: the digits of a number determine it, where they
  suffice.
* `Reader.prefixed_append`, `Reader.output_append`: a byte string behind its
  length and an output are read back.
* `prefixFree_of_read`: records that are read back begin differently.
* `flatMap_output_inj`: a list of outputs is determined by its bytes.
* `lengthPrefixed_inj`: a byte string behind its length is determined by the
  whole, however long it is.
-/

namespace VaultCovenant

/-! ## Numbers of a fixed width -/

namespace Bytes

theorem toNatLE_littleEndian (width n : ℕ) : toNatLE (littleEndian width n) = n % 256 ^ width := by
  induction width generalizing n with
  | zero =>
    rw [Nat.pow_zero, Nat.mod_one]
    rfl
  | succ width ih =>
    have hdigit : (UInt8.ofNat n).toNat = n % 256 := UInt8.toNat_ofNat'
    rw [littleEndian, toNatLE, ih, hdigit, Nat.pow_succ', Nat.mod_mul]

theorem littleEndian_inj {width m n : ℕ} (hm : m < 256 ^ width) (hn : n < 256 ^ width)
    (h : littleEndian width m = littleEndian width n) : m = n := by
  have hread := congrArg toNatLE h
  rwa [toNatLE_littleEndian, toNatLE_littleEndian, Nat.mod_eq_of_lt hm,
    Nat.mod_eq_of_lt hn] at hread

theorem littleEndian_uint32_inj {a b : UInt32}
    (h : littleEndian 4 a.toNat = littleEndian 4 b.toNat) : a = b := by
  have ha := a.toNat_lt
  have hb := b.toNat_lt
  exact UInt32.toNat_inj.mp (littleEndian_inj (by omega) (by omega) h)

end Bytes

/-! ## Readers -/

/-- The length of the script fits into the eight bytes that may stand in front
of it, as that of any script in a memory of 64-bit addresses does. -/
def Script.Sized (s : Script) : Prop := s.bytes.length < 2 ^ 64

instance (s : Script) : Decidable s.Sized :=
  inferInstanceAs (Decidable (s.bytes.length < 2 ^ 64))

namespace Transaction.Reader

variable {α β : Type} {n : ℕ} {bs rest : Bytes}

/-- What comes second reads what the first has left. -/
theorem bind_eq_some {first : Reader α} {next : α → Reader β} {a : α} {r : Option (β × Bytes)}
    (hfirst : first bs = some (a, rest)) (hnext : next a rest = r) : (first >>= next) bs = r := by
  show (first bs).bind _ = r
  rw [hfirst]
  exact hnext

theorem number_append {width : ℕ} (hn : n < 256 ^ width) :
    number width (Bytes.littleEndian width n ++ rest) = some (n, rest) := by
  have htake := take_append (Bytes.littleEndian width n) rest
  rw [Bytes.length_littleEndian] at htake
  refine bind_eq_some htake ?_
  show some (Bytes.toNatLE (Bytes.littleEndian width n), rest) = some (n, rest)
  rw [Bytes.toNatLE_littleEndian, Nat.mod_eq_of_lt hn]

theorem numberFrom_append {least width : ℕ} (hleast : least ≤ n) (hn : n < 256 ^ width) :
    numberFrom least width (Bytes.littleEndian width n ++ rest) = some (n, rest) := by
  refine bind_eq_some (number_append hn) ?_
  rw [if_pos hleast]
  rfl

theorem number_head (head : ℕ) (h : head < 256) :
    number 1 (UInt8.ofNat head :: rest) = some (head, rest) := by
  show number 1 (Bytes.littleEndian 1 head ++ rest) = some (head, rest)
  exact number_append (by omega)

/-- A count is read back from the one form in which it is written. -/
theorem count_append (hn : n < 2 ^ 64) : count (compactSize n ++ rest) = some (n, rest) := by
  unfold compactSize count
  split_ifs with h1 h2 h3
  · refine bind_eq_some (number_head n (by omega)) ?_
    rw [if_pos h1]
    rfl
  · refine bind_eq_some (number_head 0xfd (by omega)) ?_
    exact numberFrom_append (by omega) (by omega)
  · refine bind_eq_some (number_head 0xfe (by omega)) ?_
    exact numberFrom_append (by omega) (by omega)
  · refine bind_eq_some (number_head 0xff (by omega)) ?_
    exact numberFrom_append (by omega) (by omega)

theorem prefixed_append (h : bs.length < 2 ^ 64) :
    prefixed (lengthPrefixed bs ++ rest) = some (bs, rest) := by
  unfold lengthPrefixed prefixed
  rw [List.append_assoc]
  exact bind_eq_some (count_append h) (take_append bs rest)

theorem output_append {o : TxOut} (ho : o.scriptPubkey.Sized) :
    output (o.serialize ++ rest) = some (o, rest) := by
  have hvalue := o.value.toNat_lt
  unfold TxOut.serialize output
  rw [List.append_assoc]
  refine bind_eq_some (number_append (by omega)) ?_
  refine bind_eq_some (prefixed_append ho) ?_
  show some ((⟨UInt64.ofNat o.value.toNat, o.scriptPubkey⟩ : TxOut), rest) = some (o, rest)
  rw [UInt64.ofNat_toNat]

end Transaction.Reader

/-! ## Records one after the other -/

/-- Records that are read back, whatever follows, begin differently. -/
theorem prefixFree_of_read {α β : Type} {P : α → Prop} {write : α → Bytes}
    {record : Transaction.Reader β} {value : α → β} (hvalue : Function.Injective value)
    (hread : ∀ a, P a → ∀ rest, record (write a ++ rest) = some (value a, rest)) :
    PrefixFree P write := by
  intro a b ha hb rest rest' h
  -- one reading of the common bytes gives both records and both rests
  have hfirst := hread a ha rest
  rw [h, hread b hb rest'] at hfirst
  obtain ⟨hab, hrest⟩ := Prod.mk.inj (Option.some.inj hfirst)
  exact ⟨(hvalue hab).symm, hrest.symm⟩

theorem flatMap_output_inj {as bs : List TxOut} (has : ∀ o ∈ as, o.scriptPubkey.Sized)
    (hbs : ∀ o ∈ bs, o.scriptPubkey.Sized)
    (h : as.flatMap TxOut.serialize = bs.flatMap TxOut.serialize) : as = bs := by
  have hfree : PrefixFree (fun o : TxOut => o.scriptPubkey.Sized) TxOut.serialize :=
    prefixFree_of_read Function.injective_id fun _ ho _ => Transaction.Reader.output_append ho
  refine hfree.flatMap_inj ?_ has hbs h
  intro o hnil
  have hlen := congrArg List.length hnil
  simp [TxOut.serialize] at hlen

theorem flatMap_script_inj {as bs : List Script} (has : ∀ s ∈ as, s.Sized)
    (hbs : ∀ s ∈ bs, s.Sized)
    (h : as.flatMap Script.serialize = bs.flatMap Script.serialize) : as = bs := by
  have hvalue : Function.Injective Script.bytes := by
    rintro ⟨s⟩ ⟨t⟩ hst
    exact congrArg Script.mk hst
  have hfree : PrefixFree Script.Sized Script.serialize :=
    prefixFree_of_read hvalue fun _ hs _ => Transaction.Reader.prefixed_append hs
  refine hfree.flatMap_inj ?_ has hbs h
  intro s hnil
  exact compactSize_ne_nil _ (List.append_eq_nil_iff.mp hnil).1

theorem flatMap_uint32_inj {as bs : List UInt32}
    (h : as.flatMap (fun n => Bytes.littleEndian 4 n.toNat) =
      bs.flatMap fun n => Bytes.littleEndian 4 n.toNat) : as = bs := by
  have hfree : PrefixFree (fun _ : UInt32 => True) fun n => Bytes.littleEndian 4 n.toNat := by
    have hread : ∀ (n : UInt32), True → ∀ rest, Transaction.Reader.number 4
        (Bytes.littleEndian 4 n.toNat ++ rest) = some (n.toNat, rest) := by
      intro n _ rest
      have hn := n.toNat_lt
      exact Transaction.Reader.number_append (by omega)
    exact prefixFree_of_read (fun _ _ => UInt32.toNat_inj.mp) hread
  refine hfree.flatMap_inj ?_ (fun _ _ => trivial) (fun _ _ => trivial) h
  intro n hnil
  have hlen := congrArg List.length hnil
  simp at hlen

/-! ## One byte string behind its length -/

theorem length_compactSize_mono {m n : ℕ} (h : m ≤ n) :
    (compactSize m).length ≤ (compactSize n).length := by
  unfold compactSize
  split_ifs <;> simp <;> omega

/-- The whole is the longer the longer the byte string is, so its length
tells the length in front. -/
theorem lengthPrefixed_inj {a b : Bytes} (h : lengthPrefixed a = lengthPrefixed b) : a = b := by
  have hlen := congrArg List.length h
  unfold lengthPrefixed at h hlen
  rw [List.length_append, List.length_append] at hlen
  have hab : a.length = b.length := by
    rcases Nat.le_total a.length b.length with hle | hle
    · have := length_compactSize_mono hle
      omega
    · have := length_compactSize_mono hle
      omega
  rw [hab] at h
  exact List.append_cancel_left h

theorem Script.serialize_inj {s t : Script} (h : s.serialize = t.serialize) : s = t := by
  obtain ⟨s⟩ := s
  obtain ⟨t⟩ := t
  exact congrArg Script.mk (lengthPrefixed_inj h)

end VaultCovenant
