import Keyring.Proofs.Manager.Ownership
import Keyring.Proofs.Transaction.Reader

/-!
# What signed bytes tell

A signed transaction tells the transaction and the signature, and the text whose hash is signed tells the
transaction (`Transaction.signed_and_preimage_recovered`). So no two transactions share a signed text or a
text that is hashed, whatever their types, as long as the text is short enough for its lengths to be written.
-/

namespace Keyring

/-- The number that stands for the parity and the chain fits into 128 bits, even for the last chain. -/
theorem LegacyTransaction.parityNumber_lt (tx : LegacyTransaction) (oddY : Bool) :
    tx.parityNumber oddY < 2 ^ 128 := by
  have hparity : oddY.toNat ≤ 1 := Bool.toNat_le oddY
  unfold parityNumber
  cases tx.chainId with
  | none => simp only; omega
  | some chain =>
    have hchain : chain.toNat < 2 ^ 64 := chain.toNat_lt
    simp only
    omega

/-- The signed text of a transaction is short enough to be read, whatever bytes it carries that fit into
memory. -/
theorem LegacyTransaction.length_signed_lt (tx : LegacyTransaction) (sig : Signature)
    (h : tx.input.length < 2 ^ 63) : (Rlp.encode (.list (tx.signedFields sig))).length < 2 ^ 64 := by
  have hnumber {n : Nat} (hn : n < 2 ^ 256) := Rlp.length_encode_number_le hn
  have hnonce := hnumber (Nat.lt_trans tx.nonce.toNat_lt (by decide))
  have hprice := hnumber (Nat.lt_trans tx.gasPrice.isLt (by decide))
  have hlimit := hnumber (Nat.lt_trans tx.gasLimit.toNat_lt (by decide))
  have hvalue := hnumber tx.value.isLt
  have hparity := hnumber (Nat.lt_trans (tx.parityNumber_lt sig.oddY) (by decide))
  have hr := hnumber sig.r.isLt
  have hs := hnumber sig.s.isLt
  have hrecipient : (Rlp.encode tx.recipient.item).length ≤ 29 := by
    cases tx.recipient with
    | none => decide
    | some address =>
      have hlength : address.toBytes.length = 20 := address.length_toBytes
      have hbytes : (Rlp.encodeBytes address.toBytes).length ≤ _ := Rlp.length_encodeBytes_le (by omega)
      rw [Recipient.item, Rlp.encode]
      omega
  have hinput : (Rlp.encode (.bytes tx.input)).length ≤ tx.input.length + 9 := by
    rw [Rlp.encode]
    exact Rlp.length_encodeBytes_le (by omega)
  have hpayload : (Rlp.encodeAll (tx.signedFields sig)).length < 2 ^ 63 + 1000 := by
    unfold signedFields fields
    simp only [List.cons_append, List.nil_append, Rlp.encodeAll, List.length_append, List.length_nil]
    omega
  have hprefix : (Rlp.lengthPrefix 0xc0 (Rlp.encodeAll (tx.signedFields sig)).length).length ≤ 9 :=
    Rlp.length_lengthPrefix_le 0xc0 (by omega)
  rw [Rlp.encode, List.length_append]
  omega

/-- What a manager answers when it signs a transaction is the signed text, with a signature of the hash of
the transaction's preimage. -/
theorem Manager.of_answer_signTransaction {σ : Type} {manager : Manager σ} {session : Session σ}
    {now : Instant} {address : Address} {password : Option String} {tx : Transaction} {bytes : Bytes}
    (h : answer (manager.signTransaction now address password tx) session = .ok bytes) :
    ∃ key sig, answer (manager.resolveKey now address password) session = .ok key ∧
      manager.signer.sign (keccak256 tx.preimage).toBytes key false = .ok sig ∧
      bytes = tx.signed sig := by
  obtain ⟨sig, hsign, hbytes⟩ := of_answer_bind h
  cases hbytes
  obtain ⟨key, hkey, hsig⟩ := of_answer_sign hsign
  exact ⟨key, sig, hkey, hsig, rfl⟩

namespace Transaction

/-- Signed texts tell the transaction and the signature: they are read back, and different ones are never
the same text, within a type and across types. The last number but two of a transaction without a type is
27 or 28 if it names no chain, and else 35 or 36 and twice the chain, which never overflows. The texts whose
hashes are signed tell the transaction too, and a manager signs exactly those hashes. -/
theorem signed_and_preimage_recovered :
    (∀ tx sig, (signed tx sig).length < 2 ^ 64 → ofSigned? (signed tx sig) = some (tx, sig)) ∧
    (∀ tx tx' sig sig', (signed tx sig).length < 2 ^ 64 → signed tx sig = signed tx' sig' →
      tx = tx' ∧ sig = sig') ∧
    (∀ (tx : LegacyTransaction) sig, (signed (legacy tx) sig).length < 2 ^ 64 →
      ∃ v, Rlp.decodeList? (signed (legacy tx) sig) =
          some (tx.fields ++ [.number v, .number sig.r.toNat, .number sig.s.toNat]) ∧
        v < 2 ^ 128 ∧ (tx.chainId = none → v = 27 + sig.oddY.toNat) ∧
        ∀ chain, tx.chainId = some chain → v = 35 + 2 * chain.toNat + sig.oddY.toNat) ∧
    (∀ tx, (preimage tx).length < 2 ^ 64 → ofPreimage? (preimage tx) = some tx) ∧
    (∀ tx tx', (preimage tx).length < 2 ^ 64 → preimage tx = preimage tx' → tx = tx') ∧
    ∀ (σ : Type) (manager : Manager σ) session now address password tx bytes,
      answer (manager.signTransaction now address password tx) session = .ok bytes →
      ∃ key sig, answer (manager.resolveKey now address password) session = .ok key ∧
        manager.signer.sign (keccak256 (preimage tx)).toBytes key false = .ok sig ∧
        bytes = signed tx sig := by
  refine ⟨fun tx sig => ofSigned?_signed tx sig, fun tx tx' sig sig' h heq => ?_, fun tx sig h => ?_,
    fun tx => ofPreimage?_preimage tx, fun tx tx' h heq => ?_,
    fun σ manager session now address password tx bytes h => Manager.of_answer_signTransaction h⟩
  · have hread := ofSigned?_signed tx sig h
    rw [heq] at h hread
    rw [ofSigned?_signed tx' sig' h] at hread
    cases hread
    exact ⟨rfl, rfl⟩
  · refine ⟨tx.parityNumber sig.oddY, Rlp.decodeList?_encode h, tx.parityNumber_lt sig.oddY,
      fun hchain => ?_, fun chain hchain => ?_⟩
    · rw [LegacyTransaction.parityNumber, hchain]
    · rw [LegacyTransaction.parityNumber, hchain]
  · have hread := ofPreimage?_preimage tx h
    rw [heq] at h hread
    rw [ofPreimage?_preimage tx' h] at hread
    cases hread
    rfl

/-- The creation of a contract on the last chain, whose parity number has more than sixty-four bits. -/
def lastChain : LegacyTransaction :=
  { chainId := some 0xffffffffffffffff, nonce := 0, gasPrice := 1, gasLimit := 21000, recipient := none,
    value := 0x80, input := [0x7f] }

/-- The creation of a contract on the last chain is read back, signed and unsigned. -/
theorem signed_and_preimage_recovered_lastChain :
    (signed (legacy lastChain) ⟨1, 2, true⟩).length < 2 ^ 64 ∧
      ofSigned? (signed (legacy lastChain) ⟨1, 2, true⟩) = some (legacy lastChain, ⟨1, 2, true⟩) ∧
      ofPreimage? (preimage (legacy lastChain)) = some (legacy lastChain) := by
  obtain ⟨hsigned, -, -, hpreimage, -, -⟩ := signed_and_preimage_recovered
  have hlength : (signed (legacy lastChain) ⟨1, 2, true⟩).length < 2 ^ 64 := by decide
  exact ⟨hlength, hsigned _ _ hlength, hpreimage _ (by decide)⟩

end Transaction

end Keyring
