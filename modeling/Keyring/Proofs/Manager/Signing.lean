import Keyring.Proofs.Bytes.Spelling
import Keyring.Proofs.Curve.Signature
import Keyring.Proofs.Manager.Ownership

/-!
# Signing messages

A message is signed by its hash, or as it is if it can be a hash. What makes signatures of digests is
left open here (`Signer.ofDigests`); the curve's is one of these (`Signer.ecdsa_eq_ofDigests`). Signing is
resolving the key and then signing with it, and leaves what resolving leaves. So signing a message by its
hash is signing its hash as it is, a message of a wrong length fails only once the key is resolved, and what
is given out is the text of the signature that was made (`Manager.signMessage_by_digest`).
-/

namespace Keyring

/-! ## What signs digests -/

namespace Signer

/-- What signs messages by what signs digests. -/
def ofDigests (name : String) (signDigest : KeyPair → FixedBytes 32 → Option Signature) : Signer where
  name := name
  sign message key hashFirst := do
    let digest ← digest message hashFirst
    match signDigest key digest with
    | some sig => .ok sig
    | none => .error (.signing "signature error")

theorem ecdsa_eq_ofDigests : ecdsa = ofDigests ecdsa.name Ecdsa.sign := rfl

/-- A message that is hashed first has its hash as its digest, and another one is its own digest. -/
theorem digest_eq_ok_iff {message : Bytes} {hashFirst : Bool} {d : FixedBytes 32} :
    digest message hashFirst = .ok d ↔
      d.toBytes = if hashFirst then (keccak256 message).toBytes else message := by
  unfold digest
  cases hashFirst with
  | true =>
    rw [if_pos rfl, if_pos rfl, Except.ok.injEq]
    exact ⟨fun h => congrArg _ h.symm, fun h => (FixedBytes.ext h).symm⟩
  | false =>
    rw [if_neg Bool.false_ne_true, if_neg Bool.false_ne_true]
    cases h : FixedBytes.ofBytes? 32 message with
    | some found =>
      rw [FixedBytes.ofBytes?_eq_some_iff] at h
      rw [h, Except.ok.injEq]
      exact ⟨fun heq => congrArg _ heq.symm, fun heq => (FixedBytes.ext heq).symm⟩
    | none =>
      refine ⟨nofun, fun heq => ?_⟩
      rw [← heq, FixedBytes.ofBytes?_toBytes] at h
      cases h

/-- A message that is no digest is refused where it is not hashed. -/
theorem digest_of_length_ne {message : Bytes} (h : message.length ≠ 32) :
    digest message false = .error (.invalidMessage message.length) := by
  simp [digest, FixedBytes.ofBytes?, h]

variable {name : String} {signDigest : KeyPair → FixedBytes 32 → Option Signature} {message : Bytes}
  {key : KeyPair} {hashFirst : Bool}

/-- What is signed is the digest of the message, if there is one. -/
theorem sign_ofDigests : (ofDigests name signDigest).sign message key hashFirst =
    match digest message hashFirst with
    | .error e => .error e
    | .ok d =>
      match signDigest key d with
      | some sig => .ok sig
      | none => .error (.signing "signature error") := by
  unfold ofDigests
  simp only
  cases digest message hashFirst <;> rfl

/-- A signature of a message is one of its digest. -/
theorem sign_ofDigests_eq_ok_iff {sig : Signature} :
    (ofDigests name signDigest).sign message key hashFirst = .ok sig ↔
      ∃ d : FixedBytes 32, d.toBytes = (if hashFirst then (keccak256 message).toBytes else message) ∧
        signDigest key d = some sig := by
  rw [sign_ofDigests]
  constructor
  · intro h
    cases hdigest : digest message hashFirst with
    | error e => rw [hdigest] at h; cases h
    | ok d =>
      refine ⟨d, digest_eq_ok_iff.1 hdigest, ?_⟩
      cases hsign : signDigest key d with
      | none => simp only [hdigest, hsign] at h; cases h
      | some found => simp only [hdigest, hsign, Except.ok.injEq] at h; rw [h]
  · rintro ⟨d, hdigest, hsign⟩
    simp only [digest_eq_ok_iff.2 hdigest, hsign]

/-- Signing by the hash is signing the hash. -/
theorem sign_ofDigests_hash : (ofDigests name signDigest).sign message key true =
    (ofDigests name signDigest).sign (keccak256 message).toBytes key false := by
  have hhashed : digest message true = .ok (keccak256 message) := digest_eq_ok_iff.2 rfl
  have hplain : digest (keccak256 message).toBytes false = .ok (keccak256 message) :=
    digest_eq_ok_iff.2 rfl
  rw [sign_ofDigests, sign_ofDigests, hhashed, hplain]

end Signer

/-! ## The text of a signature -/

/-- The text is `0x` and a hundred and thirty lowercase digits. Its bytes are read as the signature, and end
with 27 or 28. -/
def Signature.IsText (sig : Signature) (text : String) : Prop :=
  ∃ digits bytes, text.toList = ['0', 'x'] ++ digits ∧ digits.length = 130 ∧
    (∀ c ∈ digits, c ∈ Hex.lowercaseDigits) ∧ Hex.decode? digits = some bytes ∧
    Signature.ofBytes bytes = .ok sig ∧ (bytes.getLast? = some 27 ∨ bytes.getLast? = some 28)

/-- The text that is shown of a signature is one of it. -/
theorem Signature.isText (sig : Signature) : sig.IsText ("0x" ++ Hex.text sig.toBytes) := by
  have htext : ("0x" ++ Hex.text sig.toBytes).toList = ['0', 'x'] ++ Hex.encode sig.toBytes := by
    rw [String.toList_append, Hex.text, String.toList_ofList, String.toList_ofList]
  have hself : ∃ other : Signature, sig.toBytes = other.toBytes := Exists.intro sig (Eq.refl _)
  have hdigits : (Hex.encode sig.toBytes).length = 130 := by
    rw [Hex.length_encode, Signature.length_toBytes]
  exact ⟨Hex.encode sig.toBytes, sig.toBytes, htext, hdigits,
    fun c => Hex.mem_lowercaseDigits_of_mem_encode, Hex.decode?_encode sig.toBytes,
    Signature.ofBytes_toBytes sig, (Signature.exists_eq_toBytes_iff.1 hself).2⟩

namespace Manager

variable {σ : Type} {manager : Manager σ} {session : Session σ} {now : Instant} {address : Address}
  {password : Option String} {message : Bytes} {hashFirst : Bool}

/-! ## Signing is resolving first -/

/-- What is signed with a key that is resolved. -/
theorem signMessage_of_ok {key : KeyPair}
    (h : answer (manager.resolveKey now address password) session = .ok key) :
    manager.signMessage now address password message hashFirst session =
      match manager.signer.sign message key hashFirst with
      | .ok sig =>
        .ok ("0x" ++ Hex.text sig.toBytes) (leaves (manager.resolveKey now address password) session)
      | .error e => .error e (leaves (manager.resolveKey now address password) session) := by
  have hsign : manager.sign now address password message hashFirst session =
      match manager.signer.sign message key hashFirst with
      | .ok sig => .ok sig (leaves (manager.resolveKey now address password) session)
      | .error e => .error e (leaves (manager.resolveKey now address password) session) := by
    unfold sign
    rw [bind_of_ok h]
    cases manager.signer.sign message key hashFirst <;> rfl
  unfold signMessage
  cases hsig : manager.signer.sign message key hashFirst with
  | ok sig =>
    rw [hsig] at hsign
    rw [bind_of_ok (answer_of_ok hsign), leaves_of_ok hsign]
    rfl
  | error e =>
    rw [hsig] at hsign
    rw [bind_of_error (answer_of_error hsign), leaves_of_error hsign]

/-- Nothing is signed without a key. -/
theorem signMessage_of_error {e : AccountError}
    (h : answer (manager.resolveKey now address password) session = .error e) :
    manager.signMessage now address password message hashFirst session =
      .error e (leaves (manager.resolveKey now address password) session) := by
  have hsign : manager.sign now address password message hashFirst session =
      .error e (leaves (manager.resolveKey now address password) session) := by
    unfold sign
    exact bind_of_error h
  unfold signMessage
  rw [bind_of_error (answer_of_error hsign), leaves_of_error hsign]

/-- A message is signed exactly if a key is resolved that signs it. -/
theorem answer_signMessage_eq_ok_iff {text : String} :
    answer (manager.signMessage now address password message hashFirst) session = .ok text ↔
      ∃ key sig, answer (manager.resolveKey now address password) session = .ok key ∧
        manager.signer.sign message key hashFirst = .ok sig ∧ text = "0x" ++ Hex.text sig.toBytes := by
  constructor
  · intro h
    obtain ⟨sig, hsign, htext⟩ := of_answer_bind h
    obtain ⟨key, hkey, hsig⟩ := of_answer_sign hsign
    cases htext
    exact ⟨key, sig, hkey, hsig, rfl⟩
  · rintro ⟨key, sig, hkey, hsig, rfl⟩
    have hsigned : manager.signMessage now address password message hashFirst session = _ :=
      signMessage_of_ok hkey
    rw [hsig] at hsigned
    exact answer_of_ok hsigned

/-- A manager whose signatures are made of digests, by whatever makes them. Signing a message by its hash is
signing the hash as it is: the same answer, and the same is left. As it is, a message of a length other than
thirty-two is refused for its length if the key is resolved, and otherwise as resolving is; resolving leaves
what is left. A message is signed exactly if the key is resolved and signs the digest, and then the text is
that of this signature. If signatures recover from their digests to the addresses of the keys that made
them, so does this one. -/
theorem signMessage_by_digest {σ : Type} (keystore : Keystore σ) (name : String)
    (signDigest : KeyPair → FixedBytes 32 → Option Signature) (session : Session σ) (now : Instant)
    (address : Address) (password : Option String) (message : Bytes) :
    let manager : Manager σ := ⟨keystore, .ofDigests name signDigest⟩
    let resolve := manager.resolveKey now address password
    let signMessage := manager.signMessage now address password
    signMessage message true session = signMessage (keccak256 message).toBytes false session ∧
    (message.length ≠ 32 → signMessage message false session =
      match resolve session with
      | .ok _ after => .error (.invalidMessage message.length) after
      | .error e after => .error e after) ∧
    (∀ hashFirst text, answer (signMessage message hashFirst) session = .ok text ↔
      ∃ (key : KeyPair) (digest : FixedBytes 32) (sig : Signature), answer resolve session = .ok key ∧
        digest.toBytes = (if hashFirst then (keccak256 message).toBytes else message) ∧
        signDigest key digest = some sig ∧ text = "0x" ++ Hex.text sig.toBytes ∧ sig.IsText text) ∧
    ∀ recover : FixedBytes 32 → Signature → Option Address,
      (∀ key digest sig, signDigest key digest = some sig → recover digest sig = some key.address) →
      ∀ hashFirst text, answer (signMessage message hashFirst) session = .ok text →
        ∃ (key : KeyPair) (digest : FixedBytes 32) (sig : Signature), answer resolve session = .ok key ∧
          digest.toBytes = (if hashFirst then (keccak256 message).toBytes else message) ∧
          signDigest key digest = some sig ∧ sig.IsText text ∧ recover digest sig = some key.address := by
  intro manager resolve signMessage
  have hsigned (hashFirst : Bool) (text : String) :
      answer (signMessage message hashFirst) session = .ok text ↔
        ∃ (key : KeyPair) (digest : FixedBytes 32) (sig : Signature), answer resolve session = .ok key ∧
          digest.toBytes = (if hashFirst then (keccak256 message).toBytes else message) ∧
          signDigest key digest = some sig ∧ text = "0x" ++ Hex.text sig.toBytes ∧ sig.IsText text := by
    rw [answer_signMessage_eq_ok_iff]
    constructor
    · rintro ⟨key, sig, hkey, hsig, rfl⟩
      obtain ⟨digest, hdigest, hsign⟩ := Signer.sign_ofDigests_eq_ok_iff.1 hsig
      exact ⟨key, digest, sig, hkey, hdigest, hsign, rfl, sig.isText⟩
    · rintro ⟨key, digest, sig, hkey, hdigest, hsign, htext, -⟩
      exact ⟨key, sig, hkey, Signer.sign_ofDigests_eq_ok_iff.2 ⟨digest, hdigest, hsign⟩, htext⟩
  refine ⟨?_, fun hlength => ?_, hsigned, fun recover hrecover hashFirst text htext => ?_⟩
  · cases h : answer resolve session with
    | ok key =>
      have hsame : manager.signer.sign message key true =
          manager.signer.sign (keccak256 message).toBytes key false := Signer.sign_ofDigests_hash
      exact (signMessage_of_ok h).trans ((signMessage_of_ok h).trans (by rw [hsame])).symm
    | error e => exact (signMessage_of_error h).trans (signMessage_of_error h).symm
  · cases h : answer resolve session with
    | ok key =>
      have hrefused : manager.signer.sign message key false =
          .error (.invalidMessage message.length) := by
        rw [Signer.sign_ofDigests, Signer.digest_of_length_ne hlength]
      rw [eq_ok_of_answer h]
      exact (signMessage_of_ok h).trans (by rw [hrefused])
    | error e =>
      rw [eq_error_of_answer h]
      exact signMessage_of_error h
  · obtain ⟨key, digest, sig, hkey, hdigest, hsign, -, hisText⟩ := (hsigned hashFirst text).1 htext
    exact ⟨key, digest, sig, hkey, hdigest, hsign, hisText, hrecover key digest sig hsign⟩

/-! ### The empty message -/

/-- Signs the hash of the empty message with the key pair one, as on the curve, and nothing else. -/
def signEmpty (key : KeyPair) (digest : FixedBytes 32) : Option Signature :=
  if key = .one ∧ digest = keccak256 [] then Ecdsa.sign key digest else none

/-- Recovers from what is signed. -/
def recoverEmpty (digest : FixedBytes 32) (sig : Signature) : Option Address :=
  if signEmpty .one digest = some sig then some KeyPair.one.address else none

/-- The signer for the empty message is recovered to its account. -/
theorem recoverEmpty_of_signEmpty {key : KeyPair} {digest : FixedBytes 32} {sig : Signature}
    (h : signEmpty key digest = some sig) : recoverEmpty digest sig = some key.address := by
  by_cases hone : key = .one ∧ digest = keccak256 []
  · rw [hone.1] at h ⊢
    exact if_pos h
  · rw [signEmpty, if_neg hone] at h
    cases h

/-- The key pair one is at hand for good. -/
def holdingOne : Session Disk :=
  ⟨⟨.sample, []⟩, UnlockRegistry.empty.insert 0 KeyPair.one.address .one none⟩

/-- The key at hand is resolved without a password. -/
theorem answer_resolveKey_holdingOne (manager : Manager Disk) (now : Instant) :
    answer (manager.resolveKey now KeyPair.one.address none) holdingOne = .ok .one := by
  rw [answer_resolveKey_iff (.inl rfl), UnlockRegistry.lookup_unlocked_iff]
  exact ⟨⟨.one, none⟩, by rw [holdingOne, UnlockRegistry.get?_insert, if_pos rfl]; rfl, rfl, rfl⟩

/-- The empty message is signed by its hash, which recovers, and is refused as it is. -/
theorem signMessage_by_digest_empty :
    let signMessage := (⟨⟨Directory.sample.storage, 1⟩, .ofDigests "Secp256k1Provider" signEmpty⟩ :
      Manager Disk).signMessage 0 KeyPair.one.address none
    (∀ key digest sig, signEmpty key digest = some sig →
      recoverEmpty digest sig = some key.address) ∧
    signMessage [] true holdingOne = signMessage (keccak256 []).toBytes false holdingOne ∧
    answer (signMessage [] false) holdingOne = .error (.invalidMessage 0) ∧
    ∃ sig, Ecdsa.sign .one (keccak256 []) = some sig ∧
      answer (signMessage [] true) holdingOne = .ok ("0x" ++ Hex.text sig.toBytes) ∧
      ∃ (key : KeyPair) (digest : FixedBytes 32) (found : Signature), digest.toBytes = (keccak256 []).toBytes ∧
        found.IsText ("0x" ++ Hex.text sig.toBytes) ∧ recoverEmpty digest found = some key.address := by
  intro signMessage
  obtain ⟨sig, hsig⟩ := Option.isSome_iff_exists.1
    (show (Ecdsa.sign .one (keccak256 [])).isSome = true by decide +kernel)
  have hempty : signEmpty .one (keccak256 []) = some sig := (if_pos ⟨rfl, rfl⟩).trans hsig
  have hkey := answer_resolveKey_holdingOne
    ⟨⟨Directory.sample.storage, 1⟩, .ofDigests "Secp256k1Provider" signEmpty⟩ 0
  obtain ⟨hhash, hplain, hsigned, hrecovers⟩ := signMessage_by_digest ⟨Directory.sample.storage, 1⟩
    "Secp256k1Provider" signEmpty holdingOne 0 KeyPair.one.address none []
  have hrefused := hplain (by decide)
  rw [eq_ok_of_answer hkey] at hrefused
  have htext := (hsigned true _).2 ⟨.one, _, sig, hkey, rfl, hempty, rfl, sig.isText⟩
  obtain ⟨key, digest, found, -, hdigest, -, hisText, hrecovered⟩ :=
    hrecovers recoverEmpty (fun _ _ _ => recoverEmpty_of_signEmpty) true _ htext
  exact ⟨fun _ _ _ => recoverEmpty_of_signEmpty, hhash, answer_of_error hrefused, sig, hsig, htext, key, digest,
    found, hdigest, hisText, hrecovered⟩

end Manager

end Keyring
