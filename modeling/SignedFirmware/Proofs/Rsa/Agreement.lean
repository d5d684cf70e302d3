import SignedFirmware.Proofs.Rsa.Primes
import SignedFirmware.Proofs.Steps

namespace SignedFirmware.Rsa

namespace KeyPair

/-- Modulus, digest and buffer have the lengths that a scheme asks for. -/
structure Fits (key : KeyPair) (scheme : Scheme) (digest buffer : Bytes) : Prop where
  modulus : key.publicKey.modulus.length = scheme.signatureLength
  buffer : buffer.length = scheme.signatureLength
  digest : digest.length = scheme.algorithm.length

/-- What a key pair signs is accepted under its public key. -/
def Genuine (key : KeyPair) : Prop :=
  ∀ {scheme : Scheme} {digest : Bytes} {length : Nat} {signature : Vector UInt8 length},
    key.sign scheme digest length = .ok signature →
      key.publicKey.accepts scheme.algorithm digest signature.toList = true

variable {key : KeyPair} {scheme : Scheme} {digest buffer : Bytes}

/-- Well-formed key pairs from files are genuine. -/
theorem WellFormed.genuine (wellFormed : key.WellFormed) {file : Bytes}
    (read : ofFile file = .ok key) : key.Genuine :=
  (wellFormed.sound read).accepts

/-- The buffer holds the signature, or it is as it was before. -/
theorem signInto_eq : key.signInto scheme digest buffer =
    match key.sign scheme digest buffer.length with
    | .ok signature => .ok () signature.toList
    | .error error => .error error buffer := by
  change EStateM.bind (key.signer.sign scheme digest buffer.length) _ buffer = _
  simp only [EStateM.bind, signer]
  cases key.sign scheme digest buffer.length <;> rfl

/-- A signature is only made if all lengths fit. -/
theorem signInto_eq_ok {after : Bytes} (signed : key.signInto scheme digest buffer = .ok () after) :
    key.Fits scheme digest buffer ∧ ∃ signature : Vector UInt8 buffer.length,
      key.sign scheme digest buffer.length = .ok signature ∧ signature.toList = after := by
  rw [signInto_eq] at signed
  split at signed
  next signature result =>
    obtain ⟨modulus, length, size, -⟩ := sign_eq_ok result
    obtain ⟨-, same⟩ := EStateM.Result.ok.inj signed
    exact ⟨⟨modulus, length, size⟩, signature, result, same⟩
  next => cases signed

/-- If all lengths fit, a usable key pair makes a signature. -/
theorem signInto_completes (fits : key.Fits scheme digest buffer) (usable : key.usable = true) :
    ∃ after, key.signInto scheme digest buffer = .ok () after := by
  have made : ∃ signature, key.sign scheme digest buffer.length = .ok signature := by
    rw [fits.buffer]
    exact sign_completes fits.modulus usable ⟨digest.toArray, fits.digest⟩
  obtain ⟨signature, result⟩ := made
  exact ⟨signature.toList, by rw [signInto_eq, result]⟩

/-- A length that does not fit leaves the buffer as it was. -/
theorem signInto_of_not_fits (misfit : ¬ key.Fits scheme digest buffer) :
    ∃ error, key.signInto scheme digest buffer = .error error buffer := by
  cases result : key.sign scheme digest buffer.length with
  | ok signature =>
      have signed : key.signInto scheme digest buffer = .ok () signature.toList := by
        rw [signInto_eq, result]
      exact absurd (signInto_eq_ok signed).1 misfit
  | error error => exact ⟨error, by rw [signInto_eq, result]⟩

/-- A ring with a genuine pair's public key accepts its signatures. -/
theorem Genuine.verify (genuine : key.Genuine) {file : Bytes} (read : ofFile file = .ok key)
    {length : Nat} {signature : Vector UInt8 length}
    (signed : key.sign scheme digest length = .ok signature) {ring : Keyring}
    (trusted : key.publicKey ∈ ring.keys) :
    ring.verify ⟨scheme, key.publicKey.modulus, key.publicKey.exponent, signature.toList⟩ digest =
      .ok (ring.keys.idxOf key.publicKey) := by
  obtain ⟨-, -, size, -⟩ := sign_eq_ok signed
  rw [Keyring.verify_eq, Keyring.verifyBy_eq, if_neg (not_not_intro size), new_of_ofFile read,
    if_pos trusted, if_pos (genuine signed)]

/-- What a genuine pair signs into a buffer is accepted by its rings. -/
theorem signInto_agrees {file : Bytes} (read : ofFile file = .ok key) (scheme : Scheme)
    (digest buffer : Bytes) :
    let signer : Signer Bytes := key.signer
    let trusted := PublicKey.new signer.modulus signer.exponent
    (key.WellFormed → key.Genuine) ∧
      (∀ signature, key.signInto scheme digest buffer = .ok () signature →
        signer.modulus.length = scheme.signatureLength ∧
          buffer.length = scheme.signatureLength ∧
          digest.length = scheme.algorithm.length ∧
          (key.Genuine → ∀ ring : Keyring, trusted ∈ ring.keys →
            ∃ index,
              ring.verify ⟨scheme, signer.modulus, signer.exponent, signature⟩ digest =
                .ok index ∧
              ring.keys[index]? = some trusted ∧
              ∀ earlier < index, ring.keys[earlier]? ≠ some trusted)) ∧
      (signer.modulus.length ≠ scheme.signatureLength ∨ buffer.length ≠ scheme.signatureLength ∨
          digest.length ≠ scheme.algorithm.length →
        ∃ error, key.signInto scheme digest buffer = .error error buffer) := by
  intro signer trusted
  -- Making a key from the parts of the signer strips its modulus again, which changes nothing.
  have own : trusted = key.publicKey := new_of_ofFile read
  refine ⟨fun wellFormed => wellFormed.genuine read, ?_, ?_⟩
  · intro signature signed
    obtain ⟨fits, made, result, rfl⟩ := signInto_eq_ok signed
    refine ⟨fits.modulus, fits.buffer, fits.digest, ?_⟩
    intro genuine ring member
    rw [own] at member ⊢
    refine ⟨_, genuine.verify read result member, List.getElem?_idxOf member, ?_⟩
    intro earlier before present
    exact Nat.not_lt_of_le (Keyring.idxOf_le present) before
  · intro misfit
    apply signInto_of_not_fits
    intro fits
    rcases misfit with modulus | length | size
    · exact modulus fits.modulus
    · exact length fits.buffer
    · exact size fits.digest

/-- A longer scheme leaves the buffer as it was. -/
theorem sample_agrees :
    let signer : Signer Bytes := sample.signer
    let trusted := PublicKey.new signer.modulus signer.exponent
    let ring : Keyring := ⟨[.new [7] 3, trusted, trusted]⟩
    ofFile sample.toFile = .ok sample ∧ sample.WellFormed ∧
      (∃ signature,
        sample.signInto .rsa2048 (zeroBytes 32) (zeroBytes 256) = .ok () signature ∧
          ring.verify ⟨.rsa2048, signer.modulus, signer.exponent, signature⟩ (zeroBytes 32) =
            .ok 1) ∧
      ∃ error, sample.signInto .rsa3072 (zeroBytes 32) (zeroBytes 256) =
        .error error (zeroBytes 256) := by
  intro signer trusted ring
  have fits : sample.Fits .rsa2048 (zeroBytes 32) (zeroBytes 256) :=
    ⟨by decide +kernel, length_zeroBytes 256, length_zeroBytes 32⟩
  obtain ⟨signature, signed⟩ := signInto_completes fits (by decide +kernel)
  obtain ⟨genuine, agrees, -⟩ :=
    signInto_agrees ofFile_sample .rsa2048 (zeroBytes 32) (zeroBytes 256)
  obtain ⟨-, -, unchanged⟩ :=
    signInto_agrees ofFile_sample .rsa3072 (zeroBytes 32) (zeroBytes 256)
  obtain ⟨-, -, -, accepted⟩ := agrees signature signed
  have another : PublicKey.new [7] 3 ≠ trusted := by decide +kernel
  have member : trusted ∈ ring.keys := .tail _ (.head _)
  obtain ⟨index, verified, present, first⟩ := accepted (genuine sample_wellFormed) ring member
  have second : index = 1 := by
    rcases index with _ | _ | index
    · exact absurd (Option.some.inj present) another
    · rfl
    · exact absurd rfl (first 1 (by omega))
  refine ⟨ofFile_sample, sample_wellFormed, ⟨signature, signed, second ▸ verified⟩, ?_⟩
  have misfit : signer.modulus.length ≠ Scheme.rsa3072.signatureLength := by decide +kernel
  exact unchanged (.inl misfit)

end KeyPair

end SignedFirmware.Rsa
