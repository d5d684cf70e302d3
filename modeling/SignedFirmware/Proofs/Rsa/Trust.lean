import Mathlib.Data.List.Basic
import SignedFirmware.Halt
import SignedFirmware.Proofs.Rsa.Signing

namespace SignedFirmware

/-- Byte strings are the same up to zeros in front. -/
def SameUpToZeros (left right : Bytes) : Prop :=
  ∃ front back, zeroBytes front ++ left = zeroBytes back ++ right

@[simp] theorem stripLeadingZeros_append (count : Nat) (bytes : Bytes) :
    stripLeadingZeros (zeroBytes count ++ bytes) = stripLeadingZeros bytes := by
  induction count with
  | zero => rfl
  | succ count ih => exact ih

/-- What is dropped in front of a number are zeros. -/
theorem exists_append_stripLeadingZeros (bytes : Bytes) :
    ∃ count, zeroBytes count ++ stripLeadingZeros bytes = bytes := by
  induction bytes with
  | nil => exact ⟨0, rfl⟩
  | cons byte rest ih =>
      by_cases zero : byte = 0
      · subst zero
        obtain ⟨count, same⟩ := ih
        exact ⟨count + 1, congrArg (0 :: ·) same⟩
      · have kept : stripLeadingZeros (byte :: rest) = byte :: rest :=
          List.dropWhile_cons_of_neg (by simpa using zero)
        exact ⟨0, kept⟩

@[simp] theorem stripLeadingZeros_idem (bytes : Bytes) :
    stripLeadingZeros (stripLeadingZeros bytes) = stripLeadingZeros bytes := by
  obtain ⟨count, same⟩ := exists_append_stripLeadingZeros bytes
  have stripped := stripLeadingZeros_append count (stripLeadingZeros bytes)
  rw [same] at stripped
  exact stripped.symm

/-- Dropping the zeros in front is a normal form. -/
theorem sameUpToZeros_iff {left right : Bytes} :
    SameUpToZeros left right ↔ stripLeadingZeros left = stripLeadingZeros right := by
  constructor
  · rintro ⟨front, back, same⟩
    rw [← stripLeadingZeros_append front left, same, stripLeadingZeros_append]
  · intro same
    obtain ⟨leftCount, leftSame⟩ := exists_append_stripLeadingZeros left
    obtain ⟨rightCount, rightSame⟩ := exists_append_stripLeadingZeros right
    refine ⟨rightCount, leftCount, ?_⟩
    rw [← leftSame, ← rightSame, same, ← List.append_assoc, ← List.append_assoc]
    congr 1
    simp only [zeroBytes, List.replicate_append_replicate, Nat.add_comm]

namespace Rsa

namespace PublicKey

/-- A key is made from its parts or read from a file. -/
inductive Obtained : PublicKey → Prop where
  | parts (modulus : Bytes) (exponent : UInt32) : Obtained (.new modulus exponent)
  | publicFile {file : Bytes} {key : PublicKey} (read : ofFile file = .ok key) : Obtained key
  | privateFile {file : Bytes} {pair : KeyPair} (read : KeyPair.ofFile file = .ok pair) :
      Obtained pair.publicKey

/-- A block has the key's exponent and, up to zeros in front, its modulus. -/
def Claimed (key : PublicKey) (block : SignatureBlock) : Prop :=
  key.exponent = block.exponent ∧ SameUpToZeros key.modulus block.modulus

/-- A key without zeros in front is made from its own parts. -/
theorem new_eq_self {key : PublicKey} :
    new key.modulus key.exponent = key ↔ stripLeadingZeros key.modulus = key.modulus := by
  cases key
  simp [new]

theorem new_idem (modulus : Bytes) (exponent : UInt32) :
    new (new modulus exponent).modulus (new modulus exponent).exponent = new modulus exponent :=
  new_eq_self.2 (stripLeadingZeros_idem modulus)

/-- Zeros in front of a modulus do not make another key. -/
theorem new_append (count : Nat) (modulus : Bytes) (exponent : UInt32) :
    new (zeroBytes count ++ modulus) exponent = new modulus exponent := by
  rw [new, stripLeadingZeros_append, new]

theorem ofNumbers_eq_ok {modulus : Bytes} {exponent : Nat} {key : PublicKey}
    (made : ofNumbers modulus exponent = .ok key) : key = new modulus (UInt32.ofNat exponent) := by
  unfold ofNumbers at made
  split at made
  · exact (Except.ok.inj made).symm
  · cases made

end PublicKey

/-- A pair from a file has no zeros in front of its modulus. -/
theorem KeyPair.new_of_ofFile {file : Bytes} {pair : KeyPair} (read : ofFile file = .ok pair) :
    PublicKey.new pair.publicKey.modulus pair.publicKey.exponent = pair.publicKey := by
  unfold ofFile at read
  split at read
  next => cases read
  next => cases read
  next =>
    split at read
    next =>
      obtain ⟨key, made, rest⟩ := bind_eq_ok.1 read
      obtain rfl := pure_eq_ok.1 rest
      rw [PublicKey.ofNumbers_eq_ok made]
      exact PublicKey.new_idem _ _
    next => cases read

namespace PublicKey

/-- However a key is obtained, its modulus has no zeros in front. -/
theorem Obtained.new_eq {key : PublicKey} (obtained : key.Obtained) :
    new key.modulus key.exponent = key := by
  cases obtained with
  | parts modulus exponent => exact new_idem modulus exponent
  | privateFile read => exact KeyPair.new_of_ofFile read
  | publicFile read =>
      unfold ofFile at read
      split at read
      next => cases read
      next => cases read
      next =>
        split at read
        next => cases read
        next =>
          rw [ofNumbers_eq_ok read]
          exact new_idem _ _

/-- A key is looked up by its parts. -/
theorem isClaimedBy_iff {key : PublicKey} {block : SignatureBlock} :
    key.isClaimedBy block = true ↔ key = new block.modulus block.exponent := by
  cases key
  simp [isClaimedBy, new, and_comm]

/-- The lookup finds the keys that a block claims to be signed with. -/
theorem Obtained.claimed_iff {key : PublicKey} (obtained : key.Obtained) {block : SignatureBlock} :
    key.Claimed block ↔ key = new block.modulus block.exponent := by
  have stripped := new_eq_self.1 obtained.new_eq
  rw [Claimed, sameUpToZeros_iff, stripped]
  cases key
  simp [new, and_comm]

end PublicKey

namespace Keyring

/-- A ring is built by adding one key after the other. -/
inductive Built : Keyring → Prop where
  | empty : Built .empty
  | push {ring : Keyring} {key : PublicKey} (built : Built ring) (obtained : key.Obtained) :
      Built (ring.push key).2

/-- This adds keys one after the other. -/
def pushAll (ring : Keyring) (more : List PublicKey) : Keyring :=
  more.foldl (fun ring key => (ring.push key).2) ring

/-- A key is the first one in a ring that a block claims. -/
structure Leads (ring : Keyring) (block : SignatureBlock) (index : Nat) (key : PublicKey) :
    Prop where
  present : ring.keys[index]? = some key
  claimed : key.Claimed block
  least : ∀ {earlier : Nat} {other : PublicKey}, earlier < index →
    ring.keys[earlier]? = some other → ¬ other.Claimed block

/-- This verifies a signature block with any check of signatures. -/
def verifyBy (check : PublicKey → Algorithm → (digest signature : Bytes) → Bool) (ring : Keyring)
    (block : SignatureBlock) (digest : Bytes) : Except SignatureError Nat :=
  if digest.length ≠ block.scheme.algorithm.length then
    .error .unspecified
  else
    match ring.keys.zipIdx.find? fun (key, _) => key.isClaimedBy block with
    | none => .error .untrustedKey
    | some (key, index) =>
        if check key block.scheme.algorithm digest block.signature then
          .ok index
        else
          .error .badSignature

variable {ring : Keyring} {check : PublicKey → Algorithm → (digest signature : Bytes) → Bool}
  {block : SignatureBlock} {digest : Bytes}

/-- A ring verifies with the check of RSA signatures. -/
theorem verify_eq (ring : Keyring) (block : SignatureBlock) (digest : Bytes) :
    ring.verify block digest = ring.verifyBy PublicKey.accepts block digest := rfl

theorem keys_pushAll (ring : Keyring) (more : List PublicKey) :
    (ring.pushAll more).keys = ring.keys ++ more := by
  induction more generalizing ring with
  | nil => simp [pushAll]
  | cons key rest ih =>
      have pushed := ih (ring.push key).2
      rw [pushAll, List.foldl_cons]
      rw [pushAll] at pushed
      rw [pushed, push, List.append_assoc, List.singleton_append]

theorem Built.obtained (built : ring.Built) : ∀ key ∈ ring.keys, key.Obtained := by
  induction built with
  | empty => exact nofun
  | push _ obtained ih =>
      intro key member
      rcases List.mem_append.1 member with earlier | last
      · exact ih key earlier
      · exact List.mem_singleton.1 last ▸ obtained

/-- A key is found at the index where it occurs first. -/
theorem find?_zipIdx {keys : List PublicKey} {key : PublicKey} {start : Nat} :
    ((keys.zipIdx start).find? fun (other, _) => decide (other = key)) =
      if key ∈ keys then some (key, start + keys.idxOf key) else none := by
  induction keys generalizing start with
  | nil => rfl
  | cons first rest ih =>
      rw [List.zipIdx_cons, List.find?_cons, ih, List.idxOf_cons]
      by_cases same : first = key
      · simp [same]
      · have other : key ≠ first := Ne.symm same
        have differs : (first == key) = false := beq_eq_false_iff_ne.2 same
        simp [same, other, differs, Nat.add_assoc, Nat.add_comm 1]

/-- The first claimed key decides, if there is one. -/
theorem verifyBy_eq : ring.verifyBy check block digest =
    if digest.length ≠ block.scheme.algorithm.length then
      .error .unspecified
    else if PublicKey.new block.modulus block.exponent ∈ ring.keys then
      if check (.new block.modulus block.exponent) block.scheme.algorithm digest
          block.signature then
        .ok (ring.keys.idxOf (.new block.modulus block.exponent))
      else
        .error .badSignature
    else
      .error .untrustedKey := by
  have looked : (fun (entry : PublicKey × Nat) => entry.1.isClaimedBy block) =
      fun entry => decide (entry.1 = PublicKey.new block.modulus block.exponent) := by
    funext entry
    rw [Bool.eq_iff_iff, PublicKey.isClaimedBy_iff, decide_eq_true_iff]
  unfold verifyBy
  rw [looked, find?_zipIdx]
  by_cases trusted : PublicKey.new block.modulus block.exponent ∈ ring.keys <;> simp [trusted]

theorem unspecified_iff : ring.verifyBy check block digest = .error .unspecified ↔
    digest.length ≠ block.scheme.algorithm.length := by
  rw [verifyBy_eq]
  split_ifs <;> simp_all

theorem untrustedKey_iff (fits : digest.length = block.scheme.algorithm.length) :
    ring.verifyBy check block digest = .error .untrustedKey ↔
      PublicKey.new block.modulus block.exponent ∉ ring.keys := by
  rw [verifyBy_eq, if_neg (not_not_intro fits)]
  split_ifs <;> simp_all

theorem accepted_iff : (∃ index, ring.verifyBy check block digest = .ok index) ↔
    digest.length = block.scheme.algorithm.length ∧
      PublicKey.new block.modulus block.exponent ∈ ring.keys ∧
      check (.new block.modulus block.exponent) block.scheme.algorithm digest
        block.signature = true := by
  rw [verifyBy_eq]
  split_ifs <;> simp_all

/-- A key is found at the same place after others were added. -/
theorem verifyBy_pushAll (more : List PublicKey)
    (trusted : ring.verifyBy check block digest ≠ .error .untrustedKey) :
    (ring.pushAll more).verifyBy check block digest = ring.verifyBy check block digest := by
  by_cases fits : digest.length = block.scheme.algorithm.length
  · rw [Ne, untrustedKey_iff fits, not_not] at trusted
    simp only [verifyBy_eq, keys_pushAll, List.mem_append, trusted, true_or,
      List.idxOf_append_of_mem trusted]
  · rw [unspecified_iff.2 fits, unspecified_iff.2 fits]

/-- A key does not occur before the place where it is found. -/
theorem idxOf_le {keys : List PublicKey} {key : PublicKey} {index : Nat}
    (present : keys[index]? = some key) : keys.idxOf key ≤ index := by
  have early : key ∈ keys.take (index + 1) := by
    rw [← List.getElem?_take_of_lt (Nat.lt_succ_self index)] at present
    exact List.mem_of_getElem? present
  have member := List.mem_of_getElem? present
  exact Nat.le_of_lt_succ ((List.mem_take_iff_idxOf_lt member).1 early)

/-- If a ring holds a claimed key, there is a first one. -/
theorem Built.exists_leads (built : ring.Built) {key : PublicKey} (member : key ∈ ring.keys)
    (claimed : key.Claimed block) : ring.Leads block (ring.keys.idxOf key) key := by
  have looked := (built.obtained key member).claimed_iff.1 claimed
  refine ⟨List.getElem?_idxOf member, claimed, ?_⟩
  intro earlier other before present also
  have same := (built.obtained other (List.mem_of_getElem? present)).claimed_iff.1 also
  rw [same, ← looked] at present
  exact Nat.not_lt_of_le (idxOf_le present) before

/-- The first claimed key is the one that is looked up. -/
theorem Built.looked_up (built : ring.Built) {index : Nat} {key : PublicKey}
    (leads : ring.Leads block index key) :
    key = .new block.modulus block.exponent ∧ ring.keys.idxOf key = index := by
  have member := List.mem_of_getElem? leads.present
  refine ⟨(built.obtained key member).claimed_iff.1 leads.claimed, ?_⟩
  rcases Nat.lt_or_eq_of_le (idxOf_le leads.present) with before | same
  · exact absurd leads.claimed (leads.least before (List.getElem?_idxOf member))
  · exact same

/-- A ring answers as its first claimed key does, whatever the check of signatures. -/
theorem Built.verify_exact (built : ring.Built)
    (check : PublicKey → Algorithm → (digest signature : Bytes) → Bool) (block : SignatureBlock)
    (digest : Bytes) :
    let fits := digest.length = block.scheme.algorithm.length
    let answer := ring.verifyBy check block digest
    ring.verify block digest = ring.verifyBy PublicKey.accepts block digest ∧
      (answer = .error .unspecified ↔ ¬ fits) ∧
      (fits → (answer = .error .untrustedKey ↔ ∀ key ∈ ring.keys, ¬ key.Claimed block)) ∧
      ((∃ key ∈ ring.keys, key.Claimed block) → ∃ index key, ring.Leads block index key) ∧
      (fits → ∀ index key, ring.Leads block index key →
        answer = if check key block.scheme.algorithm digest block.signature then .ok index
          else .error .badSignature) ∧
      (∀ more, answer ≠ .error .untrustedKey →
        (ring.pushAll more).verifyBy check block digest = answer) ∧
      (∀ count, ring.verifyBy check
        { block with modulus := zeroBytes count ++ block.modulus } digest = answer) ∧
      ∀ other : Keyring, (∀ key, key ∈ other.keys ↔ key ∈ ring.keys) →
        ((∃ index, other.verifyBy check block digest = .ok index) ↔
          ∃ index, answer = .ok index) := by
  intro fits answer
  refine ⟨verify_eq ring block digest, unspecified_iff, ?_, ?_, ?_,
    fun more => verifyBy_pushAll more, ?_, ?_⟩
  · intro fits
    rw [untrustedKey_iff fits]
    constructor
    · intro absent key member claimed
      exact absent ((built.obtained key member).claimed_iff.1 claimed ▸ member)
    · intro unclaimed member
      exact unclaimed _ member ((built.obtained _ member).claimed_iff.2 rfl)
  · rintro ⟨key, member, claimed⟩
    exact ⟨_, key, built.exists_leads member claimed⟩
  · intro fits index key leads
    obtain ⟨looked, first⟩ := built.looked_up leads
    have member := List.mem_of_getElem? leads.present
    change ring.verifyBy check block digest = _
    rw [verifyBy_eq, if_neg (not_not_intro fits), ← looked, if_pos member, first]
  · intro count
    change _ = ring.verifyBy check block digest
    rw [verifyBy_eq, verifyBy_eq, PublicKey.new_append]
  · intro other same
    rw [accepted_iff, accepted_iff, same]

/-- Two zeros in front of a modulus and a further key change nothing. -/
theorem unit_verified :
    let other : PublicKey := .new [0, 7] 3
    let ring := empty.pushAll [other, KeyPair.unit.publicKey, KeyPair.unit.publicKey]
    ring.Built ∧ ∃ signature : Vector UInt8 256,
      let block : SignatureBlock :=
        ⟨.rsa2048, zeroBytes 2 ++ KeyPair.unit.publicKey.modulus, 1, signature.toList⟩
      ring.Leads block 1 KeyPair.unit.publicKey ∧
        ring.verify block (zeroBytes 32) = .ok 1 ∧
        (ring.pushAll [other]).verify block (zeroBytes 32) = .ok 1 := by
  intro other ring
  have trusted : KeyPair.unit.publicKey.Obtained := by
    rw [← PublicKey.new_eq_self.2 KeyPair.unit_sound.stripped]
    exact .parts _ _
  have built : ring.Built := .push (.push (.push .empty (.parts [0, 7] 3)) trusted) trusted
  have modulus : KeyPair.unit.publicKey.modulus.length = Scheme.rsa2048.signatureLength :=
    List.length_replicate
  have usable : KeyPair.unit.usable = true := by decide +kernel
  obtain ⟨signature, signed⟩ :=
    KeyPair.sign_completes modulus usable ⟨(zeroBytes 32).toArray, rfl⟩
  have passed := KeyPair.unit_sound.accepts signed
  refine ⟨built, signature, ?_⟩
  intro block
  have leads : ring.Leads block 1 KeyPair.unit.publicKey := by
    refine ⟨rfl, ⟨rfl, 2, 0, rfl⟩, ?_⟩
    intro earlier other before present claimed
    obtain rfl : earlier = 0 := by omega
    obtain rfl := Option.some.inj present
    cases claimed.1
  obtain ⟨same, -, -, -, decided, added, -, -⟩ :=
    built.verify_exact PublicKey.accepts block (zeroBytes 32)
  have fits : (zeroBytes 32).length = Scheme.rsa2048.algorithm.length := length_zeroBytes 32
  have accepted : ring.verifyBy PublicKey.accepts block (zeroBytes 32) = .ok 1 := by
    rw [decided fits 1 _ leads]
    exact if_pos passed
  refine ⟨leads, same.trans accepted, ?_⟩
  rw [verify_eq, added [other] (by rw [accepted]; exact nofun), accepted]

end Keyring

end Rsa

end SignedFirmware
