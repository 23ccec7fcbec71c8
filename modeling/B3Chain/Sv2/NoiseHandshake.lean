import B3Chain.Machine.Throwing
import B3Chain.Sv2.NoiseTransport

/-!
# The Noise NX handshake

The initiator sends its ephemeral key; the responder answers with its own, its
static key and a payload, the last two sealed.  Each side keeps a hash of all
it has sent and received and a chain of keys, and at the end splits the chain
into the ciphers of the two directions.  Both sides mix the same bytes in the
same order, so they end with the same hash and with matching ciphers.
-/

namespace B3Chain.Sv2

open Words

/-! ## Primitives -/

/-- X25519; a shared secret of zeros is refused. -/
structure X25519 where
  getPublicKey (priv : List Byte) : List Byte
  getSharedSecret (priv pub : List Byte) : Except String (List Byte)

/-- The cipher suite; keys are byte strings. -/
structure NoiseSuite where
  x25519 : X25519
  aead : Aead (List Byte)
  blake2s (data : List Byte) : List Byte
  hmac (key data : List Byte) : List Byte

/-- `HASH_LEN`. -/
def hashLen : Nat := 32

/-- `KEY_LEN`. -/
def keyLen : Nat := 32

/-- A key pair: the public key is that of the private one. -/
structure KeyPair (suite : NoiseSuite) where
  priv : List Byte
  pub : List Byte
  length_priv : priv.length = keyLen
  pub_eq : pub = suite.x25519.getPublicKey priv

/-- What is assumed of the suite: public keys have 32 bytes, two key pairs
agree on a secret, and what was sealed opens again and is a tag longer. -/
structure NoiseSuite.Correct (suite : NoiseSuite) : Prop where
  length_public : ∀ pair : KeyPair suite, pair.pub.length = keyLen
  commutes : ∀ left right : KeyPair suite, ∃ secret,
    suite.x25519.getSharedSecret left.priv right.pub = .ok secret ∧
      suite.x25519.getSharedSecret right.priv left.pub = .ok secret
  decrypt_encrypt : ∀ key nonce ad plaintext,
    suite.aead.decrypt key nonce ad
        (suite.aead.encrypt key nonce ad plaintext) = some plaintext
  length_encrypt : ∀ key nonce ad plaintext, nonce.length = nonceLen →
    (suite.aead.encrypt key nonce ad plaintext).length =
      plaintext.length + tagLen

/-- The text of an error of a cipher. -/
def NoiseError.text : NoiseError → String
  | .nonceOverflow => "noise nonce overflow"
  | .invalidTag => "invalid tag"

section

variable (suite : NoiseSuite)

/-- `hashConcat`. -/
def hashConcat (a b : List Byte) : List Byte :=
  suite.blake2s (a ++ b)

/-- `hkdf` for two outputs. -/
def hkdf (chainingKey ikm : List Byte) : List Byte × List Byte :=
  let tempKey := suite.hmac chainingKey ikm
  let out1 := suite.hmac tempKey [0x01]
  let out2 := suite.hmac tempKey (out1 ++ [0x02])
  (out1, out2)

end

/-! ## The symmetric state -/

/-- `PROTOCOL_NAME`. -/
def protocolName : List Byte :=
  "Noise_NX_25519_ChaChaPoly_BLAKE2s".toList.map fun letter =>
    BitVec.ofNat 8 letter.toNat

/-- `SymmetricState`. -/
structure SymmetricState where
  h : List Byte
  ck : List Byte
  cipher : CipherState (List Byte)

namespace SymmetricState

variable (suite : NoiseSuite)

/-- The constructor. -/
def new : SymmetricState :=
  let h :=
    if protocolName.length ≤ hashLen then
      protocolName ++ List.replicate (hashLen - protocolName.length) 0
    else suite.blake2s protocolName
  { h, ck := h, cipher := { k := none, n := 0 } }

/-- `mixKey`. -/
def mixKey (sym : SymmetricState) (ikm : List Byte) : SymmetricState :=
  let (ck, tempK) := hkdf suite sym.ck ikm
  { sym with ck, cipher := { k := some tempK, n := 0 } }

/-- `mixHash`. -/
def mixHash (sym : SymmetricState) (data : List Byte) : SymmetricState :=
  { sym with h := hashConcat suite sym.h data }

/-- `encryptAndHash`. -/
def encryptAndHash (sym : SymmetricState) (plaintext : List Byte) :
    Except String (List Byte × SymmetricState) := do
  let (ct, cipher) ← (sym.cipher.encryptWithAd suite.aead sym.h
    plaintext).mapError NoiseError.text
  return (ct, { sym with cipher }.mixHash suite ct)

/-- `decryptAndHash`. -/
def decryptAndHash (sym : SymmetricState) (ciphertext : List Byte) :
    Except String (List Byte × SymmetricState) := do
  let (pt, cipher) ← (sym.cipher.decryptWithAd suite.aead sym.h
    ciphertext).mapError NoiseError.text
  return (pt, { sym with cipher }.mixHash suite ciphertext)

/-- `split`. -/
def split (sym : SymmetricState) :
    CipherState (List Byte) × CipherState (List Byte) :=
  let (k1, k2) := hkdf suite sym.ck []
  ({ k := some k1, n := 0 }, { k := some k2, n := 0 })

end SymmetricState

/-! ## The handshake -/

/-- `Role`. -/
inductive Role
  | initiator
  | responder
  deriving DecidableEq

/-- `HandshakeResult`. -/
structure HandshakeResult where
  sendCipher : CipherState (List Byte)
  recvCipher : CipherState (List Byte)
  handshakeHash : List Byte
  remoteStaticPub : Option (List Byte)
  responderPayload : Option (List Byte)

/-- `NoiseNX`. -/
structure NoiseNX (suite : NoiseSuite) where
  role : Role
  staticKey : Option (KeyPair suite)
  sym : SymmetricState
  e : Option (KeyPair suite)
  re : Option (List Byte)
  rs : Option (List Byte)

namespace NoiseNX

variable {suite : NoiseSuite}

/-- The constructor. -/
def new (role : Role) (staticKey : Option (KeyPair suite)) :
    Except String (NoiseNX suite) :=
  if role = .responder ∧ staticKey.isNone then
    .error "responder requires a static key"
  else
    .ok { role, staticKey, sym := .new suite, e := none, re := none,
          rs := none }

/-- `writeMessage1`, with the ephemeral key that was drawn. -/
def writeMessage1 (nx : NoiseNX suite) (e : KeyPair suite) :
    Except String (List Byte × NoiseNX suite) :=
  if nx.role ≠ .initiator then .error "writeMessage1: wrong role"
  else .ok (e.pub, { nx with e := some e, sym := nx.sym.mixHash suite e.pub })

/-- `readMessage1`. -/
def readMessage1 (nx : NoiseNX suite) (msg : List Byte) :
    Except String (NoiseNX suite) :=
  if nx.role ≠ .responder then .error "readMessage1: wrong role"
  else if msg.length < 32 then .error "noise msg1 too short"
  else
    let re := msg.take 32
    .ok { nx with re := some re, sym := nx.sym.mixHash suite re }

/-- `writeMessage2`, with the ephemeral key that was drawn. -/
def writeMessage2 (nx : NoiseNX suite) (e : KeyPair suite)
    (payload : List Byte) : Except String (List Byte × NoiseNX suite) :=
  if nx.role ≠ .responder then .error "writeMessage2: wrong role"
  else
    match nx.staticKey, nx.re with
    | some staticKey, some re => do
        let sym := nx.sym.mixHash suite e.pub
        let ee ← suite.x25519.getSharedSecret e.priv re
        let (encS, sym) ← (sym.mixKey suite ee).encryptAndHash suite
          staticKey.pub
        let es ← suite.x25519.getSharedSecret staticKey.priv re
        let (encPayload, sym) ← (sym.mixKey suite es).encryptAndHash suite
          payload
        return (e.pub ++ encS ++ encPayload, { nx with e := some e, sym })
    | _, _ => .error "noise: state"

/-- `readMessage2`. -/
def readMessage2 (nx : NoiseNX suite) (msg : List Byte) :
    Except String (HandshakeResult × NoiseNX suite) :=
  if nx.role ≠ .initiator then .error "readMessage2: wrong role"
  else
    match nx.e with
    | none => .error "noise: missing e"
    | some e =>
      if msg.length < 32 + (32 + tagLen) then .error "noise msg2 too short"
      else do
        let re := msg.take 32
        let sym := nx.sym.mixHash suite re
        let ee ← suite.x25519.getSharedSecret e.priv re
        let encS := (msg.drop 32).take (32 + tagLen)
        let (rs, sym) ← (sym.mixKey suite ee).decryptAndHash suite encS
        let es ← suite.x25519.getSharedSecret e.priv rs
        let encPayload := msg.drop (32 + (32 + tagLen))
        let (payload, sym) ← (sym.mixKey suite es).decryptAndHash suite
          encPayload
        let (c1, c2) := sym.split suite
        return (
          { sendCipher := c1
            recvCipher := c2
            handshakeHash := sym.h
            remoteStaticPub := some rs
            responderPayload := some payload },
          { nx with re := some re, rs := some rs, sym })

/-- `finishResponder`. -/
def finishResponder (nx : NoiseNX suite) : Except String HandshakeResult :=
  if nx.role ≠ .responder then .error "finishResponder: wrong role"
  else
    let (c1, c2) := nx.sym.split suite
    .ok { sendCipher := c2
          recvCipher := c1
          handshakeHash := nx.sym.h
          remoteStaticPub := none
          responderPayload := none }

end NoiseNX

/-! ## Lock step -/

section

variable {suite : NoiseSuite}

/-- After a key was mixed in, what one side seals the other opens, and both
are in the same state again. -/
theorem decryptAndHash_of_encryptAndHash (good : suite.Correct)
    (sym : SymmetricState) (ikm plaintext : List Byte) :
    ∃ ct next, (sym.mixKey suite ikm).encryptAndHash suite plaintext =
        .ok (ct, next) ∧
      (sym.mixKey suite ikm).decryptAndHash suite ct =
        .ok (plaintext, next) ∧
      ct.length = plaintext.length + tagLen := by
  let key := (hkdf suite sym.ck ikm).2
  let ct := suite.aead.encrypt key (counterNonce 0) sym.h plaintext
  have opened : (sym.mixKey suite ikm).cipher.decryptWithAd suite.aead
      (sym.mixKey suite ikm).h ct =
        .ok (plaintext, { k := some key, n := 1 }) := by
    have same : suite.aead.decrypt key (counterNonce 0) sym.h ct =
        some plaintext := good.decrypt_encrypt ..
    have cipher : (sym.mixKey suite ikm).cipher = ⟨some key, 0⟩ := rfl
    have hash : (sym.mixKey suite ikm).h = sym.h := rfl
    rw [cipher, hash]
    simp only [CipherState.decryptWithAd, nonceBytes]
    rw [if_neg (by decide)]
    dsimp only [Except.bind]
    rw [same]
  refine ⟨ct, _, rfl, ?_, good.length_encrypt _ _ _ _ rfl⟩
  rw [SymmetricState.decryptAndHash, opened]
  rfl

/-- The three parts of the second message. -/
theorem message2_parts {pub encS : List Byte} (encPayload : List Byte)
    (pubLength : pub.length = keyLen) (encLength : encS.length = 32 + tagLen) :
    (pub ++ encS ++ encPayload).take 32 = pub ∧
      ((pub ++ encS ++ encPayload).drop 32).take (32 + tagLen) = encS ∧
      (pub ++ encS ++ encPayload).drop (32 + (32 + tagLen)) = encPayload ∧
      32 + (32 + tagLen) ≤ (pub ++ encS ++ encPayload).length := by
  have front : (pub ++ encS).length = 32 + (32 + tagLen) := by
    rw [List.length_append, pubLength, encLength]
    rfl
  refine ⟨?_, ?_, List.drop_left' front, ?_⟩
  · rw [List.append_assoc]
    exact List.take_left' pubLength
  · rw [List.append_assoc]
    have rest : (pub ++ (encS ++ encPayload)).drop 32 = encS ++ encPayload :=
      List.drop_left' pubLength
    rw [rest]
    exact List.take_left' encLength
  · rw [List.length_append, front]
    exact Nat.le_add_right ..

theorem readMessage1_eq {nx : NoiseNX suite} {msg : List Byte}
    (role : nx.role = .responder) (size : msg.length = 32) :
    nx.readMessage1 msg =
      .ok { nx with re := some msg, sym := nx.sym.mixHash suite msg } := by
  rw [NoiseNX.readMessage1, if_neg (not_not.mpr role),
    if_neg (not_lt.mpr size.ge), List.take_of_length_le size.le]

theorem writeMessage2_eq {nx : NoiseNX suite} {static e : KeyPair suite}
    {re ee es encS encPayload payload : List Byte} {sym last : SymmetricState}
    (role : nx.role = .responder) (staticKey : nx.staticKey = some static)
    (remote : nx.re = some re)
    (agreedE : suite.x25519.getSharedSecret e.priv re = .ok ee)
    (sealedS : ((nx.sym.mixHash suite e.pub).mixKey suite ee).encryptAndHash
      suite static.pub = .ok (encS, sym))
    (agreedS : suite.x25519.getSharedSecret static.priv re = .ok es)
    (sealedPayload : (sym.mixKey suite es).encryptAndHash suite payload =
      .ok (encPayload, last)) :
    nx.writeMessage2 e payload =
      .ok (e.pub ++ encS ++ encPayload,
        { nx with e := some e, sym := last }) := by
  rw [NoiseNX.writeMessage2, if_neg (not_not.mpr role), staticKey, remote]
  refine Machine.bind_eq_ok_iff.mpr ⟨ee, agreedE, ?_⟩
  refine Machine.bind_eq_ok_iff.mpr ⟨(encS, sym), sealedS, ?_⟩
  refine Machine.bind_eq_ok_iff.mpr ⟨es, agreedS, ?_⟩
  exact Machine.bind_eq_ok_iff.mpr ⟨(encPayload, last), sealedPayload, rfl⟩

theorem readMessage2_eq {nx : NoiseNX suite} {e : KeyPair suite}
    {re rs ee es encS encPayload payload : List Byte}
    {sym last : SymmetricState}
    (role : nx.role = .initiator) (own : nx.e = some e)
    (pubLength : re.length = keyLen) (encLength : encS.length = 32 + tagLen)
    (agreedE : suite.x25519.getSharedSecret e.priv re = .ok ee)
    (openedS : ((nx.sym.mixHash suite re).mixKey suite ee).decryptAndHash
      suite encS = .ok (rs, sym))
    (agreedS : suite.x25519.getSharedSecret e.priv rs = .ok es)
    (openedPayload : (sym.mixKey suite es).decryptAndHash suite encPayload =
      .ok (payload, last)) :
    nx.readMessage2 (re ++ encS ++ encPayload) =
      .ok ({ sendCipher := (last.split suite).1
             recvCipher := (last.split suite).2
             handshakeHash := last.h
             remoteStaticPub := some rs
             responderPayload := some payload },
        { nx with re := some re, rs := some rs, sym := last }) := by
  obtain ⟨first, second, third, long⟩ :=
    message2_parts encPayload pubLength encLength
  rw [NoiseNX.readMessage2, if_neg (not_not.mpr role), own]
  dsimp only
  rw [if_neg (not_lt.mpr long), first, second, third]
  refine Machine.bind_eq_ok_iff.mpr ⟨ee, agreedE, ?_⟩
  refine Machine.bind_eq_ok_iff.mpr ⟨(rs, sym), openedS, ?_⟩
  refine Machine.bind_eq_ok_iff.mpr ⟨es, agreedS, ?_⟩
  exact Machine.bind_eq_ok_iff.mpr ⟨(payload, last), openedPayload, rfl⟩

/-- The handshake takes place, and the two sides end with one hash, with
matching ciphers, and the initiator with the responder's static key and
payload. -/
def HandshakeAgrees (ownStatic : Option (KeyPair suite))
    (static ei er : KeyPair suite) (payload : List Byte) : Prop :=
  ∃ initiator responder msg1 initiatorSent responderRead msg2
      responderSent result initiatorDone finished,
    NoiseNX.new .initiator ownStatic = .ok initiator ∧
    NoiseNX.new .responder (some static) = .ok responder ∧
    initiator.writeMessage1 ei = .ok (msg1, initiatorSent) ∧
    responder.readMessage1 msg1 = .ok responderRead ∧
    responderRead.writeMessage2 er payload = .ok (msg2, responderSent) ∧
    initiatorSent.readMessage2 msg2 = .ok (result, initiatorDone) ∧
    responderSent.finishResponder = .ok finished ∧
    result.handshakeHash = finished.handshakeHash ∧
    result.sendCipher = finished.recvCipher ∧
    result.recvCipher = finished.sendCipher ∧
    result.remoteStaticPub = some static.pub ∧
    result.responderPayload = some payload

/-- Both sides of a handshake agree, whatever keys were drawn. -/
theorem noise_nx_agreement (good : suite.Correct)
    (ownStatic : Option (KeyPair suite)) (static ei er : KeyPair suite)
    (payload : List Byte) :
    HandshakeAgrees ownStatic static ei er payload := by
  obtain ⟨ee, eeResponder, eeInitiator⟩ := good.commutes er ei
  obtain ⟨es, esResponder, esInitiator⟩ := good.commutes static ei
  -- Both sides have mixed in the two ephemeral keys before the first secret.
  obtain ⟨encS, sym, sealedS, openedS, encLength⟩ :=
    decryptAndHash_of_encryptAndHash good
      (((SymmetricState.new suite).mixHash suite ei.pub).mixHash suite er.pub)
      ee static.pub
  obtain ⟨encPayload, last, sealedPayload, openedPayload, -⟩ :=
    decryptAndHash_of_encryptAndHash good sym es payload
  rw [good.length_public static] at encLength
  exact ⟨_, _, _, _, _, _, _, _, _, _, rfl, rfl, rfl,
    readMessage1_eq rfl (good.length_public ei),
    writeMessage2_eq rfl rfl rfl eeResponder sealedS esResponder
      sealedPayload,
    readMessage2_eq rfl rfl (good.length_public er) encLength eeInitiator
      openedS esInitiator openedPayload,
    rfl, rfl, rfl, rfl, rfl, rfl⟩

end

/-- A suite whose secrets are the sums of the keys and whose tags are zero. -/
def plainSuite : NoiseSuite where
  x25519 :=
    { getPublicKey := fun priv => priv
      getSharedSecret := fun priv pub => .ok (List.zipWith (· + ·) priv pub) }
  aead :=
    { encrypt := fun _ _ _ plaintext => plaintext ++ List.replicate tagLen 0
      decrypt := fun _ _ _ ciphertext =>
        some (ciphertext.take (ciphertext.length - tagLen)) }
  blake2s := fun data => data
  hmac := fun key data => key ++ data

/-- A key pair of the plain suite. -/
def plainPair (byte : Byte) : KeyPair plainSuite where
  priv := List.replicate 32 byte
  pub := List.replicate 32 byte
  length_priv := List.length_replicate
  pub_eq := rfl

theorem plainSuite_correct : plainSuite.Correct where
  length_public := by
    intro pair
    rw [pair.pub_eq]
    exact pair.length_priv
  commutes := by
    intro left right
    refine ⟨_, rfl, ?_⟩
    rw [left.pub_eq, right.pub_eq]
    exact congrArg Except.ok (List.zipWith_comm_of_comm fun a b => add_comm a b)
  decrypt_encrypt := by
    intro key nonce ad plaintext
    simp [plainSuite]
  length_encrypt := by
    intro key nonce ad plaintext _
    simp [plainSuite]

theorem plain_handshake_agrees :
    plainSuite.Correct ∧
      HandshakeAgrees none (plainPair 1) (plainPair 2) (plainPair 3) [7] :=
  ⟨plainSuite_correct, noise_nx_agreement plainSuite_correct none _ _ _ _⟩

end B3Chain.Sv2
