import NexaMessenger.Session.Agreement
import NexaMessenger.Signing

namespace NexaMessenger.Session

open Lib Identity

/-!
# Session — what a signed init binds

The initiator of a session signs its `SessionInit`: its two identity keys, its ephemeral key and the
ids of the prekeys it used.  The device ids and the keys behind the prekey ids are not signed; they
go into the root.  `init_binds_session` says what a responder may conclude from an init that
verifies: it is one that the identity made, and the root that the responder derives from it is the
initiator's exactly if both mean the same two devices and have the same shared secrets.

Nothing is assumed of Ed25519 and HKDF.  Where the conclusion fails, a signature is forged or two
inputs of HKDF collide, and the statement names them.
-/

section
variable {x : X25519} (ed : Ed25519) (signer : Signer) (hkdf : Hkdf) (identity : IdentityKey x)

/-- A call of `initiate`. -/
structure Initiation (x : X25519) where
  deviceId : Id16
  ephemeral : InitiatorEphemeral x
  bundle : PreKeyBundle
  record : SignedPrekeyRecord
  oneTimePrekeyPublic : Option (UInt32 × Key32)

def Initiation.run (m : Initiation x) : Except SessionError InitiatorSession :=
  initiate ed signer hkdf identity m.deviceId m.ephemeral m.bundle m.record m.oneTimePrekeyPublic

/-- The byte strings that an identity has signed: its session inits, and whatever else there is. -/
def bytesSigned (made : List (Initiation x)) (others : List SignedContent) : List Bytes :=
  (made.filterMap fun m =>
    (m.run ed signer hkdf identity).toOption.map fun s => s.init.signingBytes) ++
  others.map SignedContent.signingBytes

/-- A signature that verifies, on bytes that were not signed. -/
def Forges (key : Key32) (signed : List Bytes) (i : SessionInit) : Prop :=
  ed.verify key i.signingBytes i.signature = true ∧ i.signingBytes ∉ signed

/-- The salt, the key material and the info from which a root is derived. -/
def rootInput (secrets : List Key32) (initiatorDeviceId responderDeviceId : Id16)
    (ephemeralPublic : Key32) : Bytes × Bytes × Bytes :=
  (domain, secrets.flatMap (·.toList), toBe 2 protocolVersion.toNat ++ initiatorDeviceId.toList ++
    responderDeviceId.toList ++ ephemeralPublic.toList)

/-- Two different inputs with one output. -/
def Collide (input input' : Bytes × Bytes × Bytes) : Prop :=
  input ≠ input' ∧
    hkdf.expand input.1 input.2.1 input.2.2 = hkdf.expand input'.1 input'.2.1 input'.2.2

end

section
variable {x : X25519} {ed : Ed25519} {signer : Signer} {hkdf : Hkdf} {identity : IdentityKey x}

/-! ### What an initiator signs -/

/-- An initiator that succeeds has checked its bundle. -/
theorem acceptable_of_initiate {x : X25519} {ed : Ed25519} {signer : Signer}
    {initiator : IdentityKey x} {initiatorDeviceId : Id16} {ephemeral : InitiatorEphemeral x}
    {bundle : PreKeyBundle} {record : SignedPrekeyRecord}
    {oneTimePrekeyPublic : Option (UInt32 × Key32)} {initiated : InitiatorSession}
    (h : initiate ed signer hkdf initiator initiatorDeviceId ephemeral bundle record
      oneTimePrekeyPublic = .ok initiated) : Acceptable ed bundle record oneTimePrekeyPublic := by
  unfold initiate at h
  split at h
  · exact absurd h (by simp)
  rename_i hversion
  split at h
  · exact absurd h (by simp)
  rename_i hvalid
  split at h
  · exact absurd h (by simp)
  rename_i hkey
  split at h
  · exact absurd h (by simp)
  rename_i hrecord
  simp only [not_or, ne_eq, not_not, Bool.not_eq_true', Bool.not_eq_false] at hversion hkey hrecord
  obtain ⟨hagreement, hverifies, hkeyId, hpublic⟩ := hrecord
  refine ⟨hversion, hvalid, hkey, hagreement, hverifies, hkeyId, hpublic, ?_⟩
  rintro ⟨id, publicKey⟩ rfl
  dsimp only at h
  split at h
  · exact absurd h (by simp)
  -- a one-time prekey that is not on the list ends in an error
  by_contra hmissing
  have hany : (bundle.oneTimePrekeys.any fun entry =>
      entry.keyId = id && entry.publicKey = publicKey) = false := by
    rw [List.any_eq_false]
    rintro ⟨keyId, key⟩ hentry hsame
    rw [Bool.and_eq_true, decide_eq_true_eq, decide_eq_true_eq] at hsame
    obtain ⟨rfl, rfl⟩ := hsame
    exact hmissing hentry
  rw [hany] at h
  exact absurd h (by simp)

/-- The init of an initiator: its keys are those of the identity and the ephemeral pair, and the
    identity has signed it. -/
theorem init_of_initiate {m : Initiation x} {s : InitiatorSession}
    (h : m.run ed signer hkdf identity = .ok s) :
    s.init.identitySigningKey = identity.publicKey signer ∧
      s.init.identityAgreementKey = identity.agreementPublicKey ∧
      s.init.ephemeralPublicKey = m.ephemeral.publicKey ∧
      s.init.signature = identity.sign signer s.init.signingBytes := by
  unfold Initiation.run initiate at h
  split at h
  · exact absurd h (by simp)
  split at h
  · exact absurd h (by simp)
  split at h
  · exact absurd h (by simp)
  split at h
  · exact absurd h (by simp)
  dsimp only at h
  split at h
  · exact absurd h (by simp)
  split at h
  · exact absurd h (by simp)
  split at h
  · exact absurd h (by simp)
  -- the init is signed last
  obtain rfl := Except.ok.inj h
  exact ⟨rfl, rfl, rfl, rfl⟩

/-- The root of an initiator is that of its secrets. -/
theorem root_of_initiate {m : Initiation x} {s : InitiatorSession}
    (h : m.run ed signer hkdf identity = .ok s) :
    agreedRoot hkdf (initiatorSecrets identity m.ephemeral m.bundle m.oneTimePrekeyPublic)
      m.deviceId m.bundle.deviceId m.ephemeral.publicKey = .ok s.root := by
  obtain ⟨init, heq⟩ := @initiate_eq x hkdf ed signer identity m.deviceId m.ephemeral
    _ _ _ (acceptable_of_initiate h)
  rw [Initiation.run, heq] at h
  cases hroot : agreedRoot hkdf (initiatorSecrets identity m.ephemeral m.bundle
      m.oneTimePrekeyPublic) m.deviceId m.bundle.deviceId m.ephemeral.publicKey with
  | error error =>
    rw [hroot] at h
    exact absurd h (by simp [Except.map])
  | ok root =>
    rw [hroot] at h
    rw [← Except.ok.inj h]

theorem root_of_respond {responder : IdentityKey x} {signedPrekey : SignedPrekey x}
    {oneTimePrekey : Option (UInt32 × OneTimePrekey x)} {responderDeviceId initiatorDeviceId : Id16}
    {agreementKey ephemeralKey : Key32} {r : ResponderSession}
    (h : respond hkdf responder signedPrekey oneTimePrekey responderDeviceId initiatorDeviceId
      agreementKey ephemeralKey = .ok r) :
    agreedRoot hkdf (responderSecrets responder signedPrekey oneTimePrekey agreementKey
      ephemeralKey) initiatorDeviceId responderDeviceId ephemeralKey = .ok r.root := by
  rw [respond, respondInner_eq] at h
  cases hroot : agreedRoot hkdf (responderSecrets responder signedPrekey oneTimePrekey agreementKey
      ephemeralKey) initiatorDeviceId responderDeviceId ephemeralKey with
  | error error =>
    rw [hroot] at h
    exact absurd h (by simp [Except.map])
  | ok root =>
    rw [hroot] at h
    rw [← Except.ok.inj h]

/-- An init that an identity made verifies. -/
theorem verify_of_initiate (haccepts : ed.Accepts signer) {m : Initiation x} {s : InitiatorSession}
    (h : m.run ed signer hkdf identity = .ok s) : s.init.verify ed = true := by
  obtain ⟨hkey, -, -, hsignature⟩ := init_of_initiate h
  have hown := haccepts identity.signingKey s.init.signingBytes
  rw [SessionInit.verify, hkey, hsignature, Bool.and_eq_true]
  exact hown

/-- What else an identity signs is no init. -/
theorem ne_signingBytes_of_others {others : List SignedContent}
    (hothers : ∀ i, .sessionInit i ∉ others) (i : SessionInit) :
    i.signingBytes ∉ others.map SignedContent.signingBytes := by
  intro hmem
  obtain ⟨c, hc, hsame⟩ := List.mem_map.mp hmem
  -- the first three bytes tell what is signed
  have htag : c.tag = (SignedContent.sessionInit i).tag := by
    rw [← SignedContent.signingBytes_take, hsame]
    rfl
  cases c with
  | sessionInit i' => exact hothers i' hc
  | request | publication | signedPrekey =>
    exact absurd htag (by simp only [SignedContent.tag]; decide)

/-- **An init that verifies was made**, or its signature is forged. -/
theorem made_of_verify {made : List (Initiation x)} {others : List SignedContent}
    (hothers : ∀ i, .sessionInit i ∉ others) {i : SessionInit}
    (hkey : i.identitySigningKey = identity.publicKey signer) (hverify : i.verify ed = true) :
    Forges ed (identity.publicKey signer)
      (bytesSigned ed signer hkdf identity made others) i ∨
    ∃ m ∈ made, ∃ s, m.run ed signer hkdf identity = .ok s ∧
      { s.init with signature := i.signature } = i := by
  rw [SessionInit.verify, hkey, Bool.and_eq_true] at hverify
  by_cases hsigned : i.signingBytes ∈ bytesSigned ed signer hkdf identity made others
  · refine .inr ?_
    rcases List.mem_append.mp hsigned with hmade | hother
    · obtain ⟨m, hm, hrun⟩ := List.mem_filterMap.mp hmade
      obtain ⟨s, hs, hbytes⟩ := Option.map_eq_some_iff.mp hrun
      have hok : m.run ed signer hkdf identity = .ok s := by
        cases hresult : m.run ed signer hkdf identity with
        | error e => rw [hresult] at hs; exact absurd hs (by simp [Except.toOption])
        | ok s' => rw [hresult] at hs; rw [Option.some.inj hs]
      refine ⟨m, hm, s, hok, ?_⟩
      have hfields := SignedContent.sessionInit_injective hbytes
      obtain ⟨_, _, _, _, _, _⟩ := i
      simp only [SessionInit.mk.injEq] at hfields ⊢
      simpa using hfields
    · exact absurd hother (ne_signingBytes_of_others hothers i)
  · exact .inl ⟨hverify.2, hsigned⟩

/-! ### What a root depends on -/

theorem rootInput_injective {secrets secrets' : List Key32} {a a' b b' : Id16} {e e' : Key32}
    (h : rootInput secrets a b e = rootInput secrets' a' b' e') :
    secrets = secrets' ∧ a = a' ∧ b = b' ∧ e = e' := by
  obtain ⟨-, h⟩ := Prod.mk.inj h
  obtain ⟨hsecrets, hinfo⟩ := Prod.mk.inj h
  simp only [List.append_assoc] at hinfo
  have hinfo := List.append_cancel_left hinfo
  obtain ⟨ha, hinfo⟩ := List.append_inj hinfo (by simp)
  obtain ⟨hb, he⟩ := List.append_inj hinfo (by simp)
  -- every secret has 32 bytes
  have hlength : secrets.length = secrets'.length := by
    simpa using congrArg List.length hsecrets
  have hsame := flatMap_injective (n := 32) (fun secret => by simp)
    (fun _ _ => Vector.toList_inj.mp) hlength hsecrets
  exact ⟨hsame, Vector.toList_inj.mp ha, Vector.toList_inj.mp hb, Vector.toList_inj.mp he⟩

theorem expand_of_agreedRoot {secrets : List Key32} {a b : Id16} {e root : Key32}
    (h : agreedRoot hkdf secrets a b e = .ok root) :
    let input := rootInput secrets a b e
    hkdf.expand input.1 input.2.1 input.2.2 = some root := by
  unfold agreedRoot deriveRoot at h
  split at h
  · exact absurd h (by simp)
  split at h
  · exact absurd h (by simp)
  · rename_i hderived
    split at hderived
    · exact absurd hderived (by simp)
    · rw [← Except.ok.inj h]
      exact hderived

/-- **Two roots are one** if what they are derived from is, and else only by a collision. -/
theorem root_eq_iff {secrets secrets' : List Key32} {a a' b b' : Id16} {e root root' : Key32}
    (h : agreedRoot hkdf secrets a b e = .ok root)
    (h' : agreedRoot hkdf secrets' a' b' e = .ok root') :
    root = root' ↔ (secrets = secrets' ∧ a = a' ∧ b = b') ∨
      Collide hkdf (rootInput secrets a b e) (rootInput secrets' a' b' e) := by
  have hexpand := expand_of_agreedRoot h
  have hexpand' := expand_of_agreedRoot h'
  constructor
  · rintro rfl
    by_cases hsame : rootInput secrets a b e = rootInput secrets' a' b' e
    · obtain ⟨hsecrets, ha, hb, -⟩ := rootInput_injective hsame
      exact .inl ⟨hsecrets, ha, hb⟩
    · exact .inr ⟨hsame, hexpand.trans hexpand'.symm⟩
  · rintro (⟨rfl, rfl, rfl⟩ | ⟨-, hcollide⟩)
    · exact Except.ok.inj (h.symm.trans h')
    · rw [hexpand, hexpand'] at hcollide
      exact Option.some.inj hcollide

/-- **What an init binds.**  Let an init verify under the key of an identity, which has made the
    session inits of `made` and signed nothing but `others` besides, and let somebody respond to it
    as `responderDeviceId`, taking `initiatorDeviceId` for its sender.  Then the signature is
    forged, or the identity made this init in one of its initiations.  The root of that initiation
    is the one of the responder exactly if both mean the same two devices and have the same shared
    secrets, or two inputs of HKDF collide.  They have the same secrets if the bundle of the
    initiation advertised the keys that the responder uses. -/
theorem init_binds_session (hx : x.Commutes) (made : List (Initiation x))
    (others : List SignedContent) (hothers : ∀ i, .sessionInit i ∉ others) (i : SessionInit)
    (hkey : i.identitySigningKey = identity.publicKey signer) (hverify : i.verify ed = true)
    (responder : IdentityKey x) (signedPrekey : SignedPrekey x)
    (oneTimePrekey : Option (UInt32 × OneTimePrekey x)) (responderDeviceId initiatorDeviceId : Id16)
    (r : ResponderSession)
    (hrespond : respond hkdf responder signedPrekey oneTimePrekey responderDeviceId
      initiatorDeviceId i.identityAgreementKey i.ephemeralPublicKey = .ok r) :
    Forges ed (identity.publicKey signer)
      (bytesSigned ed signer hkdf identity made others) i ∨
    ∃ m ∈ made, ∃ s, m.run ed signer hkdf identity = .ok s ∧
      { s.init with signature := i.signature } = i ∧
      let secrets := initiatorSecrets identity m.ephemeral m.bundle m.oneTimePrekeyPublic
      let secrets' := responderSecrets responder signedPrekey oneTimePrekey i.identityAgreementKey
        i.ephemeralPublicKey
      (s.root = r.root ↔
        (secrets = secrets' ∧ m.deviceId = initiatorDeviceId ∧
          m.bundle.deviceId = responderDeviceId) ∨
        Collide hkdf (rootInput secrets m.deviceId m.bundle.deviceId i.ephemeralPublicKey)
          (rootInput secrets' initiatorDeviceId responderDeviceId i.ephemeralPublicKey)) ∧
      (∀ device keyId, Advertises signer m.bundle device responder keyId signedPrekey
          oneTimePrekey →
        m.oneTimePrekeyPublic = (oneTimePrekey.map fun otp => (otp.1, otp.2.publicKey)) →
        secrets = secrets') := by
  refine (made_of_verify hothers hkey hverify).imp_right ?_
  rintro ⟨m, hm, s, hrun, hsame⟩
  obtain ⟨-, hagreement, hephemeral, -⟩ := init_of_initiate hrun
  have hagreement' : i.identityAgreementKey = identity.agreementPublicKey := by
    rw [← hsame, ← hagreement]
  have hephemeral' : i.ephemeralPublicKey = m.ephemeral.publicKey := by
    rw [← hsame, ← hephemeral]
  have hroot := root_of_initiate hrun
  rw [← hephemeral'] at hroot
  refine ⟨m, hm, s, hrun, hsame, root_eq_iff hroot (root_of_respond hrespond), ?_⟩
  intro device keyId hbundle hotp
  rw [hotp, hagreement', hephemeral']
  exact secrets_agree hx identity m.ephemeral hbundle

/-! ### An init of the sample identities -/

def sampleInitiation : Initiation sampleX25519 where
  deviceId := Vector.replicate 16 6
  ephemeral := ⟨samplePair 8⟩
  bundle := sampleBundle
  record := publishableSignedPrekey sampleSigner (sampleIdentity 2) 5 ⟨samplePair 3⟩
  oneTimePrekeyPublic := some (9, Vector.replicate 32 4)

theorem exists_of_isOk {ε α : Type} {r : Except ε α} (h : r.isOk) :
    ∃ a, r = .ok a := by
  cases r with
  | error e => exact absurd h (by simp [Except.isOk, Except.toBool])
  | ok a => exact ⟨a, rfl⟩

/-- A responder takes the keys of the initiator from its init, and has its root. -/
theorem sample_init_binds : ∃ s r,
    sampleInitiation.run sampleEd25519 sampleSigner sampleHkdf (sampleIdentity 1) = .ok s ∧
    respond sampleHkdf (sampleIdentity 2) ⟨samplePair 3⟩ (some (9, sampleOneTimePrekey))
      (Vector.replicate 16 7) (Vector.replicate 16 6) s.init.identityAgreementKey
      s.init.ephemeralPublicKey = .ok r ∧
    s.root = r.root := by
  obtain ⟨s, hs⟩ : ∃ s, sampleInitiation.run sampleEd25519 sampleSigner sampleHkdf
      (sampleIdentity 1) = .ok s := exists_of_isOk (by decide +kernel)
  obtain ⟨hkey, hagreement, hephemeral, -⟩ := init_of_initiate hs
  obtain ⟨r, hr⟩ : ∃ r, respond sampleHkdf (sampleIdentity 2) ⟨samplePair 3⟩
      (some (9, sampleOneTimePrekey)) (Vector.replicate 16 7) (Vector.replicate 16 6)
      s.init.identityAgreementKey s.init.ephemeralPublicKey = .ok r :=
    exists_of_isOk (by rw [hagreement, hephemeral]; decide +kernel)
  refine ⟨s, r, hs, hr, ?_⟩
  obtain hforged | ⟨m, hm, s', hs', -, hroots, hsecrets⟩ := init_binds_session
    sampleX25519_commutes [sampleInitiation] [] (by simp) s.init hkey
    (verify_of_initiate sampleEd25519_accepts hs) _ _ _ _ _ r hr
  · -- it is the init that was signed
    refine absurd ?_ hforged.2
    rw [bytesSigned, List.filterMap_cons, hs]
    exact List.mem_cons_self
  · obtain rfl := List.mem_singleton.mp hm
    obtain rfl := Except.ok.inj (hs.symm.trans hs')
    exact hroots.mpr (.inl ⟨hsecrets _ _ sampleBundle_advertises rfl, rfl, rfl⟩)

end

end NexaMessenger.Session
