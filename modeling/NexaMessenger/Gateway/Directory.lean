import NexaMessenger.Gateway.Claims
import NexaMessenger.Gateway.Publications
import NexaMessenger.Gateway.Replay

namespace NexaMessenger.Gateway

open Lib Auth

/-!
# Gateway — whose identity key is served

The handlers of the prekey routes, over the authentication and the registry of the gateway.  A
publish request is authenticated with the key in its headers, whose hash is the device id, and
the device id in its bundle is compared with that; the identity key in the bundle only has to
have made the bundle's own signatures.

`identity_keys_bound_iff` says exactly when every publication that the gateway serves carries a
key with the device id it is served under, and `identity_keys_bound_of_own_key` that it is enough
for devices to publish the key they authenticate with.
-/

/-! ### The handlers -/

/-- What a handler answers to a request it refuses, before it is turned into a status code. -/
inductive Refusal
  | unauthorized (error : AuthError)
  | badRequest
  | forbidden
deriving DecidableEq, Repr

/-- `AppState`, as far as prekeys are concerned, and the publish requests that were authenticated
    and are about to call the registry. -/
structure DirectoryState where
  auth : AuthState
  prekeys : PreKeyRegistry
  pending : List (Id16 × PreKeyPublication)

def DirectoryState.start : DirectoryState := ⟨AuthState.empty, PreKeyRegistry.empty, []⟩

inductive DirectoryEvent
  /-- `publish_prekeys` up to its call of `publish`, with the readings of the two clocks -/
  | receive (headers : HeaderMap) (body : Bytes) (nowMs : UInt64) (now : Nat)
  /-- the call of `publish` by a request that was received -/
  | publish (request : Nat) (nowMs : UInt64)
  /-- `get_prekeys` -/
  | get (device : Id16) (nowMs : UInt64)
  /-- `revoke_prekeys` by a device -/
  | revoke (authenticated device : Id16) (generation nowMs : UInt64)
  /-- `claim_prekey`, whose claimant is the device that was authenticated -/
  | claim (call : ClaimCall)
deriving DecidableEq, Repr

inductive DirectoryAnswer
  | waiting
  | refused (refusal : Refusal)
  | published (result : Except PublicationError Unit)
  | served (publication : Option PreKeyPublication)
  | revoked (result : Except PublicationError Unit)
  | claimed (result : Except PublicationError OpkClaim)

/-- The `authenticate` call of `publish_prekeys`. -/
def publishCall (headers : HeaderMap) (body : Bytes) (nowMs : UInt64) (now : Nat) : AuthCall where
  headers := headers
  method := ascii "POST"
  path := ascii "/v1/prekeys"
  body := body
  nowMs := nowMs
  now := now

section
variable (sha : Sha256) (ed : Ed25519) (fromSlice : Bytes → Option PreKeyPublication)

/-- The handlers as a machine; `fromSlice` is `serde_json::from_slice`. -/
def directoryStep (s : DirectoryState) : DirectoryEvent → DirectoryAnswer × DirectoryState
  | .receive headers body nowMs now =>
    match s.auth.authenticate sha ed (publishCall headers body nowMs now) with
    | (.error e, auth) => (.refused (.unauthorized e), { s with auth })
    | (.ok authenticated, auth) =>
      match fromSlice body with
      | none => (.refused .badRequest, { s with auth })
      | some publication =>
        if publication.bundle.deviceId ≠ authenticated then (.refused .forbidden, { s with auth })
        else (.waiting, { s with auth, pending := s.pending ++ [(authenticated, publication)] })
  | .publish request nowMs =>
    match s.pending[request]? with
    | none => (.waiting, s)
    | some (authenticated, publication) =>
      let (result, prekeys) := s.prekeys.publish ed authenticated publication nowMs
      (.published result, { s with prekeys, pending := s.pending.eraseIdx request })
  | .get device nowMs => (.served (s.prekeys.getActive device nowMs), s)
  | .revoke authenticated device generation nowMs =>
    if authenticated ≠ device then (.refused .forbidden, s)
    else
      let (result, prekeys) := s.prekeys.revoke device generation nowMs
      (.revoked result, { s with prekeys })
  | .claim call =>
    let (result, prekeys) := s.prekeys.claimOpk call
    (.claimed result, { s with prekeys })

/-- Whatever is served for a device carries a key with the device's id. -/
def Bound (s : DirectoryState) : Prop :=
  ∀ device nowMs p, (directoryStep sha ed fromSlice s (.get device nowMs)).1 = .served (some p) →
    deviceIdFromPublicKey sha p.bundle.identitySigningKey = device

/-- A publication that the event brings into the registry carries a key with the id of the device
    that was authenticated. -/
def OwnKey (s : DirectoryState) (e : DirectoryEvent) : Prop :=
  ∀ request nowMs authenticated p, e = .publish request nowMs →
    s.pending[request]? = some (authenticated, p) → Accepts ed s.prekeys authenticated p nowMs →
      deviceIdFromPublicKey sha p.bundle.identitySigningKey = authenticated

end

section
variable {sha : Sha256} {ed : Ed25519} {fromSlice : Bytes → Option PreKeyPublication}

/-- What an event does to the registry: it brings in a publication that waited, or leaves the
    publications as they are and no device that was revoked unmarked. -/
theorem directoryStep_publications (sha : Sha256) (ed : Ed25519)
    (fromSlice : Bytes → Option PreKeyPublication) (s : DirectoryState) (e : DirectoryEvent) :
    (∃ request nowMs authenticated p, e = .publish request nowMs ∧
      s.pending[request]? = some (authenticated, p) ∧ Accepts ed s.prekeys authenticated p nowMs ∧
      (directoryStep sha ed fromSlice s e).2.prekeys =
        { s.prekeys with publications := s.prekeys.publications.insert p.bundle.deviceId p }) ∨
    (OwnKey sha ed s e ∧
      (directoryStep sha ed fromSlice s e).2.prekeys.publications = s.prekeys.publications ∧
      ∀ d, (s.prekeys.revoked.lookup d).isSome →
        ((directoryStep sha ed fromSlice s e).2.prekeys.revoked.lookup d).isSome) := by
  -- only a call of `publish` can bring in a foreign key
  have hother (h : ∀ request nowMs, e ≠ .publish request nowMs) : OwnKey sha ed s e :=
    fun request nowMs _ _ he => absurd he (h request nowMs)
  cases e with
  | receive headers body nowMs now =>
    refine .inr ⟨hother fun _ _ => DirectoryEvent.noConfusion, ?_⟩
    unfold directoryStep
    dsimp only
    split
    · exact ⟨rfl, fun d h => h⟩
    · split
      · exact ⟨rfl, fun d h => h⟩
      · split
        · exact ⟨rfl, fun d h => h⟩
        · exact ⟨rfl, fun d h => h⟩
  | publish request nowMs =>
    cases hpending : s.pending[request]? with
    | none =>
      have hstep : directoryStep sha ed fromSlice s (.publish request nowMs) = (.waiting, s) := by
        simp only [directoryStep, hpending]
      rw [hstep]
      refine .inr ⟨fun request' nowMs' authenticated p he h => ?_, rfl, fun d h => h⟩
      obtain ⟨rfl, rfl⟩ := DirectoryEvent.publish.inj he
      rw [hpending] at h
      exact absurd h (by simp)
    | some entry =>
      obtain ⟨authenticated, p⟩ := entry
      have hstep : (directoryStep sha ed fromSlice s (.publish request nowMs)).2.prekeys =
          (s.prekeys.publish ed authenticated p nowMs).2 := by
        simp only [directoryStep, hpending]
      rw [hstep]
      -- the registry takes it, or the checks fail and nothing is brought in
      obtain ⟨error, hpublish⟩ | ⟨haccepts, hpublish⟩ :=
        publish_cases ed s.prekeys authenticated p nowMs
      · rw [hpublish]
        refine .inr ⟨fun request' nowMs' authenticated' p' he h haccepts => ?_, rfl, fun d h => h⟩
        obtain ⟨rfl, rfl⟩ := DirectoryEvent.publish.inj he
        rw [hpending] at h
        obtain ⟨rfl, rfl⟩ := Prod.mk.inj (Option.some.inj h)
        rw [haccepts.publish] at hpublish
        exact absurd (Prod.mk.inj hpublish).1 (by simp)
      · rw [hpublish]
        exact .inl ⟨request, nowMs, authenticated, p, rfl, hpending, haccepts, rfl⟩
  | get device nowMs =>
    exact .inr ⟨hother fun _ _ => DirectoryEvent.noConfusion, rfl, fun d h => h⟩
  | revoke authenticated device generation nowMs =>
    refine .inr ⟨hother fun _ _ => DirectoryEvent.noConfusion, ?_⟩
    unfold directoryStep
    dsimp only
    split
    · exact ⟨rfl, fun d h => h⟩
    · obtain ⟨error, hrevoke⟩ | ⟨-, -, hrevoke⟩ :=
        revoke_cases s.prekeys device generation nowMs
      · rw [hrevoke]
        exact ⟨rfl, fun d h => h⟩
      · rw [hrevoke]
        -- a revocation marks one more device
        refine ⟨rfl, fun d h => ?_⟩
        dsimp only
        rw [lookup_insert_eq]
        split
        · rfl
        · exact h
  | claim call =>
    refine .inr ⟨hother fun _ _ => DirectoryEvent.noConfusion, ?_⟩
    have hstep : (directoryStep sha ed fromSlice s (.claim call)).2.prekeys =
        (s.prekeys.claimOpk call).2 := rfl
    rw [hstep]
    obtain ⟨error, hclaim⟩ | ⟨_, _, -, -, -, -, hclaim⟩ | ⟨_, -, hclaim⟩ :=
      claimOpk_cases s.prekeys call
    all_goals
      rw [hclaim]
      exact ⟨rfl, fun d h => h⟩

/-- A request that is authenticated for the device in its bundle waits for its call. -/
theorem directoryStep_receive {s : DirectoryState} {auth : AuthState} {headers : HeaderMap}
    {body : Bytes} {nowMs : UInt64} {now : Nat} {p : PreKeyPublication}
    (hauth : s.auth.authenticate sha ed (publishCall headers body nowMs now) =
      (.ok p.bundle.deviceId, auth)) (hbody : fromSlice body = some p) :
    (directoryStep sha ed fromSlice s (.receive headers body nowMs now)).2 =
      { s with auth, pending := s.pending ++ [(p.bundle.deviceId, p)] } := by
  simp [directoryStep, hauth, hbody]

/-- What is served is stored, not revoked and not expired. -/
theorem served_iff {s : DirectoryState} {device : Id16} {nowMs : UInt64}
    {p : PreKeyPublication} :
    (directoryStep sha ed fromSlice s (.get device nowMs)).1 = .served (some p) ↔
      s.prekeys.publications.lookup device = some p ∧
        ¬ (s.prekeys.revoked.lookup device).isSome ∧ nowMs < p.expiresAtMs := by
  rw [← getActive_eq_some_iff]
  exact ⟨DirectoryAnswer.served.inj, congrArg DirectoryAnswer.served⟩

/-- A publication that is accepted is served at once. -/
theorem served_of_accepts {s : DirectoryState} {request : Nat} {nowMs : UInt64}
    {authenticated : Id16} {p : PreKeyPublication}
    (hpending : s.pending[request]? = some (authenticated, p))
    (haccepts : Accepts ed s.prekeys authenticated p nowMs) :
    (directoryStep sha ed fromSlice (directoryStep sha ed fromSlice s (.publish request nowMs)).2
      (.get authenticated nowMs)).1 = .served (some p) := by
  have hvalid := valid_of_validate haccepts.valid
  have hstep : (directoryStep sha ed fromSlice s (.publish request nowMs)).2.prekeys =
      { s.prekeys with
        publications := s.prekeys.publications.insert p.bundle.deviceId p } := by
    simp only [directoryStep, hpending, haccepts.publish]
  apply served_iff.mpr
  rw [hstep, ← hvalid.device]
  refine ⟨(lookup_insert_eq _ _ _ _).trans (if_pos rfl), ?_, hvalid.unexpired⟩
  dsimp only
  rw [haccepts.unrevoked]
  exact Bool.false_ne_true

/-- A bundle published for the device that is authenticated is served, if the registry accepts
    it. -/
theorem served_of_receive {headers : HeaderMap} {body : Bytes} {nowMs : UInt64} {now : Nat}
    {p : PreKeyPublication}
    (hauth : (AuthState.empty.authenticate sha ed (publishCall headers body nowMs now)).1 =
      .ok p.bundle.deviceId) (hbody : fromSlice body = some p)
    (haccepts : Accepts ed PreKeyRegistry.empty p.bundle.deviceId p nowMs) :
    (directoryStep sha ed fromSlice (after (directoryStep sha ed fromSlice) .start
      [.receive headers body nowMs now, .publish 0 nowMs]) (.get p.bundle.deviceId nowMs)).1 =
      .served (some p) := by
  rcases hcall : AuthState.empty.authenticate sha ed (publishCall headers body nowMs now)
    with ⟨result, auth⟩
  rw [hcall] at hauth
  dsimp only at hauth
  subst hauth
  have hreceived := directoryStep_receive (s := .start) hcall hbody
  rw [after_cons, hreceived, after_cons, after_nil]
  exact served_of_accepts rfl haccepts

/-- **Step.** What is served stays bound exactly if the event brings in no foreign key. -/
theorem bound_step_iff {s : DirectoryState} (h : Bound sha ed fromSlice s) (e : DirectoryEvent) :
    Bound sha ed fromSlice (directoryStep sha ed fromSlice s e).2 ↔ OwnKey sha ed s e := by
  obtain ⟨request, nowMs, authenticated, p, rfl, hpending, haccepts, hstep⟩ |
    ⟨hown, hpublications, hrevoked⟩ := directoryStep_publications sha ed fromSlice s e
  · constructor
    · -- what is brought in is served at once, so it has to be bound
      intro hbound request' nowMs' authenticated' p' he h' haccepts'
      obtain ⟨rfl, rfl⟩ := DirectoryEvent.publish.inj he
      exact hbound authenticated' nowMs p' (served_of_accepts h' haccepts')
    · intro hown device nowMs' p' hserved
      obtain ⟨hstored, hunrevoked, hlive⟩ := served_iff.mp hserved
      rw [hstep] at hstored hunrevoked
      dsimp only at hstored hunrevoked
      rw [lookup_insert_eq] at hstored
      split at hstored
      · rename_i hd
        obtain rfl := Option.some.inj hstored
        rw [hd, (valid_of_validate haccepts.valid).device]
        exact hown request nowMs authenticated p rfl hpending haccepts
      · exact h device nowMs' p' (served_iff.mpr ⟨hstored, hunrevoked, hlive⟩)
  · refine iff_of_true (fun device nowMs p hserved => ?_) hown
    -- anything else that is served was served before
    obtain ⟨hstored, hunrevoked, hlive⟩ := served_iff.mp hserved
    rw [hpublications] at hstored
    have hunrevoked' := fun hold => hunrevoked (hrevoked device hold)
    exact h device nowMs p (served_iff.mpr ⟨hstored, hunrevoked', hlive⟩)

/-- **Bound identity keys, exactly.**  In every state of a run of the prekey handlers whatever is
    served carries a key with the id it is served under, if and only if every publication the run
    brings into the registry carries a key with the id of the device that was authenticated. -/
theorem identity_keys_bound_iff (sha : Sha256) (ed : Ed25519)
    (fromSlice : Bytes → Option PreKeyPublication) (events : List DirectoryEvent) :
    (∀ pre, pre <+: events →
      Bound sha ed fromSlice (after (directoryStep sha ed fromSlice) .start pre)) ↔
    ∀ pre e post, events = pre ++ e :: post →
      OwnKey sha ed (after (directoryStep sha ed fromSlice) .start pre) e := by
  apply states_iff
  · intro device nowMs p hserved
    have hstored := (served_iff.mp hserved).1
    simp [DirectoryState.start, PreKeyRegistry.empty] at hstored
  · intro pre e hbound
    rw [after_concat]
    exact bound_step_iff hbound e

/-! ### Devices that publish the key they authenticate with -/

/-- The device that is authenticated is the one whose id the key in the headers has. -/
theorem authenticate_ok {s s' : AuthState} {call : AuthCall} {device : Id16}
    (h : s.authenticate sha ed call = (.ok device, s')) :
    ∃ r, call.request = .ok r ∧ device = deviceIdFromPublicKey sha r.publicKey := by
  have hok : (authStep sha ed s call).1 = .ok device := by
    rw [authStep, h]
  obtain ⟨r, hrequest, hcheck, rfl, -⟩ := authStep_ok hok
  refine ⟨r, hrequest, ?_⟩
  unfold SignedRequest.check at hcheck
  split at hcheck
  · exact absurd hcheck (by simp)
  · rename_i hdevice
    exact not_not.mp hdevice

/-- The request carries, as the identity key of its bundle, the key in its headers. -/
def PublishesOwnKey (fromSlice : Bytes → Option PreKeyPublication) (e : DirectoryEvent) : Prop :=
  ∀ headers body nowMs now r p, e = .receive headers body nowMs now →
    (publishCall headers body nowMs now).request = .ok r → fromSlice body = some p →
      p.bundle.identitySigningKey = r.publicKey

/-- The requests that wait are bound already. -/
def PendingBound (sha : Sha256) (s : DirectoryState) : Prop :=
  ∀ entry ∈ s.pending, deviceIdFromPublicKey sha entry.2.bundle.identitySigningKey = entry.1

theorem PendingBound.step {s : DirectoryState} (h : PendingBound sha s) {e : DirectoryEvent}
    (hown : PublishesOwnKey fromSlice e) :
    PendingBound sha (directoryStep sha ed fromSlice s e).2 := by
  cases e with
  | receive headers body nowMs now =>
    unfold directoryStep
    dsimp only
    split
    · exact h
    · rename_i authenticated auth hauth
      -- the authenticated id is the hash of the key in the headers
      obtain ⟨r, hrequest, rfl⟩ := authenticate_ok hauth
      split
      · exact h
      · rename_i p hp
        split
        · exact h
        · intro entry hentry
          rcases List.mem_append.mp hentry with hold | hnew
          · exact h entry hold
          · rw [List.mem_singleton.mp hnew]
            exact congrArg _ (hown headers body nowMs now r p rfl hrequest hp)
  | publish request nowMs =>
    unfold directoryStep
    dsimp only
    split
    · exact h
    · exact fun entry hentry => h entry (List.mem_of_mem_eraseIdx hentry)
  | get device nowMs => exact h
  | revoke authenticated device generation nowMs =>
    unfold directoryStep
    dsimp only
    split
    · exact h
    · exact h
  | claim call => exact h

/-- **What devices can do.**  If every publish request carries the key it is authenticated with,
    whatever is served is bound. -/
theorem identity_keys_bound_of_own_key (sha : Sha256) (ed : Ed25519)
    (fromSlice : Bytes → Option PreKeyPublication) {events : List DirectoryEvent}
    (hown : ∀ e ∈ events, PublishesOwnKey fromSlice e) :
    ∀ pre, pre <+: events →
      Bound sha ed fromSlice (after (directoryStep sha ed fromSlice) .start pre) := by
  rw [identity_keys_bound_iff]
  intro pre e post hevents request nowMs authenticated p _ hpending _
  -- whatever reached the registry had waited, and was bound while it did
  have hbound : PendingBound sha (after (directoryStep sha ed fromSlice) .start pre) := by
    refine history_invariant (R := fun _ s => PendingBound sha s) ?_ pre ?_
    · intro entry hentry
      exact absurd hentry List.not_mem_nil
    · intro earlier e' hearlier h
      apply h.step (hown e' ?_)
      rw [hevents]
      exact List.mem_append_left _ (hearlier.subset (by simp))
  exact hbound (authenticated, p) (List.mem_of_getElem? hpending)

end

/-! ### A foreign identity key

A device authenticates with one key and publishes a bundle made with another. -/

/-- The key that the request is signed with. -/
def headerKey : Key32 := Vector.replicate 32 42

def foreignDevice : Id16 := deviceIdFromPublicKey sampleSha256 headerKey

/-- The sample publication under the id of the device, signed with its own identity key. -/
def foreignPublication : PreKeyPublication :=
  signPublication { samplePublication 1 with
    bundle := { (samplePublication 1).bundle with deviceId := foreignDevice } }

theorem foreignPublication_deviceId : foreignPublication.bundle.deviceId = foreignDevice := rfl

/-- An array, as `serde_json` writes it. -/
def jsonArray (items : List Bytes) : Bytes :=
  ascii "[" ++ (ascii ",").intercalate items ++ ascii "]"

def jsonBytes (bytes : Bytes) : Bytes := jsonArray (bytes.map fun (b : UInt8) => decimal b.toNat)

/-- An object, as `serde_json` writes it. -/
def jsonObject (fields : List (String × Bytes)) : Bytes :=
  ascii "\x7b" ++ (ascii ",").intercalate (fields.map fun (name, value) =>
    ascii "\"" ++ ascii name ++ ascii "\":" ++ value) ++ ascii "\x7d"

/-- The JSON text of a publication. -/
def publicationJson (p : PreKeyPublication) : Bytes :=
  let oneTimePrekeys := p.bundle.oneTimePrekeys.map fun key => jsonObject
    [("key_id", decimal key.keyId.toNat), ("public_key", jsonBytes key.publicKey.toList)]
  let bundle := jsonObject
    [("protocol_version", decimal p.bundle.protocolVersion.value.toNat),
     ("device_id", jsonBytes p.bundle.deviceId.toList),
     ("identity_signing_key", jsonBytes p.bundle.identitySigningKey.toList),
     ("identity_agreement_key", jsonBytes p.bundle.identityAgreementKey.toList),
     ("signed_prekey_id", decimal p.bundle.signedPrekeyId.toNat),
     ("signed_prekey", jsonBytes p.bundle.signedPrekey.toList),
     ("signed_prekey_signature", jsonBytes p.bundle.signedPrekeySignature.toList),
     ("one_time_prekeys", jsonArray oneTimePrekeys)]
  jsonObject
    [("bundle", bundle), ("generation", decimal p.generation.toNat),
     ("issued_at_ms", decimal p.issuedAtMs.toNat), ("expires_at_ms", decimal p.expiresAtMs.toNat),
     ("signature", jsonBytes p.signature.toList)]

def foreignBody : Bytes := publicationJson foreignPublication

/-- `serde_json::from_slice` on the body of the request. -/
def foreignFromSlice (body : Bytes) : Option PreKeyPublication :=
  if body = foreignBody then some foreignPublication else none

/-- The headers of the publish request. -/
def foreignHeaders : HeaderMap :=
  signedHeaders headerKey (ascii "POST") (ascii "/v1/prekeys") foreignBody 0
    (Vector.replicate 16 7)

theorem foreignHeaders_authentic :
    (AuthState.empty.authenticate sampleSha256 sampleEd25519
      (publishCall foreignHeaders foreignBody 0 0)).1 =
        .ok foreignPublication.bundle.deviceId := by
  have htimely : timely 0 0 = true := by decide
  exact congrArg Prod.fst (authStep_first headerKey (ascii "POST") (ascii "/v1/prekeys")
    foreignBody (Vector.replicate 16 7) htimely 0)

theorem foreignPublication_accepted :
    Accepts sampleEd25519 PreKeyRegistry.empty foreignPublication.bundle.deviceId
      foreignPublication 0 := by
  refine ⟨signPublication_validate ?_ samplePublication_signedPrekey rfl rfl, rfl, ?_⟩
  · decide +kernel
  · intro current h
    simp [PreKeyRegistry.empty] at h

/-- **The failing run.**  Every check passes, and the publication is served for a device whose id
    its identity key does not have. -/
theorem foreign_key_served :
    let step := directoryStep sampleSha256 sampleEd25519 foreignFromSlice
    let run : List DirectoryEvent := [.receive foreignHeaders foreignBody 0 0, .publish 0 0]
    (step (after step .start run) (.get foreignDevice 0)).1 = .served (some foreignPublication) ∧
      deviceIdFromPublicKey sampleSha256 foreignPublication.bundle.identitySigningKey ≠
        foreignDevice := by
  intro step run
  constructor
  · rw [← foreignPublication_deviceId]
    exact served_of_receive foreignHeaders_authentic (if_pos rfl) foreignPublication_accepted
  · -- the two ids differ in their last byte
    intro hsame
    exact absurd (congrArg (fun id : Id16 => id[15]) hsame) (by decide)

end NexaMessenger.Gateway
