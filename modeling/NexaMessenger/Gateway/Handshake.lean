import NexaMessenger.Gateway.Directory
import NexaMessenger.Gateway.Initiation
import NexaMessenger.Gateway.Server

namespace NexaMessenger.Gateway

open Lib Identity NexaMessenger.Session Auth

/-!
# Gateway — sessions that are set up through the server

A device publishes its prekeys with one request; another one reads the publication and claims a
one-time prekey with requests of its own, some time later, and starts a session with what it was
given.  In between the first device may publish again, and others may do what they like.

A publication that is served was taken from the device it is served for, and a claim is on a key
that the publication of its generation lists (`listed_of_served`).  So if a device publishes keys of
its own, whoever starts a session with what the server gave out and the device that responds agree
on a root (`handshakes_agree`).
-/

/-! ### What the server takes and gives out -/

/-- The events of a run of the server, with its answers. -/
abbrev serverLog (sha : Sha256) (ed : Ed25519) (json : Json) (events : List ServerEvent) :
    List (ServerEvent × ServerAnswer) :=
  trace (serverStep sha ed json) ServerState.start events

/-- What a history tells of the handlers that were served: of the call of each, and what the store
    answered. -/
def told {α : Type} (tell : StoreCall → StoreAnswer → Option α)
    (log : List (ServerEvent × ServerAnswer)) : List α :=
  log.filterMap fun
    | (.serve _ _, .served handler stored) => tell handler.store stored
    | _ => none

/-- The publications that the server took for a device. -/
def publicationsTaken (device : Id16) :
    List (ServerEvent × ServerAnswer) → List PreKeyPublication :=
  told fun
    | .publish d p, .published (.ok ()) => if d = device then some p else none
    | _, _ => none

/-- The publications that it served for the device. -/
def publicationsServed (device : Id16) :
    List (ServerEvent × ServerAnswer) → List PreKeyPublication :=
  told fun
    | .getActive d, .active (some p) => if d = device then some p else none
    | _, _ => none

/-- The claims that it answered. -/
def claimsServed : List (ServerEvent × ServerAnswer) → List OpkClaim :=
  told fun
    | .claimOpk .., .claimed (.ok c) => some c
    | _, _ => none

section
variable {sha : Sha256} {ed : Ed25519} {json : Json} {events : List ServerEvent}

theorem mem_told {α : Type} {tell : StoreCall → StoreAnswer → Option α}
    {log : List (ServerEvent × ServerAnswer)} {a : α} :
    a ∈ told tell log ↔ ∃ i nowMs call store stored,
      (.serve i nowMs, .served ⟨call, store⟩ stored) ∈ log ∧ tell store stored = some a := by
  unfold told
  rw [List.mem_filterMap]
  constructor
  · rintro ⟨⟨e, answer⟩, hentry, h⟩
    split at h
    · rename_i heq
      obtain ⟨rfl, rfl⟩ := Prod.mk.inj heq
      exact ⟨_, _, _, _, _, hentry, h⟩
    · cases h
  · rintro ⟨i, nowMs, call, store, stored, hentry, h⟩
    exact ⟨_, hentry, h⟩

/-! ### The registry behind it -/

theorem StoreCall.op_publish {store : StoreCall} {nowMs now : UInt64} {device : Id16}
    {p : PreKeyPublication} (h : store.op nowMs = some (.publish device p now)) :
    store = .publish device p := by
  cases store <;> cases h
  rfl

theorem StoreAnswer.registry_published {stored : StoreAnswer}
    {result : Except PublicationError Unit} (h : stored.registry = some (.published result)) :
    stored = .published result := by
  cases stored <;> cases h
  rfl

/-- The calls of the registry in a run of the server, with its answers. -/
def registryLog (sha : Sha256) (ed : Ed25519) (json : Json) (events : List ServerEvent) :
    List (RegistryOp × RegistryAnswer) :=
  trace (registryStep ed) PreKeyRegistry.empty
    (emitted (serverStep sha ed json) registryOps ServerState.start events)

/-- A step has a call of the registry exactly if it serves a handler that makes one. -/
theorem mem_registry_step {s : ServerState} {e : ServerEvent} {op : RegistryOp}
    {answer : RegistryAnswer} :
    (op, answer) ∈ trace (registryStep ed) s.prekeys (registryOps s e) ↔
      ∃ i nowMs handler stored, e = .serve i nowMs ∧
        (serverStep sha ed json s e).1 = .served handler stored ∧
        handler.store.op nowMs = some op ∧ stored.registry = some answer := by
  -- no other step has a handler, or a call
  have hother (hops : registryOps s e = []) (he : ∀ i nowMs, e ≠ .serve i nowMs) :
      (op, answer) ∈ trace (registryStep ed) s.prekeys (registryOps s e) ↔
        ∃ i nowMs handler stored, e = .serve i nowMs ∧
          (serverStep sha ed json s e).1 = .served handler stored ∧
          handler.store.op nowMs = some op ∧ stored.registry = some answer := by
    rw [hops]
    refine iff_of_false (by simp) ?_
    rintro ⟨i, nowMs, -, -, heq, -⟩
    exact he i nowMs heq
  cases e with
  | request r => exact hother rfl fun _ _ => ServerEvent.noConfusion
  | route i => exact hother rfl fun _ _ => ServerEvent.noConfusion
  | session k input => exact hother rfl fun _ _ => ServerEvent.noConfusion
  | serve i nowMs =>
    obtain ⟨hnone, hstep⟩ | ⟨handler, hhandler, hstep⟩ := serverStep_serve sha ed json s i nowMs
    · rw [hstep, registryOps, hnone]
      refine iff_of_false (by simp) ?_
      rintro ⟨_, _, _, _, -, hserved, -⟩
      cases hserved
    · have hserve := (serve_registry { s with handlers := s.handlers.eraseIdx i } ed handler.store
        nowMs).2
      rw [hstep, registryOps, hhandler, Option.bind_some]
      constructor
      · intro h
        refine ⟨i, nowMs, handler, _, rfl, rfl, ?_⟩
        cases hop : handler.store.op nowMs with
        | none =>
          rw [hop] at h
          cases h
        | some call =>
          rw [hop] at h hserve
          obtain ⟨rfl, rfl⟩ := Prod.mk.inj (List.mem_singleton.mp h)
          exact ⟨rfl, Option.toList_eq_singleton_iff.mp hserve⟩
      · rintro ⟨_, _, _, _, heq, hserved, hop, hanswer⟩
        obtain ⟨rfl, rfl⟩ := ServerEvent.serve.inj heq
        obtain ⟨rfl, rfl⟩ := ServerAnswer.served.inj hserved
        rw [hop, hanswer] at hserve
        rw [hop]
        exact List.mem_singleton.mpr (by rw [List.singleton_inj.mp hserve])

/-- So the calls of the registry in a run are those of the handlers that were served. -/
theorem mem_registryLog {op : RegistryOp} {answer : RegistryAnswer} :
    (op, answer) ∈ registryLog sha ed json events ↔
      ∃ i nowMs handler stored,
        (.serve i nowMs, .served handler stored) ∈ serverLog sha ed json events ∧
        handler.store.op nowMs = some op ∧ stored.registry = some answer := by
  constructor
  · intro h
    obtain ⟨pre, e, post, rfl, hstep⟩ :=
      (drives_registry sha ed json).exists_step (s := ServerState.start) trivial h
    obtain ⟨i, nowMs, handler, stored, rfl, hserved, hop, hanswer⟩ := mem_registry_step.mp hstep
    refine ⟨i, nowMs, handler, stored, ?_, hop, hanswer⟩
    rw [serverLog, trace_append, trace_cons, ← hserved]
    exact List.mem_append_right _ List.mem_cons_self
  · rintro ⟨i, nowMs, handler, stored, hentry, hop, hanswer⟩
    obtain ⟨pre, post, rfl, hserved⟩ := exists_of_mem_trace _ hentry
    exact (drives_registry sha ed json).mem_trace (s := ServerState.start) trivial
      (mem_registry_step.mpr ⟨i, nowMs, handler, stored, rfl, hserved.symm, hop, hanswer⟩)

/-! ### Served was taken -/

theorem mem_acceptances_of_prefix {pre ops : List RegistryOp} {a : Acceptance}
    (h : a ∈ acceptances (trace (registryStep ed) PreKeyRegistry.empty pre)) (hpre : pre <+: ops) :
    a ∈ acceptances (trace (registryStep ed) PreKeyRegistry.empty ops) :=
  ((trace_mono _ _ hpre).filterMap _).subset h

/-- A publication that the registry shows was taken for its device. -/
theorem acceptance_of_active {ops : List RegistryOp} {device : Id16} {nowMs : UInt64}
    {p : PreKeyPublication} (h : (.getActive device nowMs, .active (some p)) ∈
      trace (registryStep ed) PreKeyRegistry.empty ops) :
    ∃ a ∈ acceptances (trace (registryStep ed) PreKeyRegistry.empty ops),
      a.device = device ∧ a.publication = p := by
  obtain ⟨pre, post, rfl, hanswer⟩ := exists_of_mem_trace _ h
  rw [registryStep_getActive] at hanswer
  have hstored := (getActive_eq_some_iff.mp (RegistryAnswer.active.inj hanswer).symm).1
  rw [(run_published ed pre).stored] at hstored
  obtain ⟨a, hlast, rfl⟩ := Option.map_eq_some_iff.mp hstored
  obtain ⟨hmem, hdevice⟩ := List.mem_filter.mp (List.mem_of_getLast? hlast)
  exact ⟨a, mem_acceptances_of_prefix hmem (List.prefix_append _ _), of_decide_eq_true hdevice, rfl⟩

/-- A claim that the registry answers is on a key that was listed. -/
theorem listedIn_of_claimed {ops : List RegistryOp} {op : RegistryOp} {c : OpkClaim}
    (h : (op, .claimed (.ok c)) ∈ trace (registryStep ed) PreKeyRegistry.empty ops) :
    ListedIn (trace (registryStep ed) PreKeyRegistry.empty ops) c := by
  obtain ⟨pre, post, rfl, hanswer⟩ := exists_of_mem_trace _ h
  cases op with
  | claimOpk call =>
    rw [registryStep_claimOpk] at hanswer
    have hslot := (slot_of_claimed (RegistryAnswer.claimed.inj hanswer).symm).2.1
    have hrun : after (registryStep ed) PreKeyRegistry.empty (pre ++ [.claimOpk call]) =
        ((after (registryStep ed) PreKeyRegistry.empty pre).claimOpk call).2 := by
      rw [after_concat, registryStep_claimOpk]
    rw [← hrun] at hslot
    obtain ⟨a, ha, hlisted⟩ := run_listed ed _ _ c hslot
    exact ⟨a, mem_acceptances_of_prefix ha ⟨post, by simp⟩, hlisted⟩
  | publish device publication nowMs =>
    rw [registryStep_publish] at hanswer
    cases hanswer
  | revoke device generation nowMs =>
    rw [registryStep_revoke] at hanswer
    cases hanswer
  | getActive device nowMs =>
    rw [registryStep_getActive] at hanswer
    cases hanswer

/-- **What is served.**  A publication that is served for a device was taken for it and is valid,
    and it lists the keys of the claims of its generation. -/
theorem listed_of_served {device : Id16} {p : PreKeyPublication}
    (hp : p ∈ publicationsServed device (serverLog sha ed json events)) :
    p ∈ publicationsTaken device (serverLog sha ed json events) ∧
      (∃ now, Valid ed p device now) ∧
      ∀ c ∈ claimsServed (serverLog sha ed json events),
        c.recipientDevice = device → c.generation = p.generation →
          ⟨c.keyId, c.publicKey⟩ ∈ p.bundle.oneTimePrekeys := by
  have hactive : ∃ nowMs,
      (.getActive device nowMs, .active (some p)) ∈ registryLog sha ed json events := by
    obtain ⟨i, nowMs, call, store, stored, hserved, htell⟩ := mem_told.mp hp
    split at htell
    · obtain ⟨rfl, hsame⟩ := Option.ite_none_right_eq_some.mp htell
      obtain rfl := Option.some.inj hsame
      exact ⟨nowMs, mem_registryLog.mpr ⟨i, nowMs, _, _, hserved, rfl, rfl⟩⟩
    · cases htell
  obtain ⟨nowMs, hactive⟩ := hactive
  obtain ⟨a, ha, rfl, rfl⟩ := acceptance_of_active hactive
  have hpublished := run_published ed
    (emitted (serverStep sha ed json) registryOps ServerState.start events)
  refine ⟨?_, ⟨a.time, hpublished.valid a ha⟩, fun c hc hdevice hgeneration => ?_⟩
  · -- the acceptance is an entry of the registry, so one of the server
    obtain ⟨⟨op, answer⟩, hentry, hsome⟩ := List.mem_filterMap.mp ha
    split at hsome
    · rename_i heq
      obtain ⟨rfl, rfl⟩ := Prod.mk.inj heq
      obtain rfl := Option.some.inj hsome
      obtain ⟨j, time, ⟨call, store⟩, stored, htaken, hop, hanswer⟩ := mem_registryLog.mp hentry
      obtain rfl := StoreCall.op_publish hop
      obtain rfl := StoreAnswer.registry_published hanswer
      exact mem_told.mpr ⟨j, time, call, _, _, htaken, if_pos rfl⟩
    · cases hsome
  · have hclaimed : ListedIn (registryLog sha ed json events) c := by
      obtain ⟨j, later, call, store, stored, hserved, htell⟩ := mem_told.mp hc
      split at htell
      · obtain rfl := Option.some.inj htell
        exact listedIn_of_claimed (mem_registryLog.mpr ⟨j, later, _, _, hserved, rfl, rfl⟩)
      · cases htell
    obtain ⟨b, hb, hbdevice, hbgeneration, hlisted⟩ := hclaimed
    -- there is one publication of this generation
    obtain rfl : b = a := hpublished.acceptance_unique ha hb (hbdevice.trans hdevice)
      (hbgeneration.trans hgeneration)
    obtain ⟨key, hfind, hpublic⟩ := Option.map_eq_some_iff.mp hlisted
    have hid : key.keyId = c.keyId := by simpa using List.find?_some hfind
    rw [← hid, ← hpublic]
    exact List.mem_of_find?_eq_some hfind

/-! ### Setting up a session -/

variable {x : X25519} {signer : Signer} {hkdf : Hkdf}

/-- A publication is made of the keys of a device: its identity, and the signed prekey that the
    device has under the id. -/
structure MadeOf (signer : Signer) (identity : IdentityKey x)
    (signedPrekeys : UInt32 → Option (SignedPrekey x)) (p : PreKeyPublication) : Prop where
  signingKey : p.bundle.identitySigningKey = identity.publicKey signer
  agreementKey : p.bundle.identityAgreementKey = identity.agreementPublicKey
  signedPrekey : ∃ signedPrekey, signedPrekeys p.bundle.signedPrekeyId = some signedPrekey ∧
    p.bundle.signedPrekey = signedPrekey.publicKey

/-- An initiator with an acceptable bundle of a responder and the responder agree. -/
theorem agree_of_acceptable (hx : x.Commutes) (htotal : hkdf.Total) {bundle : PreKeyBundle}
    {record : SignedPrekeyRecord} {device : Id16} {responder : IdentityKey x} {keyId : UInt32}
    {signedPrekey : SignedPrekey x} {oneTimePrekey : Option (UInt32 × OneTimePrekey x)}
    (hacceptable : Acceptable ed bundle record
      (oneTimePrekey.map fun otp => (otp.1, otp.2.publicKey)))
    (hbundle : Advertises signer bundle device responder keyId signedPrekey oneTimePrekey)
    (initiator : IdentityKey x) (ephemeral : InitiatorEphemeral x) (initiatorDeviceId : Id16) :
    Agree
      (initiate ed signer hkdf initiator initiatorDeviceId ephemeral bundle record
        (oneTimePrekey.map fun otp => (otp.1, otp.2.publicKey)))
      (respond hkdf responder signedPrekey oneTimePrekey device initiatorDeviceId
        initiator.agreementPublicKey ephemeral.publicKey) := by
  obtain ⟨init, hinitiate⟩ :=
    @initiate_eq x hkdf ed signer initiator initiatorDeviceId ephemeral _ _ _ hacceptable
  rw [hinitiate, respond, respondInner_eq, secrets_agree hx initiator ephemeral hbundle,
    hbundle.device, Option.map_map]
  exact agree_of_root htotal _ _ _ _ _ _ init _ _

/-- **Handshakes agree.**  Let a device only publish its own keys.  Whoever is served a publication
    of the device, at any time in any run of the server, and starts a session with it, agrees with
    the device; and so does whoever has a claim on a one-time prekey of that generation, as long as
    the device still has this prekey in its store. -/
theorem handshakes_agree (sha : Sha256) (json : Json) (hx : x.Commutes) (htotal : hkdf.Total)
    (events : List ServerEvent) (device : Id16) (responder : IdentityKey x)
    (signedPrekeys : UInt32 → Option (SignedPrekey x))
    (hown : ∀ p ∈ publicationsTaken device (serverLog sha ed json events),
      MadeOf signer responder signedPrekeys p)
    (p : PreKeyPublication) (hp : p ∈ publicationsServed device (serverLog sha ed json events))
    (initiator : IdentityKey x) (ephemeral : InitiatorEphemeral x) (initiatorDeviceId : Id16) :
    ∃ signedPrekey, signedPrekeys p.bundle.signedPrekeyId = some signedPrekey ∧
      Agree
        (initiate ed signer hkdf initiator initiatorDeviceId ephemeral p.bundle
          (bundleRecord p.bundle) none)
        (respond hkdf responder signedPrekey none device initiatorDeviceId
          initiator.agreementPublicKey ephemeral.publicKey) ∧
      ∀ c ∈ claimsServed (serverLog sha ed json events),
        c.recipientDevice = device → c.generation = p.generation →
        ∀ (store : OneTimePrekeyStore x) (otp : OneTimePrekey x),
          store.keys[c.keyId]? = some otp → otp.publicKey = c.publicKey →
          Agree
            (initiate ed signer hkdf initiator initiatorDeviceId ephemeral p.bundle
              (bundleRecord p.bundle) (some (c.keyId, c.publicKey)))
            (respondWithOneTimePrekeyStore hkdf responder signedPrekey store
              (some (c.keyId, c.publicKey)) device initiatorDeviceId initiator.agreementPublicKey
              ephemeral.publicKey).1 := by
  obtain ⟨htaken, ⟨now, hvalid⟩, hlisted⟩ := listed_of_served hp
  obtain ⟨hsigning, hagreement, signedPrekey, hspk, hpublic⟩ := hown p htaken
  refine ⟨signedPrekey, hspk, ?_, fun c hc hdevice hgeneration store otp hstore hotp => ?_⟩
  · exact @agree_of_acceptable ed x signer hkdf hx htotal p.bundle (bundleRecord p.bundle) device
      responder _ signedPrekey none (acceptable_of_valid hvalid fun otp h => absurd h (by simp))
      ⟨hvalid.device, hsigning, hagreement, rfl, hpublic, fun otp h => absurd h (by simp)⟩
      initiator ephemeral initiatorDeviceId
  · have hmem := hlisted c hc hdevice hgeneration
    rw [← hotp] at hmem ⊢
    have hstored : ∀ own, some (c.keyId, otp) = some own → store.keys[own.1]? = some own.2 := by
      intro own hown
      rw [← Option.some.inj hown]
      exact hstore
    have hresponse := @respondWithOneTimePrekeyStore_fst x hkdf responder signedPrekey store _
      hstored device initiatorDeviceId initiator.agreementPublicKey ephemeral.publicKey
    rw [Option.map_some] at hresponse
    rw [hresponse]
    exact @agree_of_acceptable ed x signer hkdf hx htotal p.bundle (bundleRecord p.bundle) device
      responder _ signedPrekey (some (c.keyId, otp))
      (acceptable_of_valid hvalid fun own h => by obtain rfl := Option.some.inj h; exact hmem)
      ⟨hvalid.device, hsigning, hagreement, rfl, hpublic,
        fun own h => by obtain rfl := Option.some.inj h; exact hmem⟩
      initiator ephemeral initiatorDeviceId

end

/-! ### A session through the server

One device publishes, another one reads the publication and claims the one-time prekey. -/

/-- The JSON text of a claim request. -/
def claimBody : Bytes := jsonObject [("request_id", jsonBytes (List.replicate 16 3))]

/-- `serde_json::from_slice` on the bodies of the run. -/
def handshakeJson : Json where
  message _ := none
  publication := foreignFromSlice
  claimRequest body := if body = claimBody then some ⟨Vector.replicate 16 3⟩ else none

/-- The id of the publisher, as it stands in a path. -/
def publisherText : Text := (hex foreignDevice.toList).map fun b => Char.ofNat b.toNat

def claimPath : Bytes := ascii "/v1/prekeys/" ++ utf8 publisherText ++ ascii "/1/9/claim"

def handshakeRun : List ServerEvent :=
  [.request ⟨foreignHeaders, .publishPrekeys foreignBody, 0, 0⟩, .serve 0 0,
   .request ⟨[], .getPrekeys publisherText, 0, 0⟩, .serve 0 0,
   .request ⟨signedHeaders (Vector.replicate 32 43) post claimPath claimBody 0
     (Vector.replicate 16 7), .claimPrekey publisherText 1 9 claimBody, 0, 0⟩, .serve 0 0]

/-- The claim that is answered. -/
def handshakeClaim : OpkClaim where
  requestId := Vector.replicate 16 3
  claimantDevice := deviceIdFromPublicKey sampleSha256 (Vector.replicate 32 43)
  recipientDevice := foreignDevice
  generation := 1
  keyId := 9
  publicKey := Vector.replicate 32 5

theorem handshakeRun_served :
    let log := serverLog sampleSha256 sampleEd25519 handshakeJson handshakeRun
    (publicationsTaken foreignDevice log, publicationsServed foreignDevice log,
      claimsServed log) = ([foreignPublication], [foreignPublication], [handshakeClaim]) := by
  decide +kernel

/-- The keys of the publisher. -/
def publisherIdentity : IdentityKey sampleX25519 := ⟨Vector.replicate 32 1, samplePair 3⟩

def publisherSignedPrekeys (keyId : UInt32) : Option (SignedPrekey sampleX25519) :=
  if keyId = 7 then some ⟨samplePair 4⟩ else none

def publisherOneTimePrekey : OneTimePrekey sampleX25519 := { samplePair 5 with keyId := 9 }

def publisherStore : OneTimePrekeyStore sampleX25519 :=
  ⟨(∅ : BTreeMap UInt32 (OneTimePrekey sampleX25519)).insert 9 publisherOneTimePrekey⟩

/-- The session agrees, with the one-time prekey. -/
theorem sample_handshakes_agree :
    Agree
      (initiate sampleEd25519 sampleSigner sampleHkdf (sampleIdentity 6) (Vector.replicate 16 6)
        ⟨samplePair 8⟩ foreignPublication.bundle (bundleRecord foreignPublication.bundle)
        (some (9, Vector.replicate 32 5)))
      (respondWithOneTimePrekeyStore sampleHkdf publisherIdentity ⟨samplePair 4⟩ publisherStore
        (some (9, Vector.replicate 32 5)) foreignDevice (Vector.replicate 16 6)
        (Vector.replicate 32 6) (Vector.replicate 32 8)).1 := by
  obtain ⟨htaken, hserved⟩ := Prod.mk.inj handshakeRun_served
  obtain ⟨hserved, hclaims⟩ := Prod.mk.inj hserved
  have hown : ∀ p ∈ publicationsTaken foreignDevice
      (serverLog sampleSha256 sampleEd25519 handshakeJson handshakeRun),
      MadeOf sampleSigner publisherIdentity publisherSignedPrekeys p := by
    rw [htaken]
    intro p hp
    obtain rfl := List.mem_singleton.mp hp
    exact ⟨rfl, rfl, ⟨samplePair 4⟩, rfl, rfl⟩
  obtain ⟨signedPrekey, hspk, -, hclaim⟩ := handshakes_agree sampleSha256 handshakeJson
    sampleX25519_commutes sampleHkdf_total handshakeRun foreignDevice publisherIdentity
    publisherSignedPrekeys hown foreignPublication
    (by rw [hserved]; exact List.mem_singleton.mpr rfl) (sampleIdentity 6) ⟨samplePair 8⟩
    (Vector.replicate 16 6)
  obtain rfl : ⟨samplePair 4⟩ = signedPrekey := Option.some.inj hspk
  refine hclaim handshakeClaim (by rw [hclaims]; exact List.mem_singleton.mpr rfl) rfl rfl
    publisherStore publisherOneTimePrekey ?_ rfl
  show publisherStore.keys[(9 : UInt32)]? = _
  rw [publisherStore, BTreeMap.get?_insert, if_pos rfl]

end NexaMessenger.Gateway
