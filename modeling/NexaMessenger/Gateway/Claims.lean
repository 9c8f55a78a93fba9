import NexaMessenger.Gateway.PreKeys

namespace NexaMessenger.Gateway

open Lib

/-!
# Gateway — claims of one-time prekeys

A claim is stored under its slot and under the request that made it, and both tables only
grow (`registryStep_claims`).  So everything that was ever claimed is in the tables
(`run_recorded`), and no two claims belong to one request.

The tables know slots, not public keys: a key that two slots list, twice in one bundle or
again under a later generation, can be claimed once under each.  `single_use_iff` is the exact
condition under which that does not happen in a run, and `single_use_of_fresh_publications`
what devices can do to meet it.
-/

/-- The claims a history of calls was answered with. -/
def claimed (log : List (RegistryOp × RegistryAnswer)) : List OpkClaim :=
  log.filterMap fun
    | (_, .claimed (.ok claim)) => some claim
    | _ => none

/-- One-time prekeys are used once: two claims of one public key of one device are by the same
    request of the same claimant. -/
def SingleUse (log : List (RegistryOp × RegistryAnswer)) : Prop :=
  ∀ c ∈ claimed log, ∀ c' ∈ claimed log, c.recipientDevice = c'.recipientDevice →
    c.publicKey = c'.publicKey →
      c.claimantDevice = c'.claimantDevice ∧ c.requestId = c'.requestId

/-! ### The two tables -/

/-- A claim is stored under its slot, and its request leads back to the slot. -/
structure Consistent (s : PreKeyRegistry) : Prop where
  claim : ∀ key c, s.claims.lookup key = some c →
    key = ⟨c.recipientDevice, c.generation, c.keyId⟩ ∧
      s.requests.lookup ⟨c.claimantDevice, c.requestId⟩ = some key
  request : ∀ request key, s.requests.lookup request = some key →
    ∃ c, s.claims.lookup key = some c ∧ request = ⟨c.claimantDevice, c.requestId⟩

/-- What a call does to the tables of claims: it leaves them as they are, and a claim it
    returns is stored there, or it reserves a slot. -/
theorem registryStep_claims (ed : Ed25519) (s : PreKeyRegistry) (op : RegistryOp) :
    ((registryStep ed s op).2.claims = s.claims ∧ (registryStep ed s op).2.requests = s.requests ∧
      ∀ c, (registryStep ed s op).1 = .claimed (.ok c) → ∃ key, s.claims.lookup key = some c) ∨
    (∃ call publicKey, op = .claimOpk call ∧ Reserves s call publicKey ∧
      registryStep ed s op =
        (.claimed (.ok (call.claim publicKey)), s.reserve call publicKey)) := by
  cases op with
  | publish expectedDevice publication nowMs =>
    left
    obtain ⟨e, h⟩ | ⟨-, h⟩ := publish_cases ed s expectedDevice publication nowMs <;>
      simp [h]
  | revoke device generation nowMs =>
    left
    obtain ⟨e, h⟩ | ⟨-, -, h⟩ := revoke_cases s device generation nowMs <;> simp [h]
  | getActive device nowMs => exact .inl ⟨rfl, rfl, fun c h => by simp at h⟩
  | claimOpk call =>
    -- only a reservation writes to the tables
    obtain ⟨e, h⟩ | ⟨publication, existing, -, hslot, -, -, h⟩ | ⟨publicKey, hreserves, h⟩ :=
      claimOpk_cases s call
    · exact .inl (by simp [h])
    · refine .inl ⟨by simp [h], by simp [h], fun c hc => ⟨call.claimKey, ?_⟩⟩
      obtain rfl : existing = c := by simpa [h] using hc
      exact hslot
    · exact .inr ⟨call, publicKey, rfl, hreserves, by simp [h]⟩

/-- A call that reserves a slot succeeds. -/
theorem Reserves.claimOpk {s : PreKeyRegistry} {call : ClaimCall} {publicKey : Key32}
    (h : Reserves s call publicKey) :
    s.claimOpk call = (.ok (call.claim publicKey), s.reserve call publicKey) := by
  obtain ⟨⟨publication, hclaimable, hlisted⟩, hslot, hunused⟩ := h
  have hexpired : ¬ publication.expiresAtMs ≤ call.nowMs := UInt64.not_le.mpr hclaimable.unexpired
  simp [PreKeyRegistry.claimOpk, hclaimable.request, hclaimable.unrevoked, hclaimable.stored,
    hexpired, hclaimable.current, hslot, hunused, hlisted, PreKeyRegistry.reserve]

theorem Consistent.empty : Consistent PreKeyRegistry.empty :=
  ⟨fun _ _ h => by simp [PreKeyRegistry.empty] at h,
    fun _ _ h => by simp [PreKeyRegistry.empty] at h⟩

/-- Reserving a slot under a new request keeps the tables inverse to each other. -/
theorem Consistent.reserve {s : PreKeyRegistry} (h : Consistent s) {call : ClaimCall}
    {publicKey : Key32} (hreserves : Reserves s call publicKey) :
    Consistent (s.reserve call publicKey) := by
  constructor
  · intro key c hkey
    simp only [PreKeyRegistry.reserve, lookup_insert_eq] at hkey ⊢
    split at hkey
    · obtain rfl := Option.some.inj hkey
      rename_i hslot
      exact ⟨hslot, (if_pos rfl).trans (congrArg some hslot.symm)⟩
    · obtain ⟨hslot, hrequest⟩ := h.claim key c hkey
      refine ⟨hslot, ?_⟩
      -- an earlier claim belongs to another request
      rw [if_neg, hrequest]
      intro hsame
      rw [hsame, hreserves.unused] at hrequest
      exact absurd hrequest (by simp)
  · intro request key hrequest
    simp only [PreKeyRegistry.reserve, lookup_insert_eq] at hrequest ⊢
    split at hrequest
    · obtain rfl := Option.some.inj hrequest
      rename_i hsame
      exact ⟨_, if_pos rfl, hsame⟩
    · obtain ⟨c, hkey, hc⟩ := h.request request key hrequest
      refine ⟨c, ?_, hc⟩
      rw [if_neg, hkey]
      intro hslot
      rw [hslot, hreserves.slot] at hkey
      exact absurd hkey (by simp)

/-! ### What was claimed is in the tables -/

/-- The tables are consistent, and hold exactly the claims made so far. -/
structure Recorded (log : List (RegistryOp × RegistryAnswer)) (s : PreKeyRegistry) : Prop where
  consistent : Consistent s
  mem_claimed : ∀ c, c ∈ claimed log ↔ ∃ key, s.claims.lookup key = some c

theorem mem_claimed_concat (log : List (RegistryOp × RegistryAnswer)) (op : RegistryOp)
    (answer : RegistryAnswer) (c : OpkClaim) :
    c ∈ claimed (log ++ [(op, answer)]) ↔ c ∈ claimed log ∨ answer = .claimed (.ok c) := by
  rw [claimed, List.filterMap_append, List.mem_append]
  apply or_congr_right
  rw [List.mem_filterMap]
  constructor
  · rintro ⟨⟨op', answer'⟩, hmem, hclaim⟩
    obtain ⟨rfl, rfl⟩ := Prod.mk.inj (List.mem_singleton.mp hmem)
    split at hclaim
    · rename_i heq
      obtain rfl := Option.some.inj hclaim
      exact (Prod.mk.inj heq).2
    · exact absurd hclaim (by simp)
  · intro h
    exact ⟨(op, answer), by simp, by rw [h]⟩

/-- What a slot holds after a reservation. -/
theorem exists_claim_reserve {s : PreKeyRegistry} {call : ClaimCall} {publicKey : Key32}
    (hslot : s.claims.lookup call.claimKey = none) (c : OpkClaim) :
    (∃ key, (s.reserve call publicKey).claims.lookup key = some c) ↔
      (∃ key, s.claims.lookup key = some c) ∨ call.claim publicKey = c := by
  simp only [PreKeyRegistry.reserve, lookup_insert_eq]
  constructor
  · rintro ⟨key, hkey⟩
    split at hkey
    · exact .inr (Option.some.inj hkey)
    · exact .inl ⟨key, hkey⟩
  · rintro (⟨key, hkey⟩ | rfl)
    · refine ⟨key, ?_⟩
      rw [if_neg, hkey]
      intro hsame
      rw [hsame, hslot] at hkey
      exact absurd hkey (by simp)
    · exact ⟨call.claimKey, if_pos rfl⟩

/-- **Step.** Every call keeps the record. -/
theorem Recorded.step {ed : Ed25519} {log : List (RegistryOp × RegistryAnswer)}
    {s : PreKeyRegistry} (h : Recorded log s) (op : RegistryOp) :
    Recorded (log ++ [(op, (registryStep ed s op).1)]) (registryStep ed s op).2 := by
  obtain ⟨hclaims, hrequests, hstored⟩ | ⟨call, publicKey, rfl, hreserves, hstep⟩ :=
    registryStep_claims ed s op
  · refine ⟨⟨?_, ?_⟩, fun c => ?_⟩
    · rw [hclaims, hrequests]; exact h.consistent.claim
    · rw [hclaims, hrequests]; exact h.consistent.request
    · rw [mem_claimed_concat, hclaims, h.mem_claimed]
      exact ⟨fun hc => hc.elim id (hstored c), .inl⟩
  · rw [hstep]
    refine ⟨h.consistent.reserve hreserves, fun c => ?_⟩
    rw [mem_claimed_concat, exists_claim_reserve hreserves.slot, h.mem_claimed]
    simp

/-- **Run.** After any run the tables hold exactly what was claimed. -/
theorem run_recorded (ed : Ed25519) (ops : List RegistryOp) :
    Recorded (trace (registryStep ed) PreKeyRegistry.empty ops)
      (after (registryStep ed) PreKeyRegistry.empty ops) := by
  refine history_invariant_of_step (R := Recorded) ⟨Consistent.empty, fun c => ?_⟩
    (fun log s op h => h.step op) ops
  simp [claimed, PreKeyRegistry.empty]

/-! ### When a key is claimed once -/

/-- The call does not reserve a key of the recipient that is claimed already, under whatever
    slot. -/
def KeyUnclaimed (s : PreKeyRegistry) (op : RegistryOp) : Prop :=
  ∀ call publicKey, op = .claimOpk call → Reserves s call publicKey →
    ∀ key c, s.claims.lookup key = some c → c.recipientDevice = call.recipient →
      c.publicKey ≠ publicKey

/-- **Step.** Single use survives a call exactly if the call reserves no claimed key: the request
    of a reservation is new, so it is not the one that holds the key. -/
theorem singleUse_concat_iff {ed : Ed25519} {log : List (RegistryOp × RegistryAnswer)}
    {s : PreKeyRegistry} (h : Recorded log s) (op : RegistryOp) :
    SingleUse (log ++ [(op, (registryStep ed s op).1)]) ↔ SingleUse log ∧ KeyUnclaimed s op := by
  constructor
  · intro huse
    refine ⟨fun c hc c' hc' => huse c ?_ c' ?_, ?_⟩
    · exact (mem_claimed_concat _ _ _ _).mpr (.inl hc)
    · exact (mem_claimed_concat _ _ _ _).mpr (.inl hc')
    · rintro call publicKey rfl hreserves key c hkey hrecipient hsame
      -- the slot of `c` is held by the request of the call, which is new
      have hold : c ∈ claimed log := (h.mem_claimed c).mpr ⟨key, hkey⟩
      obtain ⟨hclaimant, hrequest⟩ := huse c ((mem_claimed_concat _ _ _ _).mpr (.inl hold))
        (call.claim publicKey)
        ((mem_claimed_concat _ _ _ _).mpr
          (.inr (by rw [registryStep_claimOpk, hreserves.claimOpk])))
        hrecipient hsame
      have hheld := (h.consistent.claim key c hkey).2
      rw [hclaimant, hrequest] at hheld
      exact absurd (hheld.symm.trans hreserves.unused) (by simp)
  · rintro ⟨huse, hunclaimed⟩
    obtain ⟨-, -, hstored⟩ | ⟨call, publicKey, rfl, hreserves, hstep⟩ := registryStep_claims ed s op
    · -- nothing new was claimed
      have hold (c : OpkClaim) (hc : c ∈ claimed (log ++ [(op, (registryStep ed s op).1)])) :
          c ∈ claimed log :=
        ((mem_claimed_concat _ _ _ _).mp hc).elim id fun hnew =>
          (h.mem_claimed c).mpr (hstored c hnew)
      intro c hc c' hc'
      exact huse c (hold c hc) c' (hold c' hc')
    · rw [hstep]
      -- one new claim, of a key that no earlier claim of the device is of
      have hother (c : OpkClaim) (hc : c ∈ claimed log)
          (hrecipient : c.recipientDevice = call.recipient) : c.publicKey ≠ publicKey := by
        obtain ⟨key, hkey⟩ := (h.mem_claimed c).mp hc
        exact hunclaimed call publicKey rfl hreserves key c hkey hrecipient
      intro c hc c' hc' hrecipient hsame
      rw [mem_claimed_concat] at hc hc'
      rcases hc with hc | hc <;> rcases hc' with hc' | hc'
      · exact huse c hc c' hc' hrecipient hsame
      · cases hc'
        exact absurd hsame (hother c hc hrecipient)
      · cases hc
        exact absurd hsame.symm (hother c' hc' hrecipient.symm)
      · cases hc
        cases hc'
        exact ⟨rfl, rfl⟩

/-- **Single use, exactly.** In a run of the registry every one-time prekey is claimed by one
    request only if and only if no call of the run reserves a public key of its recipient that
    is claimed already under another slot. -/
theorem single_use_iff (ed : Ed25519) (ops : List RegistryOp) :
    SingleUse (trace (registryStep ed) PreKeyRegistry.empty ops) ↔
      ∀ pre op post, ops = pre ++ op :: post →
        KeyUnclaimed (after (registryStep ed) PreKeyRegistry.empty pre) op := by
  apply history_iff
  · intro c hc
    simp [claimed] at hc
  · intro pre op
    rw [trace_concat]
    exact singleUse_concat_iff (run_recorded ed pre) op

/-! ### A key listed twice

A device that publishes generation 2 with the one-time key of generation 1. -/

/-- A publication of one one-time key, signed in the sample scheme. -/
def samplePublication (generation : UInt64) : PreKeyPublication :=
  let signedPrekey : Key32 := Vector.replicate 32 4
  let agreement : Key32 := Vector.replicate 32 3
  let identity : Key32 := Vector.replicate 32 1
  let bundle : PreKeyBundle :=
    { protocolVersion := ⟨protocolVersion⟩
      deviceId := Vector.replicate 16 7
      identitySigningKey := identity
      identityAgreementKey := agreement
      signedPrekeyId := 7
      signedPrekey := signedPrekey
      signedPrekeySignature := sampleSign identity
        (signedPrekeyDomain ++ toBe 4 7 ++ signedPrekey.toList ++ agreement.toList)
      oneTimePrekeys := [⟨9, Vector.replicate 32 5⟩] }
  let unsigned : PreKeyPublication := ⟨bundle, generation, 0, 60000, zeros 64⟩
  { unsigned with signature := sampleSign identity unsigned.signingBytes }

/-- A publication with the signature that its identity key makes. -/
def signPublication (p : PreKeyPublication) : PreKeyPublication :=
  { p with signature := sampleSign p.bundle.identitySigningKey p.signingBytes }

theorem signPublication_verifySignature (p : PreKeyPublication) :
    (signPublication p).verifySignature sampleEd25519 = true := by
  have hbytes : (signPublication p).signingBytes = p.signingBytes := by
    simp only [signPublication, PreKeyPublication.signingBytes]
  rw [PreKeyPublication.verifySignature, hbytes, Bool.and_eq_true]
  exact ⟨rfl, sampleEd25519_verify rfl⟩

/-- A valid bundle with a genuine prekey makes a valid publication for its device. -/
theorem signPublication_validate {p : PreKeyPublication} (hbundle : p.bundle.validate = .ok ())
    (hprekey : verifySignedPrekey sampleEd25519 p.bundle = true) (hissued : p.issuedAtMs = 0)
    (hexpires : p.expiresAtMs = 60000) :
    (signPublication p).validate sampleEd25519 p.bundle.deviceId 0 = .ok () := by
  have hversion : p.bundle.protocolVersion.value = protocolVersion := by
    unfold PreKeyBundle.validate at hbundle
    split at hbundle
    · exact absurd hbundle (by simp)
    · rename_i h
      exact not_not.mp h
  -- the checks of `validate`, in their order
  have htime : ¬ (satAdd 0 maxClockSkewMs < p.issuedAtMs ∨ p.expiresAtMs ≤ p.issuedAtMs) := by
    rw [hissued, hexpires]
    decide +kernel
  have hlifetime : ¬ maxLifetimeMs < satSub p.expiresAtMs p.issuedAtMs := by
    rw [hissued, hexpires]
    decide +kernel
  have hlive : ¬ p.expiresAtMs ≤ 0 := by
    rw [hexpires]
    decide
  have hsigned := signPublication_verifySignature p
  rw [PreKeyPublication.validate, hsigned]
  simp only [signPublication, hbundle, hversion, hprekey, if_neg htime, if_neg hlifetime,
    if_neg hlive, ne_eq, not_true_eq_false, if_false, Bool.not_true, Bool.or_self,
    Bool.false_eq_true]

theorem samplePublication_signedPrekey :
    verifySignedPrekey sampleEd25519 (samplePublication 0).bundle = true := by
  decide +kernel

/-- A device that has not revoked may publish the sample under a new generation. -/
theorem registryStep_samplePublication {s : PreKeyRegistry} {generation : UInt64}
    (hunrevoked : s.revoked.lookup (Vector.replicate 16 7) = none)
    (hnewer : ∀ current, s.publications.lookup (Vector.replicate 16 7) = some current →
      current.generation < generation) :
    registryStep sampleEd25519 s
        (.publish (Vector.replicate 16 7) (samplePublication generation) 0) =
      (.published (.ok ()), { s with
        publications :=
          s.publications.insert (Vector.replicate 16 7) (samplePublication generation) }) := by
  have hbundle : (samplePublication 0).bundle.validate = .ok () := by decide +kernel
  have haccepts : Accepts sampleEd25519 s (Vector.replicate 16 7)
      (samplePublication generation) 0 :=
    ⟨signPublication_validate (p := ⟨(samplePublication 0).bundle, generation, 0, 60000, zeros 64⟩)
      hbundle samplePublication_signedPrekey rfl rfl, hunrevoked, hnewer⟩
  rw [registryStep_publish, haccepts.publish]
  rfl

/-- A claim of the one-time key of a generation. -/
def sampleClaim (generation : UInt64) (claimant request : UInt8) : ClaimCall :=
  ⟨Vector.replicate 16 7, generation, 9, Vector.replicate 16 claimant,
    Vector.replicate 16 request, 0⟩

/-- Two generations with one key, each claimed by another device. -/
def republishRun : List RegistryOp :=
  [.publish (Vector.replicate 16 7) (samplePublication 1) 0,
   .claimOpk (sampleClaim 1 8 9),
   .publish (Vector.replicate 16 7) (samplePublication 2) 0,
   .claimOpk (sampleClaim 2 10 11)]

/-- **A republished key is claimed twice.** -/
theorem republished_key_claimed_twice :
    ¬ SingleUse (trace (registryStep sampleEd25519) PreKeyRegistry.empty republishRun) := by
  intro huse
  have hclaimed : claimed (trace (registryStep sampleEd25519) PreKeyRegistry.empty republishRun) =
      [(sampleClaim 1 8 9).claim (Vector.replicate 32 5),
       (sampleClaim 2 10 11).claim (Vector.replicate 32 5)] := by
    rw [republishRun, trace_cons,
      registryStep_samplePublication rfl (by simp [PreKeyRegistry.empty]), trace_cons, trace_cons,
      registryStep_samplePublication (by decide +kernel)]
    · decide +kernel
    · intro current hcurrent
      have hgeneration : current.generation = 1 := by
        apply Option.some.inj
        rw [← Option.map_some, ← hcurrent]
        decide +kernel
      rw [hgeneration]
      decide
  rw [SingleUse, hclaimed] at huse
  obtain ⟨hclaimant, -⟩ := huse ((sampleClaim 1 8 9).claim (Vector.replicate 32 5)) (by simp)
    ((sampleClaim 2 10 11).claim (Vector.replicate 32 5)) (by simp) rfl rfl
  exact absurd hclaimant (by decide)

/-! ### Publications that keep keys single-use -/

/-- The public keys a bundle offers for one-time use. -/
def oneTimeKeys (bundle : PreKeyBundle) : List Key32 := bundle.oneTimePrekeys.map (·.publicKey)

/-- A publication whose one-time keys are pairwise distinct and not claimed from its device
    before. -/
structure FreshKeys (s : PreKeyRegistry) (publication : PreKeyPublication) : Prop where
  nodup : (oneTimeKeys publication.bundle).Nodup
  unclaimed : ∀ key c, s.claims.lookup key = some c →
    c.recipientDevice = publication.bundle.deviceId →
      c.publicKey ∉ oneTimeKeys publication.bundle

/-- How a claim of a device stands to its stored publication: it is of that generation, and of
    the key listed in its slot; or of an earlier one, and of a key that is not offered now. -/
def Offered (p : PreKeyPublication) (c : OpkClaim) : Prop :=
  (c.generation = p.generation ∧ listedKey p.bundle c.keyId = some c.publicKey) ∨
    (c.generation < p.generation ∧ c.publicKey ∉ oneTimeKeys p.bundle)

/-- Every stored publication has distinct keys, and every claim stands so to the publication of
    its device. -/
structure OffersFresh (s : PreKeyRegistry) : Prop where
  nodup : ∀ device p, s.publications.lookup device = some p → (oneTimeKeys p.bundle).Nodup
  published : ∀ key c, s.claims.lookup key = some c →
    ∃ p, s.publications.lookup c.recipientDevice = some p ∧ Offered p c

/-- A listed key is one of the keys on offer. -/
theorem mem_oneTimeKeys_of_listed {bundle : PreKeyBundle} {keyId : UInt32} {publicKey : Key32}
    (h : listedKey bundle keyId = some publicKey) : publicKey ∈ oneTimeKeys bundle := by
  obtain ⟨key, hfind, rfl⟩ := Option.map_eq_some_iff.mp h
  exact List.mem_map_of_mem (List.mem_of_find?_eq_some hfind)

/-- With distinct keys, a key is listed in one slot only. -/
theorem listed_slot_unique {bundle : PreKeyBundle} (hnodup : (oneTimeKeys bundle).Nodup)
    {id id' : UInt32} {publicKey : Key32} (h : listedKey bundle id = some publicKey)
    (h' : listedKey bundle id' = some publicKey) : id = id' := by
  obtain ⟨key, hfind, hkey⟩ := Option.map_eq_some_iff.mp h
  obtain ⟨key', hfind', hkey'⟩ := Option.map_eq_some_iff.mp h'
  have hsame : key = key' := List.inj_on_of_nodup_map hnodup
    (List.mem_of_find?_eq_some hfind) (List.mem_of_find?_eq_some hfind') (hkey.trans hkey'.symm)
  have hid : key.keyId = id := by simpa using List.find?_some hfind
  have hid' : key'.keyId = id' := by simpa using List.find?_some hfind'
  rw [← hid, ← hid', hsame]

theorem OffersFresh.empty : OffersFresh PreKeyRegistry.empty :=
  ⟨fun _ _ h => by simp [PreKeyRegistry.empty] at h,
    fun _ _ h => by simp [PreKeyRegistry.empty] at h⟩

/-- A fresh publication takes the place of the stored one: all claims are of an earlier
    generation now, and of keys that it does not offer. -/
theorem OffersFresh.publish {ed : Ed25519} {s : PreKeyRegistry} (h : OffersFresh s)
    {expectedDevice : Id16} {publication : PreKeyPublication} {nowMs : UInt64}
    (haccepts : Accepts ed s expectedDevice publication nowMs) (hfresh : FreshKeys s publication) :
    OffersFresh { s with publications :=
      s.publications.insert publication.bundle.deviceId publication } := by
  constructor
  · intro device p hp
    simp only [lookup_insert_eq] at hp
    split at hp
    · obtain rfl := Option.some.inj hp
      exact hfresh.nodup
    · exact h.nodup device p hp
  · intro key c hkey
    obtain ⟨p, hp, hoffered⟩ := h.published key c hkey
    simp only [lookup_insert_eq]
    split
    · rename_i hdevice
      -- the earlier claims are of an older generation now
      refine ⟨publication, rfl, .inr ⟨?_, hfresh.unclaimed key c hkey hdevice⟩⟩
      have hnewer := haccepts.newer p (by rw [← hdevice]; exact hp)
      rcases hoffered with ⟨hgen, -⟩ | ⟨hgen, -⟩
      · rw [hgen]; exact hnewer
      · exact UInt64.lt_trans hgen hnewer
    · exact ⟨p, hp, hoffered⟩

/-- A reservation is of the key listed in its slot. -/
theorem OffersFresh.reserve {s : PreKeyRegistry} (h : OffersFresh s) {call : ClaimCall}
    {publicKey : Key32} (hreserves : Reserves s call publicKey) :
    OffersFresh (s.reserve call publicKey) := by
  refine ⟨h.nodup, fun key c hkey => ?_⟩
  rcases (exists_claim_reserve hreserves.slot c).mp ⟨key, hkey⟩ with ⟨key', hkey'⟩ | rfl
  · exact h.published key' c hkey'
  · obtain ⟨p, hclaimable, hlisted⟩ := hreserves.claimable
    exact ⟨p, hclaimable.stored, .inl ⟨hclaimable.current.symm, hlisted⟩⟩

/-- A call that publishes, if it publishes, fresh keys. -/
def PublishesFresh (ed : Ed25519) (s : PreKeyRegistry) (op : RegistryOp) : Prop :=
  ∀ expectedDevice publication nowMs, op = .publish expectedDevice publication nowMs →
    Accepts ed s expectedDevice publication nowMs → FreshKeys s publication

theorem OffersFresh.step {ed : Ed25519} {s : PreKeyRegistry} (h : OffersFresh s) {op : RegistryOp}
    (hfresh : PublishesFresh ed s op) : OffersFresh (registryStep ed s op).2 := by
  cases op with
  | publish expectedDevice publication nowMs =>
    rw [registryStep_publish]
    obtain ⟨e, hstep⟩ | ⟨haccepts, hstep⟩ := publish_cases ed s expectedDevice publication nowMs
    · rw [hstep]; exact h
    · rw [hstep]; exact h.publish haccepts (hfresh _ _ _ rfl haccepts)
  | revoke device generation nowMs =>
    rw [registryStep_revoke]
    obtain ⟨e, hstep⟩ | ⟨-, -, hstep⟩ := revoke_cases s device generation nowMs
    · rw [hstep]; exact h
    · rw [hstep]; exact ⟨h.nodup, h.published⟩
  | getActive device nowMs => exact h
  | claimOpk call =>
    rw [registryStep_claimOpk]
    obtain ⟨e, hstep⟩ | ⟨_, _, -, -, -, -, hstep⟩ | ⟨publicKey, hreserves, hstep⟩ :=
      claimOpk_cases s call
    · rw [hstep]; exact h
    · rw [hstep]; exact h
    · rw [hstep]; exact h.reserve hreserves

/-- What is on offer and not claimed in its slot is not claimed in any other. -/
theorem OffersFresh.keyUnclaimed {s : PreKeyRegistry} (h : OffersFresh s) (hs : Consistent s)
    (op : RegistryOp) : KeyUnclaimed s op := by
  rintro call publicKey rfl hreserves key c hkey hrecipient rfl
  obtain ⟨p, hclaimable, hlisted⟩ := hreserves.claimable
  obtain ⟨p', hp', hoffered⟩ := h.published key c hkey
  rw [hrecipient, hclaimable.stored] at hp'
  obtain rfl := Option.some.inj hp'
  rcases hoffered with ⟨hgen, hlisted'⟩ | ⟨-, hnot⟩
  · -- the same generation: the claim would hold the very slot that is reserved
    have hid := listed_slot_unique (h.nodup _ p hclaimable.stored) hlisted' hlisted
    have hslot := (hs.claim key c hkey).1
    rw [hrecipient, hgen, hclaimable.current, hid] at hslot
    have hnone := hreserves.slot
    rw [show call.claimKey = key from hslot.symm, hkey] at hnone
    exact absurd hnone (by simp)
  · exact hnot (mem_oneTimeKeys_of_listed hlisted)

/-- **What devices can do.** If every publication that is taken offers pairwise distinct keys none
    of which was claimed from its device before, every one-time prekey is claimed by one request
    only. -/
theorem single_use_of_fresh_publications (ed : Ed25519) (ops : List RegistryOp)
    (hfresh : ∀ pre op post, ops = pre ++ op :: post →
      PublishesFresh ed (after (registryStep ed) PreKeyRegistry.empty pre) op) :
    SingleUse (trace (registryStep ed) PreKeyRegistry.empty ops) := by
  -- both facts are carried along the run, the second by the first
  refine (history_invariant (R := fun log s => OffersFresh s ∧ Recorded log s ∧ SingleUse log)
    ⟨OffersFresh.empty, run_recorded ed [], fun c hc => by simp [claimed] at hc⟩ ops ?_).2.2
  rintro pre op ⟨post, hpost⟩ ⟨hoffers, hrecorded, huse⟩
  refine ⟨hoffers.step (hfresh pre op post (by rw [← hpost]; simp)), hrecorded.step op, ?_⟩
  exact (singleUse_concat_iff hrecorded op).mpr
    ⟨huse, hoffers.keyUnclaimed hrecorded.consistent op⟩

end NexaMessenger.Gateway
