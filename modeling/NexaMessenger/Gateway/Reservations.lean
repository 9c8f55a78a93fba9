import NexaMessenger.Gateway.Claims
import NexaMessenger.Gateway.Publications

namespace NexaMessenger.Gateway

open Lib

/-!
# Gateway — a slot belongs to one request

A slot `(device, generation, key id)` that was reserved stays with the request that reserved it:
the tables of claims never lose an entry (`claim_kept`), and as long as the publication is
served a repetition of the request gets its claim again and every other request is refused.

The claim is of the key that the publication lists under the id.  Which publication that is
follows from the history: generations increase, so a device has at most one of each, and a valid
bundle lists an id once.
-/

/-! ### A valid bundle lists an id once -/

theorem keyIds_of_validate {ids : Finset UInt32} {keys : List OneTimePrekeyPublic}
    (h : PreKeyBundle.validateOneTimePrekeys ids keys = .ok ()) :
    (∀ key ∈ keys, key.keyId ∉ ids) ∧ (keys.map (·.keyId)).Nodup := by
  induction keys generalizing ids with
  | nil => exact ⟨fun key hkey => absurd hkey List.not_mem_nil, List.nodup_nil⟩
  | cons key rest ih =>
    rw [PreKeyBundle.validateOneTimePrekeys] at h
    split at h
    · exact absurd h (by simp)
    split at h
    · exact absurd h (by simp)
    rename_i hnew
    -- the ids seen so far include the first one
    obtain ⟨hids, hnodup⟩ := ih h
    constructor
    · intro key' hkey'
      rcases List.mem_cons.mp hkey' with rfl | hrest
      · exact hnew
      · exact fun hmem => hids key' hrest (Finset.mem_insert_of_mem hmem)
    · refine List.nodup_cons.mpr ⟨fun hmem => ?_, hnodup⟩
      obtain ⟨key', hkey', hsame⟩ := List.mem_map.mp hmem
      exact hids key' hkey' (by rw [hsame]; exact Finset.mem_insert_self _ _)

theorem nodup_keyIds {bundle : PreKeyBundle} (h : bundle.validate = .ok ()) :
    (bundle.oneTimePrekeys.map (·.keyId)).Nodup := by
  unfold PreKeyBundle.validate at h
  iterate 6
    split at h
    · exact absurd h (by simp)
  exact (keyIds_of_validate h).2

/-- With distinct ids, the key found under an id is the only one listed there. -/
theorem filter_keyId_of_listed {bundle : PreKeyBundle}
    (hnodup : (bundle.oneTimePrekeys.map (·.keyId)).Nodup) {keyId : UInt32} {publicKey : Key32}
    (h : listedKey bundle keyId = some publicKey) :
    bundle.oneTimePrekeys.filter (fun key => key.keyId = keyId) = [⟨keyId, publicKey⟩] := by
  obtain ⟨key, hfind, rfl⟩ := Option.map_eq_some_iff.mp h
  have hid : key.keyId = keyId := by simpa using List.find?_some hfind
  subst hid
  have hmem := List.mem_of_find?_eq_some hfind
  -- both lists have no entry twice, so it is enough that they have the same entries
  apply List.perm_singleton.mp
  refine (List.perm_ext_iff_of_nodup ?_ (List.nodup_singleton _)).mpr fun key' => ?_
  · exact (List.Nodup.of_map _ hnodup).filter _
  · rw [List.mem_filter, List.mem_singleton, decide_eq_true_eq]
    constructor
    · rintro ⟨hmem', hsame⟩
      exact List.inj_on_of_nodup_map hnodup hmem' hmem hsame
    · rintro rfl
      exact ⟨hmem, rfl⟩

/-! ### What is claimed was listed -/

/-- The claim is of the key that a publication of its device and generation lists. -/
def ListedIn (log : List (RegistryOp × RegistryAnswer)) (c : OpkClaim) : Prop :=
  ∃ a ∈ acceptances log, a.device = c.recipientDevice ∧ a.publication.generation = c.generation ∧
    listedKey a.publication.bundle c.keyId = some c.publicKey

section
variable {ed : Ed25519} {log : List (RegistryOp × RegistryAnswer)} {s : PreKeyRegistry}

theorem ListedIn.append {c : OpkClaim} (h : ListedIn log c)
    (later : List (RegistryOp × RegistryAnswer)) : ListedIn (log ++ later) c := by
  obtain ⟨a, ha, hlisted⟩ := h
  refine ⟨a, ?_, hlisted⟩
  rw [acceptances, List.filterMap_append]
  exact List.mem_append_left _ ha

/-- The publication a call claims from was taken for its recipient. -/
theorem Published.exists_acceptance (h : Published ed log s) {call : ClaimCall}
    {p : PreKeyPublication} (hclaimable : Claimable s call p) :
    ∃ a ∈ acceptances log, a.device = call.recipient ∧ a.publication = p := by
  have hstored := hclaimable.stored
  rw [h.stored] at hstored
  obtain ⟨a, hlast, rfl⟩ := Option.map_eq_some_iff.mp hstored
  obtain ⟨hmem, hdevice⟩ := List.mem_filter.mp (List.mem_of_getLast? hlast)
  exact ⟨a, hmem, of_decide_eq_true hdevice, rfl⟩

theorem run_listed (ed : Ed25519) (ops : List RegistryOp) :
    ∀ key c, (after (registryStep ed) PreKeyRegistry.empty ops).claims.lookup key = some c →
      ListedIn (trace (registryStep ed) PreKeyRegistry.empty ops) c := by
  refine history_invariant (R := fun log (s : PreKeyRegistry) => ∀ key c,
    s.claims.lookup key = some c → ListedIn log c)
    (fun key c h => by simp [PreKeyRegistry.empty] at h) ops ?_
  intro pre op _ hlisted key c hkey
  obtain ⟨hclaims, -, -⟩ | ⟨call, publicKey, rfl, hreserves, hstep⟩ :=
    registryStep_claims ed (after (registryStep ed) PreKeyRegistry.empty pre) op
  · rw [hclaims] at hkey
    exact (hlisted key c hkey).append _
  · rw [hstep] at hkey
    rcases (exists_claim_reserve hreserves.slot c).mp ⟨key, hkey⟩ with ⟨key', hold⟩ | rfl
    · exact (hlisted key' c hold).append _
    · -- a new claim is from the stored publication, which was taken before
      obtain ⟨p, hclaimable, hfound⟩ := hreserves.claimable
      obtain ⟨a, ha, hdevice, rfl⟩ := (run_published ed pre).exists_acceptance hclaimable
      exact ListedIn.append ⟨a, ha, hdevice, hclaimable.current, hfound⟩ _

/-- No two publications of one device are of one generation. -/
theorem Published.acceptance_unique (h : Published ed log s) {a b : Acceptance}
    (ha : a ∈ acceptances log) (hb : b ∈ acceptances log) (hdevice : b.device = a.device)
    (hgeneration : b.publication.generation = a.publication.generation) : b = a := by
  have hmem (c : Acceptance) (hc : c ∈ acceptances log) (hd : c.device = a.device) :
      c ∈ acceptedFor log a.device := List.mem_filter.mpr ⟨hc, decide_eq_true hd⟩
  -- generations increase, so no two are equal
  have hnodup : ((acceptedFor log a.device).map (·.publication.generation)).Nodup :=
    List.pairwise_map.mpr ((h.newer a.device).imp fun hlt => UInt64.ne_of_lt hlt)
  exact List.inj_on_of_nodup_map hnodup (hmem b hb hdevice) (hmem a ha rfl) hgeneration

end

/-! ### What is claimed stays claimed -/

theorem claim_kept_step {ed : Ed25519} {s : PreKeyRegistry} {key : ClaimKey} {c : OpkClaim}
    (h : s.claims.lookup key = some c) (op : RegistryOp) :
    (registryStep ed s op).2.claims.lookup key = some c := by
  obtain ⟨hclaims, -, -⟩ | ⟨call, publicKey, -, hreserves, hstep⟩ := registryStep_claims ed s op
  · rw [hclaims]
    exact h
  · rw [hstep]
    simp only [PreKeyRegistry.reserve, lookup_insert_eq]
    rw [if_neg, h]
    intro hslot
    rw [hslot, hreserves.slot] at h
    exact absurd h (by simp)

theorem claim_kept {ed : Ed25519} {s : PreKeyRegistry} {key : ClaimKey} {c : OpkClaim}
    (h : s.claims.lookup key = some c) (ops : List RegistryOp) :
    (after (registryStep ed) s ops).claims.lookup key = some c :=
  after_invariant (P := fun s : PreKeyRegistry => s.claims.lookup key = some c)
    (fun _ op hs => claim_kept_step hs op) h ops

/-- A call that is answered with a claim leaves it in its slot, as a claim of this request. -/
theorem slot_of_claimed {s : PreKeyRegistry} {call : ClaimCall} {c : OpkClaim}
    (h : (s.claimOpk call).1 = .ok c) :
    (∃ p, Claimable s call p) ∧ (s.claimOpk call).2.claims.lookup call.claimKey = some c ∧
      c.claimantDevice = call.claimant ∧ c.requestId = call.requestId := by
  obtain ⟨e, hstep⟩ | ⟨p, existing, hclaimable, hslot, hclaimant, hrequest, hstep⟩ |
    ⟨publicKey, hreserves, hstep⟩ := claimOpk_cases s call
  · rw [hstep] at h
    exact absurd h (by simp)
  · rw [hstep] at h ⊢
    obtain rfl := Except.ok.inj h
    exact ⟨⟨p, hclaimable⟩, hslot, hclaimant, hrequest⟩
  · rw [hstep] at h ⊢
    obtain rfl := Except.ok.inj h
    obtain ⟨p, hclaimable, -⟩ := hreserves.claimable
    refine ⟨⟨p, hclaimable⟩, ?_, rfl, rfl⟩
    exact (lookup_insert_eq _ _ _ _).trans (if_pos rfl)

/-- On a slot that is taken, the request that holds it gets its claim and any other is refused. -/
theorem claimOpk_taken {s : PreKeyRegistry} {call : ClaimCall} {p : PreKeyPublication}
    {existing : OpkClaim} (h : Claimable s call p)
    (hslot : s.claims.lookup call.claimKey = some existing) :
    s.claimOpk call =
      if existing.claimantDevice = call.claimant ∧ existing.requestId = call.requestId then
        (.ok existing, s)
      else (.error .alreadyClaimed, s) := by
  have hexpired : ¬ p.expiresAtMs ≤ call.nowMs := UInt64.not_le.mpr h.unexpired
  simp [PreKeyRegistry.claimOpk, h.request, h.unrevoked, h.stored, hexpired, h.current, hslot]

theorem claimOpk_error {s : PreKeyRegistry} {call : ClaimCall} {e : PublicationError}
    (h : (s.claimOpk call).1 = .error e) : (s.claimOpk call).2 = s := by
  obtain ⟨e', hstep⟩ | ⟨_, _, -, -, -, -, hstep⟩ | ⟨_, -, hstep⟩ := claimOpk_cases s call
  · rw [hstep]
  · rw [hstep]
  · rw [hstep] at h
    exact absurd h (by simp)

/-- **Claims are exclusive, consistent and idempotent.**  After any run: the two tables of claims
    are inverse to each other; every claim is of the one key listed under its id in the one
    publication taken for its device and generation; while the publication that a claim was made
    from is stored, unrevoked and unexpired, a repetition of its call returns it again, and any
    other request for the slot, with a request id that is not zero, is refused; and a call that
    fails changes nothing. -/
theorem claims_exclusive_and_idempotent (ed : Ed25519) (ops : List RegistryOp) :
    let log := trace (registryStep ed) PreKeyRegistry.empty ops
    let s := after (registryStep ed) PreKeyRegistry.empty ops
    Consistent s ∧
    (∀ c ∈ claimed log, ∃ a ∈ acceptances log, a.device = c.recipientDevice ∧
      a.publication.generation = c.generation ∧
      (∀ b ∈ acceptances log, b.device = c.recipientDevice →
        b.publication.generation = c.generation → b = a) ∧
      a.publication.bundle.oneTimePrekeys.filter (fun key => key.keyId = c.keyId) =
        [⟨c.keyId, c.publicKey⟩]) ∧
    (∀ pre call later c p, ops = pre ++ .claimOpk call :: later →
      ((after (registryStep ed) PreKeyRegistry.empty pre).claimOpk call).1 = .ok c →
      (after (registryStep ed) PreKeyRegistry.empty pre).publications.lookup call.recipient =
        some p →
      s.publications.lookup call.recipient = some p → s.revoked.lookup call.recipient = none →
      (∀ now, now < p.expiresAtMs → s.claimOpk { call with nowMs := now } = (.ok c, s)) ∧
      (∀ other, other.claimKey = call.claimKey → other.requestKey ≠ call.requestKey →
        other.requestId ≠ zeros 16 → other.nowMs < p.expiresAtMs →
        s.claimOpk other = (.error .alreadyClaimed, s))) ∧
    (∀ call e, (s.claimOpk call).1 = .error e → (s.claimOpk call).2 = s) := by
  intro log s
  have hrecorded : Recorded log s := run_recorded ed ops
  have hpublished : Published ed log s := run_published ed ops
  refine ⟨hrecorded.consistent, ?_, ?_, fun call e => claimOpk_error⟩
  · intro c hc
    obtain ⟨key, hkey⟩ := (hrecorded.mem_claimed c).mp hc
    obtain ⟨a, ha, hdevice, hgeneration, hlisted⟩ := run_listed ed ops key c hkey
    refine ⟨a, ha, hdevice, hgeneration, fun b hb hd hg => ?_, ?_⟩
    · exact hpublished.acceptance_unique ha hb (hd.trans hdevice.symm) (hg.trans hgeneration.symm)
    · exact filter_keyId_of_listed (nodup_keyIds (hpublished.valid a ha).bundle) hlisted
  · intro pre call later c p hops hclaim hstored hstored' hunrevoked
    obtain ⟨⟨p', hclaimable⟩, hslot, hclaimant, hrequest⟩ := slot_of_claimed hclaim
    obtain rfl : p = p' := Option.some.inj (hstored.symm.trans hclaimable.stored)
    -- the claim is still in its slot
    have hkept : s.claims.lookup call.claimKey = some c := by
      have hs : s = after (registryStep ed)
          ((after (registryStep ed) PreKeyRegistry.empty pre).claimOpk call).2 later := by
        show after _ _ ops = _
        rw [hops, after_append, after_cons]
        rfl
      rw [hs]
      exact claim_kept hslot later
    constructor
    · intro now hnow
      -- the same call, at another time
      have hagain : Claimable s { call with nowMs := now } p :=
        ⟨hclaimable.request, hunrevoked, hstored', hnow, hclaimable.current⟩
      rw [claimOpk_taken hagain hkept, if_pos ⟨hclaimant, hrequest⟩]
    · intro other hsame hother hnonzero hnow
      -- another request for the slot finds it taken
      obtain ⟨hrecipient, hgeneration, -⟩ := ClaimKey.mk.inj hsame
      have hagain : Claimable s other p := ⟨hnonzero, by rw [hrecipient]; exact hunrevoked,
        by rw [hrecipient]; exact hstored', hnow, hclaimable.current.trans hgeneration.symm⟩
      rw [claimOpk_taken hagain (by rw [hsame]; exact hkept), if_neg]
      rintro ⟨hclaimant', hrequest'⟩
      apply hother
      rw [ClaimCall.requestKey, ClaimCall.requestKey, ← hclaimant, ← hrequest, hclaimant',
        hrequest']

/-- A publication and a claim of its one-time key. -/
def reservedRun : List RegistryOp :=
  [.publish (Vector.replicate 16 7) (samplePublication 1) 0, .claimOpk (sampleClaim 1 8 9)]

/-- **A request id of zero is refused first.**  The slot is taken, its publication is served, and a
    call by another claimant is told that its request is invalid, not that the key is gone. -/
theorem zero_request_is_invalid :
    let s := after (registryStep sampleEd25519) PreKeyRegistry.empty reservedRun
    let call := sampleClaim 1 8 9
    let other := sampleClaim 1 10 0
    (s.claimOpk call).1 = .ok (call.claim (Vector.replicate 32 5)) ∧
      s.getActive other.recipient other.nowMs = some (samplePublication 1) ∧
      other.claimKey = call.claimKey ∧ other.claimant ≠ call.claimant ∧
      (s.claimOpk other).1 = .error .invalidRequest := by
  rw [reservedRun, after_cons,
    registryStep_samplePublication rfl (by simp [PreKeyRegistry.empty])]
  refine ⟨?_, rfl, rfl, ?_, ?_⟩
  · decide +kernel
  · decide
  · decide +kernel

end NexaMessenger.Gateway
