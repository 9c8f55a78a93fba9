import NexaMessenger.Lib.Isolation
import NexaMessenger.Gateway.Replay

namespace NexaMessenger.Gateway.Auth

open Lib

/-!
# Gateway — a device's nonces and its rate are its own

Two properties of the tables behind the lock.  A live nonce is never evicted
(`live_nonces_stay`): the queue of a device is below its capacity whenever a request comes to the
test, so what a request was accepted with stays until it expires.  And devices do not disturb
each other (`devices_isolated`): a call that does not pass the checks under a device's own key
touches neither of its entries, so the device is answered as if such calls had not been made.
-/

/-! ### Live nonces stay -/

section
variable (sha : Sha256) (ed : Ed25519)

/-- **Live nonces are never evicted.**  In a run whose clock readings do not decrease, a request
    that passes its checks finds less than `MAX_NONCES_PER_DEVICE` live nonces of its device.  If it
    is accepted, no nonce makes room for its own, which stays until it expires. -/
theorem live_nonces_stay {calls : List AuthCall} (hclock : Monotone calls) :
    ∀ pre call post r, calls = pre ++ call :: post → call.request = .ok r →
      r.check sha ed call.nowMs = .ok () →
      ((after (authStep sha ed) AuthState.empty pre).liveNonces r.deviceId call.now).length <
        maxNoncesPerDevice ∧
      (∀ deviceId, (authStep sha ed (after (authStep sha ed) AuthState.empty pre) call).1 =
          .ok deviceId →
        (after (authStep sha ed) AuthState.empty (pre ++ [call])).queue r.deviceId =
          (after (authStep sha ed) AuthState.empty pre).liveNonces r.deviceId call.now ++
            [(r.nonce, call.now + nonceTtl)] ∧
        ∀ mid, mid <+: post → (∀ c ∈ mid, c.now < call.now + nonceTtl) →
          (r.nonce, call.now + nonceTtl) ∈
            (after (authStep sha ed) AuthState.empty (pre ++ call :: mid)).queue r.deviceId) := by
  intro pre call post r hcalls hrequest hcheck
  rw [hcalls] at hclock
  obtain ⟨hpre, hrest, hle⟩ := List.pairwise_append.mp hclock
  have hbefore := run_remembers sha ed hpre fun c hc => hle c hc call List.mem_cons_self
  refine ⟨hbefore.limited.live_length (le_refl _) _, ?_⟩
  intro deviceId hanswer
  obtain ⟨r', hrequest', -, -, -, hstep⟩ := authStep_ok hanswer
  obtain rfl : r = r' := Except.ok.inj (hrequest.symm.trans hrequest')
  have hentered : (after (authStep sha ed) AuthState.empty (pre ++ [call])).queue r.deviceId =
      (after (authStep sha ed) AuthState.empty pre).liveNonces r.deviceId call.now ++
        [(r.nonce, call.now + nonceTtl)] := by
    rw [after_concat, hstep, accept_queue hbefore.limited, if_pos rfl]
  refine ⟨hentered, ?_⟩
  intro mid hmid hsoon
  -- from the accepted call on, the calls of `mid` keep it one by one
  induction mid using List.reverseRecOn with
  | nil =>
    rw [hentered]
    exact List.mem_append_right _ (List.mem_singleton.mpr rfl)
  | append_singleton mid c ih =>
    have hshort := ih ((List.prefix_append _ _).trans hmid) fun c' hc' => hsoon c' (by simp [hc'])
    obtain ⟨tail, rfl⟩ := hmid
    have hsplit : pre ++ call :: (mid ++ [c]) = (pre ++ call :: mid) ++ [c] := by simp
    have hupto : Monotone ((pre ++ call :: mid) ++ c :: tail) := by
      rw [show (pre ++ call :: mid) ++ c :: tail = pre ++ call :: (mid ++ [c] ++ tail) by simp]
      exact hclock
    obtain ⟨hearlier, -, hlast⟩ := List.pairwise_append.mp hupto
    have hknown := run_remembers sha ed hearlier fun c' hc' => hlast c' hc' c List.mem_cons_self
    rw [hsplit, after_concat]
    exact hknown.limited.keeps hshort (hsoon c (by simp))

end

/-- The request of the sample is accepted, and still remembered after the next one. -/
theorem live_nonces_stay_sample :
    Monotone [sampleCall 0, sampleCall 59] ∧
      ((signedRequest (Vector.replicate 32 42) (ascii "POST") (ascii "/v1/relay")
          (ascii "ciphertext") (wallClock 240) (Vector.replicate 16 7)).nonce,
        (sampleCall 0).now + nonceTtl) ∈
      (after (authStep sampleSha256 sampleEd25519) AuthState.empty
        [sampleCall 0, sampleCall 59]).queue
          (deviceIdFromPublicKey sampleSha256 (Vector.replicate 32 42)) := by
  have hclock : Monotone [sampleCall 0, sampleCall 59] := by
    simp [Monotone, sampleCall]
  refine ⟨hclock, ?_⟩
  have hfirst : authStep sampleSha256 sampleEd25519 AuthState.empty (sampleCall 0) = _ :=
    authStep_first _ _ _ _ _ (by decide) _
  have hstay := live_nonces_stay sampleSha256 sampleEd25519 hclock [] (sampleCall 0)
    [sampleCall 59] _ rfl (request_signedHeaders _ _ _ _ _ _ _ _)
    (check_signedRequest _ _ _ _ _ _ (by decide))
  exact (hstay.2 _ (congrArg Prod.fst hfirst)).2 [sampleCall 59] (List.prefix_refl _) (by
    intro c hc
    rw [List.mem_singleton.mp hc]
    decide)

/-! ### Devices do not disturb each other -/

section
variable (sha : Sha256) (ed : Ed25519)

/-- The call names the device and passes all checks up to the lock. -/
def authentic (deviceId : Id16) (call : AuthCall) : Bool :=
  match call.request with
  | .ok r => r.deviceId = deviceId && (r.check sha ed call.nowMs).isOk
  | .error _ => false

/-- Two states with the same entries of a device. -/
def SameEntries (deviceId : Id16) (s t : AuthState) : Prop :=
  s.nonces.lookup deviceId = t.nonces.lookup deviceId ∧
    s.rates.lookup deviceId = t.rates.lookup deviceId

end

section
variable {sha : Sha256} {ed : Ed25519} {deviceId : Id16} {call : AuthCall}

theorem authentic_iff :
    authentic sha ed deviceId call = true ↔
      ∃ r, call.request = .ok r ∧ r.check sha ed call.nowMs = .ok () ∧ r.deviceId = deviceId := by
  unfold authentic
  cases hrequest : call.request with
  | error e => simp
  | ok r =>
    cases hcheck : r.check sha ed call.nowMs <;> simp [Except.isOk, Except.toBool, hcheck]

/-- A new entry of the device in both states. -/
theorem lookup_insert_same {α : Type} (m m' : HashMap Id16 α) (deviceId : Id16) (a : α) :
    (m.insert deviceId a).lookup deviceId = (m'.insert deviceId a).lookup deviceId := by
  rw [AList.lookup_insert, AList.lookup_insert]

/-- The part of a call under the lock reads and writes the entries of its own device, -/
theorem takeNonce_same {s t : AuthState} (h : SameEntries deviceId s t) (nonce : Id16)
    (now : Nat) :
    (s.takeNonce deviceId nonce now).1 = (t.takeNonce deviceId nonce now).1 ∧
      SameEntries deviceId (s.takeNonce deviceId nonce now).2
        (t.takeNonce deviceId nonce now).2 := by
  have hlive : s.liveNonces deviceId now = t.liveNonces deviceId now := by
    rw [AuthState.liveNonces, h.1]
    rfl
  have hrate : s.rateAt deviceId now = t.rateAt deviceId now := by
    rw [AuthState.rateAt, h.2]
    rfl
  unfold AuthState.takeNonce AuthState.accept
  rw [hlive, hrate]
  dsimp only
  split
  · exact ⟨rfl, lookup_insert_same _ _ _ _, h.2⟩
  · split
    · exact ⟨rfl, lookup_insert_same _ _ _ _, lookup_insert_same _ _ _ _⟩
    · exact ⟨rfl, lookup_insert_same _ _ _ _, lookup_insert_same _ _ _ _⟩

/-- and leaves those of every other device alone. -/
theorem takeNonce_frame (s : AuthState) {d : Id16} (hd : d ≠ deviceId) (nonce : Id16)
    (now : Nat) : SameEntries d (s.takeNonce deviceId nonce now).2 s := by
  obtain ⟨-, htake⟩ | ⟨-, -, htake⟩ | ⟨-, -, htake⟩ := takeNonce_cases s deviceId nonce now
  · rw [htake]
    exact ⟨AList.lookup_insert_ne hd, rfl⟩
  · rw [htake]
    exact ⟨AList.lookup_insert_ne hd, AList.lookup_insert_ne hd⟩
  · rw [htake]
    exact ⟨AList.lookup_insert_ne hd, AList.lookup_insert_ne hd⟩

/-- A call that is not authentic for a device does not touch its entries. -/
theorem authStep_frame (s : AuthState) (h : authentic sha ed deviceId call = false) :
    SameEntries deviceId (authStep sha ed s call).2 s := by
  obtain ⟨e, hstep⟩ | ⟨r, hrequest, hcheck, hstep⟩ := authStep_cases sha ed s call
  · rw [hstep]
    exact ⟨rfl, rfl⟩
  · have hother : deviceId ≠ r.deviceId := by
      rintro rfl
      rw [authentic_iff.mpr ⟨r, hrequest, hcheck, rfl⟩] at h
      exact absurd h (by decide)
    rw [hstep]
    exact takeNonce_frame s hother r.nonce call.now

/-- **Step.** A device looks only at its own entries. -/
theorem authStep_unwinding (sha : Sha256) (ed : Ed25519) (deviceId : Id16) :
    Unwinding (authStep sha ed) (authentic sha ed deviceId) (SameEntries deviceId) where
  kept := by
    intro s t call hst hkeep
    obtain ⟨r, hrequest, hcheck, rfl⟩ := authentic_iff.mp hkeep
    have htakes (u : AuthState) :
        authStep sha ed u call = u.takeNonce r.deviceId r.nonce call.now := by
      simp only [authStep, AuthState.authenticate, hrequest, hcheck]
    rw [htakes s, htakes t]
    exact takeNonce_same hst r.nonce call.now
  dropped := by
    intro s t call hst hkeep
    obtain ⟨hnonces, hrates⟩ := @authStep_frame sha ed deviceId call s hkeep
    exact ⟨hnonces.trans hst.1, hrates.trans hst.2⟩

/-- **Devices cannot affect each other's authentication.**  The calls that pass the checks for a
    device are answered as in the run of these calls alone, whatever else is called; and no other
    call touches the device's nonces or its rate. -/
theorem devices_isolated (sha : Sha256) (ed : Ed25519) (deviceId : Id16) (calls : List AuthCall) :
    (trace (authStep sha ed) AuthState.empty calls).filter
        (fun entry => authentic sha ed deviceId entry.1) =
      trace (authStep sha ed) AuthState.empty (calls.filter (authentic sha ed deviceId)) ∧
    ∀ s call, authentic sha ed deviceId call = false →
      SameEntries deviceId (authStep sha ed s call).2 s := by
  refine ⟨?_, fun s call hkeep => authStep_frame s hkeep⟩
  exact (authStep_unwinding sha ed deviceId).trace_filter ⟨rfl, rfl⟩ calls

end

end NexaMessenger.Gateway.Auth
