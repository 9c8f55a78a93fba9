import NexaMessenger.Gateway.Headers

namespace NexaMessenger.Gateway.Auth

open Lib

/-!
# Gateway — how often a request is accepted

A nonce is remembered for `NONCE_TTL` after its request was accepted, and the queue that
remembers it never loses it earlier: the limiter lets through so few requests in that time that
the queue stays below its capacity (`Limited.live_length`), so no nonce is evicted.  Therefore a
request is accepted at most once as long as nobody presents it again `NONCE_TTL` or more after an
earlier time, in such a way that it passes its checks both times (`accepted_once`).

The time window is twice as long as `NONCE_TTL`, so that can happen: `resend_accepted_iff` says
exactly when the very next request, the same again, is accepted again.
-/

/-- The nonces of a device in the table; no entry means an empty queue. -/
def AuthState.queue (s : AuthState) (deviceId : Id16) : List (Id16 × Nat) :=
  (s.nonces.lookup deviceId).getD []

/-- The rate window of a device in the table; a device without one would start one now. -/
def AuthState.window (s : AuthState) (deviceId : Id16) (now : Nat) : RateWindow :=
  (s.rates.lookup deviceId).getD ⟨now, 0⟩

theorem mem_liveNonces {s : AuthState} {deviceId : Id16} {now : Nat} {entry : Id16 × Nat} :
    entry ∈ s.liveNonces deviceId now ↔ entry ∈ s.queue deviceId ∧ now < entry.2 := by
  rw [AuthState.liveNonces, List.mem_filter, decide_eq_true_iff]
  rfl

theorem rateAt_eq (s : AuthState) (deviceId : Id16) (now : Nat) :
    s.rateAt deviceId now = (s.window deviceId now).roll rateWindow now := rfl

/-- The queue after an entry of the table is replaced. -/
theorem queue_insert (s : AuthState) (rates : HashMap Id16 RateWindow) (deviceId d : Id16)
    (queue : List (Id16 × Nat)) :
    AuthState.queue ⟨s.nonces.insert deviceId queue, rates⟩ d =
      if d = deviceId then queue else s.queue d := by
  rw [AuthState.queue, lookup_insert_eq]
  split <;> rfl

theorem window_insert (s : AuthState) (nonces : HashMap Id16 (List (Id16 × Nat)))
    (deviceId d : Id16) (rate : RateWindow) (now : Nat) :
    AuthState.window ⟨nonces, s.rates.insert deviceId rate⟩ d now =
      if d = deviceId then rate else s.window d now := by
  rw [AuthState.window, lookup_insert_eq]
  split <;> rfl

/-! ### The limiter keeps the queues short -/

/-- The nonces of a device expire `nonceTtl` after `times`, and the limiter has paced these times;
    `last` is the latest reading of the clock. -/
structure Tracked (s : AuthState) (deviceId : Id16) (times : List Nat) (last : Nat) : Prop where
  expiry : (s.queue deviceId).map (·.2) = times.map (· + nonceTtl)
  paced : ∀ now, last ≤ now → (s.window deviceId now).start ≤ now ∧
    Paced rateWindow rateLimitPerDevice (s.window deviceId now) times

/-- Every device is tracked. -/
def Limited (last : Nat) (s : AuthState) : Prop :=
  ∀ deviceId, ∃ times, Tracked s deviceId times last

theorem Tracked.mono {s : AuthState} {deviceId : Id16} {times : List Nat} {last next : Nat}
    (h : Tracked s deviceId times last) (hle : last ≤ next) : Tracked s deviceId times next :=
  ⟨h.expiry, fun now hnow => h.paced now (hle.trans hnow)⟩

/-- Another device's entries do not matter. -/
theorem Tracked.congr {s s' : AuthState} {deviceId : Id16} {times : List Nat} {last : Nat}
    (h : Tracked s deviceId times last) (hqueue : s'.queue deviceId = s.queue deviceId)
    (hwindow : ∀ now, s'.window deviceId now = s.window deviceId now) :
    Tracked s' deviceId times last := by
  refine ⟨by rw [hqueue]; exact h.expiry, fun now hnow => ?_⟩
  rw [hwindow]
  exact h.paced now hnow

/-- The live part of a tracked queue: part of the times, all of them less than `nonceTtl` ago. -/
theorem Tracked.live {s : AuthState} {deviceId : Id16} {times : List Nat} {last : Nat}
    (h : Tracked s deviceId times last) (now : Nat) :
    ∃ kept : List Nat, kept.Sublist times ∧
      (s.liveNonces deviceId now).map (·.2) = kept.map (· + nonceTtl) ∧
      ∀ t ∈ kept, now < t + nonceTtl := by
  refine ⟨times.filter fun t => now < t + nonceTtl, List.filter_sublist, ?_, ?_⟩
  · have hfilter := congrArg (List.filter fun expires => decide (now < expires)) h.expiry
    rw [List.filter_map, List.filter_map] at hfilter
    exact hfilter
  · intro t ht
    simpa using (List.mem_filter.mp ht).2

/-- **Capacity.** The live nonces of a device are at most six windows full: they were accepted
    within five windows of the current one. -/
theorem Limited.live_length {s : AuthState} {last now : Nat} (h : Limited last s)
    (hnow : last ≤ now) (deviceId : Id16) :
    (s.liveNonces deviceId now).length < maxNoncesPerDevice := by
  obtain ⟨times, htracked⟩ := h deviceId
  obtain ⟨hstart, hpaced⟩ := htracked.paced now hnow
  obtain ⟨kept, hsub, hlive, hrecent⟩ := htracked.live now
  have hroll := (hpaced.roll (by decide) now).sublist hsub
  have hbound := hroll.length_le (j := 5) fun t ht => by
    have hstart' := @roll_start_le rateWindow _ now hstart
    have hlate := hrecent t ht
    have hwidth : rateWindow * 5 = nonceTtl := rfl
    omega
  have hlength : (s.liveNonces deviceId now).length = kept.length := by
    have := congrArg List.length hlive
    simpa using this
  have hsix : rateLimitPerDevice * (5 + 1) < maxNoncesPerDevice := by decide
  omega

/-- So the oldest nonce never has to make room. -/
theorem accept_queue {s : AuthState} {now : Nat} (h : Limited now s) (deviceId nonce d : Id16) :
    (s.accept deviceId nonce now).queue d =
      if d = deviceId then s.liveNonces deviceId now ++ [(nonce, now + nonceTtl)]
      else s.queue d := by
  have hroom := h.live_length (le_refl now) deviceId
  rw [AuthState.accept, queue_insert, if_neg (Nat.not_le.mpr hroom)]

/-- **Step.** Every call keeps the devices tracked. -/
theorem Limited.step {sha : Sha256} {ed : Ed25519} {s : AuthState} {call : AuthCall}
    (h : Limited call.now s) : Limited call.now (authStep sha ed s call).2 := by
  intro d
  obtain ⟨times, htracked⟩ := h d
  obtain ⟨e, hstep⟩ | ⟨r, -, -, hstep⟩ := authStep_cases sha ed s call
  · rw [hstep]; exact ⟨times, htracked⟩
  obtain ⟨kept, hsub, hlive, -⟩ := htracked.live call.now
  obtain ⟨hstart, hpaced⟩ := htracked.paced call.now (le_refl _)
  have hroll := (hpaced.roll (by decide) call.now).sublist hsub
  have hstart' := @roll_start_le rateWindow _ call.now hstart
  by_cases hd : d = r.deviceId
  · subst hd
    obtain ⟨-, htake⟩ | ⟨-, -, htake⟩ | ⟨-, hcount, htake⟩ :=
      takeNonce_cases s r.deviceId r.nonce call.now
    · -- a replay: only the expired nonces are gone
      refine ⟨kept, by rw [hstep, htake, queue_insert, if_pos rfl]; exact hlive, ?_⟩
      intro now hnow
      obtain ⟨hle, hp⟩ := htracked.paced now hnow
      rw [hstep, htake]
      exact ⟨hle, hp.sublist hsub⟩
    · -- the rate is spent: the window may be a new one
      refine ⟨kept, by rw [hstep, htake, queue_insert, if_pos rfl]; exact hlive, ?_⟩
      intro now hnow
      rw [hstep, htake, window_insert, if_pos rfl]
      exact ⟨hstart'.trans hnow, hroll⟩
    · -- accepted: one more nonce, one more event in the window
      refine ⟨kept ++ [call.now], ?_, ?_⟩
      · rw [hstep, htake, accept_queue h, if_pos rfl, List.map_append, List.map_append, hlive]
        rfl
      · intro now hnow
        rw [hstep, htake, AuthState.accept, window_insert, if_pos rfl]
        exact ⟨hstart'.trans hnow, hroll.take hcount (lt_roll_end (by decide))⟩
  · have hother : ∀ now, (authStep sha ed s call).2.queue d = s.queue d ∧
        (authStep sha ed s call).2.window d now = s.window d now := by
      intro now
      obtain ⟨-, htake⟩ | ⟨-, -, htake⟩ | ⟨-, -, htake⟩ :=
        takeNonce_cases s r.deviceId r.nonce call.now
      · rw [hstep, htake]
        exact ⟨by rw [queue_insert, if_neg hd], rfl⟩
      · rw [hstep, htake]
        exact ⟨by rw [queue_insert, if_neg hd], by rw [window_insert, if_neg hd]⟩
      · rw [hstep, htake]
        exact ⟨by rw [accept_queue h, if_neg hd], by
          rw [AuthState.accept, window_insert, if_neg hd]⟩
    exact ⟨times, htracked.congr (hother 0).1 fun now => (hother now).2⟩

/-! ### An accepted nonce is remembered for its time -/

/-- A call drops no nonce before it expires. -/
theorem Limited.keeps {sha : Sha256} {ed : Ed25519} {s : AuthState} {call : AuthCall}
    (h : Limited call.now s) {d : Id16} {entry : Id16 × Nat} (hmem : entry ∈ s.queue d)
    (hlive : call.now < entry.2) : entry ∈ (authStep sha ed s call).2.queue d := by
  obtain ⟨e, hstep⟩ | ⟨r, -, -, hstep⟩ := authStep_cases sha ed s call
  · rw [hstep]; exact hmem
  have hstill : d = r.deviceId → entry ∈ s.liveNonces r.deviceId call.now := by
    rintro rfl
    exact mem_liveNonces.mpr ⟨hmem, hlive⟩
  obtain ⟨-, htake⟩ | ⟨-, -, htake⟩ | ⟨-, -, htake⟩ :=
    takeNonce_cases s r.deviceId r.nonce call.now
  · rw [hstep, htake, queue_insert]
    split
    · rename_i hd; exact hstill hd
    · exact hmem
  · rw [hstep, htake, queue_insert]
    split
    · rename_i hd; exact hstill hd
    · exact hmem
  · rw [hstep, htake, accept_queue h]
    split
    · rename_i hd; exact List.mem_append_left _ (hstill hd)
    · exact hmem

/-- What the state knows of the calls so far, when `last` is no earlier than any of them: every
    device is tracked, and the nonces of accepted requests are there until they expire. -/
structure Remembers (log : List (AuthCall × Except AuthError Id16)) (s : AuthState) (last : Nat) :
    Prop where
  limited : Limited last s
  remembered : ∀ call deviceId r, (call, .ok deviceId) ∈ log → call.request = .ok r →
    last < call.now + nonceTtl → (r.nonce, call.now + nonceTtl) ∈ s.queue r.deviceId

theorem Remembers.empty (last : Nat) : Remembers [] AuthState.empty last := by
  refine ⟨fun deviceId => ⟨[], rfl, ?_⟩, fun _ _ _ h => by simp at h⟩
  intro now hnow
  exact ⟨le_refl now, Paced.nil (Nat.zero_le _)⟩

/-- **Step.** A call at `last` carries the knowledge on, to any later time. -/
theorem Remembers.step {sha : Sha256} {ed : Ed25519} {log : List (AuthCall × Except AuthError Id16)}
    {s : AuthState} {call : AuthCall} (h : Remembers log s call.now) {next : Nat}
    (hnext : call.now ≤ next) :
    Remembers (log ++ [(call, (authStep sha ed s call).1)]) (authStep sha ed s call).2 next := by
  constructor
  · intro d
    obtain ⟨times, htracked⟩ := @Limited.step sha ed _ _ h.limited d
    exact ⟨times, htracked.mono hnext⟩
  · intro c deviceId r hmem hrequest hlive
    rcases List.mem_append.mp hmem with hold | hnew
    · exact h.limited.keeps (h.remembered c deviceId r hold hrequest (by omega)) (by
        show call.now < c.now + nonceTtl
        omega)
    · obtain ⟨rfl, hanswer⟩ := Prod.mk.inj (List.mem_singleton.mp hnew)
      obtain ⟨r', hrequest', -, -, -, hstep⟩ := authStep_ok hanswer.symm
      obtain rfl : r = r' := Except.ok.inj (hrequest.symm.trans hrequest')
      rw [hstep, accept_queue h.limited, if_pos rfl]
      exact List.mem_append_right _ (List.mem_singleton.mpr rfl)

/-- The readings of the monotonic clock do not decrease. -/
def Monotone (calls : List AuthCall) : Prop := calls.Pairwise fun a b => a.now ≤ b.now

/-- **Run.** After a run whose clock readings do not decrease, the knowledge holds at any time not
    before its last call. -/
theorem run_remembers (sha : Sha256) (ed : Ed25519) {calls : List AuthCall}
    (hclock : Monotone calls) {last : Nat} (hlast : ∀ call ∈ calls, call.now ≤ last) :
    Remembers (trace (authStep sha ed) AuthState.empty calls)
      (after (authStep sha ed) AuthState.empty calls) last := by
  induction calls using List.reverseRecOn generalizing last with
  | nil => exact Remembers.empty last
  | append_singleton calls call ih =>
    obtain ⟨hclock, -, hle⟩ := List.pairwise_append.mp hclock
    rw [trace_concat, after_concat]
    have hbefore := ih hclock fun c hc => hle c hc call (List.mem_singleton.mpr rfl)
    exact hbefore.step (hlast call (by simp))

/-! ### A request is accepted once -/

/-- The requests of the calls that were answered with a device. -/
def accepted (log : List (AuthCall × Except AuthError Id16)) : List SignedRequest :=
  log.filterMap fun
    | (call, .ok _) => call.request.toOption
    | (_, .error _) => none

/-- The call carries the request, which passes its checks. -/
def Presents (sha : Sha256) (ed : Ed25519) (call : AuthCall) (r : SignedRequest) : Prop :=
  call.request = .ok r ∧ r.check sha ed call.nowMs = .ok ()

/-- The request is not presented again `NONCE_TTL` or more after an earlier time. -/
def NoLateResend (sha : Sha256) (ed : Ed25519) (r : SignedRequest) (calls : List AuthCall) :
    Prop :=
  calls.Pairwise fun a b =>
    Presents sha ed a r → Presents sha ed b r → b.now < a.now + nonceTtl

theorem mem_accepted {log : List (AuthCall × Except AuthError Id16)} {r : SignedRequest} :
    r ∈ accepted log ↔ ∃ call deviceId, (call, .ok deviceId) ∈ log ∧ call.request = .ok r := by
  rw [accepted, List.mem_filterMap]
  constructor
  · rintro ⟨⟨call, answer⟩, hmem, hr⟩
    cases answer with
    | error e => exact absurd hr (by simp)
    | ok deviceId =>
      refine ⟨call, deviceId, hmem, ?_⟩
      cases hrequest : call.request with
      | error e => simp [hrequest, Except.toOption] at hr
      | ok r' => simpa [hrequest, Except.toOption] using hr
  · rintro ⟨call, deviceId, hmem, hrequest⟩
    exact ⟨(call, .ok deviceId), hmem, by simp [hrequest, Except.toOption]⟩

theorem accepted_concat_error (log : List (AuthCall × Except AuthError Id16)) (call : AuthCall)
    (e : AuthError) : accepted (log ++ [(call, .error e)]) = accepted log := by
  rw [accepted, List.filterMap_append]
  exact List.append_nil _

theorem accepted_concat_ok (log : List (AuthCall × Except AuthError Id16)) {call : AuthCall}
    {r : SignedRequest} (hrequest : call.request = .ok r) (deviceId : Id16) :
    accepted (log ++ [(call, .ok deviceId)]) = accepted log ++ [r] := by
  rw [accepted, List.filterMap_append, List.filterMap_cons_some (b := r)]
  · rfl
  · show call.request.toOption = some r
    rw [hrequest]
    rfl

/-- An accepted call of a run presented its request. -/
theorem presents_of_accepted {sha : Sha256} {ed : Ed25519} {s : AuthState} {calls : List AuthCall}
    {call : AuthCall} {deviceId : Id16} {r : SignedRequest}
    (hmem : (call, .ok deviceId) ∈ trace (authStep sha ed) s calls)
    (hrequest : call.request = .ok r) :
    call ∈ calls ∧ Presents sha ed call r := by
  obtain ⟨pre, post, hcalls, hanswer⟩ := exists_of_mem_trace _ hmem
  obtain ⟨r', hrequest', hcheck, -⟩ := authStep_ok hanswer.symm
  obtain rfl : r = r' := Except.ok.inj (hrequest.symm.trans hrequest')
  exact ⟨by rw [hcalls]; simp, hrequest, hcheck⟩

/-- **An authenticated request is not accepted twice** in a run whose clock readings do not
    decrease, if it is not presented again `NONCE_TTL` or more after an earlier time, passing its
    checks both times; whatever is presented of other requests. -/
theorem accepted_once (sha : Sha256) (ed : Ed25519) {calls : List AuthCall}
    (hclock : Monotone calls) {r : SignedRequest} (hresend : NoLateResend sha ed r calls) :
    (accepted (trace (authStep sha ed) AuthState.empty calls)).count r ≤ 1 := by
  induction calls using List.reverseRecOn with
  | nil => exact Nat.zero_le 1
  | append_singleton calls call ih =>
    obtain ⟨hclock, -, hle⟩ := List.pairwise_append.mp hclock
    obtain ⟨hresend, -, hlate⟩ := List.pairwise_append.mp hresend
    have hknown :=
      run_remembers sha ed hclock fun c hc => hle c hc call (List.mem_singleton.mpr rfl)
    rw [trace_concat]
    cases hanswer : (authStep sha ed (after (authStep sha ed) AuthState.empty calls) call).1 with
    | error e =>
      rw [accepted_concat_error]
      exact ih hclock hresend
    | ok deviceId =>
      obtain ⟨r', hrequest, hcheck, -, hfresh, -⟩ := authStep_ok hanswer
      rw [accepted_concat_ok _ hrequest, List.count_append]
      by_cases hr : r' = r
      · subst hr
        -- an earlier call with this request would have been accepted, and its nonce still be there
        have hnone : r' ∉ accepted (trace (authStep sha ed) AuthState.empty calls) := by
          intro hmem
          obtain ⟨c, d, hc, hcrequest⟩ := mem_accepted.mp hmem
          obtain ⟨hcmem, hpresents⟩ := presents_of_accepted hc hcrequest
          have hsoon := hlate c hcmem call (List.mem_singleton.mpr rfl) hpresents
            ⟨hrequest, hcheck⟩
          have hentry := hknown.remembered c d r' hc hcrequest hsoon
          exact hfresh ⟨_, mem_liveNonces.mpr ⟨hentry, hsoon⟩, rfl⟩
        rw [List.count_eq_zero_of_not_mem hnone, List.count_singleton_self]
      · rw [List.count_eq_zero_of_not_mem fun hmem => hr (List.mem_singleton.mp hmem).symm]
        exact ih hclock hresend

/-! ### Sample requests

A device whose clock is four minutes ahead, and a gateway both of whose clocks show the real
time. -/

section
variable (key : Key32) (method path body : Bytes) (timestamp : UInt64) (nonce : Id16)

/-- A signed request is accepted in time, if its nonce is new and the rate is not spent. -/
theorem authStep_signedHeaders {s : AuthState} {nowMs : UInt64} {now : Nat}
    (htimely : timely timestamp nowMs = true)
    (hfresh : ¬ Live s (deviceIdFromPublicKey sampleSha256 key) nonce now)
    (hrate : (s.rateAt (deviceIdFromPublicKey sampleSha256 key) now).count < rateLimitPerDevice) :
    authStep sampleSha256 sampleEd25519 s ⟨signedHeaders key method path body timestamp nonce,
        method, path, body, nowMs, now⟩ =
      (.ok (deviceIdFromPublicKey sampleSha256 key),
        s.accept (deviceIdFromPublicKey sampleSha256 key) nonce now) := by
  rw [authStep, AuthState.authenticate, request_signedHeaders]
  dsimp only
  rw [check_signedRequest key method path body timestamp nonce htimely]
  obtain ⟨hlive, -⟩ | ⟨-, hspent, -⟩ | ⟨-, -, htake⟩ :=
    takeNonce_cases s (deviceIdFromPublicKey sampleSha256 key) nonce now
  · exact absurd hlive hfresh
  · exact absurd hspent (Nat.not_le.mpr hrate)
  · exact htake

end

theorem liveNonces_empty (deviceId : Id16) (now : Nat) :
    AuthState.empty.liveNonces deviceId now = [] := by
  rw [AuthState.liveNonces, AuthState.empty, lookup_empty_eq]
  rfl

theorem rateAt_empty (deviceId : Id16) (now : Nat) :
    AuthState.empty.rateAt deviceId now = ⟨now, 0⟩ := by
  rw [AuthState.rateAt, AuthState.empty, lookup_empty_eq, RateWindow.roll]
  split <;> rfl

section
variable (key : Key32) (method path body : Bytes) {timestamp nowMs : UInt64} (nonce : Id16)

/-- The first request of a gateway is accepted. -/
theorem authStep_first (htimely : timely timestamp nowMs = true) (now : Nat) :
    authStep sampleSha256 sampleEd25519 AuthState.empty
        ⟨signedHeaders key method path body timestamp nonce, method, path, body, nowMs, now⟩ =
      (.ok (deviceIdFromPublicKey sampleSha256 key),
        AuthState.empty.accept (deviceIdFromPublicKey sampleSha256 key) nonce now) := by
  apply authStep_signedHeaders _ _ _ _ _ _ htimely
  · rintro ⟨entry, hentry, -⟩
    rw [liveNonces_empty] at hentry
    exact absurd hentry List.not_mem_nil
  · rw [rateAt_empty]
    show 0 < rateLimitPerDevice
    decide

/-- So is the next one when the nonce of the first has expired, even if it is the same. -/
theorem authStep_late (htimely : timely timestamp nowMs = true) {first now : Nat}
    (hlate : first + nonceTtl ≤ now) :
    authStep sampleSha256 sampleEd25519
        (AuthState.empty.accept (deviceIdFromPublicKey sampleSha256 key) nonce first)
        ⟨signedHeaders key method path body timestamp nonce, method, path, body, nowMs, now⟩ =
      (.ok (deviceIdFromPublicKey sampleSha256 key),
        (AuthState.empty.accept (deviceIdFromPublicKey sampleSha256 key) nonce first).accept
          (deviceIdFromPublicKey sampleSha256 key) nonce now) := by
  apply authStep_signedHeaders _ _ _ _ _ _ htimely
  · rintro ⟨entry, hentry, -⟩
    rw [mem_liveNonces, accept_queue (Remembers.empty first).limited, if_pos rfl,
      liveNonces_empty] at hentry
    rw [List.mem_singleton.mp hentry.1] at hentry
    exact absurd hentry.2 (Nat.not_lt.mpr hlate)
  · have hover : rateWindow ≤ now - first := by
      have hwidth : rateWindow ≤ nonceTtl := by decide
      omega
    rw [rateAt_eq, AuthState.accept, window_insert, if_pos rfl, rateAt_empty, RateWindow.roll,
      if_pos hover]
    show 0 < rateLimitPerDevice
    decide

end

/-- The wall clock `seconds` after the gateway started. -/
def wallClock (seconds : Nat) : UInt64 := UInt64.ofNat (1700000000000 + seconds * 1000)

/-- The request, signed for a time four minutes after the start, presented `seconds` after it. -/
def sampleCall (seconds : Nat) : AuthCall where
  headers := signedHeaders (Vector.replicate 32 42) (ascii "POST") (ascii "/v1/relay")
    (ascii "ciphertext") (wallClock 240) (Vector.replicate 16 7)
  method := ascii "POST"
  path := ascii "/v1/relay"
  body := ascii "ciphertext"
  nowMs := wallClock seconds
  now := seconds * second

/-- The request that the sample calls carry. -/
def sampleRequest : SignedRequest :=
  signedRequest (Vector.replicate 32 42) (ascii "POST") (ascii "/v1/relay") (ascii "ciphertext")
    (wallClock 240) (Vector.replicate 16 7)

/-- Presented twice within a minute, the request is accepted once. -/
theorem sample_accepted_once :
    Monotone [sampleCall 0, sampleCall 59] ∧
    NoLateResend sampleSha256 sampleEd25519 sampleRequest [sampleCall 0, sampleCall 59] ∧
    (accepted (trace (authStep sampleSha256 sampleEd25519) AuthState.empty
      [sampleCall 0, sampleCall 59])).count sampleRequest ≤ 1 := by
  have hclock : Monotone [sampleCall 0, sampleCall 59] := by
    simp [Monotone, sampleCall]
  have hresend : NoLateResend sampleSha256 sampleEd25519 sampleRequest
      [sampleCall 0, sampleCall 59] := by
    refine List.pairwise_pair.mpr ?_
    intro _ _
    show 59 * second < 0 * second + nonceTtl
    decide
  exact ⟨hclock, hresend, accepted_once sampleSha256 sampleEd25519 hclock hresend⟩

/-- **A late replay.** Both clocks of the gateway show the real time.  Presented again six minutes
    later, when the wall clock is two minutes past its timestamp, the request is accepted again. -/
theorem late_resend_accepted :
    (∀ call ∈ [sampleCall 0, sampleCall 360], call.nowMs = wallClock (call.now / second)) ∧
    Monotone [sampleCall 0, sampleCall 360] ∧
    ¬ (accepted (trace (authStep sampleSha256 sampleEd25519) AuthState.empty
      [sampleCall 0, sampleCall 360])).Nodup := by
  refine ⟨by decide, by simp [Monotone, sampleCall], ?_⟩
  have hearly : timely (wallClock 240) (wallClock 0) = true := by decide
  have hlate : timely (wallClock 240) (wallClock 360) = true := by decide
  have hrequest (seconds : Nat) : (sampleCall seconds).request = .ok _ :=
    request_signedHeaders _ _ _ _ _ _ _ _
  have hfirst : authStep sampleSha256 sampleEd25519 AuthState.empty (sampleCall 0) = _ :=
    authStep_first _ _ _ _ _ hearly _
  have hsecond : authStep sampleSha256 sampleEd25519 _ (sampleCall 360) = _ :=
    authStep_late _ _ _ _ _ hlate (by decide : 0 * second + nonceTtl ≤ 360 * second)
  rw [trace_cons, hfirst, trace_cons, hsecond, trace_nil, ← List.singleton_append,
    accepted_concat_ok _ (hrequest 360), ← List.nil_append [(sampleCall 0, _)],
    accepted_concat_ok _ (hrequest 0)]
  exact fun hnodup => (List.nodup_cons.mp hnodup).1 (List.mem_singleton.mpr rfl)

/-! ### When the same request is accepted again -/

/-- Only the time check depends on the clock. -/
theorem check_of_timely {sha : Sha256} {ed : Ed25519} {r : SignedRequest} {nowMs later : UInt64}
    (h : r.check sha ed nowMs = .ok ()) (htimely : timely r.timestampMs later = true) :
    r.check sha ed later = .ok () := by
  have hfirst := timely_of_check h
  unfold SignedRequest.check at h ⊢
  rw [htimely]
  rw [hfirst] at h
  exact h

/-- **The next request, the same again.**  It is accepted again exactly if it is still in its time
    window and `NONCE_TTL` has passed. -/
theorem resend_accepted_iff (sha : Sha256) (ed : Ed25519) {calls : List AuthCall} {a b : AuthCall}
    {r : SignedRequest} {deviceId : Id16} (hclock : Monotone (calls ++ [a, b]))
    (hok : (authStep sha ed (after (authStep sha ed) AuthState.empty calls) a).1 = .ok deviceId)
    (ha : a.request = .ok r) (hb : b.request = .ok r) :
    (∃ d, (authStep sha ed (after (authStep sha ed) AuthState.empty (calls ++ [a])) b).1 = .ok d) ↔
      timely r.timestampMs b.nowMs = true ∧ a.now + nonceTtl ≤ b.now := by
  obtain ⟨hcalls, hab, hle⟩ := List.pairwise_append.mp hclock
  have hnext : a.now ≤ b.now := List.rel_of_pairwise_cons hab (List.mem_singleton.mpr rfl)
  have hknown := run_remembers sha ed hcalls fun c hc => hle c hc a (by simp)
  obtain ⟨r', hrequest, hcheck, -, hfresh, hstep⟩ := authStep_ok hok
  obtain rfl : r = r' := Except.ok.inj (ha.symm.trans hrequest)
  rw [after_concat, hstep]
  -- the state after `a`
  generalize after (authStep sha ed) AuthState.empty calls = s at hknown hfresh
  have hqueue := accept_queue hknown.limited r.deviceId r.nonce r.deviceId
  rw [if_pos rfl] at hqueue
  constructor
  · rintro ⟨d, hd⟩
    obtain ⟨r', hrequest, hcheck, -, hfresh, -⟩ := authStep_ok hd
    obtain rfl : r = r' := Except.ok.inj (hb.symm.trans hrequest)
    refine ⟨timely_of_check hcheck, ?_⟩
    by_contra hsoon
    refine hfresh ⟨(r.nonce, a.now + nonceTtl), mem_liveNonces.mpr ⟨?_, by omega⟩, rfl⟩
    rw [hqueue]
    exact List.mem_append_right _ (List.mem_singleton.mpr rfl)
  · rintro ⟨htimely, hlate⟩
    have hbstep : authStep sha ed (s.accept r.deviceId r.nonce a.now) b =
        (s.accept r.deviceId r.nonce a.now).takeNonce r.deviceId r.nonce b.now := by
      simp only [authStep, AuthState.authenticate, hb, check_of_timely hcheck htimely]
    rw [hbstep]
    obtain ⟨hlive, -⟩ | ⟨-, hspent, -⟩ | ⟨-, -, htake⟩ :=
      takeNonce_cases (s.accept r.deviceId r.nonce a.now) r.deviceId r.nonce b.now
    · -- the only entry with this nonce is the one of `a`, and it has expired
      obtain ⟨entry, hentry, hnonce⟩ := hlive
      rw [mem_liveNonces, hqueue] at hentry
      obtain ⟨hmem, hunexpired⟩ := hentry
      rcases List.mem_append.mp hmem with hold | hnew
      · exact absurd ⟨entry, hold, hnonce⟩ hfresh
      · rw [List.mem_singleton.mp hnew] at hunexpired
        exact absurd hunexpired (Nat.not_lt.mpr hlate)
    · -- the window of `a` is over
      obtain ⟨times, htracked⟩ := hknown.limited r.deviceId
      have hstart := @roll_start_le rateWindow _ a.now (htracked.paced a.now (le_refl _)).1
      have hover : rateWindow ≤ b.now - (s.rateAt r.deviceId a.now).start := by
        have hwidth : rateWindow ≤ nonceTtl := by decide
        rw [rateAt_eq]
        omega
      rw [rateAt_eq, AuthState.accept, window_insert, if_pos rfl, RateWindow.roll,
        if_pos hover] at hspent
      exact absurd (show rateLimitPerDevice ≤ 0 from hspent) (by decide)
    · exact ⟨_, by rw [htake]⟩

end NexaMessenger.Gateway.Auth
