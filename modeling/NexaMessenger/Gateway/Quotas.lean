import NexaMessenger.Gateway.Paths

namespace NexaMessenger.Gateway

open Lib Auth

/-!
# Gateway — how much a device can have done

All that a device has done it has to authenticate, and the `AuthState` counts.  In any stretch of
time that is `j` minutes long a device is admitted `120 * (j + 1)` times at most, and it is turned
away for its rate only if it was itself admitted 120 times in the minute before
(`admitted_at_rate`); other devices do not matter.

A request that is sent again and again takes effect three times at most (`effect_at_most_thrice`):
its nonce is remembered for five minutes, and its time window is ten minutes long.
-/

/-- The calls of a history that were answered with a device. -/
def admissions (log : List (AuthCall × Except AuthError Id16)) : List (AuthCall × Id16) :=
  log.filterMap fun
    | (call, .ok device) => some (call, device)
    | (_, .error _) => none

/-- When a device was admitted. -/
def admissionTimes (device : Id16) (admitted : List (AuthCall × Id16)) : List Nat :=
  (admitted.filter fun entry => entry.2 = device).map fun entry => entry.1.now

theorem admissions_concat (log : List (AuthCall × Except AuthError Id16)) (call : AuthCall)
    (answer : Except AuthError Id16) :
    admissions (log ++ [(call, answer)]) = admissions log ++
      (match answer with | .ok device => [(call, device)] | .error _ => []) := by
  rw [admissions, List.filterMap_append]
  cases answer <;> rfl

theorem admissionTimes_concat (device d : Id16) (admitted : List (AuthCall × Id16))
    (call : AuthCall) :
    admissionTimes device (admitted ++ [(call, d)]) = admissionTimes device admitted ++
      (if d = device then [call.now] else []) := by
  rw [admissionTimes, List.filter_append, List.map_append]
  congr 1
  split <;> rename_i h <;> simp [h]

/-! ### The rate -/

/-- The nonces that are kept are of admitted requests, and the windows count admitted requests;
    `last` is the latest reading of the clock. -/
structure Metering (log : List (AuthCall × Except AuthError Id16)) (s : AuthState) (last : Nat) :
    Prop where
  known : ∀ device, ∀ entry ∈ s.queue device, ∃ call r, (call, device) ∈ admissions log ∧
    call.request = .ok r ∧ r.nonce = entry.1 ∧ entry.2 = call.now + nonceTtl
  started : ∀ device now, last ≤ now → (s.window device now).start ≤ now
  metered : ∀ device now, last ≤ now → Metered rateWindow rateLimitPerDevice
    (s.window device now) (admissionTimes device (admissions log))

section
variable {sha : Sha256} {ed : Ed25519} {log : List (AuthCall × Except AuthError Id16)}
  {s : AuthState} {call : AuthCall}

theorem Metering.empty (last : Nat) : Metering [] AuthState.empty last where
  known := by
    intro device entry h
    rw [AuthState.queue, AuthState.empty, lookup_empty_eq] at h
    cases h
  started := by
    intro device now _
    rw [AuthState.window, AuthState.empty, lookup_empty_eq]
    exact le_refl now
  metered := by
    intro device now _
    rw [AuthState.window, AuthState.empty, lookup_empty_eq]
    exact Metered.nil now

theorem Metering.mono {last next : Nat} (h : Metering log s last) (hle : last ≤ next) :
    Metering log s next where
  known := h.known
  started := fun device now hnow => h.started device now (hle.trans hnow)
  metered := fun device now hnow => h.metered device now (hle.trans hnow)

/-- A call that fails drops nonces at most and starts a new window at most. -/
theorem Metering.error (h : Metering log s call.now) (e : AuthError) {s' : AuthState}
    (hqueue : ∀ d, s'.queue d ⊆ s.queue d)
    (hwindow : ∀ d now, call.now ≤ now → s'.window d now = s.window d now ∨
      s'.window d now = s.rateAt d call.now) :
    Metering (log ++ [(call, .error e)]) s' call.now := by
  have hsame : admissions (log ++ [(call, .error e)]) = admissions log := by
    rw [admissions_concat]
    exact List.append_nil _
  constructor
  · intro d entry hentry
    rw [hsame]
    exact h.known d entry (hqueue d hentry)
  · intro d now hnow
    rcases hwindow d now hnow with heq | heq
    · rw [heq]
      exact h.started d now hnow
    · rw [heq, rateAt_eq]
      exact (roll_start_le (h.started d call.now (le_refl _))).trans hnow
  · intro d now hnow
    rw [hsame]
    rcases hwindow d now hnow with heq | heq
    · rw [heq]
      exact h.metered d now hnow
    · rw [heq, rateAt_eq]
      exact (h.metered d call.now (le_refl _)).roll (by decide) call.now

/-- A call that is answered with a device counts once for this device. -/
theorem Metering.accept (h : Metering log s call.now) {r : SignedRequest}
    (hrequest : call.request = .ok r)
    (hcount : (s.rateAt r.deviceId call.now).count < rateLimitPerDevice) :
    Metering (log ++ [(call, .ok r.deviceId)]) (s.accept r.deviceId r.nonce call.now)
      call.now := by
  have hstart := h.started r.deviceId call.now (le_refl _)
  have hroll := (h.metered r.deviceId call.now (le_refl _)).roll (by decide) call.now
  constructor
  · intro d entry hentry
    rw [admissions_concat]
    have hcases : entry ∈ s.queue d ∨ d = r.deviceId ∧ entry = (r.nonce, call.now + nonceTtl) := by
      rw [AuthState.accept, queue_insert] at hentry
      split at hentry
      · rename_i hd
        rcases List.mem_append.mp hentry with hold | hnew
        · have hlive : entry ∈ s.liveNonces r.deviceId call.now := by
            split at hold
            · exact List.mem_of_mem_tail hold
            · exact hold
          rw [hd]
          exact .inl (mem_liveNonces.mp hlive).1
        · exact .inr ⟨hd, List.mem_singleton.mp hnew⟩
      · exact .inl hentry
    obtain hold | ⟨rfl, rfl⟩ := hcases
    · obtain ⟨c, q, hmem, hc⟩ := h.known d entry hold
      exact ⟨c, q, List.mem_append_left _ hmem, hc⟩
    · exact ⟨call, r, List.mem_append_right _ (List.mem_singleton.mpr rfl), hrequest, rfl, rfl⟩
  · intro d now hnow
    rw [AuthState.accept, window_insert]
    split
    · exact (roll_start_le hstart).trans hnow
    · exact h.started d now hnow
  · intro d now hnow
    rw [admissions_concat, admissionTimes_concat, AuthState.accept, window_insert]
    by_cases hd : d = r.deviceId
    · subst hd
      rw [if_pos rfl, if_pos rfl]
      exact hroll.take hcount (roll_start_le hstart) (lt_roll_end (by decide))
    · rw [if_neg hd, if_neg (Ne.symm hd), List.append_nil]
      exact h.metered d now hnow

/-- **Step.** -/
theorem Metering.step (h : Metering log s call.now) :
    Metering (log ++ [(call, (authStep sha ed s call).1)]) (authStep sha ed s call).2
      call.now := by
  obtain ⟨e, hstep⟩ | ⟨r, hrequest, -, hstep⟩ := authStep_cases sha ed s call
  · rw [hstep]
    exact h.error e (fun d => List.Subset.refl _) fun d now _ => .inl rfl
  have hdropped (rates : HashMap Id16 RateWindow) (d : Id16) :
      AuthState.queue ⟨s.nonces.insert r.deviceId (s.liveNonces r.deviceId call.now), rates⟩ d ⊆
        s.queue d := by
    intro entry hentry
    rw [queue_insert] at hentry
    split at hentry
    · rename_i hd
      rw [hd]
      exact (mem_liveNonces.mp hentry).1
    · exact hentry
  obtain ⟨-, htake⟩ | ⟨-, -, htake⟩ | ⟨-, hcount, htake⟩ :=
    takeNonce_cases s r.deviceId r.nonce call.now
  · rw [hstep, htake]
    exact h.error .replay (hdropped _) fun d now _ => .inl rfl
  · rw [hstep, htake]
    refine h.error .rateLimited (hdropped _) fun d now _ => ?_
    rw [window_insert]
    split
    · rename_i hd
      rw [hd]
      exact .inr rfl
    · exact .inl rfl
  · rw [hstep, htake]
    exact h.accept hrequest hcount

/-- **Run.** -/
theorem run_metering (sha : Sha256) (ed : Ed25519) {calls : List AuthCall}
    (hclock : Monotone calls) {last : Nat} (hlast : ∀ call ∈ calls, call.now ≤ last) :
    Metering (trace (authStep sha ed) AuthState.empty calls)
      (after (authStep sha ed) AuthState.empty calls) last := by
  induction calls using List.reverseRecOn generalizing last with
  | nil => exact Metering.empty last
  | append_singleton calls call ih =>
    obtain ⟨hclock, -, hle⟩ := List.pairwise_append.mp hclock
    have hbefore := ih hclock fun c hc => hle c hc call (List.mem_singleton.mpr rfl)
    rw [trace_concat, after_concat]
    exact (@Metering.step sha ed _ _ _ hbefore).mono (hlast call (by simp))

/-- **Who keeps to the rate is admitted.**  The checks have passed, the device has not used the
    nonce in the last five minutes and was not admitted too often in the last one. -/
theorem Metering.admits (h : Metering log s call.now) {r : SignedRequest}
    (hrequest : call.request = .ok r) (hcheck : r.check sha ed call.nowMs = .ok ())
    (hnonce : ∀ c q, (c, r.deviceId) ∈ admissions log → c.request = .ok q → q.nonce = r.nonce →
      c.now + nonceTtl ≤ call.now)
    (hrate : ((admissionTimes r.deviceId (admissions log)).countP fun t =>
      call.now < t + rateWindow) < rateLimitPerDevice) :
    authStep sha ed s call = (.ok r.deviceId, s.accept r.deviceId r.nonce call.now) := by
  have hstep : authStep sha ed s call = s.takeNonce r.deviceId r.nonce call.now := by
    simp only [authStep, AuthState.authenticate, hrequest, hcheck]
  rw [hstep]
  obtain ⟨hlive, -⟩ | ⟨-, hspent, -⟩ | ⟨-, -, htake⟩ :=
    takeNonce_cases s r.deviceId r.nonce call.now
  · obtain ⟨entry, hentry, hsame⟩ := hlive
    obtain ⟨hmem, hunexpired⟩ := mem_liveNonces.mp hentry
    obtain ⟨c, q, hc, hq, hqnonce, hexpires⟩ := h.known r.deviceId entry hmem
    have hold := hnonce c q hc hq (hqnonce.trans hsame)
    omega
  · have hroll := (h.metered r.deviceId call.now (le_refl _)).roll (by decide) call.now
    have hrecent := hroll.recent (lt_roll_end (by decide))
    rw [rateAt_eq] at hspent
    omega
  · exact htake

/-- **Nobody is admitted more often.** -/
theorem admissions_within (sha : Sha256) (ed : Ed25519) {calls : List AuthCall}
    (hclock : Monotone calls) (device : Id16) (low j : Nat) :
    ((admissionTimes device (admissions (trace (authStep sha ed) AuthState.empty calls))).countP
      fun t => low ≤ t ∧ t < low + rateWindow * j) ≤ rateLimitPerDevice * (j + 1) := by
  induction calls using List.reverseRecOn with
  | nil => exact Nat.zero_le _
  | append_singleton calls call ih =>
    obtain ⟨hbefore, -, hle⟩ := List.pairwise_append.mp hclock
    have hlast : ∀ c ∈ calls ++ [call], c.now ≤ call.now := by
      intro c hc
      rcases List.mem_append.mp hc with hc | hc
      · exact hle c hc call (List.mem_singleton.mpr rfl)
      · rw [List.mem_singleton.mp hc]
    by_cases hin : call.now < low + rateWindow * j
    · -- the window of the device has started by now, and so by the end of the stretch
      have h := run_metering sha ed hclock hlast
      have hstart := h.started device call.now (le_refl _)
      have hmany : List.countP (fun t => low ≤ t) _ ≤ rateLimitPerDevice * (j + 1) :=
        (h.metered device call.now (le_refl _)).countP_le (by omega)
      refine le_trans ?_ hmany
      exact List.countP_mono_left fun t _ ht => by
        simp only [decide_eq_true_eq] at ht ⊢
        exact ht.1
    · -- this call comes after the stretch
      rw [trace_concat, admissions_concat]
      cases (authStep sha ed (after (authStep sha ed) AuthState.empty calls) call).1 with
      | error e =>
        rw [List.append_nil]
        exact ih hbefore
      | ok d =>
        have hout : ((if d = device then [call.now] else []).countP
            fun t => low ≤ t ∧ t < low + rateWindow * j) = 0 := by
          split
          · rw [List.countP_singleton]
            exact if_neg (by simp only [decide_eq_true_eq]; omega)
          · rfl
        rw [admissionTimes_concat, List.countP_append, hout]
        exact ih hbefore

end

/-! ### Requests that are sent again -/

/-- When a request was accepted. -/
def acceptanceTimes (r : SignedRequest) (admitted : List (AuthCall × Id16)) : List Nat :=
  (admitted.filter fun entry => entry.1.request.toOption = some r).map fun entry => entry.1.now

/-- The wall clock and the monotonic clock go at the same rate, and no call that has read the wall
    clock waits for the lock much longer than four minutes. -/
def InStep (calls : List AuthCall) : Prop :=
  ∃ base, ∀ call ∈ calls, ∃ read, read ≤ call.now ∧ call.now ≤ read + 299 * second ∧
    call.nowMs.toNat = (base + read) / 1000000

theorem mem_admissions {log : List (AuthCall × Except AuthError Id16)} {call : AuthCall}
    {device : Id16} : (call, device) ∈ admissions log ↔ (call, .ok device) ∈ log := by
  rw [admissions, List.mem_filterMap]
  constructor
  · rintro ⟨⟨c, answer⟩, hmem, h⟩
    cases answer with
    | error e => cases h
    | ok d =>
      obtain ⟨rfl, rfl⟩ := Prod.mk.inj (Option.some.inj h)
      exact hmem
  · exact fun h => ⟨_, h, rfl⟩

theorem request_of_toOption {call : AuthCall} {r : SignedRequest}
    (h : call.request.toOption = some r) : call.request = .ok r := by
  cases hrequest : call.request with
  | error e =>
    rw [hrequest] at h
    cases h
  | ok q =>
    rw [hrequest] at h
    rw [Option.some.inj h]

theorem mem_acceptanceTimes {r : SignedRequest} {admitted : List (AuthCall × Id16)} {t : Nat} :
    t ∈ acceptanceTimes r admitted ↔
      ∃ call device, (call, device) ∈ admitted ∧ call.request = .ok r ∧ call.now = t := by
  rw [acceptanceTimes, List.mem_map]
  constructor
  · rintro ⟨⟨call, device⟩, hmem, rfl⟩
    obtain ⟨hmem, hr⟩ := List.mem_filter.mp hmem
    exact ⟨call, device, hmem, request_of_toOption (of_decide_eq_true hr), rfl⟩
  · rintro ⟨call, device, hmem, hr, rfl⟩
    refine ⟨(call, device), List.mem_filter.mpr ⟨hmem, decide_eq_true ?_⟩, rfl⟩
    rw [hr]
    rfl

theorem acceptanceTimes_append (r : SignedRequest) (admitted admitted' : List (AuthCall × Id16)) :
    acceptanceTimes r (admitted ++ admitted') =
      acceptanceTimes r admitted ++ acceptanceTimes r admitted' := by
  rw [acceptanceTimes, List.filter_append, List.map_append]
  rfl

/-- A request is accepted again `NONCE_TTL` later at the earliest. -/
theorem acceptanceTimes_spaced (sha : Sha256) (ed : Ed25519) {calls : List AuthCall}
    (hclock : Monotone calls) (r : SignedRequest) :
    (acceptanceTimes r (admissions (trace (authStep sha ed) AuthState.empty calls))).Pairwise
      fun a b => a + nonceTtl ≤ b := by
  induction calls using List.reverseRecOn with
  | nil => exact List.Pairwise.nil
  | append_singleton calls call ih =>
    obtain ⟨hbefore, -, hle⟩ := List.pairwise_append.mp hclock
    have hknown :=
      run_remembers sha ed hbefore fun c hc => hle c hc call (List.mem_singleton.mpr rfl)
    rw [trace_concat, admissions_concat]
    cases hanswer : (authStep sha ed (after (authStep sha ed) AuthState.empty calls) call).1 with
    | error e =>
      rw [List.append_nil]
      exact ih hbefore
    | ok d =>
      dsimp only
      rw [acceptanceTimes_append, List.pairwise_append]
      refine ⟨ih hbefore, ?_, ?_⟩
      · rw [acceptanceTimes, List.filter_singleton, Bool.cond_decide]
        split
        · exact List.pairwise_singleton _ _
        · exact List.Pairwise.nil
      · intro t ht u hu
        -- the nonce of the earlier call would still be there
        obtain ⟨c, device, hc, hcrequest, rfl⟩ := mem_acceptanceTimes.mp ht
        obtain ⟨c', d', hc', hrequest, rfl⟩ := mem_acceptanceTimes.mp hu
        obtain ⟨rfl, -⟩ := Prod.mk.inj (List.mem_singleton.mp hc')
        obtain ⟨q, hq, -, -, hfresh, -⟩ := authStep_ok hanswer
        obtain rfl : r = q := Except.ok.inj (hrequest.symm.trans hq)
        by_contra hsoon
        have hentry := hknown.remembered c device r (mem_admissions.mp hc) hcrequest (by omega)
        exact hfresh ⟨_, mem_liveNonces.mpr ⟨hentry, by
          show c'.now < c.now + nonceTtl
          omega⟩, rfl⟩

/-- A request is in time for ten minutes. -/
theorem timely_bounds {timestamp nowMs : UInt64} (h : timely timestamp nowMs = true) :
    timestamp.toNat ≤ nowMs.toNat + 300000 ∧ nowMs.toNat ≤ timestamp.toNat + 300000 := by
  simp only [timely, Bool.not_eq_true', Bool.or_eq_false_iff, decide_eq_false_iff_not,
    word_lt_iff, toNat_satAdd, toNat_satSub] at h
  have hskew : Auth.maxClockSkewMs.toNat = 300000 := rfl
  rw [hskew] at h
  omega

/-- **Three times at most.**  Four acceptances would take fifteen minutes. -/
theorem acceptanceTimes_length (sha : Sha256) (ed : Ed25519) {calls : List AuthCall}
    (hclock : Monotone calls) (hstep : InStep calls) (r : SignedRequest) :
    (acceptanceTimes r (admissions (trace (authStep sha ed) AuthState.empty calls))).length ≤
      3 := by
  obtain ⟨base, hread⟩ := hstep
  have hbetween : ∀ t ∈ acceptanceTimes r
      (admissions (trace (authStep sha ed) AuthState.empty calls)),
      (r.timestampMs.toNat - 300000) * 1000000 - base ≤ t ∧
        t ≤ (r.timestampMs.toNat + 300000) * 1000000 + 999999 + 299 * second - base := by
    intro t ht
    obtain ⟨call, device, hmem, hrequest, rfl⟩ := mem_acceptanceTimes.mp ht
    obtain ⟨hcall, -, hcheck⟩ := presents_of_accepted (mem_admissions.mp hmem) hrequest
    obtain ⟨read, hle, hwait, hnow⟩ := hread call hcall
    have htime := timely_bounds (timely_of_check hcheck)
    omega
  have hlength := length_of_spaced (acceptanceTimes_spaced sha ed hclock r) hbetween
  have hsecond : second = 1000000000 := rfl
  have httl : nonceTtl = 300000000000 := rfl
  rw [httl] at hlength
  omega

/-! ### The requests of a run -/

/-- The `authenticate` calls of the requests of a run. -/
def requestCalls (events : List ServerEvent) : List AuthCall :=
  events.flatMap (authCalls ServerState.start)

theorem requestCalls_concat (events : List ServerEvent) (e : ServerEvent) :
    requestCalls (events ++ [e]) = requestCalls events ++ authCalls ServerState.start e := by
  rw [requestCalls, List.flatMap_append, List.flatMap_singleton]
  rfl

/-- How the requests of a run are answered, as far as it is the `AuthState` that answers. -/
def authLog (sha : Sha256) (ed : Ed25519) (events : List ServerEvent) :
    List (AuthCall × Except AuthError Id16) :=
  trace (authStep sha ed) AuthState.empty (requestCalls events)

/-- The call that a handler was admitted for, and its device. -/
def Handler.admission (handler : Handler) : Option (AuthCall × Id16) :=
  handler.call.bind fun call => handler.store.caller.map fun device => (call, device)

section
variable {sha : Sha256} {ed : Ed25519} {json : Json}

theorem serving_auth (sha : Sha256) (ed : Ed25519) (json : Json) (events : List ServerEvent) :
    (serving sha ed json events).auth =
      after (authStep sha ed) AuthState.empty (requestCalls events) := by
  have hcalls : ∀ s, emitted (serverStep sha ed json) authCalls s events =
      requestCalls events := by
    induction events with
    | nil => exact fun s => rfl
    | cons e events ih =>
      intro s
      rw [emitted, ih]
      cases e <;> rfl
  rw [← hcalls ServerState.start]
  exact (drives_auth sha ed json).after_eq trivial events

theorem authLog_concat (json : Json) (events : List ServerEvent) (e : ServerEvent) :
    authLog sha ed (events ++ [e]) = authLog sha ed events ++
      trace (authStep sha ed) (serving sha ed json events).auth
        (authCalls ServerState.start e) := by
  rw [authLog, requestCalls_concat, trace_append, serving_auth]
  rfl

/-- Only requests are admitted. -/
theorem admitted_request {s : ServerState} {e : ServerEvent} {handler : Handler}
    (h : (serverStep sha ed json s e).1 = .admitted handler) :
    ∃ r, e = .request r ∧ (dispatch sha ed json s.auth r).1 = .ok handler := by
  cases e with
  | request r =>
    obtain ⟨reply, -, hstep⟩ | ⟨handler', hadmit, hstep⟩ := serverStep_request sha ed json s r
    · rw [hstep] at h
      cases h
    · rw [hstep] at h
      cases h
      exact ⟨r, rfl, hadmit⟩
  | serve i nowMs =>
    obtain ⟨-, hstep⟩ | ⟨handler', -, hstep⟩ := serverStep_serve sha ed json s i nowMs
    · rw [hstep] at h
      cases h
    · rw [hstep] at h
      cases h
  | route i =>
    obtain ⟨-, hstep⟩ | ⟨task, -, hstep⟩ := serverStep_route sha ed json s i
    · rw [hstep] at h
      cases h
    · rw [hstep] at h
      cases h
  | session k input =>
    obtain ⟨-, hstep⟩ | ⟨session, -, hstep⟩ := serverStep_session sha ed json s k input
    · rw [hstep] at h
      cases h
    · rw [hstep] at h
      cases h

/-- **Each admitted handler has a call of its own behind it.** -/
theorem admitted_sublist (sha : Sha256) (ed : Ed25519) (json : Json) (events : List ServerEvent) :
    ((admittedHandlers (trace (serverStep sha ed json) ServerState.start events)).filterMap
      Handler.admission).Sublist (admissions (authLog sha ed events)) := by
  induction events using List.reverseRecOn with
  | nil => exact List.Sublist.slnil
  | append_singleton events e ih =>
    have hlater (log : List (AuthCall × Except AuthError Id16)) :
        (admissions (authLog sha ed events)).Sublist
          (admissions (authLog sha ed events ++ log)) := by
      rw [admissions, admissions, List.filterMap_append]
      exact List.sublist_append_left _ _
    rw [trace_concat, admittedHandlers_concat, List.filterMap_append,
      authLog_concat json]
    cases hanswer : (serverStep sha ed json
        (after (serverStep sha ed json) ServerState.start events) e).1 with
    | admitted handler =>
      obtain ⟨r, rfl, hadmit⟩ := admitted_request hanswer
      obtain ⟨hcall, hentitled⟩ := (dispatch_admits sha ed json _ r).handler handler hadmit
      show (_ ++ List.filterMap _ [handler]).Sublist (admissions (_ ++ trace _ _ r.call.toList))
      obtain ⟨call, store⟩ := handler
      obtain rfl : call = r.call := hcall
      unfold Entitled at hentitled
      cases hcall : r.call with
      | none =>
        exact (List.append_nil _).symm ▸ ih.trans (hlater _)
      | some call =>
        rw [hcall] at hentitled
        obtain ⟨device, hok, hcaller, -⟩ := hentitled
        rw [Option.toList_some, trace_cons, trace_nil, hok, admissions_concat]
        refine ih.append ?_
        simp [Handler.admission, hcaller]
    | _ => exact (List.append_nil _).symm ▸ ih.trans (hlater _)

/-- No more handlers are served than calls were answered. -/
theorem served_countP_le (sha : Sha256) (ed : Ed25519) (json : Json) (events : List ServerEvent)
    (p : AuthCall × Id16 → Bool) :
    ((servedHandlers (trace (serverStep sha ed json) ServerState.start events)).countP
      fun handler => handler.admission.any p) ≤ (admissions (authLog sha ed events)).countP p := by
  have hconserved := (run_accountable sha ed json events).conserved
  calc ((servedHandlers (trace (serverStep sha ed json) ServerState.start events)).countP
      fun handler => handler.admission.any p)
    _ ≤ (admittedHandlers (trace (serverStep sha ed json) ServerState.start events)).countP
        fun handler => handler.admission.any p := by
      rw [hconserved.countP_eq, List.countP_append]
      exact Nat.le_add_right _ _
    _ = ((admittedHandlers (trace (serverStep sha ed json) ServerState.start events)).filterMap
        Handler.admission).countP p := by
      rw [List.countP_filterMap]
      congr 1
      ext handler
      cases handler.admission <;> rfl
    _ ≤ (admissions (authLog sha ed events)).countP p :=
      (admitted_sublist sha ed json events).countP_le

end

/-! ### A request that is sent again and again -/

/-- The call of a sample request. -/
def sampleUpgradeCall (signed seconds : Nat) : AuthCall :=
  ⟨(sampleUpgrade signed seconds).headers, get, ascii "/v1/ws", [], wallClock seconds,
    seconds * second⟩

/-- The same upgrade, signed for five minutes after the start, is sent at each of these times. -/
def resends (times : List Nat) : List ServerEvent :=
  times.flatMap fun seconds => [.request (sampleUpgrade 300 seconds), .serve 0 0]

theorem requestCalls_resends (times : List Nat) :
    requestCalls (resends times) = times.map (sampleUpgradeCall 300) := by
  induction times with
  | nil => rfl
  | cons seconds times ih =>
    rw [List.map_cons, ← ih]
    rfl

theorem monotone_resends {times : List Nat} (h : times.Pairwise fun a b => a + 300 ≤ b) :
    Monotone (requestCalls (resends times)) := by
  rw [requestCalls_resends]
  refine List.pairwise_map.mpr (h.imp fun {a b} hab => ?_)
  show a * second ≤ b * second
  exact Nat.mul_le_mul_right _ (by omega)

/-- Every five minutes it is accepted, as long as it is in time. -/
theorem authStep_resend {times : List Nat} {seconds : Nat}
    (hspaced : (times ++ [seconds]).Pairwise fun a b => a + 300 ≤ b)
    (htimely : timely (wallClock 300) (wallClock seconds) = true) :
    ∃ auth, authStep sampleSha256 sampleEd25519
      (serving sampleSha256 sampleEd25519 noJson (resends times)).auth
      (sampleUpgradeCall 300 seconds) =
        (.ok (deviceIdFromPublicKey sampleSha256 (Vector.replicate 32 42)), auth) := by
  obtain ⟨hspaced, -, hlate⟩ := List.pairwise_append.mp hspaced
  have hearlier : ∀ c ∈ requestCalls (resends times), c.now + nonceTtl ≤ seconds * second := by
    intro c hc
    rw [requestCalls_resends] at hc
    obtain ⟨t, ht, rfl⟩ := List.mem_map.mp hc
    have hle := hlate t ht seconds (List.mem_singleton.mpr rfl)
    show t * second + 300 * second ≤ seconds * second
    rw [← Nat.add_mul]
    exact Nat.mul_le_mul_right _ hle
  have hcalls {c : AuthCall} {device : Id16}
      (hc : (c, device) ∈ admissions (authLog sampleSha256 sampleEd25519 (resends times))) :
      c.now + nonceTtl ≤ seconds * second := by
    obtain ⟨pre, post, hsplit, -⟩ := exists_of_mem_trace _ (mem_admissions.mp hc)
    exact hearlier c (by rw [hsplit]; simp)
  have hmetering : Metering (authLog sampleSha256 sampleEd25519 (resends times)) _
      (sampleUpgradeCall 300 seconds).now :=
    run_metering sampleSha256 sampleEd25519 (monotone_resends hspaced) fun c hc =>
      (Nat.le_add_right _ _).trans (hearlier c hc)
  rw [serving_auth]
  refine ⟨_, hmetering.admits (request_signedHeaders _ _ _ _ _ _ _ _)
    (check_signedRequest _ _ _ _ _ _ htimely) (fun c q hc _ _ => hcalls hc) ?_⟩
  have hnone : ((admissionTimes (deviceIdFromPublicKey sampleSha256 (Vector.replicate 32 42))
      (admissions (authLog sampleSha256 sampleEd25519 (resends times)))).countP fun t =>
        seconds * second < t + rateWindow) = 0 := by
    rw [List.countP_eq_zero]
    intro t ht
    obtain ⟨⟨c, device⟩, hc, rfl⟩ := List.mem_map.mp ht
    have hle := hcalls (List.mem_filter.mp hc).1
    have hwidth : rateWindow ≤ nonceTtl := by decide
    simp only [decide_eq_true_eq]
    omega
  exact hnone ▸ (by decide : 0 < rateLimitPerDevice)

theorem served_resends {times : List Nat} (hspaced : times.Pairwise fun a b => a + 300 ≤ b)
    (htimely : ∀ seconds ∈ times, timely (wallClock 300) (wallClock seconds) = true) :
    servedHandlers (trace (serverStep sampleSha256 sampleEd25519 noJson) ServerState.start
        (resends times)) = times.map (sampleUpgradeHandler 300) ∧
      (serving sampleSha256 sampleEd25519 noJson (resends times)).handlers = [] := by
  induction times using List.reverseRecOn with
  | nil => exact ⟨rfl, rfl⟩
  | append_singleton times seconds ih =>
    obtain ⟨hserved, hhandlers⟩ := ih (List.pairwise_append.mp hspaced).1 fun t ht =>
      htimely t (List.mem_append_left _ ht)
    obtain ⟨auth, hauth⟩ := authStep_resend hspaced
      (htimely seconds (List.mem_append_right _ (List.mem_singleton.mpr rfl)))
    have hstep := serverStep_sampleUpgrade hauth
    have hsplit : resends (times ++ [seconds]) =
        resends times ++ [.request (sampleUpgrade 300 seconds), .serve 0 0] := by
      rw [resends, List.flatMap_append, List.flatMap_singleton]
      rfl
    rw [hsplit, trace_append, serving, after_append]
    have hserved' := hserved
    rw [servedHandlers] at hserved' ⊢
    rw [List.filterMap_append, hserved', List.map_append, trace_cons, after_cons, hstep, hhandlers]
    exact ⟨rfl, rfl⟩

/-! ### What a device can have done -/

/-- **The rate of a device.**  In a run whose clock readings do not decrease, the handlers that a
    device has served and that were admitted in some stretch of `j` minutes are
    `RATE_LIMIT_PER_DEVICE * (j + 1)` at most.  And a call is answered with its device if its
    checks pass, the device has not used its nonce within `NONCE_TTL`, and it was admitted less
    than `RATE_LIMIT_PER_DEVICE` times within `RATE_WINDOW`. -/
theorem admitted_at_rate (sha : Sha256) (ed : Ed25519) (json : Json) {events : List ServerEvent}
    (hclock : Monotone (requestCalls events)) :
    (∀ device low j, ((servedHandlers
        (trace (serverStep sha ed json) ServerState.start events)).countP fun handler =>
          handler.admission.any fun entry => entry.2 = device ∧ low ≤ entry.1.now ∧
            entry.1.now < low + rateWindow * j) ≤ rateLimitPerDevice * (j + 1)) ∧
    ∀ call r, (∀ c ∈ requestCalls events, c.now ≤ call.now) → call.request = .ok r →
      r.check sha ed call.nowMs = .ok () →
      (∀ c q, (c, r.deviceId) ∈ admissions (authLog sha ed events) → c.request = .ok q →
        q.nonce = r.nonce → c.now + nonceTtl ≤ call.now) →
      ((admissionTimes r.deviceId (admissions (authLog sha ed events))).countP fun t =>
        call.now < t + rateWindow) < rateLimitPerDevice →
      (authStep sha ed (serving sha ed json events).auth call).1 = .ok r.deviceId := by
  constructor
  · intro device low j
    refine (served_countP_le sha ed json events _).trans ?_
    refine le_of_eq_of_le ?_ (admissions_within sha ed hclock device low j)
    rw [admissionTimes, List.countP_map, List.countP_filter]
    congr 1
    ext entry
    simp [and_comm]
  · intro call r hlast hrequest hcheck hnonce hrate
    have h := run_metering sha ed hclock hlast
    rw [serving_auth, h.admits hrequest hcheck hnonce hrate]

/-- A second after its first request the sample device sends another one. -/
theorem sample_admitted_at_rate :
    (authStep sampleSha256 sampleEd25519
      (serving sampleSha256 sampleEd25519 noJson (resends [0])).auth
      ⟨signedHeaders (Vector.replicate 32 42) get (ascii "/v1/ws") [] (wallClock 300)
        (Vector.replicate 16 8), get, ascii "/v1/ws", [], wallClock 1, second⟩).1 =
      .ok (deviceIdFromPublicKey sampleSha256 (Vector.replicate 32 42)) := by
  have hcalls : ∀ c ∈ requestCalls (resends [0]), c = sampleUpgradeCall 300 0 := by
    intro c hc
    rw [requestCalls_resends] at hc
    exact List.mem_singleton.mp hc
  refine (admitted_at_rate sampleSha256 sampleEd25519 noJson
    (monotone_resends (List.pairwise_singleton _ _))).2 _ _ ?_
    (request_signedHeaders _ _ _ _ _ _ _ _)
    (check_signedRequest _ _ _ _ _ _ (by decide)) ?_ ?_
  · intro c hc
    rw [hcalls c hc]
    exact Nat.zero_le _
  · -- the first request had another nonce
    intro c q hc hq hnonce
    obtain ⟨pre, post, hsplit, -⟩ := exists_of_mem_trace _ (mem_admissions.mp hc)
    rw [hcalls c (by rw [hsplit]; simp)] at hq
    obtain rfl := Except.ok.inj ((request_signedHeaders _ _ _ _ _ _ _ _).symm.trans hq)
    exact absurd hnonce (by simp only [signedRequest]; decide)
  · have hone : (admissionTimes (deviceIdFromPublicKey sampleSha256 (Vector.replicate 32 42))
        (admissions (authLog sampleSha256 sampleEd25519 (resends [0])))).length ≤ 1 := by
      rw [admissionTimes, List.length_map]
      refine (List.length_filter_le _ _).trans ((List.length_filterMap_le _ _).trans ?_)
      rw [authLog, length_trace, requestCalls_resends]
      exact le_refl _
    exact (List.countP_le_length.trans hone).trans_lt (by decide)

/-- **A request takes effect three times at most**, however often it is sent, in a run whose
    clock readings do not decrease and whose two clocks keep in step. -/
theorem effect_at_most_thrice (sha : Sha256) (ed : Ed25519) (json : Json)
    {events : List ServerEvent} (hclock : Monotone (requestCalls events))
    (hstep : InStep (requestCalls events)) (r : SignedRequest) :
    ((servedHandlers (trace (serverStep sha ed json) ServerState.start events)).countP
      fun handler => handler.request = some r) ≤ 3 := by
  have hcount := served_countP_le sha ed json events fun entry => entry.1.request.toOption = some r
  refine le_trans ?_ (hcount.trans ?_)
  · refine List.countP_mono_left fun handler hserved h => ?_
    -- who serves a signed request has a device
    have hr : handler.request = some r := of_decide_eq_true h
    have hcaller := ((served_authorised hserved).signed hr).caller
    obtain ⟨call, hcall, hrequest⟩ := Option.bind_eq_some_iff.mp hr
    rw [Handler.admission, hcall, hcaller]
    exact decide_eq_true hrequest
  · have hlength := acceptanceTimes_length sha ed hclock hstep r
    rw [acceptanceTimes, List.length_map, ← List.countP_eq_length_filter] at hlength
    exact hlength

/-- Three times is possible. -/
theorem sample_effect_thrice :
    (servedHandlers (trace (serverStep sampleSha256 sampleEd25519 noJson) ServerState.start
      (resends [0, 300, 600]))).countP (fun handler => handler.request = some
        (signedRequest (Vector.replicate 32 42) get (ascii "/v1/ws") [] (wallClock 300)
          (Vector.replicate 16 7))) = 3 := by
  have hspaced : [0, 300, 600].Pairwise fun a b => a + 300 ≤ b := by decide
  have hstep : InStep (requestCalls (resends [0, 300, 600])) := by
    refine ⟨1700000000000 * 1000000, fun c hc => ?_⟩
    rw [requestCalls_resends] at hc
    obtain ⟨t, ht, rfl⟩ := List.mem_map.mp hc
    refine ⟨t * second, le_refl _, Nat.le_add_right _ _, ?_⟩
    have hlate : t ≤ 600 := by
      simp only [List.mem_cons, List.not_mem_nil, or_false] at ht
      omega
    have hclock : (sampleUpgradeCall 300 t).nowMs.toNat = 1700000000000 + t * 1000 :=
      UInt64.toNat_ofNat_of_lt' (by
        show _ < 2 ^ 64
        omega)
    rw [hclock, second]
    omega
  refine le_antisymm (effect_at_most_thrice sampleSha256 sampleEd25519 noJson
    (monotone_resends hspaced) hstep _) ?_
  rw [(served_resends hspaced (by decide)).1]
  simp [sampleUpgradeHandler_request]

end NexaMessenger.Gateway
