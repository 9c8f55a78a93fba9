import NexaMessenger.Gateway.Replay

namespace NexaMessenger.Gateway.Auth

open Lib

/-!
# Gateway — what `authenticate` is for

An `AuthState` keeps tables, queues that it prunes and that have a capacity, and windows that it
starts anew.  What it does with all this is to remember whom it has admitted.  `historyStep` says
so: a machine whose state is nothing but the list of all requests that were admitted, and whose
answer is a function of that list (`judge`).  With a clock that does not go backwards the two give
the same answers (`authenticate_refines_history`): nothing is forgotten too early, or remembered
too long.
-/

/-- A request that was admitted: whose it was, its nonce, and when. -/
structure Admission where
  device : Id16
  nonce : Id16
  time : Nat
deriving DecidableEq, Repr

/-- What a device has had admitted. -/
def ofDevice (device : Id16) (past : List Admission) : List Admission :=
  past.filter fun admitted => admitted.device = device

/-- The answer to a request that has passed its checks: its nonce is not to be used twice within
    `NONCE_TTL`, and its device keeps to the rate. -/
def judge (past : List Admission) (device nonce : Id16) (now : Nat) : Except AuthError Id16 :=
  if (ofDevice device past).any fun admitted =>
      admitted.nonce = nonce && now < admitted.time + nonceTtl then .error .replay
  else
    let window := (windowAfter rateWindow ((ofDevice device past).map (·.time))).getD ⟨now, 0⟩
    if rateLimitPerDevice ≤ (window.roll rateWindow now).count then .error .rateLimited
    else .ok device

/-- `authenticate` as it is meant: on the list of all that was admitted. -/
def historyStep (sha : Sha256) (ed : Ed25519) (past : List Admission) (call : AuthCall) :
    Except AuthError Id16 × List Admission :=
  match call.request with
  | .error e => (.error e, past)
  | .ok r =>
    match r.check sha ed call.nowMs with
    | .error e => (.error e, past)
    | .ok () =>
      match judge past r.deviceId r.nonce call.now with
      | .error e => (.error e, past)
      | .ok device => (.ok device, past ++ [⟨device, r.nonce, call.now⟩])

/-- The tables hold what is left to remember of the past: from `last` on, the nonces that are live
    are those of the last five minutes, and every window counts what its device had admitted. -/
structure Recalls (past : List Admission) (s : AuthState) (last : Nat) : Prop where
  live : ∀ device now, last ≤ now → s.liveNonces device now =
    ((ofDevice device past).filter fun admitted => now < admitted.time + nonceTtl).map
      fun admitted => (admitted.nonce, admitted.time + nonceTtl)
  rates : ∀ device,
    s.rates.lookup device = windowAfter rateWindow ((ofDevice device past).map (·.time))

theorem ofDevice_concat (device : Id16) (past : List Admission) (admitted : Admission) :
    ofDevice device (past ++ [admitted]) =
      ofDevice device past ++ (if admitted.device = device then [admitted] else []) := by
  rw [ofDevice, List.filter_append]
  congr 1
  split <;> rename_i h <;> simp [h]

section
variable {past : List Admission} {s : AuthState}

theorem Recalls.empty (last : Nat) : Recalls [] AuthState.empty last where
  live := fun device now _ => liveNonces_empty device now
  rates := fun device => lookup_empty_eq device

theorem Recalls.mono {last next : Nat} (h : Recalls past s last) (hle : last ≤ next) :
    Recalls past s next :=
  ⟨fun device now hnow => h.live device now (hle.trans hnow), h.rates⟩

/-- Pruning an entry makes no difference to what is live later. -/
theorem liveNonces_prune (s : AuthState) (rates : HashMap Id16 RateWindow) (device d : Id16)
    {pruned now : Nat} (hle : pruned ≤ now) :
    AuthState.liveNonces ⟨s.nonces.insert device (s.liveNonces device pruned), rates⟩ d now =
      s.liveNonces d now := by
  show (AuthState.queue _ d).filter _ = _
  rw [queue_insert]
  split
  · rename_i hd
    rw [hd]
    show ((s.queue device).filter _).filter _ = (s.queue device).filter _
    rw [List.filter_filter]
    refine List.filter_congr fun entry _ => ?_
    rw [← Bool.decide_and]
    exact decide_eq_decide.mpr ⟨And.left, fun hlive => ⟨hlive, by omega⟩⟩
  · rfl

/-- The window of a device is the one its past leads to. -/
theorem Recalls.rateAt (h : Recalls past s last) (device : Id16) (now : Nat) :
    s.rateAt device now =
      ((windowAfter rateWindow ((ofDevice device past).map (·.time))).getD ⟨now, 0⟩).roll
        rateWindow now := by
  rw [AuthState.rateAt, h.rates]

/-- **The answer.** -/
theorem Recalls.judge {now : Nat} (h : Recalls past s now) (device nonce : Id16) :
    (s.takeNonce device nonce now).1 = judge past device nonce now := by
  have hlive : (s.liveNonces device now).any (fun entry => entry.1 = nonce) =
      (ofDevice device past).any fun admitted =>
        admitted.nonce = nonce && now < admitted.time + nonceTtl := by
    rw [h.live device now (le_refl now), List.any_map, List.any_filter]
    simp only [Function.comp, Bool.and_comm]
  unfold AuthState.takeNonce Auth.judge
  dsimp only
  rw [hlive, h.rateAt]
  split
  · rfl
  · split <;> rfl

/-- A call that fails after its checks prunes the nonces of its device and may roll its window. -/
theorem Recalls.refused {now : Nat} (h : Recalls past s now) {device nonce : Id16} {e : AuthError}
    (hanswer : (s.takeNonce device nonce now).1 = .error e) :
    Recalls past (s.takeNonce device nonce now).2 now := by
  obtain ⟨-, htake⟩ | ⟨-, hspent, htake⟩ | ⟨-, -, htake⟩ := takeNonce_cases s device nonce now
  · rw [htake]
    exact ⟨fun d later hlater =>
      (liveNonces_prune s _ device d hlater).trans (h.live d later hlater), h.rates⟩
  · rw [htake]
    refine ⟨fun d later hlater =>
      (liveNonces_prune s _ device d hlater).trans (h.live d later hlater), fun d => ?_⟩
    -- the rate is spent, so the window is the old one
    show (s.rates.insert device (s.rateAt device now)).lookup d = _
    rw [lookup_insert_eq, ← h.rates]
    split
    · rename_i hd
      subst hd
      have hlimit : 0 < rateLimitPerDevice := by decide
      have hpos : 0 < (((s.rates.lookup d).getD ⟨now, 0⟩).roll rateWindow now).count :=
        hlimit.trans_le hspent
      have hsame : s.rateAt d now = (s.rates.lookup d).getD ⟨now, 0⟩ := roll_of_count_pos hpos
      cases hlook : s.rates.lookup d with
      | none =>
        rw [hsame, hlook] at hspent
        exact absurd (hlimit.trans_le hspent) (Nat.lt_irrefl 0)
      | some w =>
        rw [hsame, hlook]
        rfl
    · rfl
  · rw [htake] at hanswer
    cases hanswer

/-- A call that is admitted is remembered. -/
theorem Recalls.accept {now : Nat} (h : Recalls past s now) (hlimited : Limited now s)
    (device nonce : Id16) : Recalls (past ++ [⟨device, nonce, now⟩]) (s.accept device nonce now)
      now where
  live := by
    intro d later hlater
    show ((s.accept device nonce now).queue d).filter _ = _
    rw [accept_queue hlimited, ofDevice_concat]
    by_cases hd : d = device
    · subst hd
      rw [if_pos rfl, if_pos rfl, List.filter_append, List.filter_append, List.map_append,
        ← h.live d later hlater]
      congr 1
      · have hprune := liveNonces_prune s s.rates d d hlater
        rw [AuthState.liveNonces, lookup_insert_eq, if_pos rfl] at hprune
        exact hprune
      · by_cases hexpires : later < now + nonceTtl <;> simp [hexpires]
    · rw [if_neg hd, if_neg (Ne.symm hd), List.append_nil]
      exact h.live d later hlater
  rates := by
    intro d
    show (s.rates.insert device _).lookup d = _
    rw [lookup_insert_eq, ofDevice_concat]
    by_cases hd : d = device
    · subst hd
      rw [if_pos rfl, if_pos rfl, List.map_append, h.rateAt]
      exact (windowAfter_concat _ _ _).symm
    · rw [if_neg hd, if_neg (Ne.symm hd), List.append_nil]
      exact h.rates d

/-- **Step.** The two machines answer alike, and the tables hold what is left to remember. -/
theorem Recalls.step (sha : Sha256) (ed : Ed25519) {call : AuthCall}
    (h : Recalls past s call.now) (hlimited : Limited call.now s) :
    (authStep sha ed s call).1 = (historyStep sha ed past call).1 ∧
      Recalls (historyStep sha ed past call).2 (authStep sha ed s call).2 call.now := by
  unfold authStep AuthState.authenticate historyStep
  cases call.request with
  | error e => exact ⟨rfl, h⟩
  | ok r =>
    dsimp only
    cases r.check sha ed call.nowMs with
    | error e => exact ⟨rfl, h⟩
    | ok =>
      dsimp only
      have hanswer := h.judge r.deviceId r.nonce
      rw [← hanswer]
      cases htake : (s.takeNonce r.deviceId r.nonce call.now).1 with
      | error e => exact ⟨rfl, h.refused htake⟩
      | ok device =>
        refine ⟨rfl, ?_⟩
        obtain ⟨-, hstep⟩ | ⟨-, -, hstep⟩ | ⟨-, -, hstep⟩ :=
          takeNonce_cases s r.deviceId r.nonce call.now
        · rw [hstep] at htake
          cases htake
        · rw [hstep] at htake
          cases htake
        · rw [hstep] at htake ⊢
          obtain rfl := Except.ok.inj htake
          exact h.accept hlimited r.deviceId r.nonce

end

/-- **`authenticate` refines its history.**  In every run whose clock does not go backwards, each
    call is answered as `judge` answers it, which knows all that was ever admitted and nothing
    else.  So a nonce is refused exactly within `NONCE_TTL` of its admission, a rate exactly when
    the window that the admissions of the device lead to is full, and no other device, no request
    that was refused and no limit on the tables has a part in it. -/
theorem authenticate_refines_history (sha : Sha256) (ed : Ed25519) {calls : List AuthCall}
    (hclock : Monotone calls) :
    trace (authStep sha ed) AuthState.empty calls = trace (historyStep sha ed) [] calls ∧
    ∀ last, (∀ call ∈ calls, call.now ≤ last) →
      Recalls (after (historyStep sha ed) [] calls) (after (authStep sha ed) AuthState.empty calls)
        last := by
  induction calls using List.reverseRecOn with
  | nil => exact ⟨rfl, fun last _ => Recalls.empty last⟩
  | append_singleton calls call ih =>
    obtain ⟨hbefore, -, hle⟩ := List.pairwise_append.mp hclock
    have hlast : ∀ c ∈ calls, c.now ≤ call.now :=
      fun c hc => hle c hc call (List.mem_singleton.mpr rfl)
    obtain ⟨htrace, hrecalls⟩ := ih hbefore
    have hlimited := (run_remembers sha ed hbefore hlast).limited
    obtain ⟨hanswer, hnext⟩ := (hrecalls call.now hlast).step sha ed hlimited
    rw [trace_concat, trace_concat, after_concat, after_concat, htrace, hanswer]
    exact ⟨rfl, fun last hcalls => hnext.mono (hcalls call (by simp))⟩

/-- The sample request, sent at once, a minute later and five minutes after that. -/
theorem sample_history :
    trace (authStep sampleSha256 sampleEd25519) AuthState.empty
        [sampleCall 0, sampleCall 59, sampleCall 360] =
      trace (historyStep sampleSha256 sampleEd25519) []
        [sampleCall 0, sampleCall 59, sampleCall 360] :=
  (authenticate_refines_history sampleSha256 sampleEd25519
    (by simp [Monotone, sampleCall, second])).1

end NexaMessenger.Gateway.Auth
