import NexaMessenger.Lib.Machine
import NexaMessenger.Lib.Word
import NexaMessenger.Lib.HashMap
import NexaMessenger.Lib.Decimal
import NexaMessenger.Lib.RateWindow
import NexaMessenger.Crypto

namespace NexaMessenger.Gateway.Auth

open Lib

/-!
# Gateway — request authentication

`AuthState::authenticate`: five headers name a device, its public key, a time, a nonce and a
signature over all of these with method, path and body.  The checks of the request come first
and read the wall clock.  Then, under the mutex, the monotonic clock is read once; the device's
nonces that have expired are dropped, a nonce that is still there is a replay, and a limiter
counts what is left.

A call is atomic from the lock on and its checks touch no state, so the gateway's `AuthState`
is a machine (`authStep`).  Both clock readings are part of the input: milliseconds since the
epoch, and the nanoseconds of an `Instant` since some fixed one.
-/

/-- `DOMAIN`. -/
def domain : Bytes := ascii "M/relay-auth/v1"

/-- `DEVICE_ID_DOMAIN`. -/
def deviceIdDomain : Bytes := ascii "M/device-id/v1"

/-- `MAX_CLOCK_SKEW_MS`: five minutes. -/
def maxClockSkewMs : UInt64 := 5 * 60 * 1000

/-- A second, in the nanoseconds of an `Instant`. -/
def second : Nat := 1000000000

/-- `NONCE_TTL`: five minutes. -/
def nonceTtl : Nat := 5 * 60 * second

/-- `MAX_NONCES_PER_DEVICE`. -/
def maxNoncesPerDevice : Nat := 1024

/-- `RATE_WINDOW`: one minute. -/
def rateWindow : Nat := 60 * second

/-- `RATE_LIMIT_PER_DEVICE`. -/
def rateLimitPerDevice : Nat := 120

/-- `H_DEVICE_ID`. -/
def hDeviceId : Bytes := ascii "x-m-device-id"

/-- `H_PUBLIC_KEY`. -/
def hPublicKey : Bytes := ascii "x-m-public-key"

/-- `H_TIMESTAMP`. -/
def hTimestamp : Bytes := ascii "x-m-timestamp"

/-- `H_NONCE`. -/
def hNonce : Bytes := ascii "x-m-nonce"

/-- `H_SIGNATURE`. -/
def hSignature : Bytes := ascii "x-m-signature"

inductive AuthError
  | missingHeader | invalidHeader | invalidTimestamp | invalidDevice | invalidSignature
  | replay | rateLimited
deriving DecidableEq, Repr

/-! ### Headers -/

/-- A header map: names, in lower case as the `http` crate keeps them, with their values. -/
abbrev HeaderMap := List (Bytes × Bytes)

/-- `HeaderMap::get`: the first value under a name. -/
def HeaderMap.get (headers : HeaderMap) (name : Bytes) : Option Bytes :=
  (headers.find? fun entry => entry.1 = name).map (·.2)

/-- The bytes `HeaderValue::to_str` allows: visible ASCII, space and tab. -/
def isVisibleAscii (b : UInt8) : Bool := (32 ≤ b && b < 127) || b = 9

/-- `header`. -/
def header (headers : HeaderMap) (name : Bytes) : Except AuthError Bytes :=
  match HeaderMap.get headers name with
  | none => .error .missingHeader
  | some value => if value.all isVisibleAscii then .ok value else .error .invalidHeader

/-- `hex_nibble`. -/
def hexNibble (value : UInt8) : Option UInt8 :=
  if 48 ≤ value ∧ value ≤ 57 then some (value - 48)
  else if 97 ≤ value ∧ value ≤ 102 then some (value - 97 + 10)
  else if 65 ≤ value ∧ value ≤ 70 then some (value - 65 + 10)
  else none

/-- The loop of `parse_hex`: two digits for each byte. -/
def parsePairs : Bytes → Option Bytes
  | [] => some []
  | [_] => none
  | hi :: lo :: rest =>
    match hexNibble hi, hexNibble lo, parsePairs rest with
    | some hi, some lo, some out => some ((hi <<< 4 ||| lo) :: out)
    | _, _, _ => none

/-- `parse_hex`. -/
def parseHex (n : Nat) (headers : HeaderMap) (name : Bytes) : Except AuthError (U8Array n) := do
  let value ← header headers name
  if value.length ≠ n * 2 then .error .invalidHeader
  else
    match parsePairs value with
    | some out => .ok (arrayOf n out)
    | none => .error .invalidHeader

/-! ### Requests -/

/-- What a request says and signs: the parsed headers with method, path and body. -/
structure SignedRequest where
  deviceId : Id16
  publicKey : Key32
  timestampMs : UInt64
  nonce : Id16
  signature : U8Array 64
  method : Bytes
  path : Bytes
  body : Bytes
deriving DecidableEq, Repr

/-- The arguments of an `authenticate` call, with the readings of the two clocks. -/
structure AuthCall where
  headers : HeaderMap
  method : Bytes
  path : Bytes
  body : Bytes
  nowMs : UInt64
  now : Nat
deriving DecidableEq, Repr

/-- The first lines of `authenticate`: the headers, in the order in which they are read. -/
def AuthCall.request (call : AuthCall) : Except AuthError SignedRequest := do
  let deviceId ← parseHex 16 call.headers hDeviceId
  let publicKey ← parseHex 32 call.headers hPublicKey
  let timestamp ← header call.headers hTimestamp
  let timestampMs ← match parseU64 timestamp with
    | some timestampMs => .ok timestampMs
    | none => .error .invalidHeader
  let nonce ← parseHex 16 call.headers hNonce
  let signature ← parseHex 64 call.headers hSignature
  return ⟨deviceId, publicKey, timestampMs, nonce, signature, call.method, call.path, call.body⟩

/-- `device_id_from_public_key`. -/
def deviceIdFromPublicKey (sha : Sha256) (publicKey : Key32) : Id16 :=
  arrayOf 16 (slice (sha.digest (deviceIdDomain ++ publicKey.toList)).toList 0 16)

/-- `signing_bytes`. -/
def signingBytes (method path : Bytes) (deviceId : Id16) (publicKey : Key32)
    (timestampMs : UInt64) (nonce : Id16) (bodyHash : Bytes) : Bytes :=
  domain ++ toBe 2 (method.length % 2 ^ 16) ++ method ++ toBe 4 (path.length % 2 ^ 32) ++ path ++
    deviceId.toList ++ publicKey.toList ++ beBytes timestampMs ++ nonce.toList ++ bodyHash

/-- The time check: not more than the skew ahead of the wall clock or behind it. -/
def timely (timestampMs nowMs : UInt64) : Bool :=
  !(satAdd nowMs maxClockSkewMs < timestampMs || maxClockSkewMs < satSub nowMs timestampMs)

/-- The checks of a parsed request, up to the lock. -/
def SignedRequest.check (sha : Sha256) (ed : Ed25519) (r : SignedRequest) (nowMs : UInt64) :
    Except AuthError Unit :=
  if r.deviceId ≠ deviceIdFromPublicKey sha r.publicKey then .error .invalidDevice
  else if !timely r.timestampMs nowMs then .error .invalidTimestamp
  else if !ed.isKey r.publicKey then .error .invalidHeader
  else if !ed.verify r.publicKey
      (signingBytes r.method r.path r.deviceId r.publicKey r.timestampMs r.nonce
        (sha.digest r.body).toList) r.signature then .error .invalidSignature
  else .ok ()

/-! ### The state -/

/-- `AuthInner`, the state behind the lock of an `AuthState`: each device's accepted nonces with
    the time they expire, oldest first, and its rate window. -/
structure AuthState where
  nonces : HashMap Id16 (List (Id16 × Nat))
  rates : HashMap Id16 RateWindow

namespace AuthState

/-- `AuthState::default()`. -/
def empty : AuthState := ⟨∅, ∅⟩

/-- The nonces of a device that have not expired: the queue after its `retain`. -/
def liveNonces (s : AuthState) (deviceId : Id16) (now : Nat) : List (Id16 × Nat) :=
  ((s.nonces.lookup deviceId).getD []).filter fun entry => now < entry.2

/-- The rate window of a device at `now`; an idle device gets one that starts now. -/
def rateAt (s : AuthState) (deviceId : Id16) (now : Nat) : RateWindow :=
  ((s.rates.lookup deviceId).getD ⟨now, 0⟩).roll rateWindow now

/-- The last lines of `authenticate`: the request is counted and its nonce remembered; at
    capacity the oldest nonce makes room. -/
def accept (s : AuthState) (deviceId nonce : Id16) (now : Nat) : AuthState :=
  let queue := s.liveNonces deviceId now
  let kept := if maxNoncesPerDevice ≤ queue.length then queue.tail else queue
  let rate := s.rateAt deviceId now
  { nonces := s.nonces.insert deviceId (kept ++ [(nonce, now + nonceTtl)])
    rates := s.rates.insert deviceId ⟨rate.start, rate.count + 1⟩ }

/-- The part of `authenticate` under the lock. -/
def takeNonce (s : AuthState) (deviceId nonce : Id16) (now : Nat) :
    Except AuthError Id16 × AuthState :=
  let queue := s.liveNonces deviceId now
  let nonces := s.nonces.insert deviceId queue
  if queue.any fun entry => entry.1 = nonce then (.error .replay, ⟨nonces, s.rates⟩)
  else
    let rate := s.rateAt deviceId now
    if rateLimitPerDevice ≤ rate.count then
      (.error .rateLimited, ⟨nonces, s.rates.insert deviceId rate⟩)
    else (.ok deviceId, s.accept deviceId nonce now)

/-- `AuthState::authenticate`. -/
def authenticate (sha : Sha256) (ed : Ed25519) (s : AuthState) (call : AuthCall) :
    Except AuthError Id16 × AuthState :=
  match call.request with
  | .error e => (.error e, s)
  | .ok r =>
    match r.check sha ed call.nowMs with
    | .error e => (.error e, s)
    | .ok () => s.takeNonce r.deviceId r.nonce call.now

end AuthState

/-- The gateway's `AuthState` as a machine. -/
def authStep (sha : Sha256) (ed : Ed25519) (s : AuthState) (call : AuthCall) :
    Except AuthError Id16 × AuthState :=
  s.authenticate sha ed call

/-! ### What a call can do -/

/-- A request that passes the checks is in time. -/
theorem timely_of_check {sha : Sha256} {ed : Ed25519} {r : SignedRequest} {nowMs : UInt64}
    (h : r.check sha ed nowMs = .ok ()) : timely r.timestampMs nowMs = true := by
  unfold SignedRequest.check at h
  split at h
  · exact absurd h (by simp)
  · split at h
    · exact absurd h (by simp)
    · rename_i htimely
      simpa using htimely

/-- The nonce of a request is live: the device has used it before and it has not expired. -/
def Live (s : AuthState) (deviceId nonce : Id16) (now : Nat) : Prop :=
  ∃ entry ∈ s.liveNonces deviceId now, entry.1 = nonce

/-- A live nonce is a replay and a spent rate an error; otherwise the request is accepted.  In
    each case the expired nonces of the device are gone. -/
theorem takeNonce_cases (s : AuthState) (deviceId nonce : Id16) (now : Nat) :
    (Live s deviceId nonce now ∧ s.takeNonce deviceId nonce now =
      (.error .replay, ⟨s.nonces.insert deviceId (s.liveNonces deviceId now), s.rates⟩)) ∨
    (¬ Live s deviceId nonce now ∧ rateLimitPerDevice ≤ (s.rateAt deviceId now).count ∧
      s.takeNonce deviceId nonce now =
        (.error .rateLimited, ⟨s.nonces.insert deviceId (s.liveNonces deviceId now),
          s.rates.insert deviceId (s.rateAt deviceId now)⟩)) ∨
    (¬ Live s deviceId nonce now ∧ (s.rateAt deviceId now).count < rateLimitPerDevice ∧
      s.takeNonce deviceId nonce now = (.ok deviceId, s.accept deviceId nonce now)) := by
  have hopen := AuthState.takeNonce.eq_1 s deviceId nonce now
  have hlive : ((s.liveNonces deviceId now).any fun entry => entry.1 = nonce) = true ↔
      Live s deviceId nonce now := by
    simp [Live, List.any_eq_true]
  by_cases hreplay : Live s deviceId nonce now
  · exact .inl ⟨hreplay, by rw [hopen, if_pos (hlive.mpr hreplay)]⟩
  rw [if_neg (fun h => hreplay (hlive.mp h))] at hopen
  by_cases hspent : rateLimitPerDevice ≤ (s.rateAt deviceId now).count
  · exact .inr (.inl ⟨hreplay, hspent, by rw [hopen, if_pos hspent]⟩)
  · exact .inr (.inr ⟨hreplay, by omega, by rw [hopen, if_neg hspent]⟩)

/-- A call fails at its checks and changes nothing, or asks for its nonce. -/
theorem authStep_cases (sha : Sha256) (ed : Ed25519) (s : AuthState) (call : AuthCall) :
    (∃ e, authStep sha ed s call = (.error e, s)) ∨
    (∃ r, call.request = .ok r ∧ r.check sha ed call.nowMs = .ok () ∧
      authStep sha ed s call = s.takeNonce r.deviceId r.nonce call.now) := by
  unfold authStep AuthState.authenticate
  cases hrequest : call.request with
  | error e => exact .inl ⟨e, rfl⟩
  | ok r =>
    dsimp only
    cases hcheck : r.check sha ed call.nowMs with
    | error e => exact .inl ⟨e, rfl⟩
    | ok => exact .inr ⟨r, rfl, hcheck, rfl⟩

/-- A call that is answered with a device has passed the checks, with a nonce that is not live and
    a rate that is not spent. -/
theorem authStep_ok {sha : Sha256} {ed : Ed25519} {s : AuthState} {call : AuthCall}
    {deviceId : Id16} (h : (authStep sha ed s call).1 = .ok deviceId) :
    ∃ r, call.request = .ok r ∧ r.check sha ed call.nowMs = .ok () ∧ r.deviceId = deviceId ∧
      ¬ Live s r.deviceId r.nonce call.now ∧
      authStep sha ed s call = (.ok r.deviceId, s.accept r.deviceId r.nonce call.now) := by
  obtain ⟨e, hstep⟩ | ⟨r, hrequest, hcheck, hstep⟩ := authStep_cases sha ed s call
  · rw [hstep] at h
    exact absurd h (by simp)
  · obtain ⟨-, htake⟩ | ⟨-, -, htake⟩ | ⟨hfresh, -, htake⟩ :=
      takeNonce_cases s r.deviceId r.nonce call.now
    · rw [hstep, htake] at h
      exact absurd h (by simp)
    · rw [hstep, htake] at h
      exact absurd h (by simp)
    · rw [hstep, htake] at h
      exact ⟨r, hrequest, hcheck, by simpa using h, hfresh, by rw [hstep, htake]⟩

end NexaMessenger.Gateway.Auth
