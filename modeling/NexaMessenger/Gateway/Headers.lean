import NexaMessenger.Gateway.Auth

namespace NexaMessenger.Gateway.Auth

open Lib

/-!
# Gateway — headers are read back

A client writes its id, key, nonce and signature in hexadecimal and its time in decimal.
`AuthCall.request` reads back what was written so (`AuthCall.request_of_get`), and the request
that the tests of the gateway sign passes its checks for as long as it is in time.
-/

/-! ### Hexadecimal -/

/-- A hexadecimal digit, in lower case. -/
def hexDigit (n : UInt8) : UInt8 := if n < 10 then 48 + n else 87 + n

/-- `hex` of the tests. -/
def hex (bytes : Bytes) : Bytes :=
  bytes.flatMap fun (b : UInt8) => [hexDigit (b >>> 4), hexDigit (b &&& 15)]

/-- A digit is read back, and may stand in a header. -/
theorem hexNibble_hexDigit {n : UInt8} (h : n < 16) :
    hexNibble (hexDigit n) = some n ∧ isVisibleAscii (hexDigit n) = true := by
  have hdigits : ∀ k < 16, hexNibble (hexDigit (UInt8.ofNat k)) = some (UInt8.ofNat k) ∧
      isVisibleAscii (hexDigit (UInt8.ofNat k)) = true := by decide
  have hn := hdigits n.toNat (UInt8.lt_iff_toNat_lt.mp h)
  rwa [UInt8.ofNat_toNat] at hn

/-- A byte is made of its two digits. -/
theorem nibbles (b : UInt8) :
    b >>> 4 < 16 ∧ b &&& 15 < 16 ∧ (b >>> 4) <<< 4 ||| (b &&& 15) = b := by
  have hbytes : ∀ k < 256, UInt8.ofNat k >>> 4 < 16 ∧ UInt8.ofNat k &&& 15 < 16 ∧
      (UInt8.ofNat k >>> 4) <<< 4 ||| (UInt8.ofNat k &&& 15) = UInt8.ofNat k := by decide +kernel
  have hb := hbytes b.toNat b.toNat_lt
  rwa [UInt8.ofNat_toNat] at hb

theorem parsePairs_hex (bytes : Bytes) : parsePairs (hex bytes) = some bytes := by
  induction bytes with
  | nil => rfl
  | cons b rest ih =>
    obtain ⟨hhi, hlo, hbyte⟩ := nibbles b
    rw [hex, List.flatMap_cons, List.cons_append, List.singleton_append, parsePairs,
      (hexNibble_hexDigit hhi).1, (hexNibble_hexDigit hlo).1, ← hex, ih]
    dsimp only
    rw [hbyte]

theorem length_hex (bytes : Bytes) : (hex bytes).length = bytes.length * 2 := by
  simp [hex, List.length_flatMap]

theorem visible_hex (bytes : Bytes) : (hex bytes).all isVisibleAscii = true := by
  rw [List.all_eq_true]
  intro c hc
  obtain ⟨b, -, hc⟩ := List.mem_flatMap.mp hc
  obtain ⟨hhi, hlo, -⟩ := nibbles b
  rcases List.mem_pair.mp hc with rfl | rfl
  · exact (hexNibble_hexDigit hhi).2
  · exact (hexNibble_hexDigit hlo).2

theorem visible_decimal (n : Nat) : (decimal n).all isVisibleAscii = true := by
  have hdigits : ∀ d < 10, isVisibleAscii (digitByte d) = true := by decide
  induction n using Nat.strongRecOn with
  | _ n ih =>
    by_cases h : n < 10
    · rw [decimal_of_lt h, List.all_cons, hdigits n h]
      rfl
    · rw [decimal_of_le (by omega), List.all_append, ih _ (by omega), List.all_cons,
        hdigits _ (by omega)]
      rfl

theorem get_cons (entry : Bytes × Bytes) (headers : HeaderMap) (name : Bytes) :
    HeaderMap.get (entry :: headers) name =
      if entry.1 = name then some entry.2 else HeaderMap.get headers name := by
  rw [HeaderMap.get, List.find?_cons]
  by_cases h : entry.1 = name
  · simp [h]
  · simp [h, HeaderMap.get]

theorem parseHex_of_get {n : Nat} {headers : HeaderMap} {name : Bytes} {v : U8Array n}
    (h : HeaderMap.get headers name = some (hex v.toList)) :
    parseHex n headers name = .ok v := by
  have hheader : header headers name = .ok (hex v.toList) := by
    rw [header, h]
    exact if_pos (visible_hex _)
  have hlength : ¬ (hex v.toList).length ≠ n * 2 := by
    rw [length_hex, Vector.length_toList]
    exact not_not.mpr rfl
  rw [parseHex, hheader]
  show (if _ then _ else _) = _
  rw [if_neg hlength, parsePairs_hex]
  dsimp only
  rw [arrayOf_toList]

/-- **Headers are read back.**  A request is what its headers say in hexadecimal and decimal. -/
theorem AuthCall.request_of_get {call : AuthCall} {deviceId nonce : Id16} {publicKey : Key32}
    {timestampMs : UInt64} {signature : U8Array 64}
    (hdevice : HeaderMap.get call.headers hDeviceId = some (hex deviceId.toList))
    (hkey : HeaderMap.get call.headers hPublicKey = some (hex publicKey.toList))
    (htimestamp : HeaderMap.get call.headers hTimestamp = some (decimal timestampMs.toNat))
    (hnonce : HeaderMap.get call.headers hNonce = some (hex nonce.toList))
    (hsignature : HeaderMap.get call.headers hSignature = some (hex signature.toList)) :
    call.request = .ok ⟨deviceId, publicKey, timestampMs, nonce, signature, call.method,
      call.path, call.body⟩ := by
  have htime : header call.headers hTimestamp = .ok (decimal timestampMs.toNat) := by
    rw [header, htimestamp]
    exact if_pos (visible_decimal _)
  rw [AuthCall.request, parseHex_of_get hdevice, parseHex_of_get hkey, htime,
    parseHex_of_get hnonce, parseHex_of_get hsignature]
  dsimp only [bind, Except.bind]
  rw [parseU64_decimal]
  rfl

/-! ### Signed requests -/

/-- `signed_headers` of the tests, in the sample scheme. -/
def signedHeaders (key : Key32) (method path body : Bytes) (timestamp : UInt64) (nonce : Id16) :
    HeaderMap :=
  let device := deviceIdFromPublicKey sampleSha256 key
  let signature := sampleSign key (signingBytes method path device key timestamp nonce
    (sampleSha256.digest body).toList)
  [(hDeviceId, hex device.toList), (hPublicKey, hex key.toList),
   (hTimestamp, decimal timestamp.toNat), (hNonce, hex nonce.toList),
   (hSignature, hex signature.toList)]

section
variable (key : Key32) (method path body : Bytes) (timestamp : UInt64) (nonce : Id16)

/-- The request that the headers of the tests carry. -/
def signedRequest : SignedRequest where
  deviceId := deviceIdFromPublicKey sampleSha256 key
  publicKey := key
  timestampMs := timestamp
  nonce := nonce
  signature := sampleSign key (signingBytes method path (deviceIdFromPublicKey sampleSha256 key)
    key timestamp nonce (sampleSha256.digest body).toList)
  method := method
  path := path
  body := body

theorem request_signedHeaders (nowMs : UInt64) (now : Nat) :
    AuthCall.request ⟨signedHeaders key method path body timestamp nonce, method, path, body,
      nowMs, now⟩ = .ok (signedRequest key method path body timestamp nonce) := by
  apply AuthCall.request_of_get
  all_goals
    simp +decide only [signedHeaders, get_cons, if_true, if_false]

/-- It passes its checks as long as it is in time. -/
theorem check_signedRequest {nowMs : UInt64} (h : timely timestamp nowMs = true) :
    (signedRequest key method path body timestamp nonce).check sampleSha256 sampleEd25519 nowMs =
      .ok () := by
  have hkey : sampleEd25519.isKey key = true := rfl
  simp only [SignedRequest.check, signedRequest, h, hkey, sampleEd25519_verify]
  simp

end

end NexaMessenger.Gateway.Auth
