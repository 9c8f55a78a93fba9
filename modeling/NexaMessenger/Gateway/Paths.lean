import NexaMessenger.Lib.Segments
import NexaMessenger.Signing
import NexaMessenger.Gateway.Replay
import NexaMessenger.Gateway.Entitlement

namespace NexaMessenger.Gateway

open Lib Auth
open PathIds (hexTo16)

/-!
# Gateway — a signature is good for one call

What a device signs of a request is its method, its path and a hash of its body.  The path is put
together from text that the client chooses and from numbers, so it has to be asked whether two calls
can have one path.  They cannot: an id that `hex_to_16` reads has no slash in it, nor has a number,
so a path is told by its segments (`Spells.asks`), and the segments, with the method, tell
the call (`Asks.unique`).  Hence a signature that was made for one call is good for no other
(`one_signature_one_call`), on whatever gateway.
-/

/-- The slash. -/
def slash : UInt8 := 47

def v1 : Bytes := ascii "v1"

/-! ### Segments without a slash -/

theorem spelled_of_hexTo16 {s : Text} {id : Id16} (h : hexTo16 s = .ok id) :
    byteLen s = 32 ∧
      ∃ pieces, s = PathIds.spell pieces ∧ ∀ piece ∈ pieces, PathIds.IsPiece piece := by
  have hlen : byteLen s = 32 := by
    by_contra hlen
    rw [hexTo16, if_pos hlen] at h
    cases h
  refine ⟨hlen, ?_⟩
  obtain ⟨pieces, rest, rfl, hpieces, hrest⟩ := PathIds.exists_pieces (n := 16) hlen
  rcases hrest with rfl | hcut | ⟨digits, tail, rfl, hdigits, hnone, -⟩
  · exact ⟨pieces, List.append_nil _, hpieces⟩
  · rw [PathIds.hexTo16_cut hpieces hlen hcut] at h
    cases h
  · rw [PathIds.hexTo16_none hpieces hlen hdigits hnone] at h
    cases h

/-- A character of a piece is one byte, and no slash. -/
theorem piece_byte {c : Char} (h : c = '+' ∨ PathIds.IsHexDigit c) :
    ∃ b, String.utf8EncodeChar c = [b] ∧ b ≠ slash := by
  rcases h with rfl | hdigit
  · exact ⟨43, by decide, by decide⟩
  · refine ⟨c.val.toUInt8, String.utf8EncodeChar_eq_singleton hdigit.byte.1, ?_⟩
    obtain ⟨d, -, -, hnibble⟩ := hdigit.value
    intro hslash
    have hnone : hexNibble slash = none := by decide
    rw [hslash, hnone] at hnibble
    cases hnibble

theorem id_no_slash {s : Text} {id : Id16} (h : hexTo16 s = .ok id) : slash ∉ utf8 s := by
  obtain ⟨-, pieces, rfl, hpieces⟩ := spelled_of_hexTo16 h
  intro hmem
  obtain ⟨c, hc, hbyte⟩ := List.mem_flatMap.mp hmem
  obtain ⟨piece, hpiece, hc⟩ := List.mem_flatMap.mp hc
  have hchar : c = '+' ∨ PathIds.IsHexDigit c := by
    rcases List.mem_pair.mp hc with rfl | rfl
    · exact (hpieces piece hpiece).1
    · exact .inr (hpieces piece hpiece).2
  obtain ⟨b, hb, hne⟩ := piece_byte hchar
  rw [hb] at hbyte
  exact hne (List.mem_singleton.mp hbyte).symm

theorem number_no_slash (x : UInt64) : slash ∉ decimal x.toNat := by
  intro hmem
  have hbyte := number_byte_of_parseU64 (parseU64_decimal x) slash hmem
  exact absurd hbyte (by decide)

theorem number_no_slash32 (x : UInt32) : slash ∉ decimal x.toNat := by
  have h := number_no_slash x.toUInt64
  rwa [UInt32.toNat_toUInt64] at h

/-! ### What the segments ask for -/

/-- A request with this method, these segments of its path and this body asks for the call. -/
def Asks (json : Json) (method : Bytes) (segments : List Bytes) (body : Bytes) :
    StoreCall → Prop
  | .push message =>
    method = post ∧ segments = [v1, ascii "relay"] ∧ json.message body = some message
  | .pull id => ∃ device, hexTo16 device = .ok id ∧
    method = get ∧ segments = [v1, ascii "relay", utf8 device]
  | .ack id mid => ∃ device messageId, hexTo16 device = .ok id ∧ hexTo16 messageId = .ok mid ∧
    method = post ∧ segments = [v1, ascii "relay", utf8 device, utf8 messageId, ascii "ack"]
  | .publish device p => p.bundle.deviceId = device ∧
    method = post ∧ segments = [v1, ascii "prekeys"] ∧ json.publication body = some p
  | .getActive _ => False
  | .revoke id generation => ∃ device, hexTo16 device = .ok id ∧ method = post ∧
    segments = [v1, ascii "prekeys", utf8 device, decimal generation.toNat, ascii "revoke"]
  | .claimOpk id generation keyId _ requestId => ∃ recipient request,
    hexTo16 recipient = .ok id ∧ json.claimRequest body = some request ∧
    request.requestId = requestId ∧ method = post ∧
    segments = [v1, ascii "prekeys", utf8 recipient, decimal generation.toNat,
      decimal keyId.toNat, ascii "claim"]
  | .upgrade _ => method = get ∧ segments = [v1, ascii "ws"]

/-- Method, second segment and number of segments, for each of the calls. -/
def StoreCall.shape : StoreCall → Bytes × Bytes × Nat
  | .push _ => (post, ascii "relay", 2)
  | .pull _ => (get, ascii "relay", 3)
  | .ack .. => (post, ascii "relay", 5)
  | .publish .. => (post, ascii "prekeys", 2)
  | .getActive _ => ([], [], 0)
  | .revoke .. => (post, ascii "prekeys", 5)
  | .claimOpk .. => (post, ascii "prekeys", 6)
  | .upgrade _ => (get, ascii "ws", 2)

section
variable {json : Json} {method body : Bytes} {segments : List Bytes} {store store' : StoreCall}

theorem Asks.shape (h : Asks json method segments body store) :
    store.shape = (method, segments.getD 1 [], segments.length) := by
  cases store with
  | push message =>
    obtain ⟨rfl, rfl, -⟩ := h
    rfl
  | pull id =>
    obtain ⟨device, -, rfl, rfl⟩ := h
    rfl
  | ack id mid =>
    obtain ⟨device, messageId, -, -, rfl, rfl⟩ := h
    rfl
  | publish device p =>
    obtain ⟨-, rfl, rfl, -⟩ := h
    rfl
  | getActive device => exact h.elim
  | revoke id generation =>
    obtain ⟨device, -, rfl, rfl⟩ := h
    rfl
  | claimOpk id generation keyId claimant requestId =>
    obtain ⟨recipient, request, -, -, -, rfl, rfl⟩ := h
    rfl
  | upgrade device =>
    obtain ⟨rfl, rfl⟩ := h
    rfl

/-- An id is told by its text. -/
theorem id_unique {a b : Text} {id id' : Id16} (h : hexTo16 a = .ok id) (h' : hexTo16 b = .ok id')
    (hsame : utf8 a = utf8 b) : id = id' := by
  obtain rfl := utf8_injective hsame
  exact Except.ok.inj (h.symm.trans h')

theorem number_unique {x y : UInt64} (h : decimal x.toNat = decimal y.toNat) : x = y :=
  UInt64.toNat_inj.mp (decimal_injective x.toNat_lt y.toNat_lt h)

theorem number_unique32 {x y : UInt32} (h : decimal x.toNat = decimal y.toNat) : x = y := by
  have hx := x.toNat_lt
  have hy := y.toNat_lt
  exact UInt32.toNat_inj.mp (decimal_injective (by omega) (by omega) h)

/-- **The segments tell the call**, for a given caller. -/
theorem Asks.unique (h : Asks json method segments body store)
    (h' : Asks json method segments body store') (hcaller : store.caller = store'.caller) :
    store = store' := by
  have hshape := h.shape.trans h'.shape.symm
  cases store with
  | push message =>
    cases store' with
    | push message' => exact congrArg _ (Option.some.inj (h.2.2.symm.trans h'.2.2))
    | _ => exact absurd hshape (by simp only [StoreCall.shape]; decide)
  | pull id =>
    cases store' with
    | pull id' => exact congrArg _ (Option.some.inj hcaller)
    | _ => exact absurd hshape (by simp only [StoreCall.shape]; decide)
  | ack id mid =>
    cases store' with
    | ack id' mid' =>
      obtain ⟨device, messageId, hid, hmid, -, rfl⟩ := h
      obtain ⟨device', messageId', hid', hmid', -, hsegments⟩ := h'
      simp only [List.cons.injEq, true_and, and_true] at hsegments
      rw [id_unique hid hid' hsegments.1, id_unique hmid hmid' hsegments.2]
    | _ => exact absurd hshape (by simp only [StoreCall.shape]; decide)
  | publish device p =>
    cases store' with
    | publish device' p' =>
      rw [Option.some.inj hcaller, Option.some.inj (h.2.2.2.symm.trans h'.2.2.2)]
    | _ => exact absurd hshape (by simp only [StoreCall.shape]; decide)
  | getActive device => exact h.elim
  | revoke id generation =>
    cases store' with
    | revoke id' generation' =>
      obtain ⟨device, -, -, rfl⟩ := h
      obtain ⟨device', -, -, hsegments⟩ := h'
      simp only [List.cons.injEq, true_and, and_true] at hsegments
      rw [Option.some.inj hcaller, number_unique hsegments.2]
    | _ => exact absurd hshape (by simp only [StoreCall.shape]; decide)
  | claimOpk id generation keyId claimant requestId =>
    cases store' with
    | claimOpk id' generation' keyId' claimant' requestId' =>
      obtain ⟨recipient, request, hid, hrequest, rfl, -, rfl⟩ := h
      obtain ⟨recipient', request', hid', hrequest', rfl, -, hsegments⟩ := h'
      simp only [List.cons.injEq, true_and, and_true] at hsegments
      obtain ⟨hrecipient, hgeneration, hkey⟩ := hsegments
      rw [id_unique hid hid' hrecipient, number_unique hgeneration, number_unique32 hkey,
        Option.some.inj hcaller, Option.some.inj (hrequest.symm.trans hrequest')]
    | _ => exact absurd hshape (by simp only [StoreCall.shape]; decide)
  | upgrade device =>
    cases store' with
    | upgrade device' => exact congrArg _ (Option.some.inj hcaller)
    | _ => exact absurd hshape (by simp only [StoreCall.shape]; decide)

/-! ### Paths and their segments -/

/-- What begins and ends the paths with parameters. -/
theorem path_pieces :
    ascii "/v1/relay" = joined slash [v1, ascii "relay"] ∧
    ascii "/v1/relay/" = joined slash [v1, ascii "relay"] ++ [slash] ∧
    ascii "/ack" = joined slash [ascii "ack"] ∧
    ascii "/v1/prekeys" = joined slash [v1, ascii "prekeys"] ∧
    ascii "/v1/prekeys/" = joined slash [v1, ascii "prekeys"] ++ [slash] ∧
    ascii "/revoke" = joined slash [ascii "revoke"] ∧
    ascii "/claim" = joined slash [ascii "claim"] ∧
    ascii "/" = [slash] ∧ ascii "/v1/ws" = joined slash [v1, ascii "ws"] := by
  decide

/-- The fixed segments have no slash. -/
theorem words_no_slash :
    slash ∉ v1 ∧ slash ∉ ascii "relay" ∧ slash ∉ ascii "ack" ∧ slash ∉ ascii "prekeys" ∧
      slash ∉ ascii "revoke" ∧ slash ∉ ascii "claim" ∧ slash ∉ ascii "ws" := by
  decide

/-- The path of a request is that of its segments, which have no slash and ask for the call; and
    its method and path are short enough for the lengths that are signed with them. -/
theorem Spells.asks {path : Bytes} (h : Spells json method path body store) :
    (∃ segments, path = joined slash segments ∧ Separable slash segments ∧
      Asks json method segments body store) ∧
      method.length < 2 ^ 16 ∧ path.length < 2 ^ 32 := by
  obtain ⟨hrelay, hrelay', hack, hprekeys, hprekeys', hrevoke, hclaim, hslash, hws⟩ := path_pieces
  obtain ⟨hv1, hrelayWord, hackWord, hprekeysWord, hrevokeWord, hclaimWord, hwsWord⟩ :=
    words_no_slash
  have hid {s : Text} {id : Id16} (h : hexTo16 s = .ok id) : (utf8 s).length = 32 := by
    rw [length_utf8, (spelled_of_hexTo16 h).1]
  have hnumber (x : UInt64) : (decimal x.toNat).length ≤ 20 :=
    length_decimal_le (by decide) (by have := x.toNat_lt; omega)
  have hnumber32 (x : UInt32) : (decimal x.toNat).length ≤ 20 :=
    length_decimal_le (by decide) (by have := x.toNat_lt; omega)
  cases h with
  | push hbody =>
    refine ⟨⟨_, hrelay, ?_, rfl, rfl, hbody⟩, by decide, by decide⟩
    simp only [Separable, List.forall_mem_cons]
    exact ⟨hv1, hrelayWord, by simp⟩
  | @pull device id hdevice =>
    refine ⟨⟨[v1, ascii "relay", utf8 device], ?_, ?_, device, hdevice, rfl, rfl⟩, by decide, ?_⟩
    · rw [hrelay']
      simp [joined_cons]
    · simp only [Separable, List.forall_mem_cons]
      exact ⟨hv1, hrelayWord, id_no_slash hdevice, by simp⟩
    · have hlen : (ascii "/v1/relay/").length = 10 := by decide
      rw [List.length_append, hid hdevice, hlen]
      omega
  | @ack device messageId id mid hdevice hmessage =>
    refine ⟨⟨[v1, ascii "relay", utf8 device, utf8 messageId, ascii "ack"], ?_, ?_, device,
      messageId, hdevice, hmessage, rfl, rfl⟩, by decide, ?_⟩
    · rw [hrelay', hack, hslash]
      simp [joined_cons]
    · simp only [Separable, List.forall_mem_cons]
      exact ⟨hv1, hrelayWord, id_no_slash hdevice, id_no_slash hmessage, hackWord, by simp⟩
    · have hlen : (ascii "/v1/relay/").length = 10 ∧ (ascii "/").length = 1 ∧
          (ascii "/ack").length = 4 := by decide
      simp only [List.length_append, hid hdevice, hid hmessage, hlen]
      omega
  | publish hbody =>
    refine ⟨⟨_, hprekeys, ?_, rfl, rfl, rfl, hbody⟩, by decide, by decide⟩
    simp only [Separable, List.forall_mem_cons]
    exact ⟨hv1, hprekeysWord, by simp⟩
  | @revoke device id hdevice generation =>
    refine ⟨⟨[v1, ascii "prekeys", utf8 device, decimal generation.toNat, ascii "revoke"], ?_, ?_,
      device, hdevice, rfl, rfl⟩, by decide, ?_⟩
    · rw [hprekeys', hrevoke, hslash]
      simp [joined_cons]
    · simp only [Separable, List.forall_mem_cons]
      exact ⟨hv1, hprekeysWord, id_no_slash hdevice, number_no_slash generation, hrevokeWord,
        by simp⟩
    · have hlen : (ascii "/v1/prekeys/").length = 12 ∧ (ascii "/").length = 1 ∧
          (ascii "/revoke").length = 7 := by decide
      have hg := hnumber generation
      simp only [List.length_append, hid hdevice, hlen]
      omega
  | @claim recipient id _ request hrecipient generation keyId hbody claimant =>
    refine ⟨⟨[v1, ascii "prekeys", utf8 recipient, decimal generation.toNat, decimal keyId.toNat,
      ascii "claim"], ?_, ?_, recipient, request, hrecipient, hbody, rfl, rfl, rfl⟩,
      by decide, ?_⟩
    · rw [hprekeys', hclaim, hslash]
      simp [joined_cons]
    · simp only [Separable, List.forall_mem_cons]
      exact ⟨hv1, hprekeysWord, id_no_slash hrecipient, number_no_slash generation,
        number_no_slash32 keyId, hclaimWord, by simp⟩
    · have hlen : (ascii "/v1/prekeys/").length = 12 ∧ (ascii "/").length = 1 ∧
          (ascii "/claim").length = 6 := by decide
      have hg := hnumber generation
      have hk := hnumber32 keyId
      simp only [List.length_append, hid hrecipient, hlen]
      omega
  | upgrade device =>
    refine ⟨⟨_, hws, ?_, rfl, rfl⟩, by decide, by decide⟩
    simp only [Separable, List.forall_mem_cons]
    exact ⟨hv1, hwsWord, by simp⟩

/-- The request is told by method, path, body and caller. -/
theorem Spells.unique {path : Bytes} (h : Spells json method path body store)
    (h' : Spells json method path body store') (hcaller : store.caller = store'.caller) :
    store = store' := by
  obtain ⟨⟨segments, rfl, hsegments, hasks⟩, -⟩ := h.asks
  obtain ⟨⟨segments', hpath, hsegments', hasks'⟩, -⟩ := h'.asks
  obtain rfl := joined_injective hsegments hsegments' hpath
  exact hasks.unique hasks' hcaller

end

/-! ### What a signature is for -/

/-- The bytes that the device signs. -/
def Auth.SignedRequest.signed (sha : Sha256) (r : SignedRequest) : Bytes :=
  signingBytes r.method r.path r.deviceId r.publicKey r.timestampMs r.nonce
    (sha.digest r.body).toList

/-- The request that a handler was admitted for. -/
def Handler.request (handler : Handler) : Option SignedRequest :=
  handler.call.bind fun call => call.request.toOption

section
variable {sha : Sha256} {ed : Ed25519} {json : Json} {handler handler' : Handler}
  {r r' : SignedRequest}

theorem Authorised.signed (h : Authorised sha ed json handler) (hr : handler.request = some r) :
    SignedFor sha ed json handler r := by
  obtain ⟨device, rfl⟩ | ⟨q, hq⟩ := h
  · cases hr
  · obtain ⟨call, hcall, hrequest, -⟩ := hq.request
    rw [Handler.request, hcall, Option.bind_some, hrequest] at hr
    obtain rfl : q = r := Option.some.inj hr
    exact hq

/-- The signed bytes tell the call, if the hash tells the bodies apart. -/
theorem SignedFor.unique (h : SignedFor sha ed json handler r)
    (h' : SignedFor sha ed json handler' r') (hsigned : r.signed sha = r'.signed sha)
    (hhash : sha.digest r.body = sha.digest r'.body → r.body = r'.body) :
    handler.store = handler'.store := by
  obtain ⟨-, hmethod, hpath⟩ := h.asks.asks
  obtain ⟨-, hmethod', hpath'⟩ := h'.asks.asks
  obtain ⟨hsameMethod, hsamePath, hdevice, -, -, -, hbody⟩ := SignedContent.request.inj
    (SignedContent.request_injective hmethod hmethod' hpath hpath' hsigned)
  have hspells := h.asks
  rw [hsameMethod, hsamePath, hhash hbody] at hspells
  refine hspells.unique h'.asks ?_
  rw [h.caller, h'.caller, hdevice]

theorem served_authorised {events : List ServerEvent}
    (h : handler ∈ servedHandlers (trace (serverStep sha ed json) ServerState.start events)) :
    Authorised sha ed json handler := by
  have hrun := run_accountable sha ed json events
  exact hrun.authorised handler (hrun.conserved.mem_iff.mpr (List.mem_append_left _ h))

end

/-! ### A sample request -/

/-- Bodies that cannot be read. -/
def noJson : Json := ⟨fun _ => none, fun _ => none, fun _ => none⟩

/-- A request for a websocket, signed for the time `signed` seconds after the start. -/
def sampleUpgrade (signed seconds : Nat) : HttpRequest where
  headers := signedHeaders (Vector.replicate 32 42) get (ascii "/v1/ws") [] (wallClock signed)
    (Vector.replicate 16 7)
  route := .websocket
  nowMs := wallClock seconds
  now := seconds * second

/-- Its handler. -/
def sampleUpgradeHandler (signed seconds : Nat) : Handler where
  call := some ⟨(sampleUpgrade signed seconds).headers, get, ascii "/v1/ws", [],
    wallClock seconds, seconds * second⟩
  store := .upgrade (deviceIdFromPublicKey sampleSha256 (Vector.replicate 32 42))

theorem sampleUpgradeHandler_request (signed seconds : Nat) :
    (sampleUpgradeHandler signed seconds).request =
      some (signedRequest (Vector.replicate 32 42) get (ascii "/v1/ws") [] (wallClock signed)
        (Vector.replicate 16 7)) := by
  rw [Handler.request, sampleUpgradeHandler, Option.bind_some, sampleUpgrade,
    request_signedHeaders]
  rfl

theorem authenticated_ok {sha : Sha256} {ed : Ed25519} {auth auth' : AuthState} {call : AuthCall}
    {device : Id16} (h : authStep sha ed auth call = (.ok device, auth'))
    (next : Id16 → Except Reply StoreCall) :
    authenticated sha ed auth call next =
      ((next device).map fun store => ⟨some call, store⟩, auth') := by
  rw [authStep] at h
  rw [authenticated, h]

/-- If it is authenticated it is admitted. -/
theorem serverStep_sampleUpgrade {s : ServerState} {signed seconds : Nat} {auth : AuthState}
    (hauth : authStep sampleSha256 sampleEd25519 s.auth
      ⟨(sampleUpgrade signed seconds).headers, get, ascii "/v1/ws", [], wallClock seconds,
        seconds * second⟩ =
      (.ok (deviceIdFromPublicKey sampleSha256 (Vector.replicate 32 42)), auth)) :
    serverStep sampleSha256 sampleEd25519 noJson s (.request (sampleUpgrade signed seconds)) =
      (.admitted (sampleUpgradeHandler signed seconds),
        { s with auth, handlers := s.handlers ++ [sampleUpgradeHandler signed seconds] }) := by
  have hadmit : dispatch sampleSha256 sampleEd25519 noJson s.auth (sampleUpgrade signed seconds) =
      (.ok (sampleUpgradeHandler signed seconds), auth) :=
    authenticated_ok hauth _
  rw [serverStep, hadmit]

/-- Served at once it starts a session. -/
theorem served_sampleUpgrade {signed seconds : Nat}
    (htimely : timely (wallClock signed) (wallClock seconds) = true) (nowMs : UInt64) :
    servedHandlers (trace (serverStep sampleSha256 sampleEd25519 noJson) ServerState.start
      [.request (sampleUpgrade signed seconds), .serve 0 nowMs]) =
      [sampleUpgradeHandler signed seconds] := by
  have hauth := authStep_first (Vector.replicate 32 42) get (ascii "/v1/ws") []
    (Vector.replicate 16 7) htimely (seconds * second)
  rw [trace_cons, serverStep_sampleUpgrade hauth]
  rfl

/-! ### One signature, one call -/

/-- **A signature is good for one call.**  Two handlers that were admitted for the same signed
    bytes, in one run or in the runs of two servers, make the same call, if the hash tells the
    bodies of their requests apart. -/
theorem one_signature_one_call {sha : Sha256} {ed : Ed25519} {json : Json}
    {handler handler' : Handler} {r r' : SignedRequest} {events events' : List ServerEvent}
    (hserved : handler ∈
      servedHandlers (trace (serverStep sha ed json) ServerState.start events))
    (hserved' : handler' ∈
      servedHandlers (trace (serverStep sha ed json) ServerState.start events'))
    (hr : handler.request = some r) (hr' : handler'.request = some r')
    (hsigned : r.signed sha = r'.signed sha)
    (hhash : sha.digest r.body = sha.digest r'.body → r.body = r'.body) :
    handler.store = handler'.store :=
  ((served_authorised hserved).signed hr).unique ((served_authorised hserved').signed hr')
    hsigned hhash

/-- The same signed upgrade, sent to a gateway and two minutes later to another one. -/
theorem sample_one_signature_one_call :
    (sampleUpgradeHandler 0 0).store = (sampleUpgradeHandler 0 120).store := by
  have hfirst := served_sampleUpgrade (by decide : timely (wallClock 0) (wallClock 0) = true) 0
  have hsecond := served_sampleUpgrade (by decide : timely (wallClock 0) (wallClock 120) = true) 0
  exact one_signature_one_call (hfirst ▸ List.mem_singleton.mpr rfl)
    (hsecond ▸ List.mem_singleton.mpr rfl) (sampleUpgradeHandler_request 0 0)
    (sampleUpgradeHandler_request 0 120) rfl fun _ => rfl

end NexaMessenger.Gateway
