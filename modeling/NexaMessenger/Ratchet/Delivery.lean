import NexaMessenger.Lib.Machine
import NexaMessenger.Ratchet.Receive
import Mathlib.Data.Set.Function

namespace NexaMessenger.Ratchet

open Lib

/-!
# Ratchet — delivery in any order

A sender and a receiver start from one root.  The sender encrypts a list of messages; the
receiver gets calls in any order, with repetitions, wrong counters and forged packets among
them.  `decrypts_in_any_order` says which calls succeed: those that present packet `i` of the
sender at counter `i`, once each and at most 256 ahead.  Every other call changes nothing.

The cryptography enters in two assumptions.  HKDF does not collide on the inputs the chain of
the root feeds it (`chainInputs`), and ChaCha20-Poly1305, on the packets presented, opens
exactly what the sender sealed under the same key and associated data (`OpensOnlySent`).
-/

/-! ### The sender -/

/-- What a sender is given to encrypt, with the nonce it draws for it. -/
structure Plain where
  plaintext : Bytes
  aad : Bytes
  nonce : U8Array 12
deriving DecidableEq

section
variable (hkdf : Hkdf) (aead : Aead) (root : Key32)

/-- Encrypts a list of messages in order. -/
def encryptAll : RatchetState → List Plain → Except RatchetError (List Bytes)
  | _, [] => .ok []
  | s, x :: rest =>
    match s.encrypt hkdf aead x.nonce x.plaintext x.aad with
    | (.error e, _) => .error e
    | (.ok packet, s') =>
      match encryptAll s' rest with
      | .error e => .error e
      | .ok packets => .ok (packet :: packets)

/-- The inputs `(salt, ikm, info)` that the chain of a root feeds to HKDF. -/
def chainInputs : Set (Bytes × Bytes × Bytes) :=
  { x | x = (chainDomain, root.toList, ascii "initial-chain") ∨
    ∃ i s, chainState hkdf root i = some s ∧
      (x = (messageDomain, s.chainKey.toList, beBytes s.nextCounter) ∨
        x = (chainDomain, s.chainKey.toList, beBytes s.nextCounter)) }

/-- HKDF on a triple of inputs. -/
def expandInput (x : Bytes × Bytes × Bytes) : Option Key32 := hkdf.expand x.1 x.2.1 x.2.2

/-- The sender sealed this plaintext under this key, nonce and associated data. -/
def Sealed (sent : List Plain) (key : Key32) (nonce : U8Array 12) (plaintext aad body : Bytes) :
    Prop :=
  ∃ j : Nat, sent[j]? = some ⟨plaintext, aad, nonce⟩ ∧ messageKey hkdf root j = some key ∧
    aead.encrypt key nonce plaintext aad = some body

/-! ### The receiver -/

/-- A call of `decrypt`. -/
structure Call where
  counter : UInt64
  packet : Bytes
  aad : Bytes
deriving DecidableEq

def receive (r : ReceiveRatchet) (call : Call) : Except ReceiveError Bytes × ReceiveRatchet :=
  r.decrypt hkdf aead call.counter call.packet call.aad

/-- The counters of the successful calls of a trace. -/
def opened (calls : List (Call × Except ReceiveError Bytes)) : List UInt64 :=
  calls.filterMap fun
    | (call, .ok _) => some call.counter
    | (_, .error _) => none

/-- Under the keys of the chain, the packets of these calls open exactly to what the sender
    sealed. -/
def OpensOnlySent (sent : List Plain) (calls : List Call) : Prop :=
  ∀ call ∈ calls, ∀ i key, messageKey hkdf root i = some key →
    ∀ (nonce : U8Array 12) body, call.packet = nonce.toList ++ body → ∀ plaintext,
      aead.decrypt key nonce body call.aad = some plaintext ↔
        Sealed hkdf aead root sent key nonce plaintext call.aad body

/-- The call presents packet `i` of the sender, for message `x`, at counter `i` and with its
    associated data. -/
def Genuine (sent : List Plain) (packets : List Bytes) (call : Call) (x : Plain) : Prop :=
  sent[call.counter.toNat]? = some x ∧ packets[call.counter.toNat]? = some call.packet ∧
    call.aad = x.aad

instance (sent : List Plain) (packets : List Bytes) (call : Call) (x : Plain) :
    Decidable (Genuine sent packets call x) :=
  inferInstanceAs (Decidable (_ ∧ _ ∧ _))

end

section

variable {hkdf : Hkdf} {aead : Aead} {root : Key32}

/-- The packets of a sender on the chain: message `i` is sealed under the `i`-th key. -/
theorem encryptAll_spec {s : RatchetState} (h : OnChain hkdf root s) {sent : List Plain}
    {packets : List Bytes} (hsent : encryptAll hkdf aead s sent = .ok packets) (i : Nat) :
    (∀ x, sent[i]? = some x → ∃ key body,
      messageKey hkdf root (s.nextCounter.toNat + i) = some key ∧
      aead.encrypt key x.nonce x.plaintext x.aad = some body ∧
      packets[i]? = some (x.nonce.toList ++ body)) := by
  induction sent generalizing s packets i with
  | nil => intro x hx; exact absurd hx (by simp)
  | cons y rest ih =>
    intro x hx
    rw [encryptAll] at hsent
    split at hsent
    · exact absurd hsent (by simp)
    rename_i packet s' hencrypt
    split at hsent
    · exact absurd hsent (by simp)
    rename_i packets' hrest
    obtain rfl := Except.ok.inj hsent
    -- the first packet comes with the key of the counter, and the rest is sent from the next state
    unfold RatchetState.encrypt at hencrypt
    split at hencrypt
    · exact absurd (Prod.mk.inj hencrypt).1 (by simp)
    rename_i key s'' hkey
    split at hencrypt
    · exact absurd (Prod.mk.inj hencrypt).1 (by simp)
    rename_i body hbody
    obtain ⟨hpacket, rfl⟩ := Prod.mk.inj hencrypt
    obtain ⟨hmessage, hchain⟩ := h.next hkey
    cases i with
    | zero =>
      obtain rfl := Option.some.inj hx
      exact ⟨key, body, hmessage, hbody, by rw [List.getElem?_cons_zero, Except.ok.inj hpacket]⟩
    | succ i =>
      have hnext := ih hchain hrest i x hx
      rw [nextMessageKey_counter hkey, Nat.add_assoc, Nat.add_comm 1 i] at hnext
      exact hnext

/-- A message key comes out of HKDF, from the message input of its state. -/
theorem messageKey_eq {i : Nat} {key : Key32} (h : messageKey hkdf root i = some key) :
    ∃ s, chainState hkdf root i = some s ∧
      hkdf.expand messageDomain s.chainKey.toList (beBytes s.nextCounter) = some key := by
  rw [messageKey] at h
  split at h
  · exact absurd h (by simp)
  rename_i s hs
  refine ⟨s, hs, ?_⟩
  unfold RatchetState.nextMessageKey at h
  split at h
  · exact absurd h (by simp [Except.toOption])
  rename_i message hmessage
  split at h
  · exact absurd h (by simp [Except.toOption])
  split at h
  · exact absurd h (by simp [Except.toOption])
  · rw [hmessage]; exact h

/-- Without collisions in HKDF no two messages have the same key. -/
theorem messageKey_injective (hinj : Set.InjOn (expandInput hkdf) (chainInputs hkdf root))
    {i j : Nat} {key : Key32} (hi : messageKey hkdf root i = some key)
    (hj : messageKey hkdf root j = some key) : i = j := by
  obtain ⟨s, hs, hkey⟩ := messageKey_eq hi
  obtain ⟨t, ht, hkey'⟩ := messageKey_eq hj
  have heq := hinj (Or.inr ⟨i, s, hs, Or.inl rfl⟩) (Or.inr ⟨j, t, ht, Or.inl rfl⟩)
    (hkey.trans hkey'.symm)
  have hcounter := beBytes_injective (Prod.mk.inj (Prod.mk.inj heq).2).2
  rw [← chainState_counter hs, ← chainState_counter ht, hcounter]

/-- **The packets that open.**  A packet opens at a counter exactly when it is the sender's packet
    for that counter, with its associated data. -/
theorem opens_iff_genuine {sender : RatchetState} {sent : List Plain} {packets : List Bytes}
    {calls : List Call} (hsender : RatchetState.fromRoot hkdf root = .ok sender)
    (hsent : encryptAll hkdf aead sender sent = .ok packets)
    (hinj : Set.InjOn (expandInput hkdf) (chainInputs hkdf root))
    (haead : OpensOnlySent hkdf aead root sent calls) {call : Call} (hcall : call ∈ calls)
    (plaintext : Bytes) :
    Opens hkdf aead root call.counter call.packet call.aad plaintext ↔
      ∃ x, Genuine sent packets call x ∧ x.plaintext = plaintext := by
  have hchain := onChain_of_fromRoot hsender
  have hzero : sender.nextCounter.toNat = 0 := by
    have hstate : chainState hkdf root 0 = some sender := by rw [chainState, hsender]; rfl
    exact chainState_counter hstate
  have hspec := encryptAll_spec hchain hsent
  rw [hzero] at hspec
  constructor
  · rintro ⟨key, hkey, hopen⟩
    unfold RatchetState.decryptOnce at hopen
    split at hopen
    · exact absurd hopen (by simp)
    rename_i hlen
    split at hopen
    · exact absurd hopen (by simp)
    rename_i plaintext' hdec
    obtain rfl := Except.ok.inj hopen
    have hpacket : call.packet =
        (arrayOf 12 (call.packet.take 12)).toList ++ call.packet.drop 12 := by
      rw [toList_arrayOf (by rw [List.length_take]; omega), List.take_append_drop]
    obtain ⟨j, hj, hkey', henc⟩ :=
      (haead call hcall _ key hkey _ _ hpacket plaintext').mp hdec
    -- the key is that of one message only
    obtain rfl := messageKey_injective hinj hkey hkey'
    obtain ⟨key'', body, hkey'', hbody, hget⟩ := hspec _ _ hj
    rw [Nat.zero_add, hkey] at hkey''
    rw [← Option.some.inj hkey'', henc] at hbody
    rw [← Option.some.inj hbody, ← hpacket] at hget
    exact ⟨_, ⟨hj, hget, rfl⟩, rfl⟩
  · rintro ⟨x, ⟨hx, hget, haad⟩, rfl⟩
    obtain ⟨key, body, hkey, hbody, hget'⟩ := hspec _ _ hx
    rw [Nat.zero_add] at hkey
    rw [hget] at hget'
    have hpacket := Option.some.inj hget'
    have hdec := (haead call hcall _ key hkey _ _ hpacket x.plaintext).mpr
      ⟨call.counter.toNat, by rw [haad]; exact hx, hkey, by rw [haad]; exact hbody⟩
    refine ⟨key, hkey, ?_⟩
    have htake : call.packet.take 12 = x.nonce.toList := by
      rw [hpacket, List.take_left' (by simp)]
    have hdrop : call.packet.drop 12 = body := by
      rw [hpacket, List.drop_left' (by simp)]
    rw [RatchetState.decryptOnce, if_neg (by rw [hpacket]; simp), htake, hdrop, arrayOf_toList,
      hdec]

/-! ### The run of a receiver -/

/-- What happened so far and the state of the receiver: it follows a window whose spent numbers
    are the counters opened. -/
def Receives (hkdf : Hkdf) (root : Key32) (calls : List (Call × Except ReceiveError Bytes))
    (r : ReceiveRatchet) : Prop :=
  ∃ w, Follows hkdf root w r ∧ ∀ c : UInt64, w.Spent c.toNat ↔ c ∈ opened calls

theorem opened_concat (calls : List (Call × Except ReceiveError Bytes)) (call : Call)
    (result : Except ReceiveError Bytes) :
    opened (calls ++ [(call, result)]) =
      opened calls ++ if result.isOk then [call.counter] else [] := by
  rw [opened, List.filterMap_append]
  cases result <;> rfl

/-- **One call keeps the invariant of the receiver.** -/
theorem receive_step {calls : List (Call × Except ReceiveError Bytes)} {r : ReceiveRatchet}
    (h : Receives hkdf root calls r) (call : Call) :
    Receives hkdf root (calls ++ [(call, (receive hkdf aead r call).1)])
      (receive hkdf aead r call).2 := by
  obtain ⟨w, hfollows, hspent⟩ := h
  rcases hfollows.decrypt aead call.counter call.packet call.aad with
    ⟨w', plaintext, r', haccept, -, hdec, hfollows'⟩ | ⟨e, hdec, -⟩
  · rw [receive, hdec]
    refine ⟨w', hfollows', fun c => ?_⟩
    rw [Window.spent_accept_iff haccept, hspent, UInt64.toNat_inj, opened_concat]
    simp [Except.isOk, Except.toBool]
  · rw [receive, hdec]
    exact ⟨w, hfollows, fun c => by rw [hspent, opened_concat]; simp [Except.isOk, Except.toBool]⟩

theorem run_receives (aead : Aead) {receiver : ReceiveRatchet}
    (h : ReceiveRatchet.fromRoot hkdf root = .ok receiver) (calls : List Call) :
    Receives hkdf root (trace (receive hkdf aead) receiver calls)
      (after (receive hkdf aead) receiver calls) := by
  refine history_invariant_of_step (R := Receives hkdf root)
    ⟨.start, follows_fromRoot h, fun c => ?_⟩ (fun _ _ call hr => receive_step hr call) calls
  simp [opened]

/-- **Delivery in any order.**  The receiver answers a call with the plaintext of message `i` when
    it presents packet `i` at counter `i` with its associated data, `i` has not been opened yet
    and is at most 256 ahead of the expected counter.  Any other call fails, and leaves the
    receiver exactly as it was. -/
theorem decrypts_in_any_order (sent : List Plain) (packets : List Bytes) (calls : List Call)
    (sender : RatchetState) (receiver : ReceiveRatchet)
    (hsender : RatchetState.fromRoot hkdf root = .ok sender)
    (hreceiver : ReceiveRatchet.fromRoot hkdf root = .ok receiver)
    (hsent : encryptAll hkdf aead sender sent = .ok packets)
    (hinj : Set.InjOn (expandInput hkdf) (chainInputs hkdf root))
    (haead : OpensOnlySent hkdf aead root sent calls) :
    ∀ pre call post, calls = pre ++ call :: post →
      let r := after (receive hkdf aead) receiver pre
      let delivered := opened (trace (receive hkdf aead) receiver pre)
      let due := call.counter ∉ delivered ∧
        call.counter.toNat ≤ r.expectedCounter.toNat + 256
      (∀ x, Genuine sent packets call x → due →
        (receive hkdf aead r call).1 = .ok x.plaintext) ∧
      ((¬ ∃ x, Genuine sent packets call x ∧ due) →
        ∃ e, receive hkdf aead r call = (.error e, r)) := by
  intro pre call post hcalls
  dsimp only
  obtain ⟨w, hfollows, hspent⟩ := run_receives aead hreceiver pre
  have hmem : call ∈ calls := by rw [hcalls]; simp
  have hopens := opens_iff_genuine hsender hsent hinj haead hmem
  -- the window accepts the counter exactly when it is due
  have hdue : (w.accept 256 call.counter.toNat).isSome ↔ _ := Window.accept_isSome_iff
  rw [hspent, hfollows.next] at hdue
  rcases hfollows.decrypt aead call.counter call.packet call.aad with
    ⟨w', plaintext, r', haccept, hopen, hdec, -⟩ | ⟨e, hdec, hreject⟩
  · rw [haccept, Option.isSome_some] at hdue
    obtain ⟨x, hx, rfl⟩ := (hopens plaintext).mp hopen
    refine ⟨fun y hy _ => ?_, fun hnone => absurd ⟨x, hx, hdue.mp rfl⟩ hnone⟩
    rw [receive, hdec, Option.some.inj (hx.1.symm.trans hy.1)]
  · refine ⟨fun x hx hd => ?_, fun _ => ⟨e, hdec⟩⟩
    rw [hreject _ ((hopens _).mpr ⟨x, hx, rfl⟩)] at hdue
    exact absurd (hdue.mpr hd) (by simp)

/-! ### A run with the sample primitives -/

/-- The sample HKDF does not collide on the inputs of a chain. -/
theorem sampleHkdf_injOn (root : Key32) :
    Set.InjOn (expandInput sampleHkdf) (chainInputs sampleHkdf root) := by
  have hstate {i j : Nat} {s t : RatchetState} (hs : chainState sampleHkdf root i = some s)
      (ht : chainState sampleHkdf root j = some t)
      (h : beBytes s.nextCounter = beBytes t.nextCounter) : s = t := by
    have hij : i = j := by
      rw [← chainState_counter hs, ← chainState_counter ht, beBytes_injective h]
    rw [hij, ht] at hs
    exact (Option.some.inj hs).symm
  -- the first input differs from all others in length, the two of a state in their salt
  have hinit (c : UInt64) : ascii "initial-chain" ≠ beBytes c := by
    intro h
    have := congrArg List.length h
    rw [length_beBytes] at this
    exact absurd this (by decide)
  have hsalt : UInt8.ofNat messageDomain.length ≠ UInt8.ofNat chainDomain.length := by decide
  have hlong : (ascii "initial-chain").length ≤ 30 := by decide
  have hshort (c : UInt64) : (beBytes c).length ≤ 30 := by rw [length_beBytes]; decide
  rintro x (rfl | ⟨i, s, hs, rfl | rfl⟩) y (rfl | ⟨j, t, ht, rfl | rfl⟩) h
  · rfl
  · exact absurd (sampleHkdf_injective h hlong (hshort _)).2 (hinit _)
  · exact absurd (sampleHkdf_injective h hlong (hshort _)).2 (hinit _)
  · exact absurd (sampleHkdf_injective h (hshort _) hlong).2.symm (hinit _)
  · rw [hstate hs ht (sampleHkdf_injective h (hshort _) (hshort _)).2]
  · exact absurd (sampleHkdf_injective h (hshort _) (hshort _)).1 hsalt
  · exact absurd (sampleHkdf_injective h (hshort _) hlong).2.symm (hinit _)
  · exact absurd (sampleHkdf_injective h (hshort _) (hshort _)).1.symm hsalt
  · rw [hstate hs ht (sampleHkdf_injective h (hshort _) (hshort _)).2]

/-- The sample AEAD opens only what was sent, when every packet presented is one of the sender's
    with its associated data, at whatever counter. -/
theorem sampleAead_opensOnlySent {root : Key32} {sender : RatchetState} {sent : List Plain}
    {packets : List Bytes} {calls : List Call}
    (hsender : RatchetState.fromRoot sampleHkdf root = .ok sender)
    (hsent : encryptAll sampleHkdf sampleAead sender sent = .ok packets)
    (hcalls : ∀ call ∈ calls, ∃ (j : Nat) (x : Plain), sent[j]? = some x ∧
      packets[j]? = some call.packet ∧ call.aad = x.aad) :
    OpensOnlySent sampleHkdf sampleAead root sent calls := by
  intro call hcall i key _ nonce body hpacket plaintext
  rw [sampleAead_decrypt_iff]
  obtain ⟨j, x, hx, hget, haad⟩ := hcalls call hcall
  obtain ⟨key', body', hkey', hbody', hget'⟩ :=
    encryptAll_spec (onChain_of_fromRoot hsender) hsent j x hx
  have hzero : sender.nextCounter.toNat = 0 := by
    have hstate : chainState sampleHkdf root 0 = some sender := by
      rw [chainState, hsender]; rfl
    exact chainState_counter hstate
  rw [hzero, Nat.zero_add] at hkey'
  rw [hget, hpacket] at hget'
  -- the packet presented is one that was sent, so it carries its own key
  obtain ⟨hnonce, rfl⟩ := List.append_inj (Option.some.inj hget') (by simp)
  obtain rfl := Vector.toList_inj.mp hnonce
  constructor
  · intro henc
    rw [haad] at henc ⊢
    obtain ⟨rfl, rfl⟩ := sampleAead_encrypt_injective henc hbody'
    exact ⟨j, hx, hkey', henc⟩
  · rintro ⟨_, _, _, henc⟩
    exact henc

/-- Two messages to send. -/
def samplePlains : List Plain :=
  [⟨ascii "zero", ascii "aad", zeros 12⟩, ⟨ascii "one", ascii "aad", zeros 12⟩]

/-- The sender's and the receiver's state for the root of zeros. -/
def sampleSender : RatchetState := ⟨arrayOf 32 ([13, 13] ++ ascii "initial-chain"), 0⟩

def sampleReceiver : ReceiveRatchet := ⟨sampleSender, ∅⟩

/-- The packets of the two messages. -/
def samplePackets : List Bytes :=
  ((encryptAll sampleHkdf sampleAead sampleSender samplePlains).toOption).getD []

def presentZero : Call := ⟨0, samplePackets.getD 0 [], ascii "aad"⟩

def presentOne : Call := ⟨1, samplePackets.getD 1 [], ascii "aad"⟩

/-- Packet one arrives first, then packet zero, twice: the replay fails and changes nothing. -/
theorem sample_delivery :
    let run := receive sampleHkdf sampleAead
    (run sampleReceiver presentOne).1 = .ok (ascii "one") ∧
    (run (after run sampleReceiver [presentOne]) presentZero).1 = .ok (ascii "zero") ∧
    ∃ e, run (after run sampleReceiver [presentOne, presentZero]) presentZero =
      (.error e, after run sampleReceiver [presentOne, presentZero]) := by
  intro run
  have hsender : RatchetState.fromRoot sampleHkdf (zeros 32) = .ok sampleSender := by rfl
  have hsent : encryptAll sampleHkdf sampleAead sampleSender samplePlains = .ok samplePackets := by
    rfl
  have hcalls : ∀ call ∈ [presentOne, presentZero, presentZero],
      ∃ (j : Nat) (x : Plain), samplePlains[j]? = some x ∧
        samplePackets[j]? = some call.packet ∧ call.aad = x.aad := by
    have hzero : ∃ (j : Nat) (x : Plain), samplePlains[j]? = some x ∧
        samplePackets[j]? = some presentZero.packet ∧ presentZero.aad = x.aad :=
      ⟨0, ⟨ascii "zero", ascii "aad", zeros 12⟩, by decide⟩
    simp only [List.forall_mem_cons]
    exact ⟨⟨1, ⟨ascii "one", ascii "aad", zeros 12⟩, by decide⟩, hzero, hzero, by simp⟩
  have hrun := decrypts_in_any_order samplePlains samplePackets _ sampleSender
    sampleReceiver hsender (by rfl) hsent (sampleHkdf_injOn _)
    (sampleAead_opensOnlySent hsender hsent hcalls)
  have hone : (run sampleReceiver presentOne).1 = .ok (ascii "one") :=
    (hrun [] presentOne [presentZero, presentZero] rfl).1
      ⟨ascii "one", ascii "aad", zeros 12⟩ (by decide) (by decide)
  have hopened : opened (trace run sampleReceiver [presentOne]) = [1] := by
    rw [trace_cons, hone]; rfl
  have hzero : (run (after run sampleReceiver [presentOne]) presentZero).1 = .ok (ascii "zero") :=
    (hrun [presentOne] presentZero [presentZero] rfl).1
      ⟨ascii "zero", ascii "aad", zeros 12⟩ (by decide)
      ⟨by rw [hopened]; decide, Nat.zero_le _⟩
  have hopened' : opened (trace run sampleReceiver [presentOne, presentZero]) = [1, 0] := by
    rw [trace_cons, trace_cons, hone]
    exact congrArg (fun r => opened [(presentOne, .ok _), (presentZero, r)]) hzero
  refine ⟨hone, hzero, (hrun [presentOne, presentZero] presentZero [] rfl).2 ?_⟩
  rintro ⟨_, _, hnew, _⟩
  rw [hopened'] at hnew
  exact hnew (by decide)

end

end NexaMessenger.Ratchet
