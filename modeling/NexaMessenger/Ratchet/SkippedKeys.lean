import NexaMessenger.Ratchet.Delivery
import NexaMessenger.Ratchet.Snapshot

namespace NexaMessenger.Ratchet

open Lib

/-!
# Ratchet — how many keys are skipped

`key_for` limits one jump to 256 messages and `snapshot` the number of stored keys to 256.
Nothing limits the sum of several jumps, so a receiver can hold more keys than it can store.
`skipped_bounded_iff` says of any run exactly when that does not happen: at every packet that
opens ahead of the expected counter, the keys already stored and the jump together are at
most 256.
-/

/-- A call on a receiver, with the counter given or in a header. -/
inductive ReceiveOp
  | decrypt (counter : UInt64) (packet aad : Bytes)
  | decryptWithHeader (headerBytes packet aad : Bytes)
deriving DecidableEq

/-- The call of `decrypt` that an operation comes to, if its header decodes. -/
def ReceiveOp.call : ReceiveOp → Option Call
  | .decrypt counter packet aad => some ⟨counter, packet, aad⟩
  | .decryptWithHeader headerBytes packet aad =>
    match RatchetHeader.decode headerBytes with
    | .error _ => none
    | .ok header => some ⟨header.messageCounter, packet, aad⟩

section
variable (hkdf : Hkdf) (aead : Aead)

def receiveOp (r : ReceiveRatchet) : ReceiveOp → Except ReceiveError Bytes × ReceiveRatchet
  | .decrypt counter packet aad => r.decrypt hkdf aead counter packet aad
  | .decryptWithHeader headerBytes packet aad =>
    r.decryptWithHeader hkdf aead headerBytes packet aad

/-- The state can be persisted: at most 256 keys are stored, and a snapshot succeeds. -/
def Persistable (r : ReceiveRatchet) : Prop :=
  r.skipped.size ≤ maxSnapshotSkipped ∧ ∃ b, r.snapshot = .ok b

/-- If the packet opens, at a counter within the limit of one jump, then the keys the jump stores
    fit beside those already stored. -/
def JumpFits (root : Key32) (r : ReceiveRatchet) (call : Call) : Prop :=
  (∃ plaintext, Opens hkdf aead root call.counter call.packet call.aad plaintext) →
    r.expectedCounter ≤ call.counter →
    call.counter.toNat ≤ r.expectedCounter.toNat + maxSkip.toNat →
    r.skipped.size + (call.counter.toNat - r.expectedCounter.toNat) ≤ maxSnapshotSkipped

end

section

variable {hkdf : Hkdf} {aead : Aead} {root : Key32} {w : Window} {r : ReceiveRatchet}

/-- Only the number of keys decides whether a state can be persisted. -/
theorem persistable_iff : Persistable r ↔ r.skipped.size ≤ maxSnapshotSkipped := by
  refine ⟨fun h => h.1, fun h => ⟨h, ?_⟩⟩
  rw [ReceiveRatchet.snapshot, if_neg (by omega)]
  exact ⟨_, rfl⟩

theorem receiveOp_eq (op : ReceiveOp) :
    (receiveOp hkdf aead r op).2 =
      match op.call with
      | none => r
      | some call => (receive hkdf aead r call).2 := by
  cases op with
  | decrypt counter packet aad => rfl
  | decryptWithHeader headerBytes packet aad =>
    rw [receiveOp, ReceiveRatchet.decryptWithHeader, ReceiveOp.call]
    cases RatchetHeader.decode headerBytes <;> rfl

/-- **What one call does to the number of keys**, in a state that follows a window. -/
theorem Follows.persistable_step (h : Follows hkdf root w r) (hr : Persistable r) (call : Call) :
    (∃ w', Follows hkdf root w' (receive hkdf aead r call).2) ∧
    (Persistable (receive hkdf aead r call).2 ↔ JumpFits hkdf aead root r call) := by
  rw [persistable_iff] at *
  have hsize := h.size
  have hnext : w.next = r.expectedCounter.toNat := h.next
  have hmax : maxSkip.toNat = 256 := rfl
  rcases h.decrypt aead call.counter call.packet call.aad with
    ⟨w', plaintext, r', haccept, hopen, hdec, h'⟩ | ⟨e, hdec, hreject⟩
  · rw [receive, hdec]
    refine ⟨⟨w', h'⟩, ?_⟩
    have hsize' := h'.size
    rcases Window.card_accept haccept with ⟨hlt, hcard⟩ | ⟨hle, hcard⟩
    · -- a stored key is used up
      refine iff_of_true (by show r'.skipped.size ≤ _; omega) fun _ hexp _ => ?_
      rw [word_le_iff] at hexp
      omega
    · have hnear := (Window.accept_isSome_iff.mp (Option.isSome_of_eq_some haccept)).2
      constructor
      · intro hfits _ _ _
        dsimp only at hfits
        omega
      · intro hfits
        have := hfits ⟨plaintext, hopen⟩ (by rw [word_le_iff]; omega) (by omega)
        dsimp only
        omega
  · rw [receive, hdec]
    refine ⟨⟨w, h⟩, iff_of_true hr ?_⟩
    rintro ⟨plaintext, hopen⟩ hexp hnear
    -- a packet that opens within the limit is not refused
    have hnone := hreject plaintext hopen
    rw [word_le_iff] at hexp
    rw [Window.accept_of_le (by omega), if_pos (by omega)] at hnone
    exact absurd hnone (by simp)

theorem run_follows (aead : Aead) {receiver : ReceiveRatchet}
    (h : ReceiveRatchet.fromRoot hkdf root = .ok receiver) (ops : List ReceiveOp) :
    ∃ w, Follows hkdf root w (after (receiveOp hkdf aead) receiver ops) := by
  refine after_invariant (P := fun r => ∃ w, Follows hkdf root w r) (fun r op hr => ?_)
    ⟨.start, follows_fromRoot h⟩ ops
  obtain ⟨w, hfollows⟩ := hr
  rw [receiveOp_eq]
  cases op.call with
  | none => exact ⟨w, hfollows⟩
  | some call =>
    rcases hfollows.decrypt aead call.counter call.packet call.aad with
      ⟨w', _, r', _, _, hdec, h'⟩ | ⟨e, hdec, _⟩
    · dsimp only; rw [receive, hdec]; exact ⟨w', h'⟩
    · dsimp only; rw [receive, hdec]; exact ⟨w, hfollows⟩

/-- **Bounded keys, exactly.**  Every state of a run can be persisted if and only if every jump
    of the run fits. -/
theorem skipped_bounded_iff (receiver : ReceiveRatchet)
    (hreceiver : ReceiveRatchet.fromRoot hkdf root = .ok receiver) (ops : List ReceiveOp) :
    (∀ pre, pre <+: ops → Persistable (after (receiveOp hkdf aead) receiver pre)) ↔
    ∀ pre op post, ops = pre ++ op :: post → ∀ call, op.call = some call →
      JumpFits hkdf aead root (after (receiveOp hkdf aead) receiver pre) call := by
  apply states_iff (P := Persistable) (C := fun r (op : ReceiveOp) => ∀ call,
    op.call = some call → JumpFits hkdf aead root r call)
  · rw [persistable_iff, (follows_fromRoot hreceiver).size]
    exact Nat.zero_le _
  · intro pre op hpre
    obtain ⟨w, hfollows⟩ := run_follows aead hreceiver pre
    rw [after_concat, receiveOp_eq]
    cases op.call with
    | none => simpa using hpre
    | some call => simpa using (hfollows.persistable_step hpre call).2

/-- A receiver that opened message one first can be persisted. -/
theorem one_jump_persistable :
    Persistable (after (receiveOp sampleHkdf sampleAead) sampleReceiver
      [.decrypt 1 presentOne.packet (ascii "aad")]) := by
  have hreceiver : ReceiveRatchet.fromRoot sampleHkdf (zeros 32) = .ok sampleReceiver := by rfl
  refine (skipped_bounded_iff sampleReceiver hreceiver _).mpr ?_ _ (List.prefix_refl _)
  intro pre op post hops call hcall
  cases pre with
  | nil =>
    obtain ⟨rfl, rfl⟩ := List.cons.inj hops
    obtain rfl := Option.some.inj hcall
    intro _ _ _
    show sampleReceiver.skipped.size + 1 ≤ maxSnapshotSkipped
    have hsize : sampleReceiver.skipped.size = 0 := (follows_fromRoot hreceiver).size
    rw [hsize]; decide
  | cons op' pre => exact absurd (congrArg List.length hops) (by simp)

/-! ### Two jumps that together skip too many

A sender has sent 514 messages; those numbered 256 and 513 arrive. -/

/-- The sender's packet for message `i`, with the sample primitives. -/
def samplePacket (i : Nat) : Bytes :=
  match chainState sampleHkdf (zeros 32) i with
  | none => []
  | some s =>
    ((s.encrypt sampleHkdf sampleAead (zeros 12) (ascii "text") (ascii "aad")).1.toOption).getD []

theorem samplePacket_opens {c : UInt64} (hc : c.toNat + 1 < 2 ^ 64) :
    Opens sampleHkdf sampleAead (zeros 32) c (samplePacket c.toNat) (ascii "aad")
      (ascii "text") := by
  have htotal (salt ikm info : Bytes) : (sampleHkdf.expand salt ikm info).isSome := rfl
  obtain ⟨s, hs⟩ := exists_chainState_of_total htotal (zeros 32) (i := c.toNat) (by omega)
  obtain ⟨key, s', hkey⟩ := nextMessageKey_of_total (s := s) htotal
    (by rw [chainState_counter hs]; exact hc)
  obtain ⟨body, hbody⟩ : ∃ body,
      sampleAead.encrypt key (zeros 12) (ascii "text") (ascii "aad") = some body := ⟨_, rfl⟩
  have hpacket : samplePacket c.toNat = (zeros 12).toList ++ body := by
    rw [samplePacket, hs]
    dsimp only
    rw [RatchetState.encrypt, hkey]
    dsimp only
    rw [hbody]
    rfl
  refine ⟨key, by rw [messageKey, hs]; dsimp only; rw [hkey]; rfl, ?_⟩
  have hlen : (zeros 12).toList.length = 12 := by simp
  rw [RatchetState.decryptOnce, hpacket, if_neg (by simp), List.take_left' hlen,
    List.drop_left' hlen, arrayOf_toList, sampleAead_decrypt_iff.mpr hbody]

/-- Opening message `c` ahead of the counter stores the keys of all messages in between. -/
theorem Follows.jump_size {r : ReceiveRatchet} {w : Window}
    (h : Follows sampleHkdf (zeros 32) w r) {c : UInt64} (hle : w.next ≤ c.toNat)
    (hnear : c.toNat ≤ w.next + 256) (hc : c.toNat + 1 < 2 ^ 64) :
    ∃ w' r', receiveOp sampleHkdf sampleAead r
        (.decrypt c (samplePacket c.toNat) (ascii "aad")) = (.ok (ascii "text"), r') ∧
      Follows sampleHkdf (zeros 32) w' r' ∧ w'.next = c.toNat + 1 ∧
      w'.missing.card = w.missing.card + (c.toNat - w.next) := by
  have hopens := samplePacket_opens hc
  have haccept : w.accept 256 c.toNat = some (w.jump c.toNat hle) := by
    rw [Window.accept_of_le hle, if_pos hnear]
  rcases h.decrypt sampleAead c (samplePacket c.toNat) (ascii "aad") with
    ⟨w', plaintext, r', haccept', ⟨key, hkey, hopen⟩, hdec, h'⟩ | ⟨e, _, hreject⟩
  · -- the packet opens to what was sealed
    obtain ⟨key', hkey', hopen'⟩ := hopens
    rw [hkey] at hkey'
    obtain rfl := Option.some.inj hkey'
    rw [hopen] at hopen'
    obtain rfl := Except.ok.inj hopen'
    have hcard := Window.card_accept haccept'
    rw [haccept] at haccept'
    obtain rfl := Option.some.inj haccept'
    exact ⟨_, r', hdec, h', rfl, by omega⟩
  · rw [hreject _ hopens] at haccept
    exact absurd haccept (by simp)

/-- **The failing run.**  Both packets open, 512 keys are stored, and the state cannot be
    persisted any more. -/
theorem two_jumps_not_persistable :
    let r := after (receiveOp sampleHkdf sampleAead) sampleReceiver
      [.decrypt 256 (samplePacket 256) (ascii "aad"),
        .decrypt 513 (samplePacket 513) (ascii "aad")]
    r.skipped.size = 512 ∧ r.snapshot = .error .tooManySkipped := by
  have hstart : Follows sampleHkdf (zeros 32) .start sampleReceiver := follows_fromRoot (by rfl)
  obtain ⟨w, r, hfirst, hr, hnext, hcard⟩ :=
    hstart.jump_size (c := 256) (by decide) (by decide) (by decide)
  have h513 : (513 : UInt64).toNat = 513 := rfl
  have h256 : (256 : UInt64).toNat = 256 := rfl
  obtain ⟨w', r', hsecond, hr', -, hcard'⟩ :=
    hr.jump_size (c := 513) (by omega) (by omega) (by decide)
  -- 256 keys for each of the two jumps
  have hsize : r'.skipped.size = 512 := by
    rw [hr'.size, hcard', hcard, hnext]; rfl
  rw [after_cons, after_cons, after_nil]
  dsimp only
  rw [← h256, hfirst]
  dsimp only
  rw [← h513, hsecond]
  exact ⟨hsize, by rw [ReceiveRatchet.snapshot, if_pos (by rw [hsize]; decide)]⟩

end

end NexaMessenger.Ratchet
