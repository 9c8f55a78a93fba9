import NexaMessenger.Ratchet.SkippedKeys
import NexaMessenger.Storage.Recovery

namespace NexaMessenger.Storage

open Lib Ratchet

/-!
# Storage — replay protection across restarts

A receiver that checkpoints and restarts: a checkpoint saves a snapshot in the journal, a
restart drops the ratchet and rebuilds it from the newest record.

`checkpointed_stays_rejected` says what survives: a counter that was opened before a
checkpoint, in the state which that checkpoint saved, is never opened again, through any
number of later restarts.  A counter opened only in a state that a restart has dropped is not
protected by a later checkpoint (`dropped_decrypt_is_repeated`).

The proof needs no list of opened counters.  A property `Q` of windows that acceptances keep
(such as "counter `c` is spent") is carried through the run in two places, the ratchet in
memory and the newest record of the journal.
-/

/-- A receiver with its journal directory; the ratchet is missing after a failed restart. -/
structure Client where
  ratchet : Option ReceiveRatchet
  dir : Dir

inductive ClientOp
  | decrypt (call : Call)
  | checkpoint (nonce : U8Array 12)
  | restart
deriving DecidableEq

inductive ClientAnswer
  | decrypted (result : Except ReceiveError Bytes)
  | checkpointed (done : Bool)
  | restarted (done : Bool)
  | noRatchet

section
variable (hkdf : Hkdf) (packetAead journalAead : Aead) (namePrefix : Bytes) (key : Key32)

/-- One operation.  A checkpoint is done when `snapshot` and `save` both return `Ok`; a restart when
    `load` and `from_snapshot` do. -/
def clientStep (c : Client) : ClientOp → ClientAnswer × Client
  | .decrypt call =>
    match c.ratchet with
    | none => (.noRatchet, c)
    | some r =>
      let (result, r') := receive hkdf packetAead r call
      (.decrypted result, { c with ratchet := some r' })
  | .checkpoint nonce =>
    match c.ratchet with
    | none => (.noRatchet, c)
    | some r =>
      match r.snapshot with
      | .error _ => (.checkpointed false, c)
      | .ok snapshot =>
        match save journalAead namePrefix c.dir ⟨key, nonce, snapshot⟩ with
        | (.error _, dir) => (.checkpointed false, { c with dir })
        | (.ok _, dir) => (.checkpointed true, { c with dir })
  | .restart =>
    match load journalAead namePrefix c.dir key with
    | .error _ => (.restarted false, { c with ratchet := none })
    | .ok (_, snapshot) =>
      match ReceiveRatchet.fromSnapshot snapshot with
      | .error _ => (.restarted false, { c with ratchet := none })
      | .ok r => (.restarted true, { c with ratchet := some r })

/-- The ratchet follows a window with property `Q`, from whatever root it was started. -/
def Tracks (Q : Window → Prop) (r : ReceiveRatchet) : Prop :=
  ∃ root w, Follows hkdf root w r ∧ Q w

/-- The ratchet in memory follows a window with property `Q`. -/
def InMemory (Q : Window → Prop) (c : Client) : Prop :=
  ∀ r, c.ratchet = some r → Tracks hkdf Q r

/-- The ratchet that a restart brings back from the journal, if any, follows a window with
    property `Q`. -/
def InJournal (Q : Window → Prop) (dir : Dir) : Prop :=
  ∀ generation snapshot r, load journalAead namePrefix dir key = .ok (generation, snapshot) →
    ReceiveRatchet.fromSnapshot snapshot = .ok r → Tracks hkdf Q r

end

/-- Acceptances keep the property. -/
def Stable (Q : Window → Prop) : Prop :=
  ∀ w c w', Q w → w.accept 256 c = some w' → Q w'

theorem stable_true : Stable fun _ => True := fun _ _ _ _ _ => trivial

theorem stable_spent (c : Nat) : Stable fun w => w.Spent c := fun _ _ _ h haccept =>
  (Window.spent_accept_iff haccept).mpr (Or.inl h)

section

variable {hkdf : Hkdf} {packetAead journalAead : Aead} {namePrefix : Bytes} {key root : Key32}
  {Q : Window → Prop} {c : Client}

/-- Decrypting keeps the property of the ratchet in memory. -/
theorem InMemory.decrypt (hQ : Stable Q) (h : InMemory hkdf Q c) (call : Call) :
    InMemory hkdf Q
      (clientStep hkdf packetAead journalAead namePrefix key c (.decrypt call)).2 := by
  unfold clientStep
  cases hr : c.ratchet with
  | none => exact h
  | some r =>
    obtain ⟨root, w, hfollows, hw⟩ := h r hr
    intro r' hr'
    obtain rfl := Option.some.inj hr'
    rcases hfollows.decrypt packetAead call.counter call.packet call.aad with
      ⟨w', _, r'', haccept, _, hdec, hfollows'⟩ | ⟨_, hdec, _⟩
    · rw [receive, hdec]
      exact ⟨root, w', hfollows', hQ w _ w' hw haccept⟩
    · rw [receive, hdec]
      exact ⟨root, w, hfollows, hw⟩

/-- What a checkpoint does: the ratchet stays; the journal stays too, or its newest record is the
    snapshot of the ratchet. -/
theorem checkpoint_cases (haead : OpensSealed journalAead) {c c' : Client} {nonce : U8Array 12}
    {answer : ClientAnswer}
    (h : clientStep hkdf packetAead journalAead namePrefix key c (.checkpoint nonce) =
      (answer, c')) :
    c'.ratchet = c.ratchet ∧
    ((answer ≠ .checkpointed true ∧ c'.dir = c.dir) ∨
      ∃ r snapshot generation, c.ratchet = some r ∧ r.snapshot = .ok snapshot ∧
        load journalAead namePrefix c'.dir key = .ok (generation, snapshot)) := by
  simp only [clientStep] at h
  cases hr : c.ratchet with
  | none =>
    rw [hr] at h
    obtain ⟨rfl, rfl⟩ := Prod.mk.inj h
    exact ⟨hr, Or.inl ⟨by simp, rfl⟩⟩
  | some r =>
    rw [hr] at h
    dsimp only at h
    cases hsnapshot : r.snapshot with
    | error e =>
      rw [hsnapshot] at h
      obtain ⟨rfl, rfl⟩ := Prod.mk.inj h
      exact ⟨hr, Or.inl ⟨by simp, rfl⟩⟩
    | ok snapshot =>
      rw [hsnapshot] at h
      dsimp only at h
      -- only a save that commits changes what a load returns
      rcases save_cases journalAead namePrefix c.dir ⟨key, nonce, snapshot⟩ with
        ⟨generation, encrypted, hnext, hseal, hsave⟩ | ⟨e, hsave⟩
      · rw [hsave] at h
        obtain ⟨rfl, rfl⟩ := Prod.mk.inj h
        have hload := load_committed haead hnext hseal
        dsimp only at hload
        exact ⟨rfl, Or.inr ⟨r, snapshot, generation, rfl, hsnapshot, hload⟩⟩
      · rw [hsave] at h
        obtain ⟨rfl, rfl⟩ := Prod.mk.inj h
        exact ⟨rfl, Or.inl ⟨by simp, rfl⟩⟩

/-- What is read back from a snapshot is the ratchet it was made of. -/
theorem eq_of_snapshot {r r' : ReceiveRatchet} {snapshot : Bytes} (h : r.snapshot = .ok snapshot)
    (h' : ReceiveRatchet.fromSnapshot snapshot = .ok r') : r' = r := by
  rw [fromSnapshot_snapshot h] at h'
  split at h'
  · exact absurd h' (by simp)
  · exact (Except.ok.inj h').symm

/-- A checkpoint that is done brings the property from memory to the journal. -/
theorem InMemory.checkpoint (haead : OpensSealed journalAead) (h : InMemory hkdf Q c)
    {nonce : U8Array 12} {c' : Client}
    (hdone : clientStep hkdf packetAead journalAead namePrefix key c (.checkpoint nonce) =
      (.checkpointed true, c')) :
    InJournal hkdf journalAead namePrefix key Q c'.dir := by
  obtain ⟨-, ⟨hnot, -⟩ | ⟨r, snapshot, generation, hr, hsnapshot, hload⟩⟩ :=
    checkpoint_cases haead hdone
  · exact absurd rfl hnot
  · intro generation' snapshot' r' hload' hr'
    rw [hload] at hload'
    obtain ⟨-, rfl⟩ := Prod.mk.inj (Except.ok.inj hload')
    rw [eq_of_snapshot hsnapshot hr']
    exact h r hr

/-- **One operation keeps a stable property in memory and in the journal.** -/
theorem clientStep_keeps (hQ : Stable Q) (haead : OpensSealed journalAead)
    (h : InMemory hkdf Q c) (hjournal : InJournal hkdf journalAead namePrefix key Q c.dir)
    (op : ClientOp) :
    InMemory hkdf Q (clientStep hkdf packetAead journalAead namePrefix key c op).2 ∧
    InJournal hkdf journalAead namePrefix key Q
      (clientStep hkdf packetAead journalAead namePrefix key c op).2.dir := by
  cases op with
  | decrypt call =>
    refine ⟨h.decrypt hQ call, ?_⟩
    unfold clientStep
    cases c.ratchet with
    | none => exact hjournal
    | some r => exact hjournal
  | checkpoint nonce =>
    rcases hstep : clientStep hkdf packetAead journalAead namePrefix key c (.checkpoint nonce) with
      ⟨answer, c'⟩
    obtain ⟨hsame, ⟨-, hdir⟩ | ⟨r, snapshot, generation, hr, hsnapshot, hload⟩⟩ :=
      checkpoint_cases haead hstep
    · exact ⟨by rw [InMemory, hsame]; exact h, by rw [InJournal, hdir]; exact hjournal⟩
    · refine ⟨by rw [InMemory, hsame]; exact h, fun generation' snapshot' r' hload' hr' => ?_⟩
      rw [hload] at hload'
      obtain ⟨-, rfl⟩ := Prod.mk.inj (Except.ok.inj hload')
      rw [eq_of_snapshot hsnapshot hr']
      exact h r hr
  | restart =>
    unfold clientStep
    -- the restart brings the property from the journal to memory
    cases hload : load journalAead namePrefix c.dir key with
    | error e => exact ⟨fun r hr => absurd hr (by simp), hjournal⟩
    | ok record =>
      obtain ⟨generation, snapshot⟩ := record
      dsimp only
      cases hr : ReceiveRatchet.fromSnapshot snapshot with
      | error e => exact ⟨fun r hr => absurd hr (by simp), hjournal⟩
      | ok r =>
        refine ⟨fun r' hr' => ?_, hjournal⟩
        obtain rfl := Option.some.inj hr'
        exact hjournal generation snapshot _ hload hr

/-- Without a restart the ratchet in memory keeps a stable property, whatever the journal holds. -/
theorem InMemory.after_no_restart (packetAead : Aead) (namePrefix : Bytes) (key : Key32)
    (hQ : Stable Q) (haead : OpensSealed journalAead) (h : InMemory hkdf Q c)
    {ops : List ClientOp} (hops : ClientOp.restart ∉ ops) :
    InMemory hkdf Q
      (after (clientStep hkdf packetAead journalAead namePrefix key) c ops) := by
  induction ops generalizing c with
  | nil => exact h
  | cons op ops ih =>
    obtain ⟨hop, hops⟩ := List.ne_and_not_mem_of_not_mem_cons hops
    refine ih ?_ hops
    cases op with
    | decrypt call => exact h.decrypt hQ call
    | checkpoint nonce =>
      rcases hstep :
          clientStep hkdf packetAead journalAead namePrefix key c (.checkpoint nonce) with
        ⟨answer, c'⟩
      show InMemory hkdf Q (clientStep hkdf packetAead journalAead namePrefix key c _).2
      rw [hstep, InMemory, (checkpoint_cases haead hstep).1]
      exact h
    | restart => exact absurd rfl hop

/-- A run keeps a stable property in memory and in the journal. -/
theorem run_keeps (packetAead : Aead) (hQ : Stable Q) (haead : OpensSealed journalAead)
    (h : InMemory hkdf Q c) (hjournal : InJournal hkdf journalAead namePrefix key Q c.dir)
    (ops : List ClientOp) :
    InMemory hkdf Q (after (clientStep hkdf packetAead journalAead namePrefix key) c ops) ∧
    InJournal hkdf journalAead namePrefix key Q
      (after (clientStep hkdf packetAead journalAead namePrefix key) c ops).dir :=
  after_invariant
    (P := fun c => InMemory hkdf Q c ∧ InJournal hkdf journalAead namePrefix key Q c.dir)
    (fun _ op hs => clientStep_keeps hQ haead hs.1 hs.2 op) ⟨h, hjournal⟩ ops

/-- A successful decrypt spends its counter in memory. -/
theorem InMemory.spent_of_decrypted (h : InMemory hkdf (fun _ => True) c) {call : Call}
    {plaintext : Bytes} {c' : Client}
    (hdec : clientStep hkdf packetAead journalAead namePrefix key c (.decrypt call) =
      (.decrypted (.ok plaintext), c')) :
    InMemory hkdf (fun w => w.Spent call.counter.toNat) c' := by
  simp only [clientStep] at hdec
  cases hr : c.ratchet with
  | none => rw [hr] at hdec; exact absurd (Prod.mk.inj hdec).1 (by simp)
  | some r =>
    rw [hr] at hdec
    dsimp only at hdec
    obtain ⟨root, w, hfollows, -⟩ := h r hr
    obtain ⟨hresult, rfl⟩ := Prod.mk.inj hdec
    intro r' hr'
    obtain rfl := Option.some.inj hr'
    rcases hfollows.decrypt packetAead call.counter call.packet call.aad with
      ⟨w', _, r'', haccept, _, hok, hfollows'⟩ | ⟨e, hfail, _⟩
    · rw [receive, hok]
      exact ⟨root, w', hfollows', (Window.spent_accept_iff haccept).mpr (Or.inr rfl)⟩
    · rw [receive, hfail] at hresult
      exact absurd (ClientAnswer.decrypted.inj hresult) (by simp)

/-- A counter spent in memory is not opened. -/
theorem InMemory.not_decrypted {call : Call}
    (h : InMemory hkdf (fun w => w.Spent call.counter.toNat) c) (plaintext : Bytes) :
    (clientStep hkdf packetAead journalAead namePrefix key c (.decrypt call)).1 ≠
      .decrypted (.ok plaintext) := by
  simp only [clientStep]
  cases hr : c.ratchet with
  | none => simp
  | some r =>
    obtain ⟨root, w, hfollows, hspent⟩ := h r hr
    rcases hfollows.decrypt packetAead call.counter call.packet call.aad with
      ⟨w', _, r', haccept, _⟩ | ⟨e, hfail, _⟩
    · rw [Window.accept_of_spent hspent] at haccept
      exact absurd haccept (by simp)
    · dsimp only
      rw [receive, hfail]
      simp

/-- **Replay protection across restarts.**  The run starts with a fresh receiver; if it restarts
    before the counter is opened, then what the journal brings back at the start, if anything, is
    the state of a receive ratchet.  A counter is opened; with no restart in between, a checkpoint
    is done; from then on no call opens that counter, whatever checkpoints and restarts come in
    between. -/
theorem checkpointed_stays_rejected {receiver : ReceiveRatchet} {dir : Dir}
    (hreceiver : ReceiveRatchet.fromRoot hkdf root = .ok receiver)
    (haead : OpensSealed journalAead) (pre mid post : List ClientOp)
    (hjournal : ClientOp.restart ∈ pre →
      InJournal hkdf journalAead namePrefix key (fun _ => True) dir)
    (call call' : Call) (nonce : U8Array 12) :
    let run := clientStep hkdf packetAead journalAead namePrefix key
    let reached := after run ⟨some receiver, dir⟩
    (∃ plaintext, (run (reached pre) (.decrypt call)).1 = .decrypted (.ok plaintext)) →
    ClientOp.restart ∉ mid →
    (run (reached (pre ++ .decrypt call :: mid)) (.checkpoint nonce)).1 = .checkpointed true →
    call'.counter = call.counter →
    ∀ plaintext, (run (reached (pre ++ .decrypt call :: mid ++ .checkpoint nonce :: post))
      (.decrypt call')).1 ≠ .decrypted (.ok plaintext) := by
  intro run reached ⟨plaintext, hopened⟩ hmid hdone hcounter
  -- the ratchet follows some window all along
  have hstart : InMemory hkdf (fun _ => True) ⟨some receiver, dir⟩ := by
    intro r hr
    obtain rfl := Option.some.inj hr
    exact ⟨root, .start, follows_fromRoot hreceiver, trivial⟩
  have hpre : InMemory hkdf (fun _ => True) (reached pre) := by
    by_cases hrestart : ClientOp.restart ∈ pre
    · exact (run_keeps packetAead stable_true haead hstart (hjournal hrestart) pre).1
    · exact hstart.after_no_restart packetAead namePrefix key stable_true haead hrestart
  -- the counter is spent in memory from the decrypt to the checkpoint
  rcases hdec : run (reached pre) (.decrypt call) with ⟨answer, c₁⟩
  rw [hdec] at hopened
  obtain rfl : answer = .decrypted (.ok plaintext) := hopened
  have hspent := hpre.spent_of_decrypted hdec
  have hsplit : reached (pre ++ .decrypt call :: mid) = after run c₁ mid := by
    show after run _ (pre ++ _) = _
    rw [after_append, after_cons]
    show after run (run (reached pre) _).2 mid = _
    rw [hdec]
  have hkept := hspent.after_no_restart packetAead namePrefix key (stable_spent _) haead hmid
  -- the checkpoint brings it to the journal, and the rest of the run keeps it in both places
  rcases hcheck : run (reached (pre ++ .decrypt call :: mid)) (.checkpoint nonce) with ⟨answer, c₂⟩
  rw [hcheck] at hdone
  obtain rfl : answer = .checkpointed true := hdone
  rw [hsplit] at hcheck
  have hjournal := hkept.checkpoint haead hcheck
  have hmemory : InMemory hkdf (fun w => w.Spent call.counter.toNat) c₂ := by
    rw [InMemory, (checkpoint_cases haead hcheck).1]
    exact hkept
  have hlast : reached (pre ++ .decrypt call :: mid ++ .checkpoint nonce :: post) =
      after run c₂ post := by
    show after run _ (pre ++ _ ++ _) = _
    rw [after_append, after_cons]
    show after run (run (reached _) _).2 post = _
    rw [hsplit, hcheck]
  rw [hlast]
  rw [← hcounter] at hmemory hjournal
  exact (run_keeps packetAead (stable_spent _) haead hmemory hjournal post).1.not_decrypted

/-! ### Runs with the sample primitives -/

/-- The client of the sample runs. -/
def sampleStep : Client → ClientOp → ClientAnswer × Client :=
  clientStep sampleHkdf sampleAead sampleAead (ascii "receive") (zeros 32)

def sampleClient : Client := ⟨some sampleReceiver, ∅⟩

/-- Message zero of the sender. -/
def openZero : ClientOp := .decrypt ⟨0, samplePacket 0, ascii "aad"⟩

def sampleCheckpoint : ClientOp := .checkpoint (zeros 12)

/-- Message zero opens in the fresh receiver, whatever the directory. -/
theorem openZero_opens (dir : Dir) :
    ∃ r, sampleStep ⟨some sampleReceiver, dir⟩ openZero =
      (.decrypted (.ok (ascii "text")), ⟨some r, dir⟩) ∧ r.skipped.size = 0 := by
  have hstart : Follows sampleHkdf (zeros 32) .start sampleReceiver := follows_fromRoot (by rfl)
  obtain ⟨w, r, hopen, hr, -, hcard⟩ :=
    hstart.jump_size (c := 0) (by decide) (by decide) (by decide)
  refine ⟨r, ?_, by rw [hr.size, hcard]; rfl⟩
  have hreceive : receive sampleHkdf sampleAead sampleReceiver ⟨0, samplePacket 0, ascii "aad"⟩ =
      (.ok (ascii "text"), r) := hopen
  simp only [sampleStep, openZero, clientStep, hreceive]

/-- A checkpoint is done where the next generation and its temporary file are free. -/
theorem sampleCheckpoint_done {r : ReceiveRatchet} {dir : Dir} {generation : UInt64}
    (hsize : r.skipped.size = 0)
    (hnext : nextGeneration (generations (ascii "receive") dir) = some generation)
    (hfree : dir.lookup (tempPath (ascii "receive") generation) = none) :
    ∃ dir', sampleStep ⟨some r, dir⟩ sampleCheckpoint = (.checkpointed true, ⟨some r, dir'⟩) := by
  obtain ⟨snapshot, hsnapshot⟩ : ∃ snapshot, r.snapshot = .ok snapshot :=
    ⟨_, by rw [ReceiveRatchet.snapshot, if_neg (by rw [hsize]; decide)]⟩
  obtain ⟨encrypted, hseal⟩ := sampleAead_works.sealRecord_ok (zeros 32) (zeros 12)
    (encodeJournal generation snapshot)
  have hsave : save sampleAead (ascii "receive") dir ⟨zeros 32, zeros 12, snapshot⟩ =
      (.ok generation, _) := save_ok hnext hseal hfree
  exact ⟨committed (ascii "receive") dir generation encrypted, by
    simp only [sampleStep, sampleCheckpoint, clientStep, hsnapshot, hsave]⟩

/-- The directory after a checkpoint of the fresh receiver. -/
def sampleDir : Dir := (sampleStep sampleClient sampleCheckpoint).2.dir

/-- A restart from there gives the fresh receiver back. -/
theorem sampleDir_restart (r : ReceiveRatchet) :
    sampleStep ⟨some r, sampleDir⟩ .restart =
      (.restarted true, ⟨some sampleReceiver, sampleDir⟩) := by
  rfl

/-- A journal without records brings nothing back. -/
theorem inJournal_empty (Q : Window → Prop) :
    InJournal sampleHkdf sampleAead (ascii "receive") (zeros 32) Q ∅ := by
  intro generation snapshot r hload
  exact absurd hload (by simp [load, generations, loadLoop])

/-- The second checkpoint there is done as well. -/
theorem sampleDir_checkpoint {r : ReceiveRatchet} (hsize : r.skipped.size = 0) :
    ∃ dir, sampleStep ⟨some r, sampleDir⟩ sampleCheckpoint =
      (.checkpointed true, ⟨some r, dir⟩) :=
  @sampleCheckpoint_done _ _ 1 hsize (by decide +kernel) (by decide +kernel)

/-- After a checkpoint and a restart, message zero is opened and checkpointed; after another restart
    its replay fails. -/
theorem sample_replay_rejected :
    ¬ ∃ plaintext, (sampleStep (after sampleStep sampleClient
      [sampleCheckpoint, .restart, openZero, sampleCheckpoint, .restart]) openZero).1 =
        .decrypted (.ok plaintext) := by
  have hcheck : (sampleStep sampleClient sampleCheckpoint).2 = ⟨some sampleReceiver, sampleDir⟩ :=
    rfl
  obtain ⟨r, hopen, hsize⟩ := openZero_opens sampleDir
  obtain ⟨dir, hagain⟩ := sampleDir_checkpoint hsize
  refine not_exists.mpr ?_
  refine checkpointed_stays_rejected (by rfl : ReceiveRatchet.fromRoot sampleHkdf (zeros 32) =
    .ok sampleReceiver) sampleAead_works.toOpensSealed [sampleCheckpoint, .restart] [] [.restart]
    (fun _ => inJournal_empty _) ⟨0, samplePacket 0, ascii "aad"⟩ ⟨0, samplePacket 0, ascii "aad"⟩
    (zeros 12) ⟨ascii "text", ?_⟩ (by simp) ?_ rfl
  · show (sampleStep (after sampleStep sampleClient [sampleCheckpoint, .restart]) openZero).1 = _
    simp only [after_cons, after_nil, hcheck, sampleDir_restart, hopen]
  · show (sampleStep (after sampleStep sampleClient [sampleCheckpoint, .restart, openZero])
      sampleCheckpoint).1 = _
    simp only [after_cons, after_nil, hcheck, sampleDir_restart, hopen, hagain]

/-- **What a later checkpoint does not protect.**  Message zero is opened, the state is dropped by
    a restart from an earlier checkpoint, another checkpoint is done, and message zero is opened
    once more. -/
theorem dropped_decrypt_is_repeated :
    let reached := after sampleStep sampleClient
    (sampleStep (reached [sampleCheckpoint]) openZero).1 = .decrypted (.ok (ascii "text")) ∧
    (sampleStep (reached [sampleCheckpoint, openZero, .restart]) sampleCheckpoint).1 =
      .checkpointed true ∧
    (sampleStep (reached [sampleCheckpoint, openZero, .restart, sampleCheckpoint]) openZero).1 =
      .decrypted (.ok (ascii "text")) := by
  have hcheck : (sampleStep sampleClient sampleCheckpoint).2 = ⟨some sampleReceiver, sampleDir⟩ :=
    rfl
  have hsize : sampleReceiver.skipped.size = 0 := by rfl
  -- the second checkpoint is of the receiver that the restart brought back
  obtain ⟨dir, hagain⟩ := sampleDir_checkpoint hsize
  obtain ⟨r, hopen, -⟩ := openZero_opens sampleDir
  obtain ⟨r', hopen', -⟩ := openZero_opens dir
  simp only [after_cons, after_nil, hcheck, hopen, sampleDir_restart, hagain, hopen']
  exact ⟨trivial, trivial, trivial⟩

end

end NexaMessenger.Storage
