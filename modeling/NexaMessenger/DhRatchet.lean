import NexaMessenger.Lib.Machine
import NexaMessenger.Identity.Keys
import Mathlib.Logic.Function.Basic

namespace NexaMessenger.DhRatchet

open Lib Identity

/-!
# DH ratchet — the root key of two sides

`DhRatchetState` holds a root key and a key pair.  `ratchet` mixes the secret that the pair shares
with the peer's public key into the root, and draws a new pair.

Two sides that start from one root and call `ratchet` once a round, each with the public key the
other had at the start of the round, share every secret and therefore every root
(`ratchets_in_lockstep`).  Who calls first does not matter, although the first call has replaced
its key pair when the second is made (`roundStep_eq`).
-/

/-- `ROOT_DOMAIN`. -/
def rootDomain : Bytes := ascii "NEXA/DH-RATCHET/v1"

inductive DhRatchetError
  | invalidPeerKey | kdf
deriving DecidableEq, Repr

/-- `DhRatchetState`; the private and the public key are one pair. -/
structure DhRatchetState (x : X25519) where
  rootKey : Key32
  keys : KeyPair x

variable {x : X25519}

/-- `DhRatchetState::new`, with the pair it draws. -/
def DhRatchetState.new (rootKey : Key32) (keys : KeyPair x) : DhRatchetState x := ⟨rootKey, keys⟩

/-- `DhRatchetState::ratchet`; the pair it draws, when it comes to that, is an argument. -/
def DhRatchetState.ratchet (hkdf : Hkdf64) (s : DhRatchetState x) (fresh : KeyPair x)
    (peerPublic : Key32) : Except DhRatchetError (Key32 × Key32) × DhRatchetState x :=
  let dh := s.keys.diffieHellman peerPublic
  if dh.toList.all (· = 0) then (.error .invalidPeerKey, s)
  else
    match hkdf.expand rootDomain s.rootKey.toList (dh.toList ++ s.rootKey.toList) with
    | none => (.error .kdf, s)
    | some expanded =>
      let nextRoot := arrayOf 32 (slice expanded.toList 0 32)
      let chain := arrayOf 32 (slice expanded.toList 32 64)
      (.ok (nextRoot, chain), ⟨nextRoot, fresh⟩)

/-! ### Two sides -/

inductive Side
  | alice | bob
deriving DecidableEq, Repr

/-- The other side. -/
def Side.other : Side → Side
  | .alice => .bob
  | .bob => .alice

/-- The states of both. -/
abbrev Parties (x : X25519) := Side → DhRatchetState x

/-- A round: who calls first, and the pairs that the two calls draw. -/
structure Round (x : X25519) where
  first : Side
  fresh : Side → KeyPair x

section
variable (hkdf : Hkdf64)

/-- One side calls `ratchet`. -/
def turn (parties : Parties x) (side : Side) (fresh : KeyPair x) (peerPublic : Key32) :
    Except DhRatchetError (Key32 × Key32) × Parties x :=
  let (answer, s) := (parties side).ratchet hkdf fresh peerPublic
  (answer, Function.update parties side s)

/-- A round: both sides call `ratchet`, one after the other, with the public key that the other
    had at the start of the round. -/
def roundStep (parties : Parties x) (round : Round x) :
    (Side → Except DhRatchetError (Key32 × Key32)) × Parties x :=
  let second := round.first.other
  let publicKey side := (parties side).keys.publicKey
  let one := turn hkdf parties round.first (round.fresh round.first) (publicKey second)
  let two := turn hkdf one.2 second (round.fresh second) (publicKey round.first)
  (fun side => if side = round.first then one.1 else two.1, two.2)

/-- Both sides have the same root. -/
def InStep (parties : Parties x) : Prop := ∀ a b, (parties a).rootKey = (parties b).rootKey

end

/-! ### One round -/

variable {hkdf : Hkdf64}

/-- The order of the two calls of a round does not matter: either works on its own state, with a
    public key from the start of the round. -/
theorem roundStep_eq (parties : Parties x) (round : Round x) (side : Side) :
    ((roundStep hkdf parties round).1 side, (roundStep hkdf parties round).2 side) =
      (parties side).ratchet hkdf (round.fresh side) (parties side.other).keys.publicKey := by
  have hne (s : Side) : s.other ≠ s := by cases s <;> decide
  have hback (s : Side) : s.other.other = s := by cases s <;> rfl
  have hside : side = round.first ∨ side = round.first.other := by
    cases side <;> cases round.first <;> simp [Side.other]
  simp only [roundStep, turn]
  rcases hside with rfl | rfl
  · rw [if_pos rfl, Function.update_of_ne (hne _).symm, Function.update_self]
  · rw [if_neg (hne _), Function.update_self, Function.update_of_ne (hne _), hback]

/-- The two sides of a round share a secret. -/
theorem shared_secret (hcommutes : x.Commutes) (parties : Parties x) (side : Side) :
    (parties side).keys.diffieHellman (parties side.other).keys.publicKey =
      (parties side.other).keys.diffieHellman (parties side).keys.publicKey := by
  rw [KeyPair.diffieHellman, KeyPair.diffieHellman, (parties side).keys.publicKey_eq,
    (parties side.other).keys.publicKey_eq, hcommutes]

/-- What a call does depends on the root and the shared secret: it refuses a zero secret and
    changes nothing, or yields keys and takes the new pair. -/
theorem ratchet_cases (htotal : hkdf.Total) (root dh : Key32) :
    (∀ (s : DhRatchetState x) fresh peerPublic, s.rootKey = root →
      s.keys.diffieHellman peerPublic = dh →
      s.ratchet hkdf fresh peerPublic = (.error .invalidPeerKey, s)) ∨
    ∃ nextRoot chain, ∀ (s : DhRatchetState x) fresh peerPublic, s.rootKey = root →
      s.keys.diffieHellman peerPublic = dh →
      s.ratchet hkdf fresh peerPublic = (.ok (nextRoot, chain), ⟨nextRoot, fresh⟩) := by
  by_cases hzero : dh.toList.all (· = 0)
  · left
    rintro s fresh peerPublic - rfl
    rw [DhRatchetState.ratchet, if_pos hzero]
  · right
    obtain ⟨expanded, hexpanded⟩ := Option.isSome_iff_exists.mp
      (htotal rootDomain root.toList (dh.toList ++ root.toList))
    refine ⟨arrayOf 32 (slice expanded.toList 0 32), arrayOf 32 (slice expanded.toList 32 64), ?_⟩
    rintro s fresh peerPublic rfl rfl
    rw [DhRatchetState.ratchet, if_neg hzero, hexpanded]

/-- **Step.** Two sides with one root get the same answer, and have one root again. -/
theorem InStep.round (hcommutes : x.Commutes) (htotal : hkdf.Total) {parties : Parties x}
    (h : InStep parties) (round : Round x) :
    (∃ root chain, ∀ side, (roundStep hkdf parties round).1 side = .ok (root, chain) ∧
      (roundStep hkdf parties round).2 side = ⟨root, round.fresh side⟩) ∨
    ∀ side, (roundStep hkdf parties round).1 side = .error .invalidPeerKey ∧
      (roundStep hkdf parties round).2 side = parties side := by
  have hroot (side : Side) : (parties side).rootKey = (parties .alice).rootKey := h _ _
  have hdh (side : Side) : (parties side).keys.diffieHellman (parties side.other).keys.publicKey =
      (parties .alice).keys.diffieHellman (parties .bob).keys.publicKey := by
    cases side with
    | alice => rfl
    | bob => exact shared_secret hcommutes parties .bob
  have hround (side : Side) := @roundStep_eq x hkdf parties round side
  rcases @ratchet_cases x hkdf htotal (parties .alice).rootKey
      ((parties .alice).keys.diffieHellman (parties .bob).keys.publicKey) with
    hrefused | ⟨root, chain, hderived⟩
  · right
    intro side
    rw [← Prod.mk.injEq, hround side]
    exact hrefused _ _ _ (hroot side) (hdh side)
  · left
    refine ⟨root, chain, fun side => ?_⟩
    rw [← Prod.mk.injEq, hround side]
    exact hderived _ _ _ (hroot side) (hdh side)

/-- A round keeps the sides in step. -/
theorem InStep.next (hcommutes : x.Commutes) (htotal : hkdf.Total) {parties : Parties x}
    (h : InStep parties) (round : Round x) : InStep (roundStep hkdf parties round).2 := by
  intro a b
  rcases h.round hcommutes htotal round with ⟨root, chain, hderived⟩ | hrefused
  · rw [(hderived a).2, (hderived b).2]
  · rw [(hrefused a).2, (hrefused b).2]
    exact h a b

/-- **The DH ratchet stays in lockstep.**  Two sides start from the same root and make any number
    of rounds, whoever calls first in each.  In every round both calls return the same root and
    the same chain seed, and both sides store that root with their new pair; or both calls return
    `InvalidPeerKey` and neither side changes.  The stored roots are equal after every round. -/
theorem ratchets_in_lockstep (hcommutes : x.Commutes) (htotal : hkdf.Total)
    {parties : Parties x} (hroots : InStep parties) (rounds : List (Round x)) (round : Round x) :
    let before := after (roundStep hkdf) parties rounds
    let (answers, next) := roundStep hkdf before round
    InStep next ∧
    ((∃ root chain, ∀ side, answers side = .ok (root, chain) ∧
      next side = ⟨root, round.fresh side⟩) ∨
    ∀ side, answers side = .error .invalidPeerKey ∧ next side = before side) := by
  intro before
  have hbefore : InStep before :=
    after_invariant (fun _ round h => h.next hcommutes htotal round) hroots rounds
  exact ⟨hbefore.next hcommutes htotal round, hbefore.round hcommutes htotal round⟩

theorem sampleX25519_publicKey (secret : Key32) : secret = sampleX25519.publicKey secret := rfl

/-- A secret key of the sample scheme with its public key. -/
def ownPair (secret : Key32) : KeyPair sampleX25519 :=
  ⟨secret, secret, sampleX25519_publicKey secret⟩

def samplePair (byte : UInt8) : KeyPair sampleX25519 := ownPair (Vector.replicate 32 byte)

/-- Two sides after two rounds, in which each has called first once. -/
theorem sample_lockstep :
    InStep (after (roundStep sampleHkdf64)
      (fun side => DhRatchetState.new (zeros 32) (samplePair (if side = .alice then 1 else 2)))
      [⟨.alice, fun side => samplePair (if side = .alice then 3 else 4)⟩,
        ⟨.bob, fun side => samplePair (if side = .alice then 5 else 6)⟩]) := by
  have htotal : sampleHkdf64.Total := fun _ _ _ => rfl
  exact (ratchets_in_lockstep sampleX25519_commutes htotal (fun _ _ => rfl)
    [⟨.alice, fun side => samplePair (if side = .alice then 3 else 4)⟩]
    ⟨.bob, fun side => samplePair (if side = .alice then 5 else 6)⟩).1

end NexaMessenger.DhRatchet
