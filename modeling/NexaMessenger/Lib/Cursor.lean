import NexaMessenger.Lib.Octets

namespace Lib

/-!
# Cursors — parsers that read a byte string from left to right

A parser threads a cursor through its reads.  Two things can stop it: an error it returns, and a
panic, when an index is out of bounds or a sum of indices does not fit in a machine word.

`Parses` says that a parser reads exactly the words of a relation between results and byte
strings, and never panics.  It is closed under sequencing (`Parses.bind`), so what a parser
accepts is computed from what its reads accept; `Parses.finish_iff` is the conclusion for a parser
that must end where the byte string ends.
-/

variable {ε α β : Type}

/-! ### Faults -/

/-- What stops a computation: an error it returns, or a panic. -/
inductive Fault (ε : Type)
  | error (e : ε)
  | panic
deriving DecidableEq, Repr

/-- A parser, as a function of its cursor. -/
abbrev Cursor (ε : Type) := StateT Nat (Except (Fault ε))

/-- A sum of indices; `limit` is the largest machine word, and `overflow` is what happens when the
    sum does not fit in one. -/
def addIndex (limit : Nat) (overflow : Fault ε) (a b : Nat) : Except (Fault ε) Nat :=
  if a + b ≤ limit then .ok (a + b) else .error overflow

/-- The bytes `b[lo..hi]`. -/
def indexRange (b : Bytes) (lo hi : Nat) : Except (Fault ε) Bytes :=
  if lo ≤ hi ∧ hi ≤ b.length then .ok (slice b lo hi) else .error .panic

/-- The byte `b[i]`. -/
def indexByte (b : Bytes) (i : Nat) : Except (Fault ε) UInt8 :=
  match b[i]? with
  | some x => .ok x
  | none => .error .panic

theorem ok_ne_panic (a : α) : (.ok a : Except (Fault ε) α) ≠ .error .panic := nofun

theorem error_ne_panic (e : ε) : (.error (.error e) : Except (Fault ε) α) ≠ .error .panic := nofun

/-! ### Parsers -/

namespace Cursor

/-- Reads `n` bytes, if there are so many. -/
def take (limit : Nat) (short : ε) (overflow : Fault ε) (bytes : Bytes) (n : Nat) :
    Cursor ε Bytes := fun cursor =>
  if bytes.length - cursor < n then .error (.error short)
  else do
    let next ← addIndex limit overflow cursor n
    let value ← indexRange bytes cursor next
    pure (value, next)

/-- Goes on under a condition only. -/
def check (condition : Bool) (e : ε) : Cursor ε Unit :=
  if condition then pure () else throw (.error e)

/-- Runs a parser over a whole byte string; it must end where the byte string ends. -/
def finish (bytes : Bytes) (trailing : ε) (parser : Cursor ε α) : Except (Fault ε) α :=
  match parser.run 0 with
  | .error fault => .error fault
  | .ok (value, cursor) => if cursor ≠ bytes.length then .error (.error trailing) else .ok value

end Cursor

/-! ### What a parser reads -/

/-- At every cursor, the parser reads exactly the words of `L`, and it never panics. -/
structure Parses (bytes : Bytes) (parser : Cursor ε α) (L : α → Bytes → Prop) : Prop where
  ok_iff : ∀ cursor ≤ bytes.length, ∀ value next, parser.run cursor = .ok (value, next) ↔
    ∃ word, L value word ∧ word <+: bytes.drop cursor ∧ next = cursor + word.length
  safe : ∀ cursor ≤ bytes.length, parser.run cursor ≠ .error .panic

namespace Parses

variable {bytes : Bytes}

theorem pure (value : α) :
    Parses bytes (Pure.pure value : Cursor ε α) fun v word => v = value ∧ word = [] := by
  constructor
  · intro cursor _ v next
    rw [StateT.run_pure]
    show Except.ok (value, cursor) = Except.ok (v, next) ↔ _
    constructor
    · rintro h
      obtain ⟨rfl, rfl⟩ := Prod.mk.inj (Except.ok.inj h)
      exact ⟨[], ⟨rfl, rfl⟩, List.nil_prefix, rfl⟩
    · rintro ⟨_, ⟨rfl, rfl⟩, -, rfl⟩
      rfl
  · intro cursor _
    exact ok_ne_panic (value, cursor)

theorem check (condition : Bool) (e : ε) :
    Parses bytes (Cursor.check condition e) fun _ word => condition = true ∧ word = [] := by
  cases condition
  · constructor
    · intro cursor _ v next
      constructor
      · intro h
        cases h
      · rintro ⟨_, ⟨hfalse, -⟩, -⟩
        exact Bool.noConfusion hfalse
    · intro cursor _
      exact error_ne_panic e
  · constructor
    · intro cursor hcursor v next
      refine ((Parses.pure ()).ok_iff cursor hcursor v next).trans ?_
      simp
    · exact (Parses.pure ()).safe

/-- **Sequencing.** A word of two parsers is a word of the first and then one of the second. -/
theorem bind {first : Cursor ε α} {second : α → Cursor ε β} {L : α → Bytes → Prop}
    {M : α → β → Bytes → Prop} (hfirst : Parses bytes first L)
    (hsecond : ∀ a left, L a left → Parses bytes (second a) (M a)) :
    Parses bytes (first >>= second) fun value word =>
      ∃ a left right, L a left ∧ M a value right ∧ word = left ++ right := by
  constructor
  · intro cursor hcursor value next
    have hrun : (first >>= second).run cursor =
        (first.run cursor >>= fun r => (second r.1).run r.2) := StateT.run_bind _ _ _
    rw [hrun]
    constructor
    · intro h
      -- `second` starts where the word of `first` ends
      cases hone : first.run cursor with
      | error fault => rw [hone] at h; cases h
      | ok r =>
        obtain ⟨a, middle⟩ := r
        rw [hone] at h
        obtain ⟨left, hleft, ⟨rest, hrest⟩, rfl⟩ := (hfirst.ok_iff _ hcursor _ _).mp hone
        have hdrop : bytes.drop (cursor + left.length) = rest := by
          rw [← List.drop_drop, ← hrest, List.drop_left]
        have hlength := congrArg List.length hrest
        rw [List.length_append, List.length_drop] at hlength
        obtain ⟨right, hright, hpre, rfl⟩ :=
          ((hsecond a left hleft).ok_iff _ (by omega) value next).mp h
        rw [hdrop] at hpre
        refine ⟨left ++ right, ⟨a, left, right, hleft, hright, rfl⟩, ?_, ?_⟩
        · rw [← hrest]
          exact (List.prefix_append_right_inj left).mpr hpre
        · rw [List.length_append, Nat.add_assoc]
    · rintro ⟨_, ⟨a, left, right, hleft, hright, rfl⟩, ⟨rest, hrest⟩, rfl⟩
      rw [List.append_assoc] at hrest
      have hlength := congrArg List.length hrest
      simp only [List.length_append, List.length_drop] at hlength
      have hone := (hfirst.ok_iff cursor hcursor a _).mpr
        ⟨left, hleft, ⟨right ++ rest, hrest⟩, rfl⟩
      have hdrop : bytes.drop (cursor + left.length) = right ++ rest := by
        rw [← List.drop_drop, ← hrest, List.drop_left]
      have htwo := ((hsecond a left hleft).ok_iff (cursor + left.length) (by omega) value _).mpr
        ⟨right, hright, by rw [hdrop]; exact List.prefix_append _ _, rfl⟩
      rw [hone, List.length_append, ← Nat.add_assoc]
      exact htwo
  · intro cursor hcursor
    have hrun : (first >>= second).run cursor =
        (first.run cursor >>= fun r => (second r.1).run r.2) := StateT.run_bind _ _ _
    rw [hrun]
    cases hone : first.run cursor with
    | error fault =>
      intro h
      exact hfirst.safe cursor hcursor (hone.trans (congrArg _ (Except.error.inj h)))
    | ok r =>
      obtain ⟨a, middle⟩ := r
      obtain ⟨left, hleft, hpre, rfl⟩ := (hfirst.ok_iff _ hcursor _ _).mp hone
      have hlength := hpre.length_le
      rw [List.length_drop] at hlength
      exact (hsecond a left hleft).safe _ (by omega)

/-- The words of a parser may be described in another way. -/
theorem congr {parser : Cursor ε α} {L M : α → Bytes → Prop} (h : Parses bytes parser L)
    (hsame : ∀ value word, L value word ↔ M value word) : Parses bytes parser M := by
  refine ⟨fun cursor hcursor value next => ?_, h.safe⟩
  rw [h.ok_iff cursor hcursor]
  exact exists_congr fun word => and_congr_left' (hsame value word)

/-- The words of `take` are those of its length: within the byte string no index is out of
    bounds. -/
theorem take {limit : Nat} (hlimit : bytes.length ≤ limit) (short : ε) (overflow : Fault ε)
    (n : Nat) :
    Parses bytes (Cursor.take limit short overflow bytes n) fun value word =>
      word = value ∧ value.length = n := by
  have hrun (cursor : Nat) (hcursor : cursor ≤ bytes.length) :
      (Cursor.take limit short overflow bytes n).run cursor =
        if bytes.length - cursor < n then .error (.error short)
        else .ok (slice bytes cursor (cursor + n), cursor + n) := by
    show Cursor.take limit short overflow bytes n cursor = _
    unfold Cursor.take
    split
    · rfl
    · rw [addIndex, if_pos (by omega)]
      show (indexRange bytes cursor (cursor + n) >>= fun value => Pure.pure (value, cursor + n)) = _
      rw [indexRange, if_pos (by omega)]
      rfl
  have hslice (cursor : Nat) : slice bytes cursor (cursor + n) = (bytes.drop cursor).take n := by
    rw [slice, Nat.add_sub_cancel_left]
  constructor
  · intro cursor hcursor value next
    rw [hrun cursor hcursor, hslice]
    constructor
    · intro h
      split at h
      · exact absurd h (by simp)
      · obtain ⟨rfl, rfl⟩ := Prod.mk.inj (Except.ok.inj h)
        have hlength : ((bytes.drop cursor).take n).length = n := by
          rw [List.length_take, List.length_drop]
          omega
        exact ⟨_, ⟨rfl, hlength⟩, List.take_prefix _ _, by rw [hlength]⟩
    · rintro ⟨_, ⟨rfl, rfl⟩, hpre, rfl⟩
      have hlength := hpre.length_le
      rw [List.length_drop] at hlength
      rw [if_neg (by omega), ← List.prefix_iff_eq_take.mp hpre]
  · intro cursor hcursor
    rw [hrun cursor hcursor]
    split
    · exact error_ne_panic short
    · exact ok_ne_panic _

/-- A parser that decodes what it takes: its words are the codes of its values. -/
theorem map {parser : Cursor ε α} {L : α → Bytes → Prop} (h : Parses bytes parser L)
    (f : α → β) :
    Parses bytes (f <$> parser) fun value word => ∃ a, L a word ∧ value = f a := by
  have hbind : (f <$> parser) = (parser >>= fun a => Pure.pure (f a)) :=
    (bind_pure_comp f parser).symm
  rw [hbind]
  refine (h.bind fun a _ _ => Parses.pure (f a)).congr ?_
  intro value word
  constructor
  · rintro ⟨a, left, right, hleft, ⟨rfl, rfl⟩, rfl⟩
    exact ⟨a, by rwa [List.append_nil], rfl⟩
  · rintro ⟨a, hword, rfl⟩
    exact ⟨a, word, [], hword, ⟨rfl, rfl⟩, (List.append_nil _).symm⟩

/-- A field of `n` bytes: `write` is what the words of its values look like, `read` undoes it. -/
theorem field {limit : Nat} (hlimit : bytes.length ≤ limit) (short : ε) (overflow : Fault ε)
    {n : Nat} {read : Bytes → α} {write : α → Bytes} (hlength : ∀ a, (write a).length = n)
    (hread : ∀ a, read (write a) = a) (hwrite : ∀ b, b.length = n → write (read b) = b) :
    Parses bytes (read <$> Cursor.take limit short overflow bytes n) fun value word =>
      word = write value := by
  refine ((take hlimit short overflow n).map read).congr ?_
  intro value word
  constructor
  · rintro ⟨_, ⟨rfl, hlen⟩, rfl⟩
    exact (hwrite word hlen).symm
  · rintro rfl
    exact ⟨write value, ⟨rfl, hlength value⟩, (hread value).symm⟩

/-- A part of a record that `get` finds in it, in one of its spellings, and then the rest. -/
theorem bind_part {first : Cursor ε α} {second : α → Cursor ε β} {L : α → Bytes → Prop}
    {C : β → Prop} {M : β → Bytes → Prop} (get : β → α) (hfirst : Parses bytes first L)
    (hsecond : ∀ a, Parses bytes (second a) fun value word =>
      (C value ∧ get value = a) ∧ M value word) :
    Parses bytes (first >>= second) fun value word =>
      C value ∧ ∃ left right, L (get value) left ∧ M value right ∧ word = left ++ right := by
  refine (hfirst.bind fun a _ _ => hsecond a).congr fun value word => ?_
  constructor
  · rintro ⟨_, left, right, hleft, ⟨⟨hvalue, rfl⟩, hright⟩, rfl⟩
    exact ⟨hvalue, left, right, hleft, hright, rfl⟩
  · rintro ⟨hvalue, left, right, hleft, hright, rfl⟩
    exact ⟨get value, left, right, hleft, ⟨⟨hvalue, rfl⟩, hright⟩, rfl⟩

/-- **Reading a record.** The field that `get` finds in a record, and then the rest of it. -/
theorem bind_field_where {first : Cursor ε α} {second : α → Cursor ε β} {D : α → Prop}
    {write : α → Bytes} {C : β → Prop} {rest : β → Bytes} (get : β → α)
    (hfirst : Parses bytes first fun a word => D a ∧ word = write a)
    (hget : ∀ value, C value → D (get value))
    (hsecond : ∀ a, D a → Parses bytes (second a) fun value word =>
      (C value ∧ get value = a) ∧ word = rest value) :
    Parses bytes (first >>= second) fun value word =>
      C value ∧ word = write (get value) ++ rest value := by
  refine (hfirst.bind fun a _ h => hsecond a h.1).congr fun value word => ?_
  constructor
  · rintro ⟨_, _, _, ⟨-, rfl⟩, ⟨⟨hvalue, rfl⟩, rfl⟩, rfl⟩
    exact ⟨hvalue, rfl⟩
  · rintro ⟨hvalue, rfl⟩
    exact ⟨get value, _, _, ⟨hget value hvalue, rfl⟩, ⟨⟨hvalue, rfl⟩, rfl⟩, rfl⟩

/-- A field that may have any value. -/
theorem bind_field {first : Cursor ε α} {second : α → Cursor ε β} {write : α → Bytes}
    {C : β → Prop} {rest : β → Bytes} (get : β → α)
    (hfirst : Parses bytes first fun a word => word = write a)
    (hsecond : ∀ a, Parses bytes (second a) fun value word =>
      (C value ∧ get value = a) ∧ word = rest value) :
    Parses bytes (first >>= second) fun value word =>
      C value ∧ word = write (get value) ++ rest value := by
  refine bind_field_where (D := fun _ => True) get ?_ (fun _ _ => trivial) fun a _ => hsecond a
  exact hfirst.congr fun a word => (and_iff_right trivial).symm

/-- A condition on what was read: no record is read where it fails. -/
theorem bind_check {condition : Bool} {e : ε} {second : Cursor ε α} {L : α → Bytes → Prop}
    (hpass : condition = true → Parses bytes second L)
    (hfail : condition = false → ∀ value word, ¬ L value word) :
    Parses bytes (Cursor.check condition e >>= fun _ => second) L := by
  refine ((check condition e).bind fun _ _ h => hpass h.1).congr fun value word => ?_
  constructor
  · rintro ⟨_, _, right, ⟨-, rfl⟩, hword, rfl⟩
    exact hword
  · intro hword
    cases hcondition : condition with
    | false => exact absurd hword (hfail hcondition value word)
    | true => exact ⟨(), [], word, ⟨rfl, rfl⟩, hword, rfl⟩

/-- The end of a record. -/
theorem pure_record {C : α → Prop} (value : α) (hvalue : C value)
    (hunique : ∀ v, C v → v = value) :
    Parses bytes (Pure.pure value : Cursor ε α) fun v word => C v ∧ word = [] := by
  refine (Parses.pure value).congr fun v word => and_congr_left' ?_
  constructor
  · rintro rfl
    exact hvalue
  · exact hunique v

/-- **Whole byte strings.** What is accepted is exactly what is described. -/
theorem finish_iff {parser : Cursor ε α} {L : α → Bytes → Prop} (h : Parses bytes parser L)
    (trailing : ε) (value : α) :
    Cursor.finish bytes trailing parser = .ok value ↔ L value bytes := by
  unfold Cursor.finish
  constructor
  · intro hok
    cases hrun : parser.run 0 with
    | error fault => rw [hrun] at hok; exact absurd hok (by simp)
    | ok r =>
      obtain ⟨v, next⟩ := r
      rw [hrun] at hok
      dsimp only at hok
      split at hok
      · exact absurd hok (by simp)
      · rename_i hend
        obtain rfl := Except.ok.inj hok
        obtain ⟨word, hword, hpre, rfl⟩ := (h.ok_iff 0 (Nat.zero_le _) _ _).mp hrun
        rw [List.drop_zero] at hpre
        -- a word that begins the bytes and is as long is all of them
        have hlength : word.length = bytes.length := by
          rw [← Nat.zero_add word.length]
          exact not_not.mp hend
        rwa [hpre.eq_of_length hlength] at hword
  · intro hword
    have hrun := (h.ok_iff 0 (Nat.zero_le _) value _).mpr ⟨bytes, hword, List.prefix_refl _, rfl⟩
    rw [hrun]
    exact if_neg (not_not.mpr (Nat.zero_add _))

theorem finish_safe {parser : Cursor ε α} {L : α → Bytes → Prop} (h : Parses bytes parser L)
    (trailing : ε) : Cursor.finish bytes trailing parser ≠ .error .panic := by
  unfold Cursor.finish
  have hsafe := h.safe 0 (Nat.zero_le _)
  cases hrun : parser.run 0 with
  | error fault =>
    intro hpanic
    exact hsafe (hrun.trans (congrArg _ (Except.error.inj hpanic)))
  | ok r =>
    obtain ⟨v, next⟩ := r
    dsimp only
    split
    · exact error_ne_panic trailing
    · exact ok_ne_panic v

end Parses

end Lib
