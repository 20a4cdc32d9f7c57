import Mathlib.Data.List.Basic

/-!
# Go results, slices and random streams

The Go code of `hpqc` returns an `error` beside its results, panics on a failed
run-time check, slices byte strings with `s[:n]` and `s[n:]`, and reads its
randomness from a stream. `Go α` is the result of one call: a value, a returned
error, or a panic. Binding a `Go` computation is the `if err != nil { return err }`
of the source: the first failure is what the caller returns.
-/

namespace Hpqc

/-- A Go `[]byte`. -/
abbrev Bytes := List UInt8

/-- The `error` values the modelled code returns. The sentinels of package `kem` are
compared by identity, so each is a constructor; `new text` is a value made by
`errors.New(text)`. -/
inductive Error where
  | errSeedSize
  | errTypeMismatch
  | errCiphertextSize
  | errPubKeySize
  | errPrivKeySize
  | new (text : String)
  deriving DecidableEq, Repr

/-- Run-time panics: a slice bound past the end, a method called through a nil pointer
or a nil interface, an explicit `panic(text)`, and `panic(err)` with an error value. -/
inductive Panic where
  | sliceBounds
  | nilDereference
  | message (text : String)
  | errorValue (e : Error)
  deriving DecidableEq, Repr

/-- Why a Go call produced no value. -/
inductive Failure where
  | error (e : Error)
  | panic (p : Panic)
  deriving DecidableEq, Repr

/-- The result of a Go call. -/
abbrev Go (α : Type) := Except Failure α

namespace Go

variable {α β : Type}

/-- A sequenced call succeeds exactly when each step succeeds in turn. -/
theorem bind_eq_ok {x : Go α} {f : α → Go β} {b : β} :
    x >>= f = .ok b ↔ ∃ a, x = .ok a ∧ f a = .ok b := by
  cases x <;> simp [bind, Except.bind]

/-- A sequence fails with `e` only if one of its steps does. -/
theorem bind_ne_error {x : Go α} {f : α → Go β} {e : Failure} (first : x ≠ .error e)
    (rest : ∀ a, f a ≠ .error e) : x >>= f ≠ .error e := by
  cases x <;> simp_all [bind, Except.bind]

/-- A sequenced stateful call succeeds exactly when each step succeeds in turn, the
second from the state the first leaves. -/
theorem stateBind_eq_ok {σ : Type} {x : StateT σ Go α} {f : α → StateT σ Go β} {s s' : σ}
    {b : β} :
    (x >>= f) s = .ok (b, s') ↔ ∃ a s₁, x s = .ok (a, s₁) ∧ f a s₁ = .ok (b, s') := by
  simp only [bind, StateT.bind]
  constructor
  · intro h
    obtain ⟨⟨a, s₁⟩, hx, hf⟩ := bind_eq_ok.1 h
    exact ⟨a, s₁, hx, hf⟩
  · rintro ⟨a, s₁, hx, hf⟩
    exact bind_eq_ok.2 ⟨(a, s₁), hx, hf⟩

/-- A call lifted into a stateful computation succeeds when the call does, and leaves the
state alone. -/
theorem lift_eq_ok {σ : Type} {x : Go α} {s s' : σ} {a : α} :
    (liftM x : StateT σ Go α) s = .ok (a, s') ↔ x = .ok a ∧ s' = s := by
  cases x <;> simp [liftM, monadLift, MonadLift.monadLift, StateT.lift, bind, Except.bind, pure,
    Except.pure, eq_comm]

/-- A call that returns a value hands it to the rest. -/
@[simp] theorem ok_bind {a : α} {f : α → Go β} : (Except.ok a >>= f : Go β) = f a := rfl

/-- A failed call ends the sequence with its failure. -/
@[simp] theorem error_bind {e : Failure} {f : α → Go β} :
    (Except.error e >>= f : Go β) = .error e := rfl

/-- `return a` succeeds with `a`. -/
@[simp] theorem pure_eq {a : α} : (pure a : Go α) = .ok a := rfl

/-- A thrown failure is the result. -/
@[simp] theorem throw_eq {e : Failure} : (throw e : Go α) = .error e := rfl

/-- A guarded return succeeds only when its guard holds, and then with the guarded value. -/
theorem ite_pure_throw_eq_ok {c : Prop} [Decidable c] {a b : α} {e : Failure} :
    (if c then pure a else throw e : Go α) = .ok b ↔ c ∧ a = b := by
  by_cases guard : c <;> simp [guard]

end Go

/-- `s[:n]`: the first `n` bytes, or a panic when `n` is past the end. -/
def sliceTo (s : Bytes) (n : Nat) : Go Bytes :=
  if n ≤ s.length then pure (s.take n) else throw (.panic .sliceBounds)

/-- `s[n:]`: all but the first `n` bytes, or a panic when `n` is past the end. -/
def sliceFrom (s : Bytes) (n : Nat) : Go Bytes :=
  if n ≤ s.length then pure (s.drop n) else throw (.panic .sliceBounds)

/-- A slice `s[:n]` within bounds is the first `n` bytes. -/
@[simp] theorem sliceTo_of_le {s : Bytes} {n : Nat} (inRange : n ≤ s.length) :
    sliceTo s n = .ok (s.take n) := if_pos inRange

/-- A slice `s[n:]` within bounds drops the first `n` bytes. -/
@[simp] theorem sliceFrom_of_le {s : Bytes} {n : Nat} (inRange : n ≤ s.length) :
    sliceFrom s n = .ok (s.drop n) := if_pos inRange

/-- What is left of a random stream such as `rand.Reader`; a read past its end finds the
end of the stream. -/
abbrev Rng := List UInt8

/-- `io.EOF`. -/
def ioEOF : Error := .new "EOF"

/-- `io.ErrUnexpectedEOF`. -/
def ioErrUnexpectedEOF : Error := .new "unexpected EOF"

/-- The two errors `io.ReadFull` returns on a stream that ends too soon. -/
def Error.ShortRead (e : Error) : Prop := e = ioEOF ∨ e = ioErrUnexpectedEOF

/-- `io.ReadFull(r, buf)` with `len(buf) = n`: the next `n` bytes; `io.EOF` when the stream
ends before the first of them, `io.ErrUnexpectedEOF` when it ends part way. -/
def readFull (n : Nat) : StateT Rng Go Bytes := fun rng =>
  if n ≤ rng.length then pure (rng.take n, rng.drop n)
  else if rng = [] then throw (.error ioEOF)
  else throw (.error ioErrUnexpectedEOF)

/-- One `r.Read(buf)` with `buf := make([]byte, n)`: it fills the start of `buf` with what
is left of the stream, up to `n` bytes. A short read is no error, and the rest of `buf`
keeps its zeros; at the end of the stream a read of `n > 0` bytes returns `io.EOF`. -/
def read (n : Nat) : StateT Rng Go Bytes := fun rng =>
  if 0 < n ∧ rng = [] then throw (.error ioEOF)
  else pure (rng.take n ++ List.replicate (n - rng.length) 0, rng.drop n)

/-- A full read that succeeds returns the next `n` bytes of the stream and leaves the
rest. -/
theorem readFull_eq_ok {n : Nat} {rng rng' : Rng} {bytes : Bytes}
    (read : readFull n rng = .ok (bytes, rng')) :
    n ≤ rng.length ∧ bytes = rng.take n ∧ rng' = rng.drop n := by
  unfold readFull at read
  split at read
  · cases read
    exact ⟨‹_›, rfl, rfl⟩
  · split at read <;> cases read

/-- A full read from a stream with fewer than `n` bytes left fails: with `io.EOF` on an
empty stream, and with `io.ErrUnexpectedEOF` otherwise. -/
theorem readFull_of_lt {n : Nat} {rng : Rng} (short : rng.length < n) :
    readFull n rng = .error (.error (if rng = [] then ioEOF else ioErrUnexpectedEOF)) := by
  unfold readFull
  rw [if_neg (Nat.not_le.2 short)]
  split <;> rfl

/-- Both errors of a short full read are short-read errors. -/
theorem readFull_error_shortRead (rng : Rng) :
    (if rng = [] then ioEOF else ioErrUnexpectedEOF).ShortRead := by
  by_cases empty : rng = [] <;> simp [Error.ShortRead, empty]

/-- A single read that succeeds returns `n` bytes and consumes at most `n` of the
stream. -/
theorem read_eq_ok {n : Nat} {rng rng' : Rng} {bytes : Bytes}
    (read : Hpqc.read n rng = .ok (bytes, rng')) : bytes.length = n ∧ rng' = rng.drop n := by
  unfold Hpqc.read at read
  split at read
  · cases read
  · cases read
    refine ⟨?_, rfl⟩
    simp only [List.length_append, List.length_take, List.length_replicate]
    omega

/-- Drawing `n` bytes in full and handing them to a call: the call on the next `n` bytes of
the stream, which are consumed, or the reader's failure when fewer are left. -/
theorem readFull_bind_lift {α : Type} (n : Nat) (g : Bytes → Go α) (rng : Rng) :
    (readFull n >>= fun seed => (liftM (g seed) : StateT Rng Go α)) rng =
      if n ≤ rng.length then (g (rng.take n)).map (·, rng.drop n)
      else .error (.error (if rng = [] then ioEOF else ioErrUnexpectedEOF)) := by
  by_cases inStream : n ≤ rng.length
  · simp only [bind, StateT.bind, readFull, if_pos inStream, pure, Except.pure, Except.bind]
    cases g (rng.take n) <;> rfl
  · simp only [bind, StateT.bind, readFull_of_lt (Nat.not_le.1 inStream), if_neg inStream]
    rfl

end Hpqc
