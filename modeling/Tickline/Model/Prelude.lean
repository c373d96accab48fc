import Mathlib.Tactic.Ring

/-!
# Exceptions, member functions and machine arithmetic

The vocabulary the program's classes are written in.

* `Fault` is what a function may leave by: the exceptions it throws, with their texts,
  and `undefinedBehaviour` for the operations the language gives no meaning
  (signed overflow, a read past the end of a span).
* `Member σ` is a member function of a class with state `σ`.  It ends in a value or in
  a fault, and in **both** cases leaves an object behind: a throw undoes nothing.
* Signed 64-bit operations are exact or undefined, unlike the unsigned ones, which wrap
  and are those of `UInt64`.
* A `std::vector` is a list whose length stays below `vectorMaxSize`.
-/

set_option autoImplicit false

namespace Tickline.Model

/-- Why an evidence record's bytes are refused.
SRC: command_evidence.hpp:123-133 -/
inductive CommandEvidenceDecodeErrorCode
  | invalidSize
  | invalidMagic
  | unsupportedSchemaVersion
  | nonzeroReservedField
  | invalidEntityId
  | unknownRejectionCode
  | unknownQueueOutcome
  | inconsistentOutcome
  | inconsistentStateTransition
  deriving DecidableEq, Repr

/-- Why an evidence archive is refused.
SRC: command_evidence_archive.hpp:21-34 -/
inductive CommandEvidenceArchiveErrorCode
  | truncatedHeader
  | invalidMagic
  | unsupportedArchiveSchema
  | unsupportedRecordSchema
  | invalidRecordSize
  | nonzeroReservedField
  | recordCountOverflow
  | truncatedRecords
  | trailingData
  | chainVerificationFailed
  | trustedHeadMismatch
  | ioError
  deriving DecidableEq, Repr

/-- What a function may leave by instead of returning. -/
inductive Fault
  | invalidArgument (what : String)
  | overflowError (what : String)
  | logicError (what : String)
  | outOfRange
  | lengthError (what : String)
  | commandEvidenceDecodeError (code : CommandEvidenceDecodeErrorCode) (what : String)
  | commandEvidenceArchiveError (code : CommandEvidenceArchiveErrorCode) (what : String)
  | undefinedBehaviour
  deriving DecidableEq, Repr

/-- Whether `catch (const std::logic_error&)` catches the fault; `std::invalid_argument`,
`std::out_of_range` and `std::length_error` derive from it. -/
def Fault.isLogicError : Fault → Bool
  | .invalidArgument _ | .logicError _ | .outOfRange | .lengthError _ => true
  | _ => false

/-- Whether `catch (const std::overflow_error&)` catches the fault. -/
def Fault.isOverflowError : Fault → Bool
  | .overflowError _ => true
  | _ => false

/-! ## Member functions -/

/-- A member function of a class with state `σ`: its result or its fault, and the
object it leaves behind in either case. -/
abbrev Member (σ α : Type) := EStateM Fault σ α

namespace Member

variable {σ τ α β : Type}

/-- A computation that touches no object, used inside a member function. -/
instance : MonadLift (Except Fault) (EStateM Fault σ) where
  monadLift
    | .ok a => fun s => .ok a s
    | .error e => fun s => .error e s

/-- Run a member function of one part of an object. -/
def within (part : σ → τ) (update : σ → τ → σ) (action : Member τ α) : Member σ α := fun s =>
  match action (part s) with
  | .ok a t => .ok a (update s t)
  | .error e t => .error e (update s t)

/-- Run a member function on a local copy, dropping the copy when it throws. -/
def onCopy (action : Member τ α) (t : τ) : Except Fault (α × τ) :=
  match action t with
  | .ok a t' => .ok (a, t')
  | .error e _ => .error e

@[simp] theorem pure_apply (a : α) (s : σ) : (pure a : Member σ α) s = .ok a s := rfl

@[simp] theorem get_apply (s : σ) : (get : Member σ σ) s = .ok s s := rfl

@[simp] theorem set_apply (s t : σ) : (set t : Member σ PUnit) s = .ok ⟨⟩ t := rfl

@[simp] theorem throw_apply (e : Fault) (s : σ) : (throw e : Member σ α) s = .error e s := rfl

/-- Sequencing, case by case. -/
theorem bind_apply (x : Member σ α) (f : α → Member σ β) (s : σ) :
    (x >>= f) s = match x s with
      | .ok a s' => f a s'
      | .error e s' => .error e s' := by
  change EStateM.bind x f s = _
  unfold EStateM.bind
  cases x s <;> rfl

theorem ite_apply (c : Prop) [Decidable c] (x y : Member σ α) (s : σ) :
    (if c then x else y) s = if c then x s else y s := by
  split_ifs <;> rfl

/-- Sequencing behind a member that returned. -/
theorem bind_ok {x : Member σ α} {f : α → Member σ β} {s s' : σ} {a : α} (h : x s = .ok a s') :
    (x >>= f) s = f a s' := by
  rw [bind_apply, h]

/-- Sequencing behind a member that threw. -/
theorem bind_error {x : Member σ α} {f : α → Member σ β} {s s' : σ} {e : Fault}
    (h : x s = .error e s') : (x >>= f) s = .error e s' := by
  rw [bind_apply, h]

@[simp] theorem lift_ok (a : α) (s : σ) :
    (liftM (Except.ok a : Except Fault α) : Member σ α) s = .ok a s := rfl

@[simp] theorem lift_error (e : Fault) (s : σ) :
    (liftM (Except.error e : Except Fault α) : Member σ α) s = .error e s := rfl

/-- A call on a copy returns what the member returns. -/
theorem onCopy_iff {action : Member σ α} {s s' : σ} {a : α} :
    onCopy action s = .ok (a, s') ↔ action s = .ok a s' := by
  unfold onCopy
  cases action s <;> simp

end Member

/-- A function that returned has returned from each part. -/
theorem except_bind_iff {ε α β : Type} {x : Except ε α} {f : α → Except ε β} {b : β} :
    (x >>= f) = .ok b ↔ ∃ a, x = .ok a ∧ f a = .ok b := by
  cases x <;> simp [bind, Except.bind]

/-- In a function that returned, no check has fired. -/
theorem except_guard_iff {ε α : Type} {c : Prop} [Decidable c] {fault : ε}
    {f : PUnit → Except ε α} {y : Except ε α} {a : α} :
    (if c then throw fault >>= f else y) = .ok a ↔ ¬ c ∧ y = .ok a := by
  by_cases hc : c <;> simp [hc, throw, throwThe, MonadExceptOf.throw, bind, Except.bind]

/-! ## Signed 64-bit arithmetic -/

namespace Signed

/-- A signed operation with this exact result; a result outside the type is undefined
behaviour. -/
def exact (value : ℤ) : Except Fault Int64 :=
  if -2 ^ 63 ≤ value ∧ value < 2 ^ 63 then .ok (Int64.ofInt value)
  else .error .undefinedBehaviour

def add (a b : Int64) : Except Fault Int64 := exact (a.toInt + b.toInt)

def sub (a b : Int64) : Except Fault Int64 := exact (a.toInt - b.toInt)

def mul (a b : Int64) : Except Fault Int64 := exact (a.toInt * b.toInt)

def neg (a : Int64) : Except Fault Int64 := exact (-a.toInt)

/-- Division truncates toward zero; a zero divisor is undefined behaviour. -/
def div (a b : Int64) : Except Fault Int64 :=
  if b = 0 then .error .undefinedBehaviour else exact (a.toInt.tdiv b.toInt)

/-- The remainder has the sign of the dividend; it is undefined where the quotient is. -/
def mod (a b : Int64) : Except Fault Int64 := do
  let _ ← div a b
  exact (a.toInt.tmod b.toInt)

/-- An operation whose result is in range returns it. -/
theorem exact_ok {value : ℤ} (hlo : -2 ^ 63 ≤ value) (hhi : value < 2 ^ 63) :
    exact value = .ok (Int64.ofInt value) := if_pos ⟨hlo, hhi⟩

/-- What an operation returns is its exact result. -/
theorem toInt_exact {value : ℤ} {v : Int64} (h : exact value = .ok v) : v.toInt = value := by
  unfold exact at h
  split_ifs at h with hrange
  cases h
  exact Int64.toInt_ofInt_of_le hrange.1 hrange.2

/-- An operation whose exact result is in range returns it. -/
theorem exact_eq (value : ℤ) (hlo : -2 ^ 63 ≤ value) (hhi : value < 2 ^ 63) :
    ∃ v, exact value = .ok v ∧ v.toInt = value :=
  ⟨_, exact_ok hlo hhi, toInt_exact (exact_ok hlo hhi)⟩

end Signed

/-- `std::numeric_limits<std::int64_t>::max()`. -/
def int64Maximum : Int64 := Int64.maxValue

/-- `std::numeric_limits<std::int64_t>::min()`. -/
def int64Minimum : Int64 := Int64.minValue

/-! ## Vectors -/

/-- `max_size()` of a vector of elements of the given size: no object is larger than
`PTRDIFF_MAX` bytes. -/
def vectorMaxSize (elementSize : ℕ) : ℕ := (2 ^ 63 - 1) / elementSize

/-- `std::vector::push_back`, which throws when the vector is at its maximum size. -/
def pushBack {α : Type} (elementSize : ℕ) (xs : List α) (x : α) : Except Fault (List α) :=
  if xs.length < vectorMaxSize elementSize then .ok (xs ++ [x])
  else .error (.lengthError "vector")

/-- `std::vector::reserve`, which throws above the maximum size. -/
def reserve (elementSize capacity : ℕ) : Except Fault Unit :=
  if vectorMaxSize elementSize < capacity then .error (.lengthError "vector::reserve") else .ok ()

theorem reserve_iff {elementSize capacity : ℕ} {u : Unit} :
    reserve elementSize capacity = .ok u ↔ capacity ≤ vectorMaxSize elementSize := by
  unfold reserve
  split_ifs with h
  · exact iff_of_false (by simp) (Nat.not_le.mpr h)
  · exact iff_of_true rfl (Nat.le_of_not_lt h)

end Tickline.Model
