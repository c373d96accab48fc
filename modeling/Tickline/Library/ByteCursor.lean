import Mathlib.Logic.Function.Defs
import Tickline.Library.BigEndian

/-!
# Reading fields from a byte string

A `ByteCursor` is a byte string with a position in it, and a reader is a state action on
a cursor that may fail.

* `Takes p bytes a`: wherever these bytes come next, `p` takes them and returns `a`.
  The rules `Takes.pure` and `Takes.bind` read a record field by field.
* `Reads read bytes`: reader and writer of one field agree in both directions; the
  reader takes what the writer writes, and what it has read is what the writer writes for
  its result.  `Reads.bind_ok` takes a successful reader of a record apart, one field at
  a time.
* `Reads.of_decode` gives both for a big-endian field of fixed width.
* `ReadsWithin allowed p width`: where so many bytes are left, `p` stays in front of their end.  It
  returns exactly there, and it fails only with what is allowed for the bytes it has not read.
  The rules `ReadsWithin.bind` and `ReadsWithin.throw` add up the widths of the fields of a record.

Nothing is asked of a reader that runs into the end of the string but that it fails.
-/

set_option autoImplicit false

namespace Tickline.Library

/-- A byte string and a position in it. -/
structure ByteCursor where
  input : List UInt8
  offset : ℕ := 0
  deriving DecidableEq

namespace ByteCursor

/-- What is left to read. -/
def rest (c : ByteCursor) : List UInt8 := c.input.drop c.offset

/-- The cursor `n` bytes further on. -/
def skip (c : ByteCursor) (n : ℕ) : ByteCursor := { c with offset := c.offset + n }

@[simp] theorem rest_skip (c : ByteCursor) (n : ℕ) : (c.skip n).rest = c.rest.drop n := by
  simp [rest, skip]

theorem skip_skip (c : ByteCursor) (m n : ℕ) : (c.skip m).skip n = c.skip (m + n) := by
  rw [skip, skip, skip, Nat.add_assoc]

@[simp] theorem rest_start (bytes : List UInt8) : (ByteCursor.mk bytes 0).rest = bytes := rfl

/-- What was read from the start of the input is the input when it is as long. -/
theorem eq_of_rest_start {bytes out : List UInt8} {c : ByteCursor}
    (h : (ByteCursor.mk bytes 0).rest = out ++ c.rest) (hlen : bytes.length = out.length) :
    bytes = out := by
  rw [rest_start] at h
  have hnil : c.rest = [] := by
    have hlength := congrArg List.length h
    rw [List.length_append] at hlength
    exact List.length_eq_zero_iff.mp (by omega)
  rw [h, hnil, List.append_nil]

end ByteCursor

variable {ε α β : Type}

/-- The reader takes exactly these bytes and returns this value. -/
def Takes (p : EStateM ε ByteCursor α) (bytes : List UInt8) (a : α) : Prop :=
  ∀ c tail, c.rest = bytes ++ tail → ∃ c', p c = .ok a c' ∧ c'.rest = tail

/-- A reader returns from an input that is just what it takes. -/
theorem Takes.whole {p : EStateM ε ByteCursor α} {bytes : List UInt8} {a : α}
    (h : Takes p bytes a) : ∃ c, p { input := bytes } = .ok a c := by
  obtain ⟨c, hrun, -⟩ := h { input := bytes } []
    (by rw [ByteCursor.rest_start, List.append_nil])
  exact ⟨c, hrun⟩

/-- Returning takes no bytes. -/
theorem Takes.pure (a : α) : Takes (pure a : EStateM ε ByteCursor α) [] a :=
  fun c _ h => ⟨c, rfl, h⟩

/-- One reader behind another takes the bytes of both. -/
theorem Takes.bind {p : EStateM ε ByteCursor α} {f : α → EStateM ε ByteCursor β}
    {bytes bytes' : List UInt8} {a : α} {b : β} (hp : Takes p bytes a)
    (hf : Takes (f a) bytes' b) : Takes (p >>= f) (bytes ++ bytes') b := by
  intro c tail h
  rw [List.append_assoc] at h
  obtain ⟨c', hrun, hrest⟩ := hp c _ h
  obtain ⟨c'', hrun', hrest'⟩ := hf c' tail hrest
  refine ⟨c'', ?_, hrest'⟩
  change EStateM.bind p f c = _
  rw [EStateM.bind, hrun]
  exact hrun'

/-- A successful sequence is a success of each part. -/
theorem bind_eq_ok {σ : Type} {p : EStateM ε σ α} {f : α → EStateM ε σ β} {s s' : σ} {b : β}
    (h : (p >>= f) s = .ok b s') : ∃ a t, p s = .ok a t ∧ f a t = .ok b s' := by
  change EStateM.bind p f s = _ at h
  unfold EStateM.bind at h
  split at h
  · exact ⟨_, _, ‹_›, h⟩
  · cases h

/-- The reader of a field and its writer agree. -/
structure Reads (read : EStateM ε ByteCursor α) (bytes : α → List UInt8) : Prop where
  takes : ∀ a, Takes read (bytes a) a
  sound : ∀ {c a c'}, read c = .ok a c' → c.rest = bytes a ++ c'.rest

namespace Reads

variable {read : EStateM ε ByteCursor α} {bytes : α → List UInt8}

/-- The first field of a record that was read. -/
theorem bind_ok (h : Reads read bytes) {f : α → EStateM ε ByteCursor β} {c c' : ByteCursor}
    {b : β} (hrun : (read >>= f) c = .ok b c') :
    ∃ a t, c.rest = bytes a ++ t.rest ∧ f a t = .ok b c' := by
  obtain ⟨a, t, hread, hrest⟩ := bind_eq_ok hrun
  exact ⟨a, t, h.sound hread, hrest⟩

/-- A field read as one type and kept as another, through an invertible conversion. -/
theorem map (h : Reads read bytes) (f : α → β) (g : β → α) (hfg : ∀ b, f (g b) = b)
    (hgf : ∀ a, g (f a) = a) :
    Reads (read >>= fun a => Pure.pure (f a)) fun b => bytes (g b) where
  takes b := by
    have htakes : Takes (read >>= fun a => Pure.pure (f a)) (bytes (g b) ++ []) (f (g b)) :=
      (h.takes (g b)).bind (Takes.pure _)
    rwa [List.append_nil, hfg] at htakes
  sound {c b c'} hrun := by
    obtain ⟨a, t, hrest, hpure⟩ := h.bind_ok hrun
    cases hpure
    rwa [hgf]

/-- A big-endian field of fixed width: the reader takes `width` bytes and computes the
number they spell. -/
theorem of_decode {width : ℕ} (toNat : α → ℕ) (hinj : Function.Injective toNat)
    (hlt : ∀ a, toNat a < 256 ^ width) (hbytes : ∀ a, bytes a = BigEndian.encode width (toNat a))
    (value : List UInt8 → α)
    (hvalue : ∀ bs, bs.length = width → toNat (value bs) = BigEndian.decode bs)
    (htakes : ∀ bs, bs.length = width → Takes read bs (value bs))
    (hsound : ∀ {c a c'}, read c = .ok a c' →
      ∃ bs, bs.length = width ∧ c.rest = bs ++ c'.rest ∧ a = value bs) :
    Reads read bytes where
  takes a := by
    have hlen : (bytes a).length = width := by rw [hbytes, BigEndian.length_encode]
    have hback : value (bytes a) = a := by
      apply hinj
      rw [hvalue _ hlen, hbytes, BigEndian.decode_encode_of_lt (hlt a)]
    have hread := htakes (bytes a) hlen
    rwa [hback] at hread
  sound {c a c'} hrun := by
    obtain ⟨bs, hlen, hrest, rfl⟩ := hsound hrun
    rw [hbytes, hvalue bs hlen, ← hlen, BigEndian.encode_decode]
    exact hrest

end Reads

/-! ## Reading inside a span -/

/-- Where `width` bytes are left, the reader returns behind exactly these, or fails in front of
their end with an error that is allowed for the bytes it has left of them. -/
def ReadsWithin (allowed : ε → ℕ → Prop) (p : EStateM ε ByteCursor α) (width : ℕ) : Prop :=
  ∀ c : ByteCursor, c.offset + width ≤ c.input.length →
    match p c with
    | .ok _ c' => c' = c.skip width
    | .error e c' => ∃ used left, used + left = width ∧ c' = c.skip used ∧ allowed e left

namespace ReadsWithin

variable {allowed : ε → ℕ → Prop}

theorem pure (a : α) : ReadsWithin allowed (Pure.pure a : EStateM ε ByteCursor α) 0 :=
  fun _ _ => rfl

theorem throw {e : ε} {width : ℕ} (h : allowed e width) :
    ReadsWithin allowed (MonadExcept.throw e : EStateM ε ByteCursor α) width :=
  fun _ _ => ⟨0, width, Nat.zero_add width, rfl, h⟩

/-- One reader behind another; what the first one leaves includes the bytes of the second. -/
theorem bind {p : EStateM ε ByteCursor α} {f : α → EStateM ε ByteCursor β} {m n : ℕ}
    (hp : ReadsWithin (fun e left => allowed e (left + n)) p m)
    (hf : ∀ a, ReadsWithin allowed (f a) n) : ReadsWithin allowed (p >>= f) (m + n) := by
  intro c hroom
  have hfirst := hp c (by omega)
  cases hpc : p c with
  | error e c' =>
    have hrun : (p >>= f) c = .error e c' := by
      change EStateM.bind p f c = _
      rw [EStateM.bind, hpc]
    rw [hpc] at hfirst
    obtain ⟨used, left, hsum, hskip, hallowed⟩ := hfirst
    rw [hrun]
    exact ⟨used, left + n, by omega, hskip, hallowed⟩
  | ok a c' =>
    rw [hpc] at hfirst
    obtain rfl : c' = c.skip m := hfirst
    have hrun : (p >>= f) c = f a (c.skip m) := by
      change EStateM.bind p f c = _
      rw [EStateM.bind, hpc]
    have hsecond := hf a (c.skip m) (by rw [ByteCursor.skip]; dsimp only; omega)
    rw [hrun]
    cases hfc : f a (c.skip m) with
    | ok b c'' =>
      rw [hfc] at hsecond
      exact hsecond.trans (ByteCursor.skip_skip c m n)
    | error e c'' =>
      rw [hfc] at hsecond
      obtain ⟨used, left, hsum, hskip, hallowed⟩ := hsecond
      exact ⟨m + used, left, by omega, hskip.trans (ByteCursor.skip_skip c m used), hallowed⟩

/-- A check in front of the rest of a record. -/
theorem guard {c : Prop} [Decidable c] {e : ε} {f : PUnit → EStateM ε ByteCursor α}
    {p : EStateM ε ByteCursor α} {width : ℕ} (h : allowed e width)
    (hp : ReadsWithin allowed p width) :
    ReadsWithin allowed (if c then MonadExcept.throw e >>= f else p) width := by
  split_ifs
  · exact fun cursor _ => ⟨0, width, Nat.zero_add width, rfl, h⟩
  · exact hp

end ReadsWithin

end Tickline.Library
