/-!
# Numbers as bytes

Keys, signatures and digests are numbers written in bytes, the most significant first.
-/

namespace Admission.Bytes

-- Powers are those of the core library, also where another instance is in sight.
attribute [local instance (high)] instPowNat

/-- The number that bytes write, the first leading. -/
def number (bytes : List UInt8) : Nat :=
  bytes.foldl (fun n byte => 256 * n + byte.toNat) 0

/-- The last `width` bytes of a number. -/
def ofNumber : Nat → Nat → List UInt8
  | 0, _ => []
  | width + 1, n => ofNumber width (n / 256) ++ [UInt8.ofNat (n % 256)]

/-- As many bytes are written as asked for. -/
@[simp] theorem length_ofNumber (width n : Nat) : (ofNumber width n).length = width := by
  induction width generalizing n with
  | zero => rfl
  | succ width ih => simp [ofNumber, ih]

/-- A byte that follows counts once, and what stands before it 256 times. -/
theorem number_append_singleton (bytes : List UInt8) (byte : UInt8) :
    number (bytes ++ [byte]) = 256 * number bytes + byte.toNat := by
  simp [number]

/-- A number that fits is read back from its bytes. -/
theorem number_ofNumber {width n : Nat} (fits : n < 256 ^ width) :
    number (ofNumber width n) = n := by
  induction width generalizing n with
  | zero => simp at fits; subst fits; rfl
  | succ width ih =>
    have quotient : n / 256 < 256 ^ width := by
      rw [Nat.div_lt_iff_lt_mul (by decide)]
      rwa [Nat.pow_succ] at fits
    rw [ofNumber, number_append_singleton, ih quotient, UInt8.toNat_ofNat']
    omega

/-- Bytes are the bytes of their number, leading zeros included. -/
theorem ofNumber_number (bytes : List UInt8) : ofNumber bytes.length (number bytes) = bytes := by
  generalize hlength : bytes.length = width
  induction width generalizing bytes with
  | zero => rw [ofNumber, List.eq_nil_of_length_eq_zero hlength]
  | succ width ih =>
    -- The last byte is split off, as a number is written from its last byte on.
    rcases List.eq_nil_or_concat bytes with rfl | ⟨init, last, rfl⟩
    · exact nomatch hlength
    · rw [List.concat_eq_append, List.length_append, List.length_singleton] at hlength
      rw [List.concat_eq_append]
      have bound := last.toNat_lt
      have quotient : number (init ++ [last]) / 256 = number init := by
        rw [number_append_singleton]
        omega
      have rest : number (init ++ [last]) % 256 = last.toNat := by
        rw [number_append_singleton]
        omega
      rw [ofNumber, quotient, ih init (Nat.succ.inj hlength), rest, UInt8.ofNat_toNat]

/-- Bytes of one length are told apart by their numbers. -/
theorem eq_of_number_eq {a b : List UInt8} (length_eq : a.length = b.length)
    (same : number a = number b) : a = b := by
  rw [← ofNumber_number a, ← ofNumber_number b, length_eq, same]

end Admission.Bytes
