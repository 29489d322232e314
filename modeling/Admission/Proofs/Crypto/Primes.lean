import Mathlib.NumberTheory.LucasPrimality
import Admission.Proofs.Crypto.Modular

/-!
# The primes of the curve

A number is prime if it has a *root*: a number whose power to the predecessor leaves one, and whose
power to no proper part of the predecessor does. Who knows the primes that the predecessor is made
of can check that with a few powers. A certificate is a list of numbers with their roots, where each
predecessor is a product of numbers before it; the one below ends with the order of the group and
the field prime (`prime_order`, `prime_fieldPrime`).
-/

namespace Admission.Crypto.Secp256k1

/-! ## Certificates -/

/-- A number, a root of it, and the factors of its predecessor. -/
structure RootEntry where
  number : ℕ
  root : ℕ
  factors : List ℕ

/-- The power of the root, by as many squarings as the number has bits. -/
def RootEntry.power (e : RootEntry) (exponent : ℕ) : ℕ :=
  powerMod e.number (e.number.log2 + 1) e.root exponent

/-- Whether an entry shows that its number is prime, if those that are known are. -/
def RootEntry.passes (e : RootEntry) (known : List ℕ) : Bool :=
  decide (1 < e.number ∧ (∀ q ∈ e.factors, q ∈ known) ∧ e.factors.prod = e.number - 1 ∧
    e.power (e.number - 1) = 1 ∧ ∀ q ∈ e.factors, e.power ((e.number - 1) / q) ≠ 1)

/-- Whether each entry passes with what is known before it. -/
def certifies : List ℕ → List RootEntry → Bool
  | _, [] => true
  | known, e :: rest => e.passes known && certifies (e.number :: known) rest

/-- A power leaves one if its residue is one. -/
lemma RootEntry.cast_pow_eq_one_iff {e : RootEntry} (hnumber : 1 < e.number) {exponent : ℕ}
    (h : exponent < e.number) :
    (e.root : ZMod e.number) ^ exponent = 1 ↔ e.power exponent = 1 := by
  rw [power, powerMod_eq _ _ (h.trans Nat.lt_log2_self), ← Nat.cast_pow,
    ← Nat.cast_one (R := ZMod e.number), ZMod.natCast_eq_natCast_iff', Nat.mod_eq_of_lt hnumber]

/-- An entry that passes has a prime. -/
lemma RootEntry.prime_of_passes {e : RootEntry} {known : List ℕ}
    (hknown : ∀ q ∈ known, q.Prime) (h : e.passes known = true) : e.number.Prime := by
  obtain ⟨hnumber, hfactors, hprod, hroot, hparts⟩ := of_decide_eq_true h
  have hexponent : ∀ {m}, m ≤ e.number - 1 → m < e.number := by
    intro m hm
    omega
  refine lucas_primality e.number (e.root : ZMod e.number) ?_ ?_
  · exact (cast_pow_eq_one_iff hnumber (hexponent le_rfl)).mpr hroot
  · intro q hq hdvd
    have hmem : q ∈ e.factors := by
      rw [← hprod] at hdvd
      exact mem_list_primes_of_dvd_prod hq.prime
        (fun p hp => (hknown p (hfactors p hp)).prime) hdvd
    rw [ne_eq, cast_pow_eq_one_iff hnumber (hexponent (Nat.div_le_self _ _))]
    exact hparts q hmem

/-- A certificate has primes only. -/
theorem prime_of_certifies {known : List ℕ} {entries : List RootEntry}
    (hknown : ∀ q ∈ known, q.Prime) (h : certifies known entries = true) :
    ∀ e ∈ entries, e.number.Prime := by
  induction entries generalizing known with
  | nil => exact List.forall_mem_nil _
  | cons first rest ih =>
    rw [certifies, Bool.and_eq_true] at h
    have hfirst : first.number.Prime := first.prime_of_passes hknown h.1
    exact List.forall_mem_cons.mpr ⟨hfirst, ih (List.forall_mem_cons.mpr ⟨hfirst, hknown⟩) h.2⟩

/-! ## The two primes -/

/-- The certificate of the group's order and the field prime. -/
def certificate : List RootEntry :=
  [⟨2, 1, []⟩, ⟨3, 2, [2]⟩, ⟨5, 2, [2, 2]⟩, ⟨7, 3, [2, 3]⟩, ⟨11, 2, [2, 5]⟩, ⟨13, 2, [2, 2, 3]⟩,
    ⟨17, 3, [2, 2, 2, 2]⟩, ⟨19, 2, [2, 3, 3]⟩, ⟨23, 5, [2, 11]⟩, ⟨29, 2, [2, 2, 7]⟩,
    ⟨31, 3, [2, 3, 5]⟩, ⟨37, 2, [2, 2, 3, 3]⟩, ⟨41, 6, [2, 2, 2, 5]⟩, ⟨53, 2, [2, 2, 13]⟩,
    ⟨59, 2, [2, 29]⟩, ⟨67, 2, [2, 3, 11]⟩, ⟨73, 5, [2, 2, 2, 3, 3]⟩, ⟨83, 2, [2, 41]⟩,
    ⟨97, 5, [2, 2, 2, 2, 2, 3]⟩, ⟨101, 2, [2, 2, 5, 5]⟩, ⟨103, 5, [2, 3, 17]⟩,
    ⟨109, 6, [2, 2, 3, 3, 3]⟩, ⟨113, 3, [2, 2, 2, 2, 7]⟩, ⟨131, 2, [2, 5, 13]⟩,
    ⟨149, 2, [2, 2, 37]⟩, ⟨199, 3, [2, 3, 3, 11]⟩, ⟨239, 7, [2, 7, 17]⟩, ⟨271, 6, [2, 3, 3, 3, 5]⟩,
    ⟨293, 2, [2, 2, 73]⟩, ⟨419, 2, [2, 11, 19]⟩, ⟨443, 2, [2, 13, 17]⟩, ⟨461, 2, [2, 2, 5, 23]⟩,
    ⟨631, 3, [2, 3, 3, 5, 7]⟩, ⟨797, 2, [2, 2, 199]⟩, ⟨887, 5, [2, 443]⟩, ⟨971, 6, [2, 5, 97]⟩,
    ⟨1373, 2, [2, 2, 7, 7, 7]⟩, ⟨1409, 3, [2, 2, 2, 2, 2, 2, 2, 11]⟩, ⟨1627, 3, [2, 3, 271]⟩,
    ⟨1871, 14, [2, 5, 11, 17]⟩, ⟨2011, 3, [2, 3, 5, 67]⟩, ⟨2621, 2, [2, 2, 5, 131]⟩,
    ⟨2657, 3, [2, 2, 2, 2, 2, 83]⟩, ⟨2731, 3, [2, 3, 5, 7, 13]⟩, ⟨2861, 2, [2, 2, 5, 11, 13]⟩,
    ⟨4051, 10, [2, 3, 3, 3, 3, 5, 5]⟩, ⟨4423, 3, [2, 3, 11, 67]⟩, ⟨5323, 5, [2, 3, 887]⟩,
    ⟨7723, 3, [2, 3, 3, 3, 11, 13]⟩, ⟨9349, 2, [2, 2, 3, 19, 41]⟩,
    ⟨13441, 11, [2, 2, 2, 2, 2, 2, 2, 3, 5, 7]⟩, ⟨16699, 3, [2, 3, 11, 11, 23]⟩,
    ⟨20113, 10, [2, 2, 2, 2, 3, 419]⟩, ⟨24809, 6, [2, 2, 2, 7, 443]⟩, ⟨28181, 2, [2, 2, 5, 1409]⟩,
    ⟨41201, 3, [2, 2, 2, 2, 5, 5, 103]⟩, ⟨85831, 3, [2, 3, 5, 2861]⟩, ⟨96557, 2, [2, 2, 101, 239]⟩,
    ⟨120233, 3, [2, 2, 2, 7, 19, 113]⟩, ⟨305873, 3, [2, 2, 2, 2, 7, 2731]⟩,
    ⟨1206781, 10, [2, 2, 3, 5, 20113]⟩, ⟨1627771, 3, [2, 3, 5, 29, 1871]⟩,
    ⟨4681609, 23, [2, 2, 2, 3, 97, 2011]⟩, ⟨7240687, 3, [2, 3, 1206781]⟩,
    ⟨13331831, 13, [2, 5, 971, 1373]⟩, ⟨44706919, 6, [2, 3, 797, 9349]⟩,
    ⟨107590001, 3, [2, 2, 2, 2, 5, 5, 5, 5, 7, 29, 53]⟩, ⟨545358713, 5, [2, 2, 2, 41, 59, 28181]⟩,
    ⟨297159362677, 2, [2, 2, 3, 3, 11, 461, 1627771]⟩,
    ⟨107361793816595537, 3, [2, 2, 2, 2, 16699, 85831, 4681609]⟩,
    ⟨173378833005251801, 6, [2, 2, 2, 5, 5, 2621, 24809, 13331831]⟩,
    ⟨174723607534414371449, 3, [2, 2, 2, 17, 59, 4051, 120233, 44706919]⟩,
    ⟨22149492674086928081353, 5, [2, 2, 2, 3, 5323, 173378833005251801]⟩,
    ⟨132896956044521568488119, 6, [2, 3, 22149492674086928081353]⟩,
    ⟨29047611873442575647497758179, 2, [2, 293, 305873, 545358713, 297159362677]⟩,
    ⟨341948486974166000522343609283189, 2, [2, 2, 3, 3, 3, 109, 29047611873442575647497758179]⟩,
    ⟨255515944373312847190720520512484175977, 3,
      [2, 2, 2, 7, 7, 11, 1627, 2657, 4423, 41201, 96557, 7240687, 107590001]⟩,
    ⟨205115282021455665897114700593932402728804164701536103180137503955397371, 10,
      [2, 3, 5, 29, 29, 31, 7723, 132896956044521568488119,
        255515944373312847190720520512484175977]⟩,
    ⟨order, 7,
      [2, 2, 2, 2, 2, 2, 3, 149, 631, 107361793816595537, 174723607534414371449,
        341948486974166000522343609283189]⟩,
    ⟨fieldPrime, 3,
      [2, 3, 7, 13441,
        205115282021455665897114700593932402728804164701536103180137503955397371]⟩]

lemma prime_of_mem_certificate {q : ℕ} (h : q ∈ certificate.map RootEntry.number) : q.Prime := by
  obtain ⟨e, he, rfl⟩ := List.mem_map.mp h
  exact prime_of_certifies (List.forall_mem_nil _) (by decide +kernel) e he

theorem prime_order : order.Prime :=
  prime_of_mem_certificate (by decide +kernel)

theorem prime_fieldPrime : fieldPrime.Prime :=
  prime_of_mem_certificate (by decide +kernel)

instance : Fact order.Prime := ⟨prime_order⟩

instance : Fact fieldPrime.Prime := ⟨prime_fieldPrime⟩

end Admission.Crypto.Secp256k1
