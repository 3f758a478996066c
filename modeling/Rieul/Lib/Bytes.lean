import Mathlib.Tactic.Ring
import Mathlib.Data.List.Induction
import Mathlib.Data.Nat.Digits.Defs

/-!
# Byte strings and big-endian integers

Fixed-width byte arrays carry their length.
-/

namespace Bytes

abbrev Str := List UInt8

/-- An array of exactly `n` bytes. -/
structure Fixed (n : ℕ) where
  data : Str
  size : data.length = n
  deriving DecidableEq

@[ext] theorem Fixed.ext' {n : ℕ} {a b : Fixed n} (h : a.data = b.data) : a = b := by
  cases a
  cases b
  cases h
  rfl

def Fixed.ofStr (n : ℕ) (b : Str) : Option (Fixed n) :=
  if h : b.length = n then some ⟨b, h⟩ else none

@[simp] theorem Fixed.ofStr_data {n : ℕ} (a : Fixed n) : Fixed.ofStr n a.data = some a := by
  simp [Fixed.ofStr, a.size]

theorem Fixed.ofStr_eq_some {n : ℕ} {b : Str} {a : Fixed n} :
    Fixed.ofStr n b = some a ↔ b = a.data := by
  constructor
  · intro h
    by_cases hb : b.length = n
    · simp only [Fixed.ofStr, hb, dite_true, Option.some.injEq] at h
      rw [← h]
    · simp [Fixed.ofStr, hb] at h
  · rintro rfl
    exact Fixed.ofStr_data a

/-- The array of `n` equal bytes. -/
def Fixed.fill (n : ℕ) (b : UInt8) : Fixed n := ⟨List.replicate n b, List.length_replicate⟩

/-- The `k` low bytes of `n`, most significant first. -/
def beBytes : ℕ → ℕ → Str
  | 0, _ => []
  | k + 1, n => beBytes k (n / 256) ++ [UInt8.ofNat n]

def beNat (b : Str) : ℕ := b.foldl (fun n x => 256 * n + x.toNat) 0

@[simp] theorem beBytes_length (k n : ℕ) : (beBytes k n).length = k := by
  induction k generalizing n with
  | zero => rfl
  | succ k ih => simp [beBytes, ih]

theorem beNat_beBytes (k n : ℕ) (h : n < 256 ^ k) : beNat (beBytes k n) = n := by
  induction k generalizing n with
  | zero =>
    have h0 : n = 0 := by simpa using h
    simp [h0, beBytes, beNat]
  | succ k ih =>
    have hd : n / 256 < 256 ^ k := by
      rw [Nat.div_lt_iff_lt_mul (by norm_num)]
      rwa [pow_succ] at h
    have hi := ih (n / 256) hd
    simp only [beNat] at hi
    simp only [beNat, beBytes, List.foldl_append, List.foldl_cons, List.foldl_nil, hi,
      UInt8.toNat_ofNat']
    omega

theorem beBytes_add (j k n : ℕ) : beBytes (j + k) n = beBytes j (n / 256 ^ k) ++ beBytes k n := by
  induction k generalizing n with
  | zero => simp [beBytes]
  | succ k ih =>
    rw [← Nat.add_assoc, beBytes, ih, beBytes, List.append_assoc, Nat.div_div_eq_div_mul, pow_succ']

theorem beBytes_mod (k n : ℕ) : beBytes k (n % 256 ^ k) = beBytes k n := by
  induction k generalizing n with
  | zero => rfl
  | succ k ih =>
    have hdiv : n % 256 ^ (k + 1) / 256 = n / 256 % 256 ^ k := by
      rw [pow_succ', Nat.mod_mul_right_div_self]
    have hlow : UInt8.ofNat (n % 256 ^ (k + 1)) = UInt8.ofNat n := by
      apply UInt8.toNat_inj.mp
      rw [UInt8.toNat_ofNat', UInt8.toNat_ofNat', pow_succ']
      exact Nat.mod_mul_right_mod n 256 (256 ^ k)
    rw [beBytes, beBytes, hdiv, hlow, ih]

theorem beNat_beBytes_mod (k n : ℕ) : beNat (beBytes k n) = n % 256 ^ k := by
  rw [← beBytes_mod, beNat_beBytes k _ (Nat.mod_lt _ (by positivity))]

theorem beBytes_inj (k n m : ℕ) (hn : n < 256 ^ k) (hm : m < 256 ^ k)
    (h : beBytes k n = beBytes k m) : n = m := by
  rw [← beNat_beBytes k n hn, ← beNat_beBytes k m hm, h]

theorem beNat_append_singleton (b : Str) (x : UInt8) :
    beNat (b ++ [x]) = 256 * beNat b + x.toNat := by
  simp [beNat]

theorem beNat_lt (b : Str) : beNat b < 256 ^ b.length := by
  induction b using List.reverseRecOn with
  | nil => simp [beNat]
  | append_singleton b x ih =>
    have hx := x.toNat_lt
    rw [beNat_append_singleton, List.length_append, List.length_singleton, pow_succ]
    omega

theorem beBytes_beNat (b : Str) : beBytes b.length (beNat b) = b := by
  induction b using List.reverseRecOn with
  | nil => rfl
  | append_singleton b x ih =>
    have hx := x.toNat_lt
    have hd : beNat (b ++ [x]) / 256 = beNat b := by
      rw [beNat_append_singleton]
      omega
    have hm : UInt8.ofNat (beNat (b ++ [x])) = x := by
      apply UInt8.toNat_inj.mp
      rw [UInt8.toNat_ofNat', beNat_append_singleton]
      omega
    rw [List.length_append, List.length_singleton, beBytes, hd, hm, ih]

theorem frame_inj {a b r s : Str} (hl : a.length = b.length) (h : a ++ r = b ++ s) :
    a = b ∧ r = s := List.append_inj h hl

theorem Fixed.frame_inj {n : ℕ} {a b : Fixed n} {r s : Str} (h : a.data ++ r = b.data ++ s) :
    a = b ∧ r = s := by
  obtain ⟨hd, hr⟩ := Bytes.frame_inj (by rw [a.size, b.size]) h
  exact ⟨Fixed.ext' hd, hr⟩

end Bytes
