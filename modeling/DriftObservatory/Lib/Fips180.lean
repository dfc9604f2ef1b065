import DriftObservatory.Lib.Blocks
import Mathlib.Data.Nat.Prime.Defs
import Mathlib.Data.Nat.Find
import Mathlib.Tactic.IntervalCases
import Mathlib.Tactic.NormNum.Prime

/-! SHA-256 as FIPS 180-4 specifies it, on strings of bits: the functions of section 4.1.2, the constants of 4.2.2 and
    5.3.3, the preprocessing of section 5 and the computation of 6.2. -/

namespace Fips180

abbrev Word := BitVec 32

/-! ### Bits -/

/-- The bits of a word, the most significant first. -/
def bits {w : Nat} (x : BitVec w) : List Bool := (List.range w).map x.getMsbD

/-- The word with these bits. -/
def ofBits (w : Nat) (bs : List Bool) : BitVec w := (BitVec.ofBoolListBE bs).setWidth w

@[simp] theorem length_bits {w : Nat} (x : BitVec w) : (bits x).length = w := by
  rw [bits, List.length_map, List.length_range]

theorem ofBits_bits {w : Nat} (x : BitVec w) : ofBits w (bits x) = x := by
  apply BitVec.eq_of_getMsbD_eq
  intro i hi
  simp [ofBits, bits, hi]

theorem bits_append {v w : Nat} (x : BitVec v) (y : BitVec w) : bits (x ++ y) = bits x ++ bits y := by
  apply List.ext_getElem (by simp)
  intro k hk hk'
  rcases Nat.lt_or_ge k v with hlt | hge
  · rw [List.getElem_append_left (by simpa using hlt)]
    simp [bits, BitVec.getMsbD_append, Nat.not_le.mpr hlt]
  · rw [List.getElem_append_right (by simpa using hge)]
    simp [bits, BitVec.getMsbD_append, hge]

/-- The bits of the low bytes of a word, byte by byte. -/
theorem bits_bytes {w : Nat} (x : BitVec w) (n : Nat) :
    bits (x.setWidth (n * 8)) = (List.range n).reverse.flatMap fun i => bits ((x >>> (i * 8)).setWidth 8) := by
  induction n with
  | zero => rfl
  | succ n ih =>
    have hsplit : bits (x.setWidth ((n + 1) * 8)) =
        bits ((x >>> (n * 8)).setWidth 8) ++ bits (x.setWidth (n * 8)) := by
      apply List.ext_getElem (by simp [Nat.succ_mul, Nat.add_comm])
      intro k hk hk'
      rw [length_bits] at hk
      rcases Nat.lt_or_ge k 8 with hlt | hge
      · have hplace : (n + 1) * 8 - 1 - k = n * 8 + (8 - 1 - k) := by omega
        rw [List.getElem_append_left (by rwa [length_bits])]
        simp only [bits, List.getElem_map, List.getElem_range, BitVec.getMsbD_eq_getLsbD, BitVec.getLsbD_setWidth,
          BitVec.getLsbD_ushiftRight, hplace]
        rw [decide_eq_true hk, decide_eq_true hlt, decide_eq_true (by omega), decide_eq_true (by omega)]
      · have hplace : (n + 1) * 8 - 1 - k = n * 8 - 1 - (k - 8) := by omega
        rw [List.getElem_append_right (by rwa [length_bits])]
        simp only [bits, List.getElem_map, List.getElem_range, List.length_map, List.length_range,
          BitVec.getMsbD_eq_getLsbD, BitVec.getLsbD_setWidth, hplace]
        rw [decide_eq_true hk, decide_eq_true (by omega), decide_eq_true (by omega), decide_eq_true (by omega)]
    rw [hsplit, ih, List.range_succ, List.reverse_append, List.reverse_singleton, List.singleton_append,
      List.flatMap_cons]

/-! ### Functions and constants -/

def ch (x y z : Word) : Word := (x &&& y) ^^^ (~~~x &&& z)

def maj (x y z : Word) : Word := (x &&& y) ^^^ (x &&& z) ^^^ (y &&& z)

def bigSigma0 (x : Word) : Word := x.rotateRight 2 ^^^ x.rotateRight 13 ^^^ x.rotateRight 22

def bigSigma1 (x : Word) : Word := x.rotateRight 6 ^^^ x.rotateRight 11 ^^^ x.rotateRight 25

def smallSigma0 (x : Word) : Word := x.rotateRight 7 ^^^ x.rotateRight 18 ^^^ x >>> 3

def smallSigma1 (x : Word) : Word := x.rotateRight 17 ^^^ x.rotateRight 19 ^^^ x >>> 10

/-- The first 64 primes. -/
def primes : List Nat := (List.range 312).filter Nat.Prime

/-- The integer part of a `k`th root. -/
def floorRoot (k n : Nat) : Nat := Nat.findGreatest (fun q => q ^ k ≤ n) n

/-- The first 32 bits of the fractional part of a `k`th root. -/
def fraction (k n : Nat) : Word := BitVec.ofNat 32 (floorRoot k (n * 2 ^ (32 * k)))

/-- `K_t`, from the cube root of a prime. -/
def constant (t : Nat) : Word := fraction 3 (primes.getD t 0)

/-- The working variables, and the words of a hash value. -/
structure Variables where
  (a b c d e f g h : Word)

/-- `H⁽⁰⁾`, from the square roots of the first primes. -/
def initial : Variables :=
  let root (t : Nat) : Word := fraction 2 (primes.getD t 0)
  ⟨root 0, root 1, root 2, root 3, root 4, root 5, root 6, root 7⟩

/-! ### Preprocessing -/

theorem exists_zeros (l : Nat) : ∃ k, (l + 1 + k) % 512 = 448 :=
  ⟨(959 - l % 512) % 512, by omega⟩

/-- The smallest number of zeros that leaves room for the length alone. -/
def zeros (l : Nat) : Nat := Nat.find (exists_zeros l)

/-- The padded message: a bit 1, zeros, and the length in 64 bits. -/
def pad (message : List Bool) : List Bool :=
  message ++ (true :: List.replicate (zeros message.length) false) ++ bits (BitVec.ofNat 64 message.length)

/-- Word `t` of a block of 512 bits. -/
def word (block : List Bool) (t : Nat) : Word := ofBits 32 (slice block (t * 32) 32)

/-! ### Computation -/

/-- The message schedule of a block. -/
def schedule (block : List Bool) (t : Nat) : Word :=
  if t < 16 then word block t
  else
    smallSigma1 (schedule block (t - 2)) + schedule block (t - 7) + smallSigma0 (schedule block (t - 15)) +
      schedule block (t - 16)
termination_by t

def Variables.step (v : Variables) (k w : Word) : Variables :=
  let t1 := v.h + bigSigma1 v.e + ch v.e v.f v.g + k + w
  let t2 := bigSigma0 v.a + maj v.a v.b v.c
  ⟨t1 + t2, v.a, v.b, v.c, v.d + t1, v.e, v.f, v.g⟩

def Variables.add (v u : Variables) : Variables :=
  ⟨v.a + u.a, v.b + u.b, v.c + u.c, v.d + u.d, v.e + u.e, v.f + u.f, v.g + u.g, v.h + u.h⟩

/-- The hash value after a block. -/
def compress (hash : Variables) (block : List Bool) : Variables :=
  ((List.range 64).foldl (fun v t => v.step (constant t) (schedule block t)) hash).add hash

def hash (message : List Bool) : Variables := Blocks.chain 512 compress initial (pad message)

/-- The message digest. -/
def digest (message : List Bool) : List Bool :=
  let h := hash message
  bits h.a ++ bits h.b ++ bits h.c ++ bits h.d ++ bits h.e ++ bits h.f ++ bits h.g ++ bits h.h

/-! ### Evaluation -/

theorem zeros_eq {l k : Nat} (hk : k < 512) (h : (l + 1 + k) % 512 = 448) : zeros l = k := by
  rw [zeros, Nat.find_eq_iff]
  refine ⟨h, fun m hm hother => ?_⟩
  omega

theorem fraction_eq {k n i x : Nat} (hk : 0 < k) (hlow : (i * 2 ^ 32 + x) ^ k ≤ n * 2 ^ (32 * k))
    (hhigh : n * 2 ^ (32 * k) < (i * 2 ^ 32 + x + 1) ^ k) : fraction k n = BitVec.ofNat 32 x := by
  have hroot : floorRoot k (n * 2 ^ (32 * k)) = i * 2 ^ 32 + x := by
    rw [floorRoot, Nat.findGreatest_eq_iff]
    refine ⟨(Nat.le_self_pow hk.ne' _).trans hlow, fun _ => hlow, fun q hq _ hle => ?_⟩
    exact absurd (hhigh.trans_le ((Nat.pow_le_pow_left hq k).trans hle)) (Nat.lt_irrefl _)
  rw [fraction, hroot]
  apply BitVec.eq_of_toNat_eq
  rw [BitVec.toNat_ofNat, BitVec.toNat_ofNat, Nat.add_comm, Nat.add_mul_mod_self_right]

/-- Below 324 a prime is what no smaller prime than 18 divides. -/
theorem prime_iff {n : Nat} (hn : n < 324) :
    n.Prime ↔ 2 ≤ n ∧ ∀ d ∈ [2, 3, 5, 7, 11, 13, 17], d ∣ n → d = n := by
  constructor
  · intro hp
    refine ⟨hp.two_le, fun d hd hdvd => ?_⟩
    rcases (Nat.dvd_prime hp).mp hdvd with rfl | heq
    · exact absurd hd (by decide)
    · exact heq
  · rintro ⟨htwo, hall⟩
    by_contra hnot
    have hpos : 0 < n := by omega
    have hne : n ≠ 1 := by omega
    have hdvd : n.minFac ∣ n := Nat.minFac_dvd n
    have hprime : n.minFac.Prime := Nat.minFac_prime hne
    have hsq : n.minFac ^ 2 ≤ n := Nat.minFac_sq_le_self hpos hnot
    have hsmall : n.minFac < 18 := lt_of_pow_lt_pow_left₀ 2 (by omega) (hsq.trans_lt hn)
    have hmem : n.minFac ∈ [2, 3, 5, 7, 11, 13, 17] := by
      generalize n.minFac = m at hprime hsmall
      interval_cases m <;> first | decide | exact absurd hprime (by norm_num)
    exact hnot (hall _ hmem hdvd ▸ hprime)

theorem primes_eq : primes =
    [2, 3, 5, 7, 11, 13, 17, 19, 23, 29, 31, 37, 41, 43, 47, 53, 59, 61, 67, 71, 73, 79, 83, 89, 97, 101, 103, 107, 109,
      113, 127, 131, 137, 139, 149, 151, 157, 163, 167, 173, 179, 181, 191, 193, 197, 199, 211, 223, 227, 229, 233, 239,
      241, 251, 257, 263, 269, 271, 277, 281, 283, 293, 307, 311] := by
  have hfilter : primes =
      (List.range 312).filter fun n => 2 ≤ n ∧ ∀ d ∈ [2, 3, 5, 7, 11, 13, 17], d ∣ n → d = n := by
    apply List.filter_congr
    intro n hn
    have hlt : n < 324 := by
      have := List.mem_range.mp hn
      omega
    exact decide_eq_decide.mpr (prime_iff hlt)
  rw [hfilter]
  decide +kernel

end Fips180
