import DriftObservatory.Hash
import DriftObservatory.Lib.Fips180

/-! The streaming hasher returns the SHA-256 digest of what it was given, however the bytes were split. -/

namespace DriftObservatory
open Fips180 (bits)

/-! ### Bytes and bits -/

/-- The bits of a text, those of each byte from the most significant. -/
def textBits (text : Text) : List Bool := text.flatMap fun byte => bits byte.toBitVec

theorem textBits_cons (byte : UInt8) (text : Text) : textBits (byte :: text) = bits byte.toBitVec ++ textBits text :=
  List.flatMap_cons

theorem textBits_append (xs ys : Text) : textBits (xs ++ ys) = textBits xs ++ textBits ys := List.flatMap_append

@[simp] theorem length_textBits (text : Text) : (textBits text).length = text.length * 8 := by
  induction text with
  | nil => rfl
  | cons byte text ih =>
    rw [textBits_cons, List.length_append, Fips180.length_bits, ih, List.length_cons]
    omega

theorem drop_textBits (text : Text) (k : Nat) : (textBits text).drop (k * 8) = textBits (text.drop k) := by
  induction k generalizing text with
  | zero => rw [Nat.zero_mul, List.drop_zero, List.drop_zero]
  | succ k ih =>
    cases text with
    | nil => rfl
    | cons byte text =>
      rw [List.drop_succ_cons, ← ih, Nat.succ_mul, Nat.add_comm, ← List.drop_drop, textBits_cons,
        List.drop_left' (Fips180.length_bits _)]

theorem take_textBits (text : Text) (k : Nat) : (textBits text).take (k * 8) = textBits (text.take k) := by
  have hsplit : textBits (text.take k) ++ (textBits text).drop (k * 8) = textBits text := by
    rw [drop_textBits, ← textBits_append, List.take_append_drop]
  rcases Nat.le_total k text.length with hle | hge
  · have hlen : (textBits (text.take k)).length = k * 8 := by
      rw [length_textBits, List.length_take, Nat.min_eq_left hle]
    rw [← hsplit, List.take_left' hlen]
  · rw [List.take_of_length_le hge, List.take_of_length_le]
    rw [length_textBits]
    omega

theorem slice_textBits (text : Text) (a k : Nat) :
    slice (textBits text) (a * 8) (k * 8) = textBits (slice text a k) := by
  rw [slice, slice, drop_textBits, take_textBits]

theorem textBits_flatMap {α : Type} (f : α → Text) (xs : List α) :
    textBits (xs.flatMap f) = xs.flatMap fun x => textBits (f x) := List.flatMap_assoc

theorem textBits_zeros (n : Nat) : textBits (List.replicate n 0) = List.replicate (n * 8) false := by
  induction n with
  | zero => rfl
  | succ n ih =>
    have hzero : bits (0 : UInt8).toBitVec = List.replicate 8 false := by decide
    rw [List.replicate_succ, textBits_cons, ih, hzero, List.replicate_append_replicate, Nat.succ_mul, Nat.add_comm]

/-- A word written byte by byte, its high bytes first. -/
theorem textBits_bytes {w : Nat} (x : BitVec w) (n : Nat) :
    textBits ((List.range n).reverse.map fun i => UInt8.ofNat (x.toNat >>> (i * 8))) = bits (x.setWidth (n * 8)) := by
  have hbyte : ∀ i, (UInt8.ofNat (x.toNat >>> (i * 8))).toBitVec = (x >>> (i * 8)).setWidth 8 := by
    intro i
    apply BitVec.eq_of_toNat_eq
    rw [BitVec.toNat_setWidth, BitVec.toNat_ushiftRight]
    rfl
  rw [Fips180.bits_bytes, textBits, List.flatMap_map]
  simp only [hbyte]

theorem textBits_toBytes (x : Fips180.Word) : textBits (Word.toBytes x.toNat) = bits x :=
  (textBits_bytes x 4).trans (by rw [BitVec.setWidth_eq])

theorem textBits_bigEndian64 (value : UInt64) : textBits (bigEndian64 value) = bits value.toBitVec :=
  (textBits_bytes value.toBitVec 8).trans (by rw [BitVec.setWidth_eq])

/-! ### Words -/

section Words
variable (x y z : Fips180.Word)

theorem add_toNat : Word.add x.toNat y.toNat = (x + y).toNat := (BitVec.toNat_add x y).symm

theorem xor_toNat : Word.xor x.toNat y.toNat = (x ^^^ y).toNat := (BitVec.toNat_xor x y).symm

theorem and_toNat : Word.and x.toNat y.toNat = (x &&& y).toNat := (BitVec.toNat_and x y).symm

theorem not_toNat : Word.not x.toNat = (~~~x).toNat := by
  rw [BitVec.toNat_not]
  rfl

theorem shiftRight_toNat (k : Nat) : Word.shiftRight x.toNat k = (x >>> k).toNat := (BitVec.toNat_ushiftRight x k).symm

theorem rotateRight_toNat {k : Nat} (hk : k < 32) : Word.rotateRight x.toNat k = (x.rotateRight k).toNat := by
  rw [BitVec.toNat_rotateRight, Nat.mod_eq_of_lt hk]
  rfl

end Words

/-! ### Constants -/

/-- `x` is the first 32 bits of the fractional part of the `k`th root of `p`. -/
def IsFraction (k x p : Nat) : Prop :=
  x < 2 ^ 32 ∧ ∃ i < 18, (i * 2 ^ 32 + x) ^ k ≤ p * 2 ^ (32 * k) ∧ p * 2 ^ (32 * k) < (i * 2 ^ 32 + x + 1) ^ k

instance (k x p : Nat) : Decidable (IsFraction k x p) := inferInstanceAs (Decidable (_ ∧ _))

theorem IsFraction.toNat_fraction {k x p : Nat} (hk : 0 < k) (h : IsFraction k x p) :
    (Fips180.fraction k p).toNat = x := by
  obtain ⟨hx, i, -, hlow, hhigh⟩ := h
  rw [Fips180.fraction_eq hk hlow hhigh, BitVec.toNat_ofNat, Nat.mod_eq_of_lt hx]

theorem map_fraction {k : Nat} (hk : 0 < k) {xs ps : List Nat} (hlen : xs.length = ps.length)
    (h : ∀ pair ∈ xs.zip ps, IsFraction k pair.1 pair.2) : (ps.map fun p => (Fips180.fraction k p).toNat) = xs := by
  apply List.ext_getElem (by rw [List.length_map, hlen])
  intro t ht ht'
  have hp : t < ps.length := hlen ▸ ht'
  rw [List.getElem_map]
  refine (h (xs[t], ps[t]) ?_).toNat_fraction hk
  exact List.mem_iff_getElem.mpr ⟨t, by rw [List.length_zip]; omega, List.getElem_zip⟩

theorem map_range_getD {α : Type} (f : Nat → α) (xs : List Nat) :
    ((List.range xs.length).map fun t => f (xs.getD t 0)) = xs.map f := by
  apply List.ext_getElem (by simp)
  intro t ht ht'
  simp at ht
  simp [ht]

theorem kSha256K_eq : kSha256K = (List.range 64).map fun t => (Fips180.constant t).toNat := by
  have hlen : Fips180.primes.length = 64 := by
    rw [Fips180.primes_eq]
    rfl
  rw [← hlen]
  simp only [Fips180.constant]
  rw [map_range_getD (fun p => (Fips180.fraction 3 p).toNat), map_fraction (by decide)]
  · rw [hlen]
    rfl
  · rw [Fips180.primes_eq]
    decide +kernel

/-! ### One block -/

/-- The chaining words of a hash value. -/
def hashStateOf (v : Fips180.Variables) : HashState :=
  ⟨v.a.toNat, v.b.toNat, v.c.toNat, v.d.toNat, v.e.toNat, v.f.toNat, v.g.toNat, v.h.toNat⟩

theorem hashStateOf_initial : hashStateOf Fips180.initial = HashState.initial := by
  have hwords : ([2, 3, 5, 7, 11, 13, 17, 19].map fun p => (Fips180.fraction 2 p).toNat) = HashState.initial.words :=
    map_fraction (by decide) rfl (by decide +kernel)
  simp only [List.map_cons, List.map_nil, HashState.words, List.cons.injEq] at hwords
  obtain ⟨ha, hb, hc, hd, he, hf, hg, hh, -⟩ := hwords
  rw [Fips180.initial, Fips180.primes_eq, hashStateOf]
  simp only [List.getD_cons_zero, List.getD_cons_succ, ha, hb, hc, hd, he, hf, hg, hh]

theorem round_hashStateOf (v : Fips180.Variables) (k w : Fips180.Word) :
    (hashStateOf v).round k.toNat w.toNat = hashStateOf (v.step k w) := by
  simp only [HashState.round, hashStateOf, Fips180.Variables.step, Fips180.bigSigma0, Fips180.bigSigma1, Fips180.ch,
    Fips180.maj, rotateRight_toNat _ (show 2 < 32 by decide), rotateRight_toNat _ (show 6 < 32 by decide),
    rotateRight_toNat _ (show 11 < 32 by decide), rotateRight_toNat _ (show 13 < 32 by decide),
    rotateRight_toNat _ (show 22 < 32 by decide), rotateRight_toNat _ (show 25 < 32 by decide), xor_toNat, and_toNat,
    not_toNat, add_toNat]

theorem rounds_hashStateOf (k w : Nat → Fips180.Word) (ts : List Nat) (v : Fips180.Variables) :
    (hashStateOf v).rounds (ts.map fun t => (k t).toNat) (ts.map fun t => (w t).toNat) =
      hashStateOf (ts.foldl (fun v t => v.step (k t) (w t)) v) := by
  induction ts generalizing v with
  | nil => rfl
  | cons t ts ih => rw [List.map_cons, List.map_cons, HashState.rounds, round_hashStateOf, ih, List.foldl_cons]

theorem add_hashStateOf (v u : Fips180.Variables) : (hashStateOf v).add (hashStateOf u) = hashStateOf (u.add v) := by
  simp only [HashState.add, hashStateOf, Fips180.Variables.add, add_toNat, BitVec.add_comm]

/-- The word that `schedule` appends to the window. -/
theorem schedule_next (block : List Bool) (t : Nat) :
    let w (i : Nat) : Word := (Fips180.schedule block i).toNat
    let s0 := Word.xor (Word.xor (Word.rotateRight (w (t + 1)) 7) (Word.rotateRight (w (t + 1)) 18))
      (Word.shiftRight (w (t + 1)) 3)
    let s1 := Word.xor (Word.xor (Word.rotateRight (w (t + 14)) 17) (Word.rotateRight (w (t + 14)) 19))
      (Word.shiftRight (w (t + 14)) 10)
    Word.add (Word.add (Word.add (w t) s0) (w (t + 9))) s1 = w (t + 16) := by
  have hrecurrence : Fips180.schedule block (t + 16) =
      Fips180.smallSigma1 (Fips180.schedule block (t + 14)) + Fips180.schedule block (t + 9) +
        Fips180.smallSigma0 (Fips180.schedule block (t + 1)) + Fips180.schedule block t := by
    rw [Fips180.schedule, if_neg (by omega)]
    rfl
  have hcomm : ∀ a b c d : Fips180.Word, a + b + c + d = d + c + b + a := by
    intro a b c d
    ac_rfl
  simp only [hrecurrence, hcomm, Fips180.smallSigma0, Fips180.smallSigma1, ← add_toNat, ← xor_toNat, ← shiftRight_toNat,
    ← rotateRight_toNat _ (show 7 < 32 by decide), ← rotateRight_toNat _ (show 18 < 32 by decide),
    ← rotateRight_toNat _ (show 17 < 32 by decide), ← rotateRight_toNat _ (show 19 < 32 by decide)]

/-- The window of the schedule from word `t` on. -/
theorem schedule_window (block : List Bool) (n t : Nat) :
    schedule n ((List.range' t 16).map fun i => (Fips180.schedule block i).toNat) =
      (List.range' t (n + 16)).map fun i => (Fips180.schedule block i).toNat := by
  induction n generalizing t with
  | zero =>
    rw [Nat.zero_add]
    rfl
  | succ n ih =>
    have hwindow : List.range' t 16 =
      [t, t + 1, t + 2, t + 3, t + 4, t + 5, t + 6, t + 7, t + 8, t + 9, t + 10, t + 11, t + 12, t + 13, t + 14,
        t + 15] := rfl
    have htail : List.range' t (n + 1 + 16) = t :: List.range' (t + 1) (n + 16) := by
      rw [Nat.add_right_comm, List.range'_succ]
    rw [hwindow, htail, List.map_cons]
    simp only [List.map_cons, List.map_nil]
    rw [schedule]
    refine (congrArg _ ?_).trans (congrArg _ (ih (t + 1)))
    have hnext := schedule_next block t
    dsimp only at hnext
    rw [hnext]
    rfl

theorem word_head (b0 b1 b2 b3 : UInt8) (rest : Text) :
    Fips180.word (textBits (b0 :: b1 :: b2 :: b3 :: rest)) 0 =
      b0.toBitVec ++ b1.toBitVec ++ b2.toBitVec ++ b3.toBitVec := by
  have hslice : slice (textBits (b0 :: b1 :: b2 :: b3 :: rest)) (0 * 32) 32 = textBits [b0, b1, b2, b3] :=
    slice_textBits (b0 :: b1 :: b2 :: b3 :: rest) 0 4
  have hbits : textBits [b0, b1, b2, b3] = bits (b0.toBitVec ++ b1.toBitVec ++ b2.toBitVec ++ b3.toBitVec) := by
    simp only [textBits_cons, Fips180.bits_append, List.append_assoc]
    simp [textBits]
  rw [Fips180.word, hslice, hbits]
  exact Fips180.ofBits_bits (w := 32) _

theorem word_tail (b0 b1 b2 b3 : UInt8) (rest : Text) (t : Nat) :
    Fips180.word (textBits (b0 :: b1 :: b2 :: b3 :: rest)) (t + 1) = Fips180.word (textBits rest) t := by
  have hplace : ∀ t : Nat, t * 32 = t * 4 * 8 := by
    intro t
    omega
  rw [Fips180.word, Fips180.word, hplace, hplace, slice_textBits _ _ 4, slice_textBits _ _ 4]
  simp [slice, Nat.succ_mul]

/-- Four bytes are read into one word. -/
theorem lor_toNat (b0 b1 b2 b3 : UInt8) :
    Nat.lor (Nat.lor (Nat.lor (Word.shiftLeft b0.toNat 24) (Word.shiftLeft b1.toNat 16)) (Word.shiftLeft b2.toNat 8))
      b3.toNat = (b0.toBitVec ++ b1.toBitVec ++ b2.toBitVec ++ b3.toBitVec).toNat := by
  have hshift : ∀ (b : UInt8) (k : Nat), k ≤ 24 → Word.shiftLeft b.toNat k = b.toNat <<< k := by
    intro b k hk
    have hb : b.toNat < 2 ^ 8 := b.toNat_lt
    have hpow : 2 ^ k ≤ 2 ^ 24 := Nat.pow_le_pow_right (by decide) hk
    apply Nat.mod_eq_of_lt
    calc b.toNat <<< k = b.toNat * 2 ^ k := Nat.shiftLeft_eq ..
      _ ≤ b.toNat * 2 ^ 24 := Nat.mul_le_mul_left _ hpow
      _ < 0x100000000 := by omega
  rw [hshift b0 24 (by decide), hshift b1 16 (by decide), hshift b2 8 (by decide), BitVec.toNat_append,
    BitVec.toNat_append, BitVec.toNat_append, Nat.shiftLeft_or_distrib, Nat.shiftLeft_or_distrib,
    Nat.shiftLeft_or_distrib, ← Nat.shiftLeft_add, ← Nat.shiftLeft_add, ← Nat.shiftLeft_add]
  rfl

theorem blockWords_eq (n : Nat) (block : Text) (h : block.length = n * 4) :
    blockWords block = (List.range n).map fun t => (Fips180.word (textBits block) t).toNat := by
  induction n generalizing block with
  | zero =>
    rw [List.length_eq_zero_iff.mp (h.trans (Nat.zero_mul 4))]
    rfl
  | succ n ih =>
    rcases block with _ | ⟨b0, _ | ⟨b1, _ | ⟨b2, _ | ⟨b3, rest⟩⟩⟩⟩
    · cases h
    · simp at h
      omega
    · simp at h
      omega
    · simp at h
      omega
    · have hrest : rest.length = n * 4 := by
        simp only [List.length_cons] at h
        omega
      rw [blockWords, ih rest hrest, List.range_succ_eq_map, List.map_cons, List.map_map, word_head, lor_toNat]
      simp only [Function.comp_def, word_tail]

theorem compress_hashStateOf (v : Fips180.Variables) {block : Text} (h : block.length = 64) :
    compress (hashStateOf v) block = hashStateOf (Fips180.compress v (textBits block)) := by
  have hfirst : blockWords block = (List.range' 0 16).map fun t => (Fips180.schedule (textBits block) t).toNat := by
    rw [blockWords_eq 16 block h, List.range_eq_range']
    apply List.map_congr_left
    intro t ht
    have hlt : t < 16 := by simpa using ht
    rw [Fips180.schedule, if_pos hlt]
  rw [compress, hfirst, schedule_window, kSha256K_eq, ← List.range_eq_range', rounds_hashStateOf, add_hashStateOf]
  rfl

/-- **The chain over whole blocks** is the computation of the standard. -/
theorem chain_hashStateOf (v : Fips180.Variables) (data : Text) :
    Blocks.chain 64 compress (hashStateOf v) data =
      hashStateOf (Blocks.chain 512 Fips180.compress v (textBits data)) := by
  have hcount : (textBits data).length / 512 = data.length / 64 := by
    rw [length_textBits]
    exact Nat.mul_div_mul_right _ 64 (by decide)
  rw [Blocks.chain, Blocks.chain, hcount]
  refine List.foldl_rel (r := fun s u => s = hashStateOf u) rfl ?_
  rintro i hi s u rfl
  have hlen : (slice data (i * 64) 64).length = 64 := by
    have hlt : i < data.length / 64 := List.mem_range.mp hi
    rw [slice.length_eq]
    omega
  have hplace : i * 512 = i * 64 * 8 := by omega
  rw [compress_hashStateOf u hlen, hplace, slice_textBits data (i * 64) 64]

/-! ### The hasher -/

namespace Sha256

/-- The hasher has taken these bytes: their whole blocks are compressed, and the rest is buffered. -/
structure Holds (s : Sha256) (message : Text) : Prop where
  state : s.state = Blocks.chain 64 compress .initial message
  buffer : s.buffer = Blocks.rest 64 message
  total : s.totalBytes = UInt64.ofNat message.length
  live : s.finalized = false

theorem Holds.length_buffer_lt {s : Sha256} {message : Text} (h : s.Holds message) : s.buffer.length < 64 := by
  rw [h.buffer]
  exact Blocks.length_rest_lt (by decide)

theorem absorbBlocks_eq (fuel : Nat) (state : HashState) (data : Text) (h : data.length ≤ fuel) :
    absorbBlocks fuel state data = (Blocks.chain 64 compress state data, Blocks.rest 64 data) := by
  induction fuel generalizing state data with
  | zero =>
    have hshort : data.length < 64 := by omega
    rw [absorbBlocks, Blocks.chain_short hshort, Blocks.rest_short hshort]
  | succ fuel ih =>
    rw [absorbBlocks]
    rcases Nat.lt_or_ge data.length 64 with hshort | hfull
    · rw [if_neg (Nat.not_le.mpr hshort), Blocks.chain_short hshort, Blocks.rest_short hshort]
    · have hdrop : (data.drop 64).length ≤ fuel := by
        rw [List.length_drop]
        omega
      rw [if_pos hfull, ih _ _ hdrop, ← Blocks.chain_step (by decide) hfull, ← Blocks.rest_step (by decide) hfull]

/-- What `Update` does: the buffered bytes and the new ones are taken as one text. -/
theorem update_eq (s : Sha256) (data : Text) (hlive : s.finalized = false) (hbuffer : s.buffer.length < 64) :
    s.update data =
      { state := Blocks.chain 64 compress s.state (s.buffer ++ data),
        buffer := Blocks.rest 64 (s.buffer ++ data),
        totalBytes := s.totalBytes + UInt64.ofNat data.length,
        finalized := false } := by
  obtain ⟨state, buffer, total, finalized⟩ := s
  subst hlive
  change buffer.length < 64 at hbuffer
  rcases List.eq_nil_or_concat data with rfl | hconcat
  · rw [List.append_nil, Blocks.chain_short hbuffer, Blocks.rest_short hbuffer]
    simp [update]
  have hdata : data.isEmpty = false := by
    obtain ⟨_, _, rfl⟩ := hconcat
    simp
  rw [update, hdata]
  simp only [Bool.or_self, Bool.false_eq_true, if_false]
  cases buffer with
  | nil =>
    rw [List.isEmpty_nil, if_pos rfl, absorbBlocks_eq _ _ _ le_rfl, List.nil_append]
  | cons byte buffer =>
    rw [List.isEmpty_cons, if_neg Bool.false_ne_true]
    generalize byte :: buffer = front at hbuffer ⊢
    have hlen : (front ++ data.take (64 - front.length)).length = front.length + min (64 - front.length) data.length := by
      rw [List.length_append, List.length_take]
    rcases Nat.lt_or_ge (front ++ data).length 64 with hshort | hfull
    · rw [List.length_append] at hshort
      have htake : data.take (64 - front.length) = data := List.take_of_length_le (by omega)
      rw [if_neg (by omega), htake, Blocks.chain_short (by rwa [List.length_append]),
        Blocks.rest_short (by rwa [List.length_append])]
    · have hfull' : 64 ≤ front.length + data.length := by rwa [List.length_append] at hfull
      have htake : (front ++ data).take 64 = front ++ data.take (64 - front.length) := by
        rw [List.take_append, List.take_of_length_le hbuffer.le]
      have hdrop : (front ++ data).drop 64 = data.drop (64 - front.length) := by
        rw [List.drop_append, List.drop_of_length_le hbuffer.le, List.nil_append]
      have hrest : (data.drop (64 - front.length)).length ≤ data.length := by
        rw [List.length_drop]
        omega
      rw [if_pos (by omega), absorbBlocks_eq _ _ _ hrest, Blocks.chain_step (by decide) hfull,
        Blocks.rest_step (by decide) hfull, htake, hdrop]

theorem Holds.update {s : Sha256} {message : Text} (h : s.Holds message) (data : Text) :
    (s.update data).Holds (message ++ data) := by
  obtain ⟨hchain, hrest⟩ := @Blocks.chain_append _ _ 64 compress (by decide) .initial message data
  rw [update_eq s data h.live h.length_buffer_lt]
  refine ⟨?_, ?_, ?_, rfl⟩
  · rw [hchain, ← h.state, ← h.buffer]
  · rw [hrest, ← h.buffer]
  · rw [h.total, List.length_append, UInt64.ofNat_add]

/-- The padding loop ends in the block's last eight bytes before it has gone round the block. -/
theorem Holds.padZeros {s : Sha256} {message : Text} (h : s.Holds message) {fuel z : Nat} (hfuel : z ≤ fuel)
    (hz : z < 64) (hend : (message.length + z) % 64 = 56) :
    (Sha256.padZeros fuel s).Holds (message ++ List.replicate z 0) ∧ (Sha256.padZeros fuel s).buffer.length = 56 := by
  have hbuffer : s.buffer.length = message.length % 64 := by rw [h.buffer, Blocks.length_rest]
  induction fuel generalizing s message z with
  | zero =>
    obtain rfl : z = 0 := by omega
    rw [List.replicate_zero, List.append_nil]
    exact ⟨h, hbuffer.trans hend⟩
  | succ fuel ih =>
    rw [Sha256.padZeros]
    rcases Decidable.em (s.buffer.length = 56) with hfull | hmore
    · obtain rfl : z = 0 := by omega
      rw [if_pos hfull, List.replicate_zero, List.append_nil]
      exact ⟨h, hfull⟩
    · obtain ⟨z, rfl⟩ : ∃ k, z = k + 1 := ⟨z - 1, by omega⟩
      have hnext := h.update [0]
      have hsplit : message ++ List.replicate (z + 1) 0 = message ++ [0] ++ List.replicate z 0 := by
        rw [List.replicate_succ, List.append_assoc, List.singleton_append]
      rw [if_neg hmore, hsplit]
      refine ih hnext (by omega) (by omega) ?_ (by rw [hnext.buffer, Blocks.length_rest])
      rw [List.length_append, List.length_singleton]
      omega

/-- How many zeros `Final` writes behind a message and the byte 0x80. -/
def paddingZeros (length : Nat) : Nat := (119 - length % 64) % 64

theorem paddingZeros_lt (length : Nat) : paddingZeros length < 64 := Nat.mod_lt _ (by decide)

theorem paddingZeros_end (length : Nat) : (length + 1 + paddingZeros length) % 64 = 56 := by
  unfold paddingZeros
  omega

/-- The hasher of `Final` before it writes the length. -/
theorem Holds.padded {s : Sha256} {message : Text} (h : s.Holds message) :
    (Sha256.padZeros 64 (s.update [0x80])).Holds
        (message ++ [0x80] ++ List.replicate (paddingZeros message.length) 0) ∧
      (Sha256.padZeros 64 (s.update [0x80])).buffer.length = 56 := by
  have hlt := paddingZeros_lt message.length
  have hlen : (message ++ [0x80]).length = message.length + 1 := by
    rw [List.length_append, List.length_singleton]
  refine (h.update [0x80]).padZeros hlt.le hlt ?_
  rw [hlen]
  exact paddingZeros_end _

/-- What `Final` pads a message to is what the standard does. -/
theorem textBits_padded (message : Text) :
    textBits (message ++ [0x80] ++ List.replicate (paddingZeros message.length) 0 ++
      bigEndian64 (UInt64.ofNat message.length * 8)) = Fips180.pad (textBits message) := by
  have hzeros : Fips180.zeros (message.length * 8) = 7 + paddingZeros message.length * 8 := by
    have hlt := paddingZeros_lt message.length
    have hend := paddingZeros_end message.length
    apply Fips180.zeros_eq <;> omega
  have hmark : textBits [0x80] = true :: List.replicate 7 false := by decide
  have hlength : (UInt64.ofNat message.length * 8).toBitVec = BitVec.ofNat 64 (message.length * 8) := by
    apply BitVec.eq_of_toNat_eq
    simp
  rw [textBits_append, textBits_append, textBits_append, textBits_zeros, textBits_bigEndian64, hmark, hlength,
    Fips180.pad, length_textBits, hzeros, ← List.replicate_append_replicate]
  simp only [List.append_assoc, List.cons_append]

/-- **`Final` returns the digest of the standard.** -/
theorem Holds.final {s : Sha256} {message : Text} (h : s.Holds message) :
    textBits s.final.bytes = Fips180.digest (textBits message) := by
  obtain ⟨hpadded, -⟩ := h.padded
  have hfinal := (hpadded.update (bigEndian64 (UInt64.ofNat message.length * 8))).state
  rw [← hashStateOf_initial, chain_hashStateOf, textBits_padded] at hfinal
  rw [Sha256.final, h.live, if_neg Bool.false_ne_true]
  change textBits (((Sha256.padZeros 64 (s.update [0x80])).update (bigEndian64 (s.totalBytes * 8))).state.words.flatMap
    Word.toBytes) = _
  rw [h.total, hfinal, textBits_flatMap]
  simp only [hashStateOf, HashState.words, List.flatMap_cons, List.flatMap_nil, textBits_toBytes, List.append_nil]
  simp only [Fips180.digest, Fips180.hash, List.append_assoc]

theorem holds_initial : initial.Holds [] where
  state := rfl
  buffer := rfl
  total := rfl
  live := rfl

end Sha256

/-! ### Calls -/

/-- A call that gives the hasher bytes. -/
inductive HashCall
  | update (data : Text)
  | updateByte (value : UInt8)
  | updateU64 (value : UInt64)

namespace HashCall

def run (s : Sha256) : HashCall → Sha256
  | update data => s.update data
  | updateByte value => s.updateByte value
  | updateU64 value => s.updateU64 value

/-- The bytes a call gives. -/
def bytes : HashCall → Text
  | update data => data
  | updateByte value => [value]
  | updateU64 value => bigEndian64 value

theorem holds_run {s : Sha256} {message : Text} (h : s.Holds message) (call : HashCall) :
    (call.run s).Holds (message ++ call.bytes) := by
  cases call with
  | update data => exact h.update data
  | updateByte value => exact h.update [value]
  | updateU64 value => exact h.update (bigEndian64 value)

theorem holds_runs (calls : List HashCall) {s : Sha256} {message : Text} (h : s.Holds message) :
    (calls.foldl run s).Holds (message ++ calls.flatMap bytes) := by
  induction calls generalizing s message with
  | nil =>
    rw [List.flatMap_nil, List.append_nil]
    exact h
  | cons call calls ih =>
    rw [List.foldl_cons, List.flatMap_cons, ← List.append_assoc]
    exact ih (holds_run h call)

end HashCall

/-- **However the bytes are split into calls, `Final` returns the digest of their concatenation.** Between calls, and
    within one, the buffer never holds more than a block, and the padding loop ends. Messages of 2 ^ 64 bits and more,
    for which the standard has no digest, are taken with their length modulo 2 ^ 64 on both sides. -/
theorem streaming_exact (calls : List HashCall) :
    let hasher := calls.foldl HashCall.run Sha256.initial
    let message := calls.flatMap HashCall.bytes
    textBits hasher.final.bytes = Fips180.digest (textBits message) ∧
      hasher.buffer.length < 64 ∧
      (∀ data : Text, (hasher.buffer ++ data.take (64 - hasher.buffer.length)).length ≤ 64) ∧
      (Sha256.padZeros 64 (hasher.update [0x80])).buffer.length = 56 := by
  intro hasher message
  have holds : hasher.Holds message := HashCall.holds_runs calls Sha256.holds_initial
  have hbuffer := holds.length_buffer_lt
  refine ⟨holds.final, hbuffer, fun data => ?_, holds.padded.2⟩
  rw [List.length_append, List.length_take]
  omega

end DriftObservatory
