import DriftObservatory.Theorems.Paths
import DriftObservatory.Theorems.Reading
import DriftObservatory.Theorems.Trees

/-! The two encodings of values, the canonical text and the bytes for the hasher: each determines the value, and where
    the bytes of one value end. -/

namespace DriftObservatory

open Codes

/-! ### Words and texts -/

theorem length_bigEndian64 (value : UInt64) : (bigEndian64 value).length = 8 := rfl

theorem bigEndian64_injective {v w : UInt64} (h : bigEndian64 v = bigEndian64 w) : v = w := by
  have hv := v.toNat_lt
  have hw := w.toNat_lt
  have hbyte : ∀ n k, (UInt8.ofNat (Nat.shiftRight n k)).toNat = n / 2 ^ k % 2 ^ 8 := fun n k => by
    rw [UInt8.toNat_ofNat', show Nat.shiftRight n k = n / 2 ^ k from Nat.shiftRight_eq_div_pow n k]
  have hbytes := congrArg (List.map UInt8.toNat) h
  simp only [bigEndian64, List.map_cons, List.map_nil, hbyte, List.cons.injEq, and_true] at hbytes
  exact UInt64.toNat_inj.mp (by omega)

theorem bigEndian64_separable : Separable (fun _ => True) bigEndian64 :=
  separable_of_length (fun v _ => length_bigEndian64 v) fun _ _ _ _ h => bigEndian64_injective h

/-- The size of a container or text; a `std::size_t`. -/
def Sized (n : Nat) : Prop := n < 2 ^ 64

instance : DecidablePred Sized := fun n => Nat.decLt n (2 ^ 64)

theorem size_separable : Separable Sized fun n => bigEndian64 (UInt64.ofNat n) :=
  bigEndian64_separable.comp (fun _ _ => trivial) fun m n hm hn heq => by
    have := congrArg UInt64.toNat heq
    rwa [UInt64.toNat_ofNat_of_lt' hm, UInt64.toNat_ofNat_of_lt' hn] at this

theorem lengthPrefixed_separable : Separable (fun text : Text => Sized text.length) lengthPrefixed := by
  intro a b s t ha hb heq
  simp only [lengthPrefixed, List.append_assoc] at heq
  obtain ⟨hlength, hrest⟩ := size_separable ha hb heq
  exact List.append_inj hrest hlength

/-! ### Values that fit the machine -/

namespace ValueTree

mutual

/-- Every text, byte string and container of a value has a size the machine can represent. -/
def Addressable : ValueTree → Prop
  | string text => Sized text.length
  | bytes raw => Sized raw.length
  | list elements => Sized elements.length ∧ AddressableAll elements
  | map members => Sized members.length ∧ AddressableMembers members
  | _ => True

def AddressableAll : List ValueTree → Prop
  | [] => True
  | v :: rest => Addressable v ∧ AddressableAll rest

def AddressableMembers : List (Text × ValueTree) → Prop
  | [] => True
  | (key, v) :: rest => Sized key.length ∧ Addressable v ∧ AddressableMembers rest

end

theorem addressableAll_iff {vs : List ValueTree} : AddressableAll vs ↔ ∀ v ∈ vs, Addressable v := by
  induction vs with
  | nil => simp [AddressableAll]
  | cons v rest ih => rw [AddressableAll, ih, List.forall_mem_cons]

theorem addressableMembers_iff {members : List (Text × ValueTree)} :
    AddressableMembers members ↔ ∀ m ∈ members, Sized m.1.length ∧ Addressable m.2 := by
  induction members with
  | nil => simp [AddressableMembers]
  | cons m rest ih => rw [AddressableMembers, ih, List.forall_mem_cons, and_assoc]

/-- What holds past the recursion guard, and at a depth whenever it holds a level below, holds at every depth. -/
theorem at_every_depth {P : Nat → Prop} (hpast : ∀ depth, kHardRecursionLimit < depth → P depth)
    (hstep : ∀ depth, P (depth + 1) → P depth) (depth : Nat) : P depth := by
  have hfrom : ∀ levels depth, kHardRecursionLimit < depth + levels → P depth := by
    intro levels
    induction levels with
    | zero => exact hpast
    | succ levels ih => exact fun depth h => hstep depth (ih (depth + 1) (by omega))
  exact hfrom (kHardRecursionLimit + 1) depth (by omega)

/-! ### The bytes for the hasher -/

theorem hashList_eq (depth : Nat) (vs : List ValueTree) : hashList depth vs = vs.flatMap (hashValue depth) := by
  induction vs with
  | nil => rfl
  | cons v rest ih => rw [hashList, ih, List.flatMap_cons]

/-- The bytes of one member. -/
def hashMember (depth : Nat) (m : Text × ValueTree) : Text := lengthPrefixed m.1 ++ hashValue depth m.2

theorem hashMembers_eq (depth : Nat) (members : List (Text × ValueTree)) :
    hashMembers depth members = members.flatMap (hashMember depth) := by
  induction members with
  | nil => rfl
  | cons m rest ih =>
    rw [hashMembers, ih, List.flatMap_cons]
    rfl

/-- What follows the byte of the kind. -/
def hashBody (depth : Nat) : ValueTree → Text
  | null => []
  | bool b => [if b then 1 else 0]
  | int i => bigEndian64 i.toUInt64
  | uint u => bigEndian64 u
  | double d => bigEndian64 d.bits
  | string text => lengthPrefixed text
  | bytes raw => lengthPrefixed raw
  | list elements => bigEndian64 (UInt64.ofNat elements.length) ++ elements.flatMap (hashValue (depth + 1))
  | map members => bigEndian64 (UInt64.ofNat members.length) ++ members.flatMap (hashMember (depth + 1))

theorem hashValue_eq {depth : Nat} (h : depth ≤ kHardRecursionLimit) (v : ValueTree) :
    hashValue depth v = v.kind.toByte :: hashBody depth v := by
  cases v <;> rw [hashValue, guarded_of_le h] <;> first | rfl | rw [hashList_eq]; rfl | rw [hashMembers_eq]; rfl

/-- What the encodings of a value at a depth are told apart for. -/
def Fit (depth : Nat) (v : ValueTree) : Prop := Shallow depth v ∧ Addressable v

theorem fit_list {depth : Nat} {elements : List ValueTree} (h : Fit depth (list elements)) :
    Sized elements.length ∧ ∀ v ∈ elements, Fit (depth + 1) v :=
  ⟨h.2.1, fun v hv => ⟨(shallow_list.mp h.1).2 v hv, addressableAll_iff.mp h.2.2 v hv⟩⟩

theorem fit_map {depth : Nat} {members : List (Text × ValueTree)} (h : Fit depth (map members)) :
    Sized members.length ∧ ∀ m ∈ members, Sized m.1.length ∧ Fit (depth + 1) m.2 :=
  ⟨h.2.1, fun m hm => ⟨(addressableMembers_iff.mp h.2.2 m hm).1, (shallow_map.mp h.1).2 m hm,
    (addressableMembers_iff.mp h.2.2 m hm).2⟩⟩

theorem bits_injective {a b : Double} (h : a.bits = b.bits) : a = b := by
  cases a
  cases b
  cases h
  rfl

theorem toByte_injective {a b : ValueKind} (h : a.toByte = b.toByte) : a = b := by
  cases a <;> cases b <;> first | rfl | exact absurd h (by decide)

/-- Bytes of the children that are told apart make bytes of the value that are. -/
theorem hashValue_step {depth : Nat} (ih : Separable (Fit (depth + 1)) (hashValue (depth + 1))) :
    Separable (Fit depth) (hashValue depth) := by
  intro a b s t ha hb heq
  rw [hashValue_eq ha.1.depth_le, hashValue_eq hb.1.depth_le, List.cons_append, List.cons_append, List.cons.injEq] at heq
  obtain ⟨hkind, hbody⟩ := heq
  have hkind := toByte_injective hkind
  cases a with
  | null =>
    cases b <;> cases hkind
    exact ⟨rfl, hbody⟩
  | bool v =>
    cases b <;> cases hkind
    obtain ⟨hbyte, hst⟩ := List.cons.inj hbody
    refine ⟨?_, hst⟩
    rename_i w
    cases v <;> cases w <;> first | rfl | cases hbyte
  | int v =>
    cases b <;> cases hkind
    obtain ⟨hword, hst⟩ := bigEndian64_separable trivial trivial hbody
    exact ⟨congrArg (fun u => int (.ofUInt64 u)) hword, hst⟩
  | uint v =>
    cases b <;> cases hkind
    obtain ⟨rfl, hst⟩ := bigEndian64_separable trivial trivial hbody
    exact ⟨rfl, hst⟩
  | double v =>
    cases b <;> cases hkind
    obtain ⟨hword, hst⟩ := bigEndian64_separable trivial trivial hbody
    exact ⟨congrArg double (bits_injective hword), hst⟩
  | string v =>
    cases b <;> cases hkind
    obtain ⟨rfl, hst⟩ := lengthPrefixed_separable ha.2 hb.2 hbody
    exact ⟨rfl, hst⟩
  | bytes v =>
    cases b <;> cases hkind
    obtain ⟨rfl, hst⟩ := lengthPrefixed_separable ha.2 hb.2 hbody
    exact ⟨rfl, hst⟩
  | list as =>
    cases b <;> cases hkind
    obtain ⟨rfl, hst⟩ := size_separable.counted ih (fit_list ha) (fit_list hb) hbody
    exact ⟨rfl, hst⟩
  | map as =>
    cases b <;> cases hkind
    obtain ⟨rfl, hst⟩ := size_separable.counted (lengthPrefixed_separable.pair ih) (fit_map ha) (fit_map hb) hbody
    exact ⟨rfl, hst⟩

theorem hashValue_separable (depth : Nat) : Separable (Fit depth) (hashValue depth) := by
  refine at_every_depth (P := fun depth => Separable (Fit depth) (hashValue depth)) (fun depth hpast => ?_)
    (fun depth ih => hashValue_step ih) depth
  intro a b s t ha
  exact absurd ha.1.depth_le (not_le.mpr hpast)

/-! ### The canonical text -/

/-- What may stand behind the text of a value: the end, or a byte that closes an element, a member or a map. -/
def Closes (rest : Text) : Prop := ∀ c ∈ rest.head?, c = 0x3B ∨ c = 0x2C ∨ c = 0x7D

theorem Closes.not_digit {rest : Text} (h : Closes rest) : ∀ c ∈ rest.head?, Char8.isDigit c = false := by
  intro c hc
  rcases h c hc with rfl | rfl | rfl <;> rfl

theorem closes_cons {c : UInt8} (hc : c = 0x3B ∨ c = 0x2C ∨ c = 0x7D) (rest : Text) : Closes (c :: rest) := by
  rintro d ⟨⟩
  exact hc

theorem decimalInt_separable : SeparableBefore Closes (fun _ => True) decimalInt := by
  have hsign : ∀ (m n : Nat) (s t : Text), decimal m ++ s ≠ 0x2D :: (decimal n ++ t) := by
    intro m n s t heq
    obtain ⟨c, rest, hc⟩ := List.exists_cons_of_ne_nil (decimal_ne_nil m)
    have hdigit := isDigit_decimal m c (hc ▸ List.mem_cons_self)
    rw [hc, List.cons_append] at heq
    rw [(List.cons.inj heq).1] at hdigit
    cases hdigit
  intro i j s t _ _ hs ht heq
  cases i with
  | ofNat m =>
    cases j with
    | ofNat n =>
      obtain ⟨rfl, hst⟩ := FieldPath.decimal_separable trivial trivial hs.not_digit ht.not_digit heq
      exact ⟨rfl, hst⟩
    | negSucc n => exact absurd heq (hsign m (n + 1) s t)
  | negSucc m =>
    cases j with
    | ofNat n => exact absurd heq.symm (hsign n (m + 1) t s)
    | negSucc n =>
      obtain ⟨hmn, hst⟩ := FieldPath.decimal_separable trivial trivial hs.not_digit ht.not_digit (List.cons.inj heq).2
      cases hmn
      exact ⟨rfl, hst⟩

/-- A size and the byte behind it. -/
theorem count_separable {c : UInt8} (hc : Char8.isDigit c = false) :
    Separable (fun _ => True) fun n => decimal n ++ [c] :=
  FieldPath.decimal_separable.closed fun _ _ hd => Option.some.inj hd ▸ hc

/-- A text behind its size, spelled so that the size determines the length. -/
theorem measured_separable {f : Text → Text} (hlength : ∀ a b : Text, a.length = b.length → (f a).length = (f b).length)
    (hf : Function.Injective f) : Separable (fun _ => True) fun text : Text => decimal text.length ++ 0x3A :: f text := by
  intro a b s t _ _ heq
  have hcolon : ∀ text rest : Text, decimal text.length ++ 0x3A :: f text ++ rest =
      decimal text.length ++ [0x3A] ++ (f text ++ rest) := fun text rest => by simp
  obtain ⟨hsize, hrest⟩ := count_separable rfl trivial trivial ((hcolon a s).symm.trans (heq.trans (hcolon b t)))
  obtain ⟨htext, hst⟩ := List.append_inj hrest (hlength a b hsize)
  exact ⟨hf htext, hst⟩

theorem text_separable : Separable (fun _ => True) fun text : Text => decimal text.length ++ 0x3A :: text :=
  measured_separable (f := id) (fun _ _ h => h) fun _ _ h => h

theorem raw_separable : Separable (fun _ => True) fun raw : Text => decimal raw.length ++ 0x3A :: toHex raw := by
  refine measured_separable (fun a b h => ?_) fun a b h => ?_
  · rw [length_toHex, length_toHex, h]
  · rw [← Option.some_inj, ← fromHex_toHex, h, fromHex_toHex]

/-- Bytes of the spelling of a number. -/
def NumberBytes (text : Text) : Prop := ∀ c ∈ text, Char8.isDigit c = true ∨ c ∈ ascii "+-.eE"

instance : DecidablePred NumberBytes := fun text => List.decidableBAll _ text

theorem NumberBytes.not_closes {text : Text} (h : NumberBytes text) :
    ∀ c ∈ text, ¬(c = 0x3B ∨ c = 0x2C ∨ c = 0x7D) := by
  intro c hc hcloses
  rcases h c hc with hdigit | hsign <;> rcases hcloses with rfl | rfl | rfl
  · cases hdigit
  · cases hdigit
  · cases hdigit
  all_goals exact absurd hsign (by decide)

/-- The byte a value begins with. -/
def textTag : ValueTree → UInt8
  | null => 0x6E
  | bool b => if b then 0x74 else 0x66
  | int _ => 0x69
  | uint _ => 0x75
  | double _ => 0x64
  | string _ => 0x73
  | bytes _ => 0x62
  | list _ => 0x6C
  | map _ => 0x6D

/-- The kind a byte stands for. -/
def tagKind (tag : UInt8) : ValueKind :=
  match tag.toNat with
  | 0x74 | 0x66 => .bool
  | 0x69 => .int
  | 0x75 => .uint
  | 0x64 => .double
  | 0x73 => .string
  | 0x62 => .bytes
  | 0x6C => .list
  | 0x6D => .map
  | _ => .null

theorem tagKind_textTag (v : ValueTree) : tagKind (textTag v) = v.kind := by
  cases v with
  | bool b => cases b <;> rfl
  | _ => rfl

section CanonicalText
variable [DoubleChars]

theorem numberBytes_formatDouble (hnumber : ∀ d, NumberBytes (DoubleChars.toChars d)) (d : Double) :
    NumberBytes (formatDouble d) := by
  simp only [formatDouble]
  split_ifs
  · exact hnumber d
  · intro c hc
    rcases List.mem_append.mp hc with hc | hc
    · exact hnumber d c hc
    · exact (by decide : NumberBytes (ascii ".0")) c hc

theorem formatDouble_separable (hdistinct : Function.Injective formatDouble)
    (hnumber : ∀ d, NumberBytes (DoubleChars.toChars d)) : SeparableBefore Closes (fun _ => True) formatDouble := by
  intro a b s t _ _ hs ht heq
  obtain ⟨htext, hst⟩ := append_inj_of_stop _ (numberBytes_formatDouble hnumber a).not_closes
    (numberBytes_formatDouble hnumber b).not_closes hs ht heq
  exact ⟨hdistinct htext, hst⟩

/-- The text of a member, with the byte before it. -/
def textMember (depth : Nat) (m : Text × ValueTree) : Text :=
  0x2C :: (decimal m.1.length ++ 0x3A :: m.1 ++ 0x3D :: appendCanonical depth m.2)

theorem appendCanonicalList_eq (depth : Nat) (vs : List ValueTree) :
    appendCanonicalList depth vs = vs.flatMap fun v => appendCanonical depth v ++ [0x3B] := by
  induction vs with
  | nil => rfl
  | cons v rest ih =>
    rw [appendCanonicalList, ih, List.flatMap_cons]
    rfl

theorem appendCanonicalMap_eq (depth : Nat) (members : List (Text × ValueTree)) :
    appendCanonicalMap depth false members = members.flatMap (textMember depth) := by
  induction members with
  | nil => rfl
  | cons m rest ih =>
    rw [appendCanonicalMap, ih, List.flatMap_cons]
    simp [textMember, ascii]

/-- Only the byte before it tells the first member from the others. -/
theorem appendCanonicalMap_first (depth : Nat) {members : List (Text × ValueTree)} (h : members ≠ []) :
    0x2C :: appendCanonicalMap depth true members = members.flatMap (textMember depth) := by
  obtain ⟨⟨key, v⟩, rest, rfl⟩ := List.exists_cons_of_ne_nil h
  rw [← appendCanonicalMap_eq]
  simp [appendCanonicalMap, ascii]

/-- What follows the byte of a value. -/
def textBody (depth : Nat) : ValueTree → Text
  | null | bool _ => []
  | int i => decimalInt i.toInt
  | uint u => decimal u.toNat
  | double d => formatDouble d
  | string text => decimal text.length ++ 0x3A :: text
  | bytes raw => decimal raw.length ++ 0x3A :: toHex raw
  | list elements => (decimal elements.length ++ [0x5B] ++
      elements.flatMap fun v => appendCanonical (depth + 1) v ++ [0x3B]) ++ [0x5D]
  | map members => decimal members.length ++ [0x7B] ++ (appendCanonicalMap (depth + 1) true members ++ [0x7D])

theorem appendCanonical_eq {depth : Nat} (h : depth ≤ kHardRecursionLimit) (v : ValueTree) :
    appendCanonical depth v = textTag v :: textBody depth v := by
  cases v <;> simp only [appendCanonical, guarded_of_le h, appendCanonicalList_eq]
  case bool b => cases b <;> rfl
  all_goals simp [textTag, textBody, ascii]

section Children
variable {depth : Nat} (ih : SeparableBefore Closes (Shallow depth) (appendCanonical depth))

include ih

theorem textMember_separable : SeparableBefore Closes (fun m => Shallow depth m.2) (textMember depth) := by
  rintro ⟨key, v⟩ ⟨key', w⟩ s t hv hw hs ht heq
  have hbehind : ∀ (key : Text) (v : ValueTree) (rest : Text), textMember depth (key, v) ++ rest =
      0x2C :: (decimal key.length ++ 0x3A :: key ++ 0x3D :: (appendCanonical depth v ++ rest)) := by
    intro key v rest
    simp [textMember]
  rw [hbehind, hbehind] at heq
  obtain ⟨rfl, hvalue⟩ := text_separable trivial trivial (List.cons.inj heq).2
  obtain ⟨rfl, hst⟩ := ih hv hw hs ht (List.cons.inj hvalue).2
  exact ⟨rfl, hst⟩

/-- As many members behind one another, up to the end of the map. -/
theorem members_separable {as bs : List (Text × ValueTree)} {s t : Text} (has : ∀ m ∈ as, Shallow depth m.2)
    (hbs : ∀ m ∈ bs, Shallow depth m.2) (hlength : as.length = bs.length)
    (heq : appendCanonicalMap depth true as ++ 0x7D :: s = appendCanonicalMap depth true bs ++ 0x7D :: t) :
    as = bs ∧ s = t := by
  rcases eq_or_ne as [] with rfl | hne
  · cases List.length_eq_zero_iff.mp hlength.symm
    exact ⟨rfl, List.tail_eq_of_cons_eq heq⟩
  have hne' : bs ≠ [] := by
    rintro rfl
    exact hne (List.length_eq_zero_iff.mp hlength)
  have hcomma := congrArg (0x2C :: ·) heq
  simp only [← List.cons_append, appendCanonicalMap_first depth hne, appendCanonicalMap_first depth hne'] at hcomma
  obtain ⟨hmembers, hst⟩ := (textMember_separable ih).flatMap (fun m rest _ => closes_cons (.inr (.inl rfl)) _)
    (closes_cons (.inr (.inr rfl)) s) (closes_cons (.inr (.inr rfl)) t) hlength has hbs hcomma
  exact ⟨hmembers, List.tail_eq_of_cons_eq hst⟩

end Children

/-- Texts of the children that are told apart make texts of the value that are. -/
theorem appendCanonical_step {depth : Nat} (hdistinct : Function.Injective formatDouble)
    (hnumber : ∀ d, NumberBytes (DoubleChars.toChars d))
    (ih : SeparableBefore Closes (Shallow (depth + 1)) (appendCanonical (depth + 1))) :
    SeparableBefore Closes (Shallow depth) (appendCanonical depth) := by
  intro a b s t ha hb hs ht heq
  rw [appendCanonical_eq ha.depth_le, appendCanonical_eq hb.depth_le, List.cons_append, List.cons_append,
    List.cons.injEq] at heq
  obtain ⟨htag, hbody⟩ := heq
  have hkind : a.kind = b.kind := by rw [← tagKind_textTag, htag, tagKind_textTag]
  cases a with
  | null =>
    cases b <;> cases hkind
    exact ⟨rfl, hbody⟩
  | bool v =>
    cases b <;> cases hkind
    rename_i w
    cases v <;> cases w <;> first | exact ⟨rfl, hbody⟩ | cases htag
  | int v =>
    cases b <;> cases hkind
    obtain ⟨hint, hst⟩ := decimalInt_separable trivial trivial hs ht hbody
    exact ⟨congrArg int (Int64.toInt_inj.mp hint), hst⟩
  | uint v =>
    cases b <;> cases hkind
    obtain ⟨hnat, hst⟩ := FieldPath.decimal_separable trivial trivial hs.not_digit ht.not_digit hbody
    exact ⟨congrArg uint (UInt64.toNat_inj.mp hnat), hst⟩
  | double v =>
    cases b <;> cases hkind
    obtain ⟨rfl, hst⟩ := formatDouble_separable hdistinct hnumber trivial trivial hs ht hbody
    exact ⟨rfl, hst⟩
  | string v =>
    cases b <;> cases hkind
    obtain ⟨rfl, hst⟩ := text_separable trivial trivial hbody
    exact ⟨rfl, hst⟩
  | bytes v =>
    cases b <;> cases hkind
    obtain ⟨rfl, hst⟩ := raw_separable trivial trivial hbody
    exact ⟨rfl, hst⟩
  | list as =>
    cases b <;> cases hkind
    rename_i bs
    have helement : Separable (Shallow (depth + 1)) fun v => appendCanonical (depth + 1) v ++ [0x3B] :=
      ih.closed (closes_cons (.inl rfl))
    rw [textBody, textBody, List.append_assoc _ [0x5D] s, List.append_assoc _ [0x5D] t] at hbody
    obtain ⟨rfl, hst⟩ := (count_separable (c := 0x5B) rfl).counted helement ⟨trivial, (shallow_list.mp ha).2⟩
      ⟨trivial, (shallow_list.mp hb).2⟩ hbody
    exact ⟨rfl, List.append_cancel_left hst⟩
  | map as =>
    cases b <;> cases hkind
    rw [textBody, textBody, List.append_assoc _ _ s, List.append_assoc _ _ t] at hbody
    obtain ⟨hlength, hmembers⟩ := count_separable (c := 0x7B) rfl trivial trivial hbody
    obtain ⟨rfl, hst⟩ := members_separable ih (shallow_map.mp ha).2 (shallow_map.mp hb).2 hlength
      (by simpa only [List.append_assoc, List.singleton_append] using hmembers)
    exact ⟨rfl, hst⟩

theorem appendCanonical_separable (hdistinct : Function.Injective formatDouble)
    (hnumber : ∀ d, NumberBytes (DoubleChars.toChars d)) (depth : Nat) :
    SeparableBefore Closes (Shallow depth) (appendCanonical depth) := by
  refine at_every_depth (P := fun depth => SeparableBefore Closes (Shallow depth) (appendCanonical depth))
    (fun depth hpast => ?_) (fun depth ih => appendCanonical_step hdistinct hnumber ih) depth
  intro a b s t ha
  exact absurd ha.depth_le (not_le.mpr hpast)

end CanonicalText

end ValueTree

/-! ### Values -/

namespace Value

theorem tree_injective {v w : Value} (h : v.tree = w.tree) : v = w := by
  cases v
  cases w
  cases h
  rfl

/-- Values nested at most as deep as the recursion guard admits are equal when their canonical texts are, when their
    bytes for the hasher are, and when the bytes of one begin the bytes of the other; and bytes of values behind one
    another determine the values. The characters of a number are those of the C++ standard library. -/
theorem encodings_injective [DoubleChars] (hdistinct : Function.Injective ValueTree.formatDouble)
    (hnumber : ∀ d, ValueTree.NumberBytes (DoubleChars.toChars d)) {v w : Value}
    (hv : v.tree.maxDepth ≤ kHardRecursionLimit) (hw : w.tree.maxDepth ≤ kHardRecursionLimit) :
    (v.tree.toCanonicalText = w.tree.toCanonicalText → v = w) ∧
    (v.tree.Addressable → w.tree.Addressable →
      (v.hashInto = w.hashInto → v = w) ∧ (v.hashInto <+: w.hashInto → v = w)) ∧
    ∀ vs ws : List Value, (∀ x ∈ vs ++ ws, x.tree.maxDepth ≤ kHardRecursionLimit ∧ x.tree.Addressable) →
      vs.flatMap hashInto = ws.flatMap hashInto → vs = ws := by
  have hashed : Separable (fun x : Value => ValueTree.Fit 0 x.tree) hashInto :=
    (ValueTree.hashValue_separable 0).comp (fun _ h => h) fun _ _ _ _ h => tree_injective h
  refine ⟨fun htext => ?_, fun hfitv hfitw => ⟨fun hbytes => ?_, fun hfront => ?_⟩, fun vs ws hall hbytes => ?_⟩
  · have htrees := (ValueTree.appendCanonical_separable hdistinct hnumber 0).injective (by rintro c ⟨⟩) hv hw htext
    exact tree_injective htrees
  · exact hashed.injective ⟨hv, hfitv⟩ ⟨hw, hfitw⟩ hbytes
  · exact hashed.eq_of_prefix ⟨hv, hfitv⟩ ⟨hw, hfitw⟩ hfront
  · refine hashed.flatMap_injective (fun x hx hnil => ?_) (fun x hx => hall x (List.mem_append_left _ hx))
      (fun x hx => hall x (List.mem_append_right _ hx)) hbytes
    rw [hashInto, ValueTree.hashInto, ValueTree.hashValue_eq hx.1.depth_le] at hnil
    cases hnil

end Value

namespace Sample

/-- A sequence of numbers, and a sequence that spells the first of them. -/
def numbers : Value := ⟨.list [.double ⟨0, by decide⟩, .uint 1], trivial, trivial, trivial⟩

def spelled : Value := ⟨.list [.string (ascii "0.0"), .uint 1], trivial, trivial, trivial⟩

end Sample

theorem Value.encodings_injective_spelled :
    @ValueTree.toCanonicalText Sample.bitDoubles Sample.numbers.tree ≠
        @ValueTree.toCanonicalText Sample.bitDoubles Sample.spelled.tree ∧
      ¬ Sample.numbers.hashInto <+: Sample.spelled.hashInto := by
  have hdistinct : Function.Injective (@ValueTree.formatDouble Sample.bitDoubles) := by
    intro a b h
    have hread := @Json.LawfulDoubleChars.fromChars_formatDouble Sample.bitDoubles Sample.lawful_bitDoubles
    rw [← Option.some_inj, ← hread, h, hread]
  have hne : Sample.numbers ≠ Sample.spelled := fun h => by cases congrArg Value.tree h
  obtain ⟨htext, hbytes, -⟩ := @Value.encodings_injective Sample.bitDoubles hdistinct
    (fun d c hc => .inl (isDigit_decimal _ c hc)) Sample.numbers Sample.spelled (by decide) (by decide)
  refine ⟨fun h => hne (htext h), fun h => hne ((hbytes ?_ ?_).2 h)⟩
  · exact ⟨by decide, trivial, trivial, trivial⟩
  · exact ⟨by decide, (by decide : Sized (ascii "0.0").length), trivial, trivial⟩

end DriftObservatory
