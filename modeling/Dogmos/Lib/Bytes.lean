import Mathlib.Algebra.GroupWithZero.Nat
import Mathlib.Tactic.Common

/-!
# Byte strings

Fixed layouts over byte strings: little-endian numbers, writes at an offset into a
blank buffer, and reads at an offset that fail when they leave the string.

A buffer that is written from front to back is the concatenation of its fields
(`put_append`, `put_zeros`), a string that is long enough splits into fields of
any numbers (`exists_le32_append`), and a read at an offset skips the fields before
it (`slice_skip`).  With these an encoder and a decoder that spell out their
offsets are compared field by field.

* `Fault` — a decoder rejects its input, or leaves it.
* `Codec` — an encoder and a decoder that undo each other.
* `records` — the loop over records of one length; `RecordFormat` collects what one
  record has to satisfy, and `RecordFormat.records_iff` carries it over to lists.
-/

/-- How a decoder fails: it rejects the input, or it reads outside of it. -/
inductive Fault (ε : Type) where
  | rejects (error : ε)
  | panic
deriving DecidableEq

/-- What a decoder returns. -/
abbrev Checked (ε α : Type) := Except (Fault ε) α

abbrev Bytes := List UInt8

namespace Bytes

variable {ε α β : Type}

/-! ## Computations that fail -/

@[simp] theorem pure_eq (a : α) : (pure a : Except ε α) = .ok a := rfl

@[simp] theorem bind_ok (a : α) (f : α → Except ε β) : (Except.ok a >>= f) = f a := rfl

theorem bind_eq_ok {m : Except ε α} {f : α → Except ε β} {b : β} :
    (m >>= f) = .ok b ↔ ∃ a, m = .ok a ∧ f a = .ok b := by
  cases m with
  | error e => simp [bind, Except.bind]
  | ok a => simp

/-! ## Little-endian numbers -/

/-- The `w` low bytes of a number, the lowest first. -/
def leBytes : Nat → Nat → Bytes
  | 0, _ => []
  | w + 1, n => UInt8.ofNat (n % 256) :: leBytes w (n / 256)

/-- The number with the given bytes. -/
def leNat : Bytes → Nat
  | [] => 0
  | b :: bs => b.toNat + 256 * leNat bs

@[simp] theorem length_leBytes (w n : Nat) : (leBytes w n).length = w := by
  induction w generalizing n with
  | zero => rfl
  | succ w ih => simp [leBytes, ih]

theorem leNat_leBytes (w n : Nat) : leNat (leBytes w n) = n % 256 ^ w := by
  induction w generalizing n with
  | zero => simp [leBytes, leNat, Nat.mod_one]
  | succ w ih =>
    have hbyte : n % 256 % 2 ^ 8 = n % 256 := Nat.mod_eq_of_lt (Nat.mod_lt n (by decide))
    simp only [leBytes, leNat, ih, UInt8.toNat_ofNat', hbyte]
    rw [Nat.pow_succ', Nat.mod_mul]

theorem leNat_lt (bs : Bytes) : leNat bs < 256 ^ bs.length := by
  induction bs with
  | nil => simp [leNat]
  | cons b bs ih =>
    have hb := b.toNat_lt
    simp only [leNat, List.length_cons, Nat.pow_succ]
    omega

theorem leBytes_leNat (bs : Bytes) : leBytes bs.length (leNat bs) = bs := by
  induction bs with
  | nil => rfl
  | cons b bs ih =>
    have hb := b.toNat_lt
    have hlow : (b.toNat + 256 * leNat bs) % 256 = b.toNat := by omega
    have hhigh : (b.toNat + 256 * leNat bs) / 256 = leNat bs := by omega
    simp [leNat, leBytes, hlow, hhigh, ih]

def le16 (x : UInt16) : Bytes := leBytes 2 x.toNat

def le32 (x : UInt32) : Bytes := leBytes 4 x.toNat

def le64 (x : UInt64) : Bytes := leBytes 8 x.toNat

def ofLe16 (bs : Bytes) : UInt16 := UInt16.ofNat (leNat bs)

def ofLe32 (bs : Bytes) : UInt32 := UInt32.ofNat (leNat bs)

def ofLe64 (bs : Bytes) : UInt64 := UInt64.ofNat (leNat bs)

@[simp] theorem length_le16 (x : UInt16) : (le16 x).length = 2 := length_leBytes ..

@[simp] theorem length_le32 (x : UInt32) : (le32 x).length = 4 := length_leBytes ..

@[simp] theorem length_le64 (x : UInt64) : (le64 x).length = 8 := length_leBytes ..

@[simp] theorem ofLe16_le16 (x : UInt16) : ofLe16 (le16 x) = x := by
  have hlt : x.toNat < 256 ^ 2 := x.toNat_lt
  unfold ofLe16 le16
  rw [leNat_leBytes, Nat.mod_eq_of_lt hlt, UInt16.ofNat_toNat]

@[simp] theorem ofLe32_le32 (x : UInt32) : ofLe32 (le32 x) = x := by
  have hlt : x.toNat < 256 ^ 4 := x.toNat_lt
  unfold ofLe32 le32
  rw [leNat_leBytes, Nat.mod_eq_of_lt hlt, UInt32.ofNat_toNat]

@[simp] theorem ofLe64_le64 (x : UInt64) : ofLe64 (le64 x) = x := by
  have hlt : x.toNat < 256 ^ 8 := x.toNat_lt
  unfold ofLe64 le64
  rw [leNat_leBytes, Nat.mod_eq_of_lt hlt, UInt64.ofNat_toNat]

theorem le16_ofLe16 {bs : Bytes} (h : bs.length = 2) : le16 (ofLe16 bs) = bs := by
  have hlt := leNat_lt bs
  have hbytes := leBytes_leNat bs
  rw [h] at hlt hbytes
  unfold le16 ofLe16
  rw [UInt16.toNat_ofNat_of_lt' hlt, hbytes]

theorem le32_ofLe32 {bs : Bytes} (h : bs.length = 4) : le32 (ofLe32 bs) = bs := by
  have hlt := leNat_lt bs
  have hbytes := leBytes_leNat bs
  rw [h] at hlt hbytes
  unfold le32 ofLe32
  rw [UInt32.toNat_ofNat_of_lt' hlt, hbytes]

theorem le64_ofLe64 {bs : Bytes} (h : bs.length = 8) : le64 (ofLe64 bs) = bs := by
  have hlt := leNat_lt bs
  have hbytes := leBytes_leNat bs
  rw [h] at hlt hbytes
  unfold le64 ofLe64
  rw [UInt64.toNat_ofNat_of_lt' hlt, hbytes]

theorem append_inj_iff {p q r s : Bytes} (h : p.length = q.length) :
    p ++ r = q ++ s ↔ p = q ∧ r = s :=
  ⟨fun heq => List.append_inj heq h, fun ⟨hpq, hrs⟩ => by rw [hpq, hrs]⟩

@[simp] theorem le16_inj {x y : UInt16} : le16 x = le16 y ↔ x = y :=
  ⟨fun h => by rw [← ofLe16_le16 x, h, ofLe16_le16], fun h => by rw [h]⟩

@[simp] theorem le32_inj {x y : UInt32} : le32 x = le32 y ↔ x = y :=
  ⟨fun h => by rw [← ofLe32_le32 x, h, ofLe32_le32], fun h => by rw [h]⟩

@[simp] theorem le64_inj {x y : UInt64} : le64 x = le64 y ↔ x = y :=
  ⟨fun h => by rw [← ofLe64_le64 x, h, ofLe64_le64], fun h => by rw [h]⟩

@[simp] theorem le16_append_inj {x y : UInt16} {r s : Bytes} :
    le16 x ++ r = le16 y ++ s ↔ x = y ∧ r = s := by
  rw [append_inj_iff (by simp), le16_inj]

@[simp] theorem le32_append_inj {x y : UInt32} {r s : Bytes} :
    le32 x ++ r = le32 y ++ s ↔ x = y ∧ r = s := by
  rw [append_inj_iff (by simp), le32_inj]

@[simp] theorem le64_append_inj {x y : UInt64} {r s : Bytes} :
    le64 x ++ r = le64 y ++ s ↔ x = y ∧ r = s := by
  rw [append_inj_iff (by simp), le64_inj]

/-! ## Blank bytes -/

def zeros (n : Nat) : Bytes := List.replicate n 0

@[simp] theorem length_zeros (n : Nat) : (zeros n).length = n := List.length_replicate

@[simp] theorem zeros_zero : zeros 0 = [] := rfl

theorem le16_zero : le16 0 = zeros 2 := rfl

theorem le32_zero : le32 0 = zeros 4 := rfl

theorem le64_zero : le64 0 = zeros 8 := rfl

/-- Whether a byte string is blank. -/
def isBlank (bs : Bytes) : Bool := bs.all (· == 0)

theorem isBlank_iff {bs : Bytes} : isBlank bs = true ↔ bs = zeros bs.length := by
  unfold isBlank zeros
  rw [List.all_eq_true, List.eq_replicate_iff]
  simp

@[simp] theorem isBlank_zeros (n : Nat) : isBlank (zeros n) = true := by
  simp [isBlank_iff]

@[simp] theorem isBlank_append (p q : Bytes) : isBlank (p ++ q) = (isBlank p && isBlank q) :=
  List.all_append

@[simp] theorem isBlank_le32 (x : UInt32) : isBlank (le32 x) = decide (x = 0) := by
  rw [Bool.eq_iff_iff, isBlank_iff, length_le32, decide_eq_true_iff, ← le32_zero]
  exact ⟨fun h => by rw [← ofLe32_le32 x, h, ofLe32_le32], fun h => by rw [h]⟩

@[simp] theorem isBlank_le64 (x : UInt64) : isBlank (le64 x) = decide (x = 0) := by
  rw [Bool.eq_iff_iff, isBlank_iff, length_le64, decide_eq_true_iff, ← le64_zero]
  exact ⟨fun h => by rw [← ofLe64_le64 x, h, ofLe64_le64], fun h => by rw [h]⟩

/-! ## Writes at an offset -/

/-- A buffer with some bytes written from an offset on. -/
def put (output : Bytes) (offset : Nat) (bs : Bytes) : Bytes :=
  output.take offset ++ bs ++ output.drop (offset + bs.length)

theorem put_append {p : Bytes} {offset : Nat} (rest bs : Bytes) (h : p.length ≤ offset) :
    put (p ++ rest) offset bs = p ++ put rest (offset - p.length) bs := by
  unfold put
  have htake : (p ++ rest).take offset = p ++ rest.take (offset - p.length) := by
    rw [List.take_append, List.take_of_length_le h]
  have hdrop : (p ++ rest).drop (offset + bs.length) =
      rest.drop (offset - p.length + bs.length) := by
    rw [List.drop_append, List.drop_of_length_le (by omega), List.nil_append]
    congr 1
    omega
  rw [htake, hdrop, List.append_assoc, List.append_assoc, List.append_assoc]

theorem put_zeros {n : Nat} (bs : Bytes) : put (zeros n) 0 bs = bs ++ zeros (n - bs.length) := by
  simp [put, zeros]

theorem put_zeros_gap {n offset : Nat} (bs : Bytes) (h : 0 < offset ∧ offset ≤ n) :
    put (zeros n) offset bs = zeros offset ++ (bs ++ zeros (n - offset - bs.length)) := by
  simp [put, zeros, Nat.min_eq_left h.2, Nat.sub_sub]

/-- A field of `n` bytes: some bytes and blank ones behind them. -/
def padded (n : Nat) (bs : Bytes) : Bytes := bs ++ zeros (n - bs.length)

theorem length_padded {n : Nat} {bs : Bytes} (h : bs.length ≤ n) : (padded n bs).length = n := by
  rw [padded, List.length_append, length_zeros]
  omega

theorem put_padded {n w : Nat} {bs : Bytes} (h : bs.length ≤ w) (hw : w ≤ n) :
    put (zeros n) 0 bs = padded w bs ++ zeros (n - w) := by
  have hsplit : zeros (n - bs.length) = zeros (w - bs.length) ++ zeros (n - w) := by
    unfold zeros
    rw [List.replicate_append_replicate]
    congr 1
    omega
  rw [put_zeros, hsplit, padded, List.append_assoc]

/-- What a field holds, found by its length. -/
theorem eq_padded_iff {n : Nat} {area bs : Bytes} (harea : area.length = n) :
    area = padded n bs ↔
      bs.length ≤ n ∧ area.take bs.length = bs ∧ isBlank (area.drop bs.length) = true := by
  constructor
  · rintro rfl
    have hlength : bs.length ≤ n := by
      rw [padded, List.length_append] at harea
      omega
    simp [padded, hlength]
  · rintro ⟨hlength, htake, hdrop⟩
    rw [isBlank_iff, List.length_drop, harea] at hdrop
    rw [padded, ← hdrop]
    calc area = area.take bs.length ++ area.drop bs.length := (List.take_append_drop _ _).symm
      _ = bs ++ area.drop bs.length := by rw [htake]

/-! ## Reads at an offset -/

/-- The bytes of a range, which has to lie in the string. -/
def slice (input : Bytes) (start stop : Nat) : Checked ε Bytes :=
  if start ≤ stop ∧ stop ≤ input.length then .ok ((input.drop start).take (stop - start))
  else .error .panic

def readU16 (input : Bytes) (offset : Nat) : Checked ε UInt16 :=
  (slice input offset (offset + 2)).map ofLe16

def readU32 (input : Bytes) (offset : Nat) : Checked ε UInt32 :=
  (slice input offset (offset + 4)).map ofLe32

def readU64 (input : Bytes) (offset : Nat) : Checked ε UInt64 :=
  (slice input offset (offset + 8)).map ofLe64

theorem slice_block {p : Bytes} {stop : Nat} (rest : Bytes) (h : p.length = stop) :
    slice (ε := ε) (p ++ rest) 0 stop = .ok p := by
  subst h
  unfold slice
  simp

theorem slice_all {p : Bytes} {stop : Nat} (h : p.length = stop) :
    slice (ε := ε) p 0 stop = .ok p := by
  subst h
  unfold slice
  simp

theorem slice_skip {p : Bytes} {start stop : Nat} (rest : Bytes) (h : p.length ≤ start)
    (hstop : start ≤ stop) :
    slice (ε := ε) (p ++ rest) start stop = slice rest (start - p.length) (stop - p.length) := by
  unfold slice
  have hdrop : (p ++ rest).drop start = rest.drop (start - p.length) := by
    rw [List.drop_append, List.drop_of_length_le h, List.nil_append]
  have hwidth : stop - p.length - (start - p.length) = stop - start := by omega
  rw [hdrop, hwidth, List.length_append]
  by_cases hfits : stop ≤ p.length + rest.length
  · rw [if_pos ⟨hstop, hfits⟩, if_pos ⟨by omega, by omega⟩]
  · rw [if_neg fun hin => hfits hin.2, if_neg fun hin => hfits (by omega)]

/-- The rest of a string behind a header. -/
theorem slice_rest {p : Bytes} {start : Nat} (rest : Bytes) (h : p.length = start) :
    slice (ε := ε) (p ++ rest) start (p ++ rest).length = .ok rest := by
  subst h
  rw [slice_skip rest (Nat.le_refl _) (by simp), Nat.sub_self]
  exact slice_all (by simp)

/-- A read that stays in front of some bytes does not see them. -/
theorem slice_front {p : Bytes} {start stop : Nat} (rest : Bytes) (h : stop ≤ p.length) :
    slice (ε := ε) (p ++ rest) start stop = slice p start stop := by
  unfold slice
  by_cases hstart : start ≤ stop
  · have htake : ((p ++ rest).drop start).take (stop - start) = (p.drop start).take (stop - start) := by
      rw [List.drop_append_of_le_length (by omega), List.take_append_of_le_length]
      rw [List.length_drop]
      omega
    rw [htake, if_pos ⟨hstart, by simp; omega⟩, if_pos ⟨hstart, h⟩]
  · rw [if_neg fun hin => hstart hin.1, if_neg fun hin => hstart hin.1]

theorem slice_ok {input : Bytes} {start stop : Nat} (hstart : start ≤ stop)
    (hstop : stop ≤ input.length) :
    ∃ bs : Bytes, slice (ε := ε) input start stop = .ok bs ∧ bs.length = stop - start := by
  refine ⟨(input.drop start).take (stop - start), if_pos ⟨hstart, hstop⟩, ?_⟩
  rw [List.length_take, List.length_drop]
  omega

theorem readU32_ok {input : Bytes} {offset : Nat} (h : offset + 4 ≤ input.length) :
    ∃ x, readU32 (ε := ε) input offset = .ok x := by
  obtain ⟨bs, hslice, -⟩ := slice_ok (ε := ε) (Nat.le_add_right offset 4) h
  exact ⟨ofLe32 bs, by rw [readU32, hslice]; rfl⟩

theorem readU64_ok {input : Bytes} {offset : Nat} (h : offset + 8 ≤ input.length) :
    ∃ x, readU64 (ε := ε) input offset = .ok x := by
  obtain ⟨bs, hslice, -⟩ := slice_ok (ε := ε) (Nat.le_add_right offset 8) h
  exact ⟨ofLe64 bs, by rw [readU64, hslice]; rfl⟩

@[simp] theorem readU16_block (x : UInt16) (rest : Bytes) :
    readU16 (ε := ε) (le16 x ++ rest) 0 = .ok x := by
  unfold readU16
  rw [slice_block rest (length_le16 x)]
  simp [Except.map]

@[simp] theorem readU32_block (x : UInt32) (rest : Bytes) :
    readU32 (ε := ε) (le32 x ++ rest) 0 = .ok x := by
  unfold readU32
  rw [slice_block rest (length_le32 x)]
  simp [Except.map]

@[simp] theorem readU64_block (x : UInt64) (rest : Bytes) :
    readU64 (ε := ε) (le64 x ++ rest) 0 = .ok x := by
  unfold readU64
  rw [slice_block rest (length_le64 x)]
  simp [Except.map]

@[simp] theorem readU32_all (x : UInt32) : readU32 (ε := ε) (le32 x) 0 = .ok x := by
  simpa using readU32_block (ε := ε) x []

@[simp] theorem readU64_all (x : UInt64) : readU64 (ε := ε) (le64 x) 0 = .ok x := by
  simpa using readU64_block (ε := ε) x []

theorem readU16_skip {p : Bytes} {offset : Nat} (rest : Bytes) (h : p.length ≤ offset) :
    readU16 (ε := ε) (p ++ rest) offset = readU16 rest (offset - p.length) := by
  unfold readU16
  rw [slice_skip rest h (Nat.le_add_right ..), Nat.sub_add_comm h]

theorem readU32_skip {p : Bytes} {offset : Nat} (rest : Bytes) (h : p.length ≤ offset) :
    readU32 (ε := ε) (p ++ rest) offset = readU32 rest (offset - p.length) := by
  unfold readU32
  rw [slice_skip rest h (Nat.le_add_right ..), Nat.sub_add_comm h]

theorem readU64_skip {p : Bytes} {offset : Nat} (rest : Bytes) (h : p.length ≤ offset) :
    readU64 (ε := ε) (p ++ rest) offset = readU64 rest (offset - p.length) := by
  unfold readU64
  rw [slice_skip rest h (Nat.le_add_right ..), Nat.sub_add_comm h]

theorem readU32_front {p : Bytes} {offset : Nat} (rest : Bytes) (h : offset + 4 ≤ p.length) :
    readU32 (ε := ε) (p ++ rest) offset = readU32 p offset := by
  unfold readU32
  rw [slice_front rest h]

section Shift

variable {bs : Bytes} (p rest : Bytes)

/-- A read at an offset of a record that lies inside a string. -/
theorem slice_shift {start stop : Nat} (hstart : start ≤ stop) (h : stop ≤ bs.length) :
    slice (ε := ε) (p ++ (bs ++ rest)) (p.length + start) (p.length + stop) =
      slice bs start stop := by
  rw [slice_skip _ (Nat.le_add_right ..) (Nat.add_le_add_left hstart _), Nat.add_sub_cancel_left,
    Nat.add_sub_cancel_left, slice_front rest h]

theorem slice_shift_zero {stop : Nat} (h : stop ≤ bs.length) :
    slice (ε := ε) (p ++ (bs ++ rest)) p.length (p.length + stop) = slice bs 0 stop :=
  slice_shift p rest (Nat.zero_le stop) h

theorem readU16_shift {k : Nat} (h : k + 2 ≤ bs.length) :
    readU16 (ε := ε) (p ++ (bs ++ rest)) (p.length + k) = readU16 bs k := by
  unfold readU16
  rw [Nat.add_assoc, slice_shift p rest (Nat.le_add_right ..) h]

theorem readU32_shift {k : Nat} (h : k + 4 ≤ bs.length) :
    readU32 (ε := ε) (p ++ (bs ++ rest)) (p.length + k) = readU32 bs k := by
  unfold readU32
  rw [Nat.add_assoc, slice_shift p rest (Nat.le_add_right ..) h]

theorem readU16_shift_zero (h : 2 ≤ bs.length) :
    readU16 (ε := ε) (p ++ (bs ++ rest)) p.length = readU16 bs 0 :=
  readU16_shift (k := 0) p rest h

theorem readU32_shift_zero (h : 4 ≤ bs.length) :
    readU32 (ε := ε) (p ++ (bs ++ rest)) p.length = readU32 bs 0 :=
  readU32_shift (k := 0) p rest h

end Shift

/-! ## Splitting a string into fields -/

theorem exists_append {bs : Bytes} {n : Nat} (h : n ≤ bs.length) :
    ∃ p rest : Bytes, bs = p ++ rest ∧ p.length = n ∧ rest.length + n = bs.length := by
  refine ⟨bs.take n, bs.drop n, (List.take_append_drop n bs).symm, List.length_take_of_le h, ?_⟩
  rw [List.length_drop]
  omega

theorem exists_le16_append {bs : Bytes} (h : 2 ≤ bs.length) :
    ∃ (x : UInt16) (rest : Bytes), bs = le16 x ++ rest ∧ rest.length + 2 = bs.length := by
  obtain ⟨p, rest, rfl, hp, hrest⟩ := exists_append h
  exact ⟨ofLe16 p, rest, by rw [le16_ofLe16 hp], hrest⟩

theorem exists_le32_append {bs : Bytes} (h : 4 ≤ bs.length) :
    ∃ (x : UInt32) (rest : Bytes), bs = le32 x ++ rest ∧ rest.length + 4 = bs.length := by
  obtain ⟨p, rest, rfl, hp, hrest⟩ := exists_append h
  exact ⟨ofLe32 p, rest, by rw [le32_ofLe32 hp], hrest⟩

theorem exists_le64_append {bs : Bytes} (h : 8 ≤ bs.length) :
    ∃ (x : UInt64) (rest : Bytes), bs = le64 x ++ rest ∧ rest.length + 8 = bs.length := by
  obtain ⟨p, rest, rfl, hp, hrest⟩ := exists_append h
  exact ⟨ofLe64 p, rest, by rw [le64_ofLe64 hp], hrest⟩

/-! ## Encoders and decoders that undo each other -/

/-- What was encoded is decoded again, and what was decoded is what is encoded. -/
structure Codec (encode : α → Except ε Bytes) (decode : Bytes → Checked ε α) : Prop where
  decode_encode : ∀ {a : α} {bs : Bytes}, encode a = .ok bs → decode bs = .ok a
  encode_decode : ∀ {a : α} {bs : Bytes}, decode bs = .ok a → encode a = .ok bs

namespace Codec

variable {encode : α → Except ε Bytes} {decode : Bytes → Checked ε α}

/-- No two byte strings stand for one value. -/
theorem unique (h : Codec encode decode) {a : α} {bs bs' : Bytes} (hbs : decode bs = .ok a)
    (hbs' : decode bs' = .ok a) : bs = bs' :=
  Except.ok.inj ((h.encode_decode hbs).symm.trans (h.encode_decode hbs'))

end Codec

/-! ## Records of one length -/

/-- The loop over the records from `index` on. -/
def records (record : Nat → Checked ε α) : Nat → Nat → Checked ε (List α)
  | _, 0 => .ok []
  | index, count + 1 => do
    let a ← record index
    let rest ← records record (index + 1) count
    pure (a :: rest)

/-- The loop that only checks the records from `index` on. -/
def checkRecords (check : Nat → Checked ε Unit) : Nat → Nat → Checked ε Unit
  | _, 0 => .ok ()
  | index, count + 1 => do
    check index
    checkRecords check (index + 1) count

/-- The loop that fills an array. -/
def recordVector (record : Nat → Checked ε α) : (count : Nat) → Checked ε (Vector α count)
  | 0 => .ok #v[]
  | count + 1 => do
    let front ← recordVector record count
    let a ← record count
    pure (front.push a)

/-- The bytes of a list of records. -/
def encodeAll (encode : α → Except ε Bytes) : List α → Except ε Bytes
  | [] => .ok []
  | a :: rest => do
    let bs ← encode a
    let more ← encodeAll encode rest
    pure (bs ++ more)

/-- The byte strings that carry a list, record by record. -/
def CarriesAll (carries : α → Bytes → Prop) : List α → Bytes → Prop
  | [], bs => bs = []
  | a :: rest, bs => ∃ r more, bs = r ++ more ∧ carries a r ∧ CarriesAll carries rest more

section Loops

theorem records_eq_ok {record : Nat → Checked ε α} {count index : Nat} {as : List α} :
    records record index count = .ok as ↔
      as.length = count ∧ ∀ i (h : i < as.length), record (index + i) = .ok as[i] := by
  induction count generalizing index as with
  | zero =>
    constructor
    · intro h
      cases h
      exact ⟨rfl, fun i hi => absurd hi (Nat.not_lt_zero i)⟩
    · rintro ⟨hlength, -⟩
      rw [List.eq_nil_of_length_eq_zero hlength]
      rfl
  | succ count ih =>
    simp only [records, bind_eq_ok, pure_eq, Except.ok.injEq, ih]
    constructor
    · rintro ⟨a, ha, rest, ⟨hlength, hrest⟩, rfl⟩
      refine ⟨congrArg (· + 1) hlength, fun i hi => ?_⟩
      cases i with
      | zero => exact ha
      | succ i =>
        rw [List.getElem_cons_succ, ← hrest i (Nat.lt_of_succ_lt_succ hi), Nat.add_right_comm]
        rfl
    · rintro ⟨hlength, hall⟩
      cases as with
      | nil => cases hlength
      | cons a rest =>
        refine ⟨a, hall 0 (Nat.succ_pos _), rest, ⟨Nat.succ.inj hlength, fun i hi => ?_⟩, rfl⟩
        have hi := hall (i + 1) (Nat.succ_lt_succ hi)
        rw [List.getElem_cons_succ] at hi
        rw [← hi, Nat.add_right_comm]
        rfl

theorem checkRecords_eq_ok {check : Nat → Checked ε Unit} {u : Unit} {count index : Nat} :
    checkRecords check index count = .ok u ↔ ∀ i, i < count → check (index + i) = .ok () := by
  induction count generalizing index with
  | zero => simp [checkRecords]
  | succ count ih =>
    simp only [checkRecords, bind_eq_ok, ih]
    constructor
    · rintro ⟨_, hfirst, hrest⟩ i hi
      cases i with
      | zero => exact hfirst
      | succ i =>
        rw [← hrest i (Nat.lt_of_succ_lt_succ hi), Nat.add_right_comm]
        rfl
    · intro hall
      refine ⟨(), hall 0 (Nat.succ_pos _), fun i hi => ?_⟩
      rw [← hall (i + 1) (Nat.succ_lt_succ hi), Nat.add_right_comm]
      rfl

theorem recordVector_eq_ok {record : Nat → Checked ε α} {count : Nat} {v : Vector α count} :
    recordVector record count = .ok v ↔ ∀ i (h : i < count), record i = .ok v[i] := by
  induction count with
  | zero =>
    have hempty : v = #v[] := Vector.eq_empty
    constructor
    · intro _ i hi
      exact absurd hi (Nat.not_lt_zero i)
    · intro _
      rw [hempty]
      rfl
  | succ count ih =>
    simp only [recordVector, bind_eq_ok, pure_eq, Except.ok.injEq, ih]
    constructor
    · rintro ⟨front, hfront, a, ha, rfl⟩ i hi
      by_cases hlast : i < count
      · rw [Vector.getElem_push_lt hlast]
        exact hfront i hlast
      · obtain rfl : i = count := by omega
        rw [Vector.getElem_push_eq]
        exact ha
    · intro hall
      refine ⟨v.pop, fun i hi => ?_, v[count], hall count (Nat.lt_succ_self _), ?_⟩
      · rw [Vector.getElem_pop]
        exact hall i (Nat.lt_succ_of_lt hi)
      · exact Vector.push_pop_back v

/-- An array is filled by the loop over a list. -/
theorem recordVector_iff_records {record : Nat → Checked ε α} {count : Nat} {v : Vector α count} :
    recordVector record count = .ok v ↔ records record 0 count = .ok v.toList := by
  rw [recordVector_eq_ok, records_eq_ok]
  simp

/-- A loop that follows a checking loop is a loop that checks first. -/
theorem checkRecords_records {check : Nat → Checked ε Unit} {record : Nat → Checked ε α}
    {index count : Nat} {as : List α} :
    (checkRecords check index count = .ok () ∧ records record index count = .ok as) ↔
      records (fun i => check i >>= fun _ => record i) index count = .ok as := by
  simp only [checkRecords_eq_ok, records_eq_ok, bind_eq_ok]
  constructor
  · rintro ⟨hcheck, hlength, hrecord⟩
    exact ⟨hlength, fun i hi => ⟨(), hcheck i (hlength ▸ hi), hrecord i hi⟩⟩
  · rintro ⟨hlength, hall⟩
    refine ⟨fun i hi => ?_, hlength, fun i hi => ?_⟩
    · obtain ⟨_, hcheck, -⟩ := hall i (hlength ▸ hi)
      exact hcheck
    · obtain ⟨_, -, hrecord⟩ := hall i hi
      exact hrecord

theorem carriesAll_mono {carries carries' : α → Bytes → Prop}
    (h : ∀ a bs, carries a bs → carries' a bs) :
    ∀ {as : List α} {bs : Bytes}, CarriesAll carries as bs → CarriesAll carries' as bs
  | [], _, hbs => hbs
  | _ :: _, _, ⟨r, more, hbs, hr, hmore⟩ => ⟨r, more, hbs, h _ r hr, carriesAll_mono h hmore⟩

theorem carriesAll_congr {carries carries' : α → Bytes → Prop}
    (h : ∀ a bs, carries a bs ↔ carries' a bs) {as : List α} {bs : Bytes} :
    CarriesAll carries as bs ↔ CarriesAll carries' as bs :=
  ⟨carriesAll_mono fun a bs => (h a bs).1, carriesAll_mono fun a bs => (h a bs).2⟩

theorem carriesAll_map {carries : β → Bytes → Prop} {f : α → β} {as : List α} {bs : Bytes} :
    CarriesAll carries (as.map f) bs ↔ CarriesAll (fun a r => carries (f a) r) as bs := by
  induction as generalizing bs with
  | nil => rfl
  | cons a rest ih => simp only [List.map_cons, CarriesAll, ih]

theorem exists_carriesAll {carries : α → Bytes → Prop} {as : List α} :
    (∃ bs, CarriesAll carries as bs) ↔ ∀ a ∈ as, ∃ r, carries a r := by
  induction as with
  | nil => simp [CarriesAll]
  | cons a rest ih =>
    rw [List.forall_mem_cons, ← ih]
    constructor
    · rintro ⟨_, r, more, rfl, hr, hmore⟩
      exact ⟨⟨r, hr⟩, more, hmore⟩
    · rintro ⟨⟨r, hr⟩, more, hmore⟩
      exact ⟨r ++ more, r, more, rfl, hr, hmore⟩

/-- The bytes of a list carry it. -/
theorem encodeAll_eq_ok {encode : α → Except ε Bytes} {as : List α} {bs : Bytes} :
    encodeAll encode as = .ok bs ↔ CarriesAll (fun a r => encode a = .ok r) as bs := by
  induction as generalizing bs with
  | nil => simp [encodeAll, CarriesAll, eq_comm]
  | cons a rest ih =>
    simp only [encodeAll, CarriesAll, bind_eq_ok, pure_eq, Except.ok.injEq, ih]
    constructor
    · rintro ⟨r, hr, more, hmore, rfl⟩
      exact ⟨r, more, rfl, hr, hmore⟩
    · rintro ⟨r, more, rfl, hr, hmore⟩
      exact ⟨r, hr, more, hmore, rfl⟩

end Loops

/-- A record of one length: `decode` reads it at an offset of a string, and accepts what
carries a value. -/
structure RecordFormat (len : Nat) (carries : α → Bytes → Prop)
    (decode : Bytes → Nat → Checked ε α) : Prop where
  length : ∀ {a : α} {bs : Bytes}, carries a bs → bs.length = len
  decode_iff : ∀ {a : α} {bs : Bytes}, bs.length = len → (decode bs 0 = .ok a ↔ carries a bs)
  shift : ∀ {bs : Bytes} (p rest : Bytes), bs.length = len →
    decode (p ++ (bs ++ rest)) p.length = decode bs 0

namespace RecordFormat

variable {len : Nat} {carries : α → Bytes → Prop} {decode : Bytes → Nat → Checked ε α}

theorem length_all (h : RecordFormat len carries decode) :
    ∀ {as : List α} {bs : Bytes}, CarriesAll carries as bs → bs.length = as.length * len
  | [], bs, hbs => by
    cases hbs
    simp
  | a :: rest, _, ⟨r, more, rfl, hr, hmore⟩ => by
    rw [List.length_append, h.length hr, h.length_all hmore, List.length_cons, Nat.succ_mul,
      Nat.add_comm]

/-- Where a record of a list stands in its bytes. -/
theorem exists_at (h : RecordFormat len carries decode) :
    ∀ {as : List α} {bs : Bytes} {i : Nat}, CarriesAll carries as bs → (hi : i < as.length) →
      ∃ p r q : Bytes, bs = p ++ (r ++ q) ∧ p.length = i * len ∧ carries as[i] r
  | [], _, _, _, hi => absurd hi (Nat.not_lt_zero _)
  | a :: rest, _, 0, ⟨r, more, hbs, hr, _⟩, _ => ⟨[], r, more, hbs, by simp, hr⟩
  | a :: rest, _, i + 1, ⟨r, more, hbs, hr, hmore⟩, hi => by
    obtain ⟨p, r', q, rfl, hp, hr'⟩ := h.exists_at hmore (Nat.lt_of_succ_lt_succ hi)
    refine ⟨r ++ p, r', q, by rw [hbs, List.append_assoc], ?_, hr'⟩
    rw [List.length_append, h.length hr, hp, Nat.succ_mul, Nat.add_comm]

/-- The loop accepts what carries a list. -/
theorem records_iff (h : RecordFormat len carries decode) {start : Nat} (tail : Bytes) :
    ∀ {count : Nat} {as : List α} {bs : Bytes} (index : Nat) (front : Bytes),
      bs.length = count * len → front.length = start + index * len →
      (records (fun i => decode (front ++ (bs ++ tail)) (start + i * len)) index count = .ok as ↔
        CarriesAll carries as bs ∧ as.length = count)
  | 0, as, bs, index, front, hbs, hfront => by
    obtain rfl : bs = [] := List.eq_nil_of_length_eq_zero (by simpa using hbs)
    cases as <;> simp [records, CarriesAll]
  | count + 1, as, bs, index, front, hbs, hfront => by
    rw [Nat.succ_mul] at hbs
    obtain ⟨r, more, rfl, hr, hmore⟩ := exists_append (show len ≤ bs.length by omega)
    have hcount : more.length = count * len := by omega
    have hfirst : decode (front ++ ((r ++ more) ++ tail)) (start + index * len) = decode r 0 := by
      rw [← hfront, List.append_assoc r, h.shift front _ hr]
    have hnext : ∀ rest, records (fun i => decode (front ++ ((r ++ more) ++ tail))
        (start + i * len)) (index + 1) count = .ok rest ↔
        CarriesAll carries rest more ∧ rest.length = count := by
      intro rest
      rw [List.append_assoc r, ← List.append_assoc front]
      exact h.records_iff tail (index + 1) (front ++ r) hcount
        (by rw [List.length_append, hfront, hr, Nat.succ_mul, Nat.add_assoc])
    simp only [records, bind_eq_ok, hfirst, hnext, h.decode_iff hr, pure_eq, Except.ok.injEq]
    constructor
    · rintro ⟨a, ha, rest, ⟨hrest, hlength⟩, rfl⟩
      exact ⟨⟨r, more, rfl, ha, hrest⟩, congrArg (· + 1) hlength⟩
    · rintro ⟨hcarries, hlength⟩
      cases as with
      | nil => cases hlength
      | cons a rest =>
        obtain ⟨r', more', hsplit, ha, hrest⟩ := hcarries
        obtain ⟨rfl, rfl⟩ := List.append_inj hsplit (hr.trans (h.length ha).symm)
        exact ⟨a, ha, rest, ⟨hrest, Nat.succ.inj hlength⟩, rfl⟩

/-- The loop over a whole string. -/
theorem records_all (h : RecordFormat len carries decode) {count : Nat} {as : List α} {bs : Bytes}
    (front : Bytes) (hbs : bs.length = count * len) :
    records (fun i => decode (front ++ bs) (front.length + i * len)) 0 count = .ok as ↔
      CarriesAll carries as bs ∧ as.length = count := by
  have hall : records (fun i => decode (front ++ (bs ++ [])) (front.length + i * len)) 0 count =
      .ok as ↔ CarriesAll carries as bs ∧ as.length = count :=
    h.records_iff [] 0 front hbs (by simp)
  rwa [List.append_nil] at hall

end RecordFormat

end Bytes
