import WebrtcGccNs3.Lib.Stream
import Mathlib.Algebra.Group.Nat.Defs
import Mathlib.Algebra.Group.Int.Defs

/-!
# WebrtcTag

The packet tag of webrtc-tag.cc: a sequence number and a send time, each as base-128
digits, lowest first, with the high bit set on all but the last. ns-3's `TagBuffer`
is a byte cursor: `WriteU8` appends, `ReadU8` gives the next byte. A read past the
end of the buffer is `none` here.
-/
namespace WebrtcGccNs3.Wire

structure WebrtcTag where
  seq : UInt64 := 0
  time : UInt64 := 0
  deriving DecidableEq

namespace WebrtcTag

/-- The `do` loop of `VarintEncode`. -/
def varintEncodeLoop (value : UInt64) : List UInt8 :=
  let first := value % 128
  let next := value / 128
  if next > 0 then (first.toUInt8 ||| 128) :: varintEncodeLoop next else [first.toUInt8]
termination_by value.toNat
decreasing_by
  rename_i h
  have h : 0 < (value / 128).toNat := h
  rw [UInt64.toNat_div] at h ⊢
  exact Nat.div_lt_self (Nat.pos_of_div_pos h) (by decide)

def varintEncode (value : UInt64) : List UInt8 :=
  if value ≠ 0 then varintEncodeLoop value else []

/-- The `do` loop of `VarientDecode`, with its accumulator and multiplier. -/
def varientDecodeLoop (remain remainMulti : UInt64) : List UInt8 → Option (UInt64 × List UInt8)
  | [] => none
  | byte :: rest =>
    let remain := remain + (byte &&& 127).toUInt64 * remainMulti
    if byte &&& 128 ≠ 0 then varientDecodeLoop remain (remainMulti * 128) rest
    else some (remain, rest)

def varientDecode (input : List UInt8) : Option (UInt64 × List UInt8) := varientDecodeLoop 0 1 input

def serialize (tag : WebrtcTag) : List UInt8 := varintEncode tag.seq ++ varintEncode tag.time

/-- `Deserialize` sets both fields, and gives the bytes it has not read. -/
def deserialize (input : List UInt8) : Option (WebrtcTag × List UInt8) := do
  let (seq, input) ← varientDecode input
  let (time, input) ← varientDecode input
  return (⟨seq, time⟩, input)

theorem toInt_div_128 (next : Int64) : (next / 128).toInt = next.toInt.tdiv 128 :=
  Int64.toInt_div_of_ne_right next 128 (by decide)

/-- Division truncates, so a negative number never has a positive quotient. -/
theorem toInt_pos_of_div_pos {next : Int64} (h : next / 128 > 0) :
    0 < next.toInt ∧ (next / 128).toInt = next.toInt / 128 := by
  have h : 0 < (next / 128).toInt := Int64.lt_iff_toInt_lt.mp h
  rw [toInt_div_128] at h
  have hpos : 0 < next.toInt := by
    have hneg := Int.neg_tdiv (a := next.toInt) (b := 128)
    by_contra hle
    have hquot := Int.tdiv_nonneg (a := -next.toInt) (b := 128) (by omega) (by decide)
    omega
  exact ⟨hpos, (toInt_div_128 next).trans (Int.tdiv_eq_ediv_of_nonneg (by omega))⟩

/-- The `do` loop of `varint_length`, on its signed copy. -/
def varintLengthLoop (next : Int64) (key : ℕ) : ℕ :=
  let next' := next / 128
  if next' > 0 then varintLengthLoop next' (key + 1) else key + 1
termination_by next.toInt.toNat
decreasing_by
  rename_i h
  obtain ⟨hpos, hdiv⟩ := toInt_pos_of_div_pos h
  rw [hdiv]
  omega

def varintLength (number : UInt64) : ℕ :=
  let next := number.toInt64
  if next ≠ 0 then varintLengthLoop next 0 else 0

def getSerializedSize (tag : WebrtcTag) : ℕ := varintLength tag.seq + varintLength tag.time

/-- `AddPacketTag` gives the tag as many bytes as it declares. A write past them is `none`. -/
def addPacketTag (tag : WebrtcTag) : Option (List UInt8) :=
  if tag.serialize.length ≤ tag.getSerializedSize then some tag.serialize else none

/-! ## Digits -/

/-- What the encoder puts into a byte, with and without the high bit, the decoder reads back. -/
theorem digit_bits : ∀ d : Fin 128,
    (UInt8.ofNat d ||| 128) &&& 127 = UInt8.ofNat d ∧ (UInt8.ofNat d ||| 128) &&& 128 ≠ 0 ∧
      UInt8.ofNat d &&& 127 = UInt8.ofNat d ∧ UInt8.ofNat d &&& 128 = 0 := by
  decide +kernel

/-- The low digit, as the byte that carries it. -/
def lowDigit (value : UInt64) : Fin 128 := ⟨value.toNat % 128, Nat.mod_lt _ (by decide)⟩

theorem toUInt8_mod (value : UInt64) : (value % 128).toUInt8 = UInt8.ofNat (lowDigit value) := by
  apply UInt8.toNat.inj
  simp [lowDigit]

theorem toUInt64_lowDigit (value : UInt64) :
    (UInt8.ofNat (lowDigit value)).toUInt64 = value % 128 := by
  apply UInt64.toNat.inj
  simp [lowDigit]
  omega

theorem div_mul_add_mod (value : UInt64) : value / 128 * 128 + value % 128 = value := by
  apply UInt64.toNat.inj
  have hlt := value.toNat_lt
  simp only [UInt64.toNat_add, UInt64.toNat_mul, UInt64.toNat_div, UInt64.toNat_mod,
    UInt64.reduceToNat]
  omega

theorem digits_mul (value multi : UInt64) :
    value % 128 * multi + value / 128 * (multi * 128) = value * multi := by
  conv_rhs => rw [← div_mul_add_mod value]
  grind

theorem eq_mod_of_div_eq_zero {value : UInt64} (h : value / 128 = 0) : value % 128 = value := by
  have hsplit := div_mul_add_mod value
  rwa [h, UInt64.zero_mul, UInt64.zero_add] at hsplit

/-! ## Round trip -/

/-- The multiplier may wrap at the tenth byte: the sum is one of the ring `UInt64`. -/
theorem varientDecodeLoop_varintEncodeLoop (value remain remainMulti : UInt64) (rest : List UInt8) :
    varientDecodeLoop remain remainMulti (varintEncodeLoop value ++ rest) =
      some (remain + value * remainMulti, rest) := by
  induction value using varintEncodeLoop.induct generalizing remain remainMulti with
  | case1 value next hnext ih =>
    obtain ⟨hmore, hflag, -⟩ := digit_bits (lowDigit value)
    rw [varintEncodeLoop]
    simp only [toUInt8_mod]
    rw [if_pos hnext, List.cons_append, varientDecodeLoop]
    simp only [hmore, hflag, ne_eq, not_false_eq_true, if_true]
    rw [ih, toUInt64_lowDigit, UInt64.add_assoc, digits_mul]
  | case2 value next hnext =>
    have hzero : value / 128 = 0 := by
      rw [gt_iff_lt, UInt64.pos_iff_ne_zero, not_not] at hnext
      exact hnext
    obtain ⟨-, -, hlast, hstop⟩ := digit_bits (lowDigit value)
    rw [varintEncodeLoop]
    simp only [toUInt8_mod]
    rw [if_neg hnext, List.cons_append, List.nil_append, varientDecodeLoop]
    simp only [hlast, hstop, ne_eq, not_true_eq_false, if_false]
    rw [toUInt64_lowDigit, eq_mod_of_div_eq_zero hzero]

theorem varient_selfDelimiting :
    Stream.SelfDelimiting varintEncode varientDecode (fun value => value ≠ 0) := by
  intro value rest hvalue
  rw [varintEncode, if_pos hvalue, varientDecode, varientDecodeLoop_varintEncodeLoop,
    UInt64.zero_add, UInt64.mul_one]

theorem varientDecode_nil : varientDecode [] = none := rfl

theorem deserialize_eq_decodePair (input : List UInt8) :
    deserialize input =
      (Stream.decodePair varientDecode varientDecode input).map fun x => (⟨x.1.1, x.1.2⟩, x.2) := by
  unfold deserialize Stream.decodePair
  cases varientDecode input with
  | none => rfl
  | some x =>
    rcases hx : varientDecode x.2 with _ | y <;> simp [hx]

/-- Zero is written as no bytes at all, so a tag with a zero field is not read back. -/
theorem deserialize_eq_none {tag : WebrtcTag} (h : tag.seq = 0 ∨ tag.time = 0) :
    deserialize tag.serialize = none := by
  have hzero : varintEncode 0 = [] := rfl
  have hread : ∀ value, value ≠ 0 → varientDecode (varintEncode value) = some (value, []) :=
    fun value hvalue => varient_selfDelimiting.decode_encode hvalue
  rw [deserialize_eq_decodePair, Option.map_eq_none_iff, Stream.decodePair, serialize]
  by_cases hseq : tag.seq = 0
  · rw [hseq, hzero, List.nil_append]
    by_cases htime : tag.time = 0
    · rw [htime, hzero, varientDecode_nil, Option.bind_none]
    · rw [hread _ htime, Option.bind_some, varientDecode_nil, Option.map_none]
  · have htime : tag.time = 0 := h.resolve_left hseq
    rw [htime, hzero, List.append_nil, hread _ hseq, Option.bind_some, varientDecode_nil,
      Option.map_none]

theorem deserialize_serialize {tag : WebrtcTag} (hseq : tag.seq ≠ 0) (htime : tag.time ≠ 0) :
    deserialize tag.serialize = some (tag, []) := by
  have hpair := (varient_selfDelimiting.pair varient_selfDelimiting).decode_encode
    (a := (tag.seq, tag.time)) ⟨hseq, htime⟩
  rw [deserialize_eq_decodePair]
  exact congrArg (Option.map _) hpair

/-- A tag is read back, to the last byte and no further, exactly when neither field is zero. -/
theorem deserialize_serialize_iff (tag : WebrtcTag) :
    deserialize tag.serialize = some (tag, []) ↔ tag.seq ≠ 0 ∧ tag.time ≠ 0 := by
  constructor
  · intro h
    by_contra hzero
    have hnone : deserialize tag.serialize = none := deserialize_eq_none (by tauto)
    rw [hnone] at h
    cases h
  · rintro ⟨hseq, htime⟩
    exact deserialize_serialize hseq htime

/-- A packet sent at time 0. -/
theorem tag_of_time_zero_is_not_read_back :
    ¬ ∀ tag : WebrtcTag, deserialize tag.serialize = some (tag, []) := by
  intro hall
  have hread := hall ⟨1, 0⟩
  rw [deserialize_eq_none (Or.inr rfl)] at hread
  cases hread

/-! ## Declared size -/

theorem toInt_toInt64 (value : UInt64) :
    value.toInt64.toInt = if value.toNat < 2 ^ 63 then (value.toNat : Int) else value.toNat - 2 ^ 64 := by
  show value.toBitVec.toInt = _
  rw [BitVec.toInt_eq_toNat_cond, UInt64.toNat_toBitVec]
  split <;> split <;> omega

theorem toInt64_ne_zero_iff {value : UInt64} : value.toInt64 ≠ 0 ↔ value ≠ 0 :=
  not_congr ⟨fun h => congrArg Int64.toUInt64 h, fun h => h ▸ rfl⟩

/-- Below `2 ^ 63` the quotients of the copy are those of the number. -/
theorem toInt64_div_128 {value : UInt64} (h : value.toNat < 2 ^ 63) :
    value.toInt64 / 128 = (value / 128).toInt64 ∧ (value.toInt64 / 128 > 0 ↔ value / 128 > 0) := by
  have hlt : (value / 128).toNat < 2 ^ 63 := by
    rw [UInt64.toNat_div]
    exact Nat.lt_of_le_of_lt (Nat.div_le_self _ _) h
  have hdiv : value.toInt64 / 128 = (value / 128).toInt64 := by
    apply Int64.toInt.inj
    rw [toInt_div_128, toInt_toInt64, toInt_toInt64, if_pos h, if_pos hlt, UInt64.toNat_div]
    exact Int.tdiv_eq_ediv_of_nonneg (by omega)
  refine ⟨hdiv, ?_⟩
  rw [hdiv, gt_iff_lt, Int64.lt_iff_toInt_lt, toInt_toInt64, if_pos hlt]
  exact Int.natCast_pos

/-- Below `2 ^ 63` the two loops go round in step. -/
theorem varintLengthLoop_eq (value : UInt64) (key : ℕ) (h : value.toNat < 2 ^ 63) :
    varintLengthLoop value.toInt64 key = key + (varintEncodeLoop value).length := by
  obtain ⟨hdiv, hpos⟩ := toInt64_div_128 h
  induction value using varintEncodeLoop.induct generalizing key with
  | case1 value next hnext ih =>
    have hlt : (value / 128).toNat < 2 ^ 63 := by
      rw [UInt64.toNat_div]
      exact Nat.lt_of_le_of_lt (Nat.div_le_self _ _) h
    rw [varintLengthLoop, varintEncodeLoop]
    simp only [if_pos (hpos.mpr hnext)]
    rw [if_pos hnext, hdiv, ih (key + 1) hlt (toInt64_div_128 hlt).1 (toInt64_div_128 hlt).2,
      List.length_cons]
    exact (Nat.add_assoc key 1 _).trans (congrArg (key + ·) (Nat.add_comm 1 _))
  | case2 value next hnext =>
    rw [varintLengthLoop, varintEncodeLoop]
    simp only [if_neg (mt hpos.mp hnext)]
    rw [if_neg hnext, List.length_singleton]

theorem varintLength_of_lt {value : UInt64} (h : value.toNat < 2 ^ 63) :
    varintLength value = (varintEncode value).length := by
  unfold varintLength varintEncode
  simp only [toInt64_ne_zero_iff]
  split
  · rw [varintLengthLoop_eq value 0 h, Nat.zero_add]
  · rfl

/-- From `2 ^ 63` on the copy is negative: its loop ends after one round, and the other does not. -/
theorem varintLength_lt_of_le {value : UInt64} (h : 2 ^ 63 ≤ value.toNat) :
    varintLength value < (varintEncode value).length := by
  have hne : value ≠ 0 := by
    rintro rfl
    exact absurd h (by decide)
  have hneg : ¬ value.toInt64 / 128 > 0 := by
    intro hpos
    have hcopy := (toInt_pos_of_div_pos hpos).1
    rw [toInt_toInt64] at hcopy
    have hlt := value.toNat_lt
    split at hcopy <;> omega
  have hnext : value / 128 > 0 := by
    show 0 < (value / 128).toNat
    rw [UInt64.toNat_div]
    exact Nat.div_pos (Nat.le_trans (by decide) h) (by decide)
  have hmore : 0 < (varintEncodeLoop (value / 128)).length := by
    rw [varintEncodeLoop]
    split <;> simp
  rw [varintLength, if_pos (toInt64_ne_zero_iff.mpr hne), varintLengthLoop, varintEncode, if_pos hne,
    varintEncodeLoop]
  simp only [if_neg hneg, if_pos hnext, List.length_cons]
  omega

theorem varintLength_le (value : UInt64) : varintLength value ≤ (varintEncode value).length := by
  rcases Nat.lt_or_ge value.toNat (2 ^ 63) with h | h
  · exact Nat.le_of_eq (varintLength_of_lt h)
  · exact Nat.le_of_lt (varintLength_lt_of_le h)

theorem getSerializedSize_eq {tag : WebrtcTag} (hseq : tag.seq.toNat < 2 ^ 63)
    (htime : tag.time.toNat < 2 ^ 63) : tag.getSerializedSize = tag.serialize.length := by
  rw [getSerializedSize, serialize, List.length_append, varintLength_of_lt hseq,
    varintLength_of_lt htime]

theorem addPacketTag_eq {tag : WebrtcTag} (hseq : tag.seq.toNat < 2 ^ 63)
    (htime : tag.time.toNat < 2 ^ 63) : tag.addPacketTag = some tag.serialize := by
  rw [addPacketTag, if_pos (Nat.le_of_eq (getSerializedSize_eq hseq htime).symm)]

/-- A tag declares as many bytes as it writes exactly when both fields are below `2 ^ 63`. -/
theorem getSerializedSize_eq_iff (tag : WebrtcTag) :
    tag.getSerializedSize = tag.serialize.length ↔ tag.seq.toNat < 2 ^ 63 ∧ tag.time.toNat < 2 ^ 63 := by
  constructor
  · intro h
    rw [getSerializedSize, serialize, List.length_append] at h
    have hseq := varintLength_le tag.seq
    have htime := varintLength_le tag.time
    constructor
    · by_contra hge
      have hlt := varintLength_lt_of_le (Nat.le_of_not_lt hge)
      omega
    · by_contra hge
      have hlt := varintLength_lt_of_le (Nat.le_of_not_lt hge)
      omega
  · rintro ⟨hseq, htime⟩
    exact getSerializedSize_eq hseq htime

/-- The first sequence number that a signed copy does not hold. -/
theorem tag_of_large_sequence_is_longer_than_declared :
    ¬ ∀ tag : WebrtcTag, tag.getSerializedSize = tag.serialize.length := by
  intro hall
  have hsize : varintLength 0x8000000000000000 + varintLength 1 =
      (varintEncode 0x8000000000000000 ++ varintEncode 1).length := hall ⟨0x8000000000000000, 1⟩
  have hlt : varintLength 0x8000000000000000 < (varintEncode 0x8000000000000000).length :=
    varintLength_lt_of_le (by decide)
  have hle := varintLength_le 1
  rw [List.length_append] at hsize
  omega

/-! ## Streams -/

/-- One to ten bytes, with the high bit on all but the last, and no empty digit at the end. -/
structure Terminated (bytes : List UInt8) : Prop where
  length_pos : 1 ≤ bytes.length
  length_le : bytes.length ≤ 10
  more : ∀ byte ∈ bytes.dropLast, 128 ≤ byte
  last : ∃ byte ∈ bytes.getLast?, byte ≠ 0 ∧ byte < 128

/-- Each round takes seven bits. -/
theorem length_varintEncodeLoop_le (value : UInt64) (k : ℕ) (h : value.toNat < 128 ^ (k + 1)) :
    (varintEncodeLoop value).length ≤ k + 1 := by
  induction value using varintEncodeLoop.induct generalizing k with
  | case1 value next hnext ih =>
    have hpos : 0 < value.toNat / 128 := by
      have hpos : 0 < (value / 128).toNat := hnext
      rwa [UInt64.toNat_div] at hpos
    cases k with
    | zero =>
      have hlt : value.toNat < 128 := h
      omega
    | succ k =>
      have hlt : (value / 128).toNat < 128 ^ (k + 1) := by
        rw [UInt64.toNat_div]
        exact Nat.div_lt_of_lt_mul (Nat.lt_of_lt_of_eq h (pow_succ' 128 (k + 1)))
      rw [varintEncodeLoop, if_pos hnext, List.length_cons]
      exact Nat.succ_le_succ (ih k hlt)
  | case2 value next hnext =>
    rw [varintEncodeLoop, if_neg hnext, List.length_singleton]
    exact Nat.le_add_left 1 k

theorem digit_order : ∀ d : Fin 128, 128 ≤ UInt8.ofNat d ||| 128 ∧ UInt8.ofNat d < 128 := by
  decide +kernel

theorem terminated_varintEncodeLoop {value : UInt64} (h : value ≠ 0) :
    Terminated (varintEncodeLoop value) := by
  have hlength : ∀ value : UInt64, 1 ≤ (varintEncodeLoop value).length := by
    intro value
    rw [varintEncodeLoop]
    split <;> simp
  have hbytes : (∀ byte ∈ (varintEncodeLoop value).dropLast, 128 ≤ byte) ∧
      ∃ byte ∈ (varintEncodeLoop value).getLast?, byte ≠ 0 ∧ byte < 128 := by
    induction value using varintEncodeLoop.induct with
    | case1 value next hnext ih =>
      obtain ⟨hmore, hlast⟩ := ih (UInt64.pos_iff_ne_zero.mp hnext)
      have hne : varintEncodeLoop next ≠ [] := List.length_pos_iff.mp (hlength next)
      rw [varintEncodeLoop]
      simp only [toUInt8_mod]
      rw [if_pos hnext, List.dropLast_cons_of_ne_nil hne, List.getLast?_cons_of_ne_nil hne]
      exact ⟨List.forall_mem_cons.mpr ⟨(digit_order _).1, hmore⟩, hlast⟩
    | case2 value next hnext =>
      have hzero : value / 128 = 0 := by
        rw [gt_iff_lt, UInt64.pos_iff_ne_zero, not_not] at hnext
        exact hnext
      rw [varintEncodeLoop]
      simp only [toUInt8_mod]
      rw [if_neg hnext]
      refine ⟨by simp, _, rfl, fun hbyte => h ?_, (digit_order (lowDigit value)).2⟩
      have hbyte : UInt8.ofNat (lowDigit value) = 0 := hbyte
      have hfirst := toUInt64_lowDigit value
      rw [hbyte, eq_mod_of_div_eq_zero hzero] at hfirst
      exact hfirst.symm
  exact ⟨hlength value, length_varintEncodeLoop_le value 9 (Nat.lt_trans value.toNat_lt (by decide)),
    hbytes.1, hbytes.2⟩

/-- Values that are not zero, written one after the other, are read back whatever follows. From
any accumulator and multiplier the decoder adds the value times the multiplier, modulo `2 ^ 64`. -/
theorem varint_stream_is_read_back (values : List UInt64) (trailing : List UInt8)
    (h : ∀ value ∈ values, value ≠ 0) :
    Stream.decodeMany varientDecode values.length (values.flatMap varintEncode ++ trailing) =
        some (values, trailing) ∧
      ∀ value ∈ values, Terminated (varintEncode value) ∧
        ∀ remain remainMulti rest,
          varientDecodeLoop remain remainMulti (varintEncode value ++ rest) =
            some (remain + value * remainMulti, rest) := by
  refine ⟨varient_selfDelimiting.many values.length values trailing ⟨rfl, h⟩, fun value hmem => ?_⟩
  have hvalue := h value hmem
  rw [varintEncode, if_pos hvalue]
  exact ⟨terminated_varintEncodeLoop hvalue, varientDecodeLoop_varintEncodeLoop value⟩

/-- One byte, two bytes and ten bytes. -/
theorem three_varints_are_read_back :
    Stream.decodeMany varientDecode 3
      ([1, 300, 0xFFFFFFFFFFFFFFFF].flatMap varintEncode ++ [7, 8]) =
        some ([1, 300, 0xFFFFFFFFFFFFFFFF], [7, 8]) :=
  (varint_stream_is_read_back [1, 300, 0xFFFFFFFFFFFFFFFF] [7, 8] (by simp)).1

end WebrtcTag

end WebrtcGccNs3.Wire
