import VcmpLua.Model.Bindings.Stream
import Mathlib

/-! # Round trips of client script data

`encode` is the documented layout of one value. A write appends the encoding of its value and a
read of the matching type takes one encoding off, so a stream whose unread part encodes a queue of
values behaves as that queue: reads that follow the write order return the values in normal form,
however they are interleaved with further writes. In the other direction a read determines the
bytes it consumed, so writing what was read rebuilds a received buffer.
-/

namespace VcmpLua.Model.Bindings.Stream

/-- The four types of the format. -/
inductive ItemType where
  | byte | number | float | string
deriving DecidableEq, Repr

/-- A value handed to a write or returned by a read. -/
inductive Item where
  | byte (value : Int)
  | number (value : Int)
  | float (bits : BitVec 32)
  | string (text : List Byte)
deriving DecidableEq, Repr

def Item.type : Item → ItemType
  | .byte _ => .byte
  | .number _ => .number
  | .float _ => .float
  | .string _ => .string

def write (stream : Stream) : Item → Except StreamError Stream
  | .byte value => stream.writeByte value
  | .number value => stream.writeNumber value
  | .float bits => stream.writeFloat bits
  | .string text => stream.writeString text

def readItem (stream : Stream) : ItemType → Except StreamError (Item × Stream)
  | .byte => (stream.readByte).map fun (value, stream) => (.byte value, stream)
  | .number => (stream.readNumber).map fun (value, stream) => (.number value, stream)
  | .float => (stream.readFloat).map fun (bits, stream) => (.float bits, stream)
  | .string => (stream.readString).map fun (text, stream) => (.string text, stream)

/-- What a value reads back as: a byte modulo 256, a number as the signed 32-bit value congruent
to it modulo `2 ^ 32`. -/
def Item.normal : Item → Item
  | .byte value => .byte (value % 256)
  | .number value => .number (value.bmod (2 ^ 32))
  | .float bits => .float bits
  | .string text => .string text

/-- Four bytes, the lowest first. -/
def littleEndian (value : BitVec 32) : List Byte :=
  [value.extractLsb' 0 8, value.extractLsb' 8 8, value.extractLsb' 16 8, value.extractLsb' 24 8]

/-- The documented byte layout. -/
def Item.encode : Item → List Byte
  | .byte value => [BitVec.ofInt 8 value]
  | .number value => littleEndian (BitVec.ofInt 32 value)
  | .float bits => littleEndian bits
  | .string text => BitVec.ofNat 8 (text.length / 256) :: BitVec.ofNat 8 (text.length % 256) :: text

/-- The arguments a write accepts. -/
def Item.Writable : Item → Prop
  | .byte value => -128 ≤ value ∧ value ≤ 255
  | .number value => -2147483648 ≤ value ∧ value ≤ 4294967295
  | .float _ => True
  | .string text => text.length ≤ 65535

/-! ## Bytes of a word -/

private theorem shifts_eq_littleEndian (value : BitVec 32) :
    [0, 8, 16, 24].map (fun shift => (value >>> shift).setWidth 8) = littleEndian value := by
  have part (shift : ℕ) : (value >>> shift).setWidth 8 = value.extractLsb' shift 8 := by
    ext i bound
    simp
  simp only [List.map_cons, List.map_nil, part, littleEndian]

private def assemble (p0 p1 p2 p3 : Byte) : BitVec 32 :=
  p0.setWidth 32 ||| p1.setWidth 32 <<< 8 ||| p2.setWidth 32 <<< 16 ||| p3.setWidth 32 <<< 24

private theorem assemble_littleEndian (value : BitVec 32) :
    assemble (value.extractLsb' 0 8) (value.extractLsb' 8 8) (value.extractLsb' 16 8)
      (value.extractLsb' 24 8) = value := by
  unfold assemble
  ext i bound
  simp
  grind

private theorem littleEndian_assemble (p0 p1 p2 p3 : Byte) :
    littleEndian (assemble p0 p1 p2 p3) = [p0, p1, p2, p3] := by
  have parts : (assemble p0 p1 p2 p3).extractLsb' 0 8 = p0 ∧
      (assemble p0 p1 p2 p3).extractLsb' 8 8 = p1 ∧
      (assemble p0 p1 p2 p3).extractLsb' 16 8 = p2 ∧
      (assemble p0 p1 p2 p3).extractLsb' 24 8 = p3 := by
    unfold assemble
    refine ⟨?_, ?_, ?_, ?_⟩ <;>
    · ext i bound
      simp
      grind
  simp only [littleEndian, parts]

private theorem length_bytes (high low : Byte) :
    high.toNat <<< 8 ||| low.toNat = 256 * high.toNat + low.toNat := by
  rw [← Nat.shiftLeft_add_eq_or_of_lt low.isLt, Nat.shiftLeft_eq]
  omega

private theorem length_encoding (length : ℕ) (bound : length ≤ 65535) :
    256 * (BitVec.ofNat 8 (length / 256)).toNat + (BitVec.ofNat 8 (length % 256)).toNat = length := by
  simp only [BitVec.toNat_ofNat]
  omega

/-! ## Writing appends one encoding -/

theorem room_eq_ok {stream : Stream} {size : ℕ} {what : String} {result : Unit} :
    room stream size what = .ok result ↔ stream.bytes.length + size ≤ maxSize := by
  unfold room sizeSub
  split_ifs with full full
  all_goals simp only [false_iff, true_iff]; omega

private theorem ok_bind_eq {α β : Type} {first : Except StreamError α} {rest : α → Except StreamError β}
    {b : β} : (first >>= rest) = .ok b ↔ ∃ a, first = .ok a ∧ rest a = .ok b := by
  cases first <;> simp [bind, Except.bind]

private theorem writeU32_eq_ok {stream next : Stream} {value : BitVec 32} {what : String} :
    writeU32 stream value what = .ok next ↔
      stream.bytes.length + 4 ≤ maxSize ∧
        next = { stream with bytes := stream.bytes ++ littleEndian value } := by
  simp only [writeU32, ok_bind_eq, room_eq_ok, shifts_eq_littleEndian, pure, Except.pure,
    Except.ok.injEq, eq_comm (a := next), exists_const]

private theorem checkInteger_eq_ok {function : String} {value min max result : Int} :
    checkInteger function value min max = .ok result ↔ (min ≤ value ∧ value ≤ max) ∧ result = value := by
  unfold checkInteger
  split_ifs with outside
  · simp only [false_iff]
    omega
  · simp only [Except.ok.injEq, eq_comm (a := result)]
    constructor
    · rintro rfl
      omega
    · exact fun bounds => bounds.2

/-- A write succeeds exactly for an accepted argument that fits, and appends its encoding. -/
theorem write_eq_ok {stream next : Stream} {item : Item} :
    write stream item = .ok next ↔
      item.Writable ∧ stream.bytes.length + item.encode.length ≤ maxSize ∧
        next = { stream with bytes := stream.bytes ++ item.encode } := by
  cases item with
  | byte value =>
    simp only [write, writeByte, ok_bind_eq, checkInteger_eq_ok, room_eq_ok, Item.Writable,
      Item.encode, pure, Except.pure, Except.ok.injEq, eq_comm (a := next), List.length_singleton]
    constructor
    · rintro ⟨_, ⟨accepted, rfl⟩, _, fits, rfl⟩
      exact ⟨accepted, fits, rfl⟩
    · rintro ⟨accepted, fits, rfl⟩
      exact ⟨_, ⟨accepted, rfl⟩, (), fits, rfl⟩
  | number value =>
    simp only [write, writeNumber, ok_bind_eq, checkInteger_eq_ok, writeU32_eq_ok, Item.Writable,
      Item.encode]
    constructor
    · rintro ⟨_, ⟨accepted, rfl⟩, fits, rfl⟩
      exact ⟨accepted, fits, rfl⟩
    · rintro ⟨accepted, fits, rfl⟩
      exact ⟨_, ⟨accepted, rfl⟩, fits, rfl⟩
  | float bits => simp [write, writeFloat, writeU32_eq_ok, Item.Writable, Item.encode, littleEndian]
  | string text =>
    have high : text.length >>> 8 = text.length / 256 := Nat.shiftRight_eq_div_pow _ 8
    have low : text.length &&& 0xFF = text.length % 256 := Nat.and_two_pow_sub_one_eq_mod _ 8
    by_cases long : text.length > 65535
    · simp only [write, writeString, long, ↓reduceIte, ok_bind_eq, Item.Writable, throw, throwThe,
        MonadExceptOf.throw, reduceCtorEq, false_and, exists_false, false_iff]
      omega
    · simp only [write, writeString, long, ↓reduceIte, high, low, ok_bind_eq, room_eq_ok]
      simp only [Item.Writable, Item.encode, pure, Except.pure, Except.ok.injEq, List.length_cons,
        eq_comm (a := next), List.append_assoc, List.cons_append, List.nil_append]
      constructor
      · rintro ⟨_, fits, rfl⟩
        exact ⟨by omega, by omega, rfl⟩
      · rintro ⟨_, fits, rfl⟩
        exact ⟨(), by omega, rfl⟩

/-! ## Reading takes one encoding off -/

/-- A stream that has read `done` and still holds `left`. -/
def positioned (done left : List Byte) : Stream := ⟨done ++ left, done.length⟩

private theorem need_eq_ok {done left : List Byte} {size : ℕ} {what : String} {result : Unit} :
    need (positioned done left) size what = .ok result ↔ size ≤ left.length := by
  have rest : sizeSub (done ++ left).length done.length = left.length := by
    simp only [sizeSub, List.length_append]
    split_ifs <;> omega
  simp only [need, positioned, rest]
  split_ifs
  all_goals simp only [false_iff, true_iff]; omega

private theorem byteAt_eq_ok {done left : List Byte} (offset : ℕ) {byte : Byte} :
    (positioned done left).byteAt (done.length + offset) = .ok byte ↔ left[offset]? = some byte := by
  simp only [byteAt, positioned, List.getElem?_append_right (Nat.le_add_right ..),
    Nat.add_sub_cancel_left]
  cases left[offset]? <;> simp

private theorem byteAt_first_eq_ok {done left : List Byte} {byte : Byte} :
    (positioned done left).byteAt done.length = .ok byte ↔ left[0]? = some byte :=
  byteAt_eq_ok 0

private theorem readU32_eq_ok {done left : List Byte} {what : String} {value : BitVec 32}
    {next : Stream} :
    readU32 (positioned done left) what = .ok (value, next) ↔
      ∃ p0 p1 p2 p3 rest, left = p0 :: p1 :: p2 :: p3 :: rest ∧ value = assemble p0 p1 p2 p3 ∧
        next = positioned (done ++ [p0, p1, p2, p3]) rest := by
  have start : (positioned done left).read = done.length := rfl
  simp only [readU32, ok_bind_eq, need_eq_ok, start, byteAt_first_eq_ok, byteAt_eq_ok, pure,
    Except.pure, Except.ok.injEq, Prod.mk.injEq]
  constructor
  · rintro ⟨_, enough, p0, first, p1, second, p2, third, p3, fourth, rfl, rfl⟩
    obtain ⟨q0, q1, q2, q3, rest, rfl⟩ : ∃ q0 q1 q2 q3 rest, left = q0 :: q1 :: q2 :: q3 :: rest := by
      rcases left with _ | ⟨q0, _ | ⟨q1, _ | ⟨q2, _ | ⟨q3, rest⟩⟩⟩⟩ <;> simp at enough ⊢
    simp only [List.getElem?_cons_zero, List.getElem?_cons_succ, Option.some.injEq] at first second third fourth
    subst first second third fourth
    exact ⟨q0, q1, q2, q3, rest, rfl, rfl, by simp [positioned]⟩
  · rintro ⟨p0, p1, p2, p3, rest, rfl, rfl, rfl⟩
    exact ⟨(), by simp, p0, rfl, p1, rfl, p2, rfl, p3, rfl, rfl, by simp [positioned]⟩

private theorem readByte_eq_ok {done left : List Byte} {value : Int} {next : Stream} :
    readByte (positioned done left) = .ok (value, next) ↔
      ∃ p rest, left = p :: rest ∧ value = p.toNat ∧ next = positioned (done ++ [p]) rest := by
  have start : (positioned done left).read = done.length := rfl
  simp only [readByte, ok_bind_eq, need_eq_ok, start, byteAt_first_eq_ok, pure, Except.pure,
    Except.ok.injEq, Prod.mk.injEq]
  constructor
  · rintro ⟨_, enough, p, first, rfl, rfl⟩
    obtain ⟨q, rest, rfl⟩ := List.exists_cons_of_length_pos enough
    obtain rfl : q = p := by simpa using first
    exact ⟨q, rest, rfl, rfl, by simp [positioned]⟩
  · rintro ⟨p, rest, rfl, rfl, rfl⟩
    exact ⟨(), by simp, p, rfl, rfl, by simp [positioned]⟩

private theorem slice_eq_ok {done left text : List Byte} {offset length : ℕ} :
    (positioned done left).slice (done.length + offset) length = .ok text ↔
      offset + length ≤ left.length ∧ text = (left.drop offset).take length := by
  simp only [slice, positioned, List.length_append]
  split_ifs with inside
  · rw [List.drop_append, List.drop_of_length_le (Nat.le_add_right ..), Nat.add_sub_cancel_left,
      List.nil_append, Except.ok.injEq, eq_comm (a := text)]
    exact ⟨fun equal => ⟨by omega, equal⟩, fun both => both.2⟩
  · simp only [false_iff]
    omega

private theorem readString_eq_ok {done left : List Byte} {text : List Byte} {next : Stream} :
    readString (positioned done left) = .ok (text, next) ↔
      ∃ high low rest, left = high :: low :: (text ++ rest) ∧
        text.length = 256 * high.toNat + low.toNat ∧
        next = positioned (done ++ high :: low :: text) rest := by
  have start : (positioned done left).read = done.length := rfl
  have remaining : sizeSub (sizeSub (positioned done left).bytes.length done.length) 2 =
      sizeSub left.length 2 := by
    simp only [sizeSub, positioned, List.length_append]
    split_ifs <;> omega
  simp only [readString, ok_bind_eq, need_eq_ok, start, byteAt_first_eq_ok, byteAt_eq_ok, length_bytes,
    remaining, pure, Except.pure]
  constructor
  · rintro ⟨_, enough, high, first, low, second, checked⟩
    obtain ⟨q0, q1, tail, rfl⟩ : ∃ q0 q1 tail, left = q0 :: q1 :: tail := by
      rcases left with _ | ⟨q0, _ | ⟨q1, tail⟩⟩ <;> simp at enough ⊢
    obtain rfl : q0 = high := by simpa using first
    obtain rfl : q1 = low := by simpa using second
    split_ifs at checked with short
    · simp [ok_bind_eq, throw, throwThe, MonadExceptOf.throw] at checked
    · simp only [ok_bind_eq, slice_eq_ok, Except.ok.injEq, Prod.mk.injEq] at checked
      obtain ⟨_, ⟨inside, rfl⟩, rfl, rfl⟩ := checked
      simp only [List.length_cons] at inside
      have length : (tail.take (256 * q0.toNat + q1.toNat)).length = 256 * q0.toNat + q1.toNat :=
        List.length_take_of_le (by omega)
      refine ⟨q0, q1, tail.drop (256 * q0.toNat + q1.toNat), ?_, length, ?_⟩
      · simp
      · simp [positioned, length, Nat.add_assoc, Nat.add_comm 2]
  · rintro ⟨high, low, rest, rfl, length, rfl⟩
    refine ⟨(), by simp, high, rfl, low, rfl, ?_⟩
    have fits : ¬ sizeSub (high :: low :: (text ++ rest)).length 2 < 256 * high.toNat + low.toNat := by
      simp only [sizeSub, List.length_cons, List.length_append]
      split_ifs <;> omega
    simp only [fits, ↓reduceIte, ok_bind_eq, slice_eq_ok, Except.ok.injEq, Prod.mk.injEq]
    refine ⟨text, ⟨by simp only [List.length_cons, List.length_append]; omega, ?_⟩, rfl, ?_⟩
    · simp [← length]
    · simp [positioned, ← length, Nat.add_assoc, Nat.add_comm 2]

/-- A value as a read returns it. -/
def Item.Canonical (item : Item) : Prop := item.normal = item ∧ item.Writable

private theorem encode_byte (p : Byte) : (Item.byte p.toNat).encode = [p] := by
  simp [Item.encode, BitVec.ofInt_natCast]

private theorem encode_number (value : BitVec 32) : (Item.number value.toInt).encode = littleEndian value := by
  simp [Item.encode, BitVec.ofInt_toInt]

private theorem map_eq_ok {α β : Type} {first : Except StreamError α} {f : α → β} {b : β} :
    first.map f = .ok b ↔ ∃ a, first = .ok a ∧ f a = b := by
  cases first <;> simp [Except.map]

private theorem canonical_byte (p : Byte) : (Item.byte p.toNat).Canonical := by
  have bound := p.isLt
  exact ⟨by simp only [Item.normal, Item.byte.injEq]; omega, by simp only [Item.Writable]; omega⟩

private theorem canonical_number (value : BitVec 32) : (Item.number value.toInt).Canonical := by
  have lower := value.le_toInt
  have upper := value.toInt_lt
  refine ⟨?_, by simp only [Item.Writable]; omega⟩
  simp only [Item.normal, Item.number.injEq]
  exact Int.bmod_eq_of_le (by omega) (by omega)

private theorem encode_string (text : List Byte) (high low : Byte)
    (length : text.length = 256 * high.toNat + low.toNat) :
    (Item.string text).encode = high :: low :: text := by
  have highBound := high.isLt
  have lowBound := low.isLt
  simp only [Item.encode, length, List.cons.injEq, and_true]
  constructor
  · rw [show (256 * high.toNat + low.toNat) / 256 = high.toNat by omega, BitVec.ofNat_toNat,
      BitVec.setWidth_eq]
  · rw [show (256 * high.toNat + low.toNat) % 256 = low.toNat by omega, BitVec.ofNat_toNat,
      BitVec.setWidth_eq]

/-- A read succeeds exactly when the unread bytes start with the encoding of a value of its type,
and returns that value. -/
theorem readItem_eq_ok {done left : List Byte} {type : ItemType} {item : Item} {next : Stream} :
    readItem (positioned done left) type = .ok (item, next) ↔
      item.type = type ∧ item.Canonical ∧
        ∃ rest, left = item.encode ++ rest ∧ next = positioned (done ++ item.encode) rest := by
  cases type with
  | byte =>
    simp only [readItem, map_eq_ok, Prod.exists, readByte_eq_ok, Prod.mk.injEq]
    constructor
    · rintro ⟨_, _, ⟨p, rest, rfl, rfl, rfl⟩, rfl, rfl⟩
      exact ⟨rfl, canonical_byte p, rest, by rw [encode_byte]; rfl, by rw [encode_byte]⟩
    · rintro ⟨same, ⟨normal, -⟩, rest, rfl, rfl⟩
      cases item <;> cases same
      case byte value =>
        simp only [Item.normal, Item.byte.injEq] at normal
        refine ⟨value, _, ⟨BitVec.ofInt 8 value, rest, rfl, ?_, rfl⟩, rfl, rfl⟩
        rw [BitVec.toNat_ofInt]
        omega
  | number =>
    simp only [readItem, map_eq_ok, Prod.exists, readNumber, ok_bind_eq, readU32_eq_ok, pure,
      Except.pure, Except.ok.injEq, Prod.mk.injEq]
    constructor
    · rintro ⟨_, _, ⟨_, _, ⟨p0, p1, p2, p3, rest, rfl, rfl, rfl⟩, rfl, rfl⟩, rfl, rfl⟩
      have bytes := (encode_number _).trans (littleEndian_assemble p0 p1 p2 p3)
      exact ⟨rfl, canonical_number _, rest, by rw [bytes]; rfl, by rw [bytes]⟩
    · rintro ⟨same, ⟨normal, -⟩, rest, rfl, rfl⟩
      cases item <;> cases same
      case number value =>
        simp only [Item.normal, Item.number.injEq] at normal
        refine ⟨value, _, ⟨BitVec.ofInt 32 value, _, ⟨_, _, _, _, rest, rfl,
          (assemble_littleEndian _).symm, rfl⟩, ?_, rfl⟩, rfl, rfl⟩
        rw [BitVec.toInt_ofInt, normal]
  | float =>
    simp only [readItem, map_eq_ok, Prod.exists, readFloat, readU32_eq_ok, Prod.mk.injEq]
    constructor
    · rintro ⟨_, _, ⟨p0, p1, p2, p3, rest, rfl, rfl, rfl⟩, rfl, rfl⟩
      have bytes : (Item.float (assemble p0 p1 p2 p3)).encode = [p0, p1, p2, p3] :=
        littleEndian_assemble p0 p1 p2 p3
      exact ⟨rfl, ⟨rfl, trivial⟩, rest, by rw [bytes]; rfl, by rw [bytes]⟩
    · rintro ⟨same, -, rest, rfl, rfl⟩
      cases item <;> cases same
      case float bits =>
        exact ⟨bits, _, ⟨_, _, _, _, rest, rfl, (assemble_littleEndian _).symm, rfl⟩, rfl, rfl⟩
  | string =>
    simp only [readItem, map_eq_ok, Prod.exists, readString_eq_ok, Prod.mk.injEq]
    constructor
    · rintro ⟨text, _, ⟨high, low, rest, rfl, length, rfl⟩, rfl, rfl⟩
      have bytes := encode_string text high low length
      have highBound := high.isLt
      have lowBound := low.isLt
      exact ⟨rfl, ⟨rfl, by simp only [Item.Writable]; omega⟩, rest, by rw [bytes]; rfl, by rw [bytes]⟩
    · rintro ⟨same, ⟨-, writable⟩, rest, rfl, rfl⟩
      cases item <;> cases same
      case string text =>
        exact ⟨text, _, ⟨_, _, rest, rfl, (length_encoding _ writable).symm, rfl⟩, rfl, rfl⟩

theorem encode_normal (item : Item) : item.normal.encode = item.encode := by
  cases item with
  | byte value =>
    simp only [Item.normal, Item.encode, List.cons.injEq, and_true]
    apply BitVec.eq_of_toNat_eq
    simp [BitVec.toNat_ofInt]
  | number value =>
    simp only [Item.normal, Item.encode]
    congr 1
    apply BitVec.eq_of_toInt_eq
    simp [BitVec.toInt_ofInt]
  | float bits => rfl
  | string text => rfl

theorem canonical_normal {item : Item} (writable : item.Writable) : item.normal.Canonical := by
  cases item with
  | byte value =>
    exact ⟨by simp [Item.normal], by simp only [Item.normal, Item.Writable]; omega⟩
  | number value =>
    have lower := Int.le_bmod (x := value) (m := 2 ^ 32) (by decide)
    have upper := Int.bmod_lt (x := value) (m := 2 ^ 32) (by decide)
    exact ⟨by simp [Item.normal], by simp only [Item.normal, Item.Writable]; omega⟩
  | float bits => exact ⟨rfl, writable⟩
  | string text => exact ⟨rfl, writable⟩

/-! ## Interleaved writes and reads -/

/-- A step of a script that uses one stream. -/
inductive Action where
  | write (item : Item)
  | read (type : ItemType)
deriving DecidableEq, Repr

/-- Run the steps in order, collecting what the reads return, up to the first error. -/
def runActions (stream : Stream) : List Action → Except StreamError (List Item × Stream)
  | [] => .ok ([], stream)
  | .write item :: rest => do
      let stream ← write stream item
      runActions stream rest
  | .read type :: rest => do
      let (item, stream) ← readItem stream type
      let (items, stream) ← runActions stream rest
      return (item :: items, stream)

/-- Every write succeeds in the state it is made in; nothing is assumed of the reads. -/
def WritesSucceed (stream : Stream) : List Action → Prop
  | [] => True
  | .write item :: rest => ∃ next, write stream item = .ok next ∧ WritesSucceed next rest
  | .read type :: rest =>
      ∀ item next, readItem stream type = .ok (item, next) → WritesSucceed next rest

/-- The reads follow the write order with the matching types; `queue` is written and unread. -/
def ReadsFollow (queue : List Item) : List Action → Prop
  | [] => True
  | .write item :: rest => ReadsFollow (queue ++ [item]) rest
  | .read type :: rest =>
      ∃ item others, queue = item :: others ∧ item.type = type ∧ ReadsFollow others rest

/-- What the reads of such a run return. -/
def expected (queue : List Item) : List Action → List Item
  | [] => []
  | .write item :: rest => expected (queue ++ [item]) rest
  | .read _ :: rest => (queue.head?.map Item.normal).toList ++ expected queue.tail rest

def written : List Action → List Item
  | [] => []
  | .write item :: rest => item :: written rest
  | .read _ :: rest => written rest

private theorem runActions_queue (actions : List Action) (done : List Byte) (queue : List Item)
    (accepted : ∀ item ∈ queue, item.Writable)
    (writes : WritesSucceed (positioned done (queue.flatMap Item.encode)) actions)
    (reads : ReadsFollow queue actions) :
    ∃ final, runActions (positioned done (queue.flatMap Item.encode)) actions =
        .ok (expected queue actions, final) ∧
      final.bytes = done ++ queue.flatMap Item.encode ++ (written actions).flatMap Item.encode := by
  induction actions generalizing done queue with
  | nil => exact ⟨_, rfl, by simp [positioned, written]⟩
  | cons action rest ih =>
    cases action with
    | write item =>
      obtain ⟨next, success, later⟩ := writes
      obtain ⟨writable, _, rfl⟩ := write_eq_ok.mp success
      have state : { positioned done (queue.flatMap Item.encode) with
          bytes := (positioned done (queue.flatMap Item.encode)).bytes ++ item.encode } =
          positioned done ((queue ++ [item]).flatMap Item.encode) := by
        simp [positioned]
      rw [state] at success later
      obtain ⟨final, run, bytes⟩ := ih done (queue ++ [item])
        (by simpa [or_imp, forall_and] using ⟨accepted, writable⟩) later reads
      refine ⟨final, ?_, ?_⟩
      · rw [runActions, success]
        exact run
      · simpa [written] using bytes
    | read type =>
      obtain ⟨item, others, rfl, same, follow⟩ := reads
      have writable := accepted item (List.mem_cons_self ..)
      have success : readItem (positioned done ((item :: others).flatMap Item.encode)) type =
          .ok (item.normal, positioned (done ++ item.encode) (others.flatMap Item.encode)) := by
        refine readItem_eq_ok.mpr ⟨?_, canonical_normal writable, others.flatMap Item.encode, ?_, ?_⟩
        · rw [← same]
          cases item <;> rfl
        · rw [encode_normal, List.flatMap_cons]
        · rw [encode_normal]
      obtain ⟨final, run, bytes⟩ := ih (done ++ item.encode) others
        (fun other member => accepted other (List.mem_cons_of_mem _ member))
        (writes _ _ success) follow
      refine ⟨final, ?_, ?_⟩
      · simp only [runActions, success, expected]
        change (do let (items, stream) ← runActions _ rest; return (item.normal :: items, stream)) = _
        rw [run]
        rfl
      · simpa [written] using bytes

/-- Read a sequence of types from the start of a received buffer. -/
def readAll (stream : Stream) : List ItemType → Except StreamError (List Item × Stream)
  | [] => .ok ([], stream)
  | type :: rest => do
      let (item, stream) ← readItem stream type
      let (items, stream) ← readAll stream rest
      return (item :: items, stream)

def writeAll (stream : Stream) : List Item → Except StreamError Stream
  | [] => .ok stream
  | item :: rest => do
      let stream ← write stream item
      writeAll stream rest

private theorem readAll_positioned {types : List ItemType} {done left : List Byte}
    {items : List Item} {final : Stream}
    (success : readAll (positioned done left) types = .ok (items, final)) :
    (∀ item ∈ items, item.Writable) ∧
      ∃ rest, left = items.flatMap Item.encode ++ rest ∧
        final = positioned (done ++ items.flatMap Item.encode) rest := by
  induction types generalizing done left items with
  | nil =>
    cases success
    exact ⟨by simp, left, by simp⟩
  | cons type types ih =>
    simp only [readAll, ok_bind_eq, Prod.exists, pure, Except.pure, Except.ok.injEq,
      Prod.mk.injEq] at success
    obtain ⟨item, next, first, others, last, later, rfl, rfl⟩ := success
    obtain ⟨-, canonical, rest, rfl, rfl⟩ := readItem_eq_ok.mp first
    obtain ⟨writable, remaining, rfl, rfl⟩ := ih later
    refine ⟨?_, remaining, by simp, by simp⟩
    simpa using ⟨canonical.2, writable⟩

private theorem writeAll_of_writable (items : List Item) (stream : Stream)
    (writable : ∀ item ∈ items, item.Writable)
    (fits : stream.bytes.length + (items.flatMap Item.encode).length ≤ maxSize) :
    writeAll stream items = .ok { stream with bytes := stream.bytes ++ items.flatMap Item.encode } := by
  induction items generalizing stream with
  | nil => simp [writeAll]
  | cons item rest ih =>
    simp only [List.flatMap_cons, List.length_append] at fits
    have success : write stream item = .ok { stream with bytes := stream.bytes ++ item.encode } :=
      write_eq_ok.mpr ⟨writable item (List.mem_cons_self ..), by omega, rfl⟩
    rw [writeAll, success]
    refine (ih _ (fun other member => writable other (List.mem_cons_of_mem _ member)) ?_).trans ?_
    · simp only [List.length_append]
      omega
    · simp

/-- Round trips in both directions. Reads that follow the write order, interleaved with the writes
in any way, succeed and return the values written in normal form, and the buffer is the
concatenation of the encodings; and the values read from a whole received buffer of at most 4096
bytes can be written to a fresh stream, which then holds the same bytes. -/
theorem stream_round_trip :
    (∀ actions, WritesSucceed {} actions → ReadsFollow [] actions →
      ∃ last, runActions {} actions = .ok (expected [] actions, last) ∧
        last.bytes = (written actions).flatMap Item.encode) ∧
    (∀ received types items final, received.length ≤ maxSize →
      readAll ⟨received, 0⟩ types = .ok (items, final) → final.read = received.length →
        ∃ copy, writeAll {} items = .ok copy ∧ copy.bytes = received) := by
  constructor
  · intro actions writes reads
    exact runActions_queue actions [] [] (by simp) writes reads
  · intro received types items final small read consumed
    obtain ⟨writable, rest, split, rfl⟩ := readAll_positioned
      (show readAll (positioned [] received) types = _ from read)
    have empty : rest = [] := by
      simp only [positioned, List.nil_append] at consumed
      rw [split, List.length_append] at consumed
      exact List.length_eq_zero_iff.mp (by omega)
    subst empty
    rw [List.append_nil] at split
    refine ⟨_, writeAll_of_writable items {} writable ?_, ?_⟩
    · simpa [← split] using small
    · simp [← split]

/-- A signed number read back between two writes, and a buffer that holds a byte and a string. -/
theorem stream_round_trip_sample :
    (∃ last, runActions {} [.write (.number (-2)), .write (.byte (-1)), .read .number,
        .write (.string [0x61]), .read .byte, .read .string] =
          .ok ([.number (-2), .byte 255, .string [0x61]], last) ∧
      last.bytes = [0xFE, 0xFF, 0xFF, 0xFF, 0xFF, 0x00, 0x01, 0x61]) ∧
    ∃ copy, writeAll {} [.byte 7, .string [0x62]] = .ok copy ∧ copy.bytes = [0x07, 0x00, 0x01, 0x62] := by
  constructor
  · refine stream_round_trip.1 _ ⟨_, rfl, _, rfl, ?_⟩ ⟨_, _, rfl, rfl, _, _, rfl, rfl, _, _, rfl, rfl, trivial⟩
    intro item next read
    cases read
    refine ⟨_, rfl, ?_⟩
    intro item next read
    cases read
    intro item next read
    trivial
  · exact stream_round_trip.2 [0x07, 0x00, 0x01, 0x62] [.byte, .string] _ _ (by decide) rfl rfl

end VcmpLua.Model.Bindings.Stream
