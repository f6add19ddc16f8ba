import VcmpLua.Model.Bindings.StreamMembers

/-! # Streams stay in bounds

The read position never passes the end of the buffer. Under this invariant every member either
raises before it updates anything or does all of its updates, and which of the two is decided by the
bytes that remain, for a read, or by the argument and the room that is left, for a write.
-/

namespace VcmpLua.Model.Bindings.Stream.Member

open Effect

/-- The read position is in the buffer, so that no difference of sizes wraps around. -/
def InBounds (stream : Stream) : Prop := stream.read ≤ stream.bytes.length

/-- The bytes that are not read yet. -/
def unread (stream : Stream) : ℕ := stream.bytes.length - stream.read

/-- The length that the next two bytes announce. -/
def announced (stream : Stream) : ℕ :=
  match stream.bytes.drop stream.read with
  | high :: low :: _ => 256 * high.toNat + low.toNat
  | _ => 0

/-- A read raises and changes nothing if fewer than `size` bytes remain, else it takes them. -/
structure ReadSpec {α : Type} (member : Members α) (size : ℕ) (stream : Stream) : Prop where
  short : unread stream < size → ∃ message, member stream = .error (.raised message) stream
  enough : size ≤ unread stream → ∃ value, member stream = .ok value { stream with read := stream.read + size }

/-- A write raises and changes nothing unless its argument is accepted and its bytes fit. -/
structure WriteSpec {α : Type} (member : Members α) (accepted : Prop) (size : ℕ) (stream : Stream) : Prop where
  refused : ¬(accepted ∧ stream.bytes.length + size ≤ maxSize) →
    ∃ message, member stream = .error (.raised message) stream
  written : accepted → stream.bytes.length + size ≤ maxSize →
    ∃ value encoding, encoding.length = size ∧
      member stream = .ok value { stream with bytes := stream.bytes ++ encoding }

/-! ## Checks -/

theorem inspect_of_ok {α : Type} {look : Stream → Except StreamError α} {stream : Stream} {value : α}
    (found : look stream = .ok value) : inspect look stream = .ok value stream := by
  simp only [inspect, found]

theorem inspect_of_error {α : Type} {look : Stream → Except StreamError α} {stream : Stream} {e : StreamError}
    (found : look stream = .error e) : inspect look stream = .error e stream := by
  simp only [inspect, found]

theorem sizeSub_of_le {left right : ℕ} (order : right ≤ left) : sizeSub left right = left - right := if_pos order

theorem need_of_short {stream : Stream} (inBounds : InBounds stream) {size : ℕ} (what : String)
    (short : unread stream < size) : ∃ message, stream.need size what = .error (.raised message) := by
  refine ⟨_, if_pos ?_⟩
  rwa [sizeSub_of_le inBounds]

theorem need_of_enough {stream : Stream} (inBounds : InBounds stream) {size : ℕ} (what : String)
    (enough : size ≤ unread stream) : stream.need size what = .ok () := by
  refine if_neg ?_
  rw [sizeSub_of_le inBounds]
  exact Nat.not_lt.mpr enough

theorem room_of_full {stream : Stream} {size : ℕ} (what : String) (full : ¬stream.bytes.length + size ≤ maxSize) :
    ∃ message, stream.room size what = .error (.raised message) := by
  refine ⟨_, if_pos ?_⟩
  by_cases large : stream.bytes.length > maxSize
  · exact .inl large
  · rw [sizeSub_of_le (Nat.not_lt.mp large)]
    exact .inr (by omega)

theorem room_of_fits {stream : Stream} {size : ℕ} (what : String) (fits : stream.bytes.length + size ≤ maxSize) :
    stream.room size what = .ok () := by
  refine if_neg ?_
  rw [sizeSub_of_le (by omega)]
  omega

theorem byteAt_of_lt {stream : Stream} {index : ℕ} (inside : index < stream.bytes.length) :
    stream.byteAt index = .ok stream.bytes[index] := by
  simp only [byteAt, List.getElem?_eq_getElem inside]

/-! ## Reads -/

variable {stream : Stream}

theorem readU32_spec (inBounds : InBounds stream) (what : String) : ReadSpec (readU32 what) 4 stream := by
  refine ⟨fun short => ?_, fun enough => ?_⟩
  · obtain ⟨message, raised⟩ := need_of_short inBounds what short
    exact ⟨message, bind_of_error (inspect_of_error raised)⟩
  · unfold unread at enough
    have ready : inspect (·.need 4 what) stream = .ok () stream := inspect_of_ok (need_of_enough inBounds what enough)
    have byte : ∀ offset < 4, inspect (·.byteAt (stream.read + offset)) { stream with read := stream.read + 4 } =
        .ok (stream.bytes[stream.read + offset]!) { stream with read := stream.read + 4 } := by
      intro offset small
      have inside : stream.read + offset < stream.bytes.length := by omega
      refine inspect_of_ok ?_
      rw [getElem!_pos stream.bytes _ inside]
      exact byteAt_of_lt inside
    let word (offset : ℕ) : BitVec 32 := (stream.bytes[stream.read + offset]!).setWidth 32
    refine ⟨word 0 ||| word 1 <<< 8 ||| word 2 <<< 16 ||| word 3 <<< 24, ?_⟩
    rw [readU32, bind_of_ok ready, get_bind]
    simp only [advance, modify_bind]
    refine (bind_of_ok (byte 0 (by decide))).trans ?_
    rw [bind_of_ok (byte 1 (by decide)), bind_of_ok (byte 2 (by decide)), bind_of_ok (byte 3 (by decide))]
    rfl

theorem readByte_spec (inBounds : InBounds stream) : ReadSpec readByte 1 stream := by
  refine ⟨fun short => ?_, fun enough => ?_⟩
  · obtain ⟨message, raised⟩ := need_of_short inBounds "a byte" short
    exact ⟨message, bind_of_error (inspect_of_error raised)⟩
  · have ready : inspect (·.need 1 "a byte") stream = .ok () stream :=
      inspect_of_ok (need_of_enough inBounds "a byte" enough)
    have inside : stream.read < stream.bytes.length := by
      unfold unread at enough
      omega
    refine ⟨stream.bytes[stream.read].toNat, ?_⟩
    rw [readByte, bind_of_ok ready, bind_of_ok (inspect_of_ok (byteAt_of_lt inside))]
    rfl

theorem length_eq (high low : Byte) : high.toNat <<< 8 ||| low.toNat = 256 * high.toNat + low.toNat := by
  rw [← Nat.shiftLeft_add_eq_or_of_lt low.isLt, Nat.shiftLeft_eq]
  omega

theorem announced_eq {high low : Byte} {rest : List Byte} (next : stream.bytes.drop stream.read = high :: low :: rest) :
    announced stream = high.toNat <<< 8 ||| low.toNat := by
  simp only [announced, next, length_eq]

theorem byteAt_drop (offset : ℕ) {byte : Byte} (next : (stream.bytes.drop stream.read)[offset]? = some byte) :
    stream.byteAt (stream.read + offset) = .ok byte := by
  rw [List.getElem?_drop] at next
  simp only [byteAt, next]

theorem readString_spec (inBounds : InBounds stream) : ReadSpec readString (2 + announced stream) stream := by
  by_cases short : unread stream < 2
  · obtain ⟨message, raised⟩ := need_of_short inBounds "a string length" short
    exact ⟨fun _ => ⟨message, bind_of_error (inspect_of_error raised)⟩, fun enough => by omega⟩
  · have ready : inspect (·.need 2 "a string length") stream = .ok () stream :=
      inspect_of_ok (need_of_enough inBounds "a string length" (Nat.not_lt.mp short))
    obtain ⟨high, low, rest, next⟩ : ∃ high low rest, stream.bytes.drop stream.read = high :: low :: rest := by
      have length : (stream.bytes.drop stream.read).length = unread stream := List.length_drop ..
      rcases parts : stream.bytes.drop stream.read with _ | ⟨high, _ | ⟨low, rest⟩⟩
      · simp only [parts, List.length_nil] at length
        omega
      · simp only [parts, List.length_singleton] at length
        omega
      · exact ⟨high, low, rest, rfl⟩
    have first : inspect (fun stream => stream.byteAt stream.read) stream = .ok high stream :=
      inspect_of_ok (byteAt_drop 0 (by simp [next]))
    have second : inspect (fun stream => stream.byteAt (stream.read + 1)) stream = .ok low stream :=
      inspect_of_ok (byteAt_drop 1 (by simp [next]))
    have difference : sizeSub (sizeSub stream.bytes.length stream.read) 2 = unread stream - 2 := by
      rw [sizeSub_of_le inBounds]
      exact sizeSub_of_le (Nat.not_lt.mp short)
    rw [announced_eq next]
    let length := high.toNat <<< 8 ||| low.toNat
    let check (stream : Stream) : Except StreamError Unit :=
      if sizeSub (sizeSub stream.bytes.length stream.read) 2 < length then
        .error (.raised s!"Stream: not enough data to read a string of {length} bytes")
      else .ok ()
    refine ⟨fun missing => ⟨s!"Stream: not enough data to read a string of {length} bytes", ?_⟩, fun enough => ?_⟩
    · have checked : check stream = .error (.raised s!"Stream: not enough data to read a string of {length} bytes") := by
        refine if_pos ?_
        rw [difference]
        omega
      rw [readString, bind_of_ok ready, bind_of_ok first, bind_of_ok second]
      exact bind_of_error (inspect_of_error checked)
    · have checked : check stream = .ok () := by
        refine if_neg ?_
        rw [difference]
        omega
      let after2 : Stream := { stream with read := stream.read + 2 }
      have slice : after2.slice after2.read length = .ok ((stream.bytes.drop (stream.read + 2)).take length) := by
        refine if_pos ?_
        unfold unread at enough
        have bound : stream.read + 2 + length ≤ stream.bytes.length := by omega
        exact bound
      refine ⟨(stream.bytes.drop (stream.read + 2)).take length, ?_⟩
      rw [readString, bind_of_ok ready, bind_of_ok first, bind_of_ok second]
      refine (bind_of_ok (inspect_of_ok checked)).trans ?_
      simp only [advance, modify_bind]
      refine (bind_of_ok (inspect_of_ok slice)).trans ?_
      simp only [modify_bind, pure, EStateM.pure, Nat.add_assoc]

/-! ## Writes -/

theorem writeU32_spec (value : BitVec 32) (what : String) : WriteSpec (writeU32 value what) True 4 stream := by
  refine ⟨fun refused => ?_, fun _ fits => ?_⟩
  · obtain ⟨message, raised⟩ := room_of_full what fun fits => refused ⟨trivial, fits⟩
    exact ⟨message, bind_of_error (inspect_of_error raised)⟩
  · refine ⟨(), [0, 8, 16, 24].map fun shift => (value >>> shift).setWidth 8, rfl, ?_⟩
    rw [writeU32, bind_of_ok (inspect_of_ok (room_of_fits what fits))]
    simp only [forEach, pushBack, modify_bind, List.append_assoc]
    rfl

theorem WriteSpec.congr {α : Type} {member member' : Members α} {accepted accepted' : Prop} {size : ℕ}
    (spec : WriteSpec member' accepted' size stream) (same : member stream = member' stream)
    (agree : accepted ↔ accepted') : WriteSpec member accepted size stream := by
  refine ⟨fun refused => ?_, fun holds fits => ?_⟩
  · rw [same]
    exact spec.refused (by rwa [← agree])
  · rw [same]
    exact spec.written (agree.mp holds) fits

/-- A member that checks its argument first. -/
theorem WriteSpec.bind {α β : Type} {check : Members α} {member : α → Members β} {accepted : Prop} {size : ℕ}
    (fails : ¬accepted → ∃ message, check stream = .error (.raised message) stream)
    (passes : accepted → ∃ value, check stream = .ok value stream ∧ WriteSpec (member value) True size stream) :
    WriteSpec (check >>= member) accepted size stream := by
  refine ⟨fun refused => ?_, fun holds fits => ?_⟩
  · by_cases holds : accepted
    · obtain ⟨value, checked, spec⟩ := passes holds
      rw [bind_of_ok checked]
      exact spec.refused fun both => refused ⟨holds, both.2⟩
    · obtain ⟨message, raised⟩ := fails holds
      exact ⟨message, bind_of_error raised⟩
  · obtain ⟨value, checked, spec⟩ := passes holds
    rw [bind_of_ok checked]
    exact spec.written trivial fits

/-- The integers that `CheckInteger` lets through. -/
def Value.IsInteger (value : Value) (min max : Int) : Prop :=
  match value with
  | .number (some integer) _ _ => min ≤ integer ∧ integer ≤ max
  | _ => False

def Value.IsNumber : Value → Prop
  | .number _ _ _ => True
  | _ => False

/-- The text of a string or a number. -/
def Value.text? : Value → Option (List Byte)
  | .number _ _ text => some text
  | .string text => some text
  | .other _ => none

theorem checkInteger_fails {function : String} {value : Value} {min max : Int} (outside : ¬value.IsInteger min max) :
    ∃ message, checkInteger function value min max stream = .error (.raised message) stream := by
  cases value with
  | number integral single text =>
    cases integral with
    | none => exact ⟨_, rfl⟩
    | some integer =>
      have refused : Stream.checkInteger function integer min max = .error _ := if_pos (by
        simp only [Value.IsInteger] at outside
        omega)
      have look : inspect (fun _ => Stream.checkInteger function integer min max) stream = .error _ stream :=
        inspect_of_error refused
      exact ⟨_, look⟩
  | string text => exact ⟨_, rfl⟩
  | other typeName => exact ⟨_, rfl⟩

theorem checkInteger_passes (function : String) (stream : Stream) {value : Value} {min max : Int} (inside : value.IsInteger min max) :
    ∃ integer, checkInteger function value min max stream = .ok integer stream := by
  cases value with
  | number integral single text =>
    cases integral with
    | none => exact inside.elim
    | some integer =>
      have accepted : Stream.checkInteger function integer min max = .ok integer := if_neg (by
        simp only [Value.IsInteger] at inside
        omega)
      have look : inspect (fun _ => Stream.checkInteger function integer min max) stream = .ok integer stream :=
        inspect_of_ok accepted
      exact ⟨integer, look⟩
  | string text => exact inside.elim
  | other typeName => exact inside.elim

theorem writeByte_spec (argument : Value) : WriteSpec (writeByte argument) (argument.IsInteger (-128) 255) 1 stream := by
  refine WriteSpec.bind checkInteger_fails fun inside => ?_
  obtain ⟨integer, checked⟩ := checkInteger_passes "writeByte" stream inside
  refine ⟨integer, checked, fun refused => ?_, fun _ fits => ?_⟩
  · obtain ⟨message, raised⟩ := room_of_full "a byte" fun fits => refused ⟨trivial, fits⟩
    exact ⟨message, bind_of_error (inspect_of_error raised)⟩
  · exact ⟨(), [BitVec.ofInt 8 integer], rfl, bind_of_ok (inspect_of_ok (room_of_fits "a byte" fits))⟩

theorem writeNumber_spec (argument : Value) :
    WriteSpec (writeNumber argument) (argument.IsInteger (-2147483648) 4294967295) 4 stream := by
  refine WriteSpec.bind checkInteger_fails fun inside => ?_
  obtain ⟨integer, checked⟩ := checkInteger_passes "writeNumber" stream inside
  exact ⟨integer, checked, writeU32_spec _ _⟩

theorem writeFloat_spec (argument : Value) : WriteSpec (writeFloat argument) argument.IsNumber 4 stream := by
  refine WriteSpec.bind (fun other => ?_) fun number => ?_
  · cases argument with
    | number integral single text => exact absurd trivial other
    | string text => exact ⟨_, rfl⟩
    | other typeName => exact ⟨_, rfl⟩
  · cases argument with
    | number integral single text => exact ⟨single, rfl, writeU32_spec _ _⟩
    | string text => exact number.elim
    | other typeName => exact number.elim

theorem writeString_spec (argument : Value) :
    WriteSpec (writeString argument) (∃ text, argument.text? = some text ∧ text.length ≤ 65535)
      (2 + (argument.text?.getD []).length) stream := by
  cases found : argument.text? with
  | none =>
    refine WriteSpec.bind (fun _ => ?_) fun ⟨_, isSome, _⟩ => nomatch isSome
    cases argument with
    | number integral single text => cases found
    | string text => cases found
    | other typeName => exact ⟨_, rfl⟩
  | some text =>
    have checked : checkString "writeString" argument stream = .ok text stream := by
      cases argument <;> cases found <;> rfl
    let limit (_ : Stream) : Except StreamError Unit :=
      if text.length > 0xFFFF then .error (.raised "Stream: a string is at most 65535 bytes") else .ok ()
    let append : Members Unit := do
      inspect (·.room (2 + text.length) "a string")
      pushBack (BitVec.ofNat 8 (text.length >>> 8))
      pushBack (BitVec.ofNat 8 (text.length &&& 0xFF))
      modify fun stream => { stream with bytes := stream.bytes ++ text }
    have appends : WriteSpec append True (2 + text.length) stream := by
      refine ⟨fun refused => ?_, fun _ fits => ?_⟩
      · obtain ⟨message, raised⟩ := room_of_full "a string" fun fits => refused ⟨trivial, fits⟩
        exact ⟨message, bind_of_error (inspect_of_error raised)⟩
      · refine ⟨(), BitVec.ofNat 8 (text.length >>> 8) :: BitVec.ofNat 8 (text.length &&& 0xFF) :: text, ?_, ?_⟩
        · simp only [List.length_cons]
          omega
        · refine (bind_of_ok (inspect_of_ok (room_of_fits "a string" fits))).trans ?_
          simp only [pushBack, modify_bind]
          have joined : ∀ high low : Byte, stream.bytes ++ high :: low :: text = stream.bytes ++ [high] ++ [low] ++ text := by
            intro high low
            simp
          rw [joined]
          rfl
    have limited : WriteSpec (inspect limit >>= fun _ => append) (text.length ≤ 65535) (2 + text.length) stream := by
      refine WriteSpec.bind (fun long => ?_) fun short => ?_
      · have refused : limit stream = .error _ := if_pos (Nat.not_le.mp long)
        exact ⟨_, inspect_of_error refused⟩
      · have passed : limit stream = .ok () := if_neg (Nat.not_lt.mpr short)
        exact ⟨(), inspect_of_ok passed, appends⟩
    refine limited.congr ?_ (by simp)
    rw [writeString, bind_of_ok checked]

/-! ## Scripts -/

/-- The bytes that a read needs: for a string, two and the length that they announce. -/
def Operation.needs (stream : Stream) : Operation → Option ℕ
  | .readByte => some 1
  | .readNumber => some 4
  | .readFloat => some 4
  | .readString => some (2 + announced stream)
  | _ => none

/-- For a write, whether its argument is in its range, and the bytes that it adds. -/
def Operation.adds : Operation → Option (Prop × ℕ)
  | .writeByte argument => some (argument.IsInteger (-128) 255, 1)
  | .writeNumber argument => some (argument.IsInteger (-2147483648) 4294967295, 4)
  | .writeFloat argument => some (argument.IsNumber, 4)
  | .writeString argument =>
    some (∃ text, argument.text? = some text ∧ text.length ≤ 65535, 2 + (argument.text?.getD []).length)
  | _ => none

theorem ReadSpec.map {α β : Type} {member : Members α} {size : ℕ} (spec : ReadSpec member size stream) (f : α → β) :
    ReadSpec (f <$> member) size stream := by
  refine ⟨fun short => ?_, fun enough => ?_⟩
  · obtain ⟨message, raised⟩ := spec.short short
    exact ⟨message, map_of_error raised⟩
  · obtain ⟨value, result⟩ := spec.enough enough
    exact ⟨f value, map_of_ok result⟩

theorem WriteSpec.map {α β : Type} {member : Members α} {accepted : Prop} {size : ℕ}
    (spec : WriteSpec member accepted size stream) (f : α → β) : WriteSpec (f <$> member) accepted size stream := by
  refine ⟨fun refused => ?_, fun holds fits => ?_⟩
  · obtain ⟨message, raised⟩ := spec.refused refused
    exact ⟨message, map_of_error raised⟩
  · obtain ⟨value, encoding, length, result⟩ := spec.written holds fits
    exact ⟨f value, encoding, length, map_of_ok result⟩

theorem run_reads (inBounds : InBounds stream) {operation : Operation} {size : ℕ}
    (reads : operation.needs stream = some size) : ReadSpec operation.run size stream := by
  cases operation <;> cases reads
  case readByte => exact (readByte_spec inBounds).map _
  case readNumber =>
    have number : ReadSpec readNumber 4 stream := (readU32_spec inBounds "a number").map _
    exact number.map _
  case readFloat => exact (readU32_spec inBounds "a float").map _
  case readString => exact (readString_spec inBounds).map _

theorem run_writes {operation : Operation} {accepted : Prop} {size : ℕ} (writes : operation.adds = some (accepted, size)) :
    WriteSpec operation.run accepted size stream := by
  cases operation <;> cases writes
  case writeByte argument => exact (writeByte_spec argument).map _
  case writeNumber argument => exact (writeNumber_spec argument).map _
  case writeFloat argument => exact (writeFloat_spec argument).map _
  case writeString argument => exact (writeString_spec argument).map _

/-- The other operations do not raise, and empty the stream or leave it as it is. -/
theorem run_others {operation : Operation} (notRead : operation.needs stream = none) (notWrite : operation.adds = none) :
    ∃ value, operation.run stream = .ok value {} ∨ operation.run stream = .ok value stream := by
  cases operation <;> cases notRead <;> cases notWrite
  case clear => exact ⟨_, .inl rfl⟩
  case size => exact ⟨_, .inr rfl⟩
  case remaining => exact ⟨_, .inr rfl⟩

/-- Every operation raises before it updates anything, takes bytes, adds bytes that fit, empties the
stream or leaves it as it is. -/
theorem run_cases (inBounds : InBounds stream) (operation : Operation) :
    (∃ message, operation.run stream = .error (.raised message) stream) ∨
      ∃ value next, operation.run stream = .ok value next ∧
        ((∃ size ≤ unread stream, next = { stream with read := stream.read + size }) ∨
          (∃ encoding : List Byte, stream.bytes.length + encoding.length ≤ maxSize ∧
            next = { stream with bytes := stream.bytes ++ encoding }) ∨ next = {} ∨ next = stream) := by
  cases reads : operation.needs stream with
  | some size =>
    have spec := run_reads inBounds reads
    by_cases short : unread stream < size
    · exact .inl (spec.short short)
    · obtain ⟨value, result⟩ := spec.enough (Nat.not_lt.mp short)
      exact .inr ⟨value, _, result, .inl ⟨size, Nat.not_lt.mp short, rfl⟩⟩
  | none =>
    cases writes : operation.adds with
    | some addition =>
      obtain ⟨accepted, size⟩ := addition
      have spec : WriteSpec operation.run accepted size stream := run_writes writes
      by_cases written : accepted ∧ stream.bytes.length + size ≤ maxSize
      · obtain ⟨value, encoding, rfl, result⟩ := spec.written written.1 written.2
        exact .inr ⟨value, _, result, .inr (.inl ⟨encoding, written.2, rfl⟩)⟩
      · exact .inl (spec.refused written)
    | none =>
      obtain ⟨value, cleared | same⟩ := run_others reads writes
      · exact .inr ⟨value, _, cleared, .inr (.inr (.inl rfl))⟩
      · exact .inr ⟨value, _, same, .inr (.inr (.inr rfl))⟩

/-- What a script keeps: the position is in the buffer, and a buffer that is small enough stays so. -/
structure Kept (limit : ℕ) (stream : Stream) : Prop where
  inBounds : InBounds stream
  small : stream.bytes.length ≤ limit

theorem kept_step {limit : ℕ} (bound : maxSize ≤ limit) (kept : Kept limit stream) (operation : Operation) :
    Kept limit (after operation.run stream) := by
  obtain ⟨inBounds, small⟩ := kept
  rcases run_cases inBounds operation with ⟨message, raised⟩ | ⟨value, next, result, changes⟩
  · rw [after_of_error raised]
    exact ⟨inBounds, small⟩
  · rw [after_of_ok result]
    rcases changes with ⟨size, enough, rfl⟩ | ⟨encoding, fits, rfl⟩ | rfl | rfl
    · refine ⟨?_, small⟩
      unfold unread at enough
      unfold InBounds at inBounds ⊢
      show stream.read + size ≤ stream.bytes.length
      omega
    · refine ⟨?_, ?_⟩
      · exact Nat.le_trans inBounds (by simp)
      · simp only [List.length_append]
        omega
    · exact ⟨Nat.le_refl 0, Nat.zero_le _⟩
    · exact ⟨inBounds, small⟩

theorem kept_performAll {limit : ℕ} (bound : maxSize ≤ limit) (operations : List Operation) (kept : Kept limit stream) :
    Kept limit (performAll operations stream) := by
  induction operations generalizing stream with
  | nil => exact kept
  | cons operation rest ih => exact ih (kept_step bound kept operation)

/-- Whatever a client sends and a script does: the read position stays in the buffer, an operation
that raises changes nothing, and it raises exactly when it has to. -/
theorem stream_operations_safe (bytes : List Byte) (operations : List Operation) :
    let stream := performAll operations (received bytes)
    (stream.read ≤ stream.bytes.length ∧ stream.remaining = stream.bytes.length - stream.read) ∧
      (∀ operation e next, Operation.run operation stream = .error e next → (∃ message, e = .raised message) ∧ next = stream) ∧
      (∀ operation size, Operation.needs stream operation = some size →
        ((∃ e next, operation.run stream = .error e next) ↔ stream.bytes.length - stream.read < size)) ∧
      (∀ operation accepted size, Operation.adds operation = some (accepted, size) →
        ((∃ e next, operation.run stream = .error e next) ↔ ¬accepted ∨ maxSize < stream.bytes.length + size)) ∧
      (∀ operation, Operation.needs stream operation = none → operation.adds = none →
        ∃ value next, operation.run stream = .ok value next) ∧
      (bytes = [] → stream.bytes.length ≤ maxSize) := by
  intro stream
  have start : Kept (max maxSize bytes.length) (received bytes) := ⟨Nat.zero_le _, Nat.le_max_right ..⟩
  have inBounds : InBounds stream := (kept_performAll (Nat.le_max_left ..) operations start).inBounds
  refine ⟨⟨inBounds, sizeSub_of_le inBounds⟩, fun operation e next failed => ?_, fun operation size reads => ?_,
    fun operation accepted size writes => ?_, fun operation notRead notWrite => ?_, fun empty => ?_⟩
  · rcases run_cases inBounds operation with ⟨message, raised⟩ | ⟨value, next', result, -⟩
    · rw [raised] at failed
      cases failed
      exact ⟨⟨message, rfl⟩, rfl⟩
    · rw [result] at failed
      cases failed
  · have spec := run_reads inBounds reads
    constructor
    · rintro ⟨e, next, failed⟩
      by_contra enough
      obtain ⟨value, result⟩ := spec.enough (Nat.not_lt.mp enough)
      rw [result] at failed
      cases failed
    · intro short
      obtain ⟨message, raised⟩ := spec.short short
      exact ⟨_, _, raised⟩
  · have spec : WriteSpec operation.run accepted size stream := run_writes writes
    constructor
    · rintro ⟨e, next, failed⟩
      by_contra passes
      obtain ⟨holds, fits⟩ := not_or.mp passes
      obtain ⟨value, encoding, -, result⟩ := spec.written (not_not.mp holds) (Nat.not_lt.mp fits)
      rw [result] at failed
      cases failed
    · intro refused
      obtain ⟨message, raised⟩ := spec.refused fun both =>
        refused.elim (fun outside => outside both.1) fun full => Nat.not_lt.mpr both.2 full
      exact ⟨_, _, raised⟩
  · obtain ⟨value, cleared | same⟩ := run_others notRead notWrite
    · exact ⟨value, _, cleared⟩
    · exact ⟨value, _, same⟩
  · subst empty
    have small : Kept maxSize (received []) := ⟨Nat.zero_le _, Nat.zero_le _⟩
    exact (kept_performAll (Nat.le_refl _) operations small).small

end VcmpLua.Model.Bindings.Stream.Member
