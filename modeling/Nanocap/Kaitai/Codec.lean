import Nanocap.Kaitai.Stream

/-! # Readers with a wire form

A reader of fixed-size records has a codec when it reads back exactly the wire
form of every record, when every byte string of the right size is the wire form
of one, and when it throws on anything shorter. -/

namespace Nanocap

variable {α β : Type}

/-- `wire` is the wire form of the records that satisfy `valid`. -/
structure Codec (reader : Reader α) (wire : α → List UInt8) (size : Nat)
    (valid : α → Prop) : Prop where
  length : ∀ value, valid value → (wire value).length = size
  reads : ∀ value, valid value → ∀ position rest,
    reader ⟨position, wire value ++ rest⟩ = .ok value ⟨position + size, rest⟩
  covers : ∀ bytes : List UInt8, bytes.length = size → ∃ value, valid value ∧ wire value = bytes
  throws : ∀ stream : KStream, stream.rest.length < size →
    ∃ stopped, reader stream = .error .runtimeError stopped

namespace Codec

open KStream

/-- Read the field `part`, the last one, and build the record. -/
theorem last {reader : Reader α} {build : α → β} {wire : α → List UInt8} {size : Nat}
    {valid : β → Prop} (part : β → α) (field : Codec reader wire size fun _ => True)
    (builds : ∀ value, valid (build value) ∧ part (build value) = value)
    (unique : ∀ record, valid record → build (part record) = record) :
    Codec (reader >>= fun value => pure (build value)) (fun record => wire (part record)) size
      valid where
  length record _ := field.length _ trivial
  reads record holds position rest := by
    rw [EStateM.bind_of_ok (field.reads _ trivial _ _), unique record holds]
    rfl
  covers bytes length := by
    obtain ⟨value, -, rfl⟩ := field.covers bytes length
    exact ⟨build value, (builds value).1, by rw [(builds value).2]⟩
  throws stream short := by
    obtain ⟨stopped, raises⟩ := field.throws stream short
    exact ⟨stopped, EStateM.bind_of_error raises⟩

/-- Read the field `part` and then the fields after it. -/
theorem field {first : Reader α} {second : α → Reader β} {firstWire : α → List UInt8}
    {secondWire : β → List UInt8} {firstSize secondSize : Nat} {valid : β → Prop}
    (part : β → α) (left : Codec first firstWire firstSize fun _ => True)
    (right : ∀ value,
      Codec (second value) secondWire secondSize fun record => valid record ∧ part record = value) :
    Codec (first >>= second) (fun record => firstWire (part record) ++ secondWire record)
      (firstSize + secondSize) valid where
  length record holds := by
    rw [List.length_append, left.length _ trivial, (right (part record)).length _ ⟨holds, rfl⟩]
  reads record holds position rest := by
    rw [List.append_assoc, EStateM.bind_of_ok (left.reads _ trivial _ _),
      (right (part record)).reads record ⟨holds, rfl⟩, Nat.add_assoc]
  covers bytes length := by
    have firstLength : (bytes.take firstSize).length = firstSize := by
      rw [List.length_take]
      omega
    have restLength : (bytes.drop firstSize).length = secondSize := by
      rw [List.length_drop]
      omega
    obtain ⟨value, -, firstEqual⟩ := left.covers _ firstLength
    obtain ⟨record, ⟨holds, rfl⟩, restEqual⟩ := (right value).covers _ restLength
    exact ⟨record, holds, by rw [firstEqual, restEqual, List.take_append_drop]⟩
  throws stream short := by
    obtain ⟨position, bytes⟩ := stream
    by_cases enough : firstSize ≤ bytes.length
    · have firstLength : (bytes.take firstSize).length = firstSize := by
        rw [List.length_take]
        omega
      obtain ⟨value, -, firstEqual⟩ := left.covers _ firstLength
      have read := left.reads value trivial position (bytes.drop firstSize)
      rw [firstEqual, List.take_append_drop] at read
      obtain ⟨stopped, raises⟩ := (right value).throws
        ⟨position + firstSize, bytes.drop firstSize⟩ (by
          rw [List.length_drop]
          simp only at short
          omega)
      exact ⟨stopped, by rw [EStateM.bind_of_ok read, raises]⟩
    · obtain ⟨stopped, raises⟩ := left.throws ⟨position, bytes⟩ (Nat.lt_of_not_le enough)
      exact ⟨stopped, EStateM.bind_of_error raises⟩

theorem wrap {reader : Reader α} {wire : α → List UInt8} {size : Nat} (build : α → β)
    {wrapped : β → List UInt8} (codec : Codec reader wire size fun _ => True)
    (agrees : ∀ value, wrapped (build value) = wire value) :
    Codec (reader >>= fun value => pure (build value)) wrapped size
      fun record => ∃ value, record = build value where
  length := by
    rintro _ ⟨value, rfl⟩
    rw [agrees, codec.length value trivial]
  reads := by
    rintro _ ⟨value, rfl⟩ position rest
    rw [agrees, EStateM.bind_of_ok (codec.reads value trivial position rest)]
    rfl
  covers bytes length := by
    obtain ⟨value, -, rfl⟩ := codec.covers bytes length
    exact ⟨build value, ⟨value, rfl⟩, agrees value⟩
  throws stream short := by
    obtain ⟨stopped, raises⟩ := codec.throws stream short
    exact ⟨stopped, EStateM.bind_of_error raises⟩

theorem congr {reader : Reader α} {wire : α → List UInt8} {size : Nat} {valid same : α → Prop}
    (codec : Codec reader wire size valid) (equivalent : ∀ value, same value ↔ valid value) :
    Codec reader wire size same := by
  have equal : same = valid := funext fun value => propext (equivalent value)
  rwa [equal]

section Use

variable {reader : Reader α} {wire : α → List UInt8} {size : Nat} {valid : α → Prop}
  (codec : Codec reader wire size valid)
include codec

theorem reads_wire (value : α) (holds : valid value) :
    KStream.Reads reader (wire value) value := by
  intro position rest
  rw [codec.reads value holds, codec.length value holds]

theorem split {bytes : List UInt8} (enough : size ≤ bytes.length) :
    ∃ value rest, valid value ∧ bytes = wire value ++ rest := by
  have length : (bytes.take size).length = size := by
    rw [List.length_take]
    omega
  obtain ⟨value, holds, equal⟩ := codec.covers _ length
  exact ⟨value, bytes.drop size, holds, by rw [equal, List.take_append_drop]⟩

theorem exists_zero :
    ∃ value, valid value ∧ (wire value).length = size ∧ ∀ byte ∈ wire value, byte = 0 := by
  obtain ⟨value, holds, equal⟩ := codec.covers (List.replicate size 0) (by simp)
  refine ⟨value, holds, by rw [equal, List.length_replicate], fun byte member => ?_⟩
  rw [equal] at member
  exact List.eq_of_mem_replicate member

theorem cases (stream : KStream) :
    (stream.rest.length < size ∧ ∃ stopped, reader stream = .error .runtimeError stopped) ∨
    ∃ value rest, valid value ∧ stream.rest = wire value ++ rest ∧
      reader stream = .ok value ⟨stream.position + size, rest⟩ := by
  by_cases enough : size ≤ stream.rest.length
  · obtain ⟨value, rest, holds, bytes⟩ := codec.split enough
    have read := codec.reads value holds stream.position rest
    rw [← bytes] at read
    exact .inr ⟨value, rest, holds, bytes, read⟩
  · exact .inl ⟨Nat.lt_of_not_le enough, codec.throws stream (Nat.lt_of_not_le enough)⟩

theorem consumes : KStream.Consumes reader size := by
  intro stream value after read
  rcases codec.cases stream with ⟨-, stopped, raises⟩ | ⟨other, rest, holds, bytes, reads⟩
  · rw [raises] at read
    cases read
  · rw [reads] at read
    cases read
    have length := codec.length _ holds
    simp only [bytes, List.length_append]
    omega

end Use

/-! ## Fields -/

theorem readBytes (length : Nat) :
    Codec (readBytes length) (fun bytes => bytes.val) length fun _ => True where
  length bytes _ := bytes.property
  reads bytes _ position rest := readBytes_append bytes position rest
  covers bytes equal := ⟨⟨bytes, equal⟩, trivial, rfl⟩
  throws stream short := ⟨_, by rw [KStream.readBytes, dif_neg (Nat.not_le.mpr short)]⟩

theorem readU1 : Codec readU1 (fun byte => [byte]) 1 fun _ => True where
  length _ _ := rfl
  reads _ _ _ _ := rfl
  covers bytes equal := by
    obtain ⟨byte, rfl⟩ := List.length_eq_one_iff.mp equal
    exact ⟨byte, trivial, rfl⟩
  throws stream short := by
    obtain ⟨position, _ | ⟨byte, rest⟩⟩ := stream
    · exact ⟨_, rfl⟩
    · simp at short

/-- A value read as `length` bytes. -/
theorem integer {length : Nat} (decode : List UInt8 → α) (encode : α → List UInt8)
    (encoded : ∀ value, (encode value).length = length)
    (decodes : ∀ value, decode (encode value) = value)
    (encodes : ∀ bytes : List UInt8, bytes.length = length → encode (decode bytes) = bytes) :
    Codec (KStream.readBytes length >>= fun bytes => pure (decode bytes.val)) encode length
      fun _ => True :=
  last (fun value => ⟨encode value, encoded value⟩) (readBytes length)
    (fun bytes => ⟨trivial, Subtype.ext (encodes bytes.val bytes.property)⟩)
    fun value _ => decodes value

section ByteOrder

variable {length : Nat} (ofNat : Nat → α) (toNat : α → Nat)
  (bound : ∀ value, toNat value < 256 ^ length) (ofNat_toNat : ∀ value, ofNat (toNat value) = value)
  (toNat_ofNat : ∀ number, number < 256 ^ length → toNat (ofNat number) = number)
include bound ofNat_toNat toNat_ofNat

theorem littleEndian :
    Codec (KStream.readBytes length >>= fun bytes => pure (ofNat (littleEndianValue bytes.val)))
      (fun value => littleEndianBytes length (toNat value)) length fun _ => True := by
  refine integer (fun bytes => ofNat (littleEndianValue bytes))
    (fun value => littleEndianBytes length (toNat value)) (fun value => by simp)
    (fun value => ?_) (fun bytes equal => ?_)
  · rw [littleEndianValue_bytes, Nat.mod_eq_of_lt (bound value), ofNat_toNat]
  · subst equal
    rw [toNat_ofNat _ (littleEndianValue_lt bytes), littleEndianBytes_value]

theorem bigEndian :
    Codec (KStream.readBytes length >>= fun bytes => pure (ofNat (bigEndianValue bytes.val)))
      (fun value => bigEndianBytes length (toNat value)) length fun _ => True := by
  refine integer (fun bytes => ofNat (bigEndianValue bytes))
    (fun value => bigEndianBytes length (toNat value)) (fun value => by simp)
    (fun value => ?_) (fun bytes equal => ?_)
  · rw [bigEndianValue_bytes, Nat.mod_eq_of_lt (bound value), ofNat_toNat]
  · subst equal
    rw [toNat_ofNat _ (bigEndianValue_lt bytes), bigEndianBytes_value]

end ByteOrder

theorem readU8le :
    Codec readU8le (fun value => littleEndianBytes 8 value.toNat) 8 fun _ => True :=
  littleEndian UInt64.ofNat UInt64.toNat UInt64.toNat_lt (by simp)
    fun _ => UInt64.toNat_ofNat_of_lt'

theorem readU8be :
    Codec readU8be (fun value => bigEndianBytes 8 value.toNat) 8 fun _ => True :=
  bigEndian UInt64.ofNat UInt64.toNat UInt64.toNat_lt (by simp) fun _ => UInt64.toNat_ofNat_of_lt'

theorem readU4le :
    Codec readU4le (fun value => littleEndianBytes 4 value.toNat) 4 fun _ => True :=
  littleEndian UInt32.ofNat UInt32.toNat UInt32.toNat_lt (by simp)
    fun _ => UInt32.toNat_ofNat_of_lt'

theorem readU4be :
    Codec readU4be (fun value => bigEndianBytes 4 value.toNat) 4 fun _ => True :=
  bigEndian UInt32.ofNat UInt32.toNat UInt32.toNat_lt (by simp) fun _ => UInt32.toNat_ofNat_of_lt'

theorem readU2le :
    Codec readU2le (fun value => littleEndianBytes 2 value.toNat) 2 fun _ => True :=
  littleEndian UInt16.ofNat UInt16.toNat UInt16.toNat_lt (by simp)
    fun _ => UInt16.toNat_ofNat_of_lt'

end Codec

/-! ## Bytes that cannot be read -/

def Unreadable {α : Type} (reader : Reader α) (bytes : List UInt8) : Prop :=
  ∃ exception stop, reader (.ofBytes bytes) = .error exception stop

theorem Codec.unreadable {α : Type} {reader : Reader α} {wire : α → List UInt8} {size : Nat}
    {valid : α → Prop} (codec : Codec reader wire size valid) {bytes : List UInt8}
    (short : bytes.length < size) : Unreadable reader bytes := by
  obtain ⟨stopped, raises⟩ := codec.throws (.ofBytes bytes) short
  exact ⟨_, _, raises⟩

theorem Codec.length_lt_of_unreadable {α : Type} {reader : Reader α} {wire : α → List UInt8}
    {size : Nat} {valid : α → Prop} (codec : Codec reader wire size valid) {bytes : List UInt8}
    (unreadable : Unreadable reader bytes) : bytes.length < size := by
  obtain ⟨exception, stop, raises⟩ := unreadable
  rcases codec.cases (.ofBytes bytes) with ⟨short, -⟩ | ⟨_, _, -, -, reads⟩
  · exact short
  · rw [reads] at raises
    cases raises

end Nanocap
