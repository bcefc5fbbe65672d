import Nanocap.PacketHandler.Stretches

/-! # Which deliveries count as lossy

The reassembler marks missing bytes by a text in front of the data. `hasMissingData`
looks for the first and the last characters of that text. -/

namespace Nanocap

/-! ## The marker -/

def isDigitByte (byte : UInt8) : Bool := 0x30 ≤ byte && byte ≤ 0x39

/-- `" bytes missing]"` -/
def markerEnd : List UInt8 :=
  [0x20, 0x62, 0x79, 0x74, 0x65, 0x73, 0x20, 0x6d, 0x69, 0x73, 0x73] ++ missingMark

/-- The buffer starts with `'['`, decimal digits and `" bytes missing]"`. -/
def StartsWithMarker (data : List UInt8) : Prop :=
  ∃ digits, digits ≠ [] ∧ (∀ byte ∈ digits, isDigitByte byte = true) ∧
    0x5b :: (digits ++ markerEnd) <+: data

theorem StartsWithMarker.hasMissingData {data : List UInt8} (marked : StartsWithMarker data) :
    hasMissingData data = true := by
  obtain ⟨digits, some, -, rest, rfl⟩ := marked
  have positive := List.length_pos_iff.mpr some
  refine (hasMissingData_iff _).mpr ⟨?_, rfl, ?_⟩
  · simp only [List.length_append, List.length_cons, markerEnd, missingMark, List.length_nil]
    omega
  · refine ⟨0x5b :: (digits ++ [0x20, 0x62, 0x79, 0x74, 0x65, 0x73, 0x20, 0x6d, 0x69, 0x73, 0x73]),
      rest, ?_⟩
    simp only [markerEnd, List.cons_append, List.append_assoc]

/-! ## Buffers taken for a marker -/

/-- The buffer has the first and the last characters of a marker, but starts with none. -/
def LooksMarked (data : List UInt8) : Prop :=
  16 < data.length ∧ data.head? = some 0x5b ∧ missingMark <:+: data ∧ ¬StartsWithMarker data

def Enqueues (data : List UInt8) : Prop :=
  ∀ (connection : ConnectionData) (side : Int) (handler : PacketHandler),
    (handler.messageReady connection side data).packetQueue =
      handler.packetQueue ++ [connection.packet side data]

theorem PacketHandler.packetQueue_messageReady {data : List UInt8} (some : data ≠ [])
    (connection : ConnectionData) (side : Int) (handler : PacketHandler) :
    (handler.messageReady connection side data).packetQueue =
      if hasMissingData data then handler.packetQueue
      else handler.packetQueue ++ [connection.packet side data] := by
  rw [messageReady, if_neg some]
  cases handler.connMgr connection.flowKey <;> dsimp only <;> split <;> rfl

private theorem enqueues_iff {data : List UInt8} (some : data ≠ []) :
    Enqueues data ↔ hasMissingData data = false := by
  constructor
  · intro enqueues
    have queue := enqueues .sample 0 (.opened .empty)
    rw [PacketHandler.packetQueue_messageReady some] at queue
    cases lossy : hasMissingData data with
    | false => rfl
    | true =>
        rw [if_pos lossy] at queue
        cases queue
  · intro whole connection side handler
    rw [PacketHandler.packetQueue_messageReady some, whole]
    rfl

/-- Loss is detected exactly at markers, and data without one is always queued. -/
def LossDetected (data : List UInt8) : Prop :=
  (hasMissingData data = true ↔ StartsWithMarker data) ∧
    (data ≠ [] → ¬StartsWithMarker data → Enqueues data)

/-- A buffer goes wrong exactly when it looks marked. -/
theorem loss_detected_iff (data : List UInt8) : LossDetected data ↔ ¬LooksMarked data := by
  constructor
  · rintro ⟨exact_, -⟩ ⟨long, head, mark, unmarked⟩
    exact unmarked (exact_.mp ((hasMissingData_iff data).mpr ⟨long, head, mark⟩))
  · intro plain
    have detected : hasMissingData data = true → StartsWithMarker data := by
      intro lossy
      by_contra unmarked
      obtain ⟨long, head, mark⟩ := (hasMissingData_iff data).mp lossy
      exact plain ⟨long, head, mark, unmarked⟩
    refine ⟨⟨detected, StartsWithMarker.hasMissingData⟩, fun some unmarked => ?_⟩
    exact (enqueues_iff some).mpr (Bool.eq_false_iff.mpr fun lossy => unmarked (detected lossy))

/-- A slice of a stream of blocks that starts with `'['` and contains `"ing]"`. -/
theorem loss_not_detected : ¬∀ data : List UInt8, LossDetected data := by
  intro detected
  have slice := (detected (0x5b :: (List.replicate 14 0 ++ missingMark))).1.mp (by decide)
  obtain ⟨digits, some, all, rest, front⟩ := slice
  obtain ⟨byte, digits, rfl⟩ := List.exists_cons_of_ne_nil some
  have first := all byte List.mem_cons_self
  obtain rfl : byte = 0 := (List.cons.inj (List.cons.inj front).2).1
  exact absurd first (by decide)

end Nanocap
