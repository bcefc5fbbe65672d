import Nanocap.PacketHandler.HandleTcp

/-! # Segments in a row

`Handles` and `HandlesAll` by the loop or the message branch they run. A segment
is handled in one way at most. -/

namespace Nanocap

open Loop (Control)

@[simp] theorem Handler.checkMaxReached_toWorld (handler : Handler) :
    handler.checkMaxReached.toWorld = handler.toWorld := by
  simp only [Handler.checkMaxReached]
  split <;> rfl

@[simp] theorem Handler.checkMaxReached_packetParseErrorCount (handler : Handler) :
    handler.checkMaxReached.packetParseErrorCount = handler.packetParseErrorCount := by
  simp only [Handler.checkMaxReached]
  split <;> rfl

@[simp] theorem Handler.settle_toWorld (handler : Handler)
    (result : EStateM.Result Exception World Unit) :
    (handler.settle result).toWorld = stateOf result := by
  cases result with
  | ok result world => rfl
  | error exception world => cases exception <;> rfl

variable {env : Environment} {info : NanoPacket}

theorem handles_iff (before after : Handler) :
    Handles env info before after ↔ ∃ fuel result,
      processSegment env fuel info before.toWorld = some result ∧
      before.checkMaxReached.settle result = after := by
  simp [Handles, handleTcp]

theorem handles_iff_drain {before after : Handler} {iteration : Action Control}
    (loop : drainLoop env info before.flow.currentMsgType = some iteration)
    (some : info.data ≠ []) :
    Handles env info before after ↔ ∃ result,
      Loop.Returns iteration (accumulate info before.toWorld) result ∧
      before.checkMaxReached.settle result = after := by
  rw [handles_iff]
  unfold processSegment
  obtain ⟨byte, bytes, data⟩ := List.exists_cons_of_ne_nil some
  rw [loop, data]
  constructor
  · rintro ⟨fuel, result, finished, settled⟩
    exact ⟨result, ⟨fuel, finished⟩, settled⟩
  · rintro ⟨result, ⟨fuel, finished⟩, settled⟩
    exact ⟨fuel, result, finished, settled⟩

theorem handles_iff_message {before after : Handler}
    (message : drainLoop env info before.flow.currentMsgType = none) :
    Handles env info before after ↔
      before.checkMaxReached.settle (handleSegment env info before.toWorld) = after := by
  rw [handles_iff]
  unfold processSegment
  rw [message]
  simp

/-- The result of a segment does not depend on the fuel. -/
theorem processSegment_unique {world : World} {fuel fuel' : Nat}
    {left right : EStateM.Result Exception World Unit}
    (first : processSegment env fuel info world = some left)
    (second : processSegment env fuel' info world = some right) : left = right := by
  unfold processSegment at first second
  split at first
  · rename_i loop data
    rw [loop, data] at second
    exact Loop.Returns.unique ⟨fuel, first⟩ ⟨fuel', second⟩
  · rename_i noLoop
    split at second
    · rename_i loop data
      exact absurd data (noLoop _ _ _ loop)
    · exact Option.some.inj (first.symm.trans second)

theorem Handles.unique {before left right : Handler} (first : Handles env info before left)
    (second : Handles env info before right) : left = right := by
  obtain ⟨_, leftResult, leftProcessed, rfl⟩ := (handles_iff _ _).mp first
  obtain ⟨_, rightResult, rightProcessed, rfl⟩ := (handles_iff _ _).mp second
  rw [processSegment_unique leftProcessed rightProcessed]

namespace HandlesAll

theorem single {before after : Handler} (handles : Handles env info before after) :
    HandlesAll env [info] before after :=
  .cons handles (.nil after)

theorem cons_iff {rest : List NanoPacket} {before after : Handler} :
    HandlesAll env (info :: rest) before after ↔
      ∃ middle, Handles env info before middle ∧ HandlesAll env rest middle after := by
  constructor
  · rintro (_ | ⟨first, others⟩)
    exact ⟨_, first, others⟩
  · rintro ⟨middle, first, others⟩
    exact .cons first others

theorem append {first second : List NanoPacket} {before middle after : Handler}
    (left : HandlesAll env first before middle) (right : HandlesAll env second middle after) :
    HandlesAll env (first ++ second) before after := by
  induction left with
  | nil handler => exact right
  | cons handles _ induction => exact .cons handles (induction right)

theorem of_append {first second : List NanoPacket} {before after : Handler}
    (handled : HandlesAll env (first ++ second) before after) :
    ∃ middle, HandlesAll env first before middle ∧ HandlesAll env second middle after := by
  induction first generalizing before with
  | nil => exact ⟨before, .nil before, handled⟩
  | cons info first induction =>
      obtain ⟨next, handles, rest⟩ := cons_iff.mp handled
      obtain ⟨middle, left, right⟩ := induction rest
      exact ⟨middle, .cons handles left, right⟩

theorem unique {segments : List NanoPacket} {before left right : Handler}
    (first : HandlesAll env segments before left)
    (second : HandlesAll env segments before right) : left = right := by
  induction first with
  | nil handler =>
      cases second
      rfl
  | cons handles _ induction =>
      obtain ⟨middle, others, rest⟩ := cons_iff.mp second
      rw [← handles.unique others] at rest
      exact induction rest

end HandlesAll

/-! ## Delivered bytes -/

def received (segments : List NanoPacket) : List UInt8 := segments.flatMap NanoPacket.data

@[simp] theorem received_nil : received [] = [] := rfl

@[simp] theorem received_cons (info : NanoPacket) (rest : List NanoPacket) :
    received (info :: rest) = info.data ++ received rest := rfl

@[simp] theorem received_append (first second : List NanoPacket) :
    received (first ++ second) = received first ++ received second :=
  List.flatMap_append

theorem received_ne {segments : List NanoPacket} (some : segments ≠ [])
    (nonempty : ∀ info ∈ segments, info.data ≠ []) : received segments ≠ [] := by
  obtain ⟨info, rest, rfl⟩ := List.exists_cons_of_ne_nil some
  rw [received_cons]
  exact List.append_ne_nil_of_left_ne_nil (nonempty info (by simp)) _

/-- Every segment fits in the free space of the circular buffer it is appended
to. -/
def AppendsFit (env : Environment) : List NanoPacket → Handler → Prop
  | [], _ => True
  | info :: rest, handler =>
      handler.flow.accumulatedData.size + info.data.length ≤ 4096 ∧
      ∀ next, Handles env info handler next → AppendsFit env rest next

theorem AppendsFit.single {handler : Handler} (empty : handler.flow.accumulatedData = .empty)
    (small : info.data.length ≤ 4096) : AppendsFit env [info] handler :=
  ⟨by rw [empty, CircularBuffer.size_empty, Nat.zero_add]; exact small, fun _ _ => trivial⟩

theorem AppendsFit.append {first second : List NanoPacket} {handler : Handler}
    (fits : AppendsFit env (first ++ second) handler) :
    AppendsFit env first handler ∧
      ∀ middle, HandlesAll env first handler middle → AppendsFit env second middle := by
  induction first generalizing handler with
  | nil =>
      refine ⟨trivial, fun middle handled => ?_⟩
      cases handled
      exact fits
  | cons info first induction =>
      refine ⟨⟨fits.1, fun next handles => (induction (fits.2 next handles)).1⟩, ?_⟩
      intro middle handled
      obtain ⟨next, handles, rest⟩ := HandlesAll.cons_iff.mp handled
      exact (induction (fits.2 next handles)).2 middle rest

end Nanocap
