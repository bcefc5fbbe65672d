import Nanocap.Foundation.Framing
import Nanocap.PacketHandler.Messages
import Nanocap.PacketHandler.Segments

/-! # Response streams

The responses to a bootstrap request arrive as entries and a terminator, cut into
segments in any way. What a flow has stored depends on the bytes it has received
and not on the cuts. -/

namespace Nanocap

open Framing (stream front Truncated complete)

/-- The responses of one kind, as the drain loop of `mode` takes them.
`Holds done residue` describes the flow that has taken the entries `done`. -/
structure ResponseStream (env : Environment) (Item : Type) where
  mode : EnumMsgtype
  wire : Item → List UInt8
  terminator : List UInt8
  iteration : NanoPacket → Action Loop.Control
  Holds : List Item → List UInt8 → World → Prop
  Ended : NanoPacket → List Item → World → Prop
  wire_ne : ∀ item, wire item ≠ []
  terminator_ne : terminator ≠ []
  loop : ∀ info, drainLoop env info mode = some (iteration info)
  drains : ∀ info, Framing.Drains wire terminator (iteration info) Holds (Ended info)
  holds_mode : ∀ {done residue world}, Holds done residue world →
    world.flow.currentMsgType = mode
  accumulates : ∀ {done residue world} (info : NanoPacket), Holds done residue world →
    world.flow.accumulatedData.size + info.data.length ≤ 4096 →
    Holds done (residue ++ info.data) (accumulate info world)

namespace ResponseStream

variable {env : Environment} {Item : Type} (responses : ResponseStream env Item)

theorem truncated_nil (items : List Item) :
    Truncated responses.wire responses.terminator items [] := by
  cases items with
  | nil => exact ⟨_, responses.terminator_ne, rfl⟩
  | cons item items => exact ⟨_, responses.wire_ne item, rfl⟩

theorem handles_iff {done : List Item} {residue : List UInt8} {info : NanoPacket}
    {before after : Handler} (holds : responses.Holds done residue before.toWorld)
    (some : info.data ≠ []) :
    Handles env info before after ↔ ∃ result,
      Loop.Returns (responses.iteration info) (accumulate info before.toWorld) result ∧
      before.checkMaxReached.settle result = after :=
  handles_iff_drain ((congrArg _ (responses.holds_mode holds)).trans (responses.loop info)) some

theorem part {segments : List NanoPacket} (nonempty : ∀ info ∈ segments, info.data ≠ [])
    {done todo : List Item} {residue later : List UInt8} {before : Handler}
    (holds : responses.Holds done residue before.toWorld)
    (truncated : Truncated responses.wire responses.terminator todo residue)
    (equal : residue ++ received segments ++ later =
      stream responses.wire responses.terminator todo)
    (more : later ≠ []) (fits : AppendsFit env segments before) :
    ∃ rest last after,
      let taken := complete responses.wire todo (residue ++ received segments).length
      todo = taken ++ rest ∧ last ++ later = stream responses.wire responses.terminator rest ∧
      HandlesAll env segments before after ∧
      responses.Holds (done ++ taken) last after.toWorld := by
  induction segments generalizing done todo residue before with
  | nil =>
      rw [received, List.flatMap_nil, List.append_nil] at equal ⊢
      rw [Framing.complete_of_truncated truncated]
      exact ⟨todo, residue, before, rfl, equal, .nil before, by simpa using holds⟩
  | cons info segments induction =>
      have some : info.data ≠ [] := nonempty info (by simp)
      have bytes : residue ++ received (info :: segments) ++ later =
          residue ++ info.data ++ (received segments ++ later) := by
        simp [received]
      rw [bytes] at equal
      obtain ⟨rest, last, world, todo_eq, buffer_eq, remaining, cut, returns, middleHolds⟩ :=
        (responses.drains info).returns_part (responses.accumulates info holds fits.1) equal
          (by simp [more])
      have handles := (responses.handles_iff holds some).mpr ⟨_, returns, rfl⟩
      have settled : (before.checkMaxReached.settle (.ok () world)).toWorld = world := rfl
      obtain ⟨left, final, after, rest_eq, final_eq, handled, afterHolds⟩ :=
        @induction (fun other member => nonempty other (by simp [member])) _ rest last _
          (settled ▸ middleHolds) cut (by rw [List.append_assoc]; exact remaining)
          (fits.2 _ handles)
      have taken : complete responses.wire todo (residue ++ received (info :: segments)).length =
          complete responses.wire todo (residue ++ info.data).length ++
            complete responses.wire rest (last ++ received segments).length := by
        rw [← Framing.complete_flatMap_append, ← List.length_append, ← List.append_assoc,
          ← buffer_eq, ← todo_eq, List.append_assoc]
        rfl
      refine ⟨left, final, after, ?_, final_eq, .cons handles handled, ?_⟩
      · rw [taken, List.append_assoc, ← rest_eq]
        exact todo_eq
      · rw [taken, ← List.append_assoc]
        exact afterHolds

/-- The segments of a whole stream: every entry is taken and the stream ends with
the last segment. -/
theorem all {segments : List NanoPacket} (nonempty : ∀ info ∈ segments, info.data ≠ [])
    {items : List Item} {before : Handler} (holds : responses.Holds [] [] before.toWorld)
    (equal : received segments = stream responses.wire responses.terminator items)
    (fits : AppendsFit env segments before) :
    ∃ last after, segments.getLast? = some last ∧ HandlesAll env segments before after ∧
      responses.Ended last items after.toWorld := by
  obtain rfl | ⟨first, last, rfl⟩ := List.eq_nil_or_concat' segments
  · have empty := (List.append_eq_nil_iff.mp equal.symm).2
    exact absurd empty responses.terminator_ne
  · have some : last.data ≠ [] := nonempty last (by simp)
    have bytes : received (first ++ [last]) = [] ++ received first ++ last.data := by
      simp [received]
    obtain ⟨rest, residue, middle, items_eq, remaining, handled, middleHolds⟩ :=
      responses.part (fun info member => nonempty info (by simp [member])) holds
        (responses.truncated_nil items) (bytes.symm.trans equal) some fits.append.1
    have lastFits := (fits.append.2 middle handled).1
    have buffer := responses.accumulates last middleHolds lastFits
    rw [remaining] at buffer
    obtain ⟨world, returns, ended⟩ := (responses.drains last).returns_all buffer
    have handles := (responses.handles_iff middleHolds some).mpr ⟨_, returns, rfl⟩
    rw [List.nil_append, ← items_eq] at ended
    exact ⟨last, _, by simp, handled.append (.single handles), ended⟩

/-- The segments before the last one: the entries received so far are taken, and
the flow waits for more. -/
theorem proper {first second : List NanoPacket}
    (nonempty : ∀ info ∈ first ++ second, info.data ≠ []) {items : List Item} {before : Handler}
    (holds : responses.Holds [] [] before.toWorld)
    (equal : received (first ++ second) = stream responses.wire responses.terminator items)
    (some : second ≠ []) (fits : AppendsFit env (first ++ second) before) :
    ∃ residue after, HandlesAll env first before after ∧
      responses.Holds (complete responses.wire items (received first).length) residue
        after.toWorld := by
  obtain ⟨info, others, rfl⟩ := List.exists_cons_of_ne_nil some
  have more : received (info :: others) ≠ [] := by
    have data := nonempty info (by simp)
    simp [received, data]
  obtain ⟨rest, residue, after, -, -, handled, afterHolds⟩ :=
    @part env Item responses first (fun info member => nonempty info (by simp [member])) []
      items [] (received (info :: others)) before holds (responses.truncated_nil items)
      (by rw [← equal]; simp [received]) more fits.append.1
  exact ⟨residue, after, handled, afterHolds⟩

end ResponseStream

/-! ## Stored entries -/

def connectionRow (info : NanoPacket) (event : String) (id : Nat) : Row :=
  Table.connection.rowOf (info.connectionCells event id)

theorem rows_connection (env : Environment) (info : NanoPacket) (event : String) (nextId : Nat)
    (flow : TcpFlowData) (bindings : Bindings) :
    ((Request.connection event).plan env info nextId flow).rows bindings =
      [connectionRow info event nextId] :=
  Plan.rows_entry rfl bindings

section Stored

variable {Item : Type} {env : Environment}

/-- The rows of entries that draw `ids` ids each, the first of them from `id` on. -/
def rowsFrom (ids : Nat) (rows : Nat → Item → List Row) : Nat → List Item → List Row
  | _, [] => []
  | id, item :: items => rows id item ++ rowsFrom ids rows (id + ids) items

private theorem rowsFrom_concat (ids : Nat) (rows : Nat → Item → List Row) (id : Nat)
    (items : List Item) (item : Item) :
    rowsFrom ids rows id (items ++ [item]) =
      rowsFrom ids rows id items ++ rows (id + ids * items.length) item := by
  induction items generalizing id with
  | nil => simp [rowsFrom]
  | cons first items induction =>
      have next : id + ids + ids * items.length = id + ids * (items.length + 1) := by
        rw [Nat.mul_succ]
        omega
      rw [List.cons_append, rowsFrom, rowsFrom, induction, next, List.append_assoc]
      rfl

/-- What a flow has stored that took the entries `done` since the world `start`:
their rows, and nothing else. -/
structure Taken (start : World) (ids : Nat) (rows : Nat → Item → List Row) (done : List Item)
    (residue : List UInt8) (world : World) : Prop where
  ready : world.db.Ready
  rows : world.db.contents.rows =
    start.db.contents.rows ++ rowsFrom ids rows start.db.nextId done
  nextId : world.db.nextId = start.db.nextId + ids * done.length
  buffer : world.flow.accumulatedData.toList = residue
  flow : world.flow = { start.flow with
    responseCount := done.length
    accumulatedData := world.flow.accumulatedData }

/-- The rows of the entries `done` and the event that ends the stream. -/
structure Ended (start : World) (ids : Nat) (rows : Nat → Item → List Row)
    (event : Nat → String) (info : NanoPacket) (done : List Item) (world : World) : Prop where
  rows : world.db.contents.rows =
    start.db.contents.rows ++ rowsFrom ids rows start.db.nextId done ++
      [connectionRow info (event done.length) (start.db.nextId + ids * done.length)]
  flow : world.flow = .initial

variable {start : World} {ids : Nat} {rows : Nat → Item → List Row} {done : List Item}
  {residue : List UInt8} {world : World}

namespace Taken

theorem refl (ready : start.db.Ready) (count : start.flow.responseCount = 0)
    (empty : start.flow.accumulatedData = .empty) : Taken start ids rows [] [] start where
  ready := ready
  rows := (List.append_nil _).symm
  nextId := rfl
  buffer := congrArg CircularBuffer.toList empty
  flow := by
    rw [List.length_nil, ← count]

theorem accumulate (info : NanoPacket) (taken : Taken start ids rows done residue world)
    (fits : world.flow.accumulatedData.size + info.data.length ≤ 4096) :
    Taken start ids rows done (residue ++ info.data) (accumulate info world) where
  ready := taken.ready
  rows := taken.rows
  nextId := taken.nextId
  buffer := by
    rw [← taken.buffer]
    exact CircularBuffer.toList_append_of_fits _ _ fits
  flow := congrArg (fun flow : TcpFlowData =>
    { flow with accumulatedData := (Nanocap.accumulate info world).flow.accumulatedData })
    taken.flow

/-- What `consumeEntry` leaves. -/
def consumed (count : Nat) (world : World) : World :=
  { world with flow := { world.flow with
      responseCount := world.flow.responseCount + 1
      accumulatedData := world.flow.accumulatedData.eraseFront count } }

theorem step (info : NanoPacket) {item : Item} {bytes rest : List UInt8} {request : Request}
    (taken : Taken start ids rows done (bytes ++ rest) world)
    (stores : ∀ bindings, (request.plan env info world.db.nextId world.flow).rows bindings =
      rows world.db.nextId item)
    (draws : (request.plan env info world.db.nextId world.flow).ids = ids)
    (keeps : request.flowAfter env world.db.nextId world.flow = world.flow) :
    Taken start ids rows (done ++ [item]) rest
      (consumed bytes.length (request.after env info world)) where
  ready := Request.ready_after taken.ready request
  rows := by
    rw [consumed, Request.after, Db.store_rows, stores, taken.rows, taken.nextId, rowsFrom_concat,
      List.append_assoc]
  nextId := by
    rw [consumed, Request.after, Db.store_nextId, draws, taken.nextId, List.length_append,
      List.length_singleton, Nat.mul_succ, Nat.add_assoc]
  buffer := by
    rw [consumed, Request.after, keeps, CircularBuffer.toList_eraseFront, taken.buffer,
      List.drop_left]
  flow := by
    rw [consumed, Request.after, keeps, taken.flow, List.length_append]
    rfl

end Taken

section End

variable (neverFails : env.NeverFails) (details : env.config.bootstrapDetails)
include neverFails details

theorem whenBootstrapDetails_put (info : NanoPacket) (ready : world.db.Ready)
    (request : Request) :
    whenBootstrapDetails env (request.put env info) world =
      .ok () (request.after env info world) := by
  rw [whenBootstrapDetails, if_pos details]
  exact request.run_put neverFails info ready

theorem Taken.finish (info : NanoPacket) (taken : Taken start ids rows done residue world)
    {text : TcpFlowData → String} {event : Nat → String}
    (reports : text world.flow = event done.length) :
    ∃ next, endResponse env info text world = .ok () next ∧
      Ended start ids rows event info done next := by
  have put := whenBootstrapDetails_put neverFails details info taken.ready
    (.connection (text world.flow))
  have reads : getFlow world = .ok world.flow world := rfl
  refine ⟨⟨((Request.connection (text world.flow)).after env info world).db, .initial⟩, ?_, ?_, rfl⟩
  · rw [endResponse, EStateM.bind_of_ok reads]
    exact EStateM.bind_of_ok put
  · rw [Request.after, Db.store_rows, rows_connection, taken.rows, taken.nextId, reports]

end End

end Stored

end Nanocap
