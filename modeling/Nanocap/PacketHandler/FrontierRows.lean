import Mathlib.Data.List.TakeWhile
import Nanocap.Foundation.Chunks
import Nanocap.PacketHandler.Frontiers
import Nanocap.PacketHandler.Runs

/-! # Rows of a frontier request

What a flow that waits for frontiers records of any segments: the chunks of 64 bytes
its buffer gives up, up to the first one with an account of zeros. -/

namespace Nanocap

/-! ## Chunks -/

namespace FrontierEntry

def isLive (chunk : List UInt8) : Bool := !allZero (chunk.take 32)

theorem isLive_wire (entry : FrontierEntry) :
    isLive entry.wire = !allZero entry.account.val := by
  have account : entry.wire.take 32 = entry.account.val := by
    rw [FrontierEntry.wire]
    exact List.take_left' entry.account.length_val
  rw [isLive, account]

theorem exists_of_length {chunk : List UInt8} (length : chunk.length = 64) :
    ∃ entry : FrontierEntry, chunk = entry.wire := by
  obtain ⟨entry, -, equal⟩ := codec.covers chunk length
  exact ⟨entry, equal.symm⟩

end FrontierEntry

/-- The live chunks before the first one that ends the stream. -/
def recordedChunks (chunks : List (List UInt8)) : List (List UInt8) :=
  chunks.takeWhile FrontierEntry.isLive

theorem recordedChunks_of_live {chunks : List (List UInt8)}
    (live : ∀ chunk ∈ chunks, FrontierEntry.isLive chunk = true) :
    recordedChunks chunks = chunks :=
  List.takeWhile_eq_self_iff.mpr live

theorem recordedChunks_append_of_live {chunks : List (List UInt8)}
    (live : ∀ chunk ∈ chunks, FrontierEntry.isLive chunk = true) (more : List (List UInt8)) :
    recordedChunks (chunks ++ more) = chunks ++ recordedChunks more :=
  List.takeWhile_append_of_pos live

theorem recordedChunks_append_of_dead {chunks : List (List UInt8)}
    (dead : ∃ chunk ∈ chunks, FrontierEntry.isLive chunk = false) (more : List (List UInt8)) :
    recordedChunks (chunks ++ more) = recordedChunks chunks := by
  rw [recordedChunks, List.takeWhile_append, if_neg]
  · rfl
  · intro all
    obtain ⟨chunk, member, dies⟩ := dead
    have whole := (List.takeWhile_prefix FrontierEntry.isLive).eq_of_length all
    have live := List.takeWhile_eq_self_iff.mp whole chunk member
    exact Bool.false_ne_true (dies.symm.trans live)

/-! ## One buffer -/

section Buffer

variable {env : Environment} (neverFails : env.NeverFails) (details : env.config.bootstrapDetails)
  {start : World}
include neverFails details

theorem FrontiersTaken.ends (initial : start.flow.invalidResponseCount = 0) (info : NanoPacket)
    {done : List FrontierEntry.Live} {entry : FrontierEntry} {rest : List UInt8} {world : World}
    (taken : FrontiersTaken env start done (entry.wire ++ rest) world)
    (zero : allZero entry.account.val) :
    ∃ next, frontierIteration env info world = .ok .leave next ∧
      FrontiersEnded env start info done next := by
  have valid : world.flow.invalidResponseCount = 0 := by rw [taken.flow, initial]
  have count : world.flow.responseCount = done.length := by rw [taken.flow]
  obtain ⟨next, ends, ended⟩ := Taken.finish neverFails details info taken
    (count ▸ endOfFrontierReq_of_valid valid)
  refine ⟨next, ?_, ended⟩
  rw [frontierIteration_entry env info taken.buffer]
  refine catchRuntimeError_of_ok ?_
  rw [frontierRest, if_pos zero]
  exact EStateM.bind_of_ok ends

theorem FrontiersTaken.returns (initial : start.flow.invalidResponseCount = 0)
    (info : NanoPacket) {buffer : List UInt8} {done : List FrontierEntry.Live} {world : World}
    (taken : FrontiersTaken env start done buffer world) :
    ∃ entries after, Loop.Returns (frontierIteration env info) world (.ok () after) ∧
      entries.map FrontierEntry.Live.wire = recordedChunks (Chunks.fronts 64 buffer) ∧
      ((∀ chunk ∈ Chunks.fronts 64 buffer, FrontierEntry.isLive chunk = true) ∧
          FrontiersTaken env start (done ++ entries) (Chunks.residue 64 buffer) after ∨
        (∃ chunk ∈ Chunks.fronts 64 buffer, FrontierEntry.isLive chunk = false) ∧
          FrontiersEnded env start info (done ++ entries) after) := by
  induction buffer using Chunks.buffer_induction (by decide : 0 < 64) generalizing done world with
  | short buffer less =>
      obtain ⟨noFront, all⟩ := Chunks.fronts_of_short less
      have waits := @frontierIteration_short env info world (by rwa [taken.buffer])
      refine ⟨[], world, .of_leave waits, by rw [noFront]; rfl, .inl ⟨?_, ?_⟩⟩
      · rw [noFront]
        exact fun chunk member => absurd member List.not_mem_nil
      · rw [List.append_nil, all]
        exact taken
  | append chunk rest length induction =>
      obtain ⟨entry, rfl⟩ := FrontierEntry.exists_of_length length
      obtain ⟨fronts, residue⟩ := Chunks.fronts_append length (by decide) rest
      rw [fronts, residue, recordedChunks]
      by_cases zero : allZero entry.account.val
      · obtain ⟨after, leaves, ended⟩ := taken.ends neverFails details initial info zero
        have dead : FrontierEntry.isLive entry.wire = false := by
          rw [FrontierEntry.isLive_wire, zero]
          rfl
        refine ⟨[], after, .of_leave leaves, ?_, .inr ⟨⟨_, List.mem_cons_self, dead⟩, ?_⟩⟩
        · rw [List.takeWhile_cons_of_neg (by simp [dead])]
          rfl
        · rwa [List.append_nil]
      · have alive : FrontierEntry.isLive entry.wire = true := by
          rw [FrontierEntry.isLive_wire]
          simpa using zero
        let first : FrontierEntry.Live := ⟨entry, zero⟩
        obtain ⟨middle, again, middleTaken⟩ := @FrontiersTaken.take env neverFails details start
          info done first rest world taken
        obtain ⟨entries, after, returns, wires, outcome⟩ := induction middleTaken
        refine ⟨first :: entries, after,
          (Loop.returns_again_iff again _).mpr returns, ?_, ?_⟩
        · rw [List.takeWhile_cons_of_pos alive, List.map_cons, wires]
          rfl
        · rw [List.append_cons]
          rcases outcome with ⟨all, takenAfter⟩ | ⟨⟨chunk, member, dead⟩, ended⟩
          · exact .inl ⟨List.forall_mem_cons.mpr ⟨alive, all⟩, takenAfter⟩
          · exact .inr ⟨⟨chunk, List.mem_cons_of_mem _ member, dead⟩, ended⟩

end Buffer

/-! ## Rows of one request -/

def responsesTo (messageId : Nat) (rows : List Row) : List Row :=
  rows.filter fun row =>
    row.table = .frontierResponse ∧ row.get .frontierRequestId = .nat messageId

section Responses

variable {messageId : Nat}

theorem responsesTo_append (first second : List Row) :
    responsesTo messageId (first ++ second) =
      responsesTo messageId first ++ responsesTo messageId second := by
  simp [responsesTo]

theorem responsesTo_of_ne {rows : List Row}
    (others : ∀ row ∈ rows, row.table ≠ .frontierResponse) :
    responsesTo messageId rows = [] := by
  apply List.filter_eq_nil_iff.mpr
  intro row member both
  exact others row member (of_decide_eq_true both).1

private theorem FrontierEntry.row_response (env : Environment) (id : Nat) (entry : FrontierEntry) :
    (entry.row env messageId id).table = .frontierResponse ∧
      (entry.row env messageId id).get .frontierRequestId = .nat messageId := by
  exact ⟨rfl, rfl⟩

theorem responsesTo_rowsFrom (env : Environment) (id : Nat) (entries : List FrontierEntry.Live) :
    responsesTo messageId (rowsFrom 1 (FrontierEntry.Live.rows env messageId) id entries) =
      rowsFrom 1 (FrontierEntry.Live.rows env messageId) id entries := by
  induction entries generalizing id with
  | nil => rfl
  | cons entry entries induction =>
      rw [rowsFrom, responsesTo_append, induction]
      congr 1
      exact List.filter_cons_of_pos (decide_eq_true (FrontierEntry.row_response env id _))

private theorem Request.responsesTo_plan {env : Environment} {info : NanoPacket} {request : Request}
    (arises : request.Arises) (nextId : Nat) (flow : TcpFlowData) (bindings : Bindings)
    (other : request.mode = some .frontierReq → flow.messageId ≠ messageId) :
    responsesTo messageId ((request.plan env info nextId flow).rows bindings) = [] := by
  have single : ∀ {table : Table} {cells : List Cell}, table ≠ .frontierResponse →
      responsesTo messageId ((Plan.entry table cells).rows bindings) = [] := by
    intro table cells different
    apply responsesTo_of_ne
    intro row member
    rw [List.mem_singleton.mp member]
    exact different
  have bulk : ∀ {table : Table} {cell : Cell} {event : String} {selector : BlockSelector},
      table ≠ .frontierResponse → responsesTo messageId
        ((Plan.bulkEntry env info table cell event selector flow nextId).rows bindings) = [] := by
    intro table cell event selector different
    apply responsesTo_of_ne
    intro row member
    obtain ⟨insertion, inserted, before, rfl⟩ := exists_of_mem_insertedRows member
    rcases Plan.mem_bulkEntry inserted with isEvent | ⟨block, stored, rfl | rfl⟩
    · exact fun same => Table.noConfusion (isEvent.symm.trans same)
    · cases block <;> exact Table.noConfusion
    · exact different
  cases arises with
  | connection event => exact single Table.noConfusion
  | @message nano handling handled =>
      apply responsesTo_of_ne
      intro row member
      obtain ⟨insertion, inserted, before, rfl⟩ := exists_of_mem_insertedRows member
      cases Request.messageInsertions (Nano.handling_request handled).1 nextId flow inserted with
      | packet content kind => exact Table.noConfusion
      | part belongs bound =>
          rintro same
          change insertion.table = .frontierResponse at same
          rw [same] at belongs
          exact belongs
  | entry mode =>
      cases request <;> cases mode
      case entry.frontierEntry.refl entry =>
        apply List.filter_eq_nil_iff.mpr
        intro row member both
        rw [List.mem_singleton.mp member] at both
        have response := (of_decide_eq_true both).2
        exact other rfl (Value.nat_inj.mp response)
      case entry.bulkPullEntry.refl entry => exact bulk Table.noConfusion
      case entry.bulkPushEntry.refl entry => exact bulk Table.noConfusion
      case entry.frontierBalanceEntry.refl entry => exact single Table.noConfusion
      case entry.bulkPullAccountEntry.refl entry => exact single Table.noConfusion

end Responses

/-! ## Flows that record nothing for the request -/

section Unconcerned

variable {env : Environment} {info : NanoPacket} {messageId : Nat} {world next : World}

def World.AddsNone (messageId : Nat) (world next : World) : Prop :=
  ∃ more, next.db.contents.rows = world.db.contents.rows ++ more ∧
    responsesTo messageId more = []

theorem World.AddsNone.of_eq (same : next.db.contents.rows = world.db.contents.rows) :
    world.AddsNone messageId next :=
  ⟨[], by rw [same, List.append_nil], rfl⟩

theorem World.AddsNone.trans {last : World} (first : world.AddsNone messageId next)
    (second : next.AddsNone messageId last) : world.AddsNone messageId last := by
  obtain ⟨more, rows, none⟩ := first
  obtain ⟨others, lastRows, noOthers⟩ := second
  refine ⟨more ++ others, by rw [lastRows, rows, List.append_assoc], ?_⟩
  rw [responsesTo_append, none, noOthers]
  rfl

/-- The flow waits for the responses to another request or for none. -/
structure World.Unconcerned (env : Environment) (messageId : Nat) (world : World) : Prop where
  drawn : messageId < world.db.nextId
  other : env.config.bootstrapDetails = true → world.flow.currentMsgType = .frontierReq →
    world.flow.messageId ≠ messageId

theorem Request.addsNone_after {request : Request} (arises : request.Arises)
    (other : request.mode = some .frontierReq → world.flow.messageId ≠ messageId) :
    world.AddsNone messageId (request.after env info world) :=
  ⟨_, Db.store_rows, Request.responsesTo_plan arises _ _ _ other⟩

theorem Request.nextId_afterDetails (request : Request) (world : World) :
    world.db.nextId ≤ (request.afterDetails env info world).db.nextId := by
  unfold Request.afterDetails
  split
  · rw [Request.after, Db.store_nextId]
    exact Nat.le_add_right _ _
  · exact Nat.le_refl _

theorem Request.addsNone_afterDetails {request : Request} (arises : request.Arises)
    (other : env.config.bootstrapDetails = true → request.mode = some .frontierReq →
      world.flow.messageId ≠ messageId) :
    world.AddsNone messageId (request.afterDetails env info world) := by
  unfold Request.afterDetails
  split
  · rename_i details
    exact Request.addsNone_after arises (other details)
  · exact .of_eq rfl

theorem Effect.unconcerned (effect : Effect env info world next)
    (unconcerned : world.Unconcerned env messageId) :
    next.Unconcerned env messageId ∧ world.AddsNone messageId next := by
  cases effect with
  | taken request count responseCount step entry _ _ =>
      have flow : (request.afterDetails env info world).flow = _ :=
        Request.afterDetails_flow entry world
      have drawn := Nat.lt_of_lt_of_le unconcerned.drawn
        (@Request.nextId_afterDetails env info request world)
      refine ⟨⟨drawn, fun details mode => ?_⟩, ?_⟩
      · change (request.afterDetails env info world).flow.currentMsgType = _ at mode
        change (request.afterDetails env info world).flow.messageId ≠ _
        rw [flow] at mode ⊢
        exact unconcerned.other details mode
      · obtain ⟨more, rows, none⟩ := @Request.addsNone_afterDetails env info messageId world
          request (.entry entry) fun details mode =>
            unconcerned.other details (Option.some.inj (entry.symm.trans mode))
        exact ⟨more, rows, none⟩
  | ended event _ =>
      obtain ⟨more, rows, none⟩ := @Request.addsNone_afterDetails env info messageId world
        _ (.connection event) fun _ mode => nomatch mode
      exact ⟨⟨Nat.lt_of_lt_of_le unconcerned.drawn (Request.nextId_afterDetails _ world),
        fun _ mode => nomatch mode⟩, more, rows, none⟩

theorem Effects.unconcerned (effects : Effects env info world next)
    (unconcerned : world.Unconcerned env messageId) :
    next.Unconcerned env messageId ∧ world.AddsNone messageId next := by
  induction effects with
  | refl => exact ⟨unconcerned, .of_eq rfl⟩
  | tail _ effect induction =>
      obtain ⟨unconcernedAfter, adds⟩ := effect.unconcerned induction.1
      exact ⟨unconcernedAfter, induction.2.trans adds⟩

private theorem Nano.handling_frontier {nano : Nano} {handling : Handling}
    (handled : nano.handling = some handling) (nextId : Nat) :
    handling.request.mode = none ∧
      ((handling.request.flowAfter env nextId handling.flow).currentMsgType = .frontierReq →
        (handling.request.flowAfter env nextId handling.flow).messageId = nextId + 1) := by
  obtain ⟨⟨_, _, _, _, messageType, _⟩, body⟩ := nano
  cases messageType <;> cases body <;> cases handled
  case frontierReq.frontierReq msg => exact ⟨rfl, fun _ => rfl⟩
  all_goals exact ⟨rfl, EnumMsgtype.noConfusion⟩

private theorem Nano.unconcerned_after {nano : Nano} {db : Db} (drawn : messageId < db.nextId)
    (flow : TcpFlowData) : (nano.after env info db).Unconcerned env messageId ∧
      (World.mk db flow).AddsNone messageId (nano.after env info db) := by
  unfold Nano.after
  cases handled : nano.handling with
  | none => exact ⟨⟨drawn, fun _ mode => EnumMsgtype.noConfusion mode⟩, .of_eq rfl⟩
  | some handling =>
      obtain ⟨flowSame, added, rows, events⟩ := @Handling.announced_spec env info handling db
      have announced : (World.mk db flow).AddsNone messageId (handling.announced env info db) :=
        ⟨added, rows, responsesTo_of_ne fun row member same =>
          Table.noConfusion ((events row member).symm.trans same)⟩
      have drawnThen : messageId < (handling.announced env info db).db.nextId := by
        refine Nat.lt_of_lt_of_le drawn ?_
        unfold Handling.announced
        split
        · rw [Request.after, Db.store_nextId]
          exact Nat.le_add_right _ _
        · exact Nat.le_refl _
      have request := @Nano.handling_frontier env nano handling handled
        (handling.announced env info db).db.nextId
      have stored := @Request.addsNone_after env info messageId
        (handling.announced env info db) _ (.message handled)
        fun mode => absurd (request.1.symm.trans mode) (Option.some_ne_none _).symm
      refine ⟨⟨?_, fun details mode => ?_⟩, announced.trans stored⟩
      · dsimp only
        rw [Handling.after, Request.after, Db.store_nextId]
        exact Nat.lt_add_right _ drawnThen
      · dsimp only at mode ⊢
        rw [Handling.after, Request.after, flowSame] at mode ⊢
        rw [request.2 mode]
        exact Nat.ne_of_gt (Nat.lt_succ_of_lt drawnThen)

theorem Delivery.unconcerned (delivery : Delivery env info world next)
    (unconcerned : world.Unconcerned env messageId) :
    next.Unconcerned env messageId ∧ world.AddsNone messageId next := by
  cases delivery with
  | drained loop effects =>
      have accumulated : (accumulate info world).Unconcerned env messageId :=
        ⟨unconcerned.drawn, unconcerned.other⟩
      obtain ⟨after, more, rows, none⟩ := Effects.unconcerned effects accumulated
      exact ⟨after, more, rows, none⟩
  | stored message reads =>
      exact Nano.unconcerned_after unconcerned.drawn world.flow
  | rejected => exact ⟨unconcerned, .of_eq rfl⟩

theorem HandlesAll.unconcerned {segments : List NanoPacket} {before after : Handler}
    (neverFails : env.NeverFails) (handled : HandlesAll env segments before after)
    (ready : before.db.Ready) (unconcerned : before.toWorld.Unconcerned env messageId) :
    before.toWorld.AddsNone messageId after.toWorld := by
  induction handled with
  | nil handler => exact .of_eq rfl
  | cons handles _ induction =>
      have delivery := handles.delivery neverFails ready
      obtain ⟨unconcernedAfter, adds⟩ := delivery.unconcerned unconcerned
      exact adds.trans (induction (delivery.ready ready) unconcernedAfter)

end Unconcerned

/-! ## Segments -/

section Segments

variable {env : Environment} {messageId : Nat} {start world : World}

/-- What the request has recorded since the world `start`. -/
def World.recorded (messageId : Nat) (start world : World) : List Row :=
  responsesTo messageId (world.db.contents.rows.drop start.db.contents.rows.length)

theorem World.recorded_of_rows {added : List Row}
    (rows : world.db.contents.rows = start.db.contents.rows ++ added) :
    World.recorded messageId start world = responsesTo messageId added := by
  rw [recorded, rows, List.drop_left]

/-- After the pieces the flow has recorded the live chunks, and waits for more or is
done with the request. -/
inductive FrontiersRecorded (env : Environment) (messageId : Nat) (start : World)
    (pieces : List (List UInt8)) (world : World) : Prop where
  | waiting {entries : List FrontierEntry.Live} :
      entries.map FrontierEntry.Live.wire = (Chunks.run 4096 64 [] pieces).1 →
      FrontiersTaken env start entries (Chunks.run 4096 64 [] pieces).2 world →
      FrontiersRecorded env messageId start pieces world
  | finished {entries : List FrontierEntry.Live} {added : List Row} :
      (∃ chunk ∈ (Chunks.run 4096 64 [] pieces).1, FrontierEntry.isLive chunk = false) →
      entries.map FrontierEntry.Live.wire =
        recordedChunks (Chunks.run 4096 64 [] pieces).1 →
      world.db.Ready → world.Unconcerned env messageId →
      world.db.contents.rows = start.db.contents.rows ++ added →
      responsesTo messageId added =
        rowsFrom 1 (FrontierEntry.Live.rows env messageId) start.db.nextId entries →
      FrontiersRecorded env messageId start pieces world

theorem FrontierEntry.live_of_mem_wires {entries : List FrontierEntry.Live} :
    ∀ chunk ∈ entries.map FrontierEntry.Live.wire, FrontierEntry.isLive chunk = true := by
  intro chunk member
  obtain ⟨entry, -, rfl⟩ := List.mem_map.mp member
  rw [FrontierEntry.Live.wire, FrontierEntry.isLive_wire]
  simpa using entry.live

theorem FrontiersRecorded.recorded {pieces : List (List UInt8)}
    (messageIds : start.flow.messageId = messageId)
    (done : FrontiersRecorded env messageId start pieces world) :
    ∃ entries : List FrontierEntry.Live, entries.map FrontierEntry.Live.wire =
        recordedChunks (Chunks.run 4096 64 [] pieces).1 ∧
      World.recorded messageId start world =
        rowsFrom 1 (FrontierEntry.Live.rows env messageId) start.db.nextId entries := by
  cases done with
  | @waiting entries wires taken =>
      refine ⟨entries, ?_, ?_⟩
      · rw [← wires, recordedChunks_of_live (FrontierEntry.live_of_mem_wires)]
      · have rows := taken.rows
        rw [messageIds] at rows
        rw [World.recorded_of_rows rows, responsesTo_rowsFrom]
  | @finished entries added dead wires ready unconcerned rows responses =>
      exact ⟨entries, wires, (World.recorded_of_rows rows).trans responses⟩

theorem Taken.overflow {Item : Type} {ids : Nat} {rows : Nat → Item → List Row}
    {done : List Item} {residue : List UInt8} (info : NanoPacket)
    (taken : Taken start ids rows done residue world) :
    Taken start ids rows done (Chunks.keepLast 4096 (residue ++ info.data))
      (Nanocap.accumulate info world) := by
  have buffer := Chunks.toList_append_eq world.flow.accumulatedData info.data
  rw [taken.buffer] at buffer
  refine ⟨taken.ready, taken.rows, taken.nextId, buffer, ?_⟩
  exact congrArg (fun flow : TcpFlowData =>
    { flow with accumulatedData := (Nanocap.accumulate info world).flow.accumulatedData })
    taken.flow

private theorem Effects.nextId_le {info : NanoPacket} {next : World}
    (effects : Effects env info world next) : world.db.nextId ≤ next.db.nextId := by
  induction effects with
  | refl => exact Nat.le_refl _
  | tail _ effect induction =>
      refine Nat.le_trans induction ?_
      cases effect with
      | taken request count responseCount step entry _ _ =>
          exact request.nextId_afterDetails _
      | ended event _ => exact Request.nextId_afterDetails _ _

section Step

variable (neverFails : env.NeverFails) (details : env.config.bootstrapDetails)
  (initial : start.flow.invalidResponseCount = 0)
  (mode : start.flow.currentMsgType = .frontierReq)
  (messageIds : start.flow.messageId = messageId) (drawn : messageId < start.db.nextId)
include neverFails details initial mode messageIds drawn

theorem FrontiersRecorded.segment {info : NanoPacket} (some : info.data ≠ [])
    {pieces : List (List UInt8)} {before after : Handler}
    (done : FrontiersRecorded env messageId start pieces before.toWorld)
    (handles : Handles env info before after) :
    FrontiersRecorded env messageId start (pieces ++ [info.data]) after.toWorld := by
  have run := @Chunks.run_append _ 4096 64 [] pieces [info.data]
  simp only [Chunks.run, List.append_nil] at run
  cases done with
  | @waiting entries wires taken =>
      have waits : before.flow.currentMsgType = .frontierReq := by rw [taken.flow, mode]
      have loop : drainLoop env info before.flow.currentMsgType =
          .some (frontierIteration env info) := by rw [waits]; rfl
      obtain ⟨result, returned, rfl⟩ := (handles_iff_drain loop some).mp handles
      obtain ⟨more, world, returns, moreWires, outcome⟩ := @FrontiersTaken.returns env neverFails
        details start initial info _ entries _ (taken.overflow info)
      obtain rfl := returned.unique returns
      have wiresAfter : (entries ++ more).map FrontierEntry.Live.wire =
          recordedChunks (Chunks.run 4096 64 [] (pieces ++ [info.data])).1 := by
        rw [run, recordedChunks_append_of_live (wires ▸ FrontierEntry.live_of_mem_wires),
          List.map_append, wires, moreWires]
      rcases outcome with ⟨live, takenAfter⟩ | ⟨dead, ended⟩
      · refine @waiting _ _ _ _ _ (entries ++ more) ?_ ?_
        · rw [wiresAfter, run]
          refine recordedChunks_of_live fun chunk member => ?_
          rcases List.mem_append.mp member with earlier | now
          · exact FrontierEntry.live_of_mem_wires chunk (wires ▸ earlier)
          · exact live chunk now
        · rw [run]
          exact takenAfter
      · have effects := @drainLoop_effects env info (accumulate info before.toWorld) neverFails
          _ loop taken.ready _ returned
        have reached : start.db.nextId ≤ before.db.nextId := by
          rw [taken.nextId]
          exact Nat.le_add_right _ _
        have unconcerned : world.Unconcerned env messageId := by
          refine ⟨Nat.lt_of_lt_of_le drawn (Nat.le_trans reached effects.nextId_le),
            fun _ waits => ?_⟩
          rw [ended.flow] at waits
          cases waits
        have rows := ended.rows
        rw [messageIds, List.append_assoc] at rows
        refine @finished _ _ _ _ _ (entries ++ more) _ ?_ wiresAfter (effects.ready taken.ready)
          unconcerned rows ?_
        · obtain ⟨chunk, member, dies⟩ := dead
          rw [run]
          exact ⟨chunk, List.mem_append_right _ member, dies⟩
        · have event : responsesTo messageId [connectionRow info
              (endOfFrontierReqText (entries ++ more).length)
              (start.db.nextId + 1 * (entries ++ more).length)] = [] := by
            apply responsesTo_of_ne
            intro row member
            rw [List.mem_singleton.mp member]
            exact Table.noConfusion
          rw [responsesTo_append, responsesTo_rowsFrom, event, List.append_nil]
  | @finished entries added dead wires ready unconcerned rows responses =>
      have delivery := handles.delivery neverFails ready
      obtain ⟨unconcernedAfter, more, moreRows, none⟩ := delivery.unconcerned unconcerned
      refine @finished _ _ _ _ _ entries (added ++ more) ?_ ?_ (delivery.ready ready)
        unconcernedAfter ?_ ?_
      · obtain ⟨chunk, member, dies⟩ := dead
        rw [run]
        exact ⟨chunk, List.mem_append_left _ member, dies⟩
      · rw [run, recordedChunks_append_of_dead dead, wires]
      · rw [moreRows, rows, List.append_assoc]
      · rw [responsesTo_append, none, List.append_nil, responses]

theorem FrontiersRecorded.segments {segments : List NanoPacket}
    (nonempty : ∀ info ∈ segments, info.data ≠ []) {pieces : List (List UInt8)}
    {before after : Handler} (done : FrontiersRecorded env messageId start pieces before.toWorld)
    (handled : HandlesAll env segments before after) :
    FrontiersRecorded env messageId start (pieces ++ segments.map (·.data)) after.toWorld := by
  induction handled generalizing pieces with
  | nil handler =>
      rw [List.map_nil, List.append_nil]
      exact done
  | @cons info _ _ _ _ handles _ induction =>
      rw [List.map_cons, List.append_cons]
      exact induction (fun other member => nonempty other (List.mem_cons_of_mem _ member))
        (done.segment neverFails details initial mode messageIds drawn
          (nonempty info List.mem_cons_self) handles)

omit messageIds drawn in
/-- The segments that matter can be handled: later ones find the flow reset, and add no
chunk that is recorded. -/
theorem FrontiersTaken.handlesAll {segments : List NanoPacket}
    (nonempty : ∀ info ∈ segments, info.data ≠ []) {done : List FrontierEntry.Live}
    {buffer : List UInt8} {before : Handler}
    (taken : FrontiersTaken env start done buffer before.toWorld) :
    ∃ first second after, segments = first ++ second ∧ HandlesAll env first before after ∧
      recordedChunks (Chunks.run 4096 64 buffer (segments.map (·.data))).1 =
        recordedChunks (Chunks.run 4096 64 buffer (first.map (·.data))).1 ∧
      (second = [] ∨ after.flow = .initial) := by
  induction segments generalizing done buffer before with
  | nil => exact ⟨[], [], before, rfl, .nil before, rfl, .inl rfl⟩
  | cons info segments induction =>
      have waits : before.flow.currentMsgType = .frontierReq := by rw [taken.flow, mode]
      have loop : drainLoop env info before.flow.currentMsgType =
          some (frontierIteration env info) := by rw [waits]; rfl
      obtain ⟨entries, world, returns, -, outcome⟩ := @FrontiersTaken.returns env neverFails
        details start initial info _ done _ (taken.overflow info)
      have handles := (handles_iff_drain loop (nonempty info List.mem_cons_self)).mpr
        ⟨_, returns, rfl⟩
      rcases outcome with ⟨live, takenAfter⟩ | ⟨dead, ended⟩
      · obtain ⟨first, second, after, rfl, handled, same, settled⟩ := @induction
          (fun other member => nonempty other (List.mem_cons_of_mem _ member)) _ _
          (before.checkMaxReached.settle (.ok () world)) takenAfter
        refine ⟨info :: first, second, after, rfl, .cons handles handled, ?_, settled⟩
        simp only [List.map_cons, Chunks.run]
        rw [recordedChunks_append_of_live live, recordedChunks_append_of_live live, same]
      · refine ⟨[info], segments, _, rfl, .single handles, ?_, .inr ended.flow⟩
        simp only [List.map_cons, List.map_nil, Chunks.run]
        rw [recordedChunks_append_of_dead dead, recordedChunks_append_of_dead dead]

end Step

end Segments

end Nanocap
