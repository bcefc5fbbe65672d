import Nanocap.Database.PacketRows
import Nanocap.PacketHandler.Runs

/-! # References to parents

Rows refer to the packet or the request they came with, and the rows of bulk
entries to a block. A request is stored before its flow waits for a response, and
a transaction is committed only between two messages, so that the references
resolve in every state and in everything made durable. -/

namespace Nanocap

/-! ## References -/

def Table.parents : Table → List (Parameter × Table)
  | keepaliveHost | vote | blockState | blockSend | blockReceive | blockOpen | blockChange
  | nodeidQuery | nodeidResponse | telemetry | frontierRequest | bulkPullRequest
  | bulkPullAccountRequest | bulkPushEntry => [(.packetId, .packet)]
  | frontierResponse => [(.frontierRequestId, .frontierRequest)]
  | bulkPullResponse => [(.bulkPullRequestId, .bulkPullRequest)]
  | bulkPullAccountResponse | bulkPullAccountResponseEntry =>
      [(.bulkPullAccountRequestId, .bulkPullAccountRequest)]
  | packet | connection => []

/-- There is a row of the table with the id. -/
def Present (rows : List Row) (table : Table) (id : Value) : Prop :=
  ∃ row ∈ rows, row.table = table ∧ row.get .id = id

structure Row.Attached (rows : List Row) (row : Row) : Prop where
  parents : ∀ parent ∈ row.table.parents, Present rows parent.2 (row.get parent.1)
  /-- A bulk entry points to a block. -/
  content : row.table = .bulkPullResponse ∨ row.table = .bulkPushEntry →
    ∃ table ∈ Table.blocks, row.get .contentTable = .text table.name ∧
      Present rows table (row.get .contentId)

def ParentsResolve (rows : List Row) : Prop := ∀ row ∈ rows, row.Attached rows

section Mono

variable {rows more : List Row} (fewer : rows ⊆ more)
include fewer

theorem Present.mono {table : Table} {id : Value} (present : Present rows table id) :
    Present more table id := by
  obtain ⟨row, member, found⟩ := present
  exact ⟨row, fewer member, found⟩

theorem Row.Attached.mono {row : Row} (attached : row.Attached rows) : row.Attached more where
  parents parent member := (attached.parents parent member).mono fewer
  content bulk := by
    obtain ⟨table, block, named, present⟩ := attached.content bulk
    exact ⟨table, block, named, present.mono fewer⟩

end Mono

theorem ParentsResolve.append {rows added : List Row} (resolve : ParentsResolve rows)
    (attached : ∀ row ∈ added, row.Attached (rows ++ added)) : ParentsResolve (rows ++ added) := by
  intro row member
  rcases List.mem_append.mp member with old | new
  · exact (resolve row old).mono (List.subset_append_left _ _)
  · exact attached row new

theorem Row.Attached.of_connection {row : Row} (event : row.table = .connection)
    (rows : List Row) : row.Attached rows := by
  constructor
  · rw [event]
    exact fun _ none => absurd none List.not_mem_nil
  · rw [event]
    rintro (bulk | bulk) <;> cases bulk

private theorem Table.id_mem (table : Table) : Parameter.id ∈ table.parameters := by
  cases table <;> simp [Table.parameters]

theorem Table.BelongsToPacket.parents {table : Table} (belongs : table.BelongsToPacket) :
    table.parents = [(.packetId, .packet)] ∧ Parameter.packetId ∈ table.parameters ∧
      table ≠ .bulkPullResponse := by
  cases table <;> simp_all [BelongsToPacket, Table.parents, Table.parameters]

theorem present_of_mem {insertions : List Insertion} {insertion : Insertion} {id : Value}
    (member : insertion ∈ insertions) (bound : boundTo insertion.cells .id = some id)
    (bindings : Bindings) : Present (insertedRows bindings insertions) insertion.table id := by
  obtain ⟨before, inserted⟩ := @exists_row_of_mem bindings _ _ member
  exact ⟨_, inserted, rfl, Insertion.get_row insertion.table.id_mem bound before⟩

/-! ## Messages -/

section Messages

variable {env : Environment} {info : NanoPacket} {header : MessageHeader} {request : Request}
  (message : request.header = some header) (nextId : Nat) (flow : TcpFlowData)
  (bindings : Bindings)
include message

theorem Request.packet_present :
    Present ((request.plan env info nextId flow).rows bindings) .packet (.nat nextId) := by
  have one := @Request.countP_packet env info header request message nextId flow
  obtain ⟨insertion, member, isPacket⟩ :=
    List.countP_pos_iff.mp (Nat.lt_of_lt_of_eq Nat.one_pos one.symm)
  have table : insertion.table = .packet := by simpa using isPacket
  cases request.messageInsertions message nextId flow member with
  | packet content kind =>
      have unbound := contentCells_unbound kind (by decide : Parameter.id ∉ _)
      refine present_of_mem member ?_ _
      rw [boundTo_append, unbound,
        boundTo_packetCells header info nextId (packetFields_unbound info (by decide))]
      rfl
  | part belongs _ => exact absurd table belongs.ne.1

private theorem Request.attached_message :
    ∀ row ∈ (request.plan env info nextId flow).rows bindings,
      row.Attached ((request.plan env info nextId flow).rows bindings) := by
  intro row member
  obtain ⟨insertion, inside, before, rfl⟩ := exists_of_mem_insertedRows member
  cases request.messageInsertions message nextId flow inside with
  | packet content kind =>
      constructor
      · exact fun _ none => absurd none List.not_mem_nil
      · rintro (bulk | bulk) <;> cases bulk
  | part belongs bound =>
      obtain ⟨parents, column, notPull⟩ := belongs.parents
      have packet := @Request.packet_present env info _ _ message nextId flow bindings
      rw [← Insertion.get_row column bound before] at packet
      constructor
      · intro parent reference
        change parent ∈ insertion.table.parents at reference
        rw [parents] at reference
        rw [List.mem_singleton.mp reference]
        exact packet
      · rintro (pull | push)
        · exact absurd pull notPull
        · exact absurd push belongs.ne.2

end Messages

/-! ## Flows -/

/-- The table of the request a flow in this mode waits for the response to. -/
def EnumMsgtype.requestTable : EnumMsgtype → Option Table
  | .frontierReq => some .frontierRequest
  | .bulkPull => some .bulkPullRequest
  | .bulkPullAccount => some .bulkPullAccountRequest
  | _ => none

/-- The packet and the request the entries of a stream will refer to are stored. -/
structure TcpFlowData.Attached (rows : List Row) (flow : TcpFlowData) : Prop where
  packet : flow.currentMsgType ∈ bootstrapModes → Present rows .packet (.nat flow.packetId)
  request : ∀ table, flow.currentMsgType.requestTable = some table →
    Present rows table (.nat flow.messageId)

theorem TcpFlowData.Attached.mono {rows more : List Row} {flow : TcpFlowData}
    (fewer : rows ⊆ more) (attached : flow.Attached rows) : flow.Attached more where
  packet mode := (attached.packet mode).mono fewer
  request table mode := (attached.request table mode).mono fewer

theorem TcpFlowData.attached_of_notMem {flow : TcpFlowData}
    (notBootstrap : flow.currentMsgType ∉ bootstrapModes) (rows : List Row) :
    flow.Attached rows where
  packet mode := absurd mode notBootstrap
  request table mode := by
    revert notBootstrap mode
    cases flow.currentMsgType <;> simp [bootstrapModes, EnumMsgtype.requestTable]

theorem TcpFlowData.attached_initial (rows : List Row) : TcpFlowData.initial.Attached rows :=
  attached_of_notMem (by decide) rows

private theorem Nano.handling_attached {env : Environment} {info : NanoPacket} {nano : Nano}
    {handling : Handling} (handled : nano.handling = some handling) (nextId : Nat)
    (bindings : Bindings) :
    (handling.request.flowAfter env nextId handling.flow).Attached
      ((handling.request.plan env info nextId handling.flow).rows bindings) := by
  have packet := @Request.packet_present env info _ _ (Nano.handling_request handled).1 nextId
    handling.flow bindings
  obtain ⟨⟨_, _, _, _, messageType, _⟩, body⟩ := nano
  cases messageType <;> cases body <;> cases handled
  case frontierReq.frontierReq msg =>
    refine ⟨fun _ => packet, fun table mode => ?_⟩
    cases mode
    exact present_of_mem (List.mem_cons_of_mem _ (List.mem_singleton_self _)) rfl _
  case bulkPull.bulkPull msg =>
    refine ⟨fun _ => packet, fun table mode => ?_⟩
    cases mode
    exact present_of_mem (List.mem_cons_of_mem _ (List.mem_singleton_self _)) rfl _
  case bulkPullAccount.bulkPullAccount msg =>
    refine ⟨fun _ => packet, fun table mode => ?_⟩
    cases mode
    exact present_of_mem (List.mem_cons_of_mem _ (List.mem_singleton_self _)) rfl _
  case bulkPush.bulkPush msg => exact ⟨fun _ => packet, fun table mode => by cases mode⟩
  all_goals exact TcpFlowData.attached_of_notMem (by simp [bootstrapModes, Request.flowAfter,
    TcpFlowData.reset]) _

/-! ## Entries -/

section Entries

variable {env : Environment} {info : NanoPacket} {flow : TcpFlowData} {rows : List Row}
  {table other : Table} {column : Parameter}

private theorem Plan.attached_single {cells : List Cell}
    (parents : table.parents = [(column, other)]) (member : column ∈ table.parameters)
    (notPull : table ≠ .bulkPullResponse) (notPush : table ≠ .bulkPushEntry)
    (bound : boundTo cells column = some (.nat flow.messageId))
    (present : Present rows other (.nat flow.messageId)) (bindings : Bindings) (added : List Row) :
    ∀ row ∈ (Plan.entry table cells).rows bindings, row.Attached (rows ++ added) := by
  intro row inside
  obtain rfl := List.mem_singleton.mp inside
  constructor
  · intro parent reference
    change parent ∈ table.parents at reference
    rw [parents] at reference
    rw [List.mem_singleton.mp reference, Insertion.get_row (by exact member) bound]
    exact present.mono (List.subset_append_left _ _)
  · rintro (pull | push)
    · exact absurd pull notPull
    · exact absurd push notPush

private theorem Block.attached_row (block : Block)
    (packet : Present rows .packet (.nat flow.packetId)) (nextId : Nat) (bindings : Bindings)
    (added : List Row) :
    ((⟨block.table, block.cells env nextId flow.packetId⟩ : Insertion).row bindings).Attached
      (rows ++ added) := by
  obtain ⟨parents, packetColumn, notPull⟩ := block.table_belongs.parents
  constructor
  · intro parent reference
    change parent ∈ block.table.parents at reference
    rw [parents] at reference
    rw [List.mem_singleton.mp reference,
      Insertion.get_row (by exact packetColumn) (block.boundTo_packetId env _ _)]
    exact packet.mono (List.subset_append_left _ _)
  · rintro (pull | push)
    · exact absurd pull notPull
    · exact absurd push block.table_belongs.ne.2

private theorem Plan.attached_bulk {id nextId : Nat} {event : String} {selector : BlockSelector}
    (packet : Present rows .packet (.nat flow.packetId))
    (parents : table.parents = [(column, other)]) (member : column ∈ table.parameters)
    (own : ∀ block : Block, boundTo (referenceCells (column, .nat id) (nextId + 1) nextId
      block.table.name) column = some (.nat id))
    (contentId : Parameter.contentId ∈ table.parameters)
    (contentTable : Parameter.contentTable ∈ table.parameters)
    (present : Present rows other (.nat id)) (bindings : Bindings) :
    let plan := Plan.bulkEntry env info table (column, .nat id) event selector flow nextId
    ∀ row ∈ plan.rows bindings, row.Attached (rows ++ plan.rows bindings) := by
  intro plan row inside
  obtain ⟨insertion, inserted, before, rfl⟩ := exists_of_mem_insertedRows inside
  rcases Plan.mem_bulkEntry inserted with isEvent | ⟨block, stored, rfl | rfl⟩
  · exact .of_connection isEvent _
  · exact block.attached_row packet nextId before _
  · have blockInserted : (⟨block.table, block.cells env nextId flow.packetId⟩ : Insertion) ∈
        plan.insertions := by
      simp only [plan, Plan.bulkEntry, stored]
      exact List.mem_cons_self
    constructor
    · intro parent reference
      change parent ∈ table.parents at reference
      rw [parents] at reference
      rw [List.mem_singleton.mp reference, Insertion.get_row (by exact member) (own block)]
      exact present.mono (List.subset_append_left _ _)
    · intro _
      refine ⟨block.table, block.table_mem, Insertion.get_row contentTable rfl _, ?_⟩
      rw [Insertion.get_row (by exact contentId) (by exact rfl)]
      exact (present_of_mem blockInserted (block.boundTo_id env _ _) _).mono
        (List.subset_append_right _ _)

private theorem Request.attached_entry {request : Request}
    (entry : request.mode = some flow.currentMsgType) (attached : flow.Attached rows)
    (nextId : Nat) (bindings : Bindings) :
    ∀ row ∈ (request.plan env info nextId flow).rows bindings,
      row.Attached (rows ++ (request.plan env info nextId flow).rows bindings) := by
  cases request
  case frontierEntry entry' =>
    have mode := Option.some.inj entry
    exact Plan.attached_single rfl (by simp [Table.parameters]) Table.noConfusion
      Table.noConfusion rfl (attached.request .frontierRequest (by rw [← mode]; rfl)) bindings _
  case bulkPullEntry entry' =>
    have mode := Option.some.inj entry
    exact Plan.attached_bulk (attached.packet (by simp [← mode, bootstrapModes])) rfl
      (by simp [Table.parameters]) (fun _ => rfl) (by simp [Table.parameters])
      (by simp [Table.parameters]) (attached.request .bulkPullRequest (by rw [← mode]; rfl))
      bindings
  case bulkPushEntry entry' =>
    have mode := Option.some.inj entry
    have packet := attached.packet (by simp [← mode, bootstrapModes])
    exact Plan.attached_bulk packet rfl (by simp [Table.parameters]) (fun _ => rfl)
      (by simp [Table.parameters]) (by simp [Table.parameters]) packet bindings
  case frontierBalanceEntry entry' =>
    have mode := Option.some.inj entry
    exact Plan.attached_single rfl (by simp [Table.parameters]) Table.noConfusion
      Table.noConfusion rfl (attached.request .bulkPullAccountRequest (by rw [← mode]; rfl))
      bindings _
  case bulkPullAccountEntry entry' =>
    have mode := Option.some.inj entry
    refine Plan.attached_single rfl (by simp [Table.parameters]) Table.noConfusion
      Table.noConfusion ?_ (attached.request .bulkPullAccountRequest (by rw [← mode]; rfl))
      bindings _
    unfold BulkPullAccountEntry.cells
    dsimp only
    split <;> split <;> rfl
  all_goals cases entry

end Entries

/-! ## Databases -/

/-- The references resolve, also in everything made durable but `old`. -/
structure Db.Attached (old : List Contents) (db : Db) : Prop where
  contents : ParentsResolve db.contents.rows
  committed : ∀ snapshot ∈ db.committed, snapshot ∈ old ∨ ParentsResolve snapshot.rows

theorem Db.Attached.store {env : Environment} {plan : Plan} {old : List Contents} {db : Db}
    (attached : db.Attached old) (ready : db.Ready)
    (added : ∀ row ∈ plan.rows db.bindings,
      row.Attached (db.contents.rows ++ plan.rows db.bindings)) :
    (db.store env plan).Attached old where
  contents := by
    rw [Db.store_rows]
    exact attached.contents.append added
  committed snapshot member := by
    rw [Db.store_committed ready] at member
    split at member
    · rcases List.mem_cons.mp member with rfl | earlier
      · exact .inr attached.contents
      · exact attached.committed snapshot earlier
    · exact attached.committed snapshot member

section Worlds

variable {env : Environment} {info : NanoPacket} {old : List Contents}

theorem Db.Attached.storeConnection {db : Db} (attached : db.Attached old) (ready : db.Ready)
    (event : String) (flow : TcpFlowData) :
    (db.store env ((Request.connection event).plan env info db.nextId flow)).Attached old := by
  refine attached.store ready fun row member => ?_
  obtain rfl := List.mem_singleton.mp member
  exact .of_connection rfl _

structure World.Attached (old : List Contents) (world : World) : Prop where
  db : world.db.Attached old
  flow : world.flow.Attached world.db.contents.rows

theorem Effect.attached {world next : World} (effect : Effect env info world next)
    (ready : world.db.Ready) (attached : world.Attached old) : next.Attached old := by
  cases effect with
  | ended event _ =>
      refine ⟨?_, TcpFlowData.attached_initial _⟩
      simp only [reported, Request.afterDetails]
      split
      · exact attached.db.storeConnection ready event _
      · exact attached.db
  | taken request count responseCount step entry _ _ =>
      have stored : (request.afterDetails env info world).Attached old := by
        unfold Request.afterDetails
        split
        · refine ⟨attached.db.store ready (request.attached_entry entry attached.flow _ _), ?_⟩
          have flow := (attached.flow.mono (List.subset_append_left _
            ((request.plan env info world.db.nextId world.flow).rows world.db.bindings)))
          rw [← Db.store_rows] at flow
          change (request.flowAfter env _ _).Attached _
          rw [request.flowAfter_of_mode entry]
          exact ⟨flow.packet, flow.request⟩
        · exact attached
      exact ⟨stored.db, ⟨stored.flow.packet, stored.flow.request⟩⟩

theorem Effects.attached {world next : World} (effects : Effects env info world next)
    (ready : world.db.Ready) (attached : world.Attached old) : next.Attached old := by
  induction effects with
  | refl => exact attached
  | tail before effect induction => exact effect.attached (Effects.ready before ready) induction

private theorem Nano.attached_after {nano : Nano} {db : Db} (ready : db.Ready)
    (attached : db.Attached old) : (nano.after env info db).Attached old := by
  unfold Nano.after
  cases handled : nano.handling with
  | none => exact ⟨attached, TcpFlowData.attached_initial _⟩
  | some handling =>
      have announced : (handling.announced env info db).db.Attached old := by
        unfold Handling.announced
        split
        · exact attached.storeConnection ready _ _
        · exact attached
      have flow := (@Handling.announced_spec env info handling db).1
      have readyAnnounced := @Handling.ready_announced env info db ready handling
      have message := (Nano.handling_request handled).1
      change (handling.after env info db).Attached old
      unfold Handling.after
      generalize handling.announced env info db = world at announced flow readyAnnounced ⊢
      obtain ⟨worldDb, worldFlow⟩ := world
      obtain rfl : worldFlow = handling.flow := flow
      refine ⟨announced.store readyAnnounced fun row member => ?_, ?_⟩
      · exact (handling.request.attached_message message _ _ _ row member).mono
          (List.subset_append_right _ _)
      · have waiting := @Nano.handling_attached env info nano handling handled worldDb.nextId
          worldDb.bindings
        have kept := waiting.mono (List.subset_append_right worldDb.contents.rows _)
        rwa [← Db.store_rows] at kept

theorem Delivery.attached {world next : World} (delivery : Delivery env info world next)
    (ready : world.db.Ready) (attached : world.Attached old) : next.Attached old := by
  cases delivery with
  | drained loop effects =>
      exact Effects.attached effects ready
        ⟨attached.db, attached.flow.packet, attached.flow.request⟩
  | stored message reads => exact Nano.attached_after ready attached.db
  | rejected => exact attached

end Worlds

/-! ## Runs -/

/-- The references resolve, and those of the entries to come will. -/
structure PacketHandler.Attached (old : List Contents) (handler : PacketHandler) : Prop where
  db : handler.db.Attached old
  flows : ∀ key flow, handler.connMgr key = some flow → flow.Attached handler.db.contents.rows

theorem PacketHandler.Attached.opened {durable : Contents}
    (resolve : ParentsResolve durable.rows) : (PacketHandler.opened durable).Attached [] where
  db := by
    refine ⟨resolve, fun snapshot member => .inr ?_⟩
    rcases List.mem_cons.mp member with rfl | member
    · exact resolve
    · obtain rfl := List.mem_singleton.mp member
      exact resolve
  flows _ _ known := by cases known

section Steps

variable {env : Environment} (neverFails : env.NeverFails) {before : PacketHandler}
  (ready : before.db.Ready) {old : List Contents} (resolved : before.Attached old)
include ready resolved

theorem PacketHandler.Attached.storeConnection (info : NanoPacket) (event : String) :
    let plan := (Request.connection event).plan env info before.db.nextId .initial
    PacketHandler.Attached old { before with db := before.db.store env plan } where
  db := resolved.db.storeConnection ready event .initial
  flows key flow known := by
    rw [Db.store_rows]
    exact (resolved.flows key flow known).mono (List.subset_append_left _ _)

include neverFails

theorem PacketHandler.Handled.attached {info : NanoPacket} {after : PacketHandler}
    (handled : before.Handled env info after) : after.Attached old := by
  obtain ⟨flow, world, known, delivery, db, connMgr⟩ := handled.delivery neverFails ready
  have left := delivery.attached ready ⟨resolved.db, resolved.flows _ _ known⟩
  have others : before.EveryFlow (TcpFlowData.Attached world.db.contents.rows) :=
    fun key other present => (resolved.flows key other present).mono delivery.rows.subset
  refine ⟨by rw [db]; exact left.db, fun key other present => ?_⟩
  rw [connMgr] at present
  rw [db]
  exact others.setFlow info.flowKey left.flow key other present

theorem Step.attached {event : Event} {after : PacketHandler} (step : Step env before event after)
    (noDestroy : event ≠ .destroyCaptureData) (noRestart : event = .restart → old = []) :
    after.Attached old := by
  cases step with
  | connectionStart connection =>
      rw [PacketHandler.connectionStart_eq neverFails ready]
      have stored := @PacketHandler.Attached.storeConnection env before ready old resolved
        (connection.packet 0 []) "open connection"
      exact ⟨stored.db,
        PacketHandler.EveryFlow.setFlow stored.flows _ (TcpFlowData.attached_initial _)⟩
  | messageReady connection side data =>
      refine ⟨by simpa using resolved.db, fun key flow known => ?_⟩
      rw [PacketHandler.messageReady_db]
      rcases PacketHandler.messageReady_connMgr _ _ _ _ known with old | rfl
      · exact resolved.flows key flow old
      · exact TcpFlowData.attached_initial _
  | connectionEnd connection =>
      rw [PacketHandler.connectionEnd_eq neverFails ready]
      exact resolved.storeConnection ready _ _
  | @handleNext _ info rest queued handled =>
      exact @PacketHandler.Handled.attached env neverFails { before with packetQueue := rest }
        ready old ⟨resolved.db, resolved.flows⟩ _ _ handled
  | flush =>
      rw [PacketHandler.callDb_flush neverFails ready]
      refine ⟨⟨resolved.db.contents, fun snapshot member => ?_⟩, resolved.flows⟩
      rcases List.mem_cons.mp member with rfl | earlier
      · exact .inr resolved.db.contents
      · exact resolved.db.committed snapshot earlier
  | destroyCaptureData => exact absurd rfl noDestroy
  | restart durable =>
      obtain rfl := noRestart rfl
      exact .opened ((resolved.db.committed _ durable).resolve_left List.not_mem_nil)

end Steps

/-- In every state of a run without a destroy request, and in everything it has
made durable, every row has its parents. -/
theorem parents_resolve {env : Environment} (neverFails : env.NeverFails) {durable : Contents}
    (start : ParentsResolve durable.rows) {events : List Event} {handler : PacketHandler}
    (run : Run env (.opened durable) events handler)
    (noDestroy : .destroyCaptureData ∉ events) :
    ParentsResolve handler.db.contents.rows ∧
      ∀ snapshot ∈ handler.db.committed, ParentsResolve snapshot.rows := by
  have kept := @Run.keeps env _ _ (fun handler => handler.db.Ready ∧ handler.Attached [])
    (· ≠ .destroyCaptureData)
    (fun notDestroy step both => ⟨step.ready neverFails both.1,
      step.attached neverFails both.1 both.2 notDestroy fun _ => rfl⟩) events run
    (fun event member destroys => noDestroy (destroys ▸ member))
    ⟨Db.opened_ready durable, .opened start⟩
  exact ⟨kept.2.db.contents, fun snapshot member =>
    (kept.2.db.committed snapshot member).resolve_left List.not_mem_nil⟩

/-- A frontier_req is answered and a keepalive names two peers; another process finds the
entry and the peers with their parents. -/
theorem parents_resolve_restart :
    let events : List Event :=
      [.connectionStart .sample,
        .messageReady .sample 0 ((MessageHeader.sample .frontierReq 0).wire ++
          List.replicate 40 0), .handleNext,
        .messageReady .sample 1 (List.replicate 64 1), .handleNext,
        .messageReady { ConnectionData.sample with flowKey := 2 } 0
          ((MessageHeader.sample .keepalive 0).wire ++ List.replicate 36 1), .handleNext,
        .flush, .restart]
    ∃ handler, Run .sample (.opened .empty) events handler ∧
      handler.db.contents.rows.map Row.table = [.connection, .packet, .frontierRequest,
        .frontierResponse, .packet, .keepaliveHost, .keepaliveHost] ∧
      ParentsResolve handler.db.contents.rows := by
  intro events
  have executed : ((PacketHandler.opened .empty).performAll .sample 20 events).map
      (fun handler => handler.db.contents.rows.map Row.table) = some [.connection, .packet,
        .frontierRequest, .frontierResponse, .packet, .keepaliveHost, .keepaliveHost] := by
    decide +kernel
  obtain ⟨handler, performs, tables⟩ := Option.map_eq_some_iff.mp executed
  have run := Run.of_performAll performs
  have start : ParentsResolve Contents.empty.rows := List.forall_mem_nil _
  exact ⟨handler, run, tables,
    (parents_resolve Environment.sample_neverFails start run (by decide +kernel)).1⟩

end Nanocap
