import Nanocap.Database.PacketFields
import Nanocap.Database.Recorded
import Nanocap.PacketHandler.Dispatch
import Nanocap.PacketHandler.LiveMessages

/-! # Recorded messages

The rows of live messages tell the messages: two captures leave the same rows exactly
when they recorded the same messages, up to what is not kept of a message. -/

namespace Nanocap

/-! ## Messages that are stored -/

/-- A message of a handled type, with the segment it is read from. -/
structure HandledMessage where
  info : NanoPacket
  nano : Nano
  handling : Handling
  handled : nano.handling = some handling

namespace HandledMessage

/-- The message `handle_tcp` stores for a segment outside the bootstrap modes. -/
def ofSegment (info : NanoPacket) : Option HandledMessage :=
  match Nano.read (.ofBytes info.data) with
  | .error _ _ => none
  | .ok nano _ =>
      match handled : nano.handling with
      | some handling => some ⟨info, nano, handling, handled⟩
      | none => none

def told (env : Environment) (message : HandledMessage) : List Cell × Request :=
  (message.info.packetFields, message.handling.request.kept env)

def store (env : Environment) (db : Db) (message : HandledMessage) : Db :=
  (message.handling.after env message.info db).db

end HandledMessage

def told (env : Environment) (info : NanoPacket) : Option (List Cell × Request) :=
  (HandledMessage.ofSegment info).map (HandledMessage.told env)

private theorem told_of_reads (env : Environment) {info : NanoPacket} {nano : Nano} {stop : KStream}
    {handling : Handling} (reads : Nano.read (.ofBytes info.data) = .ok nano stop)
    (handled : nano.handling = some handling) :
    told env info = some (info.packetFields, handling.request.kept env) := by
  rw [told, HandledMessage.ofSegment, reads]
  dsimp only
  split <;> simp_all [HandledMessage.told]

/-! ## What the rows are made of -/

def Request.event : Request → String
  | keepalive _ _ => "keepalive"
  | confirmAck _ _ => "confirm_ack"
  | confirmReq _ _ => "confirm_req"
  | publish _ _ => "publish"
  | nodeIdHandshake _ _ => "node_id_handshake"
  | bulkPull _ _ => "bulk_pull"
  | bulkPush _ => "bulk_push"
  | frontierReq _ _ => "frontier_req"
  | bulkPullAccount _ _ => "bulk_pull_account"
  | telemetryReq _ => "telemetry_req"
  | telemetryAck _ _ => "telemetry_ack"
  | _ => ""

def Request.flow (request : Request) : TcpFlowData :=
  { TcpFlowData.reset (request.messageType.getD .invalid) with
    requestFlags :=
      match request with
      | bulkPullAccount _ msg => msg.flags
      | _ => 0 }

theorem Nano.handling_eq {nano : Nano} {handling : Handling}
    (handled : nano.handling = some handling) :
    handling.event = handling.request.event ∧ handling.flow = handling.request.flow ∧
      handling.request.Typed := by
  obtain ⟨⟨_, _, _, _, messageType, _⟩, body⟩ := nano
  cases messageType <;> cases body <;> cases handled
  all_goals exact ⟨rfl, rfl, _, rfl, rfl⟩

theorem Request.event_kept (env : Environment) (request : Request) :
    (request.kept env).event = request.event := by
  cases request <;> rfl

theorem Request.flow_kept (env : Environment) (request : Request) :
    (request.kept env).flow = request.flow := by
  cases request <;> rfl

section Fields

variable {env : Environment} {info info' : NanoPacket}
  (same : info.packetFields = info'.packetFields)
include same

private theorem Request.plan_fields {request : Request} {header : MessageHeader}
    (message : request.header = some header) (nextId : Nat) (flow : TcpFlowData) :
    request.plan env info nextId flow = request.plan env info' nextId flow := by
  cases request <;> cases message <;>
    simp only [plan, Plan.message, Plan.withBlock, Plan.withContent, Plan.vote,
      MessageHeader.packetCells, same]

private theorem NanoPacket.connectionCells_of_fields (event : String) (id : Nat) :
    info.connectionCells event id = info'.connectionCells event id := by
  have fields := List.append_inj_left same rfl
  simp only [List.cons.injEq, Prod.mk.injEq, true_and] at fields
  simp only [connectionCells, fields]

private theorem Request.plan_of_kept {request request' : Request} {header : MessageHeader}
    (message : request'.header = some header)
    (kept : request.kept env = request'.kept env) (nextId : Nat) (flow : TcpFlowData) :
    request.plan env info nextId flow = request'.plan env info' nextId flow := by
  rw [← request.plan_kept, kept, request'.plan_kept, request'.plan_fields same message]

private theorem Handling.announced_fields {handling handling' : Handling}
    (event : handling.event = handling'.event) (flow : handling.flow = handling'.flow) (db : Db) :
    handling.announced env info db = handling'.announced env info' db := by
  have cells := NanoPacket.connectionCells_of_fields same handling'.event db.nextId
  simp only [Handling.announced, Request.after, Request.plan, Request.flowAfter, event, flow, cells]

end Fields

namespace HandledMessage

private theorem store_congr {env : Environment} {message message' : HandledMessage}
    (same : message.told env = message'.told env) (db : Db) :
    message.store env db = message'.store env db := by
  obtain ⟨fields, kept⟩ := Prod.mk.inj same
  obtain ⟨event, flow, -⟩ := Nano.handling_eq message.handled
  obtain ⟨event', flow', -⟩ := Nano.handling_eq message'.handled
  have events : message.handling.event = message'.handling.event := by
    rw [event, ← Request.event_kept env, kept, Request.event_kept, event']
  have flows : message.handling.flow = message'.handling.flow := by
    rw [flow, ← Request.flow_kept env, kept, Request.flow_kept, flow']
  have announced := @Handling.announced_fields env _ _ fields _ _ events flows db
  have plans := Request.plan_of_kept fields (Nano.handling_request message'.handled).1 kept
  simp only [store, Handling.after, Request.after, announced, plans]

end HandledMessage

/-! ## The rows of one message -/

/-- The id of the packet a row belongs to, or of the connection row itself. -/
def Row.owner (row : Row) : Value :=
  if row.table = .packet ∨ row.table = .connection then row.get .id else row.get .packetId

private theorem Row.owner_of_packet {row : Row} (table : row.table = .packet) :
    row.owner = row.get .id := if_pos (.inl table)

private theorem Row.owner_of_belongs {row : Row} (belongs : row.table.BelongsToPacket) :
    row.owner = row.get .packetId := by
  refine if_neg ?_
  rintro (table | table) <;> rw [table] at belongs <;> exact belongs

theorem Request.owner_rows {env : Environment} {info : NanoPacket} {request : Request}
    {header : MessageHeader} (message : request.header = some header) {nextId : Nat}
    {flow : TcpFlowData} {bindings : Bindings} {row : Row}
    (member : row ∈ (request.plan env info nextId flow).rows bindings) :
    row.owner = .nat nextId := by
  obtain ⟨insertion, inserted, before, rfl⟩ := exists_of_mem_insertedRows member
  cases request.messageInsertions message nextId flow inserted with
  | packet content kind =>
      rw [Row.owner_of_packet (by rfl)]
      exact packet_get (by decide) (by decide) (contentCells_unbound kind (by decide)) rfl before
  | part belongs bound =>
      have column : Parameter.packetId ∈ insertion.table.parameters := by
        revert belongs
        cases insertion.table <;> simp [Table.BelongsToPacket, Table.parameters]
      rw [Row.owner_of_belongs (by exact belongs)]
      exact Insertion.get_row column bound before

namespace HandledMessage

variable (env : Environment) (message : HandledMessage) (db : Db)

def packetId : Nat := db.nextId + if env.config.connectionDetails then 1 else 0

def eventRows : List Row :=
  if env.config.connectionDetails then
    [connectionRow message.info message.handling.event db.nextId]
  else []

def messageRows : List Row :=
  let world := message.handling.announced env message.info db
  (message.handling.request.plan env message.info world.db.nextId world.flow).rows
    world.db.bindings

theorem announced_nextId :
    (message.handling.announced env message.info db).db.nextId = packetId env db := by
  unfold Handling.announced packetId
  split
  · rw [Request.after, Db.store_nextId]
    rfl
  · rfl

theorem store_rows : (message.store env db).contents.rows =
    db.contents.rows ++ (message.eventRows env db ++ message.messageRows env db) := by
  obtain ⟨announced, -⟩ := @Handling.announced_rows env message.info message.handling db
  rw [← List.append_assoc, eventRows, ← announced]
  exact Db.store_rows

theorem packetId_lt : packetId env db < (message.store env db).nextId := by
  rw [store, Handling.after, Request.after, Db.store_nextId, announced_nextId]
  exact Nat.lt_add_of_pos_right (Handling.ids_pos message.handled _ _)

theorem owner_rows {row : Row}
    (member : row ∈ message.eventRows env db ++ message.messageRows env db) :
    ∃ id, row.owner = .nat id ∧ db.nextId ≤ id ∧ id ≤ packetId env db := by
  rcases List.mem_append.mp member with event | row
  · unfold eventRows at event
    split at event
    · obtain rfl := List.mem_singleton.mp event
      exact ⟨db.nextId, rfl, Nat.le_refl _, Nat.le_add_right _ _⟩
    · cases event
  · obtain ⟨header, -⟩ := Nano.handling_request message.handled
    refine ⟨_, Request.owner_rows header row, ?_⟩
    rw [announced_nextId]
    exact ⟨Nat.le_add_right _ _, Nat.le_refl _⟩

variable {env db} {message' : HandledMessage}

private theorem told_of_rows (addresses : Function.Injective env.addressToString)
    (same : message.eventRows env db ++ message.messageRows env db =
      message'.eventRows env db ++ message'.messageRows env db) :
    message.told env = message'.told env := by
  obtain ⟨header, -⟩ := Nano.handling_request message.handled
  obtain ⟨header', -⟩ := Nano.handling_request message'.handled
  obtain ⟨-, -, typed⟩ := Nano.handling_eq message.handled
  obtain ⟨-, -, typed'⟩ := Nano.handling_eq message'.handled
  have lengths : (message.eventRows env db).length = (message'.eventRows env db).length := by
    unfold eventRows
    split <;> rfl
  have rows := (List.append_inj same lengths).2
  unfold messageRows at rows
  have fields := Request.packetFields_of_rows header header' rows
  have kept := Request.kept_of_rows addresses typed typed' rows
  rw [told, told, fields, kept]

private theorem messageRows_ne_nil : message.messageRows env db ≠ [] := by
  obtain ⟨header, -⟩ := Nano.handling_request message.handled
  intro none
  let world := message.handling.announced env message.info db
  obtain ⟨row, single, -⟩ := @Request.packetRow_plan env message.info _ message.handling.request
    header world.db.nextId world.flow world.db.bindings
  rw [show (Plan.rows _ _) = [] from none] at single
  cases single

end HandledMessage

/-! ## The rows of all messages -/

private theorem append_inj_of_forall {Item : Type} {kind : Item → Prop}
    {first rest first' rest' : List Item} (inside : ∀ item ∈ first, kind item)
    (inside' : ∀ item ∈ first', kind item) (outside : ∀ item ∈ rest, ¬kind item)
    (outside' : ∀ item ∈ rest', ¬kind item) (same : first ++ rest = first' ++ rest') :
    first = first' ∧ rest = rest' := by
  have none {between first rest : List Item} (inside : ∀ item ∈ first ++ between, kind item)
      (outside : ∀ item ∈ between ++ rest, ¬kind item) : between = [] := by
    apply List.eq_nil_iff_forall_not_mem.mpr
    intro item member
    exact outside item (List.mem_append_left _ member)
      (inside item (List.mem_append_right _ member))
  rcases List.append_eq_append_iff.mp same with ⟨between, rfl, rfl⟩ | ⟨between, rfl, rfl⟩
  · obtain rfl := none inside' outside
    simp
  · obtain rfl := none inside outside'
    simp

namespace HandledMessage

variable {env : Environment}

def storeAll (env : Environment) (db : Db) (messages : List HandledMessage) : Db :=
  messages.foldl (store env) db

private theorem storeAll_rows (messages : List HandledMessage) (db : Db) :
    ∃ added, (storeAll env db messages).contents.rows = db.contents.rows ++ added ∧
      ∀ row ∈ added, ∃ id, row.owner = .nat id ∧ db.nextId ≤ id := by
  induction messages generalizing db with
  | nil => exact ⟨[], (List.append_nil _).symm, by simp⟩
  | cons message messages induction =>
      obtain ⟨added, rows, owners⟩ := induction (message.store env db)
      refine ⟨message.eventRows env db ++ message.messageRows env db ++ added, ?_, ?_⟩
      · rw [storeAll, List.foldl_cons, ← storeAll, rows, store_rows, List.append_assoc]
      · intro row member
        rcases List.mem_append.mp member with own | later
        · obtain ⟨id, owner, drawn, -⟩ := message.owner_rows env db own
          exact ⟨id, owner, drawn⟩
        · obtain ⟨id, owner, drawn⟩ := owners row later
          have own := message.packetId_lt env db
          unfold packetId at own
          exact ⟨id, owner, by omega⟩

theorem storeAll_cons_rows (message : HandledMessage) (messages : List HandledMessage) (db : Db) :
    ∃ added, (storeAll env db (message :: messages)).contents.rows =
        db.contents.rows ++ ((message.eventRows env db ++ message.messageRows env db) ++ added) ∧
      ∀ row ∈ added, ¬∃ id, row.owner = .nat id ∧ id ≤ packetId env db := by
  obtain ⟨added, rows, owners⟩ := @storeAll_rows env messages (message.store env db)
  refine ⟨added, ?_, ?_⟩
  · rw [storeAll, List.foldl_cons, ← storeAll, rows, store_rows, List.append_assoc]
  · rintro row member ⟨id, owner, early⟩
    obtain ⟨later, owned, drawn⟩ := owners row member
    have same := Value.nat_inj.mp (owner.symm.trans owned)
    have own := message.packetId_lt env db
    omega

theorem storeAll_cons_ne (message : HandledMessage) (messages : List HandledMessage) (db : Db) :
    (storeAll env db (message :: messages)).contents.rows ≠ db.contents.rows := by
  obtain ⟨added, rows, -⟩ := @storeAll_cons_rows env message messages db
  rw [rows]
  intro same
  have empty := List.append_right_eq_self.mp same
  exact message.messageRows_ne_nil (List.append_eq_nil_iff.mp (List.append_eq_nil_iff.mp empty).1).2

/-- The rows tell the messages, one by one. -/
private theorem storeAll_rows_iff (addresses : Function.Injective env.addressToString)
    (messages messages' : List HandledMessage) (db : Db) :
    (storeAll env db messages).contents.rows = (storeAll env db messages').contents.rows ↔
      messages.map (told env) = messages'.map (told env) := by
  induction messages generalizing messages' db with
  | nil =>
      cases messages' with
      | nil => simp
      | cons message messages' =>
          exact iff_of_false (storeAll_cons_ne message messages' db).symm (by simp)
  | cons message messages induction =>
      cases messages' with
      | nil => exact iff_of_false (storeAll_cons_ne message messages db) (by simp)
      | cons message' messages' =>
          have next (same : message.told env = message'.told env) :
              storeAll env db (message' :: messages') =
                storeAll env (message.store env db) messages' := by
            rw [storeAll, List.foldl_cons, ← store_congr same, storeAll]
          rw [List.map_cons, List.map_cons, List.cons.injEq]
          constructor
          · intro same
            obtain ⟨added, rows, later⟩ := @storeAll_cons_rows env message messages db
            obtain ⟨added', rows', later'⟩ := @storeAll_cons_rows env message' messages' db
            have early (message : HandledMessage) : ∀ row ∈
                message.eventRows env db ++ message.messageRows env db,
                ∃ id, row.owner = .nat id ∧ id ≤ packetId env db := by
              intro row member
              obtain ⟨id, owner, -, own⟩ := message.owner_rows env db member
              exact ⟨id, owner, own⟩
            have inserted := List.append_cancel_left (rows.symm.trans (same.trans rows'))
            have first := message.told_of_rows addresses
              (append_inj_of_forall (early message) (early message') later later' inserted).1
            rw [next first] at same
            exact ⟨first, (induction messages' _).mp same⟩
          · rintro ⟨first, rest⟩
            rw [next first]
            exact (induction messages' _).mpr rest

end HandledMessage

/-! ## Live captures -/

section Captures

variable {env : Environment} (neverFails : env.NeverFails)
include neverFails

private theorem handles_store {info : NanoPacket} {before after : Handler} (ready : before.db.Ready)
    (message : before.flow.currentMsgType ∉ bootstrapModes)
    (handles : Handles env info before after) :
    after.db = HandledMessage.storeAll env before.db (HandledMessage.ofSegment info).toList ∧
      after.db.Ready ∧ (after.flow.currentMsgType ∈ bootstrapModes →
        ∃ header ∈ announced info.data, header.messageType ∈ bootstrapModes) := by
  have noLoop : drainLoop env info before.flow.currentMsgType = none :=
    (drainLoop_eq_none_iff env info).mpr message
  obtain rfl := (handles_iff_message noLoop).mp handles
  cases reads : Nano.read (.ofBytes info.data) with
  | error exception stop =>
      have none : HandledMessage.ofSegment info = none := by rw [HandledMessage.ofSegment, reads]
      rw [handleSegment_of_error reads, none]
      cases exception <;> exact ⟨rfl, ready, fun bootstrap => absurd bootstrap message⟩
  | ok nano stop =>
      obtain ⟨-, mode⟩ := @Nano.records env info nano stop before.db reads
      have handled := handleSegment_of_ok neverFails info ready before.flow reads
      rw [show handleSegment env info before.toWorld = _ from handled]
      refine ⟨?_, Nano.ready_after ready nano, mode⟩
      change (nano.after env info before.db).db = _
      rw [HandledMessage.ofSegment, reads, Nano.after]
      dsimp only
      split <;> split <;> simp_all [HandledMessage.storeAll, HandledMessage.store]

theorem handlesAll_store {segments : List NanoPacket} {before after : Handler}
    (ready : before.db.Ready) (message : before.flow.currentMsgType ∉ bootstrapModes)
    (live : ∀ header ∈ segments.filterMap (announced ·.data), header.messageType ∉ bootstrapModes)
    (handled : HandlesAll env segments before after) :
    after.db =
      HandledMessage.storeAll env before.db (segments.filterMap HandledMessage.ofSegment) := by
  induction handled with
  | nil handler => rfl
  | @cons info segments before next after handles handled induction =>
      obtain ⟨stored, nextReady, mode⟩ := handles_store neverFails ready message handles
      have stays : next.flow.currentMsgType ∉ bootstrapModes := fun bootstrap => by
        obtain ⟨header, announces, other⟩ := mode bootstrap
        exact live header (List.mem_filterMap.mpr ⟨info, by simp, announces⟩) other
      have rest := induction nextReady stays fun header member => live header (by
        obtain ⟨other, inside, announces⟩ := List.mem_filterMap.mp member
        exact List.mem_filterMap.mpr ⟨other, List.mem_cons_of_mem _ inside, announces⟩)
      rw [rest, stored]
      cases segment : HandledMessage.ofSegment info with
      | none => rw [List.filterMap_cons_none segment]; rfl
      | some message => rw [List.filterMap_cons_some segment]; rfl

/-- When no statement fails, two live captures from the same state leave the same rows
exactly when they recorded the same messages: the same fields of the packets, and the same
of each message up to what is not kept of it. The times in the columns that default to
CURRENT_TIMESTAMP are symbols, so rows are the same up to the times of insertion. -/
theorem live_rows_iff (addresses : Function.Injective env.addressToString)
    {before after after' : Handler} (ready : before.db.Ready)
    (message : before.flow.currentMsgType ∉ bootstrapModes) {segments segments' : List NanoPacket}
    (live : ∀ header ∈ segments.filterMap (announced ·.data), header.messageType ∉ bootstrapModes)
    (live' : ∀ header ∈ segments'.filterMap (announced ·.data),
      header.messageType ∉ bootstrapModes)
    (handled : HandlesAll env segments before after)
    (handled' : HandlesAll env segments' before after') :
    after.db.contents.rows = after'.db.contents.rows ↔
      segments.filterMap (told env) = segments'.filterMap (told env) := by
  rw [handlesAll_store neverFails ready message live handled,
    handlesAll_store neverFails ready message live' handled',
    HandledMessage.storeAll_rows_iff addresses, List.map_filterMap, List.map_filterMap]
  rfl

end Captures

def Environment.sampleAddresses : Environment :=
  { Environment.sample with addressToString := fun address => toHex address.val }

def Nano.sampleLive (networkId : UInt8) : List Nano :=
  [⟨{ MessageHeader.sample .keepalive 0 with networkId },
      .keepalive ⟨some (List.replicate 8 ⟨⟨List.replicate 16 0x0a, rfl⟩, 7075⟩)⟩⟩,
    ⟨{ MessageHeader.sample .telemetryReq 0 with networkId }, .telemetryReq⟩]

theorem Nano.sampleLive_live (networkId : UInt8) : ∀ nano ∈ sampleLive networkId, nano.Live :=
  List.forall_mem_cons.mpr ⟨.keepalive _ rfl rfl,
    List.forall_mem_singleton.mpr (.telemetryReq rfl)⟩

theorem told_sampleLive (env : Environment) (networkId : UInt8) :
    ((Nano.sampleLive networkId).map (NanoPacket.sample ·.wire)).filterMap (told env) =
      ((Nano.sampleLive 0).map (NanoPacket.sample ·.wire)).filterMap (told env) := by
  have tells (nano : Nano) (live : nano.Live) {handling : Handling}
      (handled : nano.handling = some handling) :
      told env (.sample nano.wire) =
        some ((NanoPacket.sample []).packetFields, handling.request.kept env) := by
    have read := live.reads 0 []
    rw [List.append_nil] at read
    have fields : (NanoPacket.sample nano.wire).packetFields =
        (NanoPacket.sample []).packetFields := by
      simp only [NanoPacket.packetFields, NanoPacket.sample]
    rw [← fields]
    exact @told_of_reads env (.sample nano.wire) nano _ handling read handled
  have live (networkId : UInt8) := List.forall_mem_cons.mp (Nano.sampleLive_live networkId)
  have last (networkId : UInt8) := (live networkId).2 _ (List.mem_singleton_self _)
  simp only [Nano.sampleLive, List.map_cons, List.map_nil]
  rw [List.filterMap_cons_some (tells _ (live networkId).1 rfl),
    List.filterMap_cons_some (tells _ (last networkId) rfl),
    List.filterMap_cons_some (tells _ (live 0).1 rfl),
    List.filterMap_cons_some (tells _ (last 0) rfl)]
  rfl

/-- Messages leave the same rows in every network, also when a message of no known type has
been delivered before them. -/
theorem live_rows_network :
    ∃ after after',
      HandlesAll .sampleAddresses ((Nano.sampleLive 0x42).map (NanoPacket.sample ·.wire))
        .sample after ∧
      HandlesAll .sampleAddresses
        (.sample (MessageHeader.sample .notAType 0).wire ::
          (Nano.sampleLive 0x41).map (NanoPacket.sample ·.wire)) .sample after' ∧
      after.db.contents.rows = after'.db.contents.rows := by
  let unknown := NanoPacket.sample (MessageHeader.sample .notAType 0).wire
  have nothing : announced unknown.data = none := by decide
  have untold : told .sampleAddresses unknown = none := by decide
  have whole (networkId : UInt8) :
      Readable ((Nano.sampleLive networkId).map (NanoPacket.sample ·.wire))
        (Nano.sampleLive networkId) :=
    .of_messages (Nano.sampleLive_live networkId) (List.map_map ..)
  have later (networkId : UInt8) :
      Readable (unknown :: (Nano.sampleLive networkId).map (NanoPacket.sample ·.wire))
        (Nano.sampleLive networkId) := (whole networkId).cons (by decide) nothing
  have neverFails : Environment.sampleAddresses.NeverFails := fun _ => rfl
  have ready : Handler.sample.db.Ready := Db.opened_ready .empty
  have message : Handler.sample.flow.currentMsgType ∉ bootstrapModes := by decide
  obtain ⟨after, -, handled, -⟩ := (liveRecorded_iff_readable neverFails ready message
    (Nano.sampleLive_live 0x42)).mpr (whole 0x42)
  obtain ⟨after', -, handled', -⟩ := (liveRecorded_iff_readable neverFails ready message
    (Nano.sampleLive_live 0x41)).mpr (later 0x41)
  refine ⟨after, after', handled, handled', ?_⟩
  refine (live_rows_iff neverFails (fun _ _ same => Subtype.ext (toHex_injective same)) ready
    message ((whole 0x42).notBootstrap (Nano.sampleLive_live 0x42))
    ((later 0x41).notBootstrap (Nano.sampleLive_live 0x41)) handled handled').mpr ?_
  rw [List.filterMap_cons_none untold, told_sampleLive, told_sampleLive _ 0x41]

end Nanocap
