import Nanocap.Database.Refinement
import Nanocap.PacketHandler.Iterations

/-! # Messages on a working database

`handle_tcp` outside the bootstrap modes: a segment that cannot be read changes
nothing but the error count, and any other is stored by the requests of its
message. -/

namespace Nanocap

/-- How a message is handled: the connection event, the flow it starts and the
request that stores it. -/
structure Handling where
  event : String
  flow : TcpFlowData
  request : Request
deriving DecidableEq

/-- The handling of a message, `none` for the types the switch ignores. -/
def Nano.handling (nano : Nano) : Option Handling :=
  let header := nano.header
  match header.messageType, nano.body with
  | .keepalive, .keepalive msg =>
      some ⟨"keepalive", .reset .keepalive, .keepalive header msg⟩
  | .confirmAck, .confirmAck msg =>
      some ⟨"confirm_ack", .reset .confirmAck, .confirmAck header msg⟩
  | .confirmReq, .confirmReq msg =>
      some ⟨"confirm_req", .reset .confirmReq, .confirmReq header msg⟩
  | .publish, .publish msg => some ⟨"publish", .reset .publish, .publish header msg⟩
  | .nodeIdHandshake, .nodeIdHandshake msg =>
      some ⟨"node_id_handshake", .reset .nodeIdHandshake, .nodeIdHandshake header msg⟩
  | .bulkPull, .bulkPull msg => some ⟨"bulk_pull", .reset .bulkPull, .bulkPull header msg⟩
  | .bulkPush, .bulkPush _ => some ⟨"bulk_push", .reset .bulkPush, .bulkPush header⟩
  | .frontierReq, .frontierReq msg =>
      some ⟨"frontier_req", .reset .frontierReq, .frontierReq header msg⟩
  | .bulkPullAccount, .bulkPullAccount msg =>
      some ⟨"bulk_pull_account",
        { TcpFlowData.reset .bulkPullAccount with requestFlags := msg.flags },
        .bulkPullAccount header msg⟩
  | .telemetryReq, .telemetryReq =>
      some ⟨"telemetry_req", .reset .telemetryReq, .telemetryReq header⟩
  | .telemetryAck, .telemetryAck msg =>
      some ⟨"telemetry_ack", .reset .telemetryAck, .telemetryAck header msg⟩
  | _, _ => none

def Handling.run (env : Environment) (info : NanoPacket) (handling : Handling) : Action Unit := do
  modifyFlow fun _ => handling.flow
  if env.config.connectionDetails then (putConnection info handling.event).run env
  (handling.request.put env info).run env

/-- The switch of `handle_tcp` runs the handling of the message. -/
theorem dispatch_eq (env : Environment) (info : NanoPacket) (nano : Nano) :
    dispatch env nano.header info nano.body =
      match nano.handling with
      | some handling => handling.run env info
      | none => pure () := by
  obtain ⟨⟨_, _, _, _, messageType, _⟩, body⟩ := nano
  cases messageType <;> cases body <;> rfl

section After

variable (env : Environment) (info : NanoPacket)

def Handling.announced (handling : Handling) (db : Db) : World :=
  if env.config.connectionDetails then
    (Request.connection handling.event).after env info ⟨db, handling.flow⟩
  else ⟨db, handling.flow⟩

def Handling.after (handling : Handling) (db : Db) : World :=
  handling.request.after env info (handling.announced env info db)

def Nano.after (nano : Nano) (db : Db) : World :=
  match nano.handling with
  | some handling => handling.after env info db
  | none => ⟨db, .initial⟩

end After

theorem Handling.announced_spec {env : Environment} {info : NanoPacket} (handling : Handling)
    (db : Db) :
    (handling.announced env info db).flow = handling.flow ∧
      ∃ added, (handling.announced env info db).db.contents.rows = db.contents.rows ++ added ∧
        ∀ row ∈ added, row.table = .connection := by
  unfold Handling.announced
  split
  · refine ⟨rfl, _, Db.store_rows, fun row member => ?_⟩
    have table := @List.mem_map_of_mem _ _ _ _ Row.table member
    rw [Plan.rows, insertedRows_tables] at table
    exact List.mem_singleton.mp table
  · exact ⟨rfl, [], (List.append_nil _).symm, nofun⟩

theorem Request.ready_after {env : Environment} {info : NanoPacket} {world : World}
    (ready : world.db.Ready) (request : Request) : (request.after env info world).db.Ready :=
  ready.store env _

theorem Handling.ready_announced {env : Environment} {info : NanoPacket} {db : Db}
    (ready : db.Ready) (handling : Handling) : (handling.announced env info db).db.Ready := by
  unfold announced
  split
  · exact Request.ready_after (by exact ready) _
  · exact ready

theorem Nano.ready_after {env : Environment} {info : NanoPacket} {db : Db} (ready : db.Ready)
    (nano : Nano) : (nano.after env info db).db.Ready := by
  unfold Nano.after
  split
  · exact Request.ready_after (Handling.ready_announced ready _) _
  · exact ready

/-- A message that has been read is handled with the flow reset. -/
theorem handleSegment_of_read {env : Environment} {info : NanoPacket} {nano : Nano}
    {stop : KStream} (reads : Nano.read (.ofBytes info.data) = .ok nano stop) (world : World) :
    handleSegment env info world =
      match nano.handling with
      | some handling => handling.run env info ⟨world.db, .initial⟩
      | none => .ok () ⟨world.db, .initial⟩ := by
  have parsed := @construct_of_ok _ world _ _ _ _ reads
  have reset : modifyFlow (fun _ => .initial) world = .ok () ⟨world.db, .initial⟩ := rfl
  rw [handleSegment, EStateM.bind_of_ok parsed]
  simp only
  rw [EStateM.bind_of_ok reset, dispatch_eq]
  cases nano.handling <;> rfl

section Run

variable {env : Environment} (neverFails : env.NeverFails) (info : NanoPacket) {db : Db}
  (ready : db.Ready)
include neverFails ready

theorem Handling.run_eq (handling : Handling) (flow : TcpFlowData) :
    handling.run env info ⟨db, flow⟩ = .ok () (handling.after env info db) := by
  have readyAnnounced := @Handling.ready_announced env info db ready handling
  have stored := Request.run_put neverFails info readyAnnounced handling.request
  have reset : modifyFlow (fun _ => handling.flow) ⟨db, flow⟩ = .ok () ⟨db, handling.flow⟩ := rfl
  rw [Handling.run, EStateM.bind_of_ok reset]
  unfold Handling.after
  unfold Handling.announced at stored readyAnnounced ⊢
  split
  · rename_i details
    have announced := @Request.run_connection env neverFails info ⟨db, handling.flow⟩ ready
      handling.event
    rw [if_pos details] at stored
    exact (EStateM.bind_of_ok announced).trans stored
  · rename_i noDetails
    rw [if_neg noDetails] at stored
    exact stored

theorem handleSegment_of_ok {nano : Nano} {stop : KStream} (flow : TcpFlowData)
    (reads : Nano.read (.ofBytes info.data) = .ok nano stop) :
    handleSegment env info ⟨db, flow⟩ = .ok () (nano.after env info db) := by
  rw [handleSegment_of_read reads, Nano.after]
  cases nano.handling with
  | none => rfl
  | some handling => exact handling.run_eq neverFails info ready .initial

end Run

theorem handleSegment_of_error {env : Environment} {info : NanoPacket} {world : World}
    {stop : KStream} {exception : Exception}
    (raises : Nano.read (.ofBytes info.data) = .error exception stop) :
    handleSegment env info world = .error exception world :=
  EStateM.bind_of_error (construct_of_error raises)

end Nanocap
