import Nanocap.Database.Destroy
import Nanocap.PacketHandler.Callbacks
import Nanocap.PacketHandler.Deliveries

/-! # Runs on a working database

What each event does to the database when no statement fails. -/

namespace Nanocap

namespace PacketHandler

section Calls

variable {env : Environment} (neverFails : env.NeverFails) {handler : PacketHandler}
  (ready : handler.db.Ready)
include neverFails ready

theorem connectionEnd_eq (connection : ConnectionData) :
    handler.connectionEnd env connection =
      { handler with db := handler.db.store env ((Request.connection "close connection").plan
          env (connection.packet 0 []) handler.db.nextId .initial) } := by
  have stored := Request.run_connection neverFails (connection.packet 0 [])
    (by exact ready : (World.mk handler.db .initial).db.Ready) "close connection"
  rw [connectionEnd, callDb, stored]
  rfl

theorem connectionStart_eq (connection : ConnectionData) :
    handler.connectionStart env connection =
      { handler with db := handler.db.store env ((Request.connection "open connection").plan
          env (connection.packet 0 []) handler.db.nextId .initial) }.setFlow
        connection.flowKey .initial := by
  have stored := Request.run_connection neverFails (connection.packet 0 [])
    (by exact ready : (World.mk handler.db .initial).db.Ready) "open connection"
  rw [connectionStart, stored]
  rfl

theorem callDb_flush :
    handler.callDb env flush = { handler with db := handler.db.flushed } := by
  rw [callDb, Put.run_flush neverFails (by exact ready.inTransaction)]
  rfl

theorem callDb_destroyCaptureData :
    handler.callDb env destroyCaptureData = { handler with db := handler.db.destroyed } := by
  rw [callDb, Put.run_destroyCaptureData neverFails (by exact ready.inTransaction)]
  rfl

end Calls

/-! ## Deliveries -/

section MessageReady

variable (handler : PacketHandler) (connection : ConnectionData) (side : Int)
  (data : List UInt8)

@[simp] theorem messageReady_db :
    (handler.messageReady connection side data).db = handler.db := by
  unfold messageReady
  split
  · rfl
  · cases handler.connMgr connection.flowKey <;> (dsimp only; split <;> rfl)

theorem messageReady_connMgr {key : UInt32} {flow : TcpFlowData}
    (known : (handler.messageReady connection side data).connMgr key = some flow) :
    handler.connMgr key = some flow ∨ flow = .initial := by
  unfold messageReady at known
  split at known
  · exact .inl known
  · cases present : handler.connMgr connection.flowKey with
    | some old =>
        rw [present] at known
        refine .inl ?_
        dsimp only at known
        split at known <;> exact known
    | none =>
        rw [present] at known
        have added : (handler.setFlow connection.flowKey .initial).connMgr key = some flow := by
          dsimp only at known
          split at known <;> exact known
        by_cases same : key = connection.flowKey
        · rw [same, setFlow_self] at added
          exact .inr (Option.some.inj added).symm
        · rw [setFlow_of_ne same] at added
          exact .inl added

end MessageReady

/-! ## Handling -/

theorem Handled.delivery {env : Environment} {info : NanoPacket} {before after : PacketHandler}
    (neverFails : env.NeverFails) (ready : before.db.Ready)
    (handled : before.Handled env info after) :
    ∃ flow world, before.connMgr info.flowKey = some flow ∧
      Delivery env info ⟨before.db, flow⟩ world ∧ after.db = world.db ∧
      after.connMgr = Function.update before.connMgr info.flowKey (some world.flow) := by
  obtain ⟨known, handles⟩ := handled
  have delivery := handles.delivery neverFails (by exact ready)
  exact ⟨_, _, known, delivery, rfl, rfl⟩

theorem Handled.ready {env : Environment} {info : NanoPacket} {before after : PacketHandler}
    (neverFails : env.NeverFails) (handled : before.Handled env info after)
    (ready : before.db.Ready) : after.db.Ready := by
  obtain ⟨flow, world, -, delivery, db, -⟩ := handled.delivery neverFails ready
  rw [db]
  exact delivery.ready ready

end PacketHandler

theorem Step.ready {env : Environment} {before after : PacketHandler} {event : Event}
    (neverFails : env.NeverFails) (step : Step env before event after)
    (ready : before.db.Ready) : after.db.Ready := by
  cases step with
  | connectionStart connection =>
      rw [PacketHandler.connectionStart_eq neverFails ready]
      exact ready.store env _
  | messageReady connection side data => simpa using ready
  | connectionEnd connection =>
      rw [PacketHandler.connectionEnd_eq neverFails ready]
      exact ready.store env _
  | handleNext queued handled => exact handled.ready neverFails (by exact ready)
  | flush =>
      rw [PacketHandler.callDb_flush neverFails ready]
      exact ready.flushed
  | destroyCaptureData =>
      rw [PacketHandler.callDb_destroyCaptureData neverFails ready]
      exact ready.destroyed
  | restart durable => exact Db.opened_ready _

theorem Run.ready {env : Environment} {before after : PacketHandler} {events : List Event}
    (neverFails : env.NeverFails) (run : Run env before events after)
    (ready : before.db.Ready) : after.db.Ready :=
  @Run.keeps env before after (fun handler => handler.db.Ready) (fun _ => True)
    (fun _ step => step.ready neverFails) events run (fun _ _ => trivial) ready

/-! ## What every stored request keeps -/

/-- The requests the callbacks and `handle_tcp` make of the database. -/
inductive Request.Arises : Request → Prop where
  | connection (event : String) : Arises (.connection event)
  | entry {request : Request} {mode : EnumMsgtype} : request.mode = some mode → Arises request
  | message {nano : Nano} {handling : Handling} : nano.handling = some handling →
      Arises handling.request

section Keeps

variable {env : Environment} {kept : Db → Prop}
  (stores : ∀ (request : Request) (info : NanoPacket) (flow : TcpFlowData) (db : Db),
    request.Arises → db.Ready → kept db →
      kept (db.store env (request.plan env info db.nextId flow)))
include stores

theorem Request.keeps_afterDetails {request : Request} (arises : request.Arises)
    {info : NanoPacket} {world : World} (ready : world.db.Ready) (holds : kept world.db) :
    kept (request.afterDetails env info world).db := by
  unfold Request.afterDetails
  split
  · exact stores request info world.flow world.db arises ready holds
  · exact holds

theorem Effects.keeps {info : NanoPacket} {world next : World}
    (effects : Effects env info world next) (ready : world.db.Ready) (holds : kept world.db) :
    kept next.db := by
  induction effects with
  | refl => exact holds
  | tail before effect induction =>
      have readyBefore := Effects.ready before ready
      cases effect with
      | taken request _ _ _ entry _ _ =>
          exact Request.keeps_afterDetails stores (.entry entry) readyBefore induction
      | ended event _ =>
          exact Request.keeps_afterDetails stores (.connection event) readyBefore induction

private theorem Nano.keeps_after {nano : Nano} {info : NanoPacket} {db : Db} (ready : db.Ready)
    (holds : kept db) : kept (nano.after env info db).db := by
  unfold Nano.after
  cases handled : nano.handling with
  | none => exact holds
  | some handling =>
      have announced : kept (handling.announced env info db).db := by
        unfold Handling.announced
        split
        · exact stores _ info handling.flow db (.connection handling.event) ready holds
        · exact holds
      exact stores _ info _ _ (.message handled) (Handling.ready_announced ready handling)
        announced

theorem Delivery.keeps {info : NanoPacket} {world next : World}
    (delivery : Delivery env info world next) (ready : world.db.Ready) (holds : kept world.db) :
    kept next.db := by
  cases delivery with
  | drained loop effects => exact Effects.keeps stores effects ready holds
  | stored message reads => exact Nano.keeps_after stores ready holds
  | rejected => exact holds

/-- What stored requests, commits, a destroy request and a restart keep, every
step keeps. -/
theorem Step.keeps (neverFails : env.NeverFails) {before after : PacketHandler} {event : Event}
    (flushes : event = .flush → kept before.db → kept before.db.flushed)
    (destroys : event = .destroyCaptureData → kept before.db → kept before.db.destroyed)
    (restarts : event = .restart → ∀ durable ∈ before.db.committed, kept before.db →
      kept (.opened durable))
    (step : Step env before event after) (ready : before.db.Ready) (holds : kept before.db) :
    kept after.db := by
  cases step with
  | connectionStart connection =>
      rw [PacketHandler.connectionStart_eq neverFails ready]
      exact stores _ _ .initial _ (.connection _) ready holds
  | messageReady connection side data => simpa using holds
  | connectionEnd connection =>
      rw [PacketHandler.connectionEnd_eq neverFails ready]
      exact stores _ _ .initial _ (.connection _) ready holds
  | handleNext queued handled =>
      obtain ⟨flow, world, -, delivery, db, -⟩ := handled.delivery neverFails (by exact ready)
      rw [db]
      exact delivery.keeps stores ready holds
  | flush =>
      rw [PacketHandler.callDb_flush neverFails ready]
      exact flushes rfl holds
  | destroyCaptureData =>
      rw [PacketHandler.callDb_destroyCaptureData neverFails ready]
      exact destroys rfl holds
  | restart durable => exact restarts rfl _ durable holds

end Keeps

/-! ## What every flow keeps -/

def PacketHandler.EveryFlow (property : TcpFlowData → Prop) (handler : PacketHandler) : Prop :=
  ∀ key flow, handler.connMgr key = some flow → property flow

section Flows

variable {env : Environment} {property : TcpFlowData → Prop}

theorem PacketHandler.EveryFlow.setFlow {handler : PacketHandler}
    (every : handler.EveryFlow property) (key : UInt32) {flow : TcpFlowData}
    (own : property flow) : (handler.setFlow key flow).EveryFlow property := by
  intro other found known
  by_cases same : other = key
  · rw [same, setFlow_self] at known
    exact Option.some.inj known ▸ own
  · rw [setFlow_of_ne same] at known
    exact every other found known

variable (handles : ∀ {info : NanoPacket} {before after : Handler},
  Handles env info before after → before.db.Ready → property before.flow → property after.flow)
include handles

theorem PacketHandler.Handled.everyFlow {info : NanoPacket} {before after : PacketHandler}
    (handled : before.Handled env info after) (ready : before.db.Ready)
    (every : before.EveryFlow property) : after.EveryFlow property := by
  obtain ⟨known, own⟩ := handled
  exact PacketHandler.EveryFlow.setFlow (by exact every) _
    (handles own (by exact ready) (every _ _ known))

/-- What a new flow has and the handling of a segment keeps, every flow keeps. -/
theorem Step.everyFlow (neverFails : env.NeverFails) (initially : property .initial)
    {before after : PacketHandler} {event : Event} (step : Step env before event after)
    (ready : before.db.Ready) (every : before.EveryFlow property) : after.EveryFlow property := by
  cases step with
  | connectionStart connection =>
      rw [PacketHandler.connectionStart_eq neverFails ready]
      exact PacketHandler.EveryFlow.setFlow (by exact every) _ initially
  | messageReady connection side data =>
      intro key flow known
      rcases PacketHandler.messageReady_connMgr before connection side data known with old | rfl
      · exact every key flow old
      · exact initially
  | connectionEnd connection =>
      rw [PacketHandler.connectionEnd_eq neverFails ready]
      exact fun key flow known => every key flow known
  | handleNext queued handled =>
      rename_i info rest
      exact @PacketHandler.Handled.everyFlow env property handles info
        { before with packetQueue := rest } after handled ready
        fun key flow known => every key flow known
  | flush =>
      rw [PacketHandler.callDb_flush neverFails ready]
      exact fun key flow known => every key flow known
  | destroyCaptureData =>
      rw [PacketHandler.callDb_destroyCaptureData neverFails ready]
      exact fun key flow known => every key flow known
  | restart durable =>
      intro key flow known
      cases known

end Flows

end Nanocap
