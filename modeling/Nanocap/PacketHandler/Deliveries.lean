import Mathlib.Logic.Relation
import Nanocap.Database.Columns
import Nanocap.Foundation.Invariant
import Nanocap.PacketHandler.Progress
import Nanocap.PacketHandler.Responses

/-! # Deliveries to a working database

Between the drain loops and the database a segment has three kinds of effects: an
entry is taken, the end of a stream is reported, and a message is stored. What
they keep, `handle_tcp` keeps. -/

namespace Nanocap

open Loop (Control)

def Request.mode : Request → Option EnumMsgtype
  | frontierEntry _ => some .frontierReq
  | bulkPullEntry _ => some .bulkPull
  | bulkPushEntry _ => some .bulkPush
  | frontierBalanceEntry _ | bulkPullAccountEntry _ => some .bulkPullAccount
  | _ => none

def Request.pushLength : Request → Nat
  | bulkPushEntry ⟨_, .known block⟩ => block.entryWire.length
  | _ => 0

section Effects

variable (env : Environment) (info : NanoPacket)

/-- A request that is stored only with `bootstrap_details`. -/
def Request.afterDetails (request : Request) (world : World) : World :=
  if env.config.bootstrapDetails then request.after env info world else world

/-- The end of a stream has been reported and the flow is reset. -/
def reported (event : String) (world : World) : World where
  db := ((Request.connection event).afterDetails env info world).db
  flow := .initial

/-- The entry has been stored, and `count` bytes of the buffer are given up. -/
def entryTaken (request : Request) (count responseCount step : Nat) (world : World) : World :=
  let stored := request.afterDetails env info world
  { stored with flow := { stored.flow with
      responseCount, step
      accumulatedData := stored.flow.accumulatedData.eraseFront count } }

/-- One effect of a drain loop. -/
inductive Effect : World → World → Prop where
  | taken {world : World} (request : Request) (count responseCount step : Nat) :
      request.mode = some world.flow.currentMsgType → request.pushLength ≤ count →
      count ≤ world.flow.accumulatedData.size →
      Effect world (entryTaken env info request count responseCount step world)
  | ended {world : World} (event : String) : 0 < world.flow.accumulatedData.size →
      Effect world (reported env info event world)

abbrev Effects : World → World → Prop := Relation.ReflTransGen (Effect env info)

variable {env info} {world next : World}

theorem Request.ready_afterDetails (ready : world.db.Ready) (request : Request) :
    (request.afterDetails env info world).db.Ready := by
  unfold Request.afterDetails
  split
  · exact Request.ready_after ready request
  · exact ready

theorem Effect.ready (effect : Effect env info world next) (ready : world.db.Ready) :
    next.db.Ready := by
  cases effect with
  | taken request _ _ _ _ _ _ => exact Request.ready_afterDetails ready request
  | ended event _ => exact Request.ready_afterDetails ready (.connection event)

theorem Effects.ready (effects : Effects env info world next) (ready : world.db.Ready) :
    next.db.Ready := by
  induction effects with
  | refl => exact ready
  | tail _ effect induction => exact effect.ready induction

/-! ## Iterations -/

def Drains (env : Environment) (info : NanoPacket) (mode : EnumMsgtype)
    (iteration : Action Control) : Prop :=
  ∀ world, world.db.Ready → world.flow.currentMsgType = mode →
    Effects env info world (stateOf (iteration world))

section Iterations

variable (neverFails : env.NeverFails)
include neverFails

theorem whenBootstrapDetails_eq (ready : world.db.Ready) (request : Request) :
    whenBootstrapDetails env (request.put env info) world =
      .ok () (request.afterDetails env info world) := by
  unfold whenBootstrapDetails Request.afterDetails
  split
  · exact request.run_put neverFails info ready
  · rfl

theorem endResponse_eq (ready : world.db.Ready) (event : TcpFlowData → String) :
    endResponse env info event world =
      .ok () (reported env info (event world.flow) world) :=
  EStateM.bind_of_ok (whenBootstrapDetails_eq neverFails ready (.connection (event world.flow)))

theorem consumeEntry_eq (ready : world.db.Ready) (request : Request) (ks : KStream) :
    (do
      whenBootstrapDetails env (request.put env info)
      consumeEntry ks
      return .again : Action Control) world =
      .ok .again (entryTaken env info request ks.position
        ((request.afterDetails env info world).flow.responseCount + 1)
        (request.afterDetails env info world).flow.step world) :=
  EStateM.bind_of_ok (whenBootstrapDetails_eq neverFails ready request)

private theorem frontierIteration_drains :
    Drains env info .frontierReq (frontierIteration env info) := by
  intro world ready mode
  by_cases short : world.flow.accumulatedData.toList.length < 64
  · rw [frontierIteration_short env info short]
    exact .refl
  obtain ⟨entry, rest, -, bytes⟩ := FrontierEntry.codec.split (Nat.le_of_not_lt short)
  have enough : 64 ≤ world.flow.accumulatedData.size := Nat.le_of_not_lt short
  rw [frontierIteration_entry env info bytes]
  by_cases zero : allZero entry.account.val
  · have ended := @endResponse_eq env info world neverFails ready endOfFrontierReq
    have result : frontierRest env info entry ⟨64, []⟩ world =
        .ok .leave (reported env info (endOfFrontierReq world.flow) world) := by
      rw [frontierRest, if_pos zero]
      exact EStateM.bind_of_ok ended
    rw [catchRuntimeError_of_ok result]
    exact .single (.ended _ (by omega))
  · have taken := @consumeEntry_eq env info world neverFails ready (.frontierEntry entry) ⟨64, []⟩
    rw [frontierRest, if_neg zero, catchRuntimeError_of_ok (by exact taken)]
    exact .single (.taken (.frontierEntry entry) 64 _ _ (congrArg some mode.symm)
      (Nat.zero_le _) enough)

theorem bulkIteration_drains {Entry : Type} {name : String}
    {build : UInt8 → BlockSelector → Entry} {request : Entry → Request} {mode : EnumMsgtype}
    (stored : ∀ entry, (request entry).mode = some mode)
    (length : ∀ bytes entry stop, readBulkEntry build (.ofBytes bytes) = .ok entry stop →
      (request entry).pushLength ≤ stop.position) :
    Drains env info mode (bulkIteration env info name (readBulkEntry build)
      fun entry => (request entry).put env info) := by
  intro world ready current
  cases bytes : world.flow.accumulatedData.toList with
  | nil =>
      rw [bulkIteration_empty env info name build _ bytes]
      exact .refl
  | cons first rest =>
      have positive : 0 < world.flow.accumulatedData.size := by
        rw [CircularBuffer.size, bytes]
        exact Nat.succ_pos _
      rw [bulkIteration_cons env info name build _ bytes]
      split
      · have ended := @endResponse_eq env info world neverFails ready (endOfBulk name)
        rw [EStateM.bind_of_ok ended]
        exact .single (.ended _ positive)
      · cases read : readBulkEntry build (.ofBytes (first :: rest)) with
        | error exception stop =>
            have raises : (do
                let parsed ← construct (readBulkEntry build) (.ofBytes (first :: rest))
                bulkRest env (fun entry => (request entry).put env info) parsed.1 parsed.2)
                  world = .error exception world :=
              EStateM.bind_of_error (construct_of_error read)
            rw [catchRuntimeError, raises]
            cases exception <;> exact .refl
        | ok entry stop =>
            have taken := @consumeEntry_eq env info world neverFails ready (request entry) stop
            have body : (do
                let parsed ← construct (readBulkEntry build) (.ofBytes (first :: rest))
                bulkRest env (fun entry => (request entry).put env info) parsed.1 parsed.2)
                  world = _ := (EStateM.bind_of_ok (construct_of_ok read)).trans taken
            rw [catchRuntimeError_of_ok body]
            have consumes := readBulkEntry_consumes build _ _ _ read
            refine .single (.taken (request entry) stop.position _ _
              ((stored entry).trans (congrArg some current.symm)) (length _ _ _ read) ?_)
            rw [CircularBuffer.size, bytes, ← Nat.zero_add (first :: rest).length]
            exact Nat.le_of_add_right_le (Nat.le_of_eq consumes.1)

theorem accountEntry_drains {stream : KStream} (ready : world.db.Ready)
    (mode : world.flow.currentMsgType = .bulkPullAccount)
    (positive : stream.rest ≠ [] → 0 < world.flow.accumulatedData.size) :
    Effects env info world (stateOf (accountEntry env info stream world)) := by
  rcases (BulkPullAccountEntry.codec world.flow.requestFlags).cases stream with
    ⟨-, stopped, raises⟩ | ⟨entry, rest, layout, bytes, reads⟩
  · rw [accountEntry_of_error env info raises]
    exact .refl
  · rw [accountEntry_of_ok env info reads]
    unfold accountEntryRest
    split
    · rw [endResponse_eq neverFails ready]
      refine .single (.ended _ (positive fun empty => ?_))
      have length := (BulkPullAccountEntry.codec world.flow.requestFlags).length entry layout
      have size := BulkPullAccountEntry.size_pos world.flow.requestFlags
      rw [empty] at bytes
      rw [(List.append_eq_nil_iff.mp bytes.symm).1, List.length_nil] at length
      omega
    · have put := @whenBootstrapDetails_eq env info world neverFails ready
        (.bulkPullAccountEntry entry)
      rw [EStateM.bind_of_ok (by exact put)]
      exact .single (.taken (.bulkPullAccountEntry entry) 0 _ _ (congrArg some mode.symm)
        (Nat.zero_le _) (Nat.zero_le _))

private theorem accountIteration_drains :
    Drains env info .bulkPullAccount (accountIteration env info) := by
  intro world ready mode
  by_cases some : world.flow.accumulatedData.toList = []
  · rw [accountIteration_empty env info some]
    exact .refl
  have positive : 0 < world.flow.accumulatedData.size := List.length_pos_iff.mpr some
  have flow : getFlow world = .ok world.flow world := rfl
  by_cases one : world.flow.step = 1
  · rw [accountIteration_step_one env info one some, stateOf_catchRuntimeError,
      stateOf_bind_pure]
    exact accountEntry_drains neverFails ready mode fun _ => positive
  by_cases zero : world.flow.step = 0
  · by_cases short : world.flow.accumulatedData.toList.length < 48
    · rw [accountIteration_short env info zero some short]
      exact .refl
    obtain ⟨record, rest, -, bytes⟩ :=
      FrontierBalanceEntry.codec.split (Nat.le_of_not_lt short)
    have put := @whenBootstrapDetails_eq env info world neverFails ready
      (.frontierBalanceEntry record)
    rw [accountIteration_step_zero env info zero bytes, stateOf_catchRuntimeError,
      EStateM.bind_of_ok (by exact put)]
    let stored := (Request.frontierBalanceEntry record).afterDetails env info world
    have kept := whenBootstrapDetails_of_ok env put
    have effect : Effect env info world { stored with flow := consumeHeader stored.flow } :=
      .taken (.frontierBalanceEntry record) 48 _ _ (congrArg Option.some mode.symm)
        (Nat.zero_le _) (Nat.le_of_not_lt short)
    refine .head effect ?_
    have consumed : modifyFlow consumeHeader stored =
        .ok () { stored with flow := consumeHeader stored.flow } := rfl
    rw [EStateM.bind_of_ok consumed, stateOf_bind_pure]
    refine accountEntry_drains neverFails (effect.ready ready)
      (kept.currentMsgType.trans mode) fun behind => ?_
    have length := List.length_pos_iff.mpr behind
    rw [← bytes, length_memoryBehindHeader] at length
    change 0 < (stored.flow.accumulatedData.toList.drop 48).length
    rwa [kept.accumulatedData, List.length_drop]
  · rw [accountIteration_apply, if_neg some, stateOf_catchRuntimeError]
    simp only [accountBody, EStateM.bind_of_ok flow, if_neg zero, if_neg one, pure_bind]
    exact .refl

/-- Every drain loop has only such effects, and does nothing with an empty buffer. -/
theorem drainLoop_drains {mode : EnumMsgtype} {iteration : Action Control}
    (loop : drainLoop env info mode = some iteration) :
    Drains env info mode iteration ∧
      ∀ world : World, world.flow.accumulatedData.toList = [] →
        iteration world = .ok .leave world := by
  unfold drainLoop at loop
  split at loop <;> cases loop
  · exact ⟨frontierIteration_drains neverFails, fun world empty =>
      frontierIteration_short env info (by rw [empty]; decide)⟩
  · exact ⟨@bulkIteration_drains env info neverFails _ "bulk_pull" BulkPullEntry.mk
      Request.bulkPullEntry _ (fun _ => rfl) fun _ _ _ _ => Nat.zero_le _, fun world empty =>
      bulkIteration_empty env info _ _ _ empty⟩
  · refine ⟨@bulkIteration_drains env info neverFails _ "bulk_push" BulkPushEntry.mk
      Request.bulkPushEntry _ (fun _ => rfl) fun bytes entry stop read => ?_, fun world empty =>
      bulkIteration_empty env info _ _ _ empty⟩
    obtain ⟨blockType, selector, rfl, length⟩ := readBulkEntry_known read
    cases selector with
    | known block => exact Nat.le_of_eq ((length block rfl).trans (Nat.zero_add _)).symm
    | ignored _ _ => exact Nat.zero_le _
  · exact ⟨accountIteration_drains neverFails, fun world empty =>
      accountIteration_empty env info empty⟩

end Iterations

/-! ## Loops -/

theorem Request.flowAfter_rewritten (request : Request) (nextId : Nat) (flow : TcpFlowData) :
    flow.Rewritten (request.flowAfter env nextId flow) := by
  cases request <;> try rfl
  all_goals
    rename_i entry
    obtain ⟨blockType, block⟩ := entry
    simp only [Request.flowAfter]
    split <;> rfl

theorem Request.flowAfter_of_mode {request : Request} {mode : EnumMsgtype}
    (entry : request.mode = some mode) (nextId : Nat) (flow : TcpFlowData) :
    request.flowAfter env nextId flow = { flow with
      invalidResponseCount := (request.flowAfter env nextId flow).invalidResponseCount } := by
  cases request <;> cases entry <;> try rfl
  all_goals
    rename_i entry
    obtain ⟨blockType, block⟩ := entry
    simp only [Request.flowAfter]
    split <;> rfl

theorem Request.afterDetails_flow {request : Request} {mode : EnumMsgtype}
    (entry : request.mode = some mode) (world : World) :
    (request.afterDetails env info world).flow = { world.flow with
      invalidResponseCount :=
        (request.afterDetails env info world).flow.invalidResponseCount } := by
  unfold Request.afterDetails
  split
  · exact request.flowAfter_of_mode entry _ _
  · rfl

theorem Effects.mode (effects : Effects env info world next) :
    next.flow.currentMsgType = world.flow.currentMsgType ∨ next.flow = .initial := by
  induction effects with
  | refl => exact .inl rfl
  | @tail middle last _ effect induction =>
      cases effect with
      | ended event _ => exact .inr rfl
      | taken request count responseCount step entry _ _ =>
          rcases induction with same | reset
          · refine .inl (Eq.trans ?_ same)
            change (request.afterDetails env info middle).flow.currentMsgType = _
            rw [request.afterDetails_flow entry]
          · rw [reset] at entry
            cases request <;> cases entry

/-- A drain loop as a whole has the effects of its iterations. -/
theorem drainLoop_effects (neverFails : env.NeverFails) {iteration : Action Control}
    (loop : drainLoop env info world.flow.currentMsgType = some iteration)
    (ready : world.db.Ready) {result : EStateM.Result Exception World Unit}
    (returns : Loop.Returns iteration world result) :
    Effects env info world (stateOf result) := by
  obtain ⟨drains, nothing⟩ := drainLoop_drains neverFails loop
  have iterations : Keeps (Effects env info world) iteration := by
    intro next effects
    rcases effects.mode with same | reset
    · exact effects.trans (drains next (effects.ready ready) same)
    · rw [nothing next (by rw [reset]; rfl)]
      exact effects
  exact iterations.loop returns .refl

end Effects

/-! ## Segments -/

theorem Nano.handling_request {nano : Nano} {handling : Handling}
    (handled : nano.handling = some handling) :
    handling.request.header = some nano.header ∧
      handling.flow.currentMsgType = nano.header.messageType ∧
      handling.flow.accumulatedData = .empty ∧
      (handling.request = .bulkPush nano.header ∧ nano.header.messageType = .bulkPush ∨
        nano.header.messageType ≠ .bulkPush ∧
          nano.header.messageType.toUInt8 ≠ EnumMsgtype.bulkPush.toUInt8) := by
  obtain ⟨⟨_, _, _, _, messageType, _⟩, body⟩ := nano
  cases messageType <;> cases body <;> cases handled
  case bulkPush.bulkPush => exact ⟨rfl, rfl, rfl, .inl ⟨rfl, rfl⟩⟩
  all_goals exact ⟨rfl, rfl, rfl, .inr ⟨EnumMsgtype.noConfusion, by simp [EnumMsgtype.toUInt8]⟩⟩

/-- What a segment makes of a working database and its flow. -/
inductive Delivery (env : Environment) (info : NanoPacket) (before : World) : World → Prop where
  | drained {after : World} :
      (drainLoop env info before.flow.currentMsgType).isSome →
      Effects env info (accumulate info before) after → Delivery env info before after
  | stored {nano : Nano} {stop : KStream} :
      drainLoop env info before.flow.currentMsgType = none →
      Nano.read (.ofBytes info.data) = .ok nano stop →
      Delivery env info before (nano.after env info before.db)
  | rejected : Delivery env info before before

theorem Handles.cases {env : Environment} {info : NanoPacket} {before after : Handler}
    (neverFails : env.NeverFails) (ready : before.db.Ready)
    (handles : Handles env info before after) :
    (∃ iteration result, drainLoop env info before.flow.currentMsgType = some iteration ∧
      Loop.Returns iteration (accumulate info before.toWorld) result ∧
      after.toWorld = stateOf result) ∨
    (∃ nano stop, drainLoop env info before.flow.currentMsgType = none ∧
      Nano.read (.ofBytes info.data) = .ok nano stop ∧
      after.toWorld = nano.after env info before.db) ∨
    after.toWorld = before.toWorld := by
  cases loop : drainLoop env info before.flow.currentMsgType with
  | some iteration =>
      by_cases empty : info.data = []
      · -- an empty segment is read as a message, and holds none
        obtain ⟨fuel, result, processed, rfl⟩ := (handles_iff before after).mp handles
        unfold processSegment at processed
        rw [loop, empty] at processed
        cases processed
        rw [Handler.settle_toWorld, @handleSegment_of_error env info before.toWorld ⟨0, []⟩
          .runtimeError (by rw [empty]; rfl)]
        exact .inr (.inr rfl)
      · obtain ⟨result, returns, rfl⟩ := (handles_iff_drain loop empty).mp handles
        rw [Handler.settle_toWorld]
        exact .inl ⟨iteration, result, rfl, returns, rfl⟩
  | none =>
      obtain rfl := (handles_iff_message loop).mp handles
      rw [Handler.settle_toWorld]
      cases read : Nano.read (.ofBytes info.data) with
      | ok nano stop =>
          rw [handleSegment_of_ok neverFails info ready before.flow read]
          exact .inr (.inl ⟨nano, stop, rfl, rfl, rfl⟩)
      | error exception stop =>
          rw [handleSegment_of_error read]
          exact .inr (.inr rfl)

theorem Handles.delivery {env : Environment} {info : NanoPacket} {before after : Handler}
    (neverFails : env.NeverFails) (ready : before.db.Ready)
    (handles : Handles env info before after) :
    Delivery env info before.toWorld after.toWorld := by
  rcases handles.cases neverFails ready with
    ⟨iteration, result, loop, returns, left⟩ | ⟨nano, stop, message, reads, left⟩ | left
  · rw [left]
    exact .drained (by rw [loop]; rfl) (@drainLoop_effects env info
      (accumulate info before.toWorld) neverFails iteration loop ready result returns)
  · rw [left]
    exact .stored message reads
  · rw [left]
    exact .rejected

/-! ## What segments keep -/

theorem Delivery.ready {env : Environment} {info : NanoPacket} {before after : World}
    (delivery : Delivery env info before after) (ready : before.db.Ready) : after.db.Ready := by
  cases delivery with
  | drained loop effects => exact effects.ready ready
  | stored message reads => exact Nano.ready_after ready _
  | rejected => exact ready

section Rows

variable {env : Environment} {info : NanoPacket} {before after : World}

theorem Request.rows_afterDetails (request : Request) (world : World) :
    world.db.contents.rows <+: (request.afterDetails env info world).db.contents.rows := by
  unfold Request.afterDetails
  split
  · exact ⟨_, Db.store_rows.symm⟩
  · exact List.prefix_rfl

theorem Effects.rows (effects : Effects env info before after) :
    before.db.contents.rows <+: after.db.contents.rows := by
  induction effects with
  | refl => exact List.prefix_rfl
  | tail _ effect induction =>
      cases effect with
      | taken request _ _ _ _ _ _ => exact induction.trans (request.rows_afterDetails _)
      | ended event _ => exact induction.trans (Request.rows_afterDetails (.connection event) _)

private theorem Nano.rows_after (nano : Nano) (db : Db) :
    db.contents.rows <+: (nano.after env info db).db.contents.rows := by
  unfold Nano.after
  split
  · rename_i handling _
    obtain ⟨-, added, rows, -⟩ := @Handling.announced_spec env info handling db
    exact .trans ⟨_, rows.symm⟩ ⟨_, Db.store_rows.symm⟩
  · exact List.prefix_rfl

theorem Delivery.rows (delivery : Delivery env info before after) :
    before.db.contents.rows <+: after.db.contents.rows := by
  cases delivery with
  | drained loop effects =>
      have rows := Effects.rows effects
      exact rows
  | stored message reads => exact Nano.rows_after _ _
  | rejected => exact List.prefix_rfl

end Rows

theorem Handles.errors {env : Environment} {info : NanoPacket} {before after : Handler}
    (handles : Handles env info before after) :
    before.packetParseErrorCount ≤ after.packetParseErrorCount := by
  obtain ⟨fuel, result, processed, rfl⟩ := (handles_iff before after).mp handles
  rw [← before.checkMaxReached_packetParseErrorCount]
  cases result with
  | ok result world => exact Nat.le_refl _
  | error exception world =>
      cases exception with
      | runtimeError => exact Nat.le_succ _
      | outOfRange => exact Nat.le_refl _

theorem HandlesAll.grows {env : Environment} (neverFails : env.NeverFails)
    {segments : List NanoPacket} {before after : Handler}
    (handled : HandlesAll env segments before after) (ready : before.db.Ready) :
    before.db.contents.rows <+: after.db.contents.rows ∧
      before.packetParseErrorCount ≤ after.packetParseErrorCount := by
  induction handled with
  | nil handler => exact ⟨List.prefix_rfl, Nat.le_refl _⟩
  | cons handles _ induction =>
      have delivery := handles.delivery neverFails ready
      obtain ⟨rows, errors⟩ := induction (delivery.ready ready)
      exact ⟨delivery.rows.trans rows, Nat.le_trans handles.errors errors⟩

end Nanocap
