import Nanocap.Database.Effects
import Nanocap.Foundation.Invariant
import Nanocap.PacketHandler.HandleTcp
import Nanocap.Protocol.Wire

/-! # Iterations of the drain loops

What one iteration does, by the bytes at the front of the buffer. Nothing is
assumed of the database; its calls stay as they are. -/

namespace Nanocap

open Loop (Control)

/-! ## Actions -/

section Actions

variable {α : Type} {body handler : Action α} {world after : World}

theorem catchRuntimeError_of_ok {result : α} (returns : body world = .ok result after) :
    catchRuntimeError body handler world = .ok result after := by
  rw [catchRuntimeError, returns]

theorem catchRuntimeError_of_error (raises : body world = .error .runtimeError after) :
    catchRuntimeError body handler world = handler after := by
  rw [catchRuntimeError, raises]

theorem catchRuntimeError_congr {other : Action α} {start : World}
    (equal : body world = other start) :
    catchRuntimeError body handler world = catchRuntimeError other handler start := by
  rw [catchRuntimeError, equal]
  rfl

theorem stateOf_catchRuntimeError (result : α) :
    stateOf (catchRuntimeError body (pure result) world) = stateOf (body world) := by
  unfold catchRuntimeError
  split
  · rename_i stopped raises
    rw [raises]
    rfl
  · rfl

theorem stateOf_bind_pure {β : Type} (action : Action β) (result : α) :
    stateOf ((do
      let _ ← action
      return result : Action α) world) = stateOf (action world) := by
  rw [EStateM.bind_apply]
  cases action world <;> rfl

theorem construct_of_ok {value : α} {reader : Reader α} {stream stop : KStream}
    (reads : reader stream = .ok value stop) :
    construct reader stream world = .ok (value, stop) world := by
  rw [construct, reads]

theorem construct_of_error {reader : Reader α} {stream stop : KStream} {exception : Exception}
    (raises : reader stream = .error exception stop) :
    construct reader stream world = .error exception world := by
  rw [construct, raises]

theorem construct_eq_ok {value : α} {reader : Reader α} {stream stop : KStream}
    (returns : construct reader stream world = .ok (value, stop) after) :
    world = after ∧ reader stream = .ok value stop := by
  unfold construct at returns
  split at returns
  · rename_i read
    cases returns
    exact ⟨rfl, read⟩
  · cases returns

theorem catchRuntimeError_eq_ok {result : α} (never : ∀ state next, handler state ≠ .ok result next)
    (returns : catchRuntimeError body handler world = .ok result after) :
    body world = .ok result after := by
  unfold catchRuntimeError at returns
  split at returns
  · exact absurd returns (never _ _)
  · exact returns

/-! What actions keep -/

theorem getFlow_keeps (kept : World → Prop) : Keeps kept getFlow := fun _ holds => holds

theorem construct_keeps (kept : World → Prop) (reader : Reader α) (stream : KStream) :
    Keeps kept (construct reader stream) := by
  intro world holds
  unfold construct
  split <;> exact holds

theorem catchRuntimeError_keeps {kept : World → Prop} (first : Keeps kept body)
    (second : Keeps kept handler) : Keeps kept (catchRuntimeError body handler) := by
  intro world holds
  have middle := first world holds
  unfold catchRuntimeError
  split
  · rename_i stopped raises
    rw [raises] at middle
    exact second stopped middle
  · exact middle

end Actions

section Iterations

variable (env : Environment) (info : NanoPacket) {world : World}

/-! ## Frontiers -/

def frontierRest (entry : FrontierEntry) (ks : KStream) : Action Control := do
  if allZero entry.account.val then
    endResponse env info endOfFrontierReq
    return .leave
  whenBootstrapDetails env (putFrontierEntry env entry)
  consumeEntry ks
  return .again

def frontierFailed : Action Control := do
  modifyFlow fun flow => { flow with invalidResponseCount := flow.invalidResponseCount + 1 }
  return .leave

theorem frontierIteration_apply :
    frontierIteration env info world =
      (if world.flow.accumulatedData.toList.length < 64 then pure .leave
      else catchRuntimeError (do
        let parsed ← construct FrontierEntry.read
          (.ofBytes (world.flow.accumulatedData.toList.take 64))
        frontierRest env info parsed.1 parsed.2) frontierFailed) world := rfl

theorem frontierIteration_short (short : world.flow.accumulatedData.toList.length < 64) :
    frontierIteration env info world = .ok .leave world := by
  rw [frontierIteration_apply, if_pos short]
  rfl

theorem frontierIteration_entry {entry : FrontierEntry} {rest : List UInt8}
    (bytes : world.flow.accumulatedData.toList = entry.wire ++ rest) :
    frontierIteration env info world =
      catchRuntimeError (frontierRest env info entry ⟨64, []⟩) frontierFailed world := by
  have length := FrontierEntry.codec.length entry trivial
  have enough : ¬(entry.wire ++ rest).length < 64 := by
    rw [List.length_append]
    omega
  have front : (entry.wire ++ rest).take 64 = entry.wire := by
    rw [← length, List.take_left]
  have read := FrontierEntry.codec.reads entry trivial 0 []
  rw [List.append_nil, Nat.zero_add] at read
  rw [frontierIteration_apply, bytes, if_neg enough, front]
  have body : (do
      let parsed ← construct FrontierEntry.read (.ofBytes entry.wire)
      frontierRest env info parsed.1 parsed.2) world =
        frontierRest env info entry ⟨64, []⟩ world :=
    EStateM.bind_of_ok (construct_of_ok read)
  rw [catchRuntimeError, catchRuntimeError, body]

/-! ## Bulk transfers -/

section Bulk

variable {Entry : Type} (name : String) (build : UInt8 → BlockSelector → Entry)
  (put : Entry → Put Unit)

def bulkRest (entry : Entry) (ks : KStream) : Action Control := do
  whenBootstrapDetails env (put entry)
  consumeEntry ks
  return .again

theorem bulkIteration_empty (bytes : world.flow.accumulatedData.toList = []) :
    bulkIteration env info name (readBulkEntry build) put world = .ok .leave world := by
  unfold bulkIteration
  simp only [getFlow, EStateM.bind_apply, bytes]
  rfl

theorem bulkIteration_cons {first : UInt8} {rest : List UInt8}
    (bytes : world.flow.accumulatedData.toList = first :: rest) :
    bulkIteration env info name (readBulkEntry build) put world =
      (if EnumBlocktype.ofUInt8 first = .notABlock then (do
        endResponse env info (endOfBulk name)
        return .leave)
      else catchRuntimeError (do
        let parsed ← construct (readBulkEntry build) (.ofBytes (first :: rest))
        bulkRest env put parsed.1 parsed.2) (pure .leave)) world := by
  unfold bulkIteration
  simp only [getFlow, EStateM.bind_apply, bytes]
  rfl

end Bulk

/-! ## Responses to bulk_pull_account -/

def accountBody (buffer : List UInt8) : Action Control := do
  let stream ←
    if (← getFlow).step = 0 then accountHeader env (.ofBytes buffer)
    else pure (.ofBytes buffer)
  if (← getFlow).step = 1 then accountEntry env info stream
  return .again

theorem accountIteration_apply :
    accountIteration env info world =
      (if world.flow.accumulatedData.toList = [] then pure .leave
      else catchRuntimeError (accountBody env info world.flow.accumulatedData.toList)
        (pure .leave)) world := rfl

theorem accountIteration_empty (bytes : world.flow.accumulatedData.toList = []) :
    accountIteration env info world = .ok .leave world := by
  rw [accountIteration_apply, if_pos bytes]
  rfl

/-- The stream behind the header record, over the memory that the erasure has
shifted. -/
def memoryBehindHeader (buffer : List UInt8) : KStream :=
  ⟨48, (CircularBuffer.memoryAfterErase buffer 48).drop 48⟩

@[simp] theorem length_memoryBehindHeader (buffer : List UInt8) :
    (memoryBehindHeader buffer).rest.length = buffer.length - 48 := by
  simp only [memoryBehindHeader, CircularBuffer.memoryAfterErase, List.length_drop,
    List.length_append]
  omega

def consumeHeader (flow : TcpFlowData) : TcpFlowData :=
  { flow with
    accumulatedData := flow.accumulatedData.eraseFront 48
    step := flow.step + 1 }

theorem accountHeader_apply {entry : FrontierBalanceEntry} {rest : List UInt8} :
    accountHeader env (.ofBytes (entry.wire ++ rest)) world =
      (do
        whenBootstrapDetails env (putFrontierBalanceEntry entry)
        modifyFlow consumeHeader
        return memoryBehindHeader (entry.wire ++ rest)) world := by
  have read := FrontierBalanceEntry.codec.reads entry trivial 0 rest
  rw [Nat.zero_add] at read
  have parsed := @construct_of_ok _ world _ _ _ _ read
  rw [accountHeader, KStream.ofBytes, EStateM.bind_of_ok parsed]
  rfl

theorem accountHeader_short {buffer : List UInt8} (short : buffer.length < 48) :
    accountHeader env (.ofBytes buffer) world = .error .runtimeError world := by
  obtain ⟨stopped, raises⟩ := FrontierBalanceEntry.codec.throws (.ofBytes buffer) short
  exact EStateM.bind_of_error (construct_of_error raises)

def accountEntryRest (entry : BulkPullAccountEntry) : Action Unit :=
  if allZero (BulkPullAccountEntry.part entry.source) ∨
      allZero (BulkPullAccountEntry.part entry.hash) then
    endResponse env info (endOfBulk "bulk_pull_account")
  else do
    whenBootstrapDetails env (putBulkPullAccountEntry entry)
    modifyFlow fun flow => { flow with responseCount := flow.responseCount + 1 }

theorem accountEntry_of_ok {stream stop : KStream} {entry : BulkPullAccountEntry}
    (reads : BulkPullAccountEntry.read world.flow.requestFlags stream = .ok entry stop) :
    accountEntry env info stream world = accountEntryRest env info entry world := by
  have parsed := @construct_of_ok _ world _ _ _ _ reads
  exact EStateM.bind_of_ok parsed

theorem accountEntry_of_error {stream stop : KStream} {exception : Exception}
    (raises : BulkPullAccountEntry.read world.flow.requestFlags stream = .error exception stop) :
    accountEntry env info stream world = .error exception world := by
  have failed := @construct_of_error _ world _ _ _ _ raises
  have flow : getFlow world = .ok world.flow world := rfl
  rw [accountEntry, EStateM.bind_of_ok flow]
  exact EStateM.bind_of_error failed

end Iterations

/-! ## What iterations keep

An iteration keeps what the end of its response and the handling of its entry keep. -/

section Kept

variable {env : Environment} {info : NanoPacket} {kept : World → Prop}

theorem frontierIteration_keeps (ends : Keeps kept (endResponse env info endOfFrontierReq))
    (stores : ∀ entry, Keeps kept (whenBootstrapDetails env (putFrontierEntry env entry)))
    (consumes : ∀ ks, Keeps kept (consumeEntry ks)) (fails : Keeps kept frontierFailed) :
    Keeps kept (frontierIteration env info) := by
  intro world holds
  rw [frontierIteration_apply]
  refine Keeps.ite (fun _ => .pure _) (fun _ => catchRuntimeError_keeps ?_ fails) world holds
  refine (construct_keeps _ _ _).bind fun parsed => Keeps.ite (fun _ => ?_) fun _ => ?_
  · exact ends.bind fun _ => .pure _
  · exact (stores _).bind fun _ => (consumes _).bind fun _ => .pure _

theorem bulkIteration_keeps {Entry : Type} {name : String}
    {build : UInt8 → BlockSelector → Entry} {put : Entry → Put Unit}
    (ends : Keeps kept (endResponse env info (endOfBulk name)))
    (stores : ∀ entry, Keeps kept (whenBootstrapDetails env (put entry)))
    (consumes : ∀ ks, Keeps kept (consumeEntry ks)) :
    Keeps kept (bulkIteration env info name (readBulkEntry build) put) := by
  intro world holds
  cases bytes : world.flow.accumulatedData.toList with
  | nil =>
      rw [bulkIteration_empty env info name build put bytes]
      exact holds
  | cons first rest =>
      rw [bulkIteration_cons env info name build put bytes]
      refine Keeps.ite (fun _ => ?_) (fun _ => catchRuntimeError_keeps ?_ (.pure _)) world holds
      · exact ends.bind fun _ => .pure _
      · exact (construct_keeps _ _ _).bind fun parsed =>
          (stores _).bind fun _ => (consumes _).bind fun _ => .pure _

def countEntry (flow : TcpFlowData) : TcpFlowData :=
  { flow with responseCount := flow.responseCount + 1 }

theorem accountEntry_keeps
    (ends : Keeps kept (endResponse env info (endOfBulk "bulk_pull_account")))
    (stores : ∀ entry, Keeps kept (whenBootstrapDetails env (putBulkPullAccountEntry entry)))
    (counts : Keeps kept (modifyFlow countEntry)) (stream : KStream) :
    Keeps kept (accountEntry env info stream) :=
  (getFlow_keeps _).bind fun _ => (construct_keeps _ _ _).bind fun _ =>
    Keeps.ite (fun _ => ends) fun _ => (stores _).bind fun _ => counts

theorem handleMessage_keeps {event : String} {put : Put Unit} {messageType : EnumMsgtype}
    (resets : Keeps kept (modifyFlow fun _ => .reset messageType))
    (connects : Keeps kept ((putConnection info event).run env))
    (stores : Keeps kept (put.run env)) :
    Keeps kept (handleMessage env messageType event put info) := by
  refine resets.bind fun _ => ?_
  split
  · exact connects.bind fun _ => stores
  · exact stores

end Kept

end Nanocap
