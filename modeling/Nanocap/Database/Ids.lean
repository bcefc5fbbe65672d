import Mathlib.Data.Set.Insert
import Nanocap.Database.Requests

/-! # Ids drawn and used

Every member function inserts rows under ids it has drawn itself, each of them
once: the id of a row is bound while the lock is held, and the statement is
executed before the lock is given up. -/

namespace Nanocap

open Put

/-! ## The discipline -/

/-- What a member function may rely on: whether it holds the lock, the ids it has
drawn and not used, and the id the statement of a table is bound to. -/
structure IdState where
  locked : Bool
  owned : Set Nat
  ready : Table → Option Nat

namespace IdState

def idle : IdState := ⟨false, ∅, fun _ => none⟩

def draw (state : IdState) (id : Nat) : IdState :=
  { state with owned := insert id state.owned }

def bind (state : IdState) (table : Table) (id : Nat) : IdState :=
  { state with ready := Function.update state.ready table (some id) }

def use (state : IdState) (id : Nat) : IdState :=
  { state with owned := state.owned \ {id} }

theorem mem_use {state : IdState} {id other : Nat} (owns : id ∈ state.owned)
    (different : id ≠ other) : id ∈ (state.use other).owned := ⟨owns, different⟩

@[simp] theorem ready_bind_self (state : IdState) (table : Table) (id : Nat) :
    (state.bind table id).ready table = some id := Function.update_self ..

theorem ready_bind_of_ne {table other : Table} (different : other ≠ table) (state : IdState)
    (id : Nat) : (state.bind table id).ready other = state.ready other :=
  Function.update_of_ne different ..

def acquire (state : IdState) : IdState := { state with locked := true, ready := fun _ => none }

def release (state : IdState) : IdState := { state with locked := false, ready := fun _ => none }

end IdState

/-- A row is inserted under an id that was drawn, not used, and bound under the
lock. -/
def idRule : (op : Op) → IdState → (op.Response → IdState → Prop) → Prop
  | .fetchAdd, state, after => ∀ id ∉ state.owned, after id (state.draw id)
  | .lock, state, after => after () state.acquire
  | .unlock, state, after => after () state.release
  | .bind table parameter value, state, after =>
      if parameter = .id then
        state.locked ∧ ∃ id ∈ state.owned, value = .nat id ∧ after () (state.bind table id)
      else after () state
  | .clearBindings table, state, after =>
      state.locked ∧ after () { state with ready := Function.update state.ready table none }
  | .exec table, state, after =>
      state.locked ∧ ∃ id ∈ state.owned, state.ready table = some id ∧ after () (state.use id)
  | _, state, after => ∀ response, after response state

def Put.UsesIds (put : Put Unit) : Prop :=
  ∀ state : IdState, put.Obeys idRule state fun _ _ => True

theorem obeys_op {α : Type} (op : Op) (rest : op.Response → Put α) (state : IdState)
    (after : α → IdState → Prop) :
    (Op.perform op >>= rest).Obeys idRule state after ↔
      idRule op state fun response state => (rest response).Obeys idRule state after :=
  Program.obeys_perform idRule op rest state after

/-! ## Shared parts -/

section Parts

variable {state : IdState} {table : Table} {id : Nat} {α : Type}
  {after : α → IdState → Prop}

theorem obeys_fetchAdd {rest : Nat → Put α}
    (holds : ∀ id ∉ state.owned, (rest id).Obeys idRule (state.draw id) after) :
    (fetchAdd >>= rest).Obeys idRule state after := (obeys_op .fetchAdd rest ..).mpr holds

theorem obeys_lock {rest : Unit → Put α} (holds : (rest ()).Obeys idRule state.acquire after) :
    (lock >>= rest).Obeys idRule state after := (obeys_op .lock rest ..).mpr holds

theorem obeys_other {op : Op} {rest : op.Response → Put α}
    (other : ∀ after : op.Response → IdState → Prop, idRule op state after ↔
      ∀ response, after response state)
    (holds : ∀ response, (rest response).Obeys idRule state after) :
    (Op.perform op >>= rest).Obeys idRule state after :=
  (obeys_op op rest ..).mpr ((other _).mpr holds)

theorem obeys_reset {rest : Unit → Put α} (holds : (rest ()).Obeys idRule state after) :
    (Put.reset table >>= rest).Obeys idRule state after :=
  @obeys_other _ _ _ (.reset table) rest (fun _ => Iff.rfl) fun _ => holds

theorem obeys_readFlow {rest : TcpFlowData → Put α}
    (holds : ∀ flow, (rest flow).Obeys idRule state after) :
    (readFlow >>= rest).Obeys idRule state after :=
  @obeys_other _ _ _ .readFlow rest (fun _ => Iff.rfl) holds

theorem obeys_unlock : unlock.Obeys idRule state fun _ _ => True := by
  have last := (obeys_op .unlock (fun _ => pure ()) state fun _ _ => True).mpr
    ((Program.obeys_done ..).mpr trivial)
  exact last

theorem obeys_bindAll {rest : Unit → Put α} {cells : List Cell}
    (noId : .id ∉ cells.map Prod.fst) (holds : (rest ()).Obeys idRule state after) :
    (bindAll table cells >>= rest).Obeys idRule state after := by
  induction cells with
  | nil => exact holds
  | cons cell cells induction =>
      obtain ⟨parameter, value⟩ := cell
      simp only [List.map_cons, List.mem_cons, not_or] at noId
      rw [bindAll, bind_assoc, obeys_op]
      simp only [idRule, if_neg (Ne.symm noId.1)]
      exact induction noId.2

section Owned

variable (locked : state.locked = true) (owns : id ∈ state.owned)
include locked owns

theorem obeys_bindAll_id {rest : Unit → Put α} {cells : List Cell}
    (noId : .id ∉ cells.map Prod.fst)
    (holds : (rest ()).Obeys idRule (state.bind table id) after) :
    (bindAll table ((.id, .nat id) :: cells) >>= rest).Obeys idRule state after := by
  rw [bindAll, bind_assoc, obeys_op]
  simp only [idRule, if_true]
  exact ⟨locked, id, owns, rfl, obeys_bindAll noId holds⟩

theorem obeys_exec {rest : Unit → Put α} (ready : state.ready table = some id)
    (holds : (rest ()).Obeys idRule (state.use id) after) :
    (exec table >>= rest).Obeys idRule state after :=
  (obeys_op (.exec table) rest ..).mpr ⟨locked, id, owns, ready, holds⟩

theorem obeys_insert {rest : Unit → Put α} {cells : List Cell}
    (noId : .id ∉ cells.map Prod.fst)
    (holds : (rest ()).Obeys idRule ((state.bind table id).use id) after) :
    (Put.insert table ((.id, .nat id) :: cells) >>= rest).Obeys idRule state after := by
  rw [Put.insert, bind_assoc]
  refine obeys_bindAll_id locked owns noId ?_
  rw [bind_assoc]
  refine obeys_exec (by exact locked) (by exact owns) (IdState.ready_bind_self ..) ?_
  exact obeys_reset holds

end Owned

theorem obeys_flushInternal {rest : Unit → Put α} (holds : (rest ()).Obeys idRule state after) :
    (flushInternal >>= rest).Obeys idRule state after := by
  rw [flushInternal, bind_assoc]
  exact obeys_other (fun _ => Iff.rfl) fun _ => obeys_other (fun _ => Iff.rfl) fun _ => holds

private theorem obeys_periodicCommit (env : Environment) {rest : Unit → Put α}
    (holds : (rest ()).Obeys idRule state after) :
    (periodicCommit env >>= rest).Obeys idRule state after := by
  rw [periodicCommit, bind_assoc]
  refine obeys_other (fun _ => Iff.rfl) fun nextId => ?_
  split
  · rw [bind_assoc]
    refine obeys_flushInternal ?_
    rw [bind_assoc]
    refine obeys_other (fun _ => Iff.rfl) fun pageSize => ?_
    rw [bind_assoc]
    refine obeys_other (fun _ => Iff.rfl) fun pageCount => ?_
    split
    · exact obeys_other (fun _ => Iff.rfl) fun _ => holds
    · exact holds
  · exact holds

theorem obeys_bindHeaderFields (env : Environment) (header : MessageHeader)
    (locked : state.locked = true) (owns : id ∈ state.owned) {rest : Unit → Put α}
    (holds : (rest ()).Obeys idRule (state.bind .packet id) after) :
    (bindHeaderFields env header id >>= rest).Obeys idRule state after := by
  rw [bindHeaderFields, bind_assoc]
  refine obeys_periodicCommit env ?_
  rw [bind_assoc, obeys_op]
  refine ⟨locked, ?_⟩
  rw [bind_assoc]
  refine obeys_bindAll_id (by exact locked) (by exact owns) (by simp) ?_
  have cleared : IdState.bind { state with
      ready := Function.update state.ready .packet none } .packet id = state.bind .packet id := by
    simp [IdState.bind]
  rw [cleared]
  exact obeys_other (fun _ => Iff.rfl) fun _ => holds

private theorem id_notMem_packetFields (info : NanoPacket) :
    .id ∉ info.packetFields.map Prod.fst := by
  unfold NanoPacket.packetFields
  split <;> simp

theorem obeys_bindPacketFields (info : NanoPacket) {rest : Unit → Put α}
    (holds : (rest ()).Obeys idRule state after) :
    (bindPacketFields info >>= rest).Obeys idRule state after := by
  have noId := id_notMem_packetFields info
  exact obeys_bindAll noId holds

theorem obeys_putHeader (env : Environment) (header : MessageHeader) (info : NanoPacket)
    (locked : state.locked = true) (owns : id ∈ state.owned) {rest : Unit → Put α}
    (holds : (rest ()).Obeys idRule ((state.bind .packet id).use id) after) :
    (putHeader env header info id >>= rest).Obeys idRule state after := by
  rw [putHeader, bind_assoc]
  refine obeys_bindHeaderFields env header locked owns ?_
  rw [bind_assoc]
  refine obeys_bindPacketFields info ?_
  exact obeys_exec (by exact locked) (by exact owns) (IdState.ready_bind_self ..) holds

theorem obeys_finish {state : IdState} :
    (do Put.reset .packet; unlock : Put Unit).Obeys idRule state fun _ _ => True :=
  obeys_reset obeys_unlock

theorem obeys_putBlock (env : Environment) (blockSelector : Option BlockSelector)
    (packetId : Nat) (locked : state.locked = true) (owns : id ∈ state.owned)
    {rest : String → Put α}
    (stored : ∀ name table, table ≠ .packet →
      (rest name).Obeys idRule ((state.bind table id).use id) after)
    (ignored : (rest "").Obeys idRule state after) :
    (putBlock env blockSelector id packetId >>= rest).Obeys idRule state after := by
  unfold putBlock
  cases storable env blockSelector with
  | none => exact ignored
  | some block =>
      have cells : ∃ others, block.cells env id packetId = (.id, .nat id) :: others ∧
          .id ∉ others.map Prod.fst := by
        cases block <;> exact ⟨_, rfl, by simp⟩
      obtain ⟨others, cells, noId⟩ := cells
      simp only [cells, bind_assoc]
      exact obeys_insert locked owns noId (stored _ _ block.table_ne_packet)

private theorem obeys_putPeers (env : Environment) (packetId : Nat) (peers : List Peer)
    (locked : state.locked = true) {rest : Unit → Put α}
    (holds : ∀ state : IdState, state.locked = true → (rest ()).Obeys idRule state after) :
    (putPeers env packetId peers >>= rest).Obeys idRule state after := by
  induction peers generalizing state with
  | nil => exact holds state locked
  | cons peer peers induction =>
      rw [putPeers, bind_assoc]
      refine obeys_fetchAdd fun id _ => ?_
      rw [bind_assoc]
      exact obeys_insert (by exact locked) (Set.mem_insert _ _) (by simp)
        (induction (by exact locked))

end Parts

/-! ## Member functions -/

section Functions

variable (env : Environment) (info : NanoPacket)

theorem putConnection_usesIds (event : String) : (putConnection info event).UsesIds :=
  fun _ => obeys_lock (obeys_fetchAdd fun _ _ =>
    obeys_insert rfl (Set.mem_insert _ _) (by simp) obeys_unlock)

theorem putHeader_usesIds (header : MessageHeader) {rest : Nat → Put Unit}
    (holds : ∀ packetId (state : IdState), state.locked = true →
      (rest packetId).Obeys idRule state fun _ _ => True) :
    (do let packetId ← fetchAdd
        lock
        putHeader env header info packetId
        rest packetId : Put Unit).UsesIds :=
  fun _ => obeys_fetchAdd fun _ _ => obeys_lock
    (obeys_putHeader env header info rfl (Set.mem_insert _ _) (holds _ _ rfl))

private theorem putTelemetryReq_usesIds (header : MessageHeader) :
    (putTelemetryReq env header info).UsesIds :=
  putHeader_usesIds env info header fun _ _ _ => obeys_finish

private theorem putTelemetryAck_usesIds (header : MessageHeader) (msg : MsgTelemetryAck) :
    (putTelemetryAck env header msg info).UsesIds :=
  putHeader_usesIds env info header fun _ _ locked => obeys_fetchAdd fun _ _ =>
    obeys_insert (by exact locked) (Set.mem_insert _ _) (by simp) obeys_finish

private theorem putKeepalive_usesIds (header : MessageHeader) (msg : MsgKeepalive) :
    (putKeepalive env header msg info).UsesIds :=
  putHeader_usesIds env info header fun _ _ locked =>
    obeys_putPeers env _ _ locked fun _ _ => obeys_finish

private theorem bindVoteContent_obeys (msg : MsgConfirmAck) {packetId : Nat} {state : IdState}
    (locked : state.locked = true) (owns : packetId ∈ state.owned)
    (ready : state.ready .packet = some packetId) {rest : Unit → Put Unit}
    (holds : ∀ state : IdState, state.locked = true → packetId ∈ state.owned →
      state.ready .packet = some packetId → (rest ()).Obeys idRule state fun _ _ => True) :
    (bindVoteContent env msg packetId >>= rest).Obeys idRule state fun _ _ => True := by
  unfold bindVoteContent
  cases msg.block with
  | none =>
      dsimp only
      split <;> exact obeys_bindAll (by simp) (holds state locked owns ready)
  | some block =>
      dsimp only
      rw [bind_assoc]
      refine obeys_fetchAdd fun blockId fresh => ?_
      have other : packetId ≠ blockId := fun same => fresh (same ▸ owns)
      have drawn : (state.draw blockId).locked = true := locked
      rw [bind_assoc]
      refine obeys_putBlock env (some block) packetId drawn (Set.mem_insert _ _) ?_ ?_
      · intro name table notPacket
        refine obeys_bindAll (by simp)
          (holds _ locked (IdState.mem_use (Set.mem_insert_of_mem _ owns) other) ?_)
        exact (IdState.ready_bind_of_ne notPacket.symm _ _).trans ready
      · exact obeys_bindAll (by simp)
          (holds _ drawn (Set.mem_insert_of_mem _ owns) ready)

private theorem putConfirmAck_usesIds (header : MessageHeader) (msg : MsgConfirmAck) :
    (putConfirmAck env header msg info).UsesIds := by
  refine fun _ => obeys_fetchAdd fun packetId _ => obeys_lock
    (obeys_bindHeaderFields env header rfl (Set.mem_insert _ _) (obeys_bindPacketFields info
      (bindVoteContent_obeys env msg rfl (Set.mem_insert _ _) (IdState.ready_bind_self ..) ?_)))
  intro state locked owns ready
  refine obeys_bindAll (by simp [VoteCommon.cells]) (obeys_fetchAdd fun voteId fresh => ?_)
  have other : packetId ≠ voteId := fun same => fresh (same ▸ owns)
  refine obeys_insert (by exact locked) (Set.mem_insert _ _) (by simp) (obeys_bindAll (by simp) ?_)
  refine obeys_exec (by exact locked) (IdState.mem_use (Set.mem_insert_of_mem _ owns) other) ?_
    obeys_finish
  exact (@IdState.ready_bind_of_ne .vote .packet (by simp) (state.draw voteId) voteId).trans ready

theorem putWithBlock_usesIds (header : MessageHeader) (blockSelector : Option BlockSelector) :
    (putWithBlock env header blockSelector info).UsesIds := by
  refine fun _ => obeys_fetchAdd fun packetId _ => obeys_lock
    (obeys_bindHeaderFields env header rfl (Set.mem_insert _ _) (obeys_bindPacketFields info
      (obeys_fetchAdd fun contentId fresh => ?_)))
  have other : packetId ≠ contentId := fun same => fresh (same ▸ Set.mem_insert _ _)
  have finish : ∀ (name : String) (state : IdState), state.locked = true →
      packetId ∈ state.owned → state.ready .packet = some packetId →
      (do bindAll .packet [(.contentId, .nat contentId), (.contentTable, .text name)]
          exec .packet
          Put.reset .packet
          unlock : Put Unit).Obeys idRule state fun _ _ => True :=
    fun _ _ locked owns ready => obeys_bindAll (by simp) (obeys_exec locked owns ready obeys_finish)
  generalize begins : IdState.bind _ .packet packetId = state
  have owns : packetId ∈ state.owned := begins ▸ Set.mem_insert _ _
  have ready : state.ready .packet = some packetId := begins ▸ IdState.ready_bind_self ..
  have locked : state.locked = true := begins ▸ rfl
  refine obeys_putBlock env blockSelector packetId (by exact locked) (Set.mem_insert _ _) ?_ ?_
  · intro name table notPacket
    refine finish name _ locked (IdState.mem_use (Set.mem_insert_of_mem _ owns) other) ?_
    exact (IdState.ready_bind_of_ne notPacket.symm _ _).trans ready
  · exact finish "" _ locked (Set.mem_insert_of_mem _ owns) ready

private theorem putNodeIdHandshake_usesIds (header : MessageHeader) (msg : MsgNodeIdHandshake) :
    (putNodeIdHandshake env header msg info).UsesIds := by
  refine putHeader_usesIds env info header fun packetId state locked => ?_
  have response : ∀ state : IdState, state.locked = true →
      (do putNodeIdResponse env packetId msg.response
          Put.reset .packet
          unlock : Put Unit).Obeys idRule state fun _ _ => True := by
    intro state locked
    cases msg.response with
    | none => exact obeys_finish
    | some response =>
        rw [putNodeIdResponse, bind_assoc]
        exact obeys_fetchAdd fun id _ =>
          obeys_insert (by exact locked) (Set.mem_insert _ _) (by simp) obeys_finish
  cases msg.query with
  | none => exact response state locked
  | some query =>
      rw [putNodeIdQuery, bind_assoc]
      exact obeys_fetchAdd fun id _ =>
        obeys_insert (by exact locked) (Set.mem_insert _ _) (by simp) (response _ locked)

theorem obeys_setPacketId {state : IdState} {id : Nat} {rest : Unit → Put Unit}
    (holds : (rest ()).Obeys idRule state fun _ _ => True) :
    (Op.perform (.setPacketId id) >>= rest).Obeys idRule state fun _ _ => True :=
  @obeys_other _ _ _ (.setPacketId id) rest (fun _ => Iff.rfl) fun _ => holds

theorem obeys_setMessageId {state : IdState} {id : Nat} {rest : Unit → Put Unit}
    (holds : (rest ()).Obeys idRule state fun _ _ => True) :
    (Op.perform (.setMessageId id) >>= rest).Obeys idRule state fun _ _ => True :=
  @obeys_other _ _ _ (.setMessageId id) rest (fun _ => Iff.rfl) fun _ => holds

private theorem putFrontierReq_usesIds (header : MessageHeader) (msg : MsgFrontierReq) :
    (putFrontierReq env header msg info).UsesIds :=
  fun _ => obeys_fetchAdd fun _ _ => obeys_setPacketId (obeys_lock
    (obeys_putHeader env header info rfl (Set.mem_insert _ _) (obeys_fetchAdd fun _ _ =>
      obeys_setMessageId (obeys_insert rfl (Set.mem_insert _ _) (by simp) obeys_finish))))

private theorem putBulkPull_usesIds (header : MessageHeader) (msg : MsgBulkPull) :
    (putBulkPull env header msg info).UsesIds :=
  fun _ => obeys_fetchAdd fun _ _ => obeys_setPacketId (obeys_lock
    (obeys_putHeader env header info rfl (Set.mem_insert _ _) (obeys_fetchAdd fun _ _ =>
      obeys_setMessageId (obeys_insert rfl (Set.mem_insert _ _) (by simp) obeys_finish))))

private theorem putBulkPullAccount_usesIds (header : MessageHeader) (msg : MsgBulkPullAccount) :
    (putBulkPullAccount env header msg info).UsesIds := by
  refine fun _ => obeys_fetchAdd fun packetId _ => obeys_setPacketId
    (obeys_fetchAdd fun messageId fresh => obeys_setMessageId (obeys_lock ?_))
  have other : messageId ≠ packetId := fun same => fresh (same ▸ Set.mem_insert _ _)
  refine obeys_putHeader env header info rfl (Set.mem_insert_of_mem _ (Set.mem_insert _ _)) ?_
  exact obeys_insert rfl (IdState.mem_use (Set.mem_insert _ _) other) (by simp) obeys_finish

private theorem putBulkPush_usesIds (header : MessageHeader) :
    (putBulkPush env header info).UsesIds :=
  fun _ => obeys_fetchAdd fun _ _ => obeys_setPacketId (obeys_lock
    (obeys_putHeader env header info rfl (Set.mem_insert _ _) obeys_finish))

theorem entry_usesIds (table : Table) (cells : Nat → TcpFlowData → List Cell)
    (noId : ∀ id flow, .id ∉ (cells id flow).map Prod.fst) :
    (Put.entry table fun id flow => (.id, .nat id) :: cells id flow).UsesIds :=
  fun _ => obeys_lock (obeys_fetchAdd fun _ _ => obeys_readFlow fun _ =>
    obeys_insert rfl (Set.mem_insert _ _) (noId _ _) obeys_unlock)

theorem putBulkEntry_usesIds (table : Table) (request : TcpFlowData → Cell)
    (noId : ∀ flow, (request flow).1 ≠ .id) (event : String) (block : BlockSelector) :
    (putBulkEntry env table request event block info).UsesIds := by
  refine fun _ => obeys_lock (obeys_fetchAdd fun blockId _ => obeys_readFlow fun flow => ?_)
  have next : ∀ (name : String) (state : IdState), state.locked = true →
      (do
        if name ≠ "" then
          insert table (referenceCells (request flow) (← fetchAdd) blockId name)
          unlock
        else
          unlock
          if (← Op.perform .addInvalidResponse) = 1 then putConnection info event :
        Put Unit).Obeys idRule state fun _ _ => True := by
    intro name state locked
    split
    · exact obeys_fetchAdd fun id _ => obeys_insert (by exact locked) (Set.mem_insert _ _)
        (by simpa using (noId flow).symm) obeys_unlock
    · refine (obeys_op .unlock _ state _).mpr (obeys_other (fun _ => Iff.rfl) fun count => ?_)
      split
      · exact putConnection_usesIds info event _
      · exact (Program.obeys_done ..).mpr trivial
  exact obeys_putBlock env (some block) _ rfl (Set.mem_insert _ _)
    (fun name table _ => next name _ rfl) (next "" _ rfl)

private theorem flush_usesIds : flush.UsesIds :=
  fun _ => obeys_lock (obeys_flushInternal obeys_unlock)

private theorem close_usesIds : close.UsesIds :=
  fun _ => obeys_lock (obeys_other (fun _ => Iff.rfl) fun _ => obeys_unlock)

private theorem obeys_deleteTables (tables : List Table) {state : IdState} {rest : Unit → Put Unit}
    (holds : (rest ()).Obeys idRule state fun _ _ => True) :
    (deleteTables tables >>= rest).Obeys idRule state fun _ _ => True := by
  induction tables with
  | nil => exact holds
  | cons table tables induction =>
      rw [deleteTables, bind_assoc]
      refine obeys_other (fun _ => Iff.rfl) fun _ => ?_
      rw [bind_assoc]
      exact obeys_flushInternal induction

private theorem destroyCaptureData_usesIds : destroyCaptureData.UsesIds :=
  fun _ => obeys_lock (obeys_other (fun _ => Iff.rfl) fun _ =>
    obeys_flushInternal (obeys_deleteTables Table.all (obeys_other (fun _ => Iff.rfl) fun _ =>
      obeys_flushInternal (obeys_other (fun _ => Iff.rfl) fun _ => obeys_unlock))))

private theorem Request.put_usesIds (request : Request) : (request.put env info).UsesIds := by
  cases request with
  | connection event => exact putConnection_usesIds info event
  | telemetryReq header => exact putTelemetryReq_usesIds env info header
  | telemetryAck header msg => exact putTelemetryAck_usesIds env info header msg
  | keepalive header msg => exact putKeepalive_usesIds env info header msg
  | confirmAck header msg => exact putConfirmAck_usesIds env info header msg
  | confirmReq header msg => exact putWithBlock_usesIds env info header msg.block
  | publish header msg => exact putWithBlock_usesIds env info header (some msg.body)
  | nodeIdHandshake header msg => exact putNodeIdHandshake_usesIds env info header msg
  | frontierReq header msg => exact putFrontierReq_usesIds env info header msg
  | bulkPull header msg => exact putBulkPull_usesIds env info header msg
  | bulkPullAccount header msg => exact putBulkPullAccount_usesIds env info header msg
  | bulkPush header => exact putBulkPush_usesIds env info header
  | frontierEntry entry => exact entry_usesIds _ _ fun _ _ => by simp
  | bulkPullEntry entry => exact putBulkEntry_usesIds env info _ _ (fun _ => by simp) _ entry.block
  | bulkPushEntry entry => exact putBulkEntry_usesIds env info _ _ (fun _ => by simp) _ entry.block
  | frontierBalanceEntry entry => exact entry_usesIds _ _ fun _ _ => by simp
  | bulkPullAccountEntry entry =>
      have noId : ∀ (id : Nat) (flow : TcpFlowData),
          .id ∉ ((entry.cells flow.requestFlags id flow.messageId).tail).map Prod.fst := by
        intro id flow
        unfold BulkPullAccountEntry.cells
        dsimp only
        split <;> split <;> simp
      exact entry_usesIds _ _ noId

/-- The member functions that change the database. -/
inductive MemberFunction : Put Unit → Prop where
  | put (request : Request) (info : NanoPacket) : MemberFunction (request.put env info)
  | flush : MemberFunction flush
  | destroyCaptureData : MemberFunction destroyCaptureData
  | close : MemberFunction close

theorem MemberFunction.usesIds {env : Environment} {put : Put Unit}
    (member : MemberFunction env put) : put.UsesIds := by
  cases member with
  | put request info => exact request.put_usesIds env info
  | flush => exact flush_usesIds
  | destroyCaptureData => exact destroyCaptureData_usesIds
  | close => exact close_usesIds

end Functions

end Nanocap
