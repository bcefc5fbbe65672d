import Nanocap.Database.Effects
import Nanocap.Database.Ids

/-! # Critical sections

A member function commits before it inserts its first row, or not at all, so that a
commit never comes between two rows inserted under one hold of the lock. -/

namespace Nanocap

open Put

/-! ## The discipline -/

/-- Where a thread is in its critical section: outside, inside without a row inserted,
inside with rows inserted, or between a commit and the next transaction. -/
inductive SectionState where
  | outside
  | fresh
  | written
  | between
deriving DecidableEq

/-- Inside, with a transaction that takes rows. -/
def SectionState.Open (state : SectionState) : Prop := state = fresh ∨ state = written

/-- Rows are inserted inside, and a commit comes before the first of them. Nothing is
deleted. -/
def sectionRule : (op : Op) → SectionState → (op.Response → SectionState → Prop) → Prop
  | .lock, state, after => state = .outside ∧ after () .fresh
  | .unlock, state, after => state.Open ∧ after () .outside
  | .exec _, state, after => state.Open ∧ after () .written
  | .commit, state, after => state = .fresh ∧ after () .between
  | .beginTransaction, state, after => state = .between ∧ after () .fresh
  | .deleteFrom _, _, _ | .deleteRuns, _, _ | .insertRun, _, _ => False
  | _, state, after => state ≠ .between ∧ ∀ response, after response state

def Put.Whole (put : Put Unit) : Prop :=
  put.Obeys sectionRule .outside fun _ state => state = .outside

theorem whole_op {α : Type} (op : Op) (rest : op.Response → Put α) (state : SectionState)
    (after : α → SectionState → Prop) :
    (Op.perform op >>= rest).Obeys sectionRule state after ↔
      sectionRule op state fun response state => (rest response).Obeys sectionRule state after :=
  Program.obeys_perform sectionRule op rest state after

theorem SectionState.Open.ne {state : SectionState} (opened : state.Open) : state ≠ .between := by
  rcases opened with rfl | rfl <;> simp

theorem SectionState.Open.ne_outside {state : SectionState} (opened : state.Open) :
    state ≠ .outside := by
  rcases opened with rfl | rfl <;> simp

theorem SectionState.fresh_open : SectionState.fresh.Open := .inl rfl

theorem SectionState.written_open : SectionState.written.Open := .inr rfl

/-! ## Shared parts -/

section Parts

variable {state : SectionState} {table : Table} {α : Type} {after : α → SectionState → Prop}

theorem whole_other {op : Op} {rest : op.Response → Put α} (inTransaction : state ≠ .between)
    (other : ∀ after : op.Response → SectionState → Prop, sectionRule op state after ↔
      state ≠ .between ∧ ∀ response, after response state)
    (holds : ∀ response, (rest response).Obeys sectionRule state after) :
    (Op.perform op >>= rest).Obeys sectionRule state after :=
  (whole_op op rest ..).mpr ((other _).mpr ⟨inTransaction, holds⟩)

theorem whole_fetchAdd {rest : Nat → Put α} (inTransaction : state ≠ .between)
    (holds : ∀ id, (rest id).Obeys sectionRule state after) :
    (fetchAdd >>= rest).Obeys sectionRule state after :=
  @whole_other _ _ _ .fetchAdd rest inTransaction (fun _ => Iff.rfl) holds

theorem whole_readFlow {rest : TcpFlowData → Put α} (inTransaction : state ≠ .between)
    (holds : ∀ flow, (rest flow).Obeys sectionRule state after) :
    (readFlow >>= rest).Obeys sectionRule state after :=
  @whole_other _ _ _ .readFlow rest inTransaction (fun _ => Iff.rfl) holds

theorem whole_lock {rest : Unit → Put α} (holds : (rest ()).Obeys sectionRule .fresh after) :
    (lock >>= rest).Obeys sectionRule .outside after :=
  (whole_op .lock rest ..).mpr ⟨rfl, holds⟩

theorem whole_bindAll {rest : Unit → Put α} (inTransaction : state ≠ .between)
    (cells : List Cell) (holds : (rest ()).Obeys sectionRule state after) :
    (bindAll table cells >>= rest).Obeys sectionRule state after := by
  induction cells with
  | nil => exact holds
  | cons cell cells induction =>
      rw [bindAll, bind_assoc]
      exact whole_other inTransaction (fun _ => Iff.rfl) fun _ => induction

theorem whole_flushInternal {rest : Unit → Put α}
    (holds : (rest ()).Obeys sectionRule .fresh after) :
    (flushInternal >>= rest).Obeys sectionRule .fresh after := by
  rw [flushInternal, bind_assoc]
  exact (whole_op .commit _ ..).mpr ⟨rfl, (whole_op .beginTransaction _ ..).mpr ⟨rfl, holds⟩⟩

private theorem whole_periodicCommit (env : Environment) {rest : Unit → Put α}
    (holds : (rest ()).Obeys sectionRule .fresh after) :
    (periodicCommit env >>= rest).Obeys sectionRule .fresh after := by
  rw [periodicCommit, bind_assoc]
  refine whole_other (by simp) (fun _ => Iff.rfl) fun nextId => ?_
  split
  · rw [bind_assoc]
    refine whole_flushInternal ?_
    rw [bind_assoc]
    refine whole_other (by simp) (fun _ => Iff.rfl) fun pageSize => ?_
    rw [bind_assoc]
    refine whole_other (by simp) (fun _ => Iff.rfl) fun pageCount => ?_
    split
    · exact whole_other (by simp) (fun _ => Iff.rfl) fun _ => holds
    · exact holds
  · exact holds

theorem whole_bindHeaderFields (env : Environment) (header : MessageHeader) (id : Nat)
    {rest : Unit → Put α} (holds : (rest ()).Obeys sectionRule .fresh after) :
    (bindHeaderFields env header id >>= rest).Obeys sectionRule .fresh after := by
  rw [bindHeaderFields, bind_assoc]
  refine whole_periodicCommit env ?_
  rw [bind_assoc]
  refine whole_other (by simp) (fun _ => Iff.rfl) fun _ => ?_
  rw [bind_assoc]
  exact whole_bindAll (by simp) _ (whole_other (by simp) (fun _ => Iff.rfl) fun _ => holds)

section Open

variable (opened : state.Open)
include opened

theorem whole_unlock : unlock.Obeys sectionRule state fun _ state => state = .outside := by
  have last := (whole_op .unlock (fun _ => pure ()) state fun _ state => state = .outside).mpr
    ⟨opened, (Program.obeys_done ..).mpr rfl⟩
  exact last

theorem whole_finish :
    (do Put.reset .packet; unlock : Put Unit).Obeys sectionRule state fun _ state =>
      state = .outside :=
  whole_other opened.ne (fun _ => Iff.rfl) fun _ => whole_unlock opened

theorem whole_exec {rest : Unit → Put α} (holds : (rest ()).Obeys sectionRule .written after) :
    (exec table >>= rest).Obeys sectionRule state after :=
  (whole_op (.exec table) rest ..).mpr ⟨opened, holds⟩

theorem whole_insert {rest : Unit → Put α} (cells : List Cell)
    (holds : (rest ()).Obeys sectionRule .written after) :
    (Put.insert table cells >>= rest).Obeys sectionRule state after := by
  rw [Put.insert, bind_assoc]
  refine whole_bindAll opened.ne cells ?_
  rw [bind_assoc]
  exact whole_exec opened (whole_other (by simp) (fun _ => Iff.rfl) fun _ => holds)

theorem whole_putBlock (env : Environment) (blockSelector : Option BlockSelector)
    (id packetId : Nat) {rest : String → Put α}
    (holds : ∀ name state, state.Open → (rest name).Obeys sectionRule state after) :
    (putBlock env blockSelector id packetId >>= rest).Obeys sectionRule state after := by
  unfold putBlock
  cases storable env blockSelector with
  | none => exact holds "" state opened
  | some block =>
      simp only [bind_assoc]
      exact whole_insert opened _ (holds _ _ SectionState.written_open)

end Open

theorem whole_putHeader (env : Environment) (header : MessageHeader) (info : NanoPacket)
    (id : Nat) {rest : Unit → Put α} (holds : (rest ()).Obeys sectionRule .written after) :
    (putHeader env header info id >>= rest).Obeys sectionRule .fresh after := by
  rw [putHeader, bind_assoc]
  refine whole_bindHeaderFields env header id ?_
  rw [bind_assoc]
  exact whole_bindAll (by simp) _ (whole_exec SectionState.fresh_open holds)

private theorem whole_putPeers (env : Environment) (packetId : Nat) (peers : List Peer)
    {rest : Unit → Put α} (holds : (rest ()).Obeys sectionRule .written after) :
    (putPeers env packetId peers >>= rest).Obeys sectionRule .written after := by
  induction peers with
  | nil => exact holds
  | cons peer peers induction =>
      rw [putPeers, bind_assoc]
      refine whole_fetchAdd (by simp) fun id => ?_
      rw [bind_assoc]
      exact whole_insert SectionState.written_open _ induction

end Parts

/-! ## Member functions -/

section Functions

variable (env : Environment) (info : NanoPacket)

theorem putConnection_whole (event : String) : (putConnection info event).Whole :=
  whole_lock (whole_fetchAdd (by simp) fun _ =>
    whole_insert SectionState.fresh_open _ (whole_unlock SectionState.written_open))

theorem putHeader_whole (header : MessageHeader) {rest : Nat → Put Unit}
    (holds : ∀ packetId, (rest packetId).Obeys sectionRule .written fun _ state =>
      state = .outside) :
    (do let packetId ← fetchAdd
        lock
        putHeader env header info packetId
        rest packetId : Put Unit).Whole :=
  whole_fetchAdd (by simp) fun packetId =>
    whole_lock (whole_putHeader env header info packetId (holds packetId))

private theorem putTelemetryAck_whole (header : MessageHeader) (msg : MsgTelemetryAck) :
    (putTelemetryAck env header msg info).Whole :=
  putHeader_whole env info header fun _ => whole_fetchAdd (by simp) fun _ =>
    whole_insert SectionState.written_open _ (whole_finish SectionState.written_open)

private theorem putKeepalive_whole (header : MessageHeader) (msg : MsgKeepalive) :
    (putKeepalive env header msg info).Whole :=
  putHeader_whole env info header fun _ =>
    whole_putPeers env _ _ (whole_finish SectionState.written_open)

private theorem whole_bindVoteContent (msg : MsgConfirmAck) (packetId : Nat) {state : SectionState}
    (opened : state.Open) {rest : Unit → Put Unit} {after : Unit → SectionState → Prop}
    (holds : ∀ state : SectionState, state.Open → (rest ()).Obeys sectionRule state after) :
    (bindVoteContent env msg packetId >>= rest).Obeys sectionRule state after := by
  unfold bindVoteContent
  cases msg.block with
  | none =>
      dsimp only
      split <;> exact whole_bindAll opened.ne _ (holds state opened)
  | some block =>
      dsimp only
      rw [bind_assoc]
      refine whole_fetchAdd opened.ne fun blockId => ?_
      rw [bind_assoc]
      exact whole_putBlock opened env _ _ _ fun name state opened =>
        whole_bindAll opened.ne _ (holds state opened)

private theorem putConfirmAck_whole (header : MessageHeader) (msg : MsgConfirmAck) :
    (putConfirmAck env header msg info).Whole := by
  refine whole_fetchAdd (by simp) fun packetId => whole_lock
    (whole_bindHeaderFields env header packetId (whole_bindAll (by simp) _
      (whole_bindVoteContent env msg packetId SectionState.fresh_open fun state opened => ?_)))
  refine whole_bindAll opened.ne _ (whole_fetchAdd opened.ne fun voteId => ?_)
  exact whole_insert opened _ (whole_bindAll (by simp) _
    (whole_exec SectionState.written_open (whole_finish SectionState.written_open)))

theorem putWithBlock_whole (header : MessageHeader) (blockSelector : Option BlockSelector) :
    (putWithBlock env header blockSelector info).Whole := by
  refine whole_fetchAdd (by simp) fun packetId => whole_lock
    (whole_bindHeaderFields env header packetId (whole_bindAll (by simp) _
      (whole_fetchAdd (by simp) fun contentId => ?_)))
  exact whole_putBlock SectionState.fresh_open env _ _ _ fun name state opened =>
    whole_bindAll opened.ne _ (whole_exec opened (whole_finish SectionState.written_open))

private theorem putNodeIdHandshake_whole (header : MessageHeader) (msg : MsgNodeIdHandshake) :
    (putNodeIdHandshake env header msg info).Whole := by
  refine putHeader_whole env info header fun packetId => ?_
  have response : (do putNodeIdResponse env packetId msg.response
                      Put.reset .packet
                      unlock : Put Unit).Obeys sectionRule .written fun _ state =>
      state = .outside := by
    cases msg.response with
    | none => exact whole_finish SectionState.written_open
    | some response =>
        rw [putNodeIdResponse, bind_assoc]
        exact whole_fetchAdd (by simp) fun id =>
          whole_insert SectionState.written_open _ (whole_finish SectionState.written_open)
  cases msg.query with
  | none => exact response
  | some query =>
      rw [putNodeIdQuery, bind_assoc]
      exact whole_fetchAdd (by simp) fun id =>
        whole_insert SectionState.written_open _ response

theorem putRequest_whole (header : MessageHeader) (table : Table)
    (cells : Nat → Nat → List Cell) :
    (do let packetId ← fetchAdd
        Op.perform (.setPacketId packetId)
        lock
        putHeader env header info packetId
        let messageId ← fetchAdd
        Op.perform (.setMessageId messageId)
        insert table (cells messageId packetId)
        Put.reset .packet
        unlock : Put Unit).Whole :=
  whole_fetchAdd (by simp) fun packetId => whole_other (by simp) (fun _ => Iff.rfl) fun _ =>
    whole_lock (whole_putHeader env header info packetId (whole_fetchAdd (by simp) fun messageId =>
      whole_other (by simp) (fun _ => Iff.rfl) fun _ =>
        whole_insert SectionState.written_open _ (whole_finish SectionState.written_open)))

private theorem putBulkPullAccount_whole (header : MessageHeader) (msg : MsgBulkPullAccount) :
    (putBulkPullAccount env header msg info).Whole :=
  whole_fetchAdd (by simp) fun packetId => whole_other (by simp) (fun _ => Iff.rfl) fun _ =>
    whole_fetchAdd (by simp) fun messageId => whole_other (by simp) (fun _ => Iff.rfl) fun _ =>
      whole_lock (whole_putHeader env header info packetId
        (whole_insert SectionState.written_open _ (whole_finish SectionState.written_open)))

private theorem putBulkPush_whole (header : MessageHeader) : (putBulkPush env header info).Whole :=
  whole_fetchAdd (by simp) fun packetId => whole_other (by simp) (fun _ => Iff.rfl) fun _ =>
    whole_lock (whole_putHeader env header info packetId (whole_finish SectionState.written_open))

theorem entry_whole (table : Table) (cells : Nat → TcpFlowData → List Cell) :
    (Put.entry table cells).Whole :=
  whole_lock (whole_fetchAdd (by simp) fun _ => whole_readFlow (by simp) fun _ =>
    whole_insert SectionState.fresh_open _ (whole_unlock SectionState.written_open))

/-- The block and the reference to it are inserted in one section; the report of an
entry without a block has a section of its own. -/
theorem putBulkEntry_whole (table : Table) (request : TcpFlowData → Cell) (event : String)
    (block : BlockSelector) : (putBulkEntry env table request event block info).Whole := by
  refine whole_lock (whole_fetchAdd (by simp) fun blockId =>
    whole_readFlow (by simp) fun flow => ?_)
  refine whole_putBlock SectionState.fresh_open env _ _ _ fun name state opened => ?_
  split
  · exact whole_fetchAdd opened.ne fun id =>
      whole_insert opened _ (whole_unlock SectionState.written_open)
  · refine (whole_op .unlock _ state _).mpr ⟨opened, whole_other (by simp) (fun _ => Iff.rfl) ?_⟩
    intro count
    split
    · exact putConnection_whole info event
    · exact (Program.obeys_done ..).mpr rfl

private theorem flush_whole : flush.Whole :=
  whole_lock (whole_flushInternal (whole_unlock SectionState.fresh_open))

private theorem Request.put_whole (request : Request) : (request.put env info).Whole := by
  cases request with
  | connection event => exact putConnection_whole info event
  | telemetryReq header =>
      exact putHeader_whole env info header fun _ => whole_finish SectionState.written_open
  | telemetryAck header msg => exact putTelemetryAck_whole env info header msg
  | keepalive header msg => exact putKeepalive_whole env info header msg
  | confirmAck header msg => exact putConfirmAck_whole env info header msg
  | confirmReq header msg => exact putWithBlock_whole env info header msg.block
  | publish header msg => exact putWithBlock_whole env info header (some msg.body)
  | nodeIdHandshake header msg => exact putNodeIdHandshake_whole env info header msg
  | frontierReq header msg => exact putRequest_whole env info header .frontierRequest msg.cells
  | bulkPull header msg =>
      exact putRequest_whole env info header .bulkPullRequest (msg.cells env)
  | bulkPullAccount header msg => exact putBulkPullAccount_whole env info header msg
  | bulkPush header => exact putBulkPush_whole env info header
  | frontierEntry entry => exact entry_whole _ _
  | bulkPullEntry entry => exact putBulkEntry_whole env info _ _ _ entry.block
  | bulkPushEntry entry => exact putBulkEntry_whole env info _ _ _ entry.block
  | frontierBalanceEntry entry => exact entry_whole _ _
  | bulkPullAccountEntry entry => exact entry_whole _ _

/-- The member functions a capture calls, until the database is destroyed or closed. -/
inductive CaptureFunction : Put Unit → Prop where
  | put (request : Request) (info : NanoPacket) : CaptureFunction (request.put env info)
  | flush : CaptureFunction flush

theorem CaptureFunction.whole {env : Environment} {put : Put Unit}
    (captures : CaptureFunction env put) : put.Whole := by
  cases captures with
  | put request info => exact request.put_whole env info
  | flush => exact flush_whole

end Functions

end Nanocap
