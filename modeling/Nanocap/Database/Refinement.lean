import Nanocap.Database.Requests

/-! # Every request follows its plan

The member functions of `nanocap::db` refine their plans: on a working database
a call returns, and leaves what `Request.after` says. -/

namespace Nanocap

open Put

/-! ## Shared parts -/

theorem Put.run_draw (env : Environment) {world : World} {id : Nat}
    (counter : world.db.nextId = id) :
    fetchAdd.run env world = .ok id { world with db := world.db.dispense 1 } := by
  rw [← counter]
  rfl

section Run

variable {env : Environment} (neverFails : env.NeverFails)
include neverFails

theorem execution_of_neverFails {α : Type} (world : World)
    (accepted : EStateM.Result Exception World α) (refused : Db) :
    execution env world accepted refused = accepted := by
  rw [execution, neverFails, if_neg Bool.false_ne_true]

theorem Put.run_flushInternal {world : World} (open_ : world.db.inTransaction = true) :
    flushInternal.run env world =
      .ok () { world with
        db.committed := world.db.contents :: world.db.committed
        db.executed := world.db.executed + 2 } := by
  have commits : (Op.perform .commit).run env world =
      .ok () { world with
        db.inTransaction := false
        db.committed := world.db.contents :: world.db.committed
        db.executed := world.db.executed + 1 } := by
    rw [Put.run_perform]
    simp only [Op.answer, open_, if_true, execution_of_neverFails neverFails]
  rw [flushInternal, Put.run_bind_of_ok env commits, Put.run_perform]
  simp only [Op.answer, open_, execution_of_neverFails neverFails]

private theorem Put.run_pageSize (world : World) :
    (Op.perform .pageSize).run env world =
      .ok env.pageSize { world with db.executed := world.db.executed + 1 } := by
  rw [Put.run_perform]
  simp only [Op.answer, execution_of_neverFails neverFails]

private theorem Put.run_pageCount (world : World) :
    (Op.perform .pageCount).run env world =
      .ok (env.pageCount world.db.contents)
        { world with db.executed := world.db.executed + 1 } := by
  rw [Put.run_perform]
  simp only [Op.answer, execution_of_neverFails neverFails]

private theorem Put.run_periodicCommit {world : World}
    (open_ : world.db.inTransaction = true) :
    (periodicCommit env).run env world =
      .ok () { world with db := world.db.commitAt env world.db.nextId } := by
  have counter : (Op.perform .nextId).run env world = .ok world.db.nextId world := rfl
  rw [periodicCommit, Put.run_bind_of_ok env counter, Db.commitAt]
  by_cases due : world.db.nextId % 10000 = 0
  · rw [if_pos due, if_pos due, Put.run_bind_of_ok env (run_flushInternal neverFails open_),
      Put.run_bind_of_ok env (run_pageSize neverFails _),
      Put.run_bind_of_ok env (run_pageCount neverFails _)]
    by_cases large : env.pageSize * env.pageCount world.db.contents >
        env.config.maxCaptureMegabytes * 1024 * 1024
    · rw [if_pos large, decide_eq_true large, Bool.or_true]
      rfl
    · rw [if_neg large, decide_eq_false large, Bool.or_false]
      rfl
  · rw [if_neg due, if_neg due]
    rfl

/-- `bind_header_fields` and `bind_packet_fields` together. -/
theorem Put.run_bindFields (header : MessageHeader) (info : NanoPacket) (id : Nat)
    {world : World} (ready : world.db.Ready) :
    (do bindHeaderFields env header id; bindPacketFields info : Put Unit).run env world =
      .ok () { world with db := world.db.bound env header info id } := by
  have cleared : ∀ world : World, (Op.perform (.clearBindings .packet)).run env world =
      .ok () { world with db := world.db.clearBindings .packet } := fun _ => rfl
  have counted : ∀ world : World,
      (Op.perform (.countType header.messageType)).run env world =
        .ok () { world with db := world.db.countType header.messageType } := fun _ => rfl
  rw [bindHeaderFields, bindPacketFields]
  simp only [bind_assoc]
  rw [Put.run_bind_of_ok env (run_periodicCommit neverFails ready.inTransaction),
    Put.run_bind_of_ok env (cleared _),
    Put.run_bind_of_ok env (run_bindAll env _ (by simp [ready.reset])),
    Put.run_bind_of_ok env (counted _),
    run_bindAll env _ (by simp [ready.reset])]
  have merged := (world.db.begun env header.messageType world.db.nextId).bindAll_append .packet
    (header.cells id) info.packetFields
  exact congrArg (fun db : Db => EStateM.Result.ok () (World.mk db world.flow)) merged

theorem Put.run_putHeader (header : MessageHeader) (info : NanoPacket) (id : Nat)
    {world : World} (ready : world.db.Ready) :
    (putHeader env header info id).run env world =
      .ok () { world with db := world.db.headed env header info id } := by
  have parts : putHeader env header info id =
      (do (do bindHeaderFields env header id; bindPacketFields info); exec .packet) := by
    rw [putHeader, bind_assoc]
  have bound := ready.bound env header info id
  rw [parts, Put.run_bind_of_ok env (run_bindFields neverFails header info id ready),
    run_exec neverFails (by exact bound.reset .packet)]
  rfl

private theorem Put.run_putPeers (packetId : Nat) (peers : List Peer) {id : Nat} {world : World}
    (counter : world.db.nextId = id) (idle : world.db.Idle) :
    (putPeers env packetId peers).run env world =
      .ok () { world with
        db := (world.db.insertAll (peerInsertions env packetId id peers)).dispense
          peers.length } := by
  induction peers generalizing id world with
  | nil => rfl
  | cons peer peers induction =>
      rw [putPeers, Put.run_bind_of_ok env (run_draw env counter),
        Put.run_bind_of_ok env
          (run_insert neverFails _ (by exact idle.dispense 1 .keepaliveHost (by decide))),
        induction (by exact congrArg (· + 1) counter) (by exact (idle.dispense 1).insertRow _ _)]
      have rest := Db.insertAll_dispense 1
        (world.db.insertRow .keepaliveHost (peer.cells env id packetId))
        (peerInsertions env packetId (id + 1) peers)
      have counted := congrArg (Db.dispense · peers.length) rest
      rw [Db.dispense_dispense, Nat.add_comm 1] at counted
      exact congrArg (fun db : Db => EStateM.Result.ok () (World.mk db world.flow)) counted

theorem Put.run_putBlock (blockSelector : Option BlockSelector) (id packetId : Nat)
    {world : World} (idle : world.db.Idle) :
    (putBlock env blockSelector id packetId).run env world =
      .ok (contentTableOf env blockSelector) { world with
        db := world.db.insertAll (blockInsertions env blockSelector id packetId) } := by
  unfold putBlock contentTableOf blockInsertions
  cases storable env blockSelector with
  | none => rfl
  | some block =>
      rw [Put.run_bind_of_ok env (run_insert neverFails _ (idle _ block.table_ne_packet))]
      rfl

private theorem Put.run_putNodeIdQuery (packetId : Nat) (query : Option NodeIdQuery) {id : Nat}
    {world : World} (counter : world.db.nextId = id) (idle : world.db.Idle) :
    (putNodeIdQuery packetId query).run env world =
      .ok () { world with
        db := (world.db.insertAll (queryInsertions id packetId query)).dispense
          (queryInsertions id packetId query).length } := by
  cases query with
  | none => rfl
  | some query =>
      rw [putNodeIdQuery, Put.run_bind_of_ok env (run_draw env counter),
        run_insert neverFails _ (by exact idle.dispense 1 .nodeidQuery (by decide))]
      rfl

private theorem Put.run_putNodeIdResponse (packetId : Nat) (response : Option NodeIdResponse)
    {id : Nat} {world : World} (counter : world.db.nextId = id) (idle : world.db.Idle) :
    (putNodeIdResponse env packetId response).run env world =
      .ok () { world with
        db := (world.db.insertAll
            (responseInsertions env id packetId response)).dispense
          (responseInsertions env id packetId response).length } := by
  cases response with
  | none => rfl
  | some response =>
      rw [putNodeIdResponse, Put.run_bind_of_ok env (run_draw env counter),
        run_insert neverFails _ (by exact idle.dispense 1 .nodeidResponse (by decide))]
      rfl

private theorem Put.run_bindVoteContent (msg : MsgConfirmAck) (packetId : Nat) {id : Nat}
    {world : World} (counter : world.db.nextId = id) (ready : world.db.Ready) :
    (bindVoteContent env msg packetId).run env world =
      .ok () { world with
        db := ((world.db.insertAll (voteBlockInsertions env msg id packetId)).bindAll .vote
          (msg.contentCells env id)).dispense msg.blockIds } := by
  unfold bindVoteContent MsgConfirmAck.contentCells voteBlockInsertions MsgConfirmAck.blockIds
  cases msg.block with
  | some block =>
      have blocked := (ready.dispense 1).insertAll (blockInsertions env (some block) id packetId)
      simp only
      rw [Put.run_bind_of_ok env (run_draw env counter),
        Put.run_bind_of_ok env (run_putBlock neverFails _ _ _ (by exact (ready.dispense 1).idle)),
        run_bindAll env _ (by exact blocked.reset .vote), Db.insertAll_dispense]
      rfl
  | none =>
      simp only
      split
      · exact run_bindAll env _ (ready.reset .vote)
      · exact run_bindAll env _ (ready.reset .vote)

private theorem Put.run_putVote (msg : MsgConfirmAck) (packetId : Nat) {id : Nat} {world : World}
    (counter : world.db.nextId = id) (ready : world.db.Ready) :
    (do
      bindVoteContent env msg packetId
      bindAll .vote (msg.common.cells env)
      let voteContentId ← fetchAdd
      insert .vote [(.id, .nat voteContentId), (.packetId, .nat packetId)]
      return voteContentId : Put Nat).run env world =
      .ok (id + msg.blockIds) { world with
        db := (world.db.insertAll (voteBlockInsertions env msg id packetId ++
          [⟨.vote, msg.voteCells env id (id + msg.blockIds) packetId⟩])).dispense
            (msg.blockIds + 1) } := by
  let blocks := voteBlockInsertions env msg id packetId
  have blocked := ready.insertAll blocks
  have contentReady : ((((world.db.insertAll blocks).bindAll .vote
      (msg.contentCells env id)).dispense msg.blockIds).statements .vote).phase = .ready := by
    rw [Db.dispense_statements, Db.bindAll_phase]
    exact blocked.reset .vote
  have next : (((world.db.insertAll blocks).bindAll .vote
      (msg.contentCells env id)).dispense msg.blockIds).nextId = id + msg.blockIds := by
    simp [Db.insertAll_nextId, counter]
  rw [Put.run_bind_of_ok env (run_bindVoteContent neverFails _ _ counter ready),
    Put.run_bind_of_ok env (run_bindAll env _ (by exact contentReady)),
    Put.run_bind_of_ok env (run_draw env (by exact next)),
    Put.run_bind_of_ok env
      (run_insert neverFails _
        (by rw [Db.dispense_statements, Db.bindAll_phase]; exact contentReady)),
    Put.run_pure]
  have row : ((((world.db.insertAll blocks).bindAll .vote (msg.contentCells env id)).bindAll .vote
      (msg.common.cells env)).insertRow .vote
        [(.id, .nat (id + msg.blockIds)), (.packetId, .nat packetId)]) =
      world.db.insertAll
        (blocks ++ [⟨.vote, msg.voteCells env id (id + msg.blockIds) packetId⟩]) := by
    rw [Db.bindAll_append, Db.bindAll_insertRow_self, Db.insertAll_append]
    rfl
  have counted := congrArg (Db.dispense · (msg.blockIds + 1)) row
  exact congrArg (fun db : Db => EStateM.Result.ok _ (World.mk db world.flow)) counted

theorem Put.run_finishPacket (info : NanoPacket) (header : MessageHeader) (content : List Cell)
    {insertions : List Insertion} (beside : ∀ insertion ∈ insertions, insertion.table ≠ .packet)
    (id ids : Nat) {world : World} (ready : world.db.Ready) (flow : TcpFlowData) :
    (do bindAll .packet content; exec .packet; Put.reset .packet; unlock : Put Unit).run env
        ⟨(((world.db.dispense 1).bound env header info id).insertAll insertions).dispense ids,
          flow⟩ =
      .ok () ⟨((world.db.begun env header.messageType (world.db.nextId + 1)).insertAll
        (insertions ++ [⟨.packet, header.packetCells info id ++ content⟩])).dispense (1 + ids),
          flow⟩ := by
  have filled := ((ready.dispense 1).bound env header info id).insertAll insertions
  have finished := Db.bound_finish env header info id 1 world.db beside content
  have counted := congrArg (Db.dispense · ids) finished
  rw [Db.dispense_dispense] at counted
  rw [Put.run_bind_of_ok env (run_bindAll env _ (by exact filled.reset .packet)),
    Put.run_bind_of_ok env
      (run_exec neverFails (by rw [Db.bindAll_phase]; exact filled.reset .packet)),
    Put.run_bind_of_ok env (run_reset env _ _), run_unlock]
  exact congrArg (fun db : Db => EStateM.Result.ok () (World.mk db flow)) counted

theorem Put.run_insert_ready {world : World} (ready : world.db.Ready) (table : Table)
    (cells : List Cell) :
    (insert table cells).run env world =
      .ok () { world with db := world.db.insertRow table cells } :=
  run_insert neverFails cells (ready.reset table)

end Run

/-! ## The member functions -/

section Refinement

variable {env : Environment} (neverFails : env.NeverFails) (info : NanoPacket)
  {world : World} (ready : world.db.Ready)
include neverFails ready

theorem Request.run_connection (event : String) :
    (putConnection info event).run env world =
      .ok () ((Request.connection event).after env info world) := by
  rw [putConnection, Put.run_bind_of_ok env (run_lock env world),
    Put.run_bind_of_ok env (run_fetchAdd env world),
    Put.run_bind_of_ok env (run_insert_ready neverFails (by exact ready.dispense 1) _ _),
    run_unlock]
  rfl

private theorem Request.run_telemetryReq (header : MessageHeader) :
    (putTelemetryReq env header info).run env world =
      .ok () ((Request.telemetryReq header).after env info world) := by
  have finished := Db.headed_finish env header info world.db.nextId 1 world.db
    (List.forall_mem_nil _)
  rw [putTelemetryReq, Put.run_bind_of_ok env (run_fetchAdd env world),
    Put.run_bind_of_ok env (run_lock env _),
    Put.run_bind_of_ok env (run_putHeader neverFails header info _ (by exact ready.dispense 1)),
    Put.run_bind_of_ok env (run_reset env _ _), run_unlock]
  exact congrArg (fun db : Db => EStateM.Result.ok () (World.mk db world.flow)) finished

private theorem Request.run_telemetryAck (header : MessageHeader) (msg : MsgTelemetryAck) :
    (putTelemetryAck env header msg info).run env world =
      .ok () ((Request.telemetryAck header msg).after env info world) := by
  have idle := (ready.dispense 1).headed env header info world.db.nextId
  have counter := (world.db.dispense 1).headed_nextId env header info world.db.nextId
  have finished := Db.headed_finish_row env header info world.db.nextId 1 world.db
    (by decide : Table.telemetry ≠ .packet) (msg.cells env (world.db.nextId + 1) world.db.nextId)
  rw [putTelemetryAck, Put.run_bind_of_ok env (run_fetchAdd env world),
    Put.run_bind_of_ok env (run_lock env _),
    Put.run_bind_of_ok env (run_putHeader neverFails header info _ (by exact ready.dispense 1)),
    Put.run_bind_of_ok env (run_draw env (by exact counter)),
    Put.run_bind_of_ok env (run_insert neverFails _ (by exact idle .telemetry (by decide))),
    Put.run_bind_of_ok env (run_reset env _ _), run_unlock]
  exact congrArg (fun db : Db => EStateM.Result.ok () (World.mk db world.flow)) finished

private theorem Request.run_keepalive (header : MessageHeader) (msg : MsgKeepalive) :
    (putKeepalive env header msg info).run env world =
      .ok () ((Request.keepalive header msg).after env info world) := by
  have idle := (ready.dispense 1).headed env header info world.db.nextId
  have counter := (world.db.dispense 1).headed_nextId env header info world.db.nextId
  have finished := Db.headed_finish env header info world.db.nextId 1 world.db
    (peerInsertions_beside env world.db.nextId (world.db.nextId + 1) (msg.peers.getD []))
  rw [putKeepalive, Put.run_bind_of_ok env (run_fetchAdd env world),
    Put.run_bind_of_ok env (run_lock env _),
    Put.run_bind_of_ok env (run_putHeader neverFails header info _ (by exact ready.dispense 1)),
    Put.run_bind_of_ok env (run_putPeers neverFails _ _ (by exact counter) (by exact idle)),
    Put.run_bind_of_ok env (run_reset env _ _), run_unlock]
  have counted := congrArg (Db.dispense · (msg.peers.getD []).length) finished
  rw [Db.dispense_dispense] at counted
  exact congrArg (fun db : Db => EStateM.Result.ok () (World.mk db world.flow)) counted

private theorem Request.run_nodeIdHandshake (header : MessageHeader) (msg : MsgNodeIdHandshake) :
    (putNodeIdHandshake env header msg info).run env world =
      .ok () ((Request.nodeIdHandshake header msg).after env info world) := by
  let queries := queryInsertions (world.db.nextId + 1) world.db.nextId msg.query
  let responses := responseInsertions env (world.db.nextId + 1 + queries.length)
    world.db.nextId msg.response
  have idle := (ready.dispense 1).headed env header info world.db.nextId
  have queried := (idle.insertAll queries).dispense queries.length
  have counter := (world.db.dispense 1).headed_nextId env header info world.db.nextId
  have next : ((((world.db.dispense 1).headed env header info world.db.nextId).insertAll
      queries).dispense queries.length).nextId = world.db.nextId + 1 + queries.length := by
    simp [Db.insertAll_nextId]
  have finished := Db.headed_finish env header info world.db.nextId 1 world.db
    (handshakeInsertions_beside env (world.db.nextId + 1)
      (world.db.nextId + 1 + queries.length) world.db.nextId msg.query msg.response)
  rw [putNodeIdHandshake, Put.run_bind_of_ok env (run_fetchAdd env world),
    Put.run_bind_of_ok env (run_lock env _),
    Put.run_bind_of_ok env (run_putHeader neverFails header info _ (by exact ready.dispense 1)),
    Put.run_bind_of_ok env (run_putNodeIdQuery neverFails _ _ (by exact counter) (by exact idle)),
    Put.run_bind_of_ok env
      (run_putNodeIdResponse neverFails _ _ (by exact next) (by exact queried)),
    Put.run_bind_of_ok env (run_reset env _ _), run_unlock]
  have counted := congrArg (fun db => (Db.dispense db queries.length).dispense responses.length)
    finished
  simp only [Db.insertAll_append] at counted
  rw [Db.dispense_dispense _ 1, Db.dispense_dispense _ (1 + queries.length)] at counted
  rw [Db.insertAll_dispense, Db.setPhase_dispense, Db.setPhase_dispense]
  exact congrArg (fun db : Db => EStateM.Result.ok () (World.mk db world.flow)) counted

/-- The part `put(msg_publish_t)` and `put(msg_confirm_req_t)` share. -/
theorem Put.run_putWithBlock (header : MessageHeader) (blockSelector : Option BlockSelector) :
    (putWithBlock env header blockSelector info).run env world =
      .ok () { world with
        db := world.db.store env (.withBlock env info header blockSelector world.db.nextId) } := by
  have bound := (ready.dispense 1).bound env header info world.db.nextId
  have counter := (world.db.dispense 1).bound_nextId env header info world.db.nextId
  have parts : putWithBlock env header blockSelector info = (do
      let packetId ← fetchAdd
      lock
      (do bindHeaderFields env header packetId; bindPacketFields info)
      let contentId ← fetchAdd
      let contentTable ← putBlock env blockSelector contentId packetId
      bindAll .packet [(.contentId, .nat contentId), (.contentTable, .text contentTable)]
      exec .packet
      Put.reset .packet
      unlock) := by
    simp only [putWithBlock, bind_assoc]
  rw [parts, Put.run_bind_of_ok env (run_fetchAdd env world),
    Put.run_bind_of_ok env (run_lock env _),
    Put.run_bind_of_ok env (run_bindFields neverFails header info _ (by exact ready.dispense 1)),
    Put.run_bind_of_ok env (run_draw env (by exact counter)),
    Put.run_bind_of_ok env (run_putBlock neverFails _ _ _ (by exact (bound.dispense 1).idle))]
  rw [Db.insertAll_dispense]
  exact run_finishPacket neverFails info header _ (blockInsertions_beside env blockSelector _ _)
    world.db.nextId 1 ready world.flow

theorem Request.run_confirmAck (header : MessageHeader) (msg : MsgConfirmAck) :
    (putConfirmAck env header msg info).run env world =
      .ok () ((Request.confirmAck header msg).after env info world) := by
  have bound := (ready.dispense 1).bound env header info world.db.nextId
  have counter := (world.db.dispense 1).bound_nextId env header info world.db.nextId
  have parts : putConfirmAck env header msg info = (do
      let packetId ← fetchAdd
      lock
      (do bindHeaderFields env header packetId; bindPacketFields info)
      let voteContentId ← (do
        bindVoteContent env msg packetId
        bindAll .vote (msg.common.cells env)
        let voteContentId ← fetchAdd
        insert .vote [(.id, .nat voteContentId), (.packetId, .nat packetId)]
        return voteContentId : Put Nat)
      bindAll .packet
        [(.contentId, .nat voteContentId), (.contentTable, .text Table.vote.name)]
      exec .packet
      Put.reset .packet
      unlock) := by
    simp only [putConfirmAck, bind_assoc, pure_bind]
  rw [parts, Put.run_bind_of_ok env (run_fetchAdd env world),
    Put.run_bind_of_ok env (run_lock env _),
    Put.run_bind_of_ok env (run_bindFields neverFails header info _ (by exact ready.dispense 1)),
    Put.run_bind_of_ok env (run_putVote neverFails _ _ (by exact counter) (by exact bound))]
  exact run_finishPacket neverFails info header _
    (voteInsertions_beside env msg (world.db.nextId + 1) world.db.nextId
      (msg.voteCells env (world.db.nextId + 1) (world.db.nextId + 1 + msg.blockIds)
        world.db.nextId))
    world.db.nextId (msg.blockIds + 1) ready world.flow

theorem Put.run_putBulkEntry (table : Table)
    (request : TcpFlowData → Cell) (event : String) (block : BlockSelector) :
    (putBulkEntry env table request event block info).run env world =
      .ok () ⟨world.db.store env
          (.bulkEntry env info table (request world.flow) event block world.flow world.db.nextId),
        if (storable env (some block)).isSome then world.flow
        else { world.flow with
          invalidResponseCount := world.flow.invalidResponseCount + 1 }⟩ := by
  rw [putBulkEntry, Put.run_bind_of_ok env (run_lock env world),
    Put.run_bind_of_ok env (run_fetchAdd env world),
    Put.run_bind_of_ok env (run_readFlow env _),
    Put.run_bind_of_ok env (run_putBlock neverFails _ _ _ (by exact (ready.dispense 1).idle))]
  unfold contentTableOf blockInsertions Plan.bulkEntry
  cases stored : storable env (some block) with
  | some known =>
      have filled := (ready.dispense 1).insertRow known.table
        (known.cells env world.db.nextId world.flow.packetId)
      simp only
      rw [if_pos known.table_name_ne, Put.run_bind_of_ok env (run_fetchAdd env _),
        Put.run_bind_of_ok env (run_insert_ready neverFails (by exact filled.dispense 1) _ _),
        run_unlock]
      rfl
  | none =>
      simp only
      rw [if_neg (by simp), Put.run_bind_of_ok env (run_unlock env _),
        Put.run_bind_of_ok env (run_addInvalidResponse env _)]
      by_cases first : world.flow.invalidResponseCount = 0
      · have reports := @Request.run_connection env neverFails info
          { world with
            db := world.db.dispense 1
            flow.invalidResponseCount := world.flow.invalidResponseCount + 1 }
          (ready.dispense 1) event
        rw [if_pos first, if_pos (by simp [first])]
        exact reports
      · rw [if_neg first, if_neg (by simpa using first), Put.run_pure]
        rfl

private theorem Request.run_frontierReq (header : MessageHeader) (msg : MsgFrontierReq) :
    (putFrontierReq env header msg info).run env world =
      .ok () ((Request.frontierReq header msg).after env info world) := by
  have idle := (ready.dispense 1).headed env header info world.db.nextId
  have counter := (world.db.dispense 1).headed_nextId env header info world.db.nextId
  have finished := Db.headed_finish_row env header info world.db.nextId 1 world.db
    (by decide : Table.frontierRequest ≠ .packet) (msg.cells (world.db.nextId + 1) world.db.nextId)
  rw [putFrontierReq, Put.run_bind_of_ok env (run_fetchAdd env world),
    Put.run_bind_of_ok env (run_setPacketId env _ _),
    Put.run_bind_of_ok env (run_lock env _),
    Put.run_bind_of_ok env (run_putHeader neverFails header info _ (by exact ready.dispense 1)),
    Put.run_bind_of_ok env (run_draw env (by exact counter)),
    Put.run_bind_of_ok env (run_setMessageId env _ _),
    Put.run_bind_of_ok env (run_insert neverFails _ (by exact idle .frontierRequest (by decide))),
    Put.run_bind_of_ok env (run_reset env _ _), run_unlock]
  exact congrArg (fun db : Db => EStateM.Result.ok () (World.mk db
    ((Request.frontierReq header msg).flowAfter env world.db.nextId world.flow))) finished

private theorem Request.run_bulkPull (header : MessageHeader) (msg : MsgBulkPull) :
    (putBulkPull env header msg info).run env world =
      .ok () ((Request.bulkPull header msg).after env info world) := by
  have idle := (ready.dispense 1).headed env header info world.db.nextId
  have counter := (world.db.dispense 1).headed_nextId env header info world.db.nextId
  have finished := Db.headed_finish_row env header info world.db.nextId 1 world.db
    (by decide : Table.bulkPullRequest ≠ .packet)
    (msg.cells env (world.db.nextId + 1) world.db.nextId)
  rw [putBulkPull, Put.run_bind_of_ok env (run_fetchAdd env world),
    Put.run_bind_of_ok env (run_setPacketId env _ _),
    Put.run_bind_of_ok env (run_lock env _),
    Put.run_bind_of_ok env (run_putHeader neverFails header info _ (by exact ready.dispense 1)),
    Put.run_bind_of_ok env (run_draw env (by exact counter)),
    Put.run_bind_of_ok env (run_setMessageId env _ _),
    Put.run_bind_of_ok env (run_insert neverFails _ (by exact idle .bulkPullRequest (by decide))),
    Put.run_bind_of_ok env (run_reset env _ _), run_unlock]
  exact congrArg (fun db : Db => EStateM.Result.ok () (World.mk db
    ((Request.bulkPull header msg).flowAfter env world.db.nextId world.flow))) finished

private theorem Request.run_bulkPullAccount (header : MessageHeader) (msg : MsgBulkPullAccount) :
    (putBulkPullAccount env header msg info).run env world =
      .ok () ((Request.bulkPullAccount header msg).after env info world) := by
  have idle := (ready.dispense 2).headed env header info world.db.nextId
  have finished := Db.headed_finish env header info world.db.nextId 2 world.db
    (Db.singleton_beside .bulkPullAccountRequest (by decide)
      (msg.cells env (world.db.nextId + 1) world.db.nextId))
  rw [putBulkPullAccount, Put.run_bind_of_ok env (run_fetchAdd env world),
    Put.run_bind_of_ok env (run_setPacketId env _ _),
    Put.run_bind_of_ok env (run_fetchAdd env _),
    Put.run_bind_of_ok env (run_setMessageId env _ _),
    Put.run_bind_of_ok env (run_lock env _),
    Put.run_bind_of_ok env (run_putHeader neverFails header info _ (by exact ready.dispense 2)),
    Put.run_bind_of_ok env
      (run_insert neverFails _ (by exact idle .bulkPullAccountRequest (by decide))),
    Put.run_bind_of_ok env (run_reset env _ _), run_unlock]
  exact congrArg (fun db : Db => EStateM.Result.ok () (World.mk db
    ((Request.bulkPullAccount header msg).flowAfter env world.db.nextId world.flow))) finished

private theorem Request.run_bulkPush (header : MessageHeader) :
    (putBulkPush env header info).run env world =
      .ok () ((Request.bulkPush header).after env info world) := by
  have finished := Db.headed_finish env header info world.db.nextId 1 world.db
    (List.forall_mem_nil _)
  rw [putBulkPush, Put.run_bind_of_ok env (run_fetchAdd env world),
    Put.run_bind_of_ok env (run_setPacketId env _ _),
    Put.run_bind_of_ok env (run_lock env _),
    Put.run_bind_of_ok env (run_putHeader neverFails header info _ (by exact ready.dispense 1)),
    Put.run_bind_of_ok env (run_reset env _ _), run_unlock]
  exact congrArg (fun db : Db => EStateM.Result.ok () (World.mk db
    ((Request.bulkPush header).flowAfter env world.db.nextId world.flow))) finished

theorem Put.run_entry (table : Table) (cells : Nat → TcpFlowData → List Cell) :
    (Put.entry table cells).run env world =
      .ok () { world with
        db := world.db.store env (.entry table (cells world.db.nextId world.flow)) } :=
  Put.run_entry_of_accepts cells ⟨ready.reset table, neverFails _⟩

/-- On a working database every request does what its plan says. -/
theorem Request.run_put (request : Request) :
    (request.put env info).run env world = .ok () (request.after env info world) := by
  cases request with
  | connection event => exact run_connection neverFails info ready event
  | telemetryReq header => exact run_telemetryReq neverFails info ready header
  | telemetryAck header msg => exact run_telemetryAck neverFails info ready header msg
  | keepalive header msg => exact run_keepalive neverFails info ready header msg
  | confirmAck header msg => exact run_confirmAck neverFails info ready header msg
  | confirmReq header msg => exact Put.run_putWithBlock neverFails info ready header msg.block
  | publish header msg => exact Put.run_putWithBlock neverFails info ready header (some msg.body)
  | nodeIdHandshake header msg => exact run_nodeIdHandshake neverFails info ready header msg
  | frontierReq header msg => exact run_frontierReq neverFails info ready header msg
  | bulkPull header msg => exact run_bulkPull neverFails info ready header msg
  | bulkPullAccount header msg => exact run_bulkPullAccount neverFails info ready header msg
  | bulkPush header => exact run_bulkPush neverFails info ready header
  | frontierEntry entry => exact Put.run_entry neverFails ready .frontierResponse _
  | bulkPullEntry entry =>
      exact Put.run_putBulkEntry neverFails info ready .bulkPullResponse _ _ entry.block
  | bulkPushEntry entry =>
      exact Put.run_putBulkEntry neverFails info ready .bulkPushEntry _ _ entry.block
  | frontierBalanceEntry entry =>
      exact Put.run_entry neverFails ready .bulkPullAccountResponse _
  | bulkPullAccountEntry entry =>
      exact Put.run_entry neverFails ready .bulkPullAccountResponseEntry _

end Refinement

end Nanocap
