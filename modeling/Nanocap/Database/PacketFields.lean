import Nanocap.Database.PacketRows

/-! # Packet fields

The packet row of a message tells the fields of the packet it came in. Its statement is
cleared before, so that a field that is not bound is not told by an earlier packet. -/

namespace Nanocap

/-- Everything `bind_packet_fields` binds is told by the packet row. -/
private theorem NanoPacket.packetFields_of_bound {info info' : NanoPacket}
    (same : ∀ parameter ∈ packetFieldParameters,
      (boundTo info.packetFields parameter).getD .null =
        (boundTo info'.packetFields parameter).getD .null) :
    info.packetFields = info'.packetFields := by
  have bound (info : NanoPacket) : packetFieldParameters.map (fun parameter =>
        (boundTo info.packetFields parameter).getD .null) =
      [.text info.srcIp, .nat info.srcPort.toNat, .text info.dstIp, .nat info.dstPort.toNat,
       .integer info.timestampUsec, .nat info.flowKey.toNat, .nat info.ipVersion.toNat,
       ((strftime 32 (gmtime info.timestamp)).map .text).getD .null] := by
    unfold packetFields
    cases strftime 32 (gmtime info.timestamp) <;> rfl
  have values := (bound info).symm.trans ((List.map_congr_left same).trans (bound info'))
  unfold packetFields
  cases time : strftime 32 (gmtime info.timestamp) <;>
    cases time' : strftime 32 (gmtime info'.timestamp) <;> simp_all

theorem filter_packet_eq_nil {insertions : List Insertion}
    (beside : ∀ insertion ∈ insertions, insertion.table ≠ .packet) (bindings : Bindings) :
    (insertedRows bindings insertions).filter (·.table = .packet) = [] := by
  rw [List.filter_eq_nil_iff]
  intro row member packet
  obtain ⟨insertion, inside, before, rfl⟩ := exists_of_mem_insertedRows member
  exact beside insertion inside (of_decide_eq_true packet)

structure PacketRow (info : NanoPacket) (header : MessageHeader) (packetId : Nat) (rows : List Row)
    (content : List Cell) (before : Bindings) : Prop where
  kind : content = [] ∨ ∃ id name, content = packetContentCells id name
  cleared : before .packet = fun _ => .null
  row : rows.filter (·.table = .packet) =
    [Insertion.row ⟨.packet, header.packetCells info packetId ++ content⟩ before]

theorem PacketRow.get {info : NanoPacket} {header : MessageHeader} {packetId : Nat}
    {rows : List Row} {content : List Cell} {before : Bindings} {row : Row}
    (packet : PacketRow info header packetId rows content before)
    (single : rows.filter (·.table = .packet) = [row]) {parameter : Parameter}
    (field : parameter ∈ packetFieldParameters) :
    row.get parameter = (boundTo info.packetFields parameter).getD .null := by
  have all : ∀ parameter ∈ packetFieldParameters, parameter ∈ Table.packet.parameters ∧
      parameter ∉ [.contentId, .contentTable] ∧
      parameter ∉ [.id, .hdrMsgType, .hdrVersionUsing, .hdrVersionMin, .hdrBlockType,
        .hdrExtensions, .contentTable, .contentId] := by decide
  obtain ⟨column, noContent, noHeader⟩ := all parameter field
  have unbound : boundTo (header.cells packetId) parameter = none := boundTo_of_notMem noHeader
  rw [List.singleton_inj.mp (single.symm.trans packet.row), Insertion.row,
    Table.get_row _ column, overwrite_eq, packet.cleared, boundTo_append,
    contentCells_unbound packet.kind noContent, MessageHeader.packetCells, boundTo_append, unbound]
  cases boundTo info.packetFields parameter <;> rfl

section Plans

variable {env : Environment} {info : NanoPacket} {header : MessageHeader} {packetId : Nat}
  (bindings : Bindings)

theorem Plan.packetRow_message {drawn ids : Nat} {rest : List Insertion}
    (beside : ∀ insertion ∈ rest, insertion.table ≠ .packet) :
    ∃ content before, PacketRow info header packetId
      ((message info header drawn ids packetId rest).rows bindings) content before := by
  let cleared : Bindings := Function.update bindings .packet fun _ => .null
  refine ⟨[], cleared, .inl rfl, Function.update_self _ _ _, ?_⟩
  have others := filter_packet_eq_nil beside
    (Insertion.rebind ⟨.packet, header.packetCells info packetId⟩ cleared)
  rw [List.append_nil, ← others]
  rfl

theorem Plan.packetRow_withContent {ids id : Nat} {name : String} {rest : List Insertion}
    (beside : ∀ insertion ∈ rest, insertion.table ≠ .packet) :
    ∃ content before, PacketRow info header packetId
      ((withContent info header ids packetId rest (packetContentCells id name)).rows bindings)
      content before := by
  let cleared : Bindings := Function.update bindings .packet fun _ => .null
  refine ⟨packetContentCells id name, rest.foldl (fun current insertion => insertion.rebind current)
    cleared, .inr ⟨id, name, rfl⟩, ?_, ?_⟩
  · rw [rebind_of_notMem]
    · exact Function.update_self _ _ _
    · rintro member
      obtain ⟨insertion, inside, packet⟩ := List.mem_map.mp member
      exact beside insertion inside packet
  · change (insertedRows cleared (rest ++ _)).filter _ = _
    rw [insertedRows_append, List.filter_append, filter_packet_eq_nil beside]
    rfl

theorem Request.packetRow_fields {request : Request} (message : request.header = some header)
    (flow : TcpFlowData) :
    ∃ content before, PacketRow info header packetId
      ((request.plan env info packetId flow).rows bindings) content before := by
  cases request <;> cases message
  case telemetryReq => exact Plan.packetRow_message _ (by simp)
  case telemetryAck => exact Plan.packetRow_message _ (by simp)
  case frontierReq => exact Plan.packetRow_message _ (by simp)
  case bulkPull => exact Plan.packetRow_message _ (by simp)
  case bulkPullAccount => exact Plan.packetRow_message _ (by simp)
  case bulkPush => exact Plan.packetRow_message _ (by simp)
  case keepalive msg => exact Plan.packetRow_message _ (peerInsertions_beside _ _ _ _)
  case nodeIdHandshake msg =>
    exact Plan.packetRow_message _ (handshakeInsertions_beside _ _ _ _ _ _)
  case confirmAck msg => exact Plan.packetRow_withContent _ (voteInsertions_beside _ _ _ _ _)
  case confirmReq msg => exact Plan.packetRow_withContent _ (blockInsertions_beside _ _ _ _)
  case publish msg => exact Plan.packetRow_withContent _ (blockInsertions_beside _ _ _ _)

end Plans

theorem Request.packetFields_of_rows {env : Environment} {info info' : NanoPacket}
    {header header' : MessageHeader} {request request' : Request} {nextId nextId' : Nat}
    {flow flow' : TcpFlowData} {bindings bindings' : Bindings}
    (message : request.header = some header) (message' : request'.header = some header')
    (rows : (request.plan env info nextId flow).rows bindings =
      (request'.plan env info' nextId' flow').rows bindings') :
    info.packetFields = info'.packetFields := by
  obtain ⟨content, before, packet⟩ :=
    @packetRow_fields env info header nextId bindings request message flow
  obtain ⟨content', before', packet'⟩ :=
    @packetRow_fields env info' header' nextId' bindings' request' message' flow'
  refine NanoPacket.packetFields_of_bound fun parameter field => ?_
  have single := packet.row
  rw [rows] at single
  rw [← packet.get packet.row field, ← packet'.get single field]

end Nanocap
