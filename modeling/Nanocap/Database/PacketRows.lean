import Nanocap.Database.Columns

/-! # Packet rows

Every message has one packet row, which holds the fields of its header. -/

namespace Nanocap

/-! ## Packet rows and headers -/

def headerColumns : List Parameter :=
  [.hdrMsgType, .hdrVersionUsing, .hdrVersionMin, .hdrBlockType, .hdrExtensions]

def MessageHeader.columns (header : MessageHeader) : List Value :=
  [.nat header.messageType.toUInt8.toNat, .nat header.versionUsing.toNat,
   .nat header.versionMin.toNat, .nat header.blockType.toUInt8.toNat,
   .nat header.extensions.toNat]

/-- The header columns of the packet rows, in their order. -/
def packetHeaders (rows : List Row) : List (List Value) :=
  (rows.filter (·.table = .packet)).map fun row => headerColumns.map row.get

theorem packetHeaders_append (first second : List Row) :
    packetHeaders (first ++ second) = packetHeaders first ++ packetHeaders second := by
  simp [packetHeaders]

theorem packetHeaders_of_ne {rows : List Row} (others : ∀ row ∈ rows, row.table ≠ .packet) :
    packetHeaders rows = [] := by
  simpa [packetHeaders] using others

section Rows

variable {env : Environment} {info : NanoPacket} {header : MessageHeader}

private theorem headerColumns_row {content : List Cell} {id : Nat}
    (kind : content = [] ∨ ∃ id name, content = packetContentCells id name)
    (bindings : Bindings) :
    headerColumns.map
        (Insertion.row ⟨.packet, header.packetCells info id ++ content⟩ bindings).get =
      header.columns := by
  have column : ∀ parameter ∈ headerColumns, ∀ value,
      boundTo (header.cells id) parameter = some value →
      (Insertion.row ⟨.packet, header.packetCells info id ++ content⟩ bindings).get parameter =
        value := by
    intro parameter member value bound
    have all : ∀ parameter ∈ headerColumns, parameter ∈ Table.packet.parameters ∧
        parameter ∉ packetFieldParameters ∧ parameter ∉ [.contentId, .contentTable] := by decide
    obtain ⟨column, own, noContent⟩ := all parameter member
    exact packet_get column own (contentCells_unbound kind noContent) bound bindings
  simp only [headerColumns, List.map_cons, List.map_nil, MessageHeader.columns]
  rw [column .hdrMsgType (by decide) _ rfl, column .hdrVersionUsing (by decide) _ rfl,
    column .hdrVersionMin (by decide) _ rfl, column .hdrBlockType (by decide) _ rfl,
    column .hdrExtensions (by decide) _ rfl]

private theorem packetHeaders_insertedRows {packetId : Nat} {insertions : List Insertion}
    (message : ∀ insertion ∈ insertions, MessageInsertion info header packetId insertion)
    (bindings : Bindings) :
    packetHeaders (insertedRows bindings insertions) =
      List.replicate (insertions.countP (·.table = .packet)) header.columns := by
  induction insertions generalizing bindings with
  | nil => rfl
  | cons insertion insertions induction =>
      have rest := induction (fun other member => message other (List.mem_cons_of_mem _ member))
        (insertion.rebind bindings)
      change packetHeaders ([_] ++ _) = _
      rw [packetHeaders_append, rest]
      cases message insertion (by simp) with
      | packet content kind =>
          rw [List.countP_cons_of_pos (by simp), List.replicate_succ, ← headerColumns_row kind
            bindings]
          rfl
      | part belongs _ =>
          rw [List.countP_cons_of_neg (by simpa using belongs.ne.1), packetHeaders_of_ne]
          · rfl
          · intro row member
            rw [List.mem_singleton.mp member]
            exact belongs.ne.1

theorem countP_packet_eq_zero {insertions : List Insertion}
    (beside : ∀ insertion ∈ insertions, insertion.table ≠ .packet) :
    insertions.countP (·.table = .packet) = 0 := by
  simpa [List.countP_eq_zero] using beside

theorem Request.countP_packet {request : Request} (message : request.header = some header)
    (nextId : Nat) (flow : TcpFlowData) :
    (request.plan env info nextId flow).insertions.countP (·.table = .packet) = 1 := by
  have first : ∀ {packet : Insertion} {rest : List Insertion}, packet.table = .packet →
      (∀ insertion ∈ rest, insertion.table ≠ .packet) →
      (packet :: rest).countP (·.table = .packet) = 1 := fun packet beside =>
    (List.countP_cons_of_pos (by simpa using packet)).trans
      (congrArg (· + 1) (countP_packet_eq_zero beside))
  have last : ∀ {packet : Insertion} {rest : List Insertion}, packet.table = .packet →
      (∀ insertion ∈ rest, insertion.table ≠ .packet) →
      (rest ++ [packet]).countP (·.table = .packet) = 1 := by
    intro packet rest isPacket beside
    rw [List.countP_append, countP_packet_eq_zero beside]
    simp [isPacket]
  cases request <;> cases message
  case telemetryReq => rfl
  case telemetryAck => rfl
  case frontierReq => rfl
  case bulkPull => rfl
  case bulkPullAccount => rfl
  case bulkPush => rfl
  case keepalive msg => exact first rfl (peerInsertions_beside _ _ _ _)
  case nodeIdHandshake msg => exact first rfl (handshakeInsertions_beside _ _ _ _ _ _)
  case confirmAck msg => exact last rfl (voteInsertions_beside _ _ _ _ _)
  case confirmReq msg => exact last rfl (blockInsertions_beside _ _ _ _)
  case publish msg => exact last rfl (blockInsertions_beside _ _ _ _)

theorem Request.packetHeaders_plan {request : Request} (message : request.header = some header)
    (nextId : Nat) (flow : TcpFlowData) (bindings : Bindings) :
    packetHeaders ((request.plan env info nextId flow).rows bindings) = [header.columns] := by
  rw [Plan.rows, packetHeaders_insertedRows
    (fun insertion member => request.messageInsertions message nextId flow member),
    request.countP_packet message]
  rfl

end Rows

end Nanocap
