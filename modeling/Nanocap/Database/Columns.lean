import Mathlib.Data.List.Induction
import Nanocap.Database.Requests

/-! # Columns of inserted rows

The value a row has in a column is the last one bound for it, or what an earlier
call has left bound. -/

namespace Nanocap

/-! ## Bound values -/

def boundTo (cells : List Cell) (parameter : Parameter) : Option Value :=
  cells.reverse.lookup parameter

theorem boundTo_append (first second : List Cell) (parameter : Parameter) :
    boundTo (first ++ second) parameter =
      (boundTo second parameter).or (boundTo first parameter) := by
  rw [boundTo, List.reverse_append, List.lookup_append]
  rfl

theorem boundTo_of_notMem {cells : List Cell} {parameter : Parameter}
    (unbound : parameter ∉ cells.map Prod.fst) : boundTo cells parameter = none := by
  rw [boundTo, List.lookup_eq_none_iff]
  intro cell member
  rw [bne_iff_ne]
  rintro rfl
  exact unbound (List.mem_map_of_mem (List.mem_reverse.mp member))

theorem overwrite_eq (bindings : Parameter → Value) (cells : List Cell) (parameter : Parameter) :
    overwrite bindings cells parameter = (boundTo cells parameter).getD (bindings parameter) := by
  induction cells using List.reverseRecOn with
  | nil => rfl
  | append_singleton cells cell induction =>
      obtain ⟨bound, value⟩ := cell
      rw [overwrite_append, boundTo_append]
      change Function.update (overwrite bindings cells) bound value parameter = _
      by_cases same : parameter = bound
      · subst same
        simp [boundTo]
      · have different : (parameter == bound) = false := beq_false_of_ne same
        simp [boundTo, List.lookup_cons, different, Function.update_of_ne same, induction]

theorem Table.get_row {table : Table} (bindings : Parameter → Value) {parameter : Parameter}
    (member : parameter ∈ table.parameters) :
    (table.row bindings).get parameter = bindings parameter := by
  rw [Row.get, Table.row, List.lookup_append, List.lookup_graph _ member]
  rfl

/-- A column its cells bind does not depend on what was bound before. -/
theorem Insertion.get_row {insertion : Insertion} {parameter : Parameter} {value : Value}
    (member : parameter ∈ insertion.table.parameters)
    (bound : boundTo insertion.cells parameter = some value) (bindings : Bindings) :
    (insertion.row bindings).get parameter = value := by
  rw [Insertion.row, Table.get_row _ member, overwrite_eq, bound]
  rfl

/-! ## Rows of a list of insertions -/

theorem exists_of_mem_insertedRows {bindings : Bindings} {insertions : List Insertion} {row : Row}
    (member : row ∈ insertedRows bindings insertions) :
    ∃ insertion ∈ insertions, ∃ before, row = insertion.row before := by
  induction insertions generalizing bindings with
  | nil => cases member
  | cons insertion insertions induction =>
      rcases List.mem_cons.mp member with rfl | member
      · exact ⟨insertion, by simp, bindings, rfl⟩
      · obtain ⟨other, inside, before, equal⟩ := induction member
        exact ⟨other, List.mem_cons_of_mem _ inside, before, equal⟩

theorem exists_row_of_mem {bindings : Bindings} {insertions : List Insertion}
    {insertion : Insertion} (member : insertion ∈ insertions) :
    ∃ before, insertion.row before ∈ insertedRows bindings insertions := by
  induction insertions generalizing bindings with
  | nil => cases member
  | cons first insertions induction =>
      rcases List.mem_cons.mp member with rfl | member
      · exact ⟨bindings, by simp [insertedRows]⟩
      · obtain ⟨before, inside⟩ := @induction (first.rebind bindings) member
        exact ⟨before, List.mem_cons_of_mem _ inside⟩

/-! ## Packet rows -/

section Packet

variable (header : MessageHeader) (info : NanoPacket) (id : Nat)

theorem boundTo_packetCells {parameter : Parameter}
    (own : boundTo info.packetFields parameter = none) :
    boundTo (header.packetCells info id) parameter = boundTo (header.cells id) parameter := by
  rw [MessageHeader.packetCells, boundTo_append, own]
  rfl

/-- The parameters `bind_packet_fields` may bind. -/
def packetFieldParameters : List Parameter :=
  [.srcip, .srcport, .dstip, .dstport, .timeUsec, .flowKey, .ipv, .time]

theorem packetFields_unbound {parameter : Parameter} (own : parameter ∉ packetFieldParameters) :
    boundTo info.packetFields parameter = none := by
  refine boundTo_of_notMem fun bound => own ?_
  unfold NanoPacket.packetFields at bound
  split at bound
  · exact bound
  · rw [List.append_nil] at bound
    exact List.mem_append_left [.time] bound

end Packet

theorem packet_get {content : List Cell} {header : MessageHeader} {info : NanoPacket} {id : Nat}
    {parameter : Parameter} {value : Value} (column : parameter ∈ Table.packet.parameters)
    (own : parameter ∉ packetFieldParameters) (unbound : boundTo content parameter = none)
    (bound : boundTo (header.cells id) parameter = some value) (bindings : Bindings) :
    (Insertion.row ⟨.packet, header.packetCells info id ++ content⟩ bindings).get parameter =
      value := by
  refine Insertion.get_row column ?_ bindings
  rw [boundTo_append, unbound,
    boundTo_packetCells header info id (packetFields_unbound info own), bound]
  rfl

theorem contentCells_unbound {content : List Cell}
    (kind : content = [] ∨ ∃ id name, content = packetContentCells id name)
    {parameter : Parameter} (own : parameter ∉ [.contentId, .contentTable]) :
    boundTo content parameter = none := by
  rcases kind with rfl | ⟨id, name, rfl⟩
  · rfl
  · exact boundTo_of_notMem own

/-! ## Insertions by their kind -/

section Kinds

variable {env : Environment} {insertion : Insertion} {id packetId : Nat}

theorem mem_blockInsertions {blockSelector : Option BlockSelector} :
    insertion ∈ blockInsertions env blockSelector id packetId ↔
      ∃ block, storable env blockSelector = some block ∧
        insertion = ⟨block.table, block.cells env id packetId⟩ := by
  unfold blockInsertions
  cases storable env blockSelector <;> simp

theorem exists_of_mem_peerInsertions {peers : List Peer}
    (member : insertion ∈ peerInsertions env packetId id peers) :
    ∃ (peer : Peer) (id : Nat), insertion = ⟨.keepaliveHost, peer.cells env id packetId⟩ := by
  induction peers generalizing id with
  | nil => cases member
  | cons peer peers induction =>
      rcases List.mem_cons.mp member with rfl | member
      · exact ⟨peer, id, rfl⟩
      · exact induction member

theorem exists_of_mem_queryInsertions {query : Option NodeIdQuery}
    (member : insertion ∈ queryInsertions id packetId query) :
    ∃ query : NodeIdQuery, insertion = ⟨.nodeidQuery, query.cells id packetId⟩ := by
  cases query with
  | none => cases member
  | some query => exact ⟨query, List.mem_singleton.mp member⟩

theorem exists_of_mem_responseInsertions {response : Option NodeIdResponse}
    (member : insertion ∈ responseInsertions env id packetId response) :
    ∃ response : NodeIdResponse,
      insertion = ⟨.nodeidResponse, response.cells env id packetId⟩ := by
  cases response with
  | none => cases member
  | some response => exact ⟨response, List.mem_singleton.mp member⟩

end Kinds

theorem Block.cells_covers (env : Environment) (block : Block) (id packetId : Nat) :
    (block.cells env id packetId).map Prod.fst = block.table.parameters := by
  cases block <;> rfl

/-! ## Insertions of bulk entries -/

theorem storable_eq_some {env : Environment} {selector : BlockSelector} {block : Block}
    (stored : storable env (some selector) = some block) : selector = .known block := by
  unfold storable at stored
  split at stored
  · rename_i other equal
    cases equal
    split at stored <;> cases stored
    rfl
  · cases stored

theorem Plan.mem_bulkEntry {env : Environment} {info : NanoPacket} {table : Table}
    {request : Cell} {event : String} {selector : BlockSelector} {flow : TcpFlowData}
    {nextId : Nat} {insertion : Insertion}
    (member : insertion ∈
      (Plan.bulkEntry env info table request event selector flow nextId).insertions) :
    insertion.table = .connection ∨ ∃ block, storable env (some selector) = some block ∧
      (insertion = ⟨block.table, block.cells env nextId flow.packetId⟩ ∨
        insertion = ⟨table, referenceCells request (nextId + 1) nextId block.table.name⟩) := by
  unfold Plan.bulkEntry at member
  cases stored : storable env (some selector) with
  | some block =>
      rw [stored] at member
      rcases List.mem_cons.mp member with rfl | member
      · exact .inr ⟨block, rfl, .inl rfl⟩
      · exact .inr ⟨block, rfl, .inr (List.mem_singleton.mp member)⟩
  | none =>
      rw [stored] at member
      dsimp only at member
      split at member
      · rw [List.mem_singleton.mp member]
        exact .inl rfl
      · cases member

/-! ## Insertions of messages -/

def Request.header : Request → Option MessageHeader
  | telemetryReq header | telemetryAck header _ | keepalive header _ | confirmAck header _
  | confirmReq header _ | publish header _ | nodeIdHandshake header _ | frontierReq header _
  | bulkPull header _ | bulkPullAccount header _ | bulkPush header => some header
  | _ => none

/-- The tables of the rows that point to the packet they came with. -/
def Table.BelongsToPacket : Table → Prop
  | keepaliveHost | vote | blockState | blockSend | blockReceive | blockOpen | blockChange
  | nodeidQuery | nodeidResponse | telemetry | frontierRequest | bulkPullRequest
  | bulkPullAccountRequest => True
  | _ => False

theorem Table.BelongsToPacket.ne {table : Table} (belongs : table.BelongsToPacket) :
    table ≠ .packet ∧ table ≠ .bulkPushEntry := by
  constructor <;> rintro rfl <;> exact belongs

theorem Block.table_belongs (block : Block) : block.table.BelongsToPacket := by
  cases block <;> trivial

theorem Block.boundTo_id (env : Environment) (block : Block) (id packetId : Nat) :
    boundTo (block.cells env id packetId) .id = some (.nat id) := by
  cases block <;> rfl

theorem Block.boundTo_packetId (env : Environment) (block : Block) (id packetId : Nat) :
    boundTo (block.cells env id packetId) .packetId = some (.nat packetId) := by
  cases block <;> rfl

theorem MsgConfirmAck.boundTo_packetId (env : Environment) (msg : MsgConfirmAck)
    (blockContentId id packetId : Nat) :
    boundTo (msg.voteCells env blockContentId id packetId) .packetId =
      some (.nat packetId) := by
  rw [MsgConfirmAck.voteCells, boundTo_append]
  rfl

/-- An insertion of a message is its packet row or a row that belongs to it. -/
inductive MessageInsertion (info : NanoPacket) (header : MessageHeader) (packetId : Nat) :
    Insertion → Prop where
  | packet (content : List Cell) :
      (content = [] ∨ ∃ id name, content = packetContentCells id name) →
      MessageInsertion info header packetId ⟨.packet, header.packetCells info packetId ++ content⟩
  | part {insertion : Insertion} : insertion.table.BelongsToPacket →
      boundTo insertion.cells .packetId = some (.nat packetId) →
      MessageInsertion info header packetId insertion

section Messages

variable {env : Environment} {info : NanoPacket} {header : MessageHeader} {packetId : Nat}

theorem messageInsertion_packet :
    MessageInsertion info header packetId ⟨.packet, header.packetCells info packetId⟩ := by
  have packet := @MessageInsertion.packet info header packetId [] (.inl rfl)
  rwa [List.append_nil] at packet

theorem messageInsertion_block {blockSelector : Option BlockSelector} {id : Nat}
    {insertion : Insertion} (member : insertion ∈ blockInsertions env blockSelector id packetId) :
    MessageInsertion info header packetId insertion := by
  obtain ⟨block, -, rfl⟩ := mem_blockInsertions.mp member
  exact .part block.table_belongs (block.boundTo_packetId env id packetId)

theorem Request.messageInsertions {request : Request} (message : request.header = some header)
    (nextId : Nat) (flow : TcpFlowData) {insertion : Insertion}
    (member : insertion ∈ (request.plan env info nextId flow).insertions) :
    MessageInsertion info header nextId insertion := by
  -- the packet row alone, or the packet row and one row behind it
  have one : ∀ (table : Table) (cells : List Cell), table.BelongsToPacket →
      boundTo cells .packetId = some (.nat nextId) →
      insertion ∈ [⟨.packet, header.packetCells info nextId⟩, ⟨table, cells⟩] →
      MessageInsertion info header nextId insertion := by
    intro table cells belongs bound member
    rcases List.mem_cons.mp member with rfl | member
    · exact messageInsertion_packet
    · obtain rfl := List.mem_singleton.mp member
      exact .part belongs bound
  -- a packet row that points to a block
  have pointing : ∀ blockSelector, insertion ∈ (Plan.withBlock env info header blockSelector
      nextId).insertions → MessageInsertion info header nextId insertion := by
    intro blockSelector member
    rcases List.mem_append.mp member with member | member
    · exact messageInsertion_block member
    · obtain rfl := List.mem_singleton.mp member
      exact .packet _ (.inr ⟨_, _, rfl⟩)
  cases request <;> cases message
  case telemetryReq =>
    obtain rfl := List.mem_singleton.mp member
    exact messageInsertion_packet
  case telemetryAck msg => exact one .telemetry _ trivial rfl member
  case keepalive msg =>
    rcases List.mem_cons.mp member with rfl | member
    · exact messageInsertion_packet
    · obtain ⟨peer, id, rfl⟩ := exists_of_mem_peerInsertions member
      exact .part trivial rfl
  case confirmAck msg =>
    rcases List.mem_append.mp member with member | member
    · rcases List.mem_append.mp member with member | member
      · unfold voteBlockInsertions at member
        split at member
        · exact messageInsertion_block member
        · cases member
      · obtain rfl := List.mem_singleton.mp member
        exact .part trivial (msg.boundTo_packetId env _ _ _)
    · obtain rfl := List.mem_singleton.mp member
      exact .packet _ (.inr ⟨_, _, rfl⟩)
  case confirmReq msg => exact pointing _ member
  case publish msg => exact pointing _ member
  case nodeIdHandshake msg =>
    rcases List.mem_cons.mp member with rfl | member
    · exact messageInsertion_packet
    · rcases List.mem_append.mp member with member | member
      · obtain ⟨query, rfl⟩ := exists_of_mem_queryInsertions member
        exact .part trivial rfl
      · obtain ⟨response, rfl⟩ := exists_of_mem_responseInsertions member
        exact .part trivial rfl
  case frontierReq msg => exact one .frontierRequest _ trivial rfl member
  case bulkPull msg => exact one .bulkPullRequest _ trivial rfl member
  case bulkPullAccount msg => exact one .bulkPullAccountRequest _ trivial rfl member
  case bulkPush =>
    obtain rfl := List.mem_singleton.mp member
    exact messageInsertion_packet

end Messages

end Nanocap
