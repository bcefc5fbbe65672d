import Mathlib.Data.List.Forall2
import Nanocap.Database.Refinement
import Nanocap.Foundation.Simulation

/-! # Databases that differ in ids

Two databases that were given the same traffic at different values of the id
counter hold the same rows up to a correspondence of ids. -/

namespace Nanocap

/-! ## Correspondences -/

/-- Which id of the left database is which id of the right one. -/
abbrev IdMatch := Nat → Nat → Prop

namespace IdMatch

def OneToOne (same : IdMatch) : Prop :=
  ∀ left right left' right', same left right → same left' right' →
    (left = left' ↔ right = right')

def extend (same : IdMatch) (left right count : Nat) : IdMatch := fun a b =>
  same a b ∨ ∃ drawn < count, a = left + drawn ∧ b = right + drawn

theorem le_extend (same : IdMatch) (left right count : Nat) :
    same ≤ same.extend left right count := fun _ _ holds => .inl holds

theorem extend_drawn (same : IdMatch) (left right : Nat) {count drawn : Nat}
    (below : drawn < count) : same.extend left right count (left + drawn) (right + drawn) :=
  .inr ⟨drawn, below, rfl, rfl⟩

theorem extend_zero (same : IdMatch) (left right : Nat) : same.extend left right 0 = same := by
  funext a b
  simp [extend]

theorem extend_extend (same : IdMatch) (left right first second : Nat) :
    (same.extend left right first).extend (left + first) (right + first) second =
      same.extend left right (first + second) := by
  funext a b
  refine propext ⟨?_, ?_⟩
  · rintro ((old | ⟨drawn, below, rfl, rfl⟩) | ⟨drawn, below, rfl, rfl⟩)
    · exact .inl old
    · exact .inr ⟨drawn, Nat.lt_add_right second below, rfl, rfl⟩
    · exact .inr ⟨first + drawn, Nat.add_lt_add_left below first, Nat.add_assoc ..,
        Nat.add_assoc ..⟩
  · rintro (old | ⟨drawn, below, rfl, rfl⟩)
    · exact .inl (.inl old)
    · rcases Nat.lt_or_ge drawn first with early | late
      · exact .inl (.inr ⟨drawn, early, rfl, rfl⟩)
      · obtain ⟨rest, rfl⟩ := Nat.exists_eq_add_of_le late
        exact .inr ⟨rest, Nat.lt_of_add_lt_add_left below, (Nat.add_assoc ..).symm,
          (Nat.add_assoc ..).symm⟩

/-- Only ids drawn so far correspond. -/
def Bounded (same : IdMatch) (left right : Nat) : Prop :=
  ∀ a b, same a b → a < left ∧ b < right

theorem Bounded.mono {same : IdMatch} {left right left' right' : Nat}
    (bounded : same.Bounded left right) (growsLeft : left ≤ left') (growsRight : right ≤ right') :
    same.Bounded left' right' := fun a b holds =>
  ⟨Nat.lt_of_lt_of_le (bounded a b holds).1 growsLeft,
    Nat.lt_of_lt_of_le (bounded a b holds).2 growsRight⟩

theorem Bounded.extend {same : IdMatch} {left right : Nat} (bounded : same.Bounded left right)
    (count : Nat) : (same.extend left right count).Bounded (left + count) (right + count) := by
  rintro a b (old | ⟨drawn, below, rfl, rfl⟩)
  · have := bounded a b old
    omega
  · omega

theorem OneToOne.extend {same : IdMatch} {left right : Nat} (oneToOne : same.OneToOne)
    (bounded : same.Bounded left right) (count : Nat) :
    (same.extend left right count).OneToOne := by
  rintro a b a' b' (old | ⟨drawn, -, rfl, rfl⟩) (old' | ⟨drawn', -, rfl, rfl⟩)
  · exact oneToOne a b a' b' old old'
  · have := bounded a b old
    omega
  · have := bounded a' b' old'
    omega
  · omega

end IdMatch

/-! ## Values, cells and rows -/

def Parameter.isId : Parameter → Bool
  | id | packetId | contentId | frontierRequestId | bulkPullRequestId
  | bulkPullAccountRequestId => true
  | _ => false

section Alike

variable (same : IdMatch)

/-- Ids correspond, and everything else is the same. -/
def Value.Alike (parameter : Parameter) (left right : Value) : Prop :=
  if parameter.isId then
    left = .null ∧ right = .null ∨ ∃ a b, same a b ∧ left = .nat a ∧ right = .nat b
  else left = right

def Cell.Alike (left right : Cell) : Prop :=
  left.1 = right.1 ∧ Value.Alike same left.1 left.2 right.2

def Row.Alike (left right : Row) : Prop :=
  left.table = right.table ∧ List.Forall₂ (Cell.Alike same) left.cells right.cells

def Insertion.Alike (left right : Insertion) : Prop :=
  left.table = right.table ∧ List.Forall₂ (Cell.Alike same) left.cells right.cells

structure Plan.Alike (left right : Plan) : Prop where
  heading : left.heading = right.heading
  ids : left.ids = right.ids
  insertions : List.Forall₂ (Insertion.Alike same) left.insertions right.insertions

/-- The flows differ in the ids of their request. -/
structure TcpFlowData.Alike (left right : TcpFlowData) : Prop where
  packetId : same left.packetId right.packetId
  messageId : same left.messageId right.messageId
  rest : right = { left with packetId := right.packetId, messageId := right.messageId }

/-- What is bound for the statements but the one of the connection events. -/
def Bindings.Alike (left right : Bindings) : Prop :=
  ∀ table, table ≠ .connection → ∀ parameter,
    Value.Alike same parameter (left table parameter) (right table parameter)

end Alike

section Rules

variable {same : IdMatch}

theorem Value.alike_id {parameter : Parameter} (isId : parameter.isId = true) {left right : Nat}
    (holds : same left right) : Value.Alike same parameter (.nat left) (.nat right) := by
  rw [Value.Alike, if_pos isId]
  exact .inr ⟨left, right, holds, rfl, rfl⟩

theorem Value.alike_null (parameter : Parameter) : Value.Alike same parameter .null .null := by
  unfold Value.Alike
  split
  · exact .inl ⟨rfl, rfl⟩
  · rfl

theorem Value.alike_other {parameter : Parameter} (other : parameter.isId = false)
    (value : Value) : Value.Alike same parameter value value := by
  rw [Value.Alike, if_neg (by simp [other])]

theorem Value.Alike.mono {more : IdMatch} (grows : same ≤ more) {parameter : Parameter}
    {left right : Value} (alike : Value.Alike same parameter left right) :
    Value.Alike more parameter left right := by
  unfold Value.Alike at alike ⊢
  split
  · rename_i isId
    rw [if_pos isId] at alike
    rcases alike with null | ⟨a, b, holds, equal⟩
    · exact .inl null
    · exact .inr ⟨a, b, grows a b holds, equal⟩
  · rename_i other
    rwa [if_neg other] at alike

theorem cells_alike {cells : List Cell} (noIds : ∀ cell ∈ cells, cell.1.isId = false) :
    List.Forall₂ (Cell.Alike same) cells cells := by
  induction cells with
  | nil => exact .nil
  | cons cell cells induction =>
      exact .cons ⟨rfl, Value.alike_other (noIds cell (by simp)) _⟩
        (induction fun other member => noIds other (by simp [member]))

theorem Row.Alike.mono {more : IdMatch} (grows : same ≤ more) {left right : Row}
    (alike : Row.Alike same left right) : Row.Alike more left right :=
  ⟨alike.1, alike.2.imp fun _ _ cell => ⟨cell.1, cell.2.mono grows⟩⟩

theorem TcpFlowData.Alike.mono {more : IdMatch} (grows : same ≤ more) {left right : TcpFlowData}
    (alike : TcpFlowData.Alike same left right) : TcpFlowData.Alike more left right :=
  ⟨grows _ _ alike.packetId, grows _ _ alike.messageId, alike.rest⟩

theorem Bindings.Alike.mono {more : IdMatch} (grows : same ≤ more) {left right : Bindings}
    (alike : Bindings.Alike same left right) : Bindings.Alike more left right :=
  fun table other parameter => (alike table other parameter).mono grows

/-! ## Executing alike insertions -/

theorem overwrite_alike {left right : Parameter → Value} {cells cells' : List Cell}
    (bindings : ∀ parameter, Value.Alike same parameter (left parameter) (right parameter))
    (bound : List.Forall₂ (Cell.Alike same) cells cells') (parameter : Parameter) :
    Value.Alike same parameter (overwrite left cells parameter)
      (overwrite right cells' parameter) := by
  induction bound generalizing left right with
  | nil => exact bindings parameter
  | @cons cell cell' _ _ alike _ induction =>
      obtain ⟨column, value⟩ := cell
      obtain ⟨column', value'⟩ := cell'
      obtain ⟨rfl, values⟩ := alike
      refine induction fun other => ?_
      by_cases equal : other = column
      · subst equal
        simpa using values
      · simpa [Function.update_of_ne equal] using bindings other

theorem Table.row_alike (table : Table) {left right : Parameter → Value}
    (bindings : ∀ parameter, Value.Alike same parameter (left parameter) (right parameter)) :
    Row.Alike same (table.row left) (table.row right) := by
  refine ⟨rfl, List.rel_append ?_ (cells_alike ?_)⟩
  · rw [List.forall₂_map_left_iff, List.forall₂_map_right_iff, List.forall₂_same]
    exact fun parameter _ => ⟨rfl, bindings parameter⟩
  · cases table <;> simp [Table.stamps, Parameter.isId]

theorem Insertion.Alike.row {left right : Bindings} {insertion insertion' : Insertion}
    (bindings : Bindings.Alike same left right) (alike : Insertion.Alike same insertion insertion')
    (other : insertion.table ≠ .connection) :
    Row.Alike same (insertion.row left) (insertion'.row right) := by
  rw [Insertion.row, Insertion.row, ← alike.1]
  exact Table.row_alike _ (overwrite_alike (bindings _ other) alike.2)

theorem Insertion.Alike.rebind {left right : Bindings} {insertion insertion' : Insertion}
    (bindings : Bindings.Alike same left right)
    (alike : Insertion.Alike same insertion insertion') :
    Bindings.Alike same (insertion.rebind left) (insertion'.rebind right) := by
  intro table other parameter
  rw [Insertion.rebind, Insertion.rebind, ← alike.1]
  by_cases equal : table = insertion.table
  · subst equal
    rw [Function.update_self, Function.update_self]
    exact overwrite_alike (bindings _ other) alike.2 parameter
  · rw [Function.update_of_ne equal, Function.update_of_ne equal]
    exact bindings table other parameter

def dataRows (rows : List Row) : List Row := rows.filter fun row => row.table ≠ .connection

theorem dataRows_append (first second : List Row) :
    dataRows (first ++ second) = dataRows first ++ dataRows second := List.filter_append ..

private theorem insertedRows_alike {left right : Bindings} {insertions insertions' : List Insertion}
    (bindings : Bindings.Alike same left right)
    (alike : List.Forall₂ (Insertion.Alike same) insertions insertions') :
    List.Forall₂ (Row.Alike same) (dataRows (insertedRows left insertions))
      (dataRows (insertedRows right insertions')) := by
  induction alike generalizing left right with
  | nil => exact .nil
  | @cons insertion insertion' _ _ alike _ induction =>
      have rest := induction (alike.rebind bindings)
      rw [insertedRows, insertedRows]
      by_cases event : insertion.table = .connection
      · have left : (insertion.row left).table = .connection := event
        have right : (insertion'.row right).table = .connection := alike.1.symm.trans event
        rw [dataRows, dataRows, List.filter_cons_of_neg (by simp [left]),
          List.filter_cons_of_neg (by simp [right])]
        exact rest
      · have left : (insertion.row left).table ≠ .connection := event
        have right : (insertion'.row right).table ≠ .connection := fun same =>
          event (alike.1.trans same)
        rw [dataRows, dataRows, List.filter_cons_of_pos (by simpa using left),
          List.filter_cons_of_pos (by simpa using right)]
        exact .cons (alike.row bindings event) rest

private theorem foldl_rebind_alike {left right : Bindings} {insertions insertions' : List Insertion}
    (bindings : Bindings.Alike same left right)
    (alike : List.Forall₂ (Insertion.Alike same) insertions insertions') :
    Bindings.Alike same
      (insertions.foldl (fun current insertion => insertion.rebind current) left)
      (insertions'.foldl (fun current insertion => insertion.rebind current) right) := by
  induction alike generalizing left right with
  | nil => exact bindings
  | cons alike _ induction => exact induction (alike.rebind bindings)

theorem Heading.clear_alike {left right : Bindings} (heading : Option Heading)
    (bindings : Bindings.Alike same left right) :
    Bindings.Alike same (clear heading left) (clear heading right) := by
  unfold clear
  split
  · intro table other parameter
    by_cases equal : table = .packet
    · subst equal
      simpa using Value.alike_null parameter
    · simpa [Function.update_of_ne equal] using bindings table other parameter
  · exact bindings

section Plan

variable {left right : Plan} {bindings bindings' : Bindings}
  (alike : Plan.Alike same left right) (bound : Bindings.Alike same bindings bindings')
include alike bound

theorem Plan.Alike.rows :
    List.Forall₂ (Row.Alike same) (dataRows (left.rows bindings))
      (dataRows (right.rows bindings')) := by
  rw [Plan.rows, Plan.rows, ← alike.heading]
  exact insertedRows_alike (Heading.clear_alike _ bound) alike.insertions

theorem Plan.Alike.rebind :
    Bindings.Alike same (left.rebind bindings) (right.rebind bindings') := by
  rw [Plan.rebind, Plan.rebind, ← alike.heading]
  exact foldl_rebind_alike (Heading.clear_alike _ bound) alike.insertions

end Plan

end Rules

/-! ## Cells of one call -/

section Cells

variable {same : IdMatch}

private theorem Cell.alike_mk {column column' : Parameter} {left right : Value} :
    Cell.Alike same (column, left) (column', right) ↔
      column = column' ∧ Value.Alike same column left right := Iff.rfl

attribute [local simp] Cell.alike_mk Value.Alike Parameter.isId Value.nat_inj

variable {id id' packetId packetId' : Nat} (ids : same id id') (packetIds : same packetId packetId')
include ids

theorem MessageHeader.packetCells_alike (header : MessageHeader) (info : NanoPacket) :
    List.Forall₂ (Cell.Alike same) (header.packetCells info id) (header.packetCells info id') := by
  refine List.rel_append (by simp [MessageHeader.cells, ids]) (cells_alike ?_)
  unfold NanoPacket.packetFields
  split <;> simp

theorem NanoPacket.connectionCells_alike (info : NanoPacket) (event : String) :
    List.Forall₂ (Cell.Alike same) (info.connectionCells event id)
      (info.connectionCells event id') := by
  simp [NanoPacket.connectionCells, ids]

theorem packetContentCells_alike (contentTable : String) :
    List.Forall₂ (Cell.Alike same) (packetContentCells id contentTable)
      (packetContentCells id' contentTable) := by
  simp [packetContentCells, ids]

theorem FrontierEntry.cells_alike (env : Environment) (entry : FrontierEntry)
    {messageId messageId' : Nat} (messageIds : same messageId messageId') :
    List.Forall₂ (Cell.Alike same) (entry.cells env id messageId)
      (entry.cells env id' messageId') := by
  simp [FrontierEntry.cells, ids, messageIds]

theorem FrontierBalanceEntry.cells_alike (entry : FrontierBalanceEntry)
    {messageId messageId' : Nat} (messageIds : same messageId messageId') :
    List.Forall₂ (Cell.Alike same) (entry.cells id messageId) (entry.cells id' messageId') := by
  simp [FrontierBalanceEntry.cells, ids, messageIds]

theorem BulkPullAccountEntry.cells_alike (entry : BulkPullAccountEntry) (flags : UInt8)
    {messageId messageId' : Nat} (messageIds : same messageId messageId') :
    List.Forall₂ (Cell.Alike same) (entry.cells flags id messageId)
      (entry.cells flags id' messageId') := by
  unfold BulkPullAccountEntry.cells
  dsimp only
  split <;> split <;> simp [ids, messageIds]

include packetIds

theorem Block.cells_alike (env : Environment) (block : Block) :
    List.Forall₂ (Cell.Alike same) (block.cells env id packetId)
      (block.cells env id' packetId') := by
  cases block <;> simp [Block.cells, ids, packetIds]

theorem MsgTelemetryAck.cells_alike (env : Environment) (msg : MsgTelemetryAck) :
    List.Forall₂ (Cell.Alike same) (msg.cells env id packetId) (msg.cells env id' packetId') := by
  simp [MsgTelemetryAck.cells, ids, packetIds]

theorem Peer.cells_alike (env : Environment) (peer : Peer) :
    List.Forall₂ (Cell.Alike same) (peer.cells env id packetId)
      (peer.cells env id' packetId') := by
  simp [Peer.cells, ids, packetIds]

theorem NodeIdQuery.cells_alike (query : NodeIdQuery) :
    List.Forall₂ (Cell.Alike same) (query.cells id packetId) (query.cells id' packetId') := by
  simp [NodeIdQuery.cells, ids, packetIds]

theorem NodeIdResponse.cells_alike (env : Environment) (response : NodeIdResponse) :
    List.Forall₂ (Cell.Alike same) (response.cells env id packetId)
      (response.cells env id' packetId') := by
  simp [NodeIdResponse.cells, ids, packetIds]

theorem MsgFrontierReq.cells_alike (msg : MsgFrontierReq) :
    List.Forall₂ (Cell.Alike same) (msg.cells id packetId) (msg.cells id' packetId') := by
  simp [MsgFrontierReq.cells, ids, packetIds]

theorem MsgBulkPull.cells_alike (env : Environment) (msg : MsgBulkPull) :
    List.Forall₂ (Cell.Alike same) (msg.cells env id packetId) (msg.cells env id' packetId') := by
  simp [MsgBulkPull.cells, ids, packetIds]

theorem MsgBulkPullAccount.cells_alike (env : Environment) (msg : MsgBulkPullAccount) :
    List.Forall₂ (Cell.Alike same) (msg.cells env id packetId) (msg.cells env id' packetId') := by
  simp [MsgBulkPullAccount.cells, ids, packetIds]

private theorem MsgConfirmAck.voteCells_alike (env : Environment) (msg : MsgConfirmAck)
    {blockId blockId' : Nat} (blockIds : same blockId blockId') :
    List.Forall₂ (Cell.Alike same) (msg.voteCells env blockId id packetId)
      (msg.voteCells env blockId' id' packetId') := by
  refine List.rel_append (List.rel_append ?_ ?_) (by simp [ids, packetIds])
  · unfold MsgConfirmAck.contentCells
    split
    · simp [blockIds]
    · split <;> simp
  · simp [VoteCommon.cells]

end Cells

/-! ## Plans of one call -/

section Plans

variable {same : IdMatch} {env : Environment} {info : NanoPacket}
  {packetId packetId' : Nat} (packetIds : same packetId packetId')
include packetIds

theorem Plan.message_alike (header : MessageHeader) (drawn ids : Nat)
    {rest rest' : List Insertion} (behind : List.Forall₂ (Insertion.Alike same) rest rest') :
    Plan.Alike same (.message info header drawn ids packetId rest)
      (.message info header drawn ids packetId' rest') :=
  ⟨rfl, rfl, .cons ⟨rfl, header.packetCells_alike packetIds info⟩ behind⟩

theorem Plan.withContent_alike (header : MessageHeader) (ids : Nat)
    {rest rest' : List Insertion} (before : List.Forall₂ (Insertion.Alike same) rest rest')
    {content content' : List Cell} (points : List.Forall₂ (Cell.Alike same) content content') :
    Plan.Alike same (.withContent info header ids packetId rest content)
      (.withContent info header ids packetId' rest' content') :=
  ⟨rfl, rfl, List.rel_append before
    (.cons ⟨rfl, List.rel_append (header.packetCells_alike packetIds info) points⟩ .nil)⟩

theorem blockInsertions_alike (blockSelector : Option BlockSelector) {id id' : Nat}
    (ids : same id id') :
    List.Forall₂ (Insertion.Alike same) (blockInsertions env blockSelector id packetId)
      (blockInsertions env blockSelector id' packetId') := by
  unfold blockInsertions
  split
  · exact .cons ⟨rfl, Block.cells_alike ids packetIds env _⟩ .nil
  · exact .nil

private theorem peerInsertions_alike (peers : List Peer) {id id' : Nat}
    (ids : ∀ drawn < peers.length, same (id + drawn) (id' + drawn)) :
    List.Forall₂ (Insertion.Alike same) (peerInsertions env packetId id peers)
      (peerInsertions env packetId' id' peers) := by
  induction peers generalizing id id' with
  | nil => exact .nil
  | cons peer peers induction =>
      refine .cons ⟨rfl, peer.cells_alike (ids 0 (Nat.succ_pos _)) packetIds env⟩
        (induction fun drawn below => ?_)
      have next := ids (drawn + 1) (Nat.succ_lt_succ below)
      rwa [Nat.add_right_comm id, Nat.add_right_comm id', Nat.add_assoc, Nat.add_assoc]

omit packetIds

theorem Plan.entry_alike (table : Table) {cells cells' : List Cell}
    (alike : List.Forall₂ (Cell.Alike same) cells cells') :
    Plan.Alike same (.entry table cells) (.entry table cells') :=
  ⟨rfl, rfl, .cons ⟨rfl, alike⟩ .nil⟩

variable {nextId nextId' : Nat} {flow flow' : TcpFlowData}

/-- The vote and its block. -/
private theorem Request.confirmAck_alike (header : MessageHeader) (msg : MsgConfirmAck)
    (ids : ∀ drawn < 1 + (msg.blockIds + 1), same (nextId + drawn) (nextId' + drawn)) :
    Plan.Alike same ((confirmAck header msg).plan env info nextId flow)
      ((confirmAck header msg).plan env info nextId' flow') := by
  have first := ids 0 (by omega)
  have blockId := ids 1 (by omega)
  have vote := ids (1 + msg.blockIds) (by omega)
  rw [← Nat.add_assoc, ← Nat.add_assoc] at vote
  have block : List.Forall₂ (Insertion.Alike same)
      (voteBlockInsertions env msg (nextId + 1) nextId)
      (voteBlockInsertions env msg (nextId' + 1) nextId') := by
    unfold voteBlockInsertions
    split
    · exact blockInsertions_alike first _ blockId
    · exact .nil
  have row : Insertion.Alike same
      ⟨.vote, msg.voteCells env (nextId + 1) (nextId + 1 + msg.blockIds) nextId⟩
      ⟨.vote, msg.voteCells env (nextId' + 1) (nextId' + 1 + msg.blockIds) nextId'⟩ :=
    ⟨rfl, msg.voteCells_alike vote first env blockId⟩
  exact Plan.withContent_alike first header _ (List.rel_append block (.cons row .nil))
    (packetContentCells_alike vote _)

private theorem Request.nodeIdHandshake_alike (header : MessageHeader) (msg : MsgNodeIdHandshake)
    (ids : ∀ drawn < ((nodeIdHandshake header msg).plan env info nextId flow).ids,
      same (nextId + drawn) (nextId' + drawn)) :
    Plan.Alike same ((nodeIdHandshake header msg).plan env info nextId flow)
      ((nodeIdHandshake header msg).plan env info nextId' flow') := by
  obtain ⟨query, response⟩ := msg
  cases query with
  | none => cases response with
    | none => exact Plan.message_alike (ids 0 Nat.one_pos) header 1 1 .nil
    | some response =>
        exact Plan.message_alike (ids 0 Nat.two_pos) header 1 2 (.cons ⟨rfl,
          response.cells_alike (ids 1 Nat.one_lt_two) (ids 0 Nat.two_pos) env⟩ .nil)
  | some query => cases response with
    | none =>
        exact Plan.message_alike (ids 0 Nat.two_pos) header 1 2 (.cons ⟨rfl,
          query.cells_alike (ids 1 Nat.one_lt_two) (ids 0 Nat.two_pos)⟩ .nil)
    | some response =>
        have first := ids 0 (Nat.succ_pos 2)
        exact Plan.message_alike first header 1 3
          (.cons ⟨rfl, query.cells_alike (ids 1 (Nat.succ_lt_succ Nat.two_pos)) first⟩
            (.cons ⟨rfl, response.cells_alike (ids 2 (Nat.lt_succ_self 2)) first env⟩ .nil))

variable (flows : TcpFlowData.Alike same flow flow')
include flows

theorem TcpFlowData.Alike.requestFlags : flow.requestFlags = flow'.requestFlags := by
  rw [flows.rest]

theorem TcpFlowData.Alike.invalidResponseCount :
    flow.invalidResponseCount = flow'.invalidResponseCount := by
  rw [flows.rest]

theorem Plan.bulkEntry_alike (table : Table) {request request' : Cell}
    (requests : Cell.Alike same request request') (event : String) (block : BlockSelector)
    (ids : ∀ drawn < (bulkEntry env info table request event block flow nextId).ids,
      same (nextId + drawn) (nextId' + drawn)) :
    Plan.Alike same (.bulkEntry env info table request event block flow nextId)
      (.bulkEntry env info table request' event block flow' nextId') := by
  unfold bulkEntry at ids ⊢
  rw [← flows.invalidResponseCount]
  split
  · rename_i block stored
    rw [stored] at ids
    have first := ids 0 Nat.two_pos
    have second := ids 1 Nat.one_lt_two
    refine ⟨rfl, rfl,
      .cons ⟨rfl, block.cells_alike first flows.packetId env⟩ (.cons ⟨rfl, ?_⟩ .nil)⟩
    exact .cons ⟨rfl, Value.alike_id rfl second⟩ (.cons requests
      (.cons ⟨rfl, Value.alike_id rfl first⟩ (.cons ⟨rfl, Value.alike_other rfl _⟩ .nil)))
  · rename_i ignored
    rw [ignored] at ids
    split
    · rename_i unreported
      rw [if_pos unreported] at ids
      exact ⟨rfl, rfl, .cons ⟨rfl, info.connectionCells_alike (ids 1 Nat.one_lt_two) event⟩ .nil⟩
    · exact ⟨rfl, rfl, .nil⟩

theorem Request.plan_alike (request : Request)
    (ids : ∀ drawn < (request.plan env info nextId flow).ids,
      same (nextId + drawn) (nextId' + drawn)) :
    Plan.Alike same (request.plan env info nextId flow)
      (request.plan env info nextId' flow') := by
  cases request with
  | connection event =>
      exact Plan.entry_alike _ (info.connectionCells_alike (ids 0 Nat.one_pos) event)
  | telemetryReq header => exact Plan.message_alike (ids 0 Nat.one_pos) header 1 1 .nil
  | telemetryAck header msg =>
      exact Plan.message_alike (ids 0 Nat.two_pos) header 1 2
        (.cons ⟨rfl, msg.cells_alike (ids 1 Nat.one_lt_two) (ids 0 Nat.two_pos) env⟩ .nil)
  | keepalive header msg =>
      have ids : ∀ drawn < 1 + (msg.peers.getD []).length,
          same (nextId + drawn) (nextId' + drawn) := ids
      refine Plan.message_alike (ids 0 (by omega)) header 1 _
        (peerInsertions_alike (ids 0 (by omega)) _ fun drawn below => ?_)
      have next := ids (1 + drawn) (Nat.add_lt_add_left below 1)
      rwa [Nat.add_assoc, Nat.add_assoc]
  | confirmAck header msg => exact Request.confirmAck_alike header msg ids
  | confirmReq header msg =>
      exact Plan.withContent_alike (ids 0 Nat.two_pos) header 2
        (blockInsertions_alike (ids 0 Nat.two_pos) _ (ids 1 Nat.one_lt_two))
        (packetContentCells_alike (ids 1 Nat.one_lt_two) _)
  | publish header msg =>
      exact Plan.withContent_alike (ids 0 Nat.two_pos) header 2
        (blockInsertions_alike (ids 0 Nat.two_pos) _ (ids 1 Nat.one_lt_two))
        (packetContentCells_alike (ids 1 Nat.one_lt_two) _)
  | nodeIdHandshake header msg => exact Request.nodeIdHandshake_alike header msg ids
  | frontierReq header msg =>
      exact Plan.message_alike (ids 0 Nat.two_pos) header 1 2
        (.cons ⟨rfl, msg.cells_alike (ids 1 Nat.one_lt_two) (ids 0 Nat.two_pos)⟩ .nil)
  | bulkPull header msg =>
      exact Plan.message_alike (ids 0 Nat.two_pos) header 1 2
        (.cons ⟨rfl, msg.cells_alike (ids 1 Nat.one_lt_two) (ids 0 Nat.two_pos) env⟩ .nil)
  | bulkPullAccount header msg =>
      exact Plan.message_alike (ids 0 Nat.two_pos) header 2 2
        (.cons ⟨rfl, msg.cells_alike (ids 1 Nat.one_lt_two) (ids 0 Nat.two_pos) env⟩ .nil)
  | bulkPush header => exact Plan.message_alike (ids 0 Nat.one_pos) header 1 1 .nil
  | frontierEntry entry =>
      exact Plan.entry_alike _ (entry.cells_alike (ids 0 Nat.one_pos) env flows.messageId)
  | bulkPullEntry entry =>
      have request : Cell.Alike same (.bulkPullRequestId, .nat flow.messageId)
          (.bulkPullRequestId, .nat flow'.messageId) := ⟨rfl, Value.alike_id rfl flows.messageId⟩
      exact Plan.bulkEntry_alike flows _ request _ _ ids
  | bulkPushEntry entry =>
      have request : Cell.Alike same (.packetId, .nat flow.packetId)
          (.packetId, .nat flow'.packetId) := ⟨rfl, Value.alike_id rfl flows.packetId⟩
      exact Plan.bulkEntry_alike flows _ request _ _ ids
  | frontierBalanceEntry entry =>
      exact Plan.entry_alike _ (entry.cells_alike (ids 0 Nat.one_pos) flows.messageId)
  | bulkPullAccountEntry entry =>
      have cells := entry.cells_alike (ids 0 Nat.one_pos) flow.requestFlags flows.messageId
      have plans := Plan.entry_alike .bulkPullAccountResponseEntry cells
      rw [Request.plan, Request.plan, ← flows.requestFlags]
      exact plans

theorem TcpFlowData.Alike.withIds {packetId packetId' messageId messageId' : Nat}
    (packets : same packetId packetId') (messages : same messageId messageId') :
    TcpFlowData.Alike same { flow with packetId, messageId }
      { flow' with packetId := packetId', messageId := messageId' } := by
  refine ⟨packets, messages, ?_⟩
  rw [flows.rest]

theorem TcpFlowData.Alike.countInvalid :
    TcpFlowData.Alike same { flow with invalidResponseCount := flow.invalidResponseCount + 1 }
      { flow' with invalidResponseCount := flow'.invalidResponseCount + 1 } := by
  refine ⟨flows.packetId, flows.messageId, ?_⟩
  rw [flows.rest]

theorem Request.flowAfter_alike (request : Request)
    (ids : ∀ drawn < (request.plan env info nextId flow).ids,
      same (nextId + drawn) (nextId' + drawn)) :
    TcpFlowData.Alike same (request.flowAfter env nextId flow)
      (request.flowAfter env nextId' flow') := by
  cases request with
  | frontierReq | bulkPull | bulkPullAccount =>
      exact flows.withIds (ids 0 Nat.two_pos) (ids 1 Nat.one_lt_two)
  | bulkPush header => exact flows.withIds (ids 0 Nat.one_pos) flows.messageId
  | bulkPullEntry entry | bulkPushEntry entry =>
      obtain ⟨blockType, block⟩ := entry
      simp only [flowAfter]
      split
      · exact flows
      · exact flows.countInvalid
  | _ => exact flows

end Plans

/-! ## Alike databases -/

/-- Behind the rows they started with, the databases hold the same data. -/
structure Db.Alike (oldLeft oldRight : List Row) (same : IdMatch) (left right : Db) : Prop where
  readyLeft : left.Ready
  readyRight : right.Ready
  oneToOne : same.OneToOne
  bounded : same.Bounded left.nextId right.nextId
  bindings : Bindings.Alike same left.bindings right.bindings
  rows : ∃ newLeft newRight, left.contents.rows = oldLeft ++ newLeft ∧
    right.contents.rows = oldRight ++ newRight ∧
    List.Forall₂ (Row.Alike same) (dataRows newLeft) (dataRows newRight)

section Databases

variable {env : Environment} {oldLeft oldRight : List Row} {same : IdMatch} {left right : Db}
  (alike : Db.Alike oldLeft oldRight same left right)
include alike

theorem Db.Alike.store {plan plan' : Plan}
    (plans : Plan.Alike (same.extend left.nextId right.nextId plan.ids) plan plan') :
    Db.Alike oldLeft oldRight (same.extend left.nextId right.nextId plan.ids)
      (left.store env plan) (right.store env plan') := by
  have grows := same.le_extend left.nextId right.nextId plan.ids
  have bindings := alike.bindings.mono grows
  obtain ⟨newLeft, newRight, rowsLeft, rowsRight, rows⟩ := alike.rows
  refine ⟨alike.readyLeft.store env plan, alike.readyRight.store env plan',
    alike.oneToOne.extend alike.bounded _, ?_, ?_, newLeft ++ plan.rows left.bindings,
    newRight ++ plan'.rows right.bindings, ?_, ?_, ?_⟩
  · rw [Db.store_nextId, Db.store_nextId, ← plans.ids]
    exact alike.bounded.extend _
  · rw [Db.bindings_store, Db.bindings_store]
    exact plans.rebind bindings
  · rw [Db.store_rows, rowsLeft, List.append_assoc]
  · rw [Db.store_rows, rowsRight, List.append_assoc]
  · rw [dataRows_append, dataRows_append]
    exact List.rel_append (rows.imp fun _ _ row => row.mono grows) (plans.rows bindings)

end Databases

/-- A database before and after nothing but connection events. -/
structure Db.OnlyEvents (before after : Db) : Prop where
  ready : after.Ready
  nextId : before.nextId ≤ after.nextId
  bindings : ∀ table, table ≠ .connection → after.bindings table = before.bindings table
  rows : ∃ added, after.contents.rows = before.contents.rows ++ added ∧ dataRows added = []

theorem Db.OnlyEvents.refl {db : Db} (ready : db.Ready) : db.OnlyEvents db :=
  ⟨ready, Nat.le_refl _, fun _ _ => rfl, [], (List.append_nil _).symm, rfl⟩

theorem Db.OnlyEvents.trans {before middle after : Db} (first : before.OnlyEvents middle)
    (second : middle.OnlyEvents after) : before.OnlyEvents after := by
  obtain ⟨added, rows, noData⟩ := first.rows
  obtain ⟨more, moreRows, noMoreData⟩ := second.rows
  refine ⟨second.ready, Nat.le_trans first.nextId second.nextId, fun table other =>
    (second.bindings table other).trans (first.bindings table other), added ++ more, ?_, ?_⟩
  · rw [moreRows, rows, List.append_assoc]
  · rw [dataRows_append, noData, noMoreData, List.append_nil]

theorem Db.onlyEvents_store {db : Db} (ready : db.Ready) (env : Environment) (info : NanoPacket)
    (event : String) (flow : TcpFlowData) :
    db.OnlyEvents (db.store env ((Request.connection event).plan env info db.nextId flow)) where
  ready := ready.store env _
  nextId := Db.store_nextId.symm ▸ Nat.le_add_right _ _
  bindings table other := by
    rw [Db.bindings_store]
    exact rebind_of_notMem db.bindings (by simpa [Request.plan, Plan.entry] using other)
  rows := ⟨_, Db.store_rows, rfl⟩

section OnlyEvents

variable {oldLeft oldRight : List Row} {same : IdMatch} {left right after : Db}
  (alike : Db.Alike oldLeft oldRight same left right)
include alike

theorem Db.Alike.eventsLeft (events : left.OnlyEvents after) :
    Db.Alike oldLeft oldRight same after right := by
  obtain ⟨newLeft, newRight, rowsLeft, rowsRight, rows⟩ := alike.rows
  obtain ⟨added, rowsAfter, noData⟩ := events.rows
  refine ⟨events.ready, alike.readyRight, alike.oneToOne,
    alike.bounded.mono events.nextId (Nat.le_refl _), fun table other parameter => ?_,
    newLeft ++ added, newRight, ?_, rowsRight, ?_⟩
  · rw [events.bindings table other]
    exact alike.bindings table other parameter
  · rw [rowsAfter, rowsLeft, List.append_assoc]
  · rwa [dataRows_append, noData, List.append_nil]

theorem Db.Alike.eventsRight (events : right.OnlyEvents after) :
    Db.Alike oldLeft oldRight same left after := by
  obtain ⟨newLeft, newRight, rowsLeft, rowsRight, rows⟩ := alike.rows
  obtain ⟨added, rowsAfter, noData⟩ := events.rows
  refine ⟨alike.readyLeft, events.ready, alike.oneToOne,
    alike.bounded.mono (Nat.le_refl _) events.nextId, fun table other parameter => ?_,
    newLeft, newRight ++ added, rowsLeft, ?_, ?_⟩
  · rw [events.bindings table other]
    exact alike.bindings table other parameter
  · rw [rowsAfter, rowsRight, List.append_assoc]
  · rwa [dataRows_append, noData, List.append_nil]

end OnlyEvents

theorem Db.opened_nextId_pos (durable : Contents) : 0 < (Db.opened durable).nextId := by
  change 0 < 1000000000 * (durable.runs ++ [durable.sequence + 1]).foldl max 0
  rw [List.foldl_append]
  have last : 0 < max (durable.runs.foldl max 0) (durable.sequence + 1) :=
    Nat.lt_of_lt_of_le (Nat.succ_pos _) (Nat.le_max_right _ _)
  exact Nat.mul_pos (by decide) last

/-- Newly opened databases are alike from here on: no ids are bound. -/
theorem Db.opened_alike (durable durable' : Contents) :
    Db.Alike (Db.opened durable).contents.rows (Db.opened durable').contents.rows
      (fun a b => a = 0 ∧ b = 0) (.opened durable) (.opened durable') where
  readyLeft := Db.opened_ready durable
  readyRight := Db.opened_ready durable'
  oneToOne := by
    rintro _ _ _ _ ⟨rfl, rfl⟩ ⟨rfl, rfl⟩
    simp
  bounded := by
    rintro _ _ ⟨rfl, rfl⟩
    exact ⟨Db.opened_nextId_pos durable, Db.opened_nextId_pos durable'⟩
  bindings _ _ parameter := Value.alike_null parameter
  rows := ⟨[], [], (List.append_nil _).symm, (List.append_nil _).symm, .nil⟩

end Nanocap
