import Mathlib.Data.List.Forall2
import Nanocap.Database.BlockRows
import Nanocap.Database.PacketRows
import Nanocap.Database.VoteRows
import Nanocap.Foundation.PlainText

/-! # What the rows of a message tell

The rows of a message determine everything about it that any column is made of. What
has no column is the same for all messages with the same rows. -/

namespace Nanocap

/-! ## What is kept of a message -/

/-- The network and the highest version have no columns. -/
def MessageHeader.kept (header : MessageHeader) : MessageHeader :=
  { header with networkId := 0, versionMax := 0 }

/-- A block is stored, or nothing of it. -/
def BlockSelector.kept (env : Environment) (selector : BlockSelector) : BlockSelector :=
  match storable env (some selector) with
  | some block => .known block
  | none => .ignored 0 none

def MsgConfirmAck.kept (env : Environment) (msg : MsgConfirmAck) : MsgConfirmAck :=
  match msg.block with
  | some block => ⟨msg.common, none, some (block.kept env)⟩
  | none => ⟨msg.common, some ⟨some msg.hashes⟩, none⟩

/-- The hashes a confirm_req asks for are not stored. -/
def MsgConfirmReq.kept (env : Environment) (msg : MsgConfirmReq) : MsgConfirmReq :=
  ⟨none, (storable env msg.block).map .known⟩

/-- Of the extended parameters the count is stored. -/
def MsgBulkPull.kept (msg : MsgBulkPull) : MsgBulkPull :=
  { msg with
    extended := some ⟨0, (msg.extended.map fun extended => extended.count).getD 0, .zero 3⟩ }

def Request.kept (env : Environment) : Request → Request
  | telemetryReq header => .telemetryReq header.kept
  | telemetryAck header msg => .telemetryAck header.kept msg
  | keepalive header msg => .keepalive header.kept ⟨some (msg.peers.getD [])⟩
  | confirmAck header msg => .confirmAck header.kept (msg.kept env)
  | confirmReq header msg => .confirmReq header.kept (msg.kept env)
  | publish header msg => .publish header.kept ⟨msg.body.kept env⟩
  | nodeIdHandshake header msg => .nodeIdHandshake header.kept msg
  | frontierReq header msg => .frontierReq header.kept msg
  | bulkPull header msg => .bulkPull header.kept msg.kept
  | bulkPullAccount header msg => .bulkPullAccount header.kept msg
  | bulkPush header => .bulkPush header.kept
  | request => request

section Kept

variable {env : Environment}

theorem storable_known {selector : Option BlockSelector} {block : Block}
    (stored : storable env selector = some block) :
    storable env (some (.known block)) = some block := by
  cases selector with
  | none => cases stored
  | some selector => rwa [storable_eq_some stored] at stored

theorem storable_kept (selector : BlockSelector) :
    storable env (some (selector.kept env)) = storable env (some selector) := by
  unfold BlockSelector.kept
  cases stored : storable env (some selector) with
  | none => rfl
  | some block => exact storable_known stored

theorem MsgConfirmReq.storable_kept (msg : MsgConfirmReq) :
    storable env (msg.kept env).block = storable env msg.block := by
  unfold kept
  cases stored : storable env msg.block with
  | none => rfl
  | some block => exact storable_known stored

theorem Plan.withBlock_congr {left right : Option BlockSelector}
    (same : storable env left = storable env right) (info : NanoPacket) (header : MessageHeader)
    (nextId : Nat) :
    withBlock env info header left nextId = withBlock env info header right nextId := by
  simp only [withBlock, blockInsertions, contentTableOf, same]

private theorem Plan.vote_kept (msg : MsgConfirmAck) (info : NanoPacket) (header : MessageHeader)
    (nextId : Nat) :
    vote env info header (msg.kept env) nextId = vote env info header msg nextId := by
  obtain ⟨common, votebyhash, block⟩ := msg
  cases block with
  | none => rfl
  | some block =>
      have same := @storable_kept env block
      simp only [vote, MsgConfirmAck.kept, MsgConfirmAck.blockIds, voteBlockInsertions,
        MsgConfirmAck.voteCells, MsgConfirmAck.contentCells, blockInsertions, contentTableOf, same,
        Option.isSome_some]

theorem Request.plan_kept (request : Request) (info : NanoPacket) (nextId : Nat)
    (flow : TcpFlowData) :
    (request.kept env).plan env info nextId flow = request.plan env info nextId flow := by
  cases request with
  | confirmAck header msg => exact Plan.vote_kept msg info header nextId
  | confirmReq header msg => exact Plan.withBlock_congr msg.storable_kept info header nextId
  | publish header msg => exact Plan.withBlock_congr (storable_kept msg.body) info header nextId
  | bulkPull header msg =>
      obtain ⟨start, stop, extended⟩ := msg
      cases extended <;> rfl
  | _ => rfl

end Kept

/-! ## Equal rows -/

def Insertion.Meet (left right : Insertion) : Prop :=
  ∃ before before', left.row before = right.row before'

private theorem insertedRows_meet {bindings bindings' : Bindings}
    {insertions insertions' : List Insertion}
    (same : insertedRows bindings insertions = insertedRows bindings' insertions') :
    List.Forall₂ Insertion.Meet insertions insertions' := by
  induction insertions generalizing bindings bindings' insertions' with
  | nil =>
      cases insertions' with
      | nil => exact .nil
      | cons insertion insertions' => cases same
  | cons insertion insertions induction =>
      cases insertions' with
      | nil => cases same
      | cons insertion' insertions' =>
          obtain ⟨first, rest⟩ := List.cons.inj same
          exact .cons ⟨bindings, bindings', first⟩ (induction rest)

section Meet

variable {left right : Insertion} (meet : left.Meet right)
include meet

theorem Insertion.Meet.table : left.table = right.table := by
  obtain ⟨before, before', same⟩ := meet
  exact congrArg Row.table same

theorem Insertion.Meet.value {parameter : Parameter} {value value' : Value}
    (column : parameter ∈ left.table.parameters)
    (bound : boundTo left.cells parameter = some value)
    (bound' : boundTo right.cells parameter = some value') : value = value' := by
  have sameTable := meet.table
  obtain ⟨before, before', same⟩ := meet
  rw [← Insertion.get_row column bound before, same]
  exact Insertion.get_row (sameTable ▸ column) bound' before'

theorem Insertion.Meet.cells (covers : left.cells.map Prod.fst = left.table.parameters)
    (covers' : right.cells.map Prod.fst = right.table.parameters) : left.cells = right.cells := by
  have sameTable := meet.table
  obtain ⟨before, before', same⟩ := meet
  rw [Insertion.row_of_covers covers, Insertion.row_of_covers covers', ← sameTable] at same
  exact List.append_cancel_right (congrArg Row.cells same)

end Meet

/-! ## Values -/

private theorem Value.hex_inj {length : Nat} {left right : Bytes length} :
    Value.hex left.val = .hex right.val ↔ left = right :=
  ⟨fun same => Subtype.ext (toHex_injective (Value.text.inj same)), fun same => same ▸ rfl⟩

private theorem Value.int64_inj {left right : UInt64} :
    Value.int64 left = .int64 right ↔ left = right := by
  constructor
  · intro same
    have works := congrArg (fun value => (Int64.ofInt value).toUInt64.toNat)
      (Value.integer.inj same)
    simp only [Value.int64_work] at works
    exact UInt64.toNat_inj.mp works
  · exact congrArg _

private theorem Value.raw_inj {length : Nat} {left right : Bytes length} :
    Value.raw left.val = .raw right.val ↔ left = right := by
  constructor
  · intro same
    refine Subtype.ext (List.map_injective_iff.mpr (fun first second char => ?_)
      (String.ofList_injective (Value.text.inj same)))
    rw [← UInt8.toNat_inj, ← toNat_charOfByte first, char, toNat_charOfByte]
  · rintro rfl
    rfl

private theorem pubToAccount_inj {blake2b : (length : Nat) → List UInt8 → Bytes length}
    {left right : Bytes 32} :
    pubToAccount blake2b left = pubToAccount blake2b right ↔ left = right :=
  ⟨pubToAccount_injective, fun same => same ▸ rfl⟩

private theorem balanceToDec_inj {left right : Bytes 16} :
    balanceToDec left = balanceToDec right ↔ left = right := by
  refine ⟨fun same => Subtype.ext ?_, fun same => same ▸ rfl⟩
  rw [← ofBalance_balanceToDec left, same, ofBalance_balanceToDec]

/-! ## Rows of one kind -/

section Rows

variable {env : Environment} {id id' packetId packetId' : Nat}

attribute [local simp] Value.hex_inj Value.int64_inj Value.raw_inj Value.nat_inj pubToAccount_inj
  balanceToDec_inj UInt8.toNat_inj UInt16.toNat_inj UInt32.toNat_inj

theorem MsgTelemetryAck.of_meet {msg msg' : MsgTelemetryAck}
    (meet : Insertion.Meet ⟨.telemetry, msg.cells env id packetId⟩
      ⟨.telemetry, msg'.cells env id' packetId'⟩) : msg = msg' := by
  have cells := meet.cells rfl rfl
  simp [MsgTelemetryAck.cells] at cells
  cases msg
  cases msg'
  simp_all

theorem MsgFrontierReq.of_meet {msg msg' : MsgFrontierReq}
    (meet : Insertion.Meet ⟨.frontierRequest, msg.cells id packetId⟩
      ⟨.frontierRequest, msg'.cells id' packetId'⟩) : msg = msg' := by
  have cells := meet.cells rfl rfl
  simp [MsgFrontierReq.cells] at cells
  cases msg
  cases msg'
  simp_all

theorem MsgBulkPullAccount.of_meet {msg msg' : MsgBulkPullAccount}
    (meet : Insertion.Meet ⟨.bulkPullAccountRequest, msg.cells env id packetId⟩
      ⟨.bulkPullAccountRequest, msg'.cells env id' packetId'⟩) : msg = msg' := by
  have cells := meet.cells rfl rfl
  simp [MsgBulkPullAccount.cells] at cells
  cases msg
  cases msg'
  simp_all

theorem MsgBulkPull.of_meet {msg msg' : MsgBulkPull}
    (meet : Insertion.Meet ⟨.bulkPullRequest, msg.cells env id packetId⟩
      ⟨.bulkPullRequest, msg'.cells env id' packetId'⟩) : msg.kept = msg'.kept := by
  have cells := meet.cells rfl rfl
  simp [MsgBulkPull.cells] at cells
  obtain ⟨start, stop, extended⟩ := msg
  obtain ⟨start', stop', extended'⟩ := msg'
  have counts : (extended.map fun extended => extended.count).getD 0 =
      (extended'.map fun extended => extended.count).getD 0 := by
    cases extended <;> cases extended' <;> simp_all [← UInt32.toNat_inj]
  simp_all [kept]

theorem NodeIdQuery.of_meet {query query' : NodeIdQuery}
    (meet : Insertion.Meet ⟨.nodeidQuery, query.cells id packetId⟩
      ⟨.nodeidQuery, query'.cells id' packetId'⟩) : query = query' := by
  have cells := meet.cells rfl rfl
  simp [NodeIdQuery.cells] at cells
  cases query
  cases query'
  simp_all

theorem NodeIdResponse.of_meet {response response' : NodeIdResponse}
    (meet : Insertion.Meet ⟨.nodeidResponse, response.cells env id packetId⟩
      ⟨.nodeidResponse, response'.cells env id' packetId'⟩) : response = response' := by
  have cells := meet.cells rfl rfl
  simp [NodeIdResponse.cells] at cells
  cases response
  cases response'
  simp_all

theorem Peer.of_meet (addresses : Function.Injective env.addressToString) {peer peer' : Peer}
    (meet : Insertion.Meet ⟨.keepaliveHost, peer.cells env id packetId⟩
      ⟨.keepaliveHost, peer'.cells env id' packetId'⟩) : peer = peer' := by
  have cells := meet.cells rfl rfl
  simp [Peer.cells, addresses.eq_iff] at cells
  cases peer
  cases peer'
  simp_all

theorem Block.of_meet {block block' : Block}
    (meet : Insertion.Meet ⟨block.table, block.cells env id packetId⟩
      ⟨block'.table, block'.cells env id' packetId'⟩) : block = block' := by
  have table : block.table = block'.table := meet.table
  have cells := meet.cells (block.cells_covers env id packetId)
    (block'.cells_covers env id' packetId')
  have rows : block.storedRow env id packetId = block'.storedRow env id' packetId' := by
    dsimp only at cells
    rw [storedRow, storedRow, table, cells]
  refine wire_injective (type_of_table table) ?_
  rw [← block.blockWire_storedRow env id packetId, rows, blockWire_storedRow]

/-- The number in the column `vbh`. -/
def MsgConfirmAck.kind (msg : MsgConfirmAck) : Nat :=
  if msg.block.isSome then 0 else if msg.hashes ≠ [] then 1 else 2

theorem MsgConfirmAck.boundTo_voteCells (msg : MsgConfirmAck) (blockContentId : Nat)
    {parameter : Parameter} (own : parameter ∉ [.id, .packetId]) :
    boundTo (msg.voteCells env blockContentId id packetId) parameter =
      (boundTo (msg.common.cells env) parameter).or
        (boundTo (msg.contentCells env blockContentId) parameter) := by
  rw [voteCells, boundTo_append, boundTo_append, boundTo_of_notMem own]
  rfl

theorem MsgConfirmAck.boundTo_vbh (msg : MsgConfirmAck) (blockContentId : Nat) :
    boundTo (msg.voteCells env blockContentId id packetId) .vbh = some (.nat msg.kind) := by
  rw [boundTo_voteCells msg blockContentId (by decide)]
  obtain ⟨common, votebyhash, block⟩ := msg
  cases block with
  | some block => rfl
  | none =>
      unfold contentCells kind
      by_cases byHash : MsgConfirmAck.hashes ⟨common, votebyhash, none⟩ ≠ [] <;>
        simp only [byHash, ne_eq, not_false_eq_true, if_true, if_false] <;> rfl

theorem MsgConfirmAck.boundTo_hashes {msg : MsgConfirmAck} (noBlock : msg.block = none)
    (byHash : msg.hashes ≠ []) (blockContentId : Nat) :
    boundTo (msg.voteCells env blockContentId id packetId) .hashes =
      some (.text (joinHashes msg.hashes)) := by
  rw [boundTo_voteCells msg blockContentId (by decide), contentCells, noBlock]
  dsimp only
  rw [if_pos byHash]
  rfl

theorem MsgConfirmAck.of_meet {msg msg' : MsgConfirmAck} {blockContentId blockContentId' : Nat}
    (meet : Insertion.Meet ⟨.vote, msg.voteCells env blockContentId id packetId⟩
      ⟨.vote, msg'.voteCells env blockContentId' id' packetId'⟩) :
    msg.common = msg'.common ∧ msg.kind = msg'.kind ∧
      (msg.block = none → msg'.block = none → msg.hashes = msg'.hashes) := by
  have common (parameter : Parameter) (value value' : Value)
      (belongs : parameter ∈ [.account, .signature, .sequence])
      (bound : boundTo (msg.common.cells env) parameter = some value)
      (bound' : boundTo (msg'.common.cells env) parameter = some value') : value = value' := by
    have all : ∀ parameter ∈ [Parameter.account, .signature, .sequence],
        parameter ∈ Table.vote.parameters ∧ parameter ∉ [Parameter.id, .packetId] := by decide
    obtain ⟨column, own⟩ := all parameter belongs
    refine @Insertion.Meet.value _ _ meet parameter value value' column ?_ ?_
    · rw [boundTo_voteCells msg blockContentId own, bound]
      rfl
    · rw [boundTo_voteCells msg' blockContentId' own, bound']
      rfl
  have account := common .account _ _ (by decide) rfl rfl
  have signature := common .signature _ _ (by decide) rfl rfl
  have sequence := common .sequence _ _ (by decide) rfl rfl
  have vbh : Parameter.vbh ∈ Table.vote.parameters := by decide
  have hashes : Parameter.hashes ∈ Table.vote.parameters := by decide
  have kinds : msg.kind = msg'.kind := Value.nat_inj.mp
    (meet.value vbh (msg.boundTo_vbh blockContentId) (msg'.boundTo_vbh blockContentId'))
  refine ⟨?_, kinds, fun noBlock noBlock' => ?_⟩
  · simp at account signature sequence
    obtain ⟨⟨_, _, _⟩, _, _⟩ := msg
    obtain ⟨⟨_, _, _⟩, _, _⟩ := msg'
    simp_all
  · have byHash : msg.hashes ≠ [] ↔ msg'.hashes ≠ [] := by
      unfold kind at kinds
      rw [noBlock, noBlock'] at kinds
      by_cases left : msg.hashes = [] <;> by_cases right : msg'.hashes = [] <;>
        simp_all
    by_cases some : msg.hashes ≠ []
    · have texts := meet.value hashes (boundTo_hashes noBlock some blockContentId)
        (boundTo_hashes noBlock' (byHash.mp some) blockContentId')
      exact joinHashes_injective some (byHash.mp some) (Value.text.inj texts)
    · rw [not_not.mp some, not_not.mp (mt byHash.mpr some)]

end Rows

/-! ## Rows of several kinds -/

section Lists

variable {env : Environment} {id id' packetId packetId' : Nat}

private theorem peers_of_meet (addresses : Function.Injective env.addressToString)
    {peers peers' : List Peer}
    (meet : List.Forall₂ Insertion.Meet (peerInsertions env packetId id peers)
      (peerInsertions env packetId' id' peers')) : peers = peers' := by
  induction peers generalizing id id' peers' with
  | nil =>
      cases peers' with
      | nil => rfl
      | cons peer peers' => cases meet
  | cons peer peers induction =>
      cases peers' with
      | nil => cases meet
      | cons peer' peers' =>
          obtain ⟨first, rest⟩ := List.forall₂_cons.mp meet
          rw [Peer.of_meet addresses first, induction rest]

theorem blocks_of_meet {selector selector' : Option BlockSelector}
    {rest rest' : List Insertion}
    (lengths : rest.length = rest'.length)
    (meet : List.Forall₂ Insertion.Meet (blockInsertions env selector id packetId ++ rest)
      (blockInsertions env selector' id' packetId' ++ rest')) :
    storable env selector = storable env selector' ∧ List.Forall₂ Insertion.Meet rest rest' := by
  have total := meet.length_eq
  cases stored : storable env selector <;> cases stored' : storable env selector' <;>
    simp only [blockInsertions, stored, stored', List.nil_append, List.cons_append] at meet total
  · exact ⟨rfl, meet⟩
  · simp [lengths] at total
  · simp [lengths] at total
  · obtain ⟨first, rest⟩ := List.forall₂_cons.mp meet
    exact ⟨congrArg some (Block.of_meet first), rest⟩

theorem response_of_meet {response response' : Option NodeIdResponse}
    (meet : List.Forall₂ Insertion.Meet (responseInsertions env id packetId response)
      (responseInsertions env id' packetId' response')) : response = response' := by
  cases response with
  | none =>
      cases response' with
      | none => rfl
      | some response' => cases meet
  | some response =>
      cases response' with
      | none => cases meet
      | some response' =>
          exact congrArg some (NodeIdResponse.of_meet (List.forall₂_cons.mp meet).1)

private theorem handshake_of_meet {msg msg' : MsgNodeIdHandshake} {responseId responseId' : Nat}
    (meet : List.Forall₂ Insertion.Meet
      (queryInsertions id packetId msg.query ++
        responseInsertions env responseId packetId msg.response)
      (queryInsertions id' packetId' msg'.query ++
        responseInsertions env responseId' packetId' msg'.response)) : msg = msg' := by
  obtain ⟨query, response⟩ := msg
  obtain ⟨query', response'⟩ := msg'
  cases query with
  | none =>
      cases query' with
      | none => exact congrArg (MsgNodeIdHandshake.mk none) (response_of_meet meet)
      | some query' =>
          cases response with
          | none => cases meet
          | some response => cases (List.forall₂_cons.mp meet).1.table
  | some query =>
      cases query' with
      | none =>
          cases response' with
          | none => cases meet
          | some response' => cases (List.forall₂_cons.mp meet).1.table
      | some query' =>
          obtain ⟨first, rest⟩ := List.forall₂_cons.mp meet
          rw [NodeIdQuery.of_meet first]
          exact congrArg (MsgNodeIdHandshake.mk _) (response_of_meet rest)

end Lists

/-! ## Rows of messages -/

def Request.messageType : Request → Option EnumMsgtype
  | telemetryReq _ => some .telemetryReq
  | telemetryAck _ _ => some .telemetryAck
  | keepalive _ _ => some .keepalive
  | confirmAck _ _ => some .confirmAck
  | confirmReq _ _ => some .confirmReq
  | publish _ _ => some .publish
  | nodeIdHandshake _ _ => some .nodeIdHandshake
  | frontierReq _ _ => some .frontierReq
  | bulkPull _ _ => some .bulkPull
  | bulkPullAccount _ _ => some .bulkPullAccount
  | bulkPush _ => some .bulkPush
  | _ => none

/-- A message of the type its header tells. -/
def Request.Typed (request : Request) : Prop :=
  ∃ header, request.header = some header ∧ request.messageType = some header.messageType

private theorem MessageHeader.kept_of_columns {header header' : MessageHeader}
    (messageType : header.messageType = header'.messageType)
    (columns : header.columns = header'.columns) : header.kept = header'.kept := by
  simp [MessageHeader.columns, Value.nat_inj, UInt8.toNat_inj, UInt16.toNat_inj] at columns
  cases header
  cases header'
  simp_all [MessageHeader.kept]

theorem Request.ofUInt8_messageType {request : Request} {messageType : EnumMsgtype}
    (type : request.messageType = some messageType) :
    .ofUInt8 messageType.toUInt8 = messageType := by
  cases request <;> cases type <;> rfl

theorem BlockSelector.kept_congr {env : Environment} {selector selector' : BlockSelector}
    (same : storable env (some selector) = storable env (some selector')) :
    selector.kept env = selector'.kept env := by
  rw [kept, kept, same]

theorem voteBlockInsertions_eq (env : Environment) (msg : MsgConfirmAck) (id packetId : Nat) :
    voteBlockInsertions env msg id packetId = blockInsertions env msg.block id packetId := by
  unfold voteBlockInsertions
  cases msg.block <;> rfl

section Messages

variable {env : Environment}

theorem MsgConfirmAck.kind_eq_zero_iff (msg : MsgConfirmAck) : msg.kind = 0 ↔ msg.block.isSome := by
  unfold kind
  by_cases block : msg.block.isSome
  · simp [block]
  · by_cases hashes : msg.hashes = [] <;> simp [block, hashes]

theorem MsgConfirmAck.kept_congr {msg msg' : MsgConfirmAck} (common : msg.common = msg'.common)
    (blocks : storable env msg.block = storable env msg'.block) (kinds : msg.kind = msg'.kind)
    (hashes : msg.block = none → msg'.block = none → msg.hashes = msg'.hashes) :
    msg.kept env = msg'.kept env := by
  have same : msg.block.isSome ↔ msg'.block.isSome := by
    rw [← kind_eq_zero_iff, kinds, kind_eq_zero_iff]
  unfold kept
  cases block : msg.block with
  | none =>
      have block' : msg'.block = none := by simpa [block] using same
      rw [block', common, hashes block block']
  | some selector =>
      obtain ⟨selector', block'⟩ := Option.isSome_iff_exists.mp (same.mp (by rw [block]; rfl))
      rw [block, block'] at blocks
      rw [block', common]
      dsimp only
      rw [BlockSelector.kept_congr blocks]

private theorem MsgConfirmAck.kept_of_meet {msg msg' : MsgConfirmAck}
    {id id' packetId packetId' blockContentId blockContentId' voteId voteId' : Nat}
    {packet packet' : Insertion}
    (meet : List.Forall₂ Insertion.Meet
      (voteBlockInsertions env msg id packetId ++
        [⟨.vote, msg.voteCells env blockContentId voteId packetId⟩] ++ [packet])
      (voteBlockInsertions env msg' id' packetId' ++
        [⟨.vote, msg'.voteCells env blockContentId' voteId' packetId'⟩] ++ [packet'])) :
    msg.kept env = msg'.kept env := by
  rw [voteBlockInsertions_eq, voteBlockInsertions_eq, List.append_assoc, List.append_assoc] at meet
  obtain ⟨blocks, rest⟩ := blocks_of_meet (by simp) meet
  obtain ⟨common, kinds, hashes⟩ := of_meet (List.forall₂_cons.mp rest).1
  exact kept_congr common blocks kinds hashes

variable (addresses : Function.Injective env.addressToString)
  {info info' : NanoPacket} {nextId nextId' : Nat} {flow flow' : TcpFlowData}
  {bindings bindings' : Bindings} {request request' : Request}
include addresses

/-- Messages with the same rows agree in everything that is kept. -/
theorem Request.kept_of_rows (typed : request.Typed) (typed' : request'.Typed)
    (rows : (request.plan env info nextId flow).rows bindings =
      (request'.plan env info' nextId' flow').rows bindings') :
    request.kept env = request'.kept env := by
  obtain ⟨header, own, type⟩ := typed
  obtain ⟨header', own', type'⟩ := typed'
  have columns : header.columns = header'.columns := by
    have headers := @Request.packetHeaders_plan env info header request own nextId flow bindings
    rw [rows, Request.packetHeaders_plan own'] at headers
    exact (List.singleton_inj.mp headers).symm
  have numbers : header.messageType.toUInt8 = header'.messageType.toUInt8 :=
    UInt8.toNat_inj.mp (Value.nat_inj.mp (List.cons.inj columns).1)
  have types : header.messageType = header'.messageType := by
    rw [← request.ofUInt8_messageType type, numbers, Request.ofUInt8_messageType type']
  have headers := MessageHeader.kept_of_columns types columns
  have same : request.messageType = request'.messageType := by rw [type, type', types]
  have meet := insertedRows_meet rows
  clear type type' types columns numbers rows
  cases request <;> cases own <;> cases request' <;> cases own' <;> cases same
  case telemetryReq => exact congrArg telemetryReq headers
  case bulkPush => exact congrArg bulkPush headers
  case telemetryAck msg msg' =>
      have rest := (List.forall₂_cons.mp meet).2
      rw [kept, kept, headers, MsgTelemetryAck.of_meet (List.forall₂_cons.mp rest).1]
  case keepalive msg msg' =>
      have peers := peers_of_meet addresses (List.forall₂_cons.mp meet).2
      rw [kept, kept, headers, peers]
  case confirmAck msg msg' => rw [kept, kept, headers, MsgConfirmAck.kept_of_meet meet]
  case confirmReq msg msg' =>
      have blocks := (blocks_of_meet (by rfl) meet).1
      rw [kept, kept, headers, MsgConfirmReq.kept, MsgConfirmReq.kept, blocks]
  case publish msg msg' =>
      have blocks := (blocks_of_meet (by rfl) meet).1
      rw [kept, kept, headers, BlockSelector.kept_congr blocks]
  case nodeIdHandshake msg msg' =>
      rw [kept, kept, headers, handshake_of_meet (List.forall₂_cons.mp meet).2]
  case frontierReq msg msg' =>
      have rest := (List.forall₂_cons.mp meet).2
      rw [kept, kept, headers, MsgFrontierReq.of_meet (List.forall₂_cons.mp rest).1]
  case bulkPull msg msg' =>
      have rest := (List.forall₂_cons.mp meet).2
      rw [kept, kept, headers, MsgBulkPull.of_meet (List.forall₂_cons.mp rest).1]
  case bulkPullAccount msg msg' =>
      have rest := (List.forall₂_cons.mp meet).2
      rw [kept, kept, headers, MsgBulkPullAccount.of_meet (List.forall₂_cons.mp rest).1]

end Messages

end Nanocap
