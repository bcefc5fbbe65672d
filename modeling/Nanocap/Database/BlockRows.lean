import Nanocap.Database.Columns
import Nanocap.Database.Refinement
import Nanocap.Protocol.Wire
import Nanocap.Util.Accounts

/-! # Rows of blocks

The row `put_block` inserts holds the wire form of its block, and the hash of the
fields that are hashed. -/

namespace Nanocap

open Put

/-! ## Inserted rows -/

/-- A call of `put_block` for the block inserts the row. -/
def Block.Inserts (env : Environment) (block : Block) (row : Row) : Prop :=
  ∃ id packetId world name after,
    (putBlock env (some (.known block)) id packetId).run env world = .ok name after ∧
    after.db.contents.rows = world.db.contents.rows ++ [row]

def Block.storedRow (env : Environment) (block : Block) (id packetId : Nat) : Row :=
  block.table.rowOf (block.cells env id packetId)

section Inserts

variable {env : Environment} {block : Block}

theorem Put.run_putBlock_known (details : env.config.blockDetails = true) (id packetId : Nat)
    {world : World} (accepts : world.db.Accepts env block.table) :
    (putBlock env (some (.known block)) id packetId).run env world =
      .ok block.table.name { world with
        db := world.db.insertRow block.table (block.cells env id packetId) } := by
  have stored : storable env (some (.known block)) = some block := if_pos details
  rw [putBlock, stored]
  exact (Put.run_bind_of_ok env (run_insert_of_accepts _ accepts)).trans rfl

theorem Block.rows_insertRow (db : Db) (id packetId : Nat) :
    (db.insertRow block.table (block.cells env id packetId)).contents.rows =
      db.contents.rows ++ [block.storedRow env id packetId] :=
  db.insertRow_rows_of_covers (block.cells_covers env id packetId)

theorem Block.inserts_storedRow (details : env.config.blockDetails = true) (id packetId : Nat)
    {world : World} (accepts : world.db.Accepts env block.table) :
    ∃ after, (putBlock env (some (.known block)) id packetId).run env world =
        .ok block.table.name after ∧
      after.db.contents.rows = world.db.contents.rows ++ [block.storedRow env id packetId] :=
  ⟨_, run_putBlock_known details id packetId accepts, rows_insertRow _ id packetId⟩

theorem Block.Inserts.row_eq {row : Row} (inserts : block.Inserts env row) :
    ∃ id packetId, row = block.storedRow env id packetId := by
  obtain ⟨id, packetId, world, name, after, run, rows⟩ := inserts
  refine ⟨id, packetId, ?_⟩
  cases details : env.config.blockDetails with
  | false =>
      have nothing : storable env (some (.known block)) = none := if_neg (by simp [details])
      rw [putBlock, nothing] at run
      cases run
      exact absurd (congrArg List.length rows) (by simp)
  | true =>
      by_cases accepts : world.db.Accepts env block.table
      · rw [run_putBlock_known details id packetId accepts] at run
        cases run
        rw [rows_insertRow] at rows
        exact (List.singleton_inj.mp (List.append_cancel_left rows)).symm
      · have stored : storable env (some (.known block)) = some block := if_pos details
        have some : block.cells env id packetId ≠ [] := by
          cases block <;> exact List.cons_ne_nil _ _
        obtain ⟨stopped, raises⟩ := run_insert_of_not_accepts some accepts
        rw [putBlock, stored] at run
        have throws : (do
            insert block.table (block.cells env id packetId)
            return block.table.name : Put String).run env world = .error .runtimeError stopped := by
          rw [Put.run_bind, raises]
        have both := run.symm.trans throws
        cases both

end Inserts

/-! ## Reading a row -/

namespace Row

variable (row : Row)

def text (column : Parameter) : String :=
  match row.get column with
  | .text value => value
  | _ => ""

def hexBytes (column : Parameter) : List UInt8 := ofHex (row.text column)

def accountBytes (column : Parameter) : List UInt8 := ofAccount (row.text column)

def balanceBytes : List UInt8 := ofBalance (row.text .balance)

/-- The work, stored as a signed number. -/
def work : Nat :=
  match row.get .work with
  | .integer value => (Int64.ofInt value).toUInt64.toNat
  | _ => 0

/-- The wire form of the block in the row of a block. -/
def blockWire : List UInt8 :=
  match row.table with
  | .blockSend =>
      row.hexBytes .previous ++ (row.accountBytes .destination ++ (row.balanceBytes ++
        (row.hexBytes .signature ++ littleEndianBytes 8 row.work)))
  | .blockReceive =>
      row.hexBytes .previous ++ (row.hexBytes .source ++ (row.hexBytes .signature ++
        littleEndianBytes 8 row.work))
  | .blockOpen =>
      row.hexBytes .source ++ (row.accountBytes .representative ++ (row.accountBytes .account ++
        (row.hexBytes .signature ++ littleEndianBytes 8 row.work)))
  | .blockChange =>
      row.hexBytes .previous ++ (row.accountBytes .representative ++ (row.hexBytes .signature ++
        littleEndianBytes 8 row.work))
  | .blockState =>
      row.accountBytes .account ++ (row.hexBytes .previous ++ (row.accountBytes .representative ++
        (row.balanceBytes ++ (row.hexBytes .link ++ (row.hexBytes .signature ++
          bigEndianBytes 8 row.work)))))
  | _ => []

def blockColumns : List Parameter :=
  [.account, .previous, .representative, .balance, .link, .destination, .source, .signature, .work]

def SameBlock (other : Row) : Prop :=
  row.table = other.table ∧ ∀ column ∈ blockColumns, row.get column = other.get column

variable {row}

theorem SameBlock.blockWire {other : Row} (same : row.SameBlock other) :
    row.blockWire = other.blockWire := by
  obtain ⟨table, columns⟩ := same
  unfold Row.blockWire hexBytes accountBytes balanceBytes work text
  rw [table, columns .account (by decide), columns .previous (by decide),
    columns .representative (by decide), columns .balance (by decide), columns .link (by decide),
    columns .destination (by decide), columns .source (by decide), columns .signature (by decide),
    columns .work (by decide)]

end Row

theorem Value.int64_work (work : UInt64) :
    (Int64.ofInt work.toInt64.toInt).toUInt64.toNat = work.toNat := by
  rw [Int64.ofInt_toInt, UInt64.toUInt64_toInt64]

theorem Block.blockWire_storedRow (env : Environment) (block : Block) (id packetId : Nat) :
    (block.storedRow env id packetId).blockWire = block.wire := by
  cases block with
  | send block =>
      change ofHex (toHex _) ++ (ofAccount (pubToAccount _ _) ++ (ofBalance (balanceToDec _) ++
        (ofHex (toHex _) ++ littleEndianBytes 8 (Int64.ofInt _).toUInt64.toNat))) = _
      rw [ofHex_toHex, ofAccount_pubToAccount, ofBalance_balanceToDec, ofHex_toHex,
        Value.int64_work]
      rfl
  | receive block =>
      change ofHex (toHex _) ++ (ofHex (toHex _) ++ (ofHex (toHex _) ++
        littleEndianBytes 8 (Int64.ofInt _).toUInt64.toNat)) = _
      rw [ofHex_toHex, ofHex_toHex, ofHex_toHex, Value.int64_work]
      rfl
  | opening block =>
      change ofHex (toHex _) ++ (ofAccount (pubToAccount _ _) ++ (ofAccount (pubToAccount _ _) ++
        (ofHex (toHex _) ++ littleEndianBytes 8 (Int64.ofInt _).toUInt64.toNat))) = _
      rw [ofHex_toHex, ofAccount_pubToAccount, ofAccount_pubToAccount, ofHex_toHex,
        Value.int64_work]
      rfl
  | change block =>
      change ofHex (toHex _) ++ (ofAccount (pubToAccount _ _) ++ (ofHex (toHex _) ++
        littleEndianBytes 8 (Int64.ofInt _).toUInt64.toNat)) = _
      rw [ofHex_toHex, ofAccount_pubToAccount, ofHex_toHex, Value.int64_work]
      rfl
  | state block =>
      change ofAccount (pubToAccount _ _) ++ (ofHex (toHex _) ++ (ofAccount (pubToAccount _ _) ++
        (ofBalance (balanceToDec _) ++ (ofHex (toHex _) ++ (ofHex (toHex _) ++
          bigEndianBytes 8 (Int64.ofInt _).toUInt64.toNat))))) = _
      rw [ofAccount_pubToAccount, ofHex_toHex, ofAccount_pubToAccount, ofBalance_balanceToDec,
        ofHex_toHex, ofHex_toHex, Value.int64_work]
      rfl

theorem Block.wire_injective {left right : Block} (type : left.type = right.type)
    (wire : left.wire = right.wire) : left = right := by
  have reads := left.selectorCodec.reads (.known left) ⟨left, rfl, rfl⟩ 0 []
  have other := right.selectorCodec.reads (.known right) ⟨right, rfl, rfl⟩ 0 []
  have same : BlockSelector.wire (.known left) = BlockSelector.wire (.known right) := wire
  rw [type, same, other] at reads
  cases reads
  rfl

theorem Block.type_of_table {left right : Block} (table : left.table = right.table) :
    left.type = right.type := by
  cases left <;> cases right <;> first | rfl | cases table

private theorem Block.exists_wire {blockType : EnumBlocktype} {bytes : List UInt8}
    (known : blockType.blockSize = some bytes.length) :
    ∃ block : Block, BlockSelector.read blockType.toUInt8 (.ofBytes bytes) =
        .ok (.known block) ⟨bytes.length, []⟩ ∧
      block.type = blockType ∧ block.wire = bytes := by
  have value : EnumBlocktype.ofUInt8 blockType.toUInt8 = blockType := by
    cases blockType <;> first | rfl | cases known
  have codec := @BlockSelector.codec blockType.toUInt8 bytes.length (by rw [value, known])
  obtain ⟨selector, ⟨block, rfl, type⟩, wire⟩ := codec.covers bytes rfl
  have reads := codec.reads (.known block) ⟨block, rfl, type⟩ 0 []
  rw [wire, List.append_nil, Nat.zero_add] at reads
  exact ⟨block, reads, type.trans value, wire⟩

/-- With `block_details` on, the row of a block of any type gives back the bytes it
was read from, and blocks whose rows agree are equal. -/
theorem blocks_decode {env : Environment} (details : env.config.blockDetails = true) :
    (∀ (blockType : EnumBlocktype) (bytes : List UInt8),
      blockType.blockSize = some bytes.length →
      ∃ block : Block,
        BlockSelector.read blockType.toUInt8 (.ofBytes bytes) =
          .ok (.known block) ⟨bytes.length, []⟩ ∧
        block.type = blockType ∧
        (∀ id packetId world, world.db.Accepts env block.table →
          ∃ row after, (putBlock env (some (.known block)) id packetId).run env world =
              .ok block.table.name after ∧
            after.db.contents.rows = world.db.contents.rows ++ [row]) ∧
        ∀ row, block.Inserts env row → row.table = block.table ∧ row.blockWire = bytes) ∧
    ∀ (left right : Block) (row other : Row),
      left.Inserts env row → right.Inserts env other → row.SameBlock other → left = right := by
  refine ⟨fun blockType bytes known => ?_, fun left right row other first second same => ?_⟩
  · obtain ⟨block, reads, type, wire⟩ := Block.exists_wire known
    refine ⟨block, reads, type, fun id packetId world accepts => ?_, fun row inserts => ?_⟩
    · exact ⟨_, block.inserts_storedRow details id packetId accepts⟩
    · obtain ⟨id, packetId, rfl⟩ := inserts.row_eq
      exact ⟨rfl, (block.blockWire_storedRow env id packetId).trans wire⟩
  · have wires := same.blockWire
    obtain ⟨table, -⟩ := same
    obtain ⟨id, packetId, rfl⟩ := first.row_eq
    obtain ⟨otherId, otherPacketId, rfl⟩ := second.row_eq
    rw [Block.blockWire_storedRow, Block.blockWire_storedRow] at wires
    exact Block.wire_injective (Block.type_of_table table) wires

/-- The row of a send block, read back. -/
theorem blocks_decode_send :
    ∃ (block : Block) (row : Row), block.Inserts .sample row ∧ row.table = .blockSend ∧
      row.blockWire = List.replicate 152 0xFF := by
  obtain ⟨block, -, type, inserts, decodes⟩ :=
    (@blocks_decode .sample rfl).1 .send (List.replicate 152 0xFF) rfl
  obtain ⟨row, after, run, rows⟩ := inserts 1 0 ⟨.opened .empty, .initial⟩ ⟨rfl, rfl⟩
  have inserted : block.Inserts .sample row := ⟨_, _, _, _, _, run, rows⟩
  obtain ⟨table, wire⟩ := decodes row inserted
  refine ⟨block, row, inserted, table.trans ?_, wire⟩
  cases block <;> first | rfl | cases type

/-! ## Hashes -/

def EnumBlocktype.hashedSize : EnumBlocktype → Nat
  | send => 80
  | receive => 64
  | opening => 96
  | change => 64
  | state => 144
  | _ => 0

def EnumBlocktype.preamble : EnumBlocktype → List UInt8
  | state => List.replicate 31 0 ++ [6]
  | _ => []

namespace Block

/-- The overloads of `hash_of`. -/
def hashOf (blake2b : (length : Nat) → List UInt8 → Bytes length) : Block → Bytes 32
  | send block => block.hashOf blake2b
  | receive block => block.hashOf blake2b
  | opening block => block.hashOf blake2b
  | change block => block.hashOf blake2b
  | state block => block.hashOf blake2b

def hashedWire (block : Block) : List UInt8 := block.wire.take block.type.hashedSize

/-- The bytes whose digest is the hash of the block. -/
def hashInput (block : Block) : List UInt8 := block.type.preamble ++ block.hashedWire

def unsigned : Block → Block
  | send block => send { block with signature := .zero 64, work := 0 }
  | receive block => receive { block with signature := .zero 64, work := 0 }
  | opening block => opening { block with signature := .zero 64, work := 0 }
  | change block => change { block with signature := .zero 64, work := 0 }
  | state block => state { block with signature := .zero 64, work := 0 }

theorem hashedWire_eq (block : Block) : block.hashedWire = match block with
    | send block => block.previous.val ++ (block.destination.val ++ block.balance.val)
    | receive block => block.previous.val ++ block.source.val
    | opening block => block.source.val ++ (block.representative.val ++ block.account.val)
    | change block => block.previous.val ++ block.representative.val
    | state block => block.account.val ++ (block.previous.val ++ (block.representative.val ++
        (block.balance.val ++ block.link.val))) := by
  unfold hashedWire
  cases block <;> simp only [Block.wire, BlockSend.wire, BlockReceive.wire, BlockOpen.wire,
    BlockChange.wire, BlockState.wire, ← List.append_assoc]
  all_goals
    refine (congrArg (List.take _) (List.append_assoc _ _ _)).trans (List.take_left' ?_)
    simp only [List.length_append, Bytes.length_val]
    rfl

theorem hashOf_eq (blake2b : (length : Nat) → List UInt8 → Bytes length) (block : Block) :
    block.hashOf blake2b = blake2b 32 block.hashInput := by
  rw [hashInput, hashedWire_eq]
  cases block with
  | send block => exact congrArg (blake2b 32) (List.append_assoc _ _ _)
  | receive block => rfl
  | opening block => exact congrArg (blake2b 32) (List.append_assoc _ _ _)
  | change block => rfl
  | state block =>
      refine congrArg (blake2b 32) ?_
      simp only [List.append_assoc]
      rfl

theorem type_unsigned (block : Block) : block.unsigned.type = block.type := by
  cases block <;> rfl

theorem hashedWire_unsigned (block : Block) : block.unsigned.hashedWire = block.hashedWire := by
  rw [hashedWire_eq, hashedWire_eq]
  cases block <;> rfl

/-- Blocks of one type with the same hashed bytes differ at most in the signature and
the work. -/
private theorem unsigned_eq_iff {left right : Block} :
    left.unsigned = right.unsigned ↔
      left.type = right.type ∧ left.hashedWire = right.hashedWire := by
  constructor
  · intro same
    rw [← left.type_unsigned, ← left.hashedWire_unsigned, same]
    exact ⟨right.type_unsigned, right.hashedWire_unsigned⟩
  · rintro ⟨type, wire⟩
    rw [hashedWire_eq, hashedWire_eq] at wire
    cases left <;> cases right <;> cases type
    case mpr.send.send.refl left right =>
      obtain ⟨previous, wire⟩ := Bytes.eq_of_append_eq wire
      obtain ⟨destination, wire⟩ := Bytes.eq_of_append_eq wire
      rw [unsigned, unsigned, previous, destination, Subtype.ext wire]
    case mpr.receive.receive.refl left right =>
      obtain ⟨previous, wire⟩ := Bytes.eq_of_append_eq wire
      rw [unsigned, unsigned, previous, Subtype.ext wire]
    case mpr.opening.opening.refl left right =>
      obtain ⟨source, wire⟩ := Bytes.eq_of_append_eq wire
      obtain ⟨representative, wire⟩ := Bytes.eq_of_append_eq wire
      rw [unsigned, unsigned, source, representative, Subtype.ext wire]
    case mpr.change.change.refl left right =>
      obtain ⟨previous, wire⟩ := Bytes.eq_of_append_eq wire
      rw [unsigned, unsigned, previous, Subtype.ext wire]
    case mpr.state.state.refl left right =>
      obtain ⟨account, wire⟩ := Bytes.eq_of_append_eq wire
      obtain ⟨previous, wire⟩ := Bytes.eq_of_append_eq wire
      obtain ⟨representative, wire⟩ := Bytes.eq_of_append_eq wire
      obtain ⟨balance, wire⟩ := Bytes.eq_of_append_eq wire
      rw [unsigned, unsigned, account, previous, representative, balance, Subtype.ext wire]

/-- Receive and change blocks are hashed without their type. -/
def LikeReceive (block : Block) : Prop := block.type = .receive ∨ block.type = .change

theorem length_hashInput (block : Block) :
    block.hashInput.length = block.type.preamble.length + block.type.hashedSize := by
  rw [hashInput, List.length_append, hashedWire_eq]
  cases block <;> simp [type, EnumBlocktype.hashedSize]

private theorem hashInput_eq_iff {left right : Block} :
    left.hashInput = right.hashInput ↔ left.unsigned = right.unsigned ∨
      left.LikeReceive ∧ right.LikeReceive ∧ left.wire.take 64 = right.wire.take 64 := by
  rw [unsigned_eq_iff]
  constructor
  · intro same
    have lengths := congrArg List.length same
    rw [length_hashInput, length_hashInput] at lengths
    unfold hashInput hashedWire at same
    by_cases type : left.type = right.type
    · refine .inl ⟨type, ?_⟩
      rw [type] at same
      unfold hashedWire
      rw [type]
      exact List.append_cancel_left same
    · refine .inr ?_
      cases left <;> cases right <;> first
        | exact absurd rfl type
        | exact ⟨.inl rfl, .inr rfl, same⟩
        | exact ⟨.inr rfl, .inl rfl, same⟩
        | cases lengths
  · unfold hashInput hashedWire
    rintro (⟨type, wire⟩ | ⟨first, second, wire⟩)
    · rw [wire, type]
    · rcases first with first | first <;> rcases second with second | second <;>
        rw [first, second] <;> exact wire

theorem Inserts.hash {env : Environment} {block : Block} {row : Row}
    (inserts : block.Inserts env row) : row.get .hash = .hex (block.hashOf env.blake2b).val := by
  obtain ⟨id, packetId, rfl⟩ := inserts.row_eq
  cases block <;> rfl

end Block

private theorem Block.hashedSize_le (block : Block) :
    block.type.hashedSize ≤ block.wire.length := by
  have sizes : ∀ size, block.type.blockSize = some size → block.type.hashedSize ≤ size := by
    cases block <;> rintro _ ⟨⟩ <;> exact Nat.le_of_ble_eq_true rfl
  exact sizes _ block.blockSize_type

/-- The hash of a block is the digest of the front of the bytes it was read from. What is
stored depends on the hashed fields alone, and unless the digests collide it determines
them, up to the type of a receive and a change block. -/
theorem block_hashes (env : Environment) :
    (∀ (argBlockType : UInt8) (stream stop : KStream) (block : Block),
      BlockSelector.read argBlockType stream = .ok (.known block) stop →
      block.hashOf env.blake2b =
        env.blake2b 32 (block.type.preamble ++ stream.rest.take block.type.hashedSize)) ∧
    (∀ (block : Block) (row : Row), block.Inserts env row →
      row.get .hash = .hex (block.unsigned.hashOf env.blake2b).val) ∧
    ∀ (left right : Block) (row other : Row), left.Inserts env row → right.Inserts env other →
      (env.blake2b 32 left.hashInput = env.blake2b 32 right.hashInput →
        left.hashInput = right.hashInput) →
      (row.get .hash = other.get .hash ↔ left.unsigned = right.unsigned ∨
        left.LikeReceive ∧ right.LikeReceive ∧ left.wire.take 64 = right.wire.take 64) := by
  refine ⟨fun argBlockType stream stop block reads => ?_, fun block row inserts => ?_,
    fun left right row other first second separated => ?_⟩
  · obtain ⟨-, bytes, -⟩ := BlockSelector.read_wire reads
    rw [bytes, List.take_append_of_le_length block.hashedSize_le]
    exact block.hashOf_eq env.blake2b
  · have input : block.unsigned.hashInput = block.hashInput := by
      rw [Block.hashInput, Block.hashInput, block.type_unsigned, block.hashedWire_unsigned]
    rw [inserts.hash, Block.hashOf_eq, Block.hashOf_eq, input]
  · rw [first.hash, second.hash, Block.hashOf_eq, Block.hashOf_eq, ← Block.hashInput_eq_iff]
    constructor
    · intro same
      exact separated (Subtype.ext (toHex_injective (Value.text.inj same)))
    · intro same
      rw [same]

/-- A receive and a change block of zeros have the same stored hash. -/
theorem block_hashes_zero :
    ∃ (left : BlockReceive) (right : BlockChange) (row other : Row),
      (Block.receive left).Inserts .sample row ∧ (Block.change right).Inserts .sample other ∧
      row.get .hash = other.get .hash := by
  let left : BlockReceive := ⟨.zero 32, .zero 32, .zero 64, 0⟩
  let right : BlockChange := ⟨.zero 32, .zero 32, .zero 64, 0⟩
  have inserts : ∀ block : Block, ∃ row, block.Inserts .sample row := by
    intro block
    obtain ⟨after, run, rows⟩ := @block.inserts_storedRow .sample rfl 1 0
      ⟨.opened .empty, .initial⟩ ⟨rfl, rfl⟩
    exact ⟨_, _, _, _, _, _, run, rows⟩
  obtain ⟨row, first⟩ := inserts (.receive left)
  obtain ⟨other, second⟩ := inserts (.change right)
  refine ⟨left, right, row, other, first, second, ?_⟩
  exact ((block_hashes .sample).2.2 _ _ row other first second fun _ => rfl).mpr
    (.inr ⟨.inl rfl, .inr rfl, rfl⟩)

end Nanocap
