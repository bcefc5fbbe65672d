import Mathlib.Data.List.Infix
import Nanocap.Database.Columns
import Nanocap.Database.Refinement
import Nanocap.Protocol.Messages
import Nanocap.Util.Decoding

/-! # Rows of votes by hash

The hashes of a vote, from the segment to the text in its row. -/

namespace Nanocap

/-! ## Reading hashes -/

section Items

variable {α : Type} {item : Reader α} {wire : α → List UInt8} {size : Nat}
  {stop : Nat → Reader Bool}

private theorem KStream.readUntil_items (codec : Codec item wire size fun _ => True)
    (stops : ∀ count stream, ∃ last, stop count stream = .ok last stream) {fuel read : Nat}
    {stream after : KStream} {items : List α}
    (reads : readUntil item stop fuel read stream = .ok items after) :
    items ≠ [] ∧ stream.rest = items.flatMap wire ++ after.rest := by
  induction fuel generalizing read stream items with
  | zero => cases reads
  | succ fuel induction =>
      rw [readUntil] at reads
      obtain ⟨head, middle, first, rest⟩ := EStateM.bind_eq_ok reads
      rcases codec.cases stream with ⟨-, _, raises⟩ | ⟨value, tail, -, bytes, found⟩
      · rw [raises] at first
        cases first
      · rw [found] at first
        cases first
        obtain ⟨last, answer⟩ := stops (read + 1) ⟨stream.position + size, tail⟩
        rw [EStateM.bind_of_ok answer] at rest
        cases last with
        | true =>
            cases rest
            exact ⟨List.cons_ne_nil _ _, by rw [bytes, List.flatMap_singleton]⟩
        | false =>
            obtain ⟨others, end', behind, built⟩ := EStateM.bind_eq_ok rest
            cases built
            obtain ⟨-, more⟩ := induction behind
            exact ⟨List.cons_ne_nil _ _, by
              rw [bytes, List.flatMap_cons, List.append_assoc]
              exact congrArg _ more⟩

end Items

theorem VoteByHash.read_hashes {header : MessageHeader} {stream after : KStream}
    {hashes : List (Bytes 32)}
    (reads : VoteByHash.read header stream = .ok ⟨some hashes⟩ after) :
    hashes ≠ [] ∧ stream.rest = hashes.flatMap (·.val) ++ after.rest := by
  obtain ⟨ended, middle, asked, rest⟩ := EStateM.bind_eq_ok reads
  cases asked
  cases ended : stream.rest.isEmpty with
  | true =>
      rw [ended] at rest
      cases rest
  | false =>
      rw [ended] at rest
      obtain ⟨items, behind, loop, built⟩ := EStateM.bind_eq_ok rest
      cases built
      exact KStream.readUntil_items (Codec.readBytes 32) (fun _ _ => ⟨_, rfl⟩) loop

theorem MsgConfirmAck.read_hashes {header : MessageHeader} {stream after : KStream}
    {msg : MsgConfirmAck} {hashes : List (Bytes 32)}
    (reads : MsgConfirmAck.read header stream = .ok msg after)
    (carried : msg.votebyhash = some ⟨some hashes⟩) :
    msg.block = none ∧ hashes ≠ [] ∧
      stream.rest = msg.common.wire ++ (hashes.flatMap (·.val) ++ after.rest) := by
  obtain ⟨common, middle, first, rest⟩ := EStateM.bind_eq_ok reads
  rcases VoteCommon.codec.cases stream with ⟨-, _, raises⟩ | ⟨value, tail, -, bytes, found⟩
  · rw [raises] at first
    cases first
  · rw [found] at first
    cases first
    by_cases byHash : header.blockType = .notABlock
    · rw [if_pos byHash] at rest
      obtain ⟨vote, behind, second, built⟩ := EStateM.bind_eq_ok rest
      cases built
      obtain rfl := Option.some.inj carried
      obtain ⟨some, hashBytes⟩ := VoteByHash.read_hashes second
      exact ⟨rfl, some, by rw [bytes, ← hashBytes]⟩
    · rw [if_neg byHash] at rest
      obtain ⟨block, behind, second, built⟩ := EStateM.bind_eq_ok rest
      cases built
      cases carried

private theorem MessageHeader.read_rest {header : MessageHeader} {stream after : KStream}
    (reads : MessageHeader.read stream = .ok header after) :
    ∃ front : List UInt8, front.length = 8 ∧ stream.rest = front ++ after.rest := by
  have bytes : ∀ {α : Type} {reader : Reader α} {wire : α → List UInt8} {size : Nat} {value : α}
      {stream after : KStream}, Codec reader wire size (fun _ => True) →
      reader stream = .ok value after →
      ∃ front : List UInt8, front.length = size ∧ stream.rest = front ++ after.rest := by
    intro α reader wire size value stream after codec reads
    rcases codec.cases stream with ⟨-, _, raises⟩ | ⟨value, tail, -, bytes, found⟩
    · rw [raises] at reads
      cases reads
    · rw [found] at reads
      cases reads
      exact ⟨wire value, codec.length value trivial, bytes⟩
  obtain ⟨_, _, magic, reads⟩ := EStateM.bind_eq_ok reads
  obtain ⟨_, _, fixed, checked⟩ := EStateM.bind_eq_ok magic
  obtain ⟨_, _, networkId, reads⟩ := EStateM.bind_eq_ok reads
  obtain ⟨_, _, versionMax, reads⟩ := EStateM.bind_eq_ok reads
  obtain ⟨_, _, versionUsing, reads⟩ := EStateM.bind_eq_ok reads
  obtain ⟨_, _, versionMin, reads⟩ := EStateM.bind_eq_ok reads
  obtain ⟨_, _, messageType, reads⟩ := EStateM.bind_eq_ok reads
  obtain ⟨_, _, extensions, built⟩ := EStateM.bind_eq_ok reads
  cases built
  obtain ⟨first, size, magic⟩ := bytes (.readBytes 1) fixed
  obtain ⟨second, size2, networkId⟩ := bytes .readU1 networkId
  obtain ⟨third, size3, versionMax⟩ := bytes .readU1 versionMax
  obtain ⟨fourth, size4, versionUsing⟩ := bytes .readU1 versionUsing
  obtain ⟨fifth, size5, versionMin⟩ := bytes .readU1 versionMin
  obtain ⟨sixth, size6, messageType⟩ := bytes .readU1 messageType
  obtain ⟨seventh, size7, extensions⟩ := bytes .readU2le extensions
  split at checked
  · cases checked
    refine ⟨first ++ (second ++ (third ++ (fourth ++ (fifth ++ (sixth ++ seventh))))), ?_, ?_⟩
    · simp only [List.length_append, size, size2, size3, size4, size5, size6, size7]
    · rw [magic, networkId, versionMax, versionUsing, versionMin, messageType, extensions]
      simp only [List.append_assoc]
  · cases checked

private theorem Body.read_confirmAck {header : MessageHeader} {stream after : KStream}
    {msg : MsgConfirmAck} (reads : Body.read header stream = .ok (.confirmAck msg) after) :
    MsgConfirmAck.read header stream = .ok msg after := by
  unfold Body.read at reads
  cases kind : header.messageType <;> rw [kind] at reads
  case telemetryReq => cases reads
  case confirmAck =>
    obtain ⟨_, _, content, built⟩ := EStateM.bind_eq_ok reads
    cases built
    exact content
  all_goals
    obtain ⟨_, _, _, built⟩ := EStateM.bind_eq_ok reads
    cases built

theorem Nano.read_hashes {bytes : List UInt8} {header : MessageHeader} {msg : MsgConfirmAck}
    {stop : KStream} {hashes : List (Bytes 32)}
    (reads : Nano.read (.ofBytes bytes) = .ok ⟨header, .confirmAck msg⟩ stop)
    (carried : msg.votebyhash = some ⟨some hashes⟩) :
    msg.block = none ∧ hashes ≠ [] ∧
      bytes.drop 112 = hashes.flatMap (·.val) ++ stop.rest := by
  obtain ⟨_, middle, first, rest⟩ := EStateM.bind_eq_ok reads
  obtain ⟨body, _, second, built⟩ := EStateM.bind_eq_ok rest
  cases built
  obtain ⟨front, size, front_eq⟩ := MessageHeader.read_rest first
  obtain ⟨block, some, hashBytes⟩ :=
    MsgConfirmAck.read_hashes (Body.read_confirmAck second) carried
  refine ⟨block, some, ?_⟩
  have all : bytes = front ++ middle.rest := front_eq
  have common := VoteCommon.codec.length msg.common trivial
  rw [all, hashBytes, ← List.append_assoc]
  exact List.drop_left' (by rw [List.length_append, size, common])

/-! ## The text -/

/-- The loop of `put(msg_confirm_ack_t)` that joins `size` hashes. -/
def writeHashes (size : Nat) : Nat → List (Bytes 32) → String
  | _, [] => ""
  | count, hash :: hashes =>
      toHex hash.val ++ (if count + 1 < size then "," else "") ++
        writeHashes size (count + 1) hashes

theorem writeHashes_eq {size count : Nat} {hashes : List (Bytes 32)}
    (rest : count + hashes.length = size) : writeHashes size count hashes = joinHashes hashes := by
  induction hashes generalizing count with
  | nil => rfl
  | cons hash hashes induction =>
      rw [List.length_cons] at rest
      rw [writeHashes, induction (by omega)]
      cases hashes with
      | nil =>
          rw [if_neg (by simp at rest; omega), joinHashes, joinHashes, String.append_empty,
            String.append_empty]
      | cons next hashes =>
          rw [List.length_cons] at rest
          rw [if_pos (by omega)]
          rfl

/-- The digits `to_hex` writes. -/
def hexDigits : List Char := "0123456789ABCDEF".toList

theorem hexDigit_mem {value : Nat} (digit : value < 16) : hexDigit value ∈ hexDigits := by
  have all : ∀ value : Fin 16, hexDigit value.val ∈ hexDigits := by decide
  exact all ⟨value, digit⟩

theorem toHex_digits (bytes : List UInt8) : ∀ char ∈ (toHex bytes).toList, char ∈ hexDigits := by
  intro char member
  rw [toHex, String.toList_ofList, List.mem_flatMap] at member
  obtain ⟨byte, -, member⟩ := member
  have bound := byte.toNat_lt
  rcases List.mem_cons.mp member with rfl | member
  · exact hexDigit_mem (by omega)
  · rw [List.mem_singleton.mp member]
    exact hexDigit_mem (Nat.mod_lt _ (by decide))

private theorem length_toHex (bytes : List UInt8) :
    (toHex bytes).toList.length = 2 * bytes.length := by
  rw [toHex, String.toList_ofList]
  induction bytes with
  | nil => rfl
  | cons byte bytes induction =>
      rw [List.flatMap_cons, List.length_append, induction, List.length_cons]
      simp only [List.length_cons, List.length_nil]
      omega

def hashTexts (hashes : List (Bytes 32)) : List (List Char) :=
  hashes.map fun hash => (toHex hash.val).toList

theorem toList_joinHashes (hashes : List (Bytes 32)) :
    (joinHashes hashes).toList = [','].intercalate (hashTexts hashes) := by
  induction hashes with
  | nil => rfl
  | cons hash hashes induction =>
      cases hashes with
      | nil => exact List.intercalate_singleton.symm
      | cons next hashes =>
          rw [joinHashes, String.toList_append, String.toList_append, induction]
          · exact List.intercalate_cons_cons.symm
          · exact List.cons_ne_nil _ _

/-- Splitting the text at its commas gives the hashes back. -/
theorem splitOn_joinHashes {hashes : List (Bytes 32)} (some : hashes ≠ []) :
    (joinHashes hashes).toList.splitOn ',' = hashTexts hashes := by
  rw [toList_joinHashes]
  refine List.splitOn_intercalate ',' (fun text member comma => ?_) fun empty => some ?_
  · obtain ⟨hash, -, rfl⟩ := List.mem_map.mp member
    exact absurd (toHex_digits hash.val ',' comma) (by decide)
  · exact List.map_eq_nil_iff.mp empty

/-! ## Searching -/

/-- The `LIKE` operator of SQLite: `%` stands for any text and `_` for any character, and
the case of letters is ignored. -/
def like : List Char → List Char → Bool
  | [], text => text.isEmpty
  | '%' :: pattern, text => text.tails.any (like pattern)
  | '_' :: _, [] => false
  | '_' :: pattern, _ :: text => like pattern text
  | _ :: _, [] => false
  | symbol :: pattern, char :: text => symbol.toUpper == char.toUpper && like pattern text

example : like "%8eB7%".toList "00,8EB7".toList = true := by decide

theorem like_percent (pattern text rest : List Char) (matches_ : like pattern rest = true) :
    like ('%' :: pattern) (text ++ rest) = true :=
  List.any_eq_true.mpr ⟨rest, (List.mem_tails _ _).mpr (List.suffix_append text rest), matches_⟩

private theorem like_word {word : List Char} (ordinary : ∀ char ∈ word, char ≠ '%' ∧ char ≠ '_')
    {pattern rest : List Char} (matches_ : like pattern rest = true) :
    like (word ++ pattern) (word ++ rest) = true := by
  induction word with
  | nil => exact matches_
  | cons char word induction =>
      obtain ⟨percent, underscore⟩ := ordinary char List.mem_cons_self
      have others := induction fun other member => ordinary other (List.mem_cons_of_mem _ member)
      rw [List.cons_append, List.cons_append]
      unfold like
      split <;> simp_all

private theorem like_infix {word text : List Char}
    (ordinary : ∀ char ∈ word, char ≠ '%' ∧ char ≠ '_')
    (part : word <:+: text) : like ('%' :: (word ++ ['%'])) text = true := by
  obtain ⟨front, rest, rfl⟩ := part
  have any : like ['%'] rest = true := by
    have matches_ := like_percent [] rest [] rfl
    rwa [List.append_nil] at matches_
  rw [List.append_assoc]
  exact like_percent _ _ _ (like_word ordinary any)

private theorem infix_joinHashes {hashes : List (Bytes 32)} {hash : Bytes 32}
    (member : hash ∈ hashes) :
    (toHex hash.val).toList <:+: (joinHashes hashes).toList := by
  rw [toList_joinHashes]
  induction hashes with
  | nil => cases member
  | cons first hashes induction =>
      cases hashes with
      | nil =>
          obtain rfl := List.mem_singleton.mp member
          rw [hashTexts, List.map_singleton, List.intercalate_singleton]
      | cons next hashes =>
          rw [hashTexts, List.map_cons, List.map_cons, List.intercalate_cons_cons]
          rcases List.mem_cons.mp member with rfl | member
          · exact ⟨[], _, (List.append_assoc _ _ _).symm⟩
          · exact (induction member).trans (List.suffix_append _ _).isInfix

/-! ## The row -/

structure VoteByHashRow (row : Row) (hashes : List (Bytes 32)) : Prop where
  vbh : row.get .vbh = .nat 1
  voteCount : row.get .voteCount = .nat hashes.length
  text : ∃ text : String, row.get .hashes = .text text ∧
    text = writeHashes hashes.length 0 hashes ∧
    (text.toList.splitOn ',').length = hashes.length ∧
    (∀ part ∈ text.toList.splitOn ',', part.length = 64 ∧ ∀ char ∈ part, char ∈ hexDigits) ∧
    (text.toList.splitOn ',').map ofHexDigits = hashes.map (·.val) ∧
    ∀ hash ∈ hashes, like ('%' :: ((toHex hash.val).toList ++ ['%'])) text.toList = true

private theorem hexDigits_ordinary : ∀ char ∈ hexDigits, char ≠ '%' ∧ char ≠ '_' := by
  have each : hexDigits.all (fun char => char != '%' && char != '_') := by decide
  intro char member
  simpa using List.all_eq_true.mp each char member

private theorem VoteByHashRow.of_columns {row : Row} {hashes : List (Bytes 32)} (some : hashes ≠ [])
    (vbh : row.get .vbh = .nat 1) (voteCount : row.get .voteCount = .nat hashes.length)
    (text : row.get .hashes = .text (joinHashes hashes)) : VoteByHashRow row hashes := by
  refine ⟨vbh, voteCount, joinHashes hashes, text, (writeHashes_eq (Nat.zero_add _)).symm,
    ?_, ?_, ?_, fun hash member => ?_⟩
  · rw [splitOn_joinHashes some, hashTexts, List.length_map]
  · rw [splitOn_joinHashes some]
    intro part member
    obtain ⟨hash, -, rfl⟩ := List.mem_map.mp member
    exact ⟨by rw [length_toHex, hash.length_val], toHex_digits hash.val⟩
  · rw [splitOn_joinHashes some, hashTexts, List.map_map]
    exact List.map_congr_left fun hash _ => ofHex_toHex hash.val
  · exact like_infix (fun char digit => hexDigits_ordinary char (toHex_digits hash.val char digit))
      (infix_joinHashes member)

theorem joinHashes_injective {left right : List (Bytes 32)} (leftSome : left ≠ [])
    (rightSome : right ≠ []) (same : joinHashes left = joinHashes right) : left = right := by
  have parts := splitOn_joinHashes leftSome
  rw [same, splitOn_joinHashes rightSome] at parts
  refine List.map_injective_iff.mpr (fun first second equal => ?_) parts.symm
  exact Subtype.ext (toHex_injective (String.toList_injective equal))

private theorem MsgConfirmAck.contentCells_byHash {env : Environment} {msg : MsgConfirmAck}
    {hashes : List (Bytes 32)} (byHash : msg.block = none) (present : hashes ≠ [])
    (carried : msg.votebyhash = some ⟨some hashes⟩) (blockContentId : Nat) :
    msg.contentCells env blockContentId =
      [(.vbh, .nat 1), (.voteCount, .nat hashes.length), (.hashes, .text (joinHashes hashes))] := by
  have list : msg.hashes = hashes := by
    rw [MsgConfirmAck.hashes, carried]
    rfl
  rw [MsgConfirmAck.contentCells, byHash, list]
  exact if_pos present

private theorem Plan.rows_voteByHash {env : Environment} {info : NanoPacket}
    {header : MessageHeader} {msg : MsgConfirmAck} {hashes : List (Bytes 32)}
    (byHash : msg.block = none) (present : hashes ≠ [])
    (carried : msg.votebyhash = some ⟨some hashes⟩) (nextId : Nat) (bindings : Bindings) :
    ∃ vote packet, (Plan.vote env info header msg nextId).rows bindings = [vote, packet] ∧
      vote.table = .vote ∧ packet.table = .packet ∧ VoteByHashRow vote hashes := by
  have noBlock : voteBlockInsertions env msg (nextId + 1) nextId = [] := by
    rw [voteBlockInsertions, byHash]
    rfl
  have content := @MsgConfirmAck.contentCells_byHash env msg hashes byHash present carried
    (nextId + 1)
  unfold Plan.vote Plan.withContent Plan.rows
  rw [noBlock]
  refine ⟨_, _, rfl, rfl, rfl, .of_columns present ?_ ?_ ?_⟩
  all_goals
    refine Insertion.get_row (by simp [Table.parameters]) ?_ _
    rw [MsgConfirmAck.voteCells, content]
    rfl

/-- Every segment that holds a vote by hash is stored with one vote row, which holds the
hashes of the segment in their order and determines them. -/
theorem vote_by_hash_row {env : Environment} (neverFails : env.NeverFails) {info : NanoPacket}
    {header : MessageHeader} {msg : MsgConfirmAck} {stop : KStream} {hashes : List (Bytes 32)}
    (reads : Nano.read (.ofBytes info.data) = .ok ⟨header, .confirmAck msg⟩ stop)
    (carried : msg.votebyhash = some ⟨some hashes⟩) {world : World} (ready : world.db.Ready) :
    info.data.drop 112 = hashes.flatMap (·.val) ++ stop.rest ∧
    ∃ after vote packet,
      (putConfirmAck env header msg info).run env world = .ok () after ∧
      after.db.contents.rows = world.db.contents.rows ++ [vote, packet] ∧
      vote.table = .vote ∧ packet.table = .packet ∧ VoteByHashRow vote hashes ∧
      ∀ others ≠ [], vote.get .hashes = .text (joinHashes others) → others = hashes := by
  obtain ⟨byHash, present, bytes⟩ := Nano.read_hashes reads carried
  obtain ⟨vote, packet, rows, voteTable, packetTable, row⟩ := @Plan.rows_voteByHash env info header
    msg hashes byHash present carried world.db.nextId world.db.bindings
  refine ⟨bytes, _, vote, packet, Request.run_confirmAck neverFails info ready header msg, ?_,
    voteTable, packetTable, row, fun others some same => ?_⟩
  · rw [← rows]
    exact Db.store_rows
  · obtain ⟨_, text, rfl, -⟩ := row.text
    rw [writeHashes_eq (Nat.zero_add _)] at text
    exact joinHashes_injective some present (Value.text.inj (same.symm.trans text))

/-- A vote for two hashes, with an item count of zero. -/
theorem vote_by_hash_row_two :
    ∃ row : Row, VoteByHashRow row
      [⟨List.replicate 32 0x8E, rfl⟩, ⟨List.replicate 32 0xB7, rfl⟩] := by
  let header : MessageHeader := .sample .confirmAck 0x0100
  let common : VoteCommon := ⟨.zero 32, .zero 64, 0⟩
  let hashes : List (Bytes 32) :=
    [⟨List.replicate 32 0x8E, rfl⟩, ⟨List.replicate 32 0xB7, rfl⟩]
  let bytes := header.wire ++ (common.wire ++ hashes.flatMap (·.val))
  let nano : Nano := ⟨header, .confirmAck ⟨common, some ⟨some hashes⟩, none⟩⟩
  have check : returnsWith (fun other => decide (other = nano)) (Nano.read (.ofBytes bytes)) =
      true := by decide +kernel
  obtain ⟨other, stop, reads, same⟩ := exists_of_returnsWith check
  rw [of_decide_eq_true same] at reads
  obtain ⟨-, _, row, _, -, -, -, -, holds, -⟩ := @vote_by_hash_row .sample
    Environment.sample_neverFails (.sample bytes) _ _ _ hashes reads rfl
    ⟨.opened .empty, .initial⟩ (Db.opened_ready _)
  exact ⟨row, holds⟩

end Nanocap
