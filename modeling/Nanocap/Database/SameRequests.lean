import Nanocap.Database.Alike
import Nanocap.Database.Independence

/-! # Rows of the same request

One request, stored in two databases whatever was stored there before. The rows differ
in ids, and in the columns that the call does not bind: there each of them holds what an
earlier call bound. -/

namespace Nanocap

/-! ## Retained columns -/

/-- The columns an insertion may leave to earlier ones. A vote binds the reference to its
block or its hashes, as `vbh` tells. -/
def Row.retained (row : Row) : List Parameter :=
  match row.table with
  | .vote =>
      if row.get .vbh = .nat 0 then [.hashes]
      else if row.get .vbh = .nat 1 then [.contentId, .contentTable]
      else [.contentId, .contentTable, .hashes]
  | .bulkPullAccountResponseEntry => [.hash, .amount, .source]
  | _ => []

/-- A row, and what its statement was bound to earlier. -/
structure RecordedRow where
  row : Row
  earlier : Parameter → Value

/-- Ids correspond and everything else is the same, but for retained columns, which hold
what the statement was bound to earlier. -/
def RecordedRow.SameRequest (same : IdMatch) (left right : RecordedRow) : Prop :=
  left.row.table = right.row.table ∧ List.Forall₂ (fun cell cell' => cell.1 = cell'.1 ∧
    (Value.Alike same cell.1 cell.2 cell'.2 ∨ cell.1 ∈ left.row.retained ∧
      cell.2 = left.earlier cell.1 ∧ cell'.2 = right.earlier cell.1))
    left.row.cells right.row.cells

def Bindings.recorded (start : Bindings) (rows : List Row) : List RecordedRow :=
  rows.map fun row => ⟨row, start row.table⟩

theorem Bindings.recorded_append (start : Bindings) (first second : List Row) :
    start.recorded (first ++ second) = start.recorded first ++ start.recorded second :=
  List.map_append

/-- What is bound is alike, or has been bound since the start. -/
def Bindings.AlikeSince (same : IdMatch) (start start' left right : Bindings) : Prop :=
  ∀ table parameter, Value.Alike same parameter (left table parameter) (right table parameter) ∨
    left table parameter = start table parameter ∧ right table parameter = start' table parameter

theorem Bindings.alikeSince_refl (same : IdMatch) (start start' : Bindings) :
    Bindings.AlikeSince same start start' start start' := fun _ _ => .inr ⟨rfl, rfl⟩

/-- What the insertion does not bind is retained. -/
def Insertion.BindsTheRest (insertion : Insertion) : Prop :=
  ∀ bindings, ∀ parameter ∈ insertion.table.parameters,
    parameter ∈ insertion.cells.map Prod.fst ∨ parameter ∈ (insertion.row bindings).retained

theorem Insertion.Complete.bindsTheRest {insertion : Insertion} (complete : insertion.Complete) :
    insertion.BindsTheRest := fun _ parameter member => .inl (complete parameter member)

theorem retained_vote {cells : List Cell} {vbh : Nat}
    (bound : boundTo cells .vbh = some (.nat vbh)) (bindings : Bindings) :
    (Insertion.row ⟨.vote, cells⟩ bindings).retained =
      if vbh = 0 then [.hashes]
      else if vbh = 1 then [.contentId, .contentTable]
      else [.contentId, .contentTable, .hashes] := by
  have column : Parameter.vbh ∈ Table.vote.parameters := by simp [Table.parameters]
  have value := @Insertion.get_row ⟨.vote, cells⟩ _ _ column bound bindings
  change (if _ then _ else _) = _
  rw [value]
  simp only [Value.nat_inj]

private theorem MsgConfirmAck.voteCells_bindTheRest (env : Environment) (msg : MsgConfirmAck)
    (blockId id packetId : Nat) :
    (Insertion.mk .vote (msg.voteCells env blockId id packetId)).BindsTheRest := by
  intro bindings
  unfold voteCells contentCells
  cases msg.block with
  | some selector =>
      rw [@retained_vote _ 0 rfl]
      simp [Table.parameters, VoteCommon.cells]
  | none =>
      dsimp only
      split
      · rw [@retained_vote _ 1 rfl]
        simp [Table.parameters, VoteCommon.cells]
      · rw [@retained_vote _ 2 rfl]
        simp [Table.parameters, VoteCommon.cells]

section Plans

variable {env : Environment} {info : NanoPacket}

theorem Plan.bulkEntry_bindsTheRest {table : Table} {request : Cell} {event : String}
    {selector : BlockSelector} {flow : TcpFlowData} {nextId : Nat}
    (covers : [.id, request.1, .contentId, .contentTable] = table.parameters) :
    ∀ insertion ∈ (bulkEntry env info table request event selector flow nextId).insertions,
      insertion.BindsTheRest := by
  cases stored : storable env (some selector) with
  | some block =>
      exact fun insertion member =>
        (bulkEntry_complete (by rw [stored]; rfl) covers insertion member).bindsTheRest
  | none =>
      intro insertion member
      simp only [bulkEntry, stored] at member
      split at member
      · rw [List.mem_singleton.mp member]
        exact (Insertion.Complete.of_covers rfl).bindsTheRest
      · cases member

theorem Request.bindsTheRest (request : Request) (nextId : Nat) (flow : TcpFlowData) :
    ∀ insertion ∈ (request.plan env info nextId flow).insertions,
      insertion.BindsTheRest ∨
        insertion.table = .packet ∧ (request.plan env info nextId flow).heading.isSome := by
  have complete (binds : request.BindsAll env flow.requestFlags) :
      ∀ insertion ∈ (request.plan env info nextId flow).insertions,
        insertion.BindsTheRest ∨
          insertion.table = .packet ∧ (request.plan env info nextId flow).heading.isSome :=
    fun insertion member =>
      (request.complete binds nextId insertion member).imp Insertion.Complete.bindsTheRest id
  cases request with
  | confirmAck header msg =>
      intro insertion member
      rcases List.mem_append.mp member with member | member
      · rcases List.mem_append.mp member with member | member
        · refine .inl (Insertion.Complete.bindsTheRest ?_)
          unfold voteBlockInsertions at member
          split at member
          · exact blockInsertions_complete _ _ _ insertion member
          · cases member
        · rw [List.mem_singleton.mp member]
          exact .inl (msg.voteCells_bindTheRest env _ _ _)
      · rw [List.mem_singleton.mp member]
        exact .inr ⟨rfl, rfl⟩
  | bulkPullEntry entry =>
      exact fun insertion member => .inl (Plan.bulkEntry_bindsTheRest rfl insertion member)
  | bulkPushEntry entry =>
      exact fun insertion member => .inl (Plan.bulkEntry_bindsTheRest rfl insertion member)
  | bulkPullAccountEntry entry =>
      intro insertion member
      rw [List.mem_singleton.mp member]
      refine .inl fun bindings parameter column => ?_
      change parameter ∈ _ ∨ parameter ∈ [Parameter.hash, .amount, .source]
      revert parameter
      simp [Table.parameters, BulkPullAccountEntry.cells]
  | _ => exact complete trivial

end Plans

/-! ## Storing one request in two databases -/

section Rows

variable {same : IdMatch}

theorem RecordedRow.SameRequest.mono {more : IdMatch} (grows : same ≤ more)
    {left right : RecordedRow} (rows : RecordedRow.SameRequest same left right) :
    RecordedRow.SameRequest more left right :=
  ⟨rows.1, rows.2.imp fun _ _ cell => ⟨cell.1, cell.2.imp_left fun alike => alike.mono grows⟩⟩

theorem Bindings.AlikeSince.mono {more : IdMatch} (grows : same ≤ more)
    {start start' left right : Bindings}
    (since : Bindings.AlikeSince same start start' left right) :
    Bindings.AlikeSince more start start' left right :=
  fun table parameter => (since table parameter).imp_left fun alike => alike.mono grows

theorem columns_alike {cells cells' : List Cell}
    (alike : List.Forall₂ (Cell.Alike same) cells cells') :
    cells'.map Prod.fst = cells.map Prod.fst := by
  induction alike with
  | nil => rfl
  | cons cell _ induction => rw [List.map_cons, List.map_cons, induction, cell.1]

private theorem overwrite_bound (left right : Parameter → Value) {cells cells' : List Cell}
    (alike : List.Forall₂ (Cell.Alike same) cells cells') {parameter : Parameter}
    (bound : parameter ∈ cells.map Prod.fst) :
    Value.Alike same parameter (overwrite left cells parameter)
      (overwrite right cells' parameter) := by
  have fresh (bindings : Parameter → Value) (cells : List Cell)
      (bound : parameter ∈ cells.map Prod.fst) :
      overwrite bindings cells parameter = overwrite (fun _ => .null) cells parameter :=
    overwrite_congr cells fun unbound => absurd bound unbound
  rw [fresh left cells bound, fresh right cells' (columns_alike alike ▸ bound)]
  exact overwrite_alike (fun _ => Value.alike_null _) alike parameter

section Since

variable {start start' left right : Bindings}
  (since : Bindings.AlikeSince same start start' left right)
include since

theorem Bindings.AlikeSince.overwrite {table : Table} {cells cells' : List Cell}
    (alike : List.Forall₂ (Cell.Alike same) cells cells') (parameter : Parameter) :
    Value.Alike same parameter (Nanocap.overwrite (left table) cells parameter)
        (Nanocap.overwrite (right table) cells' parameter) ∨
      parameter ∉ cells.map Prod.fst ∧
        Nanocap.overwrite (left table) cells parameter = start table parameter ∧
        Nanocap.overwrite (right table) cells' parameter = start' table parameter := by
  by_cases bound : parameter ∈ cells.map Prod.fst
  · exact .inl (overwrite_bound _ _ alike bound)
  · have unbound : parameter ∉ cells'.map Prod.fst := columns_alike alike ▸ bound
    rw [overwrite_of_notMem _ bound, overwrite_of_notMem _ unbound]
    exact (since table parameter).imp_right fun kept => ⟨bound, kept⟩

theorem Bindings.AlikeSince.rebind {insertion insertion' : Insertion}
    (alike : Insertion.Alike same insertion insertion') :
    Bindings.AlikeSince same start start' (insertion.rebind left) (insertion'.rebind right) := by
  intro table parameter
  rw [Insertion.rebind, Insertion.rebind, ← alike.1]
  by_cases equal : table = insertion.table
  · subst equal
    rw [Function.update_self, Function.update_self]
    exact (since.overwrite alike.2 parameter).imp_right And.right
  · rw [Function.update_of_ne equal, Function.update_of_ne equal]
    exact since table parameter

theorem Bindings.AlikeSince.clear (heading : Option Heading) :
    Bindings.AlikeSince same start start' (Heading.clear heading left)
      (Heading.clear heading right) := by
  intro table parameter
  unfold Heading.clear
  split
  · by_cases packet : table = .packet
    · subst packet
      rw [Function.update_self, Function.update_self]
      exact .inl (Value.alike_null parameter)
    · rw [Function.update_of_ne packet, Function.update_of_ne packet]
      exact since table parameter
  · exact since table parameter

private theorem Bindings.AlikeSince.foldl_rebind {insertions insertions' : List Insertion}
    (alike : List.Forall₂ (Insertion.Alike same) insertions insertions') :
    Bindings.AlikeSince same start start'
      (insertions.foldl (fun current insertion => insertion.rebind current) left)
      (insertions'.foldl (fun current insertion => insertion.rebind current) right) := by
  induction alike generalizing left right with
  | nil => exact since
  | cons alike _ induction => exact induction (since.rebind alike)

private theorem Insertion.Alike.sameRequest {insertion insertion' : Insertion}
    (alike : Insertion.Alike same insertion insertion')
    (binds : insertion.BindsTheRest ∨ ∀ parameter,
      Value.Alike same parameter (left insertion.table parameter)
        (right insertion.table parameter)) :
    RecordedRow.SameRequest same ⟨insertion.row left, start insertion.table⟩
      ⟨insertion'.row right, start' insertion'.table⟩ := by
  refine ⟨alike.1, ?_⟩
  have stamps : ∀ cell ∈ insertion.table.stamps, cell.1.isId = false := by
    cases insertion.table <;> simp [Table.stamps, Parameter.isId]
  rw [show (insertion'.row right).cells = _ ++ insertion'.table.stamps from rfl, ← alike.1]
  refine List.rel_append ?_ ((@cells_alike same _ stamps).imp fun _ _ cell =>
    ⟨cell.1, .inl cell.2⟩)
  rw [List.forall₂_map_left_iff, List.forall₂_map_right_iff, List.forall₂_same]
  intro parameter column
  refine ⟨rfl, ?_⟩
  rcases binds with binds | bindings
  · refine (since.overwrite alike.2 parameter).imp_right ?_
    rintro ⟨unbound, kept⟩
    exact ⟨(binds left parameter column).resolve_left unbound, kept⟩
  · exact .inl (overwrite_alike bindings alike.2 parameter)

private theorem insertedRows_sameRequest {insertions insertions' : List Insertion}
    (alike : List.Forall₂ (Insertion.Alike same) insertions insertions')
    (binds : ∀ insertion ∈ insertions, insertion.BindsTheRest ∨ ∀ parameter,
      Value.Alike same parameter (left insertion.table parameter)
        (right insertion.table parameter)) :
    List.Forall₂ (RecordedRow.SameRequest same) (start.recorded (insertedRows left insertions))
      (start'.recorded (insertedRows right insertions')) := by
  induction alike generalizing left right with
  | nil => exact .nil
  | @cons insertion insertion' insertions _ alike _ induction =>
      refine .cons (alike.sameRequest since (binds insertion (by simp)))
        (induction (since.rebind alike) fun other member => ?_)
      refine (binds other (by simp [member])).imp_right fun bindings parameter => ?_
      rw [Insertion.rebind, Insertion.rebind, ← alike.1]
      by_cases equal : other.table = insertion.table
      · rw [equal, Function.update_self, Function.update_self]
        exact overwrite_alike (equal ▸ bindings) alike.2 parameter
      · rw [Function.update_of_ne equal, Function.update_of_ne equal]
        exact bindings parameter

private theorem Plan.Alike.rebind_since {left' right' : Plan}
    (alike : Plan.Alike same left' right') :
    Bindings.AlikeSince same start start' (left'.rebind left) (right'.rebind right) := by
  rw [Plan.rebind, Plan.rebind, ← alike.heading]
  exact (since.clear _).foldl_rebind alike.insertions

private theorem Plan.Alike.sameRequests {left' right' : Plan} (alike : Plan.Alike same left' right')
    (binds : ∀ insertion ∈ left'.insertions,
      insertion.BindsTheRest ∨ insertion.table = .packet ∧ left'.heading.isSome) :
    List.Forall₂ (RecordedRow.SameRequest same) (start.recorded (left'.rows left))
      (start'.recorded (right'.rows right)) := by
  rw [Plan.rows, Plan.rows, ← alike.heading]
  refine insertedRows_sameRequest (since.clear _) alike.insertions fun insertion member =>
    (binds insertion member).imp_right ?_
  rintro ⟨table, heading⟩ parameter
  rw [Heading.clear, Heading.clear, if_pos heading, if_pos heading, table,
    Function.update_self, Function.update_self]
  exact Value.alike_null parameter

end Since

end Rows

/-! ## Databases given the same requests -/

/-- Since `start` and `start'` the databases were given the same requests. -/
structure Db.SameRequests (start start' : Db) (same : IdMatch) (left right : Db) : Prop where
  readyLeft : left.Ready
  readyRight : right.Ready
  oneToOne : same.OneToOne
  bounded : same.Bounded left.nextId right.nextId
  bindings : Bindings.AlikeSince same start.bindings start'.bindings left.bindings right.bindings
  rows : ∃ newLeft newRight, left.contents.rows = start.contents.rows ++ newLeft ∧
    right.contents.rows = start'.contents.rows ++ newRight ∧
    List.Forall₂ (RecordedRow.SameRequest same) (start.bindings.recorded newLeft)
      (start'.bindings.recorded newRight)

theorem Db.SameRequests.store {env : Environment} {start start' : Db} {same : IdMatch}
    {left right : Db} (alike : Db.SameRequests start start' same left right) {plan plan' : Plan}
    (plans : Plan.Alike (same.extend left.nextId right.nextId plan.ids) plan plan')
    (binds : ∀ insertion ∈ plan.insertions,
      insertion.BindsTheRest ∨ insertion.table = .packet ∧ plan.heading.isSome) :
    Db.SameRequests start start' (same.extend left.nextId right.nextId plan.ids)
      (left.store env plan) (right.store env plan') := by
  have grows := same.le_extend left.nextId right.nextId plan.ids
  have since := alike.bindings.mono grows
  obtain ⟨newLeft, newRight, rowsLeft, rowsRight, rows⟩ := alike.rows
  refine ⟨alike.readyLeft.store env plan, alike.readyRight.store env plan',
    alike.oneToOne.extend alike.bounded _, ?_, ?_, newLeft ++ plan.rows left.bindings,
    newRight ++ plan'.rows right.bindings, ?_, ?_, ?_⟩
  · rw [Db.store_nextId, Db.store_nextId, ← plans.ids]
    exact alike.bounded.extend _
  · rw [Db.bindings_store, Db.bindings_store]
    exact plans.rebind_since since
  · rw [Db.store_rows, rowsLeft, List.append_assoc]
  · rw [Db.store_rows, rowsRight, List.append_assoc]
  · rw [Bindings.recorded_append, Bindings.recorded_append]
    exact List.rel_append (rows.imp fun _ _ row => row.mono grows)
      (plans.sameRequests since binds)

end Nanocap
