import Nanocap.Database.StoredText

/-! # Queries

What `db::query` answers to a `SELECT` of columns of one data table, and when the
answer can be written as JSON. -/

namespace Nanocap

/-! ## Reading columns -/

/-- The bytes SQLite has for a value; `stamp` is what it wrote for the symbolic
`CURRENT_TIMESTAMP`. -/
def Value.stored (stamp : String) : Value → List UInt8
  | .null => []
  | .integer value => latin1 (toString value)
  | .text content => latin1 content
  | .currentTimestamp => latin1 stamp

/-- `Column::getText`, which answers a C string. -/
def Value.getText (stamp : String) (value : Value) : List UInt8 := upToNul (value.stored stamp)

theorem Value.stored_raw (stamp : String) (bytes : List UInt8) :
    (Value.raw bytes).stored stamp = bytes := latin1_ofBytes bytes

private theorem Value.QuerySafe.plain_stored {value : Value} (safe : value.QuerySafe)
    {stamp : String} (stamped : Plain stamp) : ∀ byte ∈ value.stored stamp, PlainByte byte := by
  cases value with
  | null => exact fun _ member => absurd member List.not_mem_nil
  | integer value => exact latin1_plain (Int.plain_repr value)
  | text content => exact latin1_plain safe
  | currentTimestamp => exact latin1_plain stamped

/-! ## Statements -/

/-- A `SELECT` of named columns of a data table, and the rows SQLite finds for it in
the order it steps through them. -/
structure Select where
  table : Table
  columns : List (String × Parameter)
  found : List Row

/-- Conditions, an order or a limit may choose any rows of the table. -/
def Select.Answers (select : Select) (contents : Contents) : Prop :=
  ∀ row ∈ select.found, row ∈ contents.rows ∧ row.table = select.table

/-- The JSON object of the answer. The names appear with the first row. -/
structure QueryResult where
  columns : Option (List String)
  rows : List (List (List UInt8))
deriving DecidableEq

/-- `dump` throws on a text that is not UTF-8. -/
def QueryResult.Dumps (result : QueryResult) : Prop :=
  ∀ texts ∈ result.rows, ∀ text ∈ texts, IsUtf8 text

instance (result : QueryResult) : Decidable result.Dumps :=
  inferInstanceAs (Decidable (∀ texts ∈ _, ∀ text ∈ _, _))

section Query

variable (maxQueryResult : Int) (stamp : Row → String) (select : Select)

/-- The rows the loop steps to before it has `max_query_result` of them. -/
def Select.stepped : List Row := select.found.take maxQueryResult.toNat

def query : QueryResult where
  columns :=
    if select.stepped maxQueryResult = [] then none else some (select.columns.map Prod.fst)
  rows := (select.stepped maxQueryResult).map fun row =>
    select.columns.map fun column => (row.get column.2).getText (stamp row)

def Select.storedTexts : List (List (List UInt8)) :=
  (select.stepped maxQueryResult).map fun row =>
    select.columns.map fun column => (row.get column.2).stored (stamp row)

/-- The answer has the full texts, and can be written. -/
def Select.AnsweredInFull : Prop :=
  (query maxQueryResult stamp select).rows = select.storedTexts maxQueryResult stamp ∧
    (query maxQueryResult stamp select).Dumps

variable {maxQueryResult stamp select}

theorem Select.answeredInFull_iff :
    select.AnsweredInFull maxQueryResult stamp ↔
      ∀ row ∈ select.stepped maxQueryResult, ∀ column ∈ select.columns,
        0 ∉ (row.get column.2).stored (stamp row) ∧
          IsUtf8 ((row.get column.2).stored (stamp row)) := by
  have full : (query maxQueryResult stamp select).rows = select.storedTexts maxQueryResult stamp ↔
      ∀ row ∈ select.stepped maxQueryResult, ∀ column ∈ select.columns,
        0 ∉ (row.get column.2).stored (stamp row) := by
    simp only [query, storedTexts, List.map_inj_left, Value.getText, upToNul_eq_self_iff]
  have dumps : (query maxQueryResult stamp select).Dumps ↔
      ∀ row ∈ select.stepped maxQueryResult, ∀ column ∈ select.columns,
        IsUtf8 ((row.get column.2).getText (stamp row)) := by
    simp only [QueryResult.Dumps, query, List.forall_mem_map]
  rw [AnsweredInFull, full, dumps]
  constructor
  · rintro ⟨free, writes⟩ row stepped column selected
    have same := upToNul_eq_self_iff.mpr (free row stepped column selected)
    exact ⟨free row stepped column selected, same ▸ writes row stepped column selected⟩
  · intro each
    refine ⟨fun row stepped column selected => (each row stepped column selected).1, ?_⟩
    intro row stepped column selected
    obtain ⟨free, utf8⟩ := each row stepped column selected
    rwa [Value.getText, upToNul_eq_self_iff.mpr free]

theorem Select.answeredInFull (safe : ∀ row ∈ select.found, row.QuerySafe)
    (stamped : ∀ row, Plain (stamp row)) : select.AnsweredInFull maxQueryResult stamp := by
  refine Select.answeredInFull_iff.mpr fun row stepped column _ => ?_
  have plain := ((safe row (List.mem_of_mem_take stepped)).get column.2).plain_stored (stamped row)
  exact ⟨zero_notMem_of_plain plain, isUtf8_of_plain plain⟩

end Query

end Nanocap
