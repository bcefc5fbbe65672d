import Nanocap.Database.Columns
import Nanocap.Database.Refinement

/-! # Histories of calls

Calls of `put` and `put_connection` one after the other on one database. -/

namespace Nanocap

/-- A call with the packet and the flow it is given. -/
structure Call where
  request : Request
  info : NanoPacket
  flow : TcpFlowData
deriving DecidableEq

variable (env : Environment)

/-- The world a call leaves, whether it returns or throws. -/
def Call.perform (call : Call) (db : Db) : World :=
  stateOf ((call.request.put env call.info).run env ⟨db, call.flow⟩)

def Call.inserted (call : Call) (db : Db) : List Row :=
  (call.perform env db).db.contents.rows.drop db.contents.rows.length

def Db.history (db : Db) : List Call → Db
  | [] => db
  | call :: calls => (call.perform env db).db.history calls

variable {env}

theorem Db.history_append (db : Db) (first second : List Call) :
    db.history env (first ++ second) = (db.history env first).history env second := by
  induction first generalizing db with
  | nil => rfl
  | cons call first induction => exact induction _

section NeverFails

variable (neverFails : env.NeverFails) {db : Db} (ready : db.Ready)
include neverFails ready

theorem Call.perform_eq (call : Call) :
    call.perform env db = call.request.after env call.info ⟨db, call.flow⟩ := by
  rw [perform, Request.run_put neverFails call.info (by exact ready)]
  rfl

theorem Call.inserted_eq (call : Call) :
    call.inserted env db =
      (call.request.plan env call.info db.nextId call.flow).rows db.bindings := by
  rw [inserted, call.perform_eq neverFails ready, Request.after, Db.store_rows,
    List.drop_left]

theorem Call.ready_perform (call : Call) : (call.perform env db).db.Ready := by
  rw [call.perform_eq neverFails ready]
  exact ready.store env _

theorem Db.history_cons (call : Call) (calls : List Call) :
    db.history env (call :: calls) =
      (db.store env (call.request.plan env call.info db.nextId call.flow)).history env calls := by
  rw [history, call.perform_eq neverFails ready]
  rfl

private theorem Db.keeps_history {kept : Db → Prop} {calls : List Call}
    (each : ∀ call ∈ calls, ∀ db : Db, db.Ready → kept db → kept (call.perform env db).db)
    (start : kept db) : (db.history env calls).Ready ∧ kept (db.history env calls) := by
  induction calls generalizing db with
  | nil => exact ⟨ready, start⟩
  | cons call calls induction =>
      exact induction (call.ready_perform neverFails ready)
        (fun other member => each other (List.mem_cons_of_mem _ member))
        (each call (by simp) db ready start)

theorem Db.ready_history (calls : List Call) : (db.history env calls).Ready :=
  (@Db.keeps_history env neverFails db ready (fun _ => True) calls (fun _ _ _ _ _ => trivial)
    trivial).1

end NeverFails

end Nanocap
