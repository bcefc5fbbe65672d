import Nanocap.Kaitai.Codec

/-! # Readers that accept a grammar

A reader of records of any size has a grammar when it succeeds exactly on the wire
forms of the values that are valid in front of what follows. Values may look at what
follows, since a reader may ask for the end of the stream. -/

namespace Nanocap

open KStream

variable {α β : Type}

/-- The reader reads a value if and only if its wire form stands there. -/
def Grammar (reader : Reader α) (wire : α → List UInt8) (valid : α → List UInt8 → Prop) : Prop :=
  ∀ stream value after, reader stream = .ok value after ↔
    valid value after.rest ∧ stream.rest = wire value ++ after.rest ∧
      after.position = stream.position + (wire value).length

theorem Codec.grammar {reader : Reader α} {wire : α → List UInt8} {size : Nat}
    {valid : α → Prop} (codec : Codec reader wire size valid) :
    Grammar reader wire fun value _ => valid value := by
  intro stream value after
  constructor
  · intro reads
    rcases codec.cases stream with ⟨-, _, raises⟩ | ⟨other, rest, holds, bytes, found⟩
    · rw [raises] at reads
      cases reads
    · rw [found] at reads
      cases reads
      exact ⟨holds, bytes, by rw [codec.length value holds]⟩
  · rintro ⟨holds, bytes, position⟩
    obtain ⟨start, rest⟩ := stream
    obtain ⟨stop, behind⟩ := after
    dsimp only at bytes position
    rw [bytes, codec.reads value holds, position, codec.length value holds]

namespace Grammar

variable {reader : Reader α} {wire : α → List UInt8} {valid : α → List UInt8 → Prop}

theorem congr (grammar : Grammar reader wire valid) {same : α → List UInt8 → Prop}
    (equivalent : ∀ value rest, same value rest ↔ valid value rest) :
    Grammar reader wire same := by
  have equal : same = valid :=
    funext fun value => funext fun rest => propext (equivalent value rest)
  rwa [equal]

theorem pure (value : α) (wire : α → List UInt8) (nothing : wire value = []) :
    Grammar (pure value) wire fun read _ => read = value := by
  rintro ⟨position, rest⟩ read ⟨stop, behind⟩
  constructor
  · intro reads
    cases reads
    exact ⟨rfl, by rw [nothing]; rfl, by rw [nothing]; rfl⟩
  · rintro ⟨rfl, bytes, moved⟩
    rw [nothing] at bytes moved
    dsimp only [List.nil_append, List.length_nil, Nat.add_zero] at bytes moved
    rw [bytes, moved]
    rfl

theorem throw (exception : Exception) (wire : α → List UInt8) :
    Grammar (throw exception) wire fun _ _ => False := by
  intro stream value after
  constructor
  · rintro ⟨⟩
  · exact fun never => never.1.elim

/-- Read the field `part` and then the ones after it. -/
theorem field {next : α → Reader β} {nextWire : β → List UInt8}
    {nextValid : β → List UInt8 → Prop} (part : β → α) (first : Grammar reader wire valid)
    (second : ∀ value rest, valid value rest →
      Grammar (next value) nextWire
        fun record rest => nextValid record rest ∧ part record = value) :
    Grammar (reader >>= next) (fun record => wire (part record) ++ nextWire record)
      fun record rest => valid (part record) (nextWire record ++ rest) ∧ nextValid record rest := by
  intro stream record after
  constructor
  · intro reads
    obtain ⟨value, middle, front, behind⟩ := EStateM.bind_eq_ok reads
    obtain ⟨holds, bytes, moved⟩ := (first _ _ _).mp front
    obtain ⟨⟨nextHolds, rfl⟩, more, further⟩ := (second _ _ holds _ _ _).mp behind
    rw [more] at holds bytes
    refine ⟨⟨holds, nextHolds⟩, by rw [bytes, List.append_assoc], ?_⟩
    rw [further, moved, List.length_append, Nat.add_assoc]
  · rintro ⟨⟨holds, nextHolds⟩, bytes, moved⟩
    let middle : KStream :=
      ⟨stream.position + (wire (part record)).length, nextWire record ++ after.rest⟩
    have front : reader stream = .ok (part record) middle :=
      (first _ _ _).mpr ⟨holds, by rw [bytes, List.append_assoc], rfl⟩
    rw [EStateM.bind_of_ok front]
    refine (second _ _ holds _ _ _).mpr ⟨⟨nextHolds, rfl⟩, rfl, ?_⟩
    rw [moved, List.length_append, Nat.add_assoc]

theorem front {next : α → Reader β} {firstWire : α → List UInt8} {size : Nat}
    {nextWire : β → List UInt8} {nextValid : β → List UInt8 → Prop} (part : β → α)
    (codec : Codec reader firstWire size fun _ => True)
    (second : ∀ value,
      Grammar (next value) nextWire
        fun record rest => nextValid record rest ∧ part record = value) :
    Grammar (reader >>= next) (fun record => firstWire (part record) ++ nextWire record)
      nextValid :=
  (codec.grammar.field part fun value _ _ => second value).congr fun _ _ => by simp

theorem wrap (grammar : Grammar reader wire valid) (build : α → β) {wrapped : β → List UInt8}
    (agrees : ∀ value, wrapped (build value) = wire value) :
    Grammar (reader >>= fun value => Pure.pure (build value)) wrapped
      fun record rest => ∃ value, record = build value ∧ valid value rest := by
  intro stream record after
  constructor
  · intro reads
    obtain ⟨value, middle, front, behind⟩ := EStateM.bind_eq_ok reads
    cases behind
    obtain ⟨holds, bytes, moved⟩ := (grammar _ _ _).mp front
    exact ⟨⟨value, rfl, holds⟩, by rw [agrees]; exact bytes, by rw [agrees]; exact moved⟩
  · rintro ⟨⟨value, rfl, holds⟩, bytes, moved⟩
    rw [agrees] at bytes moved
    rw [EStateM.bind_of_ok ((grammar _ _ _).mpr ⟨holds, bytes, moved⟩)]
    rfl

theorem isEof {next : Bool → Reader α} {atEnd : α → List UInt8 → Prop}
    (ended : Grammar (next true) wire atEnd) (more : Grammar (next false) wire valid) :
    Grammar (isEof >>= next) wire fun value rest =>
      if wire value ++ rest = [] then atEnd value rest else valid value rest := by
  rintro ⟨position, bytes⟩ value after
  dsimp only
  cases bytes with
  | nil =>
      rw [EStateM.bind_of_ok (isEof_nil position), ended]
      constructor
      · rintro ⟨holds, bytes, moved⟩
        exact ⟨by rwa [if_pos bytes.symm], bytes, moved⟩
      · rintro ⟨holds, bytes, moved⟩
        rw [if_pos bytes.symm] at holds
        exact ⟨holds, bytes, moved⟩
  | cons byte rest =>
      rw [EStateM.bind_of_ok (isEof_cons byte position rest), more]
      constructor
      · rintro ⟨holds, bytes, moved⟩
        exact ⟨by rwa [if_neg (bytes ▸ List.cons_ne_nil _ _)], bytes, moved⟩
      · rintro ⟨holds, bytes, moved⟩
        rw [if_neg (bytes ▸ List.cons_ne_nil _ _)] at holds
        exact ⟨holds, bytes, moved⟩

end Grammar

/-! ## Loops -/

section Loops

/-- The items a loop reads, when `answer` says what its condition answers. -/
def LoopItems (wire : α → List UInt8) (valid : α → List UInt8 → Prop)
    (answer : Nat → Bool → List UInt8 → Prop) : Nat → List α → List UInt8 → Prop
  | _, [], _ => False
  | read, head :: tail, rest =>
      valid head (tail.flatMap wire ++ rest) ∧
        (answer (read + 1) true rest ∧ tail = [] ∨
          answer (read + 1) false (tail.flatMap wire ++ rest) ∧
            LoopItems wire valid answer (read + 1) tail rest)

variable {item : Reader α} {wire : α → List UInt8} {valid : α → List UInt8 → Prop}
  {stop : Nat → Reader Bool} {answer : Nat → Bool → List UInt8 → Prop}
  (items : Grammar item wire valid)
  (stops : ∀ read, Grammar (stop read) (fun _ => []) (answer read))
include items stops

theorem Grammar.readUntil (fuel read : Nat) :
    Grammar (KStream.readUntil item stop fuel read) (List.flatMap wire) fun values rest =>
      values.length ≤ fuel ∧ LoopItems wire valid answer read values rest := by
  induction fuel generalizing read with
  | zero =>
      refine (Grammar.throw _ _).congr fun values rest => ?_
      cases values <;> simp [LoopItems]
  | succ fuel induction =>
      intro stream values after
      constructor
      · intro reads
        obtain ⟨head, middle, front, reads⟩ := EStateM.bind_eq_ok reads
        obtain ⟨holds, bytes, moved⟩ := (items _ _ _).mp front
        obtain ⟨last, behind, stopped, reads⟩ := EStateM.bind_eq_ok reads
        obtain ⟨answers, same, still⟩ := (stops _ _ _ _).mp stopped
        rw [List.nil_append] at same
        rw [same] at bytes holds
        cases last with
        | true =>
            cases reads
            refine ⟨⟨Nat.succ_le_succ (Nat.zero_le _), holds, .inl ⟨answers, rfl⟩⟩, ?_, ?_⟩
            · simpa using bytes
            · simpa [moved] using still
        | false =>
            obtain ⟨tail, final, reads, built⟩ := EStateM.bind_eq_ok reads
            cases built
            obtain ⟨⟨enough, repeats⟩, more, further⟩ := (induction _ _ _ _).mp reads
            rw [more] at bytes holds answers
            refine ⟨⟨Nat.succ_le_succ enough, holds, .inr ⟨answers, repeats⟩⟩, ?_, ?_⟩
            · rw [bytes, List.flatMap_cons, List.append_assoc]
            · rw [further, still, moved, List.flatMap_cons, List.length_append, List.length_nil,
                Nat.add_zero, Nat.add_assoc]
      · rintro ⟨⟨enough, repeats⟩, bytes, moved⟩
        cases values with
        | nil => exact repeats.elim
        | cons head tail =>
            obtain ⟨holds, goesOn⟩ := repeats
            rw [List.flatMap_cons, List.append_assoc] at bytes
            rw [List.flatMap_cons, List.length_append, ← Nat.add_assoc] at moved
            let middle : KStream :=
              ⟨stream.position + (wire head).length, tail.flatMap wire ++ after.rest⟩
            have front : item stream = .ok head middle :=
              (items _ _ _).mpr ⟨holds, bytes, rfl⟩
            rw [KStream.readUntil, EStateM.bind_of_ok front]
            rcases goesOn with ⟨answers, rfl⟩ | ⟨answers, repeats⟩
            · have stopped : stop (read + 1) middle = .ok true after :=
                (stops _ _ _ _).mpr ⟨answers, rfl, moved⟩
              rw [EStateM.bind_of_ok stopped]
              rfl
            · have stopped : stop (read + 1) middle = .ok false middle :=
                (stops _ _ _ _).mpr ⟨answers, rfl, rfl⟩
              have rest : KStream.readUntil item stop fuel (read + 1) middle = .ok tail after :=
                (induction _ _ _ _).mpr ⟨⟨Nat.le_of_succ_le_succ enough, repeats⟩, rfl, moved⟩
              rw [EStateM.bind_of_ok stopped]
              exact EStateM.bind_of_ok rest

omit items stops in
theorem LoopItems.length_le (takes : ∀ value rest, valid value rest → wire value ≠ [])
    {read : Nat} {values : List α} {rest : List UInt8}
    (repeats : LoopItems wire valid answer read values rest) :
    values.length ≤ (values.flatMap wire).length := by
  induction values generalizing read with
  | nil => exact Nat.le_refl _
  | cons head tail induction =>
      have one := List.length_pos_iff.mpr (takes _ _ repeats.1)
      have others : tail.length ≤ (tail.flatMap wire).length := by
        rcases repeats.2 with ⟨-, rfl⟩ | ⟨-, repeats⟩
        · exact Nat.le_refl _
        · exact induction repeats
      rw [List.flatMap_cons, List.length_append, List.length_cons]
      omega

/-- A loop over the rest of the stream, whose items take at least one byte each. -/
theorem Grammar.overRest (takes : ∀ value rest, valid value rest → wire value ≠ []) :
    Grammar (fun stream => KStream.readUntil item stop (stream.rest.length + 1) 0 stream)
      (List.flatMap wire) (LoopItems wire valid answer 0) := by
  intro stream values after
  have loop := Grammar.readUntil items stops (stream.rest.length + 1) 0 stream values after
  refine loop.trans ⟨fun ⟨⟨_, repeats⟩, rest⟩ => ⟨repeats, rest⟩, ?_⟩
  rintro ⟨repeats, bytes, moved⟩
  refine ⟨⟨?_, repeats⟩, bytes, moved⟩
  have few := LoopItems.length_le takes repeats
  rw [bytes, List.length_append]
  omega

end Loops

/-! ### The conditions of the loops -/

theorem Grammar.eof :
    Grammar KStream.isEof (fun _ => []) fun last rest => last = rest.isEmpty := by
  rintro ⟨position, rest⟩ last ⟨stop, behind⟩
  constructor
  · intro reads
    cases reads
    exact ⟨rfl, rfl, rfl⟩
  · rintro ⟨rfl, bytes, moved⟩
    dsimp only [List.nil_append, List.length_nil, Nat.add_zero] at bytes moved
    rw [bytes, moved]
    rfl

theorem Grammar.countOrEof (count read : Nat) :
    Grammar (do return read == count || (← KStream.isEof)) (fun _ => []) fun last rest =>
      last = (read == count || rest.isEmpty) := by
  refine (Grammar.eof.wrap (read == count || ·) fun _ => rfl).congr fun last rest => ?_
  exact ⟨fun equal => ⟨_, equal, rfl⟩, fun ⟨_, equal, ended⟩ => ended ▸ equal⟩

/-- The items of a loop that ends with the stream or after `count` items. -/
theorem loopItems_countOrEof {wire : α → List UInt8} (takes : ∀ value, wire value ≠ [])
    (count read : Nat) (values : List α) (rest : List UInt8) :
    LoopItems wire (fun _ _ => True)
        (fun read last rest => last = (read == count || rest.isEmpty)) read values rest ↔
      values ≠ [] ∧ (read + values.length = count ∨ rest = []) ∧
        (read + values.length ≤ count ∨ count ≤ read) := by
  induction values generalizing read with
  | nil => simp [LoopItems]
  | cons head tail induction =>
      rw [LoopItems, induction (read + 1)]
      cases tail with
      | nil =>
          have bound : read + 1 = count ∨ rest = [] → read + 1 ≤ count ∨ count ≤ read := by
            omega
          simpa using bound
      | cons next tail =>
          -- the stream has not ended in front of the next item
          by_cases ended : rest = [] <;> simp [takes next, ended] <;> omega

theorem loopItems_eof {wire : α → List UInt8} {valid : α → List UInt8 → Prop}
    (always : ∀ value rest, valid value rest) (takes : ∀ value, wire value ≠ []) (read : Nat)
    (values : List α) (rest : List UInt8) :
    LoopItems wire valid (fun _ last rest => last = rest.isEmpty) read values rest ↔
      values ≠ [] ∧ rest = [] := by
  induction values generalizing read with
  | nil => simp [LoopItems]
  | cons head tail induction =>
      rw [LoopItems, induction (read + 1)]
      cases tail <;> simp [takes, always]

theorem loopItems_single {wire : α → List UInt8} {valid : α → List UInt8 → Prop}
    {ends : List UInt8 → Prop} (read : Nat) (values : List α) (rest : List UInt8) :
    LoopItems wire valid (fun _ last rest => last = true ∧ ends rest) read values rest ↔
      ∃ value, values = [value] ∧ valid value rest ∧ ends rest := by
  cases values with
  | nil => simp [LoopItems]
  | cons head tail =>
      rw [LoopItems]
      constructor
      · rintro ⟨holds, ⟨⟨-, ended⟩, rfl⟩ | ⟨⟨goesOn, -⟩, -⟩⟩
        · exact ⟨head, rfl, holds, ended⟩
        · cases goesOn
      · rintro ⟨value, single, holds, ended⟩
        cases single
        exact ⟨holds, .inl ⟨⟨rfl, ended⟩, rfl⟩⟩

end Nanocap
