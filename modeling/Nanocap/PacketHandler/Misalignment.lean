import Mathlib.Data.List.GetD
import Mathlib.Data.List.Pairwise
import Nanocap.PacketHandler.Loss

/-! # Losses that move entries

A lost delivery does no harm where what is buffered stays aligned with the entries of
the response. Which bytes are taken as an entry depends on the lengths of the
deliveries and on which of them are queued. -/

namespace Nanocap

/-! ## Increasing positions -/

private theorem eq_range'_of_increasing {first : Nat} {rest : List Nat}
    (increasing : (first :: rest).Pairwise (· < ·))
    (fits : ∀ position ∈ rest, position < first + (rest.length + 1)) :
    first :: rest = List.range' first (rest.length + 1) := by
  induction rest generalizing first with
  | nil => rfl
  | cons second rest induction =>
      obtain ⟨above, increasingRest⟩ := List.pairwise_cons.mp increasing
      have next := above second List.mem_cons_self
      have consecutive := induction increasingRest fun position member => by
        have bound := fits position (List.mem_cons_of_mem _ member)
        rw [List.length_cons] at bound
        omega
      have last : second + rest.length ∈ second :: rest := by
        rw [consecutive, List.mem_range'_1]
        omega
      have bound := fits _ last
      rw [List.length_cons] at bound
      obtain rfl : second = first + 1 := by omega
      exact congrArg (first :: ·) consecutive

private theorem exists_ends {α : Type} {elements : List α} (length : elements.length = 64) :
    ∃ first middle last, elements = first :: (middle ++ [last]) ∧ middle.length = 62 := by
  obtain ⟨first, rest, rfl⟩ := List.exists_cons_of_length_eq_add_one length
  obtain rfl | ⟨middle, last, rfl⟩ := List.eq_nil_or_concat' rest
  · cases length
  · exact ⟨first, middle, last, rfl, by simpa using length⟩

section Positions

variable {response : List UInt8} {cut : List (Stretch Nat)}

private theorem flatten_queuedPositions_sublist :
    (queuedPositions response cut).flatten.Sublist (cut.flatMap Stretch.elements) := by
  rw [queuedPositions]
  induction cut with
  | nil => exact List.Sublist.refl _
  | cons stretch cut induction =>
      rw [List.flatMap_cons]
      cases queued : isQueued (stretch.map (response.getD · 0)).text with
      | true =>
          rw [List.filter_cons, if_pos queued, List.map_cons, List.flatten_cons]
          exact (List.sublist_append_right _ _).append induction
      | false =>
          rw [List.filter_cons, if_neg (by rw [queued]; exact Bool.false_ne_true)]
          exact induction.trans (List.sublist_append_right _ _)

theorem exists_owner {positions : List Nat} (member : positions ∈ entryPositions response cut)
    {position : Nat} (inside : position ∈ positions) :
    ∃ stretch ∈ cut, isQueued (stretch.map (response.getD · 0)).text = true ∧
      position ∈ stretch.data := by
  have taken := @Chunks.flatten_run_sublist _ 4096 64 [] (queuedPositions response cut)
  have queued := taken.subset (List.mem_append_left _
    (List.mem_flatten.mpr ⟨positions, member, inside⟩))
  obtain ⟨data, dataMember, owned⟩ := List.mem_flatten.mp queued
  obtain ⟨stretch, stretchMember, rfl⟩ := List.mem_map.mp dataMember
  obtain ⟨inCut, arrives⟩ := List.mem_filter.mp stretchMember
  exact ⟨stretch, inCut, arrives, owned⟩

variable (whole : cut.flatMap Stretch.elements = List.range response.length)
include whole

theorem flatten_entryPositions_sublist :
    (entryPositions response cut).flatten.Sublist (List.range response.length) := by
  have taken := @Chunks.flatten_run_sublist _ 4096 64 [] (queuedPositions response cut)
  exact ((List.sublist_append_left _ _).trans taken).trans
    (whole ▸ flatten_queuedPositions_sublist)

theorem entryPositions_lt {positions : List Nat}
    (member : positions ∈ entryPositions response cut) {position : Nat}
    (inside : position ∈ positions) : position < response.length :=
  List.mem_range.mp ((flatten_entryPositions_sublist whole).subset
    (List.mem_flatten.mpr ⟨positions, member, inside⟩))

end Positions

namespace FrontierEntry

theorem length_response (entries : List Live) :
    (response entries).length = 64 * entries.length + 64 := by
  have wires : (entries.flatMap (·.wire)).length = 64 * entries.length := by
    induction entries with
    | nil => rfl
    | cons entry entries induction =>
        rw [List.flatMap_cons, List.length_append, induction, Live.wire, length_wire,
          List.length_cons]
        omega
  rw [response, List.length_append, wires]
  rfl

theorem map_range'_record {response : List UInt8} {index : Nat}
    (inside : 64 * index + 64 ≤ response.length) :
    (List.range' (64 * index) 64).map (response.getD · 0) = record response index := by
  apply List.ext_getElem
  · rw [record, List.length_map, List.length_range', List.length_take, List.length_drop]
    omega
  · intro place less _
    rw [List.length_map, List.length_range'] at less
    simp only [record, List.getElem_map, List.getElem_range', List.getElem_take,
      List.getElem_drop, Nat.one_mul]
    exact List.getD_eq_getElem _ _ (by omega)

theorem isLive_cons {byte : UInt8} (some : byte ≠ 0) (rest : List UInt8) :
    isLive (byte :: rest) = true := by
  simp [isLive, allZero, some]

private theorem exists_entries (byte : Nat → UInt8) {count : Nat}
    (some : ∀ position < 64 * count, byte position ≠ 0) :
    ∃ entries : List Live, entries.length = count ∧
      entries.flatMap (·.wire) = (List.range (64 * count)).map byte := by
  induction count with
  | zero => exact ⟨[], rfl, rfl⟩
  | succ count induction =>
      obtain ⟨entries, length, wires⟩ := induction fun position less => some position (by omega)
      let chunk := (List.range' (64 * count) 64).map byte
      obtain ⟨entry, wire⟩ := @exists_of_length chunk (by simp [chunk])
      have alive : isLive chunk = true := isLive_cons (some (64 * count) (by omega)) _
      rw [wire, isLive_wire] at alive
      refine ⟨entries ++ [⟨entry, by simpa using alive⟩], by simp [length], ?_⟩
      have split : List.range (64 * (count + 1)) =
          List.range (64 * count) ++ List.range' (64 * count) 64 := by
        have parts := @List.range'_append_1 0 (64 * count) 64
        rw [Nat.zero_add] at parts
        rw [List.range_eq_range', List.range_eq_range', Nat.mul_succ, parts]
      rw [List.flatMap_append, wires, split, List.map_append, List.flatMap_singleton]
      exact congrArg _ wire.symm

theorem getD_terminator {front : List UInt8} {position : Nat}
    (outside : front.length ≤ position) : (front ++ terminator).getD position 0 = 0 := by
  rw [List.getD_append_right _ _ _ _ outside, terminator, List.getD_eq_getElem?_getD,
    List.getElem?_replicate]
  split <;> rfl

private theorem exists_response (byte : Nat → UInt8) {count : Nat}
    (some : ∀ position < 64 * count, byte position ≠ 0)
    (ends : ∀ position, 64 * count ≤ position → byte position = 0) :
    ∃ entries : List Live, entries.length = count ∧
      ∀ position, (response entries).getD position 0 = byte position := by
  obtain ⟨entries, length, wires⟩ := exists_entries byte some
  refine ⟨entries, length, fun position => ?_⟩
  rw [response, wires]
  by_cases less : position < 64 * count
  · rw [List.getD_append _ _ _ _ (by simpa using less),
      List.getD_eq_getElem _ _ (by simpa using less)]
    simp
  · have outside := Nat.le_of_not_lt less
    rw [ends position outside]
    exact getD_terminator (by simpa using outside)

end FrontierEntry

/-! ## Responses of one shape -/

/-- The same deliveries are queued of another response. -/
def SameLosses (cut : List (Stretch Nat)) (response other : List UInt8) : Prop :=
  ∀ stretch ∈ cut, isQueued (stretch.map (other.getD · 0)).text =
    isQueued (stretch.map (response.getD · 0)).text

theorem SameLosses.entryPositions {cut : List (Stretch Nat)} {response other : List UInt8}
    (same : SameLosses cut response other) :
    Nanocap.entryPositions other cut = Nanocap.entryPositions response cut := by
  rw [Nanocap.entryPositions, Nanocap.entryPositions, queuedPositions, queuedPositions,
    List.filter_congr same]

private theorem record_of_aligned {response : List UInt8} {cut : List (Stretch Nat)}
    (whole : cut.flatMap Stretch.elements = List.range response.length)
    (aligned : ∀ positions ∈ entryPositions response cut,
      ∃ index, positions = List.range' (64 * index) 64) :
    ∀ chunk ∈ recordedChunks ((entryPositions response cut).map (List.map (response.getD · 0))),
      ∃ index, chunk = FrontierEntry.record response index := by
  intro chunk recorded
  obtain ⟨positions, member, rfl⟩ := List.mem_map.mp (List.takeWhile_subset _ recorded)
  obtain ⟨index, rfl⟩ := aligned positions member
  refine ⟨index, FrontierEntry.map_range'_record ?_⟩
  have last := @entryPositions_lt response cut whole _ member (64 * index + 63)
    (List.mem_range'_1.mpr (by omega))
  omega

section Marking

/-- The bytes of a response that tell two of its positions from all others. -/
def markedByte (count first last : Nat) (response : List UInt8) (position : Nat) : UInt8 :=
  if 64 * count ≤ position then 0
  else if position = first ∨ position = last then 2
  else if response.getD position 0 < 3 then 1
  else response.getD position 0

variable {count first last position : Nat} {response : List UInt8}

theorem markedByte_eq_two (inside : position < 64 * count) :
    markedByte count first last response position = 2 ↔ position = first ∨ position = last := by
  unfold markedByte
  rw [if_neg (Nat.not_le_of_lt inside)]
  split
  · simp [*]
  · rename_i other
    refine ⟨fun two => ?_, fun own => absurd own other⟩
    split at two
    · cases two
    · rename_i large
      rw [two] at large
      exact absurd (by decide) large

theorem markedByte_ne (inside : position < 64 * count) :
    markedByte count first last response position ≠ 0 := by
  unfold markedByte
  rw [if_neg (Nat.not_le_of_lt inside)]
  split
  · decide
  · split
    · decide
    · rename_i large
      rintro zero
      rw [zero] at large
      exact large (by decide)

theorem markedByte_ends (outside : 64 * count ≤ position) :
    markedByte count first last response position = 0 :=
  if_pos outside

private theorem eq_of_three_le_markedByte
    (large : 3 ≤ markedByte count first last response position) :
    response.getD position 0 = markedByte count first last response position := by
  unfold markedByte at large ⊢
  split at large
  · exact absurd large (by decide)
  · split at large
    · exact absurd large (by decide)
    · split at large
      · exact absurd large (by decide)
      · rename_i outside other small
        rw [if_neg outside, if_neg other, if_neg small]

private theorem markedByte_of_three_le (inside : position < 64 * count)
    (other : position ≠ first ∧ position ≠ last) (large : 3 ≤ response.getD position 0) :
    markedByte count first last response position = response.getD position 0 := by
  unfold markedByte
  rw [if_neg (Nat.not_le_of_lt inside), if_neg (not_or.mpr other), if_neg]
  exact fun small => absurd large (UInt8.not_le.mpr small)

/-- A record that begins and ends with marks begins and ends at the marked positions. -/
private theorem ends_of_record {others : List FrontierEntry.Live} {middle : List Nat} {index : Nat}
    (bytes : ((FrontierEntry.response others).getD · 0) = markedByte count first last response)
    (middleLength : middle.length = 62) (firstLast : first < last) (inEntries : first < 64 * count)
    (record : (first :: (middle ++ [last])).map (markedByte count first last response) =
      FrontierEntry.record (FrontierEntry.response others) index) :
    first = 64 * index ∧ last = 64 * index + 63 := by
  have fits : 64 * index + 64 ≤ (FrontierEntry.response others).length := by
    have length := congrArg List.length record
    rw [FrontierEntry.record, List.length_take, List.length_drop, List.length_map,
      List.length_cons, List.length_append, middleLength] at length
    simp only [List.length_singleton] at length
    omega
  rw [← FrontierEntry.map_range'_record fits, bytes] at record
  have split : List.range' (64 * index) 64 =
      64 * index :: (List.range' (64 * index + 1) 62 ++ [64 * index + 63]) := by
    exact congrArg (64 * index :: ·) (@List.range'_append_1 (64 * index + 1) 62 1).symm
  rw [split, List.map_cons, List.map_cons, List.map_append, List.map_append] at record
  obtain ⟨firstByte, restBytes⟩ := List.cons.inj record
  have lastByte := (List.cons.inj (List.append_inj' restBytes rfl).2).1
  have firstMark : markedByte count first last response first = 2 :=
    (markedByte_eq_two inEntries).mpr (.inl rfl)
  have inside : 64 * index < 64 * count := by
    by_contra outside
    rw [firstByte] at firstMark
    exact absurd (firstMark.symm.trans (markedByte_ends (Nat.le_of_not_lt outside))) (by decide)
  have lastInside : 64 * index + 63 < 64 * count := by omega
  have lastEntries : last < 64 * count := by
    by_contra outside
    exact markedByte_ne lastInside
      (lastByte.symm.trans (markedByte_ends (Nat.le_of_not_lt outside)))
  have lastMark : markedByte count first last response last = 2 :=
    (markedByte_eq_two lastEntries).mpr (.inr rfl)
  have atFirst := (markedByte_eq_two inside).mp (firstByte.symm.trans firstMark)
  have atLast := (markedByte_eq_two lastInside).mp (lastByte.symm.trans lastMark)
  omega

end Marking

section Shape

variable {entries : List FrontierEntry.Live} {cut : List (Stretch Nat)}
  (whole : cut.flatMap Stretch.elements =
    List.range (FrontierEntry.response entries).length)
include whole

private theorem owner_unique {stretch owner : Stretch Nat} (member : stretch ∈ cut)
    (ownerMember : owner ∈ cut) {position : Nat} (inside : position ∈ stretch.data)
    (owned : position ∈ owner.data) : stretch = owner := by
  have once : (cut.flatMap Stretch.elements).Nodup := whole ▸ List.nodup_range
  have apart := (List.nodup_flatMap.mp once).2
  have symmetric : Std.Symm (Function.onFun List.Disjoint (@Stretch.elements Nat)) :=
    ⟨fun _ _ disjoint _ left right => disjoint right left⟩
  by_contra different
  have disjoint := apart.forall member ownerMember different
  exact disjoint (List.mem_append_right _ inside) (List.mem_append_right _ owned)

/-- A response that differs from the given one at two queued positions, and elsewhere
only in bytes that no mark is made of, has the same losses. -/
private theorem sameLosses_of_marked {first last : Nat} {other : List UInt8}
    (bytes : ∀ position, other.getD position 0 =
      markedByte entries.length first last (FrontierEntry.response entries) position)
    (queued : ∀ position, position = first ∨ position = last → ∃ stretch ∈ cut,
      isQueued (stretch.map ((FrontierEntry.response entries).getD · 0)).text = true ∧
        position ∈ stretch.data) :
    SameLosses cut (FrontierEntry.response entries) other := by
  intro stretch member
  apply Stretch.isQueued_eq
  · intro dropped position inside large
    rw [bytes]
    have entry : position < 64 * entries.length := by
      by_contra outside
      have wires := FrontierEntry.length_response entries
      rw [FrontierEntry.response, List.length_append] at wires
      rw [FrontierEntry.response, FrontierEntry.getD_terminator] at large
      · exact absurd large (by decide)
      · exact Nat.le_trans (Nat.le_of_eq (Nat.add_right_cancel wires)) (Nat.le_of_not_lt outside)
    have unmarked : ¬(position = first ∨ position = last) := by
      intro marked
      obtain ⟨owner, ownerMember, arrives, owned⟩ := queued position marked
      rw [owner_unique whole member ownerMember inside owned, arrives] at dropped
      cases dropped
    exact markedByte_of_three_le entry (not_or.mp unmarked) large
  · intro _ position _ large
    rw [bytes] at large ⊢
    exact eq_of_three_le_markedByte large

omit whole in
private theorem range'_of_close {first last : Nat} {middle : List Nat}
    (middleLength : middle.length = 62)
    (increasing : (first :: (middle ++ [last])).Pairwise (· < ·)) (close : last < first + 64) :
    first :: (middle ++ [last]) = List.range' first 64 := by
  have upToLast : ∀ position ∈ middle, position < last := fun position inside =>
    (List.pairwise_append.mp (List.pairwise_cons.mp increasing).2).2.2 position inside last
      List.mem_cons_self
  have equal := eq_range'_of_increasing increasing fun position inside => by
    rw [List.length_append, middleLength]
    rcases List.mem_append.mp inside with before | final
    · exact Nat.lt_trans (upToLast position before) close
    · rwa [List.mem_singleton.mp final]
  rwa [List.length_append, middleLength] at equal

private theorem entryPositions_pairwise :
    (entryPositions (FrontierEntry.response entries) cut).flatten.Pairwise (· < ·) :=
  List.pairwise_lt_range.sublist (flatten_entryPositions_sublist whole)

section Positions

variable {first last : Nat} {middle : List Nat} (middleLength : middle.length = 62)
  (member : first :: (middle ++ [last]) ∈
    entryPositions (FrontierEntry.response entries) cut)
include member

include middleLength in
private theorem first_lt_of_misaligned
    (misaligned : ¬∃ index, first :: (middle ++ [last]) = List.range' (64 * index) 64) :
    first < 64 * entries.length := by
  have size := FrontierEntry.length_response entries
  have increasing := (List.pairwise_flatten.mp (entryPositions_pairwise whole)).1 _ member
  have lastBound : last < (FrontierEntry.response entries).length :=
    entryPositions_lt whole member (by simp)
  by_contra outside
  refine misaligned ⟨entries.length, ?_⟩
  have consecutive := range'_of_close middleLength increasing (by omega)
  have final : first + 63 ∈ first :: (middle ++ [last]) := by
    rw [consecutive, List.mem_range'_1]
    omega
  have bound := entryPositions_lt whole member final
  obtain rfl : first = 64 * entries.length := by omega
  exact consecutive

private theorem marked_recorded (inEntries : first < 64 * entries.length) :
    let byte := markedByte entries.length first last (FrontierEntry.response entries)
    (first :: (middle ++ [last])).map byte ∈ recordedChunks
      ((entryPositions (FrontierEntry.response entries) cut).map (List.map byte)) := by
  intro byte
  have ordered := (List.pairwise_flatten.mp (entryPositions_pairwise whole)).2
  obtain ⟨earlier, later, split⟩ := List.append_of_mem member
  rw [split] at ordered ⊢
  have live : ∀ chunk ∈ earlier.map (List.map byte), FrontierEntry.isLive chunk = true := by
    intro chunk inside
    obtain ⟨others, othersMember, rfl⟩ := List.mem_map.mp inside
    have othersTaken : others ∈ entryPositions (FrontierEntry.response entries) cut :=
      split ▸ List.mem_append_left _ othersMember
    obtain ⟨position, rest, rfl⟩ :=
      List.exists_cons_of_length_eq_add_one (Chunks.length_of_mem_run othersTaken)
    have below := (List.pairwise_append.mp ordered).2.2 _ othersMember _ List.mem_cons_self
      position List.mem_cons_self first List.mem_cons_self
    exact FrontierEntry.isLive_cons (markedByte_ne (Nat.lt_trans below inEntries)) _
  have alive : FrontierEntry.isLive ((first :: (middle ++ [last])).map byte) = true :=
    FrontierEntry.isLive_cons (markedByte_ne inEntries) _
  rw [List.map_append, recordedChunks_append_of_live live, List.map_cons, recordedChunks,
    List.takeWhile_cons_of_pos alive]
  exact List.mem_append_right _ List.mem_cons_self

end Positions

/-- Where positions out of line are taken as an entry, some response of the shape has a
row that is none of its records. -/
private theorem exists_invented {positions : List Nat}
    (member : positions ∈ entryPositions (FrontierEntry.response entries) cut)
    (misaligned : ¬∃ index, positions = List.range' (64 * index) 64) :
    ∃ others : List FrontierEntry.Live, others.length = entries.length ∧
      SameLosses cut (FrontierEntry.response entries) (FrontierEntry.response others) ∧
      ∃ chunk ∈ recordedChunks ((entryPositions (FrontierEntry.response entries) cut).map
          (List.map ((FrontierEntry.response others).getD · 0))),
        ¬∃ index, chunk = FrontierEntry.record (FrontierEntry.response others) index := by
  obtain ⟨first, middle, last, rfl, middleLength⟩ := exists_ends (Chunks.length_of_mem_run member)
  have increasing := (List.pairwise_flatten.mp (entryPositions_pairwise whole)).1 _ member
  have firstLast : first < last := (List.pairwise_cons.mp increasing).1 last (by simp)
  have inEntries := first_lt_of_misaligned whole middleLength member misaligned
  let byte := markedByte entries.length first last (FrontierEntry.response entries)
  obtain ⟨others, othersLength, bytes⟩ := FrontierEntry.exists_response byte
    (fun position inside => markedByte_ne inside)
    (fun position outside => markedByte_ends outside)
  have others_eq : ((FrontierEntry.response others).getD · 0) = byte := funext bytes
  refine ⟨others, othersLength, sameLosses_of_marked whole bytes ?_,
    (first :: (middle ++ [last])).map byte, ?_, ?_⟩
  · rintro position (rfl | rfl)
    · exact exists_owner member (by simp)
    · exact exists_owner member (by simp)
  · rw [others_eq]
    exact marked_recorded whole member inEntries
  · rintro ⟨index, record⟩
    have ends := ends_of_record others_eq middleLength firstLast inEntries record
    obtain rfl : first = 64 * index := ends.1
    exact misaligned ⟨index, range'_of_close middleLength increasing (by omega)⟩

end Shape

/-! ## Harmless losses -/

section Harmless

variable {env : Environment} (neverFails : env.NeverFails) {before : PacketHandler}
  (ready : before.db.Ready) {key : UInt32} {packetId messageId : Nat}
  (known : before.connMgr key = some (.awaitingFrontiers packetId messageId))
  (drawn : messageId < before.db.nextId) {entries : List FrontierEntry.Live}
  {cut : List (Stretch Nat)}
  (whole : cut.flatMap Stretch.elements = List.range (FrontierEntry.response entries).length)
include neverFails ready known drawn whole

/-- All responses of a shape are recorded without invented entries exactly when the
positions that are taken as entries are aligned. -/
private theorem lossHarmless_forall_iff :
    (∀ others : List FrontierEntry.Live, others.length = entries.length →
      SameLosses cut (FrontierEntry.response entries) (FrontierEntry.response others) →
      LossHarmless env before key messageId (FrontierEntry.response others) cut) ↔
    (env.config.bootstrapDetails = true →
      ∀ positions ∈ entryPositions (FrontierEntry.response entries) cut,
        ∃ index, positions = List.range' (64 * index) 64) := by
  constructor
  · intro harmless details positions member
    by_contra misaligned
    obtain ⟨others, length, same, chunk, recorded, invented⟩ :=
      exists_invented whole member misaligned
    have records := (lossHarmless_iff neverFails ready known drawn _ cut).mp
      (harmless others length same) details chunk
    rw [same.entryPositions] at records
    exact invented (records recorded)
  · intro aligned others length same
    refine (lossHarmless_iff neverFails ready known drawn _ cut).mpr fun details => ?_
    have lengths : (FrontierEntry.response others).length =
        (FrontierEntry.response entries).length := by
      rw [FrontierEntry.length_response, FrontierEntry.length_response, length]
    apply record_of_aligned
    · rw [lengths]
      exact whole
    · rw [same.entryPositions]
      exact aligned details

end Harmless

/-- What is recorded of a given response is not invented exactly when the chunks of 64
bytes that leave the buffer, up to the first with an account of zeros, are records of
it; and nothing is invented of any response of a shape exactly when the chunks are
aligned with the records. -/
theorem loss_harmless_iff {env : Environment} (neverFails : env.NeverFails)
    {before : PacketHandler} (ready : before.db.Ready) {key : UInt32} {packetId messageId : Nat}
    (known : before.connMgr key =
      some { TcpFlowData.reset .frontierReq with packetId := packetId, messageId := messageId })
    (drawn : messageId < before.db.nextId) (entries : List FrontierEntry.Live)
    (cut : List (Stretch Nat))
    (whole : cut.flatMap Stretch.elements =
      List.range (FrontierEntry.response entries).length) :
    (LossHarmless env before key messageId (FrontierEntry.response entries) cut ↔
      (env.config.bootstrapDetails = true →
        ∀ chunk ∈ recordedChunks ((entryPositions (FrontierEntry.response entries) cut).map
            (List.map ((FrontierEntry.response entries).getD · 0))),
          ∃ index, chunk = FrontierEntry.record (FrontierEntry.response entries) index)) ∧
    ((∀ others : List FrontierEntry.Live, others.length = entries.length →
        SameLosses cut (FrontierEntry.response entries) (FrontierEntry.response others) →
        LossHarmless env before key messageId (FrontierEntry.response others) cut) ↔
      (env.config.bootstrapDetails = true →
        ∀ positions ∈ entryPositions (FrontierEntry.response entries) cut,
          ∃ index, positions = List.range' (64 * index) 64)) :=
  ⟨lossHarmless_iff neverFails ready known drawn _ cut,
    lossHarmless_forall_iff neverFails ready known drawn whole⟩

/-! ## Two losses -/

def PacketHandler.awaiting : PacketHandler :=
  (PacketHandler.opened .empty).setFlow 1 (.awaitingFrontiers 0 0)

def FrontierEntry.Live.sample : FrontierEntry.Live :=
  ⟨⟨⟨List.replicate 32 1, by decide⟩, ⟨List.replicate 32 2, by decide⟩⟩, by decide⟩

/-- The second of two entries is lost as a whole. -/
theorem loss_harmless_aligned :
    LossHarmless .sample .awaiting 1 0
      (FrontierEntry.response [FrontierEntry.Live.sample, FrontierEntry.Live.sample])
      [⟨[], List.range' 0 64⟩, ⟨List.range' 64 32, List.range' 96 32⟩,
        ⟨[], List.range' 128 64⟩] := by
  have taken : entryPositions
      (FrontierEntry.response [FrontierEntry.Live.sample, FrontierEntry.Live.sample])
      [⟨[], List.range' 0 64⟩, ⟨List.range' 64 32, List.range' 96 32⟩,
        ⟨[], List.range' 128 64⟩] = [List.range' (64 * 0) 64, List.range' (64 * 2) 64] := by
    decide +kernel
  refine (loss_harmless_iff Environment.sample_neverFails (Db.opened_ready _)
    (PacketHandler.setFlow_self ..) (by decide) [.sample, .sample] _ (by decide +kernel)).2.mpr
    (fun _ positions member => ?_) [.sample, .sample] rfl fun _ _ => rfl
  rw [taken] at member
  rcases List.mem_cons.mp member with rfl | other
  · exact ⟨0, rfl⟩
  · exact ⟨2, List.mem_singleton.mp other⟩

/-- The second half of an entry is lost, so that its account is recorded with the zeros
of the terminator. -/
theorem loss_not_harmless :
    ¬∀ (env : Environment) (before : PacketHandler) (key : UInt32) (packetId messageId : Nat)
      (entries : List FrontierEntry.Live) (cut : List (Stretch Nat)), env.NeverFails →
      before.db.Ready →
      before.connMgr key = some
        { TcpFlowData.reset .frontierReq with packetId := packetId, messageId := messageId } →
      messageId < before.db.nextId →
      cut.flatMap Stretch.elements = List.range (FrontierEntry.response entries).length →
      LossHarmless env before key messageId (FrontierEntry.response entries) cut := by
  intro harmless
  have records := (lossHarmless_iff Environment.sample_neverFails (Db.opened_ready _)
    (PacketHandler.setFlow_self ..) (by decide) _ _).mp
    (harmless .sample .awaiting 1 0 0 [.sample]
      [⟨[], List.range' 0 32⟩, ⟨List.range' 32 16, List.range' 48 16⟩, ⟨[], List.range' 64 64⟩]
      Environment.sample_neverFails (Db.opened_ready _) (PacketHandler.setFlow_self ..) (by decide)
      (by decide +kernel)) rfl
    (List.replicate 32 1 ++ List.replicate 32 0) (by decide +kernel)
  obtain ⟨index, equal⟩ := records
  match index with
  | 0 => exact absurd equal (by decide +kernel)
  | 1 => exact absurd equal (by decide +kernel)
  | index + 2 =>
      have short : (FrontierEntry.response [FrontierEntry.Live.sample]).length ≤
          64 * (index + 2) := by
        rw [FrontierEntry.length_response]
        simp
        omega
      rw [FrontierEntry.record, List.drop_eq_nil_of_le short] at equal
      cases equal

end Nanocap
