import Nanocap.Foundation.PlainText

/-! # Query strings

`Percent` and `QueryString` of `webserver/utility.hpp`. -/

namespace Nanocap

/-- `std::string::substr` -/
def substr (text : List UInt8) (pos count : Nat) : List UInt8 := (text.drop pos).take count

theorem takeWhile_ne_append {chr : UInt8} {text : List UInt8} (absent : chr ∉ text)
    (rest : List UInt8) : (text ++ chr :: rest).takeWhile (· ≠ chr) = text := by
  rw [List.takeWhile_append_of_pos, List.takeWhile_cons_of_neg (by simp), List.append_nil]
  exact fun other member => decide_eq_true fun same => absent (same ▸ member)

theorem notMem_append_cons {chr separator : UInt8} {front rest : List UInt8}
    (inFront : chr ∉ front) (different : chr ≠ separator) (inRest : chr ∉ rest) :
    chr ∉ front ++ separator :: rest := by
  intro member
  rcases List.mem_append.mp member with inside | inside
  · exact inFront inside
  · exact (List.mem_cons.mp inside).elim different inRest

/-! ## Percent encoding -/

namespace Percent

def hexChar (value : UInt8) : UInt8 := (latin1 "0123456789ABCDEF").getD value.toNat 0

def escape (stays : UInt8 → Bool) (value : List UInt8) : List UInt8 :=
  value.flatMap fun chr =>
    if stays chr then [chr] else ['%'.toUInt8, hexChar (chr >>> 4), hexChar (chr &&& 15)]

def unreserved (chr : UInt8) : Bool :=
  ('0'.toUInt8 ≤ chr ∧ chr ≤ '9'.toUInt8) ∨ ('A'.toUInt8 ≤ chr ∧ chr ≤ 'Z'.toUInt8) ∨
    ('a'.toUInt8 ≤ chr ∧ chr ≤ 'z'.toUInt8) ∨ chr ∈ latin1 "-._~"

def encode (value : List UInt8) : List UInt8 := escape unreserved value

/-- `isspace` -/
def isSpace (chr : UInt8) : Bool := chr = ' '.toUInt8 ∨ (9 ≤ chr ∧ chr ≤ 13)

def digitValue (chr : UInt8) : Option Nat :=
  if '0'.toUInt8 ≤ chr ∧ chr ≤ '9'.toUInt8 then some (chr.toNat - '0'.toNat)
  else if 'A'.toUInt8 ≤ chr ∧ chr ≤ 'F'.toUInt8 then some (chr.toNat - 'A'.toNat + 10)
  else if 'a'.toUInt8 ≤ chr ∧ chr ≤ 'f'.toUInt8 then some (chr.toNat - 'a'.toNat + 10)
  else none

def leadingDigits (value : Nat) : List UInt8 → Nat
  | [] => value
  | chr :: rest =>
      match digitValue chr with
      | some digit => leadingDigits (16 * value + digit) rest
      | none => value

/-- A prefix `0x` counts only in front of a digit. -/
def withoutPrefix : List UInt8 → List UInt8
  | zero :: x :: digit :: rest =>
      if zero = '0'.toUInt8 ∧ (x = 'x'.toUInt8 ∨ x = 'X'.toUInt8) ∧ (digitValue digit).isSome then
        digit :: rest
      else zero :: x :: digit :: rest
  | text => text

/-- `strtol` with base 16, of texts too short to leave the range of `long`. -/
def strtol16 (text : List UInt8) : Int :=
  match text.dropWhile isSpace with
  | [] => 0
  | sign :: rest =>
      if sign = '-'.toUInt8 then -(leadingDigits 0 (withoutPrefix rest) : Int)
      else if sign = '+'.toUInt8 then leadingDigits 0 (withoutPrefix rest)
      else leadingDigits 0 (withoutPrefix (sign :: rest))

/-- What a byte outside an escape stands for. -/
def decodeChar (chr : UInt8) : UInt8 := if chr = '+'.toUInt8 then ' '.toUInt8 else chr

def decode : List UInt8 → List UInt8
  | [] => []
  | chr :: first :: second :: rest =>
      if chr = '%'.toUInt8 then UInt8.ofInt (strtol16 [first, second]) :: decode rest
      else decodeChar chr :: decode (first :: second :: rest)
  | chr :: rest => decodeChar chr :: decode rest

private theorem decode_cons {chr : UInt8} (different : chr ≠ '%'.toUInt8) (rest : List UInt8) :
    decode (chr :: rest) = decodeChar chr :: decode rest := by
  match rest with
  | [] | [_] => rfl
  | _ :: _ :: _ => rw [decode, if_neg different]

private theorem strtol16_hexChars (chr : UInt8) :
    UInt8.ofInt (strtol16 [hexChar (chr >>> 4), hexChar (chr &&& 15)]) = chr := by
  have all : ∀ value : Fin 256,
      UInt8.ofInt (strtol16 [hexChar (UInt8.ofFin value >>> 4), hexChar (UInt8.ofFin value &&& 15)])
        = UInt8.ofFin value := by decide +kernel
  exact all chr.toFin

theorem hexChar_mem (value : UInt8) : hexChar value ∈ 0 :: latin1 "0123456789ABCDEF" := by
  rw [hexChar, List.getD_eq_getElem?_getD]
  rcases found : (latin1 "0123456789ABCDEF")[value.toNat]? with - | chr
  · exact List.mem_cons_self
  · exact List.mem_cons_of_mem _ (List.mem_of_getElem? found)

theorem decode_escape {stays : UInt8 → Bool}
    (harmless : ∀ chr, stays chr → chr ≠ '%'.toUInt8 ∧ chr ≠ '+'.toUInt8) (value : List UInt8) :
    decode (escape stays value) = value := by
  induction value with
  | nil => rfl
  | cons chr value induction =>
      rw [escape, List.flatMap_cons, ← escape]
      by_cases stay : stays chr
      · rw [if_pos stay, List.singleton_append, decode_cons (harmless chr stay).1, induction,
          decodeChar, if_neg (harmless chr stay).2]
      · rw [if_neg stay, List.cons_append, List.cons_append, List.singleton_append, decode,
          if_pos rfl, strtol16_hexChars, induction]

theorem notMem_escape {stays : UInt8 → Bool} {chr : UInt8} (leaves : stays chr = false)
    (different : chr ∉ '%'.toUInt8 :: 0 :: latin1 "0123456789ABCDEF") (value : List UInt8) :
    chr ∉ escape stays value := by
  intro member
  obtain ⟨other, -, inside⟩ := List.mem_flatMap.mp member
  by_cases stay : stays other
  · rw [if_pos stay, List.mem_singleton] at inside
    rw [← inside, leaves] at stay
    exact Bool.false_ne_true stay
  · rw [if_neg stay] at inside
    rcases List.mem_cons.mp inside with rfl | digit
    · exact different List.mem_cons_self
    · refine different (List.mem_cons_of_mem _ ?_)
      rcases List.mem_cons.mp digit with rfl | digit
      · exact hexChar_mem _
      · rw [List.mem_singleton.mp digit]
        exact hexChar_mem _

private theorem unreserved_harmless (chr : UInt8) (stays : unreserved chr) :
    chr ≠ '%'.toUInt8 ∧ chr ≠ '+'.toUInt8 := by
  constructor <;> rintro rfl <;> exact absurd stays (by decide)

theorem decode_encode (value : List UInt8) : decode (encode value) = value :=
  decode_escape unreserved_harmless value

end Percent

/-! ## Fields -/

/-- Names and values. The order of the container is left open, and so is which of the
values with one name `find` answers. -/
abbrev CaseInsensitiveMultimap := List (List UInt8 × List UInt8)

namespace QueryString

def emplaced (name value : List UInt8) : CaseInsensitiveMultimap :=
  if name = [] then [] else [(name, Percent.decode value)]

/-- The separator is written in front of every field but the first. -/
def createFrom (first : Bool) : CaseInsensitiveMultimap → List UInt8
  | [] => []
  | (name, value) :: fields =>
      (if first then [] else ['&'.toUInt8]) ++ name ++ '='.toUInt8 :: Percent.encode value ++
        createFrom false fields

def create (fields : CaseInsensitiveMultimap) : List UInt8 := createFrom true fields

/-! ## Parsing -/

/-- The variables of the loop; `none` is `npos`. -/
structure Cursor where
  namePos : Nat
  nameEndPos : Option Nat
  valuePos : Option Nat
  result : CaseInsensitiveMultimap

section Parse

variable (queryString : List UInt8)

/-- The iteration with the index `c`. -/
def iterate (cursor : Cursor) (c : Nat) : Cursor :=
  if queryString[c]? = some '&'.toUInt8 then
    let name := substr queryString cursor.namePos (cursor.nameEndPos.getD c - cursor.namePos)
    let value :=
      match cursor.valuePos with
      | none => []
      | some valuePos => substr queryString valuePos (c - valuePos)
    { namePos := c + 1
      nameEndPos := none
      valuePos := none
      result := cursor.result ++ emplaced name value }
  else if queryString[c]? = some '='.toUInt8 then
    { cursor with nameEndPos := some c, valuePos := some (c + 1) }
  else cursor

def scan (iterations : Nat) : Cursor :=
  (List.range iterations).foldl (iterate queryString) ⟨0, none, none, []⟩

def finish (cursor : Cursor) : CaseInsensitiveMultimap :=
  if cursor.namePos < queryString.length then
    let name :=
      match cursor.nameEndPos with
      | none => queryString.drop cursor.namePos
      | some nameEndPos => substr queryString cursor.namePos (nameEndPos - cursor.namePos)
    let value :=
      match cursor.valuePos with
      | none => []
      | some valuePos =>
          if queryString.length ≤ valuePos then [] else queryString.drop valuePos
    cursor.result ++ emplaced name value
  else cursor.result

def parse : CaseInsensitiveMultimap :=
  if queryString = [] then [] else finish queryString (scan queryString queryString.length)

end Parse

/-! ## What a segment says -/

/-- The name ends at the last equals sign. -/
def field (segment : List UInt8) : CaseInsensitiveMultimap :=
  if '='.toUInt8 ∈ segment then
    let value := (segment.reverse.takeWhile (· ≠ '='.toUInt8)).reverse
    emplaced (segment.take (segment.length - (value.length + 1))) value
  else emplaced segment []

private theorem field_of_notMem {segment : List UInt8} (none : '='.toUInt8 ∉ segment) :
    field segment = emplaced segment [] := if_neg none

theorem field_append {name value : List UInt8} (none : '='.toUInt8 ∉ value) :
    field (name ++ '='.toUInt8 :: value) = emplaced name value := by
  have written : (name ++ '='.toUInt8 :: value).reverse.takeWhile (· ≠ '='.toUInt8) =
      value.reverse := by
    rw [List.reverse_append, List.reverse_cons, List.append_assoc, List.singleton_append]
    exact takeWhile_ne_append (mt List.mem_reverse.mp none) name.reverse
  rw [field, if_pos (List.mem_append_right _ List.mem_cons_self), written, List.reverse_reverse]
  dsimp only
  rw [List.length_append, List.length_cons, Nat.add_sub_cancel, List.take_left]

/-! ## The loop -/

/-- The positions that the cursor has for a segment it is in. -/
inductive Marks (cursor : Cursor) : List UInt8 → Prop where
  | name {segment : List UInt8} : '='.toUInt8 ∉ segment → cursor.nameEndPos = none →
      cursor.valuePos = none → Marks cursor segment
  | value {name value : List UInt8} : '='.toUInt8 ∉ value →
      cursor.nameEndPos = some (cursor.namePos + name.length) →
      cursor.valuePos = some (cursor.namePos + name.length + 1) →
      Marks cursor (name ++ '='.toUInt8 :: value)

/-- The part in front of an index consists of segments that have been emplaced and of a
segment that has not. -/
structure Scanned (queryString : List UInt8) (c : Nat) (cursor : Cursor)
    (closed : List (List UInt8)) (current : List UInt8) : Prop where
  passed : queryString.take c = closed.flatMap (· ++ ['&'.toUInt8]) ++ current
  position : cursor.namePos + current.length = c
  closedFree : ∀ segment ∈ closed, '&'.toUInt8 ∉ segment
  currentFree : '&'.toUInt8 ∉ current
  marks : Marks cursor current
  result : cursor.result = closed.flatMap field

namespace Scanned

variable {queryString current : List UInt8} {c : Nat} {cursor : Cursor}
  {closed : List (List UInt8)}

theorem initial : Scanned queryString 0 ⟨0, none, none, []⟩ [] [] where
  passed := rfl
  position := rfl
  closedFree := fun _ member => absurd member List.not_mem_nil
  currentFree := List.not_mem_nil
  marks := .name List.not_mem_nil rfl rfl
  result := rfl

private theorem drop_namePos (scanned : Scanned queryString c cursor closed current)
    (inside : c ≤ queryString.length) :
    queryString.drop cursor.namePos = current ++ queryString.drop c := by
  have lengths := congrArg List.length scanned.passed
  rw [List.length_take_of_le inside, List.length_append] at lengths
  have start : cursor.namePos = (closed.flatMap (· ++ ['&'.toUInt8])).length := by
    have position := scanned.position
    omega
  have whole := List.take_append_drop c queryString
  rw [scanned.passed, List.append_assoc] at whole
  calc
    queryString.drop cursor.namePos =
        (closed.flatMap (· ++ ['&'.toUInt8]) ++ (current ++ queryString.drop c)).drop
          cursor.namePos := by rw [whole]
    _ = current ++ queryString.drop c := by rw [start, List.drop_left]

theorem emplaced_eq (scanned : Scanned queryString c cursor closed current)
    (inside : c ≤ queryString.length) :
    emplaced (substr queryString cursor.namePos (cursor.nameEndPos.getD c - cursor.namePos))
      (match cursor.valuePos with
        | none => []
        | some valuePos => substr queryString valuePos (c - valuePos)) = field current := by
  have rest := scanned.drop_namePos inside
  have position := scanned.position
  cases scanned.marks with
  | name free nameEnd value =>
      have width : c - cursor.namePos = current.length := by omega
      rw [nameEnd, value, field_of_notMem free, substr, rest, Option.getD_none, width,
        List.take_left]
  | @value name value free nameEnd valueStart =>
      have width : c - (cursor.namePos + name.length + 1) = value.length := by
        rw [List.length_append, List.length_cons] at position
        omega
      have shifted : queryString.drop (cursor.namePos + name.length + 1) =
          value ++ queryString.drop c := by
        rw [Nat.add_assoc, ← List.drop_drop, rest, List.append_assoc, ← List.drop_drop,
          List.drop_left]
        rfl
      rw [nameEnd, valueStart, field_append free]
      dsimp only
      rw [Option.getD_some, substr, substr, rest, Nat.add_sub_cancel_left, List.append_assoc,
        List.take_left, shifted, width, List.take_left]

theorem iterate (scanned : Scanned queryString c cursor closed current)
    (inside : c < queryString.length) :
    ∃ closed current,
      Scanned queryString (c + 1) (QueryString.iterate queryString cursor c) closed current := by
  have here : queryString[c]? = some queryString[c] := List.getElem?_eq_getElem inside
  have passed : queryString.take (c + 1) = queryString.take c ++ [queryString[c]] :=
    (List.take_append_getElem inside).symm
  have emplaces := scanned.emplaced_eq (Nat.le_of_lt inside)
  have position := scanned.position
  unfold QueryString.iterate
  rw [here]
  by_cases separator : queryString[c] = '&'.toUInt8
  · rw [if_pos (congrArg some separator)]
    refine ⟨closed ++ [current], [], ?_, rfl, ?_, List.not_mem_nil,
      .name List.not_mem_nil rfl rfl, ?_⟩
    · rw [passed, scanned.passed, separator, List.flatMap_append, List.flatMap_singleton,
        List.append_nil, List.append_assoc]
    · intro segment member
      rcases List.mem_append.mp member with before | last
      · exact scanned.closedFree segment before
      · exact List.mem_singleton.mp last ▸ scanned.currentFree
    · rw [List.flatMap_append, List.flatMap_singleton, ← scanned.result, ← emplaces]
  · rw [if_neg fun same => separator (Option.some.inj same)]
    have kept : queryString.take (c + 1) =
        closed.flatMap (· ++ ['&'.toUInt8]) ++ (current ++ [queryString[c]]) := by
      rw [passed, scanned.passed, List.append_assoc]
    have free : '&'.toUInt8 ∉ current ++ [queryString[c]] := fun member =>
      (List.mem_append.mp member).elim scanned.currentFree
        fun last => separator (List.mem_singleton.mp last).symm
    have moved : cursor.namePos + (current ++ [queryString[c]]).length = c + 1 := by
      rw [List.length_append, List.length_singleton]
      omega
    refine ⟨closed, current ++ [queryString[c]], ?_⟩
    by_cases equals : queryString[c] = '='.toUInt8
    · rw [if_pos (congrArg some equals)]
      refine ⟨kept, moved, scanned.closedFree, free, ?_, scanned.result⟩
      rw [equals]
      exact .value List.not_mem_nil (congrArg some position.symm)
        (congrArg some (congrArg (· + 1) position.symm))
    · rw [if_neg fun same => equals (Option.some.inj same)]
      refine ⟨kept, moved, scanned.closedFree, free, ?_, scanned.result⟩
      have other : ∀ text, '='.toUInt8 ∉ text → '='.toUInt8 ∉ text ++ [queryString[c]] :=
        fun text absent member => (List.mem_append.mp member).elim absent
          fun last => equals (List.mem_singleton.mp last).symm
      cases scanned.marks with
      | name absent nameEnd value => exact .name (other _ absent) nameEnd value
      | value absent nameEnd value =>
          rw [List.append_assoc, List.cons_append]
          exact .value (other _ absent) nameEnd value

end Scanned

private theorem scan_scanned (queryString : List UInt8) {c : Nat}
    (inside : c ≤ queryString.length) :
    ∃ closed current, Scanned queryString c (scan queryString c) closed current := by
  induction c with
  | zero => exact ⟨[], [], .initial⟩
  | succ c induction =>
      obtain ⟨closed, current, scanned⟩ := induction (Nat.le_of_lt inside)
      rw [scan, List.range_succ, List.foldl_append, List.foldl_cons, List.foldl_nil, ← scan]
      exact scanned.iterate inside

theorem Scanned.finish {queryString current : List UInt8} {cursor : Cursor}
    {closed : List (List UInt8)}
    (scanned : Scanned queryString queryString.length cursor closed current) :
    QueryString.finish queryString cursor = (closed ++ [current]).flatMap field := by
  have emplaces := scanned.emplaced_eq le_rfl
  have position := scanned.position
  rw [List.flatMap_append, List.flatMap_singleton, ← scanned.result, ← emplaces,
    QueryString.finish]
  by_cases more : cursor.namePos < queryString.length
  · rw [if_pos more]
    dsimp only
    congr 2
    · cases cursor.nameEndPos with
      | none =>
          exact (List.take_of_length_le (List.length_drop.le)).symm
      | some nameEndPos => rfl
    · cases cursor.valuePos with
      | none => rfl
      | some valuePos =>
          dsimp only
          rw [substr, List.take_of_length_le List.length_drop.le]
          by_cases past : queryString.length ≤ valuePos
          · rw [if_pos past, List.drop_eq_nil_of_le past]
          · rw [if_neg past]
  · have empty : current = [] := List.eq_nil_of_length_eq_zero (by omega)
    rw [if_neg more, emplaces, empty]
    exact (List.append_nil _).symm

private theorem splitOn_segments {closed : List (List UInt8)} {current : List UInt8}
    (closedFree : ∀ segment ∈ closed, '&'.toUInt8 ∉ segment)
    (currentFree : '&'.toUInt8 ∉ current) :
    (closed.flatMap (· ++ ['&'.toUInt8]) ++ current).splitOn '&'.toUInt8 = closed ++ [current] := by
  induction closed with
  | nil => exact List.splitOn_eq_singleton currentFree
  | cons segment closed induction =>
      rw [List.flatMap_cons, List.append_assoc, List.append_assoc, List.singleton_append,
        List.splitOn_append_cons_self_of_not_mem (closedFree segment List.mem_cons_self),
        induction fun other member => closedFree other (List.mem_cons_of_mem _ member)]
      rfl

/-- Parsing splits the text at the separators. -/
theorem parse_eq (queryString : List UInt8) :
    parse queryString = (queryString.splitOn '&'.toUInt8).flatMap field := by
  by_cases empty : queryString = []
  · rw [parse, if_pos empty, empty]
    rfl
  · obtain ⟨closed, current, scanned⟩ := scan_scanned queryString le_rfl
    have whole := scanned.passed
    rw [List.take_length] at whole
    rw [parse, if_neg empty, scanned.finish,
      ← splitOn_segments scanned.closedFree scanned.currentFree, ← whole]

/-! ## Round trip -/

private theorem notMem_of_mem_splitOn {separator : UInt8} {text segment : List UInt8}
    (member : segment ∈ text.splitOn separator) : separator ∉ segment := by
  induction text generalizing segment with
  | nil =>
      rw [List.splitOn_nil, List.mem_singleton] at member
      exact member ▸ List.not_mem_nil
  | cons chr text induction =>
      rw [List.splitOn_cons_eq_if_modifyHead] at member
      by_cases same : chr = separator
      · rw [if_pos (beq_iff_eq.mpr same)] at member
        rcases List.mem_cons.mp member with rfl | inside
        · exact List.not_mem_nil
        · exact induction inside
      · rw [if_neg (by rwa [beq_iff_eq])] at member
        cases split : text.splitOn separator with
        | nil => exact absurd split (List.splitOn_ne_nil separator text)
        | cons head tail =>
            rw [split] at induction member
            rcases List.mem_cons.mp member with rfl | inside
            · intro found
              rcases List.mem_cons.mp found with first | later
              · exact same first.symm
              · exact induction List.mem_cons_self later
            · exact induction (List.mem_cons_of_mem _ inside)

private theorem name_of_mem_field {segment : List UInt8} {entry : List UInt8 × List UInt8}
    (member : entry ∈ field segment) : entry.1 ≠ [] ∧ ∀ chr ∈ entry.1, chr ∈ segment := by
  have emplace {name value : List UInt8} (part : ∀ chr ∈ name, chr ∈ segment)
      (inside : entry ∈ emplaced name value) : entry.1 ≠ [] ∧ ∀ chr ∈ entry.1, chr ∈ segment := by
    unfold emplaced at inside
    by_cases empty : name = []
    · rw [if_pos empty] at inside
      exact absurd inside List.not_mem_nil
    · rw [if_neg empty, List.mem_singleton] at inside
      exact inside ▸ ⟨empty, part⟩
  unfold field at member
  by_cases equals : '='.toUInt8 ∈ segment
  · rw [if_pos equals] at member
    exact emplace (fun _ => List.mem_of_mem_take) member
  · rw [if_neg equals] at member
    exact emplace (fun _ inside => inside) member

private theorem equals_notMem_encode (value : List UInt8) : '='.toUInt8 ∉ Percent.encode value :=
  Percent.notMem_escape (by decide) (by decide) value

private theorem ampersand_notMem_encode (value : List UInt8) : '&'.toUInt8 ∉ Percent.encode value :=
  Percent.notMem_escape (by decide) (by decide) value

def ValidName (name : List UInt8) : Prop := name ≠ [] ∧ '&'.toUInt8 ∉ name

theorem field_encoded {name : List UInt8} (valid : ValidName name) (value : List UInt8) :
    field (name ++ '='.toUInt8 :: Percent.encode value) = [(name, value)] := by
  rw [field_append (equals_notMem_encode value), emplaced, if_neg valid.1, Percent.decode_encode]

theorem ampersand_notMem_segment {name : List UInt8} (valid : ValidName name)
    (value : List UInt8) : '&'.toUInt8 ∉ name ++ '='.toUInt8 :: Percent.encode value :=
  notMem_append_cons valid.2 (by decide) (ampersand_notMem_encode value)

private theorem fields_createFrom {name value : List UInt8} {fields : CaseInsensitiveMultimap}
    (valid : ∀ entry ∈ (name, value) :: fields, ValidName entry.1) :
    ((createFrom true ((name, value) :: fields)).splitOn '&'.toUInt8).flatMap field =
      (name, value) :: fields := by
  induction fields generalizing name value with
  | nil =>
      have first := valid _ List.mem_cons_self
      rw [createFrom, createFrom, if_pos rfl, List.nil_append, List.append_nil,
        List.splitOn_eq_singleton (ampersand_notMem_segment first value),
        List.flatMap_singleton, field_encoded first]
  | cons entry fields induction =>
      obtain ⟨nextName, nextValue⟩ := entry
      have first := valid _ List.mem_cons_self
      have rest : createFrom false ((nextName, nextValue) :: fields) =
          '&'.toUInt8 :: createFrom true ((nextName, nextValue) :: fields) := by
        simp [createFrom]
      rw [createFrom, if_pos rfl, List.nil_append, rest,
        List.splitOn_append_cons_self_of_not_mem (ampersand_notMem_segment first value),
        List.flatMap_cons, field_encoded first,
        induction fun entry member => valid entry (List.mem_cons_of_mem _ member)]
      rfl

/-- The fields survive, in some order or in their own, exactly when every name can be
written. A name may contain equals signs, and a value may be anything. -/
theorem parse_create_iff (fields : CaseInsensitiveMultimap) :
    ((parse (create fields)).Perm fields ↔ ∀ entry ∈ fields, ValidName entry.1) ∧
      (parse (create fields) = fields ↔ ∀ entry ∈ fields, ValidName entry.1) := by
  have names : (parse (create fields)).Perm fields → ∀ entry ∈ fields, ValidName entry.1 := by
    intro same entry member
    rw [← same.mem_iff, parse_eq] at member
    obtain ⟨segment, inside, found⟩ := List.mem_flatMap.mp member
    obtain ⟨some, part⟩ := name_of_mem_field found
    exact ⟨some, fun separator => notMem_of_mem_splitOn inside (part _ separator)⟩
  have survive : (∀ entry ∈ fields, ValidName entry.1) → parse (create fields) = fields := by
    intro valid
    cases fields with
    | nil => rfl
    | cons entry fields => rw [parse_eq, create, fields_createFrom valid]
  exact ⟨⟨names, fun valid => .of_eq (survive valid)⟩, ⟨fun same => names (.of_eq same), survive⟩⟩

end QueryString

end Nanocap
