import Mathlib.Data.Option.Basic
import Nanocap.Webserver.QueryString

/-! # Requests

What `RequestMessage::parse` takes a request for. -/

namespace Nanocap

/-! ## Positions in a line -/

/-- `std::string::find` -/
def findFrom (line : List UInt8) (chr : UInt8) (pos : Nat) : Option Nat :=
  if chr ∈ line.drop pos then some (pos + ((line.drop pos).takeWhile (· ≠ chr)).length) else none

section Positions

variable {before part rest : List UInt8}

private theorem substr_append :
    substr (before ++ (part ++ rest)) before.length part.length = part := by
  rw [substr, List.drop_left, List.take_left]

theorem findFrom_append {chr : UInt8} (absent : chr ∉ part) :
    findFrom (before ++ (part ++ chr :: rest)) chr before.length =
      some (before.length + part.length) := by
  rw [findFrom, List.drop_left, takeWhile_ne_append absent,
    if_pos (List.mem_append_right _ List.mem_cons_self)]

end Positions

/-! ## Parsing -/

namespace HttpHeader

/-- A space stays when it is the last character. -/
def skipSpaces : List UInt8 → List UInt8
  | chr :: next :: rest =>
      if chr = ' '.toUInt8 then skipSpaces (next :: rest) else chr :: next :: rest
  | text => text

def field (line : List UInt8) (paramEnd : Nat) : CaseInsensitiveMultimap :=
  let value := skipSpaces (line.drop (paramEnd + 1))
  if value = [] then []
  else if line.getLast? = some '\r'.toUInt8 then [(line.take paramEnd, value.dropLast)]
  else [(line.take paramEnd, value)]

def parseLines : List (List UInt8) → CaseInsensitiveMultimap
  | [] => []
  | line :: lines =>
      match findFrom line ':'.toUInt8 0 with
      | some paramEnd => field line paramEnd ++ parseLines lines
      | none => []

/-- After the last newline there is an empty line, which ends the loop as well as the end
of the stream does. -/
def parse (stream : List UInt8) : CaseInsensitiveMultimap :=
  parseLines (stream.splitOn '\n'.toUInt8)

end HttpHeader

structure HttpRequest where
  method : List UInt8
  path : List UInt8
  queryString : List UInt8
  httpVersion : List UInt8
  header : CaseInsensitiveMultimap

namespace RequestMessage

/-- The loop over the target, from the index `i` on: where the query starts and where the
target ends. The last question mark counts. -/
def scanTarget (i : Nat) (queryStart : Option Nat) : List UInt8 → Option Nat × Option Nat
  | [] => (queryStart, none)
  | chr :: rest =>
      if chr = '?'.toUInt8 ∧ rest ≠ [] then scanTarget (i + 1) (some (i + 1)) rest
      else if chr = ' '.toUInt8 then (queryStart, some i)
      else scanTarget (i + 1) queryStart rest

def pathAndQuery (line : List UInt8) (methodEnd targetEnd : Nat) :
    Option Nat → List UInt8 × List UInt8
  | some queryStart =>
      (substr line (methodEnd + 1) (queryStart - methodEnd - 2),
        substr line queryStart (targetEnd - queryStart))
  | none => (substr line (methodEnd + 1) (targetEnd - methodEnd - 1), [])

def parseLine (line : List UInt8) :
    Option (List UInt8 × (List UInt8 × List UInt8) × List UInt8) := do
  let methodEnd ← findFrom line ' '.toUInt8 0
  let scanned := scanTarget (methodEnd + 1) none (line.drop (methodEnd + 1))
  let targetEnd ← scanned.2
  let protocolEnd ← findFrom line '/'.toUInt8 (targetEnd + 1)
  guard (substr line (targetEnd + 1) (protocolEnd - targetEnd - 1) = latin1 "HTTP")
  return (line.take methodEnd, pathAndQuery line methodEnd targetEnd scanned.1,
    substr line (protocolEnd + 1) (line.length - protocolEnd - 2))

/-- `getline` fails at the end of the stream. -/
def parse (stream : List UInt8) : Option HttpRequest := do
  guard (stream ≠ [])
  let (method, (path, queryString), httpVersion) ←
    parseLine (stream.takeWhile (· ≠ '\n'.toUInt8))
  let header := HttpHeader.parse (stream.drop ((stream.takeWhile (· ≠ '\n'.toUInt8)).length + 1))
  return { method, path, queryString, httpVersion, header }

/-! ## Request lines -/

/-- A part of a target that neither ends it nor starts a query. -/
def Quiet (text : List UInt8) : Prop := ∀ chr ∈ text, chr ≠ ' '.toUInt8 ∧ chr ≠ '?'.toUInt8

instance (text : List UInt8) : Decidable (Quiet text) :=
  List.decidableBAll (fun chr => chr ≠ ' '.toUInt8 ∧ chr ≠ '?'.toUInt8) text

theorem quiet_iff {text : List UInt8} : Quiet text ↔ ' '.toUInt8 ∉ text ∧ '?'.toUInt8 ∉ text := by
  constructor
  · exact fun quiet => ⟨fun space => (quiet _ space).1 rfl, fun mark => (quiet _ mark).2 rfl⟩
  · rintro ⟨noSpace, noMark⟩ chr member
    exact ⟨fun space => noSpace (space ▸ member), fun mark => noMark (mark ▸ member)⟩

theorem scanTarget_append {text : List UInt8} (quiet : Quiet text) (i : Nat)
    (queryStart : Option Nat) (rest : List UInt8) :
    scanTarget i queryStart (text ++ rest) = scanTarget (i + text.length) queryStart rest := by
  induction text generalizing i with
  | nil => rfl
  | cons chr text induction =>
      obtain ⟨noSpace, noQuestion⟩ := quiet chr List.mem_cons_self
      rw [List.cons_append, scanTarget, if_neg fun both => noQuestion both.1, if_neg noSpace,
        induction fun other member => quiet other (List.mem_cons_of_mem _ member),
        List.length_cons, Nat.add_assoc, Nat.add_comm 1]

theorem question_ne_space : '?'.toUInt8 ≠ ' '.toUInt8 := by decide

private theorem scanTarget_path {path : List UInt8} (quiet : Quiet path) (i : Nat)
    (rest : List UInt8) :
    scanTarget i none (path ++ ' '.toUInt8 :: rest) = (none, some (i + path.length)) := by
  rw [scanTarget_append quiet, scanTarget, if_neg fun both => question_ne_space both.1.symm,
    if_pos rfl]

private theorem scanTarget_query {path query : List UInt8} (quietPath : Quiet path)
    (quietQuery : Quiet query) (i : Nat) (rest : List UInt8) :
    scanTarget i none (path ++ '?'.toUInt8 :: (query ++ ' '.toUInt8 :: rest)) =
      (some (i + path.length + 1), some (i + path.length + 1 + query.length)) := by
  rw [scanTarget_append quietPath, scanTarget, if_pos ⟨rfl, by simp⟩, scanTarget_append quietQuery,
    scanTarget, if_neg fun both => question_ne_space both.1.symm, if_pos rfl]

def protocolPart (version : List UInt8) : List UInt8 :=
  latin1 "HTTP" ++ '/'.toUInt8 :: (version ++ ['\r'.toUInt8])

section ProtocolPart

variable (before version : List UInt8)

private theorem findFrom_protocolPart :
    findFrom (before ++ protocolPart version) '/'.toUInt8 before.length =
      some (before.length + 4) :=
  findFrom_append (by decide)

private theorem substr_protocolPart :
    substr (before ++ protocolPart version) before.length 4 = latin1 "HTTP" :=
  substr_append

private theorem version_protocolPart :
    substr (before ++ protocolPart version) (before.length + 4 + 1)
      ((before ++ protocolPart version).length - (before.length + 4) - 2) = version := by
  have width : (before ++ protocolPart version).length - (before.length + 4) - 2 =
      version.length := by
    have name : (latin1 "HTTP").length = 4 := by decide
    rw [protocolPart, List.length_append, List.length_append, List.length_cons,
      List.length_append, List.length_singleton, name]
    omega
  have shifted : (before ++ protocolPart version).drop (before.length + 4 + 1) =
      version ++ ['\r'.toUInt8] := by
    rw [Nat.add_assoc, ← List.drop_drop, List.drop_left]
    rfl
  rw [substr, width, shifted, List.take_left]

end ProtocolPart

section Lines

variable {method path query version : List UInt8}

theorem parseLine_eq {queryStart : Option Nat} (target : List UInt8)
    (noSpace : ' '.toUInt8 ∉ method)
    (scanned : scanTarget (method.length + 1) none (target ++ ' '.toUInt8 :: protocolPart version) =
      (queryStart, some (method.length + 1 + target.length))) :
    let line := method ++ ' '.toUInt8 :: (target ++ ' '.toUInt8 :: protocolPart version)
    parseLine line = some (method,
      pathAndQuery line method.length (method.length + 1 + target.length) queryStart, version) := by
  intro line
  have methodEnd : findFrom line ' '.toUInt8 0 = some method.length := by
    have found :=
      @findFrom_append [] method (target ++ ' '.toUInt8 :: protocolPart version) _ noSpace
    rwa [List.nil_append, List.length_nil, Nat.zero_add] at found
  have afterMethod : line.drop (method.length + 1) =
      target ++ ' '.toUInt8 :: protocolPart version := by
    rw [← List.drop_drop, List.drop_left]
    rfl
  obtain ⟨front, position, split⟩ : ∃ front : List UInt8,
      front.length = method.length + 1 + target.length + 1 ∧
        line = front ++ protocolPart version := by
    refine ⟨method ++ ' '.toUInt8 :: (target ++ [' '.toUInt8]), ?_, ?_⟩
    · simp only [List.length_append, List.length_cons, List.length_nil]
      omega
    · simp only [line, List.append_assoc, List.cons_append, List.nil_append]
  have protocolEnd := split ▸ findFrom_protocolPart front version
  have protocolName := split ▸ substr_protocolPart front version
  have protocolVersion := split ▸ version_protocolPart front version
  rw [position] at protocolEnd protocolName protocolVersion
  have width : method.length + 1 + target.length + 1 + 4 - (method.length + 1 + target.length) - 1 =
      4 := by omega
  have wholeMethod : line.take method.length = method := List.take_left
  simp only [parseLine, methodEnd, Option.bind_eq_bind, Option.bind_some, afterMethod, scanned,
    protocolEnd, width, protocolName, protocolVersion, wholeMethod]
  rfl

theorem parseLine_path {path : List UInt8} (noSpace : ' '.toUInt8 ∉ method) (quiet : Quiet path) :
    parseLine (method ++ ' '.toUInt8 :: (path ++ ' '.toUInt8 :: protocolPart version)) =
      some (method, (path, []), version) := by
  rw [parseLine_eq path noSpace (scanTarget_path quiet _ _), pathAndQuery, substr, Nat.sub_sub,
    Nat.add_sub_cancel_left, ← List.drop_drop, List.drop_left]
  simp only [List.drop_succ_cons, List.drop_zero, List.take_left]

theorem parseLine_query {path query : List UInt8} (noSpace : ' '.toUInt8 ∉ method)
    (quietPath : Quiet path) (quietQuery : Quiet query) :
    parseLine (method ++ ' '.toUInt8 ::
      ((path ++ '?'.toUInt8 :: query) ++ ' '.toUInt8 :: protocolPart version)) =
      some (method, (path, query), version) := by
  have target : (path ++ '?'.toUInt8 :: query).length = path.length + 1 + query.length := by
    rw [List.length_append, List.length_cons]
    omega
  have scanned := scanTarget_query quietPath quietQuery (method.length + 1) (protocolPart version)
  have targetEnd : method.length + 1 + path.length + 1 + query.length =
      method.length + 1 + (path ++ '?'.toUInt8 :: query).length := by omega
  have pathWidth : method.length + 1 + path.length + 1 - method.length - 2 = path.length := by omega
  have queryWidth : method.length + 1 + (path ++ '?'.toUInt8 :: query).length -
      (method.length + 1 + path.length + 1) = query.length := by omega
  rw [targetEnd, ← List.cons_append, ← List.append_assoc] at scanned
  rw [parseLine_eq _ noSpace scanned, pathAndQuery, pathWidth, queryWidth]
  refine congrArg some (congrArg (Prod.mk method) (congrArg₂ Prod.mk (congrArg₂ Prod.mk ?_ ?_) rfl))
  · rw [substr, ← List.drop_drop, List.drop_left, List.append_assoc]
    exact List.take_left
  · have start : method.length + 1 + path.length + 1 = method.length + (1 + (path.length + 1)) := by
      omega
    rw [substr, start, ← List.drop_drop, List.drop_left, ← List.drop_drop, List.append_assoc,
      List.drop_succ_cons, List.drop_zero, ← List.drop_drop, List.drop_left]
    exact List.take_left

end Lines

theorem parse_line {line : List UInt8} (oneLine : '\n'.toUInt8 ∉ line) (rest : List UInt8) :
    parse (line ++ '\n'.toUInt8 :: rest) =
      (parseLine line).map fun parts =>
        ⟨parts.1, parts.2.1.1, parts.2.1.2, parts.2.2, HttpHeader.parse rest⟩ := by
  have present : (guard (line ++ '\n'.toUInt8 :: rest ≠ []) : Option Unit) = some () :=
    if_pos (by simp)
  have after : (line ++ '\n'.toUInt8 :: rest).drop (line.length + 1) = rest := by
    rw [← List.drop_drop, List.drop_left]
    rfl
  rw [parse, takeWhile_ne_append oneLine, after, present]
  cases parseLine line <;> rfl

end RequestMessage

end Nanocap
