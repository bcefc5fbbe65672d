import Nanocap.Public.Query
import Nanocap.Webserver.DefaultResource
import Nanocap.Webserver.RequestMessage

/-! # Requests of the pages

What the pages ask of the web server, and what the server and its resource for queries
make of it. -/

namespace Nanocap

/-! ## The web server -/

/-- What a request is answered by. -/
inductive Answering where
  | resource (route : String)
  | default
deriving DecidableEq

/-- Every resource is for one method and one path, and so is the default for the method. -/
def findResource (request : HttpRequest) : Option Answering :=
  if request.method = latin1 "GET" then
    match apiRoutes.find? fun route => latin1 route = request.path with
    | some route => some (.resource route)
    | none => some .default
  else none

/-- `tolower` -/
def toLower (chr : UInt8) : UInt8 :=
  if 'A'.toUInt8 ≤ chr ∧ chr ≤ 'Z'.toUInt8 then chr + 32 else chr

def caseInsensitiveEqual (left right : List UInt8) : Bool := left.map toLower = right.map toLower

/-- What `find` may answer for a name. -/
def CaseInsensitiveMultimap.valuesOf (fields : CaseInsensitiveMultimap) (name : List UInt8) :
    List (List UInt8) :=
  (fields.filter fun entry => caseInsensitiveEqual entry.1 name).map Prod.snd

/-- The texts that the resource for queries may run; without one it answers an error. -/
def HttpRequest.queries (request : HttpRequest) : List (List UInt8) :=
  (QueryString.parse request.queryString).valuesOf (latin1 "query")

/-! ## Reading a request -/

def isSpace (chr : UInt8) : Bool := chr = 32 || 9 ≤ chr && chr ≤ 13

def isDigit (chr : UInt8) : Bool := '0'.toUInt8 ≤ chr && chr ≤ '9'.toUInt8

def decimal (digits : List UInt8) : Nat :=
  digits.foldl (fun value digit => 10 * value + (digit - '0'.toUInt8).toNat) 0

/-- `std::stoull`, which reads what it can and negates modulo `2 ^ 64`; `none` where it
throws. -/
def stoull (text : List UInt8) : Option Nat := do
  let text := text.dropWhile isSpace
  let negative := text.head? = some '-'.toUInt8
  let unsigned := if negative ∨ text.head? = some '+'.toUInt8 then text.drop 1 else text
  let digits := unsigned.takeWhile isDigit
  guard (digits ≠ [] ∧ decimal digits < 2 ^ 64)
  return if negative then (2 ^ 64 - decimal digits) % 2 ^ 64 else decimal digits

def maxRequestStreambufSize : Nat := 2 ^ 64 - 1

def headerEnd : List UInt8 → Option Nat
  | [] => none
  | chr :: rest =>
      if (latin1 "\r\n\r\n").isPrefixOf (chr :: rest) then some 4
      else (headerEnd rest).map (· + 1)

/-- How the server goes on with what it has received. -/
inductive Reading where
  | payloadTooLarge
  | protocolError
  /-- Wait for the missing bytes of the content. -/
  | content (request : HttpRequest) (missing : Nat)
  /-- `read_chunked_transfer_encoded` -/
  | chunks (request : HttpRequest)
  | findResource (request : HttpRequest)

/-- With a field `Content-Length`. -/
def HttpRequest.readContent (request : HttpRequest) (additional : Nat) (text : List UInt8) :
    Reading :=
  match stoull text with
  | none => .protocolError
  | some contentLength =>
      if additional < contentLength then .content request (contentLength - additional)
      else .findResource request

def HttpRequest.readEncoding (request : HttpRequest) (text : List UInt8) : Reading :=
  if text = latin1 "chunked" then .chunks request else .findResource request

/-- What the handler in `read` may do. The order of fields with one name is not
specified, so that each of them may be the one that is found. -/
def read (received : List UInt8) : List Reading :=
  match headerEnd received with
  | none => []
  | some transferred =>
      if received.length = maxRequestStreambufSize then [.payloadTooLarge]
      else
        match RequestMessage.parse received with
        | none => [.protocolError]
        | some request =>
            match request.header.valuesOf (latin1 "Content-Length") with
            | [] =>
                match request.header.valuesOf (latin1 "Transfer-Encoding") with
                | [] => [.findResource request]
                | encodings => encodings.map request.readEncoding
            | lengths => lengths.map (request.readContent (received.length - transferred))

/-- The content that the fields announce has arrived. -/
structure CaseInsensitiveMultimap.Arrived (fields : CaseInsensitiveMultimap) (additional : Nat) :
    Prop where
  length : ∀ text ∈ fields.valuesOf (latin1 "Content-Length"),
    ∃ contentLength ≤ additional, stoull text = some contentLength
  encoding : fields.valuesOf (latin1 "Content-Length") = [] →
    latin1 "chunked" ∉ fields.valuesOf (latin1 "Transfer-Encoding")

private theorem HttpRequest.readContent_eq_iff {request : HttpRequest} {additional : Nat}
    {text : List UInt8} : request.readContent additional text = .findResource request ↔
      ∃ contentLength ≤ additional, stoull text = some contentLength := by
  unfold readContent
  cases stoull text with
  | none => simp
  | some contentLength =>
      by_cases missing : additional < contentLength
      · simp [missing]
      · simp [missing, Nat.le_of_not_lt missing]

private theorem HttpRequest.readEncoding_eq_iff {request : HttpRequest} {text : List UInt8} :
    request.readEncoding text = .findResource request ↔ text ≠ latin1 "chunked" := by
  unfold readEncoding
  by_cases chunked : text = latin1 "chunked"
  · simp [chunked]
  · simp [chunked]

private theorem read_request {received : List UInt8} {request other : HttpRequest}
    (parsed : RequestMessage.parse received = some request)
    (member : .findResource other ∈ read received) : other = request := by
  unfold read at member
  rw [parsed] at member
  split at member
  · cases member
  · split at member
    · simp at member
    · dsimp only at member
      split at member
      · split at member
        · simpa using member
        · obtain ⟨text, -, found⟩ := List.mem_map.mp member
          unfold HttpRequest.readEncoding at found
          split at found <;> cases found
          rfl
      · obtain ⟨text, -, found⟩ := List.mem_map.mp member
        unfold HttpRequest.readContent at found
        split at found
        · cases found
        · split at found <;> cases found
          rfl

/-- The resource is looked up at once exactly when no content is missing. -/
private theorem read_eq_findResource_iff {received : List UInt8} {transferred : Nat}
    (arrived : headerEnd received = some transferred)
    (fits : received.length < maxRequestStreambufSize) {request : HttpRequest}
    (parsed : RequestMessage.parse received = some request) :
    (∀ reading ∈ read received, reading = .findResource request) ↔
      request.header.Arrived (received.length - transferred) := by
  have reads : read received =
      match request.header.valuesOf (latin1 "Content-Length") with
      | [] =>
          match request.header.valuesOf (latin1 "Transfer-Encoding") with
          | [] => [.findResource request]
          | encodings => encodings.map request.readEncoding
      | lengths => lengths.map (request.readContent (received.length - transferred)) := by
    rw [read, arrived]
    dsimp only
    rw [if_neg (Nat.ne_of_lt fits), parsed]
  rw [reads]
  cases lengths : request.header.valuesOf (latin1 "Content-Length") with
  | cons first others =>
      have announced (found : first :: others = []) : latin1 "chunked" ∉
          request.header.valuesOf (latin1 "Transfer-Encoding") := nomatch found
      rw [← lengths] at announced
      dsimp only
      simp only [List.forall_mem_map, HttpRequest.readContent_eq_iff, ← lengths]
      exact ⟨fun each => ⟨each, announced⟩, fun whole => whole.length⟩
  | nil =>
      have none : ∀ text ∈ request.header.valuesOf (latin1 "Content-Length"),
          ∃ contentLength ≤ received.length - transferred,
            stoull text = some contentLength := by
        simp [lengths]
      cases encodings : request.header.valuesOf (latin1 "Transfer-Encoding") with
      | nil => exact iff_of_true (by simp) ⟨none, fun _ => by simp [encodings]⟩
      | cons first others =>
          dsimp only
          simp only [List.forall_mem_map, HttpRequest.readEncoding_eq_iff, ← encodings]
          refine ⟨fun each => ⟨none, fun _ member => each _ member rfl⟩, ?_⟩
          rintro whole text member rfl
          exact whole.encoding lengths member

/-! ## The pages -/

/-- A client that escapes every byte with a meaning in a request line. -/
structure Escaping where
  stays : UInt8 → Bool
  harmless : ∀ chr, stays chr → chr ∉ latin1 "%+&=? \n"

def encodeURIComponentStays (chr : UInt8) : Bool :=
  Percent.unreserved chr || chr ∈ latin1 "!*'()"

/-- `encodeURIComponent`, which `getJSON` calls for the names and values of the parameters. -/
def encodeURIComponent : Escaping where
  stays := encodeURIComponentStays
  harmless := by
    intro chr stays member
    have each : ∀ chr ∈ latin1 "%+&=? \n", encodeURIComponentStays chr = false := by
      decide +kernel
    rw [each chr member] at stays
    exact Bool.false_ne_true stays

/-- What the pages ask for with `getJSON`. -/
inductive PageRequest where
  | api (request : ApiRequest)
  | captureToggle
  | captureDestroy
  | status
  | countPerType

namespace PageRequest

def path : PageRequest → String
  | api (.query _) => "/api/v1/capture/query"
  | api .schema => "/api/v1/schema"
  | captureToggle => "/api/v1/capture/toggle"
  | captureDestroy => "/api/v1/capture/destroy"
  | status => "/api/v1/status"
  | countPerType => "/api/v1/count/per-type"

def parameters : PageRequest → Option (List UInt8 × List UInt8)
  | api (.query text) => some (latin1 "query", text.flatMap String.utf8EncodeChar)
  | _ => none

def target (escaping : Escaping) (request : PageRequest) : List UInt8 :=
  match request.parameters with
  | some (name, value) =>
      latin1 request.path ++ '?'.toUInt8 ::
        (name ++ '='.toUInt8 :: Percent.escape escaping.stays value)
  | none => latin1 request.path

def message (escaping : Escaping) (request : PageRequest) (headers : List UInt8) : List UInt8 :=
  (latin1 "GET" ++ ' '.toUInt8 :: (request.target escaping ++
    ' '.toUInt8 :: RequestMessage.protocolPart (latin1 "1.1"))) ++ '\n'.toUInt8 :: headers

end PageRequest

section Delivery

variable (escaping : Escaping)

theorem Escaping.notMem_escape {chr : UInt8} (meaning : chr ∈ latin1 "&=? \n")
    (value : List UInt8) : chr ∉ Percent.escape escaping.stays value := by
  have special : chr ∈ latin1 "%+&=? \n" := by
    have each : ∀ chr ∈ latin1 "&=? \n", chr ∈ latin1 "%+&=? \n" := by decide +kernel
    exact each chr meaning
  have leaves : escaping.stays chr = false :=
    Bool.eq_false_iff.mpr fun stays => escaping.harmless chr stays special
  have different : ∀ chr ∈ latin1 "&=? \n",
      chr ∉ '%'.toUInt8 :: 0 :: latin1 "0123456789ABCDEF" := by decide +kernel
  exact Percent.notMem_escape leaves (different chr meaning) value

theorem Escaping.decode_escape (value : List UInt8) :
    Percent.decode (Percent.escape escaping.stays value) = value := by
  refine Percent.decode_escape (fun chr stays => ?_) value
  have plain := escaping.harmless chr stays
  constructor <;> rintro rfl <;> exact plain (by decide)

private theorem parse_escaped {name : List UInt8} (valid : QueryString.ValidName name)
    (value : List UInt8) :
    QueryString.parse (name ++ '='.toUInt8 :: Percent.escape escaping.stays value) =
      [(name, value)] := by
  have noEquals := escaping.notMem_escape (show '='.toUInt8 ∈ latin1 "&=? \n" by decide) value
  have noSeparator : '&'.toUInt8 ∉ name ++ '='.toUInt8 :: Percent.escape escaping.stays value :=
    notMem_append_cons valid.2 (by decide) (escaping.notMem_escape (by decide) value)
  rw [QueryString.parse_eq, List.splitOn_eq_singleton noSeparator, List.flatMap_singleton,
    QueryString.field_append noEquals, QueryString.emplaced, if_neg valid.1,
    escaping.decode_escape]

theorem PageRequest.path_mem (request : PageRequest) : request.path ∈ apiRoutes := by
  rcases request with (_ | _) | _ | _ | _ | _
  · exact show "/api/v1/capture/query" ∈ apiRoutes by decide
  all_goals decide

theorem quiet_of_mem {route : String} (member : route ∈ apiRoutes) :
    RequestMessage.Quiet (latin1 route) ∧ '\n'.toUInt8 ∉ latin1 route := by
  have each : ∀ route ∈ apiRoutes,
      RequestMessage.Quiet (latin1 route) ∧ '\n'.toUInt8 ∉ latin1 route := by decide +kernel
  exact each route member

private theorem findResource_eq {route : String} (member : route ∈ apiRoutes)
    (queryString httpVersion : List UInt8) (header : CaseInsensitiveMultimap) :
    findResource ⟨latin1 "GET", latin1 route, queryString, httpVersion, header⟩ =
      some (.resource route) := by
  have each : ∀ route ∈ apiRoutes,
      apiRoutes.find? (fun other => latin1 other = latin1 route) = some route := by decide +kernel
  rw [findResource, if_pos rfl, each route member]

theorem PageRequest.name_eq {request : PageRequest} {name value : List UInt8}
    (parameters : request.parameters = some (name, value)) : name = latin1 "query" := by
  rcases request with (_ | _) | _ | _ | _ | _
  · exact (congrArg Prod.fst (Option.some.inj parameters)).symm
  all_goals cases parameters

private theorem quiet_escaped (value : List UInt8) :
    RequestMessage.Quiet
      (latin1 "query" ++ '='.toUInt8 :: Percent.escape escaping.stays value) :=
  RequestMessage.quiet_iff.mpr
    ⟨notMem_append_cons (by decide) (by decide) (escaping.notMem_escape (by decide) value),
      notMem_append_cons (by decide) (by decide) (escaping.notMem_escape (by decide) value)⟩

private theorem PageRequest.newline_notMem_target (request : PageRequest) :
    '\n'.toUInt8 ∉ request.target escaping := by
  have path := (quiet_of_mem request.path_mem).2
  rw [target]
  cases found : request.parameters with
  | none => exact path
  | some parameter =>
      obtain ⟨name, value⟩ := parameter
      rw [PageRequest.name_eq found]
      have assignment : '\n'.toUInt8 ∉
          latin1 "query" ++ '='.toUInt8 :: Percent.escape escaping.stays value :=
        notMem_append_cons (by decide) (by decide) (escaping.notMem_escape (by decide) value)
      exact notMem_append_cons path (by decide) assignment

private theorem PageRequest.newline_notMem (request : PageRequest) :
    '\n'.toUInt8 ∉ latin1 "GET" ++ ' '.toUInt8 :: (request.target escaping ++
      ' '.toUInt8 :: RequestMessage.protocolPart (latin1 "1.1")) :=
  notMem_append_cons (by decide) (by decide)
    (notMem_append_cons (newline_notMem_target escaping request) (by decide) (by decide))

private theorem PageRequest.parse_message (request : PageRequest) (headers : List UInt8) :
    RequestMessage.parse (request.message escaping headers) =
      some ⟨latin1 "GET", latin1 request.path,
        match request.parameters with
        | some (name, value) => name ++ '='.toUInt8 :: Percent.escape escaping.stays value
        | none => [],
        latin1 "1.1", HttpHeader.parse headers⟩ := by
  rw [message, RequestMessage.parse_line (request.newline_notMem escaping), target]
  have quiet := (quiet_of_mem request.path_mem).1
  cases found : request.parameters with
  | none =>
      rw [RequestMessage.parseLine_path (by decide) quiet]
      rfl
  | some parameter =>
      obtain ⟨name, value⟩ := parameter
      have named := PageRequest.name_eq found
      subst named
      dsimp only
      rw [RequestMessage.parseLine_query (by decide) quiet (quiet_escaped escaping value)]
      rfl

private theorem PageRequest.queries_message (request : PageRequest)
    (header : CaseInsensitiveMultimap) :
    (HttpRequest.mk (latin1 "GET") (latin1 request.path)
      (match request.parameters with
        | some (name, value) => name ++ '='.toUInt8 :: Percent.escape escaping.stays value
        | none => []) (latin1 "1.1") header).queries = request.parameters.toList.map Prod.snd := by
  cases found : request.parameters with
  | none => rfl
  | some parameter =>
      obtain ⟨name, value⟩ := parameter
      have named := PageRequest.name_eq found
      subst named
      have same : caseInsensitiveEqual (latin1 "query") (latin1 "query") = true :=
        decide_eq_true rfl
      rw [HttpRequest.queries]
      dsimp only
      rw [parse_escaped escaping ⟨by decide, by decide⟩]
      simp [CaseInsensitiveMultimap.valuesOf, same]

/-- However the client escapes, a request of the pages reaches the resource that is made
for it as soon as its header has arrived, exactly when the header fields announce no
content that has not; the texts that the resource for queries may run are those of the
parameter `query`, byte for byte. -/
theorem requests_delivered_iff (request : PageRequest) (headers : List UInt8)
    {transferred : Nat}
    (arrived : headerEnd (request.message escaping headers) = some transferred)
    (fits : (request.message escaping headers).length < maxRequestStreambufSize) :
    (∀ reading ∈ read (request.message escaping headers),
        ∃ parsed, reading = .findResource parsed ∧
          findResource parsed = some (.resource request.path) ∧
          parsed.queries = request.parameters.toList.map Prod.snd) ↔
      (HttpHeader.parse headers).Arrived
        ((request.message escaping headers).length - transferred) := by
  have parsed := request.parse_message escaping headers
  have once := read_eq_findResource_iff arrived fits parsed
  rw [← once]
  refine ⟨fun delivered reading member => ?_, fun found reading member => ⟨_, found _ member, ?_⟩⟩
  · obtain ⟨other, rfl, -⟩ := delivered reading member
    exact congrArg Reading.findResource (read_request parsed member)
  · exact ⟨findResource_eq request.path_mem _ _ _, request.queries_message escaping _⟩

end Delivery

/-- A browser runs a query, and sends no content. -/
theorem requests_delivered_iff_query :
    let request := PageRequest.api (.query "select '?' & 'ä'".toList)
    let headers := latin1 "Host: localhost\r\nAccept: */*\r\n\r\n"
    ∀ reading ∈ read (request.message encodeURIComponent headers),
      ∃ parsed, reading = .findResource parsed ∧
        findResource parsed = some (.resource "/api/v1/capture/query") ∧
        parsed.queries = ["select '?' & 'ä'".toList.flatMap String.utf8EncodeChar] := by
  intro request headers
  have arrived : headerEnd (request.message encodeURIComponent headers) = some 106 := by
    decide +kernel
  have noLength : (HttpHeader.parse headers).valuesOf (latin1 "Content-Length") = [] := by
    decide +kernel
  have noEncoding : (HttpHeader.parse headers).valuesOf (latin1 "Transfer-Encoding") = [] := by
    decide +kernel
  refine (requests_delivered_iff encodeURIComponent request headers arrived
    (by decide +kernel)).mpr ⟨?_, fun _ => ?_⟩
  · rw [noLength]
    exact fun _ member => absurd member List.not_mem_nil
  · rw [noEncoding]
    exact List.not_mem_nil

end Nanocap
