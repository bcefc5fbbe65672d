import Nanocap.Foundation.PlainText
import Nanocap.Public.Query

/-! # Bookmarks of queries

A query is bookmarked as the path `/query/` followed by its Base64 text. -/

namespace Nanocap

/-! ## Base64 texts of queries -/

section Texts

variable {query : List Char}

@[simp] theorem charCodes_ofBytes (bytes : List UInt8) :
    charCodes (bytes.map fun byte => Char.ofNat byte.toNat) = bytes := by
  have same := latin1_ofBytes bytes
  rwa [latin1, String.toList_ofList] at same

private theorem ofBytes_charCodes (latin1 : Latin1 query) :
    (charCodes query).map (fun byte => Char.ofNat byte.toNat) = query := by
  rw [charCodes, List.map_map]
  refine (List.map_congr_left fun char member => ?_).trans (List.map_id query)
  rw [Function.comp_apply, UInt8.toNat_ofNat_of_lt' (latin1 char member), Char.ofNat_toNat]
  rfl

theorem btoa_eq (latin1 : Latin1 query) : btoa query = some (Base64.encode (charCodes query)) :=
  if_pos latin1

theorem atob_eq_some_iff {text : List Char} (latin1 : Latin1 query) :
    atob text = some query ↔ Base64.decode text = some (charCodes query) := by
  rw [atob, Option.map_eq_some_iff]
  constructor
  · rintro ⟨bytes, decodes, rfl⟩
    rw [decodes, charCodes_ofBytes]
  · exact fun decodes => ⟨_, decodes, ofBytes_charCodes latin1⟩

end Texts

namespace Base64

theorem digit_eq_slash_iff (value : Fin 64) : digit value = '/' ↔ value = 63 := by
  have all : ∀ value : Fin 64, digit value = '/' ↔ value = 63 := by decide +kernel
  exact all value

private theorem slash_notMem_encode {bytes : List UInt8}
    (none : ∀ value ∈ sextets bytes, value ≠ 63) :
    '/' ∉ encode bytes := by
  intro member
  rcases List.mem_append.mp member with digits | padded
  · obtain ⟨value, inside, same⟩ := List.mem_map.mp digits
    exact none value inside ((digit_eq_slash_iff value).mp same)
  · exact absurd (List.eq_of_mem_replicate padded) (by decide)

theorem notMem_encode {char : Char} (padding : char ≠ '=')
    (digits : ∀ value, digit value ≠ char) (bytes : List UInt8) : char ∉ encode bytes := by
  intro member
  rcases List.mem_append.mp member with inside | padded
  · obtain ⟨value, -, same⟩ := List.mem_map.mp inside
    exact digits value same
  · exact padding (List.eq_of_mem_replicate padded)

theorem escape_notMem_encode (bytes : List UInt8) : '%' ∉ encode bytes :=
  notMem_encode (by decide) (by decide +kernel) bytes

theorem question_notMem_encode (bytes : List UInt8) : '?' ∉ encode bytes :=
  notMem_encode (by decide) (by decide +kernel) bytes

private theorem encode_eq_nil_iff (bytes : List UInt8) : encode bytes = [] ↔ bytes = [] := by
  constructor
  · intro none
    rw [← Option.some.injEq, ← decode_encode bytes, none]
    rfl
  · rintro rfl
    rfl

end Base64

/-! ## The routes of the query page -/

namespace Router

theorem mem_results_followedBySlash {atStart : Bool} {text : List Char}
    {outcome : RegExp.Outcome} :
    outcome ∈ followedBySlashRegexp.results atStart text ↔
      (text = [] ∨ text = ['/']) ∧ outcome = ⟨text, [], []⟩ := by
  rw [followedBySlashRegexp, RegExp.mem_results_orElse, RegExp.mem_results_finish]
  constructor
  · rintro (member | ⟨rfl, same⟩)
    · obtain ⟨⟨_, _, _⟩, early, back, late, same⟩ := RegExp.mem_results_andThen.mp member
      obtain ⟨char, slash, rfl, rfl, rfl⟩ := RegExp.mem_results_one.mp early
      obtain ⟨rfl, rfl⟩ := RegExp.mem_results_finish.mp late
      rw [beq_iff_eq.mp slash] at same ⊢
      exact ⟨.inr rfl, same⟩
    · exact ⟨.inl rfl, same⟩
  · rintro ⟨rfl | rfl, rfl⟩
    · exact .inr ⟨rfl, rfl⟩
    · refine .inl (RegExp.mem_results_andThen.mpr ⟨⟨['/'], [], []⟩,
        RegExp.mem_results_one.mpr ⟨'/', rfl, rfl, rfl, rfl⟩, ⟨[], [], []⟩,
        RegExp.mem_results_finish.mpr ⟨rfl, rfl⟩, rfl⟩)

/-- The pattern of `/query`. -/
def queryPattern : RegExp :=
  .sequence (.start :: ("/query".toList.map .char ++ [followedBySlashRegexp]))

/-- The pattern of `/query/:query`. -/
def encodedQueryPattern : RegExp :=
  .sequence (.start ::
    ("/query/".toList.map .char ++ [replaceVariableRegexp, followedBySlashRegexp]))

private theorem replaceDynamicURLParts_query :
    replaceDynamicURLParts (clean "/query".toList) = (queryPattern, []) := by
  rfl

theorem replaceDynamicURLParts_encodedQuery :
    replaceDynamicURLParts (clean "/query/:query".toList) =
      (encodedQueryPattern, ["query".toList]) := by
  rfl

section Patterns

variable {text : List Char} {outcome : RegExp.Outcome}

theorem results_start_later (patterns : List RegExp) (text : List Char) :
    (RegExp.sequence (.start :: patterns)).results false text = [] := by
  refine RegExp.results_eq_nil fun outcome member => ?_
  obtain ⟨front, early, -⟩ := RegExp.mem_results_andThen.mp member
  cases (RegExp.mem_results_start.mp early).1

private theorem find_queryPattern (text : List Char) :
    queryPattern.find text =
      (queryPattern.exec true text).filter fun outcome => outcome.matched ≠ [] :=
  RegExp.find_of_anchored (results_start_later _) text

theorem find_encodedQueryPattern (text : List Char) :
    encodedQueryPattern.find text =
      (encodedQueryPattern.exec true text).filter fun outcome => outcome.matched ≠ [] :=
  RegExp.find_of_anchored (results_start_later _) text

theorem mem_results_start_chars {chars : List Char} {patterns : List RegExp} :
    outcome ∈ (RegExp.sequence (.start :: (chars.map .char ++ patterns))).results true text ↔
      ∃ rest, text = chars ++ rest ∧
        ∃ back ∈ (RegExp.sequence patterns).results chars.isEmpty rest,
          outcome = ⟨chars ++ back.matched, back.rest, back.groups⟩ := by
  rw [RegExp.sequence, RegExp.mem_results_andThen]
  constructor
  · rintro ⟨front, early, back, late, rfl⟩
    obtain ⟨-, rfl⟩ := RegExp.mem_results_start.mp early
    obtain ⟨rest, whole, inner, inside, rfl⟩ := RegExp.mem_results_chars.mp late
    exact ⟨rest, whole, inner, inside, rfl⟩
  · rintro ⟨rest, whole, inner, inside, rfl⟩
    exact ⟨⟨[], text, []⟩, RegExp.mem_results_start.mpr ⟨rfl, rfl⟩, _,
      RegExp.mem_results_chars.mpr ⟨rest, whole, inner, inside, rfl⟩, rfl⟩

private theorem mem_results_queryPattern (member : outcome ∈ queryPattern.results true text) :
    text = "/query".toList ∨ text = "/query/".toList := by
  obtain ⟨rest, rfl, back, inside, -⟩ := mem_results_start_chars.mp member
  obtain ⟨front, early, -⟩ := RegExp.mem_results_andThen.mp inside
  rcases (mem_results_followedBySlash.mp early).1 with rfl | rfl
  · exact .inl rfl
  · exact .inr rfl

theorem mem_results_encodedQueryPattern :
    outcome ∈ encodedQueryPattern.results true text ↔
      ∃ part tail, part ≠ [] ∧ '/' ∉ part ∧ (tail = [] ∨ tail = ['/']) ∧
        text = "/query/".toList ++ (part ++ tail) ∧ outcome = ⟨text, [], [part]⟩ := by
  rw [encodedQueryPattern, mem_results_start_chars]
  constructor
  · rintro ⟨rest, rfl, back, inside, rfl⟩
    obtain ⟨_, early, behind, late, rfl⟩ := RegExp.mem_results_andThen.mp inside
    obtain ⟨variable_, parts, rfl⟩ := RegExp.mem_results_group.mp early
    obtain ⟨split, each, some, groups⟩ := RegExp.mem_results_repeated.mp parts
    obtain ⟨_, ends, last, empty, rfl⟩ := RegExp.mem_results_andThen.mp late
    obtain ⟨tail, rfl⟩ := mem_results_followedBySlash.mp ends
    obtain rfl := RegExp.mem_results_empty.mp empty
    refine ⟨variable_.matched, variable_.rest, List.ne_nil_of_length_pos some,
      fun slash => by simpa using each _ slash, tail, by rw [split], ?_⟩
    rw [split, groups]
    simp
  · rintro ⟨part, tail, some, noSlash, ends, rfl, rfl⟩
    refine ⟨part ++ tail, rfl, ⟨part ++ tail, [], [part]⟩, ?_, rfl⟩
    have first : ⟨part, tail, [part]⟩ ∈ replaceVariableRegexp.results
        "/query/".toList.isEmpty (part ++ tail) := by
      refine RegExp.mem_results_group.mpr ⟨⟨part, tail, []⟩,
        RegExp.mem_results_repeated.mpr ⟨rfl, fun char member => ?_, ?_, rfl⟩, rfl⟩
      · exact bne_iff_ne.mpr fun same => noSlash (same ▸ member)
      · exact List.length_pos_iff.mpr some
    refine RegExp.mem_results_andThen.mpr ⟨_, first, ⟨tail, [], []⟩, ?_, by simp⟩
    refine RegExp.mem_results_andThen.mpr ⟨⟨tail, [], []⟩,
      mem_results_followedBySlash.mpr ⟨ends, rfl⟩, ⟨[], [], []⟩, ?_, by simp⟩
    exact RegExp.mem_results_empty.mpr rfl

/-- Where `/query` is the route, nothing follows. -/
private theorem foundIn_query {part : List Char} (nonempty : part ≠ []) :
    foundIn ("/query/".toList ++ part) "/query".toList = none := by
  unfold foundIn
  rw [replaceDynamicURLParts_query]
  have url : leadingSlashes.replaceFirst ['/'] ("/query/".toList ++ part) =
      "/query/".toList ++ part := leadingSlashes_single (by decide)
  have none : queryPattern.results true ("/query/".toList ++ part) = [] := by
    refine RegExp.results_eq_nil fun outcome member => ?_
    rcases mem_results_queryPattern member with same | same
    · simp at same
    · exact nonempty (by simpa using same)
  rw [url, find_queryPattern, RegExp.exec, none]
  rfl

private theorem foundIn_encodedQuery {part : List Char} (nonempty : part ≠ [])
    (noSlash : '/' ∉ part) :
    foundIn ("/query/".toList ++ part) "/query/:query".toList =
      some ⟨"/query/".toList ++ part, [], [part]⟩ := by
  unfold foundIn
  rw [replaceDynamicURLParts_encodedQuery]
  have url : leadingSlashes.replaceFirst ['/'] ("/query/".toList ++ part) =
      "/query/".toList ++ part := leadingSlashes_single (by decide)
  have found : encodedQueryPattern.exec true ("/query/".toList ++ part) =
      some ⟨"/query/".toList ++ part, [], [part]⟩ := by
    refine RegExp.exec_of_unique (mem_results_encodedQueryPattern.mpr
      ⟨part, [], nonempty, noSlash, .inl rfl, by rw [List.append_nil], rfl⟩) fun other member => ?_
    obtain ⟨found, tail, -, -, ends, whole, rfl⟩ := mem_results_encodedQueryPattern.mp member
    have same := List.append_cancel_left whole
    rcases ends with rfl | rfl
    · rw [same, List.append_nil]
    · exact absurd (same ▸ by simp) noSlash
  rw [url, find_encodedQueryPattern, found]
  rfl

/-- The parameter is what the path has behind `/query`. -/
private theorem withoutSlashes_of_foundIn {url : List Char}
    (found : foundIn url "/query/:query".toList = some outcome) :
    ∃ part, part ≠ [] ∧ '/' ∉ part ∧ outcome.groups = [part] ∧
      withoutSlashes url = "query".toList ++ part := by
  rw [foundIn, replaceDynamicURLParts_encodedQuery, find_encodedQueryPattern,
    Option.filter_eq_some_iff] at found
  obtain ⟨part, tail, nonempty, noSlash, ends, whole, rfl⟩ :=
    mem_results_encodedQueryPattern.mp (RegExp.mem_of_exec found.1)
  refine ⟨part, nonempty, noSlash, rfl, ?_⟩
  have kept : withoutSlashes part = part :=
    List.filter_eq_self.mpr fun char member => bne_iff_ne.mpr fun same => noSlash (same ▸ member)
  have none : withoutSlashes tail = [] := by rcases ends with rfl | rfl <;> rfl
  have parts : withoutSlashes ("/query/".toList ++ (part ++ tail)) =
      withoutSlashes "/query/".toList ++ (withoutSlashes part ++ withoutSlashes tail) := by
    rw [withoutSlashes, List.filter_append, List.filter_append]
    rfl
  rw [← withoutSlashes_leadingSlashes, whole, parts, kept, none, List.append_nil]
  rfl

theorem paramNames_encodedQuery :
    paramNames "/query/:query".toList = ["query".toList] :=
  congrArg Prod.snd replaceDynamicURLParts_encodedQuery

end Patterns

end Router

/-! ## Round trips -/

namespace Page

variable {σ : Type} (editor : Editor σ) (origin : Origin)

/-- Navigating to the path of a query puts the query into the editor and executes what
the editor then holds. -/
def RoundTrips (depth : Nat) (query : List Char) (page : Page σ) : Prop :=
  ∃ path url queryPart parameter after,
    queryPath query = some path ∧
    navigate editor origin (depth + 1) path page =
      some (.route "/query/:query".toList url queryPart [("query".toList, parameter)], after) ∧
    atob parameter = some query ∧
    after.editor = editor.setValue query page.editor ∧
    after.requests = page.requests ++ [.query (editor.getValue after.editor)] ∧
    (editor.getValue after.editor = query → after.requests = page.requests ++ [.query query])

variable {editor origin} {query : List Char} {page : Page σ} {depth : Nat}

theorem exists_navigated {rest : List Char} (plain : '?' ∉ rest) (noEscape : '%' ∉ rest) :
    ∃ url queryPart defaultHandler location,
      Router.withoutSlashes url = "query".toList ++ Router.withoutSlashes rest ∧
      ('/' ∉ rest → rest ≠ [] → url = "/query/".toList ++ rest) ∧
      navigate editor origin (depth + 1) ("/query/".toList ++ rest) page =
        (router editor origin defaultHandler).call url queryPart { page with location }
          (Router.matched url (router editor origin defaultHandler).routes) := by
  let packetOverview := fun (_ : List Char) (page : Page σ) =>
    (navigate editor origin depth "/packets/50".toList page).map Prod.snd
  let home := router editor origin packetOverview
  obtain ⟨url, resolved, letters, exact_⟩ := @Router.exists_resolved _ origin home rfl 'q'
    ("uery/".toList ++ rest) (by decide)
  have same : ∀ char ≠ '/', char ∈ url → char ∈ "query/".toList ++ rest := fun char slash => by
    rw [← Router.mem_withoutSlashes slash, letters, Router.mem_withoutSlashes slash]
    exact id
  have question : '?' ∉ '/' :: url := by
    intro member
    have inside := same '?' (by decide) ((List.mem_cons.mp member).resolve_left (by decide))
    exact plain ((List.mem_append.mp inside).resolve_left (by decide))
  have escape : '%' ∉ '/' :: url := by
    intro member
    have inside := same '%' (by decide) ((List.mem_cons.mp member).resolve_left (by decide))
    exact noEscape ((List.mem_append.mp inside).resolve_left (by decide))
  let location := home.target ("/query/".toList ++ rest)
  refine ⟨'/' :: url, Router.extractGETParameters (Router.clean location), packetOverview,
    location, ?_, fun noSlash nonempty => ?_, ?_⟩
  · exact letters
  · have single : ('q' :: ("uery/".toList ++ rest)).count '/' ≤ 1 := by
      have none := List.count_eq_zero.mpr noSlash
      simp [none]
    have last : ('q' :: ("uery/".toList ++ rest)).getLast? ≠ some '/' := by
      intro ends
      rw [← List.cons_append, List.getLast?_append_of_ne_nil _ nonempty] at ends
      exact noSlash (List.mem_of_getLast? ends)
    rw [exact_ single last]
    rfl
  · exact home.resolve_of_notMem resolved question escape { page with location }

private theorem exists_routes (defaultHandler : List Char → Page σ → Option (Page σ)) :
    ∃ more, (router editor origin defaultHandler).routes =
      ⟨"/query".toList, onQuery editor⟩ :: ⟨"/query/:query".toList, onEncodedQuery editor⟩ ::
        more := by
  have first : encodeURI "/query".toList = "/query".toList := by decide
  have second : encodeURI "/query/:query".toList = "/query/:query".toList := by decide
  have routes : ∃ more, (router editor origin defaultHandler).routes =
      ⟨encodeURI "/query".toList, onQuery editor⟩ ::
        ⟨encodeURI "/query/:query".toList, onEncodedQuery editor⟩ :: more := ⟨_, rfl⟩
  rwa [first, second] at routes

/-- A path with one part behind `/query` leads to the query in this part. -/
private theorem exists_matched {part : List Char} (nonempty : part ≠ []) (noSlash : '/' ∉ part)
    (defaultHandler : List Char → Page σ → Option (Page σ)) :
    ∃ others, Router.matched ("/query/".toList ++ part)
      (router editor origin defaultHandler).routes =
        (⟨"/query/:query".toList, onEncodedQuery editor⟩, [("query".toList, part)]) ::
          others := by
  obtain ⟨more, routes⟩ := @exists_routes σ editor origin defaultHandler
  refine ⟨Router.matched ("/query/".toList ++ part) more, ?_⟩
  rw [routes]
  simp only [Router.matched, List.filterMap_cons, Router.foundIn_query nonempty,
    Router.foundIn_encodedQuery nonempty noSlash, Router.paramNames_encodedQuery]
  rfl

theorem RoundTrips.decodes (latin1 : Latin1 query)
    (trips : RoundTrips editor origin depth query page) :
    query ≠ [] ∧ atob (Router.withoutSlashes (Base64.encode (charCodes query))) = some query := by
  obtain ⟨path, _, _, parameter, after, built, navigated, decoded, -⟩ := trips
  rw [queryPath, btoa_eq latin1] at built
  obtain rfl : "/query/".toList ++ Base64.encode (charCodes query) = path := Option.some.inj built
  obtain ⟨url, queryPart, defaultHandler, location, letters, -, called⟩ :=
    @exists_navigated σ editor origin page depth _
      (Base64.question_notMem_encode (charCodes query))
      (Base64.escape_notMem_encode (charCodes query))
  rw [called] at navigated
  cases matched : Router.matched url (router editor origin defaultHandler).routes with
  | nil =>
      rw [matched] at navigated
      have default : (router editor origin defaultHandler).defaultHandler =
          some defaultHandler := rfl
      rw [Router.call, default] at navigated
      dsimp only at navigated
      split at navigated
      · obtain ⟨_, -, same⟩ := Option.map_eq_some_iff.mp navigated
        cases same
      · cases navigated
  | cons first more =>
      obtain ⟨route, params⟩ := first
      rw [matched] at navigated
      obtain ⟨_, -, same⟩ := Option.bind_eq_some_iff.mp navigated
      obtain ⟨name, -, -, params⟩ := Resolution.route.inj (Prod.mk.inj (Option.some.inj same)).1
      obtain ⟨other, -, matches_⟩ := List.mem_filterMap.mp (matched ▸ List.mem_cons_self)
      obtain ⟨outcome, found, same⟩ := Option.map_eq_some_iff.mp matches_
      obtain ⟨rfl, rfl⟩ := Prod.mk.inj same
      rw [name] at found params
      obtain ⟨part, nonempty, -, groups, whole⟩ := Router.withoutSlashes_of_foundIn found
      rw [groups, Router.paramNames_encodedQuery] at params
      obtain rfl : part = parameter := (Prod.mk.inj (List.cons.inj params).1).2
      have same := List.append_cancel_left (whole.symm.trans letters)
      refine ⟨fun empty => nonempty ?_, same ▸ decoded⟩
      rw [same, empty]
      rfl

/-- A query whose Base64 text has no slash is resolved to this text. -/
private theorem roundTrips_of_notMem (latin1 : Latin1 query) (nonempty : query ≠ [])
    (noSlash : '/' ∉ Base64.encode (charCodes query)) :
    RoundTrips editor origin depth query page := by
  have some : Base64.encode (charCodes query) ≠ [] := fun empty =>
    nonempty (List.map_eq_nil_iff.mp ((Base64.encode_eq_nil_iff _).mp empty))
  obtain ⟨url, queryPart, defaultHandler, location, -, exact_, called⟩ :=
    @exists_navigated σ editor origin page depth _
      (Base64.question_notMem_encode (charCodes query))
      (Base64.escape_notMem_encode (charCodes query))
  obtain ⟨others, matched⟩ := @exists_matched σ editor origin _ some noSlash defaultHandler
  have decoded := (atob_eq_some_iff latin1).mpr (Base64.decode_encode (charCodes query))
  have built : queryPath query =
      Option.some ("/query/".toList ++ Base64.encode (charCodes query)) := by
    rw [queryPath, btoa_eq latin1]
    rfl
  have handled : onEncodedQuery editor
      [("query".toList, Base64.encode (charCodes query))] queryPart { page with location } =
        Option.some ({ page with location }.showQuery editor query) := by
    have given : parameter [("query".toList, Base64.encode (charCodes query))] "query" =
        Base64.encode (charCodes query) := by
      rw [parameter, List.lookup_cons_self]
      rfl
    rw [onEncodedQuery, given, decoded]
    rfl
  refine ⟨_, url, queryPart, _, { page with location }.showQuery editor query, built, ?_,
    decoded, rfl, rfl, fun same => ?_⟩
  · rw [called, exact_ noSlash some, matched, Router.call]
    dsimp only
    rw [handled]
    rfl
  · exact congrArg (page.requests ++ [ApiRequest.query ·]) same

end Page

/-- The path of a query leads back to the query exactly when the query is not empty and
no six bits of its Base64 text are all ones, which is the digit that is a slash. -/
theorem bookmark_roundTrips_iff {σ : Type} (editor : Editor σ) (origin : Origin) (depth : Nat)
    {query : List Char} (latin1 : Latin1 query) (page : Page σ) :
    Page.RoundTrips editor origin depth query page ↔
      query ≠ [] ∧ ∀ sextet ∈ Base64.sextets (charCodes query), sextet ≠ 63 := by
  constructor
  · intro trips
    obtain ⟨nonempty, decoded⟩ := trips.decodes latin1
    refine ⟨nonempty, fun sextet member full => ?_⟩
    have kept := Base64.decode_filter ((atob_eq_some_iff latin1).mp decoded) sextet member
    rw [(Base64.digit_eq_slash_iff sextet).mpr full] at kept
    cases kept
  · rintro ⟨nonempty, other⟩
    exact Page.roundTrips_of_notMem latin1 nonempty (Base64.slash_notMem_encode other)

def Editor.sample : Editor (List Char) where
  getValue := id
  setValue text _ := text

def Origin.sample : Origin where
  secure := false
  host := "localhost:7070".toList
  nonempty := by decide
  noSlash := by decide
  noColon := by decide

def Page.sample : Page (List Char) where
  location := "http://localhost:7070/".toList
  editor := []
  requests := []
  activePage := "home".toList

theorem bookmark_roundTrips_select :
    Page.RoundTrips .sample .sample 0 "select 1".toList .sample :=
  (bookmark_roundTrips_iff .sample .sample 0 (by decide) .sample).mpr
    ⟨by decide, by decide +kernel⟩

/-- The last six bits of `'?` and the characters before are all ones, so that a slash
stands in the path and no route matches. -/
theorem bookmark_not_roundTrips :
    ¬∀ (σ : Type) (editor : Editor σ) (origin : Origin) (depth : Nat) (query : List Char),
      Latin1 query → ∀ page : Page σ, Page.RoundTrips editor origin depth query page := by
  intro trips
  obtain ⟨path, _, _, _, _, built, navigated, -⟩ :=
    trips _ .sample .sample 0 "select '?'".toList (by decide) .sample
  have pushed : some "/query/c2VsZWN0ICc/Jw==".toList = some path :=
    (show some _ = Page.queryPath "select '?'".toList by decide +kernel).trans built
  have unmatched : (Page.navigate .sample .sample 1 "/query/c2VsZWN0ICc/Jw==".toList
      Page.sample).map Prod.fst = some .unmatched := by decide +kernel
  rw [Option.some.inj pushed, navigated] at unmatched
  cases unmatched

end Nanocap
