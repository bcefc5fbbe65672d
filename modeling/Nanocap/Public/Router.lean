import Nanocap.Foundation.RegExp
import Nanocap.Util.Encoding

/-! # The router of the web pages

`app_router.js`. A text is the list of its characters. No route has hooks, no handler
for unknown paths is set, and no caller asks for an absolute path. -/

namespace Nanocap

/-! ## Texts -/

/-- `replace` of a text that goes where it occurs first. -/
def removeText (part : List Char) : List Char → List Char
  | [] => []
  | char :: rest =>
      if part <+: char :: rest then (char :: rest).drop part.length
      else char :: removeText part rest

/-- What `encodeURI` leaves as it is. -/
def isUriChar (char : Char) : Bool :=
  RegExp.isWord char || "-.!~*'();/?:@&=+$,#".toList.contains char

def encodeURI (text : List Char) : List Char :=
  text.flatMap fun char =>
    if isUriChar char then [char]
    else (String.utf8EncodeChar char).flatMap fun byte => '%' :: (toHex [byte]).toList

def hexDigitValue (char : Char) : Option Nat :=
  if '0' ≤ char ∧ char ≤ '9' then some (char.toNat - 48)
  else if 'A' ≤ char ∧ char ≤ 'F' then some (char.toNat - 55)
  else if 'a' ≤ char ∧ char ≤ 'f' then some (char.toNat - 87)
  else none

/-- The bytes of a text in UTF-8, with those that are written as `%` and two digits. -/
def percentDecode : List Char → Option (List UInt8)
  | [] => some []
  | '%' :: high :: low :: rest => do
      let high ← hexDigitValue high
      let low ← hexDigitValue low
      return UInt8.ofNat (16 * high + low) :: (← percentDecode rest)
  | '%' :: _ => none
  | char :: rest => do
      return String.utf8EncodeChar char ++ (← percentDecode rest)

/-- `none` is the exception. -/
def decodeURIComponent (text : List Char) : Option (List Char) := do
  let bytes ← percentDecode text
  return (← bytes.toByteArray.utf8Decode?).toList

private theorem percentDecode_of_notMem {text : List Char} (plain : '%' ∉ text) :
    percentDecode text = some (text.flatMap String.utf8EncodeChar) := by
  induction text with
  | nil => rfl
  | cons char rest induction =>
      have different : char ≠ '%' := fun same => plain (same ▸ List.mem_cons_self)
      have later := induction fun member => plain (List.mem_cons_of_mem char member)
      rw [percentDecode, later]
      · rfl
      · exact fun _ _ _ same _ => different same
      · exact fun same => different same

private theorem decodeURIComponent_of_notMem {text : List Char} (plain : '%' ∉ text) :
    decodeURIComponent text = some text := by
  have decodes : (text.flatMap String.utf8EncodeChar).toByteArray.utf8Decode? =
      some text.toArray := List.utf8Decode?_utf8Encode
  rw [decodeURIComponent, percentDecode_of_notMem plain]
  simp [decodes]

/-! ## The address of the pages -/

/-- Where the pages come from. The host may have a port. -/
structure Origin where
  secure : Bool
  host : List Char
  nonempty : host ≠ []
  noSlash : '/' ∉ host
  noColon : host.getLast? ≠ some ':'

namespace Origin

variable (origin : Origin)

def protocol : List Char := if origin.secure then "https:".toList else "http:".toList

end Origin

/-! ## Routes -/

abbrev Params := List (List Char × List Char)

/-- A handler gets the parameters and the query part; `none` is an exception. -/
structure Route (σ : Type) where
  route : List Char
  handler : Params → List Char → σ → Option σ

structure Router (σ : Type) where
  root : List Char
  routes : List (Route σ)
  defaultHandler : Option (List Char → σ → Option σ)

/-- What is known of the route resolved last. -/
inductive Resolution where
  | route (route : List Char) (url query : List Char) (params : Params)
  | default (url query : List Char)
  | unmatched
deriving DecidableEq

namespace Router

variable {σ : Type}

/-! The patterns of the source -/

/-- `/\/$/` -/
def finalSlash : RegExp := .andThen (.char '/') .finish

/-- `/^\/+/` -/
def leadingSlashes : RegExp := .andThen .start (.repeated 1 (· == '/'))

/-- `/\/+$/` -/
def trailingSlashes : RegExp := .andThen (.repeated 1 (· == '/')) .finish

/-- `/([^:])(\/{2,})/g` -/
def doubledSlashes : RegExp :=
  .andThen (.group (.one (· != ':'))) (.group (.repeated 2 (· == '/')))

/-- `/\?(.*)?$/` -/
def queryPart : RegExp :=
  .andThen (.char '?')
    (.andThen (.orElse (.group (.repeated 0 RegExp.dot)) .empty) .finish)

/-- `/([:*])(\w+)/g` -/
def parameterRegexp : RegExp :=
  .andThen (.group (.one fun char => char == ':' || char == '*'))
    (.group (.repeated 1 RegExp.isWord))

/-- `([^\/]+)` -/
def replaceVariableRegexp : RegExp := .group (.repeated 1 (· != '/'))

/-- `(?:.*)` -/
def replaceWildcard : RegExp := .repeated 0 RegExp.dot

/-- `(?:\/$|$)` -/
def followedBySlashRegexp : RegExp := .orElse (.andThen (.char '/') .finish) .finish

/-! The router -/

def create (origin : Origin) : Router σ where
  root := finalSlash.replaceFirst [] (origin.protocol ++ "//".toList ++ origin.host)
  routes := []
  defaultHandler := none

/-- `on` for all paths but `/`, whose handler is the default handler. -/
def on (router : Router σ) (route : List Char) (handler : Params → List Char → σ → Option σ) :
    Router σ :=
  { router with routes := router.routes ++ [⟨encodeURI route, handler⟩] }

/-- `replace` of `doubledSlashes` by `$1/`. -/
def collapseSlashes (text : List Char) : List Char :=
  doubledSlashes.replaceAll (fun outcome => outcome.groups.headD [] ++ ['/']) text

/-- The address that `navigate` pushes. -/
def target (router : Router σ) (path : List Char) : List Char :=
  collapseSlashes (router.root ++ ['/'] ++ leadingSlashes.replaceFirst ['/'] path)

def clean (text : List Char) : List Char :=
  leadingSlashes.replaceFirst "^/".toList (trailingSlashes.replaceFirst [] text)

def extractGETParameters (url : List Char) : List Char := ((queryPart.split url).drop 1).flatten

def getOnlyURL (url : List Char) : List Char := (queryPart.split url).headD []

def regExpResultToParams (groups names : List (List Char)) : Option Params :=
  if names = [] then some []
  else (groups.mapM decodeURIComponent).map names.zip

/-- A character of a pattern that is built from a route. Of those that are not taken
literally, the routes have only `^` and `*`. -/
def routeChar (char : Char) : RegExp :=
  if char = '^' then .start else if char = '*' then replaceWildcard else .char char

def replaceDynamicURLParts (route : List Char) : RegExp × List (List Char) :=
  let pieces := parameterRegexp.pieces 0 true route
  let patterns := pieces.map fun
    | .kept char => routeChar char
    | .found _ => replaceVariableRegexp
  let paramNames := pieces.filterMap fun
    | .kept _ => none
    | .found outcome => outcome.groups[1]?
  (.sequence (patterns ++ [followedBySlashRegexp]), paramNames)

def matchRoute (url : List Char) (route : Route σ) : Option (Option Params) :=
  let (regexp, paramNames) := replaceDynamicURLParts (clean route.route)
  match regexp.find (leadingSlashes.replaceFirst ['/'] url) with
  | none => some none
  | some found => (regExpResultToParams found.groups paramNames).map some

def findMatchedRoutes (url : List Char) (routes : List (Route σ)) :
    Option (List (Route σ × Params)) := do
  let matched ← routes.mapM fun route => return (← matchRoute url route).map fun params =>
    (route, params)
  return matched.filterMap id

def call (router : Router σ) (url query : List Char) (page : σ) :
    List (Route σ × Params) → Option (Resolution × σ)
  | (route, params) :: _ => do
      return (.route route.route url query params, ← route.handler params query page)
  | [] =>
      match router.defaultHandler with
      | none => some (.unmatched, page)
      | some handler =>
          if url = [] ∨ url = ['/'] then (handler query page).map (Resolution.default url query, ·)
          else some (.unmatched, page)

def resolve (router : Router σ) (location : List Char) (page : σ) : Option (Resolution × σ) := do
  let url := removeText router.root (clean location)
  let query := extractGETParameters (clean location)
  let onlyURL := getOnlyURL url
  router.call onlyURL query page (← findMatchedRoutes onlyURL router.routes)

/-! ## What the patterns replace -/

def withoutSlashes (text : List Char) : List Char := text.filter (· != '/')

theorem withoutSlashes_slashes {text : List Char} (each : ∀ char ∈ text, (char == '/') = true) :
    withoutSlashes text = [] :=
  List.filter_eq_nil_iff.mpr fun char member => by simpa using each char member

section Doubled

variable {char next : Char} {rest text : List Char}

theorem results_doubledSlashes {atStart : Bool} (safe : char = ':' ∨ ¬['/', '/'] <+: rest) :
    doubledSlashes.results atStart (char :: rest) = [] := by
  refine RegExp.results_eq_nil fun outcome member => ?_
  obtain ⟨front, early, back, late, -⟩ := RegExp.mem_results_andThen.mp member
  obtain ⟨one, single, rfl⟩ := RegExp.mem_results_group.mp early
  obtain ⟨inner, slashes, -⟩ := RegExp.mem_results_group.mp late
  obtain ⟨first, other, whole, -, -⟩ := RegExp.mem_results_one.mp single
  obtain ⟨split, each, two, -⟩ := RegExp.mem_results_repeated.mp slashes
  obtain ⟨rfl, tail⟩ := List.cons.inj whole
  rcases safe with rfl | safe
  · cases other
  · refine safe ⟨inner.matched.drop 2 ++ inner.rest, ?_⟩
    obtain ⟨left, more, equal⟩ := List.exists_cons_of_length_pos (Nat.lt_of_succ_lt two)
    rw [equal] at each two split
    obtain ⟨right, most, rfl⟩ := List.exists_cons_of_length_pos (Nat.lt_of_succ_lt_succ two)
    have slash := beq_iff_eq.mp (each left List.mem_cons_self)
    have another := beq_iff_eq.mp (each right (List.mem_cons_of_mem _ List.mem_cons_self))
    rw [tail, equal, slash, another]
    exact (split.trans (by rw [slash, another]; rfl)).symm

theorem collapseSlashes_atStart (text : List Char) :
    doubledSlashes.pieces 0 false text = doubledSlashes.pieces 0 true text := by
  cases text <;> rfl

theorem collapseSlashes_cons (safe : char = ':' ∨ ¬['/', '/'] <+: rest) :
    collapseSlashes (char :: rest) = char :: collapseSlashes rest := by
  rw [collapseSlashes, RegExp.replaceAll, RegExp.pieces_kept (results_doubledSlashes safe),
    collapseSlashes_atStart]
  rfl

private theorem collapseSlashes_doubled (colon : char ≠ ':') (slash : next ≠ '/') :
    collapseSlashes (char :: '/' :: '/' :: next :: rest) =
      char :: '/' :: collapseSlashes (next :: rest) := by
  have found : doubledSlashes.exec true (char :: '/' :: '/' :: next :: rest) =
      some ⟨[char, '/', '/'], next :: rest, [[char], ['/', '/']]⟩ := by
    simp [RegExp.exec, doubledSlashes, RegExp.results, colon, slash, List.inits]
  rw [collapseSlashes, RegExp.replaceAll, RegExp.pieces_found found, collapseSlashes_atStart]
  rfl

private theorem collapseSlashes_of_count (single : text.count '/' ≤ 1) :
    collapseSlashes text = text := by
  refine RegExp.replaceAll_of_nothing fun before char after whole => ?_
  refine results_doubledSlashes (.inr fun doubled => ?_)
  obtain ⟨more, rfl⟩ := doubled
  rw [whole] at single
  simp only [List.count_append, List.count_cons, List.count_nil, beq_self_eq_true,
    if_true] at single
  omega

theorem withoutSlashes_collapseSlashes (text : List Char) :
    withoutSlashes (collapseSlashes text) = withoutSlashes text := by
  refine RegExp.filter_replaceAll (fun fromStart behind outcome member => ?_) text
  obtain ⟨front, early, back, late, rfl⟩ := RegExp.mem_results_andThen.mp member
  obtain ⟨one, -, rfl⟩ := RegExp.mem_results_group.mp early
  obtain ⟨inner, slashes, rfl⟩ := RegExp.mem_results_group.mp late
  obtain ⟨-, each, -, -⟩ := RegExp.mem_results_repeated.mp slashes
  have none : inner.matched.filter (· != '/') = [] := withoutSlashes_slashes each
  rw [List.filter_append, List.filter_append, none]
  rfl

end Doubled

section Outer

variable {char : Char} {text : List Char}

private theorem results_trailingSlashes {atStart : Bool} (other : ∃ char ∈ text, char ≠ '/') :
    trailingSlashes.results atStart text = [] := by
  refine RegExp.results_eq_nil fun outcome member => ?_
  obtain ⟨front, early, back, late, -⟩ := RegExp.mem_results_andThen.mp member
  obtain ⟨split, each, -, -⟩ := RegExp.mem_results_repeated.mp early
  obtain ⟨char, inside, different⟩ := other
  rw [split, (RegExp.mem_results_finish.mp late).1, List.append_nil] at inside
  exact different (beq_iff_eq.mp (each char inside))

private theorem exec_trailingSlashes (count : Nat) :
    trailingSlashes.exec false ('/' :: List.replicate count '/') =
      some ⟨'/' :: List.replicate count '/', [], []⟩ := by
  refine RegExp.exec_of_unique ?_ fun other member => ?_
  · refine RegExp.mem_results_andThen.mpr ⟨⟨'/' :: List.replicate count '/', [], []⟩,
      RegExp.mem_results_repeated.mpr ⟨by simp, ?_, by simp, rfl⟩, ⟨[], [], []⟩,
      RegExp.mem_results_finish.mpr ⟨rfl, rfl⟩, by simp⟩
    intro slash member
    simpa using List.eq_of_mem_replicate (n := count + 1) member
  · obtain ⟨front, early, back, late, rfl⟩ := RegExp.mem_results_andThen.mp member
    obtain ⟨split, -, -, groups⟩ := RegExp.mem_results_repeated.mp early
    obtain ⟨nothing, rfl⟩ := RegExp.mem_results_finish.mp late
    rw [nothing, List.append_nil] at split
    rw [groups, List.append_nil, ← split]
    rfl

private theorem trailingSlashes_replaceFirst (front : List Char) (slash : char ≠ '/')
    (count : Nat) :
    trailingSlashes.replaceFirst [] (front ++ char :: List.replicate count '/') =
      front ++ [char] := by
  have kept := @RegExp.pieces_append trailingSlashes true (front ++ [char])
    (List.replicate count '/') fun before first after whole => by
      refine results_trailingSlashes ⟨char, List.mem_append_left _ ?_, slash⟩
      have last := congrArg List.getLast? whole
      rw [List.getLast?_concat, List.getLast?_append_of_ne_nil _ (List.cons_ne_nil _ _)] at last
      exact List.mem_of_getLast? last.symm
  have behind : RegExp.replaceFirst.go []
      (trailingSlashes.pieces 0 (true && (front ++ [char]).isEmpty) (List.replicate count '/')) =
        [] := by
    cases count with
    | zero => rfl
    | succ count =>
        have start : (true && (front ++ [char]).isEmpty) = false := by simp
        rw [start, List.replicate_succ, RegExp.pieces_found (exec_trailingSlashes count)]
        rfl
  rw [RegExp.replaceFirst, List.append_cons, kept, RegExp.replaceFirst_go_kept, behind,
    List.append_nil]

private theorem results_leadingSlashes_later (text : List Char) :
    leadingSlashes.results false text = [] := by
  refine RegExp.results_eq_nil fun outcome member => ?_
  obtain ⟨front, early, -⟩ := RegExp.mem_results_andThen.mp member
  cases (RegExp.mem_results_start.mp early).1

private theorem leadingSlashes_replaceFirst {replacement : List Char}
    (slash : text.head? ≠ some '/') :
    leadingSlashes.replaceFirst replacement text = text := by
  refine RegExp.replaceFirst_of_nothing fun before char after whole => ?_
  cases before with
  | cons first before => exact results_leadingSlashes_later _
  | nil =>
      refine RegExp.results_eq_nil fun outcome member => ?_
      obtain ⟨front, early, back, late, -⟩ := RegExp.mem_results_andThen.mp member
      obtain ⟨-, rfl⟩ := RegExp.mem_results_start.mp early
      obtain ⟨split, each, some, -⟩ := RegExp.mem_results_repeated.mp late
      obtain ⟨first, more, equal⟩ := List.exists_cons_of_length_pos some
      rw [equal] at split each
      have same := beq_iff_eq.mp (each first List.mem_cons_self)
      refine slash ?_
      rw [whole, ← same]
      exact congrArg List.head? split

theorem leadingSlashes_single {rest : List Char} (slash : char ≠ '/') :
    leadingSlashes.replaceFirst ['/'] ('/' :: char :: rest) = '/' :: char :: rest := by
  have found : leadingSlashes.exec true ('/' :: char :: rest) =
      some ⟨['/'], char :: rest, []⟩ := by
    simp [RegExp.exec, leadingSlashes, RegExp.results, slash, List.inits]
  rw [RegExp.replaceFirst, RegExp.pieces_found found, RegExp.replaceFirst.go,
    RegExp.flatMap_pieces]
  rfl

theorem withoutSlashes_leadingSlashes (text : List Char) :
    withoutSlashes (leadingSlashes.replaceFirst ['/'] text) = withoutSlashes text := by
  refine RegExp.filter_replaceFirst (fun fromStart behind outcome member => ?_) text
  obtain ⟨front, early, back, late, rfl⟩ := RegExp.mem_results_andThen.mp member
  obtain ⟨-, rfl⟩ := RegExp.mem_results_start.mp early
  obtain ⟨-, each, -, -⟩ := RegExp.mem_results_repeated.mp late
  exact (withoutSlashes_slashes each).symm

private theorem getOnlyURL_of_notMem (plain : '?' ∉ text) : getOnlyURL text = text := by
  rw [getOnlyURL, RegExp.split_of_nothing]
  · rfl
  · intro before char after whole
    refine RegExp.results_eq_nil fun outcome member => ?_
    obtain ⟨front, early, -⟩ := RegExp.mem_results_andThen.mp member
    obtain ⟨first, same, equal, -⟩ := RegExp.mem_results_one.mp early
    refine plain ?_
    rw [whole, (List.cons.inj equal).1, beq_iff_eq.mp same]
    simp

private theorem removeText_append {part : List Char} (some : part ≠ []) (rest : List Char) :
    removeText part (part ++ rest) = rest := by
  obtain ⟨first, more, rfl⟩ := List.exists_cons_of_ne_nil some
  rw [List.cons_append, removeText, ← List.cons_append, if_pos (List.prefix_append _ _),
    List.drop_left]

private theorem exists_trimmed (other : ∃ char ∈ text, char ≠ '/') :
    ∃ front char count, text = front ++ char :: List.replicate count '/' ∧ char ≠ '/' := by
  induction text using List.reverseRecOn with
  | nil =>
      obtain ⟨char, none, -⟩ := other
      cases none
  | append_singleton text last induction =>
      by_cases slash : last = '/'
      · obtain ⟨char, member, different⟩ := other
        have inside : char ∈ text := (List.mem_append.mp member).resolve_right fun single =>
          different ((List.mem_singleton.mp single).trans slash)
        obtain ⟨front, char, count, rfl, different⟩ := induction ⟨char, inside, different⟩
        refine ⟨front, char, count + 1, ?_, different⟩
        rw [slash, List.replicate_succ', List.append_assoc, List.cons_append]
      · exact ⟨text, last, 0, rfl, slash⟩

end Outer

theorem mem_withoutSlashes {char : Char} {text : List Char} (slash : char ≠ '/') :
    char ∈ withoutSlashes text ↔ char ∈ text := by
  simp [withoutSlashes, slash]

/-! ## Addresses under the root -/

section Addresses

variable (origin : Origin)

theorem create_root :
    (create origin : Router σ).root = origin.protocol ++ ['/', '/'] ++ origin.host := by
  refine RegExp.replaceFirst_of_nothing fun before char after whole => ?_
  refine RegExp.results_eq_nil fun outcome member => ?_
  obtain ⟨front, early, back, late, -⟩ := RegExp.mem_results_andThen.mp member
  obtain ⟨first, same, equal, -⟩ := RegExp.mem_results_one.mp early
  obtain ⟨rfl, rest⟩ := List.cons.inj equal
  obtain rfl := rest.trans (RegExp.mem_results_finish.mp late).1
  have last := congrArg List.getLast? whole
  rw [List.getLast?_append_of_ne_nil _ origin.nonempty, List.getLast?_concat] at last
  exact origin.noSlash (beq_iff_eq.mp same ▸ List.mem_of_getLast? last)

private theorem collapseSlashes_host {host : List Char} {next : Char} (nonempty : host ≠ [])
    (noSlash : '/' ∉ host) (noColon : host.getLast? ≠ some ':') (slash : next ≠ '/')
    (rest : List Char) :
    collapseSlashes (host ++ '/' :: '/' :: next :: rest) =
      host ++ '/' :: collapseSlashes (next :: rest) := by
  induction host with
  | nil => exact absurd rfl nonempty
  | cons char host induction =>
      cases host with
      | nil => exact collapseSlashes_doubled (fun colon => noColon (by rw [colon]; rfl)) slash
      | cons other host =>
          have later := induction (List.cons_ne_nil _ _)
            (fun member => noSlash (List.mem_cons_of_mem _ member)) noColon
          rw [List.cons_append, collapseSlashes_cons, later]
          · rfl
          · refine .inr fun doubled => noSlash ?_
            obtain ⟨more, equal⟩ := doubled
            rw [(List.cons.inj equal).1]
            simp

private theorem collapseSlashes_root {next : Char} (slash : next ≠ '/') (rest : List Char) :
    collapseSlashes ((create origin : Router σ).root ++ '/' :: '/' :: next :: rest) =
      (create origin : Router σ).root ++ '/' :: collapseSlashes (next :: rest) := by
  obtain ⟨first, more, host⟩ := List.exists_cons_of_ne_nil origin.nonempty
  have different : first ≠ '/' := fun same => origin.noSlash (by rw [host, same]; simp)
  have behind := collapseSlashes_host origin.nonempty origin.noSlash origin.noColon slash rest
  rw [host, List.cons_append] at behind
  rw [create_root, host]
  cases secure : origin.secure <;>
    simp [Origin.protocol, secure, collapseSlashes_cons, different.symm, behind]

variable {router : Router σ} (root : router.root = (create origin : Router σ).root)
include root

theorem exists_resolved {next : Char} {rest : List Char} (slash : next ≠ '/') :
    ∃ url, removeText router.root (clean (router.target ('/' :: next :: rest))) = '/' :: url ∧
      withoutSlashes url = withoutSlashes (next :: rest) ∧
      ((next :: rest).count '/' ≤ 1 → (next :: rest).getLast? ≠ some '/' → url = next :: rest) := by
  have some : ∃ char ∈ collapseSlashes (next :: rest), char ≠ '/' := by
    refine ⟨next, (mem_withoutSlashes slash).mp ?_, slash⟩
    rw [withoutSlashes_collapseSlashes]
    exact (mem_withoutSlashes slash).mpr List.mem_cons_self
  obtain ⟨front, char, count, collapsed, different⟩ := exists_trimmed some
  have target : router.target ('/' :: next :: rest) =
      (router.root ++ '/' :: front) ++ char :: List.replicate count '/' := by
    rw [Router.target, leadingSlashes_single slash, root, List.append_assoc]
    exact (collapseSlashes_root origin slash rest).trans (by rw [collapsed]; simp)
  have head : ∀ text, (router.root ++ text).head? ≠ Option.some '/' := by
    intro text
    rw [root, create_root, Origin.protocol]
    cases origin.secure <;> simp
  have nonempty : router.root ≠ [] := fun empty => by
    rw [create_root, Origin.protocol] at root
    rw [empty] at root
    cases secure : origin.secure <;> simp [secure] at root
  refine ⟨front ++ [char], ?_, ?_, fun single last => ?_⟩
  · rw [target, clean, trailingSlashes_replaceFirst _ different, List.append_assoc,
      leadingSlashes_replaceFirst (head _), removeText_append nonempty]
    rfl
  · rw [← withoutSlashes_collapseSlashes (next :: rest), collapsed]
    have none : (List.replicate count '/').filter (· != '/') = [] :=
      withoutSlashes_slashes fun slash member => by simp [List.eq_of_mem_replicate member]
    simp only [withoutSlashes, List.filter_append, List.filter_cons, List.filter_nil, none]
  · rw [collapseSlashes_of_count single] at collapsed
    rw [collapsed] at last ⊢
    cases count with
    | zero => rfl
    | succ count =>
        refine absurd ?_ last
        rw [List.replicate_succ', ← List.cons_append, ← List.append_assoc, List.getLast?_concat]

end Addresses

/-! ## Routes that match -/

section Matches

variable {url : List Char}

def foundIn (url route : List Char) : Option RegExp.Outcome :=
  (replaceDynamicURLParts (clean route)).1.find (leadingSlashes.replaceFirst ['/'] url)

def paramNames (route : List Char) : List (List Char) := (replaceDynamicURLParts (clean route)).2

private theorem mapM_decodeURIComponent {groups : List (List Char)}
    (plain : ∀ group ∈ groups, '%' ∉ group) : groups.mapM decodeURIComponent = some groups := by
  induction groups with
  | nil => rfl
  | cons group groups induction =>
      have first := decodeURIComponent_of_notMem (plain group List.mem_cons_self)
      have later := induction fun other member => plain other (List.mem_cons_of_mem _ member)
      simp [first, later]

private theorem matchRoute_of_notMem (plain : '%' ∉ url) (route : Route σ) :
    matchRoute url route =
      some ((foundIn url route.route).map fun found =>
        (paramNames route.route).zip found.groups) := by
  unfold matchRoute
  change (match foundIn url route.route with
    | none => some none
    | some found => (regExpResultToParams found.groups (paramNames route.route)).map some) = _
  cases found : foundIn url route.route with
  | none => rfl
  | some outcome =>
      have member : '%' ∉ leadingSlashes.replaceFirst ['/'] url := by
        rwa [← mem_withoutSlashes (by decide), withoutSlashes_leadingSlashes,
          mem_withoutSlashes (by decide)]
      have groups : outcome.groups.mapM decodeURIComponent = some outcome.groups := by
        obtain ⟨piece, inside, same⟩ := List.exists_of_findSome?_eq_some found
        cases piece with
        | kept char => cases same
        | found other =>
            obtain rfl := Option.some.inj same
            obtain ⟨fromStart, behind, inside, part⟩ := RegExp.exists_of_found inside
            exact mapM_decodeURIComponent fun group found escape =>
              member (part (RegExp.groups_subset inside group found escape))
      dsimp only
      rw [regExpResultToParams, groups]
      split
      · rename_i none
        rw [none]
        rfl
      · rfl

def matched (url : List Char) (routes : List (Route σ)) : List (Route σ × Params) :=
  routes.filterMap fun route => (foundIn url route.route).map fun found =>
    (route, (paramNames route.route).zip found.groups)

private theorem findMatchedRoutes_of_notMem (plain : '%' ∉ url) (routes : List (Route σ)) :
    findMatchedRoutes url routes = some (matched url routes) := by
  have all : (routes.mapM fun route => do
      return (← matchRoute url route).map fun params => (route, params)) =
      some (routes.map fun route => (foundIn url route.route).map fun found =>
        (route, (paramNames route.route).zip found.groups)) := by
    induction routes with
    | nil => rfl
    | cons route routes induction =>
        rw [List.mapM_cons, matchRoute_of_notMem plain, induction]
        simp [Function.comp_def]
  rw [findMatchedRoutes, all]
  simp [matched, List.filterMap_map]

/-- A path without escapes and query part is resolved as it is. -/
theorem resolve_of_notMem (router : Router σ) {location : List Char}
    (behind : removeText router.root (clean location) = url) (question : '?' ∉ url)
    (plain : '%' ∉ url) (page : σ) :
    router.resolve location page =
      router.call url (extractGETParameters (clean location)) page (matched url router.routes) := by
  rw [resolve, behind, getOnlyURL_of_notMem question, findMatchedRoutes_of_notMem plain]
  rfl

end Matches

end Router

end Nanocap
