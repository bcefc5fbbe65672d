import Nanocap.Foundation.Base64
import Nanocap.Public.Router

/-! # The query page

`app_query.js` and the routes of `app.js`, `app_schema.js` and `app_config.js`. What
the answers of the server do to the page is left out. -/

namespace Nanocap

/-! ## Texts of the browser -/

def Latin1 (text : List Char) : Prop := ∀ char ∈ text, char.toNat < 256

instance (text : List Char) : Decidable (Latin1 text) :=
  List.decidableBAll (fun char : Char => char.toNat < 256) text

def charCodes (text : List Char) : List UInt8 := text.map fun char => UInt8.ofNat char.toNat

/-- `none` is the exception for other characters. -/
def btoa (text : List Char) : Option (List Char) :=
  if Latin1 text then some (Base64.encode (charCodes text)) else none

/-- `none` is the exception for what is not Base64. -/
def atob (text : List Char) : Option (List Char) :=
  (Base64.decode text).map fun bytes => bytes.map fun byte => Char.ofNat byte.toNat

/-! ## The page -/

/-- The text of the editor component, by the two methods the page calls. -/
structure Editor (σ : Type) where
  getValue : σ → List Char
  setValue : List Char → σ → σ

inductive ApiRequest where
  /-- `/api/v1/capture/query` -/
  | query (text : List Char)
  /-- `/api/v1/schema` -/
  | schema
deriving DecidableEq

/-- `location` is `window.location.href`, and `requests` are those sent so far. -/
structure Page (σ : Type) where
  location : List Char
  editor : σ
  requests : List ApiRequest
  activePage : List Char
deriving DecidableEq

namespace Page

variable {σ : Type} (editor : Editor σ)

def showPage (pageId : List Char) (page : Page σ) : Page σ := { page with activePage := pageId }

def execute (queryString : List Char) (page : Page σ) : Page σ :=
  { page with requests := page.requests ++ [.query queryString] }

def getQueryAndExecute (page : Page σ) : Page σ := page.execute (editor.getValue page.editor)

def setValue (text : List Char) (page : Page σ) : Page σ :=
  { page with editor := editor.setValue text page.editor }

def showQuery (text : List Char) (page : Page σ) : Page σ :=
  ((page.setValue editor text).getQueryAndExecute editor).showPage "page_home".toList

/-! Handlers -/

def parameter (params : Params) (name : String) : List Char :=
  (params.lookup name.toList).getD "undefined".toList

def onQuery (_ : Params) (_ : List Char) (page : Page σ) : Option (Page σ) :=
  let shown :=
    if editor.getValue page.editor = [] then
      (page.setValue editor "select * from packet limit 50".toList).getQueryAndExecute editor
    else page
  some (shown.showPage "page_home".toList)

def onEncodedQuery (params : Params) (_ : List Char) (page : Page σ) : Option (Page σ) := do
  return page.showQuery editor (← atob (parameter params "query"))

def onTemplate (text : Params → List Char) (params : Params) (_ : List Char) (page : Page σ) :
    Option (Page σ) :=
  some (page.showQuery editor (text params))

def onPackets : Params → List Char → Page σ → Option (Page σ) :=
  onTemplate editor fun params =>
    "select * from packet limit ".toList ++ parameter params "count"

def onPacket : Params → List Char → Page σ → Option (Page σ) :=
  onTemplate editor fun params =>
    "select * from packet where id = ".toList ++ parameter params "id"

def onFrontierRequest : Params → List Char → Page σ → Option (Page σ) :=
  onTemplate editor fun params =>
    "select * from frontier_request where id = ".toList ++ parameter params "id"

def onBulkPullRequest : Params → List Char → Page σ → Option (Page σ) :=
  onTemplate editor fun params =>
    "select * from bulk_pull_request where id = ".toList ++ parameter params "id"

def onFlow : Params → List Char → Page σ → Option (Page σ) :=
  onTemplate editor fun params =>
    "select * from connection where flowkey = ".toList ++ parameter params "flowkey"

def onTable : Params → List Char → Page σ → Option (Page σ) :=
  onTemplate editor fun params =>
    "select * from ".toList ++ parameter params "table" ++ " where id=".toList ++
      parameter params "id"

def onSchema (_ : Params) (_ : List Char) (page : Page σ) : Option (Page σ) :=
  let requested := { page with requests := page.requests ++ [ApiRequest.schema] }
  some (requested.showPage "page_schema".toList)

def onConfig (_ : Params) (_ : List Char) (page : Page σ) : Option (Page σ) :=
  some (page.showPage "page_config".toList)

/-! Navigation -/

variable (origin : Origin)

/-- The router after `init`, with the handler of `/` given. -/
def router (defaultHandler : List Char → Page σ → Option (Page σ)) : Router (Page σ) :=
  let home : Router (Page σ) := { Router.create origin with defaultHandler := some defaultHandler }
  let query := home
    |>.on "/query".toList (onQuery editor)
    |>.on "/query/:query".toList (onEncodedQuery editor)
    |>.on "/packets/:count".toList (onPackets editor)
    |>.on "/packet/:id".toList (onPacket editor)
    |>.on "/frontier_request/:id".toList (onFrontierRequest editor)
    |>.on "/bulk_pull_request/:id".toList (onBulkPullRequest editor)
    |>.on "/flow/:flowkey".toList (onFlow editor)
    |>.on "/:table/:id".toList (onTable editor)
  query
    |>.on "/schema".toList onSchema
    |>.on "/config".toList onConfig

/-- Push an address and resolve it. The handler of `/` navigates to the packets; `depth`
bounds how often a handler navigates. -/
def navigate : (depth : Nat) → (path : List Char) → Page σ → Option (Resolution × Page σ)
  | 0, _, _ => none
  | depth + 1, path, page =>
      let packetOverview := fun (_ : List Char) (page : Page σ) =>
        (navigate depth "/packets/50".toList page).map Prod.snd
      let router := router editor origin packetOverview
      let location := router.target path
      router.resolve location { page with location }

def queryPath (query : List Char) : Option (List Char) := do
  return "/query/".toList ++ (← btoa query)

end Page

end Nanocap
