import Nanocap.Foundation.FileTree

/-! # Static files

The default resource of the web server answers the requests that no other resource
matches with the files of the directory `public`. -/

namespace Nanocap

/-! ## Paths -/

/-- Of `boost::filesystem::path`; a path is the text it was made of. -/
abbrev Path := List Char

namespace Path

/-- `operator/`, which appends also what starts with a slash. -/
def append (path other : Path) : Path :=
  match other with
  | [] => path
  | '/' :: _ => path ++ other
  | _ => if path = [] ∨ path.getLast? = some '/' then path ++ other else path ++ '/' :: other

/-- What the iterators go through: the root directory, the names, and a dot for a
slash at the end. -/
def elements (path : Path) : List FileName :=
  let names := (path.splitOn '/').filter (· ≠ [])
  (if path.head? = some '/' then [['/']] else []) ++ names ++
    (if names ≠ [] ∧ path.getLast? = some '/' then [FileName.dot] else [])

def filename (path : Path) : FileName := path.elements.getLastD []

def extension (path : Path) : List Char :=
  let name := path.filename
  if name = FileName.dot ∨ name = FileName.dotDot ∨ '.' ∉ name then []
  else '.' :: (name.reverse.takeWhile (· ≠ '.')).reverse

end Path

/-! ## Answers -/

inductive Answer where
  /-- The contents of the file at the location. -/
  | file (location : Location) (contentType : Option String) (contents : List UInt8)
  /-- A header for the directory at the location; its contents cannot be read. -/
  | unreadable (location : Location) (contentType : Option String)
  /-- `client_error_bad_request` -/
  | badRequest (message : List Char)
deriving DecidableEq

def publicName : FileName := "public".toList

def indexName : FileName := "index.html".toList

/-- The working directory has a directory `public`. -/
structure WebRoot where
  tree : FileTree
  working : Location
  directory : tree.entry (working ++ [publicName]) = some .directory

namespace WebRoot

variable (webRoot : WebRoot)

def location : Location := webRoot.working ++ [publicName]

/-- `canonical("public")` -/
def path : Path := FileTree.pathname webRoot.location

def entryAt (path : Path) : Option Entry :=
  (webRoot.tree.resolve path).bind webRoot.tree.entry

/-- `boost::filesystem::is_directory` -/
def isDirectory (path : Path) : Bool := webRoot.entryAt path = some .directory

end WebRoot

def contentType (path : Path) : Option String :=
  if path.extension = ".html".toList then some "text/html"
  else if path.extension = ".css".toList then some "text/css"
  else if path.extension = ".js".toList then some "application/javascript"
  else if path.extension = ".png".toList then some "image/png"
  else none

def couldNotOpen (path : Path) (what : String) : Answer :=
  .badRequest ("Could not open path ".toList ++ path ++ ": ".toList ++ what.toList)

def WebRoot.send (webRoot : WebRoot) (path : Path) : Answer :=
  let path := if webRoot.isDirectory path then path.append indexName else path
  match webRoot.tree.resolve path with
  | none => couldNotOpen path "Could not read file"
  | some location =>
      match webRoot.tree.entry location with
      | some (.file contents) => .file location (contentType path) contents
      | _ => .unreadable location (contentType path)

def apiRoutes : List String :=
  ["/api/v1/status", "/api/v1/capture/query", "/api/v1/capture/start", "/api/v1/capture/stop",
    "/api/v1/capture/toggle", "/api/v1/capture/destroy", "/api/v1/count/packet",
    "/api/v1/schema", "/api/v1/count/per-type"]

/-! ## Where a request leads -/

section Resolve

variable {tree : FileTree} {path : Path} {location : Location}

end Resolve

/-! ## The check of the path -/

namespace WebRoot

variable (webRoot : WebRoot)

end WebRoot

namespace WebRoot

variable {webRoot : WebRoot}

section Send

variable {path : Path} {location : Location}
  (leads : webRoot.tree.resolve path = some location)
include leads

end Send

end WebRoot

def WebRoot.target (webRoot : WebRoot) (requestPath : Path) : Location :=
  ((cString requestPath).splitOn '/').foldl FileTree.follow webRoot.location

def secretName : FileName := "secret".toList

/-- A root directory with `secret`, `public` and an index in it. -/
def WebRoot.sample : WebRoot where
  tree := .ofListing
    [([secretName], .file [1]), ([publicName], .directory),
      ([publicName, indexName], .file [2])]
    (by decide +kernel)
  working := []
  directory := by decide +kernel

end Nanocap
