import MetricQuery.Catalog.Json

/-!
# Loading a catalog

A catalog is loaded from a JSON text or from a file that holds one. Every table
must have a name that is not blank. A file may be missing, it may be there
without being readable as text, or its text may be refused; what was wrong with
the text is told together with the path of the file.

At start-up the catalog comes from its file, or from the sample if the file
gives none.
-/

namespace MetricQuery

/-- Why a text was refused as a catalog. -/
inductive CatalogFault where
  /-- The text is no JSON of a catalog. -/
  | notCatalog (fault : Json.Fault)
  /-- A table has a blank name. -/
  | blankName
  deriving DecidableEq

/-- The wording of a fault. -/
def CatalogFault.message : CatalogFault → String
  | notCatalog fault => "invalid catalog JSON: " ++ fault.message
  | blankName => "table with an empty name"

/-- What is found where a file should be. -/
inductive FileState where
  /-- There is no file. -/
  | absent
  /-- There is something that cannot be read, and why. -/
  | unreadable (reason : String)
  /-- There is a file with some bytes. -/
  | content (bytes : ByteArray)

/-- Why a catalog could not be loaded. -/
inductive LoadFault where
  /-- There is no file at the path. -/
  | notFound (path : String)
  /-- The file at the path cannot be read as text, and why. -/
  | unreadable (path reason : String)
  /-- A text that belongs to no file was refused. -/
  | inText (fault : CatalogFault)
  /-- The text of the file at the path was refused. -/
  | inFile (path : String) (fault : CatalogFault)
  deriving DecidableEq

/-- The wording of a fault. -/
def LoadFault.message : LoadFault → String
  | notFound path => "config error: catalog file not found: " ++ path
  | unreadable path reason =>
      "config error: cannot read catalog file " ++ path ++ ": " ++ reason
  | inText fault => "config error: " ++ fault.message
  | inFile path fault => "config error: " ++ fault.message ++ " (" ++ path ++ ")"

namespace Catalog

/-- The catalog that a JSON text holds. -/
def parse (text : String) : Except CatalogFault Catalog :=
  match Json.decode reader text with
  | .error fault => .error (.notCatalog fault)
  | .ok catalog =>
      if catalog.tables.any fun table => Text.isBlankText table.name then .error .blankName
      else .ok catalog

/-- The catalog that a text holds which belongs to no file. -/
def ofText (text : String) : Except LoadFault Catalog := (parse text).mapError .inText

/-- The reason why bytes that encode no text cannot be read. -/
def notText : String := "stream did not contain valid UTF-8"

/-- The catalog in the file at a path. -/
def ofFile (path : String) : FileState → Except LoadFault Catalog
  | .absent => .error (.notFound path)
  | .unreadable reason => .error (.unreadable path reason)
  | .content bytes =>
      match String.fromUTF8? bytes with
      | none => .error (.unreadable path notText)
      | some text => (parse text).mapError (.inFile path)

/-- The path of the catalog that is loaded at start-up. -/
def startPath : String := "catalog.json"

/-- The catalog at start-up, and what is noticed while it is loaded. -/
def atStart (file : FileState) : Catalog × List Event :=
  match ofFile startPath file with
  | .ok catalog =>
      (catalog, [{
        level := .info
        message := "loaded catalog"
        details := [("file", startPath), ("tables", toString catalog.tables.length)] }])
  | .error fault =>
      (sample, [{ level := .warn, message := fault.message ++ ", using the built-in catalog" }])

end Catalog

end MetricQuery
