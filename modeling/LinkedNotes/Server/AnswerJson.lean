import LinkedNotes.Server.Answer

/-!
# Answers as JSON

How answers and the messages that the server sends on its own are written.
-/

namespace LinkedNotes

namespace Json

/-- An object with the given fields. -/
def record (fields : List (String × Json)) : Json :=
  object (fields.map fun (name, value) => (name.toList, value))

/-- A fixed text. -/
def word (text : String) : Json :=
  .str text.toList

/-- A natural number. -/
def ofNat (n : Nat) : Json :=
  .int n

/-- A point. -/
def ofPoint (point : Point) : Json :=
  record [("line", ofNat point.line), ("character", ofNat point.col)]

/-- A range. -/
def ofRange (range : TextRange) : Json :=
  record [("start", ofPoint range.start), ("end", ofPoint range.stop)]

/-- A replacement of a range. -/
def ofReplacement (range : TextRange) (text : Text) : Json :=
  record [("range", ofRange range), ("newText", .str text)]

end Json

namespace CompletionItem

/-- The kind of an item that stands for a file. -/
def fileKind : Nat := 17

/-- The characters that take an item over. -/
def commitCharacters : List Text := ["]".toList]

/-- An item as JSON. -/
def toJson (item : CompletionItem) : Json :=
  Json.record <|
    [("label", .str item.label), ("kind", Json.ofNat fileKind),
      ("filterText", .str item.filterText), ("sortText", .str item.sortText),
      ("textEdit", Json.ofReplacement item.range item.label),
      ("commitCharacters", .arr (commitCharacters.map .str)),
      ("data", Json.record [("path", .str item.path.text)])] ++
    (if item.preselected then [("preselect", .bool true)] else [])

end CompletionItem

namespace Server

/-- The pattern of the files that the client is asked to watch. -/
def watchedPattern : Text := "**/*.\x7bmd,markdown,mdx,fountain,txt\x7d".toList

/-- What the server can do, with its name and version. -/
def capabilities : Json :=
  let changes := Json.record
    [("openClose", .bool true), ("change", Json.ofNat 2), ("save", .bool true)]
  let completion := Json.record
    [("triggerCharacters", .arr [Json.word "["]), ("resolveProvider", .bool true)]
  let commands := Json.record
    [("commands", .arr [.str newNoteCommand, .str newNoteFromSelectionCommand])]
  let anyFile := Json.record
    [("scheme", Json.word "file"), ("pattern", Json.record [("glob", Json.word "**/*")])]
  let renames := Json.record [("didRename", Json.record [("filters", .arr [anyFile])])]
  Json.record
    [("capabilities", Json.record
      [("textDocumentSync", changes), ("completionProvider", completion),
        ("definitionProvider", .bool true), ("referencesProvider", .bool true),
        ("executeCommandProvider", commands),
        ("workspace", Json.record [("fileOperations", renames)])]),
      ("serverInfo", Json.record
        [("name", Json.word "wikilinks"), ("version", Json.word "0.1.0")])]

end Server

namespace Answer

/-- A place in a document as JSON. -/
def placeToJson (uri : Uri) (range : TextRange) : Json :=
  Json.record [("uri", .str uri.toText), ("range", Json.ofRange range)]

/-- An answer as JSON. Completions are never complete, because their order depends on the whole
query. -/
def toJson : Answer → Json
  | nothing => .null
  | capabilities => Server.capabilities
  | completions items =>
    Json.record [("isIncomplete", .bool true), ("items", .arr (items.map CompletionItem.toJson))]
  | resolved item => item
  | places found => .arr (found.map fun (uri, range) => placeToJson uri range)
  | note uri created => Json.record [("uri", .str uri.toText), ("created", .bool created)]

end Answer

/-- The number of a gravity. -/
def Gravity.number : Gravity → Nat
  | .error => 1
  | .warning => 2
  | .info => 3

namespace Outgoing

/-- The method of a message to the client. -/
def method : Outgoing → Text
  | log _ _ => "window/logMessage".toList
  | display _ _ => "window/showMessage".toList
  | watchNotes => "client/registerCapability".toList
  | replace _ _ _ => "workspace/applyEdit".toList
  | suggest _ _ => "wikilinks/triggerSuggest".toList

/-- A text for the client or the user as JSON. -/
def textToJson (gravity : Gravity) (text : Text) : Json :=
  Json.record [("type", Json.ofNat gravity.number), ("message", .str text)]

/-- The request to watch the files of notes as JSON. -/
def watchToJson : Json :=
  let watcher := Json.record [("globPattern", .str Server.watchedPattern)]
  Json.record
    [("registrations", .arr
      [Json.record
        [("id", Json.word "wikilinks-watched-files"),
          ("method", Json.word "workspace/didChangeWatchedFiles"),
          ("registerOptions", Json.record [("watchers", .arr [watcher])])]])]

/-- The parameters of a message to the client as JSON. -/
def params : Outgoing → Json
  | log gravity text => textToJson gravity text
  | display gravity text => textToJson gravity text
  | watchNotes => watchToJson
  | replace uri range text =>
    let changes := Json.object [(uri.toText, .arr [Json.ofReplacement range text])]
    Json.record [("edit", Json.record [("changes", changes)])]
  | suggest uri cursor =>
    Json.record [("uri", .str uri.toText), ("position", Json.ofPoint cursor)]

end Outgoing
end LinkedNotes
