import SourceScope.Entry.Index
import SourceScope.File
import SourceScope.Listing.Stub
import SourceScope.Path

set_option autoImplicit false

namespace SourceScope

namespace Listing

def latestOpcodes : List Opcode → List Opcode
  | a :: b :: rest =>
    if a.address = b.address then latestOpcodes (b :: rest) else a :: latestOpcodes (b :: rest)
  | rest => rest

def opcodes (disassemble : Disassembler) (code : List CodeSection) : List Opcode :=
  let all := code.flatMap fun s => disassemble s.origin s.data
  latestOpcodes (all.mergeSort fun a b => a.address ≤ b.address)

def ofOpcodes (found : List Opcode) : Listing :=
  ⟨#[], #[], (found.map fun o => ⟨o, none⟩).toArray⟩

def fileId (listing : Listing) (path : String) : FileId × Listing :=
  match listing.files.findIdx? (·.path == path) with
  | some id => (id, listing)
  | none =>
    (listing.files.size, { listing with files := listing.files.push ⟨path, path, [], false, false⟩ })

def insertLine (number : UInt32) (id : LineId) : List (UInt32 × LineId) → List (UInt32 × LineId)
  | [] => [(number, id)]
  | first :: rest =>
    if number < first.1 then (number, id) :: first :: rest
    else first :: insertLine number id rest

def lineId (listing : Listing) (file : FileId) (number : UInt32) (function : FunctionId) :
    LineId × Listing :=
  match (listing.files[file]?).bind (·.line? number) with
  | some id => (id, listing)
  | none =>
    let id := listing.lines.size
    (id, { listing with
      lines := listing.lines.push ⟨file, number, "", [], function, false, .zero⟩
      files := listing.files.modify file fun f => { f with lines := insertLine number id f.lines } })

def assignTo (line : LineId) (stop : UInt32) : (count index : Nat) → Listing → Listing
  | 0, _, listing => listing
  | count + 1, index, listing =>
    match listing.instructions[index]? with
    | none => listing
    | some instruction =>
      let address := instruction.opcode.address
      if stop ≤ address then listing
      else if instruction.line.isSome then assignTo line stop count (index + 1) listing
      else assignTo line stop count (index + 1) { listing with
        instructions := listing.instructions.modify index fun i => { i with line := some line }
        lines := listing.lines.modify line fun l =>
          { l with instructions := l.instructions ++ [address] } }

def attach (driver : FunctionId) (listing : Listing) (extent : LineExtent) : Listing :=
  let (file, listing) := listing.fileId extent.file
  let (line, listing) := listing.lineId file extent.line driver
  let first := partitionPoint (·.opcode.address < extent.start) listing.instructions
  assignTo line extent.stop (listing.instructions.size - first) first listing

def textLines (text : String) : List String :=
  let pieces := splitLines text.toList
  let whole := if pieces.getLast? == some [] then pieces.dropLast else pieces
  -- only a line that has an end can lose a carriage return with it
  whole.mapIdx fun i cs =>
    String.ofList (if i + 1 < pieces.length && cs.getLast? == some '\r' then cs.dropLast else cs)
where
  splitLines : List Char → List (List Char)
    | [] => [[]]
    | c :: rest =>
      if c = '\n' then [] :: splitLines rest
      else
        match splitLines rest with
        | line :: more => (c :: line) :: more
        | [] => [[c]]

/-- Where a source file is: at its own path, or else in a search directory. -/
def findSource? (files : FileSystem) (searchPaths : List String) (path : String) : Option String :=
  let candidates :=
    match Path.fileName? path with
    | none => [path]
    | some name => path :: searchPaths.map (Path.append · name)
  candidates.find? files.isFile

/-- A file that is there but cannot be read, or is no text, is not looked for elsewhere. -/
def sourceText? (files : FileSystem) (searchPaths : List String) (path : String) :
    Option String := do
  let found ← findSource? files searchPaths path
  (files.read found).toOption.bind Utf8.strict

def setTexts (driver : FunctionId) (file : FileId) : (number : Nat) → List String → Listing →
    Listing
  | _, [], listing => listing
  | number, text :: rest, listing =>
    let (line, listing) := listing.lineId file (UInt32.ofNat number) driver
    setTexts driver file (number + 1) rest
      { listing with lines := listing.lines.modify line fun l => { l with text } }

def loadFile (files : FileSystem) (searchPaths : List String) (driver : FunctionId)
    (listing : Listing) (file : FileId) : Listing :=
  match (listing.files[file]?).bind fun f => sourceText? files searchPaths f.path with
  | none => listing
  | some text =>
    let listing := setTexts driver file 1 (textLines text) listing
    { listing with files := listing.files.modify file fun f => { f with isLoaded := true } }

def loadTexts (files : FileSystem) (searchPaths : List String) (driver : FunctionId)
    (listing : Listing) : Listing :=
  (List.range listing.files.size).foldl (loadFile files searchPaths driver) listing

def attachOrphan (functions : FunctionSet) (driver : FunctionId) (listing : Listing)
    (index : Nat) : Listing :=
  match listing.instructions[index]? with
  | none => listing
  | some instruction =>
    let address := instruction.opcode.address
    let function := (functions.smallestEnclosing? address).getD driver
    let name := ((functions.get? function).map (·.name)).getD ""
    let (file, listing) := listing.fileId name
    let listing :=
      { listing with files := listing.files.modify file fun f => { f with isSynthetic := true } }
    let (line, listing) := listing.lineId file 1 function
    { listing with
      lines := listing.lines.modify line fun l =>
        { l with isStub := true, instructions := l.instructions ++ [address] }
      instructions := listing.instructions.modify index fun i => { i with line := some line } }

def attachOrphans (functions : FunctionSet) (driver : FunctionId) (listing : Listing) : Listing :=
  let orphans := (List.range listing.instructions.size).filter fun index =>
    (listing.instructions[index]?).any (·.line.isNone)
  orphans.foldl (attachOrphan functions driver) listing

def assignFunctions (functions : FunctionSet) (driver : FunctionId) (listing : Listing) : Listing :=
  { listing with lines := listing.lines.map fun line =>
      { line with
        function := (line.instructions.head?.bind functions.smallestEnclosing?).getD driver } }

def withShortPaths : List SourceFile → List String → List SourceFile
  | [], _ => []
  | file :: rest, paths =>
    if file.isSynthetic then file :: withShortPaths rest paths
    else
      match paths with
      | [] => file :: rest
      | path :: more => { file with shortPath := path } :: withShortPaths rest more

def shortenPaths (listing : Listing) : Listing :=
  let files := listing.files.toList
  let real := (files.filter (!·.isSynthetic)).map (·.path)
  { listing with files := (withShortPaths files (Path.shorten real)).toArray }

def symbolStarts (symbols : List Symbol) : Array UInt32 :=
  let sorted := (symbols.map (·.address)).mergeSort fun a b => a ≤ b
  sorted.eraseReps.toArray

def build (settings : Settings) (files : FileSystem) (index : EntryIndex) (symbols : List Symbol)
    (functions : FunctionSet) (driver : FunctionId) (found : List Opcode) : Listing :=
  let starts := symbolStarts symbols
  let extents := index.units.flatMap fun unit =>
    LineExtent.ofRows starts settings.minLineBytes unit.rows
  let listing := extents.foldl (attach driver) (ofOpcodes found)
  let listing :=
    if settings.loadSourceText then loadTexts files settings.searchPaths driver listing else listing
  shortenPaths (assignFunctions functions driver (attachOrphans functions driver listing))

end Listing

end SourceScope
