set_option autoImplicit false

namespace SourceScope

inductive Arguments where
  | inspect (binary : String) (settings : Option String)
  | help
  | invalid
deriving DecidableEq, Repr

namespace Arguments

def isOption (argument : String) : Bool :=
  match argument.toList with
  | '-' :: _ :: _ => true
  | _ => false

def asksForHelp (argument : String) : Bool :=
  argument == "--help" || argument.startsWith "-h"

def ofPaths : List String → Arguments
  | [binary] => .inspect binary none
  | [binary, settings] => .inspect binary (some settings)
  | _ => .invalid

def parseFrom (paths : List String) (onlyPaths : Bool) : List String → Arguments
  | [] => ofPaths paths
  | argument :: rest =>
    if !onlyPaths && argument == "--" then parseFrom paths true rest
    else if !onlyPaths && isOption argument then
      if asksForHelp argument then .help else .invalid
    else if argument.isEmpty || 2 ≤ paths.length then .invalid
    else parseFrom (paths ++ [argument]) onlyPaths rest

def parse (arguments : List String) : Arguments := parseFrom [] false arguments

def usage : String := "Usage: coproc-source <ELF> [CONFIG]\n"

def helpText : String :=
  "Build the source model of a coprocessor ELF and print what it found\n\n" ++ usage ++
  "\nArguments:\n" ++
  "  <ELF>     ELF file with DWARF 4 debug information\n" ++
  "  [CONFIG]  Build configuration (TOML)\n" ++
  "\nOptions:\n" ++
  "  -h, --help  Print help\n"

end Arguments

end SourceScope
