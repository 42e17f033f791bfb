import MetaCommon.IoApp.Access
import MetaCommon.Lib.Numerals

/-!
# The arguments of io-app

`main` reads its options by hand: an option takes the next argument for its value, but the loop goes
on at that value. So the value is the first argument that is no option, and ends the loop, unless it
begins with a dash and is read as an option itself. Only one map string or configuration file is
loaded.
-/

namespace MetaCommon.IoApp

abbrev Text := List Char

/-- What the program finds around it: the map of its processor, the contents of the configuration
files that can be mapped, whether `/dev/mem` can be opened, which parts of it can be mapped, and
whether there is memory for a number of bytes. -/
structure Env where
  probeCpuForMap : Text
  mapFile : Text → Option Text
  devMem : Bool
  mmap : UInt32 → UInt32 → Bool
  malloc : UInt32 → Bool

/-! ### Loading maps -/

def strtok (delim s : Text) : List Text := (s.splitOnP (· ∈ delim)).filter (· ≠ [])

/-- `strtoul` to the base 16, with the text from `endptr` on. -/
def strtoul (s : Text) : UInt32 × Text :=
  let conversion := Numerals.strtoul 32 16 s
  (⟨conversion.value⟩, conversion.rest)

/-- What the loop of `load_maps` makes of one entry: it skips the entry, adds a mapping, or stops
where it is `none`. The address is read from the begin of the entry, colons included. -/
def loadEntry (env : Env) (paddr : Text) : Option (Option Mapping) :=
  match strtok [':'] paddr with
  | [] => some none
  | [_] => some none
  | first :: plen :: _ =>
    let addr := strtoul (paddr.takeWhile (· = ':') ++ first)
    let len := strtoul plen
    if addr.2 ≠ [] then none
    else if len.2 ≠ [] then none
    else if env.mmap addr.1 len.1 then some (some ⟨addr.1, len.1⟩) else none

def loadEntries (env : Env) : List Text → List Mapping → Int × List Mapping
  | [], maps => (0, maps)
  | paddr :: rest, maps =>
    match loadEntry env paddr with
    | none => (-1, maps)
    | some none => loadEntries env rest maps
    | some (some m) => loadEntries env rest (maps ++ [m])

def loadMaps (env : Env) (cmapStr : Text) (maps : List Mapping) : Int × List Mapping :=
  if env.devMem = false then (-1, maps)
  else loadEntries env (strtok "\r\n\t ,".toList cmapStr) maps

/-- Where a map string comes from. -/
inductive Source
  | map (mapStr : Text)
  | config (cfgFile : Text)
  | probed
deriving DecidableEq

/-- The mappings after a source has been loaded, if that went well. A configuration file is a
mapping without an address before it is read. One that cannot be mapped leaves `MAP_FAILED` for the
map string, which no string is at. -/
def loaded (env : Env) (source : Source) : Option (List Mapping) :=
  let load (cmapStr : Text) (maps : List Mapping) :=
    let r := loadMaps env cmapStr maps
    if r.1 < 0 then none else some r.2
  match source with
  | .map mapStr => load mapStr []
  | .config cfgFile =>
    (env.mapFile cfgFile).bind fun text => load text [⟨noPhys, UInt32.ofNat text.length⟩]
  | .probed => load env.probeCpuForMap []

/-! ### The program -/

structure Args where
  firstArg : ℕ
  cfgFile : Option Text
  mapStr : Option Text
deriving DecidableEq

/-- The loop over the arguments from number `i` on. It is `none` where `usage` ends the program. -/
def parseArgs (i : ℕ) (args : Args) : List Text → Option Args
  | [] => some args
  | arg :: rest =>
    if arg[0]? = some '-' then
      match arg[1]?, rest with
      | some 'm', value :: rest =>
        parseArgs (i + 1) { args with mapStr := some value } (value :: rest)
      | some 'c', value :: rest =>
        parseArgs (i + 1) { args with cfgFile := some value } (value :: rest)
      | _, _ => none
    else some { args with firstArg := i }

inductive Command
  | md
  | mw
  | io
deriving DecidableEq

/-- The command by the name of the program, which is what follows the last slash. -/
def commandOf (argv0 : Text) : Command :=
  let exe := (argv0.splitOn '/').getLastD []
  if exe = "md".toList then .md else if exe = "mw".toList then .mw else .io

/-- What the program has loaded, the numbers of the arguments that it has handed on to its command,
unless it has ended before, and what `md` and `mw` have done. -/
structure Result where
  loads : List Source
  passed : Option (List ℕ)
  run : Option Run

/-- The end of `main`. Without an argument for the address, `strtoul` gets a null pointer. -/
def runCommand (env : Env) (mem : Mem) (maps : List Mapping) (argv : List Text) (firstArg : ℕ) :
    Command → Option (List ℕ × Option Run)
  | .md =>
    match argv[firstArg]?, argv[firstArg + 1]? with
    | some addr, some len => some ([firstArg, firstArg + 1],
        some (md env.malloc maps mem (strtoul addr).1 (strtoul len).1))
    | some addr, none => some ([firstArg], some (md env.malloc maps mem (strtoul addr).1 0x40))
    | none, _ => none
  | .mw =>
    match argv[firstArg]?, argv[firstArg + 1]?, argv[firstArg + 2]? with
    | some addr, some val, some len => some ([firstArg, firstArg + 1, firstArg + 2],
        some (mw maps mem (strtoul addr).1 (strtoul val).1 (strtoul len).1))
    | some addr, some val, none => some ([firstArg, firstArg + 1],
        some (mw maps mem (strtoul addr).1 (strtoul val).1 1))
    | _, _, _ => none
  | .io => some ([], none)

def Args.source (args : Args) : Source :=
  match args.mapStr, args.cfgFile with
  | some mapStr, _ => .map mapStr
  | none, some cfgFile => .config cfgFile
  | none, none => .probed

def main (env : Env) (mem : Mem) (argv : List Text) : Result :=
  match parseArgs 1 ⟨1, none, none⟩ argv.tail with
  | none => ⟨[], none, none⟩
  | some args =>
    let r := (loaded env args.source).bind fun maps =>
      runCommand env mem maps argv args.firstArg (commandOf (argv.headD []))
    ⟨[args.source], r.map Prod.fst, r.bind Prod.snd⟩

end MetaCommon.IoApp
