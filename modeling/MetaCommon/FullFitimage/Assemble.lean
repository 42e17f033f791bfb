import MetaCommon.Lib.Forest
import Mathlib.Data.List.Infix

/-!
# The image source of the full FIT

`fitimage_assemble` writes the source of the image line by line and hands it to mkimage. A line
opens a node, closes one or holds a property.
-/

namespace MetaCommon.FullFitimage

open Forest (Token)

inductive Value where
  | strings (l : List String)
  | cells (s : String)
  | incbin (path : String)
  deriving DecidableEq, Repr

structure Property where
  name : String
  value : Value
  deriving DecidableEq, Repr

abbrev Line := Token String Property

/-- The variables of BitBake that the class reads, and what it finds in the file system. Unset ones
are empty. -/
structure Env where
  distroName : String
  pv : String
  machine : String
  arch : String
  imageBasename : String
  deployDirImage : String
  /-- The words of `KERNEL_DEVICETREE`. -/
  kernelDevicetree : List String
  initramfsImage : String
  splBinary : String
  secureBootAlgoSelect : String
  secureBootHashTypeSelect : String
  ubootArch : String
  ubootLoadaddress : String
  ubootEntrypoint : String
  ubootEntrysymbol : String
  ubootRdLoadaddress : String
  ubootRdEntrypoint : String
  ubootSignEnable : String
  ubootSignKeyname : String
  fileExists : String → Bool
  /-- The address that `nm vmlinux` gives a symbol. -/
  nmVmlinux : String → String

def text (name value : String) : Property := ⟨name, .strings [value]⟩

def cells (name value : String) : Property := ⟨name, .cells value⟩

def data (path : String) : Property := ⟨"data", .incbin path⟩

/-! ### The sections -/

def fitimageEmitFitHeader (env : Env) : List Line :=
  [.enter "/",
    .leaf (text "description"
      ("U-Boot fitImage for " ++ env.distroName ++ "/" ++ env.pv ++ "/" ++ env.machine)),
    .leaf (cells "#address-cells" "1")]

inductive SectionBit where
  | imagestart
  | confstart
  | sectend
  | fitend

def fitimageEmitSectionMaint : SectionBit → List Line
  | .imagestart => [.enter "images"]
  | .confstart => [.enter "configurations"]
  | .sectend => [.leave]
  | .fitend => [.leave]

/-- `hash_blk`, for the hash type of the last call that got one. -/
def hashBlk (csum : String) : List Line :=
  if csum ≠ "" then [.enter "hash-1", .leaf (text "algo" csum), .leave] else []

def emitSectionImage (name : String) (properties : List Property) (hash : String) : List Line :=
  .enter name :: properties.map .leaf ++ hashBlk hash ++ [.leave]

def entrypoint (env : Env) : String :=
  if env.ubootEntrysymbol ≠ "" then env.nmVmlinux env.ubootEntrysymbol else env.ubootEntrypoint

def kernelProperties (env : Env) (path compression : String) : List Property :=
  [text "description" "Linux kernel",
    data path,
    text "type" "kernel",
    text "arch" env.ubootArch,
    text "os" "linux",
    text "compression" compression,
    cells "load" env.ubootLoadaddress,
    cells "entry" (entrypoint env)]

def fitimageEmitSectionKernel (env : Env) (count path compression hash : String) : List Line :=
  emitSectionImage ("kernel-" ++ count) (kernelProperties env path compression) hash

def dtbProperties (env : Env) (path : String) : List Property :=
  [text "description" "Flattened Device Tree blob",
    data path,
    text "type" "flat_dt",
    text "arch" env.ubootArch,
    text "compression" "none"]

def fitimageEmitSectionDtb (env : Env) (count path hash : String) : List Line :=
  emitSectionImage ("fdt-" ++ count) (dtbProperties env path) hash

def setupProperties (env : Env) (path : String) : List Property :=
  [text "description" "Linux setup.bin",
    data path,
    text "type" "x86_setup",
    text "arch" env.ubootArch,
    text "os" "linux",
    text "compression" "none",
    cells "load" "0x00090000",
    cells "entry" "0x00090000"]

def fitimageEmitSectionSetup (env : Env) (count path hash : String) : List Line :=
  emitSectionImage ("setup-" ++ count) (setupProperties env path) hash

/-- The `case` over the endings of the path; the first pattern that matches counts. -/
def ramdiskCtype (path : String) : String :=
  if path.endsWith ".gz" then "gzip"
  else if path.endsWith ".bz2" then "bzip2"
  else if path.endsWith ".lzma" then "lzma"
  else if path.endsWith ".lzo" then "lzo"
  else if path.endsWith ".lz4" then "lz4"
  else "none"

def ramdiskProperties (env : Env) (path : String) : List Property :=
  [text "description" env.initramfsImage,
    data path,
    text "type" "ramdisk",
    text "arch" env.ubootArch,
    text "os" "linux",
    text "compression" (ramdiskCtype path)] ++
  (if env.ubootRdLoadaddress ≠ "" then [cells "load" env.ubootRdLoadaddress] else []) ++
  (if env.ubootRdEntrypoint ≠ "" then [cells "entry" env.ubootRdEntrypoint] else [])

def fitimageEmitSectionRamdisk (env : Env) (count path hash : String) : List Line :=
  emitSectionImage ("ramdisk-" ++ count) (ramdiskProperties env path) hash

/-! ### A configuration -/

def confDesc (dtb ramdisk setup : String) : String :=
  let desc := "Linux kernel"
  let desc := if dtb ≠ "" then desc ++ ", FDT blob" else desc
  let desc := if ramdisk ≠ "" then desc ++ ", ramdisk" else desc
  if setup ≠ "" then desc ++ ", setup" else desc

def confProperties (kernel dtb ramdisk setup default : String) : List Property :=
  [text "description" (default ++ " " ++ confDesc dtb ramdisk setup),
    text "kernel" ("kernel-" ++ kernel)] ++
  (if dtb ≠ "" then [text "fdt" ("fdt-" ++ dtb)] else []) ++
  (if ramdisk ≠ "" then [text "ramdisk" ("ramdisk-" ++ ramdisk)] else []) ++
  (if setup ≠ "" then [text "setup" ("setup-" ++ setup)] else [])

def confSignKeyname (env : Env) : String :=
  if env.ubootSignEnable ≠ "" then env.ubootSignKeyname else ""

def signImages (dtb ramdisk setup : String) : List String :=
  ["kernel"] ++
  (if dtb ≠ "" then ["fdt"] else []) ++
  (if ramdisk ≠ "" then ["ramdisk"] else []) ++
  (if setup ≠ "" then ["setup"] else [])

def signatureProperties (env : Env) (dtb ramdisk setup hash : String) : List Property :=
  [text "algo" (hash ++ "," ++ env.secureBootAlgoSelect),
    text "key-name-hint" (confSignKeyname env),
    ⟨"sign-images", .strings (signImages dtb ramdisk setup)⟩]

def fitimageEmitSectionConfig (env : Env) (kernel dtb ramdisk setup default hash : String) :
    List Line :=
  (if default = "1" then [.leaf (text "default" ("conf-" ++ dtb))] else []) ++
  .enter ("conf-" ++ dtb) ::
  (confProperties kernel dtb ramdisk setup default).map .leaf ++
  hashBlk hash ++
  (if confSignKeyname env ≠ "" then
    .enter "signature-1" :: (signatureProperties env dtb ramdisk setup hash).map .leaf ++ [.leave]
  else []) ++
  [.leave]

/-! ### `fitimage_assemble` -/

/-- The calls of `uboot-mkimage`. -/
inductive Mkimage where
  | build
  | sign
  deriving DecidableEq, Repr

structure Assembled where
  its : List Line
  mkimage : List Mkimage

def hashType (env : Env) : String :=
  if env.splBinary ≠ "" then env.secureBootHashTypeSelect else ""

/-- The loop sets `KTYPE` and looks for `${ktype}`, which is never set. -/
def findKernel (env : Env) : Option String :=
  let ktype := ""
  (["zImage", "bzImage", "vmlinuz"].find? fun _ =>
    env.fileExists (env.deployDirImage ++ "/" ++ ktype)).map fun KTYPE =>
    env.deployDirImage ++ "/" ++ KTYPE

def dropTrailingSlashes (cs : List Char) : List Char :=
  (cs.reverse.dropWhile (· = '/')).reverse

/-- `basename` of a path that is not all slashes. -/
def basename (cs : List Char) : List Char :=
  ((dropTrailingSlashes cs).reverse.takeWhile (· ≠ '/')).reverse

/-- `sed 's,\.dts$,.dtb,g'` -/
def dtsToDtb (cs : List Char) : List Char :=
  if ".dts".toList <:+ cs then cs.take (cs.length - 4) ++ ".dtb".toList else cs

/-- `sed 's|pat||'` -/
def removeFirst (pat : List Char) : List Char → List Char
  | [] => []
  | c :: cs => if pat <+: c :: cs then (c :: cs).drop pat.length else c :: removeFirst pat cs

/-- The name of the file of a device tree. -/
def dtbFile (word : String) : List Char :=
  let cs := word.toList
  let cs := if "/dts/".toList <:+: cs then dtsToDtb (basename cs) else cs
  removeFirst "aspeed/".toList cs

/-- `tr '/' '_'` -/
def slashesToUnderscores (cs : List Char) : List Char := cs.map fun c => if c = '/' then '_' else c

def dtbPath (env : Env) (word : String) : String :=
  env.deployDirImage ++ "/" ++ String.ofList (dtbFile word)

def dtbName (word : String) : String := String.ofList (slashesToUnderscores (dtbFile word))

/-- The name and the path are not quoted, so an empty name is no argument and the others move up. No
hash type is left then, and `hash_blk` is still that of the call before. -/
def emitDtb (env : Env) (DTB DTB_PATH hash : String) : List Line :=
  if DTB = "" then fitimageEmitSectionDtb env DTB_PATH hash hash
  else fitimageEmitSectionDtb env DTB DTB_PATH hash

/-- The lines so far and `DTBS`. -/
structure DtbState where
  lines : List Line
  dtbs : List String

def packDtb (env : Env) (s : DtbState) (word : String) : DtbState :=
  if env.fileExists (dtbPath env word) then
    { lines := s.lines ++ emitDtb env (dtbName word) (dtbPath env word) (hashType env)
      dtbs := s.dtbs ++ [dtbName word] }
  else s

def packDtbs (env : Env) : DtbState := env.kernelDevicetree.foldl (packDtb env) ⟨[], []⟩

/-- An empty name adds no word to `DTBS`. -/
def DtbState.words (s : DtbState) : List String := s.dtbs.filter (· ≠ "")

def setupPath (env : Env) : String := "arch/" ++ env.arch ++ "/boot/setup.bin"

def setupcount (env : Env) : String := if env.fileExists (setupPath env) then "1" else ""

def packSetup (env : Env) : List Line :=
  if env.fileExists (setupPath env) then
    fitimageEmitSectionSetup env "1" (setupPath env) (hashType env)
  else []

def archives : List String :=
  ["squashfs-lz4", "squashfs-xz", "squashfs", "cpio.lz4", "cpio.lzo", "cpio.lzma", "cpio.xz",
    "cpio.gz", "cpio"]

def initramfsPath (env : Env) (img : String) : String :=
  env.deployDirImage ++ "/" ++ env.imageBasename ++ "-" ++ env.machine ++ "." ++ img

def findInitramfs (env : Env) : Option String :=
  (archives.find? fun img => env.fileExists (initramfsPath env img)).map (initramfsPath env)

def packRamdisk (env : Env) (ramdiskcount : String) : List Line :=
  if ramdiskcount = "1" then
    match findInitramfs env with
    | some path => fitimageEmitSectionRamdisk env ramdiskcount path (hashType env)
    | none => []
  else []

/-- The loop over `DTBS` from the `i`-th one on; `dtbcount` is 1. -/
def packConfigs (env : Env) (ramdiskcount : String) : ℕ → List String → List Line
  | _, [] => []
  | i, DTB :: dtbs =>
    fitimageEmitSectionConfig env "1" DTB ramdiskcount (setupcount env) (if i = 1 then "1" else "0")
      (hashType env) ++
    packConfigs env ramdiskcount (i + 1) dtbs

def fitimageAssemble (env : Env) (ramdiskcount : String) : Option Assembled :=
  match findKernel env with
  | none => none
  | some KIMG =>
    some {
      its := fitimageEmitFitHeader env ++
        fitimageEmitSectionMaint .imagestart ++
        fitimageEmitSectionKernel env "1" KIMG "none" (hashType env) ++
        (packDtbs env).lines ++
        packSetup env ++
        packRamdisk env ramdiskcount ++
        fitimageEmitSectionMaint .sectend ++
        fitimageEmitSectionMaint .confstart ++
        packConfigs env ramdiskcount 1 (packDtbs env).words ++
        fitimageEmitSectionMaint .sectend ++
        fitimageEmitSectionMaint .fitend
      mkimage := [.build] ++ if env.ubootSignEnable = "1" then [.sign] else [] }

end MetaCommon.FullFitimage
