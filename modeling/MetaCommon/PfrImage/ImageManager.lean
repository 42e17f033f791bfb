import Mathlib.Algebra.Group.Nat.Defs
import Mathlib.Data.Int.Notation
import Mathlib.Data.List.GetD
import Mathlib.Logic.Function.Basic
import Mathlib.Tactic.Common

/-!
# The image manager of a PFR system

An uploaded file is verified, given an id that no version has, moved into a directory of that id,
and registered as a version. The file system, `mtd-util` and the bus may fail at every call; what
they answer during one upload is in `Answers`.
-/

namespace MetaCommon.PfrImage

/-- What the file system and the services answer during one upload. -/
structure Answers where
  /-- `std::filesystem::exists` does not throw, in `processImage` and in `verifyImage`. -/
  exists_ : Bool
  existsAgain : Bool
  /-- `isFwupdScriptRunning`; `none` if it throws. -/
  fwupdScriptRunning : Option Bool
  /-- The file can be opened, and how much of it can be read. -/
  opens : Bool
  readable : ℕ
  /-- The exit code of `mtd-util`; `none` if it cannot be started. -/
  mtdUtil : Option ℤ
  removeAll : Bool
  rand : ℕ → ℕ
  createDirectory : Bool
  rename : Bool
  /-- The objects of the version can be put on the bus. -/
  makeVersion : Bool

/-! ### The file -/

structure ImageFile where
  bytes : List UInt8
  readable : ℕ
  good : Bool
  pos : ℕ

namespace ImageFile

def start (a : Answers) (bytes : List UInt8) : ImageFile := ⟨bytes, a.readable, a.opens, 0⟩

/-- A read that comes short leaves the stream failed. -/
def read (f : ImageFile) (n : ℕ) : List UInt8 × ImageFile :=
  if f.good then
    let data := ((f.bytes.take f.readable).drop f.pos).take n
    (data, { f with pos := f.pos + data.length, good := data.length == n })
  else ([], f)

def seekg (f : ImageFile) (pos : ℕ) : ImageFile := if f.good then { f with pos := pos } else f

/-- `seekg` to the end and `tellg`, which is -1 on a failed stream, as a `size_t`. -/
def length (f : ImageFile) : ℕ := if f.good then f.bytes.length else 2 ^ 64 - 1

end ImageFile

/-! ### Verification -/

def fwupdateImageIdentifier : ℕ := 0xB6EAFD19

def pldmMagic : ℕ := 0xF018878C

def pldmPkgHeaderId : List UInt8 :=
  [0xF0, 0x18, 0x87, 0x8C, 0xCB, 0x7D, 0x49, 0x43,
    0x98, 0x00, 0xA0, 0x2F, 0x05, 0x9A, 0xCA, 0x02]

def headerIdLen : ℕ := 16

/-- `sizeof(pfrImgBlock0)` and `sizeof(pldm::PldmPkgHeader)`. -/
def sizeofPfrImgBlock0 : ℕ := 128

def sizeofPldmPkgHeader : ℕ := 36

def readBufferSize : ℕ := max sizeofPfrImgBlock0 sizeofPldmPkgHeader

def pfrCPLDUpdateCap : UInt8 := 0x00
def pfrPCHPFM : UInt8 := 0x01
def pfrPCHUpdateCap : UInt8 := 0x02
def pfrBMCPFM : UInt8 := 0x03
def pfrBMCUpdateCap : UInt8 := 0x04
def seamlessPCHUpdCap : UInt8 := 0x05
def pfrAFMUpdateCap : UInt8 := 0x06
def pfrCmpstCPLDUpdCap : UInt8 := 0x07

/-- The tag of block 0, in a buffer that is zero where nothing was read. -/
def tag (buffer : List UInt8) : ℕ :=
  (buffer.getD 0 0).toNat + 2 ^ 8 * (buffer.getD 1 0).toNat + 2 ^ 16 * (buffer.getD 2 0).toNat +
    2 ^ 24 * (buffer.getD 3 0).toNat

/-- `htobe32`, of a machine that is little-endian. -/
def htobe32 (x : ℕ) : ℕ :=
  2 ^ 24 * (x % 2 ^ 8) + 2 ^ 16 * (x / 2 ^ 8 % 2 ^ 8) + 2 ^ 8 * (x / 2 ^ 16 % 2 ^ 8) +
    x / 2 ^ 24 % 2 ^ 8

/-- `block0Data->pcType[0]`. -/
def pcType (buffer : List UInt8) : UInt8 := buffer.getD 8 0

def verPurpose : String := "xyz.openbmc_project.Software.Version.VersionPurpose."

/-- The purpose of an image type; `none` if it is unknown. -/
def purposeString (imgType : UInt8) : Option String :=
  if imgType = pfrBMCUpdateCap ∨ imgType = pfrBMCPFM then some (verPurpose ++ "BMC")
  else if imgType = pfrPCHUpdateCap ∨ imgType = pfrPCHPFM ∨ imgType = seamlessPCHUpdCap then
    some (verPurpose ++ "Host")
  else if imgType = pfrCPLDUpdateCap ∨ imgType = pfrAFMUpdateCap ∨ imgType = pfrCmpstCPLDUpdCap then
    some (verPurpose ++ "Other")
  else none

/-- The version of a PFR image. Its two numbers are never read from the image. -/
def pfrVersion : List UInt8 :=
  (Nat.repr 0 ++ "." ++ Nat.repr 0).toList.map fun c => UInt8.ofNat c.toNat

structure Verification where
  version : List UInt8
  purposeString : String

def verifyPldm (f : ImageFile) : Option Verification :=
  let readBytes := 36
  if f.length < readBytes then none
  else
    let (buffer, f) := (f.seekg 0).read readBytes
    if ¬ f.good then none
    else if buffer.take headerIdLen ≠ pldmPkgHeaderId then none
    else
      let pkgVerStrLen := (buffer.getD 35 0).toNat
      let (ver, f) := (f.seekg readBytes).read pkgVerStrLen
      if ¬ f.good then none
      else some ⟨ver, verPurpose ++ "PLDM"⟩

def verifyFile (a : Answers) (bytes : List UInt8) : Option Verification :=
  let f := ImageFile.start a bytes
  if ¬ f.good then none
  else
    let (readBuffer, f) := f.read readBufferSize
    let imgMagic := tag readBuffer
    if htobe32 imgMagic = pldmMagic then verifyPldm f
    else if imgMagic ≠ fwupdateImageIdentifier then none
    else match purposeString (pcType readBuffer) with
      | none => none
      | some purposeString =>
        if a.mtdUtil ≠ some 0 then none else some ⟨pfrVersion, purposeString⟩

/-- `none` if it throws, and `some none` if it does not answer 0. A file that is not there
passes. -/
def verifyImage (a : Answers) (uploaded : Option (List UInt8)) : Option (Option Verification) :=
  if ¬ a.existsAgain then none
  else match uploaded with
    | none => some (some ⟨[], ""⟩)
    | some bytes => some (verifyFile a bytes)

/-! ### Versions -/

/-- What is configured, and what is upstream: the id of a version, and its purposes. -/
structure Software (Purpose : Type) where
  imgUploadDir : String
  softwareObjpath : String
  getId : List UInt8 → String
  convertVersionPurposeFromString : String → Option Purpose
  unknown : Purpose

structure Version (Purpose : Type) where
  objPath : String
  version : List UInt8
  purpose : Purpose
  extVersion : List UInt8
  filePath : String
  id : String

/-- The uploaded file, the directories below the upload directory and their files "image-runtime",
and the versions that are registered. -/
structure Manager (Purpose : Type) where
  uploaded : Option (List UInt8)
  dirs : String → Bool
  images : String → Option (List UInt8)
  versions : String → Option (Version Purpose)

variable {Purpose : Type}

namespace Manager

def createDirectory (m : Manager Purpose) (id : String) (ok : Bool) : Manager Purpose :=
  if ok then { m with dirs := Function.update m.dirs id true } else m

/-- The file is renamed to "image-runtime" of a directory, which has to be there. -/
def rename (m : Manager Purpose) (id : String) (ok : Bool) : Manager Purpose :=
  if ok ∧ m.dirs id then
    { m with uploaded := none, images := Function.update m.images id m.uploaded }
  else m

def insert (m : Manager Purpose) (id : String) (v : Version Purpose) : Manager Purpose :=
  { m with versions := Function.update m.versions id (some v) }

end Manager

/-- The loop that appends random numbers to the id while a version has it, `retry` times at most. -/
def chooseId (versions : String → Option (Version Purpose)) (rand : ℕ → ℕ) :
    ℕ → ℕ → String → String
  | 0, i, id => id ++ "_" ++ Nat.repr (rand i)
  | retry + 1, i, id =>
    let id := id ++ "_" ++ Nat.repr (rand i)
    if (versions id).isSome then chooseId versions rand retry (i + 1) id else id

/-- The value that is returned, `none` if it throws, and what it leaves. -/
def processImage (s : Software Purpose) (m : Manager Purpose) (a : Answers) :
    Option ℤ × Manager Purpose :=
  if ¬ a.exists_ then (none, m)
  else if m.uploaded.isNone then (some (-1), m)
  else match a.fwupdScriptRunning with
    | none => (none, m)
    | some true => (some (-1), m)
    | some false => match verifyImage a m.uploaded with
      | none => (none, m)
      | some none => if a.removeAll then (some (-1), { m with uploaded := none }) else (none, m)
      | some (some v) =>
        if v.version.isEmpty then (some (-1), m)
        else
          let purpose := (s.convertVersionPurposeFromString v.purposeString).getD s.unknown
          let id := chooseId m.versions a.rand 3 0 (s.getId v.version)
          if (m.versions id).isSome then (some (-1), m)
          else
            let m := (m.createDirectory id a.createDirectory).rename id a.rename
            if ¬ a.makeVersion then (none, m)
            else (some 0, m.insert id
              ⟨s.softwareObjpath ++ "/" ++ id, v.version, purpose, [],
                s.imgUploadDir ++ "/" ++ id, id⟩)

end MetaCommon.PfrImage
