import MetaCommon.Lib.Buffer
import MetaCommon.Lib.CString

/-!
# The hostname among the OEM LAN parameters

`setLanOem` takes the hostname in blocks of 16 bytes, which it collects in a static buffer until one
of them is marked complete; the name is then checked and written to D-Bus. `getLanOem` reads the
D-Bus property back in blocks.
-/

namespace MetaCommon.LanOem

open Buffer CString

/-- `oemLanParam::intelHostnameConfig`. -/
def intelHostnameConfig : UInt8 := 0xc7

def ipmiHostnameLen : ℕ := 16

def currentRevision : UInt8 := 0x11

abbrev Cc := UInt8

def ccSuccess : Cc := 0x00
def ccParamNotSupported : Cc := 0x80
def ccUnprintable : Cc := 0x90
def ccReqDataLenInvalid : Cc := 0xc7
def ccInvalidFieldRequest : Cc := 0xcc

def chars (s : String) : List UInt8 := s.toList.map fun c => UInt8.ofNat c.toNat

def validHostnameChars : List UInt8 :=
  chars "abcdefghijklmnopqrstuvwxyzABCDEFGHIJKLMNOPQRSTUVWXYZ0123456789-"

def lanOemHostnameLength : ℕ := 64

/-- The static `blockData`, the D-Bus property and the strings that have been written to it. -/
structure Transport where
  blockData : ℕ → UInt8
  hostName : List UInt8
  dbusWrites : List (List UInt8)

namespace Transport

variable (s : Transport)

/-- A D-Bus string ends at the first NUL. -/
def setDbusProperty (newHostname : List UInt8) : Transport :=
  { s with
    hostName := upToNul newHostname
    dbusWrites := s.dbusWrites ++ [newHostname] }

def fill (block : UInt8) : Transport :=
  if block = 1 then { s with blockData := fun _ => 0 } else s

def copyBlock (block : UInt8) (dataBytes : List UInt8) : Transport :=
  { s with blockData := store s.blockData ((block.toNat - 1) * ipmiHostnameLen) dataBytes }

/-- What `setLanOem` does after the block that is marked complete. -/
def complete : Cc × Transport :=
  let s := { s with blockData := Function.update s.blockData (lanOemHostnameLength - 1) 0 }
  let newHostname := load s.blockData 0 lanOemHostnameLength
  let firstNull := newHostname.findIdx? (· == 0)
  if newHostname.findIdx? (· ∉ validHostnameChars) ≠ firstNull then (ccUnprintable, s)
  else (ccSuccess, s.setDbusProperty newHostname)

/-- `req` has the bytes after the parameter number; two more come before them in the payload whose
size the code takes. -/
def setLanOem (parameter : UInt8) (req : List UInt8) : Cc × Transport :=
  if parameter = intelHostnameConfig then
    match req with
    | block :: complete :: dataBytes =>
      let numDataBytes := req.length + 2 - 4
      if numDataBytes > ipmiHostnameLen ∨ complete = 0 ∧ numDataBytes < ipmiHostnameLen then
        (ccReqDataLenInvalid, s)
      else if ¬ (block > 0 ∧ block < 5) ∨ complete ≠ 0 ∧ complete ≠ 1 then
        (ccInvalidFieldRequest, s)
      else
        let s := (s.fill block).copyBlock block dataBytes
        if complete = 0 then (ccSuccess, s) else s.complete
    | _ => (ccReqDataLenInvalid, s)
  else (ccParamNotSupported, s)

/-- The bytes of the answer, or the completion code of the failure. -/
def getLanOem (parameter set block : UInt8) : Except Cc (List UInt8) :=
  if parameter = intelHostnameConfig then
    if set ≠ 0 then .error ccInvalidFieldRequest
    else if block < 1 ∨ block > 4 then .error ccInvalidFieldRequest
    else
      let head := (block.toNat - 1) * ipmiHostnameLen
      let buf : ℕ → UInt8 :=
        if head < s.hostName.length then
          let numToCopy := min ipmiHostnameLen (s.hostName.length - head)
          store (fun _ => 0) 0 ((s.hostName.drop head).take numToCopy)
        else fun _ => 0
      .ok (currentRevision :: load buf 0 ipmiHostnameLen)
  else .error ccParamNotSupported

end Transport

end MetaCommon.LanOem
