import Mathlib.Data.Int.Notation
import MetaCommon.Kcs.IpmiHandler

/-!
# The IPMI commands of force firmware update mode

The six handlers of `cmd_info`. The security mode lives in the U-Boot environment variable
`provision`, which the two security mode handlers reach through the environment library of U-Boot.
That library is a parameter: `EnvLib` is what it offers for this variable, `EnvLib.Lawful` what its
documentation promises.
-/

namespace MetaCommon.Kcs

def netfnApp : UInt8 := 0x06
def netfnFirmware : UInt8 := 0x08
def netfnIntelOem : UInt8 := 0x30

def cmdGetDevId : UInt8 := 0x01
def cmdGetSelfTestResults : UInt8 := 0x04
def cmdFwupdGetExecutionCtx : UInt8 := 0x23
def cmdIntlOemGetBufferSize : UInt8 := 0x66
def cmdIntlOemGetSecMode : UInt8 := 0xB3
def cmdIntlOemSetSecMode : UInt8 := 0xB4

def maxKcsBufSize : ℕ := 1020
def maxIpmbBufSize : ℕ := 1020

def restrictionModeMinValue : UInt8 := 3
def restrictionModeMaxValue : UInt8 := 5

def primaryImage : UInt8 := 0x01

/-- The environment library, for the variable `provision`: `envGet` and `envSet` work on the copy in
memory, `envSave` writes it to flash, and `envSaved` is what the flash holds. `envSet` and `envSave`
return 0 when they succeed. -/
structure EnvLib (ε : Type*) where
  envGet : ε → Option (List Char)
  envSaved : ε → Option (List Char)
  envSet : ε → List Char → ε × ℤ
  envSave : ε → ε × ℤ

structure EnvLib.Lawful {ε : Type*} (E : EnvLib ε) : Prop where
  envGet_envSet (e : ε) (v : List Char) : (E.envSet e v).2 = 0 → E.envGet (E.envSet e v).1 = some v
  envSaved_envSet (e : ε) (v : List Char) : E.envSaved (E.envSet e v).1 = E.envSaved e
  envGet_envSave (e : ε) : E.envGet (E.envSave e).1 = E.envGet e
  envSaved_envSave (e : ε) : (E.envSave e).2 = 0 → E.envSaved (E.envSave e).1 = E.envGet e

/-- The decimal digits `env_set_ulong` stores. -/
def simpleItoa (value : ℕ) : List Char := Nat.toDigits 10 value

/-- `simple_strtol(cp, NULL, 10)`: a sign, then the digits up to the first other character. -/
def simpleStrtol (cp : List Char) : ℤ :=
  let digits (s : List Char) : ℤ :=
    (s.takeWhile Char.isDigit).foldl (fun r c => r * 10 + (c.toNat - '0'.toNat : ℕ)) 0
  match cp with
  | '-' :: s => -digits s
  | s => digits s

variable {ε : Type*} (E : EnvLib ε)

def EnvLib.envSetUlong (e : ε) (value : ℕ) : ε × ℤ := E.envSet e (simpleItoa value)

def getDeviceId : FunHandler ε := fun req env =>
  if req.length ≠ 0 then (.code ipmiCcInvalidDataLength, env)
  else
    let operation : UInt8 := 1
    (⟨[ipmiCcOk, 0x23, 0x00, (operation <<< (7 : UInt8)) ||| (0x02 &&& 0x7F), 0x03, 0x02, 0x00,
      0x57, 0x01, 0x00, 0x00, 0x00, 0x00, 0x00, 0x00, 0x00], by simp [maxIpmiResDataSize]⟩, env)

def getSelfTestResult : FunHandler ε := fun req env =>
  if req.length ≠ 0 then (.code ipmiCcInvalidDataLength, env)
  else (⟨[ipmiCcOk, 0x56, 0x00], by simp [maxIpmiResDataSize]⟩, env)

def fwupdGetExecutionCtx : FunHandler ε := fun _ env =>
  (⟨[ipmiCcOk, 0x11, primaryImage], by simp [maxIpmiResDataSize]⟩, env)

def intelGetBufferSize : FunHandler ε := fun req env =>
  if req.length ≠ 0 then (.code ipmiCcInvalidDataLength, env)
  else (⟨[ipmiCcOk, UInt8.ofNat (maxKcsBufSize / 4), UInt8.ofNat (maxIpmbBufSize / 4)],
    by simp [maxIpmiResDataSize]⟩, env)

def intelGetSecurityMode : FunHandler ε := fun req env =>
  if req.length ≠ 0 then (.code ipmiCcInvalidDataLength, env)
  else
    match E.envGet env with
    | none => (.code ipmiCcUnspecified, env)
    | some cmdline =>
      (⟨[ipmiCcOk, UInt8.ofInt (simpleStrtol cmdline), 0], by simp [maxIpmiResDataSize]⟩, env)

/-- The results of `env_set_ulong` and `env_save` are not looked at. -/
def intelSetSecurityMode : FunHandler ε := fun req env =>
  match req with
  | [mode] =>
    if restrictionModeMaxValue < mode ∨ mode < restrictionModeMinValue then
      (.code ipmiCcInvalidDataField, env)
    else
      let env := (E.envSetUlong env mode.toNat).1
      let env := (E.envSave env).1
      (.code ipmiCcOk, env)
  | _ => (.code ipmiCcInvalidDataLength, env)

def cmdInfo : List (IpmiCmdTable ε) :=
  [⟨netfnApp, cmdGetDevId, getDeviceId⟩,
   ⟨netfnApp, cmdGetSelfTestResults, getSelfTestResult⟩,
   ⟨netfnFirmware, cmdFwupdGetExecutionCtx, fwupdGetExecutionCtx⟩,
   ⟨netfnIntelOem, cmdIntlOemGetBufferSize, intelGetBufferSize⟩,
   ⟨netfnIntelOem, cmdIntlOemGetSecMode, intelGetSecurityMode E⟩,
   ⟨netfnIntelOem, cmdIntlOemSetSecMode, intelSetSecurityMode E⟩]

/-! Five of the six handlers only read the environment. -/

@[simp] theorem getDeviceId_env (req : List UInt8) (env : ε) : (getDeviceId req env).2 = env := by
  unfold getDeviceId
  split_ifs <;> rfl

@[simp] theorem getSelfTestResult_env (req : List UInt8) (env : ε) :
    (getSelfTestResult req env).2 = env := by
  unfold getSelfTestResult
  split_ifs <;> rfl

@[simp] theorem fwupdGetExecutionCtx_env (req : List UInt8) (env : ε) :
    (fwupdGetExecutionCtx req env).2 = env := rfl

@[simp] theorem intelGetBufferSize_env (req : List UInt8) (env : ε) :
    (intelGetBufferSize req env).2 = env := by
  unfold intelGetBufferSize
  split_ifs <;> rfl

@[simp] theorem intelGetSecurityMode_env (req : List UInt8) (env : ε) :
    (intelGetSecurityMode E req env).2 = env := by
  unfold intelGetSecurityMode
  split_ifs
  · rfl
  · cases E.envGet env <;> rfl

/-- An environment that is the variable in memory and on flash, and whose writes succeed. -/
def EnvLib.plain : EnvLib (Option (List Char) × Option (List Char)) where
  envGet e := e.1
  envSaved e := e.2
  envSet e v := ((some v, e.2), 0)
  envSave e := ((e.1, e.1), 0)

theorem EnvLib.plain_lawful : EnvLib.plain.Lawful where
  envGet_envSet _ _ _ := rfl
  envSaved_envSet _ _ := rfl
  envGet_envSave _ := rfl
  envSaved_envSave _ _ := rfl

example : (intelSetSecurityMode EnvLib.plain [4] (none, none)).2 = (some ['4'], some ['4']) := by
  decide

end MetaCommon.Kcs
