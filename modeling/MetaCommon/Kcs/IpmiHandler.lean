import MetaCommon.Kcs.Registers

/-!
# The IPMI command handler of U-Boot

`ipmi_cmd_handler` looks a request up in the command table by network function and command and
runs the function found there. A handler gets the request bytes and the state it works on (the
U-Boot environment, for the handlers that have one) and fills the 64-byte response buffer; the
response type carries the proof that it fits, so that no handler can overrun it.
-/

namespace MetaCommon.Kcs

def ipmiCcOk : UInt8 := 0x00
def ipmiCcInvalidCmd : UInt8 := 0xC1
def ipmiCcInvalidCmdLun : UInt8 := 0xC2
def ipmiCcOutOfSpace : UInt8 := 0xC4
def ipmiCcInvalidDataLength : UInt8 := 0xC7
def ipmiCcInvalidDataField : UInt8 := 0xCC
def ipmiCcUnspecified : UInt8 := 0xFF

def lunBmc : UInt8 := 0x00

def maxKcsPktSize : ℕ := 64 * 1024
def maxIpmiReqDataSize : ℕ := maxKcsPktSize
def maxIpmiResDataSize : ℕ := 64

/-- The macro `GET_RESP_NETFN_LUN(lun, netfn)`: netfn in bits 7:2, lun in bits 1:0. -/
def getRespNetfnLun (lun netFn : UInt8) : UInt8 :=
  (lun &&& 0x03) ||| (((netFn + 1) <<< (2 : UInt8)) &&& 0xFD)

/-- The request side of `struct ipmi_cmd_data`: `reqData` is `req_data[0 .. req_len)`. -/
structure IpmiCmdData where
  netFun : UInt8
  cmd : UInt8
  reqData : List UInt8
  deriving DecidableEq, Repr

/-- The response side: `bytes` is `res_data[0 .. res_len)`. -/
structure ResData where
  bytes : List UInt8
  fits : bytes.length ≤ maxIpmiResDataSize

abbrev FunHandler (ε : Type*) := List UInt8 → ε → ResData × ε

structure IpmiCmdTable (ε : Type*) where
  netFun : UInt8
  cmd : UInt8
  processCmd : FunHandler ε

variable {ε : Type*}

/-- A response that is a completion code and nothing else. -/
def ResData.code (cc : UInt8) : ResData := ⟨[cc], by simp [maxIpmiResDataSize]⟩

def ipmiCmdHandler (tbl : List (IpmiCmdTable ε)) (ipmiData : IpmiCmdData) (env : ε) :
    ResData × ε :=
  match tbl.find? (fun e => e.netFun == ipmiData.netFun && e.cmd == ipmiData.cmd) with
  | none => (.code ipmiCcInvalidCmd, env)
  | some e => e.processCmd ipmiData.reqData env

/-- An effect on the state comes from the entry that carries the request's codes. -/
theorem ipmiCmdHandler_env_ne {tbl : List (IpmiCmdTable ε)} {d : IpmiCmdData} {env : ε}
    (h : (ipmiCmdHandler tbl d env).2 ≠ env) :
    ∃ e ∈ tbl, e.netFun = d.netFun ∧ e.cmd = d.cmd ∧
      ipmiCmdHandler tbl d env = e.processCmd d.reqData env := by
  cases hf : tbl.find? (fun e => e.netFun == d.netFun && e.cmd == d.cmd) with
  | none => exact absurd (by simp only [ipmiCmdHandler, hf]) h
  | some e =>
    have hp := List.find?_some hf
    simp only [Bool.and_eq_true, beq_iff_eq] at hp
    exact ⟨e, List.mem_of_find?_eq_some hf, hp.1, hp.2, by simp only [ipmiCmdHandler, hf]⟩

end MetaCommon.Kcs
