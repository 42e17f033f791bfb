import MetaCommon.Kcs.Reaction

/-!
# Requests and their responses

`ipmiRequest` and `ipmiResponse` read a request off the list of its bytes, without the packet.
`Holds` says that the packet has accepted exactly such a list, and `fillResponse_eq` that the
driver's processing of that packet is then the reading of the list.
-/

namespace MetaCommon.Kcs

open Buffer

variable {ε : Type*} (tbl : List (IpmiCmdTable ε))

/-- The request handed to the command handler: only LUN 0 is served, and at least the network
function and the command have to be there. -/
def ipmiRequest : List UInt8 → Option IpmiCmdData
  | b₀ :: b₁ :: rest => if b₀ &&& 0x03 = lunBmc then some ⟨b₀ >>> 2, b₁, rest⟩ else none
  | _ => none

/-- The bytes `ipmi_cmd_handler` answers a request with, behind the response network function and
the command. -/
def handlerResponse (d : IpmiCmdData) (env : ε) : List UInt8 :=
  getRespNetfnLun lunBmc d.netFun :: d.cmd :: (ipmiCmdHandler tbl d env).1.bytes

/-- The refusal of a request for another LUN. -/
def lunResponse (b₀ b₁ : UInt8) : List UInt8 :=
  [getRespNetfnLun (b₀ &&& 0x03) (b₀ >>> 2), b₁, ipmiCcInvalidCmdLun]

def ipmiResponse (env : ε) : List UInt8 → List UInt8
  | b₀ :: b₁ :: rest =>
    if b₀ &&& 0x03 = lunBmc then handlerResponse tbl ⟨b₀ >>> 2, b₁, rest⟩ env
    else lunResponse b₀ b₁
  | _ => []

/-- The packet has accepted the bytes `bs` and nothing else since its index was reset. -/
def KcsPacket.Holds (p : KcsPacket) (bs : List UInt8) : Prop :=
  p.dataInIdx.toNat = bs.length ∧ load p.dataIn 0 bs.length = bs

theorem KcsPacket.Holds.accept {p : KcsPacket} {bs : List UInt8} (hh : p.Holds bs)
    (hlen : bs.length < 65535) (b : UInt8) : (p.accept b).Holds (bs ++ [b]) := by
  obtain ⟨hidx, hload⟩ := hh
  constructor
  · have hlt : p.dataInIdx.toNat < 65535 := by rw [hidx]; exact hlen
    simp only [KcsPacket.accept, toNat_succ_of_lt hlt, hidx, List.length_append,
      List.length_singleton]
  · simp only [KcsPacket.accept, List.length_append, List.length_singleton, load_concat, hidx,
      Nat.zero_add, Function.update_self]
    rw [load_update_of_not_mem _ _ _ _ _ (.inr (by omega)), hload]

theorem reqDataCheck_of_two_le {n : UInt16} (hn : 2 ≤ n.toNat) :
    ¬ UInt32.ofNat maxIpmiReqDataSize < n.toUInt32 - 2 := by
  have hlt : n.toNat < 65536 := n.toNat_lt
  have hle : (2 : UInt32) ≤ n.toUInt32 := by
    rw [UInt32.le_iff_toNat_le, UInt16.toNat_toUInt32]
    exact hn
  rw [UInt32.lt_iff_toNat_lt, UInt32.toNat_sub_of_le _ _ hle, UInt16.toNat_toUInt32]
  change ¬ 65536 < n.toNat - 2
  omega

theorem reqDataCheck_of_lt_two {n : UInt16} (hn : n.toNat < 2) :
    UInt32.ofNat maxIpmiReqDataSize < n.toUInt32 - 2 := by
  have hcases : n = 0 ∨ n = 1 := by
    rcases Nat.lt_succ_iff_lt_or_eq.mp hn with h | h
    · exact .inl (UInt16.toNat_inj.mp (by simpa using h))
    · exact .inr (UInt16.toNat_inj.mp (by simpa using h))
  rcases hcases with rfl | rfl <;> decide

/-- A request shorter than two bytes never reaches the command handler. -/
theorem fillResponse_of_short (p : KcsPacket) (env : ε) (hp : p.dataInIdx.toNat < 2) :
    (fillResponse tbl p env).call = none ∧ (fillResponse tbl p env).env = env := by
  by_cases hl : p.dataIn 0 &&& 0x03 = lunBmc
  · simp [fillResponse, hl, reqDataCheck_of_lt_two hp]
  · simp [fillResponse, hl]

theorem fillResponse_of_holds (p : KcsPacket) (env : ε) (b₀ b₁ : UInt8) (rest : List UInt8)
    (hh : p.Holds (b₀ :: b₁ :: rest)) :
    (fillResponse tbl p env).bytes = ipmiResponse tbl env (b₀ :: b₁ :: rest) ∧
      (fillResponse tbl p env).call = ipmiRequest (b₀ :: b₁ :: rest) ∧
      (fillResponse tbl p env).env =
        ((ipmiRequest (b₀ :: b₁ :: rest)).map fun d => (ipmiCmdHandler tbl d env).2).getD env := by
  obtain ⟨hidx, hload⟩ := hh
  simp only [List.length_cons] at hidx hload
  rw [load_succ, load_succ] at hload
  have h₀ : p.dataIn 0 = b₀ := (List.cons.inj hload).1
  have h₁ : p.dataIn 1 = b₁ := (List.cons.inj (List.cons.inj hload).2).1
  have hrest : load p.dataIn 2 (p.dataInIdx.toNat - 2) = rest := by
    rw [hidx]
    exact (List.cons.inj (List.cons.inj hload).2).2
  by_cases hl : b₀ &&& 0x03 = lunBmc
  · have hcheck := reqDataCheck_of_two_le (n := p.dataInIdx) (by omega)
    have hfit : ¬ maxKcsPktSize <
        (ipmiCmdHandler tbl ⟨b₀ >>> 2, b₁, rest⟩ env).1.bytes.length + 2 := by
      have := (ipmiCmdHandler tbl ⟨b₀ >>> 2, b₁, rest⟩ env).1.fits
      simp only [maxIpmiResDataSize, maxKcsPktSize] at *
      omega
    simp [fillResponse, ipmiResponse, ipmiRequest, handlerResponse, h₀, h₁, hl, hcheck, hrest, hfit]
  · simp [fillResponse, ipmiResponse, ipmiRequest, lunResponse, h₀, h₁, hl]

/-- Every response has its network function, its command and at most 64 bytes after them. -/
theorem fillResponse_length (p : KcsPacket) (env : ε) :
    2 ≤ (fillResponse tbl p env).bytes.length ∧
      (fillResponse tbl p env).bytes.length ≤ maxIpmiResDataSize + 2 := by
  simp only [fillResponse]
  split_ifs with h₁ h₂ h₃
  · exact ⟨by simp, by simp [maxIpmiResDataSize]⟩
  · exact ⟨by simp, by simp [maxIpmiResDataSize]⟩
  · exact ⟨by simp, by simp [maxIpmiResDataSize]⟩
  · refine ⟨by simp, ?_⟩
    have := ResData.fits (ipmiCmdHandler tbl ⟨p.dataIn 0 >>> 2, p.dataIn 1,
      load p.dataIn 2 (p.dataInIdx.toNat - 2)⟩ env).1
    simpa using this

end MetaCommon.Kcs
