import MetaCommon.Lib.JsonTree
import MetaCommon.Lib.Runs
import MetaCommon.Lib.Shared

/-!
# PATCH of the CUPS service

Each property of the body that can be converted is set by a call of its own. The callbacks share an
object that collects what was updated and what was not, and its destructor fills in the response:
with an error for each property, or with the service and a message beside each property that was not
updated. `json_util` and `time_utils` are upstream.
-/

namespace MetaCommon.Telemetry.Cups

open JsonTree

inductive Property
  | averagingPeriod
  | interval
  | loadFactorConfiguration
  | staticLoadFactors
deriving DecidableEq

inductive Value
  | milliseconds (ms : BitVec 64)
  | text (s : String)
  | loadFactors (core iio memory : ℚ)

structure CupsBody where
  staticLoadFactors : Option JsonTree
  averagingPeriod : Option String
  interval : Option String
  loadFactorConfiguration : Option String

def readCupsMembers [Reader] (members : List (String × JsonTree)) : Option CupsBody := do
  let staticLoadFactors ← readOptional members "StaticLoadFactors" asJson
  let averagingPeriod ← readOptional members "AveragingPeriod" asString
  let interval ← readOptional members "Interval" asString
  let loadFactorConfiguration ← readOptional members "LoadFactorConfiguration" asString
  return ⟨staticLoadFactors, averagingPeriod, interval, loadFactorConfiguration⟩

/-- `json_util::readJsonPatch`, which leaves out annotations and refuses a body without anything
else. -/
def readCupsBody [Reader] (json : JsonTree) : Option CupsBody :=
  match onlyMembers ["StaticLoadFactors", "AveragingPeriod", "Interval",
    "LoadFactorConfiguration"] (withoutAnnotations json) with
  | some (member :: members) => readCupsMembers (member :: members)
  | _ => none

/-- `json_util::readJson` with the load factors, which all have to be there. -/
def readLoadFactors [Reader] (json : JsonTree) : Option Value := do
  let members ← onlyMembers ["CoreLoadFactor", "IioLoadFactor", "MemoryLoadFactor"] json
  let core ← (members.lookup "CoreLoadFactor").bind asNumber
  let iio ← (members.lookup "IioLoadFactor").bind asNumber
  let memory ← (members.lookup "MemoryLoadFactor").bind asNumber
  return .loadFactors core iio memory

/-- The response: whether its result is "bad request", whether its JSON holds what `json_util` has
reported and the members of the service, the properties of "error", and those that have a message
beside them. -/
structure Response where
  badRequest : Bool
  readErrors : Bool
  service : Bool
  error : List Property
  annotated : List Property
deriving DecidableEq

structure PatchAsyncResp where
  updatedProperties : List Property
  invalidProperties : List Property

def PatchAsyncResp.propertyChanged (p : PatchAsyncResp) (property : Property) : PatchAsyncResp :=
  { p with updatedProperties := p.updatedProperties ++ [property] }

def PatchAsyncResp.propertyInvalid (p : PatchAsyncResp) (property : Property) : PatchAsyncResp :=
  { p with invalidProperties := p.invalidProperties ++ [property] }

/-- `getCupsServiceJson` assigns the whole JSON. -/
def Response.getCupsServiceJson (r : Response) : Response :=
  { r with readErrors := false, service := true, error := [], annotated := [] }

/-- The destructor of the collecting object. -/
def PatchAsyncResp.destroy (p : PatchAsyncResp) (r : Response) : Response :=
  if p.updatedProperties = [] ∧ p.invalidProperties ≠ [] then
    { r with badRequest := true, error := r.error ++ p.invalidProperties }
  else if p.updatedProperties ≠ [] then
    let r := r.getCupsServiceJson
    { r with annotated := r.annotated ++ p.invalidProperties }
  else r

/-- The calls that read the service for the answer: its configuration, and both load factors. -/
def answerReads (p : PatchAsyncResp) : ℕ := if p.updatedProperties = [] then 0 else 3

/-- The objects, the calls that are not answered yet, and how many reads of the answer are not. -/
structure Patching where
  patchResp : Shared PatchAsyncResp
  resp : Shared Response
  waiting : List (Property × Value)
  reads : ℕ

namespace Patching

def acquireResp (n : ℕ) (resp : Shared Response) : Shared Response :=
  match n with
  | 0 => resp
  | n + 1 => acquireResp n resp.acquire

/-- The collecting object is let go, and lets go of the response if it is destroyed. -/
def releasePatch (s : Patching) : Patching :=
  if s.patchResp.holders = 1 then
    let p := s.patchResp.value
    { s with
      patchResp := s.patchResp.release
      resp := (acquireResp (answerReads p) (s.resp.modify p.destroy)).release
      reads := s.reads + answerReads p }
  else { s with patchResp := s.patchResp.release }

def setDbusProperty (s : Patching) (property : Property) (value : Value) : Patching :=
  { s with patchResp := s.patchResp.acquire, waiting := s.waiting ++ [(property, value)] }

def invalid (s : Patching) (property : Property) : Patching :=
  { s with patchResp := s.patchResp.modify (·.propertyInvalid property) }

end Patching

section Patch

variable (fromDurationString : String → Option ℤ)

/-- A duration is set, or invalid. -/
def patchDuration (property : Property) (text : Option String) (s : Patching) : Patching :=
  match text with
  | none => s
  | some text =>
    match fromDurationString text with
    | some ms => s.setDbusProperty property (.milliseconds (BitVec.ofInt 64 ms))
    | none => s.invalid property

def patchText (property : Property) (text : Option String) (s : Patching) : Patching :=
  match text with
  | none => s
  | some text => s.setDbusProperty property (.text text)

/-- The load factors are set, or what `json_util` reports is in the response. -/
def patchLoadFactors [Reader] (json : Option JsonTree) (s : Patching) : Patching :=
  match json with
  | none => s
  | some json =>
    match readLoadFactors json with
    | some value => s.setDbusProperty .staticLoadFactors value
    | none => { s with resp := s.resp.modify ({ · with badRequest := true, readErrors := true }) }

/-- The handler, to its end: it holds the response and the collecting object, which holds the
response too. -/
def handlePatch [Reader] (v : CupsBody) : Patching :=
  let s : Patching := ⟨.make 1 ⟨[], []⟩, .make 2 ⟨false, false, false, [], []⟩, [], 0⟩
  let s := patchDuration fromDurationString .averagingPeriod v.averagingPeriod s
  let s := patchDuration fromDurationString .interval v.interval s
  let s := patchText .loadFactorConfiguration v.loadFactorConfiguration s
  let s := patchLoadFactors v.staticLoadFactors s
  let s := s.releasePatch
  { s with resp := s.resp.release }

end Patch

/-- A call that set a property is answered, or one that reads the service. -/
inductive Event
  | reply (property : Property) (ok : Bool)
  | read

def onReply (s : Patching) (property : Property) (ok : Bool) : Patching :=
  Patching.releasePatch { s with
    waiting := s.waiting.eraseP (·.1 = property)
    patchResp := s.patchResp.modify fun p =>
      if ok then p.propertyChanged property else p.propertyInvalid property }

def step (s : Patching) : Event → Option Patching
  | .reply property ok =>
    if property ∈ s.waiting.map Prod.fst then some (onReply s property ok) else none
  | .read =>
    if 0 < s.reads then some { s with reads := s.reads - 1, resp := s.resp.release } else none

/-! ### What is reported -/

/-- The load factors are in the body, but cannot be read. -/
def readFailed [Reader] (v : CupsBody) : Bool :=
  v.staticLoadFactors.any fun json => (readLoadFactors json).isNone

/-- The properties of the body, without load factors that cannot be read. -/
def named [Reader] (v : CupsBody) : List Property :=
  (if v.averagingPeriod.isSome then [.averagingPeriod] else []) ++
    (if v.interval.isSome then [.interval] else []) ++
    (if v.loadFactorConfiguration.isSome then [.loadFactorConfiguration] else []) ++
    if (v.staticLoadFactors.bind readLoadFactors).isSome then [.staticLoadFactors] else []

/-- The durations that are none. -/
def unparsable (fromDurationString : String → Option ℤ) (v : CupsBody) : List Property :=
  (if v.averagingPeriod.any fun text => (fromDurationString text).isNone then [.averagingPeriod]
    else []) ++
    if v.interval.any fun text => (fromDurationString text).isNone then [.interval] else []

def updates (es : List Event) : List Property :=
  es.filterMap fun
    | .reply property true => some property
    | _ => none

def failures (es : List Event) : List Property :=
  es.filterMap fun
    | .reply property false => some property
    | _ => none

/-- The response before the collecting object is destroyed. -/
def unanswered (readFailed : Bool) : Response := ⟨readFailed, readFailed, false, [], []⟩

/-- While a handler runs that holds the collecting object: who holds what, and that each property of
the body is waited for or reported. `others` hold the response. -/
structure Live (others : ℕ) (readFailed : Bool) (named : List Property) (p : PatchAsyncResp)
    (s : Patching) : Prop where
  patchSound : s.patchResp.Sound
  respSound : s.resp.Sound
  patchHolders : s.patchResp.holders = s.waiting.length + 1
  respHolders : s.resp.holders = others + 1
  reads : s.reads = 0
  collected : s.patchResp.value = p
  response : s.resp.value = unanswered readFailed
  reported : (s.waiting.map Prod.fst ++ (p.updatedProperties ++ p.invalidProperties)).Perm named

/-- When no handler runs. -/
structure Inv (others : ℕ) (readFailed : Bool) (named : List Property) (p : PatchAsyncResp)
    (s : Patching) : Prop where
  patchSound : s.patchResp.Sound
  respSound : s.resp.Sound
  patchHolders : s.patchResp.holders = s.waiting.length
  respHolders : s.resp.holders = others + (if s.waiting = [] then 0 else 1) + s.reads
  reads : s.waiting ≠ [] → s.reads = 0
  collected : s.patchResp.value = p
  response : s.resp.value =
    if s.waiting = [] then p.destroy (unanswered readFailed) else unanswered readFailed
  reported : (s.waiting.map Prod.fst ++ (p.updatedProperties ++ p.invalidProperties)).Perm named

section Steps

variable {others : ℕ} {failed : Bool} {names : List Property} {p : PatchAsyncResp} {s s' : Patching}

theorem acquireResp_spec (n : ℕ) {resp : Shared Response} (hsound : resp.Sound)
    (hheld : 0 < resp.holders) : (Patching.acquireResp n resp).Sound ∧
      (Patching.acquireResp n resp).holders = resp.holders + n ∧
      (Patching.acquireResp n resp).value = resp.value := by
  induction n generalizing resp with
  | zero => exact ⟨hsound, rfl, rfl⟩
  | succ n ih =>
    obtain ⟨hsound', hholders, hvalue⟩ := ih (hsound.acquire hheld) (Nat.succ_pos _)
    refine ⟨hsound', ?_, hvalue⟩
    rw [Patching.acquireResp, hholders, Shared.holders_acquire]
    omega

/-- The collecting object is destroyed by the last one that holds it. -/
theorem Live.releasePatch (h : Live others failed names p s) :
    Inv others failed names p s.releasePatch := by
  have hpatch := h.patchHolders
  have hresp := h.respHolders
  have hcollected := h.collected
  unfold Patching.releasePatch
  by_cases hlast : s.patchResp.holders = 1
  · have hwaiting : s.waiting = [] := List.length_eq_zero_iff.mp (by omega)
    have hsound : (s.resp.modify p.destroy).Sound := h.respSound.modify (by omega) _
    have hheld : 0 < (s.resp.modify p.destroy).holders := by
      rw [Shared.holders_modify]
      omega
    obtain ⟨hsound', hholders, hvalue⟩ := acquireResp_spec (answerReads p) hsound hheld
    rw [Shared.holders_modify] at hholders
    rw [if_pos hlast, hcollected]
    dsimp only
    refine ⟨h.patchSound.release (by omega), hsound'.release (by omega), ?_, ?_, ?_, hcollected,
      ?_, h.reported⟩
    · rw [Shared.holders_release]
      dsimp only
      omega
    · rw [Shared.holders_release, hholders, if_pos hwaiting, h.reads]
      dsimp only
      omega
    · exact fun hne => absurd hwaiting hne
    · rw [Shared.value_release, hvalue, Shared.value_modify, h.response, if_pos hwaiting]
  · have hwaiting : s.waiting ≠ [] := by
      intro hnil
      rw [hnil] at hpatch
      exact hlast hpatch
    rw [if_neg hlast]
    refine ⟨h.patchSound.release (by omega), h.respSound, ?_, ?_, fun _ => h.reads, hcollected, ?_,
      h.reported⟩
    · rw [Shared.holders_release]
      dsimp only
      omega
    · rw [if_neg hwaiting, h.reads]
      exact hresp
    · rw [if_neg hwaiting]
      exact h.response

theorem Live.setDbusProperty (h : Live others failed names p s) (property : Property)
    (value : Value) :
    Live others failed (names ++ [property]) p (s.setDbusProperty property value) := by
  have hpatch := h.patchHolders
  refine ⟨h.patchSound.acquire (by omega), h.respSound, ?_, h.respHolders, h.reads, h.collected,
    h.response, ?_⟩
  · simp only [Patching.setDbusProperty, Shared.holders_acquire, List.length_append,
      List.length_singleton]
    omega
  · simp only [Patching.setDbusProperty, List.map_append, List.map_singleton]
    have hmiddle : (s.waiting.map Prod.fst ++ [property] ++
        (p.updatedProperties ++ p.invalidProperties)).Perm (s.waiting.map Prod.fst ++
          (p.updatedProperties ++ p.invalidProperties) ++ [property]) := by
      rw [List.append_assoc, List.append_assoc]
      exact List.perm_append_comm.append_left _
    exact hmiddle.trans (h.reported.append_right _)

theorem Live.invalid (h : Live others failed names p s) (property : Property) :
    Live others failed (names ++ [property]) (p.propertyInvalid property) (s.invalid property) := by
  have hpatch := h.patchHolders
  refine ⟨h.patchSound.modify (by omega) _, h.respSound, hpatch, h.respHolders, h.reads, ?_,
    h.response, ?_⟩
  · rw [Patching.invalid, Shared.value_modify, h.collected]
  · simp only [Patching.invalid, PatchAsyncResp.propertyInvalid]
    rw [← List.append_assoc p.updatedProperties, ← List.append_assoc]
    exact h.reported.append_right _

theorem Live.patchText (h : Live others failed names p s) (property : Property)
    (text : Option String) : Live others failed
      (names ++ if text.isSome then [property] else []) p (patchText property text s) := by
  cases text with
  | none => simpa [Cups.patchText] using h
  | some text => exact h.setDbusProperty property (.text text)

theorem Live.patchDuration (h : Live others failed names p s)
    (fromDurationString : String → Option ℤ) (property : Property)
    (text : Option String) :
    Live others failed (names ++ if text.isSome then [property] else [])
      ⟨p.updatedProperties, p.invalidProperties ++
        if text.any fun text => (fromDurationString text).isNone then [property] else []⟩
      (patchDuration fromDurationString property text s) := by
  cases text with
  | none => simpa [Cups.patchDuration] using h
  | some text =>
    cases htext : fromDurationString text with
    | none =>
      simpa [Cups.patchDuration, htext, PatchAsyncResp.propertyInvalid] using h.invalid property
    | some ms => simpa [Cups.patchDuration, htext] using h.setDbusProperty property _

theorem Live.patchLoadFactors [Reader] (h : Live others false names p s) (json : Option JsonTree) :
    Live others (json.any fun json => (readLoadFactors json).isNone)
      (names ++ if (json.bind readLoadFactors).isSome then [.staticLoadFactors] else []) p
      (patchLoadFactors json s) := by
  cases json with
  | none => simpa [Cups.patchLoadFactors] using h
  | some json =>
    cases hjson : readLoadFactors json with
    | some value =>
      simpa [Cups.patchLoadFactors, hjson] using h.setDbusProperty .staticLoadFactors value
    | none =>
      have hresp := h.respHolders
      simp only [Cups.patchLoadFactors, hjson, Option.bind_some, Option.isSome_none,
        Bool.false_eq_true, if_false, List.append_nil, Option.any_some, Option.isNone_none]
      refine ⟨h.patchSound, h.respSound.modify (by omega) _, h.patchHolders, hresp, h.reads,
        h.collected, ?_, h.reported⟩
      rw [Shared.value_modify, h.response]
      rfl

theorem Inv.releaseResp (h : Inv (others + 1) failed names p s) :
    Inv others failed names p { s with resp := s.resp.release } := by
  have hresp := h.respHolders
  refine ⟨h.patchSound, h.respSound.release (by omega), h.patchHolders, ?_, h.reads, h.collected,
    h.response, h.reported⟩
  rw [Shared.holders_release]
  dsimp only
  omega

end Steps

/-- When the handler is over, each property of the body is waited for or invalid. -/
theorem inv_handlePatch [Reader] (fromDurationString : String → Option ℤ) (v : CupsBody) :
    Inv 0 (readFailed v) (named v) ⟨[], unparsable fromDurationString v⟩
      (handlePatch fromDurationString v) := by
  have hstart : Live 1 false [] ⟨[], []⟩ (⟨.make 1 ⟨[], []⟩, .make 2 ⟨false, false, false, [], []⟩,
      [], 0⟩ : Patching) :=
    ⟨Shared.sound_make (by decide) _, Shared.sound_make (by decide) _, rfl, rfl, rfl, rfl, rfl,
      List.Perm.refl _⟩
  have hdurations := (hstart.patchDuration fromDurationString .averagingPeriod
    v.averagingPeriod).patchDuration fromDurationString .interval v.interval
  have hlive := (hdurations.patchText .loadFactorConfiguration
    v.loadFactorConfiguration).patchLoadFactors v.staticLoadFactors
  have hinv := hlive.releasePatch.releaseResp
  simp only [List.nil_append] at hinv
  exact hinv

/-! ### The replies -/

section Runs

variable {failed : Bool} {names : List Property} {p : PatchAsyncResp} {s s' : Patching} {e : Event}

/-- What a reply adds to what is collected. -/
def collect (p : PatchAsyncResp) : Event → PatchAsyncResp
  | .reply property true => p.propertyChanged property
  | .reply property false => p.propertyInvalid property
  | .read => p

theorem waiting_releasePatch (s : Patching) : s.releasePatch.waiting = s.waiting := by
  unfold Patching.releasePatch
  split_ifs <;> rfl

theorem collect_perm (p : PatchAsyncResp) (property : Property) (ok : Bool) :
    ((collect p (.reply property ok)).updatedProperties ++
      (collect p (.reply property ok)).invalidProperties).Perm
        (property :: (p.updatedProperties ++ p.invalidProperties)) := by
  cases ok with
  | true =>
    simp only [collect, PatchAsyncResp.propertyChanged, List.append_assoc, List.singleton_append]
    exact List.perm_middle
  | false =>
    simp only [collect, PatchAsyncResp.propertyInvalid, ← List.append_assoc]
    exact List.perm_append_singleton _ _

theorem map_fst_eraseP (waiting : List (Property × Value)) (property : Property) :
    (waiting.eraseP (·.1 = property)).map Prod.fst = (waiting.map Prod.fst).erase property := by
  induction waiting with
  | nil => rfl
  | cons w waiting ih =>
    rw [List.eraseP_cons, List.map_cons, List.erase_cons]
    by_cases heq : w.1 = property
    · simp [heq]
    · simp [heq, ih]

theorem step_inv (h : Inv 0 failed names p s) (hs : step s e = some s') :
    Inv 0 failed names (collect p e) s' := by
  cases e with
  | reply property ok =>
    unfold step at hs
    dsimp only at hs
    split_ifs at hs with hmem
    obtain rfl := Option.some.inj hs
    have hne : s.waiting ≠ [] := by
      rintro hnil
      simp [hnil] at hmem
    have hpatch := h.patchHolders
    have hresp := h.respHolders
    have hpos := List.length_pos_iff.mpr hne
    rw [if_neg hne, h.reads hne] at hresp
    have hlength := congrArg List.length (map_fst_eraseP s.waiting property)
    rw [List.length_map, List.length_erase_of_mem hmem, List.length_map] at hlength
    have hresponse := h.response
    rw [if_neg hne] at hresponse
    apply Live.releasePatch
    refine ⟨h.patchSound.modify (by omega) _, h.respSound, ?_, hresp, h.reads hne, ?_, hresponse,
      ?_⟩
    · simp only [Shared.holders_modify]
      omega
    · rw [Shared.value_modify, h.collected]
      cases ok <;> rfl
    · dsimp only
      rw [map_fst_eraseP]
      refine List.Perm.trans ?_ h.reported
      refine List.Perm.trans ?_ ((List.perm_cons_erase hmem).symm.append_right _)
      exact ((collect_perm p property ok).append_left _).trans List.perm_middle
  | read =>
    unfold step at hs
    dsimp only at hs
    split_ifs at hs with hpos
    obtain rfl := Option.some.inj hs
    have hresp := h.respHolders
    have hwaiting : s.waiting = [] := by
      by_contra hne
      have hzero := h.reads hne
      omega
    refine ⟨h.patchSound, h.respSound.release (by omega), h.patchHolders, ?_, ?_, h.collected,
      h.response, h.reported⟩
    · rw [Shared.holders_release]
      dsimp only
      omega
    · exact fun hne => absurd hwaiting hne

/-- What is collected in a run. -/
theorem foldl_collect (p : PatchAsyncResp) (es : List Event) :
    es.foldl collect p =
      ⟨p.updatedProperties ++ updates es, p.invalidProperties ++ failures es⟩ := by
  induction es generalizing p with
  | nil => simp [updates, failures]
  | cons e es ih =>
    rw [List.foldl_cons, ih]
    cases e with
    | reply property ok =>
      cases ok with
      | true => simp [collect, PatchAsyncResp.propertyChanged, updates, failures]
      | false => simp [collect, PatchAsyncResp.propertyInvalid, updates, failures]
    | read => rfl

theorem exec_inv (h : Inv 0 failed names p s) {es : List Event}
    (hs : Runs.exec step s es = some s') : Inv 0 failed names (es.foldl collect p) s' := by
  induction es generalizing s p with
  | nil =>
    obtain rfl := Option.some.inj hs
    exact h
  | cons e es ih =>
    obtain ⟨t, ht, hs⟩ := Option.bind_eq_some_iff.mp hs
    exact ih (step_inv h ht) hs

theorem exists_exec_reads (h : Inv 0 failed names p s) (hwaiting : s.waiting = []) :
    ∃ es s', Runs.exec step s es = some s' ∧ s'.waiting = [] ∧ s'.reads = 0 := by
  induction hn : s.reads generalizing s with
  | zero => exact ⟨[], s, rfl, hwaiting, hn⟩
  | succ n ih =>
    have hread : step s .read = some { s with reads := s.reads - 1, resp := s.resp.release } := by
      rw [step, if_pos (by omega)]
    obtain ⟨es, s', hexec, hdone⟩ := ih (step_inv h hread) hwaiting (by simp [hn])
    exact ⟨.read :: es, s', by rw [Runs.exec_cons, hread]; exact hexec, hdone⟩

/-- The replies can always come. -/
theorem exists_exec_answered (h : Inv 0 failed names p s) :
    ∃ es s', Runs.exec step s es = some s' ∧ s'.waiting = [] ∧ s'.reads = 0 := by
  induction hn : s.waiting.length generalizing s p with
  | zero => exact exists_exec_reads h (List.length_eq_zero_iff.mp hn)
  | succ n ih =>
    obtain ⟨w, hw⟩ := List.exists_mem_of_length_pos (show 0 < s.waiting.length by omega)
    have hmem : w.1 ∈ s.waiting.map Prod.fst := List.mem_map_of_mem hw
    have hreply : step s (.reply w.1 true) = some (onReply s w.1 true) := if_pos hmem
    have hlength : (onReply s w.1 true).waiting.length = n := by
      have herase := congrArg List.length (map_fst_eraseP s.waiting w.1)
      rw [List.length_map, List.length_erase_of_mem hmem, List.length_map] at herase
      rw [onReply, waiting_releasePatch]
      dsimp only
      omega
    obtain ⟨es, s', hexec, hdone⟩ := ih (step_inv h hreply) hlength
    exact ⟨.reply w.1 true :: es, s', by rw [Runs.exec_cons, hreply]; exact hexec, hdone⟩

theorem destroy_unanswered (updated invalid : List Property) (readFailed : Bool) :
    PatchAsyncResp.destroy ⟨updated, invalid⟩ (unanswered readFailed) =
      if updated ≠ [] then ⟨readFailed, false, true, [], invalid⟩
      else ⟨readFailed || invalid ≠ [], readFailed, false, invalid, []⟩ := by
  unfold PatchAsyncResp.destroy
  by_cases hupdated : updated = []
  · by_cases hinvalid : invalid = []
    · simp [hupdated, hinvalid, unanswered]
    · simp [hupdated, hinvalid, unanswered]
  · simp [hupdated, unanswered, Response.getCupsServiceJson]

theorem lookup_of_readOptional_none {α : Type} {members : List (String × JsonTree)} {name : String}
    {unpack : JsonTree → Option α} (h : readOptional members name unpack = some none) :
    members.lookup name = none := by
  unfold readOptional at h
  split at h
  · next hlookup => exact hlookup
  · exact absurd h (by simp)

/-- A body that can be read names a property. -/
theorem named_of_readCupsBody [Reader] {json : JsonTree} {v : CupsBody}
    (h : readCupsBody json = some v) : named v ≠ [] ∨ readFailed v = true := by
  unfold readCupsBody at h
  split at h
  · next member members hmembers =>
    obtain ⟨-, hall⟩ := onlyMembers_eq_some_iff.mp hmembers
    unfold readCupsMembers at h
    simp only [Option.bind_eq_bind, Option.bind_eq_some_iff] at h
    obtain ⟨factors, hfactors, period, hperiod, interval, hinterval, config, hconfig, hv⟩ := h
    obtain rfl := Option.some.inj hv
    have hfirst : ∀ {α : Type} {unpack : JsonTree → Option α},
        readOptional (member :: members) member.1 unpack ≠ some none := by
      intro α unpack hnone
      have hlookup := lookup_of_readOptional_none hnone
      rw [List.lookup_cons_self] at hlookup
      exact nomatch hlookup
    have hname := hall member List.mem_cons_self
    simp only [List.mem_cons, List.not_mem_nil, or_false] at hname
    rcases hname with hname | hname | hname | hname
    · cases factors with
      | none => exact absurd (hname ▸ hfactors) hfirst
      | some json =>
        cases hread : readLoadFactors json with
        | none => exact .inr (by simp [readFailed, hread])
        | some value => exact .inl (by simp [named, hread])
    · cases period with
      | none => exact absurd (hname ▸ hperiod) hfirst
      | some text => exact .inl (by simp [named])
    · cases interval with
      | none => exact absurd (hname ▸ hinterval) hfirst
      | some text => exact .inl (by simp [named])
    · cases config with
      | none => exact absurd (hname ▸ hconfig) hfirst
      | some text => exact .inl (by simp [named])
  · exact nomatch h

/-- In whatever order the properties are set and the service is read for the answer: the response is
sent once, when all that has been done, and each property of the body has by then been updated or
not, once. Where none was updated the properties are in "error", otherwise the service is shown,
with a message beside each one that was not; what `json_util` reports of the load factors is then
gone from the JSON. -/
theorem patch_answered [Reader] (fromDurationString : String → Option ℤ) (json : JsonTree)
    (v : CupsBody) (es : List Event) (s : Patching) (hbody : readCupsBody json = some v)
    (h : Runs.exec step (handlePatch fromDurationString v) es = some s) :
    let invalid := unparsable fromDurationString v ++ failures es
    s.resp.finalized = (if s.waiting = [] ∧ s.reads = 0 then
      [if updates es ≠ [] then ⟨readFailed v, false, true, [], invalid⟩
        else ⟨true, readFailed v, false, invalid, []⟩] else []) ∧
    (s.waiting.map Prod.fst ++ (updates es ++ invalid)).Perm (named v) ∧
    ∃ fs s', Runs.exec step s fs = some s' ∧ s'.waiting = [] ∧ s'.reads = 0 := by
  intro invalid
  have hinv := exec_inv (inv_handlePatch fromDurationString v) h
  rw [foldl_collect] at hinv
  refine ⟨?_, hinv.reported, exists_exec_answered hinv⟩
  have hresp := hinv.respHolders
  by_cases hdone : s.waiting = [] ∧ s.reads = 0
  · rw [if_pos hdone.1, hdone.2] at hresp
    rw [hinv.respSound.finalized_of_free hresp, if_pos hdone, hinv.response, if_pos hdone.1,
      List.nil_append, destroy_unanswered]
    -- a body with nothing to report would have been refused
    by_cases hupdated : updates es = []
    · have hreported := hinv.reported
      rw [hdone.1, List.map_nil, List.nil_append, List.nil_append, hupdated, List.nil_append]
        at hreported
      have hbad : (readFailed v || decide (invalid ≠ [])) = true := by
        rcases named_of_readCupsBody hbody with hnamed | hfailed
        · have hinvalid : invalid ≠ [] := fun hnil =>
            hnamed (List.nil_perm.mp (hnil ▸ hreported))
          simp [hinvalid]
        · simp [hfailed]
      rw [if_neg (not_not.mpr hupdated), if_neg (not_not.mpr hupdated), hbad]
    · rw [if_pos hupdated, if_pos hupdated]
  · have hheld : 0 < s.resp.holders := by
      by_cases hwaiting : s.waiting = []
      · have hreads : s.reads ≠ 0 := fun hzero => hdone ⟨hwaiting, hzero⟩
        omega
      · rw [if_neg hwaiting] at hresp
        omega
    rw [hinv.respSound.finalized_of_held hheld, if_neg hdone]

/-- The averaging period is set, an interval cannot be parsed, and load factors are missing. -/
def partlyValid : JsonTree := .object [("StaticLoadFactors", .object []),
  ("AveragingPeriod", .string "PT1S"), ("Interval", .string "soon")]

theorem patch_answered_partlyValid :
    let v : CupsBody := ⟨some (.object []), some "PT1S", some "soon", none⟩
    let fromDurationString := fun text => if text = "PT1S" then some 1000 else none
    readCupsBody partlyValid = some v ∧
    ∃ s, Runs.exec step (handlePatch fromDurationString v)
        [.reply .averagingPeriod true, .read, .read, .read] = some s ∧
      s.resp.finalized = [⟨true, false, true, [], [.interval]⟩] := by
  intro v fromDurationString
  obtain ⟨s, hs⟩ := Option.isSome_iff_exists.mp (show (Runs.exec step
    (handlePatch fromDurationString v)
    [.reply .averagingPeriod true, .read, .read, .read]).isSome = true by decide)
  obtain rfl := Option.some.inj (Eq.trans hs.symm rfl)
  exact ⟨rfl, _, hs, (patch_answered fromDurationString partlyValid v _ _ rfl hs).1⟩

end Runs

end MetaCommon.Telemetry.Cups
