import MetaCommon.LicenseService.Service
import MetaCommon.Lib.Segments
import Mathlib.Data.Bool.AllAny

/-!
# The processors of the on-demand service

Each has an object below the same path, whose last segment is its name. A search for a name finds
the first processor that has the name as the end of its own, and the collection links to the
licenses of all their enabled features.
-/

namespace MetaCommon.LicenseService

/-! ### Names in paths -/

theorem isPath_of_forall {cs : List Char} (h : ∀ c ∈ cs, IsPchar c ∨ c = '/') :
    isPath cs = true := by
  fun_induction isPath cs with
  | case1 => rfl
  | case2 a b cs ih =>
    have hpct := h '%' List.mem_cons_self
    exact absurd hpct (by decide)
  | case3 c cs _ ih =>
    rw [ih fun d hd => h d (List.mem_cons_of_mem c hd), Bool.and_true, Bool.or_eq_true,
      decide_eq_true_iff, beq_iff_eq]
    exact h c List.mem_cons_self

theorem pctEncode_eq_self {cs : List Char} (h : ∀ c ∈ cs, IsPchar c) :
    cs.flatMap pctEncodeChar = cs := by
  induction cs with
  | nil => rfl
  | cons c cs ih =>
    rw [List.flatMap_cons, pctEncodeChar, if_pos (h c List.mem_cons_self),
      ih fun d hd => h d (List.mem_cons_of_mem c hd), List.singleton_append]

theorem format_eq_append {path arg : String} (h : ∀ c ∈ arg.toList, IsPchar c) :
    format path arg = path ++ arg := by
  rw [format, pctEncode_eq_self h, String.ofList_toList]

theorem slash_not_isPchar : ¬ IsPchar '/' := by decide

/-- A directory ends with a slash. -/
theorem backOfPath_append {dir last : String} (hslash : dir.toList.getLast? = some '/')
    (hdir : ∀ c ∈ dir.toList, IsPchar c ∨ c = '/') (hlength : 1 < dir.toList.length)
    (hlast : ∀ c ∈ last.toList, IsPchar c) : backOfPath (dir ++ last) = some last := by
  have htext : (dir ++ last).toList = dir.toList.dropLast ++ '/' :: last.toList := by
    obtain ⟨init, hinit⟩ := List.getLast?_eq_some_iff.mp hslash
    rw [String.toList_append, hinit, List.dropLast_concat, List.append_assoc,
      List.singleton_append]
  have hpath : isPath (dir ++ last).toList = true := by
    apply isPath_of_forall
    intro c hc
    rw [String.toList_append, List.mem_append] at hc
    rcases hc with hc | hc
    · exact hdir c hc
    · exact .inl (hlast c hc)
  have hne {s : String} (hs : s.toList.length ≤ 1) : dir ++ last ≠ s := by
    intro h
    rw [← h, String.toList_append, List.length_append] at hs
    omega
  have hplain : '/' ∉ last.toList := fun h => slash_not_isPchar (hlast _ h)
  rw [backOfPath, if_pos ⟨hpath, hne (by decide), hne (by decide)⟩, htext,
    Segments.rtakeWhile_append_cons hplain, String.ofList_toList]

theorem endsWith_iff (path name : String) :
    path.endsWith name = true ↔ name.toList <:+ path.toList := by
  have h := @String.Slice.endsWith_string_iff name path.toSlice
  rw [String.copy_toSlice] at h
  exact h

theorem matchLicense_eq_some_iff {expr text rest : List Char} :
    matchLicense expr text = some rest ↔ text = expr ++ rest ∧ rest ≠ [] ∧ '/' ∉ rest := by
  simp only [matchLicense, Option.bind_eq_some_iff, List.dropPrefix?_eq_some_iff, beq_iff_eq,
    exists_eq_right, Option.ite_none_right_eq_some, Option.some_inj]
  constructor
  · rintro ⟨_, rfl, h, rfl⟩
    exact ⟨rfl, h⟩
  · intro h
    exact ⟨rest, h.1, h.2, rfl⟩

theorem getLicenseTypeAndProcessorId_eq_some_iff {param : String} {method : Method}
    {licenseType processorId : String} :
    getLicenseTypeAndProcessorId param = some (method, licenseType, processorId) ↔
      licenseType = getLicenseTypeFromMethod method ∧ ∃ rest : List Char, rest ≠ [] ∧ '/' ∉ rest ∧
        cText param = licenseType.toList ++ ("cpu".toList ++ rest) ∧
        processorId = "cpu" ++ String.ofList rest := by
  have hprov (rest : List Char) : "ProvisionLicensecpu".toList ++ rest =
      "ProvisionLicense".toList ++ ("cpu".toList ++ rest) := by
    rw [← List.append_assoc]
    rfl
  have hdyn (rest : List Char) : "DynamicLicensecpu".toList ++ rest =
      "DynamicLicense".toList ++ ("cpu".toList ++ rest) := by
    rw [← List.append_assoc]
    rfl
  rw [getLicenseTypeAndProcessorId]
  cases hmatch : matchLicense "ProvisionLicensecpu".toList (cText param) with
  | some rest =>
    obtain ⟨htext, hne, hslash⟩ := matchLicense_eq_some_iff.mp hmatch
    simp only [Option.some_inj, Prod.mk.injEq]
    constructor
    · rintro ⟨rfl, rfl, rfl⟩
      exact ⟨rfl, rest, hne, hslash, htext.trans (hprov rest), rfl⟩
    · rintro ⟨rfl, rest', hne', hslash', htext', rfl⟩
      cases method with
      | GetProvisionState =>
        rw [htext, hprov] at htext'
        have hrest := List.append_cancel_left (List.append_cancel_left htext')
        exact ⟨rfl, rfl, by rw [hrest]⟩
      | GetFeatureState =>
        rw [htext] at htext'
        exact absurd (List.cons.inj htext').1 (by decide)
  | none =>
    simp only [Option.map_eq_some_iff, matchLicense_eq_some_iff, Prod.mk.injEq]
    constructor
    · rintro ⟨rest, ⟨htext, hne, hslash⟩, rfl, rfl, rfl⟩
      exact ⟨rfl, rest, hne, hslash, htext.trans (hdyn rest), rfl⟩
    · rintro ⟨rfl, rest, hne, hslash, htext, rfl⟩
      cases method with
      | GetProvisionState =>
        have hsome := matchLicense_eq_some_iff.mpr ⟨htext.trans (hprov rest).symm, hne, hslash⟩
        rw [hmatch] at hsome
        cases hsome
      | GetFeatureState => exact ⟨rest, ⟨htext.trans (hdyn rest).symm, hne, hslash⟩, rfl, rfl, rfl⟩

/-! ### What the on-demand service publishes -/

/-- A processor, as the mapper lists it. -/
structure Processor where
  name : String
  serviceMap : ServiceMap
  name_ne : name ≠ ""
  name_chars : ∀ c ∈ name.toList, c.isAlphanum = true ∨ c = '_'
  licensed : ∃ service ∈ serviceMap, featureEnableInterfaceName ∈ service.2

namespace Processor

variable (p : Processor)

def path : String := ondemandObjectPath ++ p.name

/-- The call for one of its features. -/
def call (service : String) (method : Method) : CollectionCall := ⟨p.path, method, p.name, service⟩

def calls (service : String) : List CollectionCall :=
  [p.call service .GetProvisionState, p.call service .GetFeatureState]

theorem mem_calls_iff {service : String} {call : CollectionCall} :
    call ∈ p.calls service ↔ ∃ method, call = p.call service method := by
  rw [calls, List.mem_pair]
  constructor
  · rintro (h | h)
    · exact ⟨_, h⟩
    · exact ⟨_, h⟩
  · rintro ⟨method, h⟩
    cases method with
    | GetProvisionState => exact .inl h
    | GetFeatureState => exact .inr h

theorem not_mem_name {c : Char} (halnum : c.isAlphanum = false) (hne : c ≠ '_') :
    c ∉ p.name.toList := by
  intro hc
  rcases p.name_chars c hc with h | h
  · rw [halnum] at h
    cases h
  · exact hne h

theorem slash_not_mem_name : '/' ∉ p.name.toList := p.not_mem_name (by decide) (by decide)

theorem isPchar_of_mem_name {c : Char} (hc : c ∈ p.name.toList) : IsPchar c := by
  rcases p.name_chars c hc with h | h
  · exact .inl h
  · rw [h]
    decide

theorem toList_path :
    p.path.toList = "/xyz/openbmc_project/ondemand".toList ++ '/' :: p.name.toList := by
  rw [path, String.toList_append, List.append_cons]
  rfl

theorem endsWith_path_iff {name : String} (h : '/' ∉ name.toList) :
    p.path.endsWith name = true ↔ name.toList <:+ p.name.toList := by
  rw [endsWith_iff, toList_path, Segments.suffix_append_cons_iff h]

theorem backOfPath_path : backOfPath p.path = some p.name := by
  apply backOfPath_append
  · decide
  · exact List.all_iff_forall_prop.mp (by decide)
  · decide
  · intro c hc
    exact p.isPchar_of_mem_name hc

theorem fillCPULicenses_eq (service : String) :
    fillCPULicenses service (p.path, p.serviceMap) = some (p.calls service) := by
  rw [fillCPULicenses, backOfPath_path]
  rfl

theorem isPchar_of_mem_param {method : Method} {c : Char}
    (hc : c ∈ (getLicenseTypeFromMethod method ++ p.name).toList) : IsPchar c := by
  have htype : ∀ method, ∀ c ∈ (getLicenseTypeFromMethod method).toList, IsPchar c := by
    intro method
    cases method with
    | GetProvisionState => exact List.all_iff_forall_prop.mp (by decide)
    | GetFeatureState => exact List.all_iff_forall_prop.mp (by decide)
  rw [String.toList_append, List.mem_append] at hc
  rcases hc with hc | hc
  · exact htype method c hc
  · exact p.isPchar_of_mem_name hc

theorem link_call (service : String) (method : Method) :
    (p.call service method).link = licensesPath ++ (getLicenseTypeFromMethod method ++ p.name) :=
  format_eq_append fun _ hc => p.isPchar_of_mem_param hc

theorem serviceMap_ne : p.serviceMap ≠ [] := by
  obtain ⟨service, hservice, -⟩ := p.licensed
  exact List.ne_nil_of_mem hservice

theorem path_ne : p.path ≠ "" := by
  intro h
  have hlist := congrArg String.toList h
  rw [toList_path] at hlist
  exact absurd hlist (by simp)

theorem fits_iff {name : String} (h : '/' ∉ name.toList) :
    (p.path.endsWith name && !p.serviceMap.isEmpty &&
      p.serviceMap.any fun service => service.2.contains featureEnableInterfaceName) = true ↔
      name.toList <:+ p.name.toList := by
  have hany : (p.serviceMap.any fun service => service.2.contains featureEnableInterfaceName) =
      true := by
    obtain ⟨service, hservice, hmem⟩ := p.licensed
    exact List.any_eq_true.mpr ⟨service, hservice, List.contains_iff_mem.mpr hmem⟩
  rw [hany, List.isEmpty_eq_false_iff.mpr p.serviceMap_ne, Bool.not_false, Bool.and_true,
    Bool.and_true, p.endsWith_path_iff h]

end Processor

/-- The service publishes these processors, each under its own name. -/
structure Bus.Publishes (bus : Bus) (service : String) (processors : List Processor) : Prop where
  getObject : bus.getObject = some service
  getSubTree : bus.getSubTree = some (processors.map fun p => (p.path, p.serviceMap))
  nodup : (processors.map Processor.name).Nodup

/-- The bus while these features are enabled. -/
def Bus.enabling (bus : Bus) (enabled : String → String → Method → Option Bool) : Bus :=
  { bus with featureEnable := enabled }

theorem Bus.Publishes.enabling {bus : Bus} {service : String} {processors : List Processor}
    (h : bus.Publishes service processors) (enabled : String → String → Method → Option Bool) :
    (bus.enabling enabled).Publishes service processors :=
  ⟨h.getObject, h.getSubTree, h.nodup⟩

theorem findProcessor_eq {name : String} (h : '/' ∉ name.toList) (processors : List Processor) :
    findProcessor name (processors.map fun p => (p.path, p.serviceMap)) =
      (processors.find? fun p => name.toList <:+ p.name.toList).map Processor.path := by
  have hfits : ((fun o : String × ServiceMap => o.1.endsWith name && !o.2.isEmpty &&
      o.2.any fun service => service.2.contains featureEnableInterfaceName) ∘
        fun p : Processor => (p.path, p.serviceMap)) =
      fun p => decide (name.toList <:+ p.name.toList) := by
    funext p
    exact (Bool.eq_iff_iff.mpr ((p.fits_iff h).trans decide_eq_true_iff.symm))
  rw [findProcessor, List.find?_map, Option.map_map, hfits]
  rfl

/-! ### The collection -/

/-- A collection that links to these licenses, for which so many calls have failed. -/
structure Collection.Lists (c : Collection) (links : List String) (failed : ℕ) : Prop where
  members : c.members = some links
  odataCount : c.odataCount = if links = [] then none else some links.length
  messages : c.messages = List.replicate failed .internalError

def shown (reply : CollectionCall × Option Bool) : List String :=
  if reply.2 = some true then [reply.1.link] else []

theorem Collection.Lists.fill {c : Collection} {links : List String} {failed : ℕ}
    (h : c.Lists links failed) (reply : CollectionCall × Option Bool) :
    (c.fill reply).Lists (links ++ shown reply) (failed + if reply.2 = none then 1 else 0) := by
  obtain ⟨call, answer⟩ := reply
  match answer with
  | none =>
    have hshown : shown (call, none) = [] := rfl
    rw [hshown, List.append_nil, if_pos rfl]
    constructor
    · exact h.members
    · exact h.odataCount
    · rw [List.replicate_succ', ← h.messages]
      rfl
  | some false =>
    have hshown : shown (call, some false) = [] := rfl
    rw [hshown, List.append_nil, if_neg (by simp), Nat.add_zero]
    exact h
  | some true =>
    have hshown : shown (call, some true) = [call.link] := rfl
    have hmembers : c.members.getD [] ++ [call.link] = links ++ [call.link] := by
      rw [h.members, Option.getD_some]
    rw [hshown, if_neg (by simp), Nat.add_zero]
    constructor
    · exact congrArg some hmembers
    · rw [if_neg (by simp), ← hmembers]
      rfl
    · exact h.messages

/-- Whatever the replies are and in whatever order they come. -/
theorem Collection.Lists.foldl_fill {c : Collection} {links : List String} {failed : ℕ}
    (h : c.Lists links failed) (replies : List (CollectionCall × Option Bool)) :
    (replies.foldl Collection.fill c).Lists (links ++ replies.flatMap shown)
      (failed + replies.countP fun reply => reply.2 = none) := by
  induction replies generalizing c links failed with
  | nil => simpa using h
  | cons reply replies ih =>
    have hstep := ih (h.fill reply)
    rw [List.append_assoc, ← List.flatMap_cons] at hstep
    rw [List.countP_cons]
    simpa only [List.foldl_cons, decide_eq_true_eq, Nat.add_assoc, Nat.add_comm,
      Nat.add_left_comm] using hstep

theorem addProcessorFeatureLicenses_eq {bus : Bus} {service : String} {processors : List Processor}
    (h : bus.Publishes service processors) :
    addProcessorFeatureLicenses bus =
      some (⟨some [], none, []⟩, processors.flatMap fun p => p.calls service) := by
  have hfilter : (processors.map fun p => (p.path, p.serviceMap)).filter
      (fun o => o.1 ≠ "" ∧ o.2 ≠ []) = processors.map fun p => (p.path, p.serviceMap) := by
    rw [List.filter_eq_self]
    intro o ho
    obtain ⟨p, -, rfl⟩ := List.mem_map.mp ho
    exact decide_eq_true ⟨p.path_ne, p.serviceMap_ne⟩
  have hcalls : (processors.map fun p => (p.path, p.serviceMap)).mapM (fillCPULicenses service) =
      some (processors.map fun p => p.calls service) := by
    clear hfilter h
    induction processors with
    | nil => rfl
    | cons p processors ih =>
      rw [List.map_cons, List.mapM_cons, p.fillCPULicenses_eq, ih]
      rfl
  rw [addProcessorFeatureLicenses, h.getObject, h.getSubTree]
  simp only [hfilter, hcalls, Option.map_some, List.flatMap_def]

/-- The call and its reply. -/
def Bus.answered (bus : Bus) (call : CollectionCall) : CollectionCall × Option Bool :=
  (call, bus.featureEnable call.service call.objectPath call.method)

/-- The collection, if its calls are answered in this order. -/
def Bus.collection (bus : Bus) (order : List CollectionCall) : Option Collection :=
  (addProcessorFeatureLicenses bus).bind fun (c, calls) =>
    if order.Perm calls then some ((order.map bus.answered).foldl Collection.fill c) else none

theorem collection_eq_some_iff {bus : Bus} {service : String} {processors : List Processor}
    (h : bus.Publishes service processors) {order : List CollectionCall} {c : Collection} :
    bus.collection order = some c ↔
      order.Perm (processors.flatMap fun p => p.calls service) ∧
        c = (order.map bus.answered).foldl Collection.fill ⟨some [], none, []⟩ := by
  rw [Bus.collection, addProcessorFeatureLicenses_eq h, Option.bind_some,
    Option.ite_none_right_eq_some, Option.some_inj]
  exact and_congr_right fun _ => eq_comm

/-- In whatever order the calls are answered, the collection links to each license whose feature is
enabled, once, counts them if there are any, and has an error for each call that failed. -/
theorem collection_lists {bus : Bus} {service : String} {processors : List Processor}
    (h : bus.Publishes service processors) {order : List CollectionCall} {c : Collection}
    (hc : bus.collection order = some c) :
    ∃ links, c.Lists links (order.countP fun call => (bus.answered call).2 = none) ∧
      ∀ link, link ∈ links ↔ ∃ p ∈ processors, ∃ method,
        bus.featureEnable service p.path method = some true ∧
          link = (p.call service method).link := by
  obtain ⟨hperm, rfl⟩ := (collection_eq_some_iff h).mp hc
  have hstart : Collection.Lists ⟨some [], none, []⟩ [] 0 := ⟨rfl, rfl, rfl⟩
  have hrun := hstart.foldl_fill (order.map bus.answered)
  rw [List.nil_append, Nat.zero_add, List.countP_map] at hrun
  refine ⟨_, hrun, ?_⟩
  intro link
  simp only [List.flatMap_map, List.mem_flatMap, shown, List.mem_ite_nil_right, List.mem_singleton]
  constructor
  · rintro ⟨call, hcall, henabled, rfl⟩
    obtain ⟨p, hp, hcall⟩ := List.mem_flatMap.mp (hperm.subset hcall)
    obtain ⟨method, rfl⟩ := p.mem_calls_iff.mp hcall
    exact ⟨p, hp, method, henabled, rfl⟩
  · rintro ⟨p, hp, method, henabled, rfl⟩
    refine ⟨p.call service method, hperm.symm.subset ?_, henabled, rfl⟩
    exact List.mem_flatMap.mpr ⟨p, hp, p.mem_calls_iff.mpr ⟨method, rfl⟩⟩

end MetaCommon.LicenseService
