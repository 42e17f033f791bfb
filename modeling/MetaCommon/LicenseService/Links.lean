import MetaCommon.LicenseService.Posting

/-!
# The links between the pages

The collection links to the licenses, a license to its processor and its feature, and the feature
back to the license; a new license is posted with the links of its page. Each page finds the
processor again by the end of its path.
-/

namespace MetaCommon.LicenseService

open NodeManager (Json)
open OnDemand (processorsPath)

section Pages

variable {bus : Bus} {service : String} {processors : List Processor} {string : String → Json}
  {P : JsonUtil}

/-! ### The page of a license -/

def licensePage (processorId : String) (method : Method) : License where
  odataId := licensesPath ++ getLicenseTypeFromMethod method ++ processorId
  id := getLicenseTypeFromMethod method ++ processorId
  name := getLicenseTypeFromMethod method ++ " for " ++ processorId
  authorizedDevice := processorsPath ++ processorId
  authorizedFeature := processorsPath ++ processorId ++ "/Oem/Intel/" ++ method.feature

theorem fillCPULicenseInstance_eq_license_iff {processorId : String} {method : Method}
    {enabled : Option Bool} {l : License} :
    fillCPULicenseInstance processorId (getLicenseTypeFromMethod method) enabled = .license l ↔
      enabled = some true ∧ l = licensePage processorId method := by
  have hpage : fillCPULicenseInstance processorId (getLicenseTypeFromMethod method) (some true) =
      .license (licensePage processorId method) := by
    cases method with
    | GetProvisionState =>
      simp only [fillCPULicenseInstance, licensePage, getLicenseTypeFromMethod, Method.feature,
        if_true, String.append_assoc]
      rfl
    | GetFeatureState =>
      simp only [fillCPULicenseInstance, licensePage, getLicenseTypeFromMethod, Method.feature,
        String.append_assoc]
      rfl
  cases enabled with
  | none => simp [fillCPULicenseInstance]
  | some enabled =>
    by_cases henabled : enabled = true
    · rw [henabled, hpage, LicenseReply.license.injEq, and_iff_right rfl]
      exact eq_comm
    · rw [Bool.not_eq_true] at henabled
      simp [fillCPULicenseInstance, henabled]

theorem handleLicenseGet_eq_license_iff (h : bus.Publishes service processors) {param : String}
    {l : License} :
    handleLicenseGet bus param = .license l ↔ ∃ method processorId p,
      getLicenseTypeAndProcessorId param =
        some (method, getLicenseTypeFromMethod method, processorId) ∧
      processors.find? (fun p => processorId.toList <:+ p.name.toList) = some p ∧
      bus.featureEnable service p.path method = some true ∧ l = licensePage processorId method := by
  rw [handleLicenseGet]
  cases hparam : getLicenseTypeAndProcessorId param with
  | none => simp
  | some parsed =>
    obtain ⟨method, licenseType, processorId⟩ := parsed
    obtain ⟨rfl, rest, -, hslash, -, rfl⟩ := getLicenseTypeAndProcessorId_eq_some_iff.mp hparam
    have hplain : '/' ∉ ("cpu" ++ String.ofList rest).toList := by
      rw [String.toList_append, List.mem_append, not_or, @String.toList_ofList rest]
      exact ⟨by decide, hslash⟩
    simp only [h.getObject, h.getSubTree, findProcessor_eq hplain, Option.some_inj, Prod.mk.injEq]
    generalize "cpu" ++ String.ofList rest = processorId
    cases hfind : processors.find? fun p => processorId.toList <:+ p.name.toList with
    | none =>
      constructor
      · intro hget
        cases hget
      · rintro ⟨_, _, p, ⟨-, -, rfl⟩, hfind', -⟩
        rw [hfind] at hfind'
        cases hfind'
    | some p =>
      simp only [Option.map_some, fillCPULicenseInstance_eq_license_iff]
      constructor
      · intro hpage
        exact ⟨method, processorId, p, ⟨rfl, rfl, rfl⟩, hfind, hpage⟩
      · rintro ⟨method', processorId', p', ⟨rfl, -, rfl⟩, hfind', hpage⟩
        obtain rfl := Option.some.inj (hfind.symm.trans hfind')
        exact hpage

/-! ### The page of a feature -/

/-- The objects as the page of a feature sees them. -/
def Bus.objects (bus : Bus) : Option (List (String × Bool)) :=
  bus.getSubTree.map fun subtree => subtree.map fun o => (o.1, !o.2.isEmpty)

theorem find?_objects {name : String} (h : '/' ∉ name.toList) (processors : List Processor) :
    (processors.map fun p => (p.path, !p.serviceMap.isEmpty)).find?
        (fun e => e.1.endsWith name && e.2) =
      (processors.find? fun p => name.toList <:+ p.name.toList).map fun p => (p.path, true) := by
  have hfits : ((fun e : String × Bool => e.1.endsWith name && e.2) ∘
      fun p : Processor => (p.path, !p.serviceMap.isEmpty)) =
      fun p => decide (name.toList <:+ p.name.toList) := by
    funext p
    have hservices := List.isEmpty_eq_false_iff.mpr p.serviceMap_ne
    simp only [Function.comp_apply, hservices, Bool.not_false, Bool.and_true]
    exact Bool.eq_iff_iff.mpr ((p.endsWith_path_iff h).trans decide_eq_true_iff.symm)
  rw [List.find?_map, hfits]
  cases processors.find? fun p => name.toList <:+ p.name.toList with
  | none => rfl
  | some p => simp [p.serviceMap_ne]

/-- A request for the page of a feature asks the first processor that has the name as the end of
its own. -/
theorem feature_get (h : bus.Publishes service processors) {name : String}
    (hplain : '/' ∉ name.toList)
    {p : Processor} (hfind : processors.find? (fun p => name.toList <:+ p.name.toList) = some p)
    (method : Method) (s : OnDemand.Server) (file : OnDemand.FileAnswer) :
    s.get name method.feature bus.objects file = some
      { s with
        requests := s.requests + 1
        pending := s.pending ++ [⟨s.requests, .provisionDynamic name method.feature p.path⟩] } := by
  have hobjects : bus.objects = some (processors.map fun p => (p.path, !p.serviceMap.isEmpty)) := by
    rw [Bus.objects, h.getSubTree, Option.map_some, List.map_map]
    rfl
  have hmeter : ¬ (method.feature = "MeteringFeature" ∨ method.feature = "StateFeature") := by
    cases method <;> decide
  have hfeature : method.feature = "ProvisionFeature" ∨ method.feature = "DynamicFeature" := by
    cases method <;> decide
  have hne : method.feature ≠ "" := by
    cases method <;> decide
  simp only [OnDemand.Server.get, if_neg hne, hobjects, find?_objects hplain, hfind,
    Option.map_some, if_neg hmeter, if_pos hfeature, OnDemand.Server.callMethod]

/-! ### Round trips -/

/-- From this link a client gets to the page of a license of the processor, from there to the
processor's feature and back to the link, and it can post a license for the feature with the links
of the page. -/
structure LeadsRound (string : String → Json) (P : JsonUtil) (bus : Bus) (p : Processor)
    (method : Method) (link : String) (l : License) : Prop where
  get : ∃ param, '/' ∉ param.toList ∧ link = licensesPath ++ param ∧
    handleLicenseGet bus param = .license l
  self : l.odataId = link
  feature : ∃ processorId, '/' ∉ processorId.toList ∧
    l.authorizedFeature = processorsPath ++ processorId ++ "/Oem/Intel/" ++ method.feature ∧
    (∀ (s : OnDemand.Server) (file : OnDemand.FileAnswer),
      ∃ s', s.get processorId method.feature bus.objects file = some s' ∧
        s'.pending = s.pending ++
          [⟨s.requests, .provisionDynamic processorId method.feature p.path⟩]) ∧
    (OnDemand.Server.getCPUProvisionDynamic processorId method.feature true).featureAuthLicense =
      some link
  post : ∀ licenseString, ∃ call,
    handleLicenseCollectionPost P bus (some ⟨licenseString, "Device",
      [linkTo string l.authorizedDevice], some (oemLinks string l.authorizedFeature)⟩) =
        some (.install call) ∧
    call.objectPath = p.path ∧ call.method = method.install ∧ call.licenseString = licenseString ∧
    call.signalMatchStr = awaits method p.path

/-- Every license that is listed leads round, whatever features are enabled and in whatever order
the collection learns of them. -/
def EveryLinkLeadsRound (string : String → Json) (P : JsonUtil) (bus : Bus) (service : String)
    (processors : List Processor) : Prop :=
  ∀ enabled order c, (bus.enabling enabled).collection order = some c →
    ∀ p ∈ processors, ∀ method, enabled service p.path method = some true →
      ∃ link ∈ c.members.getD [], ∃ l,
        LeadsRound string P (bus.enabling enabled) p method link l

/-- The names begin with `cpu`, and none is the end of one before it. -/
def Distinguishable (processors : List Processor) : Prop :=
  (∀ p ∈ processors, ∃ rest : List Char, rest ≠ [] ∧ p.name.toList = "cpu".toList ++ rest) ∧
    processors.Pairwise fun p q => ¬ q.name.toList <:+ p.name.toList

theorem leadsRound (hP : P.Documented string) (h : bus.Publishes service processors)
    (p : Processor) (hcpu : ∃ rest : List Char, rest ≠ [] ∧ p.name.toList = "cpu".toList ++ rest)
    (hfind : processors.find? (fun q => p.name.toList <:+ q.name.toList) = some p)
    (method : Method) (henabled : bus.featureEnable service p.path method = some true) :
    LeadsRound string P bus p method (p.call service method).link (licensePage p.name method) := by
  obtain ⟨rest, hrest, hname⟩ := hcpu
  have hparam : getLicenseTypeAndProcessorId (getLicenseTypeFromMethod method ++ p.name) =
      some (method, getLicenseTypeFromMethod method, p.name) := by
    have hnul : '\x00' ∉ (getLicenseTypeFromMethod method ++ p.name).toList := by
      intro hc
      exact absurd (p.isPchar_of_mem_param hc) (by decide)
    have htext : cText (getLicenseTypeFromMethod method ++ p.name) =
        (getLicenseTypeFromMethod method ++ p.name).toList := by
      rw [cText, List.takeWhile_eq_self_iff]
      intro c hc
      exact decide_eq_true fun heq => hnul (heq ▸ hc)
    have hslash : '/' ∉ rest := by
      intro hc
      exact p.slash_not_mem_name (hname ▸ List.mem_append_right _ hc)
    apply getLicenseTypeAndProcessorId_eq_some_iff.mpr
    refine ⟨rfl, rest, hrest, hslash, ?_, ?_⟩
    · rw [htext, String.toList_append, hname]
    · apply String.toList_inj.mp
      rw [hname, String.toList_append, @String.toList_ofList rest]
  have hlink : (licensePage p.name method).odataId = (p.call service method).link := by
    rw [p.link_call, ← String.append_assoc]
    rfl
  constructor
  · refine ⟨getLicenseTypeFromMethod method ++ p.name, ?_, p.link_call service method, ?_⟩
    · intro hc
      exact slash_not_isPchar (p.isPchar_of_mem_param hc)
    · apply (handleLicenseGet_eq_license_iff h).mpr
      exact ⟨method, p.name, p, hparam, hfind, henabled, rfl⟩
  · exact hlink
  · refine ⟨p.name, p.slash_not_mem_name, rfl, ?_, ?_⟩
    · intro s file
      exact ⟨_, feature_get h p.slash_not_mem_name hfind method s file, rfl⟩
    · rw [← hlink]
      cases method with
      | GetProvisionState => rfl
      | GetFeatureState => rfl
  · intro licenseString
    have hlinks := linksTo_oemLinks hP (fun _ hc => p.isPchar_of_mem_name hc) method licenseString
    refine ⟨_, (post_eq_install_iff h _ _).mpr ⟨p.name, method, p, hlinks, hfind, rfl⟩, ?_⟩
    rw [createCPULicense_eq]
    exact ⟨rfl, rfl, rfl, rfl⟩

theorem path_injective {p q : Processor} (h : p.path = q.path) : p.name = q.name := by
  have hlist := congrArg String.toList h
  rw [p.toList_path, q.toList_path] at hlist
  exact String.toList_inj.mp (List.cons.inj (List.append_cancel_left hlist)).2

/-- Only this feature is enabled. -/
def Processor.provisioned (p : Processor) (_ path : String) (method : Method) : Option Bool :=
  some (decide (path = p.path ∧ method = .GetProvisionState))

theorem eq_of_provisioned (h : bus.Publishes service processors) {p q : Processor}
    (hp : p ∈ processors) (hq : q ∈ processors) {method : Method}
    (henabled : p.provisioned service q.path method = some true) :
    p = q ∧ method = .GetProvisionState := by
  obtain ⟨hpath, hmethod⟩ := of_decide_eq_true (Option.some.inj henabled)
  exact ⟨List.inj_on_of_nodup_map h.nodup hp hq (path_injective hpath.symm), hmethod⟩

/-- What the way round says about the processor: its name begins with `cpu`, and a search for it
finds it. -/
theorem LeadsRound.found (h : bus.Publishes service processors) {p : Processor}
    (hp : p ∈ processors) {l : License}
    (hround : LeadsRound string P (bus.enabling p.provisioned) p .GetProvisionState
      (p.call service .GetProvisionState).link l) :
    (∃ rest : List Char, rest ≠ [] ∧ p.name.toList = "cpu".toList ++ rest) ∧
      processors.find? (fun q => p.name.toList <:+ q.name.toList) = some p := by
  obtain ⟨param, -, hlink, hget⟩ := hround.get
  rw [p.link_call] at hlink
  have hparam : param.toList = "ProvisionLicense".toList ++ p.name.toList := by
    have hlist := congrArg String.toList hlink
    simp only [String.toList_append] at hlist
    exact (List.append_cancel_left hlist).symm
  obtain ⟨method, processorId, q, hparsed, hfind, henabled, -⟩ :=
    (handleLicenseGet_eq_license_iff (h.enabling p.provisioned)).mp hget
  obtain ⟨rfl, rfl⟩ := eq_of_provisioned h hp (List.mem_of_find?_eq_some hfind) henabled
  obtain ⟨-, rest, hrest, -, htext, rfl⟩ := getLicenseTypeAndProcessorId_eq_some_iff.mp hparsed
  have hnul : cText param = param.toList := by
    rw [cText, List.takeWhile_eq_self_iff, hparam]
    intro c hc
    apply decide_eq_true
    rintro rfl
    rcases List.mem_append.mp hc with hc | hc
    · exact absurd hc (by decide)
    · exact p.not_mem_name (by decide) (by decide) hc
  rw [hnul, hparam] at htext
  have hname : p.name.toList = "cpu".toList ++ rest := List.append_cancel_left htext
  have hid : "cpu" ++ String.ofList rest = p.name := by
    apply String.toList_inj.mp
    rw [hname, String.toList_append, @String.toList_ofList rest]
  rw [hid] at hfind
  exact ⟨⟨rest, hrest, hname⟩, hfind⟩

/-- The licenses lead round exactly if the names can be told apart. -/
theorem links_lead_round_iff (hP : P.Documented string) (h : bus.Publishes service processors) :
    EveryLinkLeadsRound string P bus service processors ↔ Distinguishable processors := by
  have hpairwise := Segments.forall_find?_eq_some_iff
    (r := fun p q : Processor => p.name.toList <:+ q.name.toList) (fun p => List.suffix_rfl)
    h.nodup.of_map
  constructor
  · intro hleads
    have hfound (p : Processor) (hp : p ∈ processors) :
        (∃ rest : List Char, rest ≠ [] ∧ p.name.toList = "cpu".toList ++ rest) ∧
          processors.find? (fun q => p.name.toList <:+ q.name.toList) = some p := by
      obtain ⟨c, hc⟩ : ∃ c, (bus.enabling p.provisioned).collection
          (processors.flatMap fun p => p.calls service) = some c :=
        ⟨_, (collection_eq_some_iff (h.enabling p.provisioned)).mpr ⟨.refl _, rfl⟩⟩
      obtain ⟨links, hlists, hlinks⟩ := collection_lists (h.enabling p.provisioned) hc
      obtain ⟨link, hlink, l, hround⟩ := hleads p.provisioned _ c hc p hp .GetProvisionState
        (congrArg some (decide_eq_true ⟨rfl, rfl⟩))
      -- the one feature that is enabled has the one link
      rw [hlists.members, Option.getD_some, hlinks] at hlink
      obtain ⟨q, hq, method, henabled, rfl⟩ := hlink
      obtain ⟨rfl, rfl⟩ := eq_of_provisioned h hp hq henabled
      exact LeadsRound.found h hp hround
    exact ⟨fun p hp => (hfound p hp).1, hpairwise.mp fun p hp => (hfound p hp).2⟩
  · intro hdist enabled order c hc p hp method henabled
    obtain ⟨links, hlists, hlinks⟩ := collection_lists (h.enabling enabled) hc
    refine ⟨(p.call service method).link, ?_, licensePage p.name method, ?_⟩
    · rw [hlists.members, Option.getD_some, hlinks]
      exact ⟨p, hp, method, henabled, rfl⟩
    · exact leadsRound hP (h.enabling enabled) p (hdist.1 p hp) (hpairwise.mpr hdist.2 p hp) method
        henabled

end Pages

/-- The names that the platform gives its processors. -/
theorem distinguishable_of_numbered {processors : List Processor}
    (hnodup : (processors.map Processor.name).Nodup)
    (hnumbered : ∀ p ∈ processors, ∃ digits : List Char, digits ≠ [] ∧
      (∀ c ∈ digits, c.isDigit = true) ∧ p.name.toList = "cpu".toList ++ digits) :
    Distinguishable processors := by
  constructor
  · intro p hp
    obtain ⟨digits, hne, -, hname⟩ := hnumbered p hp
    exact ⟨digits, hne, hname⟩
  · have hpairwise : processors.Pairwise fun p q => p.name ≠ q.name := List.pairwise_map.mp hnodup
    refine hpairwise.imp_of_mem ?_
    intro p q hp hq hne hsuffix
    obtain ⟨digits, -, hdigits, hp⟩ := hnumbered p hp
    obtain ⟨digits', -, -, hq⟩ := hnumbered q hq
    rw [hp] at hsuffix
    -- a name within the other would have its `c` among the other's digits
    rcases List.suffix_cons_iff.mp hsuffix with heq | hsuffix
    · exact hne (String.toList_inj.mp (hp.trans heq.symm))
    · have hc : 'c' ∈ q.name.toList := by
        rw [hq]
        exact List.mem_cons_self
      have htail : 'c' ∈ ['p', 'u'] ++ digits := hsuffix.subset hc
      rcases List.mem_append.mp htail with hc | hc
      · exact absurd hc (by decide)
      · exact absurd (hdigits 'c' hc) (by decide)

theorem links_lead_round_twoCpus :
    EveryLinkLeadsRound .scalar singletons twoCpusBus "xyz.openbmc_project.ondemand" twoCpus := by
  apply (links_lead_round_iff singletons_documented twoCpusBus_publishes).mpr
  apply distinguishable_of_numbered twoCpusBus_publishes.nodup
  intro p hp
  rcases List.mem_pair.mp hp with rfl | rfl
  · exact ⟨['0'], by decide, List.forall_mem_singleton.mpr (by decide), by decide⟩
  · exact ⟨['1'], by decide, List.forall_mem_singleton.mpr (by decide), by decide⟩

end MetaCommon.LicenseService
