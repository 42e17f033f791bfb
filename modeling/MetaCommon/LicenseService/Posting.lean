import MetaCommon.LicenseService.Published

/-!
# Posting a license

A license is installed if the body links to one processor and to a feature of it. The processor is
the first that has the last segment of the link as the end of its name, and that segment may be a
part of a name, or empty.
-/

namespace MetaCommon.LicenseService

open NodeManager (Json)
open OnDemand (OnDemandResponseCode processorsPath)

/-- The feature that a method asks for, as a segment of a link. -/
def Method.feature : Method → String
  | .GetProvisionState => "ProvisionFeature"
  | .GetFeatureState => "DynamicFeature"

/-- The method that installs a license for the feature. -/
def Method.install : Method → String
  | .GetProvisionState => "Provision"
  | .GetFeatureState => "EnableFeatures"

/-- The signal that the license has been installed. -/
def Method.valid : Method → String
  | .GetProvisionState => "ProvisionValid"
  | .GetFeatureState => "FeaturesValid"

/-! ### Links -/

theorem isPchar_of_isHex {c : Char} (h : isHex c = true) : IsPchar c := by
  have hletters : ∀ c ∈ "abcdefABCDEF".toList, c.isAlphanum = true :=
    List.all_iff_forall_prop.mp (by decide)
  rw [isHex, Bool.or_eq_true, List.contains_iff_mem] at h
  apply Or.inl
  rcases h with h | h
  · exact (Bool.or_eq_true _ _).mpr (.inr h)
  · exact hletters c h

theorem mem_path {cs : List Char} (h : isPath cs = true) {c : Char} (hc : c ∈ cs) :
    IsPchar c ∨ c = '/' ∨ c = '%' := by
  fun_induction isPath cs with
  | case1 => cases hc
  | case2 a b cs ih =>
    rw [Bool.and_eq_true, Bool.and_eq_true] at h
    rcases List.mem_cons.mp hc with rfl | hc
    · exact .inr (.inr rfl)
    rcases List.mem_cons.mp hc with rfl | hc
    · exact .inl (isPchar_of_isHex h.1.1)
    rcases List.mem_cons.mp hc with rfl | hc
    · exact .inl (isPchar_of_isHex h.1.2)
    · exact ih h.2 hc
  | case3 d cs _ ih =>
    rw [Bool.and_eq_true, Bool.or_eq_true, decide_eq_true_iff, beq_iff_eq] at h
    rcases List.mem_cons.mp hc with rfl | hc
    · exact h.1.imp_right .inl
    · exact ih h.2 hc

theorem pctEncodeChar_pct : pctEncodeChar '%' = ['%', '2', '5'] := by decide +kernel

/-- Encoding a segment of a path again changes it if it was encoded. -/
theorem pctEncode_eq_self_iff {cs : List Char} (h : ∀ c ∈ cs, IsPchar c ∨ c = '%') :
    cs.flatMap pctEncodeChar = cs ↔ ∀ c ∈ cs, IsPchar c := by
  have hlength {cs : List Char} (h : ∀ c ∈ cs, IsPchar c ∨ c = '%') :
      cs.length ≤ (cs.flatMap pctEncodeChar).length := by
    induction cs with
    | nil => exact Nat.le_refl 0
    | cons c cs ih =>
      have hcs := ih fun d hd => h d (List.mem_cons_of_mem c hd)
      rw [List.flatMap_cons, List.length_append, List.length_cons]
      rcases h c List.mem_cons_self with hc | rfl
      · rw [pctEncodeChar, if_pos hc, List.length_singleton]
        omega
      · rw [pctEncodeChar_pct, List.length_cons]
        omega
  refine ⟨?_, pctEncode_eq_self⟩
  intro heq
  induction cs with
  | nil => simp
  | cons c cs ih =>
    have hcs : ∀ d ∈ cs, IsPchar d ∨ d = '%' := fun d hd => h d (List.mem_cons_of_mem c hd)
    rw [List.flatMap_cons] at heq
    rcases h c List.mem_cons_self with hc | rfl
    · rw [pctEncodeChar, if_pos hc, List.singleton_append] at heq
      exact List.forall_mem_cons.mpr ⟨hc, ih hcs (List.cons.inj heq).2⟩
    · rw [pctEncodeChar_pct] at heq
      have hgrown : (cs.flatMap pctEncodeChar).length + 2 = cs.length :=
        congrArg List.length (List.cons.inj heq).2
      have hle := hlength hcs
      omega

theorem processorsPath_chars : ∀ c ∈ processorsPath.toList, IsPchar c ∨ c = '/' :=
  List.all_iff_forall_prop.mp (by decide)

theorem backOfPath_processor {name : String} (h : ∀ c ∈ name.toList, IsPchar c) :
    backOfPath (processorsPath ++ name) = some name := by
  apply backOfPath_append
  · decide
  · exact processorsPath_chars
  · decide
  · exact h

/-- The links that `boost::urls::format` gives back from their last segment. -/
theorem format_backOfPath_iff {link name : String} (h : backOfPath link = some name) :
    format processorsPath name = link ↔
      (∀ c ∈ name.toList, IsPchar c) ∧ link = processorsPath ++ name := by
  obtain ⟨⟨hpath, -, -⟩, hlast⟩ : (isPath link.toList = true ∧ link ≠ "" ∧ link ≠ "/") ∧
      String.ofList (link.toList.rtakeWhile (· ≠ '/')) = name := by
    simpa only [backOfPath, Option.ite_none_right_eq_some, Option.some_inj] using h
  have hname : name.toList = link.toList.rtakeWhile (· ≠ '/') := by
    rw [← hlast, String.toList_ofList]
  have hchars : ∀ c ∈ name.toList, IsPchar c ∨ c = '%' := by
    intro c hc
    rw [hname] at hc
    have hslash : c ≠ '/' := by simpa using List.mem_rtakeWhile_imp hc
    rcases mem_path hpath (List.rtakeWhile_suffix _ _ |>.subset hc) with hc | hc | hc
    · exact .inl hc
    · exact absurd hc hslash
    · exact .inr hc
  constructor
  · intro hformat
    have hplain : '/' ∉ name.toList.flatMap pctEncodeChar := by
      intro hc
      obtain ⟨c, hcs, hc⟩ := List.mem_flatMap.mp hc
      rcases hchars c hcs with hpchar | rfl
      · rw [pctEncodeChar, if_pos hpchar, List.mem_singleton] at hc
        exact slash_not_isPchar (hc ▸ hpchar)
      · rw [pctEncodeChar_pct] at hc
        exact absurd hc (by decide)
    have hlist : link.toList = "/redfish/v1/Systems/system/Processors".toList ++
        '/' :: name.toList.flatMap pctEncodeChar := by
      rw [← hformat, format, String.toList_append, @String.toList_ofList (_ : List Char),
        List.append_cons]
      rfl
    rw [hlist, Segments.rtakeWhile_append_cons hplain] at hname
    have hpchar := (pctEncode_eq_self_iff hchars).mp hname.symm
    exact ⟨hpchar, hformat.symm.trans (format_eq_append hpchar)⟩
  · rintro ⟨hpchar, rfl⟩
    exact format_eq_append hpchar

section Posting

variable {bus : Bus} {service : String} {processors : List Processor}

/-! ### Posting a license -/

variable (string : String → Json)

/-- An object with one member, in which it has a link. -/
def linkTo (link : String) : Json := .object [("@odata.id", string link)]

/-- What a client posts for "Oem". -/
def oemLinks (authFeature : String) : Json :=
  .object [("Intel", .object [("Links", .object
    [("AuthorizedFeature", linkTo string authFeature)])])]

/-- `json_util` reads an object with the one member that is asked for. -/
structure JsonUtil.Documented (P : JsonUtil) : Prop where
  readJson (key : String) (value : Json) : P.readJson key (.object [(key, value)]) = some value
  readString (key s : String) : P.readString key (.object [(key, string s)]) = some s

variable {string} {P : JsonUtil}

theorem readAuthFeature_oemLinks (hP : P.Documented string) (authFeature : String) :
    P.readAuthFeature (oemLinks string authFeature) = .ok authFeature := by
  have hmember (key : String) (value : Json) :
      P.readMember key (.object [(key, value)]) = .ok value := by
    rw [JsonUtil.readMember, if_neg (by simp [Json.empty]), hP.readJson]
  simp only [JsonUtil.readAuthFeature, oemLinks, hmember, bind, Except.bind, linkTo, hP.readString]

theorem backOfPath_feature {name : String} (h : ∀ c ∈ name.toList, IsPchar c) (method : Method) :
    backOfPath (processorsPath ++ name ++ "/Oem/Intel/" ++ method.feature) =
      some method.feature := by
  have hplain : ∀ method : Method, ∀ c ∈ method.feature.toList, IsPchar c := by
    intro method
    cases method with
    | GetProvisionState => exact List.all_iff_forall_prop.mp (by decide)
    | GetFeatureState => exact List.all_iff_forall_prop.mp (by decide)
  have hoem : ∀ c ∈ "/Oem/Intel/".toList, IsPchar c ∨ c = '/' :=
    List.all_iff_forall_prop.mp (by decide)
  apply backOfPath_append
  · rw [String.toList_append, List.getLast?_append]
    rfl
  · intro c hc
    rw [String.toList_append, String.toList_append, List.mem_append, List.mem_append] at hc
    rcases hc with (hc | hc) | hc
    · exact processorsPath_chars c hc
    · exact .inl (h c hc)
    · exact hoem c hc
  · rw [String.toList_append, List.length_append]
    exact Nat.lt_add_left _ (by decide)
  · exact hplain method

theorem feature_eq (method : Method) :
    method.feature = "ProvisionFeature" ∨ method.feature = "DynamicFeature" := by
  cases method with
  | GetProvisionState => exact .inl rfl
  | GetFeatureState => exact .inr rfl

theorem getLicenseTypeFromAuthDevices_eq_ok_iff {devices : List String} {licenseType : String} :
    getLicenseTypeFromAuthDevices devices = some (.ok licenseType) ↔ licenseType = "cpuLicense" ∧
      ∃ name : String, (∀ c ∈ name.toList, IsPchar c) ∧ devices = [processorsPath ++ name] := by
  constructor
  · intro hok
    cases devices with
    | nil => cases hok
    | cons authdev rest =>
      rw [getLicenseTypeFromAuthDevices] at hok
      obtain ⟨name, hback, hreply⟩ := Option.map_eq_some_iff.mp hok
      by_cases hformat : format processorsPath name = authdev
      · rw [if_pos hformat] at hreply
        by_cases hrest : rest = []
        · obtain ⟨hname, rfl⟩ := (format_backOfPath_iff hback).mp hformat
          rw [if_neg (not_not_intro hrest)] at hreply
          exact ⟨(Except.ok.inj hreply).symm, name, hname, by rw [hrest]⟩
        · rw [if_pos hrest] at hreply
          cases hreply
      · rw [if_neg hformat] at hreply
        cases hreply
  · rintro ⟨rfl, name, hname, rfl⟩
    rw [getLicenseTypeFromAuthDevices, backOfPath_processor hname, Option.map_some,
      if_pos (format_eq_append hname), if_neg (by simp)]

theorem addCPULicense_eq_install_iff (h : bus.Publishes service processors) {name : String}
    (hname : ∀ c ∈ name.toList, IsPchar c) {authFeature licenseString : String} {call : Install} :
    addCPULicense bus authFeature (processorsPath ++ name) licenseString = some (.install call) ↔
      ∃ (method : Method) (p : Processor), authFeature =
          processorsPath ++ name ++ "/Oem/Intel/" ++ method.feature ∧
        processors.find? (fun p => name.toList <:+ p.name.toList) = some p ∧
        call = createCPULicense p.path name method.feature licenseString service := by
  have hplain : '/' ∉ name.toList := fun hc => slash_not_isPchar (hname _ hc)
  simp only [addCPULicense, backOfPath_processor hname, bind, Option.bind_some, pure, h.getObject,
    h.getSubTree, findProcessor_eq hplain]
  constructor
  · intro hinstall
    obtain ⟨type, -, hinstall⟩ := Option.bind_eq_some_iff.mp hinstall
    by_cases htype : type = "ProvisionFeature" ∨ type = "DynamicFeature"
    · rw [if_neg (not_not_intro htype)] at hinstall
      by_cases hfeature : processorsPath ++ name ++ "/Oem/Intel/" ++ type = authFeature
      · rw [if_neg (not_not_intro hfeature)] at hinstall
        obtain ⟨method, rfl⟩ : ∃ method : Method, type = method.feature := by
          rcases htype with rfl | rfl
          · exact ⟨.GetProvisionState, rfl⟩
          · exact ⟨.GetFeatureState, rfl⟩
        cases hfind : processors.find? fun p => name.toList <:+ p.name.toList with
        | none =>
          rw [hfind] at hinstall
          cases hinstall
        | some p =>
          rw [hfind] at hinstall
          cases hinstall
          exact ⟨method, p, hfeature.symm, rfl, rfl⟩
      · rw [if_pos hfeature] at hinstall
        cases hinstall
    · rw [if_pos htype] at hinstall
      cases hinstall
  · rintro ⟨method, p, rfl, hfind, rfl⟩
    rw [backOfPath_feature hname, Option.bind_some, if_neg (not_not_intro (feature_eq method)),
      if_neg (not_not_intro rfl), hfind]
    rfl

/-- The body links to the feature of the processor, by a name that can stand in a link. -/
structure LinksTo (P : JsonUtil) (body : LicenseBody) (name : String) (method : Method) : Prop where
  scope : body.authScope = "Device"
  device : ∃ device, body.linksAuthDevArray = [device] ∧
    P.readString "@odata.id" device = some (processorsPath ++ name)
  feature : ∃ oem, body.oemObject = some oem ∧
    P.readAuthFeature oem = .ok (processorsPath ++ name ++ "/Oem/Intel/" ++ method.feature)
  plain : ∀ c ∈ name.toList, IsPchar c

theorem linksTo_oemLinks (hP : P.Documented string) {name : String}
    (hname : ∀ c ∈ name.toList, IsPchar c) (method : Method) (licenseString : String) :
    LinksTo P ⟨licenseString, "Device", [linkTo string (processorsPath ++ name)],
      some (oemLinks string (processorsPath ++ name ++ "/Oem/Intel/" ++ method.feature))⟩
      name method where
  scope := rfl
  device := ⟨_, rfl, hP.readString _ _⟩
  feature := ⟨_, rfl, readAuthFeature_oemLinks hP _⟩
  plain := hname

theorem mapM_eq_singleton_iff {f : Json → Option String} {values : List Json} {s : String} :
    values.mapM f = some [s] ↔ ∃ value, values = [value] ∧ f value = some s := by
  constructor
  · intro hmap
    match values with
    | [] => cases hmap
    | [value] =>
      rw [List.mapM_cons, List.mapM_nil] at hmap
      obtain ⟨s', hvalue, hmap⟩ := Option.bind_eq_some_iff.mp hmap
      cases hmap
      exact ⟨value, rfl, hvalue⟩
    | first :: second :: rest =>
      rw [List.mapM_cons, List.mapM_cons] at hmap
      obtain ⟨_, -, hmap⟩ := Option.bind_eq_some_iff.mp hmap
      obtain ⟨_, htail, hmap⟩ := Option.bind_eq_some_iff.mp hmap
      obtain ⟨_, -, htail⟩ := Option.bind_eq_some_iff.mp htail
      obtain ⟨_, -, htail⟩ := Option.bind_eq_some_iff.mp htail
      cases htail
      cases hmap
  · rintro ⟨value, rfl, hvalue⟩
    rw [List.mapM_cons, hvalue]
    rfl

/-- What has been read of a body when the handler gets to `addCPULicense`. -/
structure PostsFor (P : JsonUtil) (body : LicenseBody) (name authFeature : String) : Prop where
  scope : body.authScope = "Device"
  devices : body.linksAuthDevArray.mapM (P.readString "@odata.id") = some [processorsPath ++ name]
  feature : ∃ oem, body.oemObject = some oem ∧ P.readAuthFeature oem = .ok authFeature
  plain : ∀ c ∈ name.toList, IsPchar c

theorem post_eq_addCPULicense {body : LicenseBody} {name authFeature : String}
    (hposts : PostsFor P body name authFeature) :
    handleLicenseCollectionPost P bus (some body) =
      addCPULicense bus authFeature (processorsPath ++ name) body.licenseString := by
  obtain ⟨oem, hoem, hfeature⟩ := hposts.feature
  have hempty : body.linksAuthDevArray ≠ [] := by
    intro hnil
    have hread := hposts.devices
    rw [hnil] at hread
    cases hread
  have hdevices : getLicenseTypeFromAuthDevices [processorsPath ++ name] =
      some (.ok "cpuLicense") :=
    getLicenseTypeFromAuthDevices_eq_ok_iff.mpr ⟨rfl, name, hposts.plain, rfl⟩
  rw [handleLicenseCollectionPost, if_neg fun hne => hne.1 hposts.scope, if_neg hempty,
    hposts.devices]
  simp only [hdevices, Option.bind_some, hposts.scope, ne_eq, not_true_eq_false, if_false, hoem,
    Option.map_some, hfeature, List.headD_cons]

/-- A refusal comes before, so the body has been read. -/
theorem postsFor_of_install {body : LicenseBody} {call : Install}
    (hpost : handleLicenseCollectionPost P bus (some body) = some (.install call)) :
    ∃ name authFeature, PostsFor P body name authFeature := by
  rw [handleLicenseCollectionPost] at hpost
  by_cases hscope : body.authScope ≠ "Device" ∧ body.authScope ≠ "Capacity" ∧
      body.authScope ≠ "Service"
  · rw [if_pos hscope] at hpost
    cases hpost
  by_cases hempty : body.linksAuthDevArray = []
  · rw [if_neg hscope, if_pos hempty] at hpost
    cases hpost
  rw [if_neg hscope, if_neg hempty] at hpost
  cases hread : body.linksAuthDevArray.mapM (P.readString "@odata.id") with
  | none =>
    rw [hread] at hpost
    cases hpost
  | some devices =>
    rw [hread] at hpost
    obtain ⟨type, htype, hpost⟩ := Option.bind_eq_some_iff.mp hpost
    cases type with
    | error messages => cases hpost
    | ok licenseType =>
      obtain ⟨rfl, name, hname, rfl⟩ := getLicenseTypeFromAuthDevices_eq_ok_iff.mp htype
      by_cases hdevice : body.authScope = "Device"
      · simp only [hdevice, ne_eq, not_true_eq_false, if_false] at hpost
        cases hoem : body.oemObject with
        | none =>
          rw [hoem] at hpost
          cases hpost
        | some oem =>
          cases hfeature : P.readAuthFeature oem with
          | error messages =>
            rw [hoem, Option.map_some, hfeature] at hpost
            cases hpost
          | ok authFeature =>
            exact ⟨name, authFeature, hdevice, hread, ⟨oem, hoem, hfeature⟩, hname⟩
      · simp only [ne_eq, hdevice, not_false_eq_true, if_true] at hpost
        cases hpost

theorem linksTo_iff_postsFor {body : LicenseBody} {name : String} {method : Method} :
    LinksTo P body name method ↔
      PostsFor P body name (processorsPath ++ name ++ "/Oem/Intel/" ++ method.feature) := by
  constructor
  · intro hlinks
    exact ⟨hlinks.scope, mapM_eq_singleton_iff.mpr hlinks.device, hlinks.feature, hlinks.plain⟩
  · intro hposts
    exact ⟨hposts.scope, mapM_eq_singleton_iff.mp hposts.devices, hposts.feature, hposts.plain⟩

theorem post_eq_install_iff (h : bus.Publishes service processors) (body : LicenseBody)
    (call : Install) :
    handleLicenseCollectionPost P bus (some body) = some (.install call) ↔ ∃ name method p,
      LinksTo P body name method ∧
      processors.find? (fun p => name.toList <:+ p.name.toList) = some p ∧
      call = createCPULicense p.path name method.feature body.licenseString service := by
  constructor
  · intro hpost
    obtain ⟨name, authFeature, hposts⟩ := postsFor_of_install hpost
    rw [post_eq_addCPULicense hposts] at hpost
    obtain ⟨method, p, rfl, hfind, hcall⟩ :=
      (addCPULicense_eq_install_iff h hposts.plain).mp hpost
    exact ⟨name, method, p, linksTo_iff_postsFor.mpr hposts, hfind, hcall⟩
  · rintro ⟨name, method, p, hlinks, hfind, hcall⟩
    rw [post_eq_addCPULicense (linksTo_iff_postsFor.mp hlinks)]
    exact (addCPULicense_eq_install_iff h hlinks.plain).mpr ⟨method, p, rfl, hfind, hcall⟩

/-- The match of a task that waits for the object. -/
def awaits (method : Method) (objectPath : String) : String :=
  "type='signal',interface='" ++ featureEnableInterfaceName ++ "',member='" ++ method.valid ++
    "', path='" ++ objectPath ++ "'"

theorem append_cancel {before s t after : String}
    (h : before ++ s ++ after = before ++ t ++ after) : s = t := by
  have hlist := congrArg String.toList h
  simp only [String.toList_append] at hlist
  exact String.toList_inj.mp (List.append_cancel_left (List.append_cancel_right hlist))

theorem createCPULicense_eq (objectPath processorId licenseString service : String)
    (method : Method) :
    createCPULicense objectPath processorId method.feature licenseString service =
      ⟨service, objectPath, method.install, licenseString,
        awaits method (ondemandObjectPath ++ processorId)⟩ := by
  have hawaits : awaits method (ondemandObjectPath ++ processorId) =
      "type='signal',interface='" ++ featureEnableInterfaceName ++ "',member='" ++ method.valid ++
        "', path='" ++ ondemandObjectPath ++ processorId ++ "'" :=
    congrArg (fun s => s ++ "'") String.append_assoc.symm
  rw [hawaits]
  cases method with
  | GetProvisionState =>
    have hfeature : Method.feature .GetProvisionState = "ProvisionFeature" := rfl
    exact if_pos hfeature
  | GetFeatureState =>
    have hfeature : ¬ Method.feature .GetFeatureState = "ProvisionFeature" := by decide
    exact if_neg hfeature

/-- A task is made for the answer of success alone. -/
theorem createCPULicenseTaskCallback_eq_inr_iff {call : Install} {answer : Option ℤ}
    {signalMatchStr : String} :
    createCPULicenseTaskCallback call answer = .inr signalMatchStr ↔
      answer = some OnDemandResponseCode.ondemandSuccess.toInt ∧
        call.signalMatchStr = signalMatchStr := by
  cases answer with
  | none => simp [createCPULicenseTaskCallback]
  | some code =>
    unfold createCPULicenseTaskCallback
    by_cases hsuccess : code = OnDemandResponseCode.ondemandSuccess.toInt
    · simp [hsuccess]
    · dsimp only
      rw [if_neg hsuccess]
      refine iff_of_false ?_ fun h => hsuccess (Option.some.inj h.1)
      split_ifs <;> simp

/-- A license is installed exactly if the body links to the end of a processor's name, and on the
first processor with that end. A task is made if the method answers success, and waits for that
processor exactly if the link has its whole name. -/
theorem post_awaits_iff (h : bus.Publishes service processors) (body : LicenseBody) :
    ((∃ call, handleLicenseCollectionPost P bus (some body) = some (.install call)) ↔
      ∃ name method, LinksTo P body name method ∧
        ∃ p ∈ processors, name.toList <:+ p.name.toList) ∧
    ∀ call, handleLicenseCollectionPost P bus (some body) = some (.install call) →
      ∃ name method p, LinksTo P body name method ∧
        processors.find? (fun p => name.toList <:+ p.name.toList) = some p ∧
        call.objectPath = p.path ∧ call.method = method.install ∧
        call.licenseString = body.licenseString ∧
        (call.signalMatchStr = awaits method p.path ↔ name = p.name) ∧
        ∀ answer, createCPULicenseTaskCallback call answer = .inr (awaits method p.path) ↔
          answer = some OnDemandResponseCode.ondemandSuccess.toInt ∧ name = p.name := by
  constructor
  · constructor
    · rintro ⟨call, hcall⟩
      obtain ⟨name, method, p, hlinks, hfind, -⟩ := (post_eq_install_iff h body call).mp hcall
      have hfits := List.find?_some hfind
      exact ⟨name, method, hlinks, p, List.mem_of_find?_eq_some hfind, of_decide_eq_true hfits⟩
    · rintro ⟨name, method, hlinks, p, hp, hsuffix⟩
      obtain ⟨q, hfind⟩ : ∃ q, processors.find? (fun p => name.toList <:+ p.name.toList) = some q :=
        Option.isSome_iff_exists.mp
          (List.find?_isSome.mpr ⟨p, hp, decide_eq_true hsuffix⟩)
      exact ⟨_, (post_eq_install_iff h body _).mpr ⟨name, method, q, hlinks, hfind, rfl⟩⟩
  · intro call hcall
    obtain ⟨name, method, p, hlinks, hfind, rfl⟩ := (post_eq_install_iff h body call).mp hcall
    rw [createCPULicense_eq]
    have hawaits : awaits method (ondemandObjectPath ++ name) = awaits method p.path ↔
        name = p.name := by
      constructor
      · intro hmatch
        have hpath := congrArg String.toList (append_cancel hmatch)
        rw [Processor.path, String.toList_append, String.toList_append] at hpath
        exact String.toList_inj.mp (List.append_cancel_left hpath)
      · rintro rfl
        rfl
    refine ⟨name, method, p, hlinks, hfind, rfl, rfl, rfl, hawaits, fun answer => ?_⟩
    rw [createCPULicenseTaskCallback_eq_inr_iff, hawaits]

end Posting

/-- A reader of objects with one member. -/
def singletons : JsonUtil where
  readJson
    | key, .object [(key', value)] => if key' = key then some value else none
    | _, _ => none
  readString
    | key, .object [(key', .scalar s)] => if key' = key then some s else none
    | _, _ => none

theorem singletons_documented : singletons.Documented .scalar where
  readJson _ _ := if_pos rfl
  readString _ _ := if_pos rfl

def cpu (name : String) (hne : name ≠ "")
    (hchars : (name.toList.all fun c => c.isAlphanum = true ∨ c = '_') = true) : Processor :=
  ⟨name, [("xyz.openbmc_project.ondemand", [featureEnableInterfaceName])], hne,
    List.all_iff_forall_prop.mp hchars, _, List.mem_singleton.mpr rfl, List.mem_singleton.mpr rfl⟩

def twoCpus : List Processor :=
  [cpu "cpu0" (by decide) (by decide), cpu "cpu1" (by decide) (by decide)]

def twoCpusBus : Bus where
  getObject := some "xyz.openbmc_project.ondemand"
  getSubTree := some (twoCpus.map fun p => (p.path, p.serviceMap))
  featureEnable _ _ _ := none

theorem twoCpusBus_publishes :
    twoCpusBus.Publishes "xyz.openbmc_project.ondemand" twoCpus where
  getObject := rfl
  getSubTree := rfl
  nodup := by decide

/-- A body that links to the processor `1`. -/
def endOfName : LicenseBody where
  licenseString := "license"
  authScope := "Device"
  linksAuthDevArray := [linkTo .scalar (processorsPath ++ "1")]
  oemObject := some (oemLinks .scalar
    (processorsPath ++ "1" ++ "/Oem/Intel/" ++ Method.feature .GetProvisionState))

theorem post_awaits_endOfName : ∃ call,
    handleLicenseCollectionPost singletons twoCpusBus (some endOfName) = some (.install call) := by
  apply (post_awaits_iff twoCpusBus_publishes endOfName).1.mpr
  refine ⟨"1", .GetProvisionState, linksTo_oemLinks singletons_documented ?_ _ _, _,
    List.mem_pair.mpr (.inr rfl), by decide⟩
  exact List.all_iff_forall_prop.mp (by decide)

end MetaCommon.LicenseService
