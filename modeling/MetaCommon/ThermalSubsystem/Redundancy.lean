import MetaCommon.ThermalSubsystem.Agreement

/-!
# The links of the redundancy

They are the names of the tachometers of one service, and the members of the collection those of
the fans. A link resolves only if a fan has the name of the tachometer, and appears once only if no
other tachometer has it.
-/

namespace MetaCommon.ThermalSubsystem

namespace Platform

variable (P : Platform) (chassisId validChassisPath : String) (s : Sensors)

/-- The objects whose names the redundancy lists. -/
def tachometers : List SensorObject :=
  (s.below fanTachPath).filter fun o =>
    "xyz.openbmc_project.FanSensor" ∈ o.services.map Prod.fst

/-- The links of the redundancy are members of the collection, and no link appears twice in either
of the two. -/
structure LinksRight : Prop where
  members : ∀ c group,
    P.doFanCollection chassisId (some validChassisPath)
      (.ok (s.getSubTreePaths fanPwmPath)) = .ok c →
    P.getFanRedundancy chassisId (.ok (s.getSubTree fanTachPath)) = .ok (some group) →
    ∀ link ∈ group, link ∈ c.members
  members_nodup : ∀ c, P.doFanCollection chassisId (some validChassisPath)
    (.ok (s.getSubTreePaths fanPwmPath)) = .ok c → c.members.Nodup
  group_nodup : ∀ group,
    P.getFanRedundancy chassisId (.ok (s.getSubTree fanTachPath)) = .ok (some group) → group.Nodup

/-- Different objects have different names, but for those that have none. -/
def NamesApart (objects : List SensorObject) : Prop :=
  ∀ o ∈ objects, ∀ o' ∈ objects, P.filename o.path ≠ "" →
    P.filename o.path = P.filename o'.path → o = o'

/-- The names of the fans are apart, those of the tachometers too, and each tachometer has the name
of a fan. -/
structure LinksClear : Prop where
  fans : P.NamesApart (s.below fanPwmPath)
  tachometers : P.NamesApart (tachometers s)
  paired : ∀ o ∈ Platform.tachometers s, P.filename o.path ≠ "" →
    ∃ o' ∈ s.below fanPwmPath, P.filename o'.path = P.filename o.path

/-- What holds of the three views for a snapshot of the bus and the name of a fan. -/
structure FansRight (fanId : String) : Prop where
  get : P.GetRight chassisId validChassisPath s fanId
  links : P.LinksRight chassisId validChassisPath s

variable {P chassisId validChassisPath s} {fanId : String}

/-! ### The names -/

/-- An object is listed once, because the service is there once. -/
theorem service_names {o : SensorObject} (hservices : (o.services.map Prod.fst).Nodup)
    (hvalue : ∀ e ∈ o.services, valueIntf ∈ e.2) :
    ((o.services.filter fun (service, interfacesList) =>
        service = "xyz.openbmc_project.FanSensor" ∧ interfacesList ≠ [] ∧
          P.filename o.path ≠ "").map fun _ => P.filename o.path) =
      if "xyz.openbmc_project.FanSensor" ∈ o.services.map Prod.fst ∧ P.filename o.path ≠ "" then
        [P.filename o.path] else [] := by
  by_cases hname : P.filename o.path = ""
  · simp [hname]
  · have hlength : (o.services.filter fun (service, interfacesList) =>
        service = "xyz.openbmc_project.FanSensor" ∧ interfacesList ≠ [] ∧
          P.filename o.path ≠ "").length =
        (o.services.map Prod.fst).count "xyz.openbmc_project.FanSensor" := by
      rw [List.count, List.countP_map, List.countP_eq_length_filter]
      refine congrArg List.length (List.filter_congr fun e he => ?_)
      have hne : e.2 ≠ [] := List.ne_nil_of_mem (hvalue e he)
      exact decide_eq_decide.mpr (and_iff_left ⟨hne, hname⟩)
    rw [List.map_const', hlength, hservices.count]
    by_cases hmem : "xyz.openbmc_project.FanSensor" ∈ o.services.map Prod.fst
    · rw [if_pos hmem, if_pos ⟨hmem, hname⟩]
      rfl
    · rw [if_neg hmem, if_neg fun h => hmem h.1]
      rfl

theorem redundancy_names (objects : List SensorObject)
    (hservices : ∀ o ∈ objects, (o.services.map Prod.fst).Nodup)
    (hvalue : ∀ o ∈ objects, ∀ e ∈ o.services, valueIntf ∈ e.2) :
    ((objects.map fun o => (o.path, o.services)).flatMap fun (fanPath, serviceMap) =>
      (serviceMap.filter fun (service, interfacesList) =>
        service = "xyz.openbmc_project.FanSensor" ∧ interfacesList ≠ [] ∧
          P.filename fanPath ≠ "").map fun _ => P.filename fanPath) =
    P.pathNames ((objects.filter fun o =>
      "xyz.openbmc_project.FanSensor" ∈ o.services.map Prod.fst).map SensorObject.path) := by
  induction objects with
  | nil => rfl
  | cons o objects ih =>
    obtain ⟨hservice, hservices⟩ := List.forall_mem_cons.mp hservices
    obtain ⟨ho, hvalue⟩ := List.forall_mem_cons.mp hvalue
    rw [List.map_cons, List.flatMap_cons, ih hservices hvalue]
    dsimp only
    rw [service_names hservice ho]
    by_cases hmem : "xyz.openbmc_project.FanSensor" ∈ o.services.map Prod.fst
    · rw [List.filter_cons_of_pos (by simpa using hmem), List.map_cons, pathNames, pathNames,
        List.map_cons]
      by_cases hname : P.filename o.path = ""
      · rw [if_neg fun h => h.2 hname, List.filter_cons_of_neg (by simpa using hname)]
        rfl
      · rw [if_pos ⟨hmem, hname⟩, List.filter_cons_of_pos (by simpa using hname)]
        rfl
    · rw [List.filter_cons_of_neg (by simpa using hmem), if_neg fun h => hmem h.1]
      rfl

theorem getFanRedundancy_eq :
    P.getFanRedundancy chassisId (.ok (s.getSubTree fanTachPath)) =
      if (P.pathNames ((tachometers s).map SensorObject.path)).isEmpty then .ok none
      else .ok (some ((P.sort (P.pathNames ((tachometers s).map SensorObject.path))).map
        (fanUrl chassisId))) := by
  have hnames := redundancy_names (P := P) (s.below fanTachPath)
    (fun o ho => s.services o (mem_below.mp ho).1) fun o ho => s.hasValue o (mem_below.mp ho).1
  unfold getFanRedundancy Sensors.getSubTree
  dsimp only
  rw [hnames]
  rfl

/-- The names are listed once if and only if they are apart. -/
theorem links_nodup_iff {objects : List SensorObject} (h : objects.Nodup) :
    ((P.sort (P.pathNames (objects.map SensorObject.path))).map (fanUrl chassisId)).Nodup ↔
      P.NamesApart objects := by
  rw [List.nodup_map_iff fanUrl_injective, (P.sort_perm _).nodup_iff, pathNames, List.map_map,
    List.filter_map, List.nodup_map_iff_inj_on (h.filter _)]
  simp only [List.mem_filter, Function.comp_apply, decide_eq_true_iff]
  constructor
  · intro hinj o ho o' ho' hne hname
    exact hinj o ⟨ho, hne⟩ o' ⟨ho', hname ▸ hne⟩ hname
  · rintro hapart o ⟨ho, hne⟩ o' ⟨ho', -⟩ hname
    exact hapart o ho o' ho' hne hname

theorem nodup_below (root : ObjectPath) : (s.below root).Nodup := objects_nodup.filter _

theorem group_eq {group : List Url}
    (h : P.getFanRedundancy chassisId (.ok (s.getSubTree fanTachPath)) = .ok (some group)) :
    group = (P.sort (P.pathNames ((tachometers s).map SensorObject.path))).map
      (fanUrl chassisId) := by
  rw [getFanRedundancy_eq] at h
  split_ifs at h with hempty
  · exact nomatch Except.ok.inj h
  · exact (Option.some.inj (Except.ok.inj h)).symm

/-- There is a group if a tachometer has a name. -/
theorem exists_group (chassisId : String) {o : SensorObject} (ho : o ∈ tachometers s)
    (hne : P.filename o.path ≠ "") :
    P.getFanRedundancy chassisId (.ok (s.getSubTree fanTachPath)) =
      .ok (some ((P.sort (P.pathNames ((tachometers s).map SensorObject.path))).map
        (fanUrl chassisId))) := by
  rw [getFanRedundancy_eq, if_neg]
  intro hempty
  exact List.ne_nil_of_mem (mem_pathNames.mpr ⟨o, ho, rfl, hne⟩) (List.isEmpty_iff.mp hempty)

/-! ### The links -/

theorem linksClear_of_linksRight (h : LinksRight P chassisId validChassisPath s) :
    LinksClear P s where
  fans := (links_nodup_iff (nodup_below _)).mp (h.members_nodup _ rfl)
  tachometers o ho o' ho' hne hname :=
    (links_nodup_iff ((nodup_below _).filter _)).mp (h.group_nodup _ (exists_group _ ho hne))
      o ho o' ho' hne hname
  paired o ho hne := by
    have hgroup := exists_group chassisId ho hne
    have hlink := h.members _ _ rfl hgroup _
      (mem_links.mpr (mem_pathNames.mpr ⟨o, ho, rfl, hne⟩))
    obtain ⟨o', ho', hname, -⟩ := mem_pathNames.mp (mem_links.mp hlink)
    exact ⟨o', ho', hname⟩

theorem linksRight_of_linksClear (h : LinksClear P s) :
    LinksRight P chassisId validChassisPath s where
  members := by
    rintro _ group ⟨rfl⟩ hgroup link hlink
    obtain rfl := group_eq hgroup
    obtain ⟨name, -, rfl⟩ := List.mem_map.mp hlink
    obtain ⟨o, ho, rfl, hne⟩ := mem_pathNames.mp (mem_links.mp hlink)
    obtain ⟨o', ho', hname⟩ := h.paired o ho hne
    exact mem_links.mpr (mem_pathNames.mpr ⟨o', ho', hname, hne⟩)
  members_nodup := by
    rintro _ ⟨rfl⟩
    exact (links_nodup_iff (nodup_below _)).mpr h.fans
  group_nodup := by
    intro group hgroup
    obtain rfl := group_eq hgroup
    exact (links_nodup_iff ((nodup_below _).filter _)).mpr h.tachometers

theorem linksRight_iff : LinksRight P chassisId validChassisPath s ↔ LinksClear P s :=
  ⟨linksClear_of_linksRight, linksRight_of_linksClear⟩

/-- The collection, the redundancy and a GET agree exactly when the sensors with the name are of one
fan, or of fans without a status, and the names of the fans and of the tachometers match one to
one. -/
theorem fansRight_iff (P : Platform) (chassisId validChassisPath : String) (s : Sensors)
    (fanId : String) : FansRight P chassisId validChassisPath s fanId ↔
      GetClear P s fanId ∧ LinksClear P s := by
  constructor
  · rintro ⟨hget, hlinks⟩
    exact ⟨getRight_iff.mp hget, linksRight_iff.mp hlinks⟩
  · rintro ⟨hget, hlinks⟩
    exact ⟨getRight_iff.mpr hget, linksRight_iff.mpr hlinks⟩

/-! ### A sensor of another kind -/

/-- One sensor, of a temperature. -/
def inletSensors : Sensors where
  objects := [⟨sensorsPath ++ ["temperature", "Inlet"],
    [("xyz.openbmc_project.HwmonTempSensor", [valueIntf])]⟩]
  paths := by decide
  services := by decide
  hosted := by decide
  hasValue := by decide

def lastElement : Platform where
  filename path := path.getLastD ""
  sort := id
  sort_perm _ := .refl _

/-- A GET of a fan answers with the temperature sensor, which the collection does not list. -/
theorem inlet_not_right : ¬ ∀ (P : Platform) (chassisId validChassisPath : String) (s : Sensors)
    (fanId : String), FansRight P chassisId validChassisPath s fanId := by
  intro h
  have hlisted := (h lastElement "chassis" "/inventory/chassis" inletSensors "Inlet").get.listed
  obtain ⟨o, ho, -⟩ := listed_iff.mp (hlisted.mp ⟨_, _, rfl⟩)
  exact absurd ho (by decide +revert)

end Platform

end MetaCommon.ThermalSubsystem
