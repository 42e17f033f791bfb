import Mathlib.Data.List.Perm.Basic
import MetaCommon.NodeManager.PatchErrors

/-!
# PATCH of the array of power controls

`setPowerCapOverride` walks the array of the body along the list that `buildDomainPolicyMap` makes.
Each member of the body should be written once, to what a GET shows at its place, and an array that
is too long should be rejected. The list agrees with the GET. But the "Oem" of each power control is
patched twice, a device with the index 255 is taken for all devices, and `list.at(i)` throws when
the first power controls have been written.
-/

namespace MetaCommon.NodeManager

/-! ### The writes that a body asks for -/

instance (keys : List String) (json : Json) : Decidable (json.HasNull keys) :=
  inferInstanceAs (Decidable (∃ key ∈ keys, json.hasNull key = true))

def Json.leftOver (keys : List String) (json : Json) : Option Json :=
  if json.HasNull keys ∧ (json.withoutNulls keys).empty = true then none
  else some (json.withoutNulls keys)

/-- The index under which the node manager has a device. -/
def View.index (v : View) : DeviceIndex :=
  match v.kind with
  | .aggregate => allDevices
  | .component deviceIndex => deviceIndex

/-- A reset of one device goes to the device of the view, for the node manager too. -/
def Write.ForDeviceOf (v : View) : Write → Prop
  | .update _ _ deviceIndex =>
    v.kind = if deviceIndex = allDevices then .aggregate else .component deviceIndex
  | _ => True

section Asked

variable (u : JsonUtil) (v : View)

def limitWrites (l : PowerLimit) : List Write :=
  (l.limitInWatts.map (.setLimit v.domainId v.policyId)).toList ++
    ((l.limitException.bind limitExceptionToInt).map
      (.setLimitException v.domainId v.policyId)).toList ++
    (l.correctionInMs.map (.setCorrectionInMs v.domainId v.policyId)).toList

/-- A reset for every member that is null, and what is left is set. -/
def powerLimitWrites (json : Json) : List Write :=
  ((powerLimitKeys.filter json.hasNull).flatMap fun _ =>
      [.update v.domainId v.policyId v.index, .disable v.domainId v.policyId]) ++
    ((json.leftOver powerLimitKeys).bind u.readPowerLimit).elim [] (limitWrites v)

def openBmcWrites (json : Json) : List Write :=
  ((((json.leftOver ["PowerLimitStorage"]).bind u.readPowerLimitStorage).join.bind
    powerLimitStorageToInt).map (.setPolicyStorage v.domainId v.policyId)).toList

def oemWrites (json : Json) : List Write :=
  ((json.leftOver ["OpenBmc"]).bind u.readOpenBmc).join.elim [] (openBmcWrites u v)

def memberWrites (oem powerLimit : Option Json) : List Write :=
  oem.elim [] (oemWrites u v) ++ powerLimit.elim [] (powerLimitWrites u v)

/-- The writes that an array asks for, each with the view it is meant for. A member that cannot be
read ends the array. -/
def asked : List View → List Json → List (View × Write)
  | v :: views, collection :: collections =>
    match u.readMember collection with
    | none => []
    | some (oem, powerLimit) =>
      (memberWrites u v oem powerLimit).map (v, ·) ++ asked views collections
  | _, _ => []

end Asked

/-! ### What the PATCH should do -/

/-- The views that a GET shows, by their places. -/
def Lists (chassisId : String) (processors memories accelerators : List DeviceIndex)
    (views : List View) : Prop :=
  ∀ i v, views[i]? = some v ↔ ∃ memberId,
    (Response.collectNmDmtfData chassisId processors memories accelerators).Shows i memberId v

/-- Every write that the array asks for is made once, to the view at its place, and an array that is
longer than what a GET shows is rejected. -/
def PatchedAsShown (u : JsonUtil) (a : Answers) (body : String) : Prop :=
  a.mapper = true → a.chassisPath = true → ∀ processors memories accelerators,
    a.components = some (processors, memories, accelerators) →
    ∀ views, Lists a.chassisId processors memories accelerators views →
    ∀ collections, u.readCollectionAction body = some (some collections) →
    ∃ s, setPowerCapOverride u a body = some s ∧
      if collections.length ≤ views.length then
        s.writes.Perm ((asked u views collections).map Prod.snd) ∧
          ∀ w ∈ asked u views collections, w.2.ForDeviceOf w.1
      else s.messages ≠ [] ∧ s.writes = []

/-- What the first patching of "Oem" leaves asks for no write, and no power control of a device with
the index 255 is reset. -/
def Once (u : JsonUtil) : List View → List Json → Prop
  | v :: views, collection :: collections =>
    match u.readMember collection with
    | none => True
    | some (oem, powerLimit) =>
      (∀ json ∈ oem, ¬ OemWrites u (oemLeft u json)) ∧
        (v.kind = .component allDevices → ∀ json ∈ powerLimit, ¬ json.HasNull powerLimitKeys) ∧
        Once u views collections
  | _, _ => True

/-- An array that is too long has a member that cannot be read within the list, and asks for nothing
before that. -/
def Placed (u : JsonUtil) (a : Answers) (body : String) : Prop :=
  a.mapper = true → a.chassisPath = true → ∀ processors memories accelerators,
    a.components = some (processors, memories, accelerators) →
    ∀ collections, u.readCollectionAction body = some (some collections) →
    if collections.length ≤ (layout processors memories accelerators).length then
      Once u ((layout processors memories accelerators).map Node.view) collections
    else
      ¬ MembersThrow u (buildDomainPolicyMap processors memories accelerators) collections ∧
        ¬ MembersWrite u (buildDomainPolicyMap processors memories accelerators) collections

/-! ### What the patching functions write -/

/-- A function appends the writes, whatever has been written before. -/
def Appends (patch : Exchange → Exchange) (writes : List Write) : Prop :=
  ∀ s, (patch s).writes = s.writes ++ writes

section Rules

variable {patch patch' : Exchange → Exchange} {writes writes' : List Write}

theorem Appends.nothing : Appends id [] := fun s => (List.append_nil s.writes).symm

theorem Appends.message (m : Message) : Appends (fun s => s.message m) [] := fun s =>
  (List.append_nil s.writes).symm

theorem Appends.write (w : Write) : Appends (fun s => s.write w) [w] := fun _ => rfl

theorem Appends.comp (h : Appends patch writes) (h' : Appends patch' writes') :
    Appends (fun s => patch' (patch s)) (writes ++ writes') := by
  intro s
  rw [h', h, List.append_assoc]

theorem Appends.ifSome {α : Type} {value : Option α} {patch : α → Exchange → Exchange}
    {writes : α → List Write} (h : ∀ v, Appends (patch v) (writes v)) :
    Appends (NodeManager.ifSome value patch) (value.elim [] writes) := by
  cases value with
  | none => exact Appends.nothing
  | some v => exact h v

theorem Appends.patchRead {α : Type} {read : Option α} {patch : α → Exchange → Exchange}
    {writes : α → List Write} (h : ∀ v, Appends (patch v) (writes v)) :
    Appends (NodeManager.patchRead read patch) (read.elim [] writes) := by
  cases read with
  | none => exact Appends.message .invalidJson
  | some v => exact h v

theorem Appends.congr (h : Appends patch writes) (hwrites : writes = writes') :
    Appends patch writes' := hwrites ▸ h

theorem member?_erase {key key' : String} (hne : key' ≠ key) (json : Json) :
    (json.erase key).member? key' = json.member? key' := by
  cases json with
  | object members =>
    have hfind : (members.filter fun m => m.1 ≠ key).find? (fun m => m.1 = key') =
        members.find? fun m => m.1 = key' := by
      rw [List.find?_filter]
      refine congrArg (members.find? ·) (funext fun m => ?_)
      by_cases hm : m.1 = key'
      · simp [hm, hne]
      · simp [hm]
    exact congrArg (Option.map Prod.snd) hfind
  | _ => rfl

theorem hasNull_erase {key key' : String} (hne : key' ≠ key) (json : Json) :
    (json.erase key).hasNull key' = json.hasNull key' := by
  unfold Json.hasNull
  rw [member?_erase hne]

theorem leftOver_eq_some_iff {keys : List String} {json rest : Json} :
    json.leftOver keys = some rest ↔ json.rest keys rest := by
  unfold Json.leftOver Json.rest
  split
  · next h =>
    simp only [reduceCtorEq, false_iff]
    rintro ⟨rfl, hleft⟩
    exact hleft h
  · next h =>
    rw [Option.some_inj]
    constructor
    · rintro rfl
      exact ⟨rfl, h⟩
    · rintro ⟨hrest, -⟩
      exact hrest.symm

/-- One reset for every null member. -/
theorem resetNulls_writes {reset : Exchange → Exchange} (h : Appends reset writes)
    {keys : List String} (hkeys : keys.Nodup) (s : Exchange) (json : Json) :
    (resetNulls reset keys s json).1.writes =
      s.writes ++ (keys.filter json.hasNull).flatMap fun _ => writes := by
  induction keys generalizing s json with
  | nil => simp [resetNulls]
  | cons key keys ih =>
    obtain ⟨hkey, hkeys⟩ := List.nodup_cons.mp hkeys
    have hfilter : keys.filter (json.erase key).hasNull = keys.filter json.hasNull :=
        List.filter_congr fun key' hmem =>
        hasNull_erase (fun he : key' = key => hkey (he ▸ hmem)) json
    unfold resetNulls
    by_cases hnull : json.hasNull key = true
    · rw [if_pos hnull, List.filter_cons_of_pos hnull, List.flatMap_cons, ← List.append_assoc,
        ← h s]
      dsimp only
      split
      · next hempty =>
        have hnone : keys.filter (json.erase key).hasNull = [] :=
          List.filter_eq_nil_iff.mpr fun key' hmem hnull' =>
            not_hasNull_of_empty hempty ⟨key', hmem, hnull'⟩
        rw [← hfilter, hnone, List.flatMap_nil, List.append_nil]
      · rw [ih hkeys, hfilter]
    · rw [if_neg hnull, List.filter_cons_of_neg hnull, ih hkeys]

theorem Appends.resetNulls {reset : Exchange → Exchange} {resets : Prop}
    (h : Appends reset writes) (hadds : Adds reset False resets) {keys : List String}
    (hkeys : keys.Nodup) {json : Json} {next : Json → Exchange → Exchange}
    {writes' : Json → List Write} (hnext : ∀ rest, Appends (next rest) (writes' rest)) :
    Appends (fun s => continueWith next (NodeManager.resetNulls reset keys s json))
      (((keys.filter json.hasNull).flatMap fun _ => writes) ++
        (json.leftOver keys).elim [] writes') := by
  intro s
  have hleft : (NodeManager.resetNulls reset keys s json).2 = json.leftOver keys := by
    refine Option.ext fun rest => ?_
    rw [(resetNulls_spec hadds keys s json).2.2 rest, leftOver_eq_some_iff]
  unfold continueWith
  rw [Appends.ifSome hnext, hleft, resetNulls_writes h hkeys, List.append_assoc]

/-- The null members are erased and nothing is written for them. -/
theorem Appends.eraseNulls {keys : List String} (hkeys : keys.Nodup) {json : Json}
    {next : Json → Exchange → Exchange} {writes : Json → List Write}
    (hnext : ∀ rest, Appends (next rest) (writes rest)) :
    Appends (fun s => continueWith next (NodeManager.resetNulls id keys s json))
      ((json.leftOver keys).elim [] writes) := by
  have hresets : ((keys.filter json.hasNull).flatMap fun _ => []) = ([] : List Write) :=
    List.flatMap_eq_nil_iff.mpr fun _ _ => rfl
  refine (Appends.resetNulls Appends.nothing Adds.nothing hkeys hnext).congr ?_
  rw [hresets, List.nil_append]

end Rules

section Functions

variable (u : JsonUtil) (v : View)

theorem appends_patchLimits (l : PowerLimit) :
    Appends (patchLimits v.domainId v.policyId l) (limitWrites v l) := by
  have hwatts : Appends (ifSome l.limitInWatts fun limit s =>
      s.write (.setLimit v.domainId v.policyId limit)) _ := Appends.ifSome fun _ => Appends.write _
  have hexception : ∀ exception, Appends (patchLimitException v.domainId v.policyId exception)
      ((limitExceptionToInt exception).map (.setLimitException v.domainId v.policyId)).toList := by
    intro exception
    unfold patchLimitException
    cases limitExceptionToInt exception with
    | none => exact Appends.message _
    | some value => exact Appends.write _
  have hcorrection : Appends (ifSome l.correctionInMs fun ms s =>
      s.write (.setCorrectionInMs v.domainId v.policyId ms)) _ :=
    Appends.ifSome fun _ => Appends.write _
  refine ((hwatts.comp (Appends.ifSome hexception)).comp hcorrection).congr ?_
  unfold limitWrites
  cases l.limitInWatts <;> cases l.limitException <;> cases l.correctionInMs <;> rfl

theorem appends_patchPowerPowerControlPowerLimit (json : Json) :
    Appends (patchPowerPowerControlPowerLimit u v.domainId v.policyId v.index json)
      (powerLimitWrites u v json) := by
  rw [patchPowerPowerControlPowerLimit_eq]
  refine (Appends.resetNulls ((Appends.write _).comp (Appends.write _))
    (resets_updatePolicyToDefaults v.domainId v.policyId v.index) (by decide)
    fun rest => Appends.patchRead (appends_patchLimits v)).congr ?_
  unfold powerLimitWrites
  cases json.leftOver powerLimitKeys <;> rfl

theorem appends_patchPowerPowerControlOemOpenBmc (json : Json) :
    Appends (patchPowerPowerControlOemOpenBmc u v.domainId v.policyId json)
      (openBmcWrites u v json) := by
  have hstorage : ∀ storage, Appends (patchPowerLimitStorage v.domainId v.policyId storage)
      ((powerLimitStorageToInt storage).map (.setPolicyStorage v.domainId v.policyId)).toList := by
    intro storage
    unfold patchPowerLimitStorage
    cases powerLimitStorageToInt storage with
    | none => exact Appends.message _
    | some value => exact Appends.write _
  rw [patchPowerPowerControlOemOpenBmc_eq]
  refine (Appends.eraseNulls (by decide) fun rest =>
    Appends.patchRead fun storage => Appends.ifSome hstorage).congr ?_
  unfold openBmcWrites
  cases json.leftOver ["PowerLimitStorage"] with
  | none => rfl
  | some rest =>
    change (u.readPowerLimitStorage rest).elim _ _ = _
    rw [Option.bind_some]
    rcases u.readPowerLimitStorage rest with _ | _ | storage <;> rfl

theorem appends_patchPowerPowerControlOem (json : Json) :
    Appends (patchPowerPowerControlOem u v.domainId v.policyId json) (oemWrites u v json) := by
  rw [patchPowerPowerControlOem_eq]
  refine (Appends.eraseNulls (by decide) fun rest =>
    Appends.patchRead fun openBmc =>
      Appends.ifSome (appends_patchPowerPowerControlOemOpenBmc u v)).congr ?_
  unfold oemWrites
  cases json.leftOver ["OpenBmc"] with
  | none => rfl
  | some rest =>
    change (u.readOpenBmc rest).elim _ _ = _
    rw [Option.bind_some]
    rcases u.readOpenBmc rest with _ | _ | openBmc <;> rfl

theorem oemWrites_eq_nil_iff (json : Json) : oemWrites u v json = [] ↔ ¬ OemWrites u json := by
  have hwrites := appends_patchPowerPowerControlOem u v json .start
  have hadds := (adds_patchPowerPowerControlOem u v.domainId v.policyId json .start).2
  rw [hwrites] at hadds
  simpa [Exchange.start] using hadds

end Functions

/-! ### The loop over the array -/

section Loop

variable (u : JsonUtil)

/-- What is written when "Oem" is patched for the second time. -/
def again : List View → List Json → List Write
  | v :: views, collection :: collections =>
    match u.readMember collection with
    | none => []
    | some (oem, _) => (oem.map (oemLeft u)).elim [] (oemWrites u v) ++ again views collections
  | _, _ => []

theorem domainPolicy_index (node : Node) : node.domainPolicy.index = node.view.index := by
  cases node <;> rfl

theorem patchMember_writes (node : Node) (oem powerLimit : Option Json) (s : Exchange) :
    (patchMember u node.domainPolicy oem powerLimit s).writes =
      s.writes ++ (memberWrites u node.view oem powerLimit ++
        (oem.map (oemLeft u)).elim [] (oemWrites u node.view)) := by
  have hoem : ∀ value : Option Json,
      Appends (ifSome value (patchPowerPowerControlOem u node.domainPolicy.domain
        node.domainPolicy.policy)) (value.elim [] (oemWrites u node.view)) := fun value =>
    Appends.ifSome (appends_patchPowerPowerControlOem u node.view)
  have hlimit : Appends (ifSome powerLimit (patchPowerPowerControlPowerLimit u
      node.domainPolicy.domain node.domainPolicy.policy node.domainPolicy.index))
      (powerLimit.elim [] (powerLimitWrites u node.view)) := by
    rw [domainPolicy_index]
    exact Appends.ifSome (appends_patchPowerPowerControlPowerLimit u node.view)
  exact ((hoem oem).comp hlimit).comp (hoem (oem.map (oemLeft u))) s

/-- An array that is not too long is walked, and what is written besides is the second patching. -/
theorem patchMembers_writes (nodes : List Node) (collections : List Json) (s : Exchange)
    (hlength : collections.length ≤ nodes.length) :
    ∃ s', patchMembers u (nodes.map Node.domainPolicy) collections s = some s' ∧
      s'.writes.Perm (s.writes ++ ((asked u (nodes.map Node.view) collections).map Prod.snd ++
        again u (nodes.map Node.view) collections)) := by
  induction collections generalizing nodes s with
  | nil => exact ⟨s, by cases nodes <;> rfl, by cases nodes <;> simp [asked, again]⟩
  | cons collection collections ih =>
    cases nodes with
    | nil => exact absurd hlength (by simp)
    | cons node nodes =>
      simp only [List.map_cons, patchMembers, asked, again]
      cases u.readMember collection with
      | none => exact ⟨_, rfl, by simp [Exchange.message]⟩
      | some members =>
        obtain ⟨oem, powerLimit⟩ := members
        obtain ⟨s', hs', hperm⟩ := ih nodes (patchMember u node.domainPolicy oem powerLimit s)
          (Nat.le_of_succ_le_succ hlength)
        refine ⟨s', hs', hperm.trans ?_⟩
        rw [patchMember_writes]
        have hmap : ((memberWrites u node.view oem powerLimit).map (node.view, ·)).map Prod.snd =
            memberWrites u node.view oem powerLimit :=
          List.map_map.trans (List.map_id _)
        simp only [List.map_append, hmap, List.append_assoc]
        refine List.Perm.append_left _ (List.Perm.append_left _ ?_)
        rw [← List.append_assoc, ← List.append_assoc]
        exact List.Perm.append_right _ List.perm_append_comm

end Loop

/-! ### The devices -/

section Devices

variable (u : JsonUtil) {v : View}

theorem mem_elim_nil {α β : Type} {value : Option α} {f : α → List β} {b : β} :
    b ∈ value.elim [] f ↔ ∃ a ∈ value, b ∈ f a := by
  cases value <;> simp

theorem forDeviceOf_update_iff (domain policy : String) :
    (Write.update domain policy v.index).ForDeviceOf v ↔ v.kind ≠ .component allDevices := by
  obtain ⟨domainId, policyId, kind⟩ := v
  simp only [Write.ForDeviceOf, View.index]
  cases kind with
  | aggregate => simp
  | component deviceIndex =>
    by_cases hindex : deviceIndex = allDevices
    · simp [hindex]
    · simp [hindex]

theorem forDeviceOf_limitWrites (l : PowerLimit) : ∀ w ∈ limitWrites v l, w.ForDeviceOf v := by
  intro w hw
  simp only [limitWrites, List.mem_append, Option.mem_toList, Option.map_eq_some_iff] at hw
  rcases hw with (⟨_, _, rfl⟩ | ⟨_, _, rfl⟩) | ⟨_, _, rfl⟩ <;> trivial

theorem forDeviceOf_oemWrites (json : Json) : ∀ w ∈ oemWrites u v json, w.ForDeviceOf v := by
  intro w hw
  obtain ⟨openBmc, -, hw⟩ := mem_elim_nil.mp hw
  simp only [openBmcWrites, Option.mem_toList, Option.map_eq_some_iff] at hw
  obtain ⟨_, _, rfl⟩ := hw
  trivial

/-- A reset goes wrong only for a device with the index 255. -/
theorem forDeviceOf_powerLimitWrites_iff (json : Json) :
    (∀ w ∈ powerLimitWrites u v json, w.ForDeviceOf v) ↔
      (v.kind = .component allDevices → ¬ json.HasNull powerLimitKeys) := by
  unfold powerLimitWrites
  constructor
  · rintro h hkind ⟨key, hkey, hnull⟩
    have hupdate := h (.update v.domainId v.policyId v.index) (List.mem_append_left _
      (List.mem_flatMap.mpr ⟨key, List.mem_filter.mpr ⟨hkey, hnull⟩, List.mem_cons_self⟩))
    exact (forDeviceOf_update_iff _ _).mp hupdate hkind
  · intro h w hw
    rcases List.mem_append.mp hw with hreset | hset
    · obtain ⟨key, hkey, hw⟩ := List.mem_flatMap.mp hreset
      obtain ⟨hkey, hnull⟩ := List.mem_filter.mp hkey
      rcases List.mem_cons.mp hw with rfl | hw
      · exact (forDeviceOf_update_iff _ _).mpr fun hkind => h hkind ⟨key, hkey, hnull⟩
      · obtain rfl := List.mem_singleton.mp hw
        trivial
    · obtain ⟨l, -, hw⟩ := mem_elim_nil.mp hset
      exact forDeviceOf_limitWrites l w hw

theorem forDeviceOf_memberWrites_iff (oem powerLimit : Option Json) :
    (∀ w ∈ memberWrites u v oem powerLimit, w.ForDeviceOf v) ↔
      (v.kind = .component allDevices → ∀ json ∈ powerLimit, ¬ json.HasNull powerLimitKeys) := by
  unfold memberWrites
  have hoem : ∀ w ∈ oem.elim [] (oemWrites u v), w.ForDeviceOf v := by
    intro w hw
    obtain ⟨json, -, hw⟩ := mem_elim_nil.mp hw
    exact forDeviceOf_oemWrites u json w hw
  rw [List.forall_mem_append, and_iff_right hoem]
  cases powerLimit with
  | none => simp
  | some json => simpa using forDeviceOf_powerLimitWrites_iff u json

theorem once_iff (views : List View) (collections : List Json) :
    Once u views collections ↔ again u views collections = [] ∧
      ∀ w ∈ asked u views collections, w.2.ForDeviceOf w.1 := by
  induction collections generalizing views with
  | nil => cases views <;> simp [Once, again, asked]
  | cons collection collections ih =>
    cases views with
    | nil => simp [Once, again, asked]
    | cons v views =>
      unfold Once again asked
      cases u.readMember collection with
      | none => simp
      | some members =>
        obtain ⟨oem, powerLimit⟩ := members
        have hagain : (oem.map (oemLeft u)).elim [] (oemWrites u v) = [] ↔
            ∀ json ∈ oem, ¬ OemWrites u (oemLeft u json) := by
          cases oem with
          | none => simp
          | some json => simpa using oemWrites_eq_nil_iff u v (oemLeft u json)
        dsimp only
        rw [ih views, List.append_eq_nil_iff, hagain, List.forall_mem_append, List.forall_mem_map,
          forDeviceOf_memberWrites_iff]
        tauto

end Devices

/-! ### When the array is patched as it is shown -/

/-- A GET shows the nodes of the layout. -/
theorem lists_iff (chassisId : String) (processors memories accelerators : List DeviceIndex)
    (views : List View) : Lists chassisId processors memories accelerators views ↔
      views = (layout processors memories accelerators).map Node.view := by
  have hshown : ∀ i v, (∃ memberId,
      (Response.collectNmDmtfData chassisId processors memories accelerators).Shows i memberId v) ↔
      ((layout processors memories accelerators).map Node.view)[i]? = some v := by
    intro i v
    rw [List.getElem?_map, Option.map_eq_some_iff]
    constructor
    · rintro ⟨memberId, hshows⟩
      obtain ⟨node, hnode, -, rfl⟩ := (shows_collection_iff chassisId).mp hshows
      exact ⟨node, hnode, rfl⟩
    · rintro ⟨node, hnode, rfl⟩
      exact ⟨_, (shows_collection_iff chassisId).mpr ⟨node, hnode, rfl, rfl⟩⟩
  unfold Lists
  simp only [hshown]
  constructor
  · exact fun h => List.ext_getElem? fun i => Option.ext fun v => h i v
  · rintro rfl i v
    exact Iff.rfl

theorem setPowerCapOverride_eq {u : JsonUtil} {a : Answers} {body : String}
    {processors memories accelerators : List DeviceIndex} {collections : List Json}
    (hmapper : a.mapper = true) (hpath : a.chassisPath = true)
    (hcomponents : a.components = some (processors, memories, accelerators))
    (hread : u.readCollectionAction body = some (some collections)) :
    setPowerCapOverride u a body = patchMembers u
      ((layout processors memories accelerators).map Node.domainPolicy) collections .start := by
  unfold setPowerCapOverride Answers.list
  rw [hcomponents, Option.map_some, buildDomainPolicyMap_eq]
  cases collections <;> simp [hmapper, hpath, hread, patchMembers]

/-- An array that is not too long is patched as it is shown exactly if nothing is written twice or
to another device. -/
theorem once_iff_perm (u : JsonUtil) (nodes : List Node) (collections : List Json)
    (hlength : collections.length ≤ nodes.length) :
    (∃ s, patchMembers u (nodes.map Node.domainPolicy) collections .start = some s ∧
      s.writes.Perm ((asked u (nodes.map Node.view) collections).map Prod.snd) ∧
        ∀ w ∈ asked u (nodes.map Node.view) collections, w.2.ForDeviceOf w.1) ↔
      Once u (nodes.map Node.view) collections := by
  obtain ⟨s, hs, hperm⟩ := patchMembers_writes u nodes collections .start hlength
  rw [hs, once_iff]
  simp only [Option.some_inj, exists_eq_left']
  refine and_congr_left fun _ => ?_
  constructor
  · intro h
    have hsum := (hperm.symm.trans h).length_eq
    simp only [Exchange.start, List.nil_append, List.length_append] at hsum
    exact List.eq_nil_of_length_eq_zero (by omega)
  · intro h
    simpa [h, Exchange.start] using hperm

/-- An array that is too long and does not throw has a member that cannot be read. -/
theorem membersFaulty_of_not_membersThrow {u : JsonUtil} {list : List DomainPolicy}
    {collections : List Json} (hlength : list.length < collections.length)
    (hthrow : ¬ MembersThrow u list collections) : MembersFaulty u list collections := by
  induction collections generalizing list with
  | nil => exact absurd hlength (Nat.not_lt_zero _)
  | cons collection collections ih =>
    cases list with
    | nil => exact absurd trivial hthrow
    | cons entry list =>
      unfold MembersThrow at hthrow
      unfold MembersFaulty
      split
      · trivial
      · next oem powerLimit hread =>
        rw [hread] at hthrow
        exact .inr (ih (Nat.lt_of_succ_lt_succ hlength) fun h => hthrow ⟨rfl, h⟩)

/-- Nor is an array rejected that is too long, unless it cannot be read within the list. -/
theorem rejected_iff (u : JsonUtil) {list : List DomainPolicy} {collections : List Json}
    (hlength : list.length < collections.length) :
    (∃ s, patchMembers u list collections .start = some s ∧ s.messages ≠ [] ∧ s.writes = []) ↔
      ¬ MembersThrow u list collections ∧ ¬ MembersWrite u list collections := by
  obtain ⟨hthrow, hadds⟩ := adds_patchMembers u list collections .start
  rw [← hthrow]
  constructor
  · rintro ⟨s, hs, -, hwrites⟩
    exact ⟨by simp [hs], ((hadds s hs).2.mp hwrites).2⟩
  · rintro ⟨hsome, hwrite⟩
    obtain ⟨s, hs⟩ := Option.ne_none_iff_exists'.mp hsome
    have hfaulty := membersFaulty_of_not_membersThrow hlength fun h => hsome (hthrow.mpr h)
    exact ⟨s, hs, fun hm => ((hadds s hs).1.mp hm).2 hfaulty, (hadds s hs).2.mpr ⟨rfl, hwrite⟩⟩

theorem patchedAsShown_iff_placed (u : JsonUtil) (a : Answers) (body : String) :
    PatchedAsShown u a body ↔ Placed u a body := by
  unfold PatchedAsShown Placed
  refine imp_congr_right fun hmapper => imp_congr_right fun hpath => forall_congr' fun processors =>
    forall_congr' fun memories => forall_congr' fun accelerators =>
      imp_congr_right fun hcomponents => ?_
  simp only [lists_iff, forall_eq, List.length_map]
  refine forall_congr' fun collections => imp_congr_right fun hread => ?_
  rw [setPowerCapOverride_eq hmapper hpath hcomponents hread, buildDomainPolicyMap_eq]
  split
  · next hlength => exact once_iff_perm u _ collections hlength
  · next hlength => exact rejected_iff u (by rw [List.length_map]; omega)

/-- The readers on an array of objects without members. -/
def emptyMembersUtil : JsonUtil where
  readPowerLimit := fun _ => some ⟨none, none, none⟩
  readPowerLimitStorage := fun _ => some none
  readOpenBmc := fun _ => some none
  leftOpenBmc := id
  readMember := fun _ => some (none, none)
  readMemberAction := fun _ => some (none, none)
  readCollectionAction := fun _ => some (some (List.replicate 5 (.object [])))

/-- Without components there are four power controls. -/
theorem not_patchedAsShown :
    ¬ ∀ (u : JsonUtil) (a : Answers) (body : String), PatchedAsShown u a body := by
  intro h
  obtain ⟨s, hs, -⟩ := h emptyMembersUtil ⟨"chassis", true, true, some ([], [], [])⟩ "" rfl rfl
    [] [] [] rfl _ ((lists_iff _ _ _ _ _).mpr rfl) _ rfl
  exact nomatch hs

end MetaCommon.NodeManager
