import Mathlib.Data.List.Nodup
import MetaCommon.FullFitimage.Assemble

/-!
# The tree of the image source

The lines are the stream of one tree: under `/` stand the images and the configurations, which refer
to images by name.
-/

namespace MetaCommon.FullFitimage

open Forest

abbrev Its := Forest String Property

/-! ### How the tree is read -/

def sub (f : Its) (name : String) : Its :=
  ((f.nodesHere.find? fun n => n.1 = name).map Prod.snd).getD .nil

def valueOf (f : Its) (name : String) : Option Value :=
  (f.leavesHere.find? fun p => p.name = name).map Property.value

def names (f : Its) : List String := f.nodesHere.map Prod.fst

def images (f : Its) : Its := sub (sub f "/") "images"

def configurations (f : Its) : Its := sub (sub f "/") "configurations"

/-- The images that a configuration refers to, each with the property that does so. -/
def references (conf : Its) : List (String × String) :=
  conf.leavesHere.filterMap fun p =>
    match p.value with
    | .strings [image] =>
      if p.name ∈ ["kernel", "fdt", "ramdisk", "setup"] then some (p.name, image) else none
    | _ => none

/-- What dtc asks of the content of a node. -/
structure WellFormed (f : Its) : Prop where
  leavesFirst : f.LeavesFirst
  properties : (f.leavesHere.map Property.name).Nodup
  nodes : (names f).Nodup

/-! ### The tree that is written -/

def hashNodes (csum : String) : List (String × Its) :=
  if csum ≠ "" then [("hash-1", level [text "algo" csum] [])] else []

def imageNode (name : String) (properties : List Property) (hash : String) : String × Its :=
  (name, level properties (hashNodes hash))

def signatureNodes (env : Env) (dtb ramdisk setup hash : String) : List (String × Its) :=
  if confSignKeyname env ≠ "" then
    [("signature-1", level (signatureProperties env dtb ramdisk setup hash) [])]
  else []

def configNode (env : Env) (ramdisk default dtb : String) : String × Its :=
  ("conf-" ++ dtb, level (confProperties "1" dtb ramdisk (setupcount env) default)
    (hashNodes (hashType env) ++ signatureNodes env dtb ramdisk (setupcount env) (hashType env)))

/-- The device trees that are there. -/
def foundDtbs (env : Env) : List String :=
  env.kernelDevicetree.filter fun word => env.fileExists (dtbPath env word)

def dtbNode (env : Env) (word : String) : String × Its :=
  if dtbName word = "" then
    imageNode ("fdt-" ++ dtbPath env word) (dtbProperties env (hashType env)) (hashType env)
  else imageNode ("fdt-" ++ dtbName word) (dtbProperties env (dtbPath env word)) (hashType env)

def kernelNode (env : Env) : String × Its :=
  imageNode "kernel-1" (kernelProperties env (env.deployDirImage ++ "/zImage") "none")
    (hashType env)

def setupNodes (env : Env) : List (String × Its) :=
  if env.fileExists (setupPath env) then
    [imageNode "setup-1" (setupProperties env (setupPath env)) (hashType env)]
  else []

def ramdiskNodes (env : Env) (ramdisk : String) : List (String × Its) :=
  if ramdisk = "1" then
    ((findInitramfs env).map fun path =>
      imageNode "ramdisk-1" (ramdiskProperties env path) (hashType env)).toList
  else []

def imageNodes (env : Env) (ramdisk : String) : List (String × Its) :=
  kernelNode env :: (foundDtbs env).map (dtbNode env) ++ setupNodes env ++ ramdiskNodes env ramdisk

def confDtbs (env : Env) : List String := ((foundDtbs env).map dtbName).filter (· ≠ "")

/-- The first device tree is the default one. -/
def defaultProperty (dtbs : List String) : List Property :=
  (dtbs.head?.map fun dtb => text "default" ("conf-" ++ dtb)).toList

def configNodes (env : Env) (ramdisk : String) : List String → List (String × Its)
  | [] => []
  | dtb :: dtbs => configNode env ramdisk "1" dtb :: dtbs.map (configNode env ramdisk "0")

def configsNode (env : Env) (ramdisk : String) : Its :=
  level (defaultProperty (confDtbs env)) (configNodes env ramdisk (confDtbs env))

def itsOf (env : Env) (ramdisk : String) : Its :=
  level [] [("/", level
    [text "description"
      ("U-Boot fitImage for " ++ env.distroName ++ "/" ++ env.pv ++ "/" ++ env.machine),
      cells "#address-cells" "1"]
    [("images", level [] (imageNodes env ramdisk)), ("configurations", configsNode env ramdisk)])]

section Lines

variable (env : Env) (ramdisk : String)

theorem hashBlk_eq (csum : String) : hashBlk csum = (hashNodes csum).flatMap nodeTokens := by
  unfold hashBlk hashNodes
  by_cases h : csum ≠ ""
  · rw [if_pos h, if_pos h]
    rfl
  · rw [if_neg h, if_neg h]
    rfl

theorem emitSectionImage_eq (name : String) (properties : List Property) (hash : String) :
    emitSectionImage name properties hash = nodeTokens (imageNode name properties hash) := by
  rw [emitSectionImage, nodeTokens, imageNode, tokens_level, hashBlk_eq]
  simp only [List.cons_append]

theorem emitDtb_eq (word : String) :
    emitDtb env (dtbName word) (dtbPath env word) (hashType env) =
      nodeTokens (dtbNode env word) := by
  unfold emitDtb dtbNode
  by_cases h : dtbName word = ""
  · rw [if_pos h, if_pos h]
    exact emitSectionImage_eq _ _ _
  · rw [if_neg h, if_neg h]
    exact emitSectionImage_eq _ _ _

theorem packDtbs_foldl (words : List String) (s : DtbState) :
    words.foldl (packDtb env) s =
      ⟨s.lines ++ (words.filter fun word => env.fileExists (dtbPath env word)).flatMap
          fun word => nodeTokens (dtbNode env word),
        s.dtbs ++ (words.filter fun word => env.fileExists (dtbPath env word)).map dtbName⟩ := by
  induction words generalizing s with
  | nil => simp
  | cons word words ih =>
    rw [List.foldl_cons, ih, packDtb]
    by_cases h : env.fileExists (dtbPath env word)
    · rw [if_pos h, List.filter_cons, if_pos h, emitDtb_eq]
      simp
    · rw [if_neg h, List.filter_cons, if_neg h]

theorem packDtbs_lines :
    (packDtbs env).lines = ((foundDtbs env).map (dtbNode env)).flatMap nodeTokens := by
  rw [packDtbs, packDtbs_foldl, List.flatMap_map]
  rfl

theorem packDtbs_words : (packDtbs env).words = confDtbs env := by
  rw [packDtbs, packDtbs_foldl]
  rfl

theorem packSetup_eq : packSetup env = (setupNodes env).flatMap nodeTokens := by
  unfold packSetup setupNodes
  by_cases h : env.fileExists (setupPath env)
  · rw [if_pos h, if_pos h, List.flatMap_singleton]
    exact emitSectionImage_eq _ _ _
  · rw [if_neg h, if_neg h]
    rfl

theorem packRamdisk_eq :
    packRamdisk env ramdisk = (ramdiskNodes env ramdisk).flatMap nodeTokens := by
  unfold packRamdisk ramdiskNodes
  by_cases h : ramdisk = "1"
  · rw [if_pos h, if_pos h]
    cases findInitramfs env with
    | none => rfl
    | some path =>
      subst h
      simp only [Option.map_some, Option.toList_some, List.flatMap_singleton]
      exact emitSectionImage_eq _ _ _
  · rw [if_neg h, if_neg h]
    rfl

theorem fitimageEmitSectionConfig_eq (dtb default : String) :
    fitimageEmitSectionConfig env "1" dtb ramdisk (setupcount env) default (hashType env) =
      (if default = "1" then [Token.leaf (text "default" ("conf-" ++ dtb))] else []) ++
        nodeTokens (configNode env ramdisk default dtb) := by
  have hsignature : (if confSignKeyname env ≠ "" then
      Token.enter "signature-1" ::
        (signatureProperties env dtb ramdisk (setupcount env) (hashType env)).map Token.leaf ++
        [Token.leave]
      else []) = (signatureNodes env dtb ramdisk (setupcount env) (hashType env)).flatMap
        nodeTokens := by
    unfold signatureNodes
    by_cases h : confSignKeyname env ≠ ""
    · rw [if_pos h, if_pos h]
      simp [nodeTokens, tokens_level]
    · rw [if_neg h, if_neg h]
      rfl
  rw [fitimageEmitSectionConfig, hsignature, hashBlk_eq, nodeTokens, configNode, tokens_level,
    List.flatMap_append]
  simp only [List.cons_append, List.append_assoc]

theorem packConfigs_eq_of_ne (i : ℕ) (dtbs : List String) (hi : 1 < i) :
    packConfigs env ramdisk i dtbs =
      (dtbs.map (configNode env ramdisk "0")).flatMap nodeTokens := by
  induction dtbs generalizing i with
  | nil => rfl
  | cons dtb dtbs ih =>
    have hne : i ≠ 1 := by omega
    rw [packConfigs, ih (i + 1) (by omega), if_neg hne, fitimageEmitSectionConfig_eq]
    simp

theorem packConfigs_eq (dtbs : List String) :
    packConfigs env ramdisk 1 dtbs =
      (level (defaultProperty dtbs) (configNodes env ramdisk dtbs)).tokens := by
  rw [tokens_level]
  cases dtbs with
  | nil => rfl
  | cons dtb dtbs =>
    rw [packConfigs, packConfigs_eq_of_ne env ramdisk 2 dtbs (by omega),
      fitimageEmitSectionConfig_eq]
    simp [defaultProperty, configNodes]

theorem findKernel_eq : findKernel env =
    if env.fileExists (env.deployDirImage ++ "/") then some (env.deployDirImage ++ "/zImage")
    else none := by
  have hslash : env.deployDirImage ++ "/" ++ "zImage" = env.deployDirImage ++ "/zImage" := by
    rw [String.append_assoc]
    rfl
  unfold findKernel
  by_cases h : env.fileExists (env.deployDirImage ++ "/")
  · simp [h, hslash]
  · simp [h]

theorem fitimageAssemble_eq (h : env.fileExists (env.deployDirImage ++ "/") = true) :
    fitimageAssemble env ramdisk = some ⟨(itsOf env ramdisk).tokens,
      [.build] ++ if env.ubootSignEnable = "1" then [.sign] else []⟩ := by
  have hkernel : fitimageEmitSectionKernel env "1" (env.deployDirImage ++ "/zImage") "none"
      (hashType env) = nodeTokens (kernelNode env) := emitSectionImage_eq _ _ _
  have himages : fitimageEmitSectionKernel env "1" (env.deployDirImage ++ "/zImage") "none"
      (hashType env) ++ (packDtbs env).lines ++ packSetup env ++ packRamdisk env ramdisk =
      (level [] (imageNodes env ramdisk)).tokens := by
    rw [hkernel, packDtbs_lines, packSetup_eq, packRamdisk_eq, tokens_level, imageNodes]
    simp only [List.map_nil, List.nil_append, List.flatMap_append, List.flatMap_cons,
      List.append_assoc, List.cons_append]
  have hits : (itsOf env ramdisk).tokens = fitimageEmitFitHeader env ++
      fitimageEmitSectionMaint .imagestart ++ (level [] (imageNodes env ramdisk)).tokens ++
      fitimageEmitSectionMaint .sectend ++ fitimageEmitSectionMaint .confstart ++
      (configsNode env ramdisk).tokens ++ fitimageEmitSectionMaint .sectend ++
      fitimageEmitSectionMaint .fitend := by
    rw [itsOf, tokens_level]
    simp only [nodeTokens, tokens_level, List.map_nil, List.nil_append, List.flatMap_cons,
      List.flatMap_nil, List.append_nil, fitimageEmitFitHeader, fitimageEmitSectionMaint,
      List.map_cons, List.cons_append, List.append_assoc]
  rw [fitimageAssemble, findKernel_eq, if_pos h]
  simp only [packDtbs_words, packConfigs_eq]
  rw [hits, ← himages]
  simp only [configsNode, List.append_assoc]

end Lines

/-! ### What the tree says -/

theorem head?_append {p : String} {c : Char} (a : String) (hp : p.toList.head? = some c) :
    (p ++ a).toList.head? = some c := by
  rw [String.toList_append, List.head?_append, hp, Option.some_or]

theorem ne_of_head? {s t : String} {c d : Char} (hs : s.toList.head? = some c)
    (ht : t.toList.head? = some d) (hne : c ≠ d) : s ≠ t := by
  rintro rfl
  exact hne (Option.some.inj (hs.symm.trans ht))

theorem slash_not_mem_dtbName (word : String) : '/' ∉ (dtbName word).toList := by
  intro h
  rw [dtbName, String.toList_ofList, slashesToUnderscores, List.mem_map] at h
  obtain ⟨c, -, hc⟩ := h
  by_cases hslash : c = '/'
  · rw [if_pos hslash] at hc
    exact absurd hc (by decide)
  · rw [if_neg hslash] at hc
    exact hslash hc

theorem slash_mem_dtbPath (env : Env) (word : String) : '/' ∈ (dtbPath env word).toList := by
  simp [dtbPath, String.toList_append]

section Tree

variable {env : Env} {ramdisk : String}

theorem images_itsOf : images (itsOf env ramdisk) = level [] (imageNodes env ramdisk) := by
  simp [images, sub, itsOf]

theorem configurations_itsOf : configurations (itsOf env ramdisk) = configsNode env ramdisk := by
  simp [configurations, sub, itsOf]

theorem mem_names_images {name : String} : name ∈ names (images (itsOf env ramdisk)) ↔
    name = "kernel-1" ∨
    (∃ word ∈ foundDtbs env, name = "fdt-" ++
      if dtbName word = "" then dtbPath env word else dtbName word) ∨
    (name = "setup-1" ∧ env.fileExists (setupPath env) = true) ∨
    (name = "ramdisk-1" ∧ ramdisk = "1" ∧ (findInitramfs env).isSome) := by
  have hdtb : ∀ word, (dtbNode env word).1 = "fdt-" ++
      if dtbName word = "" then dtbPath env word else dtbName word := by
    intro word
    unfold dtbNode
    by_cases h : dtbName word = ""
    · rw [if_pos h, if_pos h]
      rfl
    · rw [if_neg h, if_neg h]
      rfl
  have hsetup : name ∈ (setupNodes env).map Prod.fst ↔
      name = "setup-1" ∧ env.fileExists (setupPath env) = true := by
    unfold setupNodes
    by_cases h : env.fileExists (setupPath env)
    · simp [h, imageNode]
    · simp [h]
  have hramdisk : name ∈ (ramdiskNodes env ramdisk).map Prod.fst ↔
      name = "ramdisk-1" ∧ ramdisk = "1" ∧ (findInitramfs env).isSome := by
    unfold ramdiskNodes
    by_cases h : ramdisk = "1"
    · cases findInitramfs env with
      | none => simp [h]
      | some path => simp [h, imageNode]
    · simp [h]
  rw [images_itsOf, names, nodesHere_level, imageNodes, List.map_append, List.map_append,
    List.mem_append, List.mem_append, hsetup, hramdisk, List.map_cons, List.mem_cons, List.map_map,
    List.mem_map]
  simp only [Function.comp_apply, hdtb, or_assoc, kernelNode, imageNode, eq_comm]

theorem references_configNode (default dtb : String) :
    references (configNode env ramdisk default dtb).2 =
      [("kernel", "kernel-1")] ++ (if dtb ≠ "" then [("fdt", "fdt-" ++ dtb)] else []) ++
      (if ramdisk ≠ "" then [("ramdisk", "ramdisk-" ++ ramdisk)] else []) ++
      (if env.fileExists (setupPath env) then [("setup", "setup-1")] else []) := by
  have hsetup : (if setupcount env ≠ "" then [text "setup" ("setup-" ++ setupcount env)] else []) =
      if env.fileExists (setupPath env) then [text "setup" "setup-1"] else [] := by
    unfold setupcount
    by_cases h : env.fileExists (setupPath env)
    · simp only [if_pos h]
      rfl
    · simp only [if_neg h]
      rfl
  rw [references, configNode, leavesHere_level, confProperties, hsetup]
  simp only [List.filterMap_append]
  congr 1
  · congr 1
    · congr 1
      by_cases h : dtb ≠ ""
      · rw [if_pos h, if_pos h]
        rfl
      · rw [if_neg h, if_neg h]
        rfl
    · by_cases h : ramdisk ≠ ""
      · rw [if_pos h, if_pos h]
        rfl
      · rw [if_neg h, if_neg h]
        rfl
  · by_cases h : env.fileExists (setupPath env)
    · rw [if_pos h, if_pos h]
      rfl
    · rw [if_neg h, if_neg h]
      rfl

theorem exists_configNode {dtbs : List String} {conf : String × Its}
    (h : conf ∈ configNodes env ramdisk dtbs) :
    ∃ default, ∃ dtb ∈ dtbs, conf = configNode env ramdisk default dtb := by
  cases dtbs with
  | nil => exact absurd h List.not_mem_nil
  | cons dtb dtbs =>
    cases List.mem_cons.mp h with
    | inl heq => exact ⟨"1", dtb, List.mem_cons_self, heq⟩
    | inr hmem =>
      obtain ⟨dtb', hdtb', rfl⟩ := List.mem_map.mp hmem
      exact ⟨"0", dtb', List.mem_cons_of_mem _ hdtb', rfl⟩

theorem exists_mem_configNodes (env : Env) (ramdisk : String) {dtbs : List String} {dtb : String}
    (h : dtb ∈ dtbs) :
    ∃ default, configNode env ramdisk default dtb ∈ configNodes env ramdisk dtbs := by
  cases dtbs with
  | nil => exact absurd h List.not_mem_nil
  | cons dtb' dtbs =>
    cases List.mem_cons.mp h with
    | inl heq => exact ⟨"1", heq ▸ List.mem_cons_self⟩
    | inr hmem => exact ⟨"0", List.mem_cons_of_mem _ (List.mem_map_of_mem hmem)⟩

theorem names_configNodes (dtbs : List String) :
    (configNodes env ramdisk dtbs).map Prod.fst = dtbs.map ("conf-" ++ ·) := by
  cases dtbs with
  | nil => rfl
  | cons dtb dtbs =>
    rw [configNodes, List.map_cons, List.map_cons, List.map_map]
    rfl

theorem mem_confDtbs {dtb : String} :
    dtb ∈ confDtbs env ↔ dtb ≠ "" ∧ ∃ word ∈ foundDtbs env, dtbName word = dtb := by
  rw [confDtbs, List.mem_filter, List.mem_map, and_comm, decide_eq_true_iff]

/-! ### What dtc asks -/

theorem wellFormed_level {bs : List Property} {ns : List (String × Its)}
    (hbs : (bs.map Property.name).Nodup) (hns : (ns.map Prod.fst).Nodup) :
    WellFormed (level bs ns) where
  leavesFirst := leavesFirst_level bs ns
  properties := by rwa [leavesHere_level]
  nodes := by rwa [names, nodesHere_level]

theorem hashNodes_wellFormed (csum : String) :
    ((hashNodes csum).map Prod.fst).Nodup ∧
      ∀ n ∈ hashNodes csum, WellFormed n.2 ∧ n.2.BelowAll WellFormed := by
  unfold hashNodes
  by_cases h : csum ≠ ""
  · rw [if_pos h]
    refine ⟨List.nodup_singleton _, ?_⟩
    intro n hn
    rw [List.mem_singleton.mp hn, belowAll_level]
    exact ⟨wellFormed_level (List.nodup_singleton _) List.nodup_nil, by simp⟩
  · rw [if_neg h]
    exact ⟨List.nodup_nil, by simp⟩

theorem imageNode_wellFormed (name : String) {properties : List Property} (hash : String)
    (h : (properties.map Property.name).Nodup) :
    WellFormed (imageNode name properties hash).2 ∧
      (imageNode name properties hash).2.BelowAll WellFormed :=
  ⟨wellFormed_level h (hashNodes_wellFormed hash).1,
    (belowAll_level _ _).mpr (hashNodes_wellFormed hash).2⟩

theorem ramdiskProperties_nodup (env : Env) (path : String) :
    ((ramdiskProperties env path).map Property.name).Nodup := by
  unfold ramdiskProperties
  by_cases hload : env.ubootRdLoadaddress ≠ ""
  · by_cases hentry : env.ubootRdEntrypoint ≠ ""
    · rw [if_pos hload, if_pos hentry]
      exact (by decide : ["description", "data", "type", "arch", "os", "compression", "load",
        "entry"].Nodup)
    · rw [if_pos hload, if_neg hentry]
      exact (by decide : ["description", "data", "type", "arch", "os", "compression",
        "load"].Nodup)
  · by_cases hentry : env.ubootRdEntrypoint ≠ ""
    · rw [if_neg hload, if_pos hentry]
      exact (by decide : ["description", "data", "type", "arch", "os", "compression",
        "entry"].Nodup)
    · rw [if_neg hload, if_neg hentry]
      exact (by decide : ["description", "data", "type", "arch", "os", "compression"].Nodup)

theorem imageNodes_wellFormed :
    ∀ n ∈ imageNodes env ramdisk, WellFormed n.2 ∧ n.2.BelowAll WellFormed := by
  have hdtb : ∀ path, ((dtbProperties env path).map Property.name).Nodup := fun path =>
    (by decide : ["description", "data", "type", "arch", "compression"].Nodup)
  have hplaced : ["description", "data", "type", "arch", "os", "compression", "load",
      "entry"].Nodup := by decide
  intro n hn
  rw [imageNodes, List.mem_append, List.mem_append, List.mem_cons, List.mem_map] at hn
  rcases hn with ((hkernel | ⟨word, -, hword⟩) | hsetup) | hramdisk
  · rw [hkernel]
    exact imageNode_wellFormed _ _ hplaced
  · rw [← hword, dtbNode]
    by_cases h : dtbName word = ""
    · rw [if_pos h]
      exact imageNode_wellFormed _ _ (hdtb _)
    · rw [if_neg h]
      exact imageNode_wellFormed _ _ (hdtb _)
  · unfold setupNodes at hsetup
    by_cases h : env.fileExists (setupPath env)
    · rw [if_pos h] at hsetup
      rw [List.mem_singleton.mp hsetup]
      exact imageNode_wellFormed _ _ hplaced
    · rw [if_neg h] at hsetup
      exact absurd hsetup List.not_mem_nil
  · unfold ramdiskNodes at hramdisk
    by_cases h : ramdisk = "1"
    · rw [if_pos h, Option.mem_toList, Option.map_eq_some_iff] at hramdisk
      obtain ⟨path, -, hpath⟩ := hramdisk
      rw [← hpath]
      exact imageNode_wellFormed _ _ (ramdiskProperties_nodup env path)
    · rw [if_neg h] at hramdisk
      exact absurd hramdisk List.not_mem_nil

theorem confProperties_nodup (kernel dtb ramdisk setup default : String) :
    ((confProperties kernel dtb ramdisk setup default).map Property.name).Nodup := by
  have hall : ["description", "kernel", "fdt", "ramdisk", "setup"].Nodup := by decide
  have hoptional : ∀ (p : Prop) [Decidable p] (name value : String),
      List.Sublist ((if p then [text name value] else []).map Property.name) [name] := by
    intro p _ name value
    by_cases h : p
    · rw [if_pos h]
      exact List.Sublist.refl _
    · rw [if_neg h]
      exact List.nil_sublist _
  apply List.Nodup.sublist _ hall
  rw [confProperties, List.map_append, List.map_append, List.map_append]
  exact (((List.Sublist.refl ["description", "kernel"]).append (hoptional _ _ _)).append
    (hoptional _ _ _)).append (hoptional _ _ _)

theorem configNode_wellFormed (default dtb : String) :
    WellFormed (configNode env ramdisk default dtb).2 ∧
      (configNode env ramdisk default dtb).2.BelowAll WellFormed := by
  have hsignature : ∀ hash setup,
      List.Sublist ((signatureNodes env dtb ramdisk setup hash).map Prod.fst) ["signature-1"] ∧
      ∀ n ∈ signatureNodes env dtb ramdisk setup hash,
        WellFormed n.2 ∧ n.2.BelowAll WellFormed := by
    intro hash setup
    unfold signatureNodes
    by_cases h : confSignKeyname env ≠ ""
    · rw [if_pos h]
      refine ⟨List.Sublist.refl _, ?_⟩
      intro n hn
      rw [List.mem_singleton.mp hn, belowAll_level]
      exact ⟨wellFormed_level (by decide : ["algo", "key-name-hint", "sign-images"].Nodup)
        List.nodup_nil, by simp⟩
    · rw [if_neg h]
      exact ⟨List.nil_sublist _, by simp⟩
  have hhash : List.Sublist ((hashNodes (hashType env)).map Prod.fst) ["hash-1"] := by
    unfold hashNodes
    by_cases h : hashType env ≠ ""
    · rw [if_pos h]
      exact List.Sublist.refl _
    · rw [if_neg h]
      exact List.nil_sublist _
  obtain ⟨hnames, hbelow⟩ := hsignature (hashType env) (setupcount env)
  constructor
  · apply wellFormed_level (confProperties_nodup _ _ _ _ _)
    rw [List.map_append]
    exact List.Nodup.sublist (hhash.append hnames) (by decide : ["hash-1", "signature-1"].Nodup)
  · rw [configNode, belowAll_level]
    intro n hn
    cases List.mem_append.mp hn with
    | inl h => exact (hashNodes_wellFormed _).2 n h
    | inr h => exact hbelow n h

theorem defaultProperty_nodup (dtbs : List String) :
    ((defaultProperty dtbs).map Property.name).Nodup := by
  cases dtbs with
  | nil => exact List.nodup_nil
  | cons dtb dtbs => exact List.nodup_singleton _

/-- Nothing but the names of the images and of the configurations can be wrong. -/
theorem wellFormed_itsOf_iff : (itsOf env ramdisk).BelowAll WellFormed ↔
    (names (images (itsOf env ramdisk))).Nodup ∧ (confDtbs env).Nodup := by
  have hconf : ((configNodes env ramdisk (confDtbs env)).map Prod.fst).Nodup ↔
      (confDtbs env).Nodup := by
    rw [names_configNodes]
    exact List.nodup_map_iff fun a b h => (String.append_right_inj "conf-").mp h
  rw [images_itsOf, names, nodesHere_level, itsOf, belowAll_level]
  constructor
  · intro h
    have hroot := (belowAll_level _ _).mp (h _ List.mem_cons_self).2
    have himages := (hroot _ List.mem_cons_self).1.nodes
    have hconfigs := (hroot _ (List.mem_cons_of_mem _ List.mem_cons_self)).1.nodes
    rw [names, nodesHere_level] at himages
    rw [configsNode, names, nodesHere_level] at hconfigs
    exact ⟨himages, hconf.mp hconfigs⟩
  · rintro ⟨himages, hconfigs⟩ n hn
    rw [List.mem_singleton.mp hn, belowAll_level]
    refine ⟨wellFormed_level (by decide : ["description", "#address-cells"].Nodup)
      (by decide : ["images", "configurations"].Nodup), ?_⟩
    intro m hm
    rcases List.mem_cons.mp hm with rfl | hm
    · exact ⟨wellFormed_level List.nodup_nil himages, (belowAll_level _ _).mpr
        imageNodes_wellFormed⟩
    · rw [List.mem_singleton.mp hm]
      refine ⟨wellFormed_level (defaultProperty_nodup _) (hconf.mpr hconfigs), ?_⟩
      rw [configsNode, belowAll_level]
      intro conf hmem
      obtain ⟨default, dtb, -, rfl⟩ := exists_configNode hmem
      exact configNode_wellFormed default dtb

end Tree

end MetaCommon.FullFitimage
